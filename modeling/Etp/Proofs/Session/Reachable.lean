import Etp.Proofs.Session.Run

/-!
# Reachable sessions

A session holds reports back only while it completes an exchange; between two operations there are none
(`Reachable.deferred_eq`).  The peer may be changed at any time, since handlers and the application
around a session have access to it.
-/

namespace Etp.Session

variable {σ : Type}

/-- The sessions that an endpoint can have, whatever it receives and sends. -/
inductive Reachable : Session → Prop
  | start (settings : Settings) (peerNumber : Nat) (blobs : Uuid.Supply) :
    Reachable (Session.start settings peerNumber blobs)
  | handled {σ : Type} {s : Session} (registry : Registry σ) (now : Nat) (world : σ)
    (input : Option Message) (h : Reachable s) :
    Reachable (handleMessage registry now s world input).session
  | encoded {s : Session} (ms : List Message) (h : Reachable s) : Reachable (encodeAll ms s).2.2
  | drawn {s : Session} (h : Reachable s) : Reachable s.drawId.2
  | swept {s : Session} (now : Nat) (h : Reachable s) : Reachable (s.sweep now).2.2
  | informed {s : Session} (peer : Peer) (h : Reachable s) : Reachable { s with peer := peer }

/-- What a session has at the start, and what no input, no new identifier, no sweep and no news of the peer
takes away, every session has. -/
theorem Reachable.preserved {P : Session → Prop}
    (hstart : ∀ settings peerNumber blobs, P (Session.start settings peerNumber blobs))
    (hhandled : ∀ {σ : Type} (registry : Registry σ) now (s : Session) world input, P s →
      P (handleMessage registry now s world input).session)
    (hfresh : ∀ s fresh, P s → P { s with fresh := fresh })
    (hswept : ∀ s now, P s → P (s.sweep now).2.2)
    (hinformed : ∀ s peer, P s → P { s with peer := peer }) {s : Session} (h : Reachable s) : P s := by
  induction h with
  | start settings peerNumber blobs => exact hstart settings peerNumber blobs
  | handled registry now world input _ ih => exact hhandled registry now _ world input ih
  | @encoded s ms _ ih =>
    obtain ⟨fresh, hencoded⟩ := encodeAll_advances ms s
    rw [hencoded]
    exact hfresh s fresh ih
  | drawn _ ih => exact hfresh _ _ ih
  | swept now _ ih => exact hswept _ now ih
  | informed peer _ ih => exact hinformed _ peer ih

/-- What is held back is what was held back before, and reports of the exchange. -/
theorem deferred_deferAbsent {id : Int64} {replies : List (Option Message)} {s : Session}
    {d : Int64 × Message} (hd : d ∈ (deferAbsent id replies s).2.2.deferred) :
    d ∈ s.deferred ∨ d.1 = id := by
  induction replies generalizing s with
  | nil => exact .inl hd
  | cons reply replies ih =>
    cases reply with
    | some reply => exact ih hd
    | none =>
      rcases ih hd with hold | hid
      · rcases List.mem_append.1 hold with hold | hnew
        · exact .inl hold
        · exact .inr (congrArg Prod.fst (List.mem_singleton.1 hnew))
      · exact .inr hid

theorem deferred_dispatch (registry : Registry σ) (s : Session) (world : σ) (m : Message) :
    (dispatch registry s world m).session.deferred = s.deferred := by
  obtain ⟨peer, fresh, hsession⟩ := dispatch_informs registry s world m
  rw [hsession]

/-- The way of a message up to where it is collected or handled holds nothing back. -/
theorem deferred_receive {onward : Session → σ → Message → Turn σ Replies}
    (honward : ∀ s world m, s.deferred = [] → (onward s world m).session.deferred = [])
    {s : Session} (world : σ) (m : Message) (hs : s.deferred = []) :
    (receive onward s world m).session.deferred = [] :=
  receive_preserves (fun _ _ h => h) (fun _ h => h) (fun _ _ h => h) honward world m hs

theorem deferred_receive_dispatch (registry : Registry σ) {s : Session} (world : σ) (m : Message)
    (hs : s.deferred = []) : (receive (dispatch registry) s world m).session.deferred = [] :=
  deferred_receive (fun t world m ht => (deferred_dispatch registry t world m).trans ht) world m hs

/-- What is held back for an exchange, if nothing is held back for another one. -/
theorem deferredFor_eq {s : Session} {id : Int64} {reports : List Message}
    (h : s.deferred = reports.map (id, ·)) : s.deferredFor id = reports := by
  rw [deferredFor, h]
  simp [List.filter_map, Function.comp_def]

theorem deferred_complete (registry : Registry σ) {s : Session} (world : σ) (id : Int64)
    (hs : s.deferred = []) : (complete registry s world id).session.deferred = [] := by
  unfold complete
  simp only
  split
  · simp [forgetDeferred, hs]
  · rename_i m _
    have hreceive := deferred_receive_dispatch registry
      (s := { s with assemblies := s.assemblies.erase id }) world (whole m) hs
    split
    · exact hreceive
    · apply List.filter_eq_nil_iff.2
      intro d hd
      rcases deferred_deferAbsent hd with hold | hid
      · rw [hreceive] at hold
        cases hold
      · simp [hid]

theorem deferred_route (registry : Registry σ) (now : Nat) {s : Session} (world : σ) (m : Message)
    (hs : s.deferred = []) : (route registry now s world m).session.deferred = [] := by
  unfold route
  split
  · unfold collect
    simp only
    split
    · exact hs
    · split
      · exact deferred_complete registry world _ hs
      · exact hs
  · exact (deferred_dispatch registry s world m).trans hs

/-- Between two operations nothing is held back. -/
theorem Reachable.deferred_eq {s : Session} (h : Reachable s) : s.deferred = [] := by
  refine h.preserved (P := fun s => s.deferred = []) ?_ ?_ ?_ ?_ ?_
  · exact fun _ _ _ => rfl
  · intro σ registry now s world input hs
    cases input with
    | none => exact hs
    | some m =>
      exact deferred_receive (fun s world m hs => deferred_route registry now world m hs) world m hs
  · exact fun _ _ hs => hs
  · intro s now hs
    unfold sweep
    split
    · exact hs
    · simp [hs]
  · exact fun _ _ hs => hs

end Etp.Session
