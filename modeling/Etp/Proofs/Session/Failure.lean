import Etp.Proofs.Session.Admission
import Etp.Proofs.Session.Reachable

/-!
# When a session fails

The parts that a session holds wait for the final one of their exchange: they are parts of that exchange,
and none of them is final (`Reachable.unfinished`).  A message made whole from them is always answered, so
there is one way in which an input can fail, and `failure_iff` says exactly which: the final part of an
exchange is taken, and no part that arrived names the objects to which the chunks belong.  Then the parts
are gone, and nothing else has changed.
-/

namespace Etp

/-! ## Parts that wait -/

/-- The message is a part of an exchange, but not the final one. -/
structure Message.Waits (p : Message) (id : Int64) : Prop where
  isMultipart : p.isMultipart = true
  not_isFinal : p.isFinal = false
  isPart : p.isChunk = true ∨ p.isReferencer = true
  exchangeId_eq : p.exchangeId = id

/-- The assembly of an exchange whose final part has not arrived. -/
structure Assembly.Unfinished (a : Assembly) : Prop where
  nonempty : a.parts ≠ []
  waits : ∀ p ∈ a.parts, p.Waits a.exchangeId

/-- All assemblies are those of exchanges whose final part has not arrived. -/
def Assemblies.Unfinished (as : Assemblies) : Prop := ∀ a ∈ as.toList, a.Unfinished

theorem Message.waits_of_isCollected {p : Message} (hcollected : Session.isCollected p = true)
    (hfinal : p.isFinal = false) : p.Waits p.exchangeId := by
  obtain ⟨hmultipart, hpart⟩ := (Bool.and_eq_true _ _).mp hcollected
  exact ⟨hmultipart, hfinal, (Bool.or_eq_true _ _).mp hpart, rfl⟩

theorem Assembly.Unfinished.addPart {a : Assembly} (h : a.Unfinished) {p : Message} {id : Int64}
    (hp : p.Waits id) : (a.addPart id p).Unfinished := by
  unfold Assembly.addPart
  split
  case isTrue hid =>
    constructor
    · simp
    · intro q hq
      rcases List.mem_append.1 hq with hq | hq
      · exact h.waits q hq
      · rw [List.mem_singleton.1 hq, hid]
        exact hp
  case isFalse => exact h

namespace Assemblies

theorem Unfinished.filter {as : Assemblies} (h : as.Unfinished) (keep : Assembly → Bool) :
    (as.filter keep).Unfinished :=
  fun a ha => h a (List.mem_filter.1 ha).1

/-- A part that waits is put to the others, or opens an assembly of its own. -/
theorem Unfinished.push {as : Assemblies} (h : as.Unfinished) {p : Message} {id : Int64}
    (hp : p.Waits id) (now : Nat) : (as.push id p now).Unfinished := by
  intro a ha
  cases hcontains : as.contains id with
  | false =>
    rw [toList_push_of_not_contains hcontains] at ha
    rcases List.mem_append.1 ha with ha | ha
    · exact h a ha
    · rw [List.mem_singleton.1 ha]
      exact ⟨List.cons_ne_nil p [], List.forall_mem_singleton.2 hp⟩
  | true =>
    rw [toList_push_of_contains hcontains] at ha
    obtain ⟨b, hb, rfl⟩ := List.mem_map.1 ha
    exact (h b hb).addPart hp

end Assemblies

namespace Session

variable {σ : Type}

/-- Whatever an input is, what is held afterwards waits for a final part. -/
theorem unfinished_heldAfter {s : Session} (h : s.assemblies.Unfinished) (now : Nat)
    (input : Option Message) : (s.heldAfter now input).Unfinished := by
  unfold heldAfter
  split
  case h_1 => exact h
  case h_2 p =>
    split
    case isTrue htakes =>
      split
      case isTrue => exact h.filter _
      case isFalse hfinal =>
        exact h.push (Message.waits_of_isCollected htakes.collected (Bool.eq_false_iff.2 hfinal)) now
    case isFalse => exact h

/-- Between two operations a session holds nothing but parts that wait for the final one. -/
theorem Reachable.unfinished {s : Session} (h : s.Reachable) : s.assemblies.Unfinished := by
  refine h.preserved (P := fun s => s.assemblies.Unfinished) ?_ ?_ ?_ ?_ ?_
  · exact fun _ _ _ a ha => nomatch ha
  · intro σ registry now s world input hs
    rw [assemblies_handleMessage]
    exact unfinished_heldAfter hs now input
  · exact fun _ _ hs => hs
  · intro s now hs
    unfold sweep
    split
    · exact hs
    · exact hs.filter _
  · exact fun _ _ hs => hs

/-! ## Failures -/

/-- A message that is not collected is answered, if only with a report. -/
theorem receive_answered (registry : Registry σ) (s : Session) (world : σ) (m : Message) :
    ∃ replies, (receive (dispatch registry) s world m).result = .ok replies := by
  cases hgate : s.gate m with
  | some fault =>
    rw [receive_refused _ world hgate]
    exact ⟨_, rfl⟩
  | none =>
    by_cases hcloses : s.connected = true ∧ m.body.kind = .closeSession
    · rw [receive_closing _ world hgate hcloses.1 hcloses.2]
      exact ⟨_, rfl⟩
    · obtain ⟨replies, hreplies⟩ :=
        dispatch_answered registry ((s.acknowledge m).2.openBy m.body) world m
      rw [receive_passing _ world hgate hcloses]
      simp only [hreplies]
      exact ⟨_, rfl⟩

/-- The message of a complete exchange is received by the session without the assembly. -/
theorem complete_received (registry : Registry σ) {s : Session} (world : σ) {id : Int64} {m : Message}
    (hparts : Message.reassemble (s.assemblies.parts id) = some m) :
    let turn := complete registry s world id
    let received := receive (dispatch registry) (s.holding (s.assemblies.erase id)) world (whole m)
    (∃ replies, turn.result = .ok replies) ∧ turn.world = received.world ∧
      calls turn.events = calls received.events := by
  intro turn received
  obtain ⟨replies, hreplies⟩ : ∃ replies, received.result = .ok replies :=
    receive_answered registry _ world (whole m)
  obtain ⟨-, hcalls⟩ := deferAbsent_spec id replies received.session
  have hreceived : receive (dispatch registry) { s with assemblies := s.assemblies.erase id } world
      (whole m) = received := rfl
  simp only [turn, complete, hparts, hreceived, hreplies]
  refine ⟨⟨_, rfl⟩, trivial, ?_⟩
  rw [calls_append, calls_reassembled, hcalls, List.append_nil]

/-- A message that the session does not take is answered. -/
theorem answered_of_not_takes (registry : Registry σ) (now : Nat) {s : Session} (world : σ)
    {m : Message} (h : ¬ s.Takes m) :
    ∃ replies, (handleMessage registry now s world (some m)).result = .ok replies := by
  by_cases hcollected : isCollected m = true
  · exact (idle_of_not_takes registry now world hcollected h).2
  · obtain ⟨replies, hreplies⟩ := receive_answered registry s world m
    rw [handleMessage_eq,
      receive_not_collected registry now s world (Bool.eq_false_iff.2 hcollected)]
    simp only [Turn.present, hreplies]
    exact ⟨_, rfl⟩

/-- The message is the final chunk of an exchange that the session takes, and no part of the exchange is
a referencer. -/
structure Orphaned (s : Session) (p : Message) : Prop where
  takes : s.Takes p
  isFinal : p.isFinal = true
  isChunk : p.isChunk = true
  no_referencer : ∀ q ∈ s.assemblies.parts p.exchangeId, q.isReferencer = false

theorem Orphaned.reassemble_eq {s : Session} {p : Message} (h : s.Orphaned p) :
    Message.reassemble (s.assemblies.parts p.exchangeId ++ [p]) = none := by
  apply Message.reassemble_eq_none_iff.2
  intro q hq
  rcases List.mem_append.1 hq with hq | hq
  · exact h.no_referencer q hq
  · rw [List.mem_singleton.1 hq, Message.isReferencer, h.isChunk]
    rfl

/-- A final part that leaves its exchange without a referencer is itself a chunk. -/
theorem orphaned_of_reassemble {s : Session} {p : Message} (htakes : s.Takes p)
    (hfinal : p.isFinal = true)
    (hparts : Message.reassemble (s.assemblies.parts p.exchangeId ++ [p]) = none) : s.Orphaned p := by
  have hnone := Message.reassemble_eq_none_iff.1 hparts
  have hpart : p.isChunk = true ∨ p.isReferencer = true := by
    simpa using ((Bool.and_eq_true _ _).mp htakes.collected).2
  refine ⟨htakes, hfinal, ?_, fun q hq => hnone q (List.mem_append_left _ hq)⟩
  apply hpart.resolve_right
  rw [hnone p (List.mem_append_right _ (List.mem_singleton.2 rfl))]
  exact Bool.false_ne_true

theorem not_acknowledge_of_isCollected {p : Message} (h : isCollected p = true) :
    p.body.kind ≠ .acknowledge := by
  intro hkind
  have hcore := not_core_of_isCollected h
  rw [hkind] at hcore
  exact hcore rfl

theorem acknowledge_of_takes {s : Session} {p : Message} (htakes : s.Takes p) :
    (s.acknowledge p).2 =
      { s with fresh := if p.wantsAcknowledge then s.fresh.drawId.2 else s.fresh } := by
  have hkind := not_acknowledge_of_isCollected htakes.collected
  unfold acknowledge
  cases p.wantsAcknowledge with
  | false => rfl
  | true =>
    rw [if_pos (by simpa using hkind)]
    rfl

/-- The turn that fails: the parts of the exchange are dropped, and an identifier is drawn if an
acknowledgement was asked for. -/
theorem handleMessage_orphaned (registry : Registry σ) (now : Nat) {s : Session}
    (hdeferred : s.deferred = []) (world : σ) {p : Message} (h : s.Orphaned p) :
    handleMessage registry now s world (some p) =
      ⟨{ s with
          assemblies := s.assemblies.erase p.exchangeId
          fresh := if p.wantsAcknowledge then s.fresh.drawId.2 else s.fresh },
        world, [.inbound], .error (.missingReferencer p.exchangeId)⟩ := by
  rw [handleMessage_taking registry now world h.takes, acknowledge_of_takes h.takes]
  simp only [h.isFinal, if_true, complete, holding, Assemblies.parts_push, h.reassemble_eq,
    Assemblies.erase_push, forgetDeferred, hdeferred]
  rfl

/-- A session that takes a part fails only if the part is final and leaves its exchange without a
referencer. -/
theorem orphaned_of_failure (registry : Registry σ) (now : Nat) {s : Session} (world : σ)
    {input : Option Message} {err : ConnectionError}
    (hresult : (handleMessage registry now s world input).result = .error err) :
    ∃ p, input = some p ∧ s.Orphaned p := by
  match input with
  | none => cases hresult
  | some p =>
    refine ⟨p, rfl, ?_⟩
    -- Every other way of the input ends with replies.
    by_cases htakes : s.Takes p
    · rw [handleMessage_taking registry now world htakes] at hresult
      cases hfinal : p.isFinal with
      | false =>
        simp only [hfinal] at hresult
        cases hresult
      | true =>
        apply orphaned_of_reassemble htakes hfinal
        obtain ⟨fresh, hacknowledged⟩ := s.acknowledge_advances p
        cases hparts : Message.reassemble (s.assemblies.parts p.exchangeId ++ [p]) with
        | none => rfl
        | some m =>
          rw [← s.assemblies.parts_push p.exchangeId p now] at hparts
          obtain ⟨⟨replies, hreplies⟩, -⟩ := complete_received registry
            (s := { s with fresh := fresh, assemblies := s.assemblies.push p.exchangeId p now }) world
            hparts
          simp only [hfinal, if_true, hacknowledged, holding, Turn.present, hreplies] at hresult
          cases hresult
    · obtain ⟨replies, hreplies⟩ := answered_of_not_takes registry now world htakes
      rw [hreplies] at hresult
      cases hresult

/-- Between two operations, what is held waits for a final part and no report is held back.  An input
fails if and only if it is a final chunk that the session takes although no part of its exchange is a
referencer; then the parts of that exchange are dropped, and nothing else happens but that an identifier
is drawn if an acknowledgement was asked for. -/
theorem failure_iff {s : Session} (hreachable : s.Reachable) (registry : Registry σ) (now : Nat)
    (world : σ) (input : Option Message) :
    let turn := handleMessage registry now s world input
    s.assemblies.Unfinished ∧ s.deferred = [] ∧
      (∀ err, turn.result = .error err ↔
        ∃ p, input = some p ∧ s.Orphaned p ∧ err = .missingReferencer p.exchangeId) ∧
      ∀ err, turn.result = .error err → ∃ p, input = some p ∧
        turn.session = { s with
          assemblies := s.assemblies.erase p.exchangeId
          fresh := if p.wantsAcknowledge then s.fresh.drawId.2 else s.fresh } ∧
        turn.world = world ∧ turn.events = [.inbound] := by
  intro turn
  have hdeferred := hreachable.deferred_eq
  refine ⟨hreachable.unfinished, hdeferred, ?_, ?_⟩
  · intro err
    constructor
    · intro hresult
      obtain ⟨p, rfl, horphaned⟩ := orphaned_of_failure registry now world hresult
      have hturn := handleMessage_orphaned registry now hdeferred world horphaned
      simp only [turn, hturn] at hresult
      exact ⟨p, rfl, horphaned, (Except.error.inj hresult).symm⟩
    · rintro ⟨p, rfl, horphaned, rfl⟩
      simp only [turn, handleMessage_orphaned registry now hdeferred world horphaned]
  · intro err hresult
    obtain ⟨p, rfl, horphaned⟩ := orphaned_of_failure registry now world hresult
    have hturn := handleMessage_orphaned registry now hdeferred world horphaned
    simp only [turn, hturn]
    exact ⟨p, rfl, rfl, trivial, trivial⟩

/-- Two chunks without a referencer; the second one is final and asks for an acknowledgement. -/
def orphans : Message × Message :=
  let blob := Message.countingFresh.blobs.nth 1
  ((keyedParts 4 "a" blob [1] false).2, ((keyedParts 4 "a" blob [2] true).2).addFlags .acknowledge)

/-- The first chunk is held, and the final one fails. -/
theorem failure_iff_orphans :
    let s := (handleMessage countingRegistry 3 openedSession 0 (some orphans.1)).session
    let turn := handleMessage countingRegistry 5 s 0 (some orphans.2)
    s.Reachable ∧ s.assemblies.size = 1 ∧ s.Orphaned orphans.2 ∧
      turn.result = .error (.missingReferencer 4) ∧ turn.session.assemblies.size = 0 ∧
      turn.session.fresh.ids = s.fresh.ids.draw.2 := by
  intro s turn
  have hreachable : s.Reachable :=
    .handled countingRegistry 3 0 (some orphans.1) reachable_openedSession
  have horphaned : s.Orphaned orphans.2 :=
    ⟨by decide +kernel, by decide +kernel, by decide +kernel, by decide +kernel⟩
  obtain ⟨-, -, hfails, hleaves⟩ := failure_iff hreachable countingRegistry 5 0 (some orphans.2)
  have hid : orphans.2.exchangeId = 4 := by decide +kernel
  have hresult : turn.result = .error (.missingReferencer 4) :=
    (hfails _).2 ⟨orphans.2, rfl, horphaned, by rw [hid]⟩
  obtain ⟨p, hp, hsession, -⟩ := hleaves _ hresult
  obtain rfl : orphans.2 = p := Option.some.inj hp
  refine ⟨hreachable, by decide +kernel, horphaned, hresult, ?_, ?_⟩
  · rw [hsession, hid]
    decide +kernel
  · rw [hsession]
    decide +kernel

end Session

end Etp
