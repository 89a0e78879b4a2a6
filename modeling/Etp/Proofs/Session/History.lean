import Etp.Proofs.Session.Holdings
import Etp.Proofs.Session.Strays

/-!
# Where a session stands

A session is opened and closed by bodies that the gates let pass (`Move`).  The last of these moves says
where the session stands, whatever else has arrived, and whatever the handlers did (`standing_feed`).
While the session is not connected, its gate keeps all other protocols from the handlers and from the
assemblies, also when an exchange is completed (`calls_unconnected`, `parts_unconnected`).
-/

namespace Etp.Session

variable {σ : Type}

/-! ## Moves -/

/-- What opens or closes a session. -/
inductive Move where
  | opened
  | closed
  deriving DecidableEq

/-- Whether the other end of a session opens it with the bodies of a kind. -/
def opens : Role → Kind → Bool
  | .server, .requestSession => true
  | .client, .openSession => true
  | _, _ => false

/-- The move that a session makes at an input, if it makes one. -/
def moveBy (s : Session) : Option Message → Option Move
  | none => none
  | some m =>
    if s.gate m = none then
      if s.connected = true ∧ m.body.kind = .closeSession then some .closed
      else if opens s.role m.body.kind then some .opened
      else none
    else none

/-- The moves that a session makes in a run. -/
def moves (registry : Registry σ) : List (Nat × Option Message) → Session → σ → List Move
  | [], _, _ => []
  | (now, input) :: inputs, s, world =>
    let turn := handleMessage registry now s world input
    (s.moveBy input).toList ++ moves registry inputs turn.session turn.world

/-- A body offers capabilities exactly if it is of the kind that opens the session. -/
theorem isSome_offers (s : Session) (b : Body) : (s.offers b).isSome = opens s.role b.kind := by
  obtain ⟨kind, value⟩ := b
  unfold offers
  split
  · rename_i hrole hbody
    cases hbody
    rw [hrole]
    rfl
  · rename_i hrole hbody
    cases hbody
    rw [hrole]
    rfl
  · rename_i hserver hclient
    cases hopens : opens s.role kind with
    | false => rfl
    | true =>
      unfold opens at hopens
      split at hopens
      · rename_i hrole
        exact (hserver _ _ _ _ _ _ _ _ _ _ _ _ hrole rfl).elim
      · rename_i hrole
        exact (hclient _ _ _ _ _ _ _ _ _ _ _ _ hrole rfl).elim
      · cases hopens

/-- The session after a body that may open it is connected and not closed if the body does so. -/
theorem openBy_standing (s : Session) (b : Body) :
    ((s.openBy b).connected = if opens s.role b.kind then true else s.connected) ∧
      ((s.openBy b).closed = if opens s.role b.kind then false else s.closed) := by
  rw [← isSome_offers, openBy]
  cases s.offers b with
  | none => exact ⟨rfl, rfl⟩
  | some capabilities => exact ⟨rfl, rfl⟩

/-- The last move opens the session exactly if some move does so and none after it closes the session. -/
theorem last_opened_iff (moves : List Move) :
    moves.getLast? = some .opened ↔
      ∃ before after, moves = before ++ .opened :: after ∧ .closed ∉ after := by
  constructor
  · intro hlast
    obtain ⟨before, rfl⟩ := List.getLast?_eq_some_iff.1 hlast
    exact ⟨before, [], rfl, List.not_mem_nil⟩
  · rintro ⟨before, after, rfl, hclosed⟩
    have hopened : ∀ move ∈ Move.opened :: after, move = .opened := by
      intro move hmove
      rcases List.mem_cons.1 hmove with rfl | hmove
      · rfl
      · cases move with
        | opened => rfl
        | closed => exact absurd hmove hclosed
    rw [List.getLast?_append_of_ne_nil before (List.cons_ne_nil _ _),
      List.getLast?_eq_getLast_of_ne_nil (List.cons_ne_nil _ _),
      hopened _ (List.getLast_mem _)]

theorem phase_eq_closed {s : Session} :
    s.phase = .closed ↔ s.connected = false ∧ s.closed = true := by
  unfold phase
  cases s.connected with
  | true => simp
  | false =>
    cases s.closed with
    | true => simp
    | false =>
      simp only [Bool.false_eq_true, if_false, and_false, iff_false]
      split
      · exact Phase.noConfusion
      · exact Phase.noConfusion

/-! ## One input -/

/-- The gates of a session that is not connected let only messages of the core protocol pass. -/
theorem core_of_gate {s : Session} (hconnected : s.connected = false) {m : Message}
    (hgate : s.gate m = none) : m.header.protocol = Protocol.core.id := by
  by_contra hcore
  unfold gate at hgate
  split at hgate
  · cases hgate
  · simp [hcore, hconnected] at hgate

/-- Neither handlers nor exchanges open or close a session: a session moves at the gates. -/
theorem standing_handleMessage (registry : Registry σ) (now : Nat) (s : Session) (world : σ)
    (input : Option Message) :
    let t := (handleMessage registry now s world input).session
    t.connected = (s.moveBy input).elim s.connected (· = .opened) ∧
      t.closed = (s.moveBy input).elim s.closed (· = .closed) := by
  match input with
  | none => exact ⟨rfl, rfl⟩
  | some m =>
    cases hgate : s.gate m with
    | some fault =>
      rw [handleMessage_eq, receive_refused _ world hgate]
      simp only [moveBy, hgate, reduceCtorEq, if_false]
      exact ⟨rfl, rfl⟩
    | none =>
      obtain ⟨fresh, hacknowledged⟩ := s.acknowledge_advances m
      by_cases hclosing : s.connected = true ∧ m.body.kind = .closeSession
      · rw [handleMessage_eq, receive_closing _ world hgate hclosing.1 hclosing.2]
        simp only [moveBy, hgate, if_true, if_pos hclosing]
        exact ⟨rfl, rfl⟩
      · obtain ⟨hconnected, hclosed⟩ :=
          openBy_standing (s := { s with fresh := fresh }) m.body
        obtain ⟨⟨peer, fresh', assemblies, deferred, hsession⟩, -⟩ :=
          routed_route registry now (({ s with fresh := fresh } : Session).openBy m.body) world m
        rw [handleMessage_eq, receive_passing _ world hgate hclosing, hacknowledged]
        simp only [Turn.present, hsession, hconnected, hclosed, moveBy, hgate, if_true,
          if_neg hclosing]
        split
        · exact ⟨rfl, rfl⟩
        · exact ⟨rfl, rfl⟩

/-! ## Protocols of a session that is not connected -/

/-- A handler is called with the header of the message that it is given. -/
theorem header_of_mem_calls_dispatch (registry : Registry σ) (s : Session) (world : σ) (m : Message)
    {call : Header × Body} (hcall : call ∈ calls (dispatch registry s world m).events) :
    call.1 = m.header := by
  obtain ⟨peer, hdispatch⟩ := dispatch_calls registry s world m
  rw [(hdispatch s.fresh).calls_eq, called] at hcall
  split at hcall
  · rw [List.mem_singleton.1 hcall]
    rfl
  · cases hcall

/-- What is done with a message beyond the gates is done with a message of the core protocol.  If its body
is not of that protocol, then the session is still not connected. -/
theorem calls_receive_core (onward : Session → σ → Message → Turn σ Replies) {s : Session}
    (hconnected : s.connected = false) (world : σ) {m : Message}
    (honward : ∀ t world, m.header.protocol = Protocol.core.id →
      (m.body.kind.protocol ≠ .core → t.connected = false) →
        ∀ call ∈ calls (onward t world m).events, call.1.protocol = Protocol.core.id) :
    ∀ call ∈ calls (receive onward s world m).events, call.1.protocol = Protocol.core.id := by
  cases hgate : s.gate m with
  | some fault =>
    rw [receive_refused _ world hgate]
    intro call hcall
    cases hcall
  | none =>
    have hstays : ¬ (s.connected = true ∧ m.body.kind = .closeSession) := by
      intro hclosing
      rw [hconnected] at hclosing
      cases hclosing.1
    obtain ⟨fresh, hacknowledged⟩ := s.acknowledge_advances m
    rw [receive_passing _ world hgate hstays, hacknowledged]
    refine honward _ world (core_of_gate hconnected hgate) ?_
    intro hcore
    rw [openBy, offers_eq_none _ hcore]
    exact hconnected

theorem calls_complete_core (registry : Registry σ) {s : Session} (hconnected : s.connected = false)
    (world : σ) (id : Int64) :
    ∀ call ∈ calls (complete registry s world id).events, call.1.protocol = Protocol.core.id := by
  cases hparts : Message.reassemble (s.assemblies.parts id) with
  | none =>
    simp only [complete, hparts]
    intro call hcall
    cases hcall
  | some m =>
    have hcore : (whole m).body.kind.protocol ≠ .core := by
      show m.body.kind.protocol ≠ .core
      exact Message.not_core_of_reassemble hparts
    obtain ⟨peer, called, -, hturn⟩ :=
      receive_written registry (s.holding (s.assemblies.erase id)) world hcore
    have hcalls := calls_receive_core (dispatch registry)
      (s := s.holding (s.assemblies.erase id)) hconnected world (m := whole m)
    rw [(complete_dispatched hparts hturn).2.1, ← hturn.calls_eq]
    apply hcalls
    intro t world hprotocol _ call hcall
    rw [header_of_mem_calls_dispatch registry t world (whole m) hcall]
    exact hprotocol

/-- While a session is not connected, handlers get messages of the core protocol only, also those that are
put together. -/
theorem calls_unconnected (registry : Registry σ) (now : Nat) {s : Session}
    (hconnected : s.connected = false) (world : σ) (input : Option Message) :
    ∀ call ∈ calls (handleMessage registry now s world input).events,
      call.1.protocol = Protocol.core.id := by
  match input with
  | none =>
    intro call hcall
    cases hcall
  | some m =>
    rw [handleMessage_eq]
    apply calls_receive_core _ hconnected world
    intro t world hprotocol hunconnected call hcall
    unfold route at hcall
    split at hcall
    · rename_i hcollected
      have hunconnected := hunconnected (not_core_of_isCollected hcollected)
      unfold collect at hcall
      simp only at hcall
      split at hcall
      · cases hcall
      · split at hcall
        · exact calls_complete_core registry
            (s := t.holding (t.assemblies.push m.exchangeId m now)) hunconnected world m.exchangeId call
            hcall
        · cases hcall
    · rw [header_of_mem_calls_dispatch registry t world m hcall]
      exact hprotocol

/-- While a session is not connected, no other protocol adds to the parts that are held. -/
theorem parts_unconnected (registry : Registry σ) (now : Nat) {s : Session}
    (hconnected : s.connected = false) (world : σ) (input : Option Message) (id : Int64) :
    ∀ p ∈ (handleMessage registry now s world input).session.assemblies.parts id,
      p ∈ s.assemblies.parts id ∨ p.header.protocol = Protocol.core.id := by
  intro p hp
  rw [assemblies_handleMessage] at hp
  match input with
  | none => exact .inl hp
  | some q =>
    by_cases htaken : q.exchangeId = id ∧ s.Takes q
    · rw [parts_heldAfter, Option.toList_some, List.filter_cons_of_pos (by simpa using htaken)] at hp
      simp only [List.filter_nil, List.foldl_cons, List.foldl_nil, keep] at hp
      split at hp
      · cases hp
      · rcases List.mem_append.1 hp with hp | hp
        · exact .inl hp
        · rw [List.mem_singleton.1 hp]
          exact .inr (core_of_gate hconnected htaken.2.gate_eq)
    · rw [parts_heldAfter, Option.toList_some, List.filter_cons_of_neg (by simpa using htaken)] at hp
      exact .inl hp

/-- A message of another protocol is turned away by a session that is not connected. -/
theorem refused_unconnected (registry : Registry σ) (now : Nat) {s : Session}
    (hconnected : s.connected = false) (world : σ) {m : Message}
    (hprotocol : m.header.protocol ≠ Protocol.core.id) :
    let turn := handleMessage registry now s world (some m)
    calls turn.events = [] ∧ turn.session.assemblies = s.assemblies := by
  cases hgate : s.gate m with
  | none => exact absurd (core_of_gate hconnected hgate) hprotocol
  | some fault =>
    rw [handleMessage_eq, receive_refused _ world hgate]
    exact ⟨rfl, rfl⟩

/-! ## Runs -/

theorem standing_feed (registry : Registry σ) (inputs : List (Nat × Option Message)) (s : Session)
    (world : σ) :
    let run := feed (handleMessage registry) inputs s world
    let last := (moves registry inputs s world).getLast?
    run.session.connected = last.elim s.connected (· = .opened) ∧
      run.session.closed = last.elim s.closed (· = .closed) := by
  induction inputs generalizing s world with
  | nil => exact ⟨rfl, rfl⟩
  | cons input inputs ih =>
    obtain ⟨now, input⟩ := input
    obtain ⟨hconnected, hclosed⟩ := ih (handleMessage registry now s world input).session
      (handleMessage registry now s world input).world
    obtain ⟨hconnected', hclosed'⟩ := standing_handleMessage registry now s world input
    rw [hconnected'] at hconnected
    rw [hclosed'] at hclosed
    simp only [feed, moves, hconnected, hclosed, List.getLast?_append]
    -- The last move of the run is that of the later inputs, if they make one.
    generalize (moves registry inputs (handleMessage registry now s world input).session
      (handleMessage registry now s world input).world).getLast? = last
    cases last with
    | some move => exact ⟨rfl, rfl⟩
    | none =>
      cases s.moveBy input with
      | none => exact ⟨rfl, rfl⟩
      | some move => exact ⟨rfl, rfl⟩

/-- A session is connected exactly if it was opened and not closed since, and stands as closed exactly if
it is not connected and its last move has closed it.  While it is not connected, messages of other protocols
neither reach a handler nor join the parts that are held; such a message changes no assembly at all. -/
theorem standing_by_history (registry : Registry σ) (settings : Settings) (peerNumber : Nat)
    (blobs : Uuid.Supply) (inputs : List (Nat × Option Message)) (world : σ) :
    let run := feed (handleMessage registry) inputs (Session.start settings peerNumber blobs) world
    let moves := moves registry inputs (Session.start settings peerNumber blobs) world
    (run.session.connected = true ↔
      ∃ before after, moves = before ++ .opened :: after ∧ .closed ∉ after) ∧
    (run.session.phase = .closed ↔
      run.session.connected = false ∧ moves.getLast? = some .closed) ∧
    (run.session.connected = false → ∀ now input,
      let turn := handleMessage registry now run.session run.world input
      (∀ call ∈ calls turn.events, call.1.protocol = Protocol.core.id) ∧
      (∀ id, ∀ p ∈ turn.session.assemblies.parts id,
        p ∈ run.session.assemblies.parts id ∨ p.header.protocol = Protocol.core.id) ∧
      ∀ m, input = some m → m.header.protocol ≠ Protocol.core.id →
        calls turn.events = [] ∧ turn.session.assemblies = run.session.assemblies) := by
  intro run moves
  obtain ⟨hconnected, hclosed⟩ :=
    standing_feed registry inputs (Session.start settings peerNumber blobs) world
  refine ⟨?_, ?_, ?_⟩
  · rw [← last_opened_iff, hconnected]
    show moves.getLast?.elim false (· = .opened) = true ↔ _
    cases moves.getLast? with
    | none => simp
    | some move => simp
  · rw [phase_eq_closed, and_congr_right_iff]
    intro hunconnected
    rw [hclosed]
    show moves.getLast?.elim false (· = .closed) = true ↔ _
    cases moves.getLast? with
    | none => simp
    | some move => simp
  · intro hunconnected now input turn
    refine ⟨calls_unconnected registry now hunconnected run.world input,
      parts_unconnected registry now hunconnected run.world input, ?_⟩
    rintro m rfl hprotocol
    exact refused_unconnected registry now hunconnected run.world hprotocol

end Etp.Session
