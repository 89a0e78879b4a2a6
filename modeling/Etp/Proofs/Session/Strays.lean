import Etp.Proofs.Session.Interleaving

/-!
# Core bodies in the frames of other protocols

A body that cannot be read as the announced one is read once more as a body of the core protocol.  This is
for fault reports, which keep the protocol of the request; but a damaged frame may be taken for any other
core body in this way (`stray?`), and a session is closed and opened by bodies, whatever protocol their
headers announce.  `handleFrame_stray` says what a frame of another protocol can do to the state of a
session: it closes or opens it only by such a body, and otherwise nothing but the handler that is called
changes what is known about the peer.
-/

namespace Etp

open Wire Wire.Reader

namespace Kind

theorem protocol_of_find? {protocol number : Int32} {k : Kind} (h : find? protocol number = some k) :
    k.protocol.id = protocol := by
  have hfound := List.find?_some h
  simp only [Bool.and_eq_true, beq_iff_eq] at hfound
  exact hfound.1

end Kind

namespace Body

theorem kind_of_read {k : Kind} {payload : Bytes} {result : Body × Bytes}
    (h : (read k).run payload = .ok result) : result.1.kind = k := by
  unfold Reader.run read at h
  cases hvalue : k.shape.read ⟨payload, byteLimit⟩ with
  | error e =>
    rw [bind_apply_error hvalue] at h
    cases h
  | ok value =>
    rw [bind_apply_ok hvalue] at h
    cases h
    rfl

/-- What is read is of the kind that was announced. -/
theorem find?_of_decode {protocol number : Int32} {payload : Bytes} {b : Body}
    (h : decode protocol number payload = .ok b) : Kind.find? protocol number = some b.kind := by
  unfold decode readAnnounced at h
  split at h
  case h_1 => cases h
  case h_2 k hk =>
    cases hread : (read k).run payload with
    | error e =>
      rw [hread] at h
      cases h
    | ok result =>
      rw [hread] at h
      cases h
      rw [kind_of_read hread]
      exact hk

end Body

namespace Message

/-- The core body for which a frame of another protocol is taken, where the announced body cannot be
read. -/
def stray? (header : Header) (payload : Bytes) : Option Body :=
  if header.protocol < 0 then none
  else
    match Body.decode header.protocol header.number payload with
    | .ok _ => none
    | .error _ => (Body.decode Protocol.core.id header.number payload).toOption

end Message

namespace Session

variable {σ : Type}

/-- A frame of another protocol is taken for a message of this protocol, for a stray core body, or for
nothing at all. -/
theorem incoming_cases {frame payload : Bytes} {header : Header}
    (hheader : Header.read.run frame = .ok (header, payload))
    (hcore : header.protocol ≠ Protocol.core.id) :
    (Message.stray? header payload = none ∧ incoming frame = none) ∨
      (∃ b, Message.stray? header payload = none ∧ incoming frame = some ⟨header, b⟩ ∧
        b.kind.protocol ≠ .core) ∨
      ∃ b, Message.stray? header payload = some b ∧ incoming frame = some ⟨header, b⟩ := by
  unfold incoming Message.decode Message.stray?
  rw [hheader]
  simp only
  by_cases hnegative : header.protocol < 0
  · simp [hnegative, Except.toOption]
  · simp only [hnegative, if_false]
    cases hannounced : Body.decode header.protocol header.number payload with
    | ok b =>
      refine .inr (.inl ⟨b, rfl, rfl, ?_⟩)
      intro heq
      have hprotocol := Kind.protocol_of_find? (Body.find?_of_decode hannounced)
      rw [heq] at hprotocol
      exact hcore hprotocol.symm
    | error e =>
      cases hstray : Body.decode Protocol.core.id header.number payload with
      | ok b => exact .inr (.inr ⟨b, rfl, rfl⟩)
      | error e' => exact .inl ⟨rfl, rfl⟩

/-! ## What handlers write -/

/-- What is known about the peer, and which handlers were called: nothing has changed, or one handler
was called and has written what it wanted. -/
inductive Written (registry : Registry σ) (world : σ) (base : Peer) :
    Peer → List (Header × Body) → Prop
  | silent : Written registry world base base []
  | handled {header : Header} {body : Body} {handler : Handler σ}
    (hhandler : registry.find? header.protocol = some handler) :
    Written registry world base (handler body header base world).peer [(header, body)]

theorem dispatch_written (registry : Registry σ) (s : Session) (world : σ) (m : Message) :
    ∃ peer called, Written registry world s.peer peer called ∧
      ∀ fresh, Dispatched { s with fresh := fresh } peer called
        (dispatch registry { s with fresh := fresh } world m) := by
  cases hhandler : registry.find? m.header.protocol with
  | none =>
    exact ⟨s.peer, [], .silent, fun fresh => dispatch_unregistered { s with fresh := fresh } world
      hhandler⟩
  | some handler =>
    have hwritten : Written registry world s.peer (handler m.body m.header s.peer world).peer
        [(m.header, m.body)] := .handled hhandler
    exact ⟨_, _, hwritten,
      fun fresh => dispatch_handled { s with fresh := fresh } world hhandler⟩

/-- A message outside the core protocol is turned away or given to its handler. -/
theorem receive_written (registry : Registry σ) (s : Session) (world : σ) {m : Message}
    (hcore : m.body.kind.protocol ≠ .core) :
    ∃ peer called, Written registry world s.peer peer called ∧
      Dispatched s peer called (receive (dispatch registry) s world m) := by
  cases hgate : s.gate m with
  | some fault =>
    refine ⟨s.peer, [], .silent, ?_⟩
    rw [receive_refused _ world hgate]
    exact ⟨⟨_, rfl⟩, rfl, _, rfl⟩
  | none =>
    obtain ⟨peer, called, hwritten, hdispatch⟩ := dispatch_written registry s world m
    exact ⟨peer, called, hwritten, receive_dispatched (admits_of_gate hgate hcore) hdispatch⟩

/-- A turn in which only a handler changes what is known about the peer, and which changes nothing else
but assemblies, reports held back and identifiers. -/
structure Routed (registry : Registry σ) (s : Session) (world : σ) (turn : Turn σ Replies) : Prop where
  session_eq : ∃ peer fresh assemblies deferred, turn.session =
    { s with peer := peer, fresh := fresh, assemblies := assemblies, deferred := deferred }
  written : Written registry world s.peer turn.session.peer (calls turn.events)

theorem routed_dispatch (registry : Registry σ) (s : Session) (world : σ) (m : Message) :
    Routed registry s world (dispatch registry s world m) := by
  obtain ⟨peer, called, hwritten, hdispatch⟩ := dispatch_written registry s world m
  obtain ⟨⟨fresh, hsession⟩, hcalls, -⟩ := hdispatch s.fresh
  refine ⟨⟨peer, fresh, s.assemblies, s.deferred, hsession⟩, ?_⟩
  rw [hcalls, hsession]
  exact hwritten

theorem routed_complete (registry : Registry σ) (s : Session) (world : σ) (id : Int64) :
    Routed registry s world (complete registry s world id) := by
  cases hparts : Message.reassemble (s.assemblies.parts id) with
  | none =>
    simp only [complete, hparts]
    exact ⟨⟨_, _, _, _, rfl⟩, .silent⟩
  | some m =>
    have hcore : (whole m).body.kind.protocol ≠ .core := by
      show m.body.kind.protocol ≠ .core
      exact Message.not_core_of_reassemble hparts
    obtain ⟨peer, called, hwritten, hturn⟩ :=
      receive_written registry (s.holding (s.assemblies.erase id)) world hcore
    obtain ⟨⟨fresh, deferred, hsession⟩, hcalls, -⟩ := complete_dispatched hparts hturn
    refine ⟨⟨_, _, _, _, hsession⟩, ?_⟩
    rw [hcalls, hsession]
    exact hwritten

/-- A part that is collected or a message that is handled changes the peer by its handler only. -/
theorem routed_route (registry : Registry σ) (now : Nat) (s : Session) (world : σ) (m : Message) :
    Routed registry s world (route registry now s world m) := by
  unfold route
  split
  · unfold collect
    simp only
    split
    · exact ⟨⟨_, _, _, _, rfl⟩, .silent⟩
    · split
      · obtain ⟨⟨peer, fresh, assemblies, deferred, hsession⟩, hwritten⟩ :=
          routed_complete registry (s.holding (s.assemblies.push m.exchangeId m now)) world
            m.exchangeId
        exact ⟨⟨peer, fresh, assemblies, deferred, hsession⟩, hwritten⟩
      · exact ⟨⟨_, _, _, _, rfl⟩, .silent⟩
  · exact routed_dispatch registry s world m

/-! ## One frame -/

/-- Where a connected session stands after a body that it let pass, if it let one pass. -/
def phaseBy (body : Option Body) : Phase :=
  if body.any (fun b => b.kind = .closeSession) then .closed else .connected

/-- What is known about the peer after a body that may open the session. -/
def peerBy (s : Session) (body : Option Body) : Peer := body.elim s.peer (fun b => (s.openBy b).peer)

theorem phaseBy_of_ne {b : Body} (h : b.kind ≠ .closeSession) : phaseBy (some b) = .connected := by
  simp [phaseBy, h]

theorem peerBy_of_offers {s : Session} {b : Body} (h : s.offers b = none) :
    s.peerBy (some b) = s.peer := by
  simp [peerBy, openBy, h]

theorem offers_of_closeSession (s : Session) {b : Body} (h : b.kind = .closeSession) :
    s.offers b = none := by
  unfold offers
  split
  · cases h
  · cases h
  · rfl

/-- A session that is opened by a body is connected, and has what it then knows about the peer. -/
theorem openBy_moved {s : Session} (hconnected : s.connected = true) (fresh : Fresh) (b : Body) :
    (({ s with fresh := fresh } : Session).openBy b).connected = true ∧
      (({ s with fresh := fresh } : Session).openBy b).peer = s.peerBy (some b) := by
  have hoffers : ({ s with fresh := fresh } : Session).offers b = s.offers b := rfl
  simp only [openBy, hoffers, peerBy, Option.elim_some]
  cases s.offers b with
  | none => exact ⟨hconnected, rfl⟩
  | some offers => exact ⟨rfl, rfl⟩

/-- A message that passes the gates moves a connected session by its body. -/
theorem receive_moved (registry : Registry σ) (now : Nat) {s : Session}
    (hconnected : s.connected = true) (world : σ) {m : Message} (hgate : s.gate m = none) :
    let turn := receive (route registry now) s world m
    turn.session.phase = phaseBy (some m.body) ∧
      Written registry world (s.peerBy (some m.body)) turn.session.peer (calls turn.events) := by
  obtain ⟨fresh, hacknowledged⟩ := s.acknowledge_advances m
  by_cases hclose : m.body.kind = .closeSession
  · rw [receive_closing _ world hgate hconnected hclose, hacknowledged,
      peerBy_of_offers (s.offers_of_closeSession hclose)]
    refine ⟨?_, .silent⟩
    simp [phaseBy, hclose, phase, close]
  · rw [receive_onward _ world hgate hclose, hacknowledged, phaseBy_of_ne hclose]
    obtain ⟨hopened, hpeer⟩ := openBy_moved hconnected fresh m.body
    obtain ⟨⟨peer, fresh', assemblies, deferred, hsession⟩, hwritten⟩ :=
      routed_route registry now (({ s with fresh := fresh } : Session).openBy m.body) world m
    rw [hpeer] at hwritten
    refine ⟨phase_eq_connected.2 ?_, hwritten⟩
    rw [hsession]
    exact hopened

/-- A message moves a connected session only if it passes the gates. -/
theorem process_moved (registry : Registry σ) (now : Nat) {s : Session}
    (hconnected : s.connected = true) (world : σ) (m : Message) :
    let turn := receive (route registry now) s world m
    let passed := (some m.body).filter (fun _ => (s.gate m).isNone)
    turn.session.phase = phaseBy passed ∧
      Written registry world (s.peerBy passed) turn.session.peer (calls turn.events) := by
  intro turn passed
  cases hgate : s.gate m with
  | some fault =>
    rw [show passed = none by simp [passed, hgate],
      show turn = _ from receive_refused _ world hgate]
    exact ⟨phase_eq_connected.2 hconnected, .silent⟩
  | none =>
    rw [show passed = some m.body by simp [passed, hgate]]
    exact receive_moved registry now hconnected world hgate

/-- A frame that announces another protocol leaves a connected session as it is, and only the handler
that is called changes what is known about the peer; unless the frame is taken for a core body that the
gates let pass.  A session is closed by such a body if it is that of `closeSession`, and negotiates anew
if the body offers capabilities. -/
theorem handleFrame_stray (registry : Registry σ) (now : Nat) {s : Session}
    (hconnected : s.connected = true) (world : σ) {frame payload : Bytes} {header : Header}
    (hheader : Header.read.run frame = .ok (header, payload))
    (hcore : header.protocol ≠ Protocol.core.id) :
    let turn := handleFrame registry now s world frame
    let stray := (Message.stray? header payload).filter (fun b => (s.gate ⟨header, b⟩).isNone)
    turn.session.phase = phaseBy stray ∧
      Written registry world (s.peerBy stray) turn.session.peer (calls turn.events) := by
  intro turn stray
  obtain ⟨⟨fresh, hsession⟩, hcalls⟩ := handleFrame_advances registry now s world frame
  have hphase : turn.session.phase =
      (handleMessage registry now s world (incoming frame)).session.phase := by
    rw [hsession]
    rfl
  rw [hphase, hcalls, show turn.session.peer =
    (handleMessage registry now s world (incoming frame)).session.peer by rw [hsession]]
  rcases incoming_cases hheader hcore with ⟨hnone, hframe⟩ | ⟨b, hnone, hframe, hother⟩ |
    ⟨b, hsome, hframe⟩
  · rw [hframe, show stray = none by simp [stray, hnone]]
    exact ⟨phase_eq_connected.2 hconnected, .silent⟩
  · rw [hframe, show stray = none by simp [stray, hnone]]
    -- The announced body was read: whether it is let pass or not, it is no body that moves a session.
    have hmoved := process_moved registry now hconnected world ⟨header, b⟩
    cases hgate : s.gate ⟨header, b⟩ with
    | some fault =>
      simp only [hgate, Option.isNone_some, Option.filter_some, Bool.false_eq_true, if_false] at hmoved
      exact hmoved
    | none =>
      simp only [hgate, Option.isNone_none, Option.filter_some, if_true,
        phaseBy_of_ne (ne_closeSession_of_not_core hother),
        peerBy_of_offers (s.offers_eq_none hother)] at hmoved
      exact hmoved
  · rw [hframe, show stray = (some b).filter (fun b => (s.gate ⟨header, b⟩).isNone) by
      simp only [stray, hsome]]
    exact process_moved registry now hconnected world ⟨header, b⟩

/-- A request of the discovery protocol. -/
def deletedResources : Message := Message.request ⟨.getDeletedResources, Shape.default _⟩

/-- The header of this request and the first byte of its body. -/
def cutOff : Bytes := deletedResources.encode.take 6

/-- The whole request leaves the session as it is, and what is left of it when it is cut off closes the
session. -/
theorem handleFrame_stray_cutOff :
    let whole := handleFrame countingRegistry 0 openedSession 0 deletedResources.encode
    let cut := handleFrame countingRegistry 0 openedSession 0 cutOff
    (whole.session.phase = .connected ∧
      Written countingRegistry 0 openedSession.peer whole.session.peer (calls whole.events)) ∧
    (cut.session.phase = .closed ∧
      Written countingRegistry 0 openedSession.peer cut.session.peer (calls cut.events)) := by
  have hconnected : openedSession.connected = true := by decide +kernel
  have hprotocol : deletedResources.header.protocol ≠ Protocol.core.id := by decide +kernel
  have hread : Header.read.run deletedResources.encode =
      .ok (deletedResources.header, deletedResources.body.write) := by decide +kernel
  have hreadCut : Header.read.run cutOff = .ok (deletedResources.header, [0]) := by decide +kernel
  obtain ⟨hphase, hwritten⟩ := handleFrame_stray countingRegistry 0 hconnected 0 hread hprotocol
  obtain ⟨hphaseCut, hwrittenCut⟩ :=
    handleFrame_stray countingRegistry 0 hconnected 0 hreadCut hprotocol
  refine ⟨⟨hphase.trans ?_, ?_⟩, hphaseCut.trans ?_, ?_⟩
  · decide +kernel
  · exact hwritten
  · decide +kernel
  · exact hwrittenCut

/-- A frame of the discovery protocol of which the end is missing closes the session. -/
theorem closed_by_cutOff :
    openedSession.Reachable ∧ openedSession.phase = .connected ∧
      deletedResources.header.protocol = Protocol.discovery.id ∧
      Header.read.run cutOff = .ok (deletedResources.header, [0]) ∧
      (handleFrame countingRegistry 0 openedSession 0 cutOff).session.phase = .closed :=
  ⟨reachable_openedSession, by decide +kernel, by decide +kernel, by decide +kernel,
    by decide +kernel⟩

end Session

end Etp
