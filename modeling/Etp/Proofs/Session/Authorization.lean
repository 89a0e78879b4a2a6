import Etp.Proofs.Message.Reassembly
import Etp.Proofs.Session.Run
import Mathlib.Data.List.Induction

/-!
# Nothing happens before authorization

A server may ask its peers to authorize themselves.  As long as a peer has not, `Guarded` is all that an
input can do: it is turned away, or it is a request for authorization (or the answer to one) and goes to
its handler.  Only the handler can then change what is known about the peer.  So in every run a session
is connected only after a handler has authenticated the peer.
-/

namespace Etp.Session

variable {σ : Type}

/-! ## What never changes -/

/-- Two sessions of one endpoint, which has a role and asks for authorization or does not. -/
structure SameEnd (s t : Session) : Prop where
  role_eq : t.role = s.role
  authRequired_eq : t.authRequired = s.authRequired

namespace SameEnd

variable {s t u : Session}

theorem refl (s : Session) : s.SameEnd s := ⟨rfl, rfl⟩

theorem trans (h : s.SameEnd t) (h' : t.SameEnd u) : s.SameEnd u :=
  ⟨h'.role_eq.trans h.role_eq, h'.authRequired_eq.trans h.authRequired_eq⟩

end SameEnd

theorem sameEnd_dispatch (registry : Registry σ) (s : Session) (world : σ) (m : Message) :
    s.SameEnd (dispatch registry s world m).session := by
  obtain ⟨peer, fresh, hsession⟩ := dispatch_informs registry s world m
  rw [hsession]
  exact ⟨rfl, rfl⟩

theorem sameEnd_receive {onward : Session → σ → Message → Turn σ Replies}
    (honward : ∀ (s : Session) world m, s.SameEnd (onward s world m).session) (s : Session) (world : σ)
    (m : Message) : s.SameEnd (receive onward s world m).session := by
  refine receive_preserves (P := s.SameEnd) ?_ ?_ ?_ ?_ world m (.refl s)
  · exact fun _ _ h => ⟨h.role_eq, h.authRequired_eq⟩
  · exact fun _ h => ⟨h.role_eq, h.authRequired_eq⟩
  · exact fun _ _ h => ⟨h.role_eq, h.authRequired_eq⟩
  · exact fun t world m h => h.trans (honward t world m)

theorem sameEnd_complete (registry : Registry σ) (s : Session) (world : σ) (id : Int64) :
    s.SameEnd (complete registry s world id).session := by
  rcases session_complete registry s world id with ⟨deferred, hsession⟩ |
    ⟨m, fresh, deferred, hsession⟩
  · rw [hsession]
    exact ⟨rfl, rfl⟩
  · have hreceive := sameEnd_receive (sameEnd_dispatch registry)
      (s.holding (s.assemblies.erase id)) world (whole m)
    rw [hsession]
    exact ⟨hreceive.role_eq, hreceive.authRequired_eq⟩

theorem sameEnd_route (registry : Registry σ) (now : Nat) (s : Session) (world : σ) (m : Message) :
    s.SameEnd (route registry now s world m).session := by
  unfold route
  split
  · unfold collect
    simp only
    split
    · exact ⟨rfl, rfl⟩
    · split
      · have hcomplete := sameEnd_complete registry
          { s with assemblies := s.assemblies.push m.exchangeId m now } world m.exchangeId
        exact ⟨hcomplete.role_eq, hcomplete.authRequired_eq⟩
      · exact ⟨rfl, rfl⟩
  · exact sameEnd_dispatch registry s world m

theorem sameEnd_handleMessage (registry : Registry σ) (now : Nat) (s : Session) (world : σ)
    (input : Option Message) : s.SameEnd (handleMessage registry now s world input).session := by
  cases input with
  | none => exact ⟨rfl, rfl⟩
  | some m => exact sameEnd_receive (sameEnd_route registry now) s world m

theorem sameEnd_feed (registry : Registry σ) (inputs : List (Nat × Option Message)) (s : Session)
    (world : σ) : s.SameEnd (feed (handleMessage registry) inputs s world).session := by
  induction inputs generalizing s world with
  | nil => exact .refl s
  | cons input inputs ih =>
    exact (sameEnd_handleMessage registry input.1 s world input.2).trans (ih _ _)

/-! ## One input -/

/-- The turns of a session whose peer has to authorize itself first. -/
inductive Guarded (registry : Registry σ) (s : Session) (world : σ) :
    Option Message → Turn σ (Except ConnectionError (List Message)) → Prop
  /-- A frame that could not be read is reported. -/
  | unreadable (id : Int64) (fresh : Fresh) :
    Guarded registry s world none
      ⟨{ s with fresh := fresh }, world, [.faultReply Fault.invalidMessage.code],
        .ok [(Fault.invalidMessage.toMessage id 0).setFinal true]⟩
  /-- Whatever is no authorization is answered with one report. -/
  | refused {m : Message} (hkind : isAuthorization m.body.kind = false) (id : Int64) (fresh : Fresh) :
    Guarded registry s world (some m)
      ⟨{ s with fresh := fresh }, world, [.inbound, .faultReply Fault.authorizationRequired.code],
        .ok [(Fault.authorizationRequired.toMessage id 0).setFinal true]⟩
  /-- An authorization under a protocol that is closed or has no handler. -/
  | unhandled {m : Message} {turn : Turn σ (Except ConnectionError (List Message))}
      (hkind : isAuthorization m.body.kind = true)
      (hreason : (m.header.protocol ≠ Protocol.core.id ∧ s.connected = false) ∨
        registry.find? m.header.protocol = none)
      (hsession : ∃ fresh, turn.session = { s with fresh := fresh })
      (hcalls : calls turn.events = []) : Guarded registry s world (some m) turn
  /-- An authorization that a handler is given: of the session, it can change only the peer. -/
  | handled {m : Message} {turn : Turn σ (Except ConnectionError (List Message))}
      {handler : Handler σ} (hkind : isAuthorization m.body.kind = true)
      (hhandler : registry.find? m.header.protocol = some handler)
      (hsession : ∃ fresh, turn.session =
        { s with peer := (handler m.body m.header s.peer world).peer, fresh := fresh })
      (hcalls : calls turn.events = [(m.header, m.body)]) : Guarded registry s world (some m) turn

/-- A body for authorization does not close or open a session. -/
theorem admits_of_isAuthorization {s : Session} {m : Message}
    (hkind : isAuthorization m.body.kind = true) (hgate : s.gate m = none) : s.Admits m := by
  refine ⟨hgate, ?_, ?_⟩
  · intro hclose
    rw [hclose] at hkind
    cases hkind
  · unfold offers
    split
    case h_1 hbody =>
      rw [hbody] at hkind
      cases hkind
    case h_2 hbody =>
      rw [hbody] at hkind
      cases hkind
    case h_3 => rfl

/-- A body for authorization is no part of a multipart message. -/
theorem isCollected_of_isAuthorization {m : Message} (hkind : isAuthorization m.body.kind = true) :
    isCollected m = false := by
  obtain ⟨header, kind, value⟩ := m
  cases kind with
  | authorize => exact Bool.and_false _
  | authorizeResponse => exact Bool.and_false _
  | _ => cases hkind

theorem handleMessage_guarded (registry : Registry σ) (now : Nat) {s : Session} (world : σ)
    (hrequired : s.authRequired = true) (hpeer : s.peer.authenticated = false)
    (input : Option Message) :
    Guarded registry s world input (handleMessage registry now s world input) := by
  match input with
  | none => exact .unreadable _ _
  | some m =>
    cases hkind : isAuthorization m.body.kind with
    | false =>
      have hgate : s.gate m = some .authorizationRequired := by
        simp [gate, hrequired, hpeer, hkind]
      rw [handleMessage_eq, receive_refused _ world hgate]
      exact .refused hkind _ _
    | true =>
      cases hgate : s.gate m with
      | some fault =>
        have hclosed : (m.header.protocol ≠ Protocol.core.id ∧ s.connected = false) ∧
            Fault.invalidState = fault := by
          simpa [gate, hkind] using hgate
        rw [handleMessage_eq, receive_refused _ world hgate]
        exact .unhandled hkind (.inl hclosed.1) ⟨_, rfl⟩ rfl
      | none =>
        rw [handleMessage_eq,
          receive_of_admits _ world (admits_of_isAuthorization hkind hgate)]
        simp only [route, isCollected_of_isAuthorization hkind, Bool.false_eq_true, if_false]
        obtain ⟨fresh, hacknowledged⟩ := s.acknowledge_advances m
        rw [hacknowledged]
        cases hhandler : registry.find? m.header.protocol with
        | none =>
          obtain ⟨⟨fresh', hsession⟩, hcalls, -⟩ :=
            dispatch_unregistered { s with fresh := fresh } world hhandler
          exact .unhandled hkind (.inr hhandler) ⟨fresh', hsession⟩ hcalls
        | some handler =>
          obtain ⟨⟨fresh', hsession⟩, hcalls, -⟩ :=
            dispatch_handled { s with fresh := fresh } world hhandler
          exact .handled hkind hhandler ⟨fresh', hsession⟩ hcalls

/-! ## Runs -/

/-- At some input of a run, which was an authorization, a handler authenticated the peer. -/
def Authorized (registry : Registry σ) (inputs : List (Nat × Option Message)) (s : Session)
    (world : σ) : Prop :=
  ∃ early now m later handler, inputs = early ++ (now, some m) :: later ∧
    isAuthorization m.body.kind = true ∧ registry.find? m.header.protocol = some handler ∧
    let before := feed (handleMessage registry) early s world
    before.session.peer.authenticated = false ∧
    calls (handleMessage registry now before.session before.world (some m)).events =
      [(m.header, m.body)] ∧
    (handler m.body m.header before.session.peer before.world).peer.authenticated = true

theorem Authorized.append {registry : Registry σ} {inputs : List (Nat × Option Message)}
    {s : Session} {world : σ} (h : Authorized registry inputs s world)
    (later : List (Nat × Option Message)) : Authorized registry (inputs ++ later) s world := by
  obtain ⟨early, now, m, between, handler, rfl, hauthorized⟩ := h
  exact ⟨early, now, m, between ++ later, handler, by simp, hauthorized⟩

/-- Before that, nothing connects the session and nothing authenticates its peer. -/
theorem authorized_or_shut (registry : Registry σ) {s : Session} (world : σ)
    (hrequired : s.authRequired = true) (hconnected : s.connected = false)
    (hpeer : s.peer.authenticated = false) (inputs : List (Nat × Option Message)) :
    Authorized registry inputs s world ∨
      ((feed (handleMessage registry) inputs s world).session.connected = false ∧
        (feed (handleMessage registry) inputs s world).session.peer.authenticated = false) := by
  -- A session is extended by its last input: the run before it says what it can have done.
  induction inputs using List.reverseRecOn with
  | nil => exact .inr ⟨hconnected, hpeer⟩
  | append_singleton inputs input ih =>
    obtain ⟨now, input⟩ := input
    rcases ih with hauthorized | ⟨hshut, hunknown⟩
    · exact .inl (hauthorized.append _)
    · have hend := (sameEnd_feed registry inputs s world).authRequired_eq.trans hrequired
      have hguarded := handleMessage_guarded registry now
        (feed (handleMessage registry) inputs s world).world hend hunknown input
      rw [feed_append]
      simp only [feed]
      generalize hturn : handleMessage registry now _ _ input = turn at hguarded ⊢
      cases hguarded with
      | unreadable => exact .inr ⟨hshut, hunknown⟩
      | refused => exact .inr ⟨hshut, hunknown⟩
      | unhandled _ _ hsession =>
        obtain ⟨fresh, hsession⟩ := hsession
        rw [hsession]
        exact .inr ⟨hshut, hunknown⟩
      | @handled m _ handler hkind hhandler hsession hcalls =>
        obtain ⟨fresh, hsession⟩ := hsession
        rw [hsession]
        cases hnow : (handler m.body m.header
            (feed (handleMessage registry) inputs s world).session.peer
            (feed (handleMessage registry) inputs s world).world).peer.authenticated with
        | false => exact .inr ⟨hshut, rfl⟩
        | true =>
          refine .inl ⟨inputs, now, m, [], handler, rfl, hkind, hhandler, hunknown, ?_, hnow⟩
          rw [hturn]
          exact hcalls

/-- At every point of a run of a server that asks for authorization: while the peer is not authenticated,
every input is guarded, and if the session is connected, a handler has authenticated the peer before. -/
theorem guarded_until_authorized (registry : Registry σ) {settings : Settings}
    (hrole : settings.role = .server) (hrequired : settings.authRequired = true) (peerNumber : Nat)
    (blobs : Uuid.Supply) (world : σ) (inputs : List (Nat × Option Message)) :
    let start := Session.start settings peerNumber blobs
    let run := feed (handleMessage registry) inputs start world
    (run.session.peer.authenticated = false → ∀ now input,
      Guarded registry run.session run.world input
        (handleMessage registry now run.session run.world input)) ∧
    (run.session.phase = .connected → Authorized registry inputs start world) := by
  intro start run
  have hstart : start.authRequired = true := by
    simp [start, Session.start, Settings.requiresAuth, hrole, hrequired]
  have hend := (sameEnd_feed registry inputs start world).authRequired_eq.trans hstart
  constructor
  · intro hpeer now input
    exact handleMessage_guarded registry now run.world hend hpeer input
  · intro hphase
    rcases authorized_or_shut registry world hstart rfl rfl inputs with hauthorized | ⟨hshut, -⟩
    · exact hauthorized
    · rw [phase_eq_connected, hshut] at hphase
      cases hphase

/-- A handler that authenticates whoever asks for it. -/
def trustingHandler : Handler Unit := fun _ _ peer world =>
  ⟨.ok .empty, { peer with authenticated := true }, world⟩

/-- A registry whose only handler is the trusting one. -/
def trustingRegistry : Registry Unit where
  handler p := if p = .core then some trustingHandler else none

/-- The settings of a server that asks for authorization. -/
def guardedSettings : Settings := { Settings.default with authRequired := true }

/-- A peer that authorizes itself and then requests a session. -/
def authorizing : List (Nat × Option Message) :=
  [(0, some (Message.request ⟨.authorize, Shape.default _⟩)),
    (10, some (Message.request ⟨.requestSession, Shape.default _⟩))]

/-- The peer is guarded at first, and connected after it has authorized itself. -/
theorem guarded_until_authorized_authorizing :
    guardedSettings.role = .server ∧ guardedSettings.authRequired = true ∧
      (let start := Session.start guardedSettings 1 Message.countingFresh.blobs
      start.peer.authenticated = false ∧
        (∀ now input, Guarded trustingRegistry start () input
          (handleMessage trustingRegistry now start () input)) ∧
        (feed (handleMessage trustingRegistry) authorizing start ()).session.phase = .connected ∧
        Authorized trustingRegistry authorizing start ()) := by
  have hrun := @guarded_until_authorized Unit trustingRegistry guardedSettings rfl rfl 1
    Message.countingFresh.blobs ()
  have hconnected : (feed (handleMessage trustingRegistry) authorizing
      (Session.start guardedSettings 1 Message.countingFresh.blobs) ()).session.phase =
        .connected := by
    decide +kernel
  exact ⟨rfl, rfl, rfl, (hrun []).1 rfl, hconnected, (hrun authorizing).2 hconnected⟩

end Etp.Session
