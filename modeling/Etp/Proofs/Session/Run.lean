import Etp.Proofs.Message.Flags
import Etp.Proofs.Session.Assemblies
import Etp.Session.Outbound

/-!
# Inputs of an open session

What one input does to a session that lets it pass, said once for each way that the input can take: it
is collected, it completes an exchange, or it goes to a handler.  The statements are about messages that
neither open nor close the session; only bodies of the core protocol do so.  `feed` runs a session over
several inputs.
-/

namespace Etp

namespace Handler

variable {σ : Type}

/-- The handler does not change what is known about the peer. -/
def KeepsPeer (h : Handler σ) : Prop :=
  ∀ body header peer world, (h body header peer world).peer = peer

/-- The handler yields no absent reply. -/
def NeverAbsent (h : Handler σ) : Prop :=
  ∀ body header peer world response,
    (h body header peer world).answer = .ok response → .ok none ∉ response.items

end Handler

namespace Turn

variable {σ : Type}

/-- The turn, with the message counted that came in. -/
def inbound (turn : Turn σ Replies) : Turn σ Replies :=
  { turn with events := .inbound :: turn.events }

/-- The turn without its absent replies. -/
def present (turn : Turn σ Replies) : Turn σ (Except ConnectionError (List Message)) :=
  { turn with result := turn.result.map (·.filterMap (fun reply => reply)) }

/-- The turn with its replies encoded in the session that it leads to. -/
def encoded (turn : Turn σ (Except ConnectionError (List Message))) :
    Turn σ (Except ConnectionError (List Bytes)) :=
  match turn.result with
  | .error e => { turn with result := .error e }
  | .ok replies =>
    let (frames, events, s) := Session.encodeAll replies turn.session
    ⟨s, turn.world, turn.events ++ events, .ok frames⟩

end Turn

namespace Session

variable {σ : Type}

/-! ## Gates -/

/-- A session that lets every message pass. -/
structure Open (s : Session) : Prop where
  connected : s.connected = true
  authorized : s.authRequired = true → s.peer.authenticated = true

/-- Where no authorization is missing, only the phase of the session turns a message away. -/
theorem gate_of_authorized {s : Session}
    (hauthorized : s.authRequired = true → s.peer.authenticated = true) (m : Message) :
    s.gate m =
      if m.header.protocol ≠ Protocol.core.id && !s.connected then some .invalidState else none := by
  have hauth : (s.authRequired && !s.peer.authenticated && !isAuthorization m.body.kind) = false := by
    cases hrequired : s.authRequired with
    | false => rfl
    | true => simp [hauthorized hrequired]
  rw [gate, hauth]
  rfl

theorem Open.gate_eq {s : Session} (h : s.Open) (m : Message) : s.gate m = none := by
  rw [gate_of_authorized h.authorized]
  simp [h.connected]

/-- A body of another protocol than the core protocol offers nothing. -/
theorem offers_eq_none (s : Session) {body : Body} (hcore : body.kind.protocol ≠ .core) :
    s.offers body = none := by
  unfold offers
  split
  · exact absurd rfl hcore
  · exact absurd rfl hcore
  · rfl

/-- The session lets the message pass, and the message neither closes nor opens it. -/
structure Admits (s : Session) (m : Message) : Prop where
  gate_eq : s.gate m = none
  not_close : m.body.kind ≠ .closeSession
  offers_eq : s.offers m.body = none

theorem Open.admits {s : Session} (h : s.Open) {m : Message} (hclose : m.body.kind ≠ .closeSession)
    (hoffers : s.offers m.body = none) : s.Admits m :=
  ⟨h.gate_eq m, hclose, hoffers⟩

theorem ne_closeSession_of_not_core {b : Body} (hcore : b.kind.protocol ≠ .core) :
    b.kind ≠ .closeSession := by
  intro hkind
  rw [hkind] at hcore
  exact hcore rfl

theorem admits_of_gate {s : Session} {m : Message} (hgate : s.gate m = none)
    (hcore : m.body.kind.protocol ≠ .core) : s.Admits m :=
  ⟨hgate, ne_closeSession_of_not_core hcore, s.offers_eq_none hcore⟩

/-- An open session admits every message outside the core protocol. -/
theorem Open.admits_of_not_core {s : Session} (h : s.Open) {m : Message}
    (hcore : m.body.kind.protocol ≠ .core) : s.Admits m := admits_of_gate (h.gate_eq m) hcore

theorem phase_eq_connected {s : Session} : s.phase = .connected ↔ s.connected = true := by
  cases hconnected : s.connected with
  | true => simp [phase, hconnected]
  | false =>
    simp only [phase, hconnected, Bool.false_eq_true, if_false, iff_false]
    split
    · exact Phase.noConfusion
    · split
      · exact Phase.noConfusion
      · exact Phase.noConfusion

/-! ## Identifiers that were drawn -/

/-- A session differs from another one at most in the identifiers that were drawn. -/
def Advances (s t : Session) : Prop := ∃ fresh, t = { s with fresh := fresh }

namespace Advances

variable {s t u : Session}

theorem refl (s : Session) : s.Advances s := ⟨s.fresh, rfl⟩

theorem trans (h : s.Advances t) (h' : t.Advances u) : s.Advances u := by
  obtain ⟨fresh, rfl⟩ := h
  obtain ⟨fresh', rfl⟩ := h'
  exact ⟨fresh', rfl⟩

end Advances

theorem report_advances (s : Session) (fault : Fault) (correlationId : Int64) :
    s.Advances (s.report fault correlationId).2 := ⟨_, rfl⟩

theorem acknowledge_advances (s : Session) (m : Message) : s.Advances (s.acknowledge m).2 := by
  unfold acknowledge
  split
  · exact ⟨_, rfl⟩
  · exact .refl s

theorem acknowledge_of_not_wanted (s : Session) {m : Message} (h : m.wantsAcknowledge = false) :
    s.acknowledge m = ([], s) := by
  simp [acknowledge, h]

/-- The messages that a session sends only draw identifiers. -/
theorem encodeAll_advances (ms : List Message) (s : Session) :
    s.Advances (encodeAll ms s).2.2 := by
  induction ms generalizing s with
  | nil => exact .refl s
  | cons m ms ih =>
    have hfirst : s.Advances (s.encode m).2.2 := ⟨_, rfl⟩
    exact hfirst.trans (ih _)

theorem answer_advances (request : Header) (items : List Item) (s : Session) :
    s.Advances (answer request items s).2.2 := by
  induction items generalizing s with
  | nil => exact .refl s
  | cons item items ih =>
    match item with
    | .ok (some reply) =>
      have hfirst : s.Advances s.drawId.2 := ⟨_, rfl⟩
      exact hfirst.trans (ih _)
    | .ok none => exact ih s
    | .error fault => exact s.report_advances fault request.messageId

/-! ## Calls of handlers -/

/-- The messages that handlers were given. -/
def calls (events : List Event) : List (Header × Body) :=
  events.filterMap (fun
    | .handled header body => some (header, body)
    | _ => none)

@[simp] theorem calls_append (events later : List Event) :
    calls (events ++ later) = calls events ++ calls later := List.filterMap_append

@[simp] theorem calls_inbound (events : List Event) : calls (.inbound :: events) = calls events :=
  rfl

@[simp] theorem calls_reassembled (events : List Event) :
    calls (.reassembled :: events) = calls events := rfl

theorem calls_map_inbound {α : Type} (inputs : List α) :
    calls (inputs.map (fun _ => .inbound)) = [] :=
  List.filterMap_eq_nil_iff.2 (by simp)

theorem calls_answer (request : Header) (items : List Item) (s : Session) :
    calls (answer request items s).2.1 = [] := by
  induction items generalizing s with
  | nil => rfl
  | cons item items ih =>
    match item with
    | .ok (some reply) => exact ih _
    | .ok none => exact ih s
    | .error fault => rfl

/-- To encode replies is only to send frames. -/
theorem eq_outbound_of_mem_encodeAll {ms : List Message} {s : Session} {e : Event}
    (h : e ∈ (encodeAll ms s).2.1) : e = .outbound := by
  induction ms generalizing s with
  | nil => cases h
  | cons m ms ih =>
    rcases List.mem_append.1 h with hfirst | hrest
    · obtain ⟨frame, -, rfl⟩ := List.mem_map.1 hfirst
      rfl
    · exact ih hrest

theorem calls_encodeAll (ms : List Message) (s : Session) : calls (encodeAll ms s).2.1 = [] := by
  apply List.filterMap_eq_nil_iff.2
  intro e he
  rw [eq_outbound_of_mem_encodeAll he]

/-! ## One input -/

/-- A message that a gate turns away is reported. -/
theorem receive_refused (onward : Session → σ → Message → Turn σ Replies) {s : Session} (world : σ)
    {m : Message} {fault : Fault} (h : s.gate m = some fault) :
    receive onward s world m = (s.reportOnly world fault 0).inbound := by
  simp only [receive, h]
  rfl

/-- A connected session is closed by the body of a message that passes the gates. -/
theorem receive_closing (onward : Session → σ → Message → Turn σ Replies) {s : Session} (world : σ)
    {m : Message} (hgate : s.gate m = none) (hconnected : s.connected = true)
    (hclose : m.body.kind = .closeSession) :
    receive onward s world m =
      ⟨(s.acknowledge m).2.close, world, [.inbound], .ok (s.acknowledge m).1⟩ := by
  have hconnected : (s.acknowledge m).2.connected = true := by
    obtain ⟨fresh, hacknowledged⟩ := s.acknowledge_advances m
    rw [hacknowledged]
    exact hconnected
  simp only [receive, hgate, hconnected, hclose, decide_true, Bool.and_true, if_true]

/-- Any other message that passes the gates goes on, after the session is opened if its body does so. -/
theorem receive_passing (onward : Session → σ → Message → Turn σ Replies) {s : Session} (world : σ)
    {m : Message} (hgate : s.gate m = none)
    (hstays : ¬ (s.connected = true ∧ m.body.kind = .closeSession)) :
    receive onward s world m =
      let turn := onward ((s.acknowledge m).2.openBy m.body) world m
      { turn with
        events := .inbound :: turn.events
        result := turn.result.map ((s.acknowledge m).1 ++ ·) } := by
  have hstays : ¬ ((s.acknowledge m).2.connected && decide (m.body.kind = .closeSession)) = true := by
    obtain ⟨fresh, hacknowledged⟩ := s.acknowledge_advances m
    rw [hacknowledged, Bool.and_eq_true, decide_eq_true_iff]
    exact hstays
  simp only [receive, hgate]
  rw [if_neg hstays]

theorem receive_onward (onward : Session → σ → Message → Turn σ Replies) {s : Session} (world : σ)
    {m : Message} (hgate : s.gate m = none) (hclose : m.body.kind ≠ .closeSession) :
    receive onward s world m =
      let turn := onward ((s.acknowledge m).2.openBy m.body) world m
      { turn with
        events := .inbound :: turn.events
        result := turn.result.map ((s.acknowledge m).1 ++ ·) } :=
  receive_passing onward world hgate (fun hstays => hclose hstays.2)

/-- What a session does with a message that it admits, before it is collected or given to a handler. -/
theorem receive_of_admits (onward : Session → σ → Message → Turn σ Replies) {s : Session}
    (world : σ) {m : Message} (h : s.Admits m) :
    receive onward s world m =
      let turn := onward (s.acknowledge m).2 world m
      { turn with
        events := .inbound :: turn.events
        result := turn.result.map ((s.acknowledge m).1 ++ ·) } := by
  have hopenBy : (s.acknowledge m).2.openBy m.body = (s.acknowledge m).2 := by
    obtain ⟨fresh, hacknowledged⟩ := s.acknowledge_advances m
    have hoffers : (s.acknowledge m).2.offers m.body = none := by
      rw [hacknowledged]
      exact h.offers_eq
    rw [openBy, hoffers]
  rw [receive_onward onward world h.gate_eq h.not_close, hopenBy]

theorem receive_unacknowledged (onward : Session → σ → Message → Turn σ Replies) {s : Session}
    (world : σ) {m : Message} (hopen : s.Open) (hcore : m.body.kind.protocol ≠ .core)
    (hacknowledge : m.wantsAcknowledge = false) :
    receive onward s world m = (onward s world m).inbound := by
  rw [receive_of_admits onward world (hopen.admits_of_not_core hcore),
    acknowledge_of_not_wanted s hacknowledge]
  obtain ⟨t, world', events, result⟩ := onward s world m
  cases result with
  | error e => rfl
  | ok replies => rfl

theorem receive_congr {onward onward' : Session → σ → Message → Turn σ Replies} {m : Message}
    (h : ∀ s world, onward s world m = onward' s world m) (s : Session) (world : σ) :
    receive onward s world m = receive onward' s world m := by
  simp only [receive, h]

/-- A message that is no part is given to its handler. -/
theorem receive_not_collected (registry : Registry σ) (now : Nat) (s : Session) (world : σ)
    {m : Message} (hcollected : isCollected m = false) :
    receive (route registry now) s world m = receive (dispatch registry) s world m := by
  apply receive_congr
  intro t world
  rw [route, hcollected]
  rfl

/-- Up to where a message is collected or given to a handler, a session only draws an identifier, is
closed or is opened. -/
theorem receive_preserves {P : Session → Prop} {onward : Session → σ → Message → Turn σ Replies}
    (hfresh : ∀ s fresh, P s → P { s with fresh := fresh }) (hclosed : ∀ s, P s → P s.close)
    (hopened : ∀ s offers, P s → P (s.opened offers))
    (honward : ∀ s world m, P s → P (onward s world m).session) {s : Session} (world : σ)
    (m : Message) (hs : P s) : P (receive onward s world m).session := by
  unfold receive
  split
  · exact hfresh s _ hs
  · obtain ⟨fresh, hacknowledged⟩ := s.acknowledge_advances m
    have hdrawn := hfresh s fresh hs
    simp only [hacknowledged]
    split
    · exact hclosed _ hdrawn
    · refine honward _ _ _ ?_
      unfold openBy
      split
      · exact hopened _ _ hdrawn
      · exact hdrawn

theorem handleMessage_eq (registry : Registry σ) (now : Nat) (s : Session) (world : σ)
    (m : Message) :
    handleMessage registry now s world (some m) = (receive (route registry now) s world m).present :=
  rfl

/-- The session with other assemblies. -/
def holding (s : Session) (as : Assemblies) : Session := { s with assemblies := as }

theorem Open.holding {s : Session} (h : s.Open) (as : Assemblies) : (s.holding as).Open :=
  ⟨h.connected, h.authorized⟩

theorem collect_of_admitted {registry : Registry σ} {now : Nat} {s : Session} {world : σ}
    {m : Message} (hadmitted : (!s.assemblies.contains m.exchangeId &&
      decide (s.peer.capabilities.maxConcurrentMultipart ≤ s.assemblies.size)) = false) :
    collect registry now s world m =
      let s := s.holding (s.assemblies.push m.exchangeId m now)
      if m.isFinal then complete registry s world m.exchangeId else ⟨s, world, [], .ok []⟩ := by
  rw [collect, holding]
  simp only [hadmitted, Bool.false_eq_true, if_false]

/-- An admitted part whose exchange has an assembly, or room for one, is put to it; the final part
completes the exchange. -/
theorem receive_collecting (registry : Registry σ) (now : Nat) {s : Session} (world : σ) {p : Message}
    (h : s.Admits p) (hcollected : isCollected p = true)
    (hadmitted : (!s.assemblies.contains p.exchangeId &&
      decide (s.peer.capabilities.maxConcurrentMultipart ≤ s.assemblies.size)) = false) :
    receive (route registry now) s world p =
      let t := (s.acknowledge p).2
      let u := t.holding (t.assemblies.push p.exchangeId p now)
      let turn : Turn σ Replies :=
        if p.isFinal then complete registry u world p.exchangeId else ⟨u, world, [], .ok []⟩
      { turn with
        events := .inbound :: turn.events
        result := turn.result.map ((s.acknowledge p).1 ++ ·) } := by
  have hadmitted : (!(s.acknowledge p).2.assemblies.contains p.exchangeId &&
      decide ((s.acknowledge p).2.peer.capabilities.maxConcurrentMultipart ≤
        (s.acknowledge p).2.assemblies.size)) = false := by
    obtain ⟨fresh, hacknowledged⟩ := s.acknowledge_advances p
    rw [hacknowledged]
    exact hadmitted
  rw [receive_of_admits _ world h, route, if_pos hcollected, collect_of_admitted hadmitted]

/-- What a turn of a handler does to a session. -/
structure Dispatched (s : Session) (peer : Peer) (called : List (Header × Body))
    (turn : Turn σ Replies) : Prop where
  session_eq : ∃ fresh, turn.session = { s with peer := peer, fresh := fresh }
  calls_eq : calls turn.events = called
  answered : ∃ replies, turn.result = .ok replies

theorem dispatch_handled {registry : Registry σ} {handler : Handler σ} (s : Session) (world : σ)
    {m : Message} (hhandler : registry.find? m.header.protocol = some handler) :
    Dispatched s (handler m.body m.header s.peer world).peer [(m.header, m.body)]
      (dispatch registry s world m) := by
  simp only [dispatch, hhandler]
  split
  case h_1 fault hanswer => exact ⟨⟨_, rfl⟩, rfl, _, rfl⟩
  case h_2 response hanswer =>
    refine ⟨?_, ?_, _, rfl⟩
    · obtain ⟨fresh, hfresh⟩ := answer_advances m.header response.items
        { s with peer := (handler m.body m.header s.peer world).peer }
      exact ⟨fresh, hfresh⟩
    · have hanswered := calls_answer m.header response.items
        { s with peer := (handler m.body m.header s.peer world).peer }
      exact congrArg (List.cons (m.header, m.body)) hanswered

theorem dispatch_unregistered {registry : Registry σ} (s : Session) (world : σ) {m : Message}
    (hhandler : registry.find? m.header.protocol = none) :
    Dispatched s s.peer [] (dispatch registry s world m) := by
  simp only [dispatch, hhandler]
  exact ⟨⟨_, rfl⟩, rfl, _, rfl⟩

/-- Only a handler changes a session beyond its identifiers, and only what is known about the peer. -/
theorem dispatch_informs (registry : Registry σ) (s : Session) (world : σ) (m : Message) :
    ∃ peer fresh, (dispatch registry s world m).session = { s with peer := peer, fresh := fresh } := by
  cases hhandler : registry.find? m.header.protocol with
  | none => exact ⟨_, (dispatch_unregistered s world hhandler).session_eq⟩
  | some handler => exact ⟨_, (dispatch_handled s world hhandler).session_eq⟩

theorem answer_present {request : Header} {items : List Item} (s : Session)
    (hitems : .ok none ∉ items) : none ∉ (answer request items s).1 := by
  induction items generalizing s with
  | nil => exact List.not_mem_nil
  | cons item items ih =>
    have hrest : .ok none ∉ items := fun h => hitems (List.mem_cons_of_mem _ h)
    match item with
    | .ok (some reply) =>
      intro hmem
      rcases List.mem_cons.1 hmem with hreply | hmem
      · cases hreply
      · exact ih _ hrest hmem
    | .ok none => exact absurd List.mem_cons_self hitems
    | .error fault =>
      intro hmem
      cases List.mem_singleton.1 hmem

theorem dispatch_answered (registry : Registry σ) (s : Session) (world : σ) (m : Message) :
    ∃ replies, (dispatch registry s world m).result = .ok replies := by
  cases hhandler : registry.find? m.header.protocol with
  | none => exact (dispatch_unregistered s world hhandler).answered
  | some handler => exact (dispatch_handled s world hhandler).answered

/-- Only a handler yields absent replies. -/
theorem dispatch_replies {registry : Registry σ} {s : Session} {world : σ} {m : Message}
    (habsent : ∀ handler, registry.find? m.header.protocol = some handler → handler.NeverAbsent)
    {replies : List (Option Message)} (hreplies : (dispatch registry s world m).result = .ok replies) :
    none ∉ replies := by
  cases hhandler : registry.find? m.header.protocol with
  | none =>
    simp only [dispatch, hhandler] at hreplies
    cases hreplies
    intro hmem
    cases List.mem_singleton.1 hmem
  | some handler =>
    simp only [dispatch, hhandler] at hreplies
    split at hreplies
    case h_1 fault hanswer =>
      cases hreplies
      intro hmem
      cases List.mem_singleton.1 hmem
    case h_2 response hanswer =>
      cases hreplies
      exact answer_present _ (habsent handler hhandler _ _ _ _ _ hanswer)

/-- A message that is admitted is acknowledged if it has to be, and then dispatched. -/
theorem receive_dispatched {registry : Registry σ} {s : Session} {world : σ} {m : Message}
    {peer : Peer} {called : List (Header × Body)} (h : s.Admits m)
    (hdispatch : ∀ fresh, Dispatched { s with fresh := fresh } peer called
      (dispatch registry { s with fresh := fresh } world m)) :
    Dispatched s peer called (receive (dispatch registry) s world m) := by
  rw [receive_of_admits (dispatch registry) world h]
  obtain ⟨fresh, hacknowledged⟩ := s.acknowledge_advances m
  obtain ⟨⟨fresh', hsession⟩, hcalls, replies, hresult⟩ := hdispatch fresh
  rw [hacknowledged]
  refine ⟨⟨fresh', hsession⟩, hcalls, (s.acknowledge m).1 ++ replies, ?_⟩
  simp only [hresult]
  rfl

/-- An open session gives a message to its handler and acknowledges it if it has to. -/
theorem receive_handled {registry : Registry σ} {handler : Handler σ} {s : Session} (world : σ)
    {m : Message} (hopen : s.Open) (hcore : m.body.kind.protocol ≠ .core)
    (hhandler : registry.find? m.header.protocol = some handler) :
    Dispatched s (handler m.body m.header s.peer world).peer [(m.header, m.body)]
      (receive (dispatch registry) s world m) :=
  receive_dispatched (hopen.admits_of_not_core hcore)
    (fun fresh => dispatch_handled { s with fresh := fresh } world hhandler)

/-! ## The last part of an exchange -/

theorem deferAbsent_of_present {id : Int64} {replies : List (Option Message)} (s : Session)
    (hpresent : none ∉ replies) : deferAbsent id replies s = (replies, [], s) := by
  induction replies with
  | nil => rfl
  | cons reply replies ih =>
    cases reply with
    | none => exact absurd List.mem_cons_self hpresent
    | some reply =>
      have hrest := ih (fun h => hpresent (List.mem_cons_of_mem _ h))
      simp only [deferAbsent, hrest]

theorem deferAbsent_spec (id : Int64) (replies : List (Option Message)) (s : Session) :
    (∃ fresh deferred, (deferAbsent id replies s).2.2 =
      { s with fresh := fresh, deferred := deferred }) ∧
      calls (deferAbsent id replies s).2.1 = [] := by
  induction replies generalizing s with
  | nil => exact ⟨⟨s.fresh, s.deferred, rfl⟩, rfl⟩
  | cons reply replies ih =>
    cases reply with
    | some reply => exact ih s
    | none =>
      obtain ⟨⟨fresh, deferred, heq⟩, hcalls⟩ :=
        ih ((s.report .invalidMessage 0).2.defer id (s.report .invalidMessage 0).1)
      exact ⟨⟨fresh, deferred, heq⟩, hcalls⟩

/-- Completing an exchange leaves the session that the whole message leaves, but for the reports that are
held back; without a referencer, the session that has forgotten the parts. -/
theorem session_complete (registry : Registry σ) (s : Session) (world : σ) (id : Int64) :
    (∃ deferred, (complete registry s world id).session =
      { s with assemblies := s.assemblies.erase id, deferred := deferred }) ∨
    ∃ m fresh deferred, (complete registry s world id).session =
      { (receive (dispatch registry) (s.holding (s.assemblies.erase id)) world (whole m)).session with
        fresh := fresh, deferred := deferred } := by
  unfold complete
  simp only
  split
  · exact .inl ⟨_, rfl⟩
  · rename_i m _
    right
    split
    · exact ⟨m, _, _, rfl⟩
    · rename_i replies _
      obtain ⟨⟨fresh, deferred, hkept⟩, -⟩ := deferAbsent_spec id replies
        (receive (dispatch registry) { s with assemblies := s.assemblies.erase id } world
          (whole m)).session
      simp only [hkept]
      exact ⟨m, fresh, _, rfl⟩

/-- Completing an exchange is a turn of the whole message in a session that has forgotten the parts. -/
theorem complete_dispatched {registry : Registry σ} {s : Session} {world : σ} {id : Int64}
    {m : Message} {peer : Peer} {called : List (Header × Body)}
    (hparts : Message.reassemble (s.assemblies.parts id) = some m)
    (hturn : Dispatched (s.holding (s.assemblies.erase id)) peer called
      (receive (dispatch registry) (s.holding (s.assemblies.erase id)) world (whole m))) :
    (∃ fresh deferred, (complete registry s world id).session =
      { s with
        peer := peer, fresh := fresh, assemblies := s.assemblies.erase id, deferred := deferred }) ∧
      calls (complete registry s world id).events = called ∧
      ∃ replies, (complete registry s world id).result = .ok replies := by
  obtain ⟨⟨fresh, hsession⟩, hcalls, replies, hresult⟩ := hturn
  rw [holding] at hsession hcalls hresult
  obtain ⟨⟨fresh', deferred, hkept⟩, hkeptCalls⟩ := deferAbsent_spec id replies
    (receive (dispatch registry) { s with assemblies := s.assemblies.erase id } world
      (whole m)).session
  rw [hsession] at hkept hkeptCalls
  simp only [complete, hparts, hresult, hsession, hkept]
  refine ⟨⟨fresh', _, rfl⟩, ?_, _, rfl⟩
  simp only [calls_append, calls_reassembled, hcalls, hkeptCalls, List.append_nil]

/-- Completing an exchange gives the whole message to its handler and forgets the parts. -/
theorem complete_handled {registry : Registry σ} {handler : Handler σ} {s : Session} (world : σ)
    {id : Int64} {m : Message} (hparts : Message.reassemble (s.assemblies.parts id) = some m)
    (hopen : s.Open) (hcore : m.body.kind.protocol ≠ .core)
    (hhandler : registry.find? m.header.protocol = some handler) :
    calls (complete registry s world id).events = [((whole m).header, m.body)] ∧
      (complete registry s world id).session.assemblies = s.assemblies.erase id ∧
      ∃ replies, (complete registry s world id).result = .ok replies := by
  have hrest : (s.holding (s.assemblies.erase id)).Open := hopen.holding _
  have hturn := receive_handled world (m := whole m) hrest hcore hhandler
  obtain ⟨⟨fresh, deferred, hsession⟩, hcalls, hresult⟩ := complete_dispatched hparts hturn
  refine ⟨hcalls, ?_, hresult⟩
  rw [hsession]

/-- Completing an exchange is handling the whole message, if no reply is absent. -/
theorem complete_present {registry : Registry σ} {s : Session} {world : σ} {id : Int64}
    {m : Message} {turn : Turn σ Replies} {replies : List (Option Message)}
    (hparts : Message.reassemble (s.assemblies.parts id) = some m)
    (hturn : receive (dispatch registry) (s.holding (s.assemblies.erase id)) world (whole m) = turn)
    (hresult : turn.result = .ok replies) (hpresent : none ∉ replies)
    (hdeferred : turn.session.deferred = []) :
    complete registry s world id = { turn with events := .reassembled :: turn.events } := by
  obtain ⟨t, world', events, result⟩ := turn
  simp only at hresult hdeferred
  subst hresult
  have hforget : t.forgetDeferred id = t := by
    obtain ⟨_, _, _, _, _, _, _, deferred⟩ := t
    cases hdeferred
    rfl
  have hnone : t.deferredFor id = [] := by simp [deferredFor, hdeferred]
  rw [holding] at hturn
  simp only [complete, hparts, hturn, deferAbsent_of_present t hpresent, hforget, hnone,
    List.map_nil, List.append_nil]

/-! ## Several inputs -/

/-- Takes a session through several inputs, each at its own time. -/
def feed {α β : Type} (step : Nat → Session → σ → α → Turn σ β) :
    List (Nat × α) → Session → σ → Turn σ (List β)
  | [], s, world => ⟨s, world, [], []⟩
  | (now, a) :: inputs, s, world =>
    let turn := step now s world a
    let rest := feed step inputs turn.session turn.world
    ⟨rest.session, rest.world, turn.events ++ rest.events, turn.result :: rest.result⟩

theorem feed_append {α β : Type} (step : Nat → Session → σ → α → Turn σ β)
    (inputs later : List (Nat × α)) (s : Session) (world : σ) :
    feed step (inputs ++ later) s world =
      let turn := feed step inputs s world
      let rest := feed step later turn.session turn.world
      ⟨rest.session, rest.world, turn.events ++ rest.events, turn.result ++ rest.result⟩ := by
  induction inputs generalizing s world with
  | nil => rfl
  | cons input inputs ih => simp [feed, ih]

/-- The replies to several inputs, one after the other, unless the session failed. -/
def joined : List (Except ConnectionError (List Message)) → Except ConnectionError (List Message)
  | [] => .ok []
  | .error e :: _ => .error e
  | .ok replies :: results => (joined results).map (replies ++ ·)

/-- Inputs without a reply add nothing. -/
theorem joined_of_silent {α : Type} (inputs : List α)
    (last : Except ConnectionError (List Message)) :
    joined (inputs.map (fun _ => .ok []) ++ [last]) = last := by
  induction inputs with
  | nil =>
    cases last with
    | error e => rfl
    | ok replies => simp [joined, Except.map]
  | cons input inputs ih =>
    simp only [List.map_cons, List.cons_append, joined, ih]
    cases last with
    | error e => rfl
    | ok replies => rfl

end Session

end Etp
