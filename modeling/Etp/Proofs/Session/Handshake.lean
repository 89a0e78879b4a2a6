import Etp.Example.Handlers
import Etp.Proofs.Peer.Negotiation
import Etp.Proofs.Session.Authorization
import Etp.Proofs.Session.Reachable

/-!
# The handshake

A client opens a session by offering its capabilities.  The server settles them against its own and
answers with what has come of it, and the client settles that against its own in turn.  The two ends do
this at different times and against different values, but what one end has settled the other one can only
accept: it is within the bounds already, and not above what was offered (`integer?_returned`).
-/

namespace Etp

namespace Capabilities

/-- What becomes of an offer stays as it is when it is settled against the offer in turn. -/
theorem integer?_returned {own offered : Capabilities} {name : String}
    (hown : own.IsIntegerOrAbsent name) (hoffered : (offered.integer? name).isSome) :
    ∃ least, (own.integers [offered] name).min? = some least ∧
      (own.negotiate offered).integer? name = some (boundedInt name least) ∧
      (offered.negotiate (own.negotiate offered)).integer? name = some (boundedInt name least) := by
  obtain ⟨least, hleast, hsettled⟩ := integer?_foldl_negotiate hown (List.cons_ne_nil offered [])
    (List.forall_mem_singleton.2 hoffered)
  obtain ⟨i, hi⟩ := Option.isSome_iff_exists.1 hoffered
  have hle : least ≤ i := (List.min?_eq_some_iff.1 hleast).2 i
    (mem_integers.2 (.inr ⟨offered, List.mem_singleton.2 rfl, hi⟩))
  refine ⟨least, hleast, hsettled, ?_⟩
  -- What comes back was the least of both and then moved into the bounds, and so it is once more.
  have hreturned := integer?_negotiate hi hsettled
  rw [Int.min_comm, boundedInt_min_boundedInt, Int.min_eq_left hle] at hreturned
  exact hreturned

theorem maxFrameSize_congr {cs cs' : Capabilities}
    (h : cs.integer? Capability.maxWebSocketMessagePayloadSize.name =
      cs'.integer? Capability.maxWebSocketMessagePayloadSize.name) :
    cs.maxFrameSize = cs'.maxFrameSize := by
  unfold maxFrameSize
  rw [h]

theorem maxConcurrentMultipart_congr {cs cs' : Capabilities}
    (h : cs.integer? Capability.maxConcurrentMultipart.name =
      cs'.integer? Capability.maxConcurrentMultipart.name) :
    cs.maxConcurrentMultipart = cs'.maxConcurrentMultipart := by
  unfold maxConcurrentMultipart
  rw [h]

end Capabilities

namespace Session

variable {σ : Type}

/-! ## Opening -/

/-- A client never asks for authorization. -/
theorem Reachable.authRequired_eq_false {s : Session} (h : s.Reachable) :
    s.role = .client → s.authRequired = false := by
  refine h.preserved (P := fun s => s.role = .client → s.authRequired = false) ?_ ?_ ?_ ?_ ?_
  · intro settings peerNumber blobs hclient
    have hrole : settings.role = .client := hclient
    simp [Session.start, Settings.requiresAuth, hrole]
  · intro σ registry now s world input hs hclient
    have hend := sameEnd_handleMessage registry now s world input
    exact hend.authRequired_eq.trans (hs (hend.role_eq.symm.trans hclient))
  · exact fun _ _ hs => hs
  · intro s now hs hclient
    unfold sweep at hclient ⊢
    split at hclient
    · exact hs hclient
    · exact hs hclient
  · exact fun _ _ hs => hs

/-- A message of the core protocol passes the gates of a session that needs no authorization any more. -/
theorem gate_eq_none_of_core {s : Session}
    (hauthorized : s.authRequired = true → s.peer.authenticated = true) {m : Message}
    (hcore : m.header.protocol = Protocol.core.id) : s.gate m = none := by
  rw [gate_of_authorized hauthorized]
  simp [hcore]

theorem kind_of_offers {s : Session} {b : Body} {capabilities : Capabilities}
    (hoffers : s.offers b = some capabilities) :
    s.role = .server ∧ b.kind = .requestSession ∨ s.role = .client ∧ b.kind = .openSession := by
  unfold offers at hoffers
  split at hoffers
  case h_1 hrole => exact .inl ⟨hrole, rfl⟩
  case h_2 hrole => exact .inr ⟨hrole, rfl⟩
  case h_3 => cases hoffers

/-- A body that opens a session neither closes it nor is a part. -/
theorem routed_of_offers {s : Session} {m : Message} {capabilities : Capabilities}
    (hoffers : s.offers m.body = some capabilities) :
    m.body.kind ≠ .closeSession ∧ isCollected m = false := by
  have hkind := kind_of_offers hoffers
  obtain ⟨header, kind, value⟩ := m
  rcases hkind with ⟨-, hkind⟩ | ⟨-, hkind⟩
  · cases hkind
    exact ⟨Kind.noConfusion, Bool.and_false _⟩
  · cases hkind
    exact ⟨Kind.noConfusion, Bool.and_false _⟩

/-- A body that opens a session goes to its handler once the offer is settled. -/
theorem handleMessage_opening (registry : Registry σ) (now : Nat) {s : Session} (world : σ) {m : Message}
    {capabilities : Capabilities} (hgate : s.gate m = none)
    (hoffers : s.offers m.body = some capabilities) :
    let turn := handleMessage registry now s world (some m)
    ∃ t, s.Advances t ∧
      let handled := dispatch registry (t.opened capabilities) world m
      turn.session = handled.session ∧ ∀ replies, handled.result = .ok replies →
        turn.result = .ok (((s.acknowledge m).1 ++ replies).filterMap (fun reply => reply)) := by
  intro turn
  obtain ⟨hclose, hcollected⟩ := routed_of_offers hoffers
  have hadvances := s.acknowledge_advances m
  have hopened : (s.acknowledge m).2.openBy m.body = (s.acknowledge m).2.opened capabilities := by
    obtain ⟨fresh, hacknowledged⟩ := hadvances
    have hoffers : (s.acknowledge m).2.offers m.body = some capabilities := by
      rw [hacknowledged]
      exact hoffers
    rw [openBy, hoffers]
  refine ⟨(s.acknowledge m).2, hadvances, ?_⟩
  simp only [turn, handleMessage_eq, receive_onward _ world hgate hclose, hopened, route, hcollected,
    Bool.false_eq_true, if_false, Turn.present, true_and]
  intro replies hreplies
  rw [hreplies]
  rfl

theorem kind_of_mem_acknowledge {s : Session} {m reply : Message} (h : some reply ∈ (s.acknowledge m).1) :
    reply.body.kind = .acknowledge := by
  unfold acknowledge at h
  split at h
  · obtain rfl := Option.some.inj (List.mem_singleton.1 h)
    rfl
  · cases h

/-! ## The example services -/

/-- A body that offers capabilities to a client. -/
def Offers (body : Body) (capabilities : Capabilities) : Prop :=
  ∀ client : Session, client.role = .client → client.offers body = some capabilities

open Example (World)

/-- The core service answers a request for a session with the capabilities in force; the other services
do not take it.  Nothing changes what is known about the peer. -/
theorem handler_requestSession {count : Nat} {p : Protocol} {handler : Handler World}
    (hhandler : (Example.registry count).handler p = some handler) {body : Body}
    (hbody : body.kind = .requestSession) (header : Header) (peer : Peer) (world : World) :
    if p = .core then
      ∃ value world', handler body header peer world = Example.reply ⟨.openSession, value⟩ peer world' ∧
        Offers ⟨.openSession, value⟩ peer.capabilities
    else handler body header peer world = ⟨.error .invalidMessageType, peer, world⟩ := by
  obtain ⟨kind, value⟩ := body
  cases hbody
  cases p with
  | core =>
    cases hhandler
    refine ⟨_, _, rfl, ?_⟩
    intro client hclient
    simp only [offers, hclient]
  | discovery | store | dataspace =>
    cases hhandler
    rfl
  | _ => cases hhandler

theorem body_finish (request : Header) (reply : Message) (id : Int64) :
    (finish request reply id).body = reply.body := by
  simp only [finish]
  split <;> rfl

theorem protocol_finish (request : Header) (reply : Message) (id : Int64) :
    (finish request reply id).header.protocol = reply.header.protocol := by
  simp only [finish]
  split <;> rfl

/-- The one reply to a request for a session, and what it is if it opens one. -/
theorem dispatch_requestSession (count : Nat) (s : Session) (world : World) {m : Message}
    (hkind : m.body.kind = .requestSession) :
    let turn := dispatch (Example.registry count) s world m
    turn.session.peer = s.peer ∧ ∃ reply, turn.result = .ok [some reply] ∧
      (m.header.protocol = Protocol.core.id → reply.body.kind = .openSession) ∧
      (reply.body.kind = .openSession →
        reply.header.protocol = Protocol.core.id ∧ Offers reply.body s.peer.capabilities) := by
  intro turn
  cases hregistered : (Example.registry count).find? m.header.protocol with
  | none =>
    simp only [turn, dispatch, hregistered]
    refine ⟨rfl, _, rfl, ?_, Kind.noConfusion⟩
    intro hcore
    rw [hcore] at hregistered
    cases hregistered
  | some handler =>
    obtain ⟨p, hp, hhandler⟩ := Option.bind_eq_some_iff.1 hregistered
    have hanswer := handler_requestSession hhandler hkind m.header s.peer world
    by_cases hcore : p = .core
    · rw [if_pos hcore] at hanswer
      obtain ⟨value, world', hanswer, hoffers⟩ := hanswer
      simp only [turn, dispatch, hregistered, hanswer]
      refine ⟨rfl, _, rfl, ?_, ?_⟩
      · rw [body_finish]
        exact fun _ => rfl
      · rw [body_finish, protocol_finish]
        exact fun _ => ⟨rfl, hoffers⟩
    · rw [if_neg hcore] at hanswer
      simp only [turn, dispatch, hregistered, hanswer]
      refine ⟨rfl, _, rfl, ?_, Kind.noConfusion⟩
      intro hprotocol
      rw [hprotocol, Protocol.ofId?_id] at hp
      exact absurd (Option.some.inj hp).symm hcore

/-- A client that is answered with a session leaves what is known about the peer alone. -/
theorem dispatch_openSession (count : Nat) (s : Session) (world : World) {m : Message}
    (hkind : m.body.kind = .openSession) (hcore : m.header.protocol = Protocol.core.id) :
    (dispatch (Example.registry count) s world m).session.peer = s.peer := by
  have hregistered : (Example.registry count).find? m.header.protocol =
      some (Example.core Example.advertised).handler := by
    rw [hcore]
    rfl
  obtain ⟨header, kind, value⟩ := m
  cases hkind
  simp only [dispatch, hregistered]
  rfl

/-! ## The two ends -/

/-- The answer of a server to a request for a session. -/
theorem handleMessage_requestSession (count now : Nat) {server : Session} (world : World)
    (hserver : server.role = .server)
    (hauthorized : server.authRequired = true → server.peer.authenticated = true) {request : Message}
    {capabilities : Capabilities} (hoffers : server.offers request.body = some capabilities) :
    let turn := handleMessage (Example.registry count) now server world (some request)
    ∃ replies, turn.result = .ok replies ∧
      (request.header.protocol = Protocol.core.id →
        ∃ reply ∈ replies, reply.body.kind = .openSession) ∧
      ∀ reply ∈ replies, reply.body.kind = .openSession →
        reply.header.protocol = Protocol.core.id ∧
          turn.session.peer.capabilities = server.peer.capabilities.negotiate capabilities ∧
          Offers reply.body turn.session.peer.capabilities := by
  intro turn
  cases hgate : server.gate request with
  | some fault =>
    have hturn : turn = (server.reportOnly world fault 0).inbound.present := by
      simp only [turn, handleMessage_eq, receive_refused _ world hgate]
    rw [hturn]
    refine ⟨_, rfl, ?_, ?_⟩
    · intro hcore
      rw [gate_eq_none_of_core hauthorized hcore] at hgate
      cases hgate
    · intro reply hreply hkind
      rw [List.mem_singleton.1 hreply] at hkind
      cases hkind
  | none =>
    have hkind : request.body.kind = .requestSession := by
      rcases kind_of_offers hoffers with ⟨-, hkind⟩ | ⟨hclient, -⟩
      · exact hkind
      · rw [hserver] at hclient
        cases hclient
    obtain ⟨t, ⟨fresh, hadvanced⟩, hsession, hresult⟩ :=
      handleMessage_opening (Example.registry count) now world hgate hoffers
    obtain ⟨hpeer, reply, hreplies, hopens, hreply⟩ :=
      dispatch_requestSession count (t.opened capabilities) world hkind
    have hsettled : (t.opened capabilities).peer = server.peer.negotiate capabilities := by
      rw [hadvanced]
      rfl
    rw [hsettled] at hpeer hreply
    rw [← hsession] at hpeer
    -- Besides the answer there is at most an acknowledgement, which is of another kind.
    refine ⟨_, hresult _ hreplies, ?_, ?_⟩
    · intro hcore
      exact ⟨reply, List.mem_filterMap.2 ⟨some reply, by simp, rfl⟩, hopens hcore⟩
    · intro other hother hkind'
      obtain ⟨entry, hentry, rfl⟩ := List.mem_filterMap.1 hother
      rcases List.mem_append.1 hentry with hacknowledged | hanswered
      · rw [kind_of_mem_acknowledge hacknowledged] at hkind'
        cases hkind'
      · obtain rfl := Option.some.inj (List.mem_singleton.1 hanswered)
        obtain ⟨hcore, hoffered⟩ := hreply hkind'
        rw [hpeer]
        exact ⟨hcore, rfl, hoffered⟩

/-- What a client makes of the answer. -/
theorem handleMessage_openSession (count now : Nat) {client : Session} (world : World)
    (hrequired : client.authRequired = false) {answer : Message}
    (hkind : answer.body.kind = .openSession) (hcore : answer.header.protocol = Protocol.core.id)
    {capabilities : Capabilities} (hoffers : client.offers answer.body = some capabilities) :
    (handleMessage (Example.registry count) now client world
      (some answer)).session.peer.capabilities = client.peer.capabilities.negotiate capabilities := by
  have hgate : client.gate answer = none := by
    apply gate_eq_none_of_core _ hcore
    intro hauth
    rw [hrequired] at hauth
    cases hauth
  obtain ⟨t, ⟨fresh, hadvanced⟩, hsession, -⟩ :=
    handleMessage_opening (Example.registry count) now world hgate hoffers
  rw [hsession, dispatch_openSession count _ world hkind hcore, hadvanced]
  rfl

/-- The client offers an integer under a name, and the server has an integer or nothing there. -/
structure Negotiable (client server : Session) (name : String) : Prop where
  offered : (client.peer.capabilities.integer? name).isSome
  own : server.peer.capabilities.IsIntegerOrAbsent name

/-- Where a client offers what it has, and gets the server's answer, both ends have the same integer in
force under every name that the client offered as an integer and the server had as one or not at all:
the smaller one of the two, within the published bounds.  So they agree on the size of a frame and on
the number of exchanges under way. -/
theorem handshake_agrees {client server : Session} (hreachable : client.Reachable)
    (hclient : client.role = .client) (hserver : server.role = .server)
    (hauthorized : server.authRequired = true → server.peer.authenticated = true) {request : Message}
    (hrequest : server.offers request.body = some client.peer.capabilities)
    (count count' now now' : Nat) (world world' : World) :
    let served := handleMessage (Example.registry count) now server world (some request)
    ∃ replies, served.result = .ok replies ∧
      (request.header.protocol = Protocol.core.id →
        ∃ answer ∈ replies, answer.body.kind = .openSession) ∧
      ∀ answer ∈ replies, answer.body.kind = .openSession →
        let here := served.session.peer.capabilities
        let there := (handleMessage (Example.registry count') now' client world'
          (some answer)).session.peer.capabilities
        (∀ name, Negotiable client server name → ∃ least,
          (server.peer.capabilities.integers [client.peer.capabilities] name).min? = some least ∧
            here.integer? name = some (Capabilities.boundedInt name least) ∧
            there.integer? name = some (Capabilities.boundedInt name least)) ∧
          (Negotiable client server Capability.maxWebSocketMessagePayloadSize.name →
            there.maxFrameSize = here.maxFrameSize) ∧
          (Negotiable client server Capability.maxConcurrentMultipart.name →
            there.maxConcurrentMultipart = here.maxConcurrentMultipart) := by
  intro served
  obtain ⟨replies, hreplies, hopens, hanswers⟩ :=
    handleMessage_requestSession count now world hserver hauthorized hrequest
  refine ⟨replies, hreplies, hopens, ?_⟩
  intro answer hanswer hkind here there
  obtain ⟨hcore, hsettled, hoffers⟩ := hanswers answer hanswer hkind
  have hhere : here = server.peer.capabilities.negotiate client.peer.capabilities := hsettled
  have hthere : there = client.peer.capabilities.negotiate here :=
    handleMessage_openSession count' now' world' (hreachable.authRequired_eq_false hclient) hkind hcore
      (hoffers client hclient)
  have hagreed : ∀ name, Negotiable client server name → ∃ least,
      (server.peer.capabilities.integers [client.peer.capabilities] name).min? = some least ∧
        here.integer? name = some (Capabilities.boundedInt name least) ∧
        there.integer? name = some (Capabilities.boundedInt name least) := by
    intro name hname
    rw [hthere, hhere]
    exact Capabilities.integer?_returned hname.own hname.offered
  have hsame : ∀ name, Negotiable client server name → there.integer? name = here.integer? name := by
    intro name hname
    obtain ⟨least, -, hhere, hthere⟩ := hagreed name hname
    exact hthere.trans hhere.symm
  exact ⟨hagreed, fun h => Capabilities.maxFrameSize_congr (hsame _ h),
    fun h => Capabilities.maxConcurrentMultipart_congr (hsame _ h)⟩

/-- A client with limits of its own, one of them below the published bound. -/
def modestClient : Session :=
  Session.start ((Settings.client.withCapability Capability.maxWebSocketMessagePayloadSize.name
    (.int 5000)).withCapability Capability.maxConcurrentMultipart.name (.long 0)) 1
    Message.countingFresh.blobs

/-- A server that takes peers as they come. -/
def openServer : Session := Session.start Settings.default 2 Message.countingFresh.blobs

/-- A request for a session that offers what the client has. -/
def modestRequest : Message :=
  let (name, version, client, protocols, objects, compression, formats, time, earliest, required, _) :=
    Shape.default Kind.requestSession.shape
  Message.request ⟨.requestSession, name, version, client, protocols, objects, compression, formats,
    time, earliest, required, modestClient.peer.capabilities, ()⟩

/-- The client's limit for messages is in force at both ends; its limit for exchanges was raised. -/
theorem handshake_agrees_modest :
    let world : World := { uuids := Message.countingFresh.blobs }
    let served := handleMessage (Example.registry 0) 0 openServer world (some modestRequest)
    modestClient.Reachable ∧ modestClient.role = .client ∧ openServer.role = .server ∧
      (openServer.authRequired = true → openServer.peer.authenticated = true) ∧
      openServer.offers modestRequest.body = some modestClient.peer.capabilities ∧
      Negotiable modestClient openServer Capability.maxWebSocketMessagePayloadSize.name ∧
      Negotiable modestClient openServer Capability.maxConcurrentMultipart.name ∧
      ∃ replies answer, served.result = .ok replies ∧ answer ∈ replies ∧
        let here := served.session.peer.capabilities
        let there := (handleMessage (Example.registry 0) 5 modestClient world
          (some answer)).session.peer.capabilities
        here.maxFrameSize = some 5000 ∧ there.maxFrameSize = some 5000 ∧
          here.maxConcurrentMultipart = 1 ∧ there.maxConcurrentMultipart = 1 := by
  intro world served
  have hreachable : modestClient.Reachable := .start _ _ _
  have hauthorized : openServer.authRequired = true → openServer.peer.authenticated = true := by
    decide +kernel
  have hoffers : openServer.offers modestRequest.body = some modestClient.peer.capabilities := rfl
  have hsize : Negotiable modestClient openServer Capability.maxWebSocketMessagePayloadSize.name :=
    ⟨by decide +kernel, .inr (by decide +kernel)⟩
  have hcount : Negotiable modestClient openServer Capability.maxConcurrentMultipart.name :=
    ⟨by decide +kernel, .inl (by decide +kernel)⟩
  obtain ⟨replies, hreplies, hopens, hagrees⟩ := handshake_agrees hreachable rfl rfl hauthorized hoffers
    0 0 0 5 world world
  obtain ⟨answer, hanswer, hkind⟩ := hopens (by decide +kernel)
  obtain ⟨-, hframe, hexchanges⟩ := hagrees answer hanswer hkind
  have hhere : served.session.peer.capabilities.maxFrameSize = some 5000 := by decide +kernel
  have hlimit : served.session.peer.capabilities.maxConcurrentMultipart = 1 := by decide +kernel
  refine ⟨hreachable, rfl, rfl, hauthorized, hoffers, hsize, hcount, replies, answer, hreplies, hanswer,
    hhere, (hframe hsize).trans hhere, hlimit, (hexchanges hcount).trans hlimit⟩

end Session

end Etp
