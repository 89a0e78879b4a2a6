import Etp.Handler.Registry
import Etp.Message.Parts
import Etp.Message.Reassembly
import Etp.Session.Event
import Etp.Session.State

/-!
# Processing an input

An input passes, in this order, the authorization gate, the connection gate, acknowledgement,
closing and opening of the session.  What then remains of it is either a part of a multipart
message, which is collected until its exchange is complete, or is given to the handler of its
protocol.  A message made whole from its parts takes the same way once more, but is not collected
again.

All identifiers of replies come from the session; handlers choose none.
-/

namespace Etp

/-- Failures of the session itself, which are not reported to the peer. -/
inductive ConnectionError where
  /-- An exchange was completed without a referencer. -/
  | missingReferencer (exchangeId : Int64)
  /-- The transport failed. -/
  | transport (reason : String)
  deriving DecidableEq

/-- The text of a failure. -/
def ConnectionError.message : ConnectionError → String
  | missingReferencer id =>
    s!"multipart exchange {id.toInt} completed without a chunk referencer"
  | transport reason => "transport error: " ++ reason

/-- What comes of an action: the session and the state of the handlers after it, what happened, and
the result. -/
structure Turn (σ α : Type) where
  session : Session
  world : σ
  events : List Event
  result : α

/-- The replies to an input, or the failure of the session; an absent reply is not sent. -/
abbrev Replies := Except ConnectionError (List (Option Message))

namespace Session

variable {σ : Type}

/-- Whether the bodies of a kind may pass the authorization gate. -/
def isAuthorization : Kind → Bool
  | .authorize => true
  | .authorizeResponse => true
  | _ => false

/-- The fault for which a message is turned away, if it is. -/
def gate (s : Session) (m : Message) : Option Fault :=
  if s.authRequired && !s.peer.authenticated && !isAuthorization m.body.kind then
    some .authorizationRequired
  else if m.header.protocol ≠ Protocol.core.id && !s.connected then some .invalidState
  else none

/-- The turn that only reports a fault. -/
def reportOnly (s : Session) (world : σ) (fault : Fault) (correlationId : Int64) :
    Turn σ Replies :=
  let (reply, s) := s.report fault correlationId
  ⟨s, world, [.faultReply fault.code], .ok [some reply]⟩

/-- The acknowledgement of a message that asks for one; acknowledgements are not acknowledged. -/
def acknowledge (s : Session) (m : Message) : List (Option Message) × Session :=
  if m.wantsAcknowledge && m.body.kind ≠ .acknowledge then
    let (id, s) := s.drawId
    ([some (((Message.ofBody ⟨.acknowledge, ()⟩).withId id).withCorrelation m.header.messageId)], s)
  else ([], s)

/-- The capabilities that a body offers if it opens the session: the other end's first message. -/
def offers (s : Session) (body : Body) : Option Capabilities :=
  match s.role, body with
  | .server, ⟨.requestSession, _, _, _, _, _, _, _, _, _, _, capabilities, _⟩ => some capabilities
  | .client, ⟨.openSession, _, _, _, _, _, _, _, _, _, _, capabilities, _⟩ => some capabilities
  | _, _ => none

/-- The session after a body that may open it. -/
def openBy (s : Session) (body : Body) : Session :=
  match s.offers body with
  | some capabilities => s.opened capabilities
  | none => s

/-- A reply of a handler, ready to be sent: it is final and answers the request unless the handler
says otherwise. -/
def finish (request : Header) (reply : Message) (id : Int64) : Message :=
  let reply := reply.withId id
  (if reply.header.correlationId = 0 then reply.withCorrelation request.messageId
    else reply).setFinal true

/-- The replies that come of what a handler yields; nothing after a fault is sent. -/
def answer (request : Header) : List Item → Session → List (Option Message) × List Event × Session
  | [], s => ([], [], s)
  | .ok (some reply) :: items, s =>
    let (id, s) := s.drawId
    let (replies, events, s) := answer request items s
    (some (finish request reply id) :: replies, events, s)
  | .ok none :: items, s =>
    let (replies, events, s) := answer request items s
    (none :: replies, events, s)
  | .error fault :: _, s =>
    let (reply, s) := s.report fault request.messageId
    ([some reply], [.faultReply fault.code], s)

/-- Gives a message to the handler of its protocol. -/
def dispatch (registry : Registry σ) (s : Session) (world : σ) (m : Message) : Turn σ Replies :=
  match registry.find? m.header.protocol with
  | none => s.reportOnly world (.unsupportedProtocol m.header.protocol) m.header.messageId
  | some handler =>
    let handled := handler m.body m.header s.peer world
    let s := { s with peer := handled.peer }
    let event := Event.handled m.header m.body
    match handled.answer with
    | .error fault =>
      let turn := s.reportOnly handled.world fault m.header.messageId
      { turn with events := event :: turn.events }
    | .ok response =>
      let (replies, events, s) := answer m.header response.items s
      ⟨s, handled.world, event :: events, .ok replies⟩

/-- Takes a message through the gates, acknowledges it, closes or opens the session, and leaves the
rest to `onward`. -/
def receive (onward : Session → σ → Message → Turn σ Replies) (s : Session) (world : σ)
    (m : Message) : Turn σ Replies :=
  match s.gate m with
  | some fault =>
    let turn := s.reportOnly world fault 0
    { turn with events := .inbound :: turn.events }
  | none =>
    let (acknowledgement, s) := s.acknowledge m
    if s.connected && m.body.kind = .closeSession then
      ⟨s.close, world, [.inbound], .ok acknowledgement⟩
    else
      let turn := onward (s.openBy m.body) world m
      { turn with
        events := .inbound :: turn.events
        result := turn.result.map (acknowledgement ++ ·) }

/-- Holds a fault report back for every absent reply, and returns the others. -/
def deferAbsent (exchangeId : Int64) :
    List (Option Message) → Session → List (Option Message) × List Event × Session
  | [], s => ([], [], s)
  | some reply :: replies, s =>
    let (kept, events, s) := deferAbsent exchangeId replies s
    (some reply :: kept, events, s)
  | none :: replies, s =>
    let (report, s) := s.report .invalidMessage 0
    let (kept, events, s) := deferAbsent exchangeId replies (s.defer exchangeId report)
    (kept, .faultReply Fault.invalidMessage.code :: events, s)

/-- A message made whole from its parts: it is no part any more, it is final, and its parts have
been acknowledged. -/
def whole (m : Message) : Message :=
  (m.removeFlags (Flags.multipart.union .acknowledge)).setFinal true

/-- Makes the message of a complete exchange and takes it through the session. -/
def complete (registry : Registry σ) (s : Session) (world : σ) (exchangeId : Int64) :
    Turn σ Replies :=
  let parts := s.assemblies.parts exchangeId
  let s := { s with assemblies := s.assemblies.erase exchangeId }
  match Message.reassemble parts with
  | none => ⟨s.forgetDeferred exchangeId, world, [], .error (.missingReferencer exchangeId)⟩
  | some m =>
    let turn := receive (dispatch registry) s world (whole m)
    match turn.result with
    | .error e => { turn with events := .reassembled :: turn.events, result := .error e }
    | .ok replies =>
      let (kept, events, s) := deferAbsent exchangeId replies turn.session
      ⟨s.forgetDeferred exchangeId, turn.world, .reassembled :: turn.events ++ events,
        .ok (kept ++ (s.deferredFor exchangeId).map some)⟩

/-- Collects a part of a multipart message, unless its exchange would be one too many. -/
def collect (registry : Registry σ) (now : Nat) (s : Session) (world : σ) (m : Message) :
    Turn σ Replies :=
  let id := m.exchangeId
  let limit := s.peer.capabilities.maxConcurrentMultipart
  if !s.assemblies.contains id && limit ≤ s.assemblies.size then
    s.reportOnly world .limitExceeded id
  else
    let s := { s with assemblies := s.assemblies.push id m now }
    if m.isFinal then complete registry s world id else ⟨s, world, [], .ok []⟩

/-- Whether a message is a part to be collected. -/
def isCollected (m : Message) : Bool := m.isMultipart && (m.isChunk || m.isReferencer)

/-- Collects a part or gives a message to its handler. -/
def route (registry : Registry σ) (now : Nat) (s : Session) (world : σ) (m : Message) :
    Turn σ Replies :=
  if isCollected m then collect registry now s world m else dispatch registry s world m

/-- Processes one input; an absent message stands for a frame that could not be read. -/
def process (registry : Registry σ) (now : Nat) (s : Session) (world : σ) :
    Option Message → Turn σ Replies
  | none => s.reportOnly world .invalidMessage 0
  | some m => receive (route registry now) s world m

/-- Processes one input and returns the replies to be sent. -/
def handleMessage (registry : Registry σ) (now : Nat) (s : Session) (world : σ)
    (input : Option Message) : Turn σ (Except ConnectionError (List Message)) :=
  let turn := process registry now s world input
  { turn with result := turn.result.map (·.filterMap (fun reply => reply)) }

end Session

end Etp
