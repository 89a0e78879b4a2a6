import Etp.Fault
import Etp.Message.Fresh
import Etp.Session.Assemblies
import Etp.Settings.Basic

/-!
# Sessions

The state that an endpoint keeps for one peer.
-/

namespace Etp

/-- Where a session stands. -/
inductive Phase where
  /-- The peer has to authorize itself first. -/
  | unauthenticated
  /-- Only the core protocol may be used. -/
  | notConnected
  /-- Every protocol may be used. -/
  | connected
  /-- The session was closed. -/
  | closed
  deriving DecidableEq, Repr

namespace Phase

/-- All phases, in the order of a session. -/
def all : List Phase := [unauthenticated, notConnected, connected, closed]

/-- The text of a phase. -/
def text : Phase → String
  | unauthenticated => "unauthenticated"
  | notConnected => "authenticated, not connected"
  | connected => "connected"
  | closed => "closed"

/-- Whether protocols other than the core may be used. -/
def isOpen (p : Phase) : Bool := p == connected

end Phase

/-- The state of a session. -/
structure Session where
  role : Role
  authRequired : Bool
  connected : Bool := false
  closed : Bool := false
  peer : Peer
  fresh : Fresh
  /-- The exchanges whose final part has not arrived. -/
  assemblies : Assemblies := Assemblies.empty
  /-- Fault reports held back until the exchange to which they belong has been answered. -/
  deferred : List (Int64 × Message) := []

namespace Session

/-- The session at its start. -/
def start (settings : Settings) (peerNumber : Nat) (blobs : Uuid.Supply) : Session where
  role := settings.role
  authRequired := settings.requiresAuth
  peer := settings.peer peerNumber
  fresh := ⟨IdCounter.forRole settings.role, blobs⟩

/-- Where the session stands. -/
def phase (s : Session) : Phase :=
  if s.connected then .connected
  else if s.closed then .closed
  else if s.authRequired && !s.peer.authenticated then .unauthenticated
  else .notConnected

/-- Takes a message identifier. -/
def drawId (s : Session) : Int64 × Session :=
  let (id, fresh) := s.fresh.drawId
  (id, { s with fresh := fresh })

/-- The final report of a fault. -/
def report (s : Session) (fault : Fault) (correlationId : Int64) : Message × Session :=
  let (id, s) := s.drawId
  ((fault.toMessage id correlationId).setFinal true, s)

/-- The session after opening it on the offers of the other end. -/
def opened (s : Session) (offers : Capabilities) : Session :=
  { s with connected := true, closed := false, peer := s.peer.negotiate offers }

/-- The session after the other end closed it. -/
def close (s : Session) : Session := { s with connected := false, closed := true }

/-- Holds a message back for an exchange. -/
def defer (s : Session) (exchangeId : Int64) (m : Message) : Session :=
  { s with deferred := s.deferred ++ [(exchangeId, m)] }

/-- The messages held back for an exchange. -/
def deferredFor (s : Session) (exchangeId : Int64) : List Message :=
  (s.deferred.filter (fun d => d.1 == exchangeId)).map (·.2)

/-- Forgets the messages held back for an exchange. -/
def forgetDeferred (s : Session) (exchangeId : Int64) : Session :=
  { s with deferred := s.deferred.filter (fun d => d.1 ≠ exchangeId) }

end Session

end Etp
