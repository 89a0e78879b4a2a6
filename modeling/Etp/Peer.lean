import Etp.Capability
import Etp.KeyMap

/-!
# Peers

What a session knows about the other end, and the capabilities in force with it.  Two records are
the same peer if they carry the same number; a copy keeps it, and every record made anew has a
number of its own.

Negotiation takes, for every capability offered, the smaller of the local and the offered value;
values that do not compare give way to the offer.  The result is moved into the published bounds.
-/

namespace Etp

/-- Capability values by name. -/
abbrev Capabilities := KeyMap DataValue

namespace Capabilities

/-- The limit for frames and messages where none is set. -/
def defaultPayloadSize : Int64 := 10000

/-- The capabilities where none are set. -/
def default : Capabilities :=
  KeyMap.ofList [(Capability.maxWebSocketFramePayloadSize.name, .long defaultPayloadSize),
    (Capability.maxWebSocketMessagePayloadSize.name, .long defaultPayloadSize)]

/-- The integer under a name. -/
def integer? (cs : Capabilities) (name : String) : Option Int := (cs.get? name).bind (·.asInteger)

/-- The largest frame that may be sent; without a positive integer there is no limit. -/
def maxFrameSize (cs : Capabilities) : Option Nat :=
  match cs.integer? Capability.maxWebSocketMessagePayloadSize.name with
  | some size => if 0 < size then some size.toNat else none
  | none => none

/-- The number of exchanges that are assembled at once where none is set. -/
def defaultMaxConcurrentMultipart : Nat := 64

/-- The number of exchanges that are assembled at once. -/
def maxConcurrentMultipart (cs : Capabilities) : Nat :=
  match cs.integer? Capability.maxConcurrentMultipart.name with
  | some count => if 0 < count then count.toNat else defaultMaxConcurrentMultipart
  | none => defaultMaxConcurrentMultipart

/-- The time, in seconds, after which an unfinished exchange is dropped. -/
def multipartTimeout (cs : Capabilities) : Option Nat :=
  match cs.integer? Capability.multipartMessageTimeoutPeriod.name with
  | some seconds => if 0 ≤ seconds then some seconds.toNat else none
  | none => none

/-- The value agreed on: the offer, unless the local value is smaller. -/
def agree (local? : Option DataValue) (offered : DataValue) : DataValue :=
  match local? with
  | none => offered
  | some own => if offered.compare own == some .gt then own else offered

/-- The value within the bounds of the capability with a name, if one has it. -/
def bounded (name : String) (value : DataValue) : DataValue :=
  match Capability.named? name with
  | none => value
  | some c => c.clamp value

/-- Settles one offered capability. -/
def settle (cs : Capabilities) (offer : String × DataValue) : Capabilities :=
  cs.insert offer.1 (bounded offer.1 (agree (cs.get? offer.1) offer.2))

/-- Settles every offered capability. -/
def negotiate (cs offers : Capabilities) : Capabilities := offers.entries.foldl settle cs

end Capabilities

/-- What a session knows about the other end. -/
structure Peer where
  /-- The number of the record. -/
  number : Nat
  login : String
  ip : String
  authenticated : Bool := false
  capabilities : Capabilities
  deriving DecidableEq

namespace Peer

/-- The login where none is set. -/
def anonymous : String := "anonymousUser"

/-- The address where none is set. -/
def unspecifiedIp : String := "0.0.0.0"

/-- A peer with the default capabilities. -/
def new (number : Nat) (login ip : String) : Peer :=
  { number := number, login := login, ip := ip, capabilities := Capabilities.default }

/-- Whether two records are the same peer. -/
def isSame (p q : Peer) : Bool := p.number == q.number

/-- The text of a peer, with a text in the place of its number. -/
def textWith (p : Peer) (number : String) : String :=
  "ClientInfo[" ++ number ++ "] " ++ p.ip ++ "<" ++ p.login ++ ">"

/-- The text of a peer. -/
def text (p : Peer) : String := p.textWith (toString p.number)

/-- Takes the offers of the other end into account. -/
def negotiate (p : Peer) (offers : Capabilities) : Peer :=
  { p with capabilities := p.capabilities.negotiate offers }

end Peer

end Etp
