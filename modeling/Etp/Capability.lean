import Etp.Value

/-!
# Endpoint capabilities

The named limits that the two ends of a session agree on, with their published defaults, bounds and
units.  Bounds concern numbers only.
-/

namespace Etp

/-- The published capabilities. -/
inductive Capability where
  | activeTimeoutPeriod
  | authorizationDetails
  | changePropagationPeriod
  | changeRetentionPeriod
  | maxConcurrentMultipart
  | maxDataObjectSize
  | maxPartSize
  | maxSessionClientCount
  | maxSessionGlobalCount
  | maxWebSocketFramePayloadSize
  | maxWebSocketMessagePayloadSize
  | multipartMessageTimeoutPeriod
  | responseTimeoutPeriod
  | requestSessionTimeoutPeriod
  | sessionEstablishmentTimeoutPeriod
  | supportsAlternateRequestUris
  | supportsMessageHeaderExtensions
  deriving DecidableEq, Repr

namespace Capability

/-- What is published about a capability. -/
structure Entry where
  name : String
  default : Option DataValue := none
  lower : Option Int := none
  upper : Option Int := none
  unit : Option String := none

/-- The unit of a time span. -/
def seconds : String := "seconds, <count of seconds>"

/-- The unit of a size. -/
def bytes : String := "bytes, <number of bytes>"

/-- The unit of a number of sessions. -/
def sessions : String := "count, <count of sessions>"

/-- What is published about each capability. -/
def entry : Capability → Entry
  | activeTimeoutPeriod =>
    { name := "ActiveTimeoutPeriod", default := some (.long 3600), lower := some 60,
      unit := some seconds }
  | authorizationDetails => { name := "AuthorizationDetails" }
  | changePropagationPeriod =>
    { name := "ChangePropagationPeriod", default := some (.long 5), lower := some 1,
      upper := some 600, unit := some seconds }
  | changeRetentionPeriod =>
    { name := "ChangeRetentionPeriod", default := some (.long 86400), lower := some 86400,
      unit := some seconds }
  | maxConcurrentMultipart =>
    { name := "MaxConcurrentMultipart", lower := some 1,
      unit := some "count, <count of messages>" }
  | maxDataObjectSize =>
    { name := "MaxDataObjectSize", lower := some 100000, unit := some "bytes" }
  | maxPartSize => { name := "MaxPartSize", lower := some 100000, unit := some bytes }
  | maxSessionClientCount =>
    { name := "MaxSessionClientCount", lower := some 2, unit := some sessions }
  | maxSessionGlobalCount =>
    { name := "MaxSessionGlobalCount", lower := some 2, unit := some sessions }
  | maxWebSocketFramePayloadSize =>
    { name := "MaxWebSocketFramePayloadSize", unit := some bytes }
  | maxWebSocketMessagePayloadSize =>
    { name := "MaxWebSocketMessagePayloadSize", unit := some bytes }
  | multipartMessageTimeoutPeriod =>
    { name := "MultipartMessageTimeoutPeriod", lower := some 60, unit := some seconds }
  | responseTimeoutPeriod =>
    { name := "ResponseTimeoutPeriod", default := some (.long 300), lower := some 60,
      unit := some seconds }
  | requestSessionTimeoutPeriod =>
    { name := "RequestSessionTimeoutPeriod", default := some (.long 45), lower := some 5,
      unit := some seconds }
  | sessionEstablishmentTimeoutPeriod =>
    { name := "SessionEstablishmentTimeoutPeriod", default := some (.long 60), lower := some 5,
      unit := some seconds }
  | supportsAlternateRequestUris =>
    { name := "SupportsAlternateRequestUris", default := some (.boolean false) }
  | supportsMessageHeaderExtensions =>
    { name := "SupportsMessageHeaderExtensions", default := some (.boolean false) }

/-- All capabilities, in the order of publication. -/
def all : List Capability :=
  [activeTimeoutPeriod, authorizationDetails, changePropagationPeriod, changeRetentionPeriod,
    maxConcurrentMultipart, maxDataObjectSize, maxPartSize, maxSessionClientCount,
    maxSessionGlobalCount, maxWebSocketFramePayloadSize, maxWebSocketMessagePayloadSize,
    multipartMessageTimeoutPeriod, responseTimeoutPeriod, requestSessionTimeoutPeriod,
    sessionEstablishmentTimeoutPeriod, supportsAlternateRequestUris,
    supportsMessageHeaderExtensions]

/-- The name of a capability. -/
def name (c : Capability) : String := c.entry.name

/-- The published default. -/
def default (c : Capability) : Option DataValue := c.entry.default

/-- The published lower bound, which is itself admitted. -/
def lower (c : Capability) : Option Int := c.entry.lower

/-- The published upper bound, which is itself admitted. -/
def upper (c : Capability) : Option Int := c.entry.upper

/-- The published unit. -/
def unit (c : Capability) : Option String := c.entry.unit

/-- The capability with a name. -/
def named? (name : String) : Option Capability := all.find? (fun c => c.name == name)

/-- The report of a name that no capability has. -/
def unknownMessage (name : String) : String :=
  "unknown endpoint capability " ++ "\x60" ++ name ++ "\x60"

/-- The integer, but within the bounds. -/
def clampInt (c : Capability) (i : Int) : Int :=
  let raised := match c.lower with
    | none => i
    | some bound => max i bound
  match c.upper with
  | none => raised
  | some bound => min raised bound

/-- A number within the bounds; a value of another kind as it is.  A 32-bit integer becomes a 64-bit
one where the bound calls for it. -/
def clamp (c : Capability) : DataValue → DataValue
  | .int v =>
    let clamped := c.clampInt v.toInt
    if clamped = (Int32.ofInt clamped).toInt then .int (Int32.ofInt clamped)
    else .long (Int64.ofInt clamped)
  | .long v => .long (Int64.ofInt (c.clampInt v.toInt))
  | .double v => .double (v.clamp c.lower c.upper)
  | .float v => .float (v.clamp c.lower c.upper)
  | other => other

end Capability

end Etp
