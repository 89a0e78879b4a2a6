import Etp.Peer
import Etp.Role

/-!
# Settings

What a session starts with.
-/

namespace Etp

/-- The settings of a session. -/
structure Settings where
  role : Role := .server
  authRequired : Bool := false
  login : String := Peer.anonymous
  ip : String := Peer.unspecifiedIp
  capabilities : Capabilities := Capabilities.default
  deriving DecidableEq

namespace Settings

/-- The settings of a server where none are given. -/
def default : Settings := {}

/-- The settings of a client where none are given. -/
def client : Settings := { role := .client }

/-- Sets one capability. -/
def withCapability (s : Settings) (name : String) (value : DataValue) : Settings :=
  { s with capabilities := s.capabilities.insert name value }

/-- Whether a peer has to authorize itself before anything else; a client never asks for it. -/
def requiresAuth (s : Settings) : Bool := s.authRequired && s.role == .server

/-- The peer of a session that starts with the settings. -/
def peer (s : Settings) (number : Nat) : Peer :=
  { number := number, login := s.login, ip := s.ip, capabilities := s.capabilities }

end Settings

end Etp
