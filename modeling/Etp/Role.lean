/-!
# Roles

The two ends of a session.
-/

namespace Etp

/-- Which end of a session an endpoint is. -/
inductive Role where
  /-- Opens sessions. -/
  | client
  /-- Waits for clients and answers them. -/
  | server
  deriving DecidableEq, Repr

/-- The name of a role. -/
def Role.name : Role → String
  | .client => "client"
  | .server => "server"

end Etp
