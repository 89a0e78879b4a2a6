import Etp.Text.Base64
import Etp.Text.Blank
import Etp.Wire.Text

/-!
# Credentials

An authorization consists of the scheme `basic`, in any case, a space, and the Base64 text of a name
and a password with a colon between them.
-/

namespace Etp.Example

open Text

/-- The name that is accepted. -/
def username : String := "usernameTest"

/-- The password that is accepted. -/
def password : String := "passwordTest"

/-- Whether an authorization presents the accepted name and password. -/
def isAuthorized (authorization : String) : Bool :=
  let decoded := do
    let (scheme, credentials) ← splitOnce? ' ' authorization.toList
    if scheme.map Char.toLower = "basic".toList then
      let bytes ← Base64.decode? (trim credentials)
      let text ← Wire.textOfBytes? bytes
      splitOnce? ':' text.toList
    else none
  decoded == some (username.toList, password.toList)

end Etp.Example
