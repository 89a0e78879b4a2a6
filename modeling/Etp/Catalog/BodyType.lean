import Etp.Protocol
import Etp.Schema.Shape

/-!
# Body types

A catalog entry describes one type of message body: the protocol and the number under which a
header announces it, its name, the shape of its values, and the field by whose entries a message
that is too large may be cut.
-/

namespace Etp

/-- A type of message body. -/
structure BodyType where
  protocol : Protocol
  number : Int32
  name : String
  shape : Shape
  /-- The field whose entries can be spread over several messages. -/
  cut : Option String := none

end Etp
