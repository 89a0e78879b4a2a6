import Etp.Schema.Shape

/-!
# Records of the handshake

What the two ends of a session tell each other about themselves, and the record of an error.
-/

namespace Etp.Schema

/-- A protocol version of four numbers. -/
def version : Shape := .record
  [("major", .int), ("minor", .int), ("revision", .int), ("patch", .int)]

/-- A protocol that an endpoint serves, in a version and a role. -/
def supportedProtocol : Shape := .record
  [("protocol", .int), ("protocol_version", version), ("role", .text),
    ("protocol_capabilities", .map .value)]

/-- A data object type that an endpoint serves. -/
def supportedDataObject : Shape := .record
  [("qualified_type", .text), ("data_object_capabilities", .map .value)]

/-- The text and the code of an error. -/
def errorInfo : Shape := .record
  [("message", .text), ("code", .int)]

end Etp.Schema
