import Etp.Catalog.BodyType
import Etp.Schema.Handshake

/-!
# Bodies that run a session

Opening and closing, authorization, signs of life, errors and acknowledgements.
-/

namespace Etp.Catalog

open Schema

namespace Core

/-- A client asks a server to open a session. -/
def requestSession : BodyType where
  protocol := .core
  number := 1
  name := "RequestSession"
  shape := .record [("application_name", .text), ("application_version", .text),
    ("client_instance_id", .uuid), ("requested_protocols", .list supportedProtocol),
    ("supported_data_objects", .list supportedDataObject), ("supported_compression", .list .text),
    ("supported_formats", .list .text), ("current_date_time", .long),
    ("earliest_retained_change_time", .long), ("server_authorization_required", .bool),
    ("endpoint_capabilities", .map .value)]

/-- A server opens a session. -/
def openSession : BodyType where
  protocol := .core
  number := 2
  name := "OpenSession"
  shape := .record [("application_name", .text), ("application_version", .text),
    ("server_instance_id", .uuid), ("supported_protocols", .list supportedProtocol),
    ("supported_data_objects", .list supportedDataObject), ("supported_compression", .text),
    ("supported_formats", .list .text), ("current_date_time", .long),
    ("earliest_retained_change_time", .long), ("session_id", .uuid),
    ("endpoint_capabilities", .map .value)]

/-- Either end closes the session. -/
def closeSession : BodyType where
  protocol := .core
  number := 5
  name := "CloseSession"
  shape := .record [("reason", .text)]

/-- Presents credentials. -/
def authorize : BodyType where
  protocol := .core
  number := 6
  name := "Authorize"
  shape := .record [("authorization", .text), ("supplemental_authorization", .map .text)]

/-- Says whether the credentials were accepted. -/
def authorizeResponse : BodyType where
  protocol := .core
  number := 7
  name := "AuthorizeResponse"
  shape := .record [("success", .bool), ("challenges", .list .text)]

/-- Asks for a sign of life. -/
def ping : BodyType where
  protocol := .core
  number := 8
  name := "Ping"
  shape := .record [("current_date_time", .long)]

/-- Gives a sign of life. -/
def pong : BodyType where
  protocol := .core
  number := 9
  name := "Pong"
  shape := .record [("current_date_time", .long)]

/-- Reports an error. -/
def protocolException : BodyType where
  protocol := .core
  number := 1000
  name := "ProtocolException"
  shape := .record [("error", .option errorInfo), ("errors", .map errorInfo)]

/-- Confirms that a message arrived. -/
def acknowledge : BodyType where
  protocol := .core
  number := 1001
  name := "Acknowledge"
  shape := .record []

end Core

end Etp.Catalog
