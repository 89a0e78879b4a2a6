import Etp.Body.Chunk
import Etp.Body.Entries
import Etp.Message.Flags

/-!
# Messages

A message is a header and a body.  Messages with one exchange identifier belong together: a message
that opens an exchange has none of another and lends its own identifier to it.
-/

namespace Etp

/-- The header in front of every body. -/
structure Header where
  protocol : Int32
  number : Int32
  correlationId : Int64
  messageId : Int64
  flags : Flags
  deriving DecidableEq

/-- A header and the body that it describes. -/
structure Message where
  header : Header
  body : Body
  deriving DecidableEq

namespace Message

/-- The message around a body whose identifiers are still to be given. -/
def ofBody (body : Body) : Message :=
  ⟨⟨body.protocolId, body.kind.number, 0, 0, .none⟩, body⟩

/-- The message with another message identifier. -/
def withId (m : Message) (id : Int64) : Message := { m with header.messageId := id }

/-- The message with another correlation identifier. -/
def withCorrelation (m : Message) (id : Int64) : Message := { m with header.correlationId := id }

/-- The message with other flags. -/
def withFlags (m : Message) (flags : Flags) : Message := { m with header.flags := flags }

/-- The message with additional flags. -/
def addFlags (m : Message) (flags : Flags) : Message := m.withFlags (m.header.flags.union flags)

/-- The message without some flags. -/
def removeFlags (m : Message) (flags : Flags) : Message := m.withFlags (m.header.flags.remove flags)

/-- The message, marked as final or not. -/
def setFinal (m : Message) (isFinal : Bool) : Message :=
  m.withFlags (m.header.flags.put .final isFinal)

/-- The exchange to which the message belongs. -/
def exchangeId (m : Message) : Int64 :=
  if m.header.correlationId = 0 then m.header.messageId else m.header.correlationId

/-- Whether the message is the final part of its exchange. -/
def isFinal (m : Message) : Bool := m.header.flags.contains .final

/-- Whether the message is a part of a multipart message. -/
def isMultipart (m : Message) : Bool := m.header.flags.contains .multipart

/-- Whether the body is compressed. -/
def isCompressed (m : Message) : Bool := m.header.flags.contains .compressed

/-- Whether the sender asks for an acknowledgement. -/
def wantsAcknowledge (m : Message) : Bool := m.header.flags.contains .acknowledge

/-- Whether the header has an extension. -/
def hasHeaderExtension (m : Message) : Bool := m.header.flags.contains .headerExtension

/-- Whether the message holds many entries by its name. -/
def isPlural (m : Message) : Bool := m.body.kind.isPlural

/-- Whether the message is a chunk. -/
def isChunk (m : Message) : Bool := m.body.isChunk

/-- Whether the content of the data objects of the message may travel in chunks. -/
def isChunkable (m : Message) : Bool := m.body.isChunkable

/-- Whether the content of all data objects of the message travels in chunks. -/
def isReferencer (m : Message) : Bool :=
  !m.isChunk && (m.body.objects.any (fun objects => objects.all DataObject.isReference))

/-- Whether two messages are equal, floating-point numbers as numbers. -/
def same (a b : Message) : Bool := a.header == b.header && a.body.same b.body

end Message

end Etp
