import Etp.Fault
import Etp.Message.Frame
import Etp.Message.Fresh

/-!
# Messages in parts

A message whose frame is larger than the limit is sent in parts.  If its name is plural, its entries
are halved until the parts fit.  A single data object that is still too large is sent without its
content, which follows in chunks.  What can be sent in neither way is replaced by the report of a
fault, which is sent whatever its size.
-/

namespace Etp

/-- A message to be sent as one frame. -/
structure Part where
  message : Message
  /-- Whether the message reports that something else could not be sent. -/
  isRefusal : Bool
  deriving DecidableEq

namespace Message

/-- Whether the frame of the message is within a limit. -/
def fits (limit : Option Nat) (m : Message) : Bool :=
  match limit with
  | none => true
  | some max => m.encode.length ≤ max

/-- The final report of a fault in the place of a message with a given correlation. -/
def refusal (fault : Fault) (correlationId : Int64) (fresh : Fresh) : List Part × Fresh :=
  let (id, fresh) := fresh.drawId
  ([⟨(fault.toMessage id correlationId).setFinal true, true⟩], fresh)

/-- The message as one part, or a refusal in its place. -/
def onePart (limit : Option Nat) (m : Message) (fresh : Fresh) : List Part × Fresh :=
  if m.fits limit then ([⟨m, false⟩], fresh)
  else refusal .maxSizeExceeded m.header.correlationId fresh

/-- The bytes of a frame that are kept free for what surrounds the content of a chunk. -/
def chunkMargin : Nat := 50

/-- The chunks of a content: `count` pieces of at most `size` bytes, the last one marked. -/
def chunksOf (blob : Uuid) (size count : Nat) (data : Bytes) : List Chunk :=
  (List.range count).map (fun i =>
    ⟨blob, (data.drop (i * size)).take size, i + 1 == count⟩)

/-- The message around a chunk of an exchange; `isFinal` marks the end of the exchange. -/
def ofChunk (body : Body) (id exchangeId : Int64) (isFinal : Bool) : Message :=
  (((ofBody body).withId id).withCorrelation exchangeId).withFlags
    (if isFinal then Flags.multipart.union .final else .multipart)

/-- The messages of several chunks, one part each; the last one may end the exchange. -/
def chunkParts (limit : Option Nat) (exchangeId : Int64) (isFinal : Bool) :
    List Body → Fresh → List Part × Fresh
  | [], fresh => ([], fresh)
  | body :: bodies, fresh =>
    let (id, fresh) := fresh.drawId
    let (parts, fresh) :=
      onePart limit (ofChunk body id exchangeId (isFinal && bodies.isEmpty)) fresh
    let (others, fresh) := chunkParts limit exchangeId isFinal bodies fresh
    (parts ++ others, fresh)

/-- The message without the content of its data objects, which is to follow under `blob`. -/
def referencer (m : Message) (blob : Uuid) : Message :=
  let emptied := { m with body := m.body.mapObjects (fun o => o.withContent (some blob) []) }
  (emptied.setFinal false).addFlags .multipart

/-- The message of a single data object, sent as a referencer and the chunks of its content. -/
def chunkedParts (max : Nat) (m : Message) (object : DataObject) (fresh : Fresh) :
    List Part × Fresh :=
  let size := max - chunkMargin
  if size = 0 || object.data.isEmpty then
    refusal .maxSizeExceeded m.header.correlationId fresh
  else
    let count := (m.body.write.length + size - 1) / size
    let (blob, fresh) := fresh.drawBlob
    match (chunksOf blob size count object.data).mapM (·.toBody? m.header.protocol) with
    | none =>
      refusal (.internal s!"no chunk message in protocol {m.header.protocol.toInt}")
        m.header.correlationId fresh
    | some chunks =>
      let (first, fresh) := onePart (some max) (m.referencer blob) fresh
      let (others, fresh) := chunkParts (some max) m.exchangeId m.isFinal chunks fresh
      (first ++ others, fresh)

/-- The first of two halves of a message: it is not the final part. -/
def firstHalf (m : Message) (body : Body) : Message :=
  ({ m with body := body }.addFlags .multipart).setFinal false

/-- The second of two halves of a message: it ends the exchange if the message did. -/
def secondHalf (m : Message) (body : Body) (id : Int64) : Message :=
  (⟨{ m.header with messageId := id, correlationId := m.exchangeId }, body⟩ : Message).addFlags
    .multipart

/-- The parts in which a message is sent under a limit. -/
def parts (limit : Option Nat) (m : Message) (fresh : Fresh) : List Part × Fresh :=
  let refused := refusal .maxSizeExceeded m.header.correlationId fresh
  if m.fits limit then ([⟨m, false⟩], fresh)
  else if !m.isPlural then refused
  else
    match _hsize : m.body.cuttableSize with
    | none => refused
    | some 0 => refused
    | some 1 =>
      match limit, m.body.objects with
      | some max, some [object] => chunkedParts max m object fresh
      | _, _ => refused
    | some (size + 2) =>
      match _hsplit : m.body.split ((size + 3) / 2) with
      | none => refused
      | some (head, rest) =>
        let (id, fresh) := fresh.drawId
        let (first, fresh) := parts limit (m.firstHalf head) fresh
        let (second, fresh) := parts limit (m.secondHalf rest id) fresh
        (first ++ second, fresh)
termination_by m.body.cuttableSize.getD 0
decreasing_by
  · have h := Body.cuttableSize_split _hsize _hsplit
    simp only [firstHalf, addFlags, withFlags, setFinal, h.1, _hsize, Option.getD_some]
    omega
  · have h := Body.cuttableSize_split _hsize _hsplit
    simp only [secondHalf, addFlags, withFlags, h.2, _hsize, Option.getD_some]
    omega

/-- The frames in which a message is sent under a limit. -/
def frames (limit : Option Nat) (m : Message) (fresh : Fresh) : List Bytes × Fresh :=
  let (parts, fresh) := m.parts limit fresh
  (parts.map (·.message.encode), fresh)

end Message

end Etp
