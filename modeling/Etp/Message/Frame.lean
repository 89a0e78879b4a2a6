import Etp.Message.Basic

/-!
# Frames

A frame is the written form of a message: the header and, right behind it, the body.  The header's
protocol and number select the kind by which the body is read; header and body each have the whole
allowance of memory to themselves.  Error replies keep the protocol of the request that they answer,
so a body that cannot be read in the announced protocol is read once more as a body of the core
protocol.
-/

namespace Etp

open Wire Wire.Reader

/-- Why a frame holds no message. -/
inductive FrameError where
  /-- The bytes are not the written form of a header or of the announced body. -/
  | decode (cause : DecodeError)
  /-- No kind of body has this protocol and this number. -/
  | unknownBody (protocol number : Int32)
  deriving DecidableEq

/-- The detail that a report of a failure gives. -/
def FrameError.message : FrameError → String
  | decode cause => cause.message
  | unknownBody protocol number =>
    s!"no body schema for protocol {protocol.toInt}, message type {number.toInt}"

namespace Header

/-- The written form of a header. -/
def write (h : Header) : Bytes :=
  writeInt32 h.protocol ++ (writeInt32 h.number ++ (writeInt64 h.correlationId ++
    (writeInt64 h.messageId ++ writeInt32 h.flags.bits)))

/-- Reads a header. -/
def read : Reader Header := do
  let protocol ← readInt32
  let number ← readInt32
  let correlationId ← readInt64
  let messageId ← readInt64
  let bits ← readInt32
  pure ⟨protocol, number, correlationId, messageId, ⟨bits⟩⟩

/-- A header is read back from its written form, whatever follows it. -/
theorem read_reads (h : Header) : read.Reads h.write h (.claim 28) := by
  have hcost : Cost.claim 28 = (Cost.claim 4).followedBy ((Cost.claim 4).followedBy
      ((Cost.claim 8).followedBy ((Cost.claim 8).followedBy (Cost.claim 4)))) := by simp
  rw [hcost]
  exact (int32_reads h.protocol).bind ((int32_reads h.number).bind
    ((int64_reads h.correlationId).bind ((int64_reads h.messageId).bind
      ((int32_reads h.flags.bits).map
        (fun bits => Header.mk h.protocol h.number h.correlationId h.messageId ⟨bits⟩)))))

end Header

namespace Body

/-- Reads a body of the kind with the given protocol and number; what follows it is left. -/
def readAnnounced (protocol number : Int32) (payload : Bytes) : Except FrameError (Body × Bytes) :=
  match Kind.find? protocol number with
  | none => .error (.unknownBody protocol number)
  | some k =>
    match (read k).run payload with
    | .ok result => .ok result
    | .error cause => .error (.decode cause)

/-- The body of the kind with the given protocol and number at the front of a payload. -/
def decode (protocol number : Int32) (payload : Bytes) : Except FrameError Body :=
  (readAnnounced protocol number payload).map (·.1)

end Body

namespace Message

/-- The frame of a message. -/
def encode (m : Message) : Bytes := m.header.write ++ m.body.write

/-- The message of a frame; none if the header announces a negative protocol, which marks a frame
that is not complete. -/
def decode (frame : Bytes) : Except FrameError (Option Message) :=
  match Header.read.run frame with
  | .error cause => .error (.decode cause)
  | .ok (header, payload) =>
    if header.protocol < 0 then .ok none
    else
      match Body.decode header.protocol header.number payload with
      | .ok body => .ok (some ⟨header, body⟩)
      | .error _ =>
        match Body.decode Protocol.core.id header.number payload with
        | .ok body => .ok (some ⟨header, body⟩)
        | .error e => .error e

end Message

end Etp
