import Etp.Schema.Shape
import Etp.Wire.Values

/-!
# Written form of the values of a shape

The fields of a record follow each other with nothing between them; maps are written in the order
of their keys, each key before its value.
-/

namespace Etp.Shape

open Wire Wire.Reader

/-- The room that a value takes in memory, without what fills it up to a multiple of the
alignment. -/
structure Extent where
  size : Nat
  alignment : Nat

/-- The size, filled up to a multiple of the alignment. -/
def Extent.filled (e : Extent) : Nat := (e.size + e.alignment - 1) / e.alignment * e.alignment

/-- Whether the values of a shape leave a bit pattern unused, which an absent value can take. -/
def hasSpare : Shape → Bool
  | int => false
  | long => false
  | uuid => false
  | map _ => false
  | empty => false
  | field _ head rest => head.hasSpare || rest.hasSpare
  | _ => true

/-- The room that the values of a shape take.  The fields of a record lie in the order of their
alignments, so that nothing is lost between them.  An optional value takes a mark of its own only
where the item has no spare pattern. -/
def extent : Shape → Extent
  | int => ⟨4, 4⟩
  | long => ⟨8, 8⟩
  | bool => ⟨1, 1⟩
  | text => ⟨24, 8⟩
  | bytes => ⟨24, 8⟩
  | uuid => ⟨16, 1⟩
  | value => ⟨32, 8⟩
  | index => ⟨16, 8⟩
  | choice _ _ => ⟨1, 1⟩
  | option item =>
    if item.hasSpare then item.extent
    else ⟨item.extent.filled + item.extent.alignment, item.extent.alignment⟩
  | list _ => ⟨24, 8⟩
  | map _ => ⟨24, 8⟩
  | empty => ⟨0, 1⟩
  | field _ head rest =>
    ⟨head.extent.filled + rest.extent.size, max head.extent.alignment rest.extent.alignment⟩

/-- The size at which an entry of a sequence is reckoned. -/
def entrySize (s : Shape) : Nat := s.extent.filled

/-- The written form of a value. -/
def write : (s : Shape) → s.Val → Bytes
  | int, v => writeInt32 v
  | long, v => writeInt64 v
  | bool, v => writeBool v
  | text, v => writeText v
  | bytes, v => writeBytes v
  | uuid, v => v.bytes
  | value, v => writeDataValue v
  | index, v => writeIndexValue v
  | choice _ _, v => writeVarint v.val
  | option item, v => writeOption item.write v
  | list entry, v => writeList entry.write v
  | map entry, v =>
    writeList (fun e : String × entry.Val => writeText e.1 ++ entry.write e.2) v.entries
  | empty, _ => []
  | field _ head rest, v => head.write v.1 ++ rest.write v.2

/-- Reads a value. -/
def read : (s : Shape) → Reader s.Val
  | int => readInt32
  | long => readInt64
  | bool => readBool
  | text => readTextField
  | bytes => readBytes
  | uuid => readUuid
  | value => readDataValue
  | index => readIndexValue
  | choice _ others => readVariant others.length
  | option item => readOption item.read
  | list entry => readList entry.entrySize entry.read
  | map entry => do
    let size := (field "" text (field "" entry empty)).entrySize
    let entries ← readList size (do
      let key ← readTextField
      let value ← entry.read
      pure (key, value))
    pure (KeyMap.ofList entries)
  | empty => pure ()
  | field _ head rest => do
    let a ← head.read
    let b ← rest.read
    pure (a, b)

end Etp.Shape
