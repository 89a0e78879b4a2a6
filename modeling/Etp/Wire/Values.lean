import Etp.Uuid
import Etp.Value
import Etp.Wire.Sequence

/-!
# Written form of numbers, identifiers and loosely typed values

Floating-point numbers are their bits and identifiers their 16 bytes, without a length.  A loosely
typed value is the number of its kind followed by its content.
-/

namespace Etp.Wire

open Number Reader

/-- The eight bytes of a number. -/
def writeDouble (d : Double) : Bytes := littleEndian 8 d.bits.toNat

/-- Reads the eight bytes of a number. -/
def readDouble : Reader Double := do
  claim 8
  let bits ← fixedWidth 8
  pure ⟨UInt64.ofNat bits⟩

theorem double_reads (d : Double) : readDouble.Reads (writeDouble d) d (.claim 8) := by
  have hbits := (fixedWidth_reads 8 d.bits.toNat d.bits.toNat_lt_size).map
    (fun bits => (⟨UInt64.ofNat bits⟩ : Double))
  simpa [readDouble, writeDouble] using hbits.afterClaim 8

/-- The four bytes of a number. -/
def writeSingle (s : Single) : Bytes := littleEndian 4 s.bits.toNat

/-- Reads the four bytes of a number. -/
def readSingle : Reader Single := do
  claim 4
  let bits ← fixedWidth 4
  pure ⟨UInt32.ofNat bits⟩

theorem single_reads (s : Single) : readSingle.Reads (writeSingle s) s (.claim 4) := by
  have hbits := (fixedWidth_reads 4 s.bits.toNat s.bits.toNat_lt_size).map
    (fun bits => (⟨UInt32.ofNat bits⟩ : Single))
  simpa [readSingle, writeSingle] using hbits.afterClaim 4

/-- Reads the 16 bytes of an identifier. -/
def readUuid : Reader Uuid := do
  claim 16
  let bytes ← take 16
  pure ⟨bytes.val, bytes.property⟩

theorem uuid_reads (u : Uuid) : readUuid.Reads u.bytes u (.claim 16) := by
  have hbytes := (take_reads u.bytes 16 u.length_eq).map
    (fun bytes => (⟨bytes.val, bytes.property⟩ : Uuid))
  simpa [readUuid] using hbytes.afterClaim 16

/-- The number of the kind of a value. -/
def dataValueKind : DataValue → Nat
  | .null => 0
  | .boolean _ => 1
  | .int _ => 2
  | .long _ => 3
  | .double _ => 4
  | .float _ => 5
  | .text _ => 6
  | .longs _ => 7
  | .doubles _ => 8
  | .texts _ => 9
  | .bytes _ => 10

/-- The content of a value, after its kind. -/
def dataValueContent : DataValue → Bytes
  | .null => []
  | .boolean b => writeBool b
  | .int i => writeInt32 i
  | .long i => writeInt64 i
  | .double d => writeDouble d
  | .float s => writeSingle s
  | .text t => writeText t
  | .longs is => writeList writeInt64 is
  | .doubles ds => writeList writeDouble ds
  | .texts ts => writeList writeText ts
  | .bytes bs => writeBytes bs

/-- The number of the kind of a value and its content. -/
def writeDataValue (v : DataValue) : Bytes := writeVarint (dataValueKind v) ++ dataValueContent v

/-- Reads the content of a value of the kind with the given number. -/
def readDataValueContent : Fin 11 → Reader DataValue
  | 0 => pure .null
  | 1 => do let b ← readBool; pure (.boolean b)
  | 2 => do let i ← readInt32; pure (.int i)
  | 3 => do let i ← readInt64; pure (.long i)
  | 4 => do let d ← readDouble; pure (.double d)
  | 5 => do let s ← readSingle; pure (.float s)
  | 6 => do let t ← readTextField; pure (.text t)
  | 7 => do let is ← readList 8 readInt64; pure (.longs is)
  | 8 => do let ds ← readList 8 readDouble; pure (.doubles ds)
  | 9 => do let ts ← readList 24 readTextField; pure (.texts ts)
  | 10 => do let bs ← readBytes; pure (.bytes bs)

/-- Reads a value. -/
def readDataValue : Reader DataValue := do
  let kind ← readVariant 10
  readDataValueContent kind

/-- The number of the kind of a position and the position. -/
def writeIndexValue : IndexValue → Bytes
  | .null => writeVarint 0
  | .long i => writeVarint 1 ++ writeInt64 i
  | .double d => writeVarint 2 ++ writeDouble d

/-- Reads a position of the kind with the given number. -/
def readIndexValueContent : Fin 3 → Reader IndexValue
  | 0 => pure .null
  | 1 => do let i ← readInt64; pure (.long i)
  | 2 => do let d ← readDouble; pure (.double d)

/-- Reads a position. -/
def readIndexValue : Reader IndexValue := do
  let kind ← readVariant 2
  readIndexValueContent kind

end Etp.Wire
