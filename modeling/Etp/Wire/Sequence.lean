import Etp.Wire.Varint
import Etp.Wire.Text

/-!
# Lengths, sequences, choices and single values

A sequence is written as the number of its entries and then the entries.  Once the number is known,
room for all entries is claimed at their size in memory, before any of them is read; so a number
that the allowance does not cover is refused, whatever follows it.
-/

namespace Etp.Wire

open Reader

/-- Reads a declared length. -/
def readLength : Reader Nat := readVarint .w64 false

theorem length_reads (count : Nat) (hsize : count < Width.w64.size) :
    readLength.Reads (writeVarint count) count (.claim 8) :=
  varint_reads .w64 false count hsize

theorem Reader.Reads.afterLength {α : Type} {f : Nat → Reader α} {count : Nat} {written : Bytes}
    {a : α} {cost : Cost} (h : (f count).Reads written a cost) (hsize : count < Width.w64.size) :
    (readLength >>= f).Reads (writeVarint count ++ written) a ((Cost.claim 8).followedBy cost) :=
  (length_reads count hsize).bind h

/-- A sequence: the number of its entries and the entries. -/
def writeList {α : Type} (write : α → Bytes) (as : List α) : Bytes :=
  writeVarint as.length ++ as.flatMap write

/-- Reads a sequence whose entries are reckoned at `size` each. -/
def readList {α : Type} (size : Nat) (entry : Reader α) : Reader (List α) := do
  let count ← readLength
  entries size entry count

theorem list_reads {α : Type} (size : Nat) (entry : Reader α) (write : α → Bytes)
    (cost : α → Cost) (as : List α) (hsize : as.length < Width.w64.size)
    (hentry : ∀ a ∈ as, entry.Reads (write a) a (cost a)) :
    (readList size entry).Reads (writeList write as) as
      ((Cost.claim 8).followedBy (Cost.entries size (as.map cost))) :=
  (length_reads as.length hsize).bind (entries_reads size entry write cost as hentry)

/-- A byte string: its length and its bytes. -/
def writeBytes (bytes : Bytes) : Bytes := writeVarint bytes.length ++ bytes

/-- Reads a byte string. -/
def readBytes : Reader Bytes := do
  let count ← readLength
  claim count
  let bytes ← take count
  pure bytes.val

theorem bytes_reads (bytes : Bytes) (hsize : bytes.length < Width.w64.size) :
    readBytes.Reads (writeBytes bytes) bytes (.claim (8 + bytes.length)) := by
  have hbytes := ((take_reads bytes _ rfl).map Subtype.val).afterClaim bytes.length
  rw [Cost.followedBy_free] at hbytes
  rw [← Cost.claim_followedBy_claim]
  exact Reads.afterLength hbytes hsize

/-- A text: the length of its UTF-8 bytes and these bytes. -/
def writeText (text : String) : Bytes := writeBytes (textBytes text)

/-- Reads a text. -/
def readTextField : Reader String := do
  let count ← readLength
  claim count
  readText count

theorem textField_reads (text : String) (hsize : (textBytes text).length < Width.w64.size) :
    readTextField.Reads (writeText text) text (.claim (8 + (textBytes text).length)) := by
  have htext := (text_reads text).afterClaim (textBytes text).length
  rw [Cost.followedBy_free] at htext
  rw [← Cost.claim_followedBy_claim]
  exact Reads.afterLength htext hsize

/-- Reads the number of one of `highest + 1` variants. -/
def readVariant (highest : Nat) : Reader (Fin (highest + 1)) := do
  let found ← readVarint .w32 false
  if h : found ≤ highest then pure ⟨found, Nat.lt_succ_of_le h⟩
  else fail (.unexpectedVariant found highest)

theorem variant_reads (highest : Nat) (hhighest : highest < Width.w32.size)
    (i : Fin (highest + 1)) : (readVariant highest).Reads (writeVarint i) i (.claim 4) := by
  have hi : (i : Nat) ≤ highest := Nat.le_of_lt_succ i.isLt
  exact (varint_reads .w32 false i (by omega)).bindPure (dif_pos hi)

/-- A truth value is the byte 0 or 1. -/
def writeBool (b : Bool) : Bytes := [if b then 1 else 0]

/-- Reads a truth value. -/
def readBool : Reader Bool := do
  let b ← tag
  if b = 0 then pure false else if b = 1 then pure true else fail (.invalidBool b)

theorem bool_reads (b : Bool) : readBool.Reads (writeBool b) b (.claim 1) := by
  cases b with
  | false => exact (tag_reads 0).bindPure rfl
  | true => exact (tag_reads 1).bindPure rfl

/-- An optional value is the byte 0, or the byte 1 and the value. -/
def writeOption {α : Type} (write : α → Bytes) : Option α → Bytes
  | none => [0]
  | some a => 1 :: write a

/-- Reads an optional value. -/
def readOption {α : Type} (item : Reader α) : Reader (Option α) := do
  let b ← tag
  if b = 0 then pure none
  else if b = 1 then do
    let a ← item
    pure (some a)
  else fail (.unexpectedVariant b.toNat 1)

/-- What an optional value costs, given what the value costs. -/
def optionCost {α : Type} (cost : α → Cost) : Option α → Cost
  | none => .claim 1
  | some a => (Cost.claim 1).followedBy (cost a)

theorem option_reads {α : Type} (item : Reader α) (write : α → Bytes) (cost : α → Cost)
    (o : Option α) (hitem : ∀ a, o = some a → item.Reads (write a) a (cost a)) :
    (readOption item).Reads (writeOption write o) o (optionCost cost o) := by
  cases o with
  | none => exact (tag_reads 0).bindPure rfl
  | some a => exact ((hitem a rfl).map some).afterTag

end Etp.Wire
