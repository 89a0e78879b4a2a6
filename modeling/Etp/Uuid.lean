import Etp.Wire.Reader

/-!
# Identifiers of 16 bytes

`Uuid.Supply` stands for a source of fresh identifiers: whatever needs one takes the next of an
unending sequence, so that which identifiers are drawn, and how many, is part of every result.
-/

namespace Etp

/-- The two lower-case hexadecimal digits of a byte. -/
def hexByte (b : UInt8) : List Char :=
  [Nat.digitChar (b.toNat / 16), Nat.digitChar (b.toNat % 16)]

/-- The hexadecimal digits of a byte string, two for each byte. -/
def hexText (bytes : Bytes) : String := String.ofList (bytes.flatMap hexByte)

/-- The number of a hexadecimal digit. -/
def hexDigit? (c : Char) : Option Nat :=
  if '0' ≤ c && c ≤ '9' then some (c.toNat - 48)
  else if 'a' ≤ c && c ≤ 'f' then some (c.toNat - 87)
  else if 'A' ≤ c && c ≤ 'F' then some (c.toNat - 55)
  else none

/-- The number that some hexadecimal digits stand for. -/
def hexNumber? (cs : List Char) : Option Nat :=
  cs.foldlM (fun n c => (hexDigit? c).map (fun d => n * 16 + d)) 0

/-- The bytes that pairs of hexadecimal digits stand for. -/
def hexBytes? : List Char → Option Bytes
  | [] => some []
  | a :: b :: rest => do
    let n ← hexNumber? [a, b]
    let bytes ← hexBytes? rest
    return UInt8.ofNat n :: bytes
  | _ => none

/-- An identifier of 16 bytes. -/
structure Uuid where
  bytes : Bytes
  length_eq : bytes.length = 16
  deriving DecidableEq

namespace Uuid

/-- The identifier of 16 zero bytes. -/
def zero : Uuid := ⟨List.replicate 16 0, rfl⟩

instance : Inhabited Uuid := ⟨zero⟩

/-- The identifier with the given bytes, if there are 16. -/
def ofBytes? (bytes : Bytes) : Option Uuid :=
  if h : bytes.length = 16 then some ⟨bytes, h⟩ else none

/-- The hexadecimal digits in five groups of 8, 4, 4, 4 and 12. -/
def text (u : Uuid) : String :=
  "-".intercalate ((groups u).map hexText)
where
  /-- The bytes in groups of 4, 2, 2, 2 and 6. -/
  groups (u : Uuid) : List Bytes :=
    [u.bytes.take 4, (u.bytes.drop 4).take 2, (u.bytes.drop 6).take 2, (u.bytes.drop 8).take 2,
      u.bytes.drop 10]

/-- The identifier with the given hexadecimal digits, between which dashes may stand. -/
def ofText? (text : String) : Option Uuid :=
  (hexBytes? (text.toList.filter (· ≠ '-'))).bind ofBytes?

/-- An unending sequence of identifiers and the number of those already taken. -/
structure Supply where
  nth : Nat → Uuid
  drawn : Nat := 0

/-- Takes the next identifier. -/
def Supply.draw (s : Supply) : Uuid × Supply := (s.nth s.drawn, { s with drawn := s.drawn + 1 })

end Uuid

end Etp
