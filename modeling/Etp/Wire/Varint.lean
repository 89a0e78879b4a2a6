import Etp.Wire.Reader

/-!
# Variable-length integers

A natural number takes one byte up to 250; a larger one takes a tag byte that says how many bytes
follow (2, 4 or 8, little endian).  Writing uses the shortest form; reading accepts every form that
is not wider than the field.  A signed integer is folded onto the naturals first
(0, -1, 1, -2, … become 0, 1, 2, 3, …).

The main statements are `varint_reads`, `int32_reads` and `int64_reads`: what was written is read
back, whatever follows it.  An integer claims its room in memory, however short its written form is.
-/

namespace Etp.Wire

/-- The `count` lowest bytes of `n`, least significant first. -/
def littleEndian : (count n : Nat) → Bytes
  | 0, _ => []
  | count + 1, n => UInt8.ofNat n :: littleEndian count (n / 256)

/-- The number whose bytes are given, least significant first. -/
def ofLittleEndian : Bytes → Nat
  | [] => 0
  | b :: bytes => b.toNat + 256 * ofLittleEndian bytes

@[simp] theorem length_littleEndian (count n : Nat) : (littleEndian count n).length = count := by
  induction count generalizing n with
  | zero => rfl
  | succ count ih => simp [littleEndian, ih]

/-- The number of byte strings of a length, hence of the numbers that fit in so many bytes. -/
def capacity : (count : Nat) → Nat
  | 0 => 1
  | count + 1 => 256 * capacity count

theorem ofLittleEndian_littleEndian (count n : Nat) (hn : n < capacity count) :
    ofLittleEndian (littleEndian count n) = n := by
  induction count generalizing n with
  | zero => simp [capacity] at hn; simp [littleEndian, ofLittleEndian, hn]
  | succ count ih =>
    have hdiv : n / 256 < capacity count := Nat.div_lt_of_lt_mul hn
    simp only [littleEndian, ofLittleEndian, ih _ hdiv, UInt8.toNat_ofNat']
    omega

/-- Reads a number of `count` bytes, least significant first. -/
def fixedWidth (count : Nat) : Reader Nat := do
  let bytes ← Reader.take count
  pure (ofLittleEndian bytes.val)

theorem fixedWidth_reads (count n : Nat) (hn : n < capacity count) :
    (fixedWidth count).Reads (littleEndian count n) n .free := by
  have h := (Reader.take_reads (littleEndian count n) count (by simp)).map
    (fun bytes => ofLittleEndian bytes.val)
  rwa [ofLittleEndian_littleEndian count n hn] at h

/-- The widths of the integer fields of this format. -/
inductive Width where
  | w32
  | w64
  deriving DecidableEq, Repr

/-- The number of values of a width. -/
def Width.size : Width → Nat
  | .w32 => UInt32.size
  | .w64 => UInt64.size

/-- The number of bytes of an integer of a width in memory. -/
def Width.room : Width → Nat
  | .w32 => 4
  | .w64 => 8

/-- The kind of integer that a field of a width holds. -/
def Width.kind : Width → (signed : Bool) → IntegerKind
  | .w32, false => .u32
  | .w32, true => .i32
  | .w64, false => .u64
  | .w64, true => .i64

/-- The shortest written form of a number below 2^64. -/
def writeVarint (n : Nat) : Bytes :=
  if n ≤ 250 then [UInt8.ofNat n]
  else if n < UInt16.size then 251 :: littleEndian 2 n
  else if n < UInt32.size then 252 :: littleEndian 4 n
  else 253 :: littleEndian 8 n

/-- Refuses a varint that announces a wider integer than the field holds.  Where eight more bytes
follow its tag, the report names a field of 64 bits as one of 32. -/
def refuseWider {α : Type} (width : Width) (signed : Bool) (found : IntegerKind) : Reader α := do
  let full ← Reader.follows 8
  let named := if full then .w32 else width
  Reader.fail (.invalidInteger (named.kind signed) found)

/-- Reads a number of at most the given width; `signed` only selects the names in an error. -/
def readVarint (width : Width) (signed : Bool) : Reader Nat := do
  Reader.claim width.room
  let tag ← Reader.byte
  if tag ≤ 250 then pure tag.toNat
  else if tag = 251 then fixedWidth 2
  else if tag = 252 then fixedWidth 4
  else if tag = 253 then
    match width with
    | .w64 => fixedWidth 8
    | .w32 => refuseWider width signed (Width.w64.kind signed)
  else if tag = 254 then refuseWider width signed (if signed then .i128 else .u128)
  else refuseWider width signed .reserved

theorem varint_reads (width : Width) (signed : Bool) (n : Nat) (hn : n < width.size) :
    (readVarint width signed).Reads (writeVarint n) n (.claim width.room) := by
  unfold writeVarint readVarint
  rw [← Cost.followedBy_free (Cost.claim width.room)]
  refine Reader.Reads.afterClaim ?_ width.room
  by_cases hsmall : n ≤ 250
  · have hle : UInt8.ofNat n ≤ 250 := by
      rw [UInt8.le_iff_toNat_le]
      simp only [UInt8.toNat_ofNat', UInt8.toNat_ofNat]
      omega
    have hval : (UInt8.ofNat n).toNat = n := by simp only [UInt8.toNat_ofNat']; omega
    rw [if_pos hsmall]
    refine Reader.Reads.afterByte ?_
    simpa [hle, hval] using Reader.Reads.pure n
  · rw [if_neg hsmall]
    by_cases h16 : n < UInt16.size
    · rw [if_pos h16]
      exact (fixedWidth_reads 2 n h16).afterByte
    · rw [if_neg h16]
      by_cases h32 : n < UInt32.size
      · rw [if_pos h32]
        exact (fixedWidth_reads 4 n h32).afterByte
      · rw [if_neg h32]
        cases width with
        | w32 => exact absurd hn h32
        | w64 =>
          exact (fixedWidth_reads 8 n hn).afterByte

/-- Folds the integers onto the naturals: 0, -1, 1, -2, … become 0, 1, 2, 3, …. -/
def zigzag (i : Int) : Nat := if 0 ≤ i then 2 * i.toNat else 2 * (-i).toNat - 1

/-- The integer with a given place in the order 0, -1, 1, -2, …. -/
def unzigzag (n : Nat) : Int := if n % 2 = 0 then (n / 2 : Nat) else -((n / 2 : Nat) : Int) - 1

@[simp] theorem unzigzag_zigzag (i : Int) : unzigzag (zigzag i) = i := by
  unfold unzigzag zigzag
  split <;> split <;> omega

@[simp] theorem zigzag_unzigzag (n : Nat) : zigzag (unzigzag n) = n := by
  unfold unzigzag zigzag
  split <;> split <;> omega

theorem zigzag_lt_iff (i : Int) (half : Nat) :
    zigzag i < 2 * half ↔ -(half : Int) ≤ i ∧ i < half := by
  unfold zigzag
  split <;> omega

/-- The written form of a 32-bit integer. -/
def writeInt32 (i : Int32) : Bytes := writeVarint (zigzag i.toInt)

/-- Reads a 32-bit integer. -/
def readInt32 : Reader Int32 := do
  let n ← readVarint .w32 true
  pure (Int32.ofInt (unzigzag n))

/-- The written form of a 64-bit integer. -/
def writeInt64 (i : Int64) : Bytes := writeVarint (zigzag i.toInt)

/-- Reads a 64-bit integer. -/
def readInt64 : Reader Int64 := do
  let n ← readVarint .w64 true
  pure (Int64.ofInt (unzigzag n))

theorem int32_reads (i : Int32) : readInt32.Reads (writeInt32 i) i (.claim 4) := by
  have hrange : zigzag i.toInt < Width.w32.size :=
    (zigzag_lt_iff i.toInt 0x80000000).2 ⟨by exact i.le_toInt, by exact i.toInt_lt⟩
  simpa [readInt32, writeInt32, Width.room] using
    (varint_reads .w32 true _ hrange).map (fun n => Int32.ofInt (unzigzag n))

theorem int64_reads (i : Int64) : readInt64.Reads (writeInt64 i) i (.claim 8) := by
  have hrange : zigzag i.toInt < Width.w64.size :=
    (zigzag_lt_iff i.toInt 0x8000000000000000).2 ⟨by exact i.le_toInt, by exact i.toInt_lt⟩
  simpa [readInt64, writeInt64, Width.room] using
    (varint_reads .w64 true _ hrange).map (fun n => Int64.ofInt (unzigzag n))

end Etp.Wire
