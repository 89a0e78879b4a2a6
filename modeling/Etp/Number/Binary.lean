/-!
# Binary floating-point numbers as bits

A number of a binary format is a sign bit above a magnitude; the magnitude is the exponent field
above the fraction field.  Within one sign the numbers are ordered as their magnitudes, so `rank`
gives the comparison of the numbers in exact integer arithmetic: both zeros have rank 0 and what is
not a number has no rank.

`nearest` rounds a quotient of natural numbers to the closest number of the format; of two equally
close ones it takes the one with the even fraction.
-/

namespace Etp.Number

/-- The layout of a binary floating-point format. -/
structure Format where
  /-- The number of bits of the fraction field. -/
  fraction : Nat
  /-- The number of bits of the exponent field. -/
  exponent : Nat
  deriving DecidableEq

namespace Format

/-- The 64-bit format. -/
def double : Format := ⟨52, 11⟩

/-- The 32-bit format. -/
def single : Format := ⟨23, 8⟩

/-- The sign bit; also the number of magnitudes. -/
def signBit (f : Format) : Nat := 1 <<< (f.fraction + f.exponent)

/-- The magnitude of infinity; greater magnitudes are not numbers. -/
def infinity (f : Format) : Nat := ((1 <<< f.exponent) - 1) <<< f.fraction

/-- The exponent of the smallest number with a full fraction, and of all below it. -/
def leastExponent (f : Format) : Int := 2 - (1 <<< (f.exponent - 1) : Nat)

/-- The magnitude of a bit pattern. -/
def magnitude (f : Format) (bits : Nat) : Nat := bits % f.signBit

/-- Whether a bit pattern has the sign bit. -/
def negative (f : Format) (bits : Nat) : Bool := f.signBit ≤ bits

/-- Whether a bit pattern is not a number. -/
def isNaN (f : Format) (bits : Nat) : Bool := f.infinity < f.magnitude bits

/-- Whether a bit pattern is a number other than an infinity. -/
def isFinite (f : Format) (bits : Nat) : Bool := f.magnitude bits < f.infinity

/-- The place of a number in the order of all numbers of the format. -/
def rank (f : Format) (bits : Nat) : Option Int :=
  if f.isNaN bits then none
  else if f.negative bits then some (-(f.magnitude bits : Int))
  else some (f.magnitude bits : Int)

/-- Compares two numbers; what is not a number compares with nothing. -/
def compare (f : Format) (a b : Nat) : Option Ordering := do
  let x ← f.rank a
  let y ← f.rank b
  return Ord.compare x y

/-- Marks a bit pattern that is not a number as quiet. -/
def quiet (f : Format) (bits : Nat) : Nat :=
  if f.isNaN bits then bits ||| (1 <<< (f.fraction - 1)) else bits

/-- The quotient, rounded to the nearest integer and from halfway to the even one. -/
def roundDiv (num den : Nat) : Nat :=
  let quotient := num / den
  let rest := 2 * (num % den)
  if rest < den then quotient
  else if den < rest then quotient + 1
  else quotient + quotient % 2

/-- The exponent `e` with `2 ^ e ≤ num / den < 2 ^ (e + 1)`, for positive `num` and `den`. -/
def floorLog (num den : Nat) : Int :=
  let guess : Int := (num.log2 : Int) - den.log2
  -- The quotient of the two leading powers of two is the quotient up to one factor of two.
  if den <<< guess.toNat ≤ num <<< (-guess).toNat then guess else guess - 1

/-- The magnitude of the number closest to `num / den`. -/
def nearest (f : Format) (num den : Nat) : Nat :=
  if num = 0 then 0
  else
    let exponent := max (floorLog num den) f.leastExponent
    let unit := exponent - f.fraction
    let scaled := roundDiv (num <<< (-unit).toNat) (den <<< unit.toNat)
    min f.infinity (((exponent - f.leastExponent).toNat <<< f.fraction) + scaled)

/-- The bits of the number closest to an integer. -/
def ofInt (f : Format) (i : Int) : Nat :=
  if 0 ≤ i then f.nearest i.toNat 1 else f.signBit + f.nearest (-i).toNat 1

/-- The magnitude closest to `num / den * 2 ^ power`. -/
def nearestScaled (f : Format) (num den : Nat) (power : Int) : Nat :=
  f.nearest (num <<< power.toNat) (den <<< (-power).toNat)

/-- The fraction and the power of two whose product is a finite magnitude. -/
def parts (f : Format) (magnitude : Nat) : Nat × Int :=
  let field := magnitude >>> f.fraction
  let fraction := magnitude % (1 <<< f.fraction)
  if field = 0 then (fraction, f.leastExponent - f.fraction)
  else ((1 <<< f.fraction) + fraction, f.leastExponent - f.fraction + (field - 1 : Nat))

/-- The bits of the same number in another format, rounded if it is narrower.  What is not a number
stays so and keeps the leading bits of its fraction. -/
def convert (source target : Format) (bits : Nat) : Nat :=
  let sign := if source.negative bits then target.signBit else 0
  let magnitude := source.magnitude bits
  if source.isNaN bits then
    let fraction := source.quiet magnitude - source.infinity
    sign + target.infinity + ((fraction <<< target.fraction) >>> source.fraction)
  else if magnitude = source.infinity then sign + target.infinity
  else
    let (fraction, power) := source.parts magnitude
    sign + target.nearestScaled fraction 1 power

/-- The product of two finite magnitudes, rounded. -/
def mul (f : Format) (a b : Nat) : Nat :=
  let (x, p) := f.parts a
  let (y, q) := f.parts b
  f.nearestScaled (x * y) 1 (p + q)

/-- The quotient of a finite magnitude and one that is not zero, rounded. -/
def div (f : Format) (a b : Nat) : Nat :=
  let (x, p) := f.parts a
  let (y, q) := f.parts b
  f.nearestScaled x y (p - q)

end Format

/-- Whether the first of two compared values is at most the second. -/
def atMost : Option Ordering → Bool
  | some .lt => true
  | some .eq => true
  | _ => false

/-- The value, raised to `lower` unless it is at least that, then lowered to `upper` unless it is at
most that.  A value that compares with nothing becomes a bound. -/
def clampBy {α : Type} (compare : α → α → Option Ordering) (lower upper : Option α) (a : α) : α :=
  let raised := match lower with
    | none => a
    | some bound => if atMost (compare bound a) then a else bound
  match upper with
  | none => raised
  | some bound => if atMost (compare raised bound) then raised else bound

/-- A number of the 64-bit format, as its bits. -/
structure Double where
  bits : UInt64
  deriving DecidableEq

/-- A number of the 32-bit format, as its bits. -/
structure Single where
  bits : UInt32
  deriving DecidableEq

namespace Double

/-- Positive zero. -/
def zero : Double := ⟨0⟩

instance : Inhabited Double := ⟨zero⟩

/-- Compares two numbers; what is not a number compares with nothing. -/
def compare (a b : Double) : Option Ordering := Format.double.compare a.bits.toNat b.bits.toNat

/-- Whether two numbers are equal as numbers: both zeros are, and what is not a number is not. -/
def same (a b : Double) : Bool := a.compare b == some .eq

/-- Whether the number is neither infinite nor undefined. -/
def isFinite (a : Double) : Bool := Format.double.isFinite a.bits.toNat

/-- The closest number to an integer. -/
def ofInt (i : Int) : Double := ⟨UInt64.ofNat (Format.double.ofInt i)⟩

/-- The number, but at least `lower` and at most `upper`; an undefined one becomes a bound. -/
def clamp (a : Double) (lower upper : Option Int) : Double :=
  clampBy Double.compare (lower.map ofInt) (upper.map ofInt) a

end Double

namespace Single

/-- Positive zero. -/
def zero : Single := ⟨0⟩

instance : Inhabited Single := ⟨zero⟩

/-- Compares two numbers; what is not a number compares with nothing. -/
def compare (a b : Single) : Option Ordering := Format.single.compare a.bits.toNat b.bits.toNat

/-- Whether two numbers are equal as numbers: both zeros are, and what is not a number is not. -/
def same (a b : Single) : Bool := a.compare b == some .eq

/-- The same number in the wider format. -/
def widen (a : Single) : Double :=
  ⟨UInt64.ofNat (Format.single.convert Format.double a.bits.toNat)⟩

/-- The closest number to an integer. -/
def ofInt (i : Int) : Single := ⟨UInt32.ofNat (Format.single.ofInt i)⟩

/-- Marks an undefined number as quiet. -/
def quiet (a : Single) : Single := ⟨UInt32.ofNat (Format.single.quiet a.bits.toNat)⟩

/-- The number, but at least `lower` and at most `upper`; an undefined one becomes a bound, or
quiet if there is none. -/
def clamp (a : Single) (lower upper : Option Int) : Single :=
  clampBy Single.compare (lower.map ofInt) (upper.map ofInt) a.quiet

end Single

end Etp.Number
