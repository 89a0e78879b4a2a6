import Etp.Number.Binary

/-!
# Decimal numerals

A numeral is what is written of a number: a sign, digits before and after a point, and a power of
ten.  Its digits are gathered into a significand of 64 bits, and those that no longer fit count only
by their number, or not at all after the point.

`Numeral.double?` then rounds three times: the significand, the power of ten, and their product or
quotient.  The result is the number closest to the numeral where the first two roundings change
nothing, and may differ from it in the last places elsewhere.
-/

namespace Etp.Number

/-- A decimal number as it is written; the digits are numbers below ten. -/
structure Numeral where
  negative : Bool
  /-- The digits before the point. -/
  whole : List Nat
  /-- The digits after the point, if there is a point. -/
  fraction : Option (List Nat)
  /-- The written power of ten, if there is one. -/
  exponent : Option Int
  deriving DecidableEq

/-- The power of ten with a given exponent. -/
def tens (exponent : Nat) : Nat := Nat.pow 10 exponent

namespace Double

/-- The exponent of the greatest power of ten with a finite magnitude. -/
def maxTen : Nat := 308

/-- The magnitude of a power of ten, rounded. -/
def tenMagnitude (exponent : Nat) : Nat := Format.double.nearest (tens exponent) 1

/-- A magnitude multiplied by a power of ten; nothing if that is too great. -/
def timesTens? (magnitude exponent : Nat) : Option Nat :=
  if magnitude = 0 then some 0
  else if maxTen < exponent then none
  else
    let product := Format.double.mul magnitude (tenMagnitude exponent)
    if product < Format.double.infinity then some product else none

/-- A magnitude divided a number of times by the greatest power of ten. -/
def overMaxTen : (times : Nat) → (magnitude : Nat) → Nat
  | 0, magnitude => magnitude
  | times + 1, magnitude =>
    if magnitude = 0 then 0
    else overMaxTen times (Format.double.div magnitude (tenMagnitude maxTen))

/-- A magnitude divided by a power of ten, in steps of the greatest one. -/
def overTens (magnitude exponent : Nat) : Nat :=
  let steps := (exponent - 1) / maxTen
  Format.double.div (overMaxTen steps magnitude) (tenMagnitude (exponent - steps * maxTen))

end Double

namespace Numeral

/-- Appends digits to a significand while the result keeps to 64 bits; returns it with the digits
that are left. -/
def gather (significand : Nat) : List Nat → Nat × List Nat
  | [] => (significand, [])
  | d :: ds =>
    if significand * 10 + d < UInt64.size then gather (significand * 10 + d) ds
    else (significand, d :: ds)

/-- The significand, and the exponent of the power of ten by which it is to be multiplied. -/
def scaled (n : Numeral) : Nat × Int :=
  let places := n.fraction.getD []
  let (whole, dropped) := gather 0 n.whole
  let (significand, unread) := gather whole places
  (significand, n.exponent.getD 0 + dropped.length - (places.length - unread.length : Nat))

/-- The integer that is written without a point and a power of ten, if its digits keep to 64 bits.
A zero with a minus sign is none. -/
def integer? (n : Numeral) : Option Int :=
  let (significand, dropped) := gather 0 n.whole
  if n.fraction.isSome || n.exponent.isSome || !dropped.isEmpty then none
  else if n.negative && significand == 0 then none
  else some (if n.negative then -(significand : Int) else significand)

/-- The floating-point number; none if it is too great. -/
def double? (n : Numeral) : Option Double :=
  let (significand, exponent) := n.scaled
  let magnitude := Format.double.nearest significand 1
  let sign := if n.negative then Format.double.signBit else 0
  let scaled := if 0 ≤ exponent then Double.timesTens? magnitude exponent.toNat
    else some (Double.overTens magnitude (-exponent).toNat)
  scaled.map (fun size => ⟨UInt64.ofNat (sign + size)⟩)

end Numeral

end Etp.Number
