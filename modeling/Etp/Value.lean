import Etp.Number.Binary
import Etp.Wire.Reader

/-!
# Loosely typed values

`DataValue` is what capabilities and custom data hold, `IndexValue` a position along an index.
Values of like kind are ordered: numbers with numbers, truth values with truth values and texts with
texts.  Two integers compare exactly; any other pair of numbers compares as 64-bit floating-point
numbers.
-/

namespace Etp

open Number

/-- A value of one of several kinds. -/
inductive DataValue where
  | null
  | boolean (value : Bool)
  | int (value : Int32)
  | long (value : Int64)
  | double (value : Double)
  | float (value : Single)
  | text (value : String)
  | longs (values : List Int64)
  | doubles (values : List Double)
  | texts (values : List String)
  | bytes (values : Bytes)
  deriving DecidableEq

namespace DataValue

instance : Inhabited DataValue := ⟨null⟩

/-- The integer that the value is, if it is one. -/
def asInteger : DataValue → Option Int
  | int v => some v.toInt
  | long v => some v.toInt
  | _ => none

/-- The number that the value is, if it is one, as a 64-bit floating-point number. -/
def asDouble : DataValue → Option Double
  | int v => some (Double.ofInt v.toInt)
  | long v => some (Double.ofInt v.toInt)
  | float v => some v.widen
  | double v => some v
  | _ => none

/-- Whether the value is a number. -/
def isNumeric : DataValue → Bool
  | int _ => true
  | long _ => true
  | float _ => true
  | double _ => true
  | _ => false

/-- Orders two values of like kind. -/
def compare : DataValue → DataValue → Option Ordering
  | boolean a, boolean b => some (Ord.compare a b)
  | text a, text b => some (Ord.compare a b)
  | a, b =>
    match a.asInteger, b.asInteger with
    | some x, some y => some (Ord.compare x y)
    | _, _ => do
      let x ← a.asDouble
      let y ← b.asDouble
      x.compare y

/-- Whether two values are of one kind and equal, floating-point numbers as numbers. -/
def same : DataValue → DataValue → Bool
  | double a, double b => a.same b
  | float a, float b => a.same b
  | doubles a, doubles b => a.length == b.length && (a.zip b).all (fun p => p.1.same p.2)
  | a, b => a == b

end DataValue

/-- A position along an index. -/
inductive IndexValue where
  | null
  | long (value : Int64)
  | double (value : Double)
  deriving DecidableEq

namespace IndexValue

instance : Inhabited IndexValue := ⟨null⟩

/-- Whether two positions are of one kind and equal, floating-point numbers as numbers. -/
def same : IndexValue → IndexValue → Bool
  | double a, double b => a.same b
  | a, b => a == b

end IndexValue

end Etp
