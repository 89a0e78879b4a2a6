import Etp.Number.Decimal

/-!
# JSON values

A number written without a fraction and an exponent is an integer if its digits keep to 64 bits;
every other number is a real one, even if its value is whole.  So is a zero with a minus sign, which
no integer is.
-/

namespace Etp

/-- A JSON value. -/
inductive Json where
  | null
  | bool (value : Bool)
  | integer (value : Int)
  | real (value : Number.Double)
  | text (value : String)
  | list (items : List Json)
  | object (fields : List (String × Json))

namespace Json

/-- The value of the field with a name; of several the last one. -/
def field? (fields : List (String × Json)) (name : String) : Option Json :=
  fields.reverse.lookup name

/-- The number that a numeral stands for; none if it is too great. -/
def ofNumeral? (n : Number.Numeral) : Option Json :=
  match n.integer? with
  | some i => some (integer i)
  | none => n.double?.map real

end Json

end Etp
