import Etp.KeyMap
import Etp.Uuid
import Etp.Value

/-!
# Shapes of records

A `Shape` describes the values of a message field or of a whole record.  A record is a chain of
named fields, so every operation on values is a plain recursion on the shape.  `Shape.Val` is the
type of the values of a shape; writing, reading, comparing and cutting are each defined once, for
all shapes.
-/

namespace Etp

/-- A description of values. -/
inductive Shape where
  | int
  | long
  | bool
  | text
  | bytes
  | uuid
  | value
  | index
  /-- One of several names; the first is the default. -/
  | choice (first : String) (others : List String)
  | option (item : Shape)
  | list (entry : Shape)
  /-- Entries under distinct texts. -/
  | map (entry : Shape)
  /-- A record without fields. -/
  | empty
  /-- A record with a first field and the fields of `rest`. -/
  | field (name : String) (head rest : Shape)
  deriving DecidableEq, Repr

namespace Shape

/-- The record with the given fields, in this order. -/
abbrev record : List (String × Shape) → Shape
  | [] => .empty
  | (name, shape) :: fields => .field name shape (record fields)

/-- The values of a shape. -/
@[reducible] def Val : Shape → Type
  | int => Int32
  | long => Int64
  | bool => Bool
  | text => String
  | bytes => Bytes
  | uuid => Uuid
  | value => DataValue
  | index => IndexValue
  | choice _ others => Fin (others.length + 1)
  | option item => Option item.Val
  | list entry => List entry.Val
  | map entry => KeyMap entry.Val
  | empty => Unit
  | field _ head rest => head.Val × rest.Val

/-- Whether two values of a shape are identical, floating-point numbers by their bits. -/
def decEq : (s : Shape) → DecidableEq s.Val
  | int => inferInstanceAs (DecidableEq Int32)
  | long => inferInstanceAs (DecidableEq Int64)
  | bool => inferInstanceAs (DecidableEq Bool)
  | text => inferInstanceAs (DecidableEq String)
  | bytes => inferInstanceAs (DecidableEq (List UInt8))
  | uuid => inferInstanceAs (DecidableEq Uuid)
  | value => inferInstanceAs (DecidableEq DataValue)
  | index => inferInstanceAs (DecidableEq IndexValue)
  | choice _ others => inferInstanceAs (DecidableEq (Fin (others.length + 1)))
  | option item =>
    let _ := decEq item
    inferInstanceAs (DecidableEq (Option item.Val))
  | list entry =>
    let _ := decEq entry
    inferInstanceAs (DecidableEq (List entry.Val))
  | map entry =>
    let _ := decEq entry
    inferInstanceAs (DecidableEq (KeyMap entry.Val))
  | empty => inferInstanceAs (DecidableEq Unit)
  | field _ head rest =>
    let _ := decEq head
    let _ := decEq rest
    inferInstanceAs (DecidableEq (head.Val × rest.Val))

instance (s : Shape) : DecidableEq s.Val := decEq s

/-- The value of a field that is left out: zero, empty, absent, false, or the first name. -/
def default : (s : Shape) → s.Val
  | int => (0 : Int32)
  | long => (0 : Int64)
  | bool => false
  | text => ""
  | bytes => ([] : List UInt8)
  | uuid => Uuid.zero
  | value => DataValue.null
  | index => IndexValue.null
  | choice _ _ => (0 : Fin _)
  | option _ => none
  | list _ => []
  | map _ => KeyMap.empty
  | empty => ()
  | field _ head rest => (head.default, rest.default)

/-- Whether two values are equal, floating-point numbers as numbers. -/
def same : (s : Shape) → s.Val → s.Val → Bool
  | int, a, b => decide (a = b)
  | long, a, b => decide (a = b)
  | bool, a, b => decide (a = b)
  | text, a, b => decide (a = b)
  | bytes, a, b => decide (a = b)
  | uuid, a, b => decide (a = b)
  | value, a, b => a.same b
  | index, a, b => a.same b
  | choice _ _, a, b => decide (a = b)
  | option _, none, none => true
  | option item, some a, some b => item.same a b
  | option _, _, _ => false
  | list entry, a, b => a.length == b.length && (a.zip b).all (fun p => entry.same p.1 p.2)
  | map entry, a, b => KeyMap.same entry.same a b
  | empty, _, _ => true
  | field _ head rest, a, b => head.same a.1 b.1 && rest.same a.2 b.2

end Shape

end Etp
