import Etp.Schema.Shape

/-!
# Fields and collections of a record

`Field s t` is a place in the records of shape `s` that holds values of shape `t`; it can be read
and replaced, and the replacement touches nothing else.  A `Collection s` is a place that holds a
list or a map.  `cutAt` divides the entries of a collection among two records that agree in every
other field; `take` and `drop` say which record has which entries.
-/

namespace Etp

/-- A place in the records of shape `s` that holds values of shape `t`. -/
inductive Field : Shape → Shape → Type where
  | here {name : String} {t rest : Shape} : Field (.field name t rest) t
  | there {name : String} {head rest t : Shape} (place : Field rest t) :
      Field (.field name head rest) t

namespace Field

variable {s t : Shape}

/-- The value at a place. -/
def get : {s t : Shape} → Field s t → s.Val → t.Val
  | _, _, here, v => v.1
  | _, _, there place, v => place.get v.2

/-- Replaces the value at a place. -/
def set : {s t : Shape} → Field s t → t.Val → s.Val → s.Val
  | _, _, here, a, v => (a, v.2)
  | _, _, there place, a, v => (v.1, place.set a v.2)

@[simp] theorem get_set (place : Field s t) (a : t.Val) (v : s.Val) :
    place.get (place.set a v) = a := by
  induction place with
  | here => rfl
  | there place ih => exact ih a v.2

@[simp] theorem set_get (place : Field s t) (v : s.Val) : place.set (place.get v) v = v := by
  induction place with
  | here => rfl
  | there place ih => exact congrArg (Prod.mk v.1) (ih v.2)

@[simp] theorem set_set (place : Field s t) (a b : t.Val) (v : s.Val) :
    place.set a (place.set b v) = place.set a v := by
  induction place with
  | here => rfl
  | there place ih => exact congrArg (Prod.mk v.1) (ih a b v.2)

/-- Two records that have one half each of what a place held.  The second record is a copy of the
first, made while nothing stands at the place. -/
def divide (place : Field s t) (halves : t.Val × t.Val) (v : s.Val) : s.Val × s.Val :=
  let emptied := place.set t.default v
  (place.set halves.1 emptied, place.set halves.2 emptied)

theorem divide_eq (place : Field s t) (halves : t.Val × t.Val) (v : s.Val) :
    place.divide halves v = (place.set halves.1 v, place.set halves.2 v) := by
  simp [divide]

end Field

/-- A place in the records of a shape that holds a list or a map. -/
inductive Collection (s : Shape) where
  | listed (entry : Shape) (place : Field s (.list entry))
  | keyed (entry : Shape) (place : Field s (.map entry))

namespace Collection

variable {s : Shape}

/-- The same collection in a record with one more field in front. -/
def under (name : String) (head : Shape) : Collection s → Collection (.field name head s)
  | listed entry place => listed entry place.there
  | keyed entry place => keyed entry place.there

/-- The collection in the field of a given name. -/
def named? : (s : Shape) → (name : String) → Option (Collection s)
  | .field fieldName (.list entry) rest, name =>
    if fieldName = name then some (listed entry .here)
    else (named? rest name).map (under fieldName (.list entry))
  | .field fieldName (.map entry) rest, name =>
    if fieldName = name then some (keyed entry .here)
    else (named? rest name).map (under fieldName (.map entry))
  | .field fieldName head rest, name =>
    if fieldName = name then none else (named? rest name).map (under fieldName head)
  | _, _ => none

/-- The number of entries. -/
def size : Collection s → s.Val → Nat
  | listed _ place, v => (place.get v).length
  | keyed _ place, v => (place.get v).size

/-- Divides the entries among two records, at a position or, if there are fewer, at their end. -/
def cutAt : Collection s → (count : Nat) → s.Val → s.Val × s.Val
  | listed _ place, count, v =>
    let entries := place.get v
    place.divide (entries.splitAt (min count entries.length)) v
  | keyed _ place, count, v => place.divide ((place.get v).cutAt count) v

/-- The record with the first `count` entries only. -/
def take : Collection s → (count : Nat) → s.Val → s.Val
  | listed _ place, count, v => place.set ((place.get v).take count) v
  | keyed _ place, count, v => place.set ((place.get v).take count) v

/-- The record with the entries after the first `count` only. -/
def drop : Collection s → (count : Nat) → s.Val → s.Val
  | listed _ place, count, v => place.set ((place.get v).drop count) v
  | keyed _ place, count, v => place.set ((place.get v).drop count) v

theorem cutAt_eq (c : Collection s) (count : Nat) (v : s.Val) :
    c.cutAt count v = (c.take count v, c.drop count v) := by
  cases c with
  | listed entry place =>
    rw [cutAt, Field.divide_eq, List.splitAt_eq, ← List.take_eq_take_min,
      ← List.drop_eq_drop_min]
    rfl
  | keyed entry place =>
    rw [cutAt, Field.divide_eq, KeyMap.cutAt_eq]
    rfl

@[simp] theorem size_take (c : Collection s) (count : Nat) (v : s.Val) :
    c.size (c.take count v) = min count (c.size v) := by
  cases c <;> simp [size, take, KeyMap.size]

@[simp] theorem size_drop (c : Collection s) (count : Nat) (v : s.Val) :
    c.size (c.drop count v) = c.size v - count := by
  cases c <;> simp [size, drop, KeyMap.size]

end Collection

end Etp
