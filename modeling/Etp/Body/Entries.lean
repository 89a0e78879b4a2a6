import Etp.Body.Basic
import Etp.Body.DataObject

/-!
# The entries of a body

The collection by which a body may be cut, and the data objects of the bodies whose content may
travel in chunks.  `Body.split` leaves the first entries in the body and moves the others to a
second body that agrees with the first in every other field; `Body.absorb` brings the data objects
of two bodies together again.
-/

namespace Etp

/-- Where the records of a shape keep their data objects. -/
inductive Objects (s : Shape) where
  | listed (place : Field s (.list Schema.dataObject))
  | keyed (place : Field s (.map Schema.dataObject))

namespace Objects

variable {s : Shape}

/-- The data objects, in the order of the list or of their keys. -/
def toList : Objects s → s.Val → List DataObject
  | listed place, v => place.get v
  | keyed place, v => (place.get v).values

/-- Changes every data object. -/
def map : Objects s → (DataObject → DataObject) → s.Val → s.Val
  | listed place, f, v => place.set ((place.get v).map f) v
  | keyed place, f, v => place.set ((place.get v).mapValues f) v

/-- Adds the data objects of a second record: at the end of the list, or under their keys. -/
def absorb : Objects s → (into more : s.Val) → s.Val
  | listed place, into, more => place.set (place.get into ++ place.get more) into
  | keyed place, into, more =>
    place.set ((place.get into).insertAll (place.get more).entries) into

@[simp] theorem toList_map (o : Objects s) (f : DataObject → DataObject) (v : s.Val) :
    o.toList (o.map f v) = (o.toList v).map f := by
  cases o <;> simp [toList, map, KeyMap.values, KeyMap.mapValues, Function.comp_def]

end Objects

/-- Where the bodies of a kind keep data objects whose content may travel in chunks. -/
def Kind.objects : (k : Kind) → Option (Objects k.shape)
  | .putDataObjects => some (.keyed .here)
  | .getDataObjectsResponse => some (.keyed .here)
  | .findDataObjectsResponse => some (.listed .here)
  | _ => none

namespace Body

/-- The number of entries by which the body may be cut. -/
def cuttableSize (b : Body) : Option Nat := b.kind.collection.map (fun c => c.size b.value)

/-- The body with its first `count` entries, and one with the others. -/
def split (b : Body) (count : Nat) : Option (Body × Body) :=
  b.kind.collection.map (fun c =>
    let (first, others) := c.cutAt count b.value
    (⟨b.kind, first⟩, ⟨b.kind, others⟩))

theorem split_eq (b : Body) (count : Nat) : b.split count = b.kind.collection.map (fun c =>
    (⟨b.kind, c.take count b.value⟩, ⟨b.kind, c.drop count b.value⟩)) := by
  simp only [split, Collection.cutAt_eq]

theorem cuttableSize_split {b first second : Body} {count size : Nat}
    (hsize : b.cuttableSize = some size) (hsplit : b.split count = some (first, second)) :
    first.cuttableSize = some (min count size) ∧ second.cuttableSize = some (size - count) := by
  simp only [cuttableSize, split_eq, Option.map_eq_some_iff] at hsize hsplit
  obtain ⟨c, hc, rfl⟩ := hsize
  obtain ⟨c', hc', h⟩ := hsplit
  obtain rfl : c = c' := Option.some.inj (hc.symm.trans hc')
  obtain ⟨rfl, rfl⟩ := Prod.mk.inj h
  simp [cuttableSize, hc]

/-- The data objects of the body, if their content may travel in chunks. -/
def objects (b : Body) : Option (List DataObject) := b.kind.objects.map (fun o => o.toList b.value)

/-- Whether the body has data objects whose content may travel in chunks. -/
def isChunkable (b : Body) : Bool := b.kind.objects.isSome

/-- Changes every data object of the body. -/
def mapObjects (f : DataObject → DataObject) (b : Body) : Body :=
  match b.kind.objects with
  | none => b
  | some o => ⟨b.kind, o.map f b.value⟩

/-- The body with the data objects of another body of its kind added; none if the kinds differ. -/
def absorb (into more : Body) : Option Body :=
  if h : more.kind = into.kind then
    match into.kind.objects with
    | none => some into
    | some o => some ⟨into.kind, o.absorb into.value (h ▸ more.value)⟩
  else none

end Body

end Etp
