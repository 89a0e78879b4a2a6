import Etp.Catalog.Kind
import Etp.Schema.Format

/-!
# Message bodies

A body is a value of the shape that its kind prescribes.
-/

namespace Etp

open Wire

/-- A message body: its kind and its fields. -/
structure Body where
  kind : Kind
  value : kind.shape.Val

namespace Body

instance : DecidableEq Body := fun a b => by
  obtain ⟨k, v⟩ := a
  obtain ⟨l, w⟩ := b
  by_cases hkind : k = l
  · subst hkind
    exact decidable_of_iff (v = w) ⟨fun h => h ▸ rfl, fun h => by cases h; rfl⟩
  · exact isFalse (fun h => hkind (by cases h; rfl))

/-- Whether two bodies are of one kind and equal, floating-point numbers as numbers. -/
def same (a b : Body) : Bool :=
  if h : a.kind = b.kind then b.kind.shape.same (h ▸ a.value) b.value else false

/-- The fields of the body, if it is of the given kind. -/
def valueAs? (b : Body) (k : Kind) : Option k.shape.Val :=
  if h : b.kind = k then some (h ▸ b.value) else none

@[simp] theorem valueAs?_kind (b : Body) : b.valueAs? b.kind = some b.value := by
  simp [valueAs?]

/-- The number of the protocol that the body belongs to. -/
def protocolId (b : Body) : Int32 := b.kind.protocol.id

/-- The written form of a body; nothing in it tells the kind. -/
def write (b : Body) : Bytes := b.kind.shape.write b.value

/-- Reads a body of a kind. -/
def read (k : Kind) : Reader Body := do
  let value ← k.shape.read
  pure ⟨k, value⟩

end Body

end Etp
