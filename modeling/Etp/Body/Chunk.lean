import Etp.Body.Basic

/-!
# Chunks

A chunk carries a piece of the content of a data object.  The protocols that exchange data objects
have a chunk body each; their fields are the same.
-/

namespace Etp

/-- A piece of the content that belongs to a blob identifier. -/
structure Chunk where
  blob : Uuid
  data : Bytes
  isLast : Bool
  deriving DecidableEq

/-- Whether the bodies of a kind are chunks. -/
def Kind.isChunk : Kind → Bool
  | .storeChunk => true
  | .storeQueryChunk => true
  | _ => false

namespace Body

/-- Whether the body is a chunk. -/
def isChunk (b : Body) : Bool := b.kind.isChunk

/-- The chunk that the body is, if it is one. -/
def chunk? : Body → Option Chunk
  | ⟨.storeChunk, blob, data, isLast, _⟩ => some ⟨blob, data, isLast⟩
  | ⟨.storeQueryChunk, blob, data, isLast, _⟩ => some ⟨blob, data, isLast⟩
  | _ => none

end Body

namespace Chunk

/-- The body of the chunk in the protocol with a number, if that protocol has chunks. -/
def toBody? (c : Chunk) (protocol : Int32) : Option Body :=
  if protocol = Protocol.store.id then some ⟨.storeChunk, c.blob, c.data, c.isLast, ()⟩
  else if protocol = Protocol.storeQuery.id then
    some ⟨.storeQueryChunk, c.blob, c.data, c.isLast, ()⟩
  else none

/-- Only two protocols have chunks. -/
theorem toBody?_cases {c : Chunk} {protocol : Int32} {b : Body} (h : c.toBody? protocol = some b) :
    (protocol = Protocol.store.id ∧ b = ⟨.storeChunk, c.blob, c.data, c.isLast, ()⟩) ∨
      (protocol = Protocol.storeQuery.id ∧ b = ⟨.storeQueryChunk, c.blob, c.data, c.isLast, ()⟩) := by
  unfold toBody? at h
  split at h
  case isTrue hstore =>
    cases h
    exact .inl ⟨hstore, rfl⟩
  case isFalse =>
    split at h
    case isTrue hquery =>
      cases h
      exact .inr ⟨hquery, rfl⟩
    case isFalse => cases h

theorem chunk?_of_toBody? {c : Chunk} {protocol : Int32} {b : Body}
    (h : c.toBody? protocol = some b) : b.chunk? = some c := by
  rcases toBody?_cases h with ⟨-, rfl⟩ | ⟨-, rfl⟩
  · rfl
  · rfl

end Chunk

end Etp
