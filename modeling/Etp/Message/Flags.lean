/-!
# Message flags

The set of bits in a message header.
-/

namespace Etp

/-- A set of header bits. -/
structure Flags where
  bits : Int32
  deriving DecidableEq

namespace Flags

/-- No bit. -/
def none : Flags := ⟨0⟩

/-- The message is a part of a multipart message. -/
def multipart : Flags := ⟨0x1⟩

/-- The message is the final part. -/
def final : Flags := ⟨0x2⟩

/-- The body is compressed. -/
def compressed : Flags := ⟨0x8⟩

/-- The sender asks for an acknowledgement. -/
def acknowledge : Flags := ⟨0x10⟩

/-- The header has an extension. -/
def headerExtension : Flags := ⟨0x20⟩

/-- Whether all bits of another set are in this one. -/
def contains (f other : Flags) : Bool := f.bits &&& other.bits == other.bits

/-- The bits of either set. -/
def union (f other : Flags) : Flags := ⟨f.bits ||| other.bits⟩

/-- The bits that are not in another set. -/
def remove (f other : Flags) : Flags := ⟨f.bits &&& ~~~other.bits⟩

/-- Adds or removes the bits of another set. -/
def put (f other : Flags) (present : Bool) : Flags :=
  if present then f.union other else f.remove other

end Flags

end Etp
