import Etp.Message.Basic

/-!
# Reassembly

The parts of an exchange become one message again.  The first referencer carries it; the data
objects of later referencers of the same kind are added to it.  Then every data object receives, in
the order of arrival, the content of all chunks under its blob identifier.
-/

namespace Etp

/-- The object with the content of its chunks; once it has content it needs no blob identifier. -/
def DataObject.fill (chunks : List Chunk) (o : DataObject) : DataObject :=
  let own := chunks.filter (fun c => o.blob == some c.blob)
  let data := o.data ++ own.flatMap Chunk.data
  o.withContent (if data.isEmpty then o.blob else none) data

namespace Message

/-- The body of a referencer with the data objects of later ones; those of another kind are left
out. -/
def merged (first : Body) (later : List Message) : Body :=
  later.foldl (fun body m => (body.absorb m.body).getD body) first

/-- The message that the parts of an exchange make up; none if no part is a referencer. -/
def reassemble (parts : List Message) : Option Message :=
  match parts.filter isReferencer with
  | [] => none
  | first :: later =>
    let chunks := parts.filterMap (·.body.chunk?)
    some { first with body := (merged first.body later).mapObjects (DataObject.fill chunks) }

end Message

end Etp
