import Etp.Proofs.Body.Entries

/-!
# Bodies that are cut and put together again

A body that is cut at a position becomes two bodies of its kind.  They share its entries in their order,
and each of them has all its other fields (`Body.Partition`).  Where the entries are data objects, adding
those of the second body to the first one gives back the body that was cut.  The main statement is
`Body.split_partitions`.
-/

namespace Etp

namespace Field

variable {s t u : Shape}

/-- The position of a field among the fields of its record. -/
def index : {s t : Shape} → Field s t → Nat
  | _, _, here => 0
  | _, _, there place => place.index + 1

/-- Replacing the value of a field does not touch the other fields. -/
theorem get_set_of_index_ne (place : Field s t) (other : Field s u)
    (h : other.index ≠ place.index) (a : t.Val) (v : s.Val) :
    other.get (place.set a v) = other.get v := by
  induction place with
  | here =>
    cases other with
    | here => exact absurd rfl h
    | there other => rfl
  | there place ih =>
    cases other with
    | here => rfl
    | there other => exact ih other (fun heq => h (congrArg (· + 1) heq)) a v.2

end Field

namespace Collection

variable {s t : Shape}

/-- The position of the collection among the fields of its record. -/
def index : Collection s → Nat
  | listed _ place => place.index
  | keyed _ place => place.index

/-- Records that agree in every field but the collection. -/
def Alike (c : Collection s) (v w : s.Val) : Prop :=
  ∀ {t : Shape} (other : Field s t), other.index ≠ c.index → other.get v = other.get w

theorem get_cleared (c : Collection s) (other : Field s t) (h : other.index ≠ c.index)
    (v : s.Val) : other.get (c.cleared v) = other.get v := by
  cases c with
  | listed entry place => exact place.get_set_of_index_ne other h _ v
  | keyed entry place => exact place.get_set_of_index_ne other h _ v

theorem alike_of_cleared (c : Collection s) {v w : s.Val} (h : c.cleared v = c.cleared w) :
    c.Alike v w := by
  intro t other hother
  calc
    other.get v = other.get (c.cleared v) := (c.get_cleared other hother v).symm
    _ = other.get (c.cleared w) := by rw [h]
    _ = other.get w := c.get_cleared other hother w

end Collection

namespace Body

/-- Bodies of one kind that agree in every field but the one by which they may be cut. -/
inductive Alike : Body → Body → Prop
  | intro {k : Kind} {c : Collection k.shape} {v w : k.shape.Val} (hc : k.collection = some c)
    (h : c.Alike v w) : Alike ⟨k, v⟩ ⟨k, w⟩

theorem alike_of_cleared {b b' : Body} (hcollection : b.kind.collection ≠ none)
    (h : b.cleared = b'.cleared) : b.Alike b' := by
  have hkind := kind_eq_of_cleared h
  obtain ⟨k, v⟩ := b
  obtain ⟨l, w⟩ := b'
  cases hkind
  obtain ⟨c, hc⟩ := Option.ne_none_iff_exists'.1 hcollection
  simp only [cleared, hc, Body.mk.injEq, heq_eq_eq, true_and] at h
  exact .intro hc (c.alike_of_cleared h)

theorem pairwise_entries (b : Body) : b.entries.Pairwise Entry.Before := by
  unfold entries
  cases b.kind.collection with
  | none => exact List.Pairwise.nil
  | some c => exact c.pairwise_entries b.value

/-- The bodies `head` and `rest` have the entries of `b` before and after a position, and all its other
fields. -/
structure Partition (b : Body) (position : Nat) (head rest : Body) : Prop where
  alike_head : b.Alike head
  alike_rest : b.Alike rest
  entries_head : head.entries = b.entries.take position
  entries_rest : rest.entries = b.entries.drop position
  joined : head.entries ++ rest.entries = b.entries
  /-- The order of the entries is that of their keys, if they have keys. -/
  ascending : b.entries.Pairwise Entry.Before
  below : ∀ e ∈ head.entries, ∀ f ∈ rest.entries, e.Before f

theorem collection_of_cuttableSize {b : Body} {size : Nat} (h : b.cuttableSize = some size) :
    b.kind.collection ≠ none := by
  intro hnone
  rw [cuttableSize, hnone] at h
  cases h

theorem Cut.partition {b head rest : Body} {count size : Nat} (h : b.Cut count head rest)
    (hsize : b.cuttableSize = some size) : b.Partition (min count size) head rest := by
  have hcollection := collection_of_cuttableSize hsize
  have hordered := b.pairwise_entries
  rw [← cuttableSize_eq hsize]
  exact {
    alike_head := alike_of_cleared hcollection h.cleared_first.symm
    alike_rest := alike_of_cleared hcollection h.cleared_second.symm
    entries_head := h.entries_first.trans List.take_eq_take_min
    entries_rest := h.entries_second.trans List.drop_eq_drop_min
    joined := h.append_entries
    ascending := hordered
    below := (List.pairwise_append.1 (h.append_entries.symm ▸ hordered)).2.2 }

/-- The data objects of a body that was cut are put together again: behind those of the first body come
the keys above them, so none is overwritten and the order is the old one. -/
theorem Cut.absorb_eq {b head rest : Body} {count : Nat} (h : b.Cut count head rest)
    (hchunkable : b.isChunkable = true) : head.absorb rest = some b := by
  have hkind : head.kind = b.kind := kind_eq_of_cleared h.cleared_first
  have hhead : head.isChunkable = true := by rwa [isChunkable, hkind]
  have hrest : rest.cleared = head.cleared := h.cleared_second.trans h.cleared_first.symm
  have hordered : (head.contents ++ rest.contents).Pairwise Content.Before := by
    rw [h.append_contents]
    exact b.pairwise_contents
  obtain ⟨whole, habsorb, hcleared, hcontents⟩ := absorb_spec hhead hrest hordered
  have hwhole : b = whole := ext_contents hchunkable (hcleared.trans h.cleared_first).symm
    (hcontents.trans h.append_contents).symm
  rw [habsorb, hwhole]

theorem exists_cut {b : Body} (hcollection : b.kind.collection ≠ none) (count : Nat) :
    ∃ head rest, b.split count = some (head, rest) ∧ b.Cut count head rest := by
  cases hsplit : b.split count with
  | none => exact absurd (Option.map_eq_none_iff.1 hsplit) hcollection
  | some halves => exact ⟨halves.1, halves.2, rfl, cut_of_split hsplit⟩

/-- A body with `n` entries is cut at any position, also beyond its end: the first entries stay, the
others go to a second body, and everything else is in both of them.  Where the entries are data objects,
adding the second body to the first one restores what was cut. -/
theorem split_partitions (b : Body) (count : Nat) :
    (∀ n, b.cuttableSize = some n → b.entries.length = n ∧
      ∃ head rest, b.split count = some (head, rest) ∧ b.Partition (min count n) head rest) ∧
    (b.isChunkable = true →
      ∃ head rest, b.split count = some (head, rest) ∧ head.absorb rest = some b) := by
  constructor
  · intro n hsize
    have hcollection := collection_of_cuttableSize hsize
    obtain ⟨head, rest, hsplit, hcut⟩ := exists_cut hcollection count
    exact ⟨cuttableSize_eq hsize, head, rest, hsplit, hcut.partition hsize⟩
  · intro hchunkable
    obtain ⟨o, ho⟩ := Option.isSome_iff_exists.1 hchunkable
    have hcollection : b.kind.collection ≠ none := by
      rw [Kind.collection_of_objects ho]
      exact Option.some_ne_none _
    obtain ⟨head, rest, hsplit, hcut⟩ := exists_cut hcollection count
    exact ⟨head, rest, hsplit, hcut.absorb_eq hchunkable⟩

/-- A request to store three objects, which are not given in the order of their keys. -/
def threeObjects : Body :=
  ⟨.putDataObjects, KeyMap.ofList ([("c", [3]), ("a", [1]), ("b", [2])].map (fun (key, data) =>
    (key, DataObject.withContent Schema.dataObject.default none data))), true, ()⟩

/-- The first two objects stay and the third one is cut off; beyond the end nothing is cut off. -/
theorem split_partitions_threeObjects :
    threeObjects.cuttableSize = some 3 ∧ threeObjects.isChunkable = true ∧
      (∃ head rest, threeObjects.split 2 = some (head, rest) ∧ threeObjects.Partition 2 head rest ∧
        head.entries.map Entry.key = [some "a", some "b"] ∧
        rest.entries.map Entry.key = [some "c"]) ∧
      (∃ head rest, threeObjects.split 7 = some (head, rest) ∧ threeObjects.Partition 3 head rest) ∧
      ∃ head rest, threeObjects.split 2 = some (head, rest) ∧
        head.absorb rest = some threeObjects := by
  have hsize : threeObjects.cuttableSize = some 3 := by decide +kernel
  have hchunkable : threeObjects.isChunkable = true := rfl
  obtain ⟨-, head, rest, hsplit, hparts⟩ := (split_partitions threeObjects 2).1 3 hsize
  have hhead : head.entries.map Entry.key = [some "a", some "b"] := by
    rw [hparts.entries_head]
    decide +kernel
  have hrest : rest.entries.map Entry.key = [some "c"] := by
    rw [hparts.entries_rest]
    decide +kernel
  exact ⟨hsize, hchunkable, ⟨head, rest, hsplit, hparts, hhead, hrest⟩,
    ((split_partitions threeObjects 7).1 3 hsize).2, (split_partitions threeObjects 2).2 hchunkable⟩

end Body

end Etp
