import Etp.Body.Entries

/-!
# Bodies as their entries

A body is known by its entries and by what is left of it without them (`Body.ext_entries`).  Cutting a
body divides the entries and leaves the rest as it is.  The data objects of a body are entries too;
changing and bringing them together is described by `Body.contents`, the objects with their keys.
-/

namespace Etp

namespace Field

variable {s t : Shape}

/-- A record is known by the value at a place and by what it is apart from that place. -/
theorem eq_of_get_of_set (place : Field s t) {v w : s.Val} (a : t.Val)
    (hget : place.get v = place.get w) (hset : place.set a v = place.set a w) : v = w := by
  calc
    v = place.set (place.get v) (place.set a v) := by rw [set_set, set_get]
    _ = place.set (place.get w) (place.set a w) := by rw [hget, hset]
    _ = w := by rw [set_set, set_get]

end Field

theorem KeyMap.take_zero {α : Type} (m : KeyMap α) : m.take 0 = KeyMap.empty :=
  KeyMap.ext (List.take_zero : m.entries.take 0 = [])

/-- An entry of a collection; the entries of a list have no key. -/
structure Entry where
  key : Option String
  shape : Shape
  value : shape.Val

/-- The keys ascend, where there are keys. -/
def Entry.Before (a b : Entry) : Prop := ∀ k l, a.key = some k → b.key = some l → k < l

namespace Collection

variable {s : Shape}

/-- The entries, in the order of the list or of their keys. -/
def entries : Collection s → s.Val → List Entry
  | listed entry place, v => (place.get v).map (fun a => ⟨none, entry, a⟩)
  | keyed entry place, v => (place.get v).entries.map (fun e => ⟨some e.1, entry, e.2⟩)

/-- The record without entries. -/
def cleared (c : Collection s) (v : s.Val) : s.Val := c.take 0 v

theorem length_entries (c : Collection s) (v : s.Val) : (c.entries v).length = c.size v := by
  cases c with
  | listed entry place => simp [entries, size]
  | keyed entry place => simp [entries, size, KeyMap.size]

@[simp] theorem entries_take (c : Collection s) (count : Nat) (v : s.Val) :
    c.entries (c.take count v) = (c.entries v).take count := by
  cases c with
  | listed entry place => simp [entries, take, List.map_take]
  | keyed entry place => simp [entries, take, List.map_take]

@[simp] theorem entries_drop (c : Collection s) (count : Nat) (v : s.Val) :
    c.entries (c.drop count v) = (c.entries v).drop count := by
  cases c with
  | listed entry place => simp [entries, drop, List.map_drop]
  | keyed entry place => simp [entries, drop, List.map_drop]

@[simp] theorem cleared_take (c : Collection s) (count : Nat) (v : s.Val) :
    c.cleared (c.take count v) = c.cleared v := by
  cases c with
  | listed entry place => simp [cleared, take]
  | keyed entry place => simp [cleared, take, KeyMap.take_zero]

@[simp] theorem cleared_drop (c : Collection s) (count : Nat) (v : s.Val) :
    c.cleared (c.drop count v) = c.cleared v := by
  cases c with
  | listed entry place => simp [cleared, take, drop]
  | keyed entry place => simp [cleared, take, drop, KeyMap.take_zero]

theorem pairwise_entries (c : Collection s) (v : s.Val) :
    (c.entries v).Pairwise Entry.Before := by
  cases c with
  | listed entry place =>
    refine List.pairwise_map.2 (List.pairwise_of_forall ?_)
    intro a b k l hk
    cases hk
  | keyed entry place =>
    refine List.pairwise_map.2 ((place.get v).ascending.imp ?_)
    intro a b hab k l hk hl
    cases hk
    cases hl
    exact hab

/-- A record is known by its entries and by what is left without them. -/
theorem ext_entries (c : Collection s) {v w : s.Val} (hcleared : c.cleared v = c.cleared w)
    (hentries : c.entries v = c.entries w) : v = w := by
  cases c with
  | listed entry place =>
    simp only [cleared, take, List.take_zero] at hcleared
    refine place.eq_of_get_of_set [] ?_ hcleared
    refine (List.map_inj_right ?_).1 hentries
    intro a b hab
    cases hab
    rfl
  | keyed entry place =>
    simp only [cleared, take, KeyMap.take_zero] at hcleared
    refine place.eq_of_get_of_set KeyMap.empty (KeyMap.ext ?_) hcleared
    refine (List.map_inj_right ?_).1 hentries
    intro a b hab
    cases a
    cases b
    cases hab
    rfl

end Collection

/-- A data object with its key; the objects of a list have none. -/
abbrev Content := Option String × DataObject

namespace Content

/-- The entry that a data object is. -/
def entry (c : Content) : Entry := ⟨c.1, Schema.dataObject, c.2⟩

/-- The keys ascend, where there are keys. -/
def Before (a b : Content) : Prop := ∀ k l, a.1 = some k → b.1 = some l → k < l

end Content

namespace Objects

variable {s : Shape}

/-- The collection that holds the data objects. -/
def collection : Objects s → Collection s
  | listed place => .listed Schema.dataObject place
  | keyed place => .keyed Schema.dataObject place

/-- The data objects with their keys. -/
def contents : Objects s → s.Val → List Content
  | listed place, v => (place.get v).map (fun o => (none, o))
  | keyed place, v => (place.get v).entries.map (fun e => (some e.1, e.2))

theorem toList_eq (o : Objects s) (v : s.Val) : o.toList v = (o.contents v).map (·.2) := by
  cases o with
  | listed place => simp [toList, contents, Function.comp_def]
  | keyed place => simp [toList, contents, KeyMap.values]

theorem entries_collection (o : Objects s) (v : s.Val) :
    o.collection.entries v = (o.contents v).map Content.entry := by
  cases o with
  | listed place => simp [collection, Collection.entries, contents, Content.entry]
  | keyed place => simp [collection, Collection.entries, contents, Content.entry]

theorem contents_take (o : Objects s) (count : Nat) (v : s.Val) :
    o.contents (o.collection.take count v) = (o.contents v).take count := by
  cases o with
  | listed place => simp [collection, Collection.take, contents, List.map_take]
  | keyed place => simp [collection, Collection.take, contents, List.map_take]

theorem contents_drop (o : Objects s) (count : Nat) (v : s.Val) :
    o.contents (o.collection.drop count v) = (o.contents v).drop count := by
  cases o with
  | listed place => simp [collection, Collection.drop, contents, List.map_drop]
  | keyed place => simp [collection, Collection.drop, contents, List.map_drop]

theorem contents_map (o : Objects s) (f : DataObject → DataObject) (v : s.Val) :
    o.contents (o.map f v) = (o.contents v).map (Prod.map id f) := by
  cases o with
  | listed place => simp [contents, map]
  | keyed place => simp [contents, map, KeyMap.mapValues]

theorem cleared_map (o : Objects s) (f : DataObject → DataObject) (v : s.Val) :
    o.collection.cleared (o.map f v) = o.collection.cleared v := by
  cases o with
  | listed place => simp [collection, Collection.cleared, Collection.take, map]
  | keyed place => simp [collection, Collection.cleared, Collection.take, map, KeyMap.take_zero]

theorem pairwise_contents (o : Objects s) (v : s.Val) :
    (o.contents v).Pairwise Content.Before := by
  have hentries := o.collection.pairwise_entries v
  rw [entries_collection, List.pairwise_map] at hentries
  exact hentries

/-- What is brought together is the one after the other, if the keys go on ascending. -/
theorem contents_absorb (o : Objects s) {into more : s.Val}
    (h : (o.contents into ++ o.contents more).Pairwise Content.Before) :
    o.contents (o.absorb into more) = o.contents into ++ o.contents more := by
  cases o with
  | listed place => simp [contents, absorb]
  | keyed place =>
    have hkeys : ((place.get into).entries ++ (place.get more).entries).Pairwise
        (fun a b => a.1 < b.1) := by
      rw [contents, contents, ← List.map_append] at h
      exact (List.pairwise_map.1 h).imp (fun hab => hab _ _ rfl rfl)
    simp [contents, absorb, KeyMap.entries_insertAll_of_append _ _ hkeys]

theorem cleared_absorb (o : Objects s) (into more : s.Val) :
    o.collection.cleared (o.absorb into more) = o.collection.cleared into := by
  cases o with
  | listed place => simp [collection, Collection.cleared, Collection.take, absorb]
  | keyed place =>
    simp [collection, Collection.cleared, Collection.take, absorb, KeyMap.take_zero]

end Objects

/-- The data objects of a kind are the entries by which its bodies may be cut. -/
theorem Kind.collection_of_objects {k : Kind} {o : Objects k.shape} (h : k.objects = some o) :
    k.collection = some o.collection := by
  cases k with
  | putDataObjects => cases h; rfl
  | getDataObjectsResponse => cases h; rfl
  | findDataObjectsResponse => cases h; rfl
  | _ => cases h

namespace Body

/-- The entries by which the body may be cut. -/
def entries (b : Body) : List Entry := (b.kind.collection.map (·.entries b.value)).getD []

/-- The data objects of the body with their keys, if their content may travel in chunks. -/
def contents (b : Body) : List Content := (b.kind.objects.map (·.contents b.value)).getD []

/-- The body without entries. -/
def cleared (b : Body) : Body :=
  match b.kind.collection with
  | none => b
  | some c => ⟨b.kind, c.cleared b.value⟩

@[simp] theorem kind_cleared (b : Body) : b.cleared.kind = b.kind := by
  unfold cleared
  split <;> rfl

theorem kind_eq_of_cleared {b b' : Body} (h : b.cleared = b'.cleared) : b.kind = b'.kind := by
  rw [← b.kind_cleared, h, kind_cleared]

/-- A body is known by its entries and by what is left without them. -/
theorem ext_entries {b b' : Body} (hcleared : b.cleared = b'.cleared)
    (hentries : b.entries = b'.entries) : b = b' := by
  have hkind := kind_eq_of_cleared hcleared
  obtain ⟨k, v⟩ := b
  obtain ⟨l, w⟩ := b'
  cases hkind
  cases hc : k.collection with
  | none => simpa [cleared, hc] using hcleared
  | some c =>
    simp only [cleared, hc, Body.mk.injEq, heq_eq_eq, true_and] at hcleared
    simp only [entries, hc, Option.map_some, Option.getD_some] at hentries
    rw [c.ext_entries hcleared hentries]

theorem objects_eq_some_iff {b : Body} {objects : List DataObject} :
    b.objects = some objects ↔ b.isChunkable = true ∧ objects = b.contents.map (·.2) := by
  unfold Body.objects isChunkable contents
  cases b.kind.objects with
  | none => simp
  | some o => simp [Objects.toList_eq, eq_comm]

theorem entries_eq_contents {b : Body} (h : b.isChunkable = true) :
    b.entries = b.contents.map Content.entry := by
  obtain ⟨o, ho⟩ := Option.isSome_iff_exists.1 h
  simp [entries, contents, ho, Kind.collection_of_objects ho, Objects.entries_collection]

/-- A body with data objects is known by them and by what is left without them. -/
theorem ext_contents {b b' : Body} (hchunkable : b.isChunkable = true)
    (hcleared : b.cleared = b'.cleared) (hcontents : b.contents = b'.contents) : b = b' := by
  have hchunkable' : b'.isChunkable = true := by
    rwa [isChunkable, ← kind_eq_of_cleared hcleared]
  refine ext_entries hcleared ?_
  rw [entries_eq_contents hchunkable, entries_eq_contents hchunkable', hcontents]

theorem pairwise_contents (b : Body) : b.contents.Pairwise Content.Before := by
  unfold contents
  cases b.kind.objects with
  | none => exact List.Pairwise.nil
  | some o => exact o.pairwise_contents b.value

/-- What it means that a body was cut in two after its first `count` entries. -/
structure Cut (b : Body) (count : Nat) (first second : Body) : Prop where
  cleared_first : first.cleared = b.cleared
  cleared_second : second.cleared = b.cleared
  entries_first : first.entries = b.entries.take count
  entries_second : second.entries = b.entries.drop count
  contents_first : first.contents = b.contents.take count
  contents_second : second.contents = b.contents.drop count

theorem cut_of_split {b first second : Body} {count : Nat}
    (h : b.split count = some (first, second)) : b.Cut count first second := by
  rw [split_eq] at h
  obtain ⟨c, hc, hparts⟩ := Option.map_eq_some_iff.1 h
  cases hparts
  have hcontents : ∀ o, b.kind.objects = some o → c = o.collection := fun o ho =>
    Option.some.inj (hc.symm.trans (Kind.collection_of_objects ho))
  refine ⟨?_, ?_, ?_, ?_, ?_, ?_⟩
  · simp [cleared, hc]
  · simp [cleared, hc]
  · simp [entries, hc]
  · simp [entries, hc]
  · unfold contents
    cases ho : b.kind.objects with
    | none => simp
    | some o => simp [hcontents o ho, Objects.contents_take]
  · unfold contents
    cases ho : b.kind.objects with
    | none => simp
    | some o => simp [hcontents o ho, Objects.contents_drop]

theorem Cut.append_entries {b first second : Body} {count : Nat} (h : b.Cut count first second) :
    first.entries ++ second.entries = b.entries := by
  rw [h.entries_first, h.entries_second, List.take_append_drop]

theorem Cut.append_contents {b first second : Body} {count : Nat} (h : b.Cut count first second) :
    first.contents ++ second.contents = b.contents := by
  rw [h.contents_first, h.contents_second, List.take_append_drop]

theorem cuttableSize_eq {b : Body} {size : Nat} (h : b.cuttableSize = some size) :
    b.entries.length = size := by
  obtain ⟨c, hc, rfl⟩ := Option.map_eq_some_iff.1 h
  simp [entries, hc, Collection.length_entries]

theorem collection_of_entries {b : Body} (h : b.entries ≠ []) : b.kind.collection ≠ none := by
  intro hnone
  rw [entries, hnone] at h
  exact h rfl

@[simp] theorem kind_mapObjects (f : DataObject → DataObject) (b : Body) :
    (b.mapObjects f).kind = b.kind := by
  unfold mapObjects
  split <;> rfl

theorem contents_mapObjects (f : DataObject → DataObject) (b : Body) :
    (b.mapObjects f).contents = b.contents.map (Prod.map id f) := by
  unfold mapObjects
  cases ho : b.kind.objects with
  | none => simp [contents, ho]
  | some o => simp [contents, ho, Objects.contents_map]

theorem cleared_mapObjects (f : DataObject → DataObject) (b : Body) :
    (b.mapObjects f).cleared = b.cleared := by
  unfold mapObjects
  cases ho : b.kind.objects with
  | none => rfl
  | some o => simp [cleared, Kind.collection_of_objects ho, Objects.cleared_map]

/-- Bodies that agree apart from their data objects are brought together, if the keys go on
ascending. -/
theorem absorb_spec {into more : Body} (hchunkable : into.isChunkable = true)
    (hcleared : more.cleared = into.cleared)
    (hbefore : (into.contents ++ more.contents).Pairwise Content.Before) :
    ∃ b, into.absorb more = some b ∧ b.cleared = into.cleared ∧
      b.contents = into.contents ++ more.contents := by
  have hkind := kind_eq_of_cleared hcleared
  obtain ⟨k, v⟩ := into
  obtain ⟨l, w⟩ := more
  cases hkind
  obtain ⟨o, ho⟩ := Option.isSome_iff_exists.1 hchunkable
  simp only at ho
  simp only [contents, ho, Option.map_some, Option.getD_some] at hbefore
  refine ⟨⟨k, o.absorb v w⟩, ?_, ?_, ?_⟩
  · simp [absorb, ho]
  · simp [cleared, Kind.collection_of_objects ho, Objects.cleared_absorb]
  · simp [contents, ho, Objects.contents_absorb o hbefore]

end Body

end Etp
