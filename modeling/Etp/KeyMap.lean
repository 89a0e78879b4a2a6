/-!
# Maps with ordered keys

A `KeyMap` holds its entries in ascending order of their keys.  Texts compare by code points, which
is the order of their UTF-8 bytes.  The order is part of the type, so two maps with the same entries
are equal and every listing of a map is sorted.
-/

namespace Etp

/-- Entries with distinct keys, in ascending order of the keys. -/
structure KeyMap (α : Type) where
  entries : List (String × α)
  ascending : entries.Pairwise (fun a b => a.1 < b.1)
  deriving DecidableEq

namespace KeyMap

variable {α β : Type}

@[ext] theorem ext {m m' : KeyMap α} (h : m.entries = m'.entries) : m = m' := by
  cases m; cases m'; simp_all

/-- The map without entries. -/
def empty : KeyMap α := ⟨[], List.Pairwise.nil⟩

instance : Inhabited (KeyMap α) := ⟨empty⟩

/-- Two texts that differ are ordered one way or the other. -/
theorem lt_of_not_lt_of_ne {a b : String} (hlt : ¬ a < b) (hne : a ≠ b) : b < a := by
  rcases Decidable.em (b < a) with h | h
  · exact h
  · exact absurd (String.le_antisymm (String.not_lt.1 h) (String.not_lt.1 hlt)) hne

/-- Puts an entry at its place, over an earlier one with the same key. -/
def insertEntry (key : String) (value : α) : List (String × α) → List (String × α)
  | [] => [(key, value)]
  | (k, v) :: rest =>
    if key < k then (key, value) :: (k, v) :: rest
    else if key = k then (key, value) :: rest
    else (k, v) :: insertEntry key value rest

theorem mem_insertEntry {key : String} {value : α} {entries : List (String × α)}
    {entry : String × α} (h : entry ∈ insertEntry key value entries) :
    entry = (key, value) ∨ entry ∈ entries := by
  induction entries with
  | nil => simpa [insertEntry] using h
  | cons head rest ih =>
    obtain ⟨k, v⟩ := head
    unfold insertEntry at h
    split at h
    · simpa using h
    · split at h
      · rcases List.mem_cons.1 h with h | h
        · exact .inl h
        · exact .inr (List.mem_cons_of_mem _ h)
      · rcases List.mem_cons.1 h with h | h
        · exact .inr (by simp [h])
        · rcases ih h with h | h
          · exact .inl h
          · exact .inr (List.mem_cons_of_mem _ h)

theorem pairwise_insertEntry (key : String) (value : α) {entries : List (String × α)}
    (hentries : entries.Pairwise (fun a b => a.1 < b.1)) :
    (insertEntry key value entries).Pairwise (fun a b => a.1 < b.1) := by
  induction entries with
  | nil => simp [insertEntry]
  | cons head rest ih =>
    obtain ⟨k, v⟩ := head
    obtain ⟨hhead, hrest⟩ := List.pairwise_cons.1 hentries
    unfold insertEntry
    split
    case isTrue hlt =>
      refine List.pairwise_cons.2 ⟨fun entry hentry => ?_, hentries⟩
      rcases List.mem_cons.1 hentry with rfl | hentry
      · exact hlt
      · exact String.lt_trans hlt (hhead entry hentry)
    case isFalse hlt =>
      split
      case isTrue heq =>
        subst heq
        exact List.pairwise_cons.2 ⟨hhead, hrest⟩
      case isFalse hne =>
        refine List.pairwise_cons.2 ⟨fun entry hentry => ?_, ih hrest⟩
        rcases mem_insertEntry hentry with rfl | hentry
        · exact lt_of_not_lt_of_ne hlt hne
        · exact hhead entry hentry

/-- Sets the value under a key. -/
def insert (m : KeyMap α) (key : String) (value : α) : KeyMap α :=
  ⟨insertEntry key value m.entries, pairwise_insertEntry key value m.ascending⟩

/-- The value under a key. -/
def get? (m : KeyMap α) (key : String) : Option α := m.entries.lookup key

/-- Whether a key has a value. -/
def contains (m : KeyMap α) (key : String) : Bool := (m.get? key).isSome

/-- Drops the value under a key. -/
def erase (m : KeyMap α) (key : String) : KeyMap α :=
  ⟨m.entries.filter (fun entry => entry.1 ≠ key), m.ascending.filter _⟩

/-- Sets one value after the other; of equal keys the last one counts. -/
def insertAll (m : KeyMap α) (entries : List (String × α)) : KeyMap α :=
  entries.foldl (fun m entry => m.insert entry.1 entry.2) m

/-- The map with the given entries; of equal keys the last one counts. -/
def ofList (entries : List (String × α)) : KeyMap α := empty.insertAll entries

/-- The number of entries. -/
def size (m : KeyMap α) : Nat := m.entries.length

/-- The keys, ascending. -/
def keys (m : KeyMap α) : List String := m.entries.map (·.1)

/-- The values, in the order of their keys. -/
def values (m : KeyMap α) : List α := m.entries.map (·.2)

/-- Whether two maps have the same keys, and values that compare as equal under them. -/
def same (sameValue : α → α → Bool) (m m' : KeyMap α) : Bool :=
  decide (m.keys = m'.keys) && (m.values.zip m'.values).all (fun p => sameValue p.1 p.2)

/-- Changes every value and no key. -/
def mapValues (f : α → β) (m : KeyMap α) : KeyMap β :=
  ⟨m.entries.map (fun entry => (entry.1, f entry.2)), List.pairwise_map.2 m.ascending⟩

/-- The entries whose keys are below a key, and the others. -/
def splitAtKey (m : KeyMap α) (key : String) : KeyMap α × KeyMap α :=
  (⟨m.entries.filter (fun entry => entry.1 < key), m.ascending.filter _⟩,
    ⟨m.entries.filter (fun entry => ¬ entry.1 < key), m.ascending.filter _⟩)

/-- The entries before a position and the others, which begin with the key at that position. -/
def cutAt (m : KeyMap α) (count : Nat) : KeyMap α × KeyMap α :=
  match m.keys[count]? with
  | some key => m.splitAtKey key
  | none => (m, empty)

/-- The first `count` entries. -/
def take (m : KeyMap α) (count : Nat) : KeyMap α :=
  ⟨m.entries.take count, m.ascending.sublist (List.take_sublist _ _)⟩

/-- The entries after the first `count`. -/
def drop (m : KeyMap α) (count : Nat) : KeyMap α :=
  ⟨m.entries.drop count, m.ascending.sublist (List.drop_sublist _ _)⟩

@[simp] theorem entries_take (m : KeyMap α) (count : Nat) :
    (m.take count).entries = m.entries.take count := rfl

@[simp] theorem entries_drop (m : KeyMap α) (count : Nat) :
    (m.drop count).entries = m.entries.drop count := rfl

/-- Up to a position the keys are below the key that stands there, and from there on they are not. -/
theorem splitAtKey_of_keys {m : KeyMap α} {count : Nat} {key : String}
    (hkey : m.keys[count]? = some key) : m.splitAtKey key = (m.take count, m.drop count) := by
  obtain ⟨entry, hentry, rfl⟩ : ∃ entry, m.entries[count]? = some entry ∧ entry.1 = key := by
    simpa [keys] using hkey
  have hrest : m.entries.drop count = entry :: m.entries.drop (count + 1) :=
    List.drop_eq_getElem?_toList_append.trans (by rw [hentry]; rfl)
  -- Since the keys ascend, those before the position are below its key, and those behind it above.
  have hpairs := m.ascending
  rw [← List.take_append_drop count m.entries, hrest] at hpairs
  obtain ⟨-, habove, hbelow⟩ := List.pairwise_append.1 hpairs
  have hfirst : ∀ e ∈ m.entries.take count, e.1 < entry.1 :=
    fun e he => hbelow e he entry List.mem_cons_self
  have hsecond : ∀ e ∈ m.entries.drop count, ¬ e.1 < entry.1 := by
    intro e he
    rw [hrest] at he
    rcases List.mem_cons.1 he with rfl | he
    · exact String.lt_irrefl e.1
    · exact String.lt_asymm ((List.pairwise_cons.1 habove).1 e he)
  refine Prod.ext (ext ?_) (ext ?_)
  · calc
      m.entries.filter (fun e => e.1 < entry.1)
        = (m.entries.take count ++ m.entries.drop count).filter (fun e => e.1 < entry.1) := by
          rw [List.take_append_drop]
      _ = m.entries.take count := by
          rw [List.filter_append, List.filter_eq_self.2 (by simpa using hfirst),
            List.filter_eq_nil_iff.2 (by simpa using hsecond), List.append_nil]
  · calc
      m.entries.filter (fun e => ¬ e.1 < entry.1)
        = (m.entries.take count ++ m.entries.drop count).filter (fun e => ¬ e.1 < entry.1) := by
          rw [List.take_append_drop]
      _ = m.entries.drop count := by
          rw [List.filter_append, List.filter_eq_nil_iff.2 (by simpa using hfirst),
            List.filter_eq_self.2 (by simpa using hsecond), List.nil_append]

/-- Cutting a map leaves the first entries on one side and the others on the other. -/
theorem cutAt_eq (m : KeyMap α) (count : Nat) : m.cutAt count = (m.take count, m.drop count) := by
  unfold cutAt
  split
  case h_1 key hkey => exact splitAtKey_of_keys hkey
  case h_2 hkey =>
    have hlength : m.entries.length ≤ count := by simpa [keys] using hkey
    exact Prod.ext (ext (List.take_of_length_le hlength).symm)
      (ext (List.drop_eq_nil_of_le hlength).symm)

/-- An entry above all others is put at the end. -/
theorem insertEntry_eq_append {key : String} {value : α} {entries : List (String × α)}
    (habove : ∀ entry ∈ entries, entry.1 < key) :
    insertEntry key value entries = entries ++ [(key, value)] := by
  induction entries with
  | nil => rfl
  | cons head rest ih =>
    obtain ⟨k, v⟩ := head
    have hk : k < key := habove (k, v) (by simp)
    have hne : key ≠ k := fun h => String.lt_irrefl k (h ▸ hk)
    rw [insertEntry, if_neg (String.lt_asymm hk), if_neg hne,
      ih (fun entry hentry => habove entry (by simp [hentry]))]
    rfl

theorem entries_insertAll_of_append (m : KeyMap α) (added : List (String × α))
    (hadded : (m.entries ++ added).Pairwise (fun a b => a.1 < b.1)) :
    (m.insertAll added).entries = m.entries ++ added := by
  induction added generalizing m with
  | nil => simp [insertAll]
  | cons head rest ih =>
    obtain ⟨key, value⟩ := head
    have habove : ∀ entry ∈ m.entries, entry.1 < key := fun entry hentry =>
      (List.pairwise_append.1 hadded).2.2 entry hentry (key, value) (by simp)
    have hinsert : (m.insert key value).entries = m.entries ++ [(key, value)] :=
      insertEntry_eq_append habove
    have hrest : ((m.insert key value).entries ++ rest).Pairwise (fun a b => a.1 < b.1) := by
      simpa [hinsert] using hadded
    have := ih (m.insert key value) hrest
    simpa [insertAll, hinsert] using this

/-- A map is rebuilt from its own listing. -/
@[simp] theorem ofList_entries (m : KeyMap α) : ofList m.entries = m := by
  apply ext
  have := entries_insertAll_of_append (empty : KeyMap α) m.entries
    (by simpa [empty] using m.ascending)
  simpa [ofList, empty] using this

end KeyMap

end Etp
