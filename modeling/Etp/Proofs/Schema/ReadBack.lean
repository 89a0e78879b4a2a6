import Etp.Schema.Format

/-!
# Reading values back

Every value of a shape is read back from its written form, whatever follows it.  `Shape.cost` says
what the value claims of the allowance while it is read; the reading fails for no other reason.

A length is written as a 64-bit number, so the statement is about values all of whose lengths are
such numbers (`Shape.Representable`).  A value whose cost keeps to any allowance below 2^64 is one
of them, because each of its entries takes some room in memory.
-/

namespace Etp

open Wire Wire.Reader

namespace Wire.Cost

/-- What comes one after the other needs as much as either part. -/
theorem need_lt_of_followedBy {a b : Cost} {bound : Nat} (h : (a.followedBy b).need < bound) :
    a.need < bound ∧ b.need < bound := by
  simp only [followedBy] at h
  omega

/-- Entries need at least what each of them needs. -/
theorem need_lt_of_entries {size bound : Nat} {costs : List Cost} {c : Cost} (hc : c ∈ costs)
    (h : (entries size costs).need < bound) : c.need < bound := by
  induction costs with
  | nil => cases hc
  | cons d ds ih =>
    simp only [entries] at h
    rcases List.mem_cons.1 hc with rfl | hc
    · omega
    · exact ih hc (by omega)

/-- There are no more entries than what they need, if each of them takes room. -/
theorem length_lt_of_entries {size bound : Nat} (hsize : 0 < size) {costs : List Cost}
    (h : (entries size costs).need < bound) : costs.length < bound := by
  have hlength : costs.length ≤ costs.length * size := Nat.le_mul_of_pos_right _ hsize
  have hneed := length_mul_le_need_entries size costs
  omega

end Wire.Cost

namespace DataValue

/-- Whether every length in the value is a 64-bit number. -/
def Representable : DataValue → Prop
  | null => True
  | boolean _ => True
  | int _ => True
  | long _ => True
  | double _ => True
  | float _ => True
  | text t => (textBytes t).length < Width.w64.size
  | longs is => is.length < Width.w64.size
  | doubles ds => ds.length < Width.w64.size
  | texts ts => ts.length < Width.w64.size ∧ ∀ t ∈ ts, (textBytes t).length < Width.w64.size
  | bytes bs => bs.length < Width.w64.size

/-- What the content of a value claims while it is read. -/
def contentCost : DataValue → Cost
  | null => .free
  | boolean _ => .claim 1
  | int _ => .claim 4
  | long _ => .claim 8
  | double _ => .claim 8
  | float _ => .claim 4
  | text t => .claim (8 + (textBytes t).length)
  | longs is => (Cost.claim 8).followedBy (Cost.entries 8 (is.map (fun _ => .claim 8)))
  | doubles ds => (Cost.claim 8).followedBy (Cost.entries 8 (ds.map (fun _ => .claim 8)))
  | texts ts =>
    (Cost.claim 8).followedBy
      (Cost.entries 24 (ts.map (fun t => .claim (8 + (textBytes t).length))))
  | bytes bs => .claim (8 + bs.length)

/-- What a value claims while it is read: the number of its kind and its content. -/
def cost (v : DataValue) : Cost := (Cost.claim 4).followedBy v.contentCost

theorem read_reads (v : DataValue) (hv : v.Representable) :
    readDataValue.Reads (writeDataValue v) v v.cost := by
  have hkind : dataValueKind v < 11 := by
    cases v <;> simp [dataValueKind]
  refine (variant_reads 10 (by decide) ⟨dataValueKind v, hkind⟩).bind ?_
  cases v with
  | null => exact Reads.pure _
  | boolean b => exact (bool_reads b).map _
  | int i => exact (int32_reads i).map _
  | long i => exact (int64_reads i).map _
  | double d => exact (double_reads d).map _
  | float s => exact (single_reads s).map _
  | text t => exact (textField_reads t hv).map _
  | longs is => exact (list_reads 8 _ _ _ is hv (fun i _ => int64_reads i)).map _
  | doubles ds => exact (list_reads 8 _ _ _ ds hv (fun d _ => double_reads d)).map _
  | texts ts =>
    exact (list_reads 24 _ _ _ ts hv.1 (fun t ht => textField_reads t (hv.2 t ht))).map _
  | bytes bs => exact (bytes_reads bs hv).map _

theorem representable_of_cost {v : DataValue} (hcost : v.cost.need < Width.w64.size) :
    v.Representable := by
  have hcontent := (Cost.need_lt_of_followedBy hcost).2
  cases v with
  | text t => exact Nat.lt_of_le_of_lt (Nat.le_add_left _ 8) hcontent
  | bytes bs => exact Nat.lt_of_le_of_lt (Nat.le_add_left _ 8) hcontent
  | longs is =>
    have hlength := Cost.length_lt_of_entries (by decide) (Cost.need_lt_of_followedBy hcontent).2
    rwa [List.length_map] at hlength
  | doubles ds =>
    have hlength := Cost.length_lt_of_entries (by decide) (Cost.need_lt_of_followedBy hcontent).2
    rwa [List.length_map] at hlength
  | texts ts =>
    have hentries := (Cost.need_lt_of_followedBy hcontent).2
    have hlength := Cost.length_lt_of_entries (by decide) hentries
    rw [List.length_map] at hlength
    refine ⟨hlength, fun t ht => ?_⟩
    have htext := Cost.need_lt_of_entries (List.mem_map_of_mem ht) hentries
    exact Nat.lt_of_le_of_lt (Nat.le_add_left _ 8) htext
  | _ => trivial

end DataValue

namespace IndexValue

/-- What a position claims while it is read. -/
def cost : IndexValue → Cost
  | null => .claim 4
  | long _ => (Cost.claim 4).followedBy (.claim 8)
  | double _ => (Cost.claim 4).followedBy (.claim 8)

theorem read_reads (v : IndexValue) : readIndexValue.Reads (writeIndexValue v) v v.cost := by
  cases v with
  | null => exact (variant_reads 2 (by decide) 0).bindPure rfl
  | long i => exact (variant_reads 2 (by decide) 1).bind ((int64_reads i).map _)
  | double d => exact (variant_reads 2 (by decide) 2).bind ((double_reads d).map _)

end IndexValue

namespace Shape

/-- The shape of the entries of a map: a key and a value. -/
abbrev keyed (entry : Shape) : Shape := field "" text (field "" entry empty)

/-- Whether the names of every choice can be numbered in 32 bits, and the entries of every sequence
take room in memory. -/
def isSized : Shape → Bool
  | choice _ others => decide (others.length < Width.w32.size)
  | option item => item.isSized
  | list entry => entry.isSized && decide (0 < entry.entrySize)
  | map entry => entry.isSized && decide (0 < entry.keyed.entrySize)
  | field _ head rest => head.isSized && rest.isSized
  | _ => true

/-- Whether every length in a value is a 64-bit number. -/
def Representable : (s : Shape) → s.Val → Prop
  | int, _ => True
  | long, _ => True
  | bool, _ => True
  | text, v => (textBytes v).length < Width.w64.size
  | bytes, v => List.length v < Width.w64.size
  | uuid, _ => True
  | value, v => v.Representable
  | index, _ => True
  | choice _ _, _ => True
  | option item, v => ∀ a, v = some a → item.Representable a
  | list entry, v => List.length v < Width.w64.size ∧ ∀ a ∈ v, entry.Representable a
  | map entry, v => v.entries.length < Width.w64.size ∧
      ∀ e ∈ v.entries, (textBytes e.1).length < Width.w64.size ∧ entry.Representable e.2
  | empty, _ => True
  | field _ head rest, v => head.Representable v.1 ∧ rest.Representable v.2

/-- What a value claims of the allowance while it is read. -/
def cost : (s : Shape) → s.Val → Cost
  | int, _ => .claim 4
  | long, _ => .claim 8
  | bool, _ => .claim 1
  | text, v => .claim (8 + (textBytes v).length)
  | bytes, v => .claim (8 + List.length v)
  | uuid, _ => .claim 16
  | value, v => v.cost
  | index, v => v.cost
  | choice _ _, _ => .claim 4
  | option item, v => optionCost item.cost v
  | list entry, v => (Cost.claim 8).followedBy (Cost.entries entry.entrySize (v.map entry.cost))
  | map entry, v =>
    (Cost.claim 8).followedBy (Cost.entries entry.keyed.entrySize (v.entries.map (fun e =>
      (Cost.claim (8 + (textBytes e.1).length)).followedBy (entry.cost e.2))))
  | empty, _ => .free
  | field _ head rest, v => (head.cost v.1).followedBy (rest.cost v.2)

theorem read_reads (s : Shape) (hs : s.isSized = true) (v : s.Val) (hv : s.Representable v) :
    s.read.Reads (s.write v) v (s.cost v) := by
  induction s with
  | int => exact int32_reads v
  | long => exact int64_reads v
  | bool => exact bool_reads v
  | text => exact textField_reads v hv
  | bytes => exact bytes_reads v hv
  | uuid => exact uuid_reads v
  | value => exact DataValue.read_reads v hv
  | index => exact IndexValue.read_reads v
  | choice first others =>
    have hothers : others.length < Width.w32.size := by simpa [isSized] using hs
    exact variant_reads others.length hothers v
  | option item ih =>
    exact option_reads item.read item.write item.cost v (fun a ha => ih hs a (hv a ha))
  | list entry ih =>
    have hentry : entry.isSized = true := by
      simp only [isSized, Bool.and_eq_true] at hs
      exact hs.1
    exact list_reads entry.entrySize entry.read entry.write entry.cost v hv.1
      (fun a ha => ih hentry a (hv.2 a ha))
  | map entry ih =>
    have hentry : entry.isSized = true := by
      simp only [isSized, Bool.and_eq_true] at hs
      exact hs.1
    -- A map is the sequence of its entries; the order in its type makes it its own listing again.
    have hlist := list_reads entry.keyed.entrySize
      (do let key ← readTextField; let value ← entry.read; pure (key, value))
      (fun e : String × entry.Val => writeText e.1 ++ entry.write e.2) _ v.entries hv.1
      (fun e he => (textField_reads e.1 (hv.2 e he).1).bind
        ((ih hentry e.2 (hv.2 e he).2).map (Prod.mk e.1)))
    have hmap := hlist.map KeyMap.ofList
    rw [KeyMap.ofList_entries] at hmap
    exact hmap
  | empty => exact Reads.pure ()
  | field name head rest ihHead ihRest =>
    simp only [isSized, Bool.and_eq_true] at hs
    exact (ihHead hs.1 v.1 hv.1).bind ((ihRest hs.2 v.2 hv.2).map (Prod.mk v.1))

theorem representable_of_cost (s : Shape) (hs : s.isSized = true) (v : s.Val)
    (hcost : (s.cost v).need < Width.w64.size) : s.Representable v := by
  induction s with
  | text => exact Nat.lt_of_le_of_lt (Nat.le_add_left _ 8) hcost
  | bytes => exact Nat.lt_of_le_of_lt (Nat.le_add_left _ 8) hcost
  | value => exact DataValue.representable_of_cost hcost
  | option item ih =>
    intro a ha
    subst ha
    exact ih hs a (Cost.need_lt_of_followedBy hcost).2
  | list entry ih =>
    simp only [isSized, Bool.and_eq_true, decide_eq_true_eq] at hs
    have hentries := (Cost.need_lt_of_followedBy hcost).2
    have hlength := Cost.length_lt_of_entries hs.2 hentries
    rw [List.length_map] at hlength
    refine ⟨hlength, fun a ha => ?_⟩
    exact ih hs.1 a (Cost.need_lt_of_entries (List.mem_map_of_mem ha) hentries)
  | map entry ih =>
    simp only [isSized, Bool.and_eq_true, decide_eq_true_eq] at hs
    have hentries := (Cost.need_lt_of_followedBy hcost).2
    have hlength := Cost.length_lt_of_entries hs.2 hentries
    rw [List.length_map] at hlength
    refine ⟨hlength, fun e he => ?_⟩
    have hneed := Cost.need_lt_of_entries (List.mem_map_of_mem he) hentries
    have hentry := Cost.need_lt_of_followedBy hneed
    exact ⟨Nat.lt_of_le_of_lt (Nat.le_add_left _ 8) hentry.1, ih hs.1 e.2 hentry.2⟩
  | field name head rest ihHead ihRest =>
    simp only [isSized, Bool.and_eq_true] at hs
    have hparts := Cost.need_lt_of_followedBy hcost
    exact ⟨ihHead hs.1 v.1 hparts.1, ihRest hs.2 v.2 hparts.2⟩
  | _ => trivial

end Shape

end Etp
