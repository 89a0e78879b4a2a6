import Etp.Peer
import Mathlib.Data.List.Induction

/-!
# Negotiation

A negotiation settles every offered capability by itself, so what becomes of one name can be followed
through any number of offers (`Capabilities.get?_negotiate`).  An integer is each time the smaller one of
the two sides, moved into the published bounds.  To move it there after every offer is the same as to do
it once at the end, since the bounds keep the order of the integers: `Peer.negotiated_least` says that
only the least of all values counts.
-/

namespace Etp

namespace KeyMap

variable {α : Type}

theorem lookup_cons (key other : String) (value : α) (rest : List (String × α)) :
    ((key, value) :: rest).lookup other = if other = key then some value else rest.lookup other := by
  rw [List.lookup_cons]
  by_cases h : other = key
  · rw [if_pos h, beq_iff_eq.2 h]
  · rw [if_neg h, beq_eq_false_iff_ne.2 h]

theorem lookup_insertEntry (key other : String) (value : α) (entries : List (String × α)) :
    (insertEntry key value entries).lookup other =
      if other = key then some value else entries.lookup other := by
  induction entries with
  | nil => exact lookup_cons key other value []
  | cons head rest ih =>
    obtain ⟨k, v⟩ := head
    unfold insertEntry
    split
    case isTrue hlt => exact lookup_cons key other value _
    case isFalse hlt =>
      split
      case isTrue hkey =>
        subst hkey
        rw [lookup_cons, lookup_cons]
        by_cases h : other = key
        · rw [if_pos h, if_pos h]
        · rw [if_neg h, if_neg h, if_neg h]
      case isFalse hkey =>
        rw [lookup_cons, lookup_cons, ih]
        by_cases h : other = k
        · have hother : other ≠ key := h ▸ Ne.symm hkey
          rw [if_pos h, if_neg hother, if_pos h]
        · rw [if_neg h, if_neg h]

/-- What is under a key after another one, or the same, was set. -/
theorem get?_insert (m : KeyMap α) (key other : String) (value : α) :
    (m.insert key value).get? other = if other = key then some value else m.get? other :=
  lookup_insertEntry key other value m.entries

/-- A key before all others has no value. -/
theorem lookup_of_lt {key : String} {entries : List (String × α)} (h : ∀ entry ∈ entries, key < entry.1) :
    entries.lookup key = none := by
  apply List.lookup_eq_none_iff.2
  intro entry hentry
  have hne : key ≠ entry.1 := fun heq => String.lt_irrefl key (heq ▸ h entry hentry)
  simpa using hne

/-- A listing does not start before another one that has the same value under its first key. -/
theorem not_lt_of_lookup {k k' : String} {v v' : α} {rest rest' : List (String × α)}
    (hascending : ((k', v') :: rest').Pairwise (fun a b => a.1 < b.1))
    (h : ((k, v) :: rest).lookup k = ((k', v') :: rest').lookup k) : ¬ k < k' := by
  intro hlt
  have habove : ∀ entry ∈ (k', v') :: rest', k < entry.1 := by
    intro entry hentry
    rcases List.mem_cons.1 hentry with rfl | hentry
    · exact hlt
    · exact String.lt_trans hlt ((List.pairwise_cons.1 hascending).1 entry hentry)
  rw [lookup_of_lt habove, lookup_cons, if_pos rfl] at h
  cases h

theorem eq_of_lookup_eq {entries entries' : List (String × α)}
    (hentries : entries.Pairwise (fun a b => a.1 < b.1))
    (hentries' : entries'.Pairwise (fun a b => a.1 < b.1))
    (h : ∀ key, entries.lookup key = entries'.lookup key) : entries = entries' := by
  induction entries generalizing entries' with
  | nil =>
    cases entries' with
    | nil => rfl
    | cons head' rest' =>
      have hhead := h head'.1
      rw [lookup_cons, if_pos rfl] at hhead
      cases hhead
  | cons head rest ih =>
    obtain ⟨k, v⟩ := head
    cases entries' with
    | nil =>
      have hhead := h k
      rw [lookup_cons, if_pos rfl] at hhead
      cases hhead
    | cons head' rest' =>
      obtain ⟨k', v'⟩ := head'
      have hkey : k = k' :=
        String.le_antisymm (String.not_lt.1 (not_lt_of_lookup hentries (h k').symm))
          (String.not_lt.1 (not_lt_of_lookup hentries' (h k)))
      subst hkey
      have hvalue := h k
      rw [lookup_cons, lookup_cons, if_pos rfl, if_pos rfl] at hvalue
      obtain ⟨hhead, hrest⟩ := List.pairwise_cons.1 hentries
      obtain ⟨hhead', hrest'⟩ := List.pairwise_cons.1 hentries'
      have hlater : ∀ key, rest.lookup key = rest'.lookup key := by
        intro key
        by_cases hkey : key = k
        · rw [hkey, lookup_of_lt hhead, lookup_of_lt hhead']
        · have hlookup := h key
          rwa [lookup_cons, lookup_cons, if_neg hkey, if_neg hkey] at hlookup
      rw [Option.some.inj hvalue, ih hrest hrest' hlater]

/-- Two maps with the same value under every key are the same. -/
theorem ext_get? {m m' : KeyMap α} (h : ∀ key, m.get? key = m'.get? key) : m = m' :=
  ext (eq_of_lookup_eq m.ascending m'.ascending h)

end KeyMap

namespace DataValue

/-- The integer is one of 64 bits. -/
def IsWide (i : Int) : Prop := ∃ v : Int64, v.toInt = i

theorem IsWide.min {i j : Int} (hi : IsWide i) (hj : IsWide j) : IsWide (min i j) := by
  by_cases h : i ≤ j
  · rw [Int.min_eq_left h]
    exact hi
  · rw [Int.min_eq_right (Int.le_of_not_le h)]
    exact hj

theorem IsWide.max {i j : Int} (hi : IsWide i) (hj : IsWide j) : IsWide (max i j) := by
  by_cases h : i ≤ j
  · rw [Int.max_eq_right h]
    exact hj
  · rw [Int.max_eq_left (Int.le_of_not_le h)]
    exact hi

theorem isWide_of_asInteger {v : DataValue} {i : Int} (h : v.asInteger = some i) : IsWide i := by
  cases v with
  | int v =>
    obtain rfl : v.toInt = i := by simpa [asInteger] using h
    exact ⟨v.toInt64, Int32.toInt_toInt64 v⟩
  | long v =>
    obtain rfl : v.toInt = i := by simpa [asInteger] using h
    exact ⟨v, rfl⟩
  | _ => cases h

/-- Integers compare exactly, whatever their width. -/
theorem compare_of_asInteger {v w : DataValue} {i j : Int} (hv : v.asInteger = some i)
    (hw : w.asInteger = some j) : v.compare w = some (Ord.compare i j) := by
  cases v with
  | int | long =>
    cases w with
    | int | long =>
      cases hv
      cases hw
      rfl
    | _ => cases hw
  | _ => cases hv

end DataValue

/-! ## Bounds -/

namespace Capability

theorem isWide_lower {c : Capability} {bound : Int} (h : c.lower = some bound) :
    DataValue.IsWide bound := by
  refine ⟨Int64.ofInt bound, ?_⟩
  cases c <;> cases h <;> decide

theorem isWide_upper {c : Capability} {bound : Int} (h : c.upper = some bound) :
    DataValue.IsWide bound := by
  refine ⟨Int64.ofInt bound, ?_⟩
  cases c <;> cases h
  decide

theorem lower_le_upper {c : Capability} {lower upper : Int} (hlower : c.lower = some lower)
    (hupper : c.upper = some upper) : lower ≤ upper := by
  cases c <;> cases hlower
  all_goals cases hupper
  decide

theorem lower_le_clampInt {c : Capability} {bound : Int} (h : c.lower = some bound) (i : Int) :
    bound ≤ c.clampInt i := by
  unfold clampInt
  rw [h]
  cases hupper : c.upper with
  | none =>
    simp only
    omega
  | some upper =>
    have hle := lower_le_upper h hupper
    simp only
    omega

theorem clampInt_le_upper {c : Capability} {bound : Int} (h : c.upper = some bound) (i : Int) :
    c.clampInt i ≤ bound := by
  unfold clampInt
  rw [h]
  cases c.lower with
  | none =>
    simp only
    omega
  | some lower =>
    simp only
    omega

/-- The bounds do not change the order of two integers. -/
theorem clampInt_min (c : Capability) (i j : Int) :
    c.clampInt (min i j) = min (c.clampInt i) (c.clampInt j) := by
  unfold clampInt
  cases c.lower <;> cases c.upper <;> simp only <;> omega

/-- Only the lower bound raises an integer. -/
theorem clampInt_le (c : Capability) (i : Int) :
    c.lower = some (c.clampInt i) ∨ c.clampInt i ≤ i := by
  cases hlower : c.lower with
  | none =>
    right
    unfold clampInt
    rw [hlower]
    cases c.upper <;> simp only <;> omega
  | some lower =>
    by_cases hi : lower ≤ i
    · right
      unfold clampInt
      rw [hlower]
      cases c.upper <;> simp only <;> omega
    · left
      have hlow := lower_le_clampInt hlower i
      unfold clampInt at hlow ⊢
      rw [hlower] at hlow ⊢
      cases hupper : c.upper with
      | none =>
        simp only [Option.some.injEq]
        omega
      | some upper =>
        have hle := lower_le_upper hlower hupper
        simp only [Option.some.injEq]
        omega

/-- An integer within the bounds stays as it is. -/
theorem clampInt_of_within {c : Capability} {i : Int} (hlower : ∀ bound, c.lower = some bound → bound ≤ i)
    (hupper : ∀ bound, c.upper = some bound → i ≤ bound) : c.clampInt i = i := by
  unfold clampInt
  cases hl : c.lower with
  | none =>
    cases hu : c.upper with
    | none => rfl
    | some upper => exact Int.min_eq_left (hupper upper hu)
  | some lower =>
    have hraised : max i lower = i := Int.max_eq_left (hlower lower hl)
    cases hu : c.upper with
    | none => exact hraised
    | some upper =>
      simp only [hraised]
      exact Int.min_eq_left (hupper upper hu)

theorem clampInt_clampInt (c : Capability) (i : Int) : c.clampInt (c.clampInt i) = c.clampInt i :=
  clampInt_of_within (fun _ h => lower_le_clampInt h i) (fun _ h => clampInt_le_upper h i)

/-- The bounds have 64 bits, so an integer does not leave the 64 bits for their sake. -/
theorem isWide_clampInt (c : Capability) {i : Int} (h : DataValue.IsWide i) :
    DataValue.IsWide (c.clampInt i) := by
  unfold clampInt
  cases hl : c.lower with
  | none =>
    cases hu : c.upper with
    | none => exact h
    | some upper => exact h.min (isWide_upper hu)
  | some lower =>
    cases hu : c.upper with
    | none => exact h.max (isWide_lower hl)
    | some upper => exact (h.max (isWide_lower hl)).min (isWide_upper hu)

/-- Whether it becomes wider or not, a value within the bounds is the integer within the bounds. -/
theorem asInteger_clamp {c : Capability} {v : DataValue} {i : Int} (h : v.asInteger = some i) :
    (c.clamp v).asInteger = some (c.clampInt i) := by
  have hwide : (Int64.ofInt (c.clampInt i)).toInt = c.clampInt i := by
    obtain ⟨w, hw⟩ := c.isWide_clampInt (DataValue.isWide_of_asInteger h)
    rw [← hw, Int64.ofInt_toInt]
  cases v with
  | int v =>
    obtain rfl : v.toInt = i := by simpa [DataValue.asInteger] using h
    simp only [clamp]
    split
    case isTrue hnarrow => simp only [DataValue.asInteger, ← hnarrow]
    case isFalse => simp only [DataValue.asInteger, hwide]
  | long v =>
    obtain rfl : v.toInt = i := by simpa [DataValue.asInteger] using h
    simp only [clamp, DataValue.asInteger, hwide]
  | _ => cases h

end Capability

/-! ## The least of several integers -/

theorem min?_concat {values : List Int} {least : Int} (h : values.min? = some least) (j : Int) :
    (values ++ [j]).min? = some (min least j) := by
  obtain ⟨hmem, hle⟩ := List.min?_eq_some_iff.1 h
  apply List.min?_eq_some_iff.2
  constructor
  · by_cases hlt : least ≤ j
    · rw [Int.min_eq_left hlt]
      exact List.mem_append_left _ hmem
    · rw [Int.min_eq_right (Int.le_of_not_le hlt)]
      exact List.mem_append_right _ (List.mem_singleton.2 rfl)
  · intro value hvalue
    rcases List.mem_append.1 hvalue with hvalue | hvalue
    · exact Int.le_trans (Int.min_le_left least j) (hle value hvalue)
    · rw [List.mem_singleton.1 hvalue]
      exact Int.min_le_right least j

/-- The least value depends on what the values are, and not on their order or repetition. -/
theorem min?_congr {values others : List Int} (h : ∀ i, i ∈ others ↔ i ∈ values) :
    others.min? = values.min? := by
  cases hleast : values.min? with
  | none =>
    rw [List.min?_eq_none_iff] at hleast ⊢
    subst hleast
    exact List.eq_nil_iff_forall_not_mem.2 (fun i hi => List.not_mem_nil ((h i).1 hi))
  | some least =>
    obtain ⟨hmem, hle⟩ := List.min?_eq_some_iff.1 hleast
    exact List.min?_eq_some_iff.2 ⟨(h least).2 hmem, fun i hi => hle i ((h i).1 hi)⟩

namespace Capabilities

/-! ## One offer -/

/-- An integer within the bounds of the capability with a name, if one has it. -/
def boundedInt (name : String) (i : Int) : Int :=
  match Capability.named? name with
  | none => i
  | some c => c.clampInt i

/-- The published lower bound of the capability with a name. -/
def lowest (name : String) : Option Int := (Capability.named? name).bind Capability.lower

/-- The published upper bound of the capability with a name. -/
def highest (name : String) : Option Int := (Capability.named? name).bind Capability.upper

theorem lowest_le_boundedInt {name : String} {bound : Int} (h : lowest name = some bound) (i : Int) :
    bound ≤ boundedInt name i := by
  obtain ⟨c, hc, hlower⟩ := Option.bind_eq_some_iff.1 h
  simp only [boundedInt, hc]
  exact Capability.lower_le_clampInt hlower i

theorem boundedInt_le_highest {name : String} {bound : Int} (h : highest name = some bound) (i : Int) :
    boundedInt name i ≤ bound := by
  obtain ⟨c, hc, hupper⟩ := Option.bind_eq_some_iff.1 h
  simp only [boundedInt, hc]
  exact Capability.clampInt_le_upper hupper i

/-- An integer is raised to the lower bound or not at all. -/
theorem boundedInt_le (name : String) (i : Int) :
    lowest name = some (boundedInt name i) ∨ boundedInt name i ≤ i := by
  unfold lowest boundedInt
  cases Capability.named? name with
  | none => exact .inr (Int.le_refl i)
  | some c => exact c.clampInt_le i

theorem boundedInt_min (name : String) (i j : Int) :
    boundedInt name (min i j) = min (boundedInt name i) (boundedInt name j) := by
  unfold boundedInt
  cases Capability.named? name with
  | none => rfl
  | some c => exact c.clampInt_min i j

theorem boundedInt_boundedInt (name : String) (i : Int) :
    boundedInt name (boundedInt name i) = boundedInt name i := by
  unfold boundedInt
  cases Capability.named? name with
  | none => rfl
  | some c => exact c.clampInt_clampInt i

/-- It does not matter whether one of two integers was moved into the bounds before. -/
theorem boundedInt_min_boundedInt (name : String) (i j : Int) :
    boundedInt name (min (boundedInt name i) j) = boundedInt name (min i j) := by
  rw [boundedInt_min, boundedInt_boundedInt, ← boundedInt_min]

theorem asInteger_bounded {name : String} {v : DataValue} {i : Int} (h : v.asInteger = some i) :
    (bounded name v).asInteger = some (boundedInt name i) := by
  unfold bounded boundedInt
  cases Capability.named? name with
  | none => exact h
  | some c => exact Capability.asInteger_clamp h

theorem get?_settle (cs : Capabilities) (name other : String) (value : DataValue) :
    (cs.settle (name, value)).get? other =
      if other = name then some (bounded name (agree (cs.get? name) value)) else cs.get? other :=
  KeyMap.get?_insert cs name other _

/-- What a negotiation makes of one name: an offer is settled, and without one nothing changes. -/
theorem get?_negotiate (cs offers : Capabilities) (name : String) :
    (cs.negotiate offers).get? name =
      match offers.get? name with
      | none => cs.get? name
      | some offered => some (bounded name (agree (cs.get? name) offered)) := by
  obtain ⟨entries, hascending⟩ := offers
  simp only [negotiate, KeyMap.get?]
  -- The keys differ, so the offer under the name is settled against the value from before.
  induction entries generalizing cs with
  | nil => rfl
  | cons entry entries ih =>
    obtain ⟨key, offered⟩ := entry
    obtain ⟨hkey, hrest⟩ := List.pairwise_cons.1 hascending
    have hsettled := cs.get?_settle key name offered
    simp only [KeyMap.get?] at hsettled
    rw [List.foldl_cons, ih _ hrest, KeyMap.lookup_cons, hsettled]
    by_cases hname : name = key
    · subst hname
      rw [KeyMap.lookup_of_lt hkey, if_pos rfl, if_pos rfl]
    · rw [if_neg hname, if_neg hname]

/-- An integer offer leaves the smaller one of the two sides, within the bounds. -/
theorem asInteger_agree {own offered : DataValue} {i j : Int} (hown : own.asInteger = some i)
    (hoffered : offered.asInteger = some j) : (agree (some own) offered).asInteger = some (min i j) := by
  simp only [agree, DataValue.compare_of_asInteger hoffered hown]
  by_cases hlt : i < j
  · rw [if_pos (by simpa [Int.compare_eq_gt] using hlt), hown, Int.min_eq_left (Int.le_of_lt hlt)]
  · rw [if_neg (by simpa [Int.compare_eq_gt] using hlt), hoffered,
      Int.min_eq_right (Int.not_lt.1 hlt)]

theorem integer?_negotiate_absent {cs offers : Capabilities} {name : String} {j : Int}
    (hown : cs.get? name = none) (hoffered : offers.integer? name = some j) :
    (cs.negotiate offers).integer? name = some (boundedInt name j) := by
  obtain ⟨offered, hget, hj⟩ := Option.bind_eq_some_iff.1 hoffered
  rw [integer?, get?_negotiate, hget, hown]
  exact asInteger_bounded hj

theorem integer?_negotiate {cs offers : Capabilities} {name : String} {i j : Int}
    (hown : cs.integer? name = some i) (hoffered : offers.integer? name = some j) :
    (cs.negotiate offers).integer? name = some (boundedInt name (min i j)) := by
  obtain ⟨own, hgetOwn, hi⟩ := Option.bind_eq_some_iff.1 hown
  obtain ⟨offered, hget, hj⟩ := Option.bind_eq_some_iff.1 hoffered
  rw [integer?, get?_negotiate, hget, hgetOwn]
  exact asInteger_bounded (asInteger_agree hi hj)

/-! ## Several offers -/

/-- The integers that take part in the negotiation of a name: the own one, if there is one, and those
that are offered. -/
def integers (cs : Capabilities) (offers : List Capabilities) (name : String) : List Int :=
  (cs.integer? name).toList ++ offers.filterMap (·.integer? name)

theorem mem_integers {cs : Capabilities} {offers : List Capabilities} {name : String} {i : Int} :
    i ∈ cs.integers offers name ↔
      cs.integer? name = some i ∨ ∃ o ∈ offers, o.integer? name = some i := by
  simp [integers]

theorem integers_concat (cs : Capabilities) (earlier : List Capabilities) {offers : Capabilities}
    {name : String} {j : Int} (h : offers.integer? name = some j) :
    cs.integers (earlier ++ [offers]) name = cs.integers earlier name ++ [j] := by
  simp [integers, h]

/-- A value that is absent or an integer. -/
def IsIntegerOrAbsent (cs : Capabilities) (name : String) : Prop :=
  cs.get? name = none ∨ (cs.integer? name).isSome

theorem integer?_foldl_negotiate {cs : Capabilities} {name : String}
    (hown : cs.IsIntegerOrAbsent name) {offers : List Capabilities} (hne : offers ≠ [])
    (hoffers : ∀ o ∈ offers, (o.integer? name).isSome) :
    ∃ least, (cs.integers offers name).min? = some least ∧
      (offers.foldl negotiate cs).integer? name = some (boundedInt name least) := by
  -- The last offer meets what the earlier ones have left, which was moved into the bounds already.
  induction offers using List.reverseRecOn with
  | nil => exact absurd rfl hne
  | append_singleton earlier last ih =>
    obtain ⟨j, hj⟩ := Option.isSome_iff_exists.1 (hoffers last (by simp))
    have hearlier : ∀ o ∈ earlier, (o.integer? name).isSome :=
      fun o ho => hoffers o (List.mem_append_left _ ho)
    rw [integers_concat cs earlier hj, List.foldl_append]
    simp only [List.foldl_cons, List.foldl_nil]
    by_cases hfirst : earlier = []
    · subst hfirst
      rcases hown with habsent | hinteger
      · refine ⟨j, ?_, integer?_negotiate_absent habsent hj⟩
        simp [integers, integer?, habsent]
      · obtain ⟨i, hi⟩ := Option.isSome_iff_exists.1 hinteger
        refine ⟨min i j, ?_, integer?_negotiate hi hj⟩
        apply min?_concat
        simp [integers, hi]
    · obtain ⟨least, hleast, hsettled⟩ := ih hfirst hearlier
      refine ⟨min least j, min?_concat hleast j, ?_⟩
      rw [integer?_negotiate hsettled hj, boundedInt_min_boundedInt]

/-- A name that is not offered keeps its value. -/
theorem get?_foldl_negotiate {cs : Capabilities} {offers : List Capabilities} {name : String}
    (hoffers : ∀ o ∈ offers, o.get? name = none) :
    (offers.foldl negotiate cs).get? name = cs.get? name := by
  induction offers generalizing cs with
  | nil => rfl
  | cons first offers ih =>
    obtain ⟨hfirst, hrest⟩ := List.forall_mem_cons.1 hoffers
    rw [List.foldl_cons, ih hrest, get?_negotiate, hfirst]

end Capabilities

namespace Peer

open Capabilities

theorem capabilities_foldl_negotiate (offers : List Capabilities) (p : Peer) :
    (offers.foldl negotiate p).capabilities = offers.foldl Capabilities.negotiate p.capabilities := by
  induction offers generalizing p with
  | nil => rfl
  | cons first offers ih => exact ih (p.negotiate first)

/-- After any number of offers, the integer in force is the least one of the own and all offered values,
moved into the published bounds.  So neither the order nor the repetition of the offers counts; the
integer is within the bounds and, unless it was raised to the lower one, not above any of the values.
What was never offered is as it was. -/
theorem negotiated_least (p : Peer) (offers : List Capabilities) :
    let after := (offers.foldl negotiate p).capabilities
    (∀ name, p.capabilities.IsIntegerOrAbsent name → offers ≠ [] →
      (∀ o ∈ offers, (o.integer? name).isSome) →
      let values := p.capabilities.integers offers name
      (∃ least, values.min? = some least ∧ after.integer? name = some (boundedInt name least)) ∧
        (∀ others : List Capabilities, (∀ o, o ∈ others ↔ o ∈ offers) →
          (others.foldl negotiate p).capabilities.integer? name = after.integer? name) ∧
        ∀ i, after.integer? name = some i →
          (∀ bound, lowest name = some bound → bound ≤ i) ∧
          (∀ bound, highest name = some bound → i ≤ bound) ∧
          ∀ value ∈ values, lowest name = some i ∨ i ≤ value) ∧
      ∀ name, (∀ o ∈ offers, o.get? name = none) → after.get? name = p.capabilities.get? name := by
  intro after
  constructor
  · intro name hown hne hoffers values
    obtain ⟨least, hleast, hafter⟩ := integer?_foldl_negotiate hown hne hoffers
    rw [← capabilities_foldl_negotiate] at hafter
    have hbelow := (List.min?_eq_some_iff.1 hleast).2
    refine ⟨⟨least, hleast, hafter⟩, ?_, ?_⟩
    · intro others hothers
      have hsame : (p.capabilities.integers others name).min? = some least := by
        rw [← hleast]
        apply min?_congr
        intro i
        simp only [mem_integers, hothers]
      have hne' : others ≠ [] := by
        rintro rfl
        exact hne (List.eq_nil_iff_forall_not_mem.2 (fun o ho => List.not_mem_nil ((hothers o).2 ho)))
      obtain ⟨least', hleast', hafter'⟩ := integer?_foldl_negotiate hown hne'
        (fun o ho => hoffers o ((hothers o).1 ho))
      obtain rfl : least' = least := Option.some.inj (hleast'.symm.trans hsame)
      rw [capabilities_foldl_negotiate, hafter']
      exact hafter.symm
    · intro i hi
      obtain rfl : boundedInt name least = i := Option.some.inj (hafter.symm.trans hi)
      refine ⟨fun bound h => lowest_le_boundedInt h least,
        fun bound h => boundedInt_le_highest h least, ?_⟩
      intro value hvalue
      rcases boundedInt_le name least with hraised | hle
      · exact .inl hraised
      · exact .inr (Int.le_trans hle (hbelow value hvalue))
  · intro name hoffers
    simp only [after, capabilities_foldl_negotiate]
    exact get?_foldl_negotiate hoffers

/-- A peer with a long period and a limit of its own. -/
def patientPeer : Peer :=
  { Peer.new 1 anonymous unspecifiedIp with
    capabilities := KeyMap.ofList
      [(Capability.changePropagationPeriod.name, .int 900), ("VendorLimit", .long 3)] }

/-- Offers of one period after the other. -/
def offeredPeriods : List Capabilities :=
  [.long 700, .int 0, .int 5].map (fun value =>
    KeyMap.ofList [(Capability.changePropagationPeriod.name, value)])

/-- The least of the values is below the published bound, so it is raised. -/
theorem negotiated_least_raised :
    let name := Capability.changePropagationPeriod.name
    let after := (offeredPeriods.foldl negotiate patientPeer).capabilities
    patientPeer.capabilities.IsIntegerOrAbsent name ∧ offeredPeriods ≠ [] ∧
      (∀ o ∈ offeredPeriods, (o.integer? name).isSome) ∧
      (patientPeer.capabilities.integers offeredPeriods name).min? = some 0 ∧
      lowest name = some 1 ∧ after.integer? name = some 1 ∧
      (offeredPeriods.reverse.foldl negotiate patientPeer).capabilities.integer? name = some 1 ∧
      after.get? "VendorLimit" = some (.long 3) := by
  intro name after
  have hown : patientPeer.capabilities.IsIntegerOrAbsent name := .inr (by decide +kernel)
  have hne : offeredPeriods ≠ [] := by decide +kernel
  have hoffers : ∀ o ∈ offeredPeriods, (o.integer? name).isSome := by decide +kernel
  obtain ⟨hoffered, hother⟩ := negotiated_least patientPeer offeredPeriods
  obtain ⟨⟨least, hleast, hafter⟩, horder, -⟩ := hoffered name hown hne hoffers
  have hmin : (patientPeer.capabilities.integers offeredPeriods name).min? = some 0 := by
    decide +kernel
  have hone : after.integer? name = some 1 := by
    obtain rfl : least = 0 := Option.some.inj (hleast.symm.trans hmin)
    exact hafter.trans (by decide +kernel)
  refine ⟨hown, hne, hoffers, hmin, by decide +kernel, hone, ?_, ?_⟩
  · exact (horder offeredPeriods.reverse (fun _ => List.mem_reverse)).trans hone
  · exact (hother "VendorLimit" (by decide +kernel)).trans (by decide +kernel)

end Peer

end Etp
