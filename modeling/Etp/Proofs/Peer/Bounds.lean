import Etp.Proofs.Number.Widening
import Etp.Proofs.Peer.Negotiation

/-!
# Numbers of several kinds within bounds

The published bounds are integers that every kind of number holds exactly and tells from the next integer
(`Plain`).  So whether a number is below a bound is the same question for numbers of every kind, and its
answer is told by the place among the 64-bit floating-point numbers, `DataValue.rank?`.  `clamp_of_within`,
`clamp_of_low` and `clamp_of_high` say what moving a number into the bounds makes of it: the number itself,
or the bound, written as a number of the same kind.
-/

namespace Etp

open Number Number.Format

/-! ## Bounds of any order -/

namespace Number

section Ordered

variable {α : Type}

/-- The value, raised to a bound unless it is at least that. -/
def raisedBy (compare : α → α → Option Ordering) : (lower : Option α) → α → α
  | none, a => a
  | some bound, a => if atMost (compare bound a) then a else bound

/-- The value, lowered to a bound unless it is at most that. -/
def loweredBy (compare : α → α → Option Ordering) : (upper : Option α) → α → α
  | none, a => a
  | some bound, a => if atMost (compare a bound) then a else bound

theorem clampBy_eq (compare : α → α → Option Ordering) (lower upper : Option α) (a : α) :
    clampBy compare lower upper a = loweredBy compare upper (raisedBy compare lower a) := by
  cases lower with
  | none => cases upper <;> rfl
  | some l => cases upper <;> rfl

/-- Values are ordered as their ranks are, and integers among the values as integers, but for those that
become the same value. -/
structure Ordered (compare : α → α → Option Ordering) (rank : α → Option Int) (ofInt : Int → α)
    (rankOfInt : Int → Int) : Prop where
  compare_eq : ∀ a b x y, rank a = some x → rank b = some y → compare a b = some (Ord.compare x y)
  rank_ofInt : ∀ i, rank (ofInt i) = some (rankOfInt i)
  mono : ∀ i j, i ≤ j → rankOfInt i ≤ rankOfInt j

namespace Ordered

variable {compare : α → α → Option Ordering} {rank : α → Option Int} {ofInt : Int → α}
  {rankOfInt : Int → Int} (h : Ordered compare rank ofInt rankOfInt)
  {lower upper : Option Int} {a b : α} {x y i : Int}

include h

theorem atMost_compare (ha : rank a = some x) (hb : rank b = some y) :
    atMost (compare a b) = decide (x ≤ y) := by
  rw [h.compare_eq a b x y ha hb]
  by_cases hle : x ≤ y
  · have hne : Ord.compare x y ≠ .gt := by
      intro hgt
      rw [Int.compare_eq_gt] at hgt
      omega
    rw [decide_eq_true hle]
    cases horder : Ord.compare x y with
    | lt => rfl
    | eq => rfl
    | gt => exact absurd horder hne
  · have hgt : Ord.compare x y = .gt := by
      rw [Int.compare_eq_gt]
      omega
    rw [hgt, decide_eq_false hle]
    rfl

theorem raisedBy_of_le (ha : rank a = some x) (hlower : ∀ i, lower = some i → rankOfInt i ≤ x) :
    raisedBy compare (lower.map ofInt) a = a := by
  cases lower with
  | none => rfl
  | some i =>
    rw [Option.map_some, raisedBy, h.atMost_compare (h.rank_ofInt i) ha,
      decide_eq_true (hlower i rfl)]
    rfl

theorem raisedBy_of_lt (ha : rank a = some x) (hlt : x < rankOfInt i) :
    raisedBy compare (some (ofInt i)) a = ofInt i := by
  rw [raisedBy, h.atMost_compare (h.rank_ofInt i) ha, decide_eq_false (Int.not_le.2 hlt)]
  rfl

theorem loweredBy_of_le (ha : rank a = some x) (hupper : ∀ i, upper = some i → x ≤ rankOfInt i) :
    loweredBy compare (upper.map ofInt) a = a := by
  cases upper with
  | none => rfl
  | some i =>
    rw [Option.map_some, loweredBy, h.atMost_compare ha (h.rank_ofInt i),
      decide_eq_true (hupper i rfl)]
    rfl

theorem loweredBy_of_lt (ha : rank a = some x) (hlt : rankOfInt i < x) :
    loweredBy compare (some (ofInt i)) a = ofInt i := by
  rw [loweredBy, h.atMost_compare ha (h.rank_ofInt i), decide_eq_false (Int.not_le.2 hlt)]
  rfl

theorem clampBy_of_within (ha : rank a = some x) (hlower : ∀ i, lower = some i → rankOfInt i ≤ x)
    (hupper : ∀ i, upper = some i → x ≤ rankOfInt i) :
    clampBy compare (lower.map ofInt) (upper.map ofInt) a = a := by
  rw [clampBy_eq, h.raisedBy_of_le ha hlower, h.loweredBy_of_le ha hupper]

theorem clampBy_of_low (ha : rank a = some x) (hlt : x < rankOfInt i)
    (hupper : ∀ j, upper = some j → i ≤ j) :
    clampBy compare (some (ofInt i)) (upper.map ofInt) a = ofInt i := by
  have hbelow : ∀ j, upper = some j → rankOfInt i ≤ rankOfInt j :=
    fun j hj => h.mono i j (hupper j hj)
  rw [clampBy_eq, h.raisedBy_of_lt ha hlt, h.loweredBy_of_le (h.rank_ofInt i) hbelow]

theorem clampBy_of_high (ha : rank a = some x) (hlt : rankOfInt i < x)
    (hlower : ∀ j, lower = some j → j ≤ i) :
    clampBy compare (lower.map ofInt) (some (ofInt i)) a = ofInt i := by
  have habove : ∀ j, lower = some j → rankOfInt j ≤ x := by
    intro j hj
    have hmono := h.mono j i (hlower j hj)
    omega
  rw [clampBy_eq, h.raisedBy_of_le ha habove, h.loweredBy_of_lt ha hlt]

/-- Bounds are admitted themselves, so what was moved into them stays there.  The value need not have a
rank: what compares with nothing becomes a bound or stays what it is. -/
theorem clampBy_clampBy (hbounds : ∀ i j, lower = some i → upper = some j → i ≤ j) :
    clampBy compare (lower.map ofInt) (upper.map ofInt)
        (clampBy compare (lower.map ofInt) (upper.map ofInt) a) =
      clampBy compare (lower.map ofInt) (upper.map ofInt) a := by
  rw [clampBy_eq, clampBy_eq]
  have hraised : raisedBy compare (lower.map ofInt) (raisedBy compare (lower.map ofInt) a) =
      raisedBy compare (lower.map ofInt) a := by
    cases lower with
    | none => rfl
    | some i =>
      by_cases hle : atMost (compare (ofInt i) a) = true
      · simp only [Option.map_some, raisedBy, if_pos hle]
      · have hbound : raisedBy compare ((some i).map ofInt) (ofInt i) = ofInt i :=
          h.raisedBy_of_le (h.rank_ofInt i) (by rintro j ⟨⟩; exact Int.le_refl _)
        simp only [Option.map_some, raisedBy, if_neg hle] at hbound ⊢
        exact hbound
  generalize raisedBy compare (lower.map ofInt) a = b at hraised ⊢
  cases upper with
  | none => exact hraised
  | some j =>
    by_cases hle : atMost (compare b (ofInt j)) = true
    · simp only [Option.map_some, loweredBy, if_pos hle, hraised]
    · have hlowered : loweredBy compare ((some j).map ofInt) b = ofInt j := if_neg hle
      rw [hlowered, h.raisedBy_of_le (h.rank_ofInt j)
        (fun i hi => h.mono i j (hbounds i j hi rfl))]
      exact h.loweredBy_of_le (h.rank_ofInt j) (by rintro i ⟨⟩; exact Int.le_refl _)

end Ordered

end Ordered

theorem Double.ordered : Ordered Double.compare Double.rank Double.ofInt double.rankOfInt where
  compare_eq := fun _ _ _ _ => Format.compare_eq
  rank_ofInt := Double.rank_ofInt
  mono := fun _ _ => rankOfInt_mono (by decide)

theorem Single.ordered : Ordered Single.compare Single.rank Single.ofInt single.rankOfInt where
  compare_eq := fun _ _ _ _ => Format.compare_eq
  rank_ofInt := Single.rank_ofInt
  mono := fun _ _ => rankOfInt_mono (by decide)

/-- What was moved into bounds is the value itself or a bound. -/
theorem clampBy_eq_or {α : Type} (compare : α → α → Option Ordering) (ofInt : Int → α)
    (lower upper : Option Int) (a : α) :
    clampBy compare (lower.map ofInt) (upper.map ofInt) a = a ∨
      ∃ i, clampBy compare (lower.map ofInt) (upper.map ofInt) a = ofInt i := by
  rw [clampBy_eq]
  have hraised : raisedBy compare (lower.map ofInt) a = a ∨
      ∃ i, raisedBy compare (lower.map ofInt) a = ofInt i := by
    cases lower with
    | none => exact .inl rfl
    | some i =>
      rw [Option.map_some, raisedBy]
      split
      · exact .inl rfl
      · exact .inr ⟨i, rfl⟩
  cases upper with
  | none => exact hraised
  | some j =>
    rw [Option.map_some, loweredBy]
    split
    · exact hraised
    · exact .inr ⟨j, rfl⟩

theorem Single.quiet_quiet (a : Single) : a.quiet.quiet = a.quiet := by
  have hlt : single.quiet a.bits.toNat < UInt32.size := by
    unfold Format.quiet
    split
    · exact Nat.or_lt_two_pow a.bits.toNat_lt (by decide)
    · exact a.bits.toNat_lt
  have hbits : a.quiet.bits.toNat = single.quiet a.bits.toNat := UInt32.toNat_ofNat_of_lt' hlt
  have hquiet : single.quiet (single.quiet a.bits.toNat) = single.quiet a.bits.toNat := by
    unfold Format.quiet
    split
    · split
      · rw [Nat.or_assoc, Nat.or_self]
      · rfl
    · rfl
  rw [Single.quiet, hbits, hquiet]
  rfl

theorem Single.quiet_of_rank {a : Single} {x : Int} (h : a.rank = some x) : a.quiet = a := by
  have hnumber : single.isNaN a.bits.toNat = false := decide_eq_false (Nat.not_lt.2 (rank_eq_some h).1)
  unfold Single.quiet Format.quiet
  simp [hnumber]

end Number

/-! ## Kinds of numbers -/

theorem double_mono {i j : Int} (h : i ≤ j) : double.rankOfInt i ≤ double.rankOfInt j :=
  rankOfInt_mono (by decide) h

/-- The kinds of values that are numbers. -/
inductive NumberKind where
  | int
  | long
  | double
  | float
  deriving DecidableEq

/-- An integer as a number of a kind. -/
def NumberKind.write : NumberKind → Int → DataValue
  | int, i => .int (Int32.ofInt i)
  | long, i => .long (Int64.ofInt i)
  | double, i => .double (Double.ofInt i)
  | float, i => .float (Single.ofInt i)

namespace DataValue

/-- The kind of number that the value is, if it is one. -/
def numberKind? : DataValue → Option NumberKind
  | int _ => some .int
  | long _ => some .long
  | double _ => some .double
  | float _ => some .float
  | _ => none

/-- The place of a number among the 64-bit floating-point numbers. -/
def rank? (v : DataValue) : Option Int := v.asDouble.bind Double.rank

variable {v w : DataValue} {x y i : Int}

theorem rank?_of_asInteger (h : v.asInteger = some i) : v.rank? = some (Format.double.rankOfInt i) := by
  cases v with
  | int v =>
    obtain rfl : v.toInt = i := Option.some.inj h
    exact Double.rank_ofInt v.toInt
  | long v =>
    obtain rfl : v.toInt = i := Option.some.inj h
    exact Double.rank_ofInt v.toInt
  | _ => cases h

theorem rankOfInt_eq (h : v.asInteger = some i) (hv : v.rank? = some x) :
    Format.double.rankOfInt i = x := by
  rw [rank?_of_asInteger h] at hv
  exact Option.some.inj hv

/-- Two numbers that are not both integers compare as 64-bit floating-point numbers. -/
theorem compare_mixed {a b : Double} (hv : v.asDouble = some a) (hw : w.asDouble = some b)
    (hmixed : v.asInteger = none ∨ w.asInteger = none) : v.compare w = a.compare b := by
  cases v with
  | int | long =>
    cases w with
    | int | long =>
      rcases hmixed with hnone | hnone
      · cases hnone
      · cases hnone
    | double | float =>
      cases hv
      cases hw
      rfl
    | _ => cases hw
  | double | float =>
    cases w with
    | int | long | double | float =>
      cases hv
      cases hw
      rfl
    | _ => cases hw
  | _ => cases hv

theorem compare_of_rank? (hv : v.rank? = some x) (hw : w.rank? = some y)
    (hmixed : v.asInteger = none ∨ w.asInteger = none) :
    v.compare w = some (Ord.compare x y) := by
  obtain ⟨a, ha, hx⟩ := Option.bind_eq_some_iff.1 hv
  obtain ⟨b, hb, hy⟩ := Option.bind_eq_some_iff.1 hw
  rw [compare_mixed ha hb hmixed]
  exact Double.ordered.compare_eq a b x y hx hy

theorem asDouble_of_numberKind? {k : NumberKind} (h : v.numberKind? = some k) :
    ∃ a, v.asDouble = some a := by
  cases v with
  | int | long | double | float => exact ⟨_, rfl⟩
  | _ => cases h

/-- What is greater than a number is a number itself. -/
theorem numberKind?_of_gt {k : NumberKind} (hgt : v.compare w = some .gt)
    (hw : w.numberKind? = some k) : ∃ l, v.numberKind? = some l := by
  cases v with
  | int | long | double | float => exact ⟨_, rfl⟩
  | _ =>
    cases w with
    | int | long | double | float => cases hgt
    | _ => cases hw

/-- The greater one of two numbers has no lower place. -/
theorem ranks_of_gt {k : NumberKind} (hgt : v.compare w = some .gt) (hw : w.numberKind? = some k) :
    ∃ x y, v.rank? = some x ∧ w.rank? = some y ∧ y ≤ x := by
  obtain ⟨l, hv⟩ := numberKind?_of_gt hgt hw
  by_cases hmixed : v.asInteger = none ∨ w.asInteger = none
  · obtain ⟨a, ha⟩ := asDouble_of_numberKind? hv
    obtain ⟨b, hb⟩ := asDouble_of_numberKind? hw
    rw [compare_mixed ha hb hmixed] at hgt
    obtain ⟨x, hx, hrest⟩ := Option.bind_eq_some_iff.1 hgt
    obtain ⟨y, hy, horder⟩ := Option.bind_eq_some_iff.1 hrest
    refine ⟨x, y, ?_, ?_, ?_⟩
    · rw [rank?, ha]
      exact hx
    · rw [rank?, hb]
      exact hy
    · have hlt := Int.compare_eq_gt.1 (Option.some.inj horder)
      omega
  · obtain ⟨hnone, hnone'⟩ := not_or.1 hmixed
    obtain ⟨i, hi⟩ := Option.ne_none_iff_exists'.1 hnone
    obtain ⟨j, hj⟩ := Option.ne_none_iff_exists'.1 hnone'
    rw [compare_of_asInteger hi hj] at hgt
    have hlt := Int.compare_eq_gt.1 (Option.some.inj hgt)
    have hmono := double_mono (Int.le_of_lt hlt)
    exact ⟨_, _, rank?_of_asInteger hi, rank?_of_asInteger hj, hmono⟩

theorem rank_of_rank?_float {a : Single} {x : Int} (h : (float a).rank? = some x) :
    ∃ s, a.rank = some s ∧ widenedRank s = x := by
  have hwiden : (float a).rank? = a.widen.rank := rfl
  rw [hwiden, Single.rank_widen] at h
  exact Option.map_eq_some_iff.1 h

end DataValue

namespace NumberKind

theorem numberKind?_write (k : NumberKind) (i : Int) : (k.write i).numberKind? = some k := by
  cases k <;> rfl

theorem write_ne {k l : NumberKind} (h : k ≠ l) (i j : Int) : k.write i ≠ l.write j := by
  intro heq
  have hkind := numberKind?_write k i
  rw [heq, numberKind?_write] at hkind
  exact h (Option.some.inj hkind).symm

end NumberKind

/-- An integer that every kind of number holds exactly and tells from the integers next to it. -/
structure Plain (i : Int) : Prop where
  pos : 0 < i
  int_eq : (Int32.ofInt i).toInt = i
  long_eq : (Int64.ofInt i).toInt = i
  below : double.rankOfInt (i - 1) < double.rankOfInt i
  above : double.rankOfInt i < double.rankOfInt (i + 1)
  single_pos : 0 < single.rankOfInt i
  widened_eq : widenedRank (single.rankOfInt i) = double.rankOfInt i

namespace Plain

variable {i j : Int} (h : Plain i)

include h

theorem lt_iff : j < i ↔ double.rankOfInt j < double.rankOfInt i := by
  constructor
  · intro hlt
    have hmono : double.rankOfInt j ≤ double.rankOfInt (i - 1) := double_mono (by omega)
    exact Int.lt_of_le_of_lt hmono h.below
  · intro hlt
    by_contra hle
    have hmono : double.rankOfInt i ≤ double.rankOfInt j := double_mono (by omega)
    omega

theorem gt_iff : i < j ↔ double.rankOfInt i < double.rankOfInt j := by
  constructor
  · intro hlt
    have hmono : double.rankOfInt (i + 1) ≤ double.rankOfInt j := double_mono (by omega)
    exact Int.lt_of_lt_of_le h.above hmono
  · intro hlt
    by_contra hle
    have hmono : double.rankOfInt j ≤ double.rankOfInt i := double_mono (by omega)
    omega

theorem eq_of_rank_eq (hrank : double.rankOfInt j = double.rankOfInt i) : j = i := by
  have hlow := h.lt_iff (j := j)
  have hhigh := h.gt_iff (j := j)
  omega

theorem asInteger_int : (NumberKind.int.write i).asInteger = some i := congrArg some h.int_eq

theorem asInteger_long : (NumberKind.long.write i).asInteger = some i := congrArg some h.long_eq

theorem rank?_write (k : NumberKind) : (k.write i).rank? = some (double.rankOfInt i) := by
  cases k with
  | int => exact DataValue.rank?_of_asInteger h.asInteger_int
  | long => exact DataValue.rank?_of_asInteger h.asInteger_long
  | double => exact Double.rank_ofInt i
  | float =>
    have hrank : (DataValue.float (Single.ofInt i)).rank? = (Single.ofInt i).widen.rank := rfl
    rw [NumberKind.write, hrank, Single.rank_widen, Single.rank_ofInt, Option.map_some, h.widened_eq]

theorem double_pos : 0 < double.rankOfInt i := by
  have hpos := h.pos
  have hzero : double.rankOfInt 0 = 0 := by decide
  have hmono : double.rankOfInt 0 ≤ double.rankOfInt (i - 1) := double_mono (by omega)
  have hbelow := h.below
  omega

/-- A 32-bit number is on the same side of the integer before and after it is widened. -/
theorem single_lt_iff {a : Single} {s : Int} (ha : a.rank = some s) :
    s < single.rankOfInt i ↔ widenedRank s < double.rankOfInt i := by
  rw [← h.widened_eq]
  exact widenedRank_lt_iff (Single.rank_bounds ha) (Single.rank_bounds (Single.rank_ofInt i))

theorem single_gt_iff {a : Single} {s : Int} (ha : a.rank = some s) :
    single.rankOfInt i < s ↔ double.rankOfInt i < widenedRank s := by
  rw [← h.widened_eq]
  exact widenedRank_lt_iff (Single.rank_bounds (Single.rank_ofInt i)) (Single.rank_bounds ha)

/-- A number in the place of the integer is the integer, written as a number of its kind. -/
theorem eq_write {v : DataValue} {k : NumberKind} (hk : v.numberKind? = some k)
    (hv : v.rank? = some (double.rankOfInt i)) : v = k.write i := by
  cases v with
  | int v =>
    obtain rfl : NumberKind.int = k := Option.some.inj hk
    obtain rfl : v.toInt = i := h.eq_of_rank_eq (DataValue.rankOfInt_eq rfl hv)
    exact congrArg DataValue.int (Int32.ofInt_toInt v).symm
  | long v =>
    obtain rfl : NumberKind.long = k := Option.some.inj hk
    obtain rfl : v.toInt = i := h.eq_of_rank_eq (DataValue.rankOfInt_eq rfl hv)
    exact congrArg DataValue.long (Int64.ofInt_toInt v).symm
  | double a =>
    obtain rfl : NumberKind.double = k := Option.some.inj hk
    have hpos := h.double_pos
    exact congrArg DataValue.double (Double.eq_of_rank_eq hv (Double.rank_ofInt i) (by omega))
  | float a =>
    obtain rfl : NumberKind.float = k := Option.some.inj hk
    obtain ⟨s, hs, hwidened⟩ := DataValue.rank_of_rank?_float hv
    have hpos := h.single_pos
    have hlow := h.single_lt_iff hs
    have hhigh := h.single_gt_iff hs
    obtain rfl : s = single.rankOfInt i := by omega
    exact congrArg DataValue.float (Single.eq_of_rank_eq hs (Single.rank_ofInt i) (by omega))
  | _ => cases hk

/-- To compare a number with the integer is the same whatever kind the integer is written as. -/
theorem compare_write {v : DataValue} {x : Int} (hv : v.rank? = some x) (k : NumberKind) :
    v.compare (k.write i) = some .gt ↔ double.rankOfInt i < x := by
  by_cases hmixed : v.asInteger = none ∨ (k.write i).asInteger = none
  · rw [DataValue.compare_of_rank? hv (h.rank?_write k) hmixed, Option.some.injEq,
      Int.compare_eq_gt]
  · obtain ⟨hnone, hnone'⟩ := not_or.1 hmixed
    obtain ⟨j, hj⟩ := Option.ne_none_iff_exists'.1 hnone
    obtain rfl := DataValue.rankOfInt_eq hj hv
    have hi : (k.write i).asInteger = some i := by
      cases k with
      | int => exact h.asInteger_int
      | long => exact h.asInteger_long
      | double | float => exact absurd rfl hnone'
    rw [DataValue.compare_of_asInteger hj hi, Option.some.injEq, Int.compare_eq_gt]
    exact h.gt_iff

end Plain

namespace Capability

theorem plain_lower {c : Capability} {bound : Int} (h : c.lower = some bound) : Plain bound := by
  cases c <;> cases h
  all_goals
    exact ⟨by decide, by decide, by decide, by decide +kernel, by decide +kernel, by decide +kernel,
      by decide +kernel⟩

theorem plain_upper {c : Capability} {bound : Int} (h : c.upper = some bound) : Plain bound := by
  cases c <;> cases h
  exact ⟨by decide, by decide, by decide, by decide +kernel, by decide +kernel, by decide +kernel,
    by decide +kernel⟩

variable {c : Capability} {v : DataValue} {k : NumberKind} {x i j : Int}

theorem clampInt_of_low (hlower : c.lower = some i) (hlt : j < i) : c.clampInt j = i := by
  have hbound := lower_le_clampInt hlower j
  rcases c.clampInt_le j with hraised | hle
  · exact Option.some.inj (hraised.symm.trans hlower)
  · omega

theorem clampInt_of_high (hupper : c.upper = some i) (hlt : i < j) : c.clampInt j = i := by
  unfold clampInt
  rw [hupper]
  cases hlower : c.lower with
  | none => exact Int.min_eq_right (Int.le_of_lt hlt)
  | some lower =>
    have hle := lower_le_upper hlower hupper
    simp only
    omega

theorem clampInt_of_rank_within (hlower : ∀ i, c.lower = some i → double.rankOfInt i ≤ double.rankOfInt j)
    (hupper : ∀ i, c.upper = some i → double.rankOfInt j ≤ double.rankOfInt i) : c.clampInt j = j := by
  apply clampInt_of_within
  · intro i hi
    have hle := hlower i hi
    have hlt := (plain_lower hi).lt_iff (j := j)
    omega
  · intro i hi
    have hle := hupper i hi
    have hlt := (plain_upper hi).gt_iff (j := j)
    omega

/-- A number within the bounds stays as it is. -/
theorem clamp_of_within (hv : v.rank? = some x)
    (hlower : ∀ i, c.lower = some i → double.rankOfInt i ≤ x)
    (hupper : ∀ i, c.upper = some i → x ≤ double.rankOfInt i) : c.clamp v = v := by
  cases v with
  | int v =>
    obtain rfl := DataValue.rankOfInt_eq rfl hv
    have hwithin : c.clampInt v.toInt = v.toInt := clampInt_of_rank_within hlower hupper
    simp only [clamp, hwithin, Int32.ofInt_toInt, if_true]
  | long v =>
    obtain rfl := DataValue.rankOfInt_eq rfl hv
    have hwithin : c.clampInt v.toInt = v.toInt := clampInt_of_rank_within hlower hupper
    simp only [clamp, hwithin, Int64.ofInt_toInt]
  | double a => exact congrArg DataValue.double (Double.ordered.clampBy_of_within hv hlower hupper)
  | float a =>
    obtain ⟨s, hs, rfl⟩ := DataValue.rank_of_rank?_float hv
    have hquiet := Single.quiet_of_rank hs
    have hlower' : ∀ i, c.lower = some i → single.rankOfInt i ≤ s := by
      intro i hi
      have hle := hlower i hi
      have hlt := (plain_lower hi).single_lt_iff hs
      omega
    have hupper' : ∀ i, c.upper = some i → s ≤ single.rankOfInt i := by
      intro i hi
      have hle := hupper i hi
      have hlt := (plain_upper hi).single_gt_iff hs
      omega
    have hclamp : a.clamp c.lower c.upper = a := by
      rw [Single.clamp, hquiet]
      exact Single.ordered.clampBy_of_within hs hlower' hupper'
    exact congrArg DataValue.float hclamp
  | _ => rfl

/-- How a number becomes a bound: as an integer or as a floating-point number, and so of its kind. -/
theorem clamp_eq_write (hplain : Plain i) (hk : v.numberKind? = some k)
    (hinteger : ∀ j, v.asInteger = some j → c.clampInt j = i)
    (hdouble : ∀ a, v = .double a → a.clamp c.lower c.upper = Double.ofInt i)
    (hsingle : ∀ a, v = .float a → a.clamp c.lower c.upper = Single.ofInt i) :
    c.clamp v = k.write i := by
  cases v with
  | int v =>
    obtain rfl : NumberKind.int = k := Option.some.inj hk
    have hclamp := hinteger v.toInt rfl
    simp only [clamp, hclamp, hplain.int_eq, if_true]
    rfl
  | long v =>
    obtain rfl : NumberKind.long = k := Option.some.inj hk
    have hclamp := hinteger v.toInt rfl
    simp only [clamp, hclamp]
    rfl
  | double a =>
    obtain rfl : NumberKind.double = k := Option.some.inj hk
    exact congrArg DataValue.double (hdouble a rfl)
  | float a =>
    obtain rfl : NumberKind.float = k := Option.some.inj hk
    exact congrArg DataValue.float (hsingle a rfl)
  | _ => cases hk

/-- A number below the bounds becomes the lower one, written as a number of its kind. -/
theorem clamp_of_low (hk : v.numberKind? = some k) (hv : v.rank? = some x) (hlower : c.lower = some i)
    (hlt : x < double.rankOfInt i) : c.clamp v = k.write i := by
  have hplain := plain_lower hlower
  have hupper : ∀ j, c.upper = some j → i ≤ j := fun j => lower_le_upper hlower
  apply clamp_eq_write hplain hk
  · intro j hj
    obtain rfl := DataValue.rankOfInt_eq hj hv
    exact clampInt_of_low hlower (hplain.lt_iff.2 hlt)
  · rintro a rfl
    rw [Double.clamp, hlower]
    exact Double.ordered.clampBy_of_low hv hlt hupper
  · rintro a rfl
    obtain ⟨s, hs, rfl⟩ := DataValue.rank_of_rank?_float hv
    rw [Single.clamp, Single.quiet_of_rank hs, hlower]
    exact Single.ordered.clampBy_of_low hs ((hplain.single_lt_iff hs).2 hlt) hupper

/-- A number above the bounds becomes the upper one, written as a number of its kind. -/
theorem clamp_of_high (hk : v.numberKind? = some k) (hv : v.rank? = some x) (hupper : c.upper = some i)
    (hlt : double.rankOfInt i < x) : c.clamp v = k.write i := by
  have hplain := plain_upper hupper
  have hlower : ∀ j, c.lower = some j → j ≤ i := fun j hj => lower_le_upper hj hupper
  apply clamp_eq_write hplain hk
  · intro j hj
    obtain rfl := DataValue.rankOfInt_eq hj hv
    exact clampInt_of_high hupper (hplain.gt_iff.2 hlt)
  · rintro a rfl
    rw [Double.clamp, hupper]
    exact Double.ordered.clampBy_of_high hv hlt hlower
  · rintro a rfl
    obtain ⟨s, hs, rfl⟩ := DataValue.rank_of_rank?_float hv
    rw [Single.clamp, Single.quiet_of_rank hs, hupper]
    exact Single.ordered.clampBy_of_high hs ((hplain.single_gt_iff hs).2 hlt) hlower

/-- The lower bound itself is admitted, and only one value of a kind is in its place. -/
theorem clamp_of_le (hk : v.numberKind? = some k) (hv : v.rank? = some x) (hlower : c.lower = some i)
    (hle : x ≤ double.rankOfInt i) : c.clamp v = k.write i := by
  rcases Int.lt_or_eq_of_le hle with hlt | rfl
  · exact clamp_of_low hk hv hlower hlt
  · have hwithin : c.clamp v = v := by
      refine clamp_of_within hv ?_ (fun j hj => double_mono (lower_le_upper hlower hj))
      intro j hj
      obtain rfl : i = j := Option.some.inj (hlower.symm.trans hj)
      exact Int.le_refl _
    rw [hwithin]
    exact (plain_lower hlower).eq_write hk hv

theorem clamp_cases (hk : v.numberKind? = some k) (hv : v.rank? = some x) :
    c.clamp v = v ∨
      (∃ i, c.lower = some i ∧ x < double.rankOfInt i ∧ c.clamp v = k.write i) ∨
      ∃ i, c.upper = some i ∧ double.rankOfInt i < x ∧ c.clamp v = k.write i := by
  by_cases hlow : ∃ i, c.lower = some i ∧ x < double.rankOfInt i
  · obtain ⟨i, hlower, hlt⟩ := hlow
    exact .inr (.inl ⟨i, hlower, hlt, clamp_of_low hk hv hlower hlt⟩)
  · by_cases hhigh : ∃ i, c.upper = some i ∧ double.rankOfInt i < x
    · obtain ⟨i, hupper, hlt⟩ := hhigh
      exact .inr (.inr ⟨i, hupper, hlt, clamp_of_high hk hv hupper hlt⟩)
    · left
      apply clamp_of_within hv
      · intro i hi
        by_contra hlt
        exact hlow ⟨i, hi, Int.not_le.1 hlt⟩
      · intro i hi
        by_contra hlt
        exact hhigh ⟨i, hi, Int.not_le.1 hlt⟩

theorem clamp_of_not_number (hk : v.numberKind? = none) : c.clamp v = v := by
  cases v with
  | int | long | double | float => cases hk
  | _ => rfl

/-- What was moved into the bounds stays there, of whatever kind it is. -/
theorem clamp_clamp (c : Capability) (v : DataValue) : c.clamp (c.clamp v) = c.clamp v := by
  cases v with
  | int v =>
    have hagain := c.clampInt_clampInt v.toInt
    have hint := asInteger_clamp (c := c) (v := .int v) rfl
    by_cases hnarrow : c.clampInt v.toInt = (Int32.ofInt (c.clampInt v.toInt)).toInt
    · have hclamp : c.clamp (.int v) = .int (Int32.ofInt (c.clampInt v.toInt)) := if_pos hnarrow
      rw [hclamp]
      simp only [clamp, ← hnarrow, hagain, if_true]
    · have hclamp : c.clamp (.int v) = .long (Int64.ofInt (c.clampInt v.toInt)) := if_neg hnarrow
      rw [hclamp] at hint ⊢
      have hwide : (Int64.ofInt (c.clampInt v.toInt)).toInt = c.clampInt v.toInt :=
        Option.some.inj hint
      simp only [clamp, hwide, hagain]
  | long v =>
    have hint := asInteger_clamp (c := c) (v := .long v) rfl
    have hwide : (Int64.ofInt (c.clampInt v.toInt)).toInt = c.clampInt v.toInt :=
      Option.some.inj hint
    simp only [clamp, hwide, c.clampInt_clampInt]
  | double a =>
    exact congrArg DataValue.double
      (Double.ordered.clampBy_clampBy (fun _ _ hlower hupper => lower_le_upper hlower hupper))
  | float a =>
    have hquiet : (a.clamp c.lower c.upper).quiet = a.clamp c.lower c.upper := by
      rcases clampBy_eq_or Single.compare Single.ofInt c.lower c.upper a.quiet with heq | ⟨i, heq⟩
      · rw [Single.clamp, heq, Single.quiet_quiet]
      · rw [Single.clamp, heq]
        exact Single.quiet_of_rank (Single.rank_ofInt i)
    have hclamp : (a.clamp c.lower c.upper).clamp c.lower c.upper = a.clamp c.lower c.upper := by
      rw [Single.clamp, hquiet]
      exact Single.ordered.clampBy_clampBy (fun _ _ hlower hupper => lower_le_upper hlower hupper)
    exact congrArg DataValue.float hclamp
  | _ => rfl

end Capability

end Etp
