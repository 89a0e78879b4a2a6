import Etp.Proofs.Number.Rounding

/-!
# Widening keeps the order of numbers

A number of the 32-bit format fits into the significand of the 64-bit format, so it is not rounded when it
is widened (`widened_eq`) and differs from every other number afterwards (`widened_lt`).  `rank_widen` says
where a number goes: zero to zero, infinity to infinity, and what is no number stays none.
-/

namespace Etp.Number

namespace Format

variable {f : Format}

/-! ## Ranks -/

theorem nearest_le_infinity (f : Format) (num den : Nat) : f.nearest num den ≤ f.infinity := by
  unfold nearest
  split
  · exact Nat.zero_le _
  · exact Nat.min_le_left _ _

/-- The rank of a magnitude under a sign. -/
theorem rank_signed (hroom : f.infinity < f.signBit) {magnitude : Nat} (h : magnitude ≤ f.infinity)
    (negative : Bool) :
    f.rank ((if negative then f.signBit else 0) + magnitude) =
      some (if negative then -(magnitude : Int) else magnitude) := by
  have hlt : magnitude < f.signBit := Nat.lt_of_le_of_lt h hroom
  have hnumber : ¬ f.infinity < magnitude := Nat.not_lt.2 h
  have hnot : ¬ f.signBit ≤ magnitude := Nat.not_le.2 hlt
  unfold rank isNaN Format.negative Format.magnitude
  cases negative with
  | true => simp [Nat.mod_eq_of_lt hlt, hnumber]
  | false => simp [Nat.mod_eq_of_lt hlt, hnumber, hnot]

theorem rank_signed_of_nan {magnitude : Nat} (h : f.infinity < magnitude) (hlt : magnitude < f.signBit)
    (negative : Bool) : f.rank ((if negative then f.signBit else 0) + magnitude) = none := by
  unfold rank isNaN Format.magnitude
  cases negative with
  | true => simp [Nat.mod_eq_of_lt hlt, h]
  | false => simp [Nat.mod_eq_of_lt hlt, h]

theorem rank_ofInt (hroom : f.infinity < f.signBit) (i : Int) :
    f.rank (f.ofInt i) = some (f.rankOfInt i) := by
  unfold ofInt rankOfInt
  split
  case isTrue =>
    have hrank := rank_signed hroom (f.nearest_le_infinity i.toNat 1) false
    simpa using hrank
  case isFalse => exact rank_signed hroom (f.nearest_le_infinity (-i).toNat 1) true

theorem ofInt_lt (hroom : f.infinity < f.signBit) (i : Int) : f.ofInt i < 2 * f.signBit := by
  unfold ofInt
  split
  · have hle := f.nearest_le_infinity i.toNat 1
    omega
  · have hle := f.nearest_le_infinity (-i).toNat 1
    omega

/-- A bit pattern is a sign above a magnitude. -/
theorem eq_signed {bits : Nat} (h : bits < 2 * f.signBit) :
    bits = (if f.negative bits then f.signBit else 0) + f.magnitude bits := by
  unfold Format.negative Format.magnitude
  by_cases hneg : f.signBit ≤ bits
  · rw [Nat.mod_eq_sub_mod hneg, Nat.mod_eq_of_lt (by omega)]
    simp [hneg]
  · rw [Nat.mod_eq_of_lt (by omega)]
    simp [hneg]

theorem rank_eq_some {bits : Nat} {x : Int} (h : f.rank bits = some x) :
    f.magnitude bits ≤ f.infinity ∧
      x = if f.negative bits then -(f.magnitude bits : Int) else f.magnitude bits := by
  unfold rank isNaN at h
  split at h
  case isTrue => cases h
  case isFalse hnumber =>
    refine ⟨by simpa using hnumber, ?_⟩
    split at h
    case isTrue hneg =>
      rw [if_pos hneg]
      exact (Option.some.inj h).symm
    case isFalse hneg =>
      rw [if_neg hneg]
      exact (Option.some.inj h).symm

/-- Only the two zeros have the same rank. -/
theorem eq_of_rank_eq {a b : Nat} (ha : a < 2 * f.signBit) (hb : b < 2 * f.signBit) {x : Int}
    (hrank : f.rank a = some x) (hrank' : f.rank b = some x) (hx : x ≠ 0) : a = b := by
  obtain ⟨-, hx'⟩ := rank_eq_some hrank
  obtain ⟨-, hx''⟩ := rank_eq_some hrank'
  rw [eq_signed ha, eq_signed hb]
  by_cases hna : f.negative a = true
  · rw [if_pos hna] at hx' ⊢
    by_cases hnb : f.negative b = true
    · rw [if_pos hnb] at hx'' ⊢
      omega
    · rw [if_neg hnb] at hx''
      omega
  · rw [if_neg hna] at hx' ⊢
    by_cases hnb : f.negative b = true
    · rw [if_pos hnb] at hx''
      omega
    · rw [if_neg hnb] at hx'' ⊢
      omega

/-- The comparison of two numbers is that of their ranks. -/
theorem compare_eq {a b : Nat} {x y : Int} (ha : f.rank a = some x) (hb : f.rank b = some y) :
    f.compare a b = some (Ord.compare x y) := by
  simp [compare, ha, hb]

end Format

/-! ## Widened magnitudes -/

namespace Format

/-- The magnitude in the wider format, of a magnitude of the 32-bit format that is a number. -/
def widened (magnitude : Nat) : Nat :=
  if magnitude = single.infinity then double.infinity
  else
    let (fraction, power) := single.parts magnitude
    double.nearestScaled fraction 1 power

/-- Below the least exponent a magnitude is its fraction. -/
theorem parts_of_small {m : Nat} (h : m < 2 ^ 23) : single.parts m = (m, -149) := by
  have hfield : m >>> 23 = 0 := by
    rw [Nat.shiftRight_eq_div_pow]
    exact Nat.div_eq_of_lt h
  have hfraction : m % (1 <<< 23) = m := Nat.mod_eq_of_lt h
  unfold parts
  simp only [single, hfield, hfraction, if_true]
  rfl

theorem parts_of_large {m : Nat} (h : 2 ^ 23 ≤ m) :
    single.parts m = (2 ^ 23 + m % 2 ^ 23, ((m / 2 ^ 23 : Nat) : Int) - 150) := by
  have hfield : m >>> 23 = m / 2 ^ 23 := Nat.shiftRight_eq_div_pow m 23
  have hpos : m / 2 ^ 23 ≠ 0 := by omega
  unfold parts
  simp only [single, hfield, if_neg hpos]
  rw [Prod.mk.injEq]
  refine ⟨rfl, ?_⟩
  have hleast : leastExponent ⟨23, 8⟩ = -126 := by decide
  rw [hleast]
  omega

theorem log2_of_large (m : Nat) : (2 ^ 23 + m % 2 ^ 23).log2 = 23 := by
  rw [Nat.log2_eq_iff (by omega)]
  omega

/-- A number that fits into the significand keeps its place, if its exponent is not too large. -/
theorem nearestScaled_of_fits {n : Nat} (hn : n ≠ 0) {power : Int} (hfull : -1022 ≤ n.log2 + power)
    (hfits : n.log2 ≤ 52) (hfinite : n.log2 + power ≤ 127) :
    double.nearestScaled n 1 power = double.place n power ∧
      double.place n power < double.infinity := by
  have hleast : double.leastExponent = -1022 := by decide
  have hinfinity : double.infinity = 2047 * 2 ^ 52 := by decide
  have hsignificand : double.significand n < 2 ^ 53 := double.significand_lt hfits
  have hexponent : (n.log2 + power - double.leastExponent).toNat * 2 ^ 52 ≤ 1149 * 2 ^ 52 :=
    Nat.mul_le_mul_right _ (by omega)
  have hlt : double.place n power < double.infinity := by
    have hplace : double.place n power =
        (n.log2 + power - double.leastExponent).toNat * 2 ^ 52 + double.significand n := rfl
    omega
  refine ⟨?_, hlt⟩
  rw [nearestScaled_eq double hn (by rw [hleast]; exact hfull)]
  exact Nat.min_eq_right (Nat.le_of_lt hlt)

theorem widened_of_small {m : Nat} (hpos : m ≠ 0) (h : m < 2 ^ 23) :
    widened m = double.place m (-149) ∧ double.place m (-149) < double.infinity := by
  have hfinite : m ≠ single.infinity := by
    have hinfinity : single.infinity = 2139095040 := by decide
    omega
  have hlog : m.log2 < 23 := (Nat.log2_lt hpos).2 h
  rw [widened, if_neg hfinite, parts_of_small h]
  exact nearestScaled_of_fits hpos (by omega) (by omega) (by omega)

theorem widened_of_large {m : Nat} (h : 2 ^ 23 ≤ m) (hfinite : m < single.infinity) :
    let n := 2 ^ 23 + m % 2 ^ 23
    let power : Int := ((m / 2 ^ 23 : Nat) : Int) - 150
    widened m = double.place n power ∧ double.place n power < double.infinity := by
  intro n power
  have hinfinity : single.infinity = 255 * 2 ^ 23 := by decide
  have hlog := log2_of_large m
  rw [widened, if_neg (Nat.ne_of_lt hfinite), parts_of_large h]
  exact nearestScaled_of_fits (by omega) (by omega) (by omega) (by omega)

theorem widened_zero : widened 0 = 0 := by decide +kernel

theorem widened_infinity : widened single.infinity = double.infinity := if_pos rfl

theorem widened_lt_infinity {m : Nat} (h : m < single.infinity) : widened m < double.infinity := by
  by_cases hzero : m = 0
  · subst hzero
    rw [widened_zero]
    decide
  · by_cases hsmall : m < 2 ^ 23
    · obtain ⟨heq, hlt⟩ := widened_of_small hzero hsmall
      omega
    · obtain ⟨heq, hlt⟩ := widened_of_large (Nat.not_lt.1 hsmall) h
      omega

theorem widened_pos {m : Nat} (hm : m ≠ 0) (h : m < single.infinity) : 0 < widened m := by
  have hplace : ∀ {n : Nat} (power : Int), n ≠ 0 → 0 < double.place n power := by
    intro n power hn
    have hsignificand := double.le_significand hn
    have hpos := Nat.two_pow_pos double.fraction
    unfold place
    omega
  by_cases hsmall : m < 2 ^ 23
  · rw [(widened_of_small hm hsmall).1]
    exact hplace _ hm
  · rw [(widened_of_large (Nat.not_lt.1 hsmall) h).1]
    exact hplace _ (by omega)

/-- Different numbers stay different, and in order. -/
theorem widened_lt {m m' : Nat} (h : m < m') (hm' : m' ≤ single.infinity) :
    widened m < widened m' := by
  have hleast : double.leastExponent = -1022 := by decide
  have hfraction : double.fraction = 52 := rfl
  rcases Nat.eq_or_lt_of_le hm' with rfl | hfinite
  · rw [widened_infinity]
    exact widened_lt_infinity h
  · by_cases hzero : m = 0
    · subst hzero
      rw [widened_zero]
      exact widened_pos (by omega) hfinite
    · by_cases hsmall : m < 2 ^ 23
      · have hlog : m.log2 < 23 := (Nat.log2_lt hzero).2 hsmall
        rw [(widened_of_small hzero hsmall).1]
        by_cases hsmall' : m' < 2 ^ 23
        · have hlog' : m'.log2 < 23 := (Nat.log2_lt (by omega)).2 hsmall'
          rw [(widened_of_small (by omega) hsmall').1]
          exact double.place_lt hzero (by omega) (by omega) (by omega) (by omega) (.inr ⟨rfl, h⟩)
        · have hlog' := log2_of_large m'
          rw [(widened_of_large (Nat.not_lt.1 hsmall') hfinite).1]
          exact double.place_lt hzero (by omega) (by omega) (by omega) (by omega) (.inl (by omega))
      · have hlog := log2_of_large m
        have hlog' := log2_of_large m'
        rw [(widened_of_large (Nat.not_lt.1 hsmall) (Nat.lt_trans h hfinite)).1,
          (widened_of_large (by omega) hfinite).1]
        refine double.place_lt (by omega) (by omega) (by omega) (by omega) (by omega) ?_
        by_cases hfield : m / 2 ^ 23 = m' / 2 ^ 23
        · exact .inr ⟨by omega, by omega⟩
        · exact .inl (by omega)

/-- Where a rank goes when a number is widened. -/
def widenedRank (x : Int) : Int := if 0 ≤ x then widened x.toNat else -(widened (-x).toNat : Int)

theorem widenedRank_signed (negative : Bool) (magnitude : Nat) :
    widenedRank (if negative then -(magnitude : Int) else magnitude) =
      if negative then -(widened magnitude : Int) else widened magnitude := by
  unfold widenedRank
  cases negative with
  | false => simp
  | true =>
    by_cases hzero : magnitude = 0
    · subst hzero
      simp [widened_zero]
    · simp [hzero]

theorem widenedRank_lt {x y : Int} (h : x < y) (hx : -(single.infinity : Int) ≤ x)
    (hy : y ≤ single.infinity) : widenedRank x < widenedRank y := by
  unfold widenedRank
  by_cases hneg : 0 ≤ x
  · have hlt : widened x.toNat < widened y.toNat := widened_lt (by omega) (by omega)
    rw [if_pos hneg, if_pos (by omega)]
    omega
  · rw [if_neg hneg]
    have hpos : widened 0 < widened (-x).toNat := widened_lt (by omega) (by omega)
    by_cases hneg' : 0 ≤ y
    · rw [if_pos hneg']
      omega
    · have hlt : widened (-y).toNat < widened (-x).toNat := widened_lt (by omega) (by omega)
      rw [if_neg hneg']
      omega

theorem widenedRank_lt_iff {x y : Int} (hx : -(single.infinity : Int) ≤ x ∧ x ≤ single.infinity)
    (hy : -(single.infinity : Int) ≤ y ∧ y ≤ single.infinity) :
    x < y ↔ widenedRank x < widenedRank y := by
  constructor
  · intro hlt
    exact widenedRank_lt hlt hx.1 hy.2
  · intro hlt
    rcases Int.lt_trichotomy x y with hless | rfl | hmore
    · exact hless
    · exact absurd hlt (Int.lt_irrefl _)
    · have hback := widenedRank_lt hmore hy.1 hx.2
      omega

end Format

open Format

theorem single_room : single.infinity < single.signBit := by decide

theorem double_room : double.infinity < double.signBit := by decide

namespace Double

/-- The place of a number in the order of all numbers. -/
def rank (a : Double) : Option Int := double.rank a.bits.toNat

theorem rank_ofInt (i : Int) : (ofInt i).rank = some (double.rankOfInt i) := by
  have hlt := ofInt_lt double_room i
  have hsize : 2 * double.signBit = UInt64.size := by decide
  rw [rank, ofInt, UInt64.toNat_ofNat_of_lt' (Nat.lt_of_lt_of_eq hlt hsize)]
  exact Format.rank_ofInt double_room i

theorem eq_of_rank_eq {a b : Double} {x : Int} (ha : a.rank = some x) (hb : b.rank = some x)
    (hx : x ≠ 0) : a = b := by
  have hsize : 2 * double.signBit = 2 ^ 64 := by decide
  have hbits := Format.eq_of_rank_eq (by rw [hsize]; exact a.bits.toNat_lt)
    (by rw [hsize]; exact b.bits.toNat_lt) ha hb hx
  obtain ⟨a⟩ := a
  obtain ⟨b⟩ := b
  rw [Double.mk.injEq]
  exact UInt64.toNat_inj.1 hbits

end Double

namespace Single

/-- The place of a number in the order of all numbers. -/
def rank (a : Single) : Option Int := single.rank a.bits.toNat

theorem rank_ofInt (i : Int) : (ofInt i).rank = some (single.rankOfInt i) := by
  have hlt := ofInt_lt single_room i
  have hsize : 2 * single.signBit = UInt32.size := by decide
  rw [rank, ofInt, UInt32.toNat_ofNat_of_lt' (Nat.lt_of_lt_of_eq hlt hsize)]
  exact Format.rank_ofInt single_room i

theorem eq_of_rank_eq {a b : Single} {x : Int} (ha : a.rank = some x) (hb : b.rank = some x)
    (hx : x ≠ 0) : a = b := by
  have hsize : 2 * single.signBit = 2 ^ 32 := by decide
  have hbits := Format.eq_of_rank_eq (by rw [hsize]; exact a.bits.toNat_lt)
    (by rw [hsize]; exact b.bits.toNat_lt) ha hb hx
  obtain ⟨a⟩ := a
  obtain ⟨b⟩ := b
  rw [Single.mk.injEq]
  exact UInt32.toNat_inj.1 hbits

theorem rank_bounds {a : Single} {x : Int} (h : a.rank = some x) :
    -(single.infinity : Int) ≤ x ∧ x ≤ single.infinity := by
  obtain ⟨hle, rfl⟩ := rank_eq_some h
  split
  · omega
  · omega

theorem convert_of_number {bits : Nat} (h : single.isNaN bits = false) :
    single.convert double bits =
      (if single.negative bits then double.signBit else 0) + widened (single.magnitude bits) := by
  unfold convert widened
  simp only [h, Bool.false_eq_true, if_false]
  split
  · rfl
  · rfl

/-- What is not a number keeps its sign and some of its fraction. -/
theorem convert_of_nan {bits : Nat} (h : single.isNaN bits = true) :
    ∃ fraction, 0 < fraction ∧ double.infinity + fraction < double.signBit ∧
      single.convert double bits =
        (if single.negative bits then double.signBit else 0) + (double.infinity + fraction) := by
  have hlt : single.magnitude bits < 2 ^ 31 := Nat.mod_lt _ (by decide)
  have hgt : single.infinity < single.magnitude bits := of_decide_eq_true h
  have hsingle : single.infinity = 255 * 2 ^ 23 := by decide
  have hdouble : double.infinity = 2047 * 2 ^ 52 := by decide
  have hsign : double.signBit = 2 ^ 63 := by decide
  have hquiet : single.magnitude bits ≤ single.quiet (single.magnitude bits) ∧
      single.quiet (single.magnitude bits) < 2 ^ 31 := by
    unfold Format.quiet
    split
    · exact ⟨Nat.left_le_or, Nat.or_lt_two_pow hlt (by decide)⟩
    · exact ⟨Nat.le_refl _, hlt⟩
  let kept := single.quiet (single.magnitude bits) - single.infinity
  have hfraction : (kept <<< 52) >>> 23 = kept * 2 ^ 29 := by
    rw [Nat.shiftLeft_eq, Nat.shiftRight_eq_div_pow]
    omega
  refine ⟨kept * 2 ^ 29, by omega, by omega, ?_⟩
  unfold convert
  simp only [h, if_true]
  rw [Nat.add_assoc]
  exact congrArg _ (congrArg _ hfraction)

/-- A number that is widened goes where its rank goes; what is not a number stays so. -/
theorem rank_widen (a : Single) : a.widen.rank = a.rank.map widenedRank := by
  have hsize : double.signBit + double.signBit = UInt64.size := by decide
  have hrank : ∀ magnitude, single.convert double a.bits.toNat =
      (if single.negative a.bits.toNat then double.signBit else 0) + magnitude →
        magnitude < double.signBit →
      a.widen.rank = double.rank
        ((if single.negative a.bits.toNat then double.signBit else 0) + magnitude) := by
    intro magnitude hbits hlt
    rw [Double.rank, widen, UInt64.toNat_ofNat_of_lt', hbits]
    rw [hbits]
    split <;> omega
  cases hnan : single.isNaN a.bits.toNat with
  | true =>
    obtain ⟨fraction, hpos, hlt, hbits⟩ := convert_of_nan hnan
    have hnone : a.rank = none := if_pos hnan
    rw [hrank _ hbits hlt, hnone]
    exact rank_signed_of_nan (by omega) hlt _
  | false =>
    have hmagnitude : single.magnitude a.bits.toNat ≤ single.infinity := by
      have hnumber := of_decide_eq_false hnan
      omega
    have hsome : a.rank = some (if single.negative a.bits.toNat then
        -(single.magnitude a.bits.toNat : Int) else single.magnitude a.bits.toNat) := by
      simp only [rank, Format.rank, hnan, Bool.false_eq_true, if_false]
      split <;> rfl
    have hwidened : widened (single.magnitude a.bits.toNat) ≤ double.infinity := by
      rcases Nat.eq_or_lt_of_le hmagnitude with heq | hlt
      · exact Nat.le_of_eq (heq ▸ widened_infinity)
      · exact Nat.le_of_lt (widened_lt_infinity hlt)
    rw [hrank _ (convert_of_number hnan) (Nat.lt_of_le_of_lt hwidened double_room), hsome,
      rank_signed double_room hwidened, Option.map_some, widenedRank_signed]

/-- Whether the number is neither infinite nor undefined. -/
def isFinite (a : Single) : Bool := single.isFinite a.bits.toNat

theorem isFinite_widen {a : Single} (h : a.isFinite = true) : a.widen.isFinite = true := by
  have hsize : double.signBit + double.signBit = UInt64.size := by decide
  have hmagnitude : single.magnitude a.bits.toNat < single.infinity := of_decide_eq_true h
  have hnumber : single.isNaN a.bits.toNat = false :=
    decide_eq_false (Nat.not_lt.2 (Nat.le_of_lt hmagnitude))
  have hwidened := widened_lt_infinity hmagnitude
  have hroom := double_room
  have hbits : single.convert double a.bits.toNat < UInt64.size := by
    rw [convert_of_number hnumber]
    split <;> omega
  apply decide_eq_true
  rw [widen, UInt64.toNat_ofNat_of_lt' hbits, convert_of_number hnumber, magnitude]
  split
  · rw [Nat.add_mod_left, Nat.mod_eq_of_lt (by omega)]
    exact hwidened
  · rw [Nat.zero_add, Nat.mod_eq_of_lt (by omega)]
    exact hwidened

end Single

end Etp.Number
