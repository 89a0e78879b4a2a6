import Etp.Number.Binary
import Mathlib.Algebra.Group.Nat.Defs

/-!
# Rounding keeps the order of numbers

`nearest` is followed here for numbers that are not too small for a full fraction: their place in the
format is told by the exponent of the leading bit and by the significand, which has one bit more than the
fraction field (`nearestScaled_eq`).  Rounding to the significand keeps the order of numbers with the same
leading bit, and nothing that is rounded up passes the next power of two.  So integers keep their order
when they are rounded (`rankOfInt_mono`).
-/

namespace Etp.Number.Format

/-! ## Rounded quotients -/

/-- A rounded quotient is the quotient or the next integer. -/
theorem roundDiv_cases (num den : Nat) :
    (roundDiv num den = num / den ∧ 2 * (num % den) ≤ den) ∨
      (roundDiv num den = num / den + 1 ∧ den ≤ 2 * (num % den)) := by
  unfold roundDiv
  simp only
  split
  · exact .inl ⟨rfl, by omega⟩
  · split
    · exact .inr ⟨rfl, by omega⟩
    · rcases Nat.mod_two_eq_zero_or_one (num / den) with heven | hodd
      · exact .inl ⟨by omega, by omega⟩
      · exact .inr ⟨by omega, by omega⟩

theorem roundDiv_mono {num num' : Nat} (h : num ≤ num') (den : Nat) :
    roundDiv num den ≤ roundDiv num' den := by
  rcases Nat.eq_or_lt_of_le h with rfl | hlt
  · exact Nat.le_refl _
  · have hquotient : num / den ≤ num' / den := Nat.div_le_div_right h
    have hrest : num / den = num' / den → num % den < num' % den := by
      intro hsame
      have hnum := Nat.div_add_mod num den
      have hnum' := Nat.div_add_mod num' den
      rw [hsame] at hnum
      omega
    rcases roundDiv_cases num den with ⟨hdown, -⟩ | ⟨hup, hhalf⟩
    · rcases roundDiv_cases num' den with ⟨hdown', -⟩ | ⟨hup', -⟩
      · omega
      · omega
    · rcases roundDiv_cases num' den with ⟨hdown', hhalf'⟩ | ⟨hup', -⟩
      · omega
      · omega

/-- A quotient without a rest is not rounded. -/
theorem roundDiv_mul (quotient : Nat) {den : Nat} (hden : 0 < den) :
    roundDiv (quotient * den) den = quotient := by
  rw [roundDiv, Nat.mul_mod_left, Nat.mul_div_cancel _ hden]
  simp [hden]

/-- A common factor does not count. -/
theorem roundDiv_mul_mul (num den : Nat) {factor : Nat} (hfactor : 0 < factor) :
    roundDiv (num * factor) (den * factor) = roundDiv num den := by
  have hrest : 2 * (num % den * factor) = 2 * (num % den) * factor := (Nat.mul_assoc _ _ _).symm
  unfold roundDiv
  rw [Nat.mul_div_mul_right _ _ hfactor, Nat.mul_mod_mul_right]
  simp only [hrest, Nat.mul_lt_mul_right hfactor]

/-! ## The place of a number -/

theorem log2_shiftLeft {n : Nat} (hn : n ≠ 0) (shift : Nat) : (n <<< shift).log2 = n.log2 + shift := by
  have hle := Nat.log2_self_le hn
  have hlt := Nat.lt_log2_self (n := n)
  have hpos := Nat.two_pow_pos shift
  rw [Nat.shiftLeft_eq, Nat.log2_eq_iff (Nat.mul_ne_zero hn (Nat.ne_of_gt hpos))]
  constructor
  · rw [Nat.pow_add]
    exact Nat.mul_le_mul_right _ hle
  · rw [Nat.add_right_comm, Nat.pow_add]
    exact Nat.mul_lt_mul_of_pos_right hlt hpos

/-- The exponent of a number that is written as a scaled integer is that of its leading bit. -/
theorem floorLog_scaled {n : Nat} (hn : n ≠ 0) (power : Int) :
    floorLog (n <<< power.toNat) (1 <<< (-power).toNat) = n.log2 + power := by
  have hguess : ((n.log2 + power.toNat : Nat) : Int) - ((Nat.log2 1 + (-power).toNat : Nat) : Int) =
      n.log2 + power := by
    have hone : Nat.log2 1 = 0 := by decide
    omega
  have hle : (1 <<< (-power).toNat) <<< (n.log2 + power : Int).toNat ≤
      (n <<< power.toNat) <<< (-(n.log2 + power : Int)).toNat := by
    rw [← Nat.shiftLeft_add, ← Nat.shiftLeft_add, Nat.shiftLeft_eq, Nat.shiftLeft_eq, Nat.one_mul]
    have hexponent : (-power).toNat + (n.log2 + power : Int).toNat =
        n.log2 + (power.toNat + (-(n.log2 + power : Int)).toNat) := by omega
    rw [hexponent, Nat.pow_add]
    exact Nat.mul_le_mul_right _ (Nat.log2_self_le hn)
  unfold floorLog
  rw [log2_shiftLeft hn, log2_shiftLeft Nat.one_ne_zero, hguess]
  simp only
  rw [if_pos hle]

/-- The leading bits of a positive integer, one more than the fraction field has, rounded. -/
def significand (f : Format) (n : Nat) : Nat :=
  if n.log2 ≤ f.fraction then n * 2 ^ (f.fraction - n.log2)
  else roundDiv n (2 ^ (n.log2 - f.fraction))

theorem roundDiv_shiftLeft (f : Format) (n a b : Nat) (h : a + n.log2 = b + f.fraction) :
    roundDiv (n * 2 ^ a) (2 ^ b) = f.significand n := by
  unfold significand
  split
  case isTrue hle =>
    obtain rfl : a = f.fraction - n.log2 + b := by omega
    rw [Nat.pow_add, ← Nat.mul_assoc, roundDiv_mul _ (Nat.two_pow_pos b)]
  case isFalse hlt =>
    obtain rfl : b = n.log2 - f.fraction + a := by omega
    rw [Nat.pow_add, roundDiv_mul_mul _ _ (Nat.two_pow_pos a)]

/-- The place in the format of a number that is not too small for a full fraction. -/
def place (f : Format) (n : Nat) (power : Int) : Nat :=
  (n.log2 + power - f.leastExponent).toNat * 2 ^ f.fraction + f.significand n

theorem nearestScaled_eq (f : Format) {n : Nat} (hn : n ≠ 0) {power : Int}
    (hfull : f.leastExponent ≤ n.log2 + power) :
    f.nearestScaled n 1 power = min f.infinity (f.place n power) := by
  have hne : n <<< power.toNat ≠ 0 := by
    rw [Nat.shiftLeft_eq]
    exact Nat.mul_ne_zero hn (Nat.ne_of_gt (Nat.two_pow_pos _))
  unfold nearestScaled nearest
  rw [if_neg hne, floorLog_scaled hn, Int.max_eq_left hfull]
  simp only [Nat.shiftLeft_eq, Nat.one_mul]
  rw [Nat.mul_assoc n, ← Nat.pow_add, ← Nat.pow_add, roundDiv_shiftLeft, place]
  omega

/-! ## The order of places -/

theorem log2_le_log2 {n m : Nat} (hn : n ≠ 0) (h : n ≤ m) : n.log2 ≤ m.log2 :=
  (Nat.le_log2 (by omega)).2 (Nat.le_trans (Nat.log2_self_le hn) h)

section Significand

variable (f : Format) {n m : Nat}

theorem significand_mono (h : n ≤ m) (hbit : n.log2 = m.log2) : f.significand n ≤ f.significand m := by
  unfold significand
  rw [hbit]
  split
  case isTrue => exact Nat.mul_le_mul_right _ h
  case isFalse => exact roundDiv_mono h _

/-- What fits into the significand is not rounded. -/
theorem significand_strictMono (h : n < m) (hbit : n.log2 = m.log2) (hfits : m.log2 ≤ f.fraction) :
    f.significand n < f.significand m := by
  unfold significand
  rw [hbit, if_pos hfits, if_pos hfits]
  exact Nat.mul_lt_mul_of_pos_right h (Nat.two_pow_pos _)

theorem le_significand (hn : n ≠ 0) : 2 ^ f.fraction ≤ f.significand n := by
  have hle := Nat.log2_self_le hn
  unfold significand
  split
  case isTrue hfits =>
    have hsplit : f.fraction = n.log2 + (f.fraction - n.log2) := by omega
    conv => lhs; rw [hsplit, Nat.pow_add]
    exact Nat.mul_le_mul_right _ hle
  case isFalse hlong =>
    have hsplit : n.log2 = f.fraction + (n.log2 - f.fraction) := by omega
    have hpos := Nat.two_pow_pos (n.log2 - f.fraction)
    have hmultiple := roundDiv_mul (2 ^ f.fraction) hpos
    rw [← Nat.pow_add, ← hsplit] at hmultiple
    rw [← hmultiple]
    exact roundDiv_mono hle _

theorem significand_lt (hfits : n.log2 ≤ f.fraction) : f.significand n < 2 ^ (f.fraction + 1) := by
  have hsplit : f.fraction + 1 = n.log2 + 1 + (f.fraction - n.log2) := by omega
  rw [significand, if_pos hfits, hsplit, Nat.pow_add]
  exact Nat.mul_lt_mul_of_pos_right Nat.lt_log2_self (Nat.two_pow_pos _)

/-- What is rounded up may reach the next power of two, and no more. -/
theorem significand_le : f.significand n ≤ 2 ^ (f.fraction + 1) := by
  by_cases hfits : n.log2 ≤ f.fraction
  · exact Nat.le_of_lt (f.significand_lt hfits)
  · have hsplit : n.log2 + 1 = f.fraction + 1 + (n.log2 - f.fraction) := by omega
    have hpos := Nat.two_pow_pos (n.log2 - f.fraction)
    have hmultiple := roundDiv_mul (2 ^ (f.fraction + 1)) hpos
    rw [← Nat.pow_add, ← hsplit] at hmultiple
    rw [significand, if_neg hfits, ← hmultiple]
    exact roundDiv_mono (Nat.le_of_lt Nat.lt_log2_self) _

end Significand

section Place

variable (f : Format) {n m : Nat} {power power' : Int}

/-- A lower exponent makes a lower place. -/
theorem place_le_of_exponent_lt (hm : m ≠ 0) (hfull : f.leastExponent ≤ n.log2 + power)
    (h : n.log2 + power < m.log2 + power') :
    f.place n power + (2 ^ (f.fraction + 1) - f.significand n) ≤ f.place m power' := by
  have hlow := f.le_significand hm
  have hhigh := f.significand_le (n := n)
  have hexponent : (n.log2 + power - f.leastExponent).toNat + 1 ≤
      (m.log2 + power' - f.leastExponent).toNat := by omega
  have hscaled := Nat.mul_le_mul_right (2 ^ f.fraction) hexponent
  rw [Nat.add_mul, Nat.one_mul] at hscaled
  rw [Nat.pow_succ] at hhigh ⊢
  unfold place
  omega

theorem place_mono (hn : n ≠ 0) (h : n ≤ m) (hfull : f.leastExponent ≤ n.log2 + power) :
    f.place n power ≤ f.place m power := by
  have hlog := log2_le_log2 hn h
  rcases Nat.eq_or_lt_of_le hlog with heq | hlt
  · have hsignificand := f.significand_mono h heq
    unfold place
    rw [heq]
    omega
  · have hm : m ≠ 0 := by omega
    have hexponent : n.log2 + power < m.log2 + power := by omega
    have hplace := f.place_le_of_exponent_lt hm hfull hexponent
    omega

/-- Numbers that fit into the significand have different places. -/
theorem place_lt (hn : n ≠ 0) (hfits : m.log2 ≤ f.fraction) (hfits' : n.log2 ≤ f.fraction)
    (hfull : f.leastExponent ≤ n.log2 + power) (hm : m ≠ 0)
    (h : n.log2 + power < m.log2 + power' ∨ (power = power' ∧ n < m)) :
    f.place n power < f.place m power' := by
  have hsignificand := f.significand_lt hfits'
  rcases h with hexponent | ⟨rfl, hlt⟩
  · have hplace := f.place_le_of_exponent_lt hm hfull hexponent
    omega
  · rcases Nat.eq_or_lt_of_le (log2_le_log2 hn (Nat.le_of_lt hlt)) with heq | hlog
    · have hless := f.significand_strictMono hlt heq hfits
      unfold place
      rw [heq]
      omega
    · have hexponent : n.log2 + power < m.log2 + power := by omega
      have hplace := f.place_le_of_exponent_lt hm hfull hexponent
      omega

end Place

/-! ## Rounded integers -/

theorem nearest_mono {f : Format} (hleast : f.leastExponent ≤ 0) {n m : Nat} (h : n ≤ m) :
    f.nearest n 1 ≤ f.nearest m 1 := by
  by_cases hn : n = 0
  · subst hn
    exact Nat.zero_le _
  · have hm : m ≠ 0 := by omega
    have hfull : f.leastExponent ≤ (n.log2 : Int) + 0 := by omega
    have hfull' : f.leastExponent ≤ (m.log2 : Int) + 0 := by omega
    have hplace := f.place_mono hn h hfull
    have hnearest := f.nearestScaled_eq hn hfull
    have hnearest' := f.nearestScaled_eq hm hfull'
    have hn' : f.nearestScaled n 1 0 = f.nearest n 1 := rfl
    have hm' : f.nearestScaled m 1 0 = f.nearest m 1 := rfl
    omega

/-- The rank of the number closest to an integer. -/
def rankOfInt (f : Format) (i : Int) : Int :=
  if 0 ≤ i then f.nearest i.toNat 1 else -(f.nearest (-i).toNat 1 : Int)

theorem rankOfInt_mono {f : Format} (hleast : f.leastExponent ≤ 0) {i j : Int} (h : i ≤ j) :
    f.rankOfInt i ≤ f.rankOfInt j := by
  unfold rankOfInt
  split
  case isTrue hi =>
    rw [if_pos (Int.le_trans hi h)]
    have hmono := nearest_mono hleast (n := i.toNat) (m := j.toNat) (by omega)
    omega
  case isFalse hi =>
    split
    case isTrue => omega
    case isFalse =>
      have hmono := nearest_mono hleast (n := (-j).toNat) (m := (-i).toNat) (by omega)
      omega

end Etp.Number.Format
