/-!
# What reading a value costs

The values read from one byte string share an allowance of memory.  A read claims the room of its
value before it takes any bytes, so a forged length is refused before anything is reserved for it.
The entries of a sequence are claimed together, as soon as their number is known; each of them gives
its share back just before it is read, and then claims what it needs itself.

A `Cost` says for which allowances a read goes through, and what is left of them.
-/

namespace Etp.Wire

/-- The most memory that the values read from one byte string may claim. -/
def byteLimit : Nat := 64 * 1024 * 1024

/-- What a read claims of the allowance. -/
@[ext] structure Cost where
  /-- The least allowance for which the read goes through. -/
  need : Nat
  /-- How much of the allowance is gone afterwards. -/
  spent : Nat
  spent_le_need : spent ≤ need

namespace Cost

/-- A claim that is kept. -/
def claim (size : Nat) : Cost := ⟨size, size, Nat.le_refl size⟩

/-- Nothing is claimed. -/
def free : Cost := claim 0

/-- One read after another. -/
def followedBy (a b : Cost) : Cost where
  need := max a.need (a.spent + b.need)
  spent := a.spent + b.spent
  spent_le_need := by have := b.spent_le_need; omega

/-- The entries of a sequence that are reckoned at `size` each. -/
def entries (size : Nat) : List Cost → Cost
  | [] => free
  | c :: cs =>
    let later := entries size cs
    { need := max (cs.length * size + max size c.need) (c.spent + later.need)
      spent := c.spent + later.spent
      spent_le_need := by have := later.spent_le_need; omega }

@[simp] theorem need_claim (size : Nat) : (claim size).need = size := rfl

@[simp] theorem spent_claim (size : Nat) : (claim size).spent = size := rfl

@[simp] theorem followedBy_free (a : Cost) : a.followedBy free = a := by
  have := a.spent_le_need
  ext <;> simp only [followedBy, free, need_claim, spent_claim] <;> omega

@[simp] theorem free_followedBy (a : Cost) : free.followedBy a = a := by
  ext <;> simp only [followedBy, free, need_claim, spent_claim] <;> omega

/-- Two claims that are kept are one. -/
@[simp] theorem claim_followedBy_claim (a b : Nat) :
    (claim a).followedBy (claim b) = claim (a + b) := by
  ext <;> simp only [followedBy, need_claim, spent_claim]
  omega

/-- Entries need at least what is claimed for all of them at once. -/
theorem length_mul_le_need_entries (size : Nat) (costs : List Cost) :
    costs.length * size ≤ (entries size costs).need := by
  cases costs with
  | nil => simp
  | cons c cs =>
    simp only [entries, List.length_cons, Nat.add_mul]
    omega

end Cost

end Etp.Wire
