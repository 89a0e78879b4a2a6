import Mathlib.Data.List.Basic

/-!
# Lists

What the theory needs of lists beyond the library.
-/

namespace Etp

theorem mapM_eq_some_map {α β : Type} {f : α → Option β} {g : α → β} {as : List α}
    (h : ∀ a ∈ as, f a = some (g a)) : as.mapM f = some (as.map g) := by
  induction as with
  | nil => rfl
  | cons a as ih =>
    obtain ⟨ha, has⟩ := List.forall_mem_cons.1 h
    rw [List.mapM_cons, ha, ih has]
    rfl

/-- Items that are written and read again, each for itself. -/
theorem mapM_map_eq_some {α β γ : Type} {write : α → β} {read : β → Option γ} {back : α → γ}
    {as : List α} (h : ∀ a ∈ as, read (write a) = some (back a)) :
    (as.map write).mapM read = some (as.map back) := by
  rw [List.mapM_map]
  exact mapM_eq_some_map h

end Etp
