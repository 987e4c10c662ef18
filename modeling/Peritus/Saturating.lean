import Mathlib

/-!
Arithmetic that stops at a limit: a total computed with cut-off sums agrees with
the exact total as far as the limit, and below the limit it is exact.
-/

namespace Peritus.Saturating

/-- `value` is `exact` up to what is cut off at the limit. -/
def Saturates (limit exact value : Nat) : Prop :=
  min value limit = min exact limit

variable {limit exact exact' value value' : Nat}

namespace Saturates

theorem refl (limit exact : Nat) : Saturates limit exact exact := rfl

theorem cut (h : Saturates limit exact value) :
    Saturates limit exact (min value limit) := by
  unfold Saturates at *
  omega

theorem add (h : Saturates limit exact value)
    (h' : Saturates limit exact' value') :
    Saturates limit (exact + exact') (min (value + value') limit) := by
  unfold Saturates at *
  omega

theorem foldl {α : Type*} {step : Nat → α → Nat} {weight : α → Nat}
    (hstep : ∀ exact value a, Saturates limit exact value →
      Saturates limit (exact + weight a) (step value a))
    (values : List α) (h : Saturates limit exact value) :
    Saturates limit (exact + (values.map weight).sum)
      (values.foldl step value) := by
  induction values generalizing exact value with
  | nil => exact h
  | cons a rest ih =>
      rw [List.map_cons, List.sum_cons, ← Nat.add_assoc, List.foldl_cons]
      exact ih (hstep _ _ a h)

theorem eq_of_lt (h : Saturates limit exact value) (hlt : value < limit) :
    value = exact := by
  unfold Saturates at h
  omega

theorem eq_of_exact_lt (h : Saturates limit exact value)
    (hlt : exact < limit) : value = exact := by
  unfold Saturates at h
  omega

end Saturates

end Peritus.Saturating
