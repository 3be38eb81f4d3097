import Mathlib.Tactic.Common

/-!
# Rounding up

A number rounded up to a multiple of a step.
-/

namespace Rounding

def up (value step : Nat) : Nat :=
  (value + step - 1) / step * step

theorem le_up (value : Nat) {step : Nat} (h : 0 < step) : value ≤ up value step := by
  have hdiv := Nat.lt_div_mul_add h (a := value + step - 1)
  unfold up
  omega

theorem dvd_up (value step : Nat) : step ∣ up value step :=
  Nat.dvd_mul_left ..

end Rounding
