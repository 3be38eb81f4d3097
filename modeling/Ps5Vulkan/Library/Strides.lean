import Mathlib.Tactic.Common
import Mathlib.Algebra.Order.Group.Nat

/-!
# Strides on a counter that wraps

Positions a stride apart, counted modulo `m`, below a limit of at most half of it. They stay below the
limit in one of two ways only: upward without wrapping, or downward, where the stride is nearly `m`.
-/

namespace Strides

variable {m limit start stride n : Nat}

/-- Upward positions are plain sums. -/
theorem upward (hlimit : limit ≤ m) (h : start + (n - 1) * stride < limit) {i : Nat} (hi : i < n) :
    (start + i * stride) % m < limit := by
  have hle : start + i * stride ≤ start + (n - 1) * stride :=
    Nat.add_le_add_left (Nat.mul_le_mul_right stride (Nat.le_sub_one_of_lt hi)) start
  have hlt : start + i * stride < limit := Nat.lt_of_le_of_lt hle h
  rw [Nat.mod_eq_of_lt (Nat.lt_of_lt_of_le hlt hlimit)]
  exact hlt

/-- A stride of nearly the modulus is a step down. -/
theorem mod_eq_sub (hstride : stride ≤ m) {i : Nat} (hi : i * (m - stride) ≤ start) (hstart : start < m) :
    (start + i * stride) % m = start - i * (m - stride) := by
  have hcycle : i * stride + i * (m - stride) = m * i := by
    rw [← Nat.mul_add, Nat.add_sub_cancel' hstride, Nat.mul_comm]
  have hsum : start + i * stride = start - i * (m - stride) + m * i := by omega
  rw [hsum, Nat.add_mul_mod_self_left]
  exact Nat.mod_eq_of_lt (by omega)

theorem downward (hstride : stride ≤ m) (hlimit : limit ≤ m) (hstart : start < limit)
    (h : (n - 1) * (m - stride) ≤ start) {i : Nat} (hi : i < n) : (start + i * stride) % m < limit := by
  have hle : i * (m - stride) ≤ start :=
    (Nat.mul_le_mul_right _ (Nat.le_sub_one_of_lt hi)).trans h
  rw [mod_eq_sub hstride hle (Nat.lt_of_lt_of_le hstart hlimit)]
  exact Nat.lt_of_le_of_lt (Nat.sub_le ..) hstart

/-- All positions are below the limit exactly where they go up to it, or down from below it. -/
theorem all_lt_iff (hpos : 0 < n) (hlimit : 2 * limit ≤ m) (hstart : start < m) (hstride : stride < m) :
    (∀ i < n, (start + i * stride) % m < limit) ↔
      start + (n - 1) * stride < limit ∨ start < limit ∧ (n - 1) * (m - stride) ≤ start := by
  constructor
  · intro h
    have hfirst : start < limit := by
      simpa [Nat.mod_eq_of_lt hstart] using h 0 hpos
    by_cases hup : stride + limit ≤ m
    · left
      have hsum : ∀ i < n, start + i * stride < limit := by
        intro i
        induction i with
        | zero => simpa using fun _ => hfirst
        | succ i ih =>
          intro hi
          have hprev := ih (Nat.lt_of_succ_lt hi)
          have hnext := h (i + 1) hi
          rw [Nat.succ_mul, ← Nat.add_assoc] at hnext ⊢
          rwa [Nat.mod_eq_of_lt (by omega)] at hnext
      exact hsum (n - 1) (Nat.sub_one_lt_of_lt hpos)
    · right
      have hsteps : ∀ i < n, i * (m - stride) ≤ start := by
        intro i
        induction i with
        | zero => simp
        | succ i ih =>
          intro hi
          have hprev := ih (Nat.lt_of_succ_lt hi)
          have hnext := h (i + 1) hi
          have hposition := mod_eq_sub hstride.le hprev hstart
          -- a step below zero would land past the limit
          by_contra hbelow
          rw [Nat.succ_mul] at hbelow
          rw [Nat.succ_mul, ← Nat.add_assoc, Nat.add_mod, hposition, Nat.mod_eq_of_lt hstride,
            Nat.mod_eq_of_lt (by omega)] at hnext
          omega
      exact ⟨hfirst, hsteps (n - 1) (Nat.sub_one_lt_of_lt hpos)⟩
  · rintro (hup | ⟨hfirst, hdown⟩) i hi
    · exact upward (by omega) hup hi
    · exact downward hstride.le (by omega) hfirst hdown hi

end Strides
