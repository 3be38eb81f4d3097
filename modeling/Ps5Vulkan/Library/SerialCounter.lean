import Mathlib.Data.Nat.ModEq

/-!
# Serial counters that skip zero

A counter of `M` values starts at zero, rises by one and goes from `M - 1` back to one, so zero is
held only before the first step. Two values are compared by the sign of their difference modulo
`M`. The comparison agrees with the order of the steps while the steps are less than `M / 2` apart;
crossing the skipped zero makes a difference one larger than the distance, never smaller.
-/

namespace SerialCounter

variable {M a b : Nat}

/-- The value the counter holds after `n` steps. -/
def serial (M n : Nat) : Nat :=
  if n = 0 then 0 else (n - 1) % (M - 1) + 1

/-- The counter's step. -/
def next (M v : Nat) : Nat :=
  if v = M - 1 then 1 else v + 1

/-- The difference of two values modulo `M`. -/
def distance (M v w : Nat) : Nat :=
  (v + M - w) % M

@[simp] theorem serial_zero (M : Nat) : serial M 0 = 0 := rfl

theorem serial_add_one (M n : Nat) : serial M (n + 1) = n % (M - 1) + 1 := by
  simp [serial]

theorem serial_lt (hM : 2 ≤ M) (n : Nat) : serial M n < M := by
  cases n with
  | zero => simp only [serial_zero]; omega
  | succ n =>
    have := Nat.mod_lt n (show 0 < M - 1 by omega)
    rw [serial_add_one]
    omega

/-- Stepping the value is the value after one more step. -/
theorem serial_succ (hM : 3 ≤ M) (n : Nat) : serial M (n + 1) = next M (serial M n) := by
  cases n with
  | zero =>
    have h : (0 : Nat) ≠ M - 1 := by omega
    simp [serial_add_one, next, h]
  | succ k =>
    have hlt := Nat.mod_lt k (show 0 < M - 1 by omega)
    rw [serial_add_one, serial_add_one, next, Nat.add_mod,
      Nat.mod_eq_of_lt (show 1 < M - 1 by omega)]
    by_cases hwrap : k % (M - 1) + 1 = M - 1
    · rw [if_pos hwrap, hwrap, Nat.mod_self]
    · rw [if_neg hwrap, Nat.mod_eq_of_lt (by omega)]

/-- Steps less than a turn apart differ by their distance, or by one more where the counter
skipped zero between them. -/
theorem distance_serial (hab : a ≤ b) (hd : b - a < M - 1) : distance M (serial M b) (serial M a) = b - a ∨
      distance M (serial M b) (serial M a) = b - a + 1 := by
  unfold distance
  cases a with
  | zero =>
    have hb : serial M b = b := by
      cases b with
      | zero => rfl
      | succ k => rw [serial_add_one, Nat.mod_eq_of_lt (by omega)]
    left
    rw [hb, serial_zero, Nat.sub_zero, Nat.add_mod_right, Nat.mod_eq_of_lt (by omega),
      Nat.sub_zero]
  | succ k =>
    obtain ⟨d, rfl⟩ := Nat.exists_eq_add_of_le hab
    have hlt := Nat.mod_lt k (show 0 < M - 1 by omega)
    have hd' : d % (M - 1) = d := Nat.mod_eq_of_lt (by omega)
    rw [show k + 1 + d = (k + d) + 1 by omega, serial_add_one, serial_add_one, Nat.add_mod, hd']
    by_cases hwrap : k % (M - 1) + d < M - 1
    · left
      rw [Nat.mod_eq_of_lt hwrap,
        show k % (M - 1) + d + 1 + M - (k % (M - 1) + 1) = d + M by omega,
        Nat.add_mod_right, Nat.mod_eq_of_lt (by omega)]
      omega
    · right
      have hmod : (k % (M - 1) + d) % (M - 1) = k % (M - 1) + d - (M - 1) := by
        rw [Nat.mod_eq_sub_mod (by omega), Nat.mod_eq_of_lt (by omega)]
      rw [hmod, Nat.mod_eq_of_lt (by omega)]
      omega

/-- Turning a difference around complements it. -/
theorem distance_symm (hM : 2 ≤ M) (n m : Nat) (h : 0 < distance M (serial M n) (serial M m)) :
    distance M (serial M m) (serial M n) = M - distance M (serial M n) (serial M m) := by
  have hn := serial_lt hM n
  have hm := serial_lt hM m
  unfold distance at h ⊢
  generalize serial M n = v at *
  generalize serial M m = w at *
  rcases Nat.lt_trichotomy v w with hlt | rfl | hgt
  · rw [show w + M - v = (w - v) + M by omega, Nat.add_mod_right, Nat.mod_eq_of_lt (by omega),
      Nat.mod_eq_of_lt (by omega)]
    omega
  · simp at h
  · rw [Nat.mod_eq_of_lt (by omega), show v + M - w = (v - w) + M by omega, Nat.add_mod_right,
      Nat.mod_eq_of_lt (by omega)]
    omega

/-- The comparison by the sign of the difference: `v` has come to `w` or past it. -/
def Reached (M v w : Nat) : Prop :=
  distance M v w < M / 2

/-- A later step has reached an earlier one unless they are half a turn apart. -/
theorem reached_of_le (hab : a ≤ b) (hd : b - a + 1 < M / 2) : Reached M (serial M b) (serial M a) := by
  unfold Reached
  rcases distance_serial hab (M := M) (by omega) with h | h <;> omega

/-- Within half a turn only the step itself is reached by a step not later than it. -/
theorem eq_of_reached (hab : a ≤ b) (hd : b - a < M / 2) (hM : 4 ≤ M) (hM2 : 2 ∣ M)
    (h : Reached M (serial M a) (serial M b)) : a = b := by
  by_contra hne
  unfold Reached at h
  have hb := distance_serial hab (M := M) (by omega)
  rw [distance_symm (by omega) b a (by omega)] at h
  omega

theorem reached_self (hM : 2 ≤ M) (v : Nat) : Reached M v v := by
  unfold Reached distance
  rw [Nat.add_sub_cancel_left, Nat.mod_self]
  omega

end SerialCounter
