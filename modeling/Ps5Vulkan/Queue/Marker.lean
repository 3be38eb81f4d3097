import Ps5Vulkan.Library.SerialCounter

/-!
# Marker values

The queue gives every step the next value of a 32-bit count that skips zero and compares two values
by the sign of their difference (`ps5vk_queue.c`). The count is a serial counter of `2 ^ 32` values.
-/

namespace Ps5Vulkan.Queue

open SerialCounter

/-- The values of a 32-bit counter. -/
def markerTurn : Nat := 2 ^ 32

/-- `ps5vk_marker_reached`: whether a marker at `current` has passed `value`. -/
def markerReached (current value : UInt32) : Bool :=
  decide (0 ≤ (current - value).toInt32.toInt)

/-- The value after this one, of the marker's count and of the fence's. -/
def nextValue (value : UInt32) : UInt32 :=
  if value = 0xffffffff then 1 else value + 1

/-- The value of the `n`-th step. -/
def markerOf (n : Nat) : UInt32 :=
  UInt32.ofNat (serial markerTurn n)

@[simp] theorem toNat_markerOf (n : Nat) : (markerOf n).toNat = serial markerTurn n := by
  have h : serial markerTurn n < 2 ^ 32 := serial_lt (by decide) n
  simp only [markerOf, UInt32.toNat_ofNat']
  exact Nat.mod_eq_of_lt h

theorem toNat_nextValue (value : UInt32) : (nextValue value).toNat = next markerTurn value.toNat := by
  unfold nextValue next markerTurn
  by_cases h : value = 0xffffffff
  · subst h
    rfl
  · have hne : value.toNat ≠ 2 ^ 32 - 1 := fun heq => h (UInt32.toNat_inj.mp (by simpa using heq))
    have hlt := value.toNat_lt
    rw [if_neg h, if_neg hne, UInt32.toNat_add]
    simp only [UInt32.reduceToNat]
    omega

/-- Taking the next value moves to the next step. -/
@[simp] theorem nextValue_markerOf (n : Nat) : nextValue (markerOf n) = markerOf (n + 1) := by
  apply UInt32.toNat_inj.mp
  rw [toNat_nextValue, toNat_markerOf, toNat_markerOf, serial_succ (by decide)]

theorem markerReached_iff (current value : UInt32) :
    markerReached current value = true ↔ Reached markerTurn current.toNat value.toNat := by
  have hdist : (current - value).toNat = distance markerTurn current.toNat value.toNat := by
    have := value.toNat_lt
    rw [UInt32.toNat_sub, distance, markerTurn]
    congr 1
    omega
  have hlt := (current - value).toNat_lt
  rw [markerReached, decide_eq_true_iff, Reached, ← hdist, markerTurn]
  generalize current - value = d at hlt ⊢
  have hint : d.toInt32.toInt = d.toBitVec.toInt := rfl
  rw [hint, BitVec.toInt_eq_toNat_cond, UInt32.toNat_toBitVec]
  split <;> omega

@[simp] theorem markerReached_self (value : UInt32) : markerReached value value = true :=
  (markerReached_iff _ _).mpr (reached_self (by decide) _)

/-- A marker has reached every earlier step less than half a turn back. -/
theorem markerReached_of_le {a b : Nat} (hab : a ≤ b) (hd : b - a + 1 < 2 ^ 31) :
    markerReached (markerOf b) (markerOf a) = true := by
  rw [markerReached_iff, toNat_markerOf, toNat_markerOf]
  exact reached_of_le hab (by rw [markerTurn]; omega)

/-- Among steps less than half a turn apart, a marker that has reached a step not before its own
is that step's. -/
theorem eq_of_markerReached {a b : Nat} (hab : a ≤ b) (hd : b - a < 2 ^ 31)
    (h : markerReached (markerOf a) (markerOf b) = true) : a = b := by
  rw [markerReached_iff, toNat_markerOf, toNat_markerOf] at h
  exact eq_of_reached hab (by rw [markerTurn]; omega) (by decide) (by decide) h

end Ps5Vulkan.Queue
