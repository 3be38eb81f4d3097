import Mathlib.Algebra.GroupWithZero.Nat

/-!
# Numbers in files

The numbers of fixed width that files hold, least byte first.
-/

namespace Files

/-- The number in so many bytes, least first. -/
def toBytes : Nat → Nat → List UInt8
  | 0, _ => []
  | width + 1, number => UInt8.ofNat number :: toBytes width (number / 256)

def ofBytes : List UInt8 → Nat
  | [] => 0
  | byte :: bytes => byte.toNat + 256 * ofBytes bytes

@[simp] theorem length_toBytes (width number : Nat) : (toBytes width number).length = width := by
  induction width generalizing number with
  | zero => rfl
  | succ width ih => simp [toBytes, ih]

theorem ofBytes_toBytes {width number : Nat} (h : number < 256 ^ width) : ofBytes (toBytes width number) = number := by
  induction width generalizing number with
  | zero => exact (Nat.lt_one_iff.mp h).symm
  | succ width ih =>
    have hrest : number / 256 < 256 ^ width := by
      rw [Nat.div_lt_iff_lt_mul (by decide), ← Nat.pow_succ]
      exact h
    have hbyte : (UInt8.ofNat number).toNat = number % 256 := UInt8.toNat_ofNat'
    rw [toBytes, ofBytes, ih hrest, hbyte]
    exact Nat.mod_add_div number 256

theorem toBytes_injOn {width first second : Nat} (hfirst : first < 256 ^ width)
    (hsecond : second < 256 ^ width) (h : toBytes width first = toBytes width second) : first = second := by
  rw [← ofBytes_toBytes hfirst, h, ofBytes_toBytes hsecond]

end Files
