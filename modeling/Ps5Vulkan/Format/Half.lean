import Mathlib.Data.Nat.Bitwise
import Mathlib.Tactic.Linarith
import Mathlib.Tactic.Positivity
import Ps5Vulkan.Library.BinaryFloat

/-!
# The conversions to half floats

`ps5vk_half_from_float` of the clears and `ps5vk_float_to_half` of the blits, on the bits of a binary32.
Each is compared with the nearest binary16: the first keeps it but where a carry into an odd exponent is
lost, the second is off in the whole subnormal range and at ties with an even neighbour below.
-/

namespace Ps5Vulkan.Format

/-- `ps5vk_half_from_float`. -/
def halfFromFloat (value : BitVec 32) : BitVec 16 :=
  let bits := value.toNat
  let sign := (bits >>> 16) &&& 0x8000
  let exponent : Int := ((bits >>> 23) &&& 0xff : Nat) - 127 + 15
  let mantissa := bits &&& 0x7fffff
  BitVec.ofNat 16 <|
    if (bits >>> 23) &&& 0xff = 0xff then
      sign ||| 0x7c00 ||| (if mantissa ≠ 0 then 0x200 else 0)
    else if 0x1f ≤ exponent then
      sign ||| 0x7c00
    else if exponent ≤ 0 then
      if exponent < -10 then
        sign
      else
        let shifted := (mantissa ||| 0x800000) >>> (1 - exponent).toNat
        sign ||| ((shifted + 0x1000) >>> 13)
    else
      sign ||| (exponent.toNat <<< 10) ||| ((mantissa + 0x1000) >>> 13)

/-- `ps5vk_float_to_half`. -/
def floatToHalf (value : BitVec 32) : BitVec 16 :=
  let bits := value.toNat
  let sign := (bits >>> 16) &&& 0x8000
  let exponent : Int := ((bits >>> 23) &&& 0xff : Nat) - 127 + 15
  let mantissa := bits &&& 0x7fffff
  BitVec.ofNat 16 <|
    if (bits >>> 23) &&& 0xff = 0xff then
      sign ||| 0x7c00 ||| (if mantissa ≠ 0 then 0x200 else 0)
    else if 0x1f ≤ exponent then
      sign ||| 0x7c00
    else if exponent ≤ 0 then
      if exponent < -10 then
        sign
      else
        let mantissa := mantissa ||| 0x800000
        let shift := (14 - exponent).toNat
        let half := mantissa >>> shift
        let round := (mantissa >>> (shift - 1)) &&& 1
        sign ||| ((half + round) >>> 1)
    else
      let half := (exponent.toNat <<< 10) ||| (mantissa >>> 13)
      let round := (mantissa >>> 12) &&& 1
      sign ||| (half + round)

/-! ## The formats -/

section Formats

variable (b : BitVec 32)

/-- The exponent field of a binary32. -/
def exponent32 : Nat := b.toNat / 2 ^ 23 % 2 ^ 8

/-- The fraction of a binary32. -/
def fraction32 : Nat := b.toNat % 2 ^ 23

/-- A binary32 without its sign. -/
def magnitude32 : Nat := b.toNat % 2 ^ 31

/-- A binary16 without its sign. -/
def magnitude16 (h : BitVec 16) : Nat := h.toNat % 2 ^ 15

/-- Not a number. -/
def IsNaN32 : Prop := 0x7f800000 < magnitude32 b

def IsNaN16 (h : BitVec 16) : Prop := 0x7c00 < magnitude16 h

def IsInfinite16 (h : BitVec 16) : Prop := magnitude16 h = 0x7c00

def IsFinite16 (h : BitVec 16) : Prop := magnitude16 h < 0x7c00

instance (b : BitVec 32) : Decidable (IsNaN32 b) := inferInstanceAs (Decidable (_ < _))

instance (h : BitVec 16) : Decidable (IsFinite16 h) := inferInstanceAs (Decidable (_ < _))

/-- The sign as a factor. -/
def signOf (negative : Bool) : ℚ := if negative then -1 else 1

/-- The exact value of a binary32. An infinity counts as the power of two that would come next. -/
def value32 : ℚ := signOf b.msb * (units 23 (magnitude32 b) / 2 ^ 149)

/-- The exact value of a binary16. -/
def value16 (h : BitVec 16) : ℚ := signOf h.msb * (units 10 (magnitude16 h) / 2 ^ 24)

/-- A binary16 next to the value of a binary32: not a number for one that is none, an infinity from
halfway beyond the largest finite value on, and else a finite one that no other is nearer than. The sign
is kept. -/
def IsNearestHalf (h : BitVec 16) : Prop :=
  h.msb = b.msb ∧
    if IsNaN32 b then IsNaN16 h
    else if 65520 ≤ |value32 b| then IsInfinite16 h
    else IsFinite16 h ∧ ∀ q, IsFinite16 q → |value16 h - value32 b| ≤ |value16 q - value32 b|

/-- What rounding to nearest with ties to even gives. -/
def IsNearestEvenHalf (h : BitVec 16) : Prop :=
  IsNearestHalf b h ∧
    (¬ IsNaN32 b → |value32 b| < 65520 →
      ∀ q, IsFinite16 q → value16 q ≠ value16 h → |value16 q - value32 b| = |value16 h - value32 b| →
        h.toNat % 2 = 0)

/-! ## Magnitudes in units of the smallest binary32 -/

/-- The value of a binary16 magnitude. -/
def scaled (p : Nat) : Nat := units 10 p * 2 ^ 125

theorem scaled_strictMono : StrictMono scaled := fun _ _ h =>
  Nat.mul_lt_mul_of_pos_right (units_strictMono 10 h) (Nat.two_pow_pos 125)

theorem scaled_succ (p : Nat) : scaled (p + 1) = scaled p + ulp 10 p * 2 ^ 125 := by
  rw [scaled, units_succ, Nat.add_mul]
  rfl

/-- The binary16 with a sign and a magnitude. -/
def half (negative : Bool) (p : Nat) : BitVec 16 := BitVec.ofNat 16 (negative.toNat * 2 ^ 15 + p)

theorem half_toNat {negative : Bool} {p : Nat} (hp : p < 2 ^ 15) :
    (half negative p).toNat = negative.toNat * 2 ^ 15 + p := by
  have := Bool.toNat_le negative
  rw [half, BitVec.toNat_ofNat, Nat.mod_eq_of_lt (by omega)]

theorem half_msb {negative : Bool} {p : Nat} (hp : p < 2 ^ 15) : (half negative p).msb = negative := by
  rw [BitVec.msb_eq_decide, half_toNat hp]
  cases negative
  · exact decide_eq_false (by simp only [Bool.toNat_false]; omega)
  · exact decide_eq_true (by simp only [Bool.toNat_true]; omega)

theorem magnitude16_half {negative : Bool} {p : Nat} (hp : p < 2 ^ 15) : magnitude16 (half negative p) = p := by
  rw [magnitude16, half_toNat hp, Nat.add_comm, Nat.add_mul_mod_self_right, Nat.mod_eq_of_lt hp]

theorem toNat_mod_two (h : BitVec 16) : h.toNat % 2 = magnitude16 h % 2 := by
  unfold magnitude16
  omega

theorem dist_cast (a b : Nat) : ((Nat.dist a b : Nat) : ℚ) = |(a : ℚ) - b| := by
  rcases Nat.le_total a b with h | h
  · rw [Nat.dist_eq_sub_of_le h, Nat.cast_sub h, abs_sub_comm, abs_of_nonneg]
    exact sub_nonneg.2 (Nat.cast_le.2 h)
  · rw [Nat.dist_eq_sub_of_le_right h, Nat.cast_sub h, abs_of_nonneg]
    exact sub_nonneg.2 (Nat.cast_le.2 h)

theorem value16_eq (h : BitVec 16) : value16 h = signOf h.msb * (scaled (magnitude16 h) / 2 ^ 149) := by
  rw [value16, scaled]
  push_cast
  ring

theorem value16_inj {h h' : BitVec 16} (hsign : h.msb = h'.msb) :
    value16 h = value16 h' ↔ magnitude16 h = magnitude16 h' := by
  have hne : signOf h'.msb ≠ 0 := by cases h'.msb <;> simp [signOf]
  rw [value16_eq, value16_eq, hsign, mul_right_inj' hne, div_left_inj' (by positivity), Nat.cast_inj]
  exact scaled_strictMono.injective.eq_iff

theorem abs_signOf (negative : Bool) : |signOf negative| = 1 := by
  cases negative <;> simp [signOf]

theorem abs_value32 : |value32 b| = (units 23 (magnitude32 b) : ℚ) / 2 ^ 149 := by
  rw [value32, abs_mul, abs_signOf, one_mul, abs_of_nonneg (by positivity)]

/-- The distance of values with one sign is that of their magnitudes. -/
theorem abs_value_sub {h : BitVec 16} {b : BitVec 32} (hsign : h.msb = b.msb) :
    |value16 h - value32 b| = (Nat.dist (scaled (magnitude16 h)) (units 23 (magnitude32 b)) : ℚ) / 2 ^ 149 := by
  rw [value16_eq, value32, hsign, ← mul_sub, abs_mul, abs_signOf, one_mul, ← sub_div, abs_div, dist_cast,
    abs_of_pos (show (0 : ℚ) < 2 ^ 149 by positivity)]

/-- Values of different signs are as far apart as their magnitudes together. -/
theorem abs_value_sub_of_ne {h : BitVec 16} {b : BitVec 32} (hsign : h.msb ≠ b.msb) :
    |value16 h - value32 b| = ((scaled (magnitude16 h) + units 23 (magnitude32 b) : Nat) : ℚ) / 2 ^ 149 := by
  have hopposite : signOf h.msb = -signOf b.msb := by
    cases hh : h.msb <;> cases hb : b.msb <;> simp_all [signOf]
  have heq : value16 h - value32 b =
      -(signOf b.msb * (((scaled (magnitude16 h) + units 23 (magnitude32 b) : Nat) : ℚ) / 2 ^ 149)) := by
    rw [value16_eq, value32, hopposite]
    push_cast
    ring
  rw [heq, abs_neg, abs_mul, abs_signOf, one_mul, abs_of_nonneg (by positivity)]

/-- Halfway from the largest finite binary16 to the power of two after it. -/
def overflow : Nat := 65520 * 2 ^ 149

theorem two_mul_overflow : 2 * overflow = scaled 0x7bff + scaled (0x7bff + 1) := by
  norm_num [overflow, scaled, units]

theorem le_abs_value32_iff : 65520 ≤ |value32 b| ↔ overflow ≤ units 23 (magnitude32 b) := by
  have hcast : ((overflow : Nat) : ℚ) = 65520 * 2 ^ 149 := by
    rw [overflow]
    norm_num
  rw [abs_value32, le_div_iff₀ (by positivity), ← hcast, Nat.cast_le]

theorem nearest_finite_iff {b : BitVec 32} {h : BitVec 16} (hsign : h.msb = b.msb) :
    (IsFinite16 h ∧ ∀ q, IsFinite16 q → |value16 h - value32 b| ≤ |value16 q - value32 b|) ↔
      Nearest scaled 0x7bff (units 23 (magnitude32 b)) (magnitude16 h) := by
  have hpos : (0 : ℚ) < 2 ^ 149 := by positivity
  unfold IsFinite16 Nearest
  refine and_congr (Nat.lt_succ_iff (n := 0x7bff)) ⟨fun hnearest q hq => ?_, fun hnearest q hq => ?_⟩
  · have hlt : q < 2 ^ 15 := by omega
    have hq := hnearest (half b.msb q) (by rw [magnitude16_half hlt]; omega)
    rw [abs_value_sub hsign, abs_value_sub (half_msb hlt), magnitude16_half hlt,
      div_le_div_iff_of_pos_right hpos, Nat.cast_le] at hq
    exact hq
  · rw [abs_value_sub hsign]
    by_cases hq' : q.msb = b.msb
    · rw [abs_value_sub hq', div_le_div_iff_of_pos_right hpos, Nat.cast_le]
      exact hnearest _ (by omega)
    · -- A value on the other side of zero is further away than zero.
      rw [abs_value_sub_of_ne hq', div_le_div_iff_of_pos_right hpos, Nat.cast_le]
      have hzero := hnearest 0 (Nat.zero_le _)
      have hscaled : scaled 0 = 0 := by decide
      rw [hscaled] at hzero
      simp only [Nat.dist] at hzero ⊢
      omega

theorem isNearestHalf_iff {b : BitVec 32} {h : BitVec 16} (hsign : h.msb = b.msb) (hnan : ¬ IsNaN32 b) :
    IsNearestHalf b h ↔ if overflow ≤ units 23 (magnitude32 b) then magnitude16 h = 0x7c00
      else Nearest scaled 0x7bff (units 23 (magnitude32 b)) (magnitude16 h) := by
  unfold IsNearestHalf
  rw [if_neg hnan, nearest_finite_iff hsign]
  simp only [le_abs_value32_iff, hsign, true_and]
  rfl

/-- Rounding to nearest even, told by magnitudes. -/
theorem isNearestEvenHalf_iff {b : BitVec 32} {h : BitVec 16} (hsign : h.msb = b.msb) (hnan : ¬ IsNaN32 b) :
    IsNearestEvenHalf b h ↔ NearestEven scaled 0x7c00 (units 23 (magnitude32 b)) (magnitude16 h) := by
  have hpos : (0 : ℚ) < 2 ^ 149 := by positivity
  unfold IsNearestEvenHalf
  rw [isNearestHalf_iff hsign hnan, ← not_le, le_abs_value32_iff]
  have htwo := two_mul_overflow
  by_cases hover : overflow ≤ units 23 (magnitude32 b)
  · rw [if_pos hover, nearestEven_iff_of_le scaled_strictMono (by omega) (by decide)]
    exact ⟨And.left, fun hmag => ⟨hmag, fun _ hlt => absurd hover hlt⟩⟩
  · have hlt : 2 * units 23 (magnitude32 b) < scaled 0x7bff + scaled (0x7bff + 1) := by omega
    rw [if_neg hover, ← nearest_succ_iff scaled_strictMono hlt]
    unfold NearestEven
    refine and_congr_right fun hnearest => ⟨fun htie q hq hne hdist => ?_, fun htie _ _ q hq hne hdist => ?_⟩
    · have hle := (nearest_succ_iff scaled_strictMono hlt).1 hnearest
      have hq' : q ≠ 0x7bff + 1 := by
        rintro rfl
        have := hle.2 0x7bff le_rfl
        have hstep : scaled 0x7bff < scaled (0x7bff + 1) := scaled_strictMono (Nat.lt_succ_self _)
        simp only [Nat.dist] at this hdist
        omega
      have hbound : q < 2 ^ 15 := by omega
      rw [← toNat_mod_two]
      refine htie hnan hover (half b.msb q) (by rw [IsFinite16, magnitude16_half hbound]; omega) ?_ ?_
      · rw [Ne, value16_inj ((half_msb hbound).trans hsign.symm), magnitude16_half hbound]
        exact hne
      · rw [abs_value_sub hsign, abs_value_sub (half_msb hbound), magnitude16_half hbound, hdist]
    · rw [toNat_mod_two]
      rw [abs_value_sub hsign] at hdist
      by_cases hq' : q.msb = b.msb
      · rw [abs_value_sub hq', div_left_inj' hpos.ne', Nat.cast_inj] at hdist
        refine htie _ (Nat.le_of_lt hq) (fun heq => hne ?_) hdist
        exact (value16_inj (hq'.trans hsign.symm)).2 heq
      · -- A value as near on the other side of zero is zero.
        rw [abs_value_sub_of_ne hq', div_left_inj' hpos.ne', Nat.cast_inj] at hdist
        have hzero := hnearest.2 0 (Nat.zero_le _)
        have hscaled : scaled 0 = 0 := by decide
        rw [hscaled] at hzero
        simp only [Nat.dist] at hzero hdist
        have hq0 : scaled (magnitude16 q) = 0 := by omega
        refine htie 0 (Nat.zero_le _) (fun heq => hne ?_) ?_
        · rw [value16_eq, value16_eq, hq0, ← heq, hscaled, Nat.cast_zero, zero_div, mul_zero, mul_zero]
        · rw [hscaled]
          simp only [Nat.dist]
          omega

end Formats

/-- The nearest binary16 with the infinity taken for the power of two after the finite ones. -/
theorem nearest_or_overflow_iff {v p : Nat} : (if overflow ≤ v then p = 0x7c00 else Nearest scaled 0x7bff v p) ↔
      Nearest scaled (0x7bff + 1) v p ∧ (v = overflow → p = 0x7bff + 1) := by
  have htwo := two_mul_overflow
  by_cases hover : overflow ≤ v
  · rw [if_pos hover]
    rcases Nat.eq_or_lt_of_le hover with rfl | hlt
    · refine ⟨fun hp => ⟨?_, fun _ => hp⟩, fun h => h.2 rfl⟩
      rw [hp]
      exact ((nearestEven_iff_of_le scaled_strictMono htwo.ge (by decide)).2 rfl).1
    · rw [nearest_iff_of_lt scaled_strictMono (by omega)]
      exact ⟨fun hp => ⟨hp, fun _ => hp⟩, And.left⟩
  · have hfinite : Nearest scaled (0x7bff + 1) v p ↔ Nearest scaled 0x7bff v p :=
      nearest_succ_iff scaled_strictMono (by omega)
    rw [if_neg hover, hfinite]
    exact ⟨fun hp => ⟨hp, fun hv => absurd hv.ge hover⟩, And.left⟩

/-! ## The fields of a binary32 -/

section Fields

variable (b : BitVec 32)

theorem sign_eq : (b.toNat >>> 16) &&& 0x8000 = b.msb.toNat <<< 15 := by
  have hbit : (b.toNat >>> 16).testBit 15 = b.msb := by
    rw [Nat.testBit_shiftRight]
    rfl
  rw [show 0x8000 = 2 ^ 15 from rfl, Nat.and_two_pow, hbit, Nat.shiftLeft_eq]

theorem exponent_eq : (b.toNat >>> 23) &&& 0xff = exponent32 b := by
  rw [show 0xff = 2 ^ 8 - 1 from rfl, Nat.and_two_pow_sub_one_eq_mod, Nat.shiftRight_eq_div_pow]
  rfl

theorem fraction_eq : b.toNat &&& 0x7fffff = fraction32 b := by
  rw [show 0x7fffff = 2 ^ 23 - 1 from rfl, Nat.and_two_pow_sub_one_eq_mod]
  rfl

theorem exponent32_lt : exponent32 b < 2 ^ 8 := Nat.mod_lt _ (Nat.two_pow_pos 8)

theorem fraction32_lt : fraction32 b < 2 ^ 23 := Nat.mod_lt _ (Nat.two_pow_pos 23)

theorem magnitude32_eq : magnitude32 b = exponent32 b * 2 ^ 23 + fraction32 b := by
  unfold magnitude32 exponent32 fraction32
  omega

theorem units_magnitude32_of_pos (h : 0 < exponent32 b) :
    units 23 (magnitude32 b) = (2 ^ 23 + fraction32 b) * 2 ^ (exponent32 b - 1) := by
  obtain ⟨e, he⟩ : ∃ e, exponent32 b = e + 1 := ⟨exponent32 b - 1, by omega⟩
  rw [magnitude32_eq, he, units_add (fraction32_lt b), Nat.add_sub_cancel]

/-- A sign and a magnitude below it. -/
theorem ofNat_sign_or {x : Nat} (hx : x < 2 ^ 15) : BitVec.ofNat 16 (b.msb.toNat <<< 15 ||| x) = half b.msb x := by
  rw [half, ← Nat.shiftLeft_add_eq_or_of_lt hx, Nat.shiftLeft_eq]

theorem or_implicit_one {m : Nat} (hm : m < 2 ^ 23) : m ||| 0x800000 = 2 ^ 23 + m := by
  have hor := Nat.two_pow_add_eq_or_of_lt hm 1
  rw [Nat.mul_one] at hor
  rw [hor, Nat.or_comm]

end Fields

/-! ## Where a binary32 lies between two magnitudes of binary16 -/

section Between

/-- A binary16 magnitude in the normal range. -/
theorem scaled_normal {e k : Nat} (he : 113 ≤ e) (hk : k < 2 ^ 10) :
    scaled ((e - 112) * 2 ^ 10 + k) = (2 ^ 10 + k) * 2 ^ 13 * 2 ^ (e - 1) := by
  obtain ⟨d, rfl⟩ : ∃ d, e = d + 113 := ⟨e - 113, by omega⟩
  have hexponent : d + 113 - 112 = d + 1 := by omega
  have hpow : 2 ^ d * 2 ^ 125 = 2 ^ 13 * 2 ^ (d + 113 - 1) := by
    rw [← Nat.pow_add, ← Nat.pow_add]
    exact congrArg (2 ^ ·) (by omega)
  rw [scaled, hexponent, units_add hk, Nat.mul_assoc, hpow, Nat.mul_assoc]

/-- The step after it. -/
theorem scaled_normal_succ {e k : Nat} (he : 113 ≤ e) (hk : k < 2 ^ 10) :
    scaled ((e - 112) * 2 ^ 10 + k + 1) = ((2 ^ 10 + k) * 2 ^ 13 + 2 ^ 13) * 2 ^ (e - 1) := by
  have hdiv : ((e - 112) * 2 ^ 10 + k) / 2 ^ 10 = e - 112 := by omega
  have hstep : 2 ^ (e - 112 - 1) * 2 ^ 125 = 2 ^ 13 * 2 ^ (e - 1) := by
    rw [← Nat.pow_add, ← Nat.pow_add]
    exact congrArg (2 ^ ·) (by omega)
  rw [scaled_succ, scaled_normal he hk, ulp, hdiv, hstep, ← Nat.add_mul]

/-- A binary16 magnitude in the subnormal range or just above it. -/
theorem scaled_subnormal {p : Nat} (hp : p ≤ 2 ^ 10) : scaled p = p * 2 ^ 125 := by
  rcases Nat.lt_or_ge p (2 ^ 10) with hlt | hge
  · rw [scaled, units_of_lt hlt]
  · obtain rfl : p = 2 ^ 10 := by omega
    norm_num [scaled, units]

/-- A significand by the binary16 below it and the rest. -/
theorem significand_normal (e m : Nat) :
    (2 ^ 23 + m) * 2 ^ (e - 1) = ((2 ^ 10 + m / 2 ^ 13) * 2 ^ 13 + m % 2 ^ 13) * 2 ^ (e - 1) := by
  have hsplit : 2 ^ 23 + m = (2 ^ 10 + m / 2 ^ 13) * 2 ^ 13 + m % 2 ^ 13 := by omega
  rw [hsplit]

variable {e m q : Nat}

theorem nearest_normal_iff (he : 113 ≤ e) (he' : e ≤ 142) (hm : m < 2 ^ 23) :
    Nearest scaled (0x7bff + 1) ((2 ^ 23 + m) * 2 ^ (e - 1)) q ↔
      q = (e - 112) * 2 ^ 10 + m / 2 ^ 13 ∧ 2 * (m % 2 ^ 13) ≤ 2 ^ 13 ∨
        q = (e - 112) * 2 ^ 10 + m / 2 ^ 13 + 1 ∧ 2 ^ 13 ≤ 2 * (m % 2 ^ 13) := by
  have hk : m / 2 ^ 13 < 2 ^ 10 := by omega
  exact nearest_iff_of_part scaled_strictMono (scaled_normal he hk) (scaled_normal_succ he hk)
    (significand_normal e m) (Nat.two_pow_pos _) (by omega) (by omega)

theorem nearestEven_normal_iff (he : 113 ≤ e) (he' : e ≤ 142) (hm : m < 2 ^ 23) :
    NearestEven scaled (0x7bff + 1) ((2 ^ 23 + m) * 2 ^ (e - 1)) q ↔ q = (e - 112) * 2 ^ 10 + m / 2 ^ 13 ∧
          (2 * (m % 2 ^ 13) < 2 ^ 13 ∨ 2 * (m % 2 ^ 13) = 2 ^ 13 ∧ m / 2 ^ 13 % 2 = 0) ∨
        q = (e - 112) * 2 ^ 10 + m / 2 ^ 13 + 1 ∧
          (2 ^ 13 < 2 * (m % 2 ^ 13) ∨ 2 * (m % 2 ^ 13) = 2 ^ 13 ∧ m / 2 ^ 13 % 2 = 1) := by
  have hk : m / 2 ^ 13 < 2 ^ 10 := by omega
  rw [nearestEven_iff_of_part scaled_strictMono (scaled_normal he hk) (scaled_normal_succ he hk)
    (significand_normal e m) (Nat.two_pow_pos _) (by omega) (by omega)]
  omega

/-- Below half the smallest binary16 zero is the nearest. -/
theorem nearestEven_zero {v : Nat} (hv : v < 2 ^ 124) : NearestEven scaled (0x7bff + 1) v 0 := by
  have hzero : scaled 0 = 0 := by decide
  have hone : scaled (0 + 1) = 2 ^ 125 := by norm_num [scaled, units]
  refine (nearestEven_iff_of_between scaled_strictMono (p := 0) (by omega) (by omega) (by decide)).2 ?_
  exact Or.inl ⟨rfl, Or.inl (by omega)⟩

/-- A significand in the subnormal range by the binary16 below it and the rest. -/
theorem nearest_subnormal_aux {s : Nat} (he : 102 ≤ e) (he' : e ≤ 112) (hm : m < 2 ^ 23) (hs : s = 126 - e) :
    scaled ((2 ^ 23 + m) / 2 ^ s) = (2 ^ 23 + m) / 2 ^ s * 2 ^ s * 2 ^ (e - 1) ∧
      scaled ((2 ^ 23 + m) / 2 ^ s + 1) = ((2 ^ 23 + m) / 2 ^ s * 2 ^ s + 2 ^ s) * 2 ^ (e - 1) ∧
      (2 ^ 23 + m) * 2 ^ (e - 1) = ((2 ^ 23 + m) / 2 ^ s * 2 ^ s + (2 ^ 23 + m) % 2 ^ s) * 2 ^ (e - 1) ∧
      (2 ^ 23 + m) / 2 ^ s < 2 ^ 10 := by
  have hpow : 2 ^ s * 2 ^ (e - 1) = 2 ^ 125 := by
    rw [← Nat.pow_add]
    exact congrArg (2 ^ ·) (by omega)
  have hlt : (2 ^ 23 + m) / 2 ^ s < 2 ^ 10 := by
    have hs' : 2 ^ 14 ≤ 2 ^ s := Nat.pow_le_pow_right Nat.two_pos (by omega)
    rw [Nat.div_lt_iff_lt_mul (Nat.two_pow_pos s)]
    omega
  refine ⟨?_, ?_, ?_, hlt⟩
  · rw [scaled_subnormal hlt.le, Nat.mul_assoc, hpow]
  · rw [scaled_subnormal hlt, Nat.add_mul, Nat.mul_assoc, hpow, Nat.succ_mul]
  · rw [Nat.div_add_mod']

theorem nearest_subnormal_iff (he : 102 ≤ e) (he' : e ≤ 112) (hm : m < 2 ^ 23) :
    Nearest scaled (0x7bff + 1) ((2 ^ 23 + m) * 2 ^ (e - 1)) q ↔
      q = (2 ^ 23 + m) / 2 ^ (126 - e) ∧ 2 * ((2 ^ 23 + m) % 2 ^ (126 - e)) ≤ 2 ^ (126 - e) ∨
        q = (2 ^ 23 + m) / 2 ^ (126 - e) + 1 ∧ 2 ^ (126 - e) ≤ 2 * ((2 ^ 23 + m) % 2 ^ (126 - e)) := by
  obtain ⟨hlo, hhi, hv, hlt⟩ := nearest_subnormal_aux he he' hm rfl
  have hrest := Nat.mod_lt (2 ^ 23 + m) (Nat.two_pow_pos (126 - e))
  exact nearest_iff_of_part scaled_strictMono hlo hhi hv (Nat.two_pow_pos _) hrest.le (by omega)

theorem nearestEven_subnormal_iff (he : 102 ≤ e) (he' : e ≤ 112) (hm : m < 2 ^ 23) :
    NearestEven scaled (0x7bff + 1) ((2 ^ 23 + m) * 2 ^ (e - 1)) q ↔
      q = (2 ^ 23 + m) / 2 ^ (126 - e) ∧ (2 * ((2 ^ 23 + m) % 2 ^ (126 - e)) < 2 ^ (126 - e) ∨
            2 * ((2 ^ 23 + m) % 2 ^ (126 - e)) = 2 ^ (126 - e) ∧
              (2 ^ 23 + m) / 2 ^ (126 - e) % 2 = 0) ∨ q = (2 ^ 23 + m) / 2 ^ (126 - e) + 1 ∧
          (2 ^ (126 - e) < 2 * ((2 ^ 23 + m) % 2 ^ (126 - e)) ∨ 2 * ((2 ^ 23 + m) % 2 ^ (126 - e)) = 2 ^ (126 - e) ∧
              ((2 ^ 23 + m) / 2 ^ (126 - e) + 1) % 2 = 0) := by
  obtain ⟨hlo, hhi, hv, hlt⟩ := nearest_subnormal_aux he he' hm rfl
  have hrest := Nat.mod_lt (2 ^ 23 + m) (Nat.two_pow_pos (126 - e))
  exact nearestEven_iff_of_part scaled_strictMono hlo hhi hv (Nat.two_pow_pos _) hrest.le (by omega)

end Between

/-! ## What the two conversions share -/

section Convert

/-- The magnitude of a conversion by the fields of the binary32, with its own rounding in the subnormal
and in the normal range. -/
def convert (subnormal normal : Nat → Nat → Nat) (e m : Nat) : Nat :=
  if e = 0xff then 0x7c00 ||| (if m ≠ 0 then 0x200 else 0)
  else if 143 ≤ e then 0x7c00
  else if e < 102 then 0
  else if e ≤ 112 then subnormal e m
  else normal e m

variable {subnormal normal : Nat → Nat → Nat} {e m : Nat}

theorem convert_lt (hsub : e ≤ 112 → subnormal e m < 2 ^ 15) (hnormal : e ≤ 142 → normal e m < 2 ^ 15) :
    convert subnormal normal e m < 2 ^ 15 := by
  unfold convert
  split_ifs with h1 h2 h3 h4 h5
  · decide
  · decide
  · decide
  · decide
  · exact hsub h5
  · exact hnormal (by omega)

theorem convert_subnormal (he : 102 ≤ e) (he' : e ≤ 112) : convert subnormal normal e m = subnormal e m := by
  rw [convert, if_neg (by omega), if_neg (by omega), if_neg (by omega), if_pos he']

theorem convert_normal (he : 113 ≤ e) (he' : e ≤ 142) : convert subnormal normal e m = normal e m := by
  rw [convert, if_neg (by omega), if_neg (by omega), if_neg (by omega), if_neg (by omega)]

variable (b : BitVec 32)

theorem isNaN32_iff : IsNaN32 b ↔ exponent32 b = 0xff ∧ fraction32 b ≠ 0 := by
  have he := exponent32_lt b
  have hm := fraction32_lt b
  rw [IsNaN32, magnitude32_eq]
  omega

/-- A binary32 this small is below half the smallest binary16. -/
theorem units_magnitude32_lt (he : exponent32 b < 102) : units 23 (magnitude32 b) < 2 ^ 124 := by
  have hm := fraction32_lt b
  rcases Nat.eq_zero_or_pos (exponent32 b) with hzero | hpos
  · rw [magnitude32_eq, hzero, Nat.zero_mul, Nat.zero_add, units_of_lt hm]
    omega
  · have hpow : 2 ^ (exponent32 b - 1) ≤ 2 ^ 100 := Nat.pow_le_pow_right Nat.two_pos (by omega)
    rw [units_magnitude32_of_pos b hpos]
    calc (2 ^ 23 + fraction32 b) * 2 ^ (exponent32 b - 1)
        < 2 ^ 24 * 2 ^ (exponent32 b - 1) :=
          Nat.mul_lt_mul_of_pos_right (by omega) (Nat.two_pow_pos _)
      _ ≤ 2 ^ 24 * 2 ^ 100 := Nat.mul_le_mul_left _ hpow
      _ = 2 ^ 124 := (Nat.pow_add 2 24 100).symm

/-- A binary32 that is no number becomes a binary16 that is none. -/
theorem isNaN16_convert (he : e = 0xff) (hm : m ≠ 0) (negative : Bool) :
    IsNaN16 (half negative (convert subnormal normal e m)) := by
  have heq : convert subnormal normal e m = 0x7e00 := by
    rw [convert, if_pos he, if_pos hm]
    rfl
  rw [heq, IsNaN16, magnitude16_half (by decide)]
  decide

/-- From 2¹⁶ on a binary32 is beyond the overflow threshold. -/
theorem overflow_lt {e : Nat} (m : Nat) (he : 143 ≤ e) : overflow < (2 ^ 23 + m) * 2 ^ (e - 1) := by
  have hpow : 2 ^ 142 ≤ 2 ^ (e - 1) := Nat.pow_le_pow_right Nat.two_pos (by omega)
  calc overflow < 2 ^ 23 * 2 ^ 142 := by norm_num [overflow]
    _ ≤ (2 ^ 23 + m) * 2 ^ (e - 1) := Nat.mul_le_mul (Nat.le_add_right ..) hpow

/-- Below 2¹⁵ it is below the threshold. -/
theorem lt_overflow {e m : Nat} (he : e ≤ 141) (hm : m < 2 ^ 23) : (2 ^ 23 + m) * 2 ^ (e - 1) < overflow := by
  have hpow : 2 ^ (e - 1) ≤ 2 ^ 140 := Nat.pow_le_pow_right Nat.two_pos (by omega)
  calc (2 ^ 23 + m) * 2 ^ (e - 1) ≤ 2 ^ 24 * 2 ^ 140 := Nat.mul_le_mul (by omega) hpow
    _ < overflow := by norm_num [overflow]

theorem eq_overflow_iff {m : Nat} : (2 ^ 23 + m) * 2 ^ (142 - 1) = overflow ↔ m = 0x7ff000 := by
  have hover : overflow = (2 ^ 23 + 0x7ff000) * 2 ^ (142 - 1) := by norm_num [overflow]
  rw [hover, Nat.mul_left_inj (Nat.two_pow_pos _).ne']
  omega

/-- Outside the two ranges both conversions round to nearest even. -/
theorem nearestEven_convert_outside (hnan : ¬ IsNaN32 b) (hrange : exponent32 b < 102 ∨ 143 ≤ exponent32 b) :
    NearestEven scaled (0x7bff + 1) (units 23 (magnitude32 b))
      (convert subnormal normal (exponent32 b) (fraction32 b)) := by
  rw [isNaN32_iff] at hnan
  rcases hrange with hunder | hover
  · have hzero : convert subnormal normal (exponent32 b) (fraction32 b) = 0 := by
      rw [convert, if_neg (by omega), if_neg (by omega), if_pos hunder]
    rw [hzero]
    exact nearestEven_zero (units_magnitude32_lt b hunder)
  · have hinfinite : convert subnormal normal (exponent32 b) (fraction32 b) = 0x7bff + 1 := by
      by_cases hspecial : exponent32 b = 0xff
      · rw [convert, if_pos hspecial, if_neg (by omega)]
        rfl
      · rw [convert, if_neg hspecial, if_pos hover]
    have hbeyond := overflow_lt (fraction32 b) hover
    have htwo := two_mul_overflow
    rw [hinfinite, units_magnitude32_of_pos b (by omega)]
    exact (nearestEven_iff_of_le scaled_strictMono (by omega) (by decide)).2 rfl

theorem units_magnitude32_ne_overflow
    (hrange : exponent32 b < 102 ∨ 143 ≤ exponent32 b) : units 23 (magnitude32 b) ≠ overflow := by
  rcases hrange with hunder | hover
  · have hlt : 2 ^ 124 < overflow := by norm_num [overflow]
    exact ((units_magnitude32_lt b hunder).trans hlt).ne
  · rw [units_magnitude32_of_pos b (by omega)]
    exact (overflow_lt (fraction32 b) hover).ne'

/-- What a conversion's code computes, given what it computes in the two ranges. -/
theorem ofNat_convert (hsub : exponent32 b ≤ 112 → subnormal (exponent32 b) (fraction32 b) < 2 ^ 15)
    (hnormal : exponent32 b ≤ 142 → normal (exponent32 b) (fraction32 b) < 2 ^ 15) :
    (BitVec.ofNat 16 <| if exponent32 b = 0xff then
        b.msb.toNat <<< 15 ||| 0x7c00 ||| (if fraction32 b ≠ 0 then 0x200 else 0)
      else if (0x1f : Int) ≤ (exponent32 b : Int) - 127 + 15 then b.msb.toNat <<< 15 ||| 0x7c00
      else if (exponent32 b : Int) - 127 + 15 ≤ 0 then if (exponent32 b : Int) - 127 + 15 < -10 then
          b.msb.toNat <<< 15 else b.msb.toNat <<< 15 ||| subnormal (exponent32 b) (fraction32 b)
      else b.msb.toNat <<< 15 ||| normal (exponent32 b) (fraction32 b)) =
      half b.msb (convert subnormal normal (exponent32 b) (fraction32 b)) := by
  rw [← ofNat_sign_or b (convert_lt hsub hnormal), convert]
  generalize exponent32 b = e
  have hlarge : (0x1f : Int) ≤ (e : Int) - 127 + 15 ↔ 143 ≤ e := by omega
  have hsmall : (e : Int) - 127 + 15 ≤ 0 ↔ e ≤ 112 := by omega
  have htiny : (e : Int) - 127 + 15 < -10 ↔ e < 102 := by omega
  simp only [hlarge, hsmall, htiny, Nat.or_assoc]
  by_cases hspecial : e = 0xff
  · rw [if_pos hspecial, if_pos hspecial]
  · rw [if_neg hspecial, if_neg hspecial]
    by_cases hover : 143 ≤ e
    · rw [if_pos hover, if_pos hover]
    · rw [if_neg hover, if_neg hover]
      by_cases hunder : e < 102
      · rw [if_pos (by omega), if_pos hunder, if_pos hunder, Nat.or_zero]
      · rw [if_neg hunder, if_neg hunder]
        by_cases hrange : e ≤ 112
        · rw [if_pos hrange, if_pos hrange]
        · rw [if_neg hrange, if_neg hrange]

end Convert

/-! ## The clears' conversion -/

/-- Setting the lowest bit. -/
theorem or_one_eq (n : Nat) : n ||| 1 = n / 2 * 2 + 1 := by
  have hor : ∀ k, 2 * k + 1 = 2 * k ||| 1 := fun k => Nat.two_pow_add_eq_or_of_lt (show 1 < 2 ^ 1 by decide) k
  rcases Nat.mod_two_eq_zero_or_one n with heven | hodd
  · obtain ⟨k, rfl⟩ : ∃ k, n = 2 * k := ⟨n / 2, by omega⟩
    rw [← hor]
    omega
  · obtain ⟨k, rfl⟩ : ∃ k, n = 2 * k + 1 := ⟨n / 2, by omega⟩
    rw [hor, Nat.or_assoc, Nat.or_self, ← hor]
    omega

/-- The rounding of `ps5vk_half_from_float` in the subnormal range. -/
def clearSubnormal (e m : Nat) : Nat := ((2 ^ 23 + m) / 2 ^ (113 - e) + 0x1000) / 2 ^ 13

/-- Its rounding in the normal range. -/
def clearNormal (e m : Nat) : Nat := (e - 112) <<< 10 ||| (m + 0x1000) / 2 ^ 13

theorem clearSubnormal_lt {e m : Nat} (hm : m < 2 ^ 23) : clearSubnormal e m < 2 ^ 15 := by
  have hdiv : (2 ^ 23 + m) / 2 ^ (113 - e) ≤ 2 ^ 23 + m := Nat.div_le_self ..
  unfold clearSubnormal
  omega

theorem clearNormal_lt {e m : Nat} (he : e ≤ 142) (hm : m < 2 ^ 23) : clearNormal e m < 2 ^ 15 := by
  refine Nat.or_lt_two_pow ?_ (by omega)
  rw [Nat.shiftLeft_eq]
  omega

theorem halfFromFloat_eq (b : BitVec 32) :
    halfFromFloat b = half b.msb (convert clearSubnormal clearNormal (exponent32 b) (fraction32 b)) := by
  have hm := fraction32_lt b
  have hshift : (1 - ((exponent32 b : Int) - 127 + 15)).toNat = 113 - exponent32 b := by omega
  have hexponent : ((exponent32 b : Int) - 127 + 15).toNat = exponent32 b - 112 := by omega
  rw [← ofNat_convert b (fun _ => clearSubnormal_lt hm) fun he => clearNormal_lt he hm]
  unfold halfFromFloat clearSubnormal clearNormal
  dsimp only
  rw [sign_eq, exponent_eq, fraction_eq, or_implicit_one hm, hshift, hexponent]
  simp only [Nat.shiftRight_eq_div_pow, Nat.or_assoc]

/-- In the normal range the rounded fraction is or-ed to the exponent, which loses its carry when the
exponent is odd. -/
theorem clearNormal_eq {e m : Nat} (hm : m < 2 ^ 23) : clearNormal e m =
      if 0x7ff000 ≤ m then (e - 112) / 2 * 2 * 2 ^ 10 + 2 ^ 10 else (e - 112) * 2 ^ 10 + (m + 0x1000) / 2 ^ 13 := by
  unfold clearNormal
  split_ifs with hcarry
  · have hround : (m + 0x1000) / 2 ^ 13 = 1 <<< 10 := by omega
    rw [hround, ← Nat.shiftLeft_or_distrib, or_one_eq, Nat.shiftLeft_eq, Nat.add_mul, Nat.one_mul]
  · have hround : (m + 0x1000) / 2 ^ 13 < 2 ^ 10 := by omega
    rw [← Nat.shiftLeft_add_eq_or_of_lt hround, Nat.shiftLeft_eq]

theorem clearNormal_nearest_iff {e m : Nat} (he : 113 ≤ e) (he' : e ≤ 142) (hm : m < 2 ^ 23) :
    (Nearest scaled (0x7bff + 1) ((2 ^ 23 + m) * 2 ^ (e - 1)) (clearNormal e m) ∧
        ((2 ^ 23 + m) * 2 ^ (e - 1) = overflow → clearNormal e m = 0x7bff + 1)) ↔ ¬ (e % 2 = 1 ∧ 0x7ff000 ≤ m) := by
  have hover : (2 ^ 23 + m) * 2 ^ (e - 1) = overflow → e = 142 ∧ m = 0x7ff000 := by
    intro heq
    rcases Nat.lt_or_ge e 142 with hlt | hge
    · exact absurd heq (lt_overflow (by omega) hm).ne
    · obtain rfl : e = 142 := by omega
      exact ⟨rfl, eq_overflow_iff.1 heq⟩
  rw [nearest_normal_iff he he' hm, clearNormal_eq hm]
  split_ifs with hcarry
  · constructor
    · rintro ⟨hnear, -⟩ ⟨hodd, -⟩
      omega
    · intro heven
      refine ⟨by omega, fun heq => ?_⟩
      obtain ⟨rfl, -⟩ := hover heq
      rfl
  · refine ⟨fun _ h => hcarry h.2, fun _ => ⟨by omega, fun heq => ?_⟩⟩
    exact absurd (hover heq).2.ge hcarry

/-- In the subnormal range it is the nearest: shifting in two steps rounds like shifting in one. -/
theorem clearSubnormal_nearest {e m : Nat} (he : 102 ≤ e) (he' : e ≤ 112) (hm : m < 2 ^ 23) :
    Nearest scaled (0x7bff + 1) ((2 ^ 23 + m) * 2 ^ (e - 1)) (clearSubnormal e m) := by
  have hshift : 2 ^ (113 - e) * 2 ^ 13 = 2 * (0x1000 * 2 ^ (113 - e)) := by ring
  have hpow : 2 ^ (126 - e) = 2 * (0x1000 * 2 ^ (113 - e)) := by
    rw [← hshift, ← Nat.pow_add]
    exact congrArg (2 ^ ·) (by omega)
  have hround : clearSubnormal e m = (2 ^ 23 + m + 0x1000 * 2 ^ (113 - e)) / (2 * (0x1000 * 2 ^ (113 - e))) := by
    rw [clearSubnormal, ← hshift, ← Nat.div_div_eq_div_mul, Nat.add_mul_div_right _ _ (Nat.two_pow_pos _)]
  rw [nearest_subnormal_iff he he' hm, hround, hpow, add_half_div _ (by positivity)]
  split_ifs with hhalf
  · exact Or.inr ⟨rfl, by omega⟩
  · exact Or.inl ⟨rfl, by omega⟩

/-- The clears' conversion gives a nearest binary16 but for a significand that rounds up to the next
power of two from an odd exponent. -/
theorem halfFromFloat_nearest_iff (b : BitVec 32) :
    IsNearestHalf b (halfFromFloat b) ↔
      ¬ (113 ≤ exponent32 b ∧ exponent32 b ≤ 142 ∧ exponent32 b % 2 = 1 ∧ 0x7ff000 ≤ fraction32 b) := by
  have hm := fraction32_lt b
  have hlt : convert clearSubnormal clearNormal (exponent32 b) (fraction32 b) < 2 ^ 15 :=
    convert_lt (fun _ => clearSubnormal_lt hm) fun he => clearNormal_lt he hm
  rw [halfFromFloat_eq]
  by_cases hnan : IsNaN32 b
  · obtain ⟨he', hm'⟩ := (isNaN32_iff b).1 hnan
    refine iff_of_true ⟨half_msb hlt, ?_⟩ (by omega)
    rw [if_pos hnan]
    exact isNaN16_convert he' hm' b.msb
  · rw [isNearestHalf_iff (half_msb hlt) hnan, magnitude16_half hlt, nearest_or_overflow_iff]
    by_cases hrange : exponent32 b < 102 ∨ 143 ≤ exponent32 b
    · refine iff_of_true ⟨(nearestEven_convert_outside b hnan hrange).1, fun heq => ?_⟩ (by omega)
      exact absurd heq (units_magnitude32_ne_overflow b hrange)
    · rw [units_magnitude32_of_pos b (by omega)]
      rcases Nat.lt_or_ge 112 (exponent32 b) with hnormal | hsub
      · rw [convert_normal hnormal (by omega), clearNormal_nearest_iff hnormal (by omega) hm]
        omega
      · rw [convert_subnormal (by omega) hsub]
        refine iff_of_true ⟨clearSubnormal_nearest (by omega) hsub hm, fun heq => ?_⟩ (by omega)
        exact absurd heq (lt_overflow (by omega) hm).ne

/-- The largest binary32 below one half is nearest to one half. -/
theorem not_isNearestHalf_carry : ¬ IsNearestHalf 0x3effffff (halfFromFloat 0x3effffff) := by
  intro h
  obtain ⟨-, h⟩ := h
  rw [if_neg (by decide +kernel), if_neg (by decide +kernel)] at h
  exact absurd (h.2 0x3800 (by decide +kernel)) (by decide +kernel)

/-- It becomes one quarter. -/
theorem halfFromFloat_carry : halfFromFloat 0x3effffff = 0x3400 ∧ ¬ IsNearestHalf 0x3effffff (halfFromFloat 0x3effffff) :=
  ⟨by decide +kernel, not_isNearestHalf_carry⟩

/-! ## The blits' conversion -/

/-- The rounding of `ps5vk_float_to_half` in the subnormal range. -/
def blitSubnormal (e m : Nat) : Nat :=
  ((2 ^ 23 + m) / 2 ^ (126 - e) + (2 ^ 23 + m) / 2 ^ (126 - e - 1) % 2) / 2

/-- Its rounding in the normal range. -/
def blitNormal (e m : Nat) : Nat := ((e - 112) <<< 10 ||| m / 2 ^ 13) + m / 2 ^ 12 % 2

theorem blitNormal_eq {e m : Nat} (hm : m < 2 ^ 23) :
    blitNormal e m = (e - 112) * 2 ^ 10 + m / 2 ^ 13 + m / 2 ^ 12 % 2 := by
  have hk : m / 2 ^ 13 < 2 ^ 10 := by omega
  rw [blitNormal, ← Nat.shiftLeft_add_eq_or_of_lt hk, Nat.shiftLeft_eq]

theorem blitSubnormal_lt {e m : Nat} (he : e ≤ 112) (hm : m < 2 ^ 23) : blitSubnormal e m < 2 ^ 10 := by
  have hpow : 2 ^ 14 ≤ 2 ^ (126 - e) := Nat.pow_le_pow_right Nat.two_pos (by omega)
  have hlt : (2 ^ 23 + m) / 2 ^ (126 - e) < 2 ^ 10 := by
    rw [Nat.div_lt_iff_lt_mul (Nat.two_pow_pos _)]
    omega
  unfold blitSubnormal
  omega

theorem blitNormal_lt {e m : Nat} (he : e ≤ 142) (hm : m < 2 ^ 23) : blitNormal e m < 2 ^ 15 := by
  rw [blitNormal_eq hm]
  omega

theorem floatToHalf_eq (b : BitVec 32) :
    floatToHalf b = half b.msb (convert blitSubnormal blitNormal (exponent32 b) (fraction32 b)) := by
  have hm := fraction32_lt b
  have hshift : (14 - ((exponent32 b : Int) - 127 + 15)).toNat = 126 - exponent32 b := by omega
  have hexponent : ((exponent32 b : Int) - 127 + 15).toNat = exponent32 b - 112 := by omega
  rw [← ofNat_convert b (fun he => (blitSubnormal_lt he hm).trans (by decide)) fun he => blitNormal_lt he hm]
  unfold floatToHalf blitSubnormal blitNormal
  dsimp only
  rw [sign_eq, exponent_eq, fraction_eq, or_implicit_one hm, hshift, hexponent]
  simp only [Nat.shiftRight_eq_div_pow, Nat.and_one_is_mod, Nat.pow_one]

/-- In the normal range halves go up, also from an even magnitude. -/
theorem blitNormal_nearestEven_iff {e m : Nat} (he : 113 ≤ e) (he' : e ≤ 142) (hm : m < 2 ^ 23) :
    NearestEven scaled (0x7bff + 1) ((2 ^ 23 + m) * 2 ^ (e - 1)) (blitNormal e m) ↔ m % 2 ^ 14 ≠ 2 ^ 12 := by
  rw [nearestEven_normal_iff he he' hm, blitNormal_eq hm]
  omega

/-- In the subnormal range the result is halved once more, which is right for 2⁻²⁵ alone. -/
theorem blitSubnormal_nearestEven_iff {e m : Nat} (he : 102 ≤ e) (he' : e ≤ 112) (hm : m < 2 ^ 23) :
    NearestEven scaled (0x7bff + 1) ((2 ^ 23 + m) * 2 ^ (e - 1)) (blitSubnormal e m) ↔ e = 102 ∧ m = 0 := by
  have hpow : 2 ^ (126 - e) = 2 * 2 ^ (126 - e - 1) := by
    rw [← Nat.pow_succ']
    exact congrArg (2 ^ ·) (by omega)
  have hbit := div_mod_two (2 ^ 23 + m) (Nat.two_pow_pos (126 - e - 1))
  rw [← hpow] at hbit
  rw [nearestEven_subnormal_iff he he' hm, blitSubnormal, hbit]
  rcases Nat.eq_or_lt_of_le he with rfl | hlt
  · have hw : 2 ^ (126 - 102) = 16777216 := rfl
    have hh : 2 ^ (126 - 102 - 1) = 8388608 := rfl
    rw [hw, hh]
    split_ifs with hhalf <;> omega
  · have hq : 1 ≤ (2 ^ 23 + m) / 2 ^ (126 - e) := by
      have hle : 2 ^ (126 - e) ≤ 2 ^ 23 := Nat.pow_le_pow_right Nat.two_pos (by omega)
      rw [Nat.le_div_iff_mul_le (Nat.two_pow_pos _)]
      omega
    generalize (2 ^ 23 + m) / 2 ^ (126 - e) = quotient at hq ⊢
    generalize (2 ^ 23 + m) % 2 ^ (126 - e) = rest
    rw [hpow]
    generalize 2 ^ (126 - e - 1) = step
    refine iff_of_false ?_ (by omega)
    split_ifs with hhalf <;> omega

/-- The blits' conversion rounds to nearest even outside the subnormal range, but for ties above an even
magnitude. -/
theorem floatToHalf_nearestEven_iff (b : BitVec 32) :
    IsNearestEvenHalf b (floatToHalf b) ↔
      exponent32 b < 102 ∨ 143 ≤ exponent32 b ∨ exponent32 b = 102 ∧ fraction32 b = 0 ∨
        113 ≤ exponent32 b ∧ fraction32 b % 2 ^ 14 ≠ 2 ^ 12 := by
  have hm := fraction32_lt b
  have hlt : convert blitSubnormal blitNormal (exponent32 b) (fraction32 b) < 2 ^ 15 :=
    convert_lt (fun he => (blitSubnormal_lt he hm).trans (by decide)) fun he => blitNormal_lt he hm
  rw [floatToHalf_eq]
  by_cases hnan : IsNaN32 b
  · obtain ⟨he', hm'⟩ := (isNaN32_iff b).1 hnan
    refine iff_of_true ⟨⟨half_msb hlt, ?_⟩, fun hnot => absurd hnan hnot⟩ (by omega)
    rw [if_pos hnan]
    exact isNaN16_convert he' hm' b.msb
  · rw [isNearestEvenHalf_iff (half_msb hlt) hnan, magnitude16_half hlt]
    by_cases hrange : exponent32 b < 102 ∨ 143 ≤ exponent32 b
    · exact iff_of_true (nearestEven_convert_outside b hnan hrange) (by omega)
    · rw [units_magnitude32_of_pos b (by omega)]
      rcases Nat.lt_or_ge 112 (exponent32 b) with hnormal | hsub
      · rw [convert_normal hnormal (by omega), blitNormal_nearestEven_iff hnormal (by omega) hm]
        omega
      · rw [convert_subnormal (by omega) hsub, blitSubnormal_nearestEven_iff (by omega) hsub hm]
        omega

/-- 2⁻¹⁵, a subnormal binary16, which becomes half of it. -/
theorem floatToHalf_subnormal : ¬ IsNearestEvenHalf 0x38000000 (floatToHalf 0x38000000) := by
  rintro ⟨⟨-, h⟩, -⟩
  rw [if_neg (by decide +kernel), if_neg (by decide +kernel)] at h
  exact absurd (h.2 0x0200 (by decide +kernel)) (by decide +kernel)

end Ps5Vulkan.Format
