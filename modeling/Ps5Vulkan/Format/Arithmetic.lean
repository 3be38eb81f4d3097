import Mathlib.Algebra.Order.Archimedean.Basic
import Mathlib.Tactic.LinearCombination
import Ps5Vulkan.Format.Half

/-!
# The float arithmetic of the texel conversions

The conversions compute with 32-bit floats. `Arithmetic` is what they rely on: every operation gives its
exact result up to a relative error of 2⁻²⁴, and so are a float's bits. Exact rationals are one instance,
results rounded to a nearest binary32 are another; what is proved for any arithmetic holds for both.
-/

namespace Ps5Vulkan.Format

/-- What the conversions know of float arithmetic: the result an operation stores, the bits of a float,
and `powf`. -/
structure Arithmetic where
  round : ℚ → ℚ
  bits : ℚ → BitVec 32
  powf : ℚ → ℚ → ℚ
  round_error : ∀ x, |x| ≤ 2 ^ 64 → |round x - x| ≤ |x| / 2 ^ 24 + 1 / 2 ^ 126
  bits_finite : ∀ x, |x| ≤ 2 ^ 64 → ¬ IsNaN32 (bits x)
  bits_error : ∀ x, |x| ≤ 2 ^ 64 → |value32 (bits x) - x| ≤ |x| / 2 ^ 24 + 1 / 2 ^ 126

/-- `CLAMP` to the unit interval. -/
def clamp01 (x : ℚ) : ℚ := max 0 (min x 1)

theorem clamp01_nonneg (x : ℚ) : 0 ≤ clamp01 x := le_max_left ..

theorem clamp01_le_one (x : ℚ) : clamp01 x ≤ 1 := max_le zero_le_one (min_le_right ..)

theorem clamp01_of_mem {x : ℚ} (h0 : 0 ≤ x) (h1 : x ≤ 1) : clamp01 x = x := by
  rw [clamp01, min_eq_left h1, max_eq_right h0]

theorem clamp01_of_nonpos {x : ℚ} (h : x ≤ 0) : clamp01 x = 0 := by
  rw [clamp01, max_eq_left ((min_le_left ..).trans h)]

/-- Clamping does not lead away from the unit interval. -/
theorem abs_clamp01_sub_le {x v : ℚ} (h0 : 0 ≤ v) (h1 : v ≤ 1) : |clamp01 x - v| ≤ |x - v| := by
  unfold clamp01
  rcases le_total x 0 with hx | hx
  · rw [min_eq_left (hx.trans zero_le_one), max_eq_left hx, abs_of_nonpos (by linarith),
      abs_of_nonpos (by linarith)]
    linarith
  · rcases le_total x 1 with hx' | hx'
    · rw [min_eq_left hx', max_eq_right hx]
    · rw [min_eq_right hx', max_eq_right zero_le_one, abs_of_nonneg (by linarith),
        abs_of_nonneg (by linarith)]
      linarith

namespace Arithmetic

variable (A : Arithmetic)

/-- `ps5vk_unorm8`. -/
def unorm8 (value : ℚ) : BitVec 8 :=
  BitVec.ofInt 8 (max 0 (min ⌊A.round (A.round (clamp01 value * 255) + 1 / 2)⌋ 255))

/-- What the float before the floor is off by. -/
theorem unorm8_error {y : ℚ} (h0 : 0 ≤ y) (h1 : y ≤ 1) :
    |A.round (A.round (y * 255) + 1 / 2) - (y * 255 + 1 / 2)| < 1 / 2 ^ 15 := by
  have hscaled : |y * 255| ≤ 255 := by
    rw [abs_of_nonneg (by positivity)]
    linarith
  have hproduct := A.round_error (y * 255) (hscaled.trans (by norm_num))
  have hproduct' : |A.round (y * 255) - y * 255| ≤ 255 / 2 ^ 24 + 1 / 2 ^ 126 :=
    hproduct.trans (by gcongr)
  have hsum : |A.round (y * 255) + 1 / 2| ≤ 255 + 1 / 2 + 1 / 4 := by
    rw [abs_le] at hproduct' ⊢
    constructor <;> norm_num at hproduct' ⊢ <;> linarith
  have hresult := A.round_error (A.round (y * 255) + 1 / 2) (hsum.trans (by norm_num))
  have hresult' : |A.round (A.round (y * 255) + 1 / 2) - (A.round (y * 255) + 1 / 2)| ≤
      (255 + 1 / 2 + 1 / 4) / 2 ^ 24 + 1 / 2 ^ 126 := hresult.trans (by gcongr)
  rw [abs_le] at hproduct' hresult'
  rw [abs_lt]
  norm_num at hproduct' hresult' ⊢
  constructor <;> linarith

/-- A value near a byte's becomes the byte. -/
theorem unorm8_eq_of_near {x : ℚ} {v : Nat} (hv : v ≤ 255) (hx : |x * 255 - v| ≤ 1 / 2 - 1 / 2 ^ 15) :
    A.unorm8 x = BitVec.ofNat 8 v := by
  have hv' : (v : ℚ) ≤ 255 := by exact_mod_cast hv
  have hclamp : |clamp01 x * 255 - v| ≤ 1 / 2 - 1 / 2 ^ 15 := by
    have hle := abs_clamp01_sub_le (x := x) (v := v / 255) (by positivity) (by linarith)
    have hscale : ∀ z : ℚ, |z * 255 - v| = |z - v / 255| * 255 := fun z => by
      rw [show z * 255 - v = (z - v / 255) * 255 by ring, abs_mul, abs_of_pos (show (0 : ℚ) < 255 by norm_num)]
    rw [hscale] at hx ⊢
    nlinarith
  have herror := A.unorm8_error (clamp01_nonneg x) (clamp01_le_one x)
  have hfloor : ⌊A.round (A.round (clamp01 x * 255) + 1 / 2)⌋ = (v : Int) := by
    rw [Int.floor_eq_iff]
    rw [abs_lt] at herror
    rw [abs_le] at hclamp
    push_cast
    constructor <;> linarith
  rw [unorm8, hfloor, min_eq_left (by omega), max_eq_right (by omega)]
  exact BitVec.ofInt_natCast ..

theorem unorm8_of_nonpos {x : ℚ} (h : x ≤ 0) : A.unorm8 x = 0 := by
  have hzero : A.unorm8 x = A.unorm8 0 := by
    rw [unorm8, unorm8, clamp01_of_nonpos h, clamp01_of_nonpos le_rfl]
  rw [hzero]
  exact A.unorm8_eq_of_near (v := 0) (by decide) (by norm_num)

/-- Rounding keeps a negative value negative. -/
theorem round_nonpos {x : ℚ} (hlow : -2 ^ 64 ≤ x) (hx : x ≤ -1 / 2 ^ 64) : A.round x ≤ 0 := by
  have hnonpos : x ≤ 0 := hx.trans (by norm_num)
  have herror := A.round_error x (by rw [abs_of_nonpos hnonpos]; linarith)
  rw [abs_of_nonpos hnonpos, abs_le] at herror
  norm_num at herror hx
  linarith

/-- A quotient the arithmetic rounded becomes the byte its exact value is near to. -/
theorem unorm8_round_of_near {x : ℚ} {v : Nat} (h0 : 0 ≤ x) (h1 : x ≤ 1) (hv : v ≤ 255)
    (hx : |x * 255 - v| ≤ 1 / 2 - 1 / 2 ^ 14) : A.unorm8 (A.round x) = BitVec.ofNat 8 v := by
  refine A.unorm8_eq_of_near hv ?_
  have habs : |x| ≤ 1 := by rwa [abs_of_nonneg h0]
  have hround := A.round_error x (habs.trans (by norm_num))
  have hround' : |A.round x - x| ≤ 1 / 2 ^ 24 + 1 / 2 ^ 126 := hround.trans (by gcongr)
  rw [abs_le] at hround' hx ⊢
  norm_num at hround' hx ⊢
  constructor <;> linarith

end Arithmetic

/-- The byte nearest to 255 times a normalised value, halves rounding up. -/
def nearestByte (value : ℚ) : Nat := ⌊255 * clamp01 value + 1 / 2⌋.toNat

theorem nearestByte_lt (value : ℚ) : nearestByte value < 256 := by
  have hle := clamp01_le_one value
  have hfloor : ⌊255 * clamp01 value + 1 / 2⌋ < 256 := Int.floor_lt.mpr (by norm_num; linarith)
  rw [nearestByte]
  omega

theorem nearestByte_ratio {j n : Nat} (hn : 0 < n) (hj : j ≤ n) :
    nearestByte ((j : ℚ) / n) = (510 * j + n) / (2 * n) := by
  have hn' : (0 : ℚ) < n := by exact_mod_cast hn
  have hle : (j : ℚ) / n ≤ 1 := (div_le_one hn').mpr (by exact_mod_cast hj)
  rw [nearestByte, clamp01_of_mem (by positivity) hle,
    show (255 : ℚ) * (j / n) + 1 / 2 = ((510 * j + n : Nat) : ℚ) / ((2 * n : Nat) : ℚ) by
      push_cast; field_simp; ring, Rat.floor_natCast_div_natCast]
  exact Int.toNat_natCast _

/-- A byte over 255 is its own nearest byte. -/
theorem nearestByte_byte {b : Nat} (hb : b < 256) : nearestByte ((b : ℚ) / 255) = b := by
  have h := nearestByte_ratio (j := b) (n := 255) (by decide) (by omega)
  push_cast at h
  rw [h]
  omega

theorem nearestByte_of_nonpos {x : ℚ} (h : x ≤ 0) : nearestByte x = 0 := by
  rw [nearestByte, clamp01_of_nonpos h]
  norm_num

/-- For an odd divisor no quotient lies half way between two bytes, so the rounded quotient and the
exact one are nearest to the same byte. -/
theorem Arithmetic.unorm8_ratio (A : Arithmetic) {j n : Nat} (hodd : n % 2 = 1) (hn : n ≤ 1023) (hj : j ≤ n) :
    A.unorm8 (A.round ((j : ℚ) / n)) = BitVec.ofNat 8 (nearestByte ((j : ℚ) / n)) := by
  have hn0 : 0 < n := by omega
  have hn' : (0 : ℚ) < n := by exact_mod_cast hn0
  rw [nearestByte_ratio hn0 hj]
  set v := (510 * j + n) / (2 * n) with hv
  have hdiv := Nat.div_add_mod (510 * j + n) (2 * n)
  have hmod := Nat.mod_lt (510 * j + n) (show 2 * n > 0 by omega)
  rw [← hv] at hdiv
  set r := (510 * j + n) % (2 * n)
  -- the remainder is odd, so it is neither nothing nor all
  have hr : 1 ≤ r ∧ r + 1 ≤ 2 * n := by
    have hparity : (2 * n * v + r) % 2 = 1 := by rw [hdiv]; omega
    rw [Nat.add_mod, show 2 * n * v = 2 * (n * v) by ring, Nat.mul_mod_right] at hparity
    omega
  have hv255 : v ≤ 255 := by
    rw [hv]
    exact Nat.le_of_lt_succ (Nat.div_lt_of_lt_mul (by omega))
  refine A.unorm8_round_of_near (by positivity) ((div_le_one hn').mpr (by exact_mod_cast hj)) hv255 ?_
  have hexact : (j : ℚ) / n * 255 - v = (r - n) / (2 * n) := by
    have hdiv' : (2 * n * v + r : ℚ) = 510 * j + n := by exact_mod_cast hdiv
    field_simp
    linarith
  have h1 : (1 : ℚ) ≤ r := by exact_mod_cast hr.1
  have h2 : (r : ℚ) + 1 ≤ 2 * n := by exact_mod_cast hr.2
  have hn1023 : (n : ℚ) ≤ 1023 := by exact_mod_cast hn
  rw [hexact, abs_le]
  constructor
  · rw [le_div_iff₀ (by linarith)]
    norm_num
    linarith
  · rw [div_le_iff₀ (by linarith)]
    norm_num
    linarith

/-! ## Two arithmetics -/

section Instances

/-- Some magnitude is off by no more than half a unit in the last place. -/
theorem exists_units_near (m : Nat) {v : ℚ} (hv : 0 ≤ v) : ∃ p, |(units m p : ℚ) - v| ≤ v / 2 ^ (m + 1) + 1 / 2 := by
  have hex : ∃ p, v < units m (p + 1) := by
    obtain ⟨n, hn⟩ := exists_nat_gt v
    have hle : (n : ℚ) ≤ units m (n + 1) := by
      exact_mod_cast (Nat.le_succ n).trans (units_strictMono m).le_apply
    exact ⟨n, hn.trans_le hle⟩
  obtain ⟨p, hlow, hhigh⟩ : ∃ p, (units m p : ℚ) ≤ v ∧ v < units m (p + 1) := by
    classical
    refine ⟨Nat.find hex, ?_, Nat.find_spec hex⟩
    cases hp : Nat.find hex with
    | zero => rwa [units_of_lt (Nat.two_pow_pos m), Nat.cast_zero]
    | succ p => exact not_lt.mp (Nat.find_min hex (hp ▸ Nat.lt_succ_self p))
  have hulp : (ulp m p : ℚ) / 2 ≤ v / 2 ^ (m + 1) + 1 / 2 := by
    have hcases : ulp m p * 2 ^ m ≤ units m p ∨ ulp m p = 1 := by
      unfold ulp units
      split
      · next h => exact .inr (by rw [h, Nat.zero_sub, pow_zero])
      · exact .inl (by rw [Nat.mul_comm]; exact Nat.mul_le_mul_right _ (Nat.le_add_right ..))
    rcases hcases with h | h
    · have h' : (ulp m p : ℚ) * 2 ^ m ≤ v := le_trans (by exact_mod_cast h) hlow
      have hscaled : (ulp m p : ℚ) / 2 ≤ v / 2 ^ (m + 1) := by
        rw [le_div_iff₀ (by positivity), pow_succ]
        linarith
      linarith
    · rw [h, Nat.cast_one]
      have hnonneg : 0 ≤ v / 2 ^ (m + 1) := by positivity
      linarith
  rw [units_succ, Nat.cast_add] at hhigh
  rcases le_total (v - units m p) (ulp m p / 2) with hnear | hfar
  · exact ⟨p, by rw [abs_le]; constructor <;> linarith⟩
  · refine ⟨p + 1, ?_⟩
    rw [units_succ, Nat.cast_add, abs_le]
    constructor <;> linarith

/-- The binary32 with a sign and a magnitude. -/
def float (negative : Bool) (p : Nat) : BitVec 32 := BitVec.ofNat 32 (negative.toNat * 2 ^ 31 + p)

theorem magnitude32_float {negative : Bool} {p : Nat} (hp : p < 2 ^ 31) : magnitude32 (float negative p) = p := by
  have := Bool.toNat_le negative
  rw [magnitude32, float, BitVec.toNat_ofNat]
  omega

theorem value32_float {negative : Bool} {p : Nat} (hp : p < 2 ^ 31) :
    value32 (float negative p) = signOf negative * (units 23 p / 2 ^ 149) := by
  have hmsb : (float negative p).msb = negative := by
    rw [BitVec.msb_eq_decide, float, BitVec.toNat_ofNat]
    cases negative
    · simp
      omega
    · simp
      omega
  rw [value32, hmsb, magnitude32_float hp]

/-- Some binary32 is as near as the arithmetic asks. -/
theorem exists_bits_near (x : ℚ) (hx : |x| ≤ 2 ^ 64) :
    ∃ b : BitVec 32, ¬ IsNaN32 b ∧ |value32 b - x| ≤ |x| / 2 ^ 24 + 1 / 2 ^ 126 := by
  obtain ⟨p, hp⟩ := exists_units_near 23 (v := |x| * 2 ^ 149) (by positivity)
  have hrange : p ≤ 0x70000000 := by
    by_contra hlarge
    have hmax : units 23 0x70000000 = 2 ^ 246 := by decide +kernel
    have hunits : (2 ^ 246 : ℚ) ≤ units 23 p := by
      exact_mod_cast hmax ▸ (units_strictMono 23).monotone (show 0x70000000 ≤ p by omega)
    linarith [(abs_le.mp hp).2]
  refine ⟨float (x < 0) p, ?_, ?_⟩
  · rw [IsNaN32, magnitude32_float (by omega)]
    omega
  · have hx' : x = signOf (decide (x < 0)) * |x| := by
      rcases lt_or_ge x 0 with h | h
      · simp [signOf, h, abs_of_neg h]
      · simp [signOf, not_lt.mpr h, abs_of_nonneg h]
    have hvalue : value32 (float (x < 0) p) - x =
        signOf (decide (x < 0)) * ((units 23 p - |x| * 2 ^ 149) / 2 ^ 149) := by
      rw [value32_float (by omega)]
      linear_combination (-1 : ℚ) * hx'
    rw [hvalue, abs_mul, abs_signOf, one_mul, abs_div, abs_of_pos (show (0 : ℚ) < 2 ^ 149 by positivity),
      div_le_iff₀ (by positivity)]
    refine hp.trans ?_
    norm_num
    linarith

/-- A binary32 near a value. -/
noncomputable def nearest32 (x : ℚ) : BitVec 32 :=
  open Classical in if hx : |x| ≤ 2 ^ 64 then (exists_bits_near x hx).choose else 0

theorem nearest32_spec (x : ℚ) (hx : |x| ≤ 2 ^ 64) :
    ¬ IsNaN32 (nearest32 x) ∧ |value32 (nearest32 x) - x| ≤ |x| / 2 ^ 24 + 1 / 2 ^ 126 := by
  rw [nearest32, dif_pos hx]
  exact (exists_bits_near x hx).choose_spec

/-- Exact rationals, which have bits only where they are stored as a float. -/
noncomputable def Arithmetic.exact (powf : ℚ → ℚ → ℚ) : Arithmetic where
  round := id
  bits := nearest32
  powf := powf
  round_error x _ := by
    rw [id, sub_self, abs_zero]
    positivity
  bits_finite x hx := (nearest32_spec x hx).1
  bits_error x hx := (nearest32_spec x hx).2

/-- Every result rounded to a binary32. -/
noncomputable def Arithmetic.binary32 (powf : ℚ → ℚ → ℚ) : Arithmetic :=
  { exact powf with
    round := fun x => value32 (nearest32 x)
    round_error := fun x hx => (nearest32_spec x hx).2 }

end Instances

end Ps5Vulkan.Format
