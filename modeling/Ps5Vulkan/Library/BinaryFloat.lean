import Mathlib.Data.Nat.Dist
import Mathlib.Tactic.Ring

/-!
# Binary floating-point magnitudes

A magnitude pattern has an exponent field above the bits of its fraction. In units of the smallest
magnitude the values are whole numbers that grow with the pattern, so that the nearest value to a number
is next to it in the order of the patterns. An exponent field beyond the finite ones stands for the
power of two the finite ones would go on with, which is the value overflow is measured against.
-/

namespace Ps5Vulkan

section Nearest

/-- The member of a sequence, up to some index, that no other member is nearer to a number than. -/
def Nearest (f : Nat → Nat) (top v p : Nat) : Prop :=
  p ≤ top ∧ ∀ q ≤ top, Nat.dist (f p) v ≤ Nat.dist (f q) v

/-- The nearest member, at an even index when two are nearest. -/
def NearestEven (f : Nat → Nat) (top v p : Nat) : Prop :=
  Nearest f top v p ∧ ∀ q ≤ top, q ≠ p → Nat.dist (f q) v = Nat.dist (f p) v → p % 2 = 0

variable {f : Nat → Nat} {top v p r : Nat}

/-- Between two members the nearer of them is the nearest. -/
theorem nearest_iff_of_between (hf : StrictMono f) (hlo : f p ≤ v) (hhi : v ≤ f (p + 1)) (hp : p < top) :
    Nearest f top v r ↔ r = p ∧ v - f p ≤ f (p + 1) - v ∨ r = p + 1 ∧ f (p + 1) - v ≤ v - f p := by
  have hsplit : ∀ q, f q ≤ f p ∨ f (p + 1) ≤ f q := fun q =>
    (Nat.lt_or_ge p q).symm.imp (fun hq => hf.monotone hq) fun hq => hf.monotone hq
  have hstep : f p < f (p + 1) := hf (Nat.lt_succ_self p)
  unfold Nearest
  simp only [Nat.dist]
  constructor
  · rintro ⟨hr, hnearest⟩
    have hfirst := hnearest p (by omega)
    have hsecond := hnearest (p + 1) (by omega)
    -- A member further out is strictly further away than the one before it.
    rcases Nat.lt_or_ge r p with hlt | hge
    · have := hf hlt
      omega
    · rcases Nat.lt_or_ge (p + 1) r with hgt | hle
      · have := hf hgt
        omega
      · obtain rfl | rfl : r = p ∨ r = p + 1 := by omega
        · exact Or.inl ⟨rfl, by omega⟩
        · exact Or.inr ⟨rfl, by omega⟩
  · rintro (⟨rfl, hnear⟩ | ⟨rfl, hnear⟩)
    · refine ⟨by omega, fun q _ => ?_⟩
      rcases hsplit q with hq | hq <;> omega
    · refine ⟨by omega, fun q _ => ?_⟩
      rcases hsplit q with hq | hq <;> omega

/-- Between two members the nearer of them is the nearest, or the one at the even index. -/
theorem nearestEven_iff_of_between (hf : StrictMono f) (hlo : f p ≤ v) (hhi : v ≤ f (p + 1))
    (hp : p < top) : NearestEven f top v r ↔ r = p ∧ (v - f p < f (p + 1) - v ∨ v - f p = f (p + 1) - v ∧ p % 2 = 0) ∨
        r = p + 1 ∧ (f (p + 1) - v < v - f p ∨ f (p + 1) - v = v - f p ∧ (p + 1) % 2 = 0) := by
  have hstep : f p < f (p + 1) := hf (Nat.lt_succ_self p)
  unfold NearestEven
  rw [nearest_iff_of_between hf hlo hhi hp]
  simp only [Nat.dist]
  constructor
  · rintro ⟨⟨rfl, hnear⟩ | ⟨rfl, hnear⟩, heven⟩
    · have := heven (r + 1) (by omega) (by omega)
      exact Or.inl ⟨rfl, by omega⟩
    · have := heven p (by omega) (by omega)
      exact Or.inr ⟨rfl, by omega⟩
  · rintro (⟨rfl, hnear⟩ | ⟨rfl, hnear⟩)
    · refine ⟨Or.inl ⟨rfl, by omega⟩, fun q _ hq heq => ?_⟩
      rcases Nat.lt_or_ge q r with hlt | hge
      · have := hf hlt
        omega
      · have : f (r + 1) ≤ f q := hf.monotone (by omega)
        omega
    · refine ⟨Or.inr ⟨rfl, by omega⟩, fun q _ hq heq => ?_⟩
      rcases Nat.lt_or_ge (p + 1) q with hgt | hle
      · have := hf hgt
        omega
      · have : f q ≤ f p := hf.monotone (by omega)
        omega

section Scale

variable {a c d w : Nat}

/-- A number part of the step above a member. -/
theorem between_of_part (hlo : f p = a * c) (hhi : f (p + 1) = (a + w) * c) (hv : v = (a + d) * c)
    (hd : d ≤ w) : f p ≤ v ∧ v ≤ f (p + 1) ∧ v - f p = d * c ∧ f (p + 1) - v = (w - d) * c := by
  refine ⟨?_, ?_, ?_, ?_⟩
  · rw [hv, hlo]
    exact Nat.mul_le_mul_right c (Nat.le_add_right a d)
  · rw [hv, hhi]
    exact Nat.mul_le_mul_right c (Nat.add_le_add_left hd a)
  · rw [hv, hlo, ← Nat.sub_mul, Nat.add_sub_cancel_left]
  · rw [hv, hhi, ← Nat.sub_mul, Nat.add_sub_add_left]

/-- Of two members a step apart the nearest is told by the part of the step. -/
theorem nearest_iff_of_part (hf : StrictMono f) (hlo : f p = a * c) (hhi : f (p + 1) = (a + w) * c)
    (hv : v = (a + d) * c) (hc : 0 < c) (hd : d ≤ w) (hp : p < top) :
    Nearest f top v r ↔ r = p ∧ 2 * d ≤ w ∨ r = p + 1 ∧ w ≤ 2 * d := by
  obtain ⟨hge, hle, hbelow, habove⟩ := between_of_part hlo hhi hv hd
  rw [nearest_iff_of_between hf hge hle hp, hbelow, habove, Nat.mul_le_mul_right_iff hc, Nat.mul_le_mul_right_iff hc]
  omega

theorem nearestEven_iff_of_part (hf : StrictMono f) (hlo : f p = a * c) (hhi : f (p + 1) = (a + w) * c)
    (hv : v = (a + d) * c) (hc : 0 < c) (hd : d ≤ w) (hp : p < top) : NearestEven f top v r ↔
      r = p ∧ (2 * d < w ∨ 2 * d = w ∧ p % 2 = 0) ∨ r = p + 1 ∧ (w < 2 * d ∨ 2 * d = w ∧ (p + 1) % 2 = 0) := by
  obtain ⟨hge, hle, hbelow, habove⟩ := between_of_part hlo hhi hv hd
  rw [nearestEven_iff_of_between hf hge hle hp, hbelow, habove, Nat.mul_lt_mul_right hc,
    Nat.mul_lt_mul_right hc, Nat.mul_left_inj hc.ne', Nat.mul_left_inj hc.ne']
  omega

end Scale

/-- Beyond the last member it is the nearest. -/
theorem nearest_iff_of_top_le (hf : StrictMono f) (htop : f top ≤ v) : Nearest f top v r ↔ r = top := by
  have hbelow : ∀ q, q < top → f q < f top := fun q hq => hf hq
  unfold Nearest
  simp only [Nat.dist]
  constructor
  · rintro ⟨hr, hnearest⟩
    have hlast := hnearest top le_rfl
    rcases Nat.eq_or_lt_of_le hr with rfl | hlt
    · rfl
    · have := hbelow r hlt
      omega
  · rintro rfl
    refine ⟨le_rfl, fun q hq => ?_⟩
    rcases Nat.eq_or_lt_of_le hq with rfl | hlt
    · exact le_rfl
    · have := hbelow q hlt
      omega

/-- Nearer to the last member but one than to the last, the last can be left out. -/
theorem nearest_succ_iff (hf : StrictMono f) (hv : 2 * v < f top + f (top + 1)) :
    Nearest f (top + 1) v p ↔ Nearest f top v p := by
  have hstep : f top < f (top + 1) := hf (Nat.lt_succ_self top)
  unfold Nearest
  simp only [Nat.dist]
  constructor
  · rintro ⟨hp, hnearest⟩
    have hlast := hnearest top (Nat.le_succ top)
    have hne : p ≠ top + 1 := by
      rintro rfl
      omega
    exact ⟨by omega, fun q hq => hnearest q (by omega)⟩
  · rintro ⟨hp, hnearest⟩
    refine ⟨by omega, fun q hq => ?_⟩
    rcases Nat.eq_or_lt_of_le hq with rfl | hlt
    · have := hnearest top le_rfl
      omega
    · exact hnearest q (by omega)

/-- Nearer to the last member than to the one before, the last is the nearest. -/
theorem nearest_iff_of_lt (hf : StrictMono f) (hv : f top + f (top + 1) < 2 * v) :
    Nearest f (top + 1) v r ↔ r = top + 1 := by
  have hstep : f top < f (top + 1) := hf (Nat.lt_succ_self top)
  rcases Nat.le_total v (f (top + 1)) with hle | hge
  · rw [nearest_iff_of_between hf (p := top) (by omega) hle (Nat.lt_succ_self top)]
    omega
  · exact nearest_iff_of_top_le hf hge

/-- As near to the last member as to the one before, or nearer, the last is the nearest with an even
index if its index is even. -/
theorem nearestEven_iff_of_le (hf : StrictMono f) (hv : f top + f (top + 1) ≤ 2 * v)
    (heven : (top + 1) % 2 = 0) : NearestEven f (top + 1) v r ↔ r = top + 1 := by
  have hstep : f top < f (top + 1) := hf (Nat.lt_succ_self top)
  rcases Nat.le_total v (f (top + 1)) with hle | hge
  · rw [nearestEven_iff_of_between hf (p := top) (by omega) hle (Nat.lt_succ_self top)]
    omega
  · unfold NearestEven
    rw [nearest_iff_of_top_le hf hge]
    exact ⟨And.left, fun hr => ⟨hr, fun _ _ _ _ => hr ▸ heven⟩⟩

end Nearest

/-- Adding half the divisor before a division rounds to the nearest quotient, halves up. -/
theorem add_half_div (n : Nat) {h : Nat} (hh : 0 < h) :
    (n + h) / (2 * h) = n / (2 * h) + if h ≤ n % (2 * h) then 1 else 0 := by
  have hmod := Nat.mod_lt n (show 0 < 2 * h by omega)
  have hsplit : n + h = (n % (2 * h) + h) + 2 * h * (n / (2 * h)) := by
    have := Nat.div_add_mod n (2 * h)
    omega
  rw [hsplit, Nat.add_mul_div_left _ _ (by omega), Nat.add_comm]
  congr 1
  split_ifs with hle
  · exact Nat.div_eq_of_lt_le (by omega) (by omega)
  · exact Nat.div_eq_of_lt (by omega)

/-- The bit below a quotient says whether the rest is half the divisor or more. -/
theorem div_mod_two (n : Nat) {h : Nat} (hh : 0 < h) : n / h % 2 = if h ≤ n % (2 * h) then 1 else 0 := by
  have hmod := Nat.mod_lt n (show 0 < 2 * h by omega)
  have hdiv : n / h = 2 * (n / (2 * h)) + n % (2 * h) / h := by
    have hsplit : n = n % (2 * h) + h * (2 * (n / (2 * h))) := by
      have := Nat.div_add_mod n (2 * h)
      rw [← Nat.mul_assoc, Nat.mul_comm h 2]
      omega
    conv_lhs => rw [hsplit]
    rw [Nat.add_mul_div_left _ _ hh, Nat.add_comm]
  rw [hdiv, Nat.mul_add_mod]
  split_ifs with hle
  · have hone : n % (2 * h) / h = 1 := Nat.div_eq_of_lt_le (by omega) (by omega)
    rw [hone]
  · rw [Nat.div_eq_of_lt (by omega)]

section Units

variable {m : Nat}

/-- The value of a magnitude with `m` fraction bits, in units of the smallest one. -/
def units (m p : Nat) : Nat :=
  if p / 2 ^ m = 0 then p else (2 ^ m + p % 2 ^ m) * 2 ^ (p / 2 ^ m - 1)

/-- From a magnitude to the next one. -/
def ulp (m p : Nat) : Nat := 2 ^ (p / 2 ^ m - 1)

theorem units_of_lt {p : Nat} (h : p < 2 ^ m) : units m p = p := by
  rw [units, if_pos (Nat.div_eq_of_lt h)]

theorem units_add {e k : Nat} (hk : k < 2 ^ m) : units m ((e + 1) * 2 ^ m + k) = (2 ^ m + k) * 2 ^ e := by
  have hdiv : ((e + 1) * 2 ^ m + k) / 2 ^ m = e + 1 := by
    rw [Nat.add_comm, Nat.add_mul_div_right _ _ (Nat.two_pow_pos m), Nat.div_eq_of_lt hk, Nat.zero_add]
  have hmod : ((e + 1) * 2 ^ m + k) % 2 ^ m = k := by
    rw [Nat.add_comm, Nat.add_mul_mod_self_right, Nat.mod_eq_of_lt hk]
  rw [units, hdiv, hmod, if_neg (Nat.succ_ne_zero e), Nat.add_sub_cancel]

/-- The values go up by the unit in the last place, also where the exponent grows. -/
theorem units_succ (m p : Nat) : units m (p + 1) = units m p + ulp m p := by
  have hpow := Nat.two_pow_pos m
  have hp := Nat.div_add_mod p (2 ^ m)
  have hmod := Nat.mod_lt p hpow
  unfold ulp
  obtain ⟨e, k, hk, rfl⟩ : ∃ e k, k < 2 ^ m ∧ p = e * 2 ^ m + k :=
    ⟨p / 2 ^ m, p % 2 ^ m, hmod, by rw [Nat.mul_comm]; exact hp.symm⟩
  have hdiv : (e * 2 ^ m + k) / 2 ^ m = e := by
    rw [Nat.add_comm, Nat.add_mul_div_right _ _ hpow, Nat.div_eq_of_lt hk, Nat.zero_add]
  rw [hdiv]
  rcases Nat.lt_or_ge (k + 1) (2 ^ m) with hlt | hge
  · cases e with
    | zero =>
      rw [Nat.zero_mul, Nat.zero_add, units_of_lt hlt, units_of_lt hk]
      rfl
    | succ e =>
      rw [Nat.add_assoc, units_add hlt, units_add hk, Nat.add_sub_cancel]
      ring
  · -- The fraction is all ones, so the next magnitude has the next exponent.
    have hk' : k + 1 = 2 ^ m := by omega
    have hnext : e * 2 ^ m + k + 1 = (e + 1) * 2 ^ m + 0 := by
      rw [Nat.add_assoc, hk']
      ring
    rw [hnext, units_add hpow]
    cases e with
    | zero =>
      rw [Nat.zero_mul, Nat.zero_add, units_of_lt hk]
      simpa using hk'.symm
    | succ e =>
      rw [units_add hk, Nat.add_sub_cancel, ← hk']
      ring

theorem units_strictMono (m : Nat) : StrictMono (units m) := by
  refine strictMono_nat_of_lt_succ fun p => ?_
  rw [units_succ]
  exact Nat.lt_add_of_pos_right (Nat.two_pow_pos _)

end Units

end Ps5Vulkan
