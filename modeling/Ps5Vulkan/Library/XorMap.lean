import Mathlib.Data.Nat.Bitwise

/-!
# Exclusive-or linear maps

Maps of bit patterns that take exclusive or to exclusive or. Such a map is decided by its values on
the powers of two, so an equation between two of them over all numbers below `2 ^ bits` is checked on
`bits` values. An inverse on one side is checked the same way, and with it a map is injective.
-/

namespace Ps5Vulkan.XorMap

/-- The map takes exclusive or to exclusive or. -/
def XorLinear (f : Nat → Nat) : Prop :=
  ∀ a b, f (a ^^^ b) = f a ^^^ f b

/-- The map of two patterns takes exclusive or to exclusive or, in both at once. -/
def XorLinear₂ (f : Nat → Nat → Nat) : Prop :=
  ∀ a b c d, f (a ^^^ b) (c ^^^ d) = f a c ^^^ f b d

section Unary

theorem xor_cancel_right (a b c : Nat) : (a ^^^ c) ^^^ (b ^^^ c) = a ^^^ b := by
  rw [Nat.xor_comm b, ← Nat.xor_assoc, Nat.xor_xor_cancel_right]

theorem XorLinear.zero {f : Nat → Nat} (h : XorLinear f) : f 0 = 0 := by
  have hself := h 0 0
  rw [Nat.xor_self, Nat.xor_self] at hself
  exact hself

theorem xorLinear_mod (bits : Nat) : XorLinear (· % 2 ^ bits) :=
  fun _ _ => Nat.xor_mod_two_pow

theorem xorLinear_shiftRight (shift : Nat) : XorLinear (· >>> shift) :=
  fun _ _ => Nat.shiftRight_xor_distrib

theorem xorLinear_term (shift mask : Nat) : XorLinear fun value => (value <<< shift) &&& mask := by
  intro a b
  dsimp only
  rw [Nat.shiftLeft_xor_distrib, Nat.and_xor_distrib_right]

/-- The exclusive or of the columns whose bit is set. -/
def ofColumns : List Nat → Nat → Nat
  | [], _ => 0
  | column :: columns, value =>
    (if value.testBit 0 then column else 0) ^^^ ofColumns columns (value >>> 1)

theorem xorLinear_ofColumns (columns : List Nat) : XorLinear (ofColumns columns) := by
  induction columns with
  | nil =>
    intro a b
    exact (Nat.xor_self 0).symm
  | cons column columns ih =>
    intro a b
    simp only [ofColumns, Nat.testBit_xor, Nat.shiftRight_xor_distrib, ih (a >>> 1)]
    cases a.testBit 0 <;> cases b.testBit 0 <;>
      simp [Nat.xor_assoc, Nat.xor_left_comm]

end Unary

section Binary

variable {f g : Nat → Nat → Nat}

theorem xorLinear₂_fst : XorLinear₂ fun x _ => x := fun _ _ _ _ => rfl

theorem xorLinear₂_snd : XorLinear₂ fun _ y => y := fun _ _ _ _ => rfl

theorem xorLinear₂_zero : XorLinear₂ fun _ _ => 0 :=
  fun _ _ _ _ => (Nat.xor_self 0).symm

theorem XorLinear.comp {u : Nat → Nat} (hu : XorLinear u) (h : XorLinear₂ f) : XorLinear₂ fun x y => u (f x y) := by
  intro a b c d
  dsimp only
  rw [h, hu]

theorem XorLinear₂.xor (hf : XorLinear₂ f) (hg : XorLinear₂ g) : XorLinear₂ fun x y => f x y ^^^ g x y := by
  intro a b c d
  dsimp only
  rw [hf, hg]
  ac_rfl

theorem XorLinear₂.fst (h : XorLinear₂ f) : XorLinear fun x => f x 0 := by
  intro a b
  have hsplit := h a b 0 0
  rwa [Nat.xor_self] at hsplit

theorem XorLinear₂.snd (h : XorLinear₂ f) : XorLinear fun y => f 0 y := by
  intro a b
  have hsplit := h 0 0 a b
  rwa [Nat.xor_self] at hsplit

/-- A map of two patterns is the exclusive or of its two halves. -/
theorem XorLinear₂.split (h : XorLinear₂ f) (x y : Nat) : f x y = f x 0 ^^^ f 0 y := by
  have hsplit := h x 0 0 y
  rwa [Nat.xor_zero, Nat.zero_xor] at hsplit

end Binary

section Basis

/-- The values agree on the powers of two below `2 ^ bits`. -/
def agree (f g : Nat → Nat) (bits : Nat) : Bool :=
  (List.range bits).all fun bit => f (2 ^ bit) == g (2 ^ bit)

theorem eq_two_pow_xor {value bits : Nat} (hlow : 2 ^ bits ≤ value) (hhigh : value < 2 ^ (bits + 1)) :
    ∃ rest < 2 ^ bits, value = 2 ^ bits ^^^ rest := by
  have hrest : value - 2 ^ bits < 2 ^ bits := by
    rw [Nat.pow_succ] at hhigh
    omega
  refine ⟨value - 2 ^ bits, hrest, ?_⟩
  have hor := Nat.two_pow_add_eq_or_of_lt hrest 1
  have hsum : value = 2 ^ bits * 1 + (value - 2 ^ bits) := by omega
  rw [mul_one] at hor
  apply Nat.eq_of_testBit_eq
  intro bit
  have hvalue : value = 2 ^ bits ||| (value - 2 ^ bits) := by
    rw [← hor]
    omega
  conv_lhs => rw [hvalue]
  rw [Nat.testBit_or, Nat.testBit_xor, Nat.testBit_two_pow]
  by_cases hbit : bits = bit
  · subst hbit
    simp [Nat.testBit_lt_two_pow hrest]
  · simp [hbit]

/-- Linear maps that agree on the powers of two agree. -/
theorem XorLinear.eq_of_agree {f g : Nat → Nat} (hf : XorLinear f) (hg : XorLinear g) {bits : Nat}
    (h : agree f g bits = true) {value : Nat} (hvalue : value < 2 ^ bits) : f value = g value := by
  have hbasis : ∀ bit < bits, f (2 ^ bit) = g (2 ^ bit) := by
    simpa [agree] using h
  clear h
  induction bits generalizing value with
  | zero =>
    obtain rfl : value = 0 := by omega
    rw [hf.zero, hg.zero]
  | succ bits ih =>
    have hlower : ∀ bit < bits, f (2 ^ bit) = g (2 ^ bit) := fun bit hbit => hbasis bit (by omega)
    rcases Nat.lt_or_ge value (2 ^ bits) with hlt | hge
    · exact ih hlt hlower
    · obtain ⟨rest, hrest, rfl⟩ := eq_two_pow_xor hge hvalue
      rw [hf, hg, hbasis bits (by omega), ih hrest hlower]

/-- The values agree on the powers of two in each place. -/
def agree₂ (f g : Nat → Nat → Nat) (xBits yBits : Nat) : Bool :=
  agree (fun x => f x 0) (fun x => g x 0) xBits && agree (fun y => f 0 y) (fun y => g 0 y) yBits

/-- Linear maps of two patterns that agree on the powers of two agree. -/
theorem XorLinear₂.eq_of_agree₂ {f g : Nat → Nat → Nat} (hf : XorLinear₂ f) (hg : XorLinear₂ g)
    {xBits yBits : Nat} (h : agree₂ f g xBits yBits = true) {x y : Nat} (hx : x < 2 ^ xBits)
    (hy : y < 2 ^ yBits) : f x y = g x y := by
  obtain ⟨hfst, hsnd⟩ := Bool.and_eq_true_iff.1 h
  rw [hf.split x y, hg.split x y]
  congr 1
  · exact hf.fst.eq_of_agree hg.fst hfst hx
  · exact hf.snd.eq_of_agree hg.snd hsnd hy

/-- A map with a linear inverse for each of its patterns is injective below the bounds. -/
theorem XorLinear₂.injective_of_agree₂ {f : Nat → Nat → Nat} (hf : XorLinear₂ f) {u v : Nat → Nat}
    (hu : XorLinear u) (hv : XorLinear v) {xBits yBits : Nat}
    (hfst : agree₂ (fun x y => u (f x y)) (fun x _ => x) xBits yBits = true)
    (hsnd : agree₂ (fun x y => v (f x y)) (fun _ y => y) xBits yBits = true) {x y x' y' : Nat}
    (hx : x < 2 ^ xBits) (hy : y < 2 ^ yBits) (hx' : x' < 2 ^ xBits) (hy' : y' < 2 ^ yBits)
    (heq : f x y = f x' y') : x = x' ∧ y = y' := by
  have hinverse : ∀ a b, a < 2 ^ xBits → b < 2 ^ yBits → u (f a b) = a ∧ v (f a b) = b :=
    fun a b ha hb => ⟨(hu.comp hf).eq_of_agree₂ xorLinear₂_fst hfst ha hb,
      (hv.comp hf).eq_of_agree₂ xorLinear₂_snd hsnd ha hb⟩
  obtain ⟨hux, hvy⟩ := hinverse x y hx hy
  obtain ⟨hux', hvy'⟩ := hinverse x' y' hx' hy'
  rw [heq] at hux hvy
  exact ⟨hux.symm.trans hux', hvy.symm.trans hvy'⟩

end Basis

end Ps5Vulkan.XorMap
