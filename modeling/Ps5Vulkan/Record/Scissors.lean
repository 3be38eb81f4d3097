import Ps5Vulkan.Record.DrawState
import Mathlib.Algebra.Group.Int.Defs

/-!
# The scissor words of a draw

A draw records a scissor as two words that the hardware reads as 15-bit fields. The words are built
from sums that nothing clamps, so a scissor far wider than its target loses its right edge to the
cut of a field, and its bits above the sixteenth fall into the field of the bottom edge.
-/

variable (viewport : Viewport)

namespace Ps5Vulkan.Record

/-- A rectangle of pixels, without its right column and its bottom row. -/
structure PixelRect where
  left : Nat
  top : Nat
  right : Nat
  bottom : Nat
  deriving DecidableEq, Repr

namespace PixelRect

/-- A pixel of the rectangle. -/
def Covers (rect : PixelRect) (x y : Nat) : Prop :=
  rect.left ≤ x ∧ x < rect.right ∧ rect.top ≤ y ∧ y < rect.bottom

instance (rect : PixelRect) (x y : Nat) : Decidable (rect.Covers x y) :=
  inferInstanceAs (Decidable (_ ∧ _))

/-- Two rectangles have the same intersection with a target. -/
def SameWithin (width height : Nat) (first second : PixelRect) : Prop :=
  ∀ x < width, ∀ y < height, first.Covers x y ↔ second.Covers x y

/-- The rectangle has a pixel of the target. -/
def Meets (width height : Nat) (rect : PixelRect) : Prop :=
  (rect.left < width ∧ rect.left < rect.right) ∧ rect.top < height ∧ rect.top < rect.bottom

instance (width height : Nat) (rect : PixelRect) : Decidable (rect.Meets width height) :=
  inferInstanceAs (Decidable (_ ∧ _))

variable {width height : Nat} {first second : PixelRect}

theorem Meets.of_covers {rect : PixelRect} {x y : Nat} (hx : x < width) (hy : y < height)
    (h : rect.Covers x y) : rect.Meets width height := by
  simp only [Covers, Meets] at h ⊢
  omega

theorem Meets.covers {rect : PixelRect} (h : rect.Meets width height) : rect.Covers rect.left rect.top := by
  simp only [Covers, Meets] at h ⊢
  omega

/-- Against a rectangle without a pixel of the target, only such a rectangle is the same. -/
theorem sameWithin_iff_of_not_meets (h : ¬ second.Meets width height) :
    SameWithin width height first second ↔ ¬ first.Meets width height := by
  constructor
  · intro hsame hmeets
    exact h (.of_covers hmeets.1.1 hmeets.2.1 ((hsame _ hmeets.1.1 _ hmeets.2.1).mp hmeets.covers))
  · intro hmeets x hx y hy
    exact iff_of_false (fun hcovers => hmeets (.of_covers hx hy hcovers))
      fun hcovers => h (.of_covers hx hy hcovers)

/-- Intervals with one start below a bound are the same below it where their ends are, cut to the
bound. -/
theorem min_eq_of_same {bound start stop stop' : Nat} (hstart : start < bound) (hstop : start < stop')
    (hsame : ∀ i < bound, start ≤ i ∧ i < stop ↔ start ≤ i ∧ i < stop') : min bound stop = min bound stop' := by
  have hfirst := hsame start hstart
  have hend := hsame stop
  have hend' := hsame stop'
  omega

/-- Rectangles with one corner in common are the same where their other corners are, cut to the
target. -/
theorem sameWithin_iff_of_meets (h : second.Meets width height) (hleft : first.left = second.left)
    (htop : first.top = second.top) : SameWithin width height first second ↔
      min width first.right = min width second.right ∧ min height first.bottom = min height second.bottom := by
  simp only [Meets] at h
  simp only [SameWithin, Covers, hleft, htop]
  constructor
  · intro hsame
    -- the corner is in both, so that its row and its column show the edges
    have hcorner := (hsame second.left h.1.1 second.top h.2.1).mpr ⟨Nat.le_refl _, h.1.2, Nat.le_refl _, h.2.2⟩
    constructor
    · refine min_eq_of_same h.1.1 h.1.2 fun x hx => ?_
      have hrow := hsame x hx second.top h.2.1
      simp only [Nat.le_refl, hcorner.2.2.2, h.2.2, and_true] at hrow
      exact hrow
    · refine min_eq_of_same h.2.1 h.2.2 fun y hy => ?_
      have hcolumn := hsame second.left h.1.1 y hy
      simp only [Nat.le_refl, hcorner.2.1, h.1.2, true_and] at hcolumn
      exact hcolumn
  · rintro ⟨hright, hbottom⟩ x hx y hy
    omega

/-- What is left of a rectangle in the fields of the two words: a coordinate is cut to 15 bits, and
that of an upper field has the bits above the sixteenth of the lower field's or-ed in. -/
def packed (rect : PixelRect) : PixelRect where
  left := rect.left % 2 ^ 15
  top := (rect.left / 2 ^ 16 ||| rect.top) % 2 ^ 15
  right := rect.right % 2 ^ 15
  bottom := (rect.right / 2 ^ 16 ||| rect.bottom) % 2 ^ 15

/-- The fields keep what a target of at most 16384 by 16384 shows of the rectangle: of one that
meets the target, the right and the bottom edge as far as the target goes. Of any other the cut
edges start behind the target, or end before they start. -/
def FieldsKeep (width height : Nat) (rect : PixelRect) : Prop :=
  (rect.Meets width height → (rect.right < 2 ^ 15 ∨ width ≤ rect.right % 2 ^ 15) ∧
    min height ((rect.right / 2 ^ 16 ||| rect.bottom) % 2 ^ 15) = min height rect.bottom) ∧
  (¬ rect.Meets width height →
    (width ≤ rect.left % 2 ^ 15 ∨ rect.right % 2 ^ 15 ≤ rect.left % 2 ^ 15) ∨
      height ≤ (rect.left / 2 ^ 16 ||| rect.top) % 2 ^ 15 ∨
      (rect.right / 2 ^ 16 ||| rect.bottom) % 2 ^ 15 ≤ (rect.left / 2 ^ 16 ||| rect.top) % 2 ^ 15)

instance (width height : Nat) (rect : PixelRect) : Decidable (rect.FieldsKeep width height) :=
  inferInstanceAs (Decidable (_ ∧ _))

theorem packed_sameWithin_iff (hwidth : width ≤ 16384) (hheight : height ≤ 16384) (rect : PixelRect) :
    SameWithin width height rect.packed rect ↔ rect.FieldsKeep width height := by
  by_cases hmeets : rect.Meets width height
  · have hcorner := hmeets
    simp only [Meets] at hcorner
    have hhigh : rect.left / 2 ^ 16 = 0 := by omega
    have htop : rect.packed.top = rect.top := by
      simp only [packed, hhigh, Nat.zero_or]
      omega
    rw [sameWithin_iff_of_meets hmeets (Nat.mod_eq_of_lt (by omega)) htop]
    have hright : min width rect.packed.right = min width rect.right ↔
        rect.right < 2 ^ 15 ∨ width ≤ rect.right % 2 ^ 15 := by
      simp only [packed]
      omega
    rw [hright]
    simp only [FieldsKeep, hmeets, packed, forall_const, not_true_eq_false, IsEmpty.forall_iff, and_true]
  · rw [sameWithin_iff_of_not_meets hmeets]
    simp only [FieldsKeep, hmeets, IsEmpty.forall_iff, not_false_eq_true, forall_const, true_and]
    simp only [Meets, packed, not_and_or, Nat.not_lt]

end PixelRect

/-- The rectangle a scissor names. -/
def Scissor.rect (scissor : Scissor) : PixelRect where
  left := scissor.x.toInt.toNat
  top := scissor.y.toInt.toNat
  right := (scissor.x.toInt + scissor.width.toNat).toNat
  bottom := (scissor.y.toInt + scissor.height.toNat).toNat

/-- A scissor Vulkan allows. -/
def Scissor.Allowed (scissor : Scissor) : Prop :=
  (0 ≤ scissor.x.toInt ∧ scissor.x.toInt + scissor.width.toNat ≤ 2 ^ 31 - 1) ∧
    0 ≤ scissor.y.toInt ∧ scissor.y.toInt + scissor.height.toNat ≤ 2 ^ 31 - 1

instance (scissor : Scissor) : Decidable scissor.Allowed :=
  inferInstanceAs (Decidable (_ ∧ _))

/-- A 15-bit field of a scissor word. -/
def scissorField (word : UInt32) (shift : Nat) : Nat :=
  word.toNat / 2 ^ shift % 2 ^ 15

/-- The rectangle in `PA_SC_GENERIC_SCISSOR_TL` and `PA_SC_GENERIC_SCISSOR_BR`. -/
def readScissor (tl br : UInt32) : PixelRect where
  left := scissorField tl 0
  top := scissorField tl 16
  right := scissorField br 0
  bottom := scissorField br 16

/-- The rectangle in the scissor words of a draw's registers. -/
def recordedScissor (scissor : Scissor) : Option PixelRect := do
  let tl ← (viewportRegisters viewport scissor).lookup 0x090
  let br ← (viewportRegisters viewport scissor).lookup 0x091
  return readScissor tl br

theorem scissorField_low (low high : UInt32) :
    scissorField (low ||| high <<< (16 : UInt32)) 0 = low.toNat % 2 ^ 15 := by
  have hshift : high.toNat <<< 16 % 2 ^ 32 % 2 ^ 15 = 0 := by
    rw [Nat.shiftLeft_eq]
    omega
  simp only [scissorField, UInt32.toNat_or, UInt32.toNat_shiftLeft, Nat.pow_zero, Nat.div_one, Nat.or_mod_two_pow]
  change _ ||| high.toNat <<< 16 % 2 ^ 32 % 2 ^ 15 = _
  rw [hshift, Nat.or_zero]

theorem scissorField_high (low high : UInt32) : scissorField (low ||| high <<< (16 : UInt32)) 16 =
      (low.toNat / 2 ^ 16 ||| high.toNat) % 2 ^ 15 := by
  have hshift : high.toNat <<< 16 % 2 ^ 32 / 2 ^ 16 % 2 ^ 15 = high.toNat % 2 ^ 15 := by
    rw [Nat.shiftLeft_eq]
    omega
  simp only [scissorField, UInt32.toNat_or, UInt32.toNat_shiftLeft,
    ← Nat.shiftRight_eq_div_pow _ 16, Nat.shiftRight_or_distrib, Nat.or_mod_two_pow] at hshift ⊢
  exact congrArg _ hshift

theorem toNat_offset {offset : Int32} (h : 0 ≤ offset.toInt) : offset.toUInt32.toNat = offset.toInt.toNat := by
  have hbound := offset.toUInt32.toNat_lt
  change 0 ≤ offset.toUInt32.toBitVec.toInt at h
  change offset.toUInt32.toBitVec.toNat = offset.toUInt32.toBitVec.toInt.toNat
  rw [BitVec.toInt_eq_toNat_cond] at h ⊢
  change offset.toUInt32.toBitVec.toNat < _ at hbound
  split at h <;> omega

theorem toNat_edge {offset : Int32} {extent : UInt32} (h : 0 ≤ offset.toInt)
    (hbound : offset.toInt + extent.toNat ≤ 2 ^ 31 - 1) :
    (offset.toUInt32 + extent).toNat = (offset.toInt + extent.toNat).toNat := by
  rw [UInt32.toNat_add, toNat_offset h]
  omega

/-- A draw records an allowed scissor as what the fields hold of its rectangle. -/
theorem recordedScissor_eq {scissor : Scissor} (h : scissor.Allowed) :
    recordedScissor viewport scissor = some scissor.rect.packed := by
  obtain ⟨⟨hx, hright⟩, hy, hbottom⟩ := h
  change some (readScissor _ _) = _
  simp only [readScissor, scissorField_low, scissorField_high, toNat_edge hx hright,
    toNat_edge hy hbottom, UInt32.toNat_or, toNat_offset hx, toNat_offset hy, PixelRect.packed,
    Scissor.rect, Option.some.injEq, PixelRect.mk.injEq, and_true]
  -- the bit that disables the window offset is above every field
  rw [← Nat.shiftRight_eq_div_pow _ 16, Nat.shiftRight_or_distrib, Nat.or_assoc,
    Nat.or_mod_two_pow, Nat.or_mod_two_pow, Nat.shiftRight_eq_div_pow, Nat.shiftRight_eq_div_pow]
  exact ⟨Nat.zero_or _, Nat.zero_or _⟩

/-- A draw's scissor words show the scissor in a target of at most 16384 by 16384 exactly where the
fields keep it. -/
theorem recordedScissor_same_iff {scissor : Scissor} (h : scissor.Allowed)
    {width height : Nat} (hwidth : width ≤ 16384) (hheight : height ≤ 16384) :
    (∃ rect, recordedScissor viewport scissor = some rect ∧
      rect.SameWithin width height scissor.rect) ↔ scissor.rect.FieldsKeep width height := by
  rw [recordedScissor_eq viewport h, ← PixelRect.packed_sameWithin_iff hwidth hheight]
  simp only [Option.some.injEq, exists_eq_left']

/-- A scissor twice as wide as the widest target, within the fields. -/
theorem recordedScissor_same_wide :
    ∃ rect, recordedScissor ⟨0, 0, 64, 64, 0, 1⟩ ⟨1, 2, 32766, 4⟩ = some rect ∧
      rect.SameWithin 16384 16384 ⟨1, 2, 32767, 6⟩ :=
  (recordedScissor_same_iff ⟨0, 0, 64, 64, 0, 1⟩
    (show (Scissor.mk 1 2 32766 4).Allowed by decide) (by decide) (by decide)).mpr (by decide)

/-- A scissor of 32768 columns has a right edge whose field is zero, so nothing of the target is
drawn. -/
theorem recordedScissor_cut :
    (Scissor.mk 0 0 32768 1).Allowed ∧
    ¬ ∃ rect, recordedScissor ⟨0, 0, 64, 64, 0, 1⟩ ⟨0, 0, 32768, 1⟩ = some rect ∧
      rect.SameWithin 16384 16384 (Scissor.mk 0 0 32768 1).rect := by
  have hallowed : (Scissor.mk 0 0 32768 1).Allowed := by decide
  refine ⟨hallowed, ?_⟩
  rw [recordedScissor_eq _ hallowed]
  rintro ⟨rect, hrect, hsame⟩
  have hcovers := hsame 0 (by decide) 0 (by decide)
  rw [← Option.some.inj hrect] at hcovers
  exact absurd (hcovers.mpr (by decide)) (by decide)

end Ps5Vulkan.Record
