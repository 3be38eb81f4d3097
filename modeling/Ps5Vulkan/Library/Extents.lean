import Mathlib.Data.List.Pairwise
import Mathlib.Tactic.Common

/-!
# Lists of extents

Extents of an address space in a list by address, none empty and no two touching. One may be replaced by
pieces of it, and a new one put where it touches none. What such a list covers changes by exactly that.
-/

namespace Extents

structure Extent where
  start : Nat
  bytes : Nat
  deriving DecidableEq, Repr

namespace Extent

def stop (extent : Extent) : Nat :=
  extent.start + extent.bytes

/-- The addresses of an extent. -/
def Has (extent : Extent) (address : Nat) : Prop :=
  extent.start ≤ address ∧ address < extent.stop

/-- The piece lies in the extent. -/
def Within (piece extent : Extent) : Prop :=
  extent.start ≤ piece.start ∧ piece.stop ≤ extent.stop

/-- One ends before the other starts, with something between them. -/
def Before (first second : Extent) : Prop :=
  first.stop < second.start

/-- No address in common. -/
def Disjoint (first second : Extent) : Prop :=
  first.stop ≤ second.start ∨ second.stop ≤ first.start

instance (extent : Extent) (address : Nat) : Decidable (extent.Has address) :=
  inferInstanceAs (Decidable (_ ∧ _))

instance (first second : Extent) : Decidable (first.Disjoint second) :=
  inferInstanceAs (Decidable (_ ∨ _))

theorem Disjoint.symm {first second : Extent} (h : first.Disjoint second) : second.Disjoint first :=
  Or.symm h

theorem Disjoint.not_has {first second : Extent} (h : first.Disjoint second) {address : Nat}
    (hfirst : first.Has address) : ¬second.Has address := by
  intro hsecond
  unfold Has at hfirst hsecond
  rcases h with h | h <;> omega

theorem Within.refl (extent : Extent) : extent.Within extent :=
  ⟨Nat.le_refl _, Nat.le_refl _⟩

theorem Within.trans {first second third : Extent} (h : first.Within second) (h' : second.Within third) :
    first.Within third :=
  ⟨Nat.le_trans h'.1 h.1, Nat.le_trans h.2 h'.2⟩

/-- What shares no address with an extent shares none with a piece of it. -/
theorem Within.disjoint {piece extent other : Extent} (h : piece.Within extent)
    (hdisjoint : extent.Disjoint other) : piece.Disjoint other :=
  hdisjoint.imp (fun hbefore => Nat.le_trans h.2 hbefore) fun hbehind => Nat.le_trans hbehind h.1

theorem Within.has {piece extent : Extent} (h : piece.Within extent) {address : Nat}
    (haddress : piece.Has address) : extent.Has address :=
  ⟨Nat.le_trans h.1 haddress.1, Nat.lt_of_lt_of_le haddress.2 h.2⟩

theorem within_of_has {piece extent : Extent} (hpos : 0 < piece.bytes)
    (h : ∀ address, piece.Has address → extent.Has address) : piece.Within extent := by
  have hfirst := h piece.start ⟨Nat.le_refl _, by unfold stop; omega⟩
  have hlast := h (piece.stop - 1) ⟨by unfold stop; omega, by unfold stop; omega⟩
  unfold Has at hfirst hlast
  exact ⟨hfirst.1, by omega⟩

theorem disjoint_of_not_has {first second : Extent} (hfirst : 0 < first.bytes) (hsecond : 0 < second.bytes)
    (h : ∀ address, first.Has address → ¬second.Has address) : first.Disjoint second := by
  have hshared := h (max first.start second.start)
  unfold Has Disjoint stop at *
  omega

/-- The extents of a list cover an address. -/
def Covers (extents : List Extent) (address : Nat) : Prop :=
  ∃ extent ∈ extents, extent.Has address

instance (extents : List Extent) (address : Nat) : Decidable (Covers extents address) :=
  inferInstanceAs (Decidable (∃ extent ∈ extents, extent.Has address))

theorem covers_append {left right : List Extent} {address : Nat} :
    Covers (left ++ right) address ↔ Covers left address ∨ Covers right address := by
  simp only [Covers, List.mem_append, or_and_right, exists_or]

theorem covers_cons {extent : Extent} {extents : List Extent} {address : Nat} :
    Covers (extent :: extents) address ↔ extent.Has address ∨ Covers extents address := by
  simp [Covers]

@[simp] theorem not_covers_nil {address : Nat} : ¬Covers [] address := by
  simp [Covers]

/-- By address, none empty, no two touching. -/
structure Spaced (extents : List Extent) : Prop where
  pos : ∀ extent ∈ extents, 0 < extent.bytes
  apart : extents.Pairwise Before

section Spaced

variable {left right pieces : List Extent} {extent : Extent}

theorem spaced_singleton (h : 0 < extent.bytes) : Spaced [extent] :=
  ⟨by simpa using h, List.pairwise_singleton ..⟩

/-- Extents of a spaced list share no address. -/
theorem Spaced.disjoint {extents : List Extent} (h : Spaced extents) : extents.Pairwise Disjoint :=
  h.apart.imp fun hbefore => Or.inl (Nat.le_of_lt hbefore)

/-- A spaced list with some of its extents taken out. -/
theorem Spaced.sublist {extents some : List Extent} (h : Spaced extents) (hsublist : some.Sublist extents) :
    Spaced some :=
  ⟨fun piece hpiece => h.pos piece (hsublist.subset hpiece), h.apart.sublist hsublist⟩

/-- Spaced pieces of an extent, in its place. -/
theorem Spaced.replace (h : Spaced (left ++ extent :: right)) (hpieces : Spaced pieces)
    (hwithin : ∀ piece ∈ pieces, piece.Within extent) : Spaced (left ++ (pieces ++ right)) := by
  have hleft : ∀ other ∈ left, other.Before extent := fun other hother =>
    (List.pairwise_append.mp h.apart).2.2 other hother extent List.mem_cons_self
  have hright : ∀ other ∈ right, extent.Before other :=
    (List.pairwise_cons.mp (List.pairwise_append.mp h.apart).2.1).1
  have hrest : Spaced (left ++ right) := h.sublist (by simp)
  obtain ⟨hleftApart, hrightApart, hacross⟩ := List.pairwise_append.mp hrest.apart
  refine ⟨fun other hother => ?_, ?_⟩
  · rcases List.mem_append.mp hother with hother | hother
    · exact hrest.pos other (List.mem_append_left _ hother)
    · rcases List.mem_append.mp hother with hother | hother
      · exact hpieces.pos other hother
      · exact hrest.pos other (List.mem_append_right _ hother)
  · refine List.pairwise_append.mpr ⟨hleftApart,
      List.pairwise_append.mpr ⟨hpieces.apart, hrightApart, ?_⟩, ?_⟩
    · intro piece hpiece other hother
      exact Nat.lt_of_le_of_lt (hwithin piece hpiece).2 (hright other hother)
    · intro other hother piece hpiece
      rcases List.mem_append.mp hpiece with hpiece | hpiece
      · exact Nat.lt_of_lt_of_le (hleft other hother) (hwithin piece hpiece).1
      · exact hacross other hother piece hpiece

/-- A new extent between two it does not touch. -/
theorem Spaced.insert (h : Spaced (left ++ right)) (hpos : 0 < extent.bytes)
    (hleft : ∀ other ∈ left, other.Before extent) (hright : ∀ other ∈ right, extent.Before other) :
    Spaced (left ++ extent :: right) := by
  obtain ⟨hleftApart, hrightApart, hacross⟩ := List.pairwise_append.mp h.apart
  refine ⟨fun other hother => ?_, List.pairwise_append.mpr ⟨hleftApart,
    List.pairwise_cons.mpr ⟨hright, hrightApart⟩, ?_⟩⟩
  · rcases List.mem_append.mp hother with hother | hother
    · exact h.pos other (List.mem_append_left _ hother)
    · rcases List.mem_cons.mp hother with rfl | hother
      · exact hpos
      · exact h.pos other (List.mem_append_right _ hother)
  · intro other hother piece hpiece
    rcases List.mem_cons.mp hpiece with rfl | hpiece
    · exact hleft other hother
    · exact hacross other hother piece hpiece

end Spaced

end Extent

end Extents
