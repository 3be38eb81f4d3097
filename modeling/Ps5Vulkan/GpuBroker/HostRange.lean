import Ps5Vulkan.Library.Extents
import Ps5Vulkan.Library.Rounding
import Mathlib.Algebra.GroupWithZero.Nat
import Mathlib.Data.List.Induction
import Mathlib.Data.List.TakeWhile

/-!
# The broker's host address ranges

Host-visible client buffers come from two windows that the broker reserves whole while it runs
(`HostRange` in `tooling/gpu-broker/server.cpp`). A window's free extents are kept in an array of 512,
by address. A buffer takes the first one it fits into, aligned; its range is given back joined with the
free extents it touches, and lost where the array is full.

## Implementation notes

The windows end far below 2^64, so that no address here wraps. `most` is read by no function.
-/

namespace Ps5Vulkan.GpuBroker

open Extents

/-- The page of every reservation, mapping and size. -/
def pageBytes : Nat := 16384

/-- `(value + step - 1) & ~(step - 1)`, for a power of two. -/
def roundUp (value step : Nat) : Nat :=
  (value + step - 1) / step * step

/-- The length of `free`. -/
def maxExtents : Nat := 512

/-- The first extent that holds the size at the alignment, and what is left. An extent that would be cut
in two is passed over while the array is full. -/
def takeFrom (full : Bool) (size alignment : Nat) : List Extent → Option (Nat × List Extent)
  | [] => none
  | extent :: rest =>
    let start := roundUp extent.start alignment
    let stop := extent.start + extent.bytes
    let before : Extent := ⟨extent.start, start - extent.start⟩
    let after : Extent := ⟨start + size, stop - start - size⟩
    let next := (takeFrom full size alignment rest).map fun found => (found.1, extent :: found.2)
    if stop < start ∨ stop - start < size then next
    else if before.bytes ≠ 0 ∧ after.bytes ≠ 0 then
      if full then next else some (start, before :: after :: rest)
    else if before.bytes ≠ 0 then some (start, before :: rest)
    else if after.bytes ≠ 0 then some (start, after :: rest)
    else some (start, rest)

/-- The extents with a range given back. -/
def giveTo (free : List Extent) (start size : Nat) : List Extent :=
  let before := free.takeWhile fun extent => extent.start < start
  let after := free.dropWhile fun extent => extent.start < start
  let joinBefore := before.getLast?.filter fun extent => extent.start + extent.bytes = start
  let joinAfter := after.head?.filter fun extent => start + size = extent.start
  match joinBefore, joinAfter with
  | some left, some right =>
    before.dropLast ++ ⟨left.start, left.bytes + (size + right.bytes)⟩ :: after.tail
  | some left, none => before.dropLast ++ ⟨left.start, left.bytes + size⟩ :: after
  | none, some right => before ++ ⟨start, right.bytes + size⟩ :: after.tail
  | none, none => if free.length < maxExtents then before ++ ⟨start, size⟩ :: after else free

structure HostRange where
  base : Nat
  bytes : Nat
  reserved : Bool
  free : List Extent
  /-- The most extents it has held. -/
  most : Nat
  deriving DecidableEq, Repr

namespace HostRange

/-- `reserve`: the window in one piece, or nothing where it could not be had. -/
def reserve (base bytes : Nat) (reserved : Bool) : HostRange where
  base
  bytes
  reserved
  free := if reserved then [⟨base, bytes⟩] else []
  most := 1

/-- The range with other free extents. -/
def withFree (range : HostRange) (free : List Extent) : HostRange :=
  { range with free, most := max range.most free.length }

def take (range : HostRange) (size alignment : Nat) : Option (Nat × HostRange) :=
  (takeFrom (decide (range.free.length = maxExtents)) size alignment range.free).map fun found =>
    (found.1, range.withFree found.2)

def give (range : HostRange) (start size : Nat) : HostRange :=
  range.withFree (giveTo range.free start size)

end HostRange

/-! ### Taking -/

theorem le_roundUp {value step : Nat} (hstep : 0 < step) : value ≤ roundUp value step :=
  Rounding.le_up value hstep

theorem dvd_roundUp (value step : Nat) : step ∣ roundUp value step :=
  Rounding.dvd_up ..

/-- What is left of an extent around a block of it. -/
def around (extent : Extent) (start size : Nat) : List Extent :=
  [⟨extent.start, start - extent.start⟩, ⟨start + size, extent.stop - (start + size)⟩].filter
    fun piece => 0 < piece.bytes

section Around

variable {extent : Extent} {start size : Nat}

theorem spaced_around (hsize : 0 < size) (hstart : extent.start ≤ start) :
    Extent.Spaced (around extent start size) := by
  refine ⟨fun piece hpiece => ?_, List.Pairwise.filter _ ?_⟩
  · simpa using (List.mem_filter.mp hpiece).2
  · simp only [List.pairwise_cons, List.mem_singleton, forall_eq, List.not_mem_nil, false_implies,
      implies_true, List.Pairwise.nil, and_true, Extent.Before, Extent.stop]
    omega

theorem within_of_mem_around (hstart : extent.start ≤ start) (hstop : start + size ≤ extent.stop)
    {piece : Extent} (hpiece : piece ∈ around extent start size) : piece.Within extent := by
  have hmem := (List.mem_filter.mp hpiece).1
  simp only [List.mem_cons, List.not_mem_nil, or_false] at hmem
  rcases hmem with rfl | rfl
  · exact ⟨Nat.le_refl _, by simp only [Extent.stop] at hstop ⊢; omega⟩
  · exact ⟨by simp only; omega, by simp only [Extent.stop] at hstop ⊢; omega⟩

theorem covers_around (hstart : extent.start ≤ start) (hstop : start + size ≤ extent.stop) (address : Nat) :
    Extent.Covers (around extent start size) address ↔ extent.Has address ∧ ¬(⟨start, size⟩ : Extent).Has address := by
  simp only [Extent.Covers, around, List.mem_filter, List.mem_cons, List.not_mem_nil, or_false,
    decide_eq_true_eq, Extent.Has, Extent.stop] at hstop ⊢
  constructor
  · rintro ⟨piece, ⟨rfl | rfl, -⟩, hlow, hhigh⟩ <;> simp only at hlow hhigh <;> omega
  · rintro ⟨⟨hlow, hhigh⟩, hout⟩
    by_cases hside : address < start
    · exact ⟨_, ⟨Or.inl rfl, by simp only; omega⟩, by simp only; omega⟩
    · exact ⟨_, ⟨Or.inr rfl, by simp only; omega⟩, by simp only; omega⟩

end Around

/-- What an extent yields: nothing, so that the next is tried, or a block and what is left around it. -/
theorem takeFrom_cons (full : Bool) (size alignment : Nat) (extent : Extent) (rest : List Extent) :
    takeFrom full size alignment (extent :: rest) =
      let start := roundUp extent.start alignment
      if extent.stop < start ∨ extent.stop - start < size ∨
          full = true ∧ (around extent start size).length = 2 then
        (takeFrom full size alignment rest).map fun found => (found.1, extent :: found.2)
      else some (start, around extent start size ++ rest) := by
  simp only [takeFrom, Extent.stop, around, List.filter_cons, List.filter_nil, Nat.sub_sub]
  generalize roundUp extent.start alignment - extent.start = before
  generalize extent.start + extent.bytes - (roundUp extent.start alignment + size) = after
  by_cases hfits : extent.start + extent.bytes < roundUp extent.start alignment ∨
      extent.start + extent.bytes - roundUp extent.start alignment < size
  · rw [if_pos hfits, if_pos (by tauto)]
  · rw [if_neg hfits]
    simp only [not_or] at hfits
    cases before <;> cases after <;> cases full <;> simp [hfits]

/-- A block is taken out of one extent, at its alignment. -/
theorem takeFrom_eq_some {full : Bool} {size alignment start : Nat} {free left : List Extent}
    (halignment : 0 < alignment) (h : takeFrom full size alignment free = some (start, left)) :
    ∃ before extent after, free = before ++ extent :: after ∧ alignment ∣ start ∧ extent.start ≤ start ∧
      start + size ≤ extent.stop ∧ left = before ++ (around extent start size ++ after) ∧
      (full = true → left.length ≤ free.length) := by
  induction free generalizing start left with
  | nil => cases h
  | cons extent rest ih =>
    rw [takeFrom_cons] at h
    dsimp only at h
    split at h
    next =>
      obtain ⟨⟨start', left'⟩, hfound, heq⟩ := Option.map_eq_some_iff.mp h
      obtain ⟨hstart, hleft⟩ := Prod.mk.inj heq
      simp only at hstart hleft
      subst hstart hleft
      obtain ⟨before, other, after, hfree, hdvd, hlow, hhigh, hleft', hlength⟩ := ih hfound
      exact ⟨extent :: before, other, after, by rw [hfree]; rfl, hdvd, hlow, hhigh, by rw [hleft']; rfl,
        fun hfull => Nat.succ_le_succ (hlength hfull)⟩
    next hfits =>
      obtain ⟨rfl, rfl⟩ := Prod.mk.inj (Option.some.inj h)
      have hlow := @le_roundUp extent.start alignment halignment
      refine ⟨[], extent, rest, rfl, dvd_roundUp .., hlow, by omega, rfl, fun hfull => ?_⟩
      have hpieces : (around extent (roundUp extent.start alignment) size).length ≤ 2 :=
        List.length_filter_le ..
      rw [List.length_append, List.length_cons]
      have : (around extent (roundUp extent.start alignment) size).length ≠ 2 := fun htwo =>
        hfits (Or.inr (Or.inr ⟨hfull, htwo⟩))
      omega

section Take

variable {full : Bool} {size alignment start : Nat} {free left : List Extent}

theorem dvd_takeFrom (halignment : 0 < alignment)
    (h : takeFrom full size alignment free = some (start, left)) : alignment ∣ start := by
  obtain ⟨-, -, -, -, hdvd, -⟩ := takeFrom_eq_some halignment h
  exact hdvd

/-- The block lies in a free extent. -/
theorem within_takeFrom (halignment : 0 < alignment) (h : takeFrom full size alignment free = some (start, left)) :
    ∃ extent ∈ free, (⟨start, size⟩ : Extent).Within extent := by
  obtain ⟨before, extent, after, rfl, -, hlow, hhigh, -⟩ := takeFrom_eq_some halignment h
  exact ⟨extent, by simp, hlow, hhigh⟩

/-- What is left lies in what was free, and not in the block. -/
theorem within_of_mem_takeFrom (hfree : Extent.Spaced free) (halignment : 0 < alignment)
    (h : takeFrom full size alignment free = some (start, left)) {piece : Extent} (hpiece : piece ∈ left) :
    (∃ extent ∈ free, piece.Within extent) ∧ piece.Disjoint ⟨start, size⟩ := by
  obtain ⟨before, extent, after, rfl, -, hlow, hhigh, rfl, -⟩ := takeFrom_eq_some halignment h
  have hblock : (⟨start, size⟩ : Extent).Within extent := ⟨hlow, hhigh⟩
  obtain ⟨-, hrest, hacross⟩ := List.pairwise_append.mp hfree.disjoint
  rcases List.mem_append.mp hpiece with hmem | hmem
  · exact ⟨⟨piece, by simp [hmem], Extent.Within.refl _⟩,
      (hblock.disjoint (hacross piece hmem extent List.mem_cons_self).symm).symm⟩
  · rcases List.mem_append.mp hmem with hmem | hmem
    · refine ⟨⟨extent, by simp, within_of_mem_around hlow hhigh hmem⟩, ?_⟩
      have hmem := (List.mem_filter.mp hmem).1
      simp only [List.mem_cons, List.not_mem_nil, or_false] at hmem
      rcases hmem with rfl | rfl
      · exact Or.inl (by simp only [Extent.stop]; omega)
      · exact Or.inr (Nat.le_refl _)
    · exact ⟨⟨piece, by simp [hmem], Extent.Within.refl _⟩,
        (hblock.disjoint ((List.pairwise_cons.mp hrest).1 piece hmem)).symm⟩

theorem spaced_takeFrom (hfree : Extent.Spaced free) (hsize : 0 < size) (halignment : 0 < alignment)
    (h : takeFrom full size alignment free = some (start, left)) : Extent.Spaced left := by
  obtain ⟨before, extent, after, rfl, -, hlow, hhigh, rfl, -⟩ := takeFrom_eq_some halignment h
  exact hfree.replace (spaced_around hsize hlow) fun piece hpiece => within_of_mem_around hlow hhigh hpiece

/-- The block was covered, and nothing else is taken. -/
theorem covers_takeFrom (hfree : Extent.Spaced free) (halignment : 0 < alignment)
    (h : takeFrom full size alignment free = some (start, left)) (address : Nat) :
    Extent.Covers left address ↔ Extent.Covers free address ∧ ¬(⟨start, size⟩ : Extent).Has address := by
  obtain ⟨before, extent, after, rfl, -, hlow, hhigh, rfl, -⟩ := takeFrom_eq_some halignment h
  have hin : (⟨start, size⟩ : Extent).Has address → extent.Has address := fun ⟨hleft, hright⟩ =>
    ⟨Nat.le_trans hlow hleft, Nat.lt_of_lt_of_le hright hhigh⟩
  have hbefore : Extent.Covers before address → ¬extent.Has address := by
    rintro ⟨other, hother, hhas⟩
    exact ((List.pairwise_append.mp hfree.disjoint).2.2 other hother extent List.mem_cons_self).not_has hhas
  have hafter : Extent.Covers after address → ¬extent.Has address := by
    rintro ⟨other, hother, hhas⟩
    exact ((List.pairwise_cons.mp (List.pairwise_append.mp hfree.disjoint).2.1).1 other hother).symm.not_has hhas
  rw [Extent.covers_append, Extent.covers_append, covers_around hlow hhigh, Extent.covers_append, Extent.covers_cons]
  tauto

end Take

/-! ### Giving back -/

section Give

variable {free : List Extent} {start size : Nat}

/-- The free extents before a range that shares no address with them. -/
theorem stop_le_of_mem_takeWhile (hsize : 0 < size)
    (hdisjoint : ∀ extent ∈ free, extent.Disjoint ⟨start, size⟩) {extent : Extent}
    (hextent : extent ∈ free.takeWhile fun extent => extent.start < start) : extent.stop ≤ start := by
  have hlt : extent.start < start := by simpa using List.mem_takeWhile_imp hextent
  rcases hdisjoint extent ((List.takeWhile_sublist _).subset hextent) with h | h
  · exact h
  · exact absurd h (by simp only [Extent.stop]; omega)

theorem start_le_of_mem_dropWhile (hfree : Extent.Spaced free) {extent : Extent}
    (hextent : extent ∈ free.dropWhile fun extent => extent.start < start) : start ≤ extent.start := by
  induction free with
  | nil => cases hextent
  | cons first rest ih =>
    rw [List.dropWhile_cons] at hextent
    split at hextent
    next => exact ih (hfree.sublist (List.sublist_cons_self ..)) hextent
    next hfirst =>
      have hle : start ≤ first.start := by simpa using hfirst
      rcases List.mem_cons.mp hextent with rfl | hrest
      · exact hle
      · have hbefore : first.stop < extent.start := (List.pairwise_cons.mp hfree.apart).1 extent hrest
        unfold Extent.stop at hbefore
        omega

/-- The free extents behind such a range. -/
theorem stop_le_of_mem_dropWhile (hfree : Extent.Spaced free)
    (hdisjoint : ∀ extent ∈ free, extent.Disjoint ⟨start, size⟩) {extent : Extent}
    (hextent : extent ∈ free.dropWhile fun extent => extent.start < start) : start + size ≤ extent.start := by
  have hmem := (List.dropWhile_sublist _).subset hextent
  have hpos := hfree.pos extent hmem
  have hle := start_le_of_mem_dropWhile hfree hextent
  rcases hdisjoint extent hmem with h | h
  · exact absurd h (by simp only [Extent.stop]; omega)
  · exact h

/-- Only the last extent before the range can touch it. -/
theorem touches_before {left : List Extent} (hleft : Extent.Spaced left)
    (hstop : ∀ extent ∈ left, extent.stop ≤ start) :
    (left.getLast?.filter (fun extent => extent.start + extent.bytes = start) = none ∧
        ∀ extent ∈ left, extent.stop < start) ∨ ∃ rest last, left = rest ++ [last] ∧
        left.getLast?.filter (fun extent => extent.start + extent.bytes = start) = some last ∧
        last.stop = start ∧ ∀ extent ∈ rest, extent.Before last := by
  cases left using List.reverseRecOn with
  | nil => exact Or.inl ⟨rfl, by simp⟩
  | append_singleton rest last =>
    have hrest : ∀ extent ∈ rest, extent.Before last := fun extent hextent =>
      (List.pairwise_append.mp hleft.apart).2.2 extent hextent last (List.mem_singleton_self _)
    by_cases htouch : last.stop = start
    · refine Or.inr ⟨rest, last, rfl, ?_, htouch, hrest⟩
      simpa [Option.filter_some, Extent.stop] using htouch
    · refine Or.inl ⟨by simpa [Option.filter_some, Extent.stop] using htouch, fun extent hextent => ?_⟩
      have hlast := hstop last (by simp)
      rcases List.mem_append.mp hextent with hmem | hmem
      · have := hrest extent hmem
        unfold Extent.Before Extent.stop at *
        omega
      · rw [List.mem_singleton.mp hmem]
        omega

/-- Only the first extent behind the range can touch it. -/
theorem touches_after {right : List Extent} (hright : Extent.Spaced right)
    (hstart : ∀ extent ∈ right, start + size ≤ extent.start) :
    (right.head?.filter (fun extent => start + size = extent.start) = none ∧
        ∀ extent ∈ right, start + size < extent.start) ∨ ∃ first rest, right = first :: rest ∧
        right.head?.filter (fun extent => start + size = extent.start) = some first ∧
        start + size = first.start ∧ ∀ extent ∈ rest, first.Before extent := by
  cases right with
  | nil => exact Or.inl ⟨rfl, by simp⟩
  | cons first rest =>
    have hrest := (List.pairwise_cons.mp hright.apart).1
    by_cases htouch : start + size = first.start
    · refine Or.inr ⟨first, rest, rfl, ?_, htouch, hrest⟩
      simpa [Option.filter_some] using htouch
    · refine Or.inl ⟨by simpa [Option.filter_some] using htouch, fun extent hextent => ?_⟩
      have hfirst := hstart first List.mem_cons_self
      rcases List.mem_cons.mp hextent with rfl | hmem
      · omega
      · have := hrest extent hmem
        unfold Extent.Before Extent.stop at this
        omega

/-- A block stands as one extent with those between `left` and `right`, which it touches. -/
def Joined (free given : List Extent) (block : Extent) : Prop :=
  ∃ left between right joined, free = left ++ (between ++ right) ∧ given = left ++ joined :: right ∧
    0 < joined.bytes ∧ (∀ extent ∈ left, extent.Before joined) ∧ (∀ extent ∈ right, joined.Before extent) ∧
    ∀ address, joined.Has address ↔ Extent.Covers between address ∨ block.Has address

theorem Joined.spaced {given : List Extent} {block : Extent} (h : Joined free given block)
    (hfree : Extent.Spaced free) : Extent.Spaced given := by
  obtain ⟨left, between, right, joined, rfl, rfl, hpos, hleft, hright, -⟩ := h
  exact (hfree.sublist ((List.sublist_append_right between right).append_left left)).insert hpos hleft hright

theorem Joined.covers {given : List Extent} {block : Extent} (h : Joined free given block) (address : Nat) :
    Extent.Covers given address ↔ Extent.Covers free address ∨ block.Has address := by
  obtain ⟨left, between, right, joined, rfl, rfl, -, -, -, hhas⟩ := h
  simp only [Extent.covers_append, Extent.covers_cons, hhas]
  tauto

section

variable (hfree : Extent.Spaced free)

include hfree

/-- A range given back is one extent with those it touches, between the others; or the array is full. -/
theorem giveTo_cases (hsize : 0 < size) (hdisjoint : ∀ extent ∈ free, extent.Disjoint ⟨start, size⟩) :
    giveTo free start size = free ∧ maxExtents ≤ free.length ∨ Joined free (giveTo free start size) ⟨start, size⟩ := by
  have hbefore := touches_before (hfree.sublist (List.takeWhile_sublist _)) fun extent hextent =>
    stop_le_of_mem_takeWhile hsize hdisjoint hextent
  have hafter := touches_after (hfree.sublist (List.dropWhile_sublist _)) fun extent hextent =>
    stop_le_of_mem_dropWhile hfree hdisjoint hextent
  have hsplit : free = (free.takeWhile fun extent => extent.start < start) ++
      free.dropWhile fun extent => extent.start < start := List.takeWhile_append_dropWhile.symm
  unfold giveTo
  dsimp only
  generalize (free.takeWhile fun extent => extent.start < start) = left at *
  generalize (free.dropWhile fun extent => extent.start < start) = right at *
  subst hsplit
  have hends : ∀ {joined : Extent} {stop : Nat} {others : List Extent}, joined.stop = stop →
      (∀ extent ∈ others, stop < extent.start) → ∀ extent ∈ others, joined.Before extent :=
    fun hstop hothers extent hextent => hstop.trans_lt (hothers extent hextent)
  rcases hbefore with ⟨hnone, hleftStop⟩ | ⟨rest, last, rfl, hsome, hlast, hrest⟩ <;>
    rcases hafter with ⟨hnone', hrightStart⟩ | ⟨first, rest', rfl, hsome', hfirst, hrest'⟩
  · -- between two extents
    rw [hnone, hnone']
    dsimp only
    split
    · exact .inr ⟨left, [], right, _, rfl, rfl, hsize, hleftStop, hrightStart, fun _ => by simp⟩
    · exact .inl ⟨rfl, by omega⟩
  · -- before one it touches
    rw [hnone, hsome']
    refine .inr ⟨left, [first], rest', _, rfl, rfl, by simp only; omega, hleftStop,
      hends (by simp only [Extent.stop]; omega) hrest', fun address => ?_⟩
    simp only [Extent.covers_cons, Extent.not_covers_nil, or_false, Extent.Has, Extent.stop]
    omega
  · -- behind one it touches
    rw [hsome, hnone', List.dropLast_concat]
    refine .inr ⟨rest, [last], right, _, List.append_assoc .., rfl, by simp only; omega, hrest,
      hends (by simp only [Extent.stop] at hlast ⊢; omega) hrightStart, fun address => ?_⟩
    simp only [Extent.covers_cons, Extent.not_covers_nil, or_false, Extent.Has, Extent.stop] at hlast ⊢
    omega
  · -- between two it touches
    rw [hsome, hsome', List.dropLast_concat]
    refine .inr ⟨rest, [last, first], rest', _, List.append_assoc .., rfl, by simp only; omega, hrest,
      hends (by simp only [Extent.stop] at hlast ⊢; omega) hrest', fun address => ?_⟩
    simp only [Extent.covers_cons, Extent.not_covers_nil, or_false, Extent.Has, Extent.stop] at hlast ⊢
    omega

theorem spaced_giveTo (hsize : 0 < size)
    (hdisjoint : ∀ extent ∈ free, extent.Disjoint ⟨start, size⟩) : Extent.Spaced (giveTo free start size) := by
  rcases giveTo_cases hfree hsize hdisjoint with ⟨heq, -⟩ | hjoined
  · rw [heq]
    exact hfree
  · exact hjoined.spaced hfree

/-- Nothing but the range becomes free. -/
theorem covers_giveTo (hsize : 0 < size) (hdisjoint : ∀ extent ∈ free, extent.Disjoint ⟨start, size⟩) {address : Nat}
    (h : Extent.Covers (giveTo free start size) address) :
    Extent.Covers free address ∨ (⟨start, size⟩ : Extent).Has address := by
  rcases giveTo_cases hfree hsize hdisjoint with ⟨heq, -⟩ | hjoined
  · exact Or.inl (heq ▸ h)
  · exact (hjoined.covers address).mp h

/-- All of the range becomes free, while the array has room. -/
theorem covers_giveTo_of_lt (hsize : 0 < size)
    (hdisjoint : ∀ extent ∈ free, extent.Disjoint ⟨start, size⟩) (hroom : free.length < maxExtents)
    {address : Nat} (h : Extent.Covers free address ∨ (⟨start, size⟩ : Extent).Has address) :
    Extent.Covers (giveTo free start size) address := by
  rcases giveTo_cases hfree hsize hdisjoint with ⟨-, hfull⟩ | hjoined
  · exact absurd hroom (Nat.not_lt.mpr hfull)
  · exact (hjoined.covers address).mpr h

end

end Give

/-! ### A window and the blocks taken from it -/

namespace HostRange

variable {range : HostRange} {blocks : List Extent}

/-- The window. -/
def extent (range : HostRange) : Extent :=
  ⟨range.base, range.bytes⟩

/-- Free extents by address, none empty and none touching another; and blocks. They lie in the window and
no two of them share an address. -/
structure Exclusive (range : HostRange) (blocks : List Extent) : Prop where
  counted : range.free.length ≤ range.most
  spaced : Extent.Spaced range.free
  freeInside : ∀ extent ∈ range.free, extent.Within range.extent
  blockPos : ∀ block ∈ blocks, 0 < block.bytes
  blockInside : ∀ block ∈ blocks, block.Within range.extent
  blocksApart : blocks.Pairwise Extent.Disjoint
  apart : ∀ block ∈ blocks, ∀ extent ∈ range.free, extent.Disjoint block

/-- Free extents and blocks make up the window. -/
def Tiles (range : HostRange) (blocks : List Extent) : Prop :=
  ∀ address, range.extent.Has address → Extent.Covers range.free address ∨ Extent.Covers blocks address

theorem Exclusive.perm {blocks' : List Extent} (h : range.Exclusive blocks) (hperm : blocks'.Perm blocks) :
    range.Exclusive blocks' where
  counted := h.counted
  spaced := h.spaced
  freeInside := h.freeInside
  blockPos block hblock := h.blockPos block (hperm.subset hblock)
  blockInside block hblock := h.blockInside block (hperm.subset hblock)
  blocksApart := (hperm.pairwise_iff Extent.Disjoint.symm).mpr h.blocksApart
  apart block hblock := h.apart block (hperm.subset hblock)

theorem Tiles.perm {blocks' : List Extent} (h : range.Tiles blocks) (hperm : blocks'.Perm blocks) :
    range.Tiles blocks' := by
  intro address haddress
  refine (h address haddress).imp_right ?_
  rintro ⟨block, hblock, hhas⟩
  exact ⟨block, hperm.symm.subset hblock, hhas⟩

/-- A block that is never given back. -/
theorem Exclusive.drop {block : Extent} (h : range.Exclusive (block :: blocks)) : range.Exclusive blocks where
  counted := h.counted
  spaced := h.spaced
  freeInside := h.freeInside
  blockPos other hother := h.blockPos other (List.mem_cons_of_mem _ hother)
  blockInside other hother := h.blockInside other (List.mem_cons_of_mem _ hother)
  blocksApart := (List.pairwise_cons.mp h.blocksApart).2
  apart other hother := h.apart other (List.mem_cons_of_mem _ hother)

section Take

variable {range' : HostRange} {size alignment start : Nat}

theorem take_eq_some (h : range.take size alignment = some (start, range')) :
    ∃ left, takeFrom (decide (range.free.length = maxExtents)) size alignment range.free = some (start, left) ∧
      range' = range.withFree left := by
  obtain ⟨⟨start', left⟩, hfound, heq⟩ := Option.map_eq_some_iff.mp h
  obtain ⟨rfl, rfl⟩ := Prod.mk.inj heq
  exact ⟨left, hfound, rfl⟩

theorem Exclusive.take (h : range.Exclusive blocks) (hsize : 0 < size) (halignment : 0 < alignment)
    (htake : range.take size alignment = some (start, range')) : range'.Exclusive (⟨start, size⟩ :: blocks) := by
  obtain ⟨left, hfound, rfl⟩ := take_eq_some htake
  obtain ⟨free, hfree, hblock⟩ := within_takeFrom halignment hfound
  refine ⟨Nat.le_max_right .., spaced_takeFrom h.spaced hsize halignment hfound, fun piece hpiece => ?_, ?_, ?_, ?_, ?_⟩
  · obtain ⟨⟨extent, hextent, hwithin⟩, -⟩ := within_of_mem_takeFrom h.spaced halignment hfound hpiece
    exact hwithin.trans (h.freeInside extent hextent)
  · exact List.forall_mem_cons.mpr ⟨hsize, h.blockPos⟩
  · exact List.forall_mem_cons.mpr ⟨hblock.trans (h.freeInside free hfree), h.blockInside⟩
  · exact List.pairwise_cons.mpr
      ⟨fun block hmem => hblock.disjoint (h.apart block hmem free hfree), h.blocksApart⟩
  · refine List.forall_mem_cons.mpr ⟨fun piece hpiece => ?_, fun block hmem piece hpiece => ?_⟩
    · exact (within_of_mem_takeFrom h.spaced halignment hfound hpiece).2
    · obtain ⟨⟨extent, hextent, hwithin⟩, -⟩ := within_of_mem_takeFrom h.spaced halignment hfound hpiece
      exact hwithin.disjoint (h.apart block hmem extent hextent)

theorem Tiles.take (h : range.Tiles blocks) (hspaced : Extent.Spaced range.free) (halignment : 0 < alignment)
    (htake : range.take size alignment = some (start, range')) : range'.Tiles (⟨start, size⟩ :: blocks) := by
  obtain ⟨left, hfound, rfl⟩ := take_eq_some htake
  intro address haddress
  have hcovers : Extent.Covers left address ↔ _ := covers_takeFrom hspaced halignment hfound address
  have hold := h address haddress
  rw [Extent.covers_cons]
  show Extent.Covers left address ∨ _
  tauto

end Take

section Give

variable {block : Extent}

theorem Exclusive.give (h : range.Exclusive (block :: blocks)) :
    (range.give block.start block.bytes).Exclusive blocks := by
  have hpos := h.blockPos block List.mem_cons_self
  have hapart := h.apart block List.mem_cons_self
  have hspaced := spaced_giveTo h.spaced hpos hapart
  have hcovers : ∀ extent ∈ giveTo range.free block.start block.bytes, ∀ address, extent.Has address →
      Extent.Covers range.free address ∨ block.Has address := fun extent hextent address haddress =>
    covers_giveTo h.spaced hpos hapart ⟨extent, hextent, haddress⟩
  refine ⟨Nat.le_max_right .., hspaced, fun extent hextent => ?_, h.drop.blockPos, h.drop.blockInside,
    h.drop.blocksApart, fun other hother extent hextent => ?_⟩
  · refine Extent.within_of_has (hspaced.pos extent hextent) fun address haddress => ?_
    rcases hcovers extent hextent address haddress with ⟨free, hfree, hhas⟩ | hhas
    · exact (h.freeInside free hfree).has hhas
    · exact (h.blockInside block List.mem_cons_self).has hhas
  · refine Extent.disjoint_of_not_has (hspaced.pos extent hextent) (h.drop.blockPos other hother)
      fun address haddress => ?_
    rcases hcovers extent hextent address haddress with ⟨free, hfree, hhas⟩ | hhas
    · exact (h.drop.apart other hother free hfree).not_has hhas
    · exact ((List.pairwise_cons.mp h.blocksApart).1 other hother).not_has hhas

theorem Tiles.give (h : range.Tiles (block :: blocks)) (hexclusive : range.Exclusive (block :: blocks))
    (hroom : range.free.length < maxExtents) : (range.give block.start block.bytes).Tiles blocks := by
  intro address haddress
  have hold := h address haddress
  rw [Extent.covers_cons] at hold
  have hgive : Extent.Covers range.free address ∨ block.Has address →
      Extent.Covers (range.give block.start block.bytes).free address :=
    covers_giveTo_of_lt hexclusive.spaced (hexclusive.blockPos block List.mem_cons_self)
      (hexclusive.apart block List.mem_cons_self) hroom
  tauto

end Give

end HostRange

/-- `pw_gpu_contains`, for a range that does not wrap. -/
def contains (base length address bytes : Nat) : Bool :=
  decide (0 < length ∧ 0 < bytes ∧ base ≤ address ∧ address + bytes ≤ base + length)

/-- `PW_GPU_HOST_WINDOW_BASE` and `PW_GPU_HOST_WINDOW_BYTES`, in the 32-bit shader window. -/
def windowBase : Nat := 0x240000000

def windowBytes : Nat := 512 * 2 ^ 20

/-- `PW_GPU_HOST_HIGH_BASE` and `PW_GPU_HOST_HIGH_BYTES`. -/
def highBase : Nat := 0x3000000000

def highBytes : Nat := 16 * 2 ^ 30

theorem contains_iff {base length address bytes : Nat} (hlength : 0 < length) :
    contains base length address bytes = true ↔ 0 < bytes ∧ (⟨address, bytes⟩ : Extent).Within ⟨base, length⟩ := by
  simp [contains, Extent.Within, Extent.stop, hlength]

/-- What lies in the high window does not lie in the other. -/
theorem not_window_of_high {address bytes : Nat} (hpos : 0 < bytes)
    (h : (⟨address, bytes⟩ : Extent).Within ⟨highBase, highBytes⟩) :
    contains windowBase windowBytes address bytes = false := by
  have hlow : highBase ≤ address := h.1
  have hapart : windowBase + windowBytes < highBase := by decide
  simp only [contains, decide_eq_false_iff_not]
  omega

end Ps5Vulkan.GpuBroker
