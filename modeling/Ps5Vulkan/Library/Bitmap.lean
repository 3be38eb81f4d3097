import Mathlib.Data.List.Perm.Basic

/-!
# Bitmaps with first fit

Units in use, a bit each, kept in words of 64. A request takes the lowest run of free units of its
length. The search walks the bits and steps over a word that is full.
-/

namespace Bitmap

/-- The words of a bitmap. -/
abbrev Words := Nat → BitVec 64

variable {words : Words} {units count unit run : Nat}

/-- A unit is in use. -/
def used (words : Words) (unit : Nat) : Bool := (words (unit / 64)).getLsbD (unit % 64)

/-- A unit's bit set or cleared. -/
def set (value : Bool) (words : Words) (unit : Nat) : Words :=
  Function.update words (unit / 64)
    (if value then words (unit / 64) ||| BitVec.twoPow 64 (unit % 64)
    else words (unit / 64) &&& ~~~BitVec.twoPow 64 (unit % 64))

/-- The bits of a run set or cleared. -/
def mark (words : Words) (first count : Nat) (value : Bool) : Words :=
  (List.range' first count).foldl (set value) words

/-- The search from a unit on, after `run` free ones: the first unit of the lowest run. -/
def search (words : Words) (units count unit run : Nat) : Option Nat :=
  if unit < units then
    if unit % 64 = 0 ∧ words (unit / 64) = BitVec.allOnes 64 then
      search words units count (unit + 64) 0
    else if used words unit then search words units count (unit + 1) 0
    else if run + 1 = count then some (unit + 1 - count)
    else search words units count (unit + 1) (run + 1)
  else none
  termination_by units - unit

/-- A run of free units. -/
def FreeRun (words : Words) (units count first : Nat) : Prop :=
  first + count ≤ units ∧ ∀ unit, first ≤ unit → unit < first + count → used words unit = false

theorem used_set (value : Bool) (words : Words) (unit other : Nat) :
    used (set value words unit) other = if other = unit then value else used words other := by
  by_cases hword : other / 64 = unit / 64
  · have hbits : other = unit ↔ other % 64 = unit % 64 := by omega
    have hlt := Nat.mod_lt other (Nat.zero_lt_succ 63)
    simp only [used, set, hword, Function.update_self, hbits]
    by_cases hbit : unit % 64 = other % 64
    · cases value <;> simp [hbit, hlt]
    · cases value <;> simp [Ne.symm hbit, hlt]
  · have hother : other ≠ unit := fun heq => hword (heq ▸ rfl)
    simp only [used, set, Function.update_of_ne hword, if_neg hother]

theorem mark_zero (words : Words) (first : Nat) (value : Bool) : mark words first 0 value = words :=
  rfl

theorem used_mark (words : Words) (first count : Nat) (value : Bool) (unit : Nat) :
    used (mark words first count value) unit =
      if first ≤ unit ∧ unit < first + count then value else used words unit := by
  induction count generalizing words first with
  | zero => rw [mark_zero, if_neg (by omega)]
  | succ count ih =>
    rw [mark, List.range'_succ, List.foldl_cons, ← mark, ih, used_set]
    split
    · rw [if_pos (by omega)]
    · split
      · rw [if_pos (by omega)]
      · rw [if_neg (by omega)]

/-- A full word has no free unit. -/
theorem used_of_full (hword : words (unit / 64) = BitVec.allOnes 64) : used words unit = true := by
  rw [used, hword, BitVec.getLsbD_allOnes]
  exact decide_eq_true (Nat.mod_lt _ (Nat.zero_lt_succ 63))

/-- The search finds the lowest free run there is. -/
theorem search_spec (hunits : units % 64 = 0) (hrun : run ≤ unit) (hshort : run < count)
    (hfree : ∀ earlier, unit - run ≤ earlier → earlier < unit → used words earlier = false)
    (hlow : ∀ first, FreeRun words units count first → unit - run ≤ first) :
    match search words units count unit run with
    | some first => FreeRun words units count first ∧ ∀ other, FreeRun words units count other → first ≤ other
    | none => ∀ other, ¬ FreeRun words units count other := by
  fun_induction search words units count unit run with
  | case1 unit run hlt hfull ih =>
    refine ih (Nat.zero_le _) (by omega) (fun earlier hle hlt => absurd hle (by omega)) ?_
    intro first hfirst
    by_contra hbefore
    have hword : max unit first / 64 = unit / 64 := by
      have := hlow first hfirst
      omega
    have hused := hfirst.2 (max unit first) (by omega) (by have := hlow first hfirst; omega)
    rw [used_of_full (hword ▸ hfull.2)] at hused
    nomatch hused
  | case2 unit run hlt hfull hused ih =>
    refine ih (Nat.zero_le _) (by omega) (fun earlier hle hlt => absurd hle (by omega)) ?_
    intro first hfirst
    by_contra hbefore
    have hlater := hlow first hfirst
    have hunit := hfirst.2 unit (by omega) (by omega)
    rw [hused] at hunit
    nomatch hunit
  | case3 unit run hlt hfull hused hdone =>
    refine ⟨⟨by omega, fun earlier hle hlt => ?_⟩, fun other hother => ?_⟩
    · by_cases hlast : earlier = unit
      · simpa [hlast] using hused
      · exact hfree earlier (by omega) (by omega)
    · have := hlow other hother
      omega
  | case4 unit run hlt hfull hused hdone ih =>
    refine ih (by omega) (by omega) (fun earlier hle hlt => ?_) (fun first hfirst => ?_)
    · by_cases hlast : earlier = unit
      · simpa [hlast] using hused
      · exact hfree earlier (by omega) (by omega)
    · have := hlow first hfirst
      omega
  | case5 unit run hend =>
    intro other hother
    have hlater := hlow other hother
    have hinside := hother.1
    omega

/-! ## Runs in use -/

/-- A unit of a run. -/
def Holds (run : Nat × Nat) (unit : Nat) : Prop := run.1 ≤ unit ∧ unit < run.1 + run.2

/-- The units in use are those of some runs, which lie in the map and do not meet. -/
structure Exact (words : Words) (units : Nat) (runs : List (Nat × Nat)) : Prop where
  used : ∀ unit, Bitmap.used words unit = true ↔ ∃ run ∈ runs, Holds run unit
  inside : ∀ run ∈ runs, run.1 + run.2 ≤ units
  apart : runs.Pairwise fun a b => ∀ unit, Holds a unit → ¬ Holds b unit

namespace Exact

variable {runs runs' : List (Nat × Nat)} {run : Nat × Nat}

theorem perm (h : Exact words units runs) (hperm : runs.Perm runs') : Exact words units runs' where
  used unit := (h.used unit).trans (exists_congr fun _ => and_congr_left fun _ => hperm.mem_iff)
  inside run hrun := h.inside run (hperm.mem_iff.mpr hrun)
  apart := (hperm.pairwise_iff fun hab unit hb ha => hab unit ha hb).mp h.apart

/-- A run is given back. -/
theorem give (h : Exact words units (run :: runs)) : Exact (mark words run.1 run.2 false) units runs := by
  obtain ⟨hrun, hruns⟩ := List.pairwise_cons.mp h.apart
  refine ⟨fun unit => ?_, fun other hother => h.inside other (List.mem_cons_of_mem _ hother), hruns⟩
  rw [used_mark]
  split
  · rename_i hholds
    refine iff_of_false Bool.false_ne_true ?_
    rintro ⟨other, hother, hothers⟩
    exact hrun other hother unit hholds hothers
  · rename_i hholds
    rw [h.used, List.exists_mem_cons_iff]
    exact or_iff_right hholds

/-- A run of no units. -/
theorem cons (h : Exact words units runs) (hnone : run.2 = 0) (hinside : run.1 ≤ units) :
    Exact words units (run :: runs) := by
  have hholds : ∀ unit, ¬ Holds run unit := by
    rintro unit ⟨hle, hlt⟩
    omega
  refine ⟨fun unit => ?_, List.forall_mem_cons.mpr ⟨by omega, h.inside⟩,
    List.pairwise_cons.mpr ⟨fun _ _ unit hrun => absurd hrun (hholds unit), h.apart⟩⟩
  rw [h.used, List.exists_mem_cons_iff]
  exact (or_iff_right (hholds unit)).symm

/-- A free run is taken. -/
theorem take (h : Exact words units runs) (hfree : FreeRun words units run.2 run.1) :
    Exact (mark words run.1 run.2 true) units (run :: runs) := by
  refine ⟨fun unit => ?_, List.forall_mem_cons.mpr ⟨hfree.1, h.inside⟩,
    List.pairwise_cons.mpr ⟨fun other hother unit hrun hholds => ?_, h.apart⟩⟩
  · rw [used_mark, List.exists_mem_cons_iff, ← h.used]
    split
    · rename_i hholds
      exact iff_of_true rfl (Or.inl hholds)
    · rename_i hholds
      exact (or_iff_right hholds).symm
  · have hused := (h.used unit).mpr ⟨other, hother, hholds⟩
    rw [hfree.2 unit hrun.1 hrun.2] at hused
    nomatch hused

end Exact

end Bitmap
