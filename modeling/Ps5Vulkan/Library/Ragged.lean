import Mathlib.Algebra.BigOperators.Group.List.Basic
import Mathlib.Algebra.GroupWithZero.Nat

/-!
# Ragged arrays

Rows of elements, each row with its own count and some of them empty, kept one after another in one
array. A position is a row and an element of it. A walk visits positions in order and goes on in the
next row that has elements, which is what counting up flat places does. Rows placed by a counter that
wraps are apart and inside their total where the counter does not wrap.
-/

namespace Ragged

variable {counts : List Nat} {p q : Nat × Nat} {n i : Nat}

/-- The elements of the rows before a row. -/
def start (counts : List Nat) (row : Nat) : Nat := (counts.take row).sum

/-- The place of a position in the one array. -/
def flat (counts : List Nat) (p : Nat × Nat) : Nat := start counts p.1 + p.2

/-- The row has the element. -/
def Valid (counts : List Nat) (p : Nat × Nat) : Prop := p.2 < counts.getD p.1 0

instance : Decidable (Valid counts p) := inferInstanceAs (Decidable (_ < _))

/-- There are `n` elements from a position on. -/
def Run (counts : List Nat) (p : Nat × Nat) (n : Nat) : Prop :=
  Valid counts p ∧ n ≤ counts.sum - flat counts p

instance : Decidable (Run counts p n) := inferInstanceAs (Decidable (_ ∧ _))

/-- The first `n` positions of some rows, numbered from `row` on, from an element of the first one. -/
def walkRows : List Nat → Nat → Nat → Nat → List (Nat × Nat)
  | [], _, _, _ => []
  | count :: rest, row, element, n =>
    (List.range (min n (count - element))).map (fun i => (row, element + i)) ++
      walkRows rest (row + 1) 0 (n - (count - element))

/-- The `n` positions from a position on, as far as there are as many. -/
def walk (counts : List Nat) (p : Nat × Nat) (n : Nat) : List (Nat × Nat) :=
  walkRows (counts.drop p.1) p.1 p.2 n

theorem start_cons_succ (count : Nat) (rest : List Nat) (row : Nat) :
    start (count :: rest) (row + 1) = count + start rest row := by
  simp [start]

/-- The rows from a row on start after the ones before it. -/
theorem start_add (counts : List Nat) (row later : Nat) :
    start counts (row + later) = start counts row + start (counts.drop row) later := by
  rw [start, List.take_add, List.sum_append]
  rfl

theorem start_mono {row row' : Nat} (h : row ≤ row') : start counts row ≤ start counts row' := by
  obtain ⟨later, rfl⟩ := Nat.exists_eq_add_of_le h
  rw [start_add]
  exact Nat.le_add_right _ _

theorem start_succ (counts : List Nat) (row : Nat) : start counts (row + 1) = start counts row + counts.getD row 0 := by
  induction counts generalizing row with
  | nil => simp [start]
  | cons count rest ih =>
    cases row with
    | zero => simp [start]
    | succ row => rw [start_cons_succ, start_cons_succ, ih, List.getD_cons_succ, Nat.add_assoc]

theorem start_le_sum (counts : List Nat) (row : Nat) : start counts row ≤ counts.sum := by
  have hsum : counts.sum = start counts row + (counts.drop row).sum := by
    rw [start, ← List.sum_append, List.take_append_drop]
  omega

/-- Positions lie in the array. -/
theorem Valid.flat_lt (h : Valid counts p) : flat counts p < counts.sum := by
  have hnext := start_succ counts p.1
  have hsum := start_le_sum counts (p.1 + 1)
  unfold Valid at h
  unfold flat
  omega

/-- A run of one element is a position. -/
theorem Valid.run_one (h : Valid counts p) : Run counts p 1 :=
  ⟨h, Nat.le_sub_of_add_le (by have := h.flat_lt; omega)⟩

/-- A run that stays in its row. -/
theorem Valid.run_of_row (h : Valid counts p) (hn : p.2 + n ≤ counts.getD p.1 0) : Run counts p n := by
  have hnext := start_succ counts p.1
  have hsum := start_le_sum counts (p.1 + 1)
  refine ⟨h, ?_⟩
  rw [flat]
  omega

/-- What a walk visits next, in the numbering of its own rows. -/
theorem getElem?_walkRows (rows : List Nat) (row element n i : Nat) (q : Nat × Nat)
    (helement : element ≤ rows.headD element) : (walkRows rows row element n)[i]? = some q ↔
      i < n ∧ row ≤ q.1 ∧ q.2 < rows.getD (q.1 - row) 0 ∧ start rows (q.1 - row) + q.2 = element + i := by
  induction rows generalizing row element n i with
  | nil => simp [walkRows]
  | cons count rest ih =>
    obtain ⟨r, c⟩ := q
    have hcount : element ≤ count := helement
    rw [walkRows]
    have hlength : ((List.range (min n (count - element))).map fun i => (row, element + i)).length =
        min n (count - element) := by rw [List.length_map, List.length_range]
    by_cases hhere : i < min n (count - element)
    · rw [List.getElem?_append_left (by rwa [hlength])]
      simp only [List.getElem?_map, List.getElem?_range hhere, Option.map_some, Option.some.injEq, Prod.mk.injEq]
      constructor
      · rintro ⟨rfl, rfl⟩
        simp only [Nat.sub_self, List.getD_cons_zero, start, List.take_zero, List.sum_nil]
        omega
      · rintro ⟨-, hrow, -, hflat⟩
        obtain ⟨later, rfl⟩ := Nat.exists_eq_add_of_le hrow
        cases later with
        | zero =>
          simp only [Nat.add_zero, Nat.sub_self, start, List.take_zero, List.sum_nil] at hflat
          exact ⟨rfl, by omega⟩
        | succ later =>
          -- A later row starts past every element of this one.
          rw [Nat.add_sub_cancel_left, start_cons_succ] at hflat
          omega
    · rw [List.getElem?_append_right (by rw [hlength]; exact Nat.not_lt.mp hhere), hlength,
        ih _ _ _ _ (by cases rest <;> simp)]
      constructor
      · rintro ⟨hi, hrow, hc, hflat⟩
        obtain ⟨later, rfl⟩ := Nat.exists_eq_add_of_le hrow
        have hsub : row + 1 + later - row = later + 1 := by omega
        rw [Nat.add_sub_cancel_left] at hc hflat
        simp only [hsub, List.getD_cons_succ, start_cons_succ]
        omega
      · rintro ⟨hi, hrow, hc, hflat⟩
        obtain ⟨later, rfl⟩ := Nat.exists_eq_add_of_le hrow
        cases later with
        | zero =>
          simp only [Nat.add_zero, Nat.sub_self, List.getD_cons_zero, start, List.take_zero,
            List.sum_nil] at hc hflat
          omega
        | succ later =>
          rw [Nat.add_sub_cancel_left, List.getD_cons_succ] at hc
          rw [Nat.add_sub_cancel_left, start_cons_succ] at hflat
          have hsub : row + (later + 1) - (row + 1) = later := by omega
          simp only [hsub]
          omega

/-- A walk visits the positions of consecutive places. -/
theorem getElem?_walk (hp : Valid counts p) :
    (walk counts p n)[i]? = some q ↔ i < n ∧ Valid counts q ∧ flat counts q = flat counts p + i := by
  have hhead : p.2 ≤ (counts.drop p.1).headD p.2 := by
    rw [Valid, List.getD_eq_getElem?_getD] at hp
    rw [List.headD_eq_head?_getD, List.head?_drop]
    cases hrow : counts[p.1]? with
    | none => exact Nat.le_refl _
    | some count =>
      rw [hrow] at hp
      exact Nat.le_of_lt hp
  rw [walk, getElem?_walkRows _ _ _ _ _ _ hhead]
  refine and_congr_right fun _ => ?_
  constructor
  · rintro ⟨hrow, hvalid, hflat⟩
    obtain ⟨later, hlater⟩ := Nat.exists_eq_add_of_le hrow
    rw [hlater, Nat.add_sub_cancel_left] at hvalid hflat
    rw [List.getD_eq_getElem?_getD, List.getElem?_drop, ← List.getD_eq_getElem?_getD] at hvalid
    refine ⟨by rwa [Valid, hlater], ?_⟩
    rw [flat, flat, hlater, start_add]
    omega
  · rintro ⟨hvalid, hflat⟩
    have hrow : p.1 ≤ q.1 := by
      -- An earlier row ends before the walk begins.
      by_contra hlt
      have hmono : start counts (q.1 + 1) ≤ start counts p.1 := start_mono (by omega)
      rw [start_succ] at hmono
      unfold Valid at hvalid
      unfold flat at hflat
      omega
    obtain ⟨later, hlater⟩ := Nat.exists_eq_add_of_le hrow
    rw [Valid, hlater] at hvalid
    rw [flat, flat, hlater, start_add] at hflat
    refine ⟨hrow, ?_, ?_⟩
    · rwa [hlater, Nat.add_sub_cancel_left, List.getD_eq_getElem?_getD, List.getElem?_drop,
        ← List.getD_eq_getElem?_getD]
    · rw [hlater, Nat.add_sub_cancel_left]
      omega

/-- A position is as many steps into a walk as its place is past the walk's first one. -/
theorem idxOf?_walk (hp : Valid counts p) (hq : Valid counts q) (n : Nat) : (walk counts p n).idxOf? q =
      if flat counts p ≤ flat counts q ∧ flat counts q < flat counts p + n then some (flat counts q - flat counts p)
      else none := by
  by_cases hin : flat counts p ≤ flat counts q ∧ flat counts q < flat counts p + n
  · have hget : (walk counts p n)[flat counts q - flat counts p]? = some q :=
      (getElem?_walk hp).mpr ⟨by omega, hq, by omega⟩
    obtain ⟨hlt, heq⟩ := List.getElem?_eq_some_iff.mp hget
    rw [if_pos hin, List.idxOf?_eq_some_iff]
    refine ⟨hlt, heq, fun j hj hvisited => ?_⟩
    have hj' := (getElem?_walk hp).mp (List.getElem?_eq_some_iff.mpr ⟨Nat.lt_trans hj hlt, hvisited⟩)
    omega
  · rw [if_neg hin, List.idxOf?_eq_none_iff]
    intro hmem
    obtain ⟨j, hj⟩ := List.getElem?_of_mem hmem
    have hj' := (getElem?_walk hp).mp hj
    omega

/-- Every place of the array is a position's. -/
theorem exists_flat (counts : List Nat) {k : Nat} (h : k < counts.sum) : ∃ q, Valid counts q ∧ flat counts q = k := by
  induction counts generalizing k with
  | nil => simp at h
  | cons count rest ih =>
    by_cases hrow : k < count
    · exact ⟨(0, k), hrow, by simp [flat, start]⟩
    · rw [List.sum_cons] at h
      obtain ⟨q, hq, hflat⟩ := ih (k := k - count) (by omega)
      refine ⟨(q.1 + 1, q.2), by simpa [Valid] using hq, ?_⟩
      rw [flat] at hflat ⊢
      rw [start_cons_succ]
      omega

/-! ## Rows at positions that wrap -/

section Stack

variable {m position total : Nat} {widths : List Nat} {rows : List (Nat × Nat)}

/-- Rows of some widths laid one after the other, each as its position and width. Positions wrap
modulo `m`. -/
def stack (m : Nat) : Nat → List Nat → List (Nat × Nat)
  | _, [] => []
  | position, width :: rest => (position, width) :: stack m ((position + width) % m) rest

/-- The position after the last row. -/
def top (m : Nat) : Nat → List Nat → Nat
  | position, [] => position
  | position, width :: rest => top m ((position + width) % m) rest

/-- No two rows meet, and all lie before the end. -/
structure Laid (rows : List (Nat × Nat)) (total : Nat) : Prop where
  apart : rows.Pairwise fun a b => a.1 + a.2 ≤ b.1 ∨ b.1 + b.2 ≤ a.1
  inside : ∀ a ∈ rows, a.1 + a.2 ≤ total

/-- A row stands where the sum of the rows before it puts it, cut to the positions there are. -/
theorem getElem?_stack (hposition : position < m) (i : Nat) : (stack m position widths)[i]? =
      widths[i]?.map fun width => ((position + start widths i) % m, width) := by
  induction widths generalizing position i with
  | nil => rfl
  | cons width rest ih =>
    cases i with
    | zero => simp [stack, start, Nat.mod_eq_of_lt hposition]
    | succ i =>
      rw [stack, List.getElem?_cons_succ, List.getElem?_cons_succ,
        ih (Nat.mod_lt _ (Nat.zero_lt_of_lt hposition)), start_cons_succ]
      simp only [Nat.mod_add_mod, Nat.add_assoc]

theorem top_eq_mod (hposition : position < m) : top m position widths = (position + widths.sum) % m := by
  induction widths generalizing position with
  | nil => exact (Nat.mod_eq_of_lt hposition).symm
  | cons width rest ih =>
    rw [top, ih (Nat.mod_lt _ (Nat.zero_lt_of_lt hposition)), List.sum_cons, Nat.mod_add_mod, Nat.add_assoc]

/-- Rows that fit stand where plain sums put them. -/
theorem top_eq (hfits : position + widths.sum < m) : top m position widths = position + widths.sum := by
  rw [top_eq_mod (by omega), Nat.mod_eq_of_lt hfits]

theorem le_of_mem_stack (hfits : position + widths.sum < m) {row : Nat × Nat}
    (hrow : row ∈ stack m position widths) : position ≤ row.1 := by
  induction widths generalizing position with
  | nil => cases hrow
  | cons width rest ih =>
    rw [List.sum_cons, ← Nat.add_assoc] at hfits
    have hnext : (position + width) % m = position + width := Nat.mod_eq_of_lt (by omega)
    rcases List.mem_cons.mp hrow with rfl | hlater
    · exact Nat.le_refl _
    · rw [hnext] at hlater
      exact Nat.le_trans (Nat.le_add_right _ _) (ih hfits hlater)

/-- Rows whose positions do not wrap are laid out properly. -/
theorem laid_stack (hfits : position + widths.sum < m) : Laid (stack m position widths) (top m position widths) := by
  induction widths generalizing position with
  | nil => exact ⟨List.Pairwise.nil, nofun⟩
  | cons width rest ih =>
    rw [List.sum_cons, ← Nat.add_assoc] at hfits
    have hnext : (position + width) % m = position + width := Nat.mod_eq_of_lt (by omega)
    rw [stack, top, hnext]
    have hrest := ih hfits
    refine ⟨List.pairwise_cons.mpr ⟨fun row hrow => .inl (le_of_mem_stack hfits hrow), hrest.apart⟩,
      List.forall_mem_cons.mpr ⟨?_, hrest.inside⟩⟩
    rw [top_eq hfits]
    exact Nat.le_add_right _ _

end Stack

end Ragged
