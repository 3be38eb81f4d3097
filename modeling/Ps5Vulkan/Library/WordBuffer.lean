import Mathlib.Data.List.Basic

/-!
# Word buffers

A buffer of cells addressed by number, written and read in runs. A read of what a write covered
gives the words written, and a read apart from it is unchanged; a read splits where its range does.
-/

namespace WordBuffer

variable {α : Type*}

/-- Writes a run of words from a position on. -/
def write (buffer : Nat → α) (pos : Nat) (words : List α) : Nat → α :=
  fun i => if pos ≤ i then (words[i - pos]?).getD (buffer i) else buffer i

/-- Reads a run of words from a position on. -/
def read (buffer : Nat → α) (pos count : Nat) : List α :=
  (List.range count).map fun k => buffer (pos + k)

@[simp] theorem write_nil (buffer : Nat → α) (pos : Nat) : write buffer pos [] = buffer := by
  funext i
  simp [write]

@[simp] theorem length_read (buffer : Nat → α) (pos count : Nat) : (read buffer pos count).length = count := by
  simp [read]

@[simp] theorem read_zero (buffer : Nat → α) (pos : Nat) : read buffer pos 0 = [] := rfl

theorem getElem?_read (buffer : Nat → α) (pos count k : Nat) :
    (read buffer pos count)[k]? = if k < count then some (buffer (pos + k)) else none := by
  by_cases hk : k < count <;> simp [read, hk]

/-- A run is its first part followed by the rest. -/
theorem read_add (buffer : Nat → α) (pos n m : Nat) :
    read buffer pos (n + m) = read buffer pos n ++ read buffer (pos + n) m := by
  simp only [read, List.range_add, List.map_append, List.map_map, Function.comp_def, Nat.add_assoc]

theorem read_congr {buffer buffer' : Nat → α} {pos count : Nat}
    (h : ∀ i, pos ≤ i → i < pos + count → buffer i = buffer' i) : read buffer pos count = read buffer' pos count := by
  refine List.map_congr_left fun k hk => h _ (by omega) ?_
  have := List.mem_range.mp hk
  omega

theorem write_apply_of_lt {buffer : Nat → α} {pos i : Nat} {words : List α} (h : i < pos) :
    write buffer pos words i = buffer i := by
  simp [write, Nat.not_le.mpr h]

theorem write_apply_of_ge {buffer : Nat → α} {pos i : Nat} {words : List α}
    (h : pos + words.length ≤ i) : write buffer pos words i = buffer i := by
  have hnone : words[i - pos]? = none := List.getElem?_eq_none (by omega)
  simp [write, hnone]

/-- Reading back what was written. -/
theorem read_write_self (buffer : Nat → α) (pos : Nat) (words : List α) :
    read (write buffer pos words) pos words.length = words := by
  refine List.ext_getElem? fun k => ?_
  rw [getElem?_read]
  by_cases hk : k < words.length
  · simp [hk, write]
  · simp [hk]

/-- A write leaves a run it does not meet. -/
theorem read_write_of_apart {buffer : Nat → α} {pos start count : Nat} {words : List α}
    (h : start + count ≤ pos ∨ pos + words.length ≤ start) :
    read (write buffer pos words) start count = read buffer start count := by
  refine read_congr fun i hi hi' => ?_
  rcases h with h | h
  · exact write_apply_of_lt (by omega)
  · exact write_apply_of_ge (by omega)

/-- Writing one run after another is one write of both. -/
theorem write_append (buffer : Nat → α) (pos : Nat) (first second : List α) :
    write (write buffer pos first) (pos + first.length) second = write buffer pos (first ++ second) := by
  funext i
  by_cases hpos : pos ≤ i
  · by_cases hfirst : i - pos < first.length
    · rw [write_apply_of_lt (by omega)]
      simp [write, hpos, List.getElem?_append_left hfirst]
    · have hi : pos + first.length ≤ i := by omega
      have hnone : first[i - pos]? = none := List.getElem?_eq_none (by omega)
      simp [write, hpos, hi, List.getElem?_append_right (Nat.le_of_not_lt hfirst), hnone, Nat.sub_sub]
  · rw [write_apply_of_lt (by omega)]
    simp [write, hpos]

/-- Writing one cell inside a run changes that word of the run. -/
theorem read_write_one (buffer : Nat → α) {pos count k : Nat} (hk : k < count) (word : α) :
    read (write buffer (pos + k) [word]) pos count = (read buffer pos count).set k word := by
  refine List.ext_getElem? fun i => ?_
  rw [List.getElem?_set, getElem?_read, getElem?_read, length_read]
  by_cases hik : k = i
  · subst hik
    simp [hk, write]
  · by_cases hi : i < count
    · simp only [hi, if_true, hik, if_false, Option.some.injEq]
      rcases Nat.lt_or_gt_of_ne hik with hlt | hgt
      · exact write_apply_of_ge (by simp only [List.length_singleton]; omega)
      · exact write_apply_of_lt (by omega)
    · simp [hi, hik]

section Scatter

/-- Runs written one after the other, each at its position. -/
def writeAll (writes : List (Nat × List α)) (buffer : Nat → α) : Nat → α :=
  writes.foldl (fun buffer run => write buffer run.1 run.2) buffer

variable {writes : List (Nat × List α)} {buffer : Nat → α}

/-- A cell that no run covers is unchanged. -/
theorem writeAll_apply_of_outside {i : Nat}
    (h : ∀ run ∈ writes, i < run.1 ∨ run.1 + run.2.length ≤ i) : writeAll writes buffer i = buffer i := by
  induction writes generalizing buffer with
  | nil => rfl
  | cons run writes ih =>
    calc writeAll (run :: writes) buffer i = write buffer run.1 run.2 i :=
          ih fun other hmem => h other (List.mem_cons_of_mem _ hmem)
      _ = buffer i := by
          rcases h run List.mem_cons_self with hlt | hge
          · exact write_apply_of_lt hlt
          · exact write_apply_of_ge hge

/-- A run of words apart from all runs written is unchanged. -/
theorem read_writeAll_of_apart {start count : Nat}
    (h : ∀ run ∈ writes, start + count ≤ run.1 ∨ run.1 + run.2.length ≤ start) :
    read (writeAll writes buffer) start count = read buffer start count := by
  refine read_congr fun i hi hi' => writeAll_apply_of_outside fun run hmem => ?_
  rcases h run hmem with hrun | hrun
  · exact .inl (by omega)
  · exact .inr (by omega)

/-- Runs apart from one another are all there in the end. -/
theorem read_writeAll_of_mem (buffer : Nat → α)
    (h : writes.Pairwise fun run run' => run.1 + run.2.length ≤ run'.1 ∨ run'.1 + run'.2.length ≤ run.1)
    {run : Nat × List α} (hmem : run ∈ writes) : read (writeAll writes buffer) run.1 run.2.length = run.2 := by
  induction writes generalizing buffer with
  | nil => cases hmem
  | cons first writes ih =>
    obtain ⟨hfirst, hrest⟩ := List.pairwise_cons.1 h
    rcases List.mem_cons.1 hmem with rfl | hmem
    · calc read (writeAll (run :: writes) buffer) run.1 run.2.length
          = read (write buffer run.1 run.2) run.1 run.2.length :=
            read_writeAll_of_apart hfirst
        _ = run.2 := read_write_self _ _ _
    · exact ih _ hrest hmem

/-- Runs whose words are read off cells that no run covers may all be read off at the start. -/
theorem foldl_write_eq_writeAll {ι : Type*} (place : ι → Nat) (words : (Nat → α) → ι → List α)
    (kept : Nat → Prop) (runs : List ι) (buffer : Nat → α)
    (hwords : ∀ run ∈ runs, ∀ buffer buffer' : Nat → α, (∀ i, kept i → buffer i = buffer' i) →
      words buffer run = words buffer' run) (hkept : ∀ run ∈ runs, ∀ (buffer : Nat → α) (i : Nat), kept i →
      i < place run ∨ place run + (words buffer run).length ≤ i) :
    runs.foldl (fun buffer run => write buffer (place run) (words buffer run)) buffer =
      writeAll (runs.map fun run => (place run, words buffer run)) buffer := by
  induction runs generalizing buffer with
  | nil => rfl
  | cons first runs ih =>
    have hrest := ih (write buffer (place first) (words buffer first))
      (fun run hmem => hwords run (List.mem_cons_of_mem _ hmem))
      (fun run hmem => hkept run (List.mem_cons_of_mem _ hmem))
    have hsame : ∀ run ∈ runs, words (write buffer (place first) (words buffer first)) run =
        words buffer run := by
      intro run hmem
      refine hwords run (List.mem_cons_of_mem _ hmem) _ _ fun i hi => ?_
      rcases hkept first List.mem_cons_self buffer i hi with hlt | hge
      · exact write_apply_of_lt hlt
      · exact write_apply_of_ge hge
    rw [List.foldl_cons, hrest]
    refine congrArg (fun writes => writeAll writes _) (List.map_congr_left fun run hmem => ?_)
    rw [hsame run hmem]

end Scatter

end WordBuffer
