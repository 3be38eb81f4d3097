import Mathlib.Data.List.Basic

/-!
# Register files and the tables that load them

A register keeps its value until a table writes it. A table is a list of writes, in order; a run of
tables loads one after the other. What a table leaves in a register it writes does not depend on
what the tables before it left there, and a register that no table writes keeps its first value.
-/

namespace RegisterFile

variable {R V : Type*}

/-- The registers a table writes. -/
def written (table : List (R × V)) : List R :=
  table.map Prod.fst

@[simp] theorem written_nil : written ([] : List (R × V)) = [] := rfl

@[simp] theorem written_cons (entry : R × V) (table : List (R × V)) :
    written (entry :: table) = entry.1 :: written table := rfl

@[simp] theorem written_append (first second : List (R × V)) :
    written (first ++ second) = written first ++ written second :=
  List.map_append

/-- A block that is there under a condition writes its registers under it. -/
theorem mem_written_ite {c : Prop} [Decidable c] {block : List (R × V)} {r : R} :
    r ∈ written (if c then block else []) ↔ c ∧ r ∈ written block := by
  split <;> simp_all

variable [DecidableEq R]

/-- The registers after a table was loaded. -/
def load (file : R → V) (table : List (R × V)) : R → V :=
  table.foldl (fun file entry => Function.update file entry.1 entry.2) file

/-- The registers after tables were loaded one after the other. -/
def run (file : R → V) (tables : List (List (R × V))) : R → V :=
  tables.foldl load file

theorem run_append (file : R → V) (first second : List (List (R × V))) :
    run file (first ++ second) = run (run file first) second :=
  List.foldl_append

@[simp] theorem run_cons (file : R → V) (table : List (R × V)) (rest : List (List (R × V))) :
    run file (table :: rest) = run (load file table) rest := rfl

/-- A table leaves the registers it does not write. -/
theorem load_of_notMem {table : List (R × V)} {r : R} (h : r ∉ written table) (file : R → V) :
    load file table r = file r := by
  induction table generalizing file with
  | nil => rfl
  | cons entry rest ih =>
    simp only [written_cons, List.mem_cons, not_or] at h
    change load (Function.update file entry.1 entry.2) rest r = file r
    rw [ih h.2, Function.update_of_ne h.1]

/-- What a table leaves in a register it writes is its own. -/
theorem load_of_mem {table : List (R × V)} {r : R} (h : r ∈ written table) (file file' : R → V) :
    load file table r = load file' table r := by
  induction table generalizing file file' with
  | nil => cases h
  | cons entry rest ih =>
    change load (Function.update file entry.1 entry.2) rest r = load (Function.update file' entry.1 entry.2) rest r
    by_cases hrest : r ∈ written rest
    · exact ih hrest _ _
    · have hentry : r = entry.1 := by
        simpa [hrest] using h
      subst hentry
      rw [load_of_notMem hrest, load_of_notMem hrest, Function.update_self, Function.update_self]

/-- Registers that agree before a table agree after it. -/
theorem load_congr {table : List (R × V)} {r : R} {file file' : R → V} (h : file r = file' r) :
    load file table r = load file' table r := by
  by_cases hmem : r ∈ written table
  · exact load_of_mem hmem _ _
  · rw [load_of_notMem hmem, load_of_notMem hmem, h]

/-- A register no table writes keeps its first value. -/
theorem run_of_notMem {tables : List (List (R × V))} {r : R}
    (h : ∀ table ∈ tables, r ∉ written table) (file : R → V) : run file tables r = file r := by
  induction tables generalizing file with
  | nil => rfl
  | cons table rest ih =>
    rw [run_cons, ih fun other hother => h other (List.mem_cons_of_mem _ hother),
      load_of_notMem (h table (List.mem_cons_self ..))]

end RegisterFile
