import Mathlib.Algebra.BigOperators.Group.List.Basic
import Mathlib.Data.UInt
import Mathlib.Tactic.Abel

/-!
# Ledgers of wrapping counters

A ledger is a list of entries, each with a key and a counter of 32 bits. A key may have several
entries; only the first is ever looked up or changed. Counters wrap, so what a ledger has left and
what was taken from it add up to what it started with in 32 bits always, and as numbers exactly while
no more was taken than the first entry started with.
-/

/-- An entry of a ledger: a key and how much of it is left. -/
structure Ledger.Entry (K : Type*) where
  type : K
  remaining : UInt32
  deriving DecidableEq, Repr

/-- A list of counters, looked up by the first entry of a key. -/
abbrev Ledger (K : Type*) := List (Ledger.Entry K)

namespace Ledger

variable {K : Type*} [DecidableEq K]

/-- The first entry of a key. -/
def find (ledger : Ledger K) (key : K) : Option (Entry K) :=
  List.find? (fun entry => entry.type = key) ledger

/-- The counter of a key's first entry, zero for a key without one. -/
def first (ledger : Ledger K) (key : K) : UInt32 :=
  ((find ledger key).map Entry.remaining).getD 0

/-- The first entry of a key counts `amount` more. -/
def add : Ledger K → K → UInt32 → Ledger K
  | [], _, _ => []
  | entry :: rest, key, amount =>
    if entry.type = key then ⟨entry.type, entry.remaining + amount⟩ :: rest
    else entry :: add rest key amount

/-- What all the entries of a key have left together. -/
def total (ledger : Ledger K) (key : K) : Nat :=
  (ledger.map fun entry => if entry.type = key then entry.remaining.toNat else 0).sum

/-- What the entries of a key after its first one have left. -/
def later : Ledger K → K → Nat
  | [], _ => 0
  | entry :: rest, key => if entry.type = key then total rest key else later rest key

/-- The keys a ledger has an entry for. -/
def keys (ledger : Ledger K) : List K := ledger.map Entry.type

variable {ledger : Ledger K} {key other : K} {amount amount' : UInt32}

@[simp] theorem first_nil (key : K) : first ([] : Ledger K) key = 0 := rfl

theorem first_cons (entry : Entry K) (rest : Ledger K) (key : K) :
    first (entry :: rest) key = if entry.type = key then entry.remaining else first rest key := by
  by_cases h : entry.type = key <;> simp [first, find, h]

theorem find_eq_none_iff : find ledger key = none ↔ key ∉ keys ledger := by
  simp [find, keys, List.find?_eq_none]

theorem first_eq_of_find {entry : Entry K} (h : find ledger key = some entry) : first ledger key = entry.remaining := by
  simp [first, h]

theorem first_of_not_mem (h : key ∉ keys ledger) : first ledger key = 0 := by
  simp [first, find_eq_none_iff.mpr h]

/-- The entries of a key are its first one and the later ones. -/
theorem total_eq (ledger : Ledger K) (key : K) : total ledger key = (first ledger key).toNat + later ledger key := by
  induction ledger with
  | nil => simp [total, later]
  | cons entry rest ih =>
    by_cases h : entry.type = key
    · simp [total, later, first_cons, h]
    · simpa [total, later, first_cons, h] using ih

theorem total_of_not_mem (h : key ∉ keys ledger) : total ledger key = 0 := by
  refine List.sum_eq_zero fun amount hamount => ?_
  obtain ⟨entry, hentry, rfl⟩ := List.mem_map.mp hamount
  exact if_neg fun heq => h (List.mem_map.mpr ⟨entry, hentry, heq⟩)

/-- Where no key has two entries, nothing is left out of a lookup. -/
theorem later_eq_zero (h : (keys ledger).Nodup) (key : K) : later ledger key = 0 := by
  induction ledger with
  | nil => rfl
  | cons entry rest ih =>
    obtain ⟨habsent, hrest⟩ := List.nodup_cons.mp h
    rw [later]
    split
    · rename_i hkey
      exact total_of_not_mem (hkey ▸ habsent)
    · exact ih hrest

/-! ## Changing a counter -/

theorem first_add (h : key ∈ keys ledger) : first (add ledger key amount) key = first ledger key + amount := by
  induction ledger with
  | nil => simp [keys] at h
  | cons entry rest ih =>
    by_cases hkey : entry.type = key
    · simp [add, first_cons, hkey]
    · have hrest : key ∈ keys rest := by
        simpa [keys, Ne.symm hkey] using h
      simp [add, first_cons, hkey, ih hrest]

theorem first_add_of_ne (h : other ≠ key) : first (add ledger key amount) other = first ledger other := by
  induction ledger with
  | nil => rfl
  | cons entry rest ih =>
    by_cases hkey : entry.type = key
    · simp [add, first_cons, hkey, Ne.symm h]
    · simp [add, first_cons, hkey, ih]

@[simp] theorem keys_add (ledger : Ledger K) (key : K) (amount : UInt32) :
    keys (add ledger key amount) = keys ledger := by
  induction ledger with
  | nil => rfl
  | cons entry rest ih =>
    by_cases hkey : entry.type = key
    · simp [add, keys, hkey]
    · simpa [add, keys, hkey] using ih

theorem total_add_of_ne (h : other ≠ key) : total (add ledger key amount) other = total ledger other := by
  induction ledger with
  | nil => rfl
  | cons entry rest ih =>
    by_cases hkey : entry.type = key
    · simp [add, total, hkey, Ne.symm h]
    · simpa [add, total, hkey] using ih

@[simp] theorem later_add (ledger : Ledger K) (key other : K) (amount : UInt32) :
    later (add ledger key amount) other = later ledger other := by
  induction ledger with
  | nil => rfl
  | cons entry rest ih =>
    by_cases hkey : entry.type = key
    · by_cases hother : key = other <;> simp [add, later, hkey, hother]
    · by_cases hother : entry.type = other
      · have hne : other ≠ key := fun heq => hkey (hother.trans heq)
        simp [add, later, hother, hne, total_add_of_ne]
      · simp [add, later, hkey, hother, ih]

theorem add_comm (ledger : Ledger K) (key other : K) (amount amount' : UInt32) :
    add (add ledger key amount) other amount' = add (add ledger other amount') key amount := by
  induction ledger with
  | nil => rfl
  | cons entry rest ih =>
    by_cases hkey : entry.type = key <;> by_cases hother : entry.type = other
    · simp only [add, if_pos hkey, if_pos hother]
      rw [add_right_comm]
    · simp only [add, if_pos hkey, if_neg hother]
    · simp only [add, if_neg hkey, if_pos hother]
    · simp only [add, if_neg hkey, if_neg hother, ih]

theorem add_neg (ledger : Ledger K) (key : K) (amount : UInt32) :
    add (add ledger key (-amount)) key amount = ledger := by
  induction ledger with
  | nil => rfl
  | cons entry rest ih =>
    by_cases hkey : entry.type = key
    · simp only [add, if_pos hkey, neg_add_cancel_right]
    · simp only [add, if_neg hkey, ih]

/-! ## What a wrapping counter says -/

/-- A counter that started at `start` and gave out `taken` is exact while it had that much. -/
theorem exact_iff {left start : UInt32} {taken : Nat} (h : left + UInt32.ofNat taken = start) :
    left.toNat + taken = start.toNat ↔ taken ≤ start.toNat := by
  have hsum := congrArg UInt32.toNat h
  simp only [UInt32.toNat_add, UInt32.toNat_ofNat'] at hsum
  have hleft := left.toNat_lt
  have hstart := start.toNat_lt
  omega

end Ledger
