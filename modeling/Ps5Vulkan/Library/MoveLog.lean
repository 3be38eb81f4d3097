import Mathlib.Data.List.Nodup

/-!
# Logs of moves

A copy as the log of the moves it makes: each takes what one address holds to another. Where no move
reads what a move of the log writes, an address ends with what the last move that lands on it took
from the memory before all of them. Two logs that land on different addresses, or take different
sources to one address, are then told apart by a memory.
-/

namespace Ps5Vulkan

/-- A move's destination and its source. -/
abbrev Move := Nat × Nat

variable {α : Type*}

/-- The moves one after the other. -/
def moveAll (moves : List Move) (memory : Nat → α) : Nat → α :=
  moves.foldl (fun memory move => Function.update memory move.1 (memory move.2)) memory

/-- The log lands on the address. -/
def LandsOn (moves : List Move) (address : Nat) : Prop :=
  ∃ move ∈ moves, move.1 = address

/-- No move reads what a move of the log writes. -/
def ReadsApart (moves : List Move) : Prop :=
  ∀ move ∈ moves, ¬LandsOn moves move.2

instance (moves : List Move) (address : Nat) : Decidable (LandsOn moves address) :=
  inferInstanceAs (Decidable (∃ move ∈ moves, move.1 = address))

instance (moves : List Move) : Decidable (ReadsApart moves) :=
  inferInstanceAs (Decidable (∀ move ∈ moves, ¬LandsOn moves move.2))

section Log

variable {moves moves' : List Move} {memory : Nat → α} {address : Nat}

theorem moveAll_of_not_landsOn (h : ¬LandsOn moves address) : moveAll moves memory address = memory address := by
  induction moves generalizing memory with
  | nil => rfl
  | cons move moves ih =>
    have hrest : ¬LandsOn moves address :=
      fun ⟨other, hmem, hother⟩ => h ⟨other, List.mem_cons_of_mem _ hmem, hother⟩
    have hne : address ≠ move.1 := fun heq => h ⟨move, List.mem_cons_self, heq.symm⟩
    calc moveAll (move :: moves) memory address
        = Function.update memory move.1 (memory move.2) address := ih hrest
      _ = memory address := Function.update_of_ne hne _ _

/-- An address the log lands on ends with what a move to it read of the memory before the log, as
long as no source is written. -/
theorem moveAll_of_landsOn (memory : Nat → α)
    (hsources : ∀ move ∈ moves, ∀ other ∈ moves, move.2 ≠ other.1) (h : LandsOn moves address) :
    ∃ move ∈ moves, move.1 = address ∧ moveAll moves memory address = memory move.2 := by
  induction moves generalizing memory with
  | nil =>
    obtain ⟨move, hmem, _⟩ := h
    cases hmem
  | cons first moves ih =>
    by_cases hrest : LandsOn moves address
    · have hsources' : ∀ move ∈ moves, ∀ other ∈ moves, move.2 ≠ other.1 :=
        fun move hmem other hother =>
          hsources move (List.mem_cons_of_mem _ hmem) other (List.mem_cons_of_mem _ hother)
      obtain ⟨move, hmem, hmove, hvalue⟩ := ih (Function.update memory first.1 (memory first.2)) hsources' hrest
      refine ⟨move, List.mem_cons_of_mem _ hmem, hmove, ?_⟩
      calc moveAll (first :: moves) memory address
          = Function.update memory first.1 (memory first.2) move.2 := hvalue
        _ = memory move.2 := Function.update_of_ne
            (hsources move (List.mem_cons_of_mem _ hmem) first List.mem_cons_self) _ _
    · have hfirst : first.1 = address := by
        obtain ⟨move, hmem, hmove⟩ := h
        rcases List.mem_cons.1 hmem with rfl | hmem
        · exact hmove
        · exact absurd ⟨move, hmem, hmove⟩ hrest
      refine ⟨first, List.mem_cons_self, hfirst, ?_⟩
      calc moveAll (first :: moves) memory address
          = Function.update memory first.1 (memory first.2) address :=
            moveAll_of_not_landsOn hrest
        _ = memory first.2 := by rw [hfirst, Function.update_self]

theorem ReadsApart.sources_ne (h : ReadsApart moves) : ∀ move ∈ moves, ∀ other ∈ moves, move.2 ≠ other.1 :=
  fun move hmem other hother heq => h move hmem ⟨other, hother, heq.symm⟩

/-- With distinct destinations, a move's destination ends with what the move read. -/
theorem ReadsApart.moveAll_destination (h : ReadsApart moves)
    (hnodup : (moves.map Prod.fst).Nodup) {move : Move} (hmem : move ∈ moves) :
    moveAll moves memory move.1 = memory move.2 := by
  obtain ⟨other, hother, heq, hvalue⟩ := moveAll_of_landsOn memory h.sources_ne ⟨move, hmem, rfl⟩
  obtain rfl : other = move := List.inj_on_of_nodup_map hnodup hother hmem heq
  exact hvalue

variable [Nontrivial α]

/-- A log that lands where the other does not is told apart from it. -/
theorem ReadsApart.exists_moveAll_ne_of_landsOn (h : ReadsApart moves) (address : Nat)
    (hlands : LandsOn moves address) (hnot : ¬LandsOn moves' address) :
    ∃ memory : Nat → α, moveAll moves memory ≠ moveAll moves' memory := by
  obtain ⟨a, b, hab⟩ := exists_pair_ne α
  refine ⟨Function.update (fun _ => b) address a, fun heq => ?_⟩
  obtain ⟨move, hmem, _, hvalue⟩ := moveAll_of_landsOn (Function.update (fun _ => b) address a) h.sources_ne hlands
  have hsource : move.2 ≠ address := fun hsource => h move hmem (hsource ▸ hlands)
  have hat := congrFun heq address
  rw [hvalue, moveAll_of_not_landsOn hnot, Function.update_of_ne hsource, Function.update_self] at hat
  exact hab hat.symm

/-- Logs that take different sources to one address are told apart. -/
theorem ReadsApart.exists_moveAll_ne_of_sources (h : ReadsApart moves) (h' : ReadsApart moves')
    (hnodup : (moves.map Prod.fst).Nodup) (hnodup' : (moves'.map Prod.fst).Nodup) {source source' : Nat}
    (hmem : (address, source) ∈ moves) (hmem' : (address, source') ∈ moves') (hne : source ≠ source') :
    ∃ memory : Nat → α, moveAll moves memory ≠ moveAll moves' memory := by
  obtain ⟨a, b, hab⟩ := exists_pair_ne α
  refine ⟨Function.update (fun _ => b) source a, fun heq => ?_⟩
  have hat := congrFun heq address
  rw [h.moveAll_destination hnodup hmem, h'.moveAll_destination hnodup' hmem', Function.update_self,
    Function.update_of_ne hne.symm] at hat
  exact hab hat

end Log

end Ps5Vulkan
