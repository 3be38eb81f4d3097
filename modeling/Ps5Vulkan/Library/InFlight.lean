import Ps5Vulkan.Library.SerialCounter
import Mathlib.Data.List.Pairwise

/-!
# Numbers in flight

Numbers of a serial counter are given to jobs that finish in order, each writing its number. Between the
number last written and the number last given lie those in flight. While the counter has not gone half a
turn beyond the written number, every number in flight is ahead of it.
-/

namespace SerialCounter

variable {M slack page issued seq : Nat} {pending : List Nat}

/-- The numbers in flight, after the steps of the counter that gave them: the written number is of an earlier
step than all of them, and the last step is less than half a turn away, with some slack. -/
def InFlight (M slack page : Nat) (pending : List Nat) (issued : Nat) : Prop :=
  ∃ (first last : Nat) (draws : List Nat), page = serial M first ∧ issued = serial M last ∧
    pending = draws.map (serial M) ∧ (first :: draws).Pairwise (· < ·) ∧
    (∀ draw ∈ first :: draws, draw ≤ last) ∧ last - first + slack < M / 2

namespace InFlight

/-- Nothing is in flight. -/
theorem idle (n : Nat) (h : slack < M / 2) : InFlight M slack (serial M n) [] (serial M n) :=
  ⟨n, n, [], rfl, rfl, rfl, List.pairwise_singleton .., by simp, by simpa using h⟩

theorem less (h : InFlight M (slack + 1) page pending issued) : InFlight M slack page pending issued := by
  obtain ⟨first, last, draws, hpage, hissued, hpending, hsorted, hlast, hnear⟩ := h
  exact ⟨first, last, draws, hpage, hissued, hpending, hsorted, hlast, Nat.lt_of_succ_lt hnear⟩

/-- The next one finishes. -/
theorem complete (h : InFlight M slack page (seq :: pending) issued) : InFlight M slack seq pending issued := by
  obtain ⟨first, last, draws, -, hissued, hpending, hsorted, hlast, hnear⟩ := h
  cases draws with
  | nil => cases hpending
  | cons draw draws =>
    obtain ⟨rfl, rfl⟩ := List.cons.inj hpending
    have hfirst : first < draw := (List.pairwise_cons.mp hsorted).1 draw List.mem_cons_self
    refine ⟨draw, last, draws, rfl, hissued, rfl, hsorted.tail, fun other hother => ?_, ?_⟩
    · exact hlast other (List.mem_cons_of_mem _ hother)
    · exact Nat.lt_of_le_of_lt (Nat.add_le_add_right (Nat.sub_le_sub_left (Nat.le_of_lt hfirst) last) slack) hnear

/-- A number is given to no job. -/
theorem draw (hM : 3 ≤ M) (h : InFlight M (slack + 1) page pending issued) :
    InFlight M slack page pending (next M issued) := by
  obtain ⟨first, last, draws, hpage, rfl, hpending, hsorted, hlast, hnear⟩ := h
  refine ⟨first, last + 1, draws, hpage, (serial_succ hM last).symm, hpending, hsorted,
    fun other hother => Nat.le_succ_of_le (hlast other hother), ?_⟩
  rw [Nat.succ_sub (hlast first List.mem_cons_self)]
  omega

/-- A number is given to a job. -/
theorem send (hM : 3 ≤ M) (h : InFlight M (slack + 1) page pending issued) :
    InFlight M slack page (pending ++ [next M issued]) (next M issued) := by
  obtain ⟨first, last, draws, hpage, rfl, rfl, hsorted, hlast, hnear⟩ := h
  refine ⟨first, last + 1, draws ++ [last + 1], hpage, (serial_succ hM last).symm, ?_, ?_, ?_, ?_⟩
  · rw [List.map_append, List.map_singleton, serial_succ hM]
  · rw [← List.cons_append]
    refine List.pairwise_append.mpr ⟨hsorted, List.pairwise_singleton .., fun other hother new hnew => ?_⟩
    rw [List.mem_singleton.mp hnew]
    exact Nat.lt_succ_of_le (hlast other hother)
  · intro other hother
    rw [← List.cons_append] at hother
    rcases List.mem_append.mp hother with hold | hnew
    · exact Nat.le_succ_of_le (hlast other hold)
    · exact Nat.le_of_eq (List.mem_singleton.mp hnew)
  · rw [Nat.succ_sub (hlast first List.mem_cons_self)]
    omega

/-- A number in flight is ahead of the written one. -/
theorem ahead (h : InFlight M (slack + 1) page pending issued) (hseq : seq ∈ pending) :
    0 < distance M seq page ∧ distance M seq page < M / 2 := by
  obtain ⟨first, last, draws, rfl, -, rfl, hsorted, hlast, hnear⟩ := h
  obtain ⟨draw, hdraw, rfl⟩ := List.mem_map.mp hseq
  have hfirst : first < draw := (List.pairwise_cons.mp hsorted).1 draw hdraw
  have hdrawn : draw ≤ last := hlast draw (List.mem_cons_of_mem _ hdraw)
  rcases distance_serial (Nat.le_of_lt hfirst) (by omega : draw - first < M - 1) with h | h <;> omega

/-- How far the counter has gone is what the numbers show. -/
theorem slacken {slack' : Nat} (h : InFlight M (slack + 1) page pending issued)
    (hnear : distance M issued page + slack' < M / 2) : InFlight M slack' page pending issued := by
  obtain ⟨first, last, draws, rfl, rfl, hpending, hsorted, hlast, hold⟩ := h
  refine ⟨first, last, draws, rfl, rfl, hpending, hsorted, hlast, ?_⟩
  rcases distance_serial (hlast first List.mem_cons_self) (by omega : last - first < M - 1) with h | h <;> omega

end InFlight

end SerialCounter
