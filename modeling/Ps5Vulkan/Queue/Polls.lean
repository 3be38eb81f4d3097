import Ps5Vulkan.Queue.Machine
import Ps5Vulkan.Library.Outcome

/-!
# Polls and waits

A coherent queue's values are those of its counted steps, and the steps not yet seen finished are
fewer than the comparison of values can tell apart. A poll then always takes the marker it reads,
and a wait that returns has seen its step finished.
-/

namespace Ps5Vulkan.Queue

open Outcome

/-- The most steps a queue has in flight: one for every sixteen words of the stream area, and the
one being placed. -/
def stepWindow : Nat := submissionWords / 16 + 1

theorem stepWindow_lt : stepWindow + 2 < 2 ^ 31 := by decide

/-- The queue's values belong to its counted steps, `seen` of which the queue knows are finished,
and the ranges it keeps to those after them. -/
structure Coherent (m : Machine) (seen : Nat) : Prop where
  submitted : m.submittedValue = markerOf m.steps
  completed : m.completedValue = markerOf seen
  seen_le : seen ≤ m.finished
  finished_le : m.finished ≤ m.steps
  window : m.steps ≤ seen + stepWindow
  retire : ∀ range ∈ m.retire, ∃ step, seen < step ∧ step ≤ m.steps ∧ range.value = markerOf step

/-- A coherent queue whose next step takes the next value. -/
structure Ready (m : Machine) (seen : Nat) : Prop extends Coherent m seen where
  marker : m.markerValue = markerOf m.steps

/-- The trace names exactly the finished steps, and only steps handed over. -/
structure TraceCounts (m : Machine) : Prop where
  finish_mem : ∀ step, Event.finish step ∈ m.trace ↔ 1 ≤ step ∧ step ≤ m.finished
  submit_mem : ∀ step words, Event.submit step words ∈ m.trace → 1 ≤ step ∧ step ≤ m.steps

/-- Only the GPU moved, and the queue looked. -/
structure Waits (m m' : Machine) : Prop where
  buffer : m'.buffer = m.buffer
  marker : m'.markerValue = m.markerValue
  submitted : m'.submittedValue = m.submittedValue
  fence : m'.fenceValue = m.fenceValue
  ringHead : m'.ringHead = m.ringHead
  steps : m'.steps = m.steps
  placements : m'.placements = m.placements
  retire : m'.retire.Sublist m.retire
  trace : ∃ count, m'.finished = m.finished + count ∧
    m'.trace = m.trace ++ (List.range' (m.finished + 1) count).map Event.finish

namespace Waits

theorem refl (m : Machine) : Waits m m :=
  ⟨rfl, rfl, rfl, rfl, rfl, rfl, rfl, List.Sublist.refl _, 0, by simp⟩

theorem trans {m₁ m₂ m₃ : Machine} (h : Waits m₁ m₂) (h' : Waits m₂ m₃) : Waits m₁ m₃ := by
  obtain ⟨count, hfin, htrace⟩ := h.trace
  obtain ⟨count', hfin', htrace'⟩ := h'.trace
  refine ⟨h'.buffer.trans h.buffer, h'.marker.trans h.marker, h'.submitted.trans h.submitted,
    h'.fence.trans h.fence, h'.ringHead.trans h.ringHead, h'.steps.trans h.steps,
    h'.placements.trans h.placements, h'.retire.trans h.retire, count + count', by omega, ?_⟩
  rw [htrace', htrace, hfin, List.append_assoc, ← List.map_append,
    show m₁.finished + count + 1 = m₁.finished + 1 + 1 * count by omega, List.range'_append]

theorem finished_le {m m' : Machine} (h : Waits m m') : m.finished ≤ m'.finished := by
  obtain ⟨count, hfin, -⟩ := h.trace
  omega

/-- A wait keeps the trace's account of the steps. -/
theorem traceCounts {m m' : Machine} (h : Waits m m') (counts : TraceCounts m) : TraceCounts m' := by
  obtain ⟨count, hfin, htrace⟩ := h.trace
  refine ⟨fun step => ?_, fun step words hmem => ?_⟩
  · rw [htrace, List.mem_append, counts.finish_mem]
    simp only [List.mem_map, List.mem_range'_1, Event.finish.injEq, exists_eq_right]
    omega
  · rw [htrace, List.mem_append] at hmem
    rw [h.steps]
    rcases hmem with hmem | hmem
    · exact counts.submit_mem step words hmem
    · simp at hmem

end Waits

variable {m : Machine} {seen : Nat}

theorem waits_queuePoll (m : Machine) : Waits m (queuePoll m) :=
  ⟨rfl, rfl, rfl, rfl, rfl, rfl, rfl, List.filter_sublist, _, rfl, rfl⟩

section Loops

variable {R : Machine → Machine → Prop} (hrefl : ∀ m, R m m) (hpoll : ∀ m, R m (queuePoll m))
  (htrans : ∀ {m m' m''}, R m m' → R m' m'' → R m m'')

include hrefl hpoll htrans

/-- Polling for a value relates as polls do, whatever the value. -/
theorem rel_pollUntil (value : UInt32) (polls : Nat) (m : Machine) : R m (pollUntil value polls m).2 := by
  induction polls generalizing m with
  | zero => exact hrefl m
  | succ polls ih =>
    unfold pollUntil
    dsimp only
    split
    · exact hpoll m
    · exact htrans (hpoll m) (ih _)

theorem rel_queueWaitValue (agc : Agc) (value : UInt32) (m : Machine) :
    Post (queueWaitValue agc value m) (R m) fun _ m' => R m m' := by
  have hrel := rel_pollUntil hrefl hpoll htrans value (1 + (agc.spinPolls + 1) + (markerPolls + 1)) m
  unfold queueWaitValue
  generalize pollUntil value _ m = polled at *
  obtain ⟨reached, m'⟩ := polled
  cases reached with
  | true | false => exact hrel

end Loops

theorem waits_pollUntil (value : UInt32) (polls : Nat) (m : Machine) : Waits m (pollUntil value polls m).2 :=
  rel_pollUntil Waits.refl waits_queuePoll Waits.trans value polls m

theorem waits_queueWaitValue (agc : Agc) (value : UInt32) (m : Machine) :
    Post (queueWaitValue agc value m) (Waits m) fun _ m' => Waits m m' :=
  rel_queueWaitValue Waits.refl waits_queuePoll Waits.trans agc value m

/-- A poll keeps the ranges whose value the marker has not reached. -/
theorem mem_retire_queuePoll {range : RetireRange} : range ∈ (queuePoll m).retire ↔
      range ∈ m.retire ∧ markerReached (queuePoll m).completedValue range.value = false := by
  simp only [queuePoll, queueRetire, List.mem_filter, Bool.not_eq_true', gpuAdvance]

/-- A poll of a coherent queue takes the marker it reads. -/
theorem Coherent.queuePoll (h : Coherent m seen) : Coherent (queuePoll m) (queuePoll m).finished := by
  have hsteps : (gpuAdvance m).finished ≤ m.steps := by
    have := h.finished_le
    simp only [gpuAdvance, Machine.finishing]
    omega
  have hseen : seen ≤ (gpuAdvance m).finished := by
    have := h.seen_le
    simp only [gpuAdvance]
    omega
  have hwindow := h.window
  have hwide := stepWindow_lt
  have hnew : markerReached (markerOf (gpuAdvance m).finished) m.completedValue = true := by
    rw [h.completed]
    exact markerReached_of_le hseen (by omega)
  have hold : markerReached m.submittedValue (markerOf (gpuAdvance m).finished) = true := by
    rw [h.submitted]
    exact markerReached_of_le hsteps (by omega)
  have htaken : (Queue.queuePoll m).completedValue = markerOf (gpuAdvance m).finished := by
    change (if markerReached (markerOf (gpuAdvance m).finished) m.completedValue &&
      markerReached m.submittedValue (markerOf (gpuAdvance m).finished) then _ else _) = _
    rw [hnew, hold]
    rfl
  refine ⟨h.submitted, htaken, le_refl _, hsteps, ?_, ?_⟩
  · change m.steps ≤ (gpuAdvance m).finished + stepWindow
    omega
  · intro range hmem
    have hkept := mem_retire_queuePoll.mp hmem
    obtain ⟨step, hgt, hle, hvalue⟩ := h.retire range hkept.1
    refine ⟨step, ?_, hle, hvalue⟩
    by_contra hseen'
    change ¬(gpuAdvance m).finished < step at hseen'
    have hreached : markerReached (Queue.queuePoll m).completedValue range.value = true := by
      rw [htaken, hvalue]
      exact markerReached_of_le (by omega) (by omega)
    rw [hkept.2] at hreached
    cases hreached

/-- A queue that has seen every step finished keeps no range. -/
theorem Coherent.retire_eq_nil (h : Coherent m m.steps) : m.retire = [] := by
  apply List.eq_nil_iff_forall_not_mem.2
  intro range hmem
  obtain ⟨step, hgt, hle, -⟩ := h.retire range hmem
  omega

/-- The marker of a coherent queue reaches a step's value only once the step is seen finished. -/
theorem Coherent.le_of_reached {step : Nat} (h : Coherent m seen) (hstep : step ≤ m.steps)
    (hreached : markerReached m.completedValue (markerOf step) = true) : step ≤ seen := by
  by_contra hlt
  have hwindow := h.window
  have hwide := stepWindow_lt
  rw [h.completed] at hreached
  have := eq_of_markerReached (show seen ≤ step by omega) (by omega) hreached
  omega

/-- What polling until a step's value leaves: a coherent queue, and the step finished if the polls
say so. -/
theorem pollUntil_spec (h : Coherent m seen) {step : Nat} (hstep : step ≤ m.steps) (polls : Nat) :
    ∃ seen', seen ≤ seen' ∧ Coherent (pollUntil (markerOf step) polls m).2 seen' ∧
      ((pollUntil (markerOf step) polls m).1 = true → step ≤ seen') := by
  induction polls generalizing m seen with
  | zero => exact ⟨seen, le_refl _, h, by simp [pollUntil]⟩
  | succ polls ih =>
    have hpoll := h.queuePoll
    have hwaits := waits_queuePoll m
    have hle : seen ≤ (queuePoll m).finished := h.seen_le.trans hwaits.finished_le
    have hstep' : step ≤ (queuePoll m).steps := hwaits.steps ▸ hstep
    unfold pollUntil
    by_cases hreached : markerReached (queuePoll m).completedValue (markerOf step) = true
    · simp only [hreached, if_true]
      exact ⟨_, hle, hpoll, fun _ => hpoll.le_of_reached hstep' hreached⟩
    · simp only [hreached]
      obtain ⟨seen', hseen', hcoh, hdone⟩ := ih hpoll hstep'
      exact ⟨seen', hle.trans hseen', hcoh, hdone⟩

/-- A wait that returns has seen its step finished; one that gives up has only waited. -/
theorem queueWaitValue_spec (agc : Agc) (h : Coherent m seen) {step : Nat}
    (hstep : step ≤ m.steps) : Post (queueWaitValue agc (markerOf step) m)
      (fun m' => ∃ seen', seen ≤ seen' ∧ Coherent m' seen' ∧ Waits m m' ∧ step ≤ seen')
      (fun _ m' => ∃ seen', seen ≤ seen' ∧ Coherent m' seen' ∧ Waits m m') := by
  obtain ⟨seen', hseen', hcoh, hdone⟩ := pollUntil_spec h hstep (1 + (agc.spinPolls + 1) + (markerPolls + 1))
  have hwaits := waits_pollUntil (markerOf step) (1 + (agc.spinPolls + 1) + (markerPolls + 1)) m
  unfold queueWaitValue
  generalize pollUntil (markerOf step) _ m = polled at *
  obtain ⟨reached, m'⟩ := polled
  cases reached with
  | true => exact ⟨seen', hseen', hcoh, hwaits, hdone rfl⟩
  | false => exact ⟨seen', hseen', hcoh, hwaits⟩

/-- A queue that waited until it is idle has every step finished. -/
theorem queueWaitIdle_spec (agc : Agc) (h : Coherent m seen) : Post (queueWaitIdle agc m)
      (fun m' => Coherent m' m'.steps ∧ Waits m m' ∧ m'.finished = m'.steps)
      (fun _ m' => ∃ seen', seen ≤ seen' ∧ Coherent m' seen' ∧ Waits m m') := by
  unfold queueWaitIdle
  rw [h.submitted]
  refine (queueWaitValue_spec agc h (le_refl _)).mono ?_ fun _ _ h => h
  rintro m' ⟨seen', -, hcoh, hwaits, hdone⟩
  have hsteps := hwaits.steps
  have h1 := hcoh.seen_le
  have h2 := hcoh.finished_le
  have heq : seen' = m'.steps := by omega
  exact ⟨heq ▸ hcoh, hwaits, by omega⟩

end Ps5Vulkan.Queue
