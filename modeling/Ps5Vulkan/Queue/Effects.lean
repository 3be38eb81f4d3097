import Ps5Vulkan.Queue.Steps

/-!
# What the parts of a submission do to the queue

A part of a submission is quiet when it hands no step to the GPU and runs no record: it writes words
and lets time pass. `Quiet P` also says where it writes, so the results about a stream's content and
those about its place follow from one description of each part.
-/

namespace Ps5Vulkan.Queue

open Outcome

/-- A stamp's packet while profiling. -/
def stampWords (agc : Agc) (slot : Nat) : List UInt32 :=
  match agc.stamps with
  | none => []
  | some stamps => timestampPacket (stamps + slot * 8)

theorem length_stampWords_le (agc : Agc) (slot : Nat) : (stampWords agc slot).length ≤ 8 := by
  unfold stampWords
  split <;> simp

/-- The event writes where `P` allows, or is the GPU's own. -/
def Event.Silent (P : Nat → Nat → Prop) : Event → Prop
  | .write pos words => P pos words.length
  | .finish _ => True
  | _ => False

theorem Event.Silent.mono {P P' : Nat → Nat → Prop} {event : Event} (h : event.Silent P)
    (hP : ∀ pos len, P pos len → P' pos len) : event.Silent P' := by
  cases event with
  | write pos words => exact hP _ _ h
  | finish step => trivial
  | submit step words | run kind copy | wave copies => exact h

/-- Words were written where `P` allows and time passed; nothing else happened. -/
structure Quiet (P : Nat → Nat → Prop) (m m' : Machine) : Prop where
  marker : m'.markerValue = m.markerValue
  submitted : m'.submittedValue = m.submittedValue
  ringHead : m'.ringHead = m.ringHead
  steps : m'.steps = m.steps
  placements : m'.placements = m.placements
  retire : m'.retire.Sublist m.retire
  finished_le : m.finished ≤ m'.finished
  trace : ∃ events, m'.trace = m.trace ++ events ∧ ∀ event ∈ events, event.Silent P
  counts : TraceCounts m → TraceCounts m'
  coherent : ∀ seen, Coherent m seen → ∃ seen', seen ≤ seen' ∧ Coherent m' seen'
  kept : ∀ seen, Coherent m seen → ∀ range ∈ m.retire, ∀ step ≤ m.steps,
    range.value = markerOf step → range ∈ m'.retire ∨ step ≤ m'.finished

namespace Quiet

variable {P : Nat → Nat → Prop} {m m₁ m₂ m₃ : Machine}

theorem refl (m : Machine) : Quiet P m m :=
  ⟨rfl, rfl, rfl, rfl, rfl, List.Sublist.refl _, le_refl _, ⟨[], by simp⟩, id,
    fun seen h => ⟨seen, le_refl _, h⟩, fun _ _ _ hmem _ _ _ => Or.inl hmem⟩

theorem trans (h : Quiet P m₁ m₂) (h' : Quiet P m₂ m₃) : Quiet P m₁ m₃ := by
  obtain ⟨events, htrace, hsilent⟩ := h.trace
  obtain ⟨events', htrace', hsilent'⟩ := h'.trace
  refine ⟨h'.marker.trans h.marker, h'.submitted.trans h.submitted, h'.ringHead.trans h.ringHead,
    h'.steps.trans h.steps, h'.placements.trans h.placements, h'.retire.trans h.retire,
    h.finished_le.trans h'.finished_le, ⟨events ++ events', ?_, ?_⟩,
    fun counts => h'.counts (h.counts counts), fun seen hcoh => ?_, ?_⟩
  · rw [htrace', htrace, List.append_assoc]
  · intro event hmem
    rcases List.mem_append.mp hmem with hmem | hmem
    · exact hsilent event hmem
    · exact hsilent' event hmem
  · obtain ⟨seen₂, hle, hcoh₂⟩ := h.coherent seen hcoh
    obtain ⟨seen₃, hle', hcoh₃⟩ := h'.coherent seen₂ hcoh₂
    exact ⟨seen₃, hle.trans hle', hcoh₃⟩
  · intro seen hcoh range hmem step hstep hvalue
    obtain ⟨seen₂, -, hcoh₂⟩ := h.coherent seen hcoh
    rcases h.kept seen hcoh range hmem step hstep hvalue with hmem₂ | hfin
    · exact h'.kept seen₂ hcoh₂ range hmem₂ step (h.steps ▸ hstep) hvalue
    · exact Or.inr (hfin.trans h'.finished_le)

theorem ready {seen : Nat} (h : Quiet P m₁ m₂) (hready : Ready m₁ seen) : ∃ seen', seen ≤ seen' ∧ Ready m₂ seen' := by
  obtain ⟨seen', hle, hcoh⟩ := h.coherent seen hready.toCoherent
  exact ⟨seen', hle, hcoh, by rw [h.marker, h.steps, hready.marker]⟩

/-- A poll is quiet whatever the writes allowed. -/
theorem queuePoll (m : Machine) : Quiet P m (queuePoll m) := by
  have h := waits_queuePoll m
  obtain ⟨count, -, htrace⟩ := h.trace
  refine ⟨h.marker, h.submitted, h.ringHead, h.steps, h.placements, h.retire, h.finished_le,
    ⟨_, htrace, fun event hmem => ?_⟩, h.traceCounts,
    fun seen hcoh => ⟨_, hcoh.seen_le.trans h.finished_le, hcoh.queuePoll⟩, ?_⟩
  · obtain ⟨step, -, rfl⟩ := List.mem_map.mp hmem
    trivial
  · intro seen hcoh range hmem step hstep hvalue
    by_cases hreached : markerReached (Queue.queuePoll m).completedValue (markerOf step) = true
    · exact Or.inr (hcoh.queuePoll.le_of_reached hstep hreached)
    · left
      rw [← hvalue] at hreached
      exact mem_retire_queuePoll.mpr ⟨hmem, by simpa using hreached⟩

theorem pollUntil (value : UInt32) (polls : Nat) (m : Machine) : Quiet P m (pollUntil value polls m).2 :=
  rel_pollUntil Quiet.refl Quiet.queuePoll Quiet.trans value polls m

theorem queueWaitValue (agc : Agc) (value : UInt32) (m : Machine) :
    Post (queueWaitValue agc value m) (fun m' => Quiet P m m') (fun _ m' => Quiet P m m') :=
  rel_queueWaitValue Quiet.refl Quiet.queuePoll Quiet.trans agc value m

/-- A write where it is allowed. -/
theorem poke {pos : Nat} {words : List UInt32} (h : P pos words.length) : Quiet P m (m.poke pos words) := by
  refine ⟨rfl, rfl, rfl, rfl, rfl, List.Sublist.refl _, le_refl _,
    ⟨[.write pos words], rfl, ?_⟩, fun counts => ⟨fun step => ?_, fun step words' hmem => ?_⟩,
    fun seen hcoh => ⟨seen, le_refl _, ?_⟩, fun _ _ _ hmem _ _ _ => Or.inl hmem⟩
  · intro event hmem
    rw [List.mem_singleton.mp hmem]
    exact h
  · simpa [Machine.poke] using counts.finish_mem step
  · exact counts.submit_mem step words' (by simpa [Machine.poke] using hmem)
  · exact ⟨hcoh.submitted, hcoh.completed, hcoh.seen_le, hcoh.finished_le, hcoh.window,
      hcoh.retire⟩

/-- Taking a fence value writes nothing. -/
theorem setFence (m : Machine) (value : UInt32) : Quiet P m { m with fenceValue := value } :=
  ⟨rfl, rfl, rfl, rfl, rfl, List.Sublist.refl _, le_refl _, ⟨[], by simp⟩,
    fun counts => ⟨counts.finish_mem, counts.submit_mem⟩, fun seen hcoh => ⟨seen, le_refl _,
      ⟨hcoh.submitted, hcoh.completed, hcoh.seen_le, hcoh.finished_le, hcoh.window, hcoh.retire⟩⟩,
    fun _ _ _ hmem _ _ _ => Or.inl hmem⟩

end Quiet

end Ps5Vulkan.Queue
