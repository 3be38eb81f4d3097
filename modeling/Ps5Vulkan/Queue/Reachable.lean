import Ps5Vulkan.Queue.Runs

/-!
# Reachable queues

The queues that submissions and polls lead to, and that each of them is sound: its values belong to
its steps, and the steps not seen finished have sixteen words of the buffer each below the head of
the ring. The bound is what lets a 32-bit marker tell the steps apart, and it is the ring's own: no
caller has to keep it. Over every reachable queue a submission that goes through runs in program
order.
-/

namespace Ps5Vulkan.Queue

open Outcome WordBuffer

attribute [local irreducible] pollUntil

/-- The queues reached by polls and by submissions that went through or were refused. A lost queue
takes no more submissions. -/
inductive Reachable (agc : Agc) : Machine → Prop
  | init (progress : List Nat) : Reachable agc (.init progress)
  | poll {m : Machine} (h : Reachable agc m) : Reachable agc (queuePoll m)
  | run {m m' : Machine} {submit : List CmdBuffer} (h : Reachable agc m)
      (hrun : queueRun agc submit m = .ok m') : Reachable agc m'
  | refused {m m' : Machine} {submit : List CmdBuffer} {reason : Failure} (h : Reachable agc m)
      (hrun : queueRun agc submit m = .error (reason, m'))
      (hreason : reason = .outOfDeviceMemory ∨ reason = .outOfHostMemory) : Reachable agc m'

/-- The queue's values belong to its steps, and the ring bounds those not seen finished. -/
structure Sound (m : Machine) : Prop where
  counts : TraceCounts m
  ready : ∃ seen, Ready m seen ∧ 16 * (m.steps - seen) ≤ m.ringHead

theorem sound_init (progress : List Nat) : Sound (.init progress) := by
  refine ⟨⟨fun step => ?_, fun step words hmem => ?_⟩, 0, ⟨⟨rfl, rfl, ?_, ?_, ?_, ?_⟩, rfl⟩, ?_⟩
  · simp only [Machine.init, List.not_mem_nil, false_iff]
    omega
  · cases hmem
  all_goals simp [Machine.init]

variable {agc : Agc} {m m' : Machine} {submit : List CmdBuffer}

theorem Sound.quiet {P : Nat → Nat → Prop} (h : Sound m) (hquiet : Quiet P m m') : Sound m' := by
  obtain ⟨seen, hready, hring⟩ := h.ready
  obtain ⟨seen', hle, hready'⟩ := hquiet.ready hready
  refine ⟨hquiet.counts h.counts, seen', hready', ?_⟩
  rw [hquiet.steps, hquiet.ringHead]
  omega

/-- A submission from a sound queue, with no bound on where it writes. -/
theorem Sound.submitted (h : Sound m) (hrelease : agc.ReleasesPacket)
    (hrun : queueRun agc submit m = .ok m') : Submitted (fun _ _ _ => True) agc submit m m' := by
  obtain ⟨seen, hready, hring⟩ := h.ready
  have hspec := queueRun_spec hrelease submit h.counts hready hring allows_any
    (fun _ _ _ _ _ _ _ _ _ => trivial) fun _ _ _ _ _ _ _ => trivial
  exact hspec.of_eq_ok hrun

/-- A submission that goes through leaves the queue sound. -/
theorem Sound.queueRun (h : Sound m) (hrelease : agc.ReleasesPacket)
    (hrun : queueRun agc submit m = .ok m') : Sound m' := by
  obtain ⟨m₀, a, stream, seen, hasm, hready, hbase, hsubmission, -⟩ := h.submitted hrelease hrun
  obtain ⟨events, hprogress, -⟩ := hsubmission.order
  obtain ⟨seen', hready', hsteps⟩ := hsubmission.ready
  have hcounts := hprogress.counts ⟨(hasm.quiet.counts (hasm.placed.quiet.counts h.counts)).finish_mem,
    (hasm.quiet.counts (hasm.placed.quiet.counts h.counts)).submit_mem⟩
  have hhead : m'.ringHead = a.base + a.words + agc.endWords := hprogress.ringHead
  have hend : 16 ≤ agc.endWords := Nat.le_add_right _ _
  refine ⟨⟨hcounts.finish_mem, hcounts.submit_mem⟩, seen', ⟨⟨hready'.submitted, hready'.completed,
    hready'.seen_le, hready'.finished_le, hready'.window, hready'.retire⟩, hready'.marker⟩, ?_⟩
  dsimp only at hsteps
  omega

/-- A submission is refused while its stream is built, or for want of host memory before its first
step. -/
theorem refused_cases {seen : Nat} (hcoh : Coherent m seen) {reason : Failure}
    (hrun : Queue.queueRun agc submit m = .error (reason, m'))
    (hreason : reason = .outOfDeviceMemory ∨ reason = .outOfHostMemory) :
    (∃ m₀, Quiet (fun _ _ => False) m m₀ ∧ Quiet (fun _ _ => True) m₀ m') ∨
      ∃ m₀ a stream, Assembled (fun _ _ => True) agc submit m m₀ a stream ∧
        m' = { a.machine with ringHead := a.base + a.words + agc.endWords } := by
  have hassemble := assemble_spec agc submit hcoh allows_any
  unfold Queue.queueRun at hrun
  cases hcase : assemble agc submit m with
  | error stopped =>
    rw [hcase] at hrun hassemble
    cases hrun
    rcases hassemble with hquiet | ⟨m₀, base, hplaced, hquiet⟩
    · exact Or.inl ⟨m', hquiet, Quiet.refl m'⟩
    · exact Or.inl ⟨m₀, hplaced.quiet, hquiet⟩
  | ok a =>
    rw [hcase] at hrun hassemble
    obtain ⟨-, m₀, stream, hasm⟩ := hassemble
    change (runAssembled agc submit a >>= _) = _ at hrun
    cases hlast : runAssembled agc submit a with
    | ok m₁ =>
      rw [hlast] at hrun
      cases hrun
    | error stopped =>
      rw [hlast] at hrun
      cases hrun
      exact Or.inr ⟨m₀, a, stream, hasm,
        runAssembled_refused hlast (by rcases hreason with rfl | rfl <;> simp)⟩

/-- A refused submission leaves the queue sound. -/
theorem Sound.refused (h : Sound m) {reason : Failure} (hrun : Queue.queueRun agc submit m = .error (reason, m'))
    (hreason : reason = .outOfDeviceMemory ∨ reason = .outOfHostMemory) : Sound m' := by
  obtain ⟨seen, hready, hring⟩ := h.ready
  rcases refused_cases hready.toCoherent hrun hreason with
    ⟨m₀, hquiet₀, hquiet⟩ | ⟨m₀, a, stream, hasm, rfl⟩
  · exact (h.quiet hquiet₀).quiet hquiet
  · obtain ⟨seen₀, hready₀, -, hbase₀⟩ := hasm.placed.room hready hring
    obtain ⟨seen₁, hle, hready₁⟩ := hasm.quiet.ready hready₀
    have hcounts := hasm.quiet.counts (hasm.placed.quiet.counts h.counts)
    have hsteps := hasm.quiet.steps
    refine ⟨⟨hcounts.finish_mem, hcounts.submit_mem⟩, seen₁, hready₁.setRingHead _, ?_⟩
    dsimp only
    omega

/-- Every reachable queue is sound. -/
theorem Reachable.sound (hrelease : agc.ReleasesPacket) (h : Reachable agc m) : Sound m := by
  induction h with
  | init progress => exact sound_init progress
  | poll _ ih => exact ih.quiet (Quiet.queuePoll _ : Quiet (fun _ _ => True) _ _)
  | run _ hrun ih => exact ih.queueRun hrelease hrun
  | refused _ hrun hreason ih => exact ih.refused hrun hreason

/-- A submission that went through ran its stream in program order, after the time that passed
while it was assembled. -/
theorem Submitted.inOrder {P : Nat → Nat → Nat → Prop} {seen : Nat} (hready : Ready m seen)
    (h : Submitted P agc submit m m') : ∃ first stream events, Prologue agc m.submittedValue submit first ∧
      stream = first ++ bodyStream agc submit m.fenceValue ∧ m'.trace = m.trace ++ events ∧
      InOrder agc stream m.trace 0 (bodySplits submit first.length) events := by
  obtain ⟨m₀, a, stream, seen₁, hasm, -, -, hsubmission, -⟩ := h
  obtain ⟨first, hfirst, hstream, hsplits⟩ := hasm.parts
  obtain ⟨events₀, hprogress₀, hsilent₀⟩ := hasm.placed.quiet.progress hready.toCoherent
  obtain ⟨seen₀, -, hready₀⟩ := hasm.placed.quiet.ready hready
  obtain ⟨events₁, hprogress₁, hsilent₁⟩ := hasm.quiet.progress hready₀.toCoherent
  obtain ⟨events₂, hprogress₂, horder⟩ := hsubmission.order
  have htrace₁ : a.machine.trace = m.trace ++ events₀ ++ events₁ := by
    rw [hprogress₁.trace, hprogress₀.trace]
  have htrace₂ : m'.trace = a.machine.trace ++ events₂ := hprogress₂.trace
  refine ⟨first, stream, events₀ ++ (events₁ ++ events₂), hfirst, hstream, ?_, ?_⟩
  · rw [htrace₂, htrace₁]
    simp only [List.append_assoc]
  · rw [← hsplits]
    refine InOrder.silents hsilent₀ (InOrder.silents hsilent₁ ?_)
    rw [← htrace₁]
    exact horder

/-- A submission of a reachable queue that goes through runs in program order. The words handed to
the GPU, end packets taken off, are the stream it assembled. Each step has its words intact. Every
record runs once, in record order, where it falls among the words, when every step handed over
before it is finished; blits run at once only where no two of them touch a common image. -/
theorem queueRun_program_order (agc : Agc) (hrelease : agc.ReleasesPacket)
    (hm : Reachable agc m) (submit : List CmdBuffer) (hrun : queueRun agc submit m = .ok m') :
    ∃ first stream events,
      Prologue agc m.submittedValue submit first ∧
      stream = first ++ bodyStream agc submit m.fenceValue ∧
      m'.trace = m.trace ++ events ∧
      submittedWords agc events = stream ∧
      recordsRun agc 0 events = recordsDue (bodySplits submit first.length) ∧
      (∀ earlier step words later, events = earlier ++ .submit step words :: later →
        ∃ count packets, EndPackets agc (markerOf step) packets ∧
          words = (stream.drop (submittedWords agc earlier).length).take count ++ packets) ∧
      (∀ earlier event later, events = earlier ++ event :: later → event.IsRecord →
        ∀ step words, .submit step words ∈ m.trace ++ earlier →
          .finish step ∈ m.trace ++ earlier) ∧
      ∀ copies, .wave copies ∈ events → copies.Pairwise fun a b => b.touches a = false := by
  have hsound := hm.sound hrelease
  obtain ⟨seen, hready, -⟩ := hsound.ready
  obtain ⟨first, stream, events, hfirst, hstream, htrace, horder⟩ :=
    (hsound.submitted hrelease hrun).inOrder hready
  refine ⟨first, stream, events, hfirst, hstream, htrace, ?_, horder.recordsRun_eq, ?_, ?_, ?_⟩
  · simpa using horder.submittedWords_eq
  · rintro earlier step words later rfl
    simpa using horder.inTurn.intact step words rfl
  · rintro earlier event later rfl hrecord
    exact horder.inTurn.finished hrecord
  · intro copies hmem
    obtain ⟨earlier, later, rfl⟩ := List.append_of_mem hmem
    exact horder.inTurn.apart copies rfl

/-- A console that takes every call: its packets are zeroed and its polls find what the schedule
says. -/
def plainAgc : Agc where
  buffer := 0x200000000
  stamps := none
  releaseMem room := if 8 ≤ room then some (List.replicate 8 0) else none
  waitPacketWords := 32
  waitUntilSafe _ _ found := some found
  submitDcb _ := true
  suspendPoint _ := true
  spinPolls := 0
  blitWorkers _ := true
  eventSeen _ := true
  hostMemory _ := true

theorem plainAgc_releasesPacket : plainAgc.ReleasesPacket := by
  intro room words h
  simp only [plainAgc] at h
  split at h
  · cases h
    exact ⟨by simp, by assumption⟩
  · cases h

/-- A fill recorded after this many words. -/
def fillRecord (afterWords : Nat) : MemoryCopy where
  source := 0
  destination := 0x1000
  bytes := 4
  afterWords := afterWords
  fill := true
  fillValue := 7
  reverseTexelBytes := 0
  clear := false
  blit := false
  sourceSpan := 0
  sourceSpanBytes := 0
  destinationSpan := 0
  destinationSpanBytes := 0
  resolve := false
  imageWrite := false
  imageCopy := false
  query := false
  height := 0
  event := 0
  eventAction := .none
  blit_or_resolve := MemoryCopy.neither

/-- Two words with a fill between them. -/
def fillBuffer : CmdBuffer where
  words := [0xa, 0xb]
  copies := [fillRecord 1]
  fencePatches := []
  targets := []
  samplesEarly := false
  patches_fit := by simp
  copies_sorted := by simp

theorem queueRun_program_order_fillBuffer :
    ∃ m', queueRun plainAgc [fillBuffer] (.init [0, 1]) = .ok m' ∧
      ∃ first events, Prologue plainAgc 0 [fillBuffer] first ∧ m'.trace = events ∧
        submittedWords plainAgc events = first ++ [0xa, 0xb] ∧
        recordsRun plainAgc 0 events = [(.fill, fillRecord 1, first.length + 1)] := by
  obtain ⟨m', hrun, -⟩ := exists_ok (queueRun plainAgc [fillBuffer] (.init [0, 1])) (P := fun _ => True)
    (by decide +kernel)
  obtain ⟨first, stream, events, hfirst, rfl, htrace, hwords, hrecords, -⟩ :=
    queueRun_program_order plainAgc plainAgc_releasesPacket (.init [0, 1]) [fillBuffer] hrun
  exact ⟨m', hrun, first, events, hfirst, htrace, hwords, hrecords⟩

end Ps5Vulkan.Queue
