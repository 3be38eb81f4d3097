import Ps5Vulkan.Queue.Barriers

/-!
# Where streams lie in the submission buffer

Streams are placed one after another below the fence word, each on its own cache lines, and from the
start again once every step is finished. A stream is written inside that area and never over words
the GPU may still read, as long as the barriers between its command buffers fit: the queue checks
every command buffer against the room left and the whole footprint where it places a stream past
others, but it appends a barrier unchecked, and the room left is a difference that wraps once the
barrier has passed it.
-/

namespace Ps5Vulkan.Queue

open Outcome

attribute [local irreducible] pollUntil

/-- The barriers between the command buffers leave room for the words a step ends with, after
`words` words before them. -/
def barriersFit (agc : Agc) : Nat → List CmdBuffer → Bool
  | _, [] => true
  | words, cb :: rest =>
    (!needsBarrier cb rest.head? ||
      decide (words + partCount cb rest.head? + agc.endWords ≤ fenceWord)) &&
    barriersFit agc (words + partCount cb rest.head?) rest

/-- The packets before the first command buffer fit the area. AGC says how long they are. -/
def Agc.PrologueFits (agc : Agc) : Prop :=
  prologueCount agc + agc.endWords ≤ fenceWord

/-- A placed stream whose last step is not finished after these events. -/
def Placement.Unfinished (p : Placement) (events : List Event) : Prop :=
  0 < p.step ∧ .finish p.step ∉ events

/-- Whatever a submission wrote lies below the fence word, apart from every earlier stream the GPU
had not finished when it was written. -/
def WritesApart (m m' : Machine) : Prop :=
  ∃ events, m'.trace = m.trace ++ events ∧
    ∀ before pos words after, events = before ++ .write pos words :: after →
      pos + words.length ≤ fenceWord ∧
      ∀ p ∈ m.placements, p.Unfinished (m.trace ++ before) →
        p.past ≤ pos ∨ pos + words.length ≤ p.first

/-- Streams of steps that still run end below the head of the ring. -/
structure Placed (m : Machine) : Prop extends Sound m where
  step_le : ∀ p ∈ m.placements, p.step ≤ m.steps
  past_le : ∀ p ∈ m.placements, m.finished < p.step → p.past ≤ m.ringHead

variable {agc : Agc} {m m₀ m' : Machine} {submit : List CmdBuffer} {base : Nat}

theorem placed_init (progress : List Nat) : Placed (.init progress) :=
  ⟨sound_init progress, nofun, nofun⟩

theorem le_align16 (n : Nat) : n ≤ align16 n := by
  unfold align16
  omega

/-- Streams that still run when a new one is placed end at or before it. -/
theorem Placed.past_le_base (h : Placed m) (hplaced : PlacedAt agc submit m m₀ base)
    {p : Placement} (hp : p ∈ m.placements) (hrunning : m₀.finished < p.step) : p.past ≤ base := by
  have hstep := h.step_le p hp
  have hsteps := hplaced.quiet.steps
  have hfinished := hplaced.quiet.finished_le
  rcases hplaced.place with ⟨-, hcoh⟩ | ⟨rfl, -⟩
  · have hall := hcoh.seen_le
    omega
  · exact Nat.le_trans (h.past_le p hp (by omega)) (le_align16 _)

/-- What a poll and a refusal before any word leave. -/
theorem Placed.quiet {P : Nat → Nat → Prop} (h : Placed m) (hquiet : Quiet P m m') : Placed m' := by
  refine ⟨h.toSound.quiet hquiet, ?_, ?_⟩
  · rw [hquiet.placements, hquiet.steps]
    exact h.step_le
  · intro p hp hrunning
    rw [hquiet.placements] at hp
    rw [hquiet.ringHead]
    exact h.past_le p hp (Nat.lt_of_le_of_lt hquiet.finished_le hrunning)

/-- A submission that goes through leaves its own stream just below the head of the ring. -/
theorem Placed.queueRun (h : Placed m) (hrelease : agc.ReleasesPacket)
    (hrun : queueRun agc submit m = .ok m') : Placed m' := by
  obtain ⟨m₀, a, stream, seen, hasm, -, -, hsubmission, hplacements⟩ :=
    h.toSound.submitted hrelease hrun
  obtain ⟨events, hprogress, -⟩ := hsubmission.order
  have hhead : m'.ringHead = a.base + a.words + agc.endWords := hprogress.ringHead
  have hsteps : a.machine.steps ≤ m'.steps := hprogress.steps_le
  have hfinished : a.machine.finished ≤ m'.finished := hprogress.finished_le
  have hsteps₀ := hasm.quiet.steps
  have hsteps₁ := hasm.placed.quiet.steps
  have hfinished₀ := hasm.quiet.finished_le
  refine ⟨h.toSound.queueRun hrelease hrun, ?_, ?_⟩
  · intro p hp
    rw [hplacements, List.mem_append, List.mem_singleton] at hp
    rcases hp with hp | rfl
    · have hstep := h.step_le p hp
      omega
    · exact Nat.le_refl _
  · intro p hp hrunning
    rw [hplacements, List.mem_append, List.mem_singleton] at hp
    rcases hp with hp | rfl
    · have hpast := h.past_le_base hasm.placed hp (by omega)
      omega
    · exact Nat.le_of_eq hhead.symm

/-- A refused submission leaves the streams as they were. -/
theorem Placed.refused (h : Placed m) {reason : Failure} (hrun : Queue.queueRun agc submit m = .error (reason, m'))
    (hreason : reason = .outOfDeviceMemory ∨ reason = .outOfHostMemory) : Placed m' := by
  have hsound := h.toSound.refused hrun hreason
  obtain ⟨seen, hready, -⟩ := h.ready
  rcases refused_cases hready.toCoherent hrun hreason with
    ⟨m₀, hquiet₀, hquiet⟩ | ⟨m₀, a, stream, hasm, rfl⟩
  · exact (h.quiet hquiet₀).quiet hquiet
  · have hplacements : a.machine.placements = m.placements :=
      hasm.quiet.placements.trans hasm.placed.quiet.placements
    have hsteps₀ := hasm.quiet.steps
    have hsteps₁ := hasm.placed.quiet.steps
    have hfinished₀ := hasm.quiet.finished_le
    refine ⟨hsound, ?_, ?_⟩
    · intro p hp
      have hstep := h.step_le p (hplacements ▸ hp)
      dsimp only
      omega
    · intro p hp hrunning
      dsimp only at hrunning ⊢
      have hpast := h.past_le_base hasm.placed (hplacements ▸ hp) (by omega)
      omega

theorem Reachable.placed (hrelease : agc.ReleasesPacket) (h : Reachable agc m) : Placed m := by
  induction h with
  | init progress => exact placed_init progress
  | poll _ ih => exact ih.quiet (Quiet.queuePoll _ : Quiet (fun _ _ => True) _ _)
  | run _ hrun ih => exact ih.queueRun hrelease hrun
  | refused _ hrun hreason ih => exact ih.refused hrun hreason

/-- The words of the command buffers with a barrier after each. -/
def mostWords (submit : List CmdBuffer) : Nat :=
  (submit.map fun cb => cb.words.length + gpuBarrierCount).sum

/-- What the words of a stream so far leave for the command buffers to come: room for the words a
step ends with, and for the barriers between them. -/
structure Fits (agc : Agc) (base : Nat) (submit : List CmdBuffer) (words : Nat) : Prop where
  base_le : base ≤ fenceWord
  words_le : words + agc.endWords ≤ fenceWord - base
  rest : (∃ most, words ≤ most ∧ base = 0 ∧ barriersFit agc most submit) ∨
    words + mostWords submit + agc.endWords ≤ fenceWord - base

/-- The room left, while the words so far are inside it. -/
theorem Assembly.room_eq {a : Assembly} (h : a.words + agc.endWords ≤ fenceWord - a.base) :
    a.room agc = fenceWord - a.base - agc.endWords - a.words := by
  have hfence : fenceWord < 2 ^ 64 := by decide
  have hend : sizeSub (fenceWord - a.base) agc.endWords = fenceWord - a.base - agc.endWords :=
    sizeSub_of_le (by omega) (by omega)
  unfold Assembly.room Assembly.capacity
  rw [hend, sizeSub_of_le (by omega) (by omega)]

theorem partCount_le (cb : CmdBuffer) (next : Option CmdBuffer) :
    partCount cb next ≤ cb.words.length + gpuBarrierCount := by
  unfold partCount
  split
  · exact Nat.le_refl _
  · exact Nat.le_add_right _ _

/-- A command buffer the queue accepts keeps its part, and what is to come, inside the area. -/
theorem Fits.append {cb : CmdBuffer} {rest : List CmdBuffer} {a : Assembly}
    (h : Fits agc a.base (cb :: rest) a.words) (hroom : ¬cb.words.length > a.room agc) :
    Fits agc a.base rest (a.words + partCount cb rest.head?) := by
  have hwords := h.words_le
  rw [Assembly.room_eq hwords] at hroom
  have hpart := partCount_le cb rest.head?
  have hsum : mostWords (cb :: rest) = cb.words.length + gpuBarrierCount + mostWords rest := by
    simp [mostWords]
  rcases h.rest with ⟨most, hmost, hbase, hbarriers⟩ | hall
  · rw [barriersFit, Bool.and_eq_true] at hbarriers
    refine ⟨h.base_le, ?_, Or.inl ⟨most + partCount cb rest.head?, by omega, hbase, hbarriers.2⟩⟩
    cases hneeds : needsBarrier cb rest.head? with
    | true =>
      have hfit := hbarriers.1
      simp only [hneeds, Bool.not_true, Bool.false_or, decide_eq_true_eq] at hfit
      omega
    | false =>
      have hcount : partCount cb rest.head? = cb.words.length := by
        simp [partCount, hneeds]
      omega
  · refine ⟨h.base_le, ?_, Or.inr ?_⟩
    · omega
    · omega

/-- A stream that was placed starts inside the area. -/
theorem PlacedAt.fits (hplaced : PlacedAt agc submit m m₀ base) (hprologue : agc.PrologueFits)
    (hbarriers : barriersFit agc (prologueCount agc) submit) {words : Nat}
    (hwords : words ≤ prologueCount agc) : Fits agc base submit words := by
  unfold Agc.PrologueFits at hprologue
  rcases hplaced.place with ⟨rfl, -⟩ | ⟨-, hbase, hfootprint⟩
  · exact ⟨Nat.zero_le _, by omega, Or.inl ⟨_, hwords, rfl, hbarriers⟩⟩
  · have hcount : footprint agc submit = agc.endWords + prologueCount agc + mostWords submit := by
      unfold footprint prologueCount mostWords
      omega
    refine ⟨hbase, by omega, Or.inr (by omega)⟩

/-- Writes from the base of a stream up to the fence word. -/
def InArea (base pos len : Nat) : Prop :=
  base ≤ pos ∧ pos + len ≤ fenceWord

/-- Where a computation of the queue stopped. -/
def stoppedAt : Except (Failure × Machine) Machine → Machine
  | .ok m => m
  | .error (_, m) => m

/-- A part that writes nothing. -/
theorem Quiet.writesApart (h : Quiet (fun _ _ => False) m m') : WritesApart m m' := by
  obtain ⟨events, htrace, hsilent⟩ := h.trace
  refine ⟨events, htrace, ?_⟩
  rintro before pos words after rfl
  exact (hsilent (.write pos words) (by simp)).elim

/-- What is written from the base of a placed stream on is apart from the streams that still ran. -/
theorem Placed.writesApart (h : Placed m) (hplaced : PlacedAt agc submit m m₀ base)
    (hwrites : WritesPlaced (InArea base) m₀ m') : WritesApart m m' := by
  obtain ⟨events₀, htrace₀, hsilent⟩ := hplaced.quiet.trace
  obtain ⟨events, htrace, hevents⟩ := hwrites
  have hcounts := hplaced.quiet.counts h.counts
  refine ⟨events₀ ++ events, by rw [htrace, htrace₀, List.append_assoc], ?_⟩
  intro before pos words after hsplit
  -- While the place was looked for nothing was written.
  have hlater : ∃ middle, before = events₀ ++ middle ∧ .write pos words ∈ events := by
    rcases List.append_eq_append_iff.1 hsplit with ⟨middle, hbefore, rfl⟩ | ⟨excess, hfirst, hrest⟩
    · exact ⟨middle, hbefore, List.mem_append_right _ (List.mem_cons_self ..)⟩
    · cases excess with
      | nil =>
        rw [List.append_nil] at hfirst
        rw [List.nil_append] at hrest
        exact ⟨[], by rw [hfirst, List.append_nil], hrest ▸ List.mem_cons_self ..⟩
      | cons event rest =>
        cases hrest
        have hwrite : Event.write pos words ∈ events₀ := by simp [hfirst]
        exact (hsilent _ hwrite).elim
  obtain ⟨middle, rfl, hmem⟩ := hlater
  obtain ⟨hlow, hhigh⟩ : InArea base pos words.length := hevents _ hmem
  refine ⟨hhigh, ?_⟩
  intro p hp hunfinished
  have hrunning : m₀.finished < p.step := by
    by_contra hnot
    apply hunfinished.2
    rw [← List.append_assoc, ← htrace₀]
    exact List.mem_append_left _ ((hcounts.finish_mem p.step).2 ⟨hunfinished.1, by omega⟩)
  exact Or.inl (Nat.le_trans (h.past_le_base hplaced hp hrunning) hlow)

/-- Every submission of a reachable queue whose barriers fit writes below the fence word and apart
from the streams the GPU has not finished, whether it goes through, is refused or loses the queue. -/
theorem submission_writes_apart (hrelease : agc.ReleasesPacket) (hprologue : agc.PrologueFits)
    (hm : Reachable agc m) (submit : List CmdBuffer)
    (hbarriers : barriersFit agc (prologueCount agc) submit) :
    WritesApart m (stoppedAt (queueRun agc submit m)) := by
  have hplaced := hm.placed hrelease
  obtain ⟨seen, hready, hring⟩ := hplaced.ready
  have hspec := queueRun_spec hrelease submit hplaced.counts hready hring
    (P := InArea) (J := Fits agc) ⟨?_, ?_⟩ ?_ ?_
  · cases hrun : queueRun agc submit m with
    | ok m' =>
      obtain ⟨m₀, a, stream, seen, hasm, -, -, hsubmission, -⟩ := hspec.of_eq_ok hrun
      obtain ⟨events, hprogress, -⟩ := hsubmission.order
      exact hplaced.writesApart hasm.placed
        (hasm.quiet.writesPlaced.trans ⟨events, hprogress.trace, hprogress.placed⟩)
    | error stopped =>
      obtain ⟨reason, m'⟩ := stopped
      rcases hspec.of_eq_error hrun with hquiet | ⟨m₀, base, hat, hwrites⟩
      · exact hquiet.writesApart
      · exact hplaced.writesApart hat hwrites
  · intro m₀ base hat
    constructor
    · intro words len hle
      have hfits := hat.fits hprologue hbarriers (Nat.le_refl _)
      have hbase := hfits.base_le
      have hwords := hfits.words_le
      exact ⟨Nat.le_add_right _ _, by omega⟩
    · exact fun words hle => hat.fits hprologue hbarriers hle
  · rintro m₀ base hat cb rest a rfl hfits hroom
    have hnext := hfits.append hroom
    have hbase := hnext.base_le
    have hwords := hnext.words_le
    exact ⟨fun pos len hlow hhigh => ⟨by omega, by omega⟩, hnext⟩
  · intro m₀ base words hat hfits pos len hlow hhigh
    have hbase := hfits.base_le
    have hwords := hfits.words_le
    exact ⟨hlow, by omega⟩
  · exact fun m₀ base hat pos len hlow hhigh => ⟨hlow, hhigh⟩

/-- A command buffer of one word. -/
def oneWord : CmdBuffer :=
  (plainBuffer [0xa] [] false : RecordedBuffer plainAgc.fenceAddress).toCmdBuffer

theorem submission_writes_apart_oneWord :
    ∃ m, queueRun plainAgc [oneWord] (.init []) = .ok m ∧
      m.placements.map (·.past) = [17] ∧ m.finished = 0 ∧
      WritesApart m (stoppedAt (queueRun plainAgc [oneWord] m)) := by
  obtain ⟨m, hrun, hpast, hfinished⟩ := exists_ok (queueRun plainAgc [oneWord] (.init []))
    (P := fun m => m.placements.map (·.past) = [17] ∧ m.finished = 0) (by decide +kernel)
  exact ⟨m, hrun, hpast, hfinished, submission_writes_apart plainAgc_releasesPacket
    (by unfold Agc.PrologueFits; decide) (.run (.init []) hrun) [oneWord] (by decide)⟩

theorem Assembly.emit_of_le {a : Assembly} {words : List UInt32}
    (h : a.base + a.words + words.length ≤ submissionWords) : a.emit words = .ok { a with
      machine := a.machine.poke (a.base + a.words) words, words := a.words + words.length } :=
  if_pos h

theorem barrierBetween_of_needs {agc : Agc} {cb next : CmdBuffer} {a : Assembly}
    (h : next.samplesEarly = true ∧ cb.targets ≠ []) : barrierBetween agc cb (some next) a = Assembly.emit
        { a with machine := { a.machine with fenceValue := nextValue a.machine.fenceValue } }
        (gpuBarrierWords agc.fenceAddress (nextValue a.machine.fenceValue)) :=
  if_pos h

section Full

variable (words : List UInt32)

/-- A command buffer of these words that renders. -/
def rendering : CmdBuffer :=
  (plainBuffer words [plainTarget] false : RecordedBuffer plainAgc.fenceAddress).toCmdBuffer

/-- A command buffer without words that samples. -/
def sampling : CmdBuffer :=
  (plainBuffer [] [] true : RecordedBuffer plainAgc.fenceAddress).toCmdBuffer

/-- A fresh queue with nothing in the stream. -/
def freshAssembly : Assembly := ⟨queuePoll (.init []), 0, 0, []⟩

theorem queueStreamBase_fresh (needed : Nat) :
    queueStreamBase plainAgc needed (.init []) = .ok (0, queuePoll (.init [])) := rfl

theorem prologue_fresh : prologue plainAgc [rendering words, sampling] freshAssembly = .ok freshAssembly := rfl

theorem assemble_fresh : assemble plainAgc [rendering words, sampling] (.init []) =
      appendCmdBuffers plainAgc [rendering words, sampling] freshAssembly := by
  have hprologue := prologue_fresh words
  unfold freshAssembly at hprologue
  unfold assemble
  rw [queueStreamBase_fresh]
  simp only [bind, Except.bind, hprologue]
  rfl

theorem appendCmdBuffer_rendering (h : words.length = fenceWord - 16) :
    ∃ machine, appendCmdBuffer plainAgc (rendering words) (some sampling) freshAssembly =
      .ok ⟨machine, 0, fenceWord + 1, []⟩ ∧ machine.trace =
        [.write 0 words, .write (fenceWord - 16) (gpuBarrierWords plainAgc.fenceAddress 1)] := by
  have hfence : fenceWord = 523004 := by decide
  have hcap : submissionWords = 524288 := by decide
  have hroom : ¬(rendering words).words.length > freshAssembly.room plainAgc := by
    have hroom : freshAssembly.room plainAgc = fenceWord - 16 := by decide
    rw [hroom]
    exact Nat.not_lt.2 (Nat.le_of_eq h)
  have hfirst : freshAssembly.emit (rendering words).words =
      .ok ⟨freshAssembly.machine.poke 0 words, 0, fenceWord - 16, []⟩ := by
    rw [Assembly.emit_of_le]
    · simp [freshAssembly, rendering, plainBuffer, h]
    · simp only [freshAssembly, rendering, plainBuffer]
      omega
  have hsecond : Assembly.emit ⟨{ freshAssembly.machine.poke 0 words with fenceValue := 1 }, 0, fenceWord - 16, []⟩
      (gpuBarrierWords plainAgc.fenceAddress 1) =
      .ok ⟨{ freshAssembly.machine.poke 0 words with fenceValue := 1 }.poke (fenceWord - 16)
        (gpuBarrierWords plainAgc.fenceAddress 1), 0, fenceWord + 1, []⟩ := by
    have hcount : fenceWord - 16 + gpuBarrierCount = fenceWord + 1 := by decide
    rw [Assembly.emit_of_le]
    · simp only [length_gpuBarrierWords, hcount, Nat.zero_add]
    · simp only [length_gpuBarrierWords, hcount, Nat.zero_add]
      omega
  refine ⟨{ freshAssembly.machine.poke 0 words with fenceValue := 1 }.poke (fenceWord - 16)
    (gpuBarrierWords plainAgc.fenceAddress 1), ?_, rfl⟩
  have hvalue : nextValue (freshAssembly.machine.poke 0 words).fenceValue = 1 := rfl
  have hpatches : (rendering words).fencePatches = [] := rfl
  have hcopies : (rendering words).copies = [] := rfl
  unfold appendCmdBuffer
  rw [if_neg hroom, if_neg (by simp [hcopies]), hfirst]
  simp only [bind, Except.bind, hpatches, hcopies, patchFences, List.map_nil, List.append_nil]
  rw [barrierBetween_of_needs ⟨rfl, by simp [rendering, plainBuffer]⟩]
  simp only [hvalue]
  exact hsecond

theorem appendCmdBuffer_sampling (machine : Machine) :
    appendCmdBuffer plainAgc sampling none ⟨machine, 0, fenceWord + 1, []⟩ =
      .ok ⟨machine.poke (fenceWord + 1) [], 0, fenceWord + 1, []⟩ := by
  have hroom : ¬sampling.words.length > Assembly.room plainAgc ⟨machine, 0, fenceWord + 1, []⟩ := Nat.not_lt_zero _
  have hpatches : sampling.fencePatches = [] := rfl
  have hcopies : sampling.copies = [] := rfl
  have hwords : sampling.words = [] := rfl
  have hfits : 0 + (fenceWord + 1) + 0 ≤ submissionWords := by decide
  unfold appendCmdBuffer
  rw [if_neg hroom, if_neg (by simp [hcopies]), hwords, Assembly.emit_of_le hfits]
  simp only [bind, Except.bind, hpatches, hcopies, patchFences, List.map_nil, List.append_nil,
    barrierBetween, List.length_nil, Nat.add_zero, Nat.zero_add]

theorem endPackets_past_fence (machine : Machine) (value : UInt32) :
    endPackets plainAgc fenceWord (0 + (fenceWord + 1)) value machine = .error (.lost, machine) := by
  have hroom : fenceWord - (0 + (fenceWord + 1)) = 0 := by decide
  unfold endPackets endStamp
  simp only [plainAgc, bind, Except.bind, hroom]
  rfl

theorem trace_rendering_sampling (h : words.length = fenceWord - 16) :
    (stoppedAt (queueRun plainAgc [rendering words, sampling] (.init []))).trace =
      [.write 0 words, .write (fenceWord - 16) (gpuBarrierWords plainAgc.fenceAddress 1),
        .write (fenceWord + 1) []] := by
  obtain ⟨machine, hfirst, htrace⟩ := appendCmdBuffer_rendering words h
  unfold queueRun runAssembled queueRunStep
  rw [assemble_fresh]
  simp only [appendCmdBuffers, List.head?_cons, List.head?_nil, bind, Except.bind, hfirst,
    appendCmdBuffer_sampling, if_pos, endPackets_past_fence, stoppedAt]
  simp [Machine.poke, htrace]

end Full

/-- A command buffer that fills the area up to the words a step ends with, and one that samples what
it rendered. -/
def fullThenSample : List CmdBuffer :=
  [rendering (List.replicate (fenceWord - 16) 0), sampling]

/-- The barrier between the two is written over the fence word. -/
theorem fullThenSample_past_fence :
    Reachable plainAgc (.init []) ∧
      ¬WritesApart (.init []) (stoppedAt (queueRun plainAgc fullThenSample (.init []))) := by
  constructor
  · exact .init []
  · rintro ⟨events, htrace, hapart⟩
    rw [fullThenSample, trace_rendering_sampling _ List.length_replicate] at htrace
    have hfence := (hapart [.write 0 (List.replicate (fenceWord - 16) 0)] (fenceWord - 16)
      (gpuBarrierWords plainAgc.fenceAddress 1) [.write (fenceWord + 1) []] htrace.symm).1
    rw [length_gpuBarrierWords] at hfence
    exact absurd hfence (by decide)

end Ps5Vulkan.Queue
