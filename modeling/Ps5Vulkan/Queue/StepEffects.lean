import Ps5Vulkan.Queue.Effects

/-!
# What a step does

A step writes its end packets past its words, hands the words and the packets to the GPU and, where
records follow it, waits until they are finished. It changes nothing else of the buffer.
-/

variable (agc : Agc)

namespace Ps5Vulkan.Queue

open Outcome WordBuffer

-- A goal about a wait must not be run by unfolding its polls.
attribute [local irreducible] pollUntil

/-- `sceAgcCbReleaseMem` writes its packet of eight words where they fit, or nothing. -/
def Agc.ReleasesPacket : Prop :=
  ∀ room words, agc.releaseMem room = some words → words.length = 8 ∧ 8 ≤ room

/-- The end packets of a step with this value: the end stamp while profiling, the barrier and the
completion. -/
def EndPackets (value : UInt32) (words : List UInt32) : Prop :=
  ∃ barrier, words = stampWords agc 2 ++ (barrier ++ completionWords agc.markerAddress value) ∧
    words.length = agc.endWords

/-- The event, if it is a write, is where `P` allows. -/
def Event.Placed (P : Nat → Nat → Prop) : Event → Prop
  | .write pos words => P pos words.length
  | _ => True

theorem Event.Silent.placed {P : Nat → Nat → Prop} {event : Event} (h : event.Silent P) :
    event.Placed P := by
  cases event with
  | write pos words => exact h
  | finish step | submit step words | run kind copy | wave copies => trivial

/-- All that was written is where `P` allows. -/
def WritesPlaced (P : Nat → Nat → Prop) (m m' : Machine) : Prop :=
  ∃ events, m'.trace = m.trace ++ events ∧ ∀ event ∈ events, event.Placed P

namespace WritesPlaced

variable {P : Nat → Nat → Prop} {m m₁ m₂ m₃ : Machine}

theorem trans (h : WritesPlaced P m₁ m₂) (h' : WritesPlaced P m₂ m₃) : WritesPlaced P m₁ m₃ := by
  obtain ⟨events, htrace, hplaced⟩ := h
  obtain ⟨events', htrace', hplaced'⟩ := h'
  refine ⟨events ++ events', by rw [htrace', htrace, List.append_assoc], fun event hmem => ?_⟩
  rcases List.mem_append.mp hmem with hmem | hmem
  · exact hplaced event hmem
  · exact hplaced' event hmem

theorem of_trace_eq (h : m₂.trace = m₁.trace) : WritesPlaced P m₁ m₂ :=
  ⟨[], by simpa using h, by simp⟩

end WritesPlaced

theorem Quiet.writesPlaced {P : Nat → Nat → Prop} {m m' : Machine} (h : Quiet P m m') : WritesPlaced P m m' := by
  obtain ⟨events, htrace, hsilent⟩ := h.trace
  exact ⟨events, htrace, fun event hmem => (hsilent event hmem).placed⟩

variable {P : Nat → Nat → Prop} {m : Machine}

/-- The end stamp takes eight words while profiling and none otherwise. -/
theorem endStamp_spec (top up : Nat) (hP : ∀ pos len, up ≤ pos → pos + len ≤ top → P pos len) (m : Machine) :
    Post (endStamp agc top up m) (fun stamped => stamped.1 = up + (stampWords agc 2).length ∧
        (stampWords agc 2).length + 16 = agc.endWords ∧
        stamped.2.buffer = write m.buffer up (stampWords agc 2) ∧ Quiet P m stamped.2) (fun _ m' => Quiet P m m') := by
  unfold endStamp Agc.endWords stampWords
  cases agc.stamps with
  | none => exact ⟨by simp, by simp, by simp, Quiet.refl m⟩
  | some stamps =>
    dsimp only
    split
    · exact Quiet.refl m
    · exact ⟨by simp, by simp, rfl,
        Quiet.poke (hP _ _ (le_refl _) (by rw [length_timestampPacket]; omega))⟩

/-- The end packets lie in one run past a step's words. -/
theorem endPackets_spec (hrelease : agc.ReleasesPacket) (top up : Nat) (value : UInt32)
    (hP : ∀ pos len, up ≤ pos → pos + len ≤ top → P pos len) (m : Machine) :
    Post (endPackets agc top up value m) (fun ended => ended.1 = up + agc.endWords ∧ ended.1 ≤ top ∧
        ∃ words, EndPackets agc value words ∧ ended.2.buffer = write m.buffer up words ∧
          Quiet P m ended.2) (fun _ m' => Quiet P m m') := by
  unfold endPackets
  refine Post.bind (endStamp_spec agc top up hP m) ?_
  rintro ⟨up₁, m₁⟩ ⟨hup, hlength, hbuffer, hquiet⟩
  dsimp only at hup hlength hbuffer hquiet ⊢
  split
  · exact hquiet
  · rename_i barrier hbarrier
    obtain ⟨height, hroom⟩ := hrelease _ _ hbarrier
    have hquiet₂ : Quiet P m₁ (m₁.poke up₁ barrier) :=
      Quiet.poke (hP _ _ (by omega) (by omega))
    split
    · exact hquiet.trans hquiet₂
    · rename_i hfits
      have hquiet₃ : Quiet P (m₁.poke up₁ barrier) ((m₁.poke up₁ barrier).poke (up₁ + barrier.length)
            (completionWords agc.markerAddress value)) :=
        Quiet.poke (hP _ _ (by omega) (by rw [length_completionWords]; omega))
      refine ⟨by dsimp only; omega, by dsimp only; omega,
        stampWords agc 2 ++ (barrier ++ completionWords agc.markerAddress value),
        ⟨barrier, rfl, ?_⟩, ?_, (hquiet.trans hquiet₂).trans hquiet₃⟩
      · simp only [List.length_append, length_completionWords]
        omega
      · change write (write m₁.buffer up₁ barrier) (up₁ + barrier.length) _ = _
        rw [write_append, hbuffer, hup, write_append]

/-- What a step did that the GPU now has: its words with their end packets, handed over once. -/
structure StepRun (P : Nat → Nat → Prop) (m m' : Machine) (words : List UInt32) : Prop where
  steps : m'.steps = m.steps + 1
  ringHead : m'.ringHead = m.ringHead
  placements : m'.placements = m.placements
  trace : ∃ before after, m'.trace = m.trace ++ (before ++ .submit (m.steps + 1) words :: after) ∧
    (∀ event ∈ before, event.Silent P) ∧ ∀ event ∈ after, event.Silent P
  counts : TraceCounts m → TraceCounts m'
  finished_le : m.finished ≤ m'.finished
  ready : ∀ seen, Ready m seen → m.steps < seen + stepWindow →
    ∃ seen', seen ≤ seen' ∧ Ready m' seen'
  kept : ∀ seen, Ready m seen → m.steps < seen + stepWindow → ∀ range ∈ m.retire,
    ∀ step ≤ m.steps, range.value = markerOf step → range ∈ m'.retire ∨ step ≤ m'.finished

theorem StepRun.writesPlaced {words : List UInt32} {m' : Machine} (h : StepRun P m m' words) : WritesPlaced P m m' := by
  obtain ⟨before, after, htrace, hbefore, hafter⟩ := h.trace
  refine ⟨_, htrace, fun event hmem => ?_⟩
  rcases List.mem_append.mp hmem with hmem | hmem
  · exact (hbefore event hmem).placed
  · rcases List.mem_cons.mp hmem with rfl | hmem
    · trivial
    · exact (hafter event hmem).placed

/-- Time passing after a step belongs to the step. -/
theorem StepRun.trans_quiet {words : List UInt32} {m₁ m₂ : Machine} (h : StepRun P m m₁ words)
    (h' : Quiet P m₁ m₂) : StepRun P m m₂ words := by
  obtain ⟨before, after, htrace, hbefore, hafter⟩ := h.trace
  obtain ⟨events, htrace', hsilent⟩ := h'.trace
  refine ⟨h'.steps.trans h.steps, h'.ringHead.trans h.ringHead, h'.placements.trans h.placements,
    ⟨before, after ++ events, ?_, hbefore, ?_⟩, fun counts => h'.counts (h.counts counts),
    h.finished_le.trans h'.finished_le, ?_, ?_⟩
  · rw [htrace', htrace]
    simp only [List.append_assoc, List.cons_append]
  · intro event hmem
    rcases List.mem_append.mp hmem with hmem | hmem
    · exact hafter event hmem
    · exact hsilent event hmem
  · intro seen hready hroom
    obtain ⟨seen₁, hle, hready₁⟩ := h.ready seen hready hroom
    obtain ⟨seen₂, hle', hready₂⟩ := h'.ready hready₁
    exact ⟨seen₂, hle.trans hle', hready₂⟩
  · intro seen hready hroom range hmem step hstep hvalue
    obtain ⟨seen₁, -, hready₁⟩ := h.ready seen hready hroom
    rcases h.kept seen hready hroom range hmem step hstep hvalue with hmem₁ | hfin
    · exact h'.kept seen₁ hready₁.toCoherent range hmem₁ step
        (hstep.trans (h.steps ▸ Nat.le_succ _)) hvalue
    · exact Or.inr (hfin.trans h'.finished_le)

/-- Time passing before a step belongs to the step. -/
theorem StepRun.quiet_trans {words : List UInt32} {m₁ m₂ : Machine} (h : Quiet P m m₁)
    (h' : StepRun P m₁ m₂ words) : StepRun P m m₂ words := by
  obtain ⟨events, htrace, hsilent⟩ := h.trace
  obtain ⟨before, after, htrace', hbefore, hafter⟩ := h'.trace
  have hready : ∀ seen, Ready m seen → m.steps < seen + stepWindow →
      ∃ seen₁, seen ≤ seen₁ ∧ Ready m₁ seen₁ ∧ m₁.steps < seen₁ + stepWindow := by
    intro seen hready hroom
    obtain ⟨seen₁, hle, hready₁⟩ := h.ready hready
    exact ⟨seen₁, hle, hready₁, by rw [h.steps]; omega⟩
  refine ⟨by rw [h'.steps, h.steps], h'.ringHead.trans h.ringHead,
    h'.placements.trans h.placements, ⟨events ++ before, after, ?_, ?_, hafter⟩,
    fun counts => h'.counts (h.counts counts), h.finished_le.trans h'.finished_le, ?_, ?_⟩
  · rw [htrace', htrace, h.steps]
    simp only [List.append_assoc]
  · intro event hmem
    rcases List.mem_append.mp hmem with hmem | hmem
    · exact hsilent event hmem
    · exact hbefore event hmem
  · intro seen hseen hroom
    obtain ⟨seen₁, hle, hready₁, hroom₁⟩ := hready seen hseen hroom
    obtain ⟨seen₂, hle', hready₂⟩ := h'.ready seen₁ hready₁ hroom₁
    exact ⟨seen₂, hle.trans hle', hready₂⟩
  · intro seen hseen hroom range hmem step hstep hvalue
    obtain ⟨seen₁, -, hready₁, hroom₁⟩ := hready seen hseen hroom
    rcases h.kept seen hseen.toCoherent range hmem step hstep hvalue with hmem₁ | hfin
    · exact h'.kept seen₁ hready₁ hroom₁ range hmem₁ step (h.steps ▸ hstep) hvalue
    · exact Or.inr (hfin.trans h'.finished_le)

/-- Handing words over makes them the next step's. -/
theorem submitDcb_spec (first past : Nat) (m : Machine) (value : UInt32) :
    Post (submitDcb agc first past value m) (fun m' => m' = { m with
        submittedValue := value
        steps := m.steps + 1
        trace := m.trace ++ [.submit (m.steps + 1) (read m.buffer first (past - first))] })
      (fun _ m' => WritesPlaced P m m') := by
  unfold submitDcb
  dsimp only
  split
  · exact WritesPlaced.of_trace_eq rfl
  · split
    · exact ⟨[_], rfl, fun event hmem => by rw [List.mem_singleton.mp hmem]; trivial⟩
    · rfl

/-- A step handed over, before anything waits for it. -/
theorem stepRun_submit {m₁ : Machine} (words : List UInt32)
    (hquiet : Quiet P { m with markerValue := nextValue m.markerValue } m₁) :
    StepRun P m
      { m₁ with
        submittedValue := nextValue m.markerValue
        steps := m₁.steps + 1
        trace := m₁.trace ++ [.submit (m₁.steps + 1) words] }
      words := by
  obtain ⟨before, htrace, hbefore⟩ := hquiet.trace
  have hsteps : m₁.steps = m.steps := hquiet.steps
  have hcoherent : ∀ seen, Ready m seen →
      Coherent { m with markerValue := nextValue m.markerValue } seen := fun seen hready =>
    ⟨hready.submitted, hready.completed, hready.seen_le, hready.finished_le, hready.window, hready.retire⟩
  refine ⟨by simp [hsteps], hquiet.ringHead, hquiet.placements, ⟨before, [], ?_, hbefore, by simp⟩,
    fun counts => ?_, hquiet.finished_le, fun seen hready hroom => ?_, fun seen hready _ => ?_⟩
  · simp only [htrace, hsteps, List.append_assoc]
  · have hcounts : TraceCounts m₁ := hquiet.counts ⟨counts.finish_mem, counts.submit_mem⟩
    refine ⟨fun step => ?_, fun step words' hmem => ?_⟩
    · simpa using hcounts.finish_mem step
    · rcases List.mem_append.mp hmem with hmem | hmem
      · exact (hcounts.submit_mem step words' hmem).imp_right fun hle => hle.trans (Nat.le_succ _)
      · have heq := List.mem_singleton.mp hmem
        simp only [Event.submit.injEq] at heq
        exact ⟨heq.1 ▸ Nat.succ_pos _, heq.1.le⟩
  · obtain ⟨seen₁, hle, hcoh⟩ := hquiet.coherent seen (hcoherent seen hready)
    have hvalue : nextValue m.markerValue = markerOf (m₁.steps + 1) := by
      rw [hready.marker, nextValue_markerOf, hsteps]
    refine ⟨seen₁, hle, ⟨hvalue, hcoh.completed, hcoh.seen_le,
      hcoh.finished_le.trans (Nat.le_succ _), show m₁.steps + 1 ≤ _ by omega, ?_⟩,
      hquiet.marker.trans hvalue⟩
    intro range hmem
    obtain ⟨step, hgt, hstep, hrange⟩ := hcoh.retire range hmem
    exact ⟨step, hgt, hstep.trans (Nat.le_succ _), hrange⟩
  · exact hquiet.kept seen (hcoherent seen hready)

theorem value_of_mem_deferRanges {value : UInt32} {earlier targets : List RenderTarget}
    {range : RetireRange} (h : range ∈ deferRanges value earlier targets) : range.value = value := by
  induction targets generalizing earlier with
  | nil => cases h
  | cons target targets ih =>
    unfold deferRanges at h
    split at h
    · rcases List.mem_cons.mp h with rfl | h
      · rfl
      · exact ih h
    · exact ih h

/-- Keeping the ranges of a step for later belongs to the step. -/
theorem StepRun.deferTargets {words : List UInt32} {m₁ : Machine} (h : StepRun P m m₁ words)
    (hrunning : m₁.finished ≤ m.steps) (submit : List CmdBuffer) :
    StepRun P m (queueDeferTargets submit (markerOf (m.steps + 1)) m₁) words := by
  refine ⟨h.steps, h.ringHead, h.placements, h.trace,
    fun counts => ⟨(h.counts counts).finish_mem, (h.counts counts).submit_mem⟩, h.finished_le,
    fun seen hready hroom => ?_, fun seen hready hroom range hmem step hstep hvalue => ?_⟩
  · obtain ⟨seen₁, hle, hready₁⟩ := h.ready seen hready hroom
    have hcoh := hready₁.toCoherent
    refine ⟨seen₁, hle, ⟨hcoh.submitted, hcoh.completed, hcoh.seen_le, hcoh.finished_le,
      hcoh.window, fun range hmem => ?_⟩, hready₁.marker⟩
    rcases List.mem_append.mp hmem with hmem | hmem
    · exact hcoh.retire range hmem
    · exact ⟨m.steps + 1, Nat.lt_succ_of_le (hcoh.seen_le.trans hrunning), h.steps.ge,
        value_of_mem_deferRanges hmem⟩
  · exact (h.kept seen hready hroom range hmem step hstep hvalue).imp
      (fun hmem => List.mem_append_left _ hmem) id

/-- The words and end packets of a step, handed over once they are written. -/
theorem submitDcb_stepRun {m₁ : Machine} {base start stop past : Nat}
    {packets : List UInt32} (hstart : start ≤ stop) (hpast : past = base + stop + packets.length)
    (hbuffer : m₁.buffer = write m.buffer (base + stop) packets)
    (hquiet : Quiet P { m with markerValue := nextValue m.markerValue } m₁) :
    Post (submitDcb agc (base + start) past (nextValue m.markerValue) m₁)
      (fun m₂ => StepRun P m m₂ (read m.buffer (base + start) (stop - start) ++ packets) ∧
        m₂.buffer = m₁.buffer ∧ m₂.finished = m₁.finished ∧ m₂.retire = m₁.retire)
      (fun _ m' => WritesPlaced P m m') := by
  have hwritten : WritesPlaced P m m₁ := hquiet.writesPlaced
  have hsubmit := submitDcb_spec (P := P) agc (base + start) past m₁ (nextValue m.markerValue)
  have hwords : read m₁.buffer (base + start) (past - (base + start)) =
      read m.buffer (base + start) (stop - start) ++ packets := by
    rw [hpast, hbuffer, show base + stop + packets.length - (base + start) =
      (stop - start) + packets.length by omega, read_add,
      show base + start + (stop - start) = base + stop by omega, read_write_self,
      read_write_of_apart (Or.inl (by omega))]
  refine hsubmit.mono ?_ fun _ _ h => hwritten.trans h
  rintro m₂ rfl
  exact ⟨hwords ▸ stepRun_submit _ hquiet, rfl, rfl, rfl⟩

/-- Waiting for the last step leaves it seen finished. -/
theorem waitStep_spec {seen : Nat} (hready : Ready m seen) : Post (waitStep agc (markerOf m.steps) m)
      (fun m' => Quiet P m m' ∧ m'.buffer = m.buffer ∧ Ready m' m'.steps) (fun _ m' => Quiet P m m') := by
  have hspin : Quiet P m (pollUntil (markerOf m.steps) (agc.spinPolls + 1) m).2 :=
    Quiet.pollUntil _ _ _
  have hwaits₁ := waits_pollUntil (markerOf m.steps) (agc.spinPolls + 1) m
  obtain ⟨seen₁, -, hcoh₁, -⟩ :=
    pollUntil_spec hready.toCoherent (le_refl m.steps) (agc.spinPolls + 1)
  unfold waitStep
  dsimp only
  generalize (pollUntil (markerOf m.steps) (agc.spinPolls + 1) m).2 = m₁ at *
  have hpolls : Quiet P m₁ (pollUntil (markerOf m.steps) markerPolls m₁).2 :=
    Quiet.pollUntil _ _ _
  have hwaits₂ := waits_pollUntil (markerOf m.steps) markerPolls m₁
  obtain ⟨seen₂, -, hcoh₂, hdone⟩ :=
    pollUntil_spec hcoh₁ hwaits₁.steps.ge markerPolls
  generalize pollUntil (markerOf m.steps) markerPolls m₁ = polled at *
  obtain ⟨reached, m₂⟩ := polled
  cases reached with
  | false => exact hspin.trans hpolls
  | true =>
    have hquiet : Quiet P m m₂ := hspin.trans hpolls
    have hall : seen₂ = m₂.steps := by
      refine le_antisymm (hcoh₂.seen_le.trans hcoh₂.finished_le) ?_
      rw [hquiet.steps]
      exact hdone rfl
    refine ⟨hquiet, hwaits₂.buffer.trans hwaits₁.buffer, hall ▸ hcoh₂, ?_⟩
    rw [hquiet.marker, hquiet.steps, hready.marker]

/-- How a step is left: seen finished where it is waited for, and else with its ranges queued. -/
def StepEnds (submit : List CmdBuffer) (m m' : Machine) : Bool → Prop
  | true => Ready m' m'.steps ∧ m'.retire.Sublist m.retire
  | false => ∃ kept, kept.Sublist m.retire ∧
    m'.retire = kept ++ deferRanges (markerOf (m.steps + 1)) [] (submit.flatMap CmdBuffer.targets)

/-- A step run to its end: the words as the buffer held them, and their end packets past them. -/
theorem queueRunStep_spec (hrelease : agc.ReleasesPacket) (submit : List CmdBuffer)
    (base start stop : Nat) (hstart : start ≤ stop) (wait : Bool) {seen : Nat}
    (hready : Ready m seen) (hroom : m.steps < seen + stepWindow)
    (hP : ∀ pos len, base + stop ≤ pos → pos + len ≤ fenceWord → P pos len) :
    Post (queueRunStep agc submit base start stop wait m) (fun m' => base + stop + agc.endWords ≤ fenceWord ∧ ∃ packets,
        EndPackets agc (markerOf (m.steps + 1)) packets ∧
        StepRun P m m' (read m.buffer (base + start) (stop - start) ++ packets) ∧
        m'.buffer = write m.buffer (base + stop) packets ∧ StepEnds submit m m' wait)
      (fun _ m' => WritesPlaced P m m') := by
  have hvalue : nextValue m.markerValue = markerOf (m.steps + 1) := by
    rw [hready.marker, nextValue_markerOf]
  unfold queueRunStep
  dsimp only
  have hpackets := endPackets_spec (P := P) agc hrelease fenceWord (base + stop)
    (nextValue m.markerValue) hP { m with markerValue := nextValue m.markerValue }
  refine Post.bind (hpackets.mono (fun _ h => h) fun _ _ h => h.writesPlaced) ?_
  rintro ⟨past, m₁⟩ ⟨hpast, hfits, packets, hpackets, hbuffer, hquiet⟩
  dsimp only at hpast hfits hbuffer hquiet ⊢
  have hlength : packets.length = agc.endWords := by
    obtain ⟨barrier, -, hlength⟩ := hpackets
    exact hlength
  refine Post.bind (submitDcb_stepRun agc hstart (hlength ▸ hpast) hbuffer hquiet) ?_
  rintro m₂ ⟨hrun, hbuffer₂, hfinished₂, hretire₂⟩
  have hrunning : m₂.finished ≤ m.steps := by
    obtain ⟨seen₁, -, hcoh⟩ := hquiet.coherent seen ⟨hready.submitted, hready.completed,
      hready.seen_le, hready.finished_le, hready.window, hready.retire⟩
    rw [hfinished₂]
    exact hquiet.steps ▸ hcoh.finished_le
  have hretire : m₁.retire.Sublist m.retire := hquiet.retire
  rw [hvalue] at hpackets ⊢
  rw [hpast] at hfits
  rw [hbuffer] at hbuffer₂
  cases wait with
  | false =>
    refine ⟨hfits, packets, hpackets, hrun.deferTargets hrunning submit, hbuffer₂, m₁.retire, hretire, ?_⟩
    change m₂.retire ++ _ = _
    rw [hretire₂]
  | true =>
    obtain ⟨seen₂, -, hready₂⟩ := hrun.ready seen hready hroom
    have hwait := waitStep_spec (P := P) agc hready₂
    rw [hrun.steps] at hwait
    refine hwait.mono ?_ fun _ _ h => hrun.writesPlaced.trans h.writesPlaced
    rintro m' ⟨hquiet', hbuffer', hready'⟩
    refine ⟨hfits, packets, hpackets, hrun.trans_quiet hquiet', hbuffer'.trans hbuffer₂, hready', ?_⟩
    rw [← hretire₂] at hretire
    exact hquiet'.retire.trans hretire

/-- A step of a split submission: its words as they were built, whatever the end packets of the step
before it left in their place. -/
theorem runSavedStep_spec (hrelease : agc.ReleasesPacket) (submit : List CmdBuffer)
    (base : Nat) (saved : List UInt32) (start stop : Nat) (hstart : start ≤ stop)
    (hstop : stop ≤ saved.length) (wait : Bool) {seen : Nat} (hready : Ready m seen)
    (hroom : m.steps < seen + stepWindow) (hwords : ∀ pos len, base ≤ pos → pos + len ≤ base + saved.length → P pos len)
    (hend : ∀ pos len, base ≤ pos → pos + len ≤ fenceWord → P pos len) :
    Post (runSavedStep agc submit base saved start stop wait m)
      (fun m' => base + stop + agc.endWords ≤ fenceWord ∧ ∃ packets, EndPackets agc (markerOf (m.steps + 1)) packets ∧
        StepRun P m m' ((saved.drop start).take (stop - start) ++ packets) ∧ StepEnds submit m m' wait)
      (fun _ m' => WritesPlaced P m m') := by
  have hlength : ((saved.drop start).take (stop - start)).length = stop - start := by
    rw [List.length_take, List.length_drop]
    omega
  have hpoke : Quiet P m (m.poke (base + start) ((saved.drop start).take (stop - start))) :=
    Quiet.poke (hwords _ _ (by omega) (by omega))
  obtain ⟨seen₁, hle, hready₁⟩ := hpoke.ready hready
  have hstep := queueRunStep_spec (P := P) agc hrelease submit base start stop hstart wait hready₁
    (by rw [hpoke.steps]; omega) fun pos len hpos => hend pos len (by omega)
  refine hstep.mono ?_ fun _ _ h => hpoke.writesPlaced.trans h
  rintro m' ⟨hfits, packets, hpackets, hrun, -, hends⟩
  rw [hpoke.steps] at hpackets
  have hread : read (m.poke (base + start) ((saved.drop start).take (stop - start))).buffer
      (base + start) (stop - start) = (saved.drop start).take (stop - start) := by
    have hself := read_write_self m.buffer (base + start) ((saved.drop start).take (stop - start))
    rwa [hlength] at hself
  rw [hread] at hrun
  exact ⟨hfits, packets, hpackets, StepRun.quiet_trans hpoke hrun, hends⟩

end Ps5Vulkan.Queue
