import Ps5Vulkan.Queue.Assembly
import Ps5Vulkan.Queue.ProgramOrder

/-!
# A submission runs in program order

The loop over a split submission's records refines the order of `ProgramOrder`: whatever the splits,
the words go to the GPU from the first to the last as they were assembled, and every record runs
where it falls. The invariant is carried from record to record: the words before the cursor are
handed over, and where a record of the group has run every step is seen finished.
-/

namespace Ps5Vulkan.Queue

open Outcome WordBuffer

attribute [local irreducible] pollUntil

/-- The queue went on by these events: it wrote where `P` allows, and a range it no longer keeps is
of a finished step. -/
structure Progress (P : Nat → Nat → Prop) (m m' : Machine) (events : List Event) : Prop where
  trace : m'.trace = m.trace ++ events
  placed : ∀ event ∈ events, event.Placed P
  ringHead : m'.ringHead = m.ringHead
  placements : m'.placements = m.placements
  steps_le : m.steps ≤ m'.steps
  finished_le : m.finished ≤ m'.finished
  counts : TraceCounts m → TraceCounts m'
  kept : ∀ range ∈ m.retire, ∀ step ≤ m.steps, range.value = markerOf step →
    range ∈ m'.retire ∨ step ≤ m'.finished

variable {P : Nat → Nat → Prop} {m m₁ m₂ : Machine} {events events' : List Event} {seen : Nat}

theorem Progress.refl (m : Machine) : Progress P m m [] :=
  ⟨by simp, by simp, rfl, rfl, le_refl _, le_refl _, id, fun _ hmem _ _ _ => Or.inl hmem⟩

theorem Progress.trans (h : Progress P m m₁ events) (h' : Progress P m₁ m₂ events') :
    Progress P m m₂ (events ++ events') := by
  refine ⟨by rw [h'.trace, h.trace, List.append_assoc], fun event hmem => ?_,
    h'.ringHead.trans h.ringHead, h'.placements.trans h.placements, h.steps_le.trans h'.steps_le,
    h.finished_le.trans h'.finished_le, fun counts => h'.counts (h.counts counts),
    fun range hmem step hstep hvalue => ?_⟩
  · exact (List.mem_append.mp hmem).elim (h.placed event) (h'.placed event)
  · rcases h.kept range hmem step hstep hvalue with hmem₁ | hfin
    · exact h'.kept range hmem₁ step (hstep.trans h.steps_le) hvalue
    · exact Or.inr (hfin.trans h'.finished_le)

/-- Time passing is progress by events no program order is broken by. -/
theorem Quiet.progress (h : Quiet P m m₁) (hcoh : Coherent m seen) :
    ∃ events, Progress P m m₁ events ∧ ∀ event ∈ events, event.Silent fun _ _ => True := by
  obtain ⟨events, htrace, hsilent⟩ := h.trace
  exact ⟨events, ⟨htrace, fun event hmem => (hsilent event hmem).placed, h.ringHead, h.placements,
    h.steps.ge, h.finished_le, h.counts, h.kept seen hcoh⟩,
    fun event hmem => (hsilent event hmem).mono fun _ _ _ => trivial⟩

/-- A step is progress by its hand-over, with time passing before and after. -/
theorem StepRun.progress {words : List UInt32} (h : StepRun P m m₁ words) (hready : Ready m seen)
    (hroom : m.steps < seen + stepWindow) :
    ∃ before after, Progress P m m₁ (before ++ .submit (m.steps + 1) words :: after) ∧
      (∀ event ∈ before, event.Silent fun _ _ => True) ∧ ∀ event ∈ after, event.Silent fun _ _ => True := by
  obtain ⟨before, after, htrace, hbefore, hafter⟩ := h.trace
  refine ⟨before, after, ⟨htrace, fun event hmem => ?_, h.ringHead, h.placements,
    h.steps ▸ Nat.le_succ _, h.finished_le, h.counts, h.kept seen hready hroom⟩,
    fun event hmem => (hbefore event hmem).mono fun _ _ _ => trivial,
    fun event hmem => (hafter event hmem).mono fun _ _ _ => trivial⟩
  rcases List.mem_append.mp hmem with hmem | hmem
  · exact (hbefore event hmem).placed
  · rcases List.mem_cons.mp hmem with rfl | hmem
    · trivial
    · exact (hafter event hmem).placed

theorem AllFinished.of_ready (counts : TraceCounts m) (hready : Ready m m.steps) : AllFinished m.trace := by
  intro step words hmem
  obtain ⟨hpos, hle⟩ := counts.submit_mem step words hmem
  exact (counts.finish_mem step).mpr ⟨hpos, hle.trans hready.seen_le⟩

/-- Running records only adds to the history. -/
theorem progress_records (hrecords : ∀ event ∈ events, event.IsRecord) :
    Progress P m { m with trace := m.trace ++ events } events := by
  refine ⟨rfl, fun event hmem => ?_, rfl, rfl, le_refl _, le_refl _, fun counts => ?_,
    fun _ hmem _ _ _ => Or.inl hmem⟩
  · cases event with
    | write pos words => exact (hrecords _ hmem).elim
    | finish step | submit step words | run kind copy | wave copies => trivial
  · refine ⟨fun step => ?_, fun step words hmem => ?_⟩
    · rw [← counts.finish_mem step]
      exact ⟨fun hmem => (List.mem_append.mp hmem).resolve_right fun hmem => hrecords _ hmem,
        fun hmem => List.mem_append_left _ hmem⟩
    · exact counts.submit_mem step words
        ((List.mem_append.mp hmem).resolve_right fun hmem => hrecords _ hmem)

theorem Ready.withTrace (h : Ready m seen) (trace : List Event) : Ready { m with trace := trace } seen :=
  ⟨⟨h.submitted, h.completed, h.seen_le, h.finished_le, h.window, h.retire⟩, h.marker⟩

/-- A wave is its first blit and a run of the splits after it: blits at the same place, no two of
which touch a common image. -/
theorem blitWave_spec (offset : Nat) (wave : List MemoryCopy) (rest : List CopySplit)
    (hwave : wave.Pairwise fun a b => b.touches a = false) : ∃ taken ≤ rest.length,
      blitWave offset wave rest = wave ++ (rest.take taken).map CopySplit.copy ∧
      (∀ split ∈ rest.take taken, split.offset = offset ∧ split.copy.blit = true) ∧
      (blitWave offset wave rest).Pairwise fun a b => b.touches a = false := by
  induction rest generalizing wave with
  | nil => exact ⟨0, le_refl _, by simp [blitWave], by simp, by simpa [blitWave] using hwave⟩
  | cons split rest ih =>
    unfold blitWave
    split
    · rename_i hjoins
      obtain ⟨hoffset, hblit, hconflicts⟩ := hjoins
      have hwave' : (wave ++ [split.copy]).Pairwise fun a b => b.touches a = false := by
        rw [List.pairwise_append]
        refine ⟨hwave, List.pairwise_singleton _ _, fun other hother last hlast => ?_⟩
        obtain rfl := List.mem_singleton.mp hlast
        simp only [blitConflicts, Bool.or_eq_true, not_or, List.any_eq_true, not_exists,
          not_and] at hconflicts
        simpa using hconflicts.2 other hother
      obtain ⟨taken, hle, heq, hblits, hapart⟩ := ih (wave ++ [split.copy]) hwave'
      refine ⟨taken + 1, Nat.succ_le_succ hle, ?_, ?_, hapart⟩
      · simpa [List.append_assoc] using heq
      · intro other hmem
        rcases List.mem_cons.mp hmem with rfl | hmem
        · exact ⟨hoffset, hblit⟩
        · exact hblits other hmem
    · exact ⟨0, Nat.zero_le _, by simp, by simp, hwave⟩

/-- The queue ran the record of `split` and `taken` of the splits after it. -/
def RecordRun (P : Nat → Nat → Prop) (agc : Agc) (stream : List UInt32) (split : CopySplit)
    (rest : List CopySplit) (m : Machine) (taken : Nat) (m' : Machine) : Prop :=
  ∃ events, Progress P m m' events ∧ Ready m' m'.steps ∧ m'.retire = m.retire ∧
    ∀ later, InOrder agc stream m'.trace split.offset (rest.drop taken) later →
      InOrder agc stream m.trace split.offset (split :: rest) (events ++ later)

variable {stream : List UInt32} {split : CopySplit} {rest : List CopySplit}

theorem recordRun_one {agc : Agc} {kind : CpuKind} (hkind : split.copy.kind? = some kind)
    (counts : TraceCounts m) (hready : Ready m m.steps) : RecordRun P agc stream split rest m 0
      { m with trace := m.trace ++ [.run kind split.copy] } := by
  refine ⟨[.run kind split.copy], progress_records ?_, hready.withTrace _, rfl, ?_⟩
  · intro event hmem
    rw [List.mem_singleton.mp hmem]
    trivial
  · exact fun later horder => .record hkind rfl (AllFinished.of_ready counts hready) horder

/-- A wave runs at once or in turn; either way each of its blits runs where it falls. -/
theorem recordRun_wave {agc : Agc} (hblit : split.copy.kind? = some .blit)
    (counts : TraceCounts m) (hready : Ready m m.steps) : RecordRun P agc stream split rest m
      ((blitWave split.offset [split.copy] rest).length - 1)
      (runWave agc split.copy (blitWave split.offset [split.copy] rest) m) := by
  have hfinished := AllFinished.of_ready counts hready
  obtain ⟨taken, hle, heq, hblits, hapart⟩ :=
    blitWave_spec split.offset [split.copy] rest (List.pairwise_singleton _ _)
  have hcopies : blitWave split.offset [split.copy] rest = (split :: rest.take taken).map CopySplit.copy := heq
  have htaken : (blitWave split.offset [split.copy] rest).length - 1 = taken := by
    rw [hcopies, List.length_map, List.length_cons, List.length_take]
    omega
  have hdue : ∀ other ∈ split :: rest.take taken, other.offset = split.offset ∧ other.copy.kind? = some .blit := by
    intro other hmem
    rcases List.mem_cons.mp hmem with rfl | hmem
    · exact ⟨rfl, hblit⟩
    · obtain ⟨hoffset, hother⟩ := hblits other hmem
      exact ⟨hoffset, MemoryCopy.kind?_of_blit hother⟩
  have hall : split :: rest = (split :: rest.take taken) ++ rest.drop taken := by simp
  rw [htaken, runWave]
  split
  · refine ⟨[.wave (blitWave split.offset [split.copy] rest)], progress_records ?_,
      hready.withTrace _, rfl, fun later horder => ?_⟩
    · intro event hmem
      rw [List.mem_singleton.mp hmem]
      trivial
    · rw [hcopies] at horder hapart ⊢
      rw [hall]
      exact .wave hdue hapart hfinished horder
  · refine ⟨(blitWave split.offset [split.copy] rest).map (.run .blit), progress_records ?_,
      hready.withTrace _, rfl, fun later horder => ?_⟩
    · intro event hmem
      obtain ⟨copy, -, rfl⟩ := List.mem_map.mp hmem
      trivial
    · rw [hcopies, List.map_map] at horder ⊢
      rw [hall]
      exact .records hdue hfinished horder

/-- A record runs where it falls, with the blits its wave took. -/
theorem runRecord_spec (agc : Agc) (stream : List UInt32) (counts : TraceCounts m) (hready : Ready m m.steps) :
    Post (runRecord agc split rest m) (fun ran => RecordRun P agc stream split rest m ran.1 ran.2)
      (fun _ m' => WritesPlaced P m m') := by
  unfold runRecord
  split
  · rename_i hkind
    exact ⟨[], Progress.refl m, hready, rfl, fun later horder => .split hkind rfl horder⟩
  · rename_i hkind
    exact recordRun_wave hkind counts hready
  · rename_i hkind
    split
    · exact WritesPlaced.of_trace_eq rfl
    · exact recordRun_one hkind counts hready
  · rename_i kind _ _ hkind
    exact recordRun_one hkind counts hready

theorem Progress.writesPlaced (h : Progress P m m₁ events) : WritesPlaced P m m₁ :=
  ⟨events, h.trace, h.placed⟩

/-- Where a record falls every step is seen finished, and the words before it are handed over. -/
theorem reachSplit_spec (agc : Agc) (hrelease : agc.ReleasesPacket) (submit : List CmdBuffer)
    (base : Nat) (saved : List UInt32) (start offset : Nat) (grouped : Bool)
    (hstart : start ≤ offset) (hoffset : offset ≤ saved.length) (hready : Ready m seen)
    (hroom : m.steps < seen + stepWindow) (hgrouped : grouped = true → Ready m m.steps)
    (hwords : ∀ pos len, base ≤ pos → pos + len ≤ base + saved.length → P pos len)
    (hend : ∀ pos len, base ≤ pos → pos + len ≤ fenceWord → P pos len) :
    Post (reachSplit agc submit base saved start grouped offset m)
      (fun m' => Ready m' m'.steps ∧ m'.retire.Sublist m.retire ∧ ∃ events, Progress P m m' events ∧
          ∀ splits later, InOrder agc saved m'.trace offset splits later →
            InOrder agc saved m.trace start splits (events ++ later)) (fun _ m' => WritesPlaced P m m') := by
  unfold reachSplit
  split
  · rename_i hsame
    obtain ⟨hgroup, rfl⟩ := hsame
    exact ⟨hgrouped hgroup, List.Sublist.refl _, [], Progress.refl m, fun _ _ horder => horder⟩
  · split
    · have hstep := runSavedStep_spec (P := P) agc hrelease submit base saved start offset hstart
        hoffset true hready hroom hwords hend
      refine hstep.mono ?_ fun _ _ h => h
      rintro m' ⟨-, packets, hpackets, hrun, hready', hretire⟩
      obtain ⟨before, after, hprogress, hbefore, hafter⟩ := hrun.progress hready hroom
      refine ⟨hready', hretire, _, hprogress, fun splits later horder => ?_⟩
      rw [hprogress.trace] at horder
      rw [List.append_assoc, List.cons_append]
      refine InOrder.silents hbefore (.step (m.steps + 1) offset packets hstart hoffset hpackets ?_)
      refine InOrder.silents hafter ?_
      simpa only [List.append_assoc, List.cons_append, List.nil_append] using horder
    · rename_i hne
      rw [not_not] at hne
      subst hne
      have hidle := (queueWaitIdle_spec agc hready.toCoherent).and
        (Quiet.queueWaitValue (P := P) agc m.submittedValue m)
      refine hidle.mono ?_ fun _ _ h => h.2.writesPlaced
      rintro m' ⟨⟨hcoh, -, -⟩, hquiet⟩
      obtain ⟨events, hprogress, hsilent⟩ := hquiet.progress hready.toCoherent
      refine ⟨⟨hcoh, by rw [hquiet.marker, hquiet.steps, hready.marker]⟩, hquiet.retire, events,
        hprogress, fun splits later horder => InOrder.silents hsilent ?_⟩
      rwa [← hprogress.trace]

/-- The ranges of the last step are queued behind those kept, which are older than the submission's
first step. -/
def Defers (submit : List CmdBuffer) (m m' : Machine) : Prop :=
  ∃ kept, kept.Sublist m.retire ∧ (kept = [] ∨ m'.steps = m.steps + 1) ∧ m'.retire = kept ++
    deferRanges (markerOf m'.steps) [] (submit.flatMap CmdBuffer.targets)

/-- What running the rest of a stream leaves: a history in program order, at most one more step not
seen finished, and after a last step that nothing waited for its ranges. -/
structure StreamRun (P : Nat → Nat → Prop) (agc : Agc) (submit : List CmdBuffer)
    (stream : List UInt32) (start : Nat) (splits : List CopySplit) (seen : Nat) (m m' : Machine) :
    Prop where
  order : ∃ events, Progress P m m' events ∧ InOrder agc stream m.trace start splits events
  ready : ∃ seen', Ready m' seen' ∧ m'.steps ≤ seen' + (m.steps - seen) + 1
  deferred : start < stream.length → (∀ split ∈ splits, split.offset < stream.length) →
    Defers submit m m'

theorem lt_add_stepWindow (n : Nat) : n < n + stepWindow :=
  Nat.lt_add_of_pos_right (by decide)

/-- The loop over the records runs the rest of the stream in program order. `skip` of the splits
ahead have run with a wave. -/
theorem copyLoop_spec (agc : Agc) (hrelease : agc.ReleasesPacket) (submit : List CmdBuffer)
    (base : Nat) (saved : List UInt32) (hwords : ∀ pos len, base ≤ pos → pos + len ≤ base + saved.length → P pos len)
    (hend : ∀ pos len, base ≤ pos → pos + len ≤ fenceWord → P pos len)
    (splits : List CopySplit) (hsorted : splits.Pairwise fun a b => a.offset ≤ b.offset)
    (hhigh : ∀ split ∈ splits, split.offset ≤ saved.length) (skip start : Nat) (grouped : Bool)
    (hlow : ∀ split ∈ splits, start ≤ split.offset) (hstart : start ≤ saved.length)
    (counts : TraceCounts m) (hready : Ready m seen) (hroom : m.steps < seen + stepWindow)
    (hgrouped : grouped = true → Ready m m.steps) : Post (copyLoop agc submit base saved skip start grouped splits m)
      (fun m' => StreamRun P agc submit saved start (splits.drop skip) seen m m')
      (fun _ m' => WritesPlaced P m m') := by
  induction splits generalizing skip start grouped m seen with
  | nil =>
    unfold copyLoop
    split
    · rename_i hlast
      have hstep := runSavedStep_spec (P := P) agc hrelease submit base saved start saved.length
        hstart (le_refl _) false hready hroom hwords hend
      refine hstep.mono ?_ fun _ _ h => h
      rintro m' ⟨-, packets, hpackets, hrun, kept, hkept, heq⟩
      obtain ⟨before, after, hprogress, hbefore, hafter⟩ := hrun.progress hready hroom
      obtain ⟨seen', hle, hready'⟩ := hrun.ready seen hready hroom
      refine ⟨⟨_, hprogress, ?_⟩, ⟨seen', hready', by rw [hrun.steps]; omega⟩, fun _ _ => ?_⟩
      · rw [List.drop_nil]
        refine InOrder.silents hbefore (.step (m.steps + 1) saved.length packets hstart (le_refl _) hpackets ?_)
        simpa using InOrder.silents hafter .done
      · exact ⟨kept, hkept, Or.inr hrun.steps, by rw [hrun.steps, heq]⟩
    · rename_i hlast
      obtain rfl : start = saved.length := by omega
      exact ⟨⟨[], Progress.refl m, by simpa using .done⟩, ⟨seen, hready, by omega⟩,
        fun hlt => absurd hlt (lt_irrefl _)⟩
  | cons split rest ih =>
    have hsorted' := List.pairwise_cons.mp hsorted
    have hhigh' : ∀ other ∈ rest, other.offset ≤ saved.length :=
      fun other hmem => hhigh other (List.mem_cons_of_mem _ hmem)
    cases skip with
    | succ skip =>
      unfold copyLoop
      exact ih hsorted'.2 hhigh' skip start grouped
        (fun other hmem => hlow other (List.mem_cons_of_mem _ hmem)) hstart counts hready hroom
        hgrouped
    | zero =>
      have hoffset := hhigh split List.mem_cons_self
      have hreach := reachSplit_spec (P := P) agc hrelease submit base saved start split.offset
        grouped (hlow split List.mem_cons_self) hoffset hready hroom hgrouped hwords hend
      unfold copyLoop
      refine Post.bind hreach ?_
      rintro m₁ ⟨hready₁, hretire₁, events₁, hprogress₁, horder₁⟩
      refine Post.bind ((runRecord_spec agc saved (hprogress₁.counts counts) hready₁).mono
        (fun _ h => h) fun _ _ h => hprogress₁.writesPlaced.trans h) ?_
      rintro ⟨taken, m₂⟩ ⟨events₂, hprogress₂, hready₂, hretire₂, horder₂⟩
      have hprogress := hprogress₁.trans hprogress₂
      have hloop := ih hsorted'.2 hhigh' taken split.offset true hsorted'.1 hoffset
        (hprogress.counts counts) hready₂ (lt_add_stepWindow _) fun _ => hready₂
      refine hloop.mono ?_ fun _ _ h => hprogress.writesPlaced.trans h
      rintro m' ⟨⟨events₃, hprogress₃, horder₃⟩, ⟨seen', hready', hsteps'⟩, hdefer⟩
      refine ⟨⟨_, hprogress.trans hprogress₃, ?_⟩, ⟨seen', hready', by omega⟩, ?_⟩
      · rw [List.append_assoc]
        exact horder₁ _ _ (horder₂ _ horder₃)
      · intro _ hoffsets
        obtain ⟨kept, hkept, -, heq⟩ := hdefer (hoffsets split (by simp))
          fun other hmem => hoffsets other
            (List.mem_cons_of_mem _ (List.mem_of_mem_drop hmem))
        have hnone : kept = [] := by
          rw [hready₂.retire_eq_nil] at hkept
          exact List.sublist_nil.1 hkept
        exact ⟨kept, hkept.trans (hretire₂ ▸ hretire₁), Or.inl hnone, heq⟩

/-- The splits of command buffers fall into their part of the stream, in order. -/
theorem bodySplits_sorted (agc : Agc) (submit : List CmdBuffer) (start : Nat) (fence : UInt32) :
    (bodySplits submit start).Pairwise (fun a b => a.offset ≤ b.offset) ∧ ∀ split ∈ bodySplits submit start,
        start ≤ split.offset ∧ split.offset ≤ start + (bodyStream agc submit fence).length := by
  induction submit generalizing start fence with
  | nil => simp [bodySplits]
  | cons cb rest ih =>
    obtain ⟨hsorted, hrange⟩ := ih (start + partCount cb rest.head?) (partFence cb rest.head? fence)
    have hpart : ∀ split ∈ partSplits cb start,
        start ≤ split.offset ∧ split.offset ≤ start + partCount cb rest.head? := by
      intro split hmem
      obtain ⟨copy, -, rfl⟩ := List.mem_map.mp hmem
      unfold partCount
      dsimp only
      omega
    refine ⟨?_, fun split hmem => ?_⟩
    · rw [bodySplits, List.pairwise_append]
      refine ⟨?_, hsorted, fun first hfirst second hsecond =>
        (hpart first hfirst).2.trans (hrange second hsecond).1⟩
      exact (List.pairwise_map).mpr (cb.copies_sorted.imp fun hle => by dsimp only; omega)
    · rw [bodyStream, List.length_append, length_partWords]
      rcases List.mem_append.mp hmem with hmem | hmem
      · have := hpart split hmem
        omega
      · have := hrange split hmem
        omega

end Ps5Vulkan.Queue
