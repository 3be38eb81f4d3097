import Ps5Vulkan.Queue.Ring

/-!
# Deferred ranges

After a last step that nothing waits for the queue keeps the ranges of the submission's targets
(`ps5vk_queue_defer_targets`), and a wait for a range of memory waits for the newest step that kept
an overlapping one (`ps5vk_queue_wait_range`). Which targets are kept is decided by two tests: one
of the target's own flags, and one that an entry of the same range came before. The second does not
ask whether that entry passed the first, so a target is kept exactly if the first entry of its range
passes.
-/

namespace Ps5Vulkan.Queue

open Outcome

attribute [local irreducible] pollUntil

section Wait

/-- Whether a kept range touches the `bytes` from `low` on, in 64-bit addresses. -/
def RetireRange.overlaps (low bytes : Nat) (range : RetireRange) : Bool :=
  decide (range.address < (low + bytes) % 2 ^ 64) &&
    decide (low < (range.address + range.bytes) % 2 ^ 64)

/-- The newest value among the overlapping ranges, after those that left `found`. -/
def newestOverlap (low bytes : Nat) : List RetireRange → Option UInt32 → Option UInt32
  | [], found => found
  | range :: ranges, found =>
    if range.overlaps low bytes && found.all (markerReached range.value) then
      newestOverlap low bytes ranges (some range.value)
    else newestOverlap low bytes ranges found

/-- `ps5vk_queue_wait_range`. -/
def queueWaitRange (agc : Agc) (low bytes : Nat) (m : Machine) :
    Except (Failure × Machine) Machine :=
  match newestOverlap low bytes m.retire none with
  | none => .ok m
  | some value => queueWaitValue agc value m

/-- Two ranges of memory have a byte in common. An object of memory ends below the last address. -/
structure Overlap (low bytes start length : Nat) : Prop where
  byte : ∃ byte, low ≤ byte ∧ byte < low + bytes ∧ start ≤ byte ∧ byte < start + length
  low_end : low + bytes < 2 ^ 64
  start_end : start + length < 2 ^ 64

theorem Overlap.overlaps {low bytes : Nat} {range : RetireRange}
    (h : Overlap low bytes range.address range.bytes) : range.overlaps low bytes = true := by
  obtain ⟨byte, hlow, hbytes, hstart, hlength⟩ := h.byte
  simp only [RetireRange.overlaps, Nat.mod_eq_of_lt h.low_end, Nat.mod_eq_of_lt h.start_end,
    Bool.and_eq_true, decide_eq_true_eq]
  omega

/-- The value is of a step in the window after `first`. -/
def InWindow (first last : Nat) (value : UInt32) : Prop :=
  ∃ step, first < step ∧ step ≤ last ∧ value = markerOf step

/-- The value found is of a step no older than any found before or overlapping. -/
theorem newestOverlap_spec {low bytes first last : Nat} (hwide : last - first + 1 < 2 ^ 31)
    (ranges : List RetireRange) (hranges : ∀ range ∈ ranges, InWindow first last range.value)
    (found : Option UInt32) (hfound : ∀ value ∈ found, InWindow first last value) {step : Nat}
    (hfirst : first < step) (hlast : step ≤ last) (hstep : found = some (markerOf step) ∨
      ∃ range ∈ ranges, range.overlaps low bytes = true ∧ range.value = markerOf step) :
    ∃ newest, step ≤ newest ∧ newest ≤ last ∧ newestOverlap low bytes ranges found = some (markerOf newest) := by
  induction ranges generalizing found step with
  | nil =>
    rcases hstep with rfl | ⟨range, hmem, -⟩
    · exact ⟨step, le_refl _, hlast, rfl⟩
    · cases hmem
  | cons range ranges ih =>
    have hranges' : ∀ other ∈ ranges, InWindow first last other.value :=
      fun other hmem => hranges other (List.mem_cons_of_mem _ hmem)
    obtain ⟨own, hown, hown', hvalue⟩ := hranges range List.mem_cons_self
    unfold newestOverlap
    by_cases htaken : (range.overlaps low bytes && found.all (markerReached range.value)) = true
    · rw [if_pos htaken]
      have hnew : ∀ value ∈ some range.value, InWindow first last value := by
        rintro value ⟨⟩
        exact ⟨own, hown, hown', hvalue⟩
      rcases hstep with rfl | ⟨other, hmem, hover, hother⟩
      · -- The one found before is no newer than the one that takes its place.
        have hreached : markerReached (markerOf own) (markerOf step) = true := by
          simp only [Option.all_some, Bool.and_eq_true, hvalue] at htaken
          exact htaken.2
        have hle : step ≤ own := by
          by_contra hlt
          exact hlt (eq_of_markerReached (Nat.le_of_not_le hlt) (by omega) hreached).ge
        obtain ⟨newest, hnewest, hrest⟩ := ih hranges' _ hnew hown hown' (Or.inl (by rw [hvalue]))
        exact ⟨newest, hle.trans hnewest, hrest⟩
      · rcases List.mem_cons.1 hmem with rfl | hmem
        · exact ih hranges' _ hnew hfirst hlast (Or.inl (by rw [hother]))
        · exact ih hranges' _ hnew hfirst hlast (Or.inr ⟨other, hmem, hover, hother⟩)
    · rw [if_neg htaken]
      rcases hstep with rfl | ⟨other, hmem, hover, hother⟩
      · exact ih hranges' _ hfound hfirst hlast (Or.inl rfl)
      · rcases List.mem_cons.1 hmem with rfl | hmem
        · -- It was passed over for a newer one.
          cases found with
          | none => simp [hover] at htaken
          | some value =>
            obtain ⟨kept, hkept, hkept', rfl⟩ := hfound value rfl
            have hle : step ≤ kept := by
              by_contra hlt
              apply htaken
              simp only [hover, hother, Option.all_some, Bool.true_and]
              exact markerReached_of_le (by omega) (by omega)
            obtain ⟨newest, hnewest, hrest⟩ :=
              ih hranges' _ hfound hkept hkept' (Or.inl rfl)
            exact ⟨newest, hle.trans hnewest, hrest⟩
        · exact ih hranges' _ hfound hfirst hlast (Or.inr ⟨other, hmem, hover, hother⟩)

/-- A wait for a range only waits. -/
theorem waits_queueWaitRange (agc : Agc) (low bytes : Nat) (m : Machine) :
    Post (queueWaitRange agc low bytes m) (Waits m) fun _ m' => Waits m m' := by
  unfold queueWaitRange
  split
  · exact Waits.refl m
  · exact waits_queueWaitValue agc _ m

/-- A wait for a range that returns has seen finished every step that keeps an overlapping one. -/
theorem queueWaitRange_spec (agc : Agc) {m : Machine} {seen step low bytes : Nat}
    (h : Coherent m seen) {range : RetireRange} (hmem : range ∈ m.retire)
    (hover : range.overlaps low bytes = true) (hstep : step ≤ m.steps) (hvalue : range.value = markerOf step) :
    Post (queueWaitRange agc low bytes m) (fun m' => step ≤ m'.finished) fun _ _ => True := by
  by_cases hnew : seen < step
  · have hwindow := h.window
    have hwide := stepWindow_lt
    obtain ⟨newest, hnewest, hlast, hfound⟩ := newestOverlap_spec (by omega) m.retire h.retire
      none nofun hnew hstep (Or.inr ⟨range, hmem, hover, hvalue⟩)
    unfold queueWaitRange
    rw [hfound]
    refine (queueWaitValue_spec agc h hlast).mono ?_ fun _ _ _ => trivial
    rintro m' ⟨seen', -, hcoh, -, hdone⟩
    exact hnewest.trans (hdone.trans hcoh.seen_le)
  · refine (waits_queueWaitRange agc low bytes m).mono (fun m' hwaits => ?_) fun _ _ _ => trivial
    have hseen := h.seen_le
    exact (Nat.le_of_not_lt hnew).trans (hseen.trans hwaits.finished_le)

end Wait

section Later

/-- The queue went on, and a range it no longer keeps is of a finished step. -/
structure Keeps (m m' : Machine) : Prop where
  steps_le : m.steps ≤ m'.steps
  finished_le : m.finished ≤ m'.finished
  kept : ∀ range ∈ m.retire, ∀ step ≤ m.steps, range.value = markerOf step →
    range ∈ m'.retire ∨ step ≤ m'.finished

theorem Keeps.refl (m : Machine) : Keeps m m :=
  ⟨le_refl _, le_refl _, fun _ hmem _ _ _ => Or.inl hmem⟩

theorem Keeps.trans {m₁ m₂ m₃ : Machine} (h : Keeps m₁ m₂) (h' : Keeps m₂ m₃) : Keeps m₁ m₃ := by
  refine ⟨h.steps_le.trans h'.steps_le, h.finished_le.trans h'.finished_le, ?_⟩
  intro range hmem step hstep hvalue
  rcases h.kept range hmem step hstep hvalue with hmem₂ | hfin
  · exact h'.kept range hmem₂ step (hstep.trans h.steps_le) hvalue
  · exact Or.inr (hfin.trans h'.finished_le)

variable {agc : Agc} {m m' : Machine} {submit : List CmdBuffer} {seen : Nat}

theorem Quiet.keeps {P : Nat → Nat → Prop} (h : Quiet P m m') (hcoh : Coherent m seen) : Keeps m m' :=
  ⟨h.steps.ge, h.finished_le, h.kept seen hcoh⟩

theorem Assembled.keeps {P : Nat → Nat → Prop} {m₀ : Machine} {a : Assembly}
    {stream : List UInt32} (h : Assembled P agc submit m m₀ a stream) (hcoh : Coherent m seen) : Keeps m a.machine := by
  obtain ⟨seen₀, -, hcoh₀⟩ := h.placed.quiet.coherent seen hcoh
  exact (h.placed.quiet.keeps hcoh).trans (h.quiet.keeps hcoh₀)

theorem Sound.keeps_run (h : Sound m) (hrelease : agc.ReleasesPacket)
    (hrun : Queue.queueRun agc submit m = .ok m') : Keeps m m' := by
  obtain ⟨seen, hready, -⟩ := h.ready
  obtain ⟨m₀, a, stream, seen₁, hasm, -, -, hsubmission, -⟩ := h.submitted hrelease hrun
  obtain ⟨events, hprogress, -⟩ := hsubmission.order
  have hsteps : Keeps a.machine m' := ⟨hprogress.steps_le, hprogress.finished_le, hprogress.kept⟩
  exact (hasm.keeps hready.toCoherent).trans hsteps

theorem Sound.keeps_refused (h : Sound m) {reason : Failure} (hrun : Queue.queueRun agc submit m = .error (reason, m'))
    (hreason : reason = .outOfDeviceMemory ∨ reason = .outOfHostMemory) : Keeps m m' := by
  obtain ⟨seen, hready, -⟩ := h.ready
  rcases refused_cases hready.toCoherent hrun hreason with
    ⟨m₀, hquiet₀, hquiet⟩ | ⟨m₀, a, stream, hasm, rfl⟩
  · obtain ⟨seen₀, -, hcoh₀⟩ := hquiet₀.coherent seen hready.toCoherent
    exact (hquiet₀.keeps hready.toCoherent).trans (hquiet.keeps hcoh₀)
  · have hkeeps := hasm.keeps hready.toCoherent
    exact ⟨hkeeps.steps_le, hkeeps.finished_le, hkeeps.kept⟩

/-- The queues that polls and submissions lead to from `m`. -/
inductive After (agc : Agc) (m : Machine) : Machine → Prop
  | refl : After agc m m
  | poll {m' : Machine} (h : After agc m m') : After agc m (queuePoll m')
  | run {m' m'' : Machine} {submit : List CmdBuffer} (h : After agc m m')
      (hrun : queueRun agc submit m' = .ok m'') : After agc m m''
  | refused {m' m'' : Machine} {submit : List CmdBuffer} {reason : Failure} (h : After agc m m')
      (hrun : queueRun agc submit m' = .error (reason, m''))
      (hreason : reason = .outOfDeviceMemory ∨ reason = .outOfHostMemory) : After agc m m''

theorem After.reachable (h : After agc m m') (hm : Reachable agc m) : Reachable agc m' := by
  induction h with
  | refl => exact hm
  | poll _ ih => exact .poll ih
  | run _ hrun ih => exact .run ih hrun
  | refused _ hrun hreason ih => exact .refused ih hrun hreason

theorem After.keeps (h : After agc m m') (hrelease : agc.ReleasesPacket) (hm : Reachable agc m) : Keeps m m' := by
  induction h with
  | refl => exact Keeps.refl m
  | poll h ih =>
    obtain ⟨seen, hready, -⟩ := ((h.reachable hm).sound hrelease).ready
    exact ih.trans ((Quiet.queuePoll _ : Quiet (fun _ _ => True) _ _).keeps hready.toCoherent)
  | run h hrun ih => exact ih.trans (((h.reachable hm).sound hrelease).keeps_run hrelease hrun)
  | refused h hrun hreason ih =>
    exact ih.trans (((h.reachable hm).sound hrelease).keeps_refused hrun hreason)

/-- A wait for memory that overlaps a range the queue once kept for a step returns only when the
step is finished. -/
theorem After.waitRange (h : After agc m m') (hrelease : agc.ReleasesPacket) (hm : Reachable agc m)
    {range : RetireRange} (hmem : range ∈ m.retire) {step : Nat} (hstep : step ≤ m.steps)
    (hvalue : range.value = markerOf step) {low bytes : Nat} (hover : Overlap low bytes range.address range.bytes) :
    Post (queueWaitRange agc low bytes m') (fun m'' => step ≤ m''.finished) fun _ _ => True := by
  have hkeeps := h.keeps hrelease hm
  rcases hkeeps.kept range hmem step hstep hvalue with hkept | hfin
  · obtain ⟨seen, hready, -⟩ := ((h.reachable hm).sound hrelease).ready
    exact queueWaitRange_spec agc hready.toCoherent hkept hover.overlaps (hstep.trans hkeeps.steps_le) hvalue
  · exact (waits_queueWaitRange agc low bytes m').mono
      (fun _ hwaits => hfin.trans hwaits.finished_le) fun _ _ _ => trivial

/-- A poll evicts a range when its step has finished and not before, and a wait for all of the queue returns with every
step finished and nothing left to evict. -/
theorem Reachable.retires (hrelease : agc.ReleasesPacket) (hm : Reachable agc m) :
    (∀ range, range ∈ (queuePoll m).retire ↔ range ∈ m.retire ∧
      ∃ step, (queuePoll m).finished < step ∧ step ≤ m.steps ∧ range.value = markerOf step) ∧
    ∀ m', queueWaitIdle agc m = .ok m' → m'.finished = m'.steps ∧ m'.retire = [] := by
  obtain ⟨seen, hready, -⟩ := (hm.sound hrelease).ready
  constructor
  · intro range
    have hpoll := hready.toCoherent.queuePoll
    rw [mem_retire_queuePoll]
    refine and_congr_right fun hmem => ⟨fun hkept => hpoll.retire range (mem_retire_queuePoll.mpr ⟨hmem, hkept⟩), ?_⟩
    rintro ⟨step, hlt, hle, hvalue⟩
    exact Bool.eq_false_iff.mpr fun hreached => hlt.not_ge (hpoll.le_of_reached hle (hvalue ▸ hreached))
  · intro m' hwait
    rw [queueWaitIdle, hready.submitted] at hwait
    obtain ⟨seen', -, hcoh, hwaits, hle⟩ := (queueWaitValue_spec agc hready.toCoherent le_rfl).of_eq_ok hwait
    obtain rfl : seen' = m'.steps := le_antisymm (hcoh.seen_le.trans hcoh.finished_le) (hwaits.steps ▸ hle)
    exact ⟨le_antisymm hcoh.finished_le hcoh.seen_le, hcoh.retire_eq_nil⟩

end Later

section Targets

/-- Whether the other target is of the same range. -/
def RenderTarget.sameRange (target other : RenderTarget) : Bool :=
  other.address == target.address && other.bytes == target.bytes

theorem RenderTarget.sameRange_iff {target other : RenderTarget} :
    target.sameRange other = true ↔ other.address = target.address ∧ other.bytes = target.bytes := by
  simp [sameRange]

theorem mem_deferRanges_cons {value : UInt32} {range : RetireRange} {first : RenderTarget}
    {earlier targets : List RenderTarget} : range ∈ deferRanges value earlier (first :: targets) ↔
      (first.evicted = true ∧ earlier.any first.sameRange = false ∧ range = ⟨value, first.address, first.bytes⟩) ∨
      range ∈ deferRanges value (earlier ++ [first]) targets := by
  rw [deferRanges]
  split
  · rename_i htaken
    have hpasses : first.evicted = true ∧ earlier.any first.sameRange = false := by
      simpa [targetAlreadyFlushed, RenderTarget.sameRange] using htaken
    simp only [List.mem_cons, hpasses, true_and]
  · rename_i hskipped
    have hfails : ¬(first.evicted = true ∧ earlier.any first.sameRange = false) := by
      simpa [targetAlreadyFlushed, RenderTarget.sameRange] using hskipped
    rw [← and_assoc]
    simp only [hfails, false_and, false_or]

/-- The queued ranges are those of the targets that pass both tests. -/
theorem mem_deferRanges {value : UInt32} {range : RetireRange} {earlier targets : List RenderTarget} :
    range ∈ deferRanges value earlier targets ↔
      ∃ before target after, targets = before ++ target :: after ∧ target.evicted = true ∧
        (earlier ++ before).any target.sameRange = false ∧ range = ⟨value, target.address, target.bytes⟩ := by
  induction targets generalizing earlier with
  | nil => simp [deferRanges]
  | cons first targets ih =>
    rw [mem_deferRanges_cons, ih]
    constructor
    · rintro (⟨hevicted, hfresh, hrange⟩ |
        ⟨before, target, after, rfl, hevicted, hfresh, hrange⟩)
      · exact ⟨[], first, targets, rfl, hevicted, by rwa [List.append_nil], hrange⟩
      · exact ⟨first :: before, target, after, rfl, hevicted, by simpa using hfresh, hrange⟩
    · rintro ⟨before, target, after, hsplit, hevicted, hfresh, hrange⟩
      cases before with
      | nil =>
        obtain ⟨rfl, rfl⟩ := List.cons.inj hsplit
        exact Or.inl ⟨hevicted, by rwa [List.append_nil] at hfresh, hrange⟩
      | cons other before =>
        obtain ⟨rfl, rfl⟩ := List.cons.inj hsplit
        exact Or.inr ⟨before, target, after, rfl, hevicted, by simpa using hfresh, hrange⟩

/-- Whether the first entry of the target's range passes the test of the flags. -/
def firstEvicted (targets : List RenderTarget) (target : RenderTarget) : Bool :=
  (targets.find? target.sameRange).any RenderTarget.evicted

/-- A target's range is queued exactly if the first entry of the range passes. -/
theorem mem_deferRanges_iff_firstEvicted {value : UInt32} {targets : List RenderTarget}
    {target : RenderTarget} : ⟨value, target.address, target.bytes⟩ ∈ deferRanges value [] targets ↔
      firstEvicted targets target = true := by
  have hsame : ∀ first : RenderTarget, target.sameRange first = true →
      first.sameRange = target.sameRange := by
    intro first h
    obtain ⟨haddress, hbytes⟩ := RenderTarget.sameRange_iff.1 h
    funext other
    simp only [RenderTarget.sameRange, haddress, hbytes]
  rw [mem_deferRanges, firstEvicted, Option.any_eq_true]
  constructor
  · rintro ⟨before, first, after, rfl, hevicted, hfresh, hrange⟩
    have hfirst : target.sameRange first = true := by
      injection hrange with _ haddress hbytes
      exact RenderTarget.sameRange_iff.2 ⟨haddress.symm, hbytes.symm⟩
    rw [hsame first hfirst] at hfresh
    refine ⟨first, List.find?_eq_some_iff_append.2 ⟨hfirst, before, after, rfl, ?_⟩, hevicted⟩
    simpa using hfresh
  · rintro ⟨first, hfind, hevicted⟩
    obtain ⟨hfirst, before, after, rfl, hfresh⟩ := List.find?_eq_some_iff_append.1 hfind
    obtain ⟨haddress, hbytes⟩ := RenderTarget.sameRange_iff.1 hfirst
    refine ⟨before, first, after, rfl, hevicted, ?_, by rw [haddress, hbytes]⟩
    rw [hsame first hfirst]
    simpa using hfresh

end Targets

section Submission

/-- The words of command buffers' parts. -/
def bodyCount : List CmdBuffer → Nat
  | [] => 0
  | cb :: rest => partCount cb rest.head? + bodyCount rest

theorem length_bodyStream (agc : Agc) (submit : List CmdBuffer) (fence : UInt32) :
    (bodyStream agc submit fence).length = bodyCount submit := by
  induction submit generalizing fence with
  | nil => rfl
  | cons cb rest ih => rw [bodyStream, List.length_append, length_partWords, ih, bodyCount]

/-- Words follow every record of the submission, so that nothing waits for its last step. -/
def endsWithWords (submit : List CmdBuffer) : Bool :=
  (bodySplits submit 0).all fun split => decide (split.offset < bodyCount submit)

/-- Every target that passes the test of the flags has a range whose first entry passes it. -/
def firstsEvicted (targets : List RenderTarget) : Bool :=
  targets.all fun target => !target.evicted || firstEvicted targets target

variable {agc : Agc} {m m' : Machine} {submit : List CmdBuffer}

/-- A submission that ends with words defers the ranges of its last step. -/
theorem Submitted.defers {P : Nat → Nat → Nat → Prop} (h : Submitted P agc submit m m')
    (hlast : endsWithWords submit = true) : ∃ m₁ seen, Coherent m₁ seen ∧ Defers submit m₁ m' := by
  obtain ⟨m₀, a, stream, seen, hasm, hready, -, hsubmission, -⟩ := h
  obtain ⟨first, -, rfl, hsplits⟩ := hasm.parts
  refine ⟨a.machine, seen, hready.toCoherent, hsubmission.deferred ?_⟩
  rw [hsplits]
  intro split hmem
  have hshift := bodySplits_add submit 0 first.length
  rw [Nat.zero_add] at hshift
  rw [hshift] at hmem
  obtain ⟨own, hown, rfl⟩ := List.mem_map.1 hmem
  have hinside : own.offset < bodyCount submit := by
    simpa using List.all_eq_true.1 hlast own hown
  rw [List.length_append, length_bodyStream]
  dsimp only
  omega

/-- The value of the last step is on no range kept from before. -/
theorem Defers.mem_retire_iff {m₁ : Machine} {seen : Nat} (h : Defers submit m₁ m')
    (hcoh : Coherent m₁ seen) {address bytes : Nat} :
    ⟨markerOf m'.steps, address, bytes⟩ ∈ m'.retire ↔ ⟨markerOf m'.steps, address, bytes⟩ ∈
        deferRanges (markerOf m'.steps) [] (submit.flatMap CmdBuffer.targets) := by
  obtain ⟨kept, hkept, hsteps, hretire⟩ := h
  have hold : (⟨markerOf m'.steps, address, bytes⟩ : RetireRange) ∉ kept := by
    intro hmem
    rcases hsteps with rfl | hsteps
    · cases hmem
    · obtain ⟨step, hseen, hstep, hvalue⟩ := hcoh.retire _ (hkept.subset hmem)
      have hwindow := hcoh.window
      have hwide := stepWindow_lt
      dsimp only at hvalue
      have heq := eq_of_markerReached (show step ≤ m'.steps by omega) (by omega)
        (by rw [hvalue]; exact markerReached_self _)
      omega
  rw [hretire, List.mem_append]
  simp only [hold, false_or]

/-- The target's range is queued with the last step's value, and whenever afterwards memory that
overlaps the target is waited for, the wait returns only when that step is finished. -/
structure Deferred (agc : Agc) (m : Machine) (target : RenderTarget) : Prop where
  queued : ⟨m.markerValue, target.address, target.bytes⟩ ∈ m.retire
  waited : ∀ m', After agc m m' → ∀ low bytes, Overlap low bytes target.address target.bytes →
    ∀ m'', queueWaitRange agc low bytes m' = .ok m'' → m.steps ≤ m''.finished

/-- After a submission of a reachable queue that nothing waits for, the targets the CPU can have
cached are all deferred exactly if the first entry of each of their ranges is such a target. -/
theorem deferred_iff_firsts_evicted (hrelease : agc.ReleasesPacket) (hm : Reachable agc m)
    (submit : List CmdBuffer) (hlast : endsWithWords submit = true)
    (hrun : queueRun agc submit m = .ok m') :
    (∀ target ∈ submit.flatMap CmdBuffer.targets, target.evicted = true →
      Deferred agc m' target) ↔
      firstsEvicted (submit.flatMap CmdBuffer.targets) = true := by
  have hm' : Reachable agc m' := .run hm hrun
  obtain ⟨seen, hready, -⟩ := (hm'.sound hrelease).ready
  obtain ⟨m₁, seen₁, hcoh₁, hdefers⟩ := ((hm.sound hrelease).submitted hrelease hrun).defers hlast
  have hqueued : ∀ target : RenderTarget,
      ⟨m'.markerValue, target.address, target.bytes⟩ ∈ m'.retire ↔
        firstEvicted (submit.flatMap CmdBuffer.targets) target = true := by
    intro target
    rw [hready.marker, hdefers.mem_retire_iff hcoh₁, mem_deferRanges_iff_firstEvicted]
  rw [firstsEvicted, List.all_eq_true]
  constructor
  · intro h target hmem
    cases hevicted : target.evicted with
    | false => rfl
    | true => simpa using (hqueued target).1 (h target hmem hevicted).queued
  · intro h target hmem hevicted
    have hfirst : firstEvicted (submit.flatMap CmdBuffer.targets) target = true := by
      simpa [hevicted] using h target hmem
    have hmem' := (hqueued target).2 hfirst
    refine ⟨hmem', fun m₂ hafter low bytes hover m₃ hwait => ?_⟩
    exact (hafter.waitRange hrelease hm' hmem' (le_refl _) hready.marker hover).of_eq_ok hwait

end Submission

section Queries

/-- The counters of a query pool in memory. -/
structure QueryPool where
  address : Nat
  bytes : Nat

/-- The target an occlusion or timestamp sample registers (`ps5vk_cmd_buffer_occlusion_sample`,
`ps5vk_cmd_buffer_timestamp_sample`). -/
def QueryPool.sampled (pool : QueryPool) : RenderTarget where
  memory := none
  always := true
  address := pool.address
  bytes := pool.bytes
  video := -1
  bufferIndex := ⟨0, swapchainImages_pos⟩

/-- The target `ps5vk_CmdCopyQueryPoolResults` registers. -/
def QueryPool.copied (pool : QueryPool) : RenderTarget where
  memory := none
  always := false
  address := pool.address
  bytes := pool.bytes
  video := -1
  bufferIndex := ⟨0, swapchainImages_pos⟩

/-- A pool of one query. -/
def onePool : QueryPool := ⟨0x20000, 16⟩

/-- The record of a copy of the pool's results before any word. -/
def resultsRecord : MemoryCopy :=
  { fillRecord 0 with bytes := 0, fill := false, query := true }

/-- A command buffer of one timestamp, with these records and targets. -/
def timestampBuffer (copies : List MemoryCopy) (targets : List RenderTarget)
    (hsorted : copies.Pairwise fun first second => first.afterWords ≤ second.afterWords) :
    CmdBuffer where
  words := timestampPacket onePool.address
  copies := copies
  fencePatches := []
  targets := targets
  samplesEarly := false
  patches_fit := by simp
  copies_sorted := hsorted

/-- A timestamp into the pool. -/
def sampleBuffer : CmdBuffer := timestampBuffer [] [onePool.sampled] CmdBuffer.noCopies_sorted

/-- A copy of the pool's results, then a timestamp into it. -/
def copyThenSample : CmdBuffer :=
  timestampBuffer [resultsRecord] [onePool.copied, onePool.sampled] (by simp)

theorem deferred_iff_firsts_evicted_sample :
    ∃ m', queueRun plainAgc [sampleBuffer] (.init []) = .ok m' ∧ m'.steps = 1 ∧
      Deferred plainAgc m' onePool.sampled := by
  obtain ⟨m', hrun, hsteps⟩ := exists_ok (queueRun plainAgc [sampleBuffer] (.init []))
    (P := fun m => m.steps = 1) (by decide +kernel)
  exact ⟨m', hrun, hsteps, (deferred_iff_firsts_evicted plainAgc_releasesPacket (.init [])
    [sampleBuffer] (by decide) hrun).2 (by decide) onePool.sampled (by decide) rfl⟩

/-- The sample's range is kept while its step runs, and evicted by the poll that sees the step finished. -/
theorem retires_sample :
    ∃ m, queueRun plainAgc [sampleBuffer] (.init [0, 0, 1]) = .ok m ∧ m.retire = [⟨1, 0x20000, 16⟩] ∧
      ⟨1, 0x20000, 16⟩ ∈ (queuePoll m).retire ∧ (queuePoll (queuePoll m)).retire = [] := by
  obtain ⟨m, hrun, hretire, hsteps, hrunning, hfinished⟩ := exists_ok (queueRun plainAgc [sampleBuffer] (.init [0, 0, 1]))
    (P := fun m => m.retire = [⟨1, 0x20000, 16⟩] ∧ m.steps = 1 ∧ (queuePoll m).finished = 0 ∧
      (queuePoll (queuePoll m)).finished = 1) (by decide +kernel)
  have hm : Reachable plainAgc m := .run (.init _) hrun
  refine ⟨m, hrun, hretire, ?_, List.eq_nil_iff_forall_not_mem.mpr fun range hkept => ?_⟩
  · refine ((Reachable.retires plainAgc_releasesPacket hm).1 _).mpr ⟨?_, 1, ?_, hsteps.ge, rfl⟩
    · rw [hretire]
      exact List.mem_cons_self
    · rw [hrunning]
      exact Nat.one_pos
  · obtain ⟨-, step, hlt, hle, -⟩ := ((Reachable.retires plainAgc_releasesPacket (.poll hm)).1 range).mp hkept
    have hsame : (queuePoll m).steps = m.steps := rfl
    omega

/-- The copy's entry hides the sample's: nothing is queued, and a wait for the pool's memory returns
at once while the step that writes it is running. -/
theorem copyThenSample_not_deferred :
    ∃ m', queueRun plainAgc [copyThenSample] (.init []) = .ok m' ∧
      endsWithWords [copyThenSample] = true ∧ onePool.sampled ∈ copyThenSample.targets ∧
      onePool.sampled.evicted = true ∧ ¬Deferred plainAgc m' onePool.sampled ∧
      queueWaitRange plainAgc onePool.address onePool.bytes m' = .ok m' ∧
      m'.finished < m'.steps := by
  obtain ⟨m', hrun, hretire, hfinished, hsteps⟩ := exists_ok (queueRun plainAgc [copyThenSample] (.init []))
    (P := fun m => m.retire = [] ∧ m.finished = 0 ∧ m.steps = 1) (by decide +kernel)
  refine ⟨m', hrun, by decide, by decide, rfl, fun h => ?_, ?_, by omega⟩
  · have hqueued := h.queued
    rw [hretire] at hqueued
    cases hqueued
  · unfold queueWaitRange
    rw [hretire]
    rfl

end Queries

end Ps5Vulkan.Queue
