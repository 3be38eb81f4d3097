import Ps5Vulkan.Queue.Stream

/-!
# Running a submission's steps

One step of the stream with its end packets (`ps5vk_queue_run_step`), the steps and records of a
split submission (`ps5vk_queue_run_copy_steps`) and the whole of a submission
(`ps5vk_queue_run`).

## Implementation notes

The loop over the splits is written one record at a time: `grouped` says that the step which ends
where the record falls has run, which is the inner loop's condition, and `skip` counts the records a
wave of blits took ahead. The debug capture of the steps and the profile's counters are left out.
-/

variable (agc : Agc) (submit : List CmdBuffer)

namespace Ps5Vulkan.Queue

/-- Whether the CPU can have the target cached outside the driver's own paths. -/
def RenderTarget.evicted (target : RenderTarget) : Bool :=
  target.always || target.memory.any DeviceMemory.hostMapped

/-- `ps5vk_target_already_flushed`, given the targets registered before this one. -/
def targetAlreadyFlushed (earlier : List RenderTarget) (target : RenderTarget) : Bool :=
  earlier.any fun other => other.address == target.address && other.bytes == target.bytes

/-- The ranges `ps5vk_queue_defer_targets` appends. -/
def deferRanges (value : UInt32) : List RenderTarget → List RenderTarget → List RetireRange
  | _, [] => []
  | earlier, target :: targets =>
    if target.evicted && !targetAlreadyFlushed earlier target then
      ⟨value, target.address, target.bytes⟩ :: deferRanges value (earlier ++ [target]) targets
    else deferRanges value (earlier ++ [target]) targets

/-- `ps5vk_queue_defer_targets`. -/
def queueDeferTargets (value : UInt32) (m : Machine) : Machine :=
  { m with retire := m.retire ++ deferRanges value [] (submit.flatMap CmdBuffer.targets) }

/-- The profile's end stamp, and where the words after it go. -/
def endStamp (top up : Nat) (m : Machine) : Except (Failure × Machine) (Nat × Machine) :=
  match agc.stamps with
  | none => .ok (up, m)
  | some stamps =>
    if up + 8 > top then .error (.lost, m)
    else .ok (up + 8, m.poke up (timestampPacket (stamps + 16)))

/-- A step's end packets: the end stamp, the barrier and the completion, and where they end. -/
def endPackets (top up : Nat) (value : UInt32) (m : Machine) :
    Except (Failure × Machine) (Nat × Machine) := do
  let (up, m) ← endStamp agc top up m
  match agc.releaseMem (top - up) with
  | none => .error (.lost, m)
  | some barrier =>
    let m := m.poke up barrier
    let completion := up + barrier.length
    if completion + 8 > top then .error (.lost, m)
    else .ok (completion + 8, m.poke completion (completionWords agc.markerAddress value))

/-- The words from `first` up to `past` handed to the GPU. -/
def submitDcb (first past : Nat) (value : UInt32) (m : Machine) :
    Except (Failure × Machine) Machine :=
  let m := { m with submittedValue := value }
  if ¬agc.submitDcb m.trace.length then .error (.lost, m)
  else
    let words := WordBuffer.read m.buffer first (past - first)
    let m := { m with
      steps := m.steps + 1
      trace := m.trace ++ [.submit (m.steps + 1) words] }
    if ¬agc.suspendPoint m.trace.length then .error (.lost, m) else .ok m

/-- The wait for a step's marker: a bounded spin, then up to two seconds of sleeping polls. -/
def waitStep (value : UInt32) (m : Machine) : Except (Failure × Machine) Machine :=
  let m := (pollUntil value (agc.spinPolls + 1) m).2
  match pollUntil value markerPolls m with
  | (true, m) => .ok m
  | (false, m) => .error (.lost, m)

/-- `ps5vk_queue_run_step`: the words `[start, stop)` of the stream at `base`. -/
def queueRunStep (base start stop : Nat) (wait : Bool)
    (m : Machine) : Except (Failure × Machine) Machine := do
  let value := nextValue m.markerValue
  let m := { m with markerValue := value }
  let (past, m) ← endPackets agc fenceWord (base + stop) value m
  let m ← submitDcb agc (base + start) past value m
  if wait then waitStep agc value m else .ok (queueDeferTargets submit value m)

/-- `ps5vk_spans_overlap`. -/
def spansOverlap (a aBytes b bBytes : Nat) : Bool :=
  decide (a < b + bBytes) && decide (b < a + aBytes)

/-- Whether two blits lack a span or touch a common image. -/
def MemoryCopy.touches (copy other : MemoryCopy) : Bool :=
  other.sourceSpanBytes == 0 || other.destinationSpanBytes == 0 ||
    spansOverlap copy.sourceSpan copy.sourceSpanBytes other.sourceSpan other.sourceSpanBytes ||
    spansOverlap copy.sourceSpan copy.sourceSpanBytes other.destinationSpan
      other.destinationSpanBytes ||
    spansOverlap copy.destinationSpan copy.destinationSpanBytes other.sourceSpan
      other.sourceSpanBytes ||
    spansOverlap copy.destinationSpan copy.destinationSpanBytes other.destinationSpan
      other.destinationSpanBytes

/-- `ps5vk_blit_conflicts`: whether a blit may not run beside the wave's. -/
def blitConflicts (copy : MemoryCopy) (wave : List MemoryCopy) : Bool :=
  copy.sourceSpanBytes == 0 || copy.destinationSpanBytes == 0 || wave.any copy.touches

/-- The run of independent blits a wave grows to, over the splits after its first. -/
def blitWave (offset : Nat) : List MemoryCopy → List CopySplit → List MemoryCopy
  | wave, [] => wave
  | wave, split :: rest =>
    if split.offset = offset ∧ split.copy.blit = true ∧ ¬blitConflicts split.copy wave then
      blitWave offset (wave ++ [split.copy]) rest
    else wave

/-- Runs the blits of a wave, at once where the workers take them and in turn where not. -/
def runWave (first : MemoryCopy) (wave : List MemoryCopy) (m : Machine) : Machine :=
  if (1 < wave.length ∨ 32 ≤ first.height) ∧ ¬blitConflicts first [] ∧
      agc.blitWorkers m.trace.length then
    { m with trace := m.trace ++ [.wave wave] }
  else { m with trace := m.trace ++ wave.map (.run .blit) }

/-- Runs the record of a split, and says how many of the splits after it a wave took too. -/
def runRecord (split : CopySplit) (rest : List CopySplit) (m : Machine) :
    Except (Failure × Machine) (Nat × Machine) :=
  match split.copy.kind? with
  | none => .ok (0, m)
  | some .blit =>
    let wave := blitWave split.offset [split.copy] rest
    .ok (wave.length - 1, runWave agc split.copy wave m)
  | some .event =>
    if split.copy.eventAction = .wait ∧ ¬agc.eventSeen m.trace.length then .error (.lost, m)
    else .ok (0, { m with trace := m.trace ++ [.run .event split.copy] })
  | some kind => .ok (0, { m with trace := m.trace ++ [.run kind split.copy] })

/-- Puts the words `[start, stop)` back as they were built and runs them as a step. -/
def runSavedStep (base : Nat) (saved : List UInt32)
    (start stop : Nat) (wait : Bool) (m : Machine) : Except (Failure × Machine) Machine :=
  queueRunStep agc submit base start stop wait
    (m.poke (base + start) ((saved.drop start).take (stop - start)))

/-- The step that ends where a record falls, or the wait in its place. -/
def reachSplit (base : Nat) (saved : List UInt32)
    (start : Nat) (grouped : Bool) (offset : Nat) (m : Machine) :
    Except (Failure × Machine) Machine :=
  if grouped = true ∧ offset = start then .ok m
  else if offset ≠ start then runSavedStep agc submit base saved start offset true m
  else queueWaitIdle agc m

/-- The loop of `ps5vk_queue_run_copy_steps`. -/
def copyLoop (agc : Agc) (submit : List CmdBuffer) (base : Nat) (saved : List UInt32) :
    Nat → Nat → Bool → List CopySplit → Machine → Except (Failure × Machine) Machine
  | _, start, _, [], m =>
    if start < saved.length then
      runSavedStep agc submit base saved start saved.length false m
    else .ok m
  | skip + 1, start, grouped, _ :: rest, m =>
    copyLoop agc submit base saved skip start grouped rest m
  | 0, start, grouped, split :: rest, m => do
      let m ← reachSplit agc submit base saved start grouped split.offset m
      let (taken, m) ← runRecord agc split rest m
      copyLoop agc submit base saved taken split.offset true rest m

/-- `ps5vk_queue_run_copy_steps`. -/
def queueRunCopySteps (a : Assembly) :
    Except (Failure × Machine) Machine :=
  if ¬agc.hostMemory a.machine.trace.length then .error (.outOfHostMemory, a.machine)
  else
    let saved := WordBuffer.read a.machine.buffer a.base a.words
    copyLoop agc submit a.base saved 0 0 false a.splits a.machine

/-- The steps of an assembled stream. -/
def runAssembled (a : Assembly) :
    Except (Failure × Machine) Machine :=
  let m := { a.machine with ringHead := a.base + a.words + agc.endWords }
  if a.splits = [] then queueRunStep agc submit a.base 0 a.words false m
  else queueRunCopySteps agc submit { a with machine := m }

/-- `ps5vk_queue_run`. -/
def queueRun (m : Machine) :
    Except (Failure × Machine) Machine := do
  let a ← assemble agc submit m
  let m ← runAssembled agc submit a
  .ok { m with
    placements := m.placements ++ [⟨a.base, a.base + a.words + agc.endWords, m.steps⟩] }

end Ps5Vulkan.Queue
