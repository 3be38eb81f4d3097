import Ps5Vulkan.Queue.Marker
import Ps5Vulkan.Queue.Submission
import Ps5Vulkan.Library.WordBuffer

/-!
# The queue, the GPU and what they do in turn

The queue's own state (`struct ps5vk_queue`), the submission buffer it writes and how far the GPU
has come. The GPU runs the steps it was handed in order; how many it has finished by each reading of
the marker is a schedule, so a result over every schedule is one over every GPU progress. The trace
lists what happened: words written, steps handed over, steps finished and records run.

## Implementation notes

`steps` and `finished` count the steps handed over and finished; the queue never reads them. The
marker word is the value of the last finished step.
-/

variable (m : Machine) (agc : Agc)

namespace Ps5Vulkan.Queue

/-- The words of `PS5VK_SUBMISSION_BYTES`. -/
def submissionWords : Nat := 0x200000 / 4

/-- The marker's word: below the flip slots of the swapchain's images. -/
def markerWord : Nat := submissionWords - 1 - swapchainImages * 256

/-- The fence's word, the pair aligned to eight bytes at least two below the marker. The mapping is
aligned to its own size, so the word's address is aligned when its number is even. Streams stop
here. -/
def fenceWord : Nat := (markerWord - 3) / 2 * 2

/-- `PS5VK_MARKER_POLLS`. -/
def markerPolls : Nat := 2000

/-- What the queue finds outside its own code: AGC's helpers and driver calls, the polls a bounded
spin comes to, the blit workers, the events other threads set and the host's memory. A call's
answer may differ from one call to the next, so it is asked with the length of the trace. -/
structure Agc where
  /-- The submission buffer's address. -/
  buffer : Nat
  /-- The profile's stamps, when profiling. -/
  stamps : Option Nat
  /-- `sceAgcCbReleaseMem` with this many words of room: what it wrote, or nothing. -/
  releaseMem : Nat → Option (List UInt32)
  /-- `sceAgcDriverGetWaitRenderingPacketSizeInDwords`. -/
  waitPacketWords : Nat
  /-- `sceAgcDriverWaitUntilSafeForRendering` over the words it found there. -/
  waitUntilSafe : Int → Nat → List UInt32 → Option (List UInt32)
  submitDcb : Nat → Bool
  suspendPoint : Nat → Bool
  spinPolls : Nat
  blitWorkers : Nat → Bool
  eventSeen : Nat → Bool
  hostMemory : Nat → Bool

/-- `ps5vk_queue_end_words`: the words a step ends with. -/
def Agc.endWords : Nat :=
  16 + if agc.stamps.isSome then 8 else 0

def Agc.markerAddress : Nat := agc.buffer + 4 * markerWord

def Agc.fenceAddress : Nat := agc.buffer + 4 * fenceWord

/-- `struct ps5vk_retire_range`. -/
structure RetireRange where
  value : UInt32
  address : Nat
  bytes : Nat
  deriving DecidableEq, Repr

/-- One thing the queue or the GPU did. -/
inductive Event where
  | write (pos : Nat) (words : List UInt32)
  | submit (step : Nat) (words : List UInt32)
  | finish (step : Nat)
  | run (kind : CpuKind) (copy : MemoryCopy)
  | wave (copies : List MemoryCopy)
  deriving DecidableEq, Repr

/-- Where a submission's words and end packets lie, and its last step. -/
structure Placement where
  first : Nat
  past : Nat
  step : Nat
  deriving DecidableEq, Repr

structure Machine where
  buffer : Nat → UInt32
  markerValue : UInt32
  submittedValue : UInt32
  completedValue : UInt32
  fenceValue : UInt32
  ringHead : Nat
  retire : List RetireRange
  steps : Nat
  finished : Nat
  progress : List Nat
  placements : List Placement
  trace : List Event

/-- Why a submission did not go through. `fault` is a write outside the submission mapping, after
which nothing is known. -/
inductive Failure where
  | outOfDeviceMemory
  | outOfHostMemory
  | lost
  | fault
  deriving DecidableEq, Repr

/-- `ps5vk_queue_init`, with the GPU's schedule. -/
def Machine.init (progress : List Nat) : Machine where
  buffer := fun _ => 0
  markerValue := 0
  submittedValue := 0
  completedValue := 0
  fenceValue := 0
  ringHead := 0
  retire := []
  steps := 0
  finished := 0
  progress := progress
  placements := []
  trace := []

/-- Writes words into the submission buffer. -/
def Machine.poke (pos : Nat) (words : List UInt32) : Machine :=
  { m with
    buffer := WordBuffer.write m.buffer pos words
    trace := m.trace ++ [.write pos words] }

/-- The steps the GPU finishes before the next reading of the marker. -/
def Machine.finishing : Nat :=
  min (m.progress.headD 0) (m.steps - m.finished)

/-- The GPU comes as far as the schedule says. -/
def gpuAdvance : Machine :=
  { m with
    finished := m.finished + m.finishing
    progress := m.progress.tail
    trace := m.trace ++ (List.range' (m.finished + 1) m.finishing).map Event.finish }

/-- `ps5vk_queue_retire_locked`: the ranges the completed steps wrote are evicted and dropped. -/
def queueRetire : Machine :=
  { m with retire := m.retire.filter fun range => !markerReached m.completedValue range.value }

/-- `ps5vk_queue_poll`; what it returns is `completedValue`. -/
def queuePoll : Machine :=
  let m := gpuAdvance m
  let seen := markerOf m.finished
  queueRetire
    { m with
      completedValue :=
        if markerReached seen m.completedValue && markerReached m.submittedValue seen
        then seen else m.completedValue }

/-- Polls at most `polls` times until the marker has reached `value`. -/
def pollUntil (value : UInt32) : Nat → Machine → Bool × Machine
  | 0, m => (false, m)
  | polls + 1, m =>
    let m := queuePoll m
    if markerReached m.completedValue value then (true, m) else pollUntil value polls m

/-- `ps5vk_queue_wait_value` without a deadline: one poll, the bounded spin, then up to two seconds
of sleeping polls. -/
def queueWaitValue (value : UInt32) (m : Machine) :
    Except (Failure × Machine) Machine :=
  match pollUntil value (1 + (agc.spinPolls + 1) + (markerPolls + 1)) m with
  | (true, m) => .ok m
  | (false, m) => .error (.lost, m)

/-- `ps5vk_queue_wait_idle`. -/
def queueWaitIdle (m : Machine) : Except (Failure × Machine) Machine :=
  queueWaitValue agc m.submittedValue m

end Ps5Vulkan.Queue
