import Ps5Vulkan.Queue.Polls

/-!
# Assembling a submission's stream

Where a submission's stream starts in the buffer (`ps5vk_queue_stream_base`) and the words
`ps5vk_queue_run` puts there: the prologue's packets, then every command buffer's words with its
fence values patched in, and a barrier between two of them where the next one samples early. The
records of the command buffers become splits of the stream on the way.

## Implementation notes

The sizes are `size_t`, so the room left is a difference modulo `2 ^ 64`. The casts to `uint32_t`
are exact: a stream that leaves the submission mapping stops with `fault` here.
-/

variable (agc : Agc) (submit : List CmdBuffer) (a : Assembly)

namespace Ps5Vulkan.Queue

/-- A difference of two `size_t` values. -/
def sizeSub (a b : Nat) : Nat :=
  (a + 2 ^ 64 - b) % 2 ^ 64

theorem sizeSub_of_le {a b : Nat} (hba : b ≤ a) (ha : a < 2 ^ 64) : sizeSub a b = a - b := by
  rw [sizeSub, show a + 2 ^ 64 - b = (a - b) + 2 ^ 64 by omega, Nat.add_mod_right,
    Nat.mod_eq_of_lt (by omega)]

/-- `struct ps5vk_copy_split`. -/
structure CopySplit where
  offset : Nat
  copy : MemoryCopy
  deriving DecidableEq, Repr

/-- A stream being built: where it starts, how many words it has and where its splits fall. -/
structure Assembly where
  machine : Machine
  base : Nat
  words : Nat
  splits : List CopySplit

/-- Words appended to the stream. -/
def Assembly.emit (words : List UInt32) : Except (Failure × Machine) Assembly :=
  let machine := a.machine.poke (a.base + a.words) words
  if a.base + a.words + words.length ≤ submissionWords then
    .ok { a with machine := machine, words := a.words + words.length }
  else .error (.fault, machine)

/-- The words between the stream's start and the fence. -/
def Assembly.capacity : Nat := fenceWord - a.base

/-- The room left before the words a step ends with. -/
def Assembly.room : Nat :=
  sizeSub (sizeSub a.capacity agc.endWords) a.words

/-- The profile's stamp in slot `slot`. -/
def stampPacket (slot : Nat) (a : Assembly) : Except (Failure × Machine) Assembly :=
  match agc.stamps with
  | none => .ok a
  | some stamps => a.emit (timestampPacket (stamps + slot * 8))

/-- The wait for the step before this submission, unless the marker has reached it. -/
def previousStepWait : Except (Failure × Machine) Assembly :=
  let previous := a.machine.submittedValue
  if previous = 0 then .ok a
  else
    let a := { a with machine := queuePoll a.machine }
    if markerReached a.machine.completedValue previous then .ok a
    else a.emit (markerWaitWords agc.markerAddress previous)

/-- The wait packets of the swapchain images the targets name, one for each image. -/
def waitPackets (agc : Agc) :
    List (Fin swapchainImages) → List RenderTarget → Assembly →
      Except (Failure × Machine) Assembly
  | _, [], a => .ok a
  | waited, target :: targets, a =>
    if target.video < 0 ∨ target.bufferIndex ∈ waited then waitPackets agc waited targets a
    else if agc.waitPacketWords > a.room agc then .error (.outOfDeviceMemory, a.machine)
    else
      let found := WordBuffer.read a.machine.buffer (a.base + a.words) agc.waitPacketWords
      match agc.waitUntilSafe target.video target.bufferIndex found with
      | none => .error (.lost, a.machine)
      | some packet =>
        if packet.length ≠ agc.waitPacketWords then .error (.lost, a.machine)
        else do
          let a ← a.emit packet
          waitPackets agc (target.bufferIndex :: waited) targets a

/-- The packets before the first command buffer's words. -/
def prologue :
    Except (Failure × Machine) Assembly := do
  let a ← stampPacket agc 0 a
  let a ← previousStepWait agc a
  let a ← waitPackets agc [] (submit.flatMap CmdBuffer.targets) a
  stampPacket agc 1 a

/-- Gives every barrier of a command buffer the next fence value, at its two words. -/
def patchFences (start : Nat) : List Nat → Machine → Machine
  | [], m => m
  | patch :: patches, m =>
    let value := nextValue m.fenceValue
    let m := { m with fenceValue := value }
    let m := m.poke (start + patch + gpuBarrierValueWord) [value]
    let m := m.poke (start + patch + gpuBarrierRefWord) [value]
    patchFences start patches m

/-- The barrier after a command buffer, where it registered targets and the next one samples before
a barrier of its own. -/
def barrierBetween (cb : CmdBuffer) (next : Option CmdBuffer) (a : Assembly) :
    Except (Failure × Machine) Assembly :=
  match next with
  | none => .ok a
  | some next =>
    if next.samplesEarly = true ∧ cb.targets ≠ [] then
      let value := nextValue a.machine.fenceValue
      let a := { a with machine := { a.machine with fenceValue := value } }
      a.emit (gpuBarrierWords agc.fenceAddress value)
    else .ok a

/-- One command buffer's part of the stream. -/
def appendCmdBuffer (cb : CmdBuffer) (next : Option CmdBuffer) (a : Assembly) :
    Except (Failure × Machine) Assembly :=
  if cb.words.length > a.room agc then .error (.outOfDeviceMemory, a.machine)
  else if cb.copies ≠ [] ∧ ¬agc.hostMemory a.machine.trace.length then
    .error (.outOfHostMemory, a.machine)
  else do
    let splits := cb.copies.map fun copy =>
      { offset := a.words + min copy.afterWords cb.words.length, copy := copy : CopySplit }
    let start := a.base + a.words
    let a ← a.emit cb.words
    let a := { a with
      machine := patchFences start cb.fencePatches a.machine
      splits := a.splits ++ splits }
    barrierBetween agc cb next a

/-- Every command buffer's part in turn. -/
def appendCmdBuffers (agc : Agc) :
    List CmdBuffer → Assembly → Except (Failure × Machine) Assembly
  | [], a => .ok a
  | cb :: rest, a => do
      let a ← appendCmdBuffer agc cb rest.head? a
      appendCmdBuffers agc rest a

/-- The most words a submission's stream and its end packets can take. -/
def footprint : Nat :=
  agc.endWords + 2 * 8 + swapchainImages * agc.waitPacketWords + 9 +
    (submit.map fun cb => cb.words.length + gpuBarrierCount).sum

/-- `ALIGN_POT` to sixteen words. -/
def align16 (n : Nat) : Nat := (n + 15) / 16 * 16

/-- `ps5vk_queue_stream_base`. -/
def queueStreamBase (needed : Nat) (m : Machine) :
    Except (Failure × Machine) (Nat × Machine) :=
  let submitted := m.submittedValue
  let m := queuePoll m
  if markerReached m.completedValue submitted then .ok (0, m)
  else
    let base := align16 m.ringHead
    if base ≤ fenceWord ∧ needed ≤ fenceWord - base then .ok (base, m)
    else do
      let m ← queueWaitIdle agc m
      .ok (0, m)

/-- The stream of a submission, placed and built. -/
def assemble (m : Machine) :
    Except (Failure × Machine) Assembly := do
  let (base, m) ← queueStreamBase agc (footprint agc submit) m
  let a ← prologue agc submit { machine := m, base := base, words := 0, splits := [] }
  appendCmdBuffers agc submit a

end Ps5Vulkan.Queue
