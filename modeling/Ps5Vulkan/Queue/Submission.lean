import Mathlib.Algebra.GroupWithZero.Nat
import Mathlib.Data.List.Basic

/-!
# What a submission carries

The parts of a recorded command buffer the queue reads: its words, its CPU records, the places its
GPU barriers take a fence value at, the targets it registered and whether it samples before a
barrier of its own (`ps5vk_private.h`). A command buffer keeps two facts of its recording: every
barrier lies inside its words, and the records' places never decrease.
-/

variable (address : Nat) (value : UInt32)

namespace Ps5Vulkan.Queue

/-- `PS5VK_GPU_BARRIER_WORDS`. -/
def gpuBarrierCount : Nat := 17

/-- `PS5VK_GPU_BARRIER_VALUE_WORD`. -/
def gpuBarrierValueWord : Nat := 5

/-- `PS5VK_GPU_BARRIER_REF_WORD`. -/
def gpuBarrierRefWord : Nat := 12

/-- `PS5VK_SWAPCHAIN_IMAGES`. -/
def swapchainImages : Nat := 5

theorem swapchainImages_pos : 0 < swapchainImages := by
  decide

/-- `struct ps5vk_device_memory`, of which the queue reads whether the application mapped it. -/
structure DeviceMemory where
  hostMapped : Bool
  deriving DecidableEq, Repr

/-- `struct ps5vk_render_target`. `video` is negative outside a swapchain. -/
structure RenderTarget where
  memory : Option DeviceMemory
  always : Bool
  address : Nat
  bytes : Nat
  video : Int
  bufferIndex : Fin swapchainImages
  deriving DecidableEq, Repr

/-- `enum ps5vk_event_action`. -/
inductive EventAction where
  | none
  | set
  | reset
  | wait
  deriving DecidableEq, Repr

/-- `struct ps5vk_memory_copy`, as far as the queue's own dispatch reads it. No record is both a
blit and a resolve. -/
structure MemoryCopy where
  source : Nat
  destination : Nat
  bytes : Nat
  afterWords : Nat
  fill : Bool
  fillValue : UInt32
  reverseTexelBytes : Nat
  clear : Bool
  blit : Bool
  sourceSpan : Nat
  sourceSpanBytes : Nat
  destinationSpan : Nat
  destinationSpanBytes : Nat
  resolve : Bool
  imageWrite : Bool
  imageCopy : Bool
  query : Bool
  height : Nat
  event : Nat
  eventAction : EventAction
  blit_or_resolve : blit = false ∨ resolve = false
  deriving DecidableEq, Repr

/-- Of a record that is neither. -/
theorem MemoryCopy.neither : false = false ∨ false = false :=
  Or.inl rfl

/-- What runs a record on the CPU. -/
inductive CpuKind where
  | resolve
  | blit
  | imageWrite
  | imageCopy
  | clear
  | query
  | event
  | fill
  | bytes
  deriving DecidableEq, Repr

/-- The record's kind, by the order `ps5vk_queue_run_copy_steps` asks in. A record with none is a
split whose step boundary is all it does. -/
def MemoryCopy.kind? (copy : MemoryCopy) : Option CpuKind :=
  if copy.resolve then some .resolve
  else if copy.blit then some .blit
  else if copy.imageWrite then some .imageWrite
  else if copy.imageCopy then some .imageCopy
  else if copy.clear then some .clear
  else if copy.query then some .query
  else if copy.eventAction ≠ .none then some .event
  else if copy.bytes = 0 then none
  else if copy.fill then some .fill
  else some .bytes

theorem MemoryCopy.kind?_of_blit {copy : MemoryCopy} (h : copy.blit = true) : copy.kind? = some .blit := by
  have hresolve : copy.resolve = false := by
    rcases copy.blit_or_resolve with hb | hr
    · rw [h] at hb
      cases hb
    · exact hr
  simp [MemoryCopy.kind?, hresolve, h]

/-- `struct ps5vk_cmd_buffer`, as far as a submission reads it. -/
structure CmdBuffer where
  words : List UInt32
  copies : List MemoryCopy
  fencePatches : List Nat
  targets : List RenderTarget
  samplesEarly : Bool
  patches_fit : ∀ patch ∈ fencePatches, patch + gpuBarrierCount ≤ words.length
  copies_sorted : copies.Pairwise fun first second => first.afterWords ≤ second.afterWords

/-- Of no records. -/
theorem CmdBuffer.noCopies_sorted :
    List.Pairwise (fun first second : MemoryCopy => first.afterWords ≤ second.afterWords) [] :=
  .nil

/-- `PS5VK_PKT3`. -/
def pkt3 (opcode count : UInt32) : UInt32 :=
  (0xc0000000 : UInt32) ||| (count <<< (16 : UInt32)) ||| (opcode <<< (8 : UInt32))

/-- The low and the high word of an address. -/
def addressWords : List UInt32 :=
  [UInt32.ofNat address, UInt32.ofNat (address / 2 ^ 32)]

/-- `ps5vk_marker_wait_words`: the GPU waits until the word at `address` is `value`. -/
def markerWaitWords : List UInt32 :=
  [pkt3 0x93 7, 0x06000113] ++ addressWords address ++ [value, 0, 0xffffffff, 0, 0x40]

/-- The control word of a `RELEASE_MEM`: its cache actions, event index 5 and its event. -/
def releaseControl (actions event : UInt32) : UInt32 :=
  (actions <<< (12 : UInt32)) ||| ((5 : UInt32) <<< (8 : UInt32)) ||| event

/-- A `RELEASE_MEM` that writes `value` at `address` once its event has happened. -/
def releaseWords (control : UInt32) (address : Nat) (value : UInt32) : List UInt32 :=
  [pkt3 0x49 6, control, 0x20000000] ++ addressWords address ++ [value, 0, 0]

/-- `ps5vk_gpu_barrier_words`: the release and the wait for the value it writes. -/
def gpuBarrierWords (fenceAddress : Nat) (value : UInt32) : List UInt32 :=
  releaseWords (releaseControl 12 20) fenceAddress value ++
    markerWaitWords fenceAddress value

/-- A step's completion packet (`ps5vk_queue_run_step`). -/
def completionWords (markerAddress : Nat) (value : UInt32) : List UInt32 :=
  releaseWords (releaseControl 0x30c 20) markerAddress value

/-- `ps5vk_timestamp_packet`. -/
def timestampPacket : List UInt32 :=
  [0xc0064900, 0x0030c528, 0x63000000] ++ addressWords address ++ [0, 0, 0]

@[simp] theorem length_addressWords : (addressWords address).length = 2 := rfl

@[simp] theorem length_markerWaitWords : (markerWaitWords address value).length = 9 := rfl

@[simp] theorem length_gpuBarrierWords : (gpuBarrierWords address value).length = gpuBarrierCount := rfl

@[simp] theorem length_completionWords : (completionWords address value).length = 8 := rfl

@[simp] theorem length_timestampPacket : (timestampPacket address).length = 8 := rfl

/-- A barrier takes its value at the two words the queue patches. -/
theorem gpuBarrierWords_patch :
    ((gpuBarrierWords address 0).set gpuBarrierValueWord value).set gpuBarrierRefWord value =
      gpuBarrierWords address value := rfl

end Ps5Vulkan.Queue
