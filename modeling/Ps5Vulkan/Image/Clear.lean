import Ps5Vulkan.Library.WordBuffer
import Ps5Vulkan.Image.Sides

/-!
# CPU clears

`ps5vk_clear_execute` writes one encoded element over every sample of every texel of a region.
-/

namespace Ps5Vulkan.Image

open WordBuffer

/-- What `ps5vk_clear_execute` reads of a `struct ps5vk_memory_copy`. -/
structure ImageClear where
  destinationSide : CopySide
  destinationTexelBytes : Nat
  destinationX : Nat
  destinationY : Nat
  width : Nat
  height : Nat
  clearTexel : List UInt8
  deriving DecidableEq, Repr

namespace ImageClear

variable (clear : ImageClear)

def samples : Nat := if clear.destinationSide.samples = 4 then 4 else 1

def sampleBytes : Nat := clear.destinationTexelBytes / clear.samples

/-- The elements written: each sample of each texel. -/
def writes : List (Nat × List UInt8) :=
  (List.range clear.height).flatMap fun row => (List.range clear.width).flatMap fun column =>
    (List.range clear.samples).map fun sample =>
      (clear.destinationSide.copyAddress (clear.destinationX + column : Nat)
        (clear.destinationY + row : Nat) clear.sampleBytes sample, clear.clearTexel.take clear.sampleBytes)

/-- `ps5vk_clear_execute`. -/
def clearExecute (memory : Nat → UInt8) : Nat → UInt8 :=
  writeAll clear.writes memory

end ImageClear

end Ps5Vulkan.Image
