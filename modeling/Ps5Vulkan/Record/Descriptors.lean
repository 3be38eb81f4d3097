import Ps5Vulkan.Record.Recorder
import Ps5Vulkan.Record.Tables

/-!
# Descriptor sets of a command buffer

What `vkCmdBindDescriptorSets` leaves in a command buffer (`ps5vk_descriptor_set.c`), and the tables a
draw or a dispatch builds from it (`ps5vk_cmd_buffer_shader_resources`). A slot of the command buffer
is a set and the dynamic offsets it was bound with. A recorder with its slots and pipelines is what an
application records into.

## Implementation notes

Sets are named by handles, as an update after the bind changes what a later draw reads: what the
writes left in a set is an argument of the draw. The words of an image descriptor and the input
attachments of a subpass are answers of code outside this model.
-/

namespace Ps5Vulkan.Record

open Queue (addressWords)

/-- `PS5VK_DESCRIPTOR_SET_COUNT`. -/
def descriptorSetCount : Nat := 4

/-- `PS5VK_DYNAMIC_UNIFORM_COUNT`. -/
def dynamicUniformCount : Nat := 8

/-- `VkDescriptorType`. -/
inductive DescriptorType where
  | sampler
  | combinedImageSampler
  | sampledImage
  | storageImage
  | uniformTexelBuffer
  | storageTexelBuffer
  | uniformBuffer
  | storageBuffer
  | uniformBufferDynamic
  | storageBufferDynamic
  | inputAttachment
  deriving DecidableEq, Repr

/-- A declared binding of a set layout, at its binding number. A number nothing declares has count
zero. -/
structure LayoutBinding where
  type : DescriptorType
  count : Nat
  deriving DecidableEq, Repr

/-- `struct ps5vk_descriptor_binding`. -/
structure DescriptorBinding where
  type : DescriptorType
  count : Nat
  dynamicIndex : Nat
  recordIndex : Nat
  deriving DecidableEq, Repr

/-- The numbering of `ps5vk_CreateDescriptorSetLayout`: records count every descriptor, dynamic
indices the dynamic uniform buffers only. -/
def numberBindings : Nat → Nat → List LayoutBinding → List DescriptorBinding
  | _, _, [] => []
  | dynamicIndex, recordIndex, binding :: rest =>
    if binding.type = .uniformBufferDynamic then
      ⟨binding.type, binding.count, dynamicIndex, recordIndex⟩ ::
        numberBindings (dynamicIndex + binding.count) (recordIndex + binding.count) rest
    else
      ⟨binding.type, binding.count, 0, recordIndex⟩ ::
        numberBindings dynamicIndex (recordIndex + binding.count) rest

/-- `struct ps5vk_descriptor_set`, without what its writes left in it. -/
structure DescriptorSet where
  handle : Nat
  layout : List LayoutBinding
  push : Bool
  deriving DecidableEq, Repr

/-- The bindings of a set's layout. -/
def DescriptorSet.bindings (set : DescriptorSet) : List DescriptorBinding :=
  numberBindings 0 0 set.layout

/-- The dynamic offsets of a set, by dynamic index. -/
abbrev Offsets := Fin dynamicUniformCount → UInt32

/-- One entry of `descriptor_sets` with its row of `descriptor_set_offsets`. -/
structure Slot where
  set : Option DescriptorSet
  offsets : Offsets

/-- A slot nothing is bound to. -/
def Slot.empty : Slot := ⟨none, fun _ => 0⟩

/-- The command buffer's descriptor sets, by set index. -/
abbrev Slots := Fin descriptorSetCount → Slot

/-- `VkPipelineBindPoint`. -/
inductive BindPoint where
  | graphics
  | compute
  deriving DecidableEq, Repr

/-- `VkBindDescriptorSetsInfo`, and the bind point of its stages. -/
structure BindInfo where
  point : BindPoint
  firstSet : Nat
  sets : List (Option DescriptorSet)
  dynamicOffsets : List UInt32

/-- The given offsets go to `count` entries from an index on. -/
def writeOffsets (offsets : Offsets) (index count : Nat) (given : List UInt32) : Offsets :=
  fun k => if index ≤ k ∧ k < index + count then given.getD (k - index) 0 else offsets k

/-- The dynamic offsets of one set, taken from what is left of the given ones, or `none` left where
the bind is refused. -/
def bindOffsets : List DescriptorBinding → Offsets → List UInt32 → Offsets × Option (List UInt32)
  | [], offsets, given => (offsets, some given)
  | binding :: rest, offsets, given =>
    if binding.count = 0 ∨ binding.type ≠ .uniformBufferDynamic then
      bindOffsets rest offsets given
    else if dynamicUniformCount < binding.dynamicIndex ∨
        dynamicUniformCount - binding.dynamicIndex < binding.count ∨
        given.length < binding.count then
      (offsets, none)
    else
      bindOffsets rest (writeOffsets offsets binding.dynamicIndex binding.count given)
        (given.drop binding.count)

/-- The sets of a bind from a set index on. -/
def bindSets : Nat → List (Option DescriptorSet) → Slots → List UInt32 →
    Slots × Option (List UInt32)
  | _, [], slots, given => (slots, some given)
  | index, set :: rest, slots, given =>
    if h : index < descriptorSetCount then
      match set with
      | none => bindSets (index + 1) rest (Function.update slots ⟨index, h⟩ .empty) given
      | some bound =>
        match bindOffsets bound.bindings (fun _ => 0) given with
        | (offsets, some left) =>
          bindSets (index + 1) rest
            (Function.update slots ⟨index, h⟩ ⟨some bound, offsets⟩) left
        | (offsets, none) => (Function.update slots ⟨index, h⟩ ⟨some bound, offsets⟩, none)
    else (slots, none)

/-- `ps5vk_CmdBindDescriptorSets2KHR`: the slots it leaves, and whether it took the bind. The bind
point is not read. -/
def bindDescriptorSets (slots : Slots) (info : BindInfo) : Slots × Bool :=
  let (bound, left) := bindSets info.firstSet info.sets slots info.dynamicOffsets
  (bound, left == some [])

/-- `struct ps5vk_sampler`, its words. -/
structure Sampler where
  addressWord : UInt32
  lodWord : UInt32
  word : UInt32
  borderWord : UInt32
  deriving DecidableEq, Repr

/-- `struct ps5vk_buffer_view`, with its format's descriptor format word and channel selectors. -/
structure TexelBuffer where
  bufferAddress : Nat
  offset : Nat
  range : Nat
  texelBytes : Nat
  format : Option (UInt32 × UInt32)
  deriving DecidableEq, Repr

/-- `struct ps5vk_descriptor_buffer`: what a write recorded. -/
structure Descriptor where
  type : DescriptorType
  address : Nat
  size : Nat
  view : Option ImageView
  sampler : Option Sampler
  texelBuffer : Option TexelBuffer
  deriving DecidableEq, Repr

/-- `PsbcDescriptorBinding`: a binding a stage reads, the entry of the table it reads it from, and
whether it is the reserved push-constant binding. -/
structure StageBinding where
  set : Nat
  binding : Nat
  offset : Nat
  arraySize : Nat
  stride : Nat
  reserved : Bool
  deriving DecidableEq, Repr

/-- How a stage reads its push constants: inlined, or through a pointer of some user-data dwords. -/
structure PushPointer where
  inlined : Bool
  dwordCount : Nat
  dword : Nat
  deriving DecidableEq, Repr

/-- `PsbcShaderMetadata`, and whether the pipeline has push constants for the stage. -/
structure Stage where
  userSgprCount : Nat
  bindings : List StageBinding
  setsValid : Fin descriptorSetCount → Bool
  setsUserDataDword : Fin descriptorSetCount → Nat
  pushPointer : Option PushPointer
  pushConstants : Bool

/-- Why the resources of a draw or a dispatch are refused. -/
inductive ResourceRefusal where
  | metadataBudget
  | pushConstantsInlined
  | pushConstantPointer
  | setPastDevice
  | noUserDataDword
  | noTableEntry
  | sharedTableEntry
  | inputAttachment
  | unbound
  | imageEntryType
  | image
  | bufferEntryType
  | noAddress
  | emptyRange
  | entrySize
  | tablePastChunk
  | texelBuffer
  deriving DecidableEq, Repr

/-- What a draw reads beside the slots: what writes left in the sets, the input attachments of the
subpass by stage, the twelve words of an image descriptor, and the push-constant block's address and
bytes, no bytes where the pipeline has none. -/
structure Reading where
  contents : Nat → Nat → Option Descriptor
  inputAttachment : Nat → StageBinding → Except ResourceRefusal (Option ImageView)
  imageWords : ImageView → Option Sampler → Option (List UInt32)
  pushBlock : Nat × Nat

/-- The descriptor of an input attachment. -/
def Descriptor.ofAttachment (view : ImageView) : Descriptor :=
  ⟨.inputAttachment, 0, 0, some view, none, none⟩

/-- `ps5vk_cmd_buffer_descriptor`, of the slot it looks in. -/
def Slot.descriptor (slot : Slot) (contents : Nat → Nat → Option Descriptor)
    (binding element : Nat) : Option Descriptor := do
  let set ← slot.set
  let declared ← set.bindings[binding]?
  if element < declared.count then contents set.handle (declared.recordIndex + element) else none

/-- `ps5vk_push_set_bound`. -/
def Slot.pushBound (slot : Slot) : Bool :=
  slot.set.any (·.push)

/-- The offset a dynamic uniform buffer of the slot was bound with. -/
def Slot.dynamicOffset (slot : Slot) (binding element : Nat) : UInt32 :=
  match slot.set.bind (·.bindings[binding]?) with
  | none => 0
  | some declared =>
    if h : declared.dynamicIndex + element < dynamicUniformCount then
      slot.offsets ⟨declared.dynamicIndex + element, h⟩
    else 0

section Tables

variable (reading : Reading) (index : Nat) (stage : Stage) (slot : Slot) (binding : StageBinding)

/-- Whether an element's descriptor is the push-constant block's. -/
def Stage.pushes : Bool :=
  binding.reserved && stage.pushConstants

/-- The descriptor of an element: the subpass's input attachment, or what the bound set holds. -/
def elementDescriptor (element : Nat) :
    Except ResourceRefusal (Option Descriptor) := do
  match ← reading.inputAttachment index binding with
  | some view => return some (.ofAttachment view)
  | none => return slot.descriptor reading.contents binding.binding element

/-- The image a descriptor samples and the words of its descriptor (`ps5vk_sampled_image`,
`ps5vk_write_image_descriptor`). -/
def sampledWords (written : Descriptor) : Except ResourceRefusal (Image × List UInt32) :=
  match written.view with
  | none => throw .image
  | some view =>
    if written.type = .combinedImageSampler ∧ written.sampler.isNone then throw .image
    else
      match reading.imageWords view written.sampler with
      | none => throw .image
      | some words => return (view.image, words)

/-- The checks of an element before its table exists, and the image it samples. -/
def checkElement (element : Nat) :
    Except ResourceRefusal (List Image) := do
  match ← elementDescriptor reading index slot binding element with
  | none => if slot.pushBound then return [] else throw .unbound
  | some written =>
    if binding.stride = 48 ∨ binding.stride = 32 then
      let shapeMatches :=
        if binding.stride = 48 then
          written.type = .combinedImageSampler ∨ written.type = .sampledImage ∨
            written.type = .sampler
        else written.type = .storageImage ∨ written.type = .inputAttachment
      if ¬shapeMatches then throw .imageEntryType
      else if written.type = .sampler then return []
      else
        let (image, _) ← sampledWords reading written
        return [image]
    else if binding.stride = 16 then
      if written.type = .uniformTexelBuffer ∨ written.type = .storageTexelBuffer then return []
      else if written.type ≠ .uniformBuffer ∧ written.type ≠ .uniformBufferDynamic ∧
          written.type ≠ .storageBuffer then throw .bufferEntryType
      else if written.address = 0 then throw .noAddress
      else if written.size = 0 then throw .emptyRange
      else return []
    else throw .entrySize

/-- The checks of a table's bindings in order, after the ones before them. -/
def checkBindings : List StageBinding → List StageBinding → Except ResourceRefusal (List Image)
  | _, [] => return []
  | earlier, binding :: rest => do
      if binding.stride = 0 then throw .noTableEntry
      if earlier.any (·.offset == binding.offset) then throw .sharedTableEntry
      let images ←
        if stage.pushes binding then pure []
        else (List.range binding.arraySize).mapM (checkElement reading index slot binding)
      return images.flatten ++ (← checkBindings (earlier ++ [binding]) rest)

/-- `PS5VK_UNIFORM_BUFFER_FLAGS | PS5VK_BUFFER_OOB_SELECT_RAW`. -/
def uniformBufferFlags : UInt32 :=
  (0xfac : UInt32) ||| ((77 : UInt32) <<< 12) ||| ((3 : UInt32) <<< 28)

/-- A texel buffer's descriptor. -/
def texelBufferWords (buffer : Option TexelBuffer) : Except ResourceRefusal (List UInt32) :=
  match buffer.bind fun view => view.format.map fun format => (view, format) with
  | none => throw .texelBuffer
  | some (view, imageFormat, dstSel) =>
    if imageFormat = 0 ∨ view.bufferAddress = 0 then throw .texelBuffer
    else
      let address := view.bufferAddress + view.offset
      return [UInt32.ofNat address,
        UInt32.ofNat (address >>> 32) ||| UInt32.ofNat view.texelBytes <<< 16,
        UInt32.ofNat (view.range / view.texelBytes),
        dstSel ||| (imageFormat &&& 0x7f) <<< 12 ||| (1 : UInt32) <<< 24]

/-- The words of a buffer's descriptor: a storage buffer's bytes, or a uniform buffer's whole rows
from the offset it was bound with. -/
def bufferWords (element : Nat) (written : Descriptor) : List UInt32 :=
  if written.type = .storageBuffer then
    addressWords written.address ++ [UInt32.ofNat written.size, 0x31016fac]
  else
    let address :=
      if written.type = .uniformBufferDynamic then
        written.address + (slot.dynamicOffset binding.binding element).toNat
      else written.address
    addressWords address ++
      [UInt32.ofNat ((written.size + binding.stride - 1) / binding.stride * binding.stride),
        uniformBufferFlags]

/-- The words of an element's entry, none for a push set's unwritten binding, and the image it
samples. -/
def writeElement (element : Nat) :
    Except ResourceRefusal (List Image × List UInt32) := do
  match ← elementDescriptor reading index slot binding element with
  | none => return ([], [])
  | some written =>
    if binding.stride = 32 ∨ binding.stride = 48 then
      if written.type = .sampler ∧ binding.stride = 48 then
        let words := match written.sampler with
          | none => []
          | some sampler =>
            [sampler.addressWord, sampler.lodWord, sampler.word, sampler.borderWord]
        return ([], List.replicate 8 0 ++ words)
      else
        let (image, words) ← sampledWords reading written
        return ([image], if binding.stride = 32 then words.take 8 else words)
    else if written.type = .uniformTexelBuffer ∨ written.type = .storageTexelBuffer then
      return ([], ← texelBufferWords written.texelBuffer)
    else return ([], bufferWords slot binding element written)

/-- The entries of a binding, each at its byte offset. -/
def writeBinding :
    Except ResourceRefusal (List (List Image × Nat × List UInt32)) :=
  if stage.pushes binding then
    return [([], binding.offset,
      addressWords reading.pushBlock.1 ++ [UInt32.ofNat reading.pushBlock.2, uniformBufferFlags])]
  else
    (List.range binding.arraySize).mapM fun element => do
      let (images, words) ← writeElement reading index slot binding element
      return (images, binding.offset + element * binding.stride, words)

end Tables

/-- A descriptor table: the stage and set it is for, the user-data dword its pointer goes to, and
its entries by byte offset. -/
structure DescriptorTable where
  stage : Nat
  set : Nat
  userDataDword : Nat
  bytes : Nat
  entries : List (Nat × List UInt32)
  deriving DecidableEq, Repr

/-- The bytes a table's bindings reach. -/
def tableBytes (bindings : List StageBinding) : Nat :=
  (bindings.map fun binding => binding.offset + binding.arraySize * binding.stride).foldl max 0

/-- The table of one set of a stage, and the images checking and writing it sample. -/
def buildTable (reading : Reading) (index : Nat) (stage : Stage) (set : Fin descriptorSetCount)
    (slot : Slot) : Except ResourceRefusal (List Image × DescriptorTable) := do
  let bindings := stage.bindings.filter fun binding => binding.set = (set : Nat)
  if stage.userSgprCount ≤ stage.setsUserDataDword set then throw .noUserDataDword
  let checked ← checkBindings reading index stage slot [] bindings
  if tableChunkBytes < tableBytes bindings then throw .tablePastChunk
  let entries ← bindings.mapM (writeBinding reading index stage slot)
  return (checked ++ entries.flatten.flatMap (·.1),
    ⟨index, set, stage.setsUserDataDword set, tableBytes bindings, entries.flatten.map (·.2)⟩)

/-- The set indices a stage's tables are for. -/
def Stage.sets (stage : Stage) : List (Fin descriptorSetCount) :=
  if stage.bindings = [] then [] else (List.finRange descriptorSetCount).filter (stage.setsValid ·)

/-- `PS5VK_MAX_USER_DATA` and `PSBC_MAX_DESCRIPTOR_BINDINGS`. -/
def maxUserData : Nat := 16

@[inherit_doc maxUserData]
def maxDescriptorBindings : Nat := 128

/-- The check of the pointer a stage reads its push constants through. -/
def checkPushPointer (reading : Reading) (stage : Stage) : Except ResourceRefusal Unit :=
  match stage.pushPointer with
  | none => return ()
  | some pointer =>
    if !stage.pushConstants then return ()
    else if pointer.inlined then throw .pushConstantsInlined
    else if reading.pushBlock.2 = 0 ∨ (pointer.dwordCount ≠ 1 ∧ pointer.dwordCount ≠ 2) ∨
        maxUserData < pointer.dword + pointer.dwordCount then throw .pushConstantPointer
    else return ()

/-- The tables of one stage. -/
def stageTables (reading : Reading) (slots : Slots) (entry : Stage × Nat) :
    Except ResourceRefusal (List (List Image × DescriptorTable)) := do
  let (stage, index) := entry
  if stage.bindings.any (descriptorSetCount ≤ ·.set) then throw .setPastDevice
  stage.sets.mapM fun set => buildTable reading index stage set (slots set)

/-- `ps5vk_cmd_buffer_shader_resources`: the images its stages sample, in order, and their tables. -/
def shaderTables (reading : Reading) (slots : Slots) (stages : List Stage) :
    Except ResourceRefusal (List Image × List DescriptorTable) := do
  if stages.any fun stage =>
      maxUserData < stage.userSgprCount || maxDescriptorBindings < stage.bindings.length then
    throw .metadataBudget
  stages.forM (checkPushPointer reading)
  let built ← stages.zipIdx.mapM (stageTables reading slots)
  return (built.flatten.flatMap (·.1), built.flatten.map (·.2))

section Reads

variable (reading : Reading) (index : Nat) (stage : Stage)

/-- Whether a binding's elements are looked for in the bound set. -/
def looksInSlot (binding : StageBinding) : Bool :=
  !stage.pushes binding && decide (0 < binding.arraySize) &&
    match reading.inputAttachment index binding with
    | .ok none => true
    | _ => false

/-- The set indices whose slots the tables of a stage are read from. -/
def stageReads : List (Fin descriptorSetCount) :=
  stage.sets.filter fun set =>
    stage.bindings.any fun binding =>
      decide (binding.set = (set : Nat)) && looksInSlot reading index stage binding

end Reads

/-- The set indices whose slots the resources of some stages are read from. -/
def shaderReads (reading : Reading) (stages : List Stage) : List (Fin descriptorSetCount) :=
  stages.zipIdx.flatMap fun (stage, index) => stageReads reading index stage

end Ps5Vulkan.Record
