import Ps5Vulkan.Queue.Submission
import Ps5Vulkan.Library.RegisterFile

/-!
# Attachments of a rendering

What `vkCmdBeginRendering` takes from its attachments: the checks it makes of them, the targets it
registers for them and the context registers it derives (`ps5vk_draw.c`). A rendering that is refused
says which check refused it.
-/

variable (defaults : Defaults) (info : RenderingInfo) (depth : DepthTarget)

namespace Ps5Vulkan.Record

open Queue (DeviceMemory RenderTarget swapchainImages)

/-- `struct ps5vk_agc_register`: a context register's offset and a value for it. -/
abbrev Register := Nat × UInt32

/-- `struct ps5vk_colour_format`, the words a colour target is programmed with. -/
structure ColourFormat where
  cbFormat : UInt32
  cbNumberType : UInt32
  cbCompSwap : UInt32
  deriving DecidableEq, Repr

/-- `VkFormat`, as far as a rendering tells formats apart: the depth formats it takes, and the
others by what `ps5vk_find_colour_format` has for them. -/
inductive Format where
  | d32Sfloat
  | d16Unorm
  | d24UnormS8Uint
  | d32SfloatS8Uint
  | other (colour : Option ColourFormat)
  deriving DecidableEq, Repr

/-- `vk_format_has_stencil`, of the depth formats a rendering takes. -/
def Format.hasStencil : Format → Bool
  | d24UnormS8Uint | d32SfloatS8Uint => true
  | _ => false

/-- `enum ps5vk_image_storage`. -/
inductive Storage where
  | rows
  | tiles
  deriving DecidableEq, Repr

/-- `VkImageViewType`. -/
inductive ViewType where
  | d1
  | d2
  | d3
  | cube
  | d1Array
  | d2Array
  | cubeArray
  deriving DecidableEq, Repr

/-- `struct ps5vk_image`, as a rendering reads it. `layerBytes` is `ps5vk_image_layer_bytes` and
`texelBytes` the format's block size. -/
structure Image where
  address : Nat
  size : Nat
  memory : Option DeviceMemory
  video : Int
  bufferIndex : Fin swapchainImages
  storage : Storage
  twoDimensional : Bool
  width : UInt32
  height : UInt32
  mipLevels : Nat
  arrayLayers : Nat
  samples : Nat
  texelBytes : UInt32
  layerBytes : Nat
  stencilOffset : Nat
  deriving DecidableEq, Repr

/-- `struct vk_image_view`. -/
structure ImageView where
  image : Image
  viewType : ViewType
  format : Format
  baseArrayLayer : Nat
  layerCount : Nat
  deriving DecidableEq, Repr

/-- `VkRenderingAttachmentInfo`. -/
structure Attachment where
  view : Option ImageView
  resolves : Bool
  deriving DecidableEq, Repr

/-- `VkRenderingInfo`. -/
structure RenderingInfo where
  flags : UInt32
  layerCount : Nat
  viewMask : BitVec 32
  colour : List Attachment
  depth : Option Attachment
  stencil : Option Attachment
  deriving DecidableEq, Repr

/-- Why a rendering or a draw is refused. -/
inductive Refusal where
  | renderingFlags
  | layersWithoutViewMask
  | viewsPastDevice
  | depthResolve
  | depthAttachment
  | stencilAttachment
  | severalColourAttachments
  | colourAttachmentsPastDevice
  | noAttachment
  | targetDefault
  | colourAttachment
  | drawRefusal
  | viewportCount
  | lineWidth
  | depthBiasClamp
  | depthBiasFormat
  | shaders
  | indexBuffer
  | computePipeline
  | descriptorSets
  | resources
  | encoding
  deriving DecidableEq, Repr

/-- `PS5VK_MULTISAMPLED`. -/
def multisampled (samples : Nat) : Bool :=
  samples == 2 || samples == 4 || samples == 8

/-- `util_logbase2` of a sample count, as a register word. -/
def sampleLog2 (samples : Nat) : UInt32 :=
  UInt32.ofNat samples.log2

/-- `maxMultiviewViewCount` and `maxColorAttachments`, as the physical device reports them. -/
def maxMultiviewViewCount : Nat := 8

@[inherit_doc maxMultiviewViewCount]
def maxColorAttachments : Nat := 4

theorem maxColorAttachments_pos : 0 < maxColorAttachments := by
  decide

/-- `ps5vk_target_offsets`: a row per register, a column per colour attachment. -/
def targetOffsets : List (List Nat) :=
  [[0x318, 0x327, 0x336, 0x345], [0x31b, 0x32a, 0x339, 0x348], [0x31c, 0x32b, 0x33a, 0x349],
   [0x31d, 0x32c, 0x33b, 0x34a], [0x31e, 0x32d, 0x33c, 0x34b], [0x31f, 0x32e, 0x33d, 0x34c],
   [0x321, 0x330, 0x33f, 0x34e], [0x323, 0x332, 0x341, 0x350], [0x324, 0x333, 0x342, 0x351],
   [0x325, 0x334, 0x343, 0x352], [0x390, 0x391, 0x392, 0x393], [0x398, 0x399, 0x39a, 0x39b],
   [0x3a0, 0x3a1, 0x3a2, 0x3a3], [0x3a8, 0x3a9, 0x3aa, 0x3ab], [0x3b0, 0x3b1, 0x3b2, 0x3b3],
   [0x3b8, 0x3b9, 0x3ba, 0x3bb]]

/-- The column of `targetOffsets` of one colour attachment. -/
def targetColumn (target : Fin maxColorAttachments) : List Nat :=
  targetOffsets.map fun row => row.getD target 0

/-- AGC's context defaults: `ps5vk_default_register`. -/
abbrev Defaults := Nat → Option UInt32

/-- `ps5vk_target_defaults_init`: target 0's defaults, when AGC has them all. -/
def targetDefaults : Option (List UInt32) :=
  (targetColumn ⟨0, maxColorAttachments_pos⟩).mapM defaults

/-- `ps5vk_default_target_registers`. -/
def defaultTargetRegisters (target : Fin maxColorAttachments) :
    Option (List Register) :=
  (targetDefaults defaults).map fun values => (targetColumn target).zip values

/-- What `ps5vk_target_registers` makes of a colour target's default at an index. -/
def targetValue (address : Nat) (width height : UInt32) (colour : ColourFormat) (samples : Nat)
    (linear : Bool) (index : Nat) (default : UInt32) : UInt32 :=
  let normalised := colour.cbNumberType = 0 ∨ colour.cbNumberType = 1 ∨ colour.cbNumberType = 6
  let integer := colour.cbNumberType = 4 ∨ colour.cbNumberType = 5
  let sampleBits := sampleLog2 samples ||| (sampleLog2 samples <<< (3 : UInt32))
  match index with
  | 0 => UInt32.ofNat (address / 2 ^ 8)
  | 1 => default &&& 0xfc001fff
  | 2 =>
    (default &&& ~~~((0x1f <<< (2 : UInt32)) ||| (0x7 <<< (8 : UInt32)) |||
      (0x3 <<< (11 : UInt32)) ||| (1 <<< (15 : UInt32)) ||| (1 <<< (16 : UInt32)) |||
      (1 <<< (18 : UInt32)) ||| 0x10000000 ||| 0x10000 ||| 0x40000 ||| 0x4000)) |||
    (colour.cbFormat <<< (2 : UInt32)) ||| (colour.cbNumberType <<< (8 : UInt32)) |||
    (colour.cbCompSwap <<< (11 : UInt32)) |||
    (if normalised then 0x8000 else 0) ||| (if integer then 0x10000 else 0) |||
    (if normalised then 0 else 0x40000)
  | 3 => (default &&& ~~~(0x7000 ||| 0x38000)) ||| (sampleBits <<< (12 : UInt32))
  | 4 => (default &&& ~~~(0x60 ||| 0x0c ||| 0x00100200 ||| 0x80000)) ||| 0x48
  | 5 | 6 | 9 => 0
  | 10 => (default &&& 0xffffff00) ||| (UInt32.ofNat (address / 2 ^ 40) &&& 0xff)
  | 11 | 12 | 13 => default &&& 0xffffff00
  | 14 => (height - 1) ||| ((width - 1) <<< (14 : UInt32))
  | 15 =>
    (default &&& ~~~(0x1fff ||| 0x7c000 ||| 0x03000000 ||| 0x44000000)) |||
    (if linear then 0 else 0x6c000) ||| 0x01000000 ||| 0x44000000
  | _ => default

/-- `ps5vk_target_registers`. -/
def targetRegisters (address : Nat) (width height : UInt32)
    (colour : ColourFormat) (samples : Nat) (linear : Bool) (target : Fin maxColorAttachments) :
    Option (List Register) :=
  (defaultTargetRegisters defaults target).map fun records =>
    records.mapIdx fun index record =>
      (record.1, targetValue address width height colour samples linear index record.2)

/-- `ps5vk_depth_registers`. -/
def depthRegisters (address stencilAddress : Nat) (width height : UInt32) (samples : Nat)
    (format : Format) : List Register :=
  let low := UInt32.ofNat (address / 2 ^ 8)
  let high := UInt32.ofNat (address / 2 ^ 40)
  let stencil : Bool := format.hasStencil && stencilAddress != 0
  let stencilLow := if stencil then UInt32.ofNat (stencilAddress / 2 ^ 8) else 0
  let stencilHigh := if stencil then UInt32.ofNat (stencilAddress / 2 ^ 40) else 0
  let zFormat : UInt32 :=
    if format = .d16Unorm then 1 else if format = .d24UnormS8Uint then 2 else 3
  let zInfo := (0x80000180 ||| zFormat) ||| (sampleLog2 samples <<< (2 : UInt32))
  [(0x010, zInfo), (0x011, if stencil then 0x20000181 else 0x20000180), (0x012, low),
   (0x013, stencilLow), (0x014, low), (0x015, stencilLow), (0x01a, high), (0x01b, stencilHigh),
   (0x01c, high), (0x01d, stencilHigh), (0x01e, 0), (0x002, 0), (0x005, 0),
   (0x007, (width - 1) ||| ((height - 1) <<< (16 : UInt32))), (0x00b, 0), (0x00a, 0)]

/-- `ps5vk_multisample_registers`. -/
def multisampleRegisters (samples : Nat) : List Register :=
  if multisampled samples then
    let log2 := sampleLog2 samples
    let locations : UInt32 :=
      if samples = 2 then 0x0000cc44 else if samples = 8 then 0xbd153fd1 else 0x622ae6ae
    let locationsHigh : UInt32 := if samples = 8 then 0x9773f95b else 0
    let distance : UInt32 := if samples = 2 then 4 else if samples = 8 then 7 else 6
    let centroid : UInt32 :=
      if samples = 2 then 0x10101010 else if samples = 8 then 0x76543210 else 0x32103210
    [(0x2f8, log2 ||| (distance <<< (13 : UInt32)) ||| (log2 <<< (20 : UInt32))), (0x292, 0x23),
     (0x201, log2 ||| (log2 <<< (8 : UInt32)) ||| (log2 <<< (12 : UInt32)) |||
       (1 <<< (16 : UInt32)) ||| (1 <<< (17 : UInt32)) ||| (1 <<< (20 : UInt32))),
     (0x2fe, locations), (0x302, locations), (0x306, locations), (0x30a, locations),
     (0x2f5, centroid), (0x2f6, centroid), (0x30e, 0xffffffff), (0x30f, 0xffffffff)] ++
    if samples = 8 then
      [0x2fe, 0x302, 0x306, 0x30a].map fun pixel => (pixel + 1, locationsHigh)
    else []
  else []

/-- The views a mask names, lowest first (`u_foreach_bit`). -/
def views (mask : BitVec 32) : List Nat :=
  (List.range 32).filter fun view => mask.getLsbD view

/-- The lowest view of a mask, 0 without one. -/
def firstView (mask : BitVec 32) : Nat :=
  (views mask).headD 0

/-- `util_last_bit`. -/
def lastBit (mask : BitVec 32) : Nat :=
  (views mask).getLast?.elim 0 (· + 1)

/-- `ps5vk_single_layer_2d_view`. -/
def singleLayer2dView (view : ImageView) : Bool :=
  view.viewType == .d2 || (view.viewType == .d2Array && view.layerCount == 1)

/-- `ps5vk_attachment_view_ok`. -/
def attachmentViewOk (view : ImageView) (viewMask : BitVec 32) : Bool :=
  if view.image.mipLevels ≠ 1 then false
  else if viewMask = 0 then singleLayer2dView view && view.image.arrayLayers == 1
  else if (view.viewType ≠ .d2 ∧ view.viewType ≠ .d2Array) ∨ view.layerCount < lastBit viewMask then
    false
  else view.image.arrayLayers == 1 || view.image.layerBytes != 0

/-- `ps5vk_attachment_layer_bytes`. -/
def attachmentLayerBytes (image : Image) : Nat :=
  if image.arrayLayers > 1 then image.layerBytes else 0

/-- `ps5vk_linear_target`. -/
def linearTarget (image : Image) : Bool :=
  image.storage != .tiles && image.samples == 1 && image.mipLevels == 1 &&
    image.arrayLayers == 1 && image.twoDimensional && (image.width * image.texelBytes) % 256 == 0

/-- `struct ps5vk_view_target`: what a colour target's registers are rebuilt from for a view. -/
structure ViewTarget where
  address : Nat
  layerBytes : Nat
  width : UInt32
  height : UInt32
  format : ColourFormat
  samples : Nat
  linear : Bool
  deriving DecidableEq, Repr

/-- A rendering's depth attachment: its image, where its view's layer 0 is and what its registers are
rebuilt from for a view. -/
structure DepthTarget where
  image : Image
  format : Format
  base : Nat
  layerBytes : Nat
  deriving DecidableEq, Repr

/-- The stencil plane's address. -/
def DepthTarget.stencilAddress : Nat :=
  depth.image.address + depth.image.stencilOffset

/-- The depth surface a view renders into. -/
def DepthTarget.address (view : Nat) : Nat :=
  depth.base + view * depth.layerBytes

/-- The depth registers for a view. -/
def DepthTarget.registers (view : Nat) : List Register :=
  depthRegisters (depth.address view) depth.stencilAddress depth.image.width depth.image.height
    depth.image.samples depth.format

/-- The rendering a command buffer is in: the attachments' registers a draw's table begins with, and
what they are rebuilt from for each view. -/
structure Pass where
  colour : List ViewTarget
  targetRows : List (List Register)
  multisample : List Register
  depth : Option DepthTarget
  depthTable : List Register
  viewMask : BitVec 32
  currentView : Nat
  images : List Image
  deriving DecidableEq, Repr

/-- `stencil_bound`. -/
def Pass.stencilBound (pass : Pass) : Bool :=
  pass.depth.any fun depth => depth.format.hasStencil && depth.stencilAddress != 0

/-- The depth attachment of a rendering, when it has one the driver takes. -/
def depthAttachment : Except Refusal (Option DepthTarget) :=
  match info.depth with
  | none => pure none
  | some attachment =>
    match attachment.view with
    | none => pure none
    | some view =>
      let image := view.image
      if attachment.resolves then throw .depthResolve
      else if (view.format ≠ .d32Sfloat ∧ view.format ≠ .d16Unorm ∧
            view.format ≠ .d24UnormS8Uint ∧ view.format ≠ .d32SfloatS8Uint) ∨
          ¬attachmentViewOk view info.viewMask ∨
          (image.samples ≠ 1 ∧ ¬multisampled image.samples) ∨ image.storage ≠ .tiles ∨
          (view.format.hasStencil ∧ (image.stencilOffset = 0 ∨ image.samples ≠ 1)) then
        throw .depthAttachment
      else
        let layerBytes := attachmentLayerBytes image
        pure (some ⟨image, view.format, image.address + view.baseArrayLayer * layerBytes,
          layerBytes⟩)

/-- The check of the stencil attachment, which has to be the depth attachment's own image. -/
def checkStencil (depth : Option DepthTarget) : Except Refusal Unit :=
  match info.stencil with
  | none => pure ()
  | some attachment =>
    match attachment.view with
    | none => pure ()
    | some view =>
      if depth.map DepthTarget.image ≠ some view.image ∨ view.viewType ≠ .d2 ∨
          attachment.resolves then throw .stencilAttachment
      else pure ()

/-- The target a rendering registers for an image. -/
def Image.target (image : Image) (address : Nat) (video : Int)
    (bufferIndex : Fin swapchainImages) : RenderTarget where
  memory := image.memory
  always := false
  address := address
  bytes := image.size
  video := video
  bufferIndex := bufferIndex

/-- One colour attachment: its row of registers, what the row is rebuilt from and its image. -/
def colourAttachment
    (target : Fin maxColorAttachments) (attachment : Attachment) :
    Except Refusal (ViewTarget × List Register × Image) :=
  match attachment.view with
  | none => throw .colourAttachment
  | some view =>
    let image := view.image
    match view.format with
    | .other (some format) =>
      if ¬attachmentViewOk view info.viewMask ∨
          (image.samples ≠ 1 ∧ ¬multisampled image.samples) ∨
          (image.storage ≠ .tiles ∧ ¬linearTarget image) then throw .colourAttachment
      else
        let layerBytes := attachmentLayerBytes image
        let row : ViewTarget :=
          ⟨image.address + view.baseArrayLayer * layerBytes, layerBytes, image.width,
            image.height, format, image.samples, image.storage != .tiles⟩
        match targetRegisters defaults (row.address + firstView info.viewMask * layerBytes)
            row.width row.height format row.samples row.linear target with
        | none => throw .targetDefault
        | some registers => pure (row, registers, image)
    | _ => throw .colourAttachment

/-- The targets a rendering registers for its depth attachment: it never has a wait packet. -/
def depthTargets (depth : Option DepthTarget) (view : Nat) : List RenderTarget :=
  depth.toList.map fun depth => depth.image.target (depth.address view) (-1) ⟨0, Queue.swapchainImages_pos⟩

/-- The rendering `vkCmdBeginRendering` opens, and the targets it registers. The colour attachment is
registered at its image's address, the depth attachment at the first view's layer. -/
def beginPass :
    Except Refusal (Pass × List RenderTarget) := do
  if info.flags &&& ~~~0x100 ≠ 0 then throw .renderingFlags
  if info.viewMask = 0 ∧ info.layerCount ≠ 1 then throw .layersWithoutViewMask
  if info.viewMask ≠ 0 ∧ lastBit info.viewMask > maxMultiviewViewCount then throw .viewsPastDevice
  let first := firstView info.viewMask
  let depth ← depthAttachment info
  checkStencil info depth
  if info.colour.length > 1 then throw .severalColourAttachments
  if info.colour.length > maxColorAttachments then throw .colourAttachmentsPastDevice
  let depthTable := depth.elim [] fun depth => depth.registers first
  let depthImages := depth.toList.map DepthTarget.image
  -- More than one colour attachment was refused, so the source's loop over them runs at most once.
  match info.colour.head?.filter fun attachment => attachment.view.isSome with
  | none =>
    match depth with
    | none => throw .noAttachment
    | some target =>
      match defaultTargetRegisters defaults ⟨0, by decide⟩ with
      | none => throw .targetDefault
      | some row =>
        pure (⟨[], [row], multisampleRegisters target.image.samples, depth, depthTable,
          info.viewMask, first, depthImages⟩, depthTargets depth first)
  | some attachment =>
    let (target, row, image) ← colourAttachment defaults info ⟨0, by decide⟩ attachment
    pure (⟨[target], [row], multisampleRegisters image.samples, depth, depthTable,
      info.viewMask, first, image :: depthImages⟩,
      image.target image.address image.video image.bufferIndex :: depthTargets depth first)

/-- `ps5vk_select_view`: the rendering with its registers at one view's layer. -/
def selectView (pass : Pass) (view : Nat) : Option Pass :=
  let rows : Option (List (List Register)) :=
    match pass.colour with
    | [] => some pass.targetRows
    | colour =>
      (colour.zip (List.finRange maxColorAttachments)).mapM fun (target, column) =>
        targetRegisters defaults (target.address + view * target.layerBytes) target.width
          target.height target.format target.samples target.linear column
  rows.map fun rows =>
    { pass with
      targetRows := rows
      depthTable := pass.depth.elim pass.depthTable fun depth => depth.registers view
      currentView := view }

/-- What a rendering that is begun has: its depth attachment and, in its one row of target registers,
a colour attachment or AGC's defaults. -/
structure Begun (defaults : Defaults) (info : RenderingInfo) (pass : Pass)
    (targets : List RenderTarget) : Prop where
  depth : depthAttachment info = .ok pass.depth
  depthTable : pass.depthTable = pass.depth.elim [] fun depth =>
    depth.registers (firstView info.viewMask)
  attachments :
    (∃ row target, pass.depth = some target ∧
      defaultTargetRegisters defaults ⟨0, by decide⟩ = some row ∧ pass.colour = [] ∧
      pass.targetRows = [row] ∧ pass.multisample = multisampleRegisters target.image.samples ∧
      pass.images = pass.depth.toList.map DepthTarget.image ∧
      targets = depthTargets pass.depth (firstView info.viewMask)) ∨
    ∃ attachment colour row image,
      colourAttachment defaults info ⟨0, by decide⟩ attachment = .ok (colour, row, image) ∧
      pass.colour = [colour] ∧ pass.targetRows = [row] ∧
      pass.multisample = multisampleRegisters image.samples ∧
      pass.images = image :: pass.depth.toList.map DepthTarget.image ∧
      targets = image.target image.address image.video image.bufferIndex ::
        depthTargets pass.depth (firstView info.viewMask)

theorem begun_of_beginPass {defaults : Defaults} {info : RenderingInfo} {pass : Pass}
    {targets : List RenderTarget} (h : beginPass defaults info = .ok (pass, targets)) :
    Begun defaults info pass targets := by
  unfold beginPass at h
  simp only [bind, Except.bind, throw, throwThe, MonadExceptOf.throw, pure, Except.pure] at h
  -- The checks before the depth attachment, in the source's order.
  split at h
  · cases h
  split at h
  · cases h
  split at h
  · cases h
  split at h
  · cases h
  rename_i depth hdepth
  split at h
  · cases h
  split at h
  · cases h
  split at h
  · cases h
  split at h
  · split at h
    · cases h
    · split at h
      · cases h
      · rename_i row hrow
        cases h
        exact ⟨hdepth, rfl, Or.inl ⟨row, _, rfl, hrow, rfl, rfl, rfl, rfl, rfl⟩⟩
  · rename_i attachment _
    split at h
    · cases h
    · rename_i result hcolour
      cases h
      exact ⟨hdepth, rfl, Or.inr ⟨attachment, _, _, _, hcolour, rfl, rfl, rfl, rfl, rfl⟩⟩

/-- A depth attachment's surface starts in the view's first layer. -/
theorem depthAttachment_base {info : RenderingInfo} {depth : DepthTarget}
    (h : depthAttachment info = .ok (some depth)) :
    ∃ view, info.depth.bind Attachment.view = some view ∧ depth.image = view.image ∧
      depth.layerBytes = attachmentLayerBytes view.image ∧
      depth.base = view.image.address + view.baseArrayLayer * depth.layerBytes := by
  unfold depthAttachment at h
  simp only [throw, throwThe, MonadExceptOf.throw, pure, Except.pure] at h
  split at h
  · cases h
  · rename_i attachment hattachment
    split at h
    · cases h
    · rename_i view hview
      split at h
      · cases h
      · split at h
        · cases h
        · cases h
          exact ⟨view, by rw [hattachment]; exact hview, rfl, rfl, rfl⟩

end Ps5Vulkan.Record
