import Ps5Vulkan.Record.Attachments

/-!
# The register table of a draw

A draw's pipeline and dynamic state and the table of context registers it records: the rendering's
attachments, the viewport and scissor, the shaders' own records and the words of the write mask, the
blend, rasterizer and clip state (`ps5vk_cmd_draw`). Seven of the table's blocks are there only for
some draws.
-/

variable (flags : AbFlags) (pipeline : Pipeline) (dynamic : DynamicState) (pass : Pass)

namespace Ps5Vulkan.Record

/-- The debug switches a draw reads (`ps5vk_ab_flags`). -/
structure AbFlags where
  fullMask : Bool
  constZero : Bool
  constHalf : Bool
  noStencil : Bool
  noDepth : Bool
  pixCenter : Bool

/-- `VkViewport`. -/
structure Viewport where
  x : Float32
  y : Float32
  width : Float32
  height : Float32
  minDepth : Float32
  maxDepth : Float32

/-- `VkRect2D`, of a scissor. -/
structure Scissor where
  x : Int32
  y : Int32
  width : UInt32
  height : UInt32

/-- `VkCompareOp`. -/
inductive CompareOp where
  | never
  | less
  | equal
  | lessOrEqual
  | greater
  | notEqual
  | greaterOrEqual
  | always
  deriving DecidableEq, Repr

/-- The operation's value, which is the register's too. -/
def CompareOp.word : CompareOp → UInt32
  | never => 0
  | less => 1
  | equal => 2
  | lessOrEqual => 3
  | greater => 4
  | notEqual => 5
  | greaterOrEqual => 6
  | always => 7

/-- `VkStencilOp`. -/
inductive StencilOp where
  | keep
  | zero
  | replace
  | incrementAndClamp
  | decrementAndClamp
  | invert
  | incrementAndWrap
  | decrementAndWrap
  deriving DecidableEq, Repr

/-- `ps5vk_stencil_op`. -/
def stencilOp : StencilOp → UInt32
  | .keep => 0
  | .zero => 1
  | .replace => 3
  | .incrementAndClamp => 5
  | .decrementAndClamp => 6
  | .invert => 7
  | .incrementAndWrap => 8
  | .decrementAndWrap => 9

/-- `struct vk_stencil_test_face_state`. -/
structure StencilFace where
  fail : StencilOp
  pass : StencilOp
  depthFail : StencilOp
  compare : CompareOp
  reference : UInt8
  compareMask : UInt8
  writeMask : UInt8

/-- `struct vk_dynamic_graphics_state`, as a draw reads it. -/
structure DynamicState where
  viewportCount : Nat
  scissorCount : Nat
  viewport : Viewport
  scissor : Scissor
  lineWidth : Float32
  depthBias : Bool
  depthBiasClamp : Float32
  depthBiasSlope : Float32
  depthBiasConstant : Float32
  depthTest : Bool
  depthWrite : Bool
  depthCompare : CompareOp
  stencilTest : Bool
  front : StencilFace
  back : StencilFace
  blendConstants : Fin 4 → Float32

/-- `struct ps5vk_pipeline`, as a draw reads it. The three tables are AGC's: the linked context
records and the two shaders' own. -/
structure Pipeline where
  drawRefusal : Bool
  prepared : Bool
  lineRasterizer : Bool
  rasterizerWord : UInt32
  discardRasterizer : Bool
  colourWriteMask : UInt32
  blendControl : UInt32
  blendUsesConstants : Bool
  blendConstantsDynamic : Bool
  blendConstants : Fin 4 → UInt32
  linked : List Register
  vertexTable : List Register
  pixelTable : List Register

/-- `PS5VK_DEPTH_CONTROL_REGISTER`. -/
def depthControlRegister : Nat := 0x200

/-- `ps5vk_depth_control`. -/
def depthControl (stencilBound : Bool) : UInt32 :=
  let stencilBits : UInt32 :=
    if stencilBound && dynamic.stencilTest && !flags.noStencil then
      0x81 ||| (dynamic.front.compare.word <<< (8 : UInt32)) |||
        (dynamic.back.compare.word <<< (20 : UInt32))
    else 0
  if flags.noDepth then stencilBits
  else
    stencilBits ||| (if dynamic.depthTest then 2 else 0) ||| (if dynamic.depthWrite then 4 else 0) |||
      (dynamic.depthCompare.word <<< (4 : UInt32))

/-- `ps5vk_stencil_refmask`. -/
def stencilRefmask (face : StencilFace) : UInt32 :=
  face.reference.toUInt32 ||| (face.compareMask.toUInt32 <<< (8 : UInt32)) |||
    (face.writeMask.toUInt32 <<< (16 : UInt32)) ||| 0x1000000

/-- `ps5vk_stencil_registers`. -/
def stencilRegisters : List Register :=
  let front := dynamic.front
  let back := dynamic.back
  [(0x10b, stencilOp front.fail ||| (stencilOp front.pass <<< (4 : UInt32)) |||
      (stencilOp front.depthFail <<< (8 : UInt32)) ||| (stencilOp back.fail <<< (12 : UInt32)) |||
      (stencilOp back.pass <<< (16 : UInt32)) ||| (stencilOp back.depthFail <<< (20 : UInt32))),
   (0x10c, stencilRefmask front), (0x10d, stencilRefmask back)]

/-- `ps5vk_viewport_registers`. -/
def viewportRegisters (viewport : Viewport) (scissor : Scissor) : List Register :=
  let left := scissor.x.toUInt32
  let top := scissor.y.toUInt32
  let low := if viewport.minDepth < viewport.maxDepth then viewport.minDepth else viewport.maxDepth
  let high := if viewport.minDepth > viewport.maxDepth then viewport.minDepth else viewport.maxDepth
  let one : Float32 := 1
  [(0x10f, (viewport.width * 0.5).toBits), (0x110, (viewport.x + viewport.width * 0.5).toBits),
   (0x111, (viewport.height * 0.5).toBits), (0x112, (viewport.y + viewport.height * 0.5).toBits),
   (0x113, (viewport.maxDepth - viewport.minDepth).toBits), (0x114, viewport.minDepth.toBits),
   (0x0b4, low.toBits), (0x0b5, high.toBits), (0x2fa, one.toBits), (0x2fb, one.toBits),
   (0x2fc, one.toBits), (0x2fd, one.toBits),
   (0x090, 0x80000000 ||| left ||| (top <<< (16 : UInt32))),
   (0x091, (left + scissor.width) ||| ((top + scissor.height) <<< (16 : UInt32))), (0x08e, 0xf)]

/-- The depth block of a draw's table: the depth target and its control word, and the stencil state
of a draw that tests stencil. -/
def depthBlock (dynamic : DynamicState) : List Register :=
  if pass.depth.isSome then
    pass.depthTable ++ [(depthControlRegister, depthControl flags dynamic pass.stencilBound)] ++
      if pass.stencilBound && dynamic.stencilTest then stencilRegisters dynamic else []
  else []

/-- The write masks, after every other record has set them. -/
def maskBlock : List Register :=
  (0x08e, if flags.fullMask && pipeline.colourWriteMask != 0 then 0xf
    else pipeline.colourWriteMask) ::
  if pipeline.colourWriteMask = 0 then [(0x08f, pipeline.colourWriteMask)] else []

/-- One of the four blend constants. -/
def blendConstant (index : Fin 4) :
    UInt32 :=
  if flags.constZero then (0 : Float32).toBits
  else if flags.constHalf then (0.5 : Float32).toBits
  else if pipeline.blendConstantsDynamic then (dynamic.blendConstants index).toBits
  else pipeline.blendConstants index

/-- The blend words, and the constants when the pipeline's factors read them. -/
def blendBlock : List Register :=
  [(0x1e0, pipeline.blendControl), (0x202, 0x00cc0011)] ++
    if pipeline.blendUsesConstants then
      [(0x105, blendConstant flags pipeline dynamic 0), (0x106, blendConstant flags pipeline dynamic 1),
       (0x107, blendConstant flags pipeline dynamic 2),
       (0x108, blendConstant flags pipeline dynamic 3)]
    else []

/-- The rasterizer word with the two enables of a depth bias. -/
def rasterizerWord : UInt32 :=
  pipeline.rasterizerWord ||| if dynamic.depthBias then 0x1800 else 0

/-- Whether a draw records the six words of the polygon offset. -/
def recordsOffset (dynamic : DynamicState) : Bool :=
  dynamic.depthBias && pass.depth.isSome

/-- The six words of the polygon offset, the back face's as the front's. -/
def offsetBlock : List Register :=
  let scale := (dynamic.depthBiasSlope * 16).toBits
  let offset := dynamic.depthBiasConstant.toBits
  [(0x2de, 0x1e9), (0x2df, dynamic.depthBiasClamp.toBits), (0x2e0, scale), (0x2e1, offset),
   (0x2e2, scale), (0x2e3, offset)]

/-- The three words of a line. -/
def lineBlock : List Register :=
  [(0x29b, 1), (0x282, 8), (0x2f7, 0)]

/-- The rasterizer and clip words, and those of a depth bias and of a line where the draw has them. -/
def rasterBlock (pipeline : Pipeline) (dynamic : DynamicState) :
    List Register :=
  [(0x205, rasterizerWord pipeline dynamic)] ++
    (if flags.pixCenter then [(0x2f9, 0x2d)] else []) ++
    [(0x204, if pipeline.discardRasterizer then 0x400000 else 0)] ++
    (if recordsOffset pass dynamic then offsetBlock dynamic else []) ++
    if pipeline.lineRasterizer then lineBlock else []

/-- The context-register table of a draw. -/
def drawTable (pipeline : Pipeline) (dynamic : DynamicState) :
    List Register :=
  pass.targetRows.flatten ++ pass.multisample ++ depthBlock flags pass dynamic ++
    viewportRegisters dynamic.viewport dynamic.scissor ++
    (pipeline.linked ++ pipeline.vertexTable ++ pipeline.pixelTable) ++
    maskBlock flags pipeline ++ blendBlock flags pipeline dynamic ++
    rasterBlock flags pass pipeline dynamic

/-- The table that leaves a rendering with a depth attachment. -/
def depthResetTable : List Register :=
  [(depthControlRegister, 0)]

/-- The checks of a draw's pipeline and dynamic state, in the source's order. -/
def drawRefused (pipeline : Pipeline) (dynamic : DynamicState) : Option Refusal :=
  if pipeline.drawRefusal then some .drawRefusal
  else if dynamic.viewportCount ≠ 1 ∨ dynamic.scissorCount ≠ 1 then some .viewportCount
  else if pipeline.lineRasterizer && dynamic.lineWidth != 1 then some .lineWidth
  else if dynamic.depthBias && dynamic.depthBiasClamp != 0 then some .depthBiasClamp
  else if dynamic.depthBias && pass.depth.any fun depth =>
      depth.format != .d32Sfloat && depth.format != .d32SfloatS8Uint then some .depthBiasFormat
  else if !pipeline.prepared then some .shaders
  else none

end Ps5Vulkan.Record
