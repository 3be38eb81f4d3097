import Ps5Vulkan.Image.Storage
import Ps5Vulkan.Library.BitFields
import Ps5Vulkan.Record.Descriptors

/-!
# The descriptor of a sampled view

What a draw takes from an image view (`ps5vk_sampled_image`) and the words it packs that into
(`ps5vk_write_image_descriptor`), read back with the field layout of `docs/HARDWARE_FINDINGS.md`. Every
field says what the view says, save the type of an array view of six layers of an image that could
also be viewed as a cube: the words call that view a cube.

## Implementation notes

A view carries what valid usage asks of it: it names levels the image has, a 2D view one layer, a cube
view six layers of a cube-compatible image, which has one sample. The format table is a parameter. The
targets a command buffer rendered into, and so the barrier a sample needs, are the recorder's.
-/

variable (formatSel : Nat)

namespace Ps5Vulkan.Image

open BitFields
open Record (Sampler ViewType)

/-- `VkComponentSwizzle`. -/
inductive ComponentSwizzle where
  | identity
  | zero
  | one
  | component (channel : Fin 4)
  deriving DecidableEq, Repr

/-- What `ps5vk_find_format` has for a sampled format: the value of the descriptor's format field and
the selectors of its channels. -/
structure FormatEntry where
  imageFormat : Nat
  dstSel : Nat
  imageFormat_lt : imageFormat < 2 ^ 9

/-- `ps5vk_formats`, as a fetch reads it. -/
abbrev SampledFormats := Format → Option FormatEntry

/-- `VK_FORMAT_R8_UINT`. -/
def r8Uint : Format := .colour 13 1

/-- `struct vk_image_view`. -/
structure SampledView where
  image : BoundImage
  cubeCompatible : Bool
  viewType : ViewType
  aspect : Aspect
  swizzle : Fin 4 → ComponentSwizzle
  baseMipLevel : Nat
  levelCount : Nat
  baseArrayLayer : Nat
  layerCount : Nat
  levelCount_pos : 0 < levelCount
  levels_le : baseMipLevel + levelCount ≤ image.mipLevels
  layerCount_pos : 0 < layerCount
  single_layer : viewType = .d2 → layerCount = 1
  cube_layers : viewType = .cube → layerCount = 6 ∧ cubeCompatible = true
  cube_samples : cubeCompatible = true → image.samples = 1

/-- One channel of `ps5vk_compose_dst_sel`. -/
def selector (channel : Fin 4) : ComponentSwizzle → Nat
  | .zero => 0
  | .one => 1
  | .component wanted => (formatSel >>> (3 * wanted.val)) &&& 7
  | .identity => (formatSel >>> (3 * channel.val)) &&& 7

/-- `ps5vk_compose_dst_sel`. -/
def composeDstSel (swizzle : Fin 4 → ComponentSwizzle) : Nat :=
  (List.finRange 4).foldl (fun composed channel =>
    composed ||| selector formatSel channel (swizzle channel) <<< (3 * channel.val)) 0

/-- `struct ps5vk_sampled_image`, without the barrier. -/
structure Sampled where
  address : Nat
  width : Nat
  height : Nat
  formatWord : Nat
  pitchTexels : Nat
  dstSel : Nat
  samplerWord : UInt32
  addressWord : UInt32
  borderWord : UInt32
  baseMipLevel : Nat
  lastMipLevel : Nat
  imageLastMipLevel : Nat
  baseLayer : Nat
  layerCount : Nat
  array : Bool
  cube : Bool
  sampleLog2 : Nat
  lodWord : UInt32
  tiled : Bool
  depthTiles : Bool

namespace SampledView

variable (view : SampledView)

/-- Whether the view names the stencil aspect alone. -/
def stencilAspect : Bool := view.aspect = .stencil

/-- The address of the plane the view names. -/
def address : Nat := view.image.address + if view.stencilAspect then view.image.stencilOffset else 0

/-- The format a fetch of the view reads. -/
def fetchFormat : Format := if view.stencilAspect then r8Uint else view.image.format

/-- The texels from one row of the image to the next. -/
def pitchTexels : Nat :=
  alignTo (view.image.width * view.image.format.blockSize) 256 / view.image.format.blockSize

/-- A row image whose rows are longer than its width. -/
def padded : Bool := !view.image.tiled && view.pitchTexels != view.image.width

/-- A view that a descriptor treats as one 2D image. -/
def single2d : Bool :=
  view.image.arrayLayers == 1 &&
    (view.viewType == .d2 || (view.viewType == .d2Array && view.layerCount == 1))

/-- Whether the descriptor carries a row pitch in the place of the layers. -/
def customPitch : Bool :=
  !view.image.tiled && view.single2d && (view.padded || decide (1 < view.image.mipLevels))

end SampledView

/-- `PS5VK_TEXTURE_CLAMP_TO_EDGE`. -/
def clampToEdge : UInt32 := UInt32.ofNat (2 ||| 2 <<< 3 ||| 2 <<< 6)

/-- What `ps5vk_sampled_image` fills in once it accepts a view. `sampler` is the written one,
`needsSampler` whether the record is a combined image sampler's, and `baseMipOnly` the diagnostic
switch. -/
def SampledView.sampled (view : SampledView) (baseMipOnly needsSampler : Bool)
    (sampler : Option Sampler) (entry : FormatEntry) : Sampled where
  address := view.address
  width := view.image.width
  height := view.image.height
  formatWord := entry.imageFormat <<< 20
  pitchTexels := if view.customPitch then view.pitchTexels else 0
  dstSel := composeDstSel entry.dstSel view.swizzle
  samplerWord := if needsSampler then (sampler.map Sampler.word).getD 0 else 0
  addressWord := if needsSampler then (sampler.map Sampler.addressWord).getD 0 else clampToEdge
  borderWord := if needsSampler then (sampler.map Sampler.borderWord).getD 0 else 0
  baseMipLevel := view.baseMipLevel
  lastMipLevel :=
    if baseMipOnly then view.baseMipLevel else view.baseMipLevel + view.levelCount - 1
  imageLastMipLevel := view.image.mipLevels - 1
  baseLayer := view.baseArrayLayer
  layerCount := view.layerCount
  array := decide (view.layerCount > 1)
  cube := view.layerCount == 6 && view.cubeCompatible
  sampleLog2 := Nat.log2 view.image.samples
  lodWord := if needsSampler then (sampler.map Sampler.lodWord).getD 0 else 0
  tiled := view.image.tiled
  depthTiles := view.image.tiled && (view.image.format.hasDepth || view.stencilAspect)

/-- `ps5vk_sampled_image`, of a view it was given. -/
def sampledImage (formats : SampledFormats) (baseMipOnly needsSampler : Bool)
    (sampler : Option Sampler) (view : SampledView) : Option Sampled :=
  if needsSampler ∧ sampler = none then none
  else if view.viewType ≠ .d2 ∧ view.viewType ≠ .d2Array ∧ view.viewType ≠ .cube then none
  else if view.image.address = 0 then none
  else if view.baseArrayLayer + view.layerCount > view.image.arrayLayers then none
  else if view.layerCount > 1 ∧ view.image.layerBytes = 0 then none
  else if view.image.samples ≠ 1 ∧ (view.image.tiled = false ∨ view.image.mipLevels ≠ 1) then none
  else if view.padded = true ∧ (view.single2d = false ∨ view.pitchTexels > 0x4000) then none
  else if view.stencilAspect = true ∧ (view.image.stencilOffset = 0 ∨ view.image.mipLevels ≠ 1 ∨
      view.image.arrayLayers ≠ 1 ∨ view.image.samples ≠ 1) then none
  else
    match formats view.fetchFormat with
    | none => none
    | some entry =>
      if entry.imageFormat = 0 ∨ entry.dstSel = 0 then none
      else some (view.sampled baseMipOnly needsSampler sampler entry)

/-! ## The words -/

def texture2dKind : Nat := 0x90000000

def texture2dTiledKind : Nat := 0x91b00000

def textureSwizzle : Nat := 0x01b00000

def textureSwizzleZ : Nat := 0x01800000

def textureSwizzleMask : Nat := 0x01f00000

def texture2dArrayKind : Nat := 0xd <<< 28

def textureCubeKind : Nat := 0xb <<< 28

def texture2dMsaaKind : Nat := 0xe <<< 28

def texture2dMsaaArrayKind : Nat := 0xf <<< 28

namespace Sampled

variable (sampled : Sampled)

/-- The kind of word 3: its type and the swizzle of its tiles. -/
def kind : Nat :=
  let swizzle := if sampled.tiled then textureSwizzle else 0
  if sampled.cube then textureCubeKind ||| swizzle
  else if sampled.array then texture2dArrayKind ||| swizzle
  else if sampled.tiled then texture2dTiledKind
  else texture2dKind

/-- The kind of a multisampled image. -/
def sampledKind : Nat :=
  if sampled.sampleLog2 = 0 then sampled.kind
  else (if sampled.array then texture2dMsaaArrayKind else texture2dMsaaKind) ||| textureSwizzle

/-- The kind with the swizzle of the depth block's tiles. -/
def swizzledKind : Nat :=
  if sampled.depthTiles then
    (sampled.sampledKind &&& (0xffffffff ^^^ textureSwizzleMask)) ||| textureSwizzleZ
  else sampled.sampledKind

def firstLevel : Nat := if sampled.sampleLog2 ≠ 0 then 0 else sampled.baseMipLevel

def lastLevel : Nat := if sampled.sampleLog2 ≠ 0 then sampled.sampleLog2 else sampled.lastMipLevel

/-- The image's last level, or the logarithm of its sample count. -/
def maxMip : Nat := if sampled.sampleLog2 ≠ 0 then sampled.sampleLog2 else sampled.imageLastMipLevel

/-- Word 4: the layers, or the row pitch. -/
def layersWord : Nat :=
  if sampled.pitchTexels ≠ 0 then sampled.pitchTexels - 1
  else
    (if sampled.layerCount > 0 then (sampled.layerCount - 1) &&& 0x1fff else 0) |||
      (sampled.baseLayer &&& 0x1fff) <<< 16

/-- `ps5vk_write_image_descriptor`. -/
def writeImageDescriptor : List UInt32 :=
  [UInt32.ofNat (sampled.address >>> 8),
    UInt32.ofNat (sampled.formatWord ||| ((sampled.width - 1) &&& 3) <<< 30 |||
      sampled.address >>> 40),
    UInt32.ofNat ((sampled.width - 1) >>> 2 ||| (sampled.height - 1) <<< 14 ||| 0x80000000),
    UInt32.ofNat (sampled.swizzledKind ||| sampled.dstSel ||| sampled.firstLevel <<< 12 |||
      sampled.lastLevel <<< 16),
    UInt32.ofNat sampled.layersWord,
    UInt32.ofNat (0x00400000 ||| sampled.maxMip <<< 4),
    0, 0,
    sampled.addressWord,
    if sampled.imageLastMipLevel = 0 then 0x00fff000 else sampled.lodWord,
    sampled.samplerWord,
    sampled.borderWord]

end Sampled

/-! ## The fields of a descriptor -/

/-- A field of a word of a descriptor. -/
structure DescriptorField where
  word : Nat
  field : Field

namespace DescriptorField

def baseAddress : DescriptorField := ⟨0, ⟨0, 32⟩⟩

def baseAddressHi : DescriptorField := ⟨1, ⟨0, 8⟩⟩

def format : DescriptorField := ⟨1, ⟨20, 9⟩⟩

def widthLo : DescriptorField := ⟨1, ⟨30, 2⟩⟩

def widthHi : DescriptorField := ⟨2, ⟨0, 12⟩⟩

def height : DescriptorField := ⟨2, ⟨14, 14⟩⟩

def resourceLevel : DescriptorField := ⟨2, ⟨31, 1⟩⟩

def dstSel : DescriptorField := ⟨3, ⟨0, 12⟩⟩

def baseLevel : DescriptorField := ⟨3, ⟨12, 4⟩⟩

def lastLevel : DescriptorField := ⟨3, ⟨16, 4⟩⟩

def swMode : DescriptorField := ⟨3, ⟨20, 5⟩⟩

def type : DescriptorField := ⟨3, ⟨28, 4⟩⟩

def depth : DescriptorField := ⟨4, ⟨0, 13⟩⟩

def baseArray : DescriptorField := ⟨4, ⟨16, 13⟩⟩

def maxMip : DescriptorField := ⟨5, ⟨4, 4⟩⟩

/-- The number a descriptor has at a field. -/
def get (field : DescriptorField) (words : List UInt32) : Nat :=
  field.field.get (words.getD field.word 0).toNat

end DescriptorField

namespace SampledView

variable (view : SampledView)

/-- The resource type of a view: a cube for a cube view, an array for an array view of several layers,
a 2D image otherwise, and those of a multisampled image (`SQ_RSRC_IMG_TYPE`). -/
def resourceType : Nat :=
  if view.viewType = .cube then 11
  else if view.viewType = .d2Array ∧ 1 < view.layerCount then
    if view.image.samples = 1 then 13 else 15
  else if view.image.samples = 1 then 9 else 14

/-- The tile mode of the image: rows, the depth block's tiles or the colour block's. -/
def tileMode : Nat :=
  if view.image.tiled then
    if view.image.format.hasDepth || view.stencilAspect then 0x18 else 0x1b
  else 0

/-- The descriptor says what the view says, in every field. -/
structure Describes (formats : SampledFormats) (words : List UInt32) : Prop where
  address : DescriptorField.baseAddress.get words * 2 ^ 8 +
    DescriptorField.baseAddressHi.get words * 2 ^ 40 = view.address
  width : DescriptorField.widthHi.get words * 4 + DescriptorField.widthLo.get words + 1 =
    view.image.width
  height : DescriptorField.height.get words + 1 = view.image.height
  baseLevel : DescriptorField.baseLevel.get words =
    if view.image.samples = 1 then view.baseMipLevel else 0
  lastLevel : DescriptorField.lastLevel.get words =
    if view.image.samples = 1 then view.baseMipLevel + view.levelCount - 1
    else Nat.log2 view.image.samples
  maxMip : DescriptorField.maxMip.get words =
    if view.image.samples = 1 then view.image.mipLevels - 1 else Nat.log2 view.image.samples
  type : DescriptorField.type.get words = view.resourceType
  layers : view.customPitch = false →
    DescriptorField.baseArray.get words = view.baseArrayLayer ∧
      DescriptorField.depth.get words = view.layerCount - 1
  format : ∀ entry, formats view.fetchFormat = some entry →
    DescriptorField.format.get words = entry.imageFormat ∧
      DescriptorField.dstSel.get words = composeDstSel entry.dstSel view.swizzle
  swMode : DescriptorField.swMode.get words = view.tileMode
  resourceLevel : DescriptorField.resourceLevel.get words = 1

/-- A view whose type and levels the words can tell: not an array of six layers of a cube-compatible
image, and with the diagnostic switch of one level. -/
def Tellable (baseMipOnly : Bool) : Prop :=
  ¬ (view.viewType = .d2Array ∧ view.layerCount = 6 ∧ view.cubeCompatible = true) ∧
    (baseMipOnly = true → view.image.samples = 1 → view.levelCount = 1)

end SampledView

/-! ## Reading the words back -/

section Words

variable {fields : List (Field × Nat)} {f : Field} {v : Nat}

/-- A packed word is read back through its 32 bits. -/
theorem get_word (h : Packable fields) (hbits : ∀ p ∈ fields, p.1.low + p.1.width ≤ 32)
    (hmem : (f, v) ∈ fields) : f.get (UInt32.ofNat (pack fields)).toNat = v := by
  rw [UInt32.toNat_ofNat', Nat.mod_eq_of_lt (h.pack_lt hbits)]
  exact h.get_pack hmem

end Words

theorem selector_lt (channel : Fin 4) (wanted : ComponentSwizzle) : selector formatSel channel wanted < 2 ^ 3 := by
  cases wanted with
  | identity => exact Nat.and_lt_two_pow _ (by decide)
  | zero => exact Nat.two_pow_pos 3
  | one => exact Nat.one_lt_two_pow (by decide)
  | component wanted => exact Nat.and_lt_two_pow _ (by decide)

/-- The selectors take twelve bits. -/
theorem composeDstSel_lt (swizzle : Fin 4 → ComponentSwizzle) : composeDstSel formatSel swizzle < 2 ^ 12 := by
  apply List.foldlRecOn (motive := fun composed => composed < 2 ^ 12)
  · decide
  · intro composed hcomposed channel _
    apply Nat.or_lt_two_pow hcomposed
    calc selector formatSel channel (swizzle channel) <<< (3 * channel.val)
        = selector formatSel channel (swizzle channel) * 2 ^ (3 * channel.val) := Nat.shiftLeft_eq ..
      _ < 2 ^ 3 * 2 ^ (3 * channel.val) :=
          Nat.mul_lt_mul_of_pos_right (selector_lt ..) (Nat.two_pow_pos _)
      _ = 2 ^ (3 + 3 * channel.val) := (Nat.pow_add ..).symm
      _ ≤ 2 ^ 12 := Nat.pow_le_pow_right Nat.two_pos (by have := channel.isLt; omega)

namespace Sampled

variable (sampled : Sampled)

/-- The type of word 3. -/
def wordType : Nat :=
  if sampled.sampleLog2 = 0 then
    if sampled.cube then 11 else if sampled.array then 13 else 9
  else if sampled.array then 15 else 14

/-- The tile mode of word 3. -/
def wordMode : Nat :=
  if sampled.depthTiles then 0x18 else if sampled.tiled then 0x1b else 0

/-- The kind of word 3 is its type and tile mode. -/
theorem swizzledKind_eq (htiled : sampled.sampleLog2 ≠ 0 → sampled.tiled = true) :
    sampled.swizzledKind = sampled.wordType <<< 28 ||| sampled.wordMode <<< 20 := by
  by_cases hlog : sampled.sampleLog2 = 0
  · cases htile : sampled.tiled <;> cases hcube : sampled.cube <;> cases harray : sampled.array <;>
      cases hdepth : sampled.depthTiles <;>
      simp only [swizzledKind, sampledKind, kind, wordType, wordMode, hlog, htile, hcube, harray, hdepth] <;>
      decide
  · have htile := htiled hlog
    cases harray : sampled.array <;> cases hdepth : sampled.depthTiles <;>
      simp only [swizzledKind, sampledKind, wordType, wordMode, hlog, htile, harray, hdepth, if_false] <;>
      decide

end Sampled

/-! ## A view and its words -/

/-- What `ps5vk_sampled_image` has found out about a view it accepts. -/
structure SampledView.Accepted (formats : SampledFormats) (view : SampledView) (entry : FormatEntry) :
    Prop where
  entry : formats view.fetchFormat = some entry
  type : view.viewType = .d2 ∨ view.viewType = .d2Array ∨ view.viewType = .cube
  layers : view.baseArrayLayer + view.layerCount ≤ view.image.arrayLayers
  multisampled : view.image.samples ≠ 1 → view.image.tiled = true ∧ view.image.mipLevels = 1

theorem sampledImage_eq_some {formats : SampledFormats} {baseMipOnly needsSampler : Bool}
    {sampler : Option Sampler} {view : SampledView} {sampled : Sampled}
    (h : sampledImage formats baseMipOnly needsSampler sampler view = some sampled) :
    ∃ entry, view.Accepted formats entry ∧ sampled = view.sampled baseMipOnly needsSampler sampler entry := by
  unfold sampledImage at h
  repeat
    split at h
    · cases h
  rename_i _ htype _ hlayers _ hsamples _ _ _ entry hentry _
  cases h
  refine ⟨entry, ⟨hentry, ?_, not_lt.mp hlayers, fun hmulti => ?_⟩, rfl⟩
  · by_contra hother
    exact htype (by simpa only [not_or] using hother)
  · simpa [hmulti] using hsamples

/-- The numbers of a descriptor fit their fields. `format` is the value of the format field. -/
structure Sampled.Fits (sampled : Sampled) (format : Nat) : Prop where
  formatWord : sampled.formatWord = format <<< 20
  format_lt : format < 2 ^ 9
  address_lt : sampled.address < 2 ^ 48
  width_lt : sampled.width - 1 < 2 ^ 14
  height_lt : sampled.height - 1 < 2 ^ 14
  dstSel_lt : sampled.dstSel < 2 ^ 12
  firstLevel_lt : sampled.firstLevel < 2 ^ 4
  lastLevel_lt : sampled.lastLevel < 2 ^ 4
  maxMip_lt : sampled.maxMip < 2 ^ 4
  baseLayer_lt : sampled.baseLayer < 2 ^ 13
  layerCount_lt : sampled.layerCount - 1 < 2 ^ 13
  tiled : sampled.sampleLog2 ≠ 0 → sampled.tiled = true

namespace Sampled

variable {sampled : Sampled} {format : Nat}

/-- The fields of each word of the image's half, with their values. -/
def wordFields (sampled : Sampled) (format : Nat) : Nat → List (Field × Nat)
  | 0 => [(DescriptorField.baseAddress.field, (sampled.address >>> 8) % 2 ^ 32)]
  | 1 =>
    [(DescriptorField.format.field, format),
      (DescriptorField.widthLo.field, (sampled.width - 1) &&& 3),
      (DescriptorField.baseAddressHi.field, sampled.address >>> 40)]
  | 2 =>
    [(DescriptorField.widthHi.field, (sampled.width - 1) >>> 2),
      (DescriptorField.height.field, sampled.height - 1),
      (DescriptorField.resourceLevel.field, 1)]
  | 3 =>
    [(DescriptorField.type.field, sampled.wordType),
      (DescriptorField.swMode.field, sampled.wordMode),
      (DescriptorField.dstSel.field, sampled.dstSel),
      (DescriptorField.baseLevel.field, sampled.firstLevel),
      (DescriptorField.lastLevel.field, sampled.lastLevel)]
  | 4 =>
    [(DescriptorField.depth.field, sampled.layerCount - 1),
      (DescriptorField.baseArray.field, sampled.baseLayer)]
  | 5 => [(⟨22, 1⟩, 1), (DescriptorField.maxMip.field, sampled.maxMip)]
  | _ => []

theorem wordType_lt (sampled : Sampled) : sampled.wordType < 2 ^ 4 := by
  unfold wordType
  split_ifs <;> decide

theorem wordMode_lt (sampled : Sampled) : sampled.wordMode < 2 ^ 5 := by
  unfold wordMode
  split_ifs <;> decide

/-- The fields of a word lie inside it, apart from each other. -/
theorem wordFields_apart (sampled : Sampled) (format word : Nat) :
    (sampled.wordFields format word).Pairwise (fun p q => p.1.Apart q.1) ∧
      ∀ p ∈ sampled.wordFields format word, p.1.low + p.1.width ≤ 32 := by
  have hfields : ∀ fields : List (Field × Nat), ((fields.map Prod.fst).Pairwise Field.Apart ∧
        ∀ f ∈ fields.map Prod.fst, f.low + f.width ≤ 32) →
      fields.Pairwise (fun p q => p.1.Apart q.1) ∧ ∀ p ∈ fields, p.1.low + p.1.width ≤ 32 :=
    fun fields h => ⟨List.pairwise_map.mp h.1, fun p hp => h.2 _ (List.mem_map_of_mem hp)⟩
  apply hfields
  match word with
  | 0 | 1 | 2 | 3 | 4 | 5 | _ + 6 =>
    simp only [wordFields, List.map]
    decide

theorem Fits.wordFields_fits (h : sampled.Fits format) (word : Nat) :
    ∀ p ∈ sampled.wordFields format word, p.2 < 2 ^ p.1.width := by
  have hhi : sampled.address >>> 40 < 2 ^ 8 := by
    rw [Nat.shiftRight_eq_div_pow]
    exact Nat.div_lt_of_lt_mul h.address_lt
  have hwidth : (sampled.width - 1) >>> 2 < 2 ^ 12 := by
    rw [Nat.shiftRight_eq_div_pow]
    exact Nat.div_lt_of_lt_mul h.width_lt
  match word with
  | 0 => exact List.forall_mem_singleton.mpr (Nat.mod_lt _ (by decide))
  | 1 =>
    simp only [wordFields, List.forall_mem_cons, List.not_mem_nil, false_imp_iff, implies_true, and_true]
    exact ⟨h.format_lt, Nat.and_lt_two_pow _ (by decide), hhi⟩
  | 2 =>
    simp only [wordFields, List.forall_mem_cons, List.not_mem_nil, false_imp_iff, implies_true, and_true]
    exact ⟨hwidth, h.height_lt, by decide⟩
  | 3 =>
    simp only [wordFields, List.forall_mem_cons, List.not_mem_nil, false_imp_iff, implies_true, and_true]
    exact ⟨sampled.wordType_lt, sampled.wordMode_lt, h.dstSel_lt, h.firstLevel_lt, h.lastLevel_lt⟩
  | 4 =>
    simp only [wordFields, List.forall_mem_cons, List.not_mem_nil, false_imp_iff, implies_true, and_true]
    exact ⟨h.layerCount_lt, h.baseLayer_lt⟩
  | 5 =>
    simp only [wordFields, List.forall_mem_cons, List.not_mem_nil, false_imp_iff, implies_true, and_true]
    exact ⟨by decide, h.maxMip_lt⟩
  | _ + 6 => exact List.forall_mem_nil _

/-- Without a pitch word 4 has the layers, and the masks cut nothing off. -/
theorem Fits.layersWord_eq (h : sampled.Fits format) (hpitch : sampled.pitchTexels = 0) :
    sampled.layersWord = (sampled.layerCount - 1) ||| sampled.baseLayer <<< 16 := by
  have hmask : ∀ n : Nat, n < 2 ^ 13 → n &&& 0x1fff = n := fun n hn => by
    rw [show 0x1fff = 2 ^ 13 - 1 from rfl, Nat.and_two_pow_sub_one_eq_mod, Nat.mod_eq_of_lt hn]
  have hcount : (if sampled.layerCount > 0 then (sampled.layerCount - 1) &&& 0x1fff else 0) =
      sampled.layerCount - 1 := by
    split
    · exact hmask _ h.layerCount_lt
    · next hzero => rw [Nat.eq_zero_of_not_pos hzero]
  rw [layersWord, if_neg (not_not_intro hpitch), hcount, hmask _ h.baseLayer_lt]

/-- Each word is packed from its fields; word 4 where it has the layers. -/
theorem Fits.word_eq_pack (h : sampled.Fits format) {word : Nat} (hword : word < 6)
    (hpitch : word ≠ 4 ∨ sampled.pitchTexels = 0) :
    sampled.writeImageDescriptor.getD word 0 = UInt32.ofNat (pack (sampled.wordFields format word)) := by
  match word with
  | 0 =>
    apply UInt32.toNat_inj.mp
    simp [writeImageDescriptor, wordFields, pack, DescriptorField.baseAddress]
  | 1 =>
    apply congrArg UInt32.ofNat
    rw [h.formatWord, Nat.or_assoc]
    simp only [wordFields, pack, Nat.or_zero]
    rfl
  | 2 =>
    apply congrArg UInt32.ofNat
    rw [Nat.or_assoc]
    simp only [wordFields, pack, Nat.or_zero]
    rfl
  | 3 =>
    apply congrArg UInt32.ofNat
    rw [swizzledKind_eq sampled h.tiled]
    simp only [wordFields, pack, Nat.or_zero, Nat.or_assoc]
    rfl
  | 4 =>
    apply congrArg UInt32.ofNat
    rw [h.layersWord_eq (hpitch.resolve_left (not_not_intro rfl))]
    simp only [wordFields, pack, Nat.or_zero]
    rfl
  | 5 =>
    apply congrArg UInt32.ofNat
    simp only [wordFields, pack, Nat.or_zero]
    rfl
  | _ + 6 => omega

/-- Reading a field of the descriptor gives the value packed there. -/
theorem Fits.get_writeImageDescriptor (h : sampled.Fits format) (field : DescriptorField) (i : Nat)
    {v : Nat} (hfield : (sampled.wordFields format field.word)[i]? = some (field.field, v))
    (hword : field.word < 6) (hpitch : field.word ≠ 4 ∨ sampled.pitchTexels = 0) :
    field.get sampled.writeImageDescriptor = v := by
  obtain ⟨hapart, hbits⟩ := sampled.wordFields_apart format field.word
  rw [DescriptorField.get, h.word_eq_pack hword hpitch]
  exact get_word ⟨h.wordFields_fits field.word, hapart⟩ hbits (List.mem_of_getElem? hfield)

end Sampled

namespace SampledView

variable {formats : SampledFormats} {view : SampledView} {entry : FormatEntry}
  {baseMipOnly needsSampler : Bool} {sampler : Option Sampler}

/-- The logarithm of a sample count is zero for one sample alone. -/
theorem log2_samples (view : SampledView) : Nat.log2 view.image.samples < 2 ^ 2 ∧
      (Nat.log2 view.image.samples = 0 ↔ view.image.samples = 1) := by
  have hmem := view.image.samples_mem
  generalize view.image.samples = samples at hmem ⊢
  revert samples
  decide

section Words

variable (view entry baseMipOnly needsSampler sampler)

theorem firstLevel_sampled : (view.sampled baseMipOnly needsSampler sampler entry).firstLevel =
      if view.image.samples = 1 then view.baseMipLevel else 0 := by
  simp only [Sampled.firstLevel, sampled, ne_eq, view.log2_samples.2, ite_not]

theorem lastLevel_sampled : (view.sampled baseMipOnly needsSampler sampler entry).lastLevel =
      if view.image.samples = 1 then if baseMipOnly then view.baseMipLevel else view.baseMipLevel + view.levelCount - 1
      else Nat.log2 view.image.samples := by
  simp only [Sampled.lastLevel, sampled, ne_eq, view.log2_samples.2, ite_not]

theorem maxMip_sampled : (view.sampled baseMipOnly needsSampler sampler entry).maxMip =
      if view.image.samples = 1 then view.image.mipLevels - 1 else Nat.log2 view.image.samples := by
  simp only [Sampled.maxMip, sampled, ne_eq, view.log2_samples.2, ite_not]

theorem wordMode_sampled : (view.sampled baseMipOnly needsSampler sampler entry).wordMode = view.tileMode := by
  cases htiled : view.image.tiled <;> simp [Sampled.wordMode, sampled, tileMode, htiled]

/-- The last level is the view's, save with the diagnostic switch. -/
theorem lastLevel_sampled_eq_iff : (view.sampled baseMipOnly needsSampler sampler entry).lastLevel =
        (if view.image.samples = 1 then view.baseMipLevel + view.levelCount - 1 else Nat.log2 view.image.samples) ↔
      (baseMipOnly = true → view.image.samples = 1 → view.levelCount = 1) := by
  have hpos := view.levelCount_pos
  rw [lastLevel_sampled]
  by_cases hone : view.image.samples = 1
  · cases baseMipOnly
    · simp [hone]
    · simp only [hone, if_true, forall_const]
      omega
  · simp [hone]

end Words

/-- The type is the view's, save of an array view that could be a cube. -/
theorem Accepted.wordType_eq_iff (h : view.Accepted formats entry) :
    (view.sampled baseMipOnly needsSampler sampler entry).wordType = view.resourceType ↔
      ¬ (view.viewType = .d2Array ∧ view.layerCount = 6 ∧ view.cubeCompatible = true) := by
  simp only [Sampled.wordType, sampled, resourceType, view.log2_samples.2]
  rcases h.type with htype | htype | htype
  · have hone := view.single_layer htype
    simp [htype, hone]
  · by_cases hcube : view.cubeCompatible = true
    · have hone := view.cube_samples hcube
      by_cases hsix : view.layerCount = 6
      · simp [htype, hcube, hsix, hone]
      · by_cases hmany : 1 < view.layerCount <;> simp [htype, hcube, hsix, hmany, hone]
    · by_cases hmany : 1 < view.layerCount <;> by_cases hone : view.image.samples = 1 <;>
        simp [htype, hcube, hmany, hone]
  · obtain ⟨hsix, hcube⟩ := view.cube_layers htype
    have hsamples := view.cube_samples hcube
    simp [htype, hsix, hcube, hsamples]

/-- What is accepted fits the fields. -/
theorem Accepted.fits (h : view.Accepted formats entry) (haddress : view.address < 2 ^ 48) :
    (view.sampled baseMipOnly needsSampler sampler entry).Fits entry.imageFormat := by
  have hwidth : view.image.width ≤ 2 ^ 14 := view.image.width_le
  have hheight : view.image.height ≤ 2 ^ 14 := view.image.height_le
  have hmips : view.image.mipLevels < 2 ^ 4 := view.image.mipLevels_le.trans_lt (by decide)
  have hlayers : view.image.arrayLayers < 2 ^ 13 := view.image.arrayLayers_le.trans_lt (by decide)
  obtain ⟨hlog, hone⟩ := view.log2_samples
  have hlevels := view.levels_le
  have hview := h.layers
  have hpos := view.layerCount_pos
  have hwpos := view.image.width_pos
  have hhpos := view.image.height_pos
  have hlpos := view.levelCount_pos
  refine ⟨rfl, entry.imageFormat_lt, haddress, ?_, ?_, composeDstSel_lt .., ?_, ?_, ?_, ?_, ?_, ?_⟩
  · show view.image.width - 1 < 2 ^ 14
    omega
  · show view.image.height - 1 < 2 ^ 14
    omega
  · rw [firstLevel_sampled]
    split <;> omega
  · rw [lastLevel_sampled]
    split_ifs <;> omega
  · rw [maxMip_sampled]
    split <;> omega
  · show view.baseArrayLayer < 2 ^ 13
    omega
  · show view.layerCount - 1 < 2 ^ 13
    omega
  · exact fun hmulti => (h.multisampled fun hsingle => hmulti (hone.mpr hsingle)).1

/-- An aligned address is put together from its two parts. -/
theorem address_split {address : Nat} (haligned : address % 2 ^ 8 = 0) :
    (address >>> 8) % 2 ^ 32 * 2 ^ 8 + address >>> 40 * 2 ^ 40 = address := by
  rw [Nat.shiftRight_eq_div_pow, Nat.shiftRight_eq_div_pow]
  omega

theorem width_split {width : Nat} (hpos : 0 < width) : (width - 1) >>> 2 * 4 + ((width - 1) &&& 3) + 1 = width := by
  have hlow : (width - 1) &&& 3 = (width - 1) % 4 := Nat.and_two_pow_sub_one_eq_mod (width - 1) 2
  rw [Nat.shiftRight_eq_div_pow, hlow]
  omega

/-- The descriptor describes an accepted view exactly where its type and levels can be told. -/
theorem Accepted.describes_iff (h : view.Accepted formats entry) (haddress : view.address < 2 ^ 48)
    (haligned : view.address % 2 ^ 8 = 0) : view.Describes formats
        (view.sampled baseMipOnly needsSampler sampler entry).writeImageDescriptor ↔
      view.Tellable baseMipOnly := by
  have hfits : (view.sampled baseMipOnly needsSampler sampler entry).Fits entry.imageFormat :=
    h.fits haddress
  have hread := hfits.get_writeImageDescriptor
  have htype := hread .type 0 rfl (by decide) (.inl (by decide))
  have hlast := hread .lastLevel 4 rfl (by decide) (.inl (by decide))
  constructor
  · intro hdescribes
    exact ⟨h.wordType_eq_iff.mp (htype.symm.trans hdescribes.type),
      (view.lastLevel_sampled_eq_iff ..).mp (hlast.symm.trans hdescribes.lastLevel)⟩
  · rintro ⟨hkind, hlevels⟩
    constructor
    · rw [hread .baseAddress 0 rfl (by decide) (.inl (by decide)),
        hread .baseAddressHi 2 rfl (by decide) (.inl (by decide))]
      exact address_split haligned
    · rw [hread .widthHi 0 rfl (by decide) (.inl (by decide)),
        hread .widthLo 1 rfl (by decide) (.inl (by decide))]
      exact width_split view.image.width_pos
    · rw [hread .height 1 rfl (by decide) (.inl (by decide))]
      exact Nat.succ_pred_eq_of_pos view.image.height_pos
    · rw [hread .baseLevel 3 rfl (by decide) (.inl (by decide)), firstLevel_sampled]
    · exact hlast.trans ((view.lastLevel_sampled_eq_iff ..).mpr hlevels)
    · rw [hread .maxMip 1 rfl (by decide) (.inl (by decide)), maxMip_sampled]
    · exact htype.trans (h.wordType_eq_iff.mpr hkind)
    · intro hrows
      have hpitch : (view.sampled baseMipOnly needsSampler sampler entry).pitchTexels = 0 :=
        if_neg (Bool.eq_false_iff.mp hrows)
      exact ⟨hread .baseArray 1 rfl (by decide) (.inr hpitch),
        hread .depth 0 rfl (by decide) (.inr hpitch)⟩
    · intro found hfound
      cases h.entry.symm.trans hfound
      exact ⟨hread .format 0 rfl (by decide) (.inl (by decide)),
        hread .dstSel 2 rfl (by decide) (.inl (by decide))⟩
    · rw [hread .swMode 1 rfl (by decide) (.inl (by decide)), wordMode_sampled]
    · exact hread .resourceLevel 2 rfl (by decide) (.inl (by decide))

end SampledView

/-- A sampled view's descriptor describes the view in every field, exactly unless the view is an array
of six layers of a cube-compatible image, or the diagnostic switch hides levels it has. -/
theorem sampledImage_describes_iff {formats : SampledFormats} {baseMipOnly needsSampler : Bool}
    {sampler : Option Sampler} {view : SampledView} {sampled : Sampled}
    (h : sampledImage formats baseMipOnly needsSampler sampler view = some sampled)
    (haddress : view.address < 2 ^ 48) (haligned : view.address % 2 ^ 8 = 0) :
    view.Describes formats sampled.writeImageDescriptor ↔ view.Tellable baseMipOnly := by
  obtain ⟨entry, haccepted, rfl⟩ := sampledImage_eq_some h
  exact haccepted.describes_iff haddress haligned

/-- One entry for every format: `GFX10_FORMAT` 56 with its channels in order. -/
def oneFormat : SampledFormats := fun _ => some ⟨56, 0xfac, by decide⟩

/-- A target of six layers, cube-compatible. -/
def sixLayers : BoundImage :=
  ⟨.ofShape (.colour 37 4) 64 64 1 6 1 true false (by decide), 0x200000⟩

/-- All its layers, seen as a cube or as an array. -/
def sixLayerView (viewType : ViewType) (hlayers : viewType ≠ .d2) : SampledView where
  image := sixLayers
  cubeCompatible := true
  viewType := viewType
  aspect := .colour
  swizzle := fun _ => .identity
  baseMipLevel := 0
  levelCount := 1
  baseArrayLayer := 0
  layerCount := 6
  levelCount_pos := Nat.one_pos
  levels_le := by decide
  layerCount_pos := by decide
  single_layer := fun h => absurd h hlayers
  cube_layers := fun _ => ⟨rfl, rfl⟩
  cube_samples := fun _ => rfl

/-- The cube view is described. -/
theorem sixLayerView_cube_described :
    ∃ sampled, sampledImage oneFormat false false none (sixLayerView .cube nofun) = some sampled ∧
      (sixLayerView .cube nofun).Describes oneFormat sampled.writeImageDescriptor := by
  obtain ⟨sampled, hsampled⟩ : ∃ sampled,
      sampledImage oneFormat false false none (sixLayerView .cube nofun) = some sampled := ⟨_, rfl⟩
  refine ⟨sampled, hsampled,
    (sampledImage_describes_iff hsampled (by decide) (by decide)).mpr ⟨?_, nofun⟩⟩
  exact fun harray => absurd harray.1 (by decide)

/-- The array view of the same layers gets the cube's type. -/
theorem sixLayerView_array_called_cube :
    ∃ sampled, sampledImage oneFormat false false none (sixLayerView .d2Array nofun) = some sampled ∧
      ¬ (sixLayerView .d2Array nofun).Describes oneFormat sampled.writeImageDescriptor ∧
      DescriptorField.type.get sampled.writeImageDescriptor = 11 := by
  refine ⟨_, rfl, fun hdescribes => absurd hdescribes.type ?_, ?_⟩
  · decide +kernel
  · decide +kernel

end Ps5Vulkan.Image
