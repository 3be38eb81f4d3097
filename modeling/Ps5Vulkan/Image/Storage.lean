import Ps5Vulkan.Image.TiledMap

/-!
# The storage of images

How large an image is, where its levels, layers and planes lie, and the side a copy, clear, blit or
resolve walks (`ps5vk_image_storage`, `ps5vk_image_copy_side`, `ps5vk_image_copy_address`).

## Implementation notes

An image carries what `ps5vk_CreateImage` asserts and refuses: its extent, levels, layers and sample
count, and the one shape a stencil format has. The formats are those the driver reports for images;
a colour format is its number and texel size. `UINT64_MAX` for a level without a measured base is
`none`.
-/

namespace Ps5Vulkan.Image

/-- The formats of images, by what their storage depends on. -/
inductive Format where
  | colour (number bytes : Nat)
  | d16
  | d32
  | d24s8
  | d32s8
  deriving DecidableEq, Repr

/-- `vk_format_get_blocksize`. -/
def Format.blockSize : Format → Nat
  | .colour _ bytes => bytes
  | .d16 => 2
  | .d32 => 4
  | .d24s8 => 4
  | .d32s8 => 8

/-- `vk_format_has_depth`. -/
def Format.hasDepth : Format → Bool
  | .colour _ _ => false
  | _ => true

/-- `vk_format_has_stencil`. -/
def Format.hasStencil : Format → Bool
  | .d24s8 => true
  | .d32s8 => true
  | _ => false

def maxExtent2D : Nat := 16384

def maxMipLevels : Nat := 13

def maxArrayLayers : Nat := 256

/-- What `ps5vk_CreateImage` keeps of an image. `attachment` is whether its usage names a colour or
depth attachment, `tilePadded` the flag that tiles the row images it would pad. -/
structure ImageInfo where
  format : Format
  width : Nat
  height : Nat
  mipLevels : Nat
  arrayLayers : Nat
  samples : Nat
  attachment : Bool
  tilePadded : Bool
  width_pos : 0 < width
  height_pos : 0 < height
  width_le : width ≤ maxExtent2D
  height_le : height ≤ maxExtent2D
  mipLevels_pos : 0 < mipLevels
  mipLevels_le : mipLevels ≤ maxMipLevels
  arrayLayers_pos : 0 < arrayLayers
  arrayLayers_le : arrayLayers ≤ maxArrayLayers
  samples_mem : samples ∈ [1, 2, 4, 8]
  stencil_shape : format.hasStencil = true →
    attachment = true ∧ mipLevels = 1 ∧ arrayLayers = 1 ∧ samples = 1

/-- An image, with all that its shape has to satisfy at once. -/
abbrev ImageInfo.ofShape (format : Format) (width height mipLevels arrayLayers samples : Nat)
    (attachment tilePadded : Bool)
    (h : (0 < width ∧ width ≤ maxExtent2D) ∧ (0 < height ∧ height ≤ maxExtent2D) ∧
      (0 < mipLevels ∧ mipLevels ≤ maxMipLevels) ∧ (0 < arrayLayers ∧ arrayLayers ≤ maxArrayLayers) ∧
      samples ∈ [1, 2, 4, 8] ∧ (format.hasStencil = true →
        attachment = true ∧ mipLevels = 1 ∧ arrayLayers = 1 ∧ samples = 1)) : ImageInfo :=
  ⟨format, width, height, mipLevels, arrayLayers, samples, attachment, tilePadded, h.1.1, h.2.1.1, h.1.2, h.2.1.2,
    h.2.2.1.1, h.2.2.1.2, h.2.2.2.1.1, h.2.2.2.1.2, h.2.2.2.2.1, h.2.2.2.2.2⟩

/-- `ALIGN_POT` and `align64`. -/
def alignTo (n alignment : Nat) : Nat :=
  (n + alignment - 1) / alignment * alignment

/-- `DIV_ROUND_UP` of 64-bit numbers. -/
def ceilDiv (a b : Nat) : Nat :=
  (a + b - 1) / b

def tiledAlignment : Nat := 0x200000

def rowAlignment : Nat := 256

/-- `struct ps5vk_tiled_chain`. -/
structure TiledChain where
  width : Nat
  height : Nat
  levels : Nat
  bytes : Nat
  bases : List Nat
  deriving DecidableEq, Repr

/-- `ps5vk_tiled_chains`. -/
def tiledChains : List TiledChain :=
  [⟨256, 256, 1, 0x40000, [0x0]⟩,
    ⟨64, 64, 1, 0x10000, [0x0]⟩,
    ⟨256, 256, 5, 0x60000, [0x20000, 0x10000, 0x8400, 0x4800, 0x800]⟩,
    ⟨256, 256, 6, 0x60000, [0x20000, 0x10000, 0x8400, 0x4800, 0x800, 0x400]⟩,
    ⟨128, 128, 4, 0x20000, [0x10000, 0x8400, 0x4800, 0x800]⟩,
    ⟨512, 512, 5, 0x160000, [0x60000, 0x20000, 0x10000, 0x8400, 0x4800]⟩,
    ⟨512, 512, 7, 0x160000, [0x60000, 0x20000, 0x10000, 0x8400, 0x4800, 0x800, 0x400]⟩,
    ⟨1024, 1024, 8, 0x560000,
      [0x160000, 0x60000, 0x20000, 0x10000, 0x8400, 0x4800, 0x800, 0x400]⟩,
    ⟨256, 128, 4, 0x40000, [0x20000, 0x10000, 0x8400, 0x4800]⟩,
    ⟨64, 64, 3, 0x10000, [0x8400, 0x4800, 0x800]⟩,
    ⟨32, 32, 2, 0x10000, [0x8400, 0x4800]⟩]

namespace ImageInfo

variable (info : ImageInfo)

/-- The chain of the image's extent and level count. -/
def chain? : Option TiledChain :=
  tiledChains.find? fun chain =>
    chain.width == info.width && chain.height == info.height && chain.levels == info.mipLevels

/-- Whether `ps5vk_image_storage` stores the image in tiles. -/
def tiled : Bool :=
  let texelBytes := info.format.blockSize
  let paddedSingle := !info.format.hasDepth && info.mipLevels == 1 && info.arrayLayers == 1 &&
    info.samples == 1 && [1, 2, 4, 8, 16].contains texelBytes && info.width * texelBytes % 256 != 0
  info.attachment || info.format.hasStencil || (info.tilePadded && paddedSingle)

variable (level : Nat)

/-- A level's extent in a tiled image. -/
def levelWidth : Nat := max (info.width >>> level) 1

def levelHeight : Nat := max (info.height >>> level) 1

/-- The tiles of one level. -/
def levelTiles : Nat :=
  let (tileWidth, tileHeight) := tileExtent info.format.blockSize info.format.hasDepth info.samples
  ceilDiv (info.levelWidth level) tileWidth * ceilDiv (info.levelHeight level) tileHeight

/-- The bytes of one layer's tile grids, before a measured chain takes their place. -/
def gridBytes : Nat :=
  ((List.range info.mipLevels).map fun level => info.levelTiles level * tileBytes).sum

/-- One layer's bytes as `ps5vk_image_storage` sizes them. -/
def tiledLayerBytes : Nat :=
  match info.chain? with
  | some chain =>
    if info.format.blockSize = 4 ∧ info.samples = 1 then chain.bytes else info.gridBytes
  | none => info.gridBytes

/-- `ps5vk_image_stencil_plane`'s size. -/
def stencilBytes : Nat :=
  if info.format.hasStencil then
    ((List.range info.mipLevels).map fun level =>
      ceilDiv (info.levelWidth level) 256 * ceilDiv (info.levelHeight level) 256 * tileBytes).sum *
        info.arrayLayers
  else 0

/-- `image->stencil_offset`. -/
def stencilOffset : Nat :=
  if info.tiled && info.format.hasStencil then alignTo info.tiledLayerBytes tileBytes else 0

/-- A level of a row-layout image: its storage extent rounds up. -/
def rowWidth : Nat := max (ceilDiv info.width (2 ^ level)) 1

def rowHeight : Nat := max (ceilDiv info.height (2 ^ level)) 1

def rowPitch : Nat := alignTo (info.rowWidth level * info.format.blockSize) rowAlignment

/-- One row-layout layer's bytes. -/
def rowLayerBytes : Nat :=
  ((List.range info.mipLevels).map fun level => info.rowPitch level * info.rowHeight level).sum

/-- `ps5vk_image_storage`'s size. -/
def size : Nat :=
  if info.tiled then
    if info.stencilBytes ≠ 0 then alignTo (info.stencilOffset + info.stencilBytes) tiledAlignment
    else alignTo (info.tiledLayerBytes * info.arrayLayers) tiledAlignment
  else info.rowLayerBytes * info.arrayLayers * info.samples

/-- `ps5vk_image_level_layout`'s offset: smaller levels precede larger ones. -/
def rowLevelOffset : Nat :=
  ((List.range' (level + 1) (info.mipLevels - (level + 1))).map fun index =>
    info.rowPitch index * info.rowHeight index).sum

/-- `ps5vk_tiled_chain_of`. -/
def tiledChainOf : Option TiledChain :=
  if info.format.blockSize ≠ 4 ∨ info.samples ≠ 1 ∨ info.mipLevels > 8 then none else info.chain?

/-- `ps5vk_image_tiled_level_base`. -/
def tiledLevelBase : Option Nat :=
  if level = 0 ∧ info.mipLevels = 1 then some 0
  else match info.tiledChainOf with
    | none => none
    | some chain => if level ≥ chain.levels then none else some (chain.bases.getD level 0)

/-- `ps5vk_image_layer_bytes`. -/
def layerBytes : Nat :=
  if info.tiled then
    match info.tiledChainOf with
    | some chain => chain.bytes
    | none =>
      if info.mipLevels = 1 ∧ ¬info.format.hasStencil then info.size / max info.arrayLayers 1
      else 0
  else info.rowLayerBytes

/-- `ps5vk_image_tiled_layer_level_base`. -/
def tiledLayerLevelBase (level layer : Nat) : Option Nat :=
  if layer = 0 then info.tiledLevelBase level
  else if info.layerBytes = 0 then none
  else (info.tiledLevelBase level).map fun base => info.layerBytes * layer + base

end ImageInfo

/-- The aspects a subresource names; `other` is every mask of not exactly one of the three. -/
inductive Aspect where
  | colour
  | depth
  | stencil
  | other
  deriving DecidableEq, Repr

/-- `struct ps5vk_image_plane`. -/
structure Plane where
  offset : Nat
  elementBytes : Nat
  depthMap : Bool
  deriving DecidableEq, Repr

/-- `ps5vk_image_plane`. -/
def ImageInfo.plane (info : ImageInfo) (aspect : Aspect) : Option Plane :=
  if ¬info.format.hasDepth ∧ ¬info.format.hasStencil then
    if aspect = .colour then some ⟨0, info.format.blockSize, false⟩ else none
  else if aspect = .depth ∧ info.format.hasDepth then
    some ⟨0, if info.format.hasStencil then 4 else info.format.blockSize, true⟩
  else if aspect = .stencil ∧ info.format.hasStencil ∧ info.stencilOffset ≠ 0 then
    some ⟨info.stencilOffset, 1, true⟩
  else none

/-- `struct ps5vk_image_copy_side`. -/
structure CopySide where
  address : Nat
  rowPitch : Nat
  levelWidth : Nat
  tileXor : Nat
  tileWidth : Nat
  tileHeight : Nat
  elementBytes : Nat
  samples : Nat
  depth : Bool
  tiled : Bool
  deriving DecidableEq, Repr

/-- A bound image. -/
structure BoundImage extends ImageInfo where
  address : Nat

/-- `VkImageSubresourceLayers`, of one layer. -/
structure Subresource where
  aspect : Aspect
  mipLevel : Nat
  baseArrayLayer : Nat
  deriving DecidableEq, Repr

/-- `ps5vk_image_copy_side`: the texel's bytes and the side. -/
def BoundImage.copySide (image : BoundImage) (sub : Subresource) : Option (Nat × CopySide) := do
  let plane ← image.plane sub.aspect
  let elementBytes := plane.elementBytes
  if elementBytes = 0 then none
  else if image.samples ≠ 1 ∧ image.samples ≠ 4 then none
  else
    let samples := if image.samples = 4 then 4 else 1
    let texelBytes := elementBytes * samples
    if plane.offset ≠ 0 ∧ (image.mipLevels ≠ 1 ∨ image.arrayLayers ≠ 1 ∨ image.samples ≠ 1) then none
    else if image.tiled then
      if elementBytes ≠ 4 ∧ elementBytes ≠ 8 ∧ elementBytes ≠ 16 ∧
          ¬((elementBytes = 1 ∨ elementBytes = 2) ∧ samples = 1) then none
      else
        let (tileWidth, tileHeight) := tileExtent elementBytes plane.depthMap image.samples
        if image.mipLevels ≠ 1 then do
          let base ← image.tiledLayerLevelBase sub.mipLevel sub.baseArrayLayer
          some (texelBytes,
            { address := image.address + base / 0x10000 * 0x10000
              rowPitch := 0
              levelWidth := image.levelWidth sub.mipLevel
              tileXor := base % 0x10000
              tileWidth := tileWidth
              tileHeight := tileHeight
              elementBytes := elementBytes
              samples := samples
              depth := plane.depthMap
              tiled := true })
        else if image.arrayLayers > 1 ∧ image.layerBytes = 0 then none
        else if plane.depthMap ∧ texelBytes ≠ 4 ∧ texelBytes ≠ 16 ∧ texelBytes ≠ 1 then none
        else
          let layerOffset :=
            if image.arrayLayers > 1 then image.layerBytes * sub.baseArrayLayer else 0
          some (texelBytes,
            { address := image.address + plane.offset + layerOffset
              rowPitch := 0
              levelWidth := image.width
              tileXor := 0
              tileWidth := tileWidth
              tileHeight := tileHeight
              elementBytes := elementBytes
              samples := samples
              depth := plane.depthMap
              tiled := true })
    else if samples ≠ 1 then none
    else some (texelBytes,
      { address := image.address + plane.offset + image.rowLevelOffset sub.mipLevel
        rowPitch := image.rowPitch sub.mipLevel
        levelWidth := image.rowWidth sub.mipLevel
        tileXor := 0
        tileWidth := 0
        tileHeight := 0
        elementBytes := elementBytes
        samples := samples
        depth := plane.depthMap
        tiled := false })

/-- The 32-bit number a signed coordinate converts to. -/
def toU32 (coordinate : Int) : Nat :=
  (coordinate % 2 ^ 32).toNat

/-- The 64-bit number a signed coordinate converts to. -/
def toU64 (coordinate : Int) : Nat :=
  (coordinate % 2 ^ 64).toNat

def samplePlaneBytes : Nat := 0x4000

def depthSampleBytes : Nat := 4

/-- `ps5vk_image_copy_address`. -/
def CopySide.copyAddress (side : CopySide) (x y : Int) (texelBytes sample : Nat) : Nat :=
  if side.tiled then
    if side.depth then
      if side.samples = 4 then
        side.address +
          tiledDepth4Offset x.toNat y.toNat side.levelWidth side.tileWidth side.tileHeight +
          (sample &&& 3) * depthSampleBytes
      else side.address + tiledDepthOffset x.toNat y.toNat side.levelWidth texelBytes
    else
      let (tile, place) := tiledTexelOffset (toU32 x) (toU32 y) side.levelWidth side.tileWidth
        side.tileHeight side.elementBytes side.samples
      let plane := if side.samples = 4 then (sample &&& 3) * samplePlaneBytes else 0
      side.address + tile + plane + (place ^^^ side.tileXor)
  else side.address + toU64 y * side.rowPitch + toU64 x * texelBytes

end Ps5Vulkan.Image
