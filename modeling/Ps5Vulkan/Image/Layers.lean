import Ps5Vulkan.Image.Sides

/-!
# The layers of tiled images

An image's size is its layers' tile grids, rounded to 2 MiB, and the bytes of one layer are taken back
from it by division. Uploads, copies and attachments then name a layer by a multiple of that number,
which is the grid's size only where the rounding adds nothing.
-/

namespace Ps5Vulkan.Image

section Attachments

variable (info : ImageInfo)

/-- `ps5vk_attachment_layer_bytes`. -/
def ImageInfo.attachmentLayerBytes : Nat :=
  if info.arrayLayers > 1 then info.layerBytes else 0

/-- Where a view of an attachment renders, from the image's address on: its view's first layer and
then the view (`ps5vk_select_view`). -/
def ImageInfo.attachmentBase (firstLayer view : Nat) : Nat :=
  firstLayer * info.attachmentLayerBytes + view * info.attachmentLayerBytes

end Attachments

section Alignment

variable {n alignment : Nat}

theorem alignTo_dvd (n alignment : Nat) : alignment ∣ alignTo n alignment :=
  Nat.dvd_mul_left _ _

theorem alignTo_of_dvd (hpos : 0 < alignment) (hdvd : alignment ∣ n) : alignTo n alignment = n := by
  obtain ⟨count, rfl⟩ := hdvd
  have hsum : alignment * count + alignment - 1 = alignment * count + (alignment - 1) := by omega
  rw [alignTo, hsum, Nat.mul_add_div hpos, Nat.div_eq_of_lt (by omega), Nat.add_zero, Nat.mul_comm]

end Alignment

section Layers

variable {info : ImageInfo}

theorem tiledChains_single : ∀ chain ∈ tiledChains, chain.levels = 1 →
    chain.bytes = ceilDiv chain.width 128 * ceilDiv chain.height 128 * tileBytes := by
  decide

theorem gridBytes_single (hlevels : info.mipLevels = 1) : info.gridBytes = info.levelTiles 0 * tileBytes := by
  rw [ImageInfo.gridBytes, hlevels]
  exact Nat.add_zero _

theorem levelWidth_zero : info.levelWidth 0 = info.width := Nat.max_eq_left info.width_pos

theorem levelHeight_zero : info.levelHeight 0 = info.height := Nat.max_eq_left info.height_pos

/-- A chain of one level is the level's tile grid. -/
theorem gridBytes_of_chain {chain : TiledChain} (hlevels : info.mipLevels = 1)
    (hchain : info.tiledChainOf = some chain) : chain.bytes = info.gridBytes := by
  obtain ⟨hmem, hbytes, hsamples, hwidth, hheight, hcount⟩ := tiledChainOf_spec hchain
  have htile : tileExtent info.format.blockSize info.format.hasDepth info.samples = (128, 128) := by
    rw [hbytes, hsamples]
    cases info.format.hasDepth <;> rfl
  rw [tiledChains_single chain hmem (hcount.trans hlevels), gridBytes_single hlevels,
    ImageInfo.levelTiles, htile, levelWidth_zero, levelHeight_zero, hwidth, hheight]

/-- One layer of a single-level image is sized as its tile grid. -/
theorem tiledLayerBytes_single (hlevels : info.mipLevels = 1) : info.tiledLayerBytes = info.gridBytes := by
  unfold ImageInfo.tiledLayerBytes
  split
  · rename_i chain hchain
    split
    · rename_i hshape
      apply gridBytes_of_chain hlevels
      rw [ImageInfo.tiledChainOf, if_neg (by omega), hchain]
    · rfl
  · rfl

/-- The size of a single-level tiled image without a stencil. -/
theorem size_single (htiled : info.tiled = true) (hlevels : info.mipLevels = 1)
    (hstencil : info.format.hasStencil = false) :
    info.size = alignTo (info.gridBytes * info.arrayLayers) tiledAlignment := by
  have hnone : info.stencilBytes = 0 := by
    rw [ImageInfo.stencilBytes, hstencil, if_neg Bool.false_ne_true]
  rw [ImageInfo.size, if_pos htiled, hnone, if_neg (by decide), tiledLayerBytes_single hlevels]

/-- What a layer is divided out of the size to be. -/
theorem layerBytes_single (htiled : info.tiled = true) (hlevels : info.mipLevels = 1)
    (hstencil : info.format.hasStencil = false) (hchain : info.tiledChainOf = none) :
    info.layerBytes = info.size / info.arrayLayers := by
  have hmax : max info.arrayLayers 1 = info.arrayLayers := Nat.max_eq_left info.arrayLayers_pos
  simp only [ImageInfo.layerBytes, htiled, hchain, hlevels, hstencil, if_true, hmax]
  rfl

theorem gridBytes_dvd (hlevels : info.mipLevels = 1) : tileBytes ∣ info.gridBytes := by
  rw [gridBytes_single hlevels]
  exact Nat.dvd_mul_left _ _

/-- A layer has room for its tile grid, and the layers for theirs in the storage. -/
theorem layerBytes_bounds (htiled : info.tiled = true) (hlevels : info.mipLevels = 1)
    (hstencil : info.format.hasStencil = false) :
    info.gridBytes ≤ info.layerBytes ∧ info.layerBytes * info.arrayLayers ≤ info.size := by
  have hsize := size_single htiled hlevels hstencil
  have hle : info.gridBytes * info.arrayLayers ≤ info.size := by
    rw [hsize]
    exact le_alignTo _ (by decide)
  cases hchain : info.tiledChainOf with
  | none =>
    rw [layerBytes_single htiled hlevels hstencil hchain]
    exact ⟨(Nat.le_div_iff_mul_le info.arrayLayers_pos).2 hle, Nat.div_mul_le_self _ _⟩
  | some chain =>
    rw [layerBytes_of_chain htiled hchain, gridBytes_of_chain hlevels hchain]
    exact ⟨Nat.le_refl _, hle⟩

/-- A layer's grid lies inside the storage. -/
theorem layerOffset_add_gridBytes_le (htiled : info.tiled = true) (hlevels : info.mipLevels = 1)
    (hstencil : info.format.hasStencil = false) {layer : Nat} (hlayer : layer < info.arrayLayers) :
    info.layerOffset layer + info.gridBytes ≤ info.size := by
  obtain ⟨hgrid, hlayers⟩ := layerBytes_bounds htiled hlevels hstencil
  have hoffset : info.layerOffset layer ≤ info.layerBytes * layer := by
    unfold ImageInfo.layerOffset
    split
    · exact Nat.le_refl _
    · exact Nat.zero_le _
  calc info.layerOffset layer + info.gridBytes
      ≤ info.layerBytes * layer + info.layerBytes := by omega
    _ = info.layerBytes * (layer + 1) := by rw [Nat.mul_add, Nat.mul_one]
    _ ≤ info.layerBytes * info.arrayLayers := Nat.mul_le_mul_left _ hlayer
    _ ≤ info.size := hlayers

/-- The layers sit one tile grid apart: uploads, copies and attachments name a layer by its number of
grids; the bases are whole tiles, and the grids apart from one another and inside the storage. -/
structure LayersExact (info : ImageInfo) : Prop where
  upload : ∀ layer < info.arrayLayers,
    info.tiledLayerLevelBase 0 layer = some (layer * info.gridBytes)
  copy : ∀ layer < info.arrayLayers, info.layerOffset layer = layer * info.gridBytes
  attachment : ∀ firstLayer view, firstLayer + view < info.arrayLayers →
    info.attachmentBase firstLayer view = (firstLayer + view) * info.gridBytes
  aligned : ∀ layer < info.arrayLayers, tileBytes ∣ info.layerOffset layer
  apart : ∀ layer, layer + 1 < info.arrayLayers →
    info.layerOffset layer + info.gridBytes ≤ info.layerOffset (layer + 1)
  inside : ∀ layer < info.arrayLayers, info.layerOffset layer + info.gridBytes ≤ info.size

/-- The layers are exact as soon as a layer's bytes are its grid's, or there is one layer. -/
theorem layersExact_of_layerBytes (htiled : info.tiled = true) (hlevels : info.mipLevels = 1)
    (hstencil : info.format.hasStencil = false)
    (hbytes : info.arrayLayers = 1 ∨ info.layerBytes = info.gridBytes) : LayersExact info := by
  have hcopy : ∀ layer < info.arrayLayers, info.layerOffset layer = layer * info.gridBytes := by
    intro layer hlayer
    unfold ImageInfo.layerOffset
    split
    · rename_i hmany
      rcases hbytes with hone | hbytes
      · omega
      · rw [hbytes, Nat.mul_comm]
    · obtain rfl : layer = 0 := by omega
      rw [Nat.zero_mul]
  have hbase : info.tiledLevelBase 0 = some 0 := by
    rw [ImageInfo.tiledLevelBase, if_pos ⟨rfl, hlevels⟩]
  have hgridPos : 0 < info.gridBytes := by
    have hpos : ∀ {a b}, 0 < a → 0 < b → 0 < ceilDiv a b := fun ha hb =>
      Nat.div_pos (by omega) hb
    have hextent : ∀ texelBytes depth samples, 0 < (tileExtent texelBytes depth samples).1 ∧
        0 < (tileExtent texelBytes depth samples).2 := fun _ _ _ =>
      ⟨Nat.two_pow_pos _, Nat.two_pow_pos _⟩
    rw [gridBytes_single hlevels, ImageInfo.levelTiles, levelWidth_zero, levelHeight_zero]
    exact Nat.mul_pos (Nat.mul_pos (hpos info.width_pos (hextent _ _ _).1)
      (hpos info.height_pos (hextent _ _ _).2)) (by decide)
  constructor
  · intro layer hlayer
    unfold ImageInfo.tiledLayerLevelBase
    split
    · rename_i hzero
      rw [hbase, hzero, Nat.zero_mul]
    · rcases hbytes with hone | hbytes
      · omega
      · rw [if_neg (by omega), hbase, hbytes, Option.map_some, Nat.add_zero, Nat.mul_comm]
  · exact hcopy
  · intro firstLayer view hlayer
    rw [← hcopy (firstLayer + view) hlayer, ImageInfo.attachmentBase, ← Nat.add_mul,
      ImageInfo.attachmentLayerBytes, ImageInfo.layerOffset]
    split
    · rw [Nat.mul_comm]
    · rw [Nat.mul_zero]
  · intro layer hlayer
    rw [hcopy layer hlayer]
    exact Dvd.dvd.mul_left (gridBytes_dvd hlevels) _
  · intro layer hlayer
    rw [hcopy layer (by omega), hcopy (layer + 1) hlayer, Nat.add_mul, Nat.one_mul]
  · intro layer hlayer
    exact layerOffset_add_gridBytes_le htiled hlevels hstencil hlayer

/-- The layers of a single-level tiled image sit one tile grid apart exactly when there is one of them,
a measured chain gives their size, or rounding the storage adds nothing to it. -/
theorem layersExact_iff (htiled : info.tiled = true) (hlevels : info.mipLevels = 1)
    (hstencil : info.format.hasStencil = false) :
    LayersExact info ↔ info.arrayLayers = 1 ∨ info.tiledChainOf.isSome = true ∨
      tiledAlignment ∣ info.gridBytes * info.arrayLayers := by
  have hpos := info.arrayLayers_pos
  have hsize := size_single htiled hlevels hstencil
  constructor
  · intro hexact
    by_cases hone : info.arrayLayers = 1
    · exact .inl hone
    right
    cases hchain : info.tiledChainOf with
    | some chain => exact .inl rfl
    | none =>
      right
      have hlayer := hexact.copy 1 (by omega)
      rw [ImageInfo.layerOffset, if_pos (by omega), Nat.mul_one, Nat.one_mul,
        layerBytes_single htiled hlevels hstencil hchain] at hlayer
      -- What the rounding adds is less than the layers' number, and a number of tiles.
      have hsplit := Nat.div_add_mod info.size info.arrayLayers
      have hrest := Nat.mod_lt info.size hpos
      rw [hlayer, Nat.mul_comm info.arrayLayers] at hsplit
      have hlayers := info.arrayLayers_le
      have htileSize : tileBytes ∣ info.size :=
        hsize ▸ Dvd.dvd.trans (by decide) (alignTo_dvd _ tiledAlignment)
      have htileGrid : tileBytes ∣ info.gridBytes * info.arrayLayers :=
        Dvd.dvd.mul_right (gridBytes_dvd hlevels) _
      have hrestDvd : tileBytes ∣ info.size % info.arrayLayers :=
        (Nat.dvd_add_iff_right htileGrid).2 (by rwa [hsplit])
      have hzero : info.size % info.arrayLayers = 0 :=
        Nat.eq_zero_of_dvd_of_lt hrestDvd (by
          simp only [maxArrayLayers, tileBytes] at hlayers ⊢
          omega)
      rw [hzero, Nat.add_zero] at hsplit
      rw [hsplit, hsize]
      exact alignTo_dvd _ _
  · rintro (hone | hchain | hdvd)
    · exact layersExact_of_layerBytes htiled hlevels hstencil (.inl hone)
    · obtain ⟨chain, hchain⟩ := Option.isSome_iff_exists.1 hchain
      apply layersExact_of_layerBytes htiled hlevels hstencil
      exact .inr ((layerBytes_of_chain htiled hchain).trans (gridBytes_of_chain hlevels hchain))
    · apply layersExact_of_layerBytes htiled hlevels hstencil
      right
      cases hchain : info.tiledChainOf with
      | some chain =>
        exact (layerBytes_of_chain htiled hchain).trans (gridBytes_of_chain hlevels hchain)
      | none =>
        rw [layerBytes_single htiled hlevels hstencil hchain, hsize, alignTo_of_dvd (by decide) hdvd,
          Nat.mul_div_cancel _ hpos]

/-- A 64x64 target of eight-byte texels. -/
def layeredTarget (layers : Nat) (hpos : 0 < layers) (hle : layers ≤ maxArrayLayers) : ImageInfo :=
  .ofShape (.colour 97 8) 64 64 1 layers 1 true false
    ⟨by decide, by decide, by decide, ⟨hpos, hle⟩, by decide, fun h => absurd h (by decide)⟩

/-- Thirty-two layers of 64 KiB fill the storage. -/
theorem layersExact_layeredTarget :
    LayersExact (layeredTarget 32 (by decide) (by decide)) :=
  (layersExact_iff rfl rfl rfl).2 (.inr (.inr (by decide)))

/-- Two layers of 64 KiB are put 1 MiB apart. -/
theorem layeredTarget_two_not_exact :
    (layeredTarget 2 (by decide) (by decide)).tiled = true ∧
      (layeredTarget 2 (by decide) (by decide)).gridBytes = 0x10000 ∧
      (layeredTarget 2 (by decide) (by decide)).layerOffset 1 = 0x100000 ∧
      (layeredTarget 2 (by decide) (by decide)).attachmentBase 0 1 = 0x100000 ∧
      ¬LayersExact (layeredTarget 2 (by decide) (by decide)) := by
  refine ⟨by decide, by decide, by decide, by decide, fun hexact => ?_⟩
  exact absurd (hexact.copy 1 (by decide)) (by decide)

/-- Three are put where no tile starts. -/
example : (layeredTarget 3 (by decide) (by decide)).layerOffset 1 % tileBytes = 0xaaaa := by decide

end Layers

end Ps5Vulkan.Image
