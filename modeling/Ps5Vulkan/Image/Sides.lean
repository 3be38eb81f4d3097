import Ps5Vulkan.Library.TileRuns
import Ps5Vulkan.Image.Texels

/-!
# The sides of one-sample images

What `ps5vk_image_copy_side` returns for a one-sample image is a row layout or a tiled level. A tiled
level is one of the maps, with the low bits of its base exclusive-ored into a colour texel's place,
and its tiles keep the runs `ps5vk_copy_side_run_bytes` takes for it.
-/

variable (map : CpuMap)

namespace Ps5Vulkan.Image

open XorMap

section RunTiles

theorem parity_mod {amount bits : Nat} (h : amount % 2 ^ bits = 0) (index : Nat) : parity index amount % 2 ^ bits = 0 :=
  Nat.mod_eq_zero_of_dvd (Dvd.dvd.mul_left (Nat.dvd_of_mod_eq_zero h) _)

theorem parity_shiftRight {amount bit : Nat} (h : amount % 2 ^ (bit + 1) = 0) (index : Nat) :
    (parity index amount >>> bit) % 2 ^ 1 = 0 := by
  rw [Nat.shiftRight_eq_div_pow, ← Nat.mod_mul_right_div_self, ← Nat.pow_add, parity_mod h, Nat.zero_div]

/-- The tile of a one-sample map, with the runs of a row it keeps. -/
def CpuMap.runTile : (map : CpuMap) → map.samples = 1 → RunTile
  | colour1, _ => .ofChecks tile1b 3 1 (by decide) (by decide)
      (fun _ => parity_mod rfl) (fun column _ => parity_shiftRight rfl column) (fun _ _ => rfl)
  | colour2, _ => .ofChecks tile2b 3 0 (by decide) (by decide)
      (fun _ => parity_mod rfl) (fun column _ => parity_shiftRight rfl column) (fun _ _ => rfl)
  | colour4, _ => .ofChecks tile4b 2 0 (by decide) (by decide)
      (fun _ => parity_mod rfl) (fun column _ => parity_shiftRight rfl column) (fun _ _ => rfl)
  | colour8, _ => .ofChecks tile8b 1 0 (by decide) (by decide)
      (fun _ => parity_mod rfl) (fun column _ => parity_shiftRight rfl column) (fun _ _ => rfl)
  | colour16, _ => .ofChecks tile16b 0 0 (by decide) (by decide)
      (fun _ => parity_mod rfl) (fun column _ => parity_shiftRight rfl column) (fun _ _ => rfl)
  | depth2, _ => .ofChecks tileDepth2 1 0 (by decide) (by decide)
      (fun _ => parity_mod rfl) (fun column _ => parity_shiftRight rfl column) (fun _ _ => rfl)
  | depth4, _ => .ofChecks tileDepth 1 0 (by decide) (by decide)
      (fun _ _ => rfl) (fun _ _ => rfl) (fun _ _ => rfl)
  | stencil, _ => .ofChecks tileStencil 1 0 (by decide) (by decide)
      (fun _ => parity_mod rfl) (fun column _ => parity_shiftRight rfl column) (fun _ _ => rfl)
  | fourDepth, h => absurd h (by decide)
  | fourColour, h => absurd h (by decide)

/-- The tile whose rows hold the runs. Of a four-sample colour map it is that of a plane; a
four-sample depth map has no run longer than a texel. -/
def CpuMap.rowTile : (map : CpuMap) → map ≠ .fourDepth → RunTile
  | fourDepth, h => absurd rfl h
  | fourColour, _ => .ofChecks plane4b 2 0 (by decide) (by decide)
      (fun _ => parity_mod rfl) (fun column _ => parity_shiftRight rfl column) (fun _ _ => rfl)
  | colour1, _ => runTile colour1 rfl
  | colour2, _ => runTile colour2 rfl
  | colour4, _ => runTile colour4 rfl
  | colour8, _ => runTile colour8 rfl
  | colour16, _ => runTile colour16 rfl
  | depth2, _ => runTile depth2 rfl
  | depth4, _ => runTile depth4 rfl
  | stencil, _ => runTile stencil rfl

theorem CpuMap.layout_runTile (hone : map.samples = 1) : (map.runTile hone).layout = map.layout := by
  cases map with
  | fourDepth | fourColour => cases hone
  | _ => rfl

theorem CpuMap.runTile_bits (hone : map.samples = 1) : (map.runTile hone).bits = 16 := by
  cases map with
  | fourDepth | fourColour => cases hone
  | _ => rfl

theorem CpuMap.runTile_alignment (hone : map.samples = 1) : 2 ^ (map.runTile hone).alignment = map.elementBytes := by
  cases map with
  | fourDepth | fourColour => cases hone
  | _ => rfl

theorem CpuMap.runTile_low (hone : map.samples = 1) :
    (map.runTile hone).alignment + (map.runTile hone).runBits + 1 ≤ 10 := by
  cases map with
  | fourDepth | fourColour => cases hone
  | _ => decide +revert

end RunTiles

/-- A tiled level of a one-sample image. `tail` is what its base has below the tile. -/
structure TiledSide where
  map : CpuMap
  one : map.samples = 1
  address : Nat
  levelWidth : Nat
  tail : Nat
  levelWidth_le : levelWidth ≤ maxExtent2D
  tail_lt : tail < tileBytes
  tail_mod : tail % 2 ^ 10 = 0

namespace TiledSide

variable (level : TiledSide)

/-- The side the driver walks for the level. -/
def side : CopySide :=
  { level.map.side level.address level.levelWidth with tileXor := level.tail }

/-- The level's tile: a colour texel's place takes the tail in, a depth texel's does not. -/
def tile : RunTile :=
  if level.map.depth then level.map.runTile level.one
  else (level.map.runTile level.one).xored level.tail
    (by rw [level.map.runTile_bits]; exact level.tail_lt)
    (by
      have hdvd := Nat.pow_dvd_pow 2 (level.map.runTile_low level.one)
      rw [← Nat.mod_mod_of_dvd _ hdvd, level.tail_mod, Nat.zero_mod])

/-- The tiles in a row of the level. -/
def perRow : Nat := ceilDiv level.levelWidth level.map.layout.width

/-- Where a texel of the level lies. -/
def texelAt (x y : Nat) : Nat :=
  level.address + level.tile.layout.offset level.perRow x y 0

theorem tile_width : level.tile.layout.width = level.map.layout.width := by
  rw [← level.map.layout_runTile level.one, tile]
  split
  · rfl
  · rfl

/-- The tail is exclusive-ored into a place. -/
theorem tailed_offset (hlt hmod) (perRow x y : Nat) :
    ((level.map.runTile level.one).xored level.tail hlt hmod).layout.offset perRow x y 0 =
      (y / level.map.layout.height * perRow + x / level.map.layout.width) * tileBytes +
        (level.map.layout.place (x / level.map.layout.width) (y / level.map.layout.height)
          (x % level.map.layout.width) (y % level.map.layout.height) 0 ^^^ level.tail) := by
  rw [← level.map.layout_bytes, ← level.map.layout_runTile level.one, TileLayout.offset]
  exact congrArg _ (Nat.xor_assoc _ _ _).symm

/-- What the driver computes for a texel is its place in the level. -/
theorem copyAddress_eq {x y : Nat} (hx : x < 2 ^ 31) (hy : y < 2 ^ 31) :
    level.side.copyAddress x y level.map.elementBytes 0 = level.texelAt x y := by
  have hperRow : divRoundUp level.levelWidth level.map.layout.width = level.perRow :=
    divRoundUp_eq_ceilDiv (by
      have hwidth := level.map.width_le
      have hlevel := level.levelWidth_le
      simp only [maxExtent2D] at hlevel
      omega)
  have hsample : 0 < level.map.samples := Nat.lt_of_lt_of_eq Nat.zero_lt_one level.one.symm
  have hx' : x < 2 ^ 32 := by omega
  have hy' : y < 2 ^ 32 := by omega
  rw [side, texelAt, tile]
  cases hdepth : level.map.depth with
  | true =>
    rw [level.map.copyAddress_of_depth hdepth, level.map.copyAddress_side hx' hy' hsample, hperRow, if_pos rfl,
      level.map.layout_runTile]
  | false =>
    rw [level.map.copyAddress_of_colour hdepth hx' hy' hsample, hperRow, if_neg (by decide), level.tailed_offset,
      Nat.zero_mul, Nat.add_zero, Nat.add_assoc]

section Runs

/-- The texels of a row the level keeps contiguous. -/
def run : Nat := 2 ^ level.tile.runBits

theorem tile_alignment : 2 ^ level.tile.alignment = level.map.elementBytes := by
  rw [← level.map.runTile_alignment level.one, tile]
  split
  · rfl
  · rfl

theorem tile_low : level.tile.alignment + level.tile.runBits ≤ 10 := by
  have hlow := level.map.runTile_low level.one
  rw [tile]
  split
  · omega
  · change (level.map.runTile level.one).alignment + (level.map.runTile level.one).runBits ≤ 10
    omega

variable {level} {x y x' y' : Nat}

theorem column_lt (hx : x < level.levelWidth) : x / level.tile.layout.width < level.perRow := by
  rw [level.tile_width]
  exact div_lt_ceilDiv level.map.layout.width_pos hx

/-- Inside a run a texel lies one element after the one before it. -/
theorem texelAt_add {step : Nat} (hstep : x % level.run + step < level.run) (y : Nat) :
    level.texelAt (x + step) y = level.texelAt x y + step * level.map.elementBytes := by
  rw [texelAt, texelAt, level.tile.offset_add hstep, ← tile_alignment, Nat.add_assoc]

/-- No two texels of the level share a byte. -/
theorem texelAt_inj (hx : x < level.levelWidth) (hx' : x' < level.levelWidth) {byte byte' : Nat}
    (hbyte : byte < level.map.elementBytes) (hbyte' : byte' < level.map.elementBytes)
    (heq : level.texelAt x y + byte = level.texelAt x' y' + byte') : x = x' ∧ y = y' ∧ byte = byte' := by
  have hsame : x = x' ∧ y = y' := by
    by_contra hne
    have hapart := TileLayout.offset_apart (column_lt hx) (column_lt hx') Nat.zero_lt_one
      Nat.zero_lt_one (by simpa using fun h h' => hne ⟨h, h'⟩ : (x, y, 0) ≠ (x', y', 0))
    change _ + 2 ^ level.tile.alignment ≤ _ ∨ _ + 2 ^ level.tile.alignment ≤ _ at hapart
    rw [tile_alignment] at hapart
    unfold texelAt at heq
    omega
  obtain ⟨rfl, rfl⟩ := hsame
  exact ⟨rfl, rfl, by omega⟩

/-- The address one run past the run of a column. -/
def beyond (level : TiledSide) (x y : Nat) : Nat :=
  level.address + level.tile.beyond level.perRow x y

theorem beyond_eq (x y : Nat) : level.beyond x y = level.texelAt (x / level.run * level.run) y +
      level.run * level.map.elementBytes := by
  rw [beyond, RunTile.beyond, texelAt, level.tile.offset_eq, run, Nat.mul_div_cancel _ (Nat.two_pow_pos _),
    Nat.mul_mod_left, ← tile_alignment, Nat.pow_add]
  ring

theorem runBits_ne_zero (hx : x % level.run ≠ 0) : level.tile.runBits ≠ 0 := by
  intro hzero
  rw [run, hzero, Nat.pow_zero, Nat.mod_one] at hx
  exact hx rfl

/-- Past its run a row goes on elsewhere. -/
theorem beyond_ne (hx : x % level.run ≠ 0) (y x' : Nat) : level.beyond x y ≠ level.texelAt x' y := by
  intro heq
  exact RunTile.beyond_ne_of_rowParity (runBits_ne_zero hx) rfl (Nat.two_pow_pos _) (Nat.add_left_cancel heq)

/-- Past the run of a region's first column lies, in some row, no texel of the region. -/
theorem exists_beyond_outside (hx : x % level.run ≠ 0) (hlt : x < level.levelWidth) {height : Nat}
    (hheight : 0 < height) (y : Nat) :
    ∃ row < height, ∀ x' y' byte, x ≤ x' → x' < level.levelWidth → y ≤ y' → y' < y + height →
      byte < level.map.elementBytes → level.beyond x (y + row) ≠ level.texelAt x' y' + byte := by
  obtain ⟨row, hrow, houtside⟩ :=
    level.tile.exists_beyond_outside hx (column_lt hlt) hheight y
  refine ⟨row, hrow, fun x' y' byte hxle hxlt hyle hylt hbyte heq => ?_⟩
  rw [← tile_alignment] at hbyte
  apply houtside x' y' byte hxle (column_lt hxlt) hyle hylt hbyte
  unfold beyond texelAt at heq
  omega

end Runs

end TiledSide

section Chains

theorem tiledChains_aligned : ∀ chain ∈ tiledChains, chain.bytes % 2 ^ 16 = 0 ∧
    ∀ level, chain.bases.getD level 0 % 2 ^ 10 = 0 := by
  have hbases : ∀ chain ∈ tiledChains, chain.bytes % 2 ^ 16 = 0 ∧ ∀ base ∈ chain.bases, base % 2 ^ 10 = 0 := by decide
  intro chain hchain
  obtain ⟨hbytes, hall⟩ := hbases chain hchain
  refine ⟨hbytes, fun level => ?_⟩
  rw [List.getD_eq_getElem?_getD]
  cases hget : chain.bases[level]? with
  | none => rfl
  | some base => exact hall base (List.mem_of_getElem? hget)

variable {info : ImageInfo} {chain : TiledChain} {level layer base : Nat}

/-- An image's chain is one of the table, of its extent and level count, with four-byte texels of one
sample. -/
theorem tiledChainOf_spec (hchain : info.tiledChainOf = some chain) :
    chain ∈ tiledChains ∧ info.format.blockSize = 4 ∧ info.samples = 1 ∧ chain.width = info.width ∧
      chain.height = info.height ∧ chain.levels = info.mipLevels := by
  unfold ImageInfo.tiledChainOf at hchain
  split at hchain
  · cases hchain
  · rename_i hshape
    simp only [not_or, not_not] at hshape
    have hfound := List.find?_some hchain
    simp only [Bool.and_eq_true, beq_iff_eq] at hfound
    exact ⟨List.mem_of_find?_eq_some hchain, hshape.1, hshape.2.1, hfound.1.1, hfound.1.2, hfound.2⟩

theorem tiledLevelBase_spec (hlevels : info.mipLevels ≠ 1) (hbase : info.tiledLevelBase level = some base) :
    ∃ chain, info.tiledChainOf = some chain ∧ level < chain.levels ∧ base = chain.bases.getD level 0 := by
  unfold ImageInfo.tiledLevelBase at hbase
  rw [if_neg (fun h => hlevels h.2)] at hbase
  cases hchain : info.tiledChainOf with
  | none => simp [hchain] at hbase
  | some chain =>
    simp only [hchain] at hbase
    split at hbase
    · cases hbase
    · rename_i hlevel
      exact ⟨chain, rfl, Nat.lt_of_not_le hlevel, (Option.some.inj hbase).symm⟩

theorem layerBytes_of_chain (htiled : info.tiled = true) (hchain : info.tiledChainOf = some chain) :
    info.layerBytes = chain.bytes := by
  simp only [ImageInfo.layerBytes, htiled, if_true, hchain]

/-- The base of a level and layer of a chain. -/
theorem tiledLayerLevelBase_spec (htiled : info.tiled = true) (hlevels : info.mipLevels ≠ 1)
    (hbase : info.tiledLayerLevelBase level layer = some base) :
    ∃ chain, info.tiledChainOf = some chain ∧ level < chain.levels ∧
      base = chain.bytes * layer + chain.bases.getD level 0 := by
  unfold ImageInfo.tiledLayerLevelBase at hbase
  split at hbase
  · rename_i hlayer
    obtain ⟨chain, hchain, hlevel, rfl⟩ := tiledLevelBase_spec hlevels hbase
    exact ⟨chain, hchain, hlevel, by rw [hlayer, Nat.mul_zero, Nat.zero_add]⟩
  · split at hbase
    · cases hbase
    · obtain ⟨inner, hinner, rfl⟩ := Option.map_eq_some_iff.1 hbase
      obtain ⟨chain, hchain, hlevel, rfl⟩ := tiledLevelBase_spec hlevels hinner
      exact ⟨chain, hchain, hlevel, by rw [layerBytes_of_chain htiled hchain]⟩

theorem tiledLayerLevelBase_mod (htiled : info.tiled = true) (hlevels : info.mipLevels ≠ 1)
    (hbase : info.tiledLayerLevelBase level layer = some base) : base % 0x10000 % 2 ^ 10 = 0 := by
  obtain ⟨chain, hchain, _, rfl⟩ := tiledLayerLevelBase_spec htiled hlevels hbase
  obtain ⟨hbytes, hbases⟩ := tiledChains_aligned chain (tiledChainOf_spec hchain).1
  have hdvd : 2 ^ 10 ∣ chain.bytes * layer :=
    Dvd.dvd.mul_right ((Nat.pow_dvd_pow 2 (by decide)).trans (Nat.dvd_of_mod_eq_zero hbytes)) _
  rw [Nat.mod_mod_of_dvd _ (by decide), Nat.add_mod, Nat.mod_eq_zero_of_dvd hdvd, hbases,
    Nat.zero_add, Nat.zero_mod]

end Chains

section Sides

variable {image : BoundImage} {sub : Subresource} {texelBytes : Nat} {side : CopySide}

/-- The planes of an image: its colour, its depth, and the stencil behind the depth. -/
theorem plane_cases {info : ImageInfo} {aspect : Aspect} {plane : Plane} (hplane : info.plane aspect = some plane) :
    (info.format.hasDepth = false ∧ plane = ⟨0, info.format.blockSize, false⟩) ∨ (info.format.hasDepth = true ∧
        plane = ⟨0, if info.format.hasStencil then 4 else info.format.blockSize, true⟩) ∨
      (info.format.hasStencil = true ∧ info.stencilOffset ≠ 0 ∧ plane = ⟨info.stencilOffset, 1, true⟩) := by
  unfold ImageInfo.plane at hplane
  split at hplane
  · rename_i hcolour
    split at hplane
    · cases hplane
      exact .inl ⟨by simpa using hcolour.1, rfl⟩
    · cases hplane
  · split at hplane
    · rename_i hdepth
      cases hplane
      exact .inr (.inl ⟨hdepth.2, rfl⟩)
    · split at hplane
      · rename_i hstencil
        cases hplane
        exact .inr (.inr ⟨hstencil.2.1, hstencil.2.2, rfl⟩)
      · cases hplane

/-- A tiled side of a plane. -/
def Plane.tiledSide (plane : Plane) (samples address levelWidth tail : Nat) : CopySide where
  address := address
  rowPitch := 0
  levelWidth := levelWidth
  tileXor := tail
  tileWidth := (tileExtent plane.elementBytes plane.depthMap samples).1
  tileHeight := (tileExtent plane.elementBytes plane.depthMap samples).2
  elementBytes := plane.elementBytes
  samples := samples
  depth := plane.depthMap
  tiled := true

/-- The element sizes a tiled side may have. -/
def Plane.Mapped (plane : Plane) (samples : Nat) : Prop :=
  plane.elementBytes = 4 ∨ plane.elementBytes = 8 ∨ plane.elementBytes = 16 ∨
    (plane.elementBytes = 1 ∨ plane.elementBytes = 2) ∧ samples = 1

/-- Where the layer of a single-level tiled image starts. -/
def ImageInfo.layerOffset (info : ImageInfo) (layer : Nat) : Nat :=
  if info.arrayLayers > 1 then info.layerBytes * layer else 0

/-- The sides `ps5vk_image_copy_side` returns: a level of a chain, the level of a single-level tiled
image, and a level of a row image. -/
theorem copySide_cases (hside : image.copySide sub = some (texelBytes, side)) :
    ∃ plane, image.plane sub.aspect = some plane ∧ plane.elementBytes ≠ 0 ∧
      (image.samples = 1 ∨ image.samples = 4) ∧ texelBytes = plane.elementBytes * image.samples ∧
      ((image.tiled = true ∧ plane.Mapped image.samples ∧ image.mipLevels ≠ 1 ∧
          ∃ base, image.tiledLayerLevelBase sub.mipLevel sub.baseArrayLayer = some base ∧
            side = plane.tiledSide image.samples (image.address + base / 0x10000 * 0x10000)
              (image.levelWidth sub.mipLevel) (base % 0x10000)) ∨
        (image.tiled = true ∧ plane.Mapped image.samples ∧ image.mipLevels = 1 ∧
          ¬(image.arrayLayers > 1 ∧ image.layerBytes = 0) ∧
          (plane.depthMap = true → texelBytes = 4 ∨ texelBytes = 16 ∨ texelBytes = 1) ∧
          side = plane.tiledSide image.samples
            (image.address + plane.offset + image.layerOffset sub.baseArrayLayer) image.width 0) ∨
        (image.tiled = false ∧ image.samples = 1 ∧ side.tiled = false ∧
          side.address = image.address + plane.offset + image.rowLevelOffset sub.mipLevel ∧
          side.rowPitch = image.rowPitch sub.mipLevel)) := by
  unfold BoundImage.copySide at hside
  obtain ⟨plane, hplane, hside⟩ := Option.bind_eq_some_iff.1 hside
  dsimp only at hside
  obtain ⟨helement, hside⟩ := Option.ite_none_left_eq_some.1 hside
  obtain ⟨hsamples, hside⟩ := Option.ite_none_left_eq_some.1 hside
  have hcount : image.samples = 1 ∨ image.samples = 4 := by omega
  have hsame : (if image.samples = 4 then 4 else 1) = image.samples := by
    rcases hcount with h | h <;> rw [h] <;> rfl
  rw [hsame] at hside
  refine ⟨plane, hplane, helement, hcount, ?_⟩
  obtain ⟨-, hside⟩ := Option.ite_none_left_eq_some.1 hside
  cases htiled : image.tiled with
  | true =>
    rw [htiled, if_pos rfl] at hside
    obtain ⟨hmapped, hside⟩ := Option.ite_none_left_eq_some.1 hside
    have hmap : plane.Mapped image.samples := by
      unfold Plane.Mapped
      omega
    by_cases hlevels : image.mipLevels = 1
    · rw [if_neg (not_not.2 hlevels)] at hside
      split at hside
      · cases hside
      rename_i hlayers
      split at hside
      · cases hside
      rename_i hdepth
      cases hside
      refine ⟨rfl, .inr (.inl ⟨rfl, hmap, hlevels, hlayers, fun hmapDepth => ?_, rfl⟩)⟩
      have hsizes := not_and.mp hdepth hmapDepth
      omega
    · rw [if_pos hlevels] at hside
      obtain ⟨base, hbase, hside⟩ := Option.bind_eq_some_iff.1 hside
      cases hside
      exact ⟨rfl, .inl ⟨rfl, hmap, hlevels, base, hbase, rfl⟩⟩
  | false =>
    rw [htiled, if_neg Bool.false_ne_true] at hside
    split at hside
    · cases hside
    rename_i hone
    cases hside
    exact ⟨rfl, .inr (.inr ⟨rfl, not_not.1 hone, rfl, rfl, rfl⟩)⟩

end Sides

section OneSample

variable {image : BoundImage} {sub : Subresource} {texelBytes : Nat} {side : CopySide}

theorem le_alignTo (n : Nat) {alignment : Nat} (hpos : 0 < alignment) : n ≤ alignTo n alignment :=
  Rounding.le_up n hpos

theorem ImageInfo.levelWidth_le (info : ImageInfo) (level : Nat) : info.levelWidth level ≤ maxExtent2D := by
  have hshift : info.width >>> level ≤ info.width := Nat.shiftRight_le _ _
  have hwidth := info.width_le
  have hpos := info.width_pos
  unfold ImageInfo.levelWidth
  omega

/-- The one-sample map of an element size. -/
def oneSampleMap (elementBytes : Nat) (depth : Bool) : CpuMap :=
  if depth then
    if elementBytes = 1 then .stencil else if elementBytes = 2 then .depth2 else .depth4
  else if elementBytes = 1 then .colour1
  else if elementBytes = 2 then .colour2
  else if elementBytes = 8 then .colour8
  else if elementBytes = 16 then .colour16
  else .colour4

/-- A depth plane has elements of one, two or four bytes. -/
theorem plane_depth {info : ImageInfo} {aspect : Aspect} {plane : Plane}
    (hplane : info.plane aspect = some plane) (hdepth : plane.depthMap = true) :
    plane.elementBytes = 1 ∨ plane.elementBytes = 2 ∨ plane.elementBytes = 4 := by
  rcases plane_cases hplane with ⟨-, rfl⟩ | ⟨hformat, rfl⟩ | ⟨-, -, rfl⟩
  · cases hdepth
  · dsimp only
    cases hkind : info.format with
    | colour number bytes =>
      rw [hkind] at hformat
      cases hformat
    | d16 => exact .inr (.inl rfl)
    | d32 | d24s8 | d32s8 => exact .inr (.inr rfl)
  · exact .inl rfl

/-- The level a tiled side of a one-sample plane walks. -/
def Plane.level (plane : Plane) (hmap : (oneSampleMap plane.elementBytes plane.depthMap).samples = 1)
    (address levelWidth tail : Nat) (hwidth : levelWidth ≤ maxExtent2D) (hlt : tail < tileBytes)
    (hmod : tail % 2 ^ 10 = 0) : TiledSide :=
  ⟨oneSampleMap plane.elementBytes plane.depthMap, hmap, address, levelWidth, tail, hwidth, hlt, hmod⟩

section

variable {plane : Plane} (hmapped : plane.Mapped 1)
  (hdepth : plane.depthMap = true → plane.elementBytes = 1 ∨ plane.elementBytes = 2 ∨ plane.elementBytes = 4)

include hmapped hdepth

theorem oneSampleMap_spec : (oneSampleMap plane.elementBytes plane.depthMap).samples = 1 ∧
      (oneSampleMap plane.elementBytes plane.depthMap).elementBytes = plane.elementBytes ∧
      (oneSampleMap plane.elementBytes plane.depthMap).depth = plane.depthMap := by
  obtain ⟨offset, element, depth⟩ := plane
  cases depth with
  | true =>
    rcases hdepth rfl with h | h | h <;> cases h <;> exact ⟨rfl, rfl, rfl⟩
  | false =>
    rcases hmapped with h | h | h | ⟨h | h, _⟩ <;> cases h <;> exact ⟨rfl, rfl, rfl⟩

theorem Plane.side_level (hmap) (address levelWidth tail : Nat) (hwidth hlt hmod) :
    (plane.level hmap address levelWidth tail hwidth hlt hmod).side =
      plane.tiledSide 1 address levelWidth tail := by
  obtain ⟨hone, hbytes, hkind⟩ := oneSampleMap_spec hmapped hdepth
  simp only [TiledSide.side, CpuMap.side, Plane.tiledSide, Plane.level, hone, hbytes, hkind]

end

/-- A tiled side of a one-sample image is a tiled level, and any other a row layout whose rows hold
the level's texels. -/
theorem copySide_one (hside : image.copySide sub = some (texelBytes, side)) (hone : image.samples = 1)
    (hlevel : sub.mipLevel < image.mipLevels) :
    (∃ level : TiledSide, side = level.side ∧ texelBytes = level.map.elementBytes ∧
      level.levelWidth = image.levelWidth sub.mipLevel) ∨ image.tiled = false ∧ 0 < texelBytes ∧ side.tiled = false ∧
      image.rowWidth sub.mipLevel * texelBytes ≤ side.rowPitch := by
  obtain ⟨plane, hplane, helement, -, htexel, hcases⟩ := copySide_cases hside
  rw [hone, Nat.mul_one] at htexel
  rw [hone] at hcases
  rcases hcases with ⟨htiled, hmapped, hlevels, base, hbase, rfl⟩ |
    ⟨-, hmapped, hlevels, -, -, rfl⟩ | ⟨htiled, -, hrows, -, hpitch⟩
  · left
    obtain ⟨hmap, hbytes, -⟩ := oneSampleMap_spec hmapped (plane_depth hplane)
    exact ⟨_, (Plane.side_level hmapped (plane_depth hplane) hmap _ _ _ (image.levelWidth_le _)
      (Nat.mod_lt base (by decide)) (tiledLayerLevelBase_mod htiled hlevels hbase)).symm,
      htexel.trans hbytes.symm, rfl⟩
  · left
    obtain ⟨hmap, hbytes, -⟩ := oneSampleMap_spec hmapped (plane_depth hplane)
    have hzero : sub.mipLevel = 0 := by omega
    have hwidth : image.levelWidth sub.mipLevel = image.width := by
      rw [hzero]
      exact Nat.max_eq_left image.width_pos
    exact ⟨_, (Plane.side_level hmapped (plane_depth hplane) hmap _ _ _ image.width_le (by decide)
      rfl).symm, htexel.trans hbytes.symm, hwidth.symm⟩
  · right
    refine ⟨htiled, by omega, hrows, ?_⟩
    rw [hpitch, htexel]
    have hblock : plane.elementBytes = image.format.blockSize := by
      have hstencil : image.format.hasStencil = false := by
        by_contra hne
        simp [ImageInfo.tiled, Bool.not_eq_false _ ▸ hne] at htiled
      rcases plane_cases hplane with ⟨-, rfl⟩ | ⟨-, rfl⟩ | ⟨h, -, -⟩
      · rfl
      · rw [hstencil]
        rfl
      · rw [hstencil] at h
        cases h
    rw [hblock]
    exact le_alignTo _ (by decide)

end OneSample

end Ps5Vulkan.Image
