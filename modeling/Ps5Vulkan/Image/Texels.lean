import Ps5Vulkan.Image.Storage
import Ps5Vulkan.Library.Rounding

/-!
# The texels of a tiled level

Every map the CPU walks is a layout of tiles: what `ps5vk_image_copy_address` computes for a texel of
a level is the layout's offset, so no two texels or samples of the level share a byte, and all lie in
the level's tile grid.
-/

namespace Ps5Vulkan.Image

open XorMap

/-- The maps the CPU walks. -/
inductive CpuMap where
  | colour1
  | colour2
  | colour4
  | colour8
  | colour16
  | depth2
  | depth4
  | stencil
  | fourDepth
  | fourColour
  deriving DecidableEq, Repr

namespace CpuMap

def elementBytes : CpuMap → Nat
  | colour1 => 1
  | colour2 => 2
  | colour4 => 4
  | colour8 => 8
  | colour16 => 16
  | depth2 => 2
  | depth4 => 4
  | stencil => 1
  | fourDepth => 4
  | fourColour => 4

def depth : CpuMap → Bool
  | depth2 => true
  | depth4 => true
  | stencil => true
  | fourDepth => true
  | _ => false

def samples : CpuMap → Nat
  | fourDepth => 4
  | fourColour => 4
  | _ => 1

variable (map : CpuMap)

/-- The side of a level that walks the map. -/
def side (address levelWidth : Nat) : CopySide where
  address := address
  rowPitch := 0
  levelWidth := levelWidth
  tileXor := 0
  tileWidth := (tileExtent map.elementBytes map.depth map.samples).1
  tileHeight := (tileExtent map.elementBytes map.depth map.samples).2
  elementBytes := map.elementBytes
  samples := map.samples
  depth := map.depth
  tiled := true

/-- The map's tiles. -/
def layout : CpuMap → TileLayout
  | colour1 => tile1b.layout
  | colour2 => tile2b.layout
  | colour4 => tile4b.layout
  | colour8 => tile8b.layout
  | colour16 => tile16b.layout
  | depth2 => tileDepth2.layout
  | depth4 => tileDepth.layout
  | stencil => tileStencil.layout
  | fourDepth => tileDepth4.layout.interleaved (by decide) 4 4 (by decide) (by decide)
  | fourColour => plane4b.layout.planes (by decide) 4

theorem layout_samples : map.layout.samples = map.samples := by
  cases map <;> rfl

theorem layout_element : map.layout.element = map.elementBytes := by
  cases map <;> rfl

theorem layout_bytes : map.layout.bytes = tileBytes := by
  cases map <;> rfl

theorem tileExtent_eq : tileExtent map.elementBytes map.depth map.samples = (map.layout.width, map.layout.height) := by
  cases map <;> decide

end CpuMap

section Paths

theorem and_mask (n bits : Nat) : n &&& (2 ^ bits - 1) = n % 2 ^ bits :=
  Nat.and_two_pow_sub_one_eq_mod n bits

variable (x y levelWidth : Nat)

/-- The path of its own that four-byte texels have places them where their terms do. -/
theorem fastTexelOffset_eq : fastTexelOffset x y levelWidth = tableTexelOffset x y levelWidth 128 128 4 1 := by
  simp only [fastTexelOffset, tableTexelOffset, turned, Nat.shiftRight_eq_div_pow]
  simp [swizzle, tiledTerms, tiled4bTerms, Coord.of]

theorem ofColumns_mod (columns : List Nat) (value : Nat) :
    ofColumns columns (value % 2 ^ columns.length) = ofColumns columns value := by
  induction columns generalizing value with
  | nil => rfl
  | cons column columns ih =>
    have hlow : (value % 2 ^ (columns.length + 1)).testBit 0 = value.testBit 0 := by
      rw [Nat.testBit_mod_two_pow]
      simp
    have hhigh : (value % 2 ^ (columns.length + 1)) >>> 1 = (value >>> 1) % 2 ^ columns.length := by
      rw [Nat.shiftRight_eq_div_pow, Nat.shiftRight_eq_div_pow, Nat.pow_succ']
      exact Nat.mod_mul_right_div_self ..
    simp only [ofColumns, List.length_cons, hlow, hhigh, ih]

theorem toU32_natCast {n : Nat} (h : n < 2 ^ 32) : toU32 n = n := by
  have hmod : (n : Int) % 2 ^ 32 = n := Int.emod_eq_of_lt (by omega) (by omega)
  rw [toU32, hmod, Int.toNat_natCast]

variable (map : CpuMap)

theorem tableTexelOffset_eq (hcolour : map.depth = false) (x y levelWidth : Nat) :
    tableTexelOffset x y levelWidth map.layout.width map.layout.height map.elementBytes map.samples =
      ((y / map.layout.height * divRoundUp levelWidth map.layout.width + x / map.layout.width) *
        tileBytes, map.layout.place (x / map.layout.width) (y / map.layout.height)
          (x % map.layout.width) (y % map.layout.height) 0) := by
  cases map with
  | depth2 | depth4 | stencil | fourDepth => cases hcolour
  | _ =>
    simp only [CpuMap.layout, CpuMap.elementBytes, CpuMap.samples, XorTile.layout,
      TileLayout.planes, tableTexelOffset, turned, XorTile.place, tile1b, tile2b, tile4b, tile8b,
      tile16b, plane4b, swizzleTile, and_mask]
    simp [parity, tiledTerms]

theorem tiledTexelOffset_eq :
    tiledTexelOffset x y levelWidth map.layout.width map.layout.height map.elementBytes map.samples =
      tableTexelOffset x y levelWidth map.layout.width map.layout.height map.elementBytes
        map.samples := by
  unfold tiledTexelOffset
  split
  · rename_i hfast
    obtain ⟨hbytes, hsamples, hwidth, hheight⟩ := hfast
    rw [hbytes, hsamples, hwidth, hheight]
    exact fastTexelOffset_eq x y levelWidth
  · rfl

/-- How far a sample lies from the one before it. -/
def CpuMap.sampleStep : CpuMap → Nat
  | fourColour => samplePlaneBytes
  | fourDepth => depthSampleBytes
  | _ => 0

theorem CpuMap.place_sample (column row x y sample : Nat) : map.layout.place column row x y sample =
      map.layout.place column row x y 0 + sample * map.sampleStep := by
  cases map with
  | fourColour =>
    simp only [layout, TileLayout.planes, sampleStep, Nat.zero_mul, Nat.zero_add]
    exact Nat.add_comm _ _
  | fourDepth => simp [layout, TileLayout.interleaved, sampleStep, depthSampleBytes]
  | _ => simp [layout, XorTile.layout, sampleStep]

theorem tiledDepthOffset_eq (hdepth : map.depth = true) (hone : map.samples = 1)
    (x y levelWidth : Nat) : tiledDepthOffset x y levelWidth map.elementBytes =
      map.layout.offset (divRoundUp levelWidth map.layout.width) x y 0 := by
  cases map with
  | depth2 =>
    simp only [CpuMap.layout, CpuMap.elementBytes, XorTile.layout, TileLayout.offset,
      tiledDepthOffset, XorTile.place, tileDepth2, swizzleTile, Nat.shiftRight_eq_div_pow, ← and_mask]
    simp [parity, tileBytes]
  | stencil =>
    simp only [CpuMap.layout, CpuMap.elementBytes, XorTile.layout, TileLayout.offset,
      tiledDepthOffset, XorTile.place, tileStencil, swizzleTile, Nat.shiftRight_eq_div_pow, ← and_mask]
    simp [parity, tileBytes]
  | depth4 =>
    have hx : ofColumns depthXMasks (x % 2 ^ 7) = ofColumns depthXMasks x := ofColumns_mod _ _
    have hy : ofColumns depthYMasks (y % 2 ^ 7) = ofColumns depthYMasks y := ofColumns_mod _ _
    simp only [CpuMap.layout, CpuMap.elementBytes, XorTile.layout, TileLayout.offset,
      tiledDepthOffset, XorTile.place, tileDepth, Nat.shiftRight_eq_div_pow, Nat.xor_zero, hx, hy]
    simp [tileBytes]
  | fourDepth => cases hone
  | _ => cases hdepth

theorem tiledDepth4Offset_eq : tiledDepth4Offset x y levelWidth 64 64 =
      CpuMap.fourDepth.layout.offset (divRoundUp levelWidth 64) x y 0 := by
  simp only [CpuMap.layout, XorTile.layout, TileLayout.interleaved, TileLayout.offset,
    tiledDepth4Offset, XorTile.place, tileDepth4, swizzleTile, depth4Turn, ← and_mask]
  simp [parity, tileBytes, Nat.xor_assoc]

/-- The driver's three ways to a texel of a tiled level. -/
theorem CopySide.copyAddress_colour {side : CopySide} (htiled : side.tiled = true) (hdepth : side.depth = false)
    (x y : Int) (texelBytes sample : Nat) : side.copyAddress x y texelBytes sample = side.address +
      (tiledTexelOffset (toU32 x) (toU32 y) side.levelWidth side.tileWidth side.tileHeight
        side.elementBytes side.samples).1 + (if side.samples = 4 then (sample &&& 3) * samplePlaneBytes else 0) +
      ((tiledTexelOffset (toU32 x) (toU32 y) side.levelWidth side.tileWidth side.tileHeight
        side.elementBytes side.samples).2 ^^^ side.tileXor) := by
  rw [CopySide.copyAddress, if_pos htiled, hdepth]
  rfl

theorem CopySide.copyAddress_four {side : CopySide} (htiled : side.tiled = true) (hdepth : side.depth = true)
    (hfour : side.samples = 4) (x y : Int) (texelBytes sample : Nat) : side.copyAddress x y texelBytes sample =
      side.address + tiledDepth4Offset x.toNat y.toNat side.levelWidth side.tileWidth side.tileHeight +
        (sample &&& 3) * depthSampleBytes := by
  rw [CopySide.copyAddress, if_pos htiled, if_pos hdepth, if_pos hfour]

theorem CopySide.copyAddress_depth {side : CopySide} (htiled : side.tiled = true) (hdepth : side.depth = true)
    (hone : side.samples ≠ 4) (x y : Int) (texelBytes sample : Nat) : side.copyAddress x y texelBytes sample =
      side.address + tiledDepthOffset x.toNat y.toNat side.levelWidth texelBytes := by
  rw [CopySide.copyAddress, if_pos htiled, if_pos hdepth, if_neg hone]

/-- The bits of a side's base are exclusive-ored into a colour texel's place, and into no depth texel's. -/
theorem CpuMap.copyAddress_of_depth (hdepth : map.depth = true) (x y : Int)
    (address levelWidth tileXor texelBytes sample : Nat) :
    CopySide.copyAddress { map.side address levelWidth with tileXor } x y texelBytes sample =
      (map.side address levelWidth).copyAddress x y texelBytes sample := by
  simp only [CopySide.copyAddress, side, hdepth, if_true]

theorem and_three {sample : Nat} (hsample : sample < 4) : sample &&& 3 = sample :=
  (and_mask sample 2).trans (Nat.mod_eq_of_lt hsample)

theorem CpuMap.copyAddress_of_colour (hcolour : map.depth = false) {x y sample : Nat}
    (hx : x < 2 ^ 32) (hy : y < 2 ^ 32) (hsample : sample < map.samples) (address levelWidth tileXor : Nat) :
    CopySide.copyAddress { map.side address levelWidth with tileXor } x y map.elementBytes sample =
      address + (y / map.layout.height * divRoundUp levelWidth map.layout.width + x / map.layout.width) *
        tileBytes + sample * map.sampleStep + (map.layout.place (x / map.layout.width) (y / map.layout.height)
          (x % map.layout.width) (y % map.layout.height) 0 ^^^ tileXor) := by
  rw [CopySide.copyAddress_colour rfl hcolour, toU32_natCast hx, toU32_natCast hy]
  dsimp only [CpuMap.side]
  rw [map.tileExtent_eq, tiledTexelOffset_eq, tableTexelOffset_eq map hcolour,
    and_three (hsample.trans_le (by cases map <;> decide))]
  cases map with
  | fourColour => simp only [samples, sampleStep, if_true]
  | depth2 | depth4 | stencil | fourDepth => cases hcolour
  | _ => simp only [samples, sampleStep, OfNat.one_ne_ofNat, if_false, Nat.mul_zero]

/-- What the driver computes for a texel is its place in the layout. -/
theorem CpuMap.copyAddress_side {x y sample : Nat} (hx : x < 2 ^ 32)
    (hy : y < 2 ^ 32) (hsample : sample < map.samples) (address levelWidth : Nat) :
    (map.side address levelWidth).copyAddress x y map.elementBytes sample =
      address + map.layout.offset (divRoundUp levelWidth map.layout.width) x y sample := by
  rw [TileLayout.offset, map.place_sample, map.layout_bytes]
  cases hdepth : map.depth with
  | false =>
    have haddress := map.copyAddress_of_colour hdepth hx hy hsample address levelWidth 0
    rw [Nat.xor_zero] at haddress
    refine haddress.trans ?_
    omega
  | true =>
    cases map with
    | fourDepth =>
      have hoffset := tiledDepth4Offset_eq x y levelWidth
      rw [TileLayout.offset, CpuMap.layout_bytes] at hoffset
      rw [CopySide.copyAddress_four rfl hdepth rfl, and_three hsample, Nat.add_assoc, ← Nat.add_assoc (_ * tileBytes)]
      exact congrArg (fun offset => address + (offset + sample * depthSampleBytes)) hoffset
    | depth2 | depth4 | stencil =>
      rw [CopySide.copyAddress_depth rfl hdepth (by decide : 1 ≠ 4), Int.toNat_natCast, Int.toNat_natCast]
      dsimp only [CpuMap.side]
      rw [tiledDepthOffset_eq _ hdepth rfl, TileLayout.offset, CpuMap.layout_bytes]
      simp only [sampleStep, Nat.mul_zero, Nat.add_zero]
    | _ => cases hdepth

end Paths

section Level

/-- The extent of a level. Its coordinates are numbers of `int32_t`. -/
structure LevelExtent where
  width : Nat
  height : Nat
  width_le : width ≤ 2 ^ 31
  height_le : height ≤ 2 ^ 31

/-- A sample of a texel of a level. -/
@[ext] structure Texel (map : CpuMap) (extent : LevelExtent) where
  x : Fin extent.width
  y : Fin extent.height
  sample : Fin map.samples

variable {map : CpuMap} {extent : LevelExtent} (texel : Texel map extent)

/-- Where the driver finds the sample. -/
def Texel.address (base : Nat) : Nat :=
  (map.side base extent.width).copyAddress (texel.x : Nat) (texel.y : Nat) map.elementBytes texel.sample

theorem divRoundUp_eq_ceilDiv {a b : Nat} (h : a + b ≤ 2 ^ 32) : divRoundUp a b = ceilDiv a b := by
  rw [divRoundUp, ceilDiv, Nat.mod_eq_of_lt (by omega)]

theorem div_lt_ceilDiv {a b n : Nat} (hb : 0 < b) (h : n < a) : n / b < ceilDiv a b := by
  rw [ceilDiv, Nat.div_lt_iff_lt_mul hb]
  exact h.trans_le (Rounding.le_up a hb)

theorem CpuMap.width_le (map : CpuMap) : map.layout.width ≤ 2 ^ 8 := by
  cases map <;> decide

theorem Texel.address_eq (base : Nat) :
    texel.address base = base + map.layout.offset (ceilDiv extent.width map.layout.width)
      texel.x texel.y texel.sample := by
  have hx := texel.x.isLt
  have hy := texel.y.isLt
  have hwidth := extent.width_le
  have hheight := extent.height_le
  have htile := map.width_le
  rw [Texel.address, map.copyAddress_side (by omega) (by omega) texel.sample.isLt,
    divRoundUp_eq_ceilDiv (by omega)]

theorem Texel.sample_lt : (texel.sample : Nat) < map.layout.samples :=
  Nat.lt_of_lt_of_eq texel.sample.isLt map.layout_samples.symm

theorem Texel.column_lt : (texel.x : Nat) / map.layout.width < ceilDiv extent.width map.layout.width :=
  div_lt_ceilDiv map.layout.width_pos texel.x.isLt

/-- Two samples are disjoint. -/
theorem Texel.apart {texel texel' : Texel map extent} (hne : texel ≠ texel') (base : Nat) :
    texel.address base + map.elementBytes ≤ texel'.address base ∨
      texel'.address base + map.elementBytes ≤ texel.address base := by
  have hne' : ((texel.x : Nat), (texel.y : Nat), (texel.sample : Nat)) ≠
      ((texel'.x : Nat), (texel'.y : Nat), (texel'.sample : Nat)) := by
    intro heq
    simp only [Prod.mk.injEq, Fin.val_inj] at heq
    exact hne (Texel.ext heq.1 heq.2.1 heq.2.2)
  have hapart := TileLayout.offset_apart texel.column_lt texel'.column_lt texel.sample_lt texel'.sample_lt hne'
  rw [texel.address_eq, texel'.address_eq, ← map.layout_element]
  omega

/-- A sample is aligned and inside the level's tile grid. -/
theorem Texel.inside (base : Nat) : base ≤ texel.address base ∧ map.elementBytes ∣ texel.address base - base ∧
      texel.address base + map.elementBytes ≤ base +
        ceilDiv extent.width (tileExtent map.elementBytes map.depth map.samples).1 *
          ceilDiv extent.height (tileExtent map.elementBytes map.depth map.samples).2 * tileBytes := by
  have hdvd : map.layout.element ∣ map.layout.offset (ceilDiv extent.width map.layout.width)
      texel.x texel.y texel.sample := TileLayout.offset_dvd texel.sample_lt
  have hinside := TileLayout.offset_add_le texel.column_lt
    (div_lt_ceilDiv map.layout.height_pos texel.y.isLt) texel.sample_lt
  rw [map.layout_element] at hdvd hinside
  rw [map.layout_bytes, Nat.mul_comm (ceilDiv extent.height _)] at hinside
  rw [texel.address_eq, map.tileExtent_eq]
  dsimp only
  refine ⟨Nat.le_add_right _ _, ?_, ?_⟩
  · rwa [Nat.add_sub_cancel_left]
  · omega

/-- The maps the CPU walks are injective. Two samples of a level, of one texel or of two, are disjoint
ranges; each is aligned to its element and inside the level's tile grid; and the path of its own that
four-byte texels have is that of the table, at every coordinate. -/
theorem cpuMap_texels_apart (map : CpuMap) (extent : LevelExtent) (base : Nat) :
    (∀ texel texel' : Texel map extent, texel ≠ texel' →
      texel.address base + map.elementBytes ≤ texel'.address base ∨
        texel'.address base + map.elementBytes ≤ texel.address base) ∧
    (∀ texel : Texel map extent, base ≤ texel.address base ∧
      map.elementBytes ∣ texel.address base - base ∧
      texel.address base + map.elementBytes ≤ base +
        ceilDiv extent.width (tileExtent map.elementBytes map.depth map.samples).1 *
          ceilDiv extent.height (tileExtent map.elementBytes map.depth map.samples).2 * tileBytes) ∧
    ∀ x y levelWidth : Nat,
      fastTexelOffset x y levelWidth = tableTexelOffset x y levelWidth 128 128 4 1 :=
  ⟨fun _ _ hne => Texel.apart hne base, fun texel => texel.inside base, fastTexelOffset_eq⟩

end Level

end Ps5Vulkan.Image
