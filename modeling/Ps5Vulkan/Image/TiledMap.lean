import Ps5Vulkan.Library.TileLayout

/-!
# The texel maps of tiled images

Where `ps5vk_image.c` finds the texels of a tiled level: the tile's place in the grid and the
texel's place inside its 64 KiB tile. A place is an exclusive or of shifted and masked coordinates,
one table of terms an element size, and in some maps the tile's own column and row turn it.

## Implementation notes

Coordinates and widths are 32-bit numbers of the source and addresses 64-bit ones. The one sum that
can pass 32 bits is that of `DIV_ROUND_UP`, which is taken modulo `2 ^ 32`; the tile grid of a level
lies in the address space, so the 64-bit sums and products are those of `Nat`.
-/

variable (terms : List TiledTerm) (x y levelWidth tileWidth tileHeight elementBytes samples : Nat)

namespace Ps5Vulkan.Image

open XorMap

/-- A coordinate of a texel. -/
inductive Coord where
  | x
  | y
  deriving DecidableEq, Repr

def Coord.of (x y : Nat) : Coord → Nat
  | .x => x
  | .y => y

/-- `struct ps5vk_tiled_term`. -/
structure TiledTerm where
  coord : Coord
  shift : Nat
  mask : Nat
  deriving DecidableEq, Repr

def tiled4bTerms : List TiledTerm :=
  [⟨.x, 2, 0x0c⟩, ⟨.x, 5, 0x380⟩, ⟨.x, 4, 0x400⟩, ⟨.x, 6, 0x800⟩, ⟨.x, 9, 0xa000⟩,
    ⟨.y, 4, 0x70⟩, ⟨.y, 5, 0xf00⟩, ⟨.y, 9, 0x1000⟩, ⟨.y, 8, 0x4000⟩]

def tiled1bTerms : List TiledTerm :=
  [⟨.x, 0, 0x7⟩, ⟨.x, 3, 0x40⟩, ⟨.x, 5, 0x300⟩, ⟨.x, 6, 0x800⟩, ⟨.x, 4, 0x400⟩,
    ⟨.x, 7, 0x2000⟩, ⟨.x, 8, 0x8000⟩, ⟨.y, 4, 0x10⟩, ⟨.y, 2, 0x8⟩, ⟨.y, 3, 0xa0⟩,
    ⟨.y, 5, 0xf00⟩, ⟨.y, 6, 0x1000⟩, ⟨.y, 7, 0x4000⟩]

def tiled8bTerms : List TiledTerm :=
  [⟨.x, 3, 0x8⟩, ⟨.x, 4, 0x460⟩, ⟨.x, 5, 0x300⟩, ⟨.x, 10, 0x2000⟩, ⟨.x, 6, 0x800⟩,
    ⟨.x, 9, 0x8000⟩, ⟨.y, 4, 0x10⟩, ⟨.y, 6, 0x80⟩, ⟨.y, 10, 0x5000⟩, ⟨.y, 5, 0x700⟩]

def tiled16bTerms : List TiledTerm :=
  [⟨.x, 4, 0x10⟩, ⟨.x, 5, 0x340⟩, ⟨.x, 11, 0xa000⟩, ⟨.x, 6, 0x800⟩, ⟨.y, 5, 0x720⟩,
    ⟨.y, 6, 0x80⟩, ⟨.y, 10, 0x1000⟩, ⟨.y, 11, 0x4000⟩]

def tiled2bTerms : List TiledTerm :=
  [⟨.x, 1, 0x0e⟩, ⟨.x, 4, 0x480⟩, ⟨.x, 5, 0x300⟩, ⟨.x, 6, 0x800⟩, ⟨.x, 7, 0x2000⟩,
    ⟨.x, 8, 0x8000⟩, ⟨.y, 4, 0x70⟩, ⟨.y, 5, 0xf00⟩, ⟨.y, 8, 0x5000⟩]

def tiledDepth2Terms : List TiledTerm :=
  [⟨.x, 1, 0x2⟩, ⟨.x, 2, 0x8⟩, ⟨.x, 3, 0x20⟩, ⟨.x, 4, 0x480⟩, ⟨.x, 5, 0x300⟩, ⟨.x, 6, 0x800⟩,
    ⟨.x, 7, 0x2000⟩, ⟨.x, 8, 0x8000⟩, ⟨.y, 2, 0x4⟩, ⟨.y, 3, 0x10⟩, ⟨.y, 4, 0x40⟩,
    ⟨.y, 5, 0xf00⟩, ⟨.y, 8, 0x5000⟩]

def tiledStencilTerms : List TiledTerm :=
  [⟨.x, 0, 0x1⟩, ⟨.x, 1, 0x4⟩, ⟨.x, 2, 0x10⟩, ⟨.x, 3, 0x40⟩, ⟨.x, 5, 0x300⟩, ⟨.x, 6, 0x800⟩,
    ⟨.x, 4, 0x400⟩, ⟨.x, 7, 0x2000⟩, ⟨.x, 8, 0x8000⟩, ⟨.y, 1, 0x2⟩, ⟨.y, 2, 0x8⟩,
    ⟨.y, 3, 0xa0⟩, ⟨.y, 5, 0xf00⟩, ⟨.y, 6, 0x1000⟩, ⟨.y, 7, 0x4000⟩]

def tiledDepth4Terms : List TiledTerm :=
  [⟨.x, 4, 0x10⟩, ⟨.x, 5, 0x340⟩, ⟨.x, 13, 0x8000⟩, ⟨.x, 9, 0x2000⟩, ⟨.x, 6, 0x800⟩,
    ⟨.y, 5, 0x720⟩, ⟨.y, 6, 0x80⟩, ⟨.y, 12, 0x4000⟩, ⟨.y, 9, 0x1000⟩]

/-- The place the terms give the coordinates inside a tile. -/
def swizzle (inX inY : Nat) : Nat :=
  terms.foldl (fun place term => place ^^^ ((term.coord.of inX inY <<< term.shift) &&& term.mask)) 0

def tileBytes : Nat := 0x10000

/-- `DIV_ROUND_UP` of 32-bit numbers. -/
def divRoundUp (a b : Nat) : Nat :=
  (a + b - 1) % 2 ^ 32 / b

/-- The terms `ps5vk_tiled_texel_offset` takes for an element size. -/
def tiledTerms (elementBytes : Nat) : List TiledTerm :=
  if elementBytes = 1 then tiled1bTerms
  else if elementBytes = 2 then tiled2bTerms
  else if elementBytes = 8 then tiled8bTerms
  else if elementBytes = 16 then tiled16bTerms
  else tiled4bTerms

/-- The block-local coordinates, turned by the tile's column and row. -/
def turned (x y tileWidth tileHeight elementBytes samples : Nat) : Nat × Nat :=
  let inX := x &&& (tileWidth - 1)
  let inY := y &&& (tileHeight - 1)
  if samples = 4 then
    (inX ^^^ ((y / tileHeight) &&& 1) * (tileWidth / 2),
      inY ^^^ ((x / tileWidth) &&& 1) * (tileHeight / 2))
  else if elementBytes = 8 then (inX ^^^ ((y / tileHeight) &&& 1) * 32, inY)
  else if elementBytes = 16 then
    (inX ^^^ ((y / tileHeight) &&& 1) * (tileWidth / 2),
      inY ^^^ ((x / tileWidth) &&& 1) * (tileHeight / 2))
  else (inX, inY)

/-- The bit-table path of `ps5vk_tiled_texel_offset`: the tile's offset and the place in the tile. -/
def tableTexelOffset : Nat × Nat :=
  let (inX, inY) := turned x y tileWidth tileHeight elementBytes samples
  ((y / tileHeight * divRoundUp levelWidth tileWidth + x / tileWidth) * tileBytes,
    swizzle (tiledTerms elementBytes) inX inY)

/-- The path `ps5vk_tiled_texel_offset` has for one-sample texels of four bytes. -/
def fastTexelOffset (x y levelWidth : Nat) : Nat × Nat :=
  let sx := x &&& 127
  let sy := y &&& 127
  (((y >>> 7) * divRoundUp levelWidth 128 + (x >>> 7)) * tileBytes,
    ((sx <<< 2) &&& 0x0c) ^^^ ((sx <<< 5) &&& 0x380) ^^^ ((sx <<< 4) &&& 0x400) ^^^
      ((sx <<< 6) &&& 0x800) ^^^ ((sx <<< 9) &&& 0xa000) ^^^ ((sy <<< 4) &&& 0x70) ^^^
      ((sy <<< 5) &&& 0xf00) ^^^ ((sy <<< 9) &&& 0x1000) ^^^ ((sy <<< 8) &&& 0x4000))

/-- `ps5vk_tiled_texel_offset`: the tile's offset and the place in the tile. -/
def tiledTexelOffset : Nat × Nat :=
  if elementBytes = 4 ∧ samples = 1 ∧ tileWidth = 128 ∧ tileHeight = 128 then
    fastTexelOffset x y levelWidth
  else tableTexelOffset x y levelWidth tileWidth tileHeight elementBytes samples

/-- The masks of the four-byte depth map, one a coordinate bit. -/
def depthXMasks : List Nat := [0x0004, 0x0010, 0x0040, 0x0100, 0x2200, 0x0800, 0x8400]

def depthYMasks : List Nat := [0x0008, 0x0020, 0x0080, 0x1100, 0x0200, 0x0400, 0x4800]

/-- `ps5vk_tiled_depth_offset`. -/
def tiledDepthOffset (x y levelWidth elementBytes : Nat) : Nat :=
  if elementBytes = 1 then
    ((y >>> 8) * divRoundUp levelWidth 256 + (x >>> 8)) * tileBytes +
      swizzle tiledStencilTerms (x &&& 255) (y &&& 255)
  else if elementBytes = 2 then
    ((y >>> 7) * divRoundUp levelWidth 256 + (x >>> 8)) * tileBytes +
      swizzle tiledDepth2Terms (x &&& 255) (y &&& 127)
  else
    ((y >>> 7) * divRoundUp levelWidth 128 + (x >>> 7)) * tileBytes +
      (ofColumns depthXMasks x ^^^ ofColumns depthYMasks y)

/-- `ps5vk_tiled_depth4_offset`. -/
def tiledDepth4Offset (x y levelWidth tileWidth tileHeight : Nat) : Nat :=
  let column := x / tileWidth
  let row := y / tileHeight
  (row * divRoundUp levelWidth tileWidth + column) * tileBytes +
    (swizzle tiledDepth4Terms (x &&& (tileWidth - 1)) (y &&& (tileHeight - 1)) ^^^
      (column &&& 1) <<< 10 ^^^ (row &&& 1) <<< 11 ^^^ (row &&& 1) <<< 14 ^^^
      ((row >>> 1) &&& 1) <<< 15)

/-- `ps5vk_tile_extent`: a tile's width and height in texels. -/
def tileExtent (texelBytes : Nat) (depth : Bool) (samples : Nat) : Nat × Nat :=
  let texelBytes := if depth ∧ texelBytes ≠ 2 ∧ texelBytes ≠ 1 then 4 else texelBytes
  let log2Bytes :=
    if texelBytes = 1 then 0
    else if texelBytes = 2 then 1
    else if texelBytes = 8 then 3
    else if texelBytes = 16 then 4
    else 2
  let n := 16 - log2Bytes - Nat.log2 samples
  (2 ^ ((n + 1) / 2), 2 ^ (n / 2))

section Swizzle

theorem xorLinear₂_swizzle : XorLinear₂ (swizzle terms) := by
  have hterm : ∀ term : TiledTerm, XorLinear₂ fun x y => (term.coord.of x y <<< term.shift) &&& term.mask := by
    intro term
    apply (xorLinear_term term.shift term.mask).comp
    cases term.coord with
    | x => exact xorLinear₂_fst
    | y => exact xorLinear₂_snd
  have hfold : ∀ place : Nat → Nat → Nat, XorLinear₂ place → XorLinear₂ fun x y =>
      terms.foldl (fun at' term => at' ^^^ ((term.coord.of x y <<< term.shift) &&& term.mask))
        (place x y) := by
    induction terms with
    | nil => exact fun _ h => h
    | cons term terms ih => exact fun place h => ih _ (h.xor (hterm term))
  exact hfold _ xorLinear₂_zero

/-- How far the parity of a column or row moves a coordinate. -/
def parity (index amount : Nat) : Nat :=
  (index &&& 1) * amount

theorem parity_lt {amount bits : Nat} (h : amount < 2 ^ bits) (index : Nat) : parity index amount < 2 ^ bits := by
  have hle : index &&& 1 ≤ 1 := Nat.and_le_right
  calc parity index amount ≤ 1 * amount := Nat.mul_le_mul_right _ hle
    _ = amount := Nat.one_mul _
    _ < 2 ^ bits := h

/-- What is checked of a table of terms: `unX` and `unY` find the coordinates back, and places lie
below `2 ^ bits` and are multiples of `2 ^ alignment`. -/
def swizzleChecks (unX unY : List Nat) (xBits yBits alignment bits : Nat) :
    Bool :=
  agree₂ (fun x y => ofColumns unX (swizzle terms x y)) (fun x _ => x) xBits yBits &&
    (agree₂ (fun x y => ofColumns unY (swizzle terms x y)) (fun _ y => y) xBits yBits &&
      (agree₂ (fun x y => swizzle terms x y >>> bits) (fun _ _ => 0) xBits yBits &&
        agree₂ (fun x y => swizzle terms x y % 2 ^ alignment) (fun _ _ => 0) xBits yBits))

/-- A tile of a table of terms. The row's parity moves `x` and the column's `y`. -/
def swizzleTile (unX unY : List Nat) (xBits yBits alignment bits : Nat)
    (byRow byColumn : Nat) (turn : (column row : Nat) → Nat)
    (hchecks : swizzleChecks terms unX unY xBits yBits alignment bits = true)
    (hfits : byRow < 2 ^ xBits ∧ byColumn < 2 ^ yBits ∧ alignment ≤ bits)
    (hturn : ∀ column row, turn column row < 2 ^ bits ∧ turn column row % 2 ^ alignment = 0) : XorTile where
  map := swizzle terms
  unX := unX
  unY := unY
  xBits := xBits
  yBits := yBits
  alignment := alignment
  bits := bits
  turnX _ row := parity row byRow
  turnY column _ := parity column byColumn
  turn := turn
  linear := xorLinear₂_swizzle terms
  unX_map := (Bool.and_eq_true_iff.1 hchecks).1
  unY_map := (Bool.and_eq_true_iff.1 (Bool.and_eq_true_iff.1 hchecks).2).1
  map_lt := (Bool.and_eq_true_iff.1 (Bool.and_eq_true_iff.1 (Bool.and_eq_true_iff.1 hchecks).2).2).1
  map_dvd := (Bool.and_eq_true_iff.1 (Bool.and_eq_true_iff.1 (Bool.and_eq_true_iff.1 hchecks).2).2).2
  turnX_lt _ row := parity_lt hfits.1 row
  turnY_lt column _ := parity_lt hfits.2.1 column
  turn_lt column row := (hturn column row).1
  turn_dvd column row := (hturn column row).2
  alignment_le := hfits.2.2

theorem noTurn (alignment bits : Nat) (_ _ : Nat) : 0 < 2 ^ bits ∧ 0 % 2 ^ alignment = 0 :=
  ⟨Nat.two_pow_pos _, Nat.zero_mod _⟩

end Swizzle

section Tiles

def tile1b : XorTile :=
  swizzleTile tiled1bTerms [1, 2, 4, 0, 0, 0, 8, 0x10, 0, 0x10, 0, 0x20, 0x20, 0x40, 0, 0x80]
    [0, 0, 0, 2, 1, 4, 8, 0x10, 8, 0, 0x20, 0, 0x40, 0x20, 0x80, 0] 8 8 0 16 0 0 (fun _ _ => 0)
    (by decide) (by decide) (noTurn 0 16)

def tile2b : XorTile :=
  swizzleTile tiled2bTerms [0, 1, 2, 4, 0, 0, 0, 8, 0, 0x10, 0, 0x20, 0x10, 0x40, 0x20, 0x80]
    [0, 0, 0, 0, 1, 2, 4, 8, 8, 0, 0x20, 0, 0x10, 0x20, 0x40, 0] 8 7 1 16 0 0 (fun _ _ => 0)
    (by decide) (by decide) (noTurn 1 16)

def tile4b : XorTile :=
  swizzleTile tiled4bTerms [0, 0, 1, 2, 0, 0, 0, 4, 8, 0, 0, 0x20, 8, 0x10, 0x20, 0x40]
    [0, 0, 0, 0, 1, 2, 4, 0, 0, 0x10, 0x20, 0, 8, 0x10, 0x40, 0x20] 7 7 2 16 0 0 (fun _ _ => 0)
    (by decide) (by decide) (noTurn 2 16)

def tile8b : XorTile :=
  swizzleTile tiled8bTerms [0, 0, 0, 1, 0, 2, 4, 0, 0, 0x10, 0, 0x20, 0, 8, 0x10, 0x40]
    [0, 0, 0, 0, 1, 0, 0, 2, 8, 0, 0x20, 0, 4, 8, 0x10, 0x20] 7 6 3 16 32 0 (fun _ _ => 0)
    (by decide) (by decide) (noTurn 3 16)

def tile16b : XorTile :=
  swizzleTile tiled16bTerms [0, 0, 0, 0, 1, 0, 2, 0, 8, 0, 0, 0x20, 0, 4, 8, 0x10]
    [0, 0, 0, 0, 0, 1, 0, 2, 0, 0x10, 0x20, 0, 4, 0, 8, 0x10] 6 6 4 16 32 32 (fun _ _ => 0)
    (by decide) (by decide) (noTurn 4 16)

/-- The tile of a four-sample level of eight-byte texels. -/
def wide8 : XorTile :=
  swizzleTile tiled8bTerms tile8b.unX tile8b.unY 6 5 3 16 32 16 (fun _ _ => 0) (by decide) (by decide) (noTurn 3 16)

/-- The tile of a four-sample level of sixteen-byte texels. -/
def wide16 : XorTile :=
  swizzleTile tiled16bTerms tile16b.unX tile16b.unY 5 5 4 16 16 16 (fun _ _ => 0) (by decide) (by decide) (noTurn 4 16)

/-- One plane of a four-sample tile of four-byte texels. -/
def plane4b : XorTile :=
  swizzleTile tiled4bTerms tile4b.unX tile4b.unY 6 6 2 14 32 32 (fun _ _ => 0) (by decide) (by decide) (noTurn 2 14)

def tileStencil : XorTile :=
  swizzleTile tiledStencilTerms [1, 0, 2, 0, 4, 0, 8, 0x10, 0, 0x10, 0, 0x20, 0x20, 0x40, 0, 0x80]
    [0, 1, 0, 2, 0, 4, 8, 0x10, 8, 0, 0x20, 0, 0x40, 0x20, 0x80, 0] 8 8 0 16 0 0 (fun _ _ => 0)
    (by decide) (by decide) (noTurn 0 16)

def tileDepth2 : XorTile :=
  swizzleTile tiledDepth2Terms [0, 1, 0, 2, 0, 4, 0, 8, 0, 0x10, 0, 0x20, 0x10, 0x40, 0x20, 0x80]
    [0, 0, 1, 0, 2, 0, 4, 8, 8, 0, 0x20, 0, 0x10, 0x20, 0x40, 0] 8 7 1 16 0 0 (fun _ _ => 0)
    (by decide) (by decide) (noTurn 1 16)

/-- The bits a four-sample depth tile's column and row turn. -/
def depth4Turn (column row : Nat) : Nat :=
  (column &&& 1) <<< 10 ^^^ (row &&& 1) <<< 11 ^^^ (row &&& 1) <<< 14 ^^^ ((row >>> 1) &&& 1) <<< 15

theorem depth4Turn_spec (column row : Nat) : depth4Turn column row < 2 ^ 16 ∧ depth4Turn column row % 2 ^ 4 = 0 := by
  have hbit : ∀ n : Nat, n &&& 1 = 0 ∨ n &&& 1 = 1 := by
    intro n
    have hle : n &&& 1 ≤ 1 := Nat.and_le_right
    omega
  unfold depth4Turn
  rcases hbit column with hc | hc <;> rcases hbit row with hr | hr <;>
    rcases hbit (row >>> 1) with hs | hs <;> rw [hc, hr, hs] <;> decide

/-- A four-sample depth tile, its texel of sixteen bytes taken whole. -/
def tileDepth4 : XorTile :=
  swizzleTile tiledDepth4Terms [0, 0, 0, 0, 1, 0, 2, 0, 8, 0, 0, 0x20, 8, 0x10, 0, 4]
    [0, 0, 0, 0, 0, 1, 0, 2, 0, 0x10, 0x20, 0, 8, 0x10, 4, 0] 6 6 4 16 0 0 depth4Turn
    (by decide) (by decide) depth4Turn_spec

/-- A one-sample tile of four-byte depth. -/
def tileDepth : XorTile where
  map x y := ofColumns depthXMasks x ^^^ ofColumns depthYMasks y
  unX := [0, 0, 1, 0, 2, 0, 4, 0, 8, 0, 0, 0x20, 8, 0x10, 0x20, 0x40]
  unY := [0, 0, 0, 1, 0, 2, 0, 4, 0, 0x10, 0x20, 0, 8, 0x10, 0x40, 0x20]
  xBits := 7
  yBits := 7
  alignment := 2
  bits := 16
  turnX _ _ := 0
  turnY _ _ := 0
  turn _ _ := 0
  linear := ((xorLinear_ofColumns _).comp xorLinear₂_fst).xor
    ((xorLinear_ofColumns _).comp xorLinear₂_snd)
  unX_map := by decide
  unY_map := by decide
  map_lt := by decide
  map_dvd := by decide
  turnX_lt _ _ := Nat.two_pow_pos _
  turnY_lt _ _ := Nat.two_pow_pos _
  turn_lt _ _ := Nat.two_pow_pos _
  turn_dvd _ _ := Nat.zero_mod _
  alignment_le := by decide

end Tiles

end Ps5Vulkan.Image
