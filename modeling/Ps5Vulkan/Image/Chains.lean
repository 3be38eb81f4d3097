import Ps5Vulkan.Image.Upload

/-!
# The levels of tiled chains

The levels of a measured chain that are a tile or more lie in tiles of their own; the smaller ones
share one tile and are told apart by what their base has below it, which is exclusive-ored into a
colour texel's place. A depth texel's place does not take it in, so the small levels of a depth chain
lie over one another.
-/

namespace Ps5Vulkan.Image

open XorMap

section Sides

variable {image : BoundImage} {chain : TiledChain} {aspect : Aspect} {level layer texelBytes : Nat}
  {side : CopySide}

/-- A level of a chain as uploads and readbacks find it. -/
structure IsChainLevel (image : BoundImage) (chain : TiledChain) (layer level : Nat) (s : TiledSide) :
    Prop where
  map_eq : s.map = if image.format.hasDepth then .depth4 else .colour4
  address_eq : s.address =
    image.address + chain.bytes * layer + chain.bases.getD level 0 / 0x10000 * 0x10000
  width_eq : s.levelWidth = image.levelWidth level
  tail_eq : s.tail = chain.bases.getD level 0 % 0x10000

theorem chainBase_split (hmem : chain ∈ tiledChains) (base layer : Nat) :
    (chain.bytes * layer + base) / 0x10000 * 0x10000 = chain.bytes * layer + base / 0x10000 * 0x10000 ∧
      (chain.bytes * layer + base) % 0x10000 = base % 0x10000 := by
  obtain ⟨hbytes, -⟩ := tiledChains_aligned chain hmem
  have hdvd : 0x10000 ∣ chain.bytes * layer := Dvd.dvd.mul_right (Nat.dvd_of_mod_eq_zero hbytes) _
  obtain ⟨count, hcount⟩ := hdvd
  rw [hcount, Nat.mul_add_div (by decide), Nat.mul_add_mod, Nat.add_mul, Nat.mul_comm 0x10000 count]
  exact ⟨rfl, rfl⟩

/-- Down a chain the extents of row-layout and tiled levels agree. -/
theorem tiledChains_rowWidth : ∀ chain ∈ tiledChains, ∀ level < chain.levels,
    max (ceilDiv chain.width (2 ^ level)) 1 = max (chain.width >>> level) 1 := by
  decide

/-- The side of a level of a chain, for readbacks and uploads alike. -/
theorem copySide_chain (htiled : image.tiled = true) (hlevels : image.mipLevels ≠ 1)
    (hchain : image.tiledChainOf = some chain)
    (hside : image.copySide ⟨aspect, level, layer⟩ = some (texelBytes, side)) :
    level < chain.levels ∧ texelBytes = 4 ∧ image.uploadSide ⟨aspect, level, layer⟩ = some side ∧
      ∃ s : TiledSide, side = s.side ∧ IsChainLevel image chain layer level s := by
  obtain ⟨hmem, hblock, hone, -⟩ := tiledChainOf_spec hchain
  obtain ⟨plane, hplane, -, -, htexel, hcases⟩ := copySide_cases hside
  rw [hone] at hcases htexel
  rcases hcases with ⟨-, hmapped, -, base, hbase, rfl⟩ | ⟨-, -, h, -⟩ | ⟨h, -⟩
  · obtain ⟨chain', hchain', hlevel, rfl⟩ := tiledLayerLevelBase_spec htiled hlevels hbase
    obtain rfl : chain = chain' := Option.some.inj (hchain.symm.trans hchain')
    obtain ⟨hmap, hbytes, -⟩ := oneSampleMap_spec hmapped (plane_depth hplane)
    obtain ⟨hfloor, htail⟩ := chainBase_split hmem (chain.bases.getD level 0) layer
    have hstencil : image.format.hasStencil = false := by
      by_contra hne
      exact hlevels (image.stencil_shape (Bool.not_eq_false _ ▸ hne)).2.1
    have hplaneEq : plane = ⟨0, 4, image.format.hasDepth⟩ := by
      rcases plane_cases hplane with ⟨hdepth, rfl⟩ | ⟨hdepth, rfl⟩ | ⟨h, -, -⟩
      · rw [hdepth, hblock]
      · rw [hstencil, hdepth, hblock]
        rfl
      · rw [hstencil] at h
        cases h
    have hwidth : image.rowWidth level = image.levelWidth level := by
      obtain ⟨-, -, -, hextent, -⟩ := tiledChainOf_spec hchain
      rw [ImageInfo.rowWidth, ImageInfo.levelWidth, ← hextent]
      exact tiledChains_rowWidth chain hmem level hlevel
    refine ⟨hlevel, by simp [htexel, hplaneEq], ?_, _, (Plane.side_level hmapped (plane_depth hplane) hmap _ _ _
      (image.levelWidth_le _) (Nat.mod_lt _ (by decide)) (tiledLayerLevelBase_mod htiled hlevels hbase)).symm,
      ?_, ?_, rfl, htail⟩
    · simp only [BoundImage.uploadSide, hplane, hbase, hwidth, hone, hplaneEq, Option.bind_eq_bind,
        Option.bind_some, ne_eq, not_true_eq_false, false_and, if_false, Nat.add_zero]
      rfl
    · change oneSampleMap plane.elementBytes plane.depthMap = _
      rw [hplaneEq]
      cases image.format.hasDepth <;> rfl
    · change image.address + _ = _
      rw [hfloor, Nat.add_assoc]
  · exact absurd h hlevels
  · rw [htiled] at h
    cases h

end Sides

section Tiles

namespace TiledChain

variable (chain : TiledChain) (level : Nat)

/-- The tile of a layer a level starts in. -/
def firstTile : Nat := chain.bases.getD level 0 / 0x10000

/-- What a level's base has below its tile. -/
def tail : Nat := chain.bases.getD level 0 % 0x10000

def levelWidth : Nat := max (chain.width >>> level) 1

def levelHeight : Nat := max (chain.height >>> level) 1

/-- The tiles of a level, of four-byte texels. -/
def tiles : Nat :=
  ceilDiv (chain.levelHeight level) 128 * ceilDiv (chain.levelWidth level) 128

/-- Two levels in one tile that their tails tell apart: the texels of one place differ by more than
the levels' extent. -/
def tailsApart (level level' : Nat) : Bool :=
  (List.range 8).any fun bits =>
    (chain.levelWidth level ≤ 2 ^ bits && chain.levelWidth level' ≤ 2 ^ bits &&
      2 ^ bits ≤ ofColumns tile4b.unX (chain.tail level ^^^ chain.tail level')) ||
    (chain.levelHeight level ≤ 2 ^ bits && chain.levelHeight level' ≤ 2 ^ bits &&
      2 ^ bits ≤ ofColumns tile4b.unY (chain.tail level ^^^ chain.tail level'))

/-- Two levels share one tile. -/
def sharesTile (level level' : Nat) : Bool :=
  chain.firstTile level == chain.firstTile level' &&
    chain.levelWidth level ≤ 128 && chain.levelHeight level ≤ 128 &&
    chain.levelWidth level' ≤ 128 && chain.levelHeight level' ≤ 128

end TiledChain

section Extents

variable {info : ImageInfo} {chain : TiledChain}

theorem levelWidth_chain (hchain : info.tiledChainOf = some chain) (level : Nat) :
    info.levelWidth level = chain.levelWidth level := by
  obtain ⟨-, -, -, hwidth, -⟩ := tiledChainOf_spec hchain
  rw [ImageInfo.levelWidth, TiledChain.levelWidth, hwidth]

theorem levelHeight_chain (hchain : info.tiledChainOf = some chain) (level : Nat) :
    info.levelHeight level = chain.levelHeight level := by
  obtain ⟨-, -, -, -, hheight, -⟩ := tiledChainOf_spec hchain
  rw [ImageInfo.levelHeight, TiledChain.levelHeight, hheight]

end Extents

/-- Every level of a chain lies in the chain's bytes. -/
theorem tiledChains_inside : ∀ chain ∈ tiledChains, ∀ level < chain.levels,
    (chain.firstTile level + chain.tiles level) * 0x10000 ≤ chain.bytes := by
  decide

/-- Two levels of a chain are in tiles of their own, or in one tile with tails that tell their colour
texels apart. -/
theorem tiledChains_apart : ∀ chain ∈ tiledChains, ∀ level < chain.levels, ∀ level' < chain.levels,
    level ≠ level' → chain.firstTile level + chain.tiles level ≤ chain.firstTile level' ∨
      chain.firstTile level' + chain.tiles level' ≤ chain.firstTile level ∨
      chain.sharesTile level level' = true ∧ chain.tailsApart level level' = true := by
  decide +kernel

/-- Every chain of more than one level has two in one tile. -/
theorem tiledChains_shared : ∀ chain ∈ tiledChains, chain.levels ≠ 1 →
    ∃ level < chain.levels, ∃ level' < chain.levels, level ≠ level' ∧ chain.sharesTile level level' = true := by
  decide

end Tiles

section Levels

namespace TiledSide

variable {s s' : TiledSide} {x y x' y' height : Nat}

section

variable (hmap : s.map = .colour4 ∨ s.map = .depth4)

include hmap

theorem layout_four : s.map.elementBytes = 4 ∧ s.map.layout.width = 128 ∧ s.tile.layout.height = 128 ∧
      s.tile.layout.element = 4 ∧ s.tile.layout.bytes = 0x10000 := by
  obtain ⟨map, one, address, levelWidth, tail, hwidth, htail, hmod⟩ := s
  rcases hmap with rfl | rfl
  · exact ⟨rfl, rfl, rfl, rfl, rfl⟩
  · exact ⟨rfl, rfl, rfl, rfl, rfl⟩

/-- A texel of a level lies in the level's tiles. -/
theorem texelAt_inside (hx : x < s.levelWidth) (hy : y < height) : s.address ≤ s.texelAt x y ∧
      s.texelAt x y + 4 ≤ s.address + ceilDiv height 128 * ceilDiv s.levelWidth 128 * 0x10000 := by
  obtain ⟨-, hwidth, hheight, helement, hbytes⟩ := layout_four hmap
  have hrow : y / s.tile.layout.height < ceilDiv height 128 := by
    rw [hheight]
    exact div_lt_ceilDiv (by decide) hy
  have hle := TileLayout.offset_add_le (column_lt hx) hrow Nat.zero_lt_one
  rw [helement, hbytes, perRow, hwidth] at hle
  unfold texelAt perRow
  rw [hwidth]
  omega

theorem four_dvd_offset : 4 ∣ s.tile.layout.offset s.perRow x y 0 := by
  have hdvd : s.tile.layout.element ∣ s.tile.layout.offset s.perRow x y 0 :=
    TileLayout.offset_dvd Nat.zero_lt_one
  rwa [(layout_four hmap).2.2.2.1] at hdvd

end

theorem offset_of_lt (hmap : s.map = .colour4) (hx : x < 128) (hy : y < 128) (hlt hmod) :
    s.tile.layout.offset s.perRow x y 0 = (tile4b.xored s.tail hlt hmod).place 0 0 x y := by
  obtain ⟨map, one, address, levelWidth, tail, hwidth, htail, htailMod⟩ := s
  subst hmap
  change (y / 128 * _ + x / 128) * _ + (tile4b.xored tail hlt hmod).place (x / 128) (y / 128) (x % 128) (y % 128) = _
  rw [Nat.div_eq_of_lt hx, Nat.div_eq_of_lt hy, Nat.mod_eq_of_lt hx, Nat.mod_eq_of_lt hy,
    Nat.zero_mul, Nat.add_zero, Nat.zero_mul, Nat.zero_add]

/-- Texels of two colour levels in one tile that share a place differ by what their tails do. -/
theorem xor_eq_of_texelAt (hmap : s.map = .colour4) (hmap' : s'.map = .colour4)
    (haddress : s.address = s'.address) (hx : x < 128) (hy : y < 128) (hx' : x' < 128) (hy' : y' < 128)
    (heq : s.texelAt x y = s'.texelAt x' y') : x ^^^ x' = ofColumns tile4b.unX (s.tail ^^^ s'.tail) ∧
      y ^^^ y' = ofColumns tile4b.unY (s.tail ^^^ s'.tail) := by
  have hmod (s : TiledSide) : s.tail % 2 ^ tile4b.alignment = 0 := by
    rw [← Nat.mod_mod_of_dvd _ (by decide : 2 ^ tile4b.alignment ∣ 2 ^ 10), s.tail_mod, Nat.zero_mod]
  have hplace : s.tile.layout.offset s.perRow x y 0 = s'.tile.layout.offset s'.perRow x' y' 0 := by
    unfold texelAt at heq
    omega
  rw [offset_of_lt hmap hx hy s.tail_lt (hmod s), offset_of_lt hmap' hx' hy' s'.tail_lt (hmod s')] at hplace
  exact tile4b.xor_eq_of_place_xored _ _ _ _ hx hy hx' hy' hplace

/-- A depth level's first texel is where its tile starts, whatever its tail. -/
theorem copyAddress_corner (hmap : s.map = .depth4) : s.side.copyAddress (0 : Nat) (0 : Nat) 4 0 = s.address := by
  obtain ⟨map, one, address, levelWidth, tail, hwidth, htail, hmod⟩ := s
  subst hmap
  refine (TiledSide.copyAddress_eq _ (by decide) (by decide)).trans ?_
  rw [texelAt, TileLayout.offset, Nat.zero_div, Nat.zero_div, Nat.zero_mod, Nat.zero_mod, Nat.zero_mul,
    Nat.zero_mul, Nat.zero_add]
  have hplace : (CpuMap.runTile .depth4 rfl).layout.place 0 0 0 0 0 = 0 := by decide +kernel
  exact congrArg (address + ·) hplace

end TiledSide

namespace IsChainLevel

variable {image : BoundImage} {chain : TiledChain} {layer level level' x y x' y' : Nat}
  {s s' : TiledSide}

theorem four (h : IsChainLevel image chain layer level s) : s.map = .colour4 ∨ s.map = .depth4 := by
  rw [h.map_eq]
  cases image.format.hasDepth
  · exact Or.inl rfl
  · exact Or.inr rfl

/-- A texel of a level of a chain lies in the level's tiles of its layer. -/
theorem inside (h : IsChainLevel image chain layer level s) (hchain : image.tiledChainOf = some chain)
    (hx : x < image.levelWidth level) (hy : y < image.levelHeight level) :
    image.address + chain.bytes * layer + chain.firstTile level * 0x10000 ≤ s.texelAt x y ∧
      s.texelAt x y + 4 ≤ image.address + chain.bytes * layer +
        (chain.firstTile level + chain.tiles level) * 0x10000 := by
  have hinside := TiledSide.texelAt_inside h.four (h.width_eq ▸ hx) hy
  have htiles : ceilDiv (image.levelHeight level) 128 * ceilDiv s.levelWidth 128 = chain.tiles level := by
    rw [h.width_eq, levelWidth_chain hchain, levelHeight_chain hchain, TiledChain.tiles]
  rw [htiles, h.address_eq] at hinside
  rw [TiledChain.firstTile, Nat.add_mul]
  omega

/-- Tails that tell two levels apart leave them no place in common. -/
theorem not_of_tailsApart (htails : chain.tailsApart level level' = true)
    (hx : x < chain.levelWidth level) (hy : y < chain.levelHeight level)
    (hx' : x' < chain.levelWidth level') (hy' : y' < chain.levelHeight level')
    (hxor : x ^^^ x' = ofColumns tile4b.unX (chain.tail level ^^^ chain.tail level') ∧
      y ^^^ y' = ofColumns tile4b.unY (chain.tail level ^^^ chain.tail level')) : False := by
  simp only [TiledChain.tailsApart, List.any_eq_true, Bool.or_eq_true, Bool.and_eq_true,
    decide_eq_true_eq] at htails
  obtain ⟨bits, -, ⟨⟨hle, hle'⟩, hfar⟩ | ⟨⟨hle, hle'⟩, hfar⟩⟩ := htails
  · have hlt := Nat.xor_lt_two_pow (Nat.lt_of_lt_of_le hx hle) (Nat.lt_of_lt_of_le hx' hle')
    omega
  · have hlt := Nat.xor_lt_two_pow (Nat.lt_of_lt_of_le hy hle) (Nat.lt_of_lt_of_le hy' hle')
    omega

/-- Texels of two levels of a colour chain are disjoint. -/
theorem apart (hcolour : image.format.hasDepth = false) (hchain : image.tiledChainOf = some chain)
    (h : IsChainLevel image chain layer level s) (h' : IsChainLevel image chain layer level' s')
    (hlevel : level < chain.levels) (hlevel' : level' < chain.levels) (hne : level ≠ level')
    (hx : x < image.levelWidth level) (hy : y < image.levelHeight level)
    (hx' : x' < image.levelWidth level') (hy' : y' < image.levelHeight level') :
    s.texelAt x y + 4 ≤ s'.texelAt x' y' ∨ s'.texelAt x' y' + 4 ≤ s.texelAt x y := by
  obtain ⟨hmem, -⟩ := tiledChainOf_spec hchain
  have hinside := h.inside hchain hx hy
  have hinside' := h'.inside hchain hx' hy'
  rcases tiledChains_apart chain hmem level hlevel level' hlevel' hne with hbefore | hafter |
    ⟨hshares, htails⟩
  · have htiles := Nat.mul_le_mul_right 0x10000 hbefore
    omega
  · have htiles := Nat.mul_le_mul_right 0x10000 hafter
    omega
  · have hmap : s.map = .colour4 := by rw [h.map_eq, hcolour]; rfl
    have hmap' : s'.map = .colour4 := by rw [h'.map_eq, hcolour]; rfl
    simp only [TiledChain.sharesTile, Bool.and_eq_true, beq_iff_eq, decide_eq_true_eq] at hshares
    obtain ⟨⟨⟨⟨hfirst, hw⟩, hh⟩, hw'⟩, hh'⟩ := hshares
    rw [levelWidth_chain hchain] at hx hx'
    rw [levelHeight_chain hchain] at hy hy'
    have haddress : s.address = s'.address := by
      rw [h.address_eq, h'.address_eq]
      exact congrArg (image.address + chain.bytes * layer + · * 0x10000) hfirst
    have hplace : s.tile.layout.offset s.perRow x y 0 ≠ s'.tile.layout.offset s'.perRow x' y' 0 := by
      intro heq
      have hxor := TiledSide.xor_eq_of_texelAt hmap hmap' haddress (Nat.lt_of_lt_of_le hx hw)
        (Nat.lt_of_lt_of_le hy hh) (Nat.lt_of_lt_of_le hx' hw') (Nat.lt_of_lt_of_le hy' hh')
        (by rw [TiledSide.texelAt, TiledSide.texelAt, haddress, heq])
      rw [h.tail_eq, h'.tail_eq] at hxor
      exact not_of_tailsApart htails hx hy hx' hy' hxor
    have hapart := TileLayout.apart_of_dvd (TiledSide.four_dvd_offset h.four) (TiledSide.four_dvd_offset h'.four) hplace
    unfold TiledSide.texelAt
    omega

end IsChainLevel

end Levels

section Aliasing

/-- No two levels of a layer alias: texels of different levels are disjoint and inside the bytes the
layer is sized for, and an upload into one level leaves the other's texels. -/
def LevelsApart (image : BoundImage) (layer : Nat) : Prop :=
  ∀ aspect level level' texelBytes side texelBytes' side', level < image.mipLevels →
    level' < image.mipLevels → level ≠ level' →
    image.copySide ⟨aspect, level, layer⟩ = some (texelBytes, side) →
    image.copySide ⟨aspect, level', layer⟩ = some (texelBytes', side') →
    image.uploadSide ⟨aspect, level, layer⟩ = some side ∧
    ∀ x' < image.levelWidth level', ∀ y' < image.levelHeight level',
      (∀ x < image.levelWidth level, ∀ y < image.levelHeight level,
        (side.copyAddress x y texelBytes 0 + texelBytes ≤ side'.copyAddress x' y' texelBytes' 0 ∨
          side'.copyAddress x' y' texelBytes' 0 + texelBytes' ≤ side.copyAddress x y texelBytes 0) ∧
        image.address + image.layerBytes * layer ≤ side.copyAddress x y texelBytes 0 ∧
        side.copyAddress x y texelBytes 0 + texelBytes ≤
          image.address + image.layerBytes * layer + image.tiledLayerBytes) ∧
      ∀ upload : ImageWrite, upload.destinationSide = side →
        upload.destinationTexelBytes = texelBytes →
        upload.destinationX + upload.width ≤ image.levelWidth level →
        upload.destinationY + upload.height ≤ image.levelHeight level →
        ∀ (memory : Nat → UInt8), ∀ byte < texelBytes',
          upload.imageWriteExecute memory (side'.copyAddress x' y' texelBytes' 0 + byte) =
            memory (side'.copyAddress x' y' texelBytes' 0 + byte)

variable {image : BoundImage} {chain : TiledChain} {layer level : Nat}

theorem tiledLayerBytes_chain (hchain : image.tiledChainOf = some chain) : image.tiledLayerBytes = chain.bytes := by
  obtain ⟨-, hbytes, hone, -⟩ := tiledChainOf_spec hchain
  have hfound : image.chain? = some chain := by
    unfold ImageInfo.tiledChainOf at hchain
    split at hchain
    · cases hchain
    · exact hchain
  rw [ImageInfo.tiledLayerBytes, hfound]
  exact if_pos ⟨hbytes, hone⟩

theorem levelExtent_lt (image : BoundImage) (level : Nat) :
    image.levelWidth level ≤ 2 ^ 31 ∧ image.levelHeight level ≤ 2 ^ 31 := by
  have hwidth := image.width_le
  have hheight := image.height_le
  have hshiftWidth := Nat.shiftRight_le image.width level
  have hshiftHeight := Nat.shiftRight_le image.height level
  simp only [maxExtent2D] at hwidth hheight
  unfold ImageInfo.levelWidth ImageInfo.levelHeight
  omega

section

variable (htiled : image.tiled = true) (hlevels : image.mipLevels ≠ 1) (hchain : image.tiledChainOf = some chain)

include htiled hlevels hchain

/-- The levels of a colour chain do not alias. -/
theorem levelsApart_colour (hcolour : image.format.hasDepth = false) (layer : Nat) :
    LevelsApart image layer := by
  intro aspect level level' texelBytes side texelBytes' side' _ _ hne hside hside'
  obtain ⟨hlevel, rfl, hupload, s, rfl, hs⟩ := copySide_chain htiled hlevels hchain hside
  obtain ⟨hlevel', rfl, -, s', rfl, hs'⟩ := copySide_chain htiled hlevels hchain hside'
  have hbytes : s.map.elementBytes = 4 := (TiledSide.layout_four hs.four).1
  have hbytes' : s'.map.elementBytes = 4 := (TiledSide.layout_four hs'.four).1
  have hextent := levelExtent_lt image level
  have hextent' := levelExtent_lt image level'
  have hmem := (tiledChainOf_spec hchain).1
  refine ⟨hupload, fun x' hx' y' hy' => ?_⟩
  have haddress' : s'.side.copyAddress x' y' 4 0 = s'.texelAt x' y' := by
    rw [← hbytes', s'.copyAddress_eq (by omega) (by omega)]
  rw [haddress', layerBytes_of_chain htiled hchain, tiledLayerBytes_chain hchain]
  constructor
  · intro x hx y hy
    have haddress : s.side.copyAddress x y 4 0 = s.texelAt x y := by
      rw [← hbytes, s.copyAddress_eq (by omega) (by omega)]
    have hinside := hs.inside hchain hx hy
    have hchainInside := tiledChains_inside chain hmem level hlevel
    rw [haddress]
    exact ⟨hs.apart hcolour hchain hs' hlevel hlevel' hne hx hy hx' hy', by omega, by omega⟩
  · intro upload hdestination htexel hwidth hheight memory byte hbyte
    apply moveAll_of_not_landsOn
    intro hlands
    obtain ⟨column, hcolumn, row, hrow, byte', hbyte', heq⟩ :=
      ImageWrite.exists_texel_of_landsOn s hdestination (htexel.trans hbytes.symm) (by omega) (by omega)
        hlands
    have hapart := hs.apart hcolour hchain hs' hlevel hlevel' hne
      (x := upload.destinationX + column) (y := upload.destinationY + row) (by omega) (by omega) hx' hy'
    rw [hbytes] at hbyte'
    omega

theorem tiledLayerLevelBase_chain (hlevel : level < chain.levels) (layer : Nat) :
    image.tiledLayerLevelBase level layer = some (chain.bytes * layer + chain.bases.getD level 0) := by
  have hbase : image.tiledLevelBase level = some (chain.bases.getD level 0) := by
    rw [ImageInfo.tiledLevelBase, if_neg (fun h => hlevels h.2), hchain]
    exact if_neg (Nat.not_le.2 hlevel)
  have hpos : ∀ chain ∈ tiledChains, chain.bytes ≠ 0 := by decide
  rw [ImageInfo.tiledLayerLevelBase, hbase, layerBytes_of_chain htiled hchain,
    if_neg (hpos chain (tiledChainOf_spec hchain).1)]
  split
  · rename_i hlayer
    rw [hlayer, Nat.mul_zero, Nat.zero_add]
  · rfl

/-- Every level of a depth chain has a side. -/
theorem exists_copySide_depth (hdepth : image.format.hasDepth = true) (hlevel : level < chain.levels) (layer : Nat) :
    ∃ texelBytes side, image.copySide ⟨.depth, level, layer⟩ = some (texelBytes, side) := by
  obtain ⟨-, hblock, hone, -⟩ := tiledChainOf_spec hchain
  have hstencil : image.format.hasStencil = false := by
    by_contra hne
    exact hlevels (image.stencil_shape (Bool.not_eq_false _ ▸ hne)).2.1
  have hplane : image.plane .depth = some ⟨0, 4, true⟩ := by
    simp [ImageInfo.plane, hdepth, hstencil, hblock]
  have hbase := tiledLayerLevelBase_chain htiled hlevels hchain hlevel layer
  simp [BoundImage.copySide, hplane, hone, htiled, hlevels, hbase]

/-- A depth chain's small levels lie over one another. -/
theorem not_levelsApart_depth (hdepth : image.format.hasDepth = true) (layer : Nat) : ¬LevelsApart image layer := by
  intro hapart
  obtain ⟨hmem, -, -, -, -, hcount⟩ := tiledChainOf_spec hchain
  obtain ⟨level, hlevel, level', hlevel', hne, hshares⟩ :=
    tiledChains_shared chain hmem (hcount ▸ hlevels)
  obtain ⟨texelBytes, side, hside⟩ := exists_copySide_depth htiled hlevels hchain hdepth hlevel layer
  obtain ⟨texelBytes', side', hside'⟩ := exists_copySide_depth htiled hlevels hchain hdepth hlevel' layer
  obtain ⟨-, htexels⟩ := hapart .depth level level' texelBytes side texelBytes' side' (hcount ▸ hlevel)
    (hcount ▸ hlevel') hne hside hside'
  obtain ⟨-, rfl, -, s, rfl, hs⟩ := copySide_chain htiled hlevels hchain hside
  obtain ⟨-, rfl, -, s', rfl, hs'⟩ := copySide_chain htiled hlevels hchain hside'
  have hpos (a : Nat) : 0 < max a 1 := Nat.lt_of_lt_of_le Nat.zero_lt_one (Nat.le_max_right _ _)
  have hcorner := ((htexels 0 (hpos _) 0 (hpos _)).1 0 (hpos _) 0 (hpos _)).1
  have hmap : s.map = .depth4 := by rw [hs.map_eq, hdepth]; rfl
  have hmap' : s'.map = .depth4 := by rw [hs'.map_eq, hdepth]; rfl
  have haddress : s.address = s'.address := by
    simp only [TiledChain.sharesTile, Bool.and_eq_true, beq_iff_eq] at hshares
    rw [hs.address_eq, hs'.address_eq]
    exact congrArg (image.address + chain.bytes * layer + · * 0x10000) hshares.1.1.1.1
  rw [TiledSide.copyAddress_corner hmap, TiledSide.copyAddress_corner hmap', haddress] at hcorner
  omega

end

/-- The levels of a tiled image the uploads and readbacks accept do not alias, unless it is a depth
chain. -/
theorem levelsApart_iff (image : BoundImage) (layer : Nat) (htiled : image.tiled = true)
    (haccepted : image.mipLevels = 1 ∨ image.tiledChainOf.isSome = true) :
    LevelsApart image layer ↔ image.format.hasDepth = false ∨ image.mipLevels = 1 := by
  by_cases hlevels : image.mipLevels = 1
  · refine ⟨fun _ => Or.inr hlevels, fun _ => ?_⟩
    intro aspect level level' texelBytes side texelBytes' side' hlevel hlevel' hne
    omega
  · obtain ⟨chain, hchain⟩ := Option.isSome_iff_exists.1 (haccepted.resolve_left hlevels)
    constructor
    · intro hapart
      left
      by_contra hdepth
      exact not_levelsApart_depth htiled hlevels hchain (Bool.eq_true_of_not_eq_false hdepth) layer hapart
    · rintro (hcolour | hsingle)
      · exact levelsApart_colour htiled hlevels hchain hcolour layer
      · exact absurd hsingle hlevels

/-- A 32x32 attachment of two levels. -/
def twoLevelTarget (format : Format) (hstencil : format.hasStencil = false) : BoundImage :=
  ⟨.ofShape format 32 32 2 1 1 true false
    ⟨by decide, by decide, by decide, by decide, by decide, fun h => absurd (hstencil.symm.trans h) (by decide)⟩, 0x200000⟩

theorem levelsApart_twoLevelTarget : LevelsApart (twoLevelTarget (.colour 37 4) rfl) 0 :=
  (levelsApart_iff _ 0 rfl (.inr rfl)).2 (.inl rfl)

/-- The first texels of both levels of a depth target are the same four bytes. -/
theorem twoLevelTarget_depth_aliases :
    (twoLevelTarget .d32 rfl).tiled = true ∧ (twoLevelTarget .d32 rfl).tiledChainOf.isSome = true ∧
      ((twoLevelTarget .d32 rfl).copySide ⟨.depth, 0, 0⟩).map (·.2.copyAddress 0 0 4 0) =
        some 0x200000 ∧
      ((twoLevelTarget .d32 rfl).copySide ⟨.depth, 1, 0⟩).map (·.2.copyAddress 0 0 4 0) =
        some 0x200000 ∧
      ¬LevelsApart (twoLevelTarget .d32 rfl) 0 := by
  refine ⟨by decide +kernel, by decide +kernel, by decide +kernel, by decide +kernel, ?_⟩
  obtain ⟨chain, hchain⟩ : ∃ chain, (twoLevelTarget .d32 rfl).tiledChainOf = some chain := ⟨_, rfl⟩
  exact not_levelsApart_depth rfl (by decide) hchain rfl 0

end Aliasing

end Ps5Vulkan.Image
