import Mathlib.Data.List.Nodup
import Mathlib.Data.List.ProdSigma
import Ps5Vulkan.Image.Clear
import Ps5Vulkan.Image.Layers

/-!
# Four-sample sides

A four-sample colour texel is four elements in four planes of 16 KiB inside its tile, and the plane's
offset is added to the texel's place. A four-byte texel's place stays below 16 KiB; that of an eight-
or sixteen-byte texel does not, so the planes run into one another and out of the tile as soon as the
level is wider and higher than one corner of it.
-/

namespace Ps5Vulkan.Image

open XorMap WordBuffer

section Planes

variable (tile : XorTile)

/-- The tile of a texel, by its number in the grid. -/
def tileAt (perRow x y : Nat) : Nat := y / 2 ^ tile.yBits * perRow + x / 2 ^ tile.xBits

/-- A texel's place in its tile. -/
def placeAt (x y : Nat) : Nat :=
  tile.place (x / 2 ^ tile.xBits) (y / 2 ^ tile.yBits) (x % 2 ^ tile.xBits) (y % 2 ^ tile.yBits)

/-- A texel's coordinates in its tile, turned. -/
def turnedX (x y : Nat) : Nat :=
  x % 2 ^ tile.xBits ^^^ tile.turnX (x / 2 ^ tile.xBits) (y / 2 ^ tile.yBits)

def turnedY (x y : Nat) : Nat :=
  y % 2 ^ tile.yBits ^^^ tile.turnY (x / 2 ^ tile.xBits) (y / 2 ^ tile.yBits)

/-- Where a sample lies from its level's address on. -/
def planeOffset (perRow x y sample : Nat) : Nat :=
  tileAt tile perRow x y * 2 ^ tile.bits + placeAt tile x y + sample * samplePlaneBytes

/-- How many planes a texel's place is from the tile's start. -/
def planeAt (x y : Nat) : Nat := placeAt tile x y / 2 ^ 14

/-- How many planes it is from the level's address. -/
def planeIndex (perRow x y : Nat) : Nat := 4 * tileAt tile perRow x y + planeAt tile x y

variable {tile} {perRow x y s x' y' s' : Nat}

/-- Samples at one place have texels at one place in their planes, as many planes apart as the samples
and tiles are. -/
theorem planeOffset_collision (hbits : tile.bits = 16)
    (heq : planeOffset tile perRow x y s = planeOffset tile perRow x' y' s') :
    placeAt tile x y % 2 ^ 14 = placeAt tile x' y' % 2 ^ 14 ∧
      planeIndex tile perRow x y + s = planeIndex tile perRow x' y' + s' := by
  unfold planeOffset samplePlaneBytes at heq
  unfold planeIndex planeAt
  rw [hbits] at heq
  omega

/-- Places that agree inside the plane differ by whole planes. -/
theorem place_xor_eq (hlow : placeAt tile x y % 2 ^ 14 = placeAt tile x' y' % 2 ^ 14) :
    placeAt tile x y ^^^ placeAt tile x' y' = (planeAt tile x y ^^^ planeAt tile x' y') <<< 14 := by
  have hmod : (placeAt tile x y ^^^ placeAt tile x' y') % 2 ^ 14 = 0 := by
    rw [Nat.xor_mod_two_pow, hlow, Nat.xor_self]
  have hdiv : (placeAt tile x y ^^^ placeAt tile x' y') / 2 ^ 14 = planeAt tile x y ^^^ planeAt tile x' y' := by
    rw [← Nat.shiftRight_eq_div_pow, Nat.shiftRight_xor_distrib, Nat.shiftRight_eq_div_pow, Nat.shiftRight_eq_div_pow]
    rfl
  rw [← Nat.div_add_mod (placeAt tile x y ^^^ placeAt tile x' y') (2 ^ 14), hmod, hdiv, Nat.shiftLeft_eq,
    Nat.add_zero, Nat.mul_comm]

/-- The turned coordinates of two texels differ by what the inverse makes of their places. -/
theorem turned_xor (tile : XorTile) (hturn : ∀ column row, tile.turn column row = 0)
    (x y x' y' : Nat) : turnedX tile x y ^^^ turnedX tile x' y' =
        ofColumns tile.unX (placeAt tile x y ^^^ placeAt tile x' y') ∧ turnedY tile x y ^^^ turnedY tile x' y' =
        ofColumns tile.unY (placeAt tile x y ^^^ placeAt tile x' y') := by
  have hfind : ∀ a b, ofColumns tile.unX (placeAt tile a b) = turnedX tile a b ∧
      ofColumns tile.unY (placeAt tile a b) = turnedY tile a b := by
    intro a b
    have h := tile.un_place (a / 2 ^ tile.xBits) (b / 2 ^ tile.yBits)
      (Nat.mod_lt a (Nat.two_pow_pos tile.xBits)) (Nat.mod_lt b (Nat.two_pow_pos tile.yBits))
    rw [hturn, Nat.xor_zero] at h
    exact h
  rw [xorLinear_ofColumns tile.unX, xorLinear_ofColumns tile.unY, (hfind x y).1, (hfind x' y').1,
    (hfind x y).2, (hfind x' y').2]
  exact ⟨rfl, rfl⟩

/-- Samples of one number at one place are one sample. -/
theorem eq_of_sample_eq (hx : x / 2 ^ tile.xBits < perRow) (hx' : x' / 2 ^ tile.xBits < perRow)
    (heq : planeOffset tile perRow x y s = planeOffset tile perRow x' y' s') (hsample : s = s') :
    x = x' ∧ y = y' ∧ s = s' := by
  subst hsample
  obtain ⟨hcolumn, hrow, -⟩ :=
    tile.layout.offset_inj hx hx' Nat.zero_lt_one Nat.zero_lt_one (Nat.add_right_cancel heq)
  exact ⟨hcolumn, hrow, rfl⟩

end Planes

section Wide8

variable {width height x y s x' y' s' : Nat}

theorem turnedX_lt (tile : XorTile) (x y : Nat) : turnedX tile x y < 2 ^ tile.xBits :=
  Nat.xor_lt_two_pow (Nat.mod_lt _ (Nat.two_pow_pos _)) (tile.turnX_lt _ _)

theorem turnedY_lt (tile : XorTile) (x y : Nat) : turnedY tile x y < 2 ^ tile.yBits :=
  Nat.xor_lt_two_pow (Nat.mod_lt _ (Nat.two_pow_pos _)) (tile.turnY_lt _ _)

theorem parity_cases (index amount : Nat) :
    index % 2 = 0 ∧ parity index amount = 0 ∨ index % 2 = 1 ∧ parity index amount = amount := by
  have hbit : index &&& 1 = index % 2 := Nat.and_one_is_mod index
  unfold parity
  rw [hbit]
  rcases Nat.mod_two_eq_zero_or_one index with h | h
  · exact .inl ⟨h, by rw [h, Nat.zero_mul]⟩
  · exact .inr ⟨h, by rw [h, Nat.one_mul]⟩

/-- An eight-byte texel starts in the plane of its turned row's upper half. -/
theorem planeAt_wide8 (x y : Nat) : planeAt wide8 x y = turnedY wide8 x y / 16 := by
  have hlinear := (xorLinear_shiftRight 14).comp (xorLinear₂_swizzle tiled8bTerms)
  have hrow : XorLinear₂ fun _ y => y >>> 4 := fun _ _ _ _ => Nat.shiftRight_xor_distrib
  have hplane := hlinear.eq_of_agree₂ hrow (by decide : agree₂ _ _ 6 5 = true)
    (turnedX_lt wide8 x y) (turnedY_lt wide8 x y)
  rw [Nat.shiftRight_eq_div_pow, Nat.shiftRight_eq_div_pow] at hplane
  rw [planeAt, placeAt, XorTile.place]
  exact (congrArg (· / 2 ^ 14) (Nat.xor_zero _)).trans hplane

theorem planeAt_wide8_lt (x y : Nat) : planeAt wide8 x y < 2 ^ 1 := by
  have hturned := turnedY_lt wide8 x y
  change _ < 32 at hturned
  have hplane := planeAt_wide8 x y
  omega

/-- A plane more is sixteen turned columns. -/
theorem turned_xor_wide8 (hlow : placeAt wide8 x y % 2 ^ 14 = placeAt wide8 x' y' % 2 ^ 14) :
    turnedX wide8 x y ^^^ turnedX wide8 x' y' = 16 * (planeAt wide8 x y ^^^ planeAt wide8 x' y') := by
  have hplanes : ∀ d < 2 ^ 1, ofColumns wide8.unX (d <<< 14) = 16 * d := by decide
  rw [(turned_xor wide8 (fun _ _ => rfl) x y x' y').1, place_xor_eq hlow]
  exact hplanes _ (Nat.xor_lt_two_pow (planeAt_wide8_lt x y) (planeAt_wide8_lt x' y'))

theorem turnedX_wide8_of_lt (hx : x < 16) : turnedX wide8 x y % 2 ^ 5 = x := by
  change (x % 64 ^^^ parity (y / 32) 32) % 2 ^ 5 = x
  rw [Nat.xor_mod_two_pow, parity_mod rfl, Nat.xor_zero]
  omega

theorem turnedY_wide8_of_lt (hy : y < 16) (x : Nat) : turnedY wide8 x y / 16 = parity (x / 64) 16 / 16 := by
  have hlow : (y % 32) >>> 4 = 0 := by
    rw [Nat.mod_eq_of_lt (by omega), Nat.shiftRight_eq_div_pow, Nat.div_eq_of_lt hy]
  change (y % 32 ^^^ parity (x / 64) 16) / 2 ^ 4 = _ / 2 ^ 4
  rw [← Nat.shiftRight_eq_div_pow, Nat.shiftRight_xor_distrib, hlow, Nat.zero_xor, Nat.shiftRight_eq_div_pow]

/-- Down a narrow level a tile has two planes. -/
theorem planeIndex_wide8_narrow (hwidth : width ≤ 16) (hx : x < width) (y : Nat) :
    planeIndex wide8 (ceilDiv width 64) x y = 4 * (y / 32) + y % 32 / 16 := by
  have hone : ceilDiv width 64 = 1 := by
    unfold ceilDiv
    omega
  have hturned : turnedY wide8 x y = y % 32 := by
    change y % 32 ^^^ parity (x / 64) 16 = y % 32
    rw [Nat.div_eq_of_lt (by omega : x < 64)]
    exact Nat.xor_zero _
  rw [planeIndex, planeAt_wide8, hturned, hone]
  change 4 * (y / 32 * 1 + x / 64) + _ = _
  omega

/-- Along a low level each tile starts a plane further. -/
theorem planeIndex_wide8_low (hx : x < 128) (hy : y < 16) (perRow : Nat) :
    planeIndex wide8 perRow x y = 5 * (x / 64) := by
  rw [planeIndex, planeAt_wide8, turnedY_wide8_of_lt hy]
  change 4 * (y / 32 * perRow + x / 64) + _ = _
  rw [Nat.div_eq_of_lt (by omega : y < 32), Nat.zero_mul]
  rcases parity_cases (x / 64) 16 with ⟨h, hparity⟩ | ⟨h, hparity⟩ <;> rw [hparity] <;> omega

/-- In a level of one corner of a tile, or of two tiles of half the height, no eight-byte samples
collide. -/
theorem wide8_inj (hsmall : width ≤ 16 ∨ width ≤ 128 ∧ height ≤ 16) (hx : x < width) (hy : y < height)
    (hx' : x' < width) (hy' : y' < height) (hs : s < 4) (hs' : s' < 4)
    (heq : planeOffset wide8 (ceilDiv width 64) x y s = planeOffset wide8 (ceilDiv width 64) x' y' s') :
    x = x' ∧ y = y' ∧ s = s' := by
  apply eq_of_sample_eq (div_lt_ceilDiv (by decide) hx) (div_lt_ceilDiv (by decide) hx') heq
  obtain ⟨hlow, hsum⟩ := planeOffset_collision rfl heq
  rcases hsmall with hwidth | ⟨hwidth, hheight⟩
  · -- The columns are too few for a plane.
    have hcolumns : x ^^^ x' < 2 ^ 4 := Nat.xor_lt_two_pow (by omega) (by omega)
    have heven := congrArg (· % 2 ^ 5) (turned_xor_wide8 hlow)
    simp only [Nat.xor_mod_two_pow, turnedX_wide8_of_lt (by omega : x < 16),
      turnedX_wide8_of_lt (by omega : x' < 16)] at heven
    have hparity : (planeAt wide8 x y ^^^ planeAt wide8 x' y') % 2 = 0 := by omega
    rw [Nat.xor_mod_two_eq] at hparity
    have hplane := planeAt_wide8_lt x y
    have hplane' := planeAt_wide8_lt x' y'
    unfold planeIndex at hsum
    omega
  · -- Tiles are five planes apart.
    rw [planeIndex_wide8_low (by omega) (by omega), planeIndex_wide8_low (by omega) (by omega)] at hsum
    omega

/-- In any other level two samples are at one place. -/
theorem wide8_collides (hlarge : ¬(width ≤ 16 ∨ width ≤ 128 ∧ height ≤ 16)) (hheight : 0 < height) :
    ∃ x y s x' y' s', x < width ∧ y < height ∧ s < 4 ∧ x' < width ∧ y' < height ∧ s' < 4 ∧ (x, y, s) ≠ (x', y', s') ∧
      planeOffset wide8 (ceilDiv width 64) x y s = planeOffset wide8 (ceilDiv width 64) x' y' s' := by
  by_cases hcorner : 16 < height
  · refine ⟨0, 16, 0, 16, 0, 1, by omega, by omega, by decide, by omega, by omega, by decide, by decide, ?_⟩
    have hplace : placeAt wide8 0 16 = placeAt wide8 16 0 + samplePlaneBytes := by decide
    have htile : tileAt wide8 (ceilDiv width 64) 0 16 = tileAt wide8 (ceilDiv width 64) 16 0 := rfl
    rw [planeOffset, planeOffset, hplace, htile]
    omega
  · refine ⟨128, 0, 0, 80, 0, 3, by omega, by omega, by decide, by omega, by omega, by decide, by decide, ?_⟩
    have hplace : 2 ^ 16 + placeAt wide8 128 0 = placeAt wide8 80 0 + 3 * samplePlaneBytes := by decide
    have htile : tileAt wide8 (ceilDiv width 64) 128 0 = 0 * ceilDiv width 64 + 2 := rfl
    have htile' : tileAt wide8 (ceilDiv width 64) 80 0 = 0 * ceilDiv width 64 + 1 := rfl
    rw [planeOffset, planeOffset, htile, htile']
    change _ * 2 ^ 16 + _ + _ = _ * 2 ^ 16 + _ + _
    omega

end Wide8

section Wide16

variable {width height x y s x' y' s' : Nat}

/-- A sixteen-byte texel starts in the plane of a bit of its turned row and one of its turned column. -/
theorem planeAt_wide16 (x y : Nat) :
    planeAt wide16 x y = turnedY wide16 x y / 8 % 2 + 2 * (turnedX wide16 x y / 16) := by
  have hlinear := (xorLinear_shiftRight 14).comp (xorLinear₂_swizzle tiled16bTerms)
  have hbits : XorLinear₂ fun x y => (y >>> 3) % 2 ^ 1 ^^^ (x >>> 4) <<< 1 := by
    intro a b c d
    dsimp only
    rw [Nat.shiftRight_xor_distrib, Nat.xor_mod_two_pow, Nat.shiftRight_xor_distrib, Nat.shiftLeft_xor_distrib]
    ac_rfl
  have hplane := hlinear.eq_of_agree₂ hbits (by decide : agree₂ _ _ 5 5 = true)
    (turnedX_lt wide16 x y) (turnedY_lt wide16 x y)
  have hsum : ∀ low < 2 ^ 1, ∀ high < 2, low ^^^ high <<< 1 = low + 2 * high := by decide
  have hx : turnedX wide16 x y / 2 ^ 4 < 2 := by
    have := turnedX_lt wide16 x y
    change _ < 32 at this
    omega
  rw [Nat.shiftRight_eq_div_pow, Nat.shiftRight_eq_div_pow, Nat.shiftRight_eq_div_pow,
    hsum _ (Nat.mod_lt _ (by decide)) _ hx] at hplane
  rw [planeAt, placeAt, XorTile.place]
  exact (congrArg (· / 2 ^ 14) (Nat.xor_zero _)).trans hplane

/-- A plane more is eight turned columns and eight turned rows. -/
theorem turned_xor_wide16 (hlow : placeAt wide16 x y % 2 ^ 14 = placeAt wide16 x' y' % 2 ^ 14) :
    turnedX wide16 x y ^^^ turnedX wide16 x' y' = 8 * (planeAt wide16 x y ^^^ planeAt wide16 x' y') ∧
      turnedY wide16 x y ^^^ turnedY wide16 x' y' = 8 * (planeAt wide16 x y ^^^ planeAt wide16 x' y') := by
  have hlt : ∀ a b, planeAt wide16 a b < 2 ^ 2 := by
    intro a b
    have hturned := turnedX_lt wide16 a b
    change _ < 32 at hturned
    have hplane := planeAt_wide16 a b
    omega
  have hplanes : ∀ d < 2 ^ 2, ofColumns wide16.unX (d <<< 14) = 8 * d ∧
      ofColumns wide16.unY (d <<< 14) = 8 * d := by decide
  have hturned := turned_xor wide16 (fun _ _ => rfl) x y x' y'
  rw [place_xor_eq hlow] at hturned
  have hd := hplanes _ (Nat.xor_lt_two_pow (hlt x y) (hlt x' y'))
  exact ⟨hturned.1.trans hd.1, hturned.2.trans hd.2⟩

theorem turnedX_wide16_of_lt (hx : x < 8) (hy : y < 64) :
    turnedX wide16 x y / 16 = y / 32 ∧ turnedX wide16 x y % 2 ^ 4 = x := by
  have hturned : turnedX wide16 x y = x ^^^ parity (y / 32) 16 := by
    change x % 32 ^^^ parity (y / 32) 16 = _
    rw [Nat.mod_eq_of_lt (by omega)]
  have hx' : x / 2 ^ 4 = 0 := Nat.div_eq_of_lt (by omega)
  rw [hturned]
  constructor
  · change _ / 2 ^ 4 = _
    rw [← Nat.shiftRight_eq_div_pow, Nat.shiftRight_xor_distrib, Nat.shiftRight_eq_div_pow, hx',
      Nat.zero_xor, Nat.shiftRight_eq_div_pow]
    rcases parity_cases (y / 32) 16 with ⟨h, hparity⟩ | ⟨h, hparity⟩ <;> rw [hparity] <;> omega
  · rw [Nat.xor_mod_two_pow, parity_mod rfl, Nat.xor_zero, Nat.mod_eq_of_lt (by omega)]

theorem turnedY_wide16_of_lt (hx : x < 32) (hy : y < 8) : turnedY wide16 x y = y := by
  change y % 32 ^^^ parity (x / 32) 16 = y
  rw [Nat.div_eq_of_lt hx, Nat.mod_eq_of_lt (by omega)]
  exact Nat.xor_zero _

/-- Down a narrow level the second tile starts two planes further. -/
theorem planeIndex_wide16_narrow (hwidth : width ≤ 8) (hx : x < width) (hy : y < 64) :
    planeIndex wide16 (ceilDiv width 32) x y = 6 * (y / 32) + y / 8 % 2 := by
  have hone : ceilDiv width 32 = 1 := by
    unfold ceilDiv
    omega
  have hturned : turnedY wide16 x y = y % 32 := by
    change y % 32 ^^^ parity (x / 32) 16 = y % 32
    rw [Nat.div_eq_of_lt (by omega : x < 32)]
    exact Nat.xor_zero _
  rw [planeIndex, planeAt_wide16, hturned, hone, (turnedX_wide16_of_lt (by omega) hy).1]
  change 4 * (y / 32 * 1 + x / 32) + _ = _
  omega

/-- Along a low level half a tile's columns are two planes. -/
theorem planeIndex_wide16_low (hx : x < 32) (hy : y < 8) (perRow : Nat) :
    planeIndex wide16 perRow x y = 2 * (x / 16) := by
  have hturned : turnedX wide16 x y = x := by
    change x % 32 ^^^ parity (y / 32) 16 = x
    rw [Nat.div_eq_of_lt (by omega : y < 32), Nat.mod_eq_of_lt hx]
    exact Nat.xor_zero _
  rw [planeIndex, planeAt_wide16, hturned, turnedY_wide16_of_lt hx hy]
  change 4 * (y / 32 * perRow + x / 32) + _ = _
  rw [Nat.div_eq_of_lt (by omega : y < 32), Nat.zero_mul]
  omega

/-- In a level of one corner of two tiles, or of a quarter of a tile's height, no sixteen-byte samples
collide. -/
theorem wide16_inj (hsmall : width ≤ 8 ∧ height ≤ 64 ∨ width ≤ 32 ∧ height ≤ 8) (hx : x < width)
    (hy : y < height) (hx' : x' < width) (hy' : y' < height) (hs : s < 4) (hs' : s' < 4)
    (heq : planeOffset wide16 (ceilDiv width 32) x y s = planeOffset wide16 (ceilDiv width 32) x' y' s') :
    x = x' ∧ y = y' ∧ s = s' := by
  apply eq_of_sample_eq (div_lt_ceilDiv (by decide) hx) (div_lt_ceilDiv (by decide) hx') heq
  obtain ⟨hlow, hsum⟩ := planeOffset_collision rfl heq
  obtain ⟨hturnedX, hturnedY⟩ := turned_xor_wide16 hlow
  rcases hsmall with ⟨hwidth, hheight⟩ | ⟨hwidth, hheight⟩
  · -- The columns are too few for an odd number of planes, and tiles are six planes apart.
    have hcolumns : x ^^^ x' < 2 ^ 3 := Nat.xor_lt_two_pow (by omega) (by omega)
    have heven := congrArg (· % 2 ^ 4) hturnedX
    simp only [Nat.xor_mod_two_pow, (turnedX_wide16_of_lt (by omega : x < 8) (by omega : y < 64)).2,
      (turnedX_wide16_of_lt (by omega : x' < 8) (by omega : y' < 64)).2] at heven
    have hparity : (planeAt wide16 x y ^^^ planeAt wide16 x' y') % 2 = 0 := by omega
    rw [Nat.xor_mod_two_eq] at hparity
    have hindex := planeIndex_wide16_narrow hwidth hx (by omega : y < 64)
    have hindex' := planeIndex_wide16_narrow hwidth hx' (by omega : y' < 64)
    unfold planeIndex at hsum hindex hindex'
    omega
  · -- The rows are too few for a plane.
    rw [turnedY_wide16_of_lt (by omega) (by omega), turnedY_wide16_of_lt (by omega) (by omega)] at hturnedY
    have hrows : y ^^^ y' < 2 ^ 3 := Nat.xor_lt_two_pow (by omega) (by omega)
    have hzero : planeAt wide16 x y ^^^ planeAt wide16 x' y' = 0 := by omega
    rw [Nat.xor_eq_zero_iff] at hzero
    unfold planeIndex at hsum
    omega

/-- In any other level two samples are at one place. -/
theorem wide16_collides (hlarge : ¬(width ≤ 8 ∧ height ≤ 64 ∨ width ≤ 32 ∧ height ≤ 8))
    (hwidth : 0 < width) (hheight : 0 < height) :
    ∃ x y s x' y' s', x < width ∧ y < height ∧ s < 4 ∧ x' < width ∧ y' < height ∧ s' < 4 ∧ (x, y, s) ≠ (x', y', s') ∧
      planeOffset wide16 (ceilDiv width 32) x y s = planeOffset wide16 (ceilDiv width 32) x' y' s' := by
  by_cases hwide : 32 < width
  · refine ⟨32, 0, 0, 16, 0, 2, by omega, by omega, by decide, by omega, by omega, by decide, by decide, ?_⟩
    have hplace : 2 ^ 16 + placeAt wide16 32 0 = placeAt wide16 16 0 + 2 * samplePlaneBytes := by decide
    have htile : tileAt wide16 (ceilDiv width 32) 32 0 = 0 * ceilDiv width 32 + 1 := rfl
    have htile' : tileAt wide16 (ceilDiv width 32) 16 0 = 0 * ceilDiv width 32 + 0 := rfl
    rw [planeOffset, planeOffset, htile, htile']
    change _ * 2 ^ 16 + _ + _ = _ * 2 ^ 16 + _ + _
    omega
  by_cases hcorner : 8 < width
  · refine ⟨0, 8, 0, 8, 0, 1, by omega, by omega, by decide, by omega, by omega, by decide, by decide, ?_⟩
    have hplace : placeAt wide16 0 8 = placeAt wide16 8 0 + samplePlaneBytes := by decide
    have htile : tileAt wide16 (ceilDiv width 32) 0 8 = tileAt wide16 (ceilDiv width 32) 8 0 := rfl
    rw [planeOffset, planeOffset, hplace, htile]
    omega
  · refine ⟨0, 64, 0, 0, 48, 2, by omega, by omega, by decide, by omega, by omega, by decide, by decide, ?_⟩
    have hone : ceilDiv width 32 = 1 := by
      unfold ceilDiv
      omega
    rw [hone]
    decide

end Wide16

section Sides

variable {image : BoundImage} {sub : Subresource} {texelBytes : Nat} {side : CopySide}

/-- A four-sample side is that of a single-level image without a stencil. Its element is four bytes,
of colour or depth, or eight or sixteen bytes of colour. -/
theorem copySide_four (hside : image.copySide sub = some (texelBytes, side)) (hfour : image.samples = 4) :
    image.tiled = true ∧ image.mipLevels = 1 ∧ image.format.hasStencil = false ∧
      side = (⟨0, image.format.blockSize, image.format.hasDepth⟩ : Plane).tiledSide 4
        (image.address + image.layerOffset sub.baseArrayLayer) image.width 0 ∧
      (image.format.blockSize = 4 ∨ image.format.hasDepth = false ∧
        (image.format.blockSize = 8 ∨ image.format.blockSize = 16)) := by
  obtain ⟨plane, hplane, -, -, htexel, hcases⟩ := copySide_cases hside
  have hstencil : image.format.hasStencil = false := by
    by_contra hne
    have hone := (image.stencil_shape (Bool.not_eq_false _ ▸ hne)).2.2.2
    omega
  have hplaneEq : plane = ⟨0, image.format.blockSize, image.format.hasDepth⟩ := by
    rcases plane_cases hplane with ⟨hdepth, rfl⟩ | ⟨hdepth, rfl⟩ | ⟨h, -, -⟩
    · rw [hdepth]
    · rw [hstencil, hdepth]
      rfl
    · rw [hstencil] at h
      cases h
  rw [hfour] at hcases
  rcases hcases with ⟨htiled, -, hlevels, base, hbase, -⟩ | ⟨htiled, hmapped, hlevels, -, -, rfl⟩ |
    ⟨-, hone, -⟩
  · obtain ⟨chain, hchain, -⟩ := tiledLayerLevelBase_spec htiled hlevels hbase
    have hone := (tiledChainOf_spec hchain).2.2.1
    omega
  · refine ⟨htiled, hlevels, hstencil, ?_, ?_⟩
    · rw [hplaneEq, Nat.add_zero]
    · rw [hplaneEq] at hmapped hplane
      have hcolour : 4 < image.format.blockSize → image.format.hasDepth = false := by
        intro hlarge
        by_contra hne
        have hsmall := plane_depth hplane (Bool.not_eq_false _ ▸ hne)
        dsimp only at hsmall
        omega
      rcases hmapped with h | h | h | ⟨-, h⟩
      · exact .inl h
      · exact .inr ⟨hcolour (by dsimp only at h; omega), .inl h⟩
      · exact .inr ⟨hcolour (by dsimp only at h; omega), .inr h⟩
      · cases h
  · cases hone

/-- Where a sample of a side's texel lies. -/
def CopySide.sampleAt (side : CopySide) (x y sample : Nat) : Nat :=
  side.copyAddress x y side.elementBytes sample

/-- The record of a clear of a whole four-sample level. -/
def CopySide.clearOf (side : CopySide) (width height : Nat) (texel : List UInt8) : ImageClear where
  destinationSide := side
  destinationTexelBytes := side.elementBytes * 4
  destinationX := 0
  destinationY := 0
  width := width
  height := height
  clearTexel := texel

/-- The samples of a four-sample level are apart from one another and inside the image. -/
structure SamplesPlaced (image : BoundImage) (side : CopySide) (width height : Nat) : Prop where
  apart : ∀ {x y s x' y' s'}, x < width → y < height → s < 4 → x' < width → y' < height → s' < 4 →
    (x, y, s) ≠ (x', y', s') →
    side.sampleAt x y s + side.elementBytes ≤ side.sampleAt x' y' s' ∨
      side.sampleAt x' y' s' + side.elementBytes ≤ side.sampleAt x y s
  inside : ∀ {x y s}, x < width → y < height → s < 4 →
    image.address ≤ side.sampleAt x y s ∧
      side.sampleAt x y s + side.elementBytes ≤ image.address + image.size

/-- A clear then leaves its element in every sample, and every byte outside the image as it was. -/
structure SamplesSafe (image : BoundImage) (side : CopySide) (width height : Nat) : Prop extends
    SamplesPlaced image side width height where
  clears : ∀ (texel : List UInt8) (memory : Nat → UInt8), texel.length = 16 →
    (∀ x y s, x < width → y < height → s < 4 →
      read ((side.clearOf width height texel).clearExecute memory) (side.sampleAt x y s)
        side.elementBytes = texel.take side.elementBytes) ∧
    ∀ address, address < image.address ∨ image.address + image.size ≤ address →
      (side.clearOf width height texel).clearExecute memory address = memory address

variable {width height : Nat}

theorem clearOf_writes (hfour : side.samples = 4) (texel : List UInt8) : (side.clearOf width height texel).writes =
      (List.range height ×ˢ List.range width ×ˢ List.range 4).map fun place =>
        (side.sampleAt place.2.1 place.1 place.2.2, texel.take side.elementBytes) := by
  have hsamples : (side.clearOf width height texel).samples = 4 := if_pos hfour
  have hbytes : (side.clearOf width height texel).sampleBytes = side.elementBytes := by
    rw [ImageClear.sampleBytes, hsamples]
    exact Nat.mul_div_cancel _ (by decide)
  simp only [ImageClear.writes, hsamples, hbytes]
  simp only [CopySide.clearOf, Nat.zero_add, SProd.sprod, List.product, List.map_flatMap, List.map_map]
  rfl

/-- What the samples' places give a clear. -/
theorem SamplesPlaced.safe (h : SamplesPlaced image side width height) (hfour : side.samples = 4)
    (helement : side.elementBytes ≤ 16) : SamplesSafe image side width height where
  toSamplesPlaced := h
  clears := by
    intro texel memory htexel
    have hlength : (texel.take side.elementBytes).length = side.elementBytes := by
      rw [List.length_take, htexel, Nat.min_eq_left helement]
    unfold ImageClear.clearExecute
    rw [clearOf_writes hfour]
    constructor
    · intro x y s hx hy hs
      have hmem : (side.sampleAt x y s, texel.take side.elementBytes) ∈
          (List.range height ×ˢ List.range width ×ˢ List.range 4).map fun place =>
            (side.sampleAt place.2.1 place.1 place.2.2, texel.take side.elementBytes) :=
        List.mem_map.2 ⟨(y, x, s), by simp [List.mem_product, hx, hy, hs], rfl⟩
      have hread := read_writeAll_of_mem memory ?_ hmem
      · dsimp only at hread
        rwa [hlength] at hread
      · rw [List.pairwise_map]
        apply List.Pairwise.imp_of_mem _ (List.nodup_range.product (List.nodup_range.product List.nodup_range))
        rintro ⟨b, a, r⟩ ⟨b', a', r'⟩ hplace hplace' hne
        simp only [List.mem_product, List.mem_range] at hplace hplace'
        rw [hlength]
        apply h.apart hplace.2.1 hplace.1 hplace.2.2 hplace'.2.1 hplace'.1 hplace'.2.2
        intro heq
        simp only [Prod.mk.injEq] at heq
        exact hne (by rw [heq.1, heq.2.1, heq.2.2])
    · intro address houtside
      apply writeAll_apply_of_outside
      intro run hmem
      obtain ⟨⟨b, a, r⟩, hplace, rfl⟩ := List.mem_map.1 hmem
      simp only [List.mem_product, List.mem_range] at hplace
      obtain ⟨hlow, hhigh⟩ := h.inside hplace.2.1 hplace.1 hplace.2.2
      dsimp only
      rw [hlength]
      omega

end Sides

section FourSamples

variable {image : BoundImage} {width height layer : Nat}

/-- The levels in which samples of the texel size do not collide. -/
def SmallFor (texelBytes width height : Nat) : Prop :=
  texelBytes = 8 ∧ (width ≤ 16 ∨ width ≤ 128 ∧ height ≤ 16) ∨
    texelBytes = 16 ∧ (width ≤ 8 ∧ height ≤ 64 ∨ width ≤ 32 ∧ height ≤ 8)

instance (texelBytes width height : Nat) : Decidable (SmallFor texelBytes width height) := by
  unfold SmallFor
  infer_instance

def ImageInfo.wideTile (info : ImageInfo) : XorTile :=
  if info.format.blockSize = 8 then wide8 else wide16

/-- Where a wide texel's sample lies from its level's address on. -/
def ImageInfo.widePlace (info : ImageInfo) (x y sample : Nat) : Nat :=
  planeOffset info.wideTile (ceilDiv info.width (2 ^ info.wideTile.xBits)) x y sample

/-- Where the farthest sample of a level of wide texels ends: in the last tile of its grid, or as far
behind it as the last plane runs over. A layer's room is divided out of the size and need not be
whole planes, so this is to the byte; in whole planes it is `widePlanes`. -/
def ImageInfo.wideReach (info : ImageInfo) : Nat :=
  ((List.range info.height ×ˢ List.range info.width).map fun place =>
    info.widePlace place.2 place.1 3 + info.format.blockSize).foldr max 0

/-- The planes a small level's samples take: four for each tile of its grid, and as many more as the
last tile's texels start further on. -/
def ImageInfo.widePlanes (info : ImageInfo) : Nat :=
  4 + if info.format.blockSize = 8 then
    4 * ((info.height - 1) / 32) + (info.height - 1) % 32 / 16 + 5 * ((info.width - 1) / 64)
  else
    6 * ((info.height - 1) / 32) + min 1 ((info.height - 1) % 32 / 8) + 2 * ((info.width - 1) / 16)

/-- The four-sample images whose samples have places of their own in the storage. -/
def ImageInfo.SamplesFit (info : ImageInfo) (layer : Nat) : Prop :=
  info.format.blockSize = 4 ∨ SmallFor info.format.blockSize info.width info.height ∧
    info.layerOffset layer + info.wideReach ≤ info.size

theorem tableTexelOffset_wide8 (x y levelWidth : Nat) : tableTexelOffset x y levelWidth 64 32 8 4 =
      (tileAt wide8 (divRoundUp levelWidth 64) x y * tileBytes, placeAt wide8 x y) := by
  simp only [tableTexelOffset, turned, tileAt, placeAt, XorTile.place, wide8, swizzleTile, ← and_mask]
  simp [parity, tiledTerms]

theorem tableTexelOffset_wide16 (x y levelWidth : Nat) : tableTexelOffset x y levelWidth 32 32 16 4 =
      (tileAt wide16 (divRoundUp levelWidth 32) x y * tileBytes, placeAt wide16 x y) := by
  simp only [tableTexelOffset, turned, tileAt, placeAt, XorTile.place, wide16, swizzleTile, ← and_mask]
  simp [parity, tiledTerms]

/-- A wide texel's sample lies where the planes put it. -/
theorem sampleAt_wide (hbytes : image.format.blockSize = 8 ∨ image.format.blockSize = 16)
    (address : Nat) {x y s : Nat} (hx : x < 2 ^ 31) (hy : y < 2 ^ 31) (hs : s < 4) :
    ((⟨0, image.format.blockSize, false⟩ : Plane).tiledSide 4 address image.width 0).sampleAt x y s =
      address + image.widePlace x y s := by
  have hwidth := image.width_le
  simp only [maxExtent2D] at hwidth
  have hsum : ∀ {offset : Nat × Nat} {tile place : Nat}, offset = (tile * tileBytes, place) →
      address + offset.1 + s * samplePlaneBytes + (offset.2 ^^^ 0) =
        address + (tile * tileBytes + place + s * samplePlaneBytes) := by
    rintro _ tile place rfl
    rw [Nat.xor_zero]
    omega
  unfold CopySide.sampleAt CopySide.copyAddress ImageInfo.widePlace
  rw [toU32_natCast (by omega : x < 2 ^ 32), toU32_natCast (by omega : y < 2 ^ 32), and_three hs]
  rcases hbytes with hbytes | hbytes
  · have htable := tableTexelOffset_wide8 x y image.width
    rw [divRoundUp_eq_ceilDiv (by omega)] at htable
    rw [hbytes, show image.wideTile = wide8 from if_pos hbytes]
    exact hsum htable
  · have htable := tableTexelOffset_wide16 x y image.width
    rw [divRoundUp_eq_ceilDiv (by omega)] at htable
    rw [hbytes, show image.wideTile = wide16 from if_neg (by omega)]
    exact hsum htable

/-- A four-sample side of one of the maps is safe where its tile grid is in the storage. -/
theorem samplesSafe_of_map (map : CpuMap) (hfour : map.samples = 4) (hbytes : map.elementBytes ≤ 16)
    (hwidth : width ≤ 2 ^ 31) (hheight : height ≤ 2 ^ 31) {offset : Nat}
    (hgrid : offset + ceilDiv width (tileExtent map.elementBytes map.depth map.samples).1 *
      ceilDiv height (tileExtent map.elementBytes map.depth map.samples).2 * tileBytes ≤ image.size) :
    SamplesSafe image (map.side (image.address + offset) width) width height := by
  let extent : LevelExtent := ⟨width, height, hwidth, hheight⟩
  refine SamplesPlaced.safe ⟨?_, ?_⟩ hfour hbytes
  · intro x y s x' y' s' hx hy hs hx' hy' hs' hne
    let texel : Texel map extent := ⟨⟨x, hx⟩, ⟨y, hy⟩, ⟨s, hfour ▸ hs⟩⟩
    let texel' : Texel map extent := ⟨⟨x', hx'⟩, ⟨y', hy'⟩, ⟨s', hfour ▸ hs'⟩⟩
    have hne' : texel ≠ texel' := by
      intro heq
      simp only [texel, texel', Texel.mk.injEq, Fin.mk.injEq] at heq
      exact hne (by rw [heq.1, heq.2.1, heq.2.2])
    exact Texel.apart hne' (image.address + offset)
  · intro x y s hx hy hs
    let texel : Texel map extent := ⟨⟨x, hx⟩, ⟨y, hy⟩, ⟨s, hfour ▸ hs⟩⟩
    obtain ⟨hlow, -, hhigh⟩ := texel.inside (image.address + offset)
    change image.address ≤ texel.address (image.address + offset) ∧
      texel.address (image.address + offset) + map.elementBytes ≤ _
    constructor
    · omega
    · have hsum : texel.address (image.address + offset) + map.elementBytes ≤
          image.address + offset + ceilDiv width (tileExtent map.elementBytes map.depth map.samples).1 *
            ceilDiv height (tileExtent map.elementBytes map.depth map.samples).2 * tileBytes := hhigh
      omega

theorem wideReach_le_iff {room : Nat} : image.wideReach ≤ room ↔ ∀ x y, x < image.width → y < image.height →
      image.widePlace x y 3 + image.format.blockSize ≤ room := by
  have hmax : ∀ {values : List Nat}, values.foldr max 0 ≤ room ↔ ∀ value ∈ values, value ≤ room := by
    intro values
    induction values with
    | nil => simp
    | cons value values ih => simp [ih]
  rw [ImageInfo.wideReach, hmax]
  simp only [List.mem_map, Prod.exists, List.mem_product, List.mem_range]
  constructor
  · exact fun hall x y hx hy => hall _ ⟨y, x, ⟨hy, hx⟩, rfl⟩
  · rintro hall _ ⟨y, x, ⟨hy, hx⟩, rfl⟩
    exact hall x y hx hy

/-- The last of a small level's planes. -/
theorem widePlanes_le_iff (hsmall : SmallFor image.format.blockSize image.width image.height) {count : Nat} :
    image.widePlanes ≤ count ↔ ∀ x y, x < image.width → y < image.height →
      4 + planeIndex image.wideTile (ceilDiv image.width (2 ^ image.wideTile.xBits)) x y ≤ count := by
  have hlast : ∀ {index f : Nat → Nat → Nat} {top : Nat} (a b : Nat),
      (∀ x y, x < image.width → y < image.height → index x y = f x y) → a < image.width ∧ b < image.height ∧ f a b = top →
      (∀ x y, x < image.width → y < image.height → f x y ≤ top) →
      (4 + top ≤ count ↔ ∀ x y, x < image.width → y < image.height → 4 + index x y ≤ count) := by
    rintro index f top a b hindex ⟨ha, hb, rfl⟩ hle
    constructor
    · intro htop x y hx hy
      have := hle x y hx hy
      rw [hindex x y hx hy]
      omega
    · intro hall
      rw [← hindex a b ha hb]
      exact hall a b ha hb
  have hwidth := image.width_pos
  have hheight := image.height_pos
  unfold ImageInfo.widePlanes ImageInfo.wideTile
  rcases hsmall with ⟨hbytes, hsmall⟩ | ⟨hbytes, hsmall⟩
  · rw [if_pos hbytes, if_pos hbytes]
    rcases hsmall with hnarrow | ⟨hlength, hlow⟩
    · exact hlast (image.width - 1) (image.height - 1) (fun x y hx _ => planeIndex_wide8_narrow hnarrow hx y)
        (by omega) fun x y hx hy => by omega
    · exact hlast (image.width - 1) 0 (fun x y hx hy => planeIndex_wide8_low (by omega) (by omega) _)
        (by omega) fun x y hx hy => by omega
  · rw [if_neg (by omega), if_neg (by omega)]
    rcases hsmall with ⟨hnarrow, htall⟩ | ⟨hlength, hlow⟩
    · exact hlast 0 ((image.height - 1) / 32 * 32 + min 8 ((image.height - 1) % 32))
        (fun x y hx hy => planeIndex_wide16_narrow hnarrow hx (by omega)) (by omega) fun x y hx hy => by omega
    · exact hlast (image.width - 1) 0 (fun x y hx hy => planeIndex_wide16_low (by omega) (by omega) _)
        (by omega) fun x y hx hy => by omega

section

variable (hbytes : image.format.blockSize = 8 ∨ image.format.blockSize = 16)

include hbytes

theorem wideTile_spec : image.wideTile.bits = 16 ∧ 2 ^ image.wideTile.alignment = image.format.blockSize := by
  unfold ImageInfo.wideTile
  rcases hbytes with hbytes | hbytes
  · rw [if_pos hbytes, hbytes]
    exact ⟨rfl, rfl⟩
  · rw [if_neg (by omega), hbytes]
    exact ⟨rfl, rfl⟩

theorem widePlace_dvd (x y s : Nat) : image.format.blockSize ∣ image.widePlace x y s := by
  obtain ⟨hbits, halignment⟩ := wideTile_spec hbytes
  have hplane : image.format.blockSize ∣ samplePlaneBytes := by
    rcases hbytes with h | h <;> rw [h] <;> decide
  have hplace : image.format.blockSize ∣ placeAt image.wideTile x y := by
    rw [← halignment]
    exact Nat.dvd_of_mod_eq_zero (XorTile.place_mod _ _ (Nat.mod_lt _ (Nat.two_pow_pos _))
      (Nat.mod_lt _ (Nat.two_pow_pos _)))
  have htile : image.format.blockSize ∣ 2 ^ image.wideTile.bits := by
    rw [← halignment]
    exact Nat.pow_dvd_pow 2 image.wideTile.alignment_le
  exact Nat.dvd_add (Nat.dvd_add (Dvd.dvd.mul_left htile _) hplace) (Dvd.dvd.mul_left hplane _)

/-- In whole planes, a small level's reach is its planes. -/
theorem wideReach_le_iff_planes (hsmall : SmallFor image.format.blockSize image.width image.height)
    (count : Nat) : image.wideReach ≤ count * samplePlaneBytes ↔ image.widePlanes ≤ count := by
  rw [wideReach_le_iff, widePlanes_le_iff hsmall]
  refine forall₄_congr fun x y hx hy => ?_
  have hplane : image.format.blockSize ∣ samplePlaneBytes := by
    rcases hbytes with h | h <;> rw [h] <;> decide
  have hend := TileLayout.add_le_of_dvd ((Nat.dvd_mod_iff hplane).2 (widePlace_dvd hbytes x y 3)) hplane
    (Nat.mod_lt _ (by decide))
  have hbits := (wideTile_spec hbytes).1
  have hpos : 0 < image.format.blockSize := by omega
  unfold ImageInfo.widePlace planeOffset samplePlaneBytes at hend ⊢
  unfold planeIndex planeAt
  rw [hbits] at hend ⊢
  omega

/-- Distinct samples have distinct places exactly in the small levels. -/
theorem widePlace_injective_iff : (∀ {x y s x' y' s'}, x < image.width → y < image.height → s < 4 → x' < image.width →
      y' < image.height → s' < 4 → image.widePlace x y s = image.widePlace x' y' s' →
      x = x' ∧ y = y' ∧ s = s') ↔ SmallFor image.format.blockSize image.width image.height := by
  have hcollision : ∀ {P : Nat → Nat → Nat → Nat} {w h : Nat},
      (∃ x y s x' y' s', x < w ∧ y < h ∧ s < 4 ∧ x' < w ∧ y' < h ∧ s' < 4 ∧
        (x, y, s) ≠ (x', y', s') ∧ P x y s = P x' y' s') →
      ¬∀ {x y s x' y' s'}, x < w → y < h → s < 4 → x' < w → y' < h → s' < 4 →
        P x y s = P x' y' s' → x = x' ∧ y = y' ∧ s = s' := by
    rintro P w h ⟨x, y, s, x', y', s', hx, hy, hs, hx', hy', hs', hne, heq⟩ hinj
    obtain ⟨rfl, rfl, rfl⟩ := hinj hx hy hs hx' hy' hs' heq
    exact hne rfl
  unfold ImageInfo.widePlace
  rcases hbytes with hbytes | hbytes
  · have htile : image.wideTile = wide8 := if_pos hbytes
    rw [htile, hbytes]
    constructor
    · intro hinj
      by_contra hlarge
      exact hcollision (wide8_collides (fun h => hlarge (.inl ⟨rfl, h⟩)) image.height_pos) hinj
    · rintro (⟨-, hsmall⟩ | ⟨h, -⟩) x y s x' y' s' hx hy hs hx' hy' hs' heq
      · exact wide8_inj hsmall hx hy hx' hy' hs hs' heq
      · omega
  · have htile : image.wideTile = wide16 := if_neg (by omega)
    rw [htile, hbytes]
    constructor
    · intro hinj
      by_contra hlarge
      exact hcollision (wide16_collides (fun h => hlarge (.inr ⟨rfl, h⟩)) image.width_pos
        image.height_pos) hinj
    · rintro (⟨h, -⟩ | ⟨-, hsmall⟩) x y s x' y' s' hx hy hs hx' hy' hs' heq
      · omega
      · exact wide16_inj hsmall hx hy hx' hy' hs hs' heq

/-- A side of wide texels is safe exactly in a small level whose farthest sample is in the storage. -/
theorem samplesSafe_wide_iff (hoffset : image.layerOffset layer ≤ image.size) :
    SamplesSafe image ((⟨0, image.format.blockSize, false⟩ : Plane).tiledSide 4
        (image.address + image.layerOffset layer) image.width 0) image.width image.height ↔
      SmallFor image.format.blockSize image.width image.height ∧
        image.layerOffset layer + image.wideReach ≤ image.size := by
  have hwidth := image.width_le
  have hheight := image.height_le
  have hpos : 0 < image.format.blockSize := by omega
  simp only [maxExtent2D] at hwidth hheight
  have hat : ∀ {x y s}, x < image.width → y < image.height → s < 4 →
      ((⟨0, image.format.blockSize, false⟩ : Plane).tiledSide 4
        (image.address + image.layerOffset layer) image.width 0).sampleAt x y s =
        image.address + image.layerOffset layer + image.widePlace x y s :=
    fun hx hy hs => sampleAt_wide hbytes _ (by omega) (by omega) hs
  rw [← Nat.le_sub_iff_add_le' hoffset, wideReach_le_iff, ← widePlace_injective_iff hbytes]
  constructor
  · intro hsafe
    constructor
    · intro x y s x' y' s' hx hy hs hx' hy' hs' heq
      by_contra hne
      have hapart := hsafe.apart hx hy hs hx' hy' hs' (by simpa using hne)
      rw [hat hx hy hs, hat hx' hy' hs', heq] at hapart
      change _ + image.format.blockSize ≤ _ ∨ _ + image.format.blockSize ≤ _ at hapart
      omega
    · intro x y hx hy
      have hinside := (hsafe.inside hx hy (by decide : 3 < 4)).2
      rw [hat hx hy (by decide)] at hinside
      change _ + image.format.blockSize ≤ _ at hinside
      omega
  · rintro ⟨hinj, hinside⟩
    refine SamplesPlaced.safe ⟨?_, ?_⟩ rfl (by change image.format.blockSize ≤ 16; omega)
    · intro x y s x' y' s' hx hy hs hx' hy' hs' hne
      have hneq : image.widePlace x y s ≠ image.widePlace x' y' s' := by
        intro heq
        obtain ⟨rfl, rfl, rfl⟩ := hinj hx hy hs hx' hy' hs' heq
        exact hne rfl
      have hapart :=
        TileLayout.apart_of_dvd (widePlace_dvd hbytes x y s) (widePlace_dvd hbytes x' y' s') hneq
      rw [hat hx hy hs, hat hx' hy' hs']
      change _ + image.format.blockSize ≤ _ ∨ _ + image.format.blockSize ≤ _
      omega
    · intro x y s hx hy hs
      have hlast := hinside x y hx hy
      have hplane : s * samplePlaneBytes ≤ 3 * samplePlaneBytes := Nat.mul_le_mul_right _ (by omega)
      rw [hat hx hy hs]
      change _ ∧ _ + image.format.blockSize ≤ _
      unfold ImageInfo.widePlace planeOffset at hlast ⊢
      omega

end

section

variable {sub : Subresource} {texelBytes : Nat} {side : CopySide}
  (hside : image.copySide sub = some (texelBytes, side)) (hfour : image.samples = 4)
  (hlayer : sub.baseArrayLayer < image.arrayLayers)

include hside hfour hlayer

/-- The samples of four-byte elements are safe. -/
theorem samplesSafe_four (hbytes : image.format.blockSize = 4) : SamplesSafe image side image.width image.height := by
  obtain ⟨htiled, hlevels, hstencil, rfl, -⟩ := copySide_four hside hfour
  have hgrid := layerOffset_add_gridBytes_le htiled hlevels hstencil hlayer
  have hwidth := image.width_le
  have hheight := image.height_le
  simp only [maxExtent2D] at hwidth hheight
  rw [gridBytes_single hlevels, ImageInfo.levelTiles, levelWidth_zero, levelHeight_zero, hbytes,
    hfour] at hgrid
  rw [hbytes]
  cases hdepth : image.format.hasDepth with
  | true =>
    rw [hdepth] at hgrid
    exact samplesSafe_of_map .fourDepth rfl (by decide) (by omega) (by omega) hgrid
  | false =>
    rw [hdepth] at hgrid
    exact samplesSafe_of_map .fourColour rfl (by decide) (by omega) (by omega) hgrid

/-- The samples of a four-sample image are safe, and its clears with them, exactly when its texels are
of four bytes, or of eight or sixteen in a level small enough for their planes. -/
theorem samplesSafe_iff :
    SamplesSafe image side image.width image.height ↔ image.SamplesFit sub.baseArrayLayer := by
  obtain ⟨htiled, hlevels, hstencil, hsideEq, hbytes⟩ := copySide_four hside hfour
  rcases hbytes with hbytes | ⟨hcolour, hbytes⟩
  · exact iff_of_true (samplesSafe_four hside hfour hlayer hbytes) (.inl hbytes)
  · have hgrid := layerOffset_add_gridBytes_le htiled hlevels hstencil hlayer
    rw [hsideEq, hcolour, samplesSafe_wide_iff hbytes (by omega), ImageInfo.SamplesFit]
    constructor
    · exact fun h => .inr h
    · rintro (h | h)
      · omega
      · exact h

omit hlayer in
/-- An image of one layer has whole planes, so its samples fit exactly if their planes do. -/
theorem samplesFit_single_iff (hlayers : image.arrayLayers = 1) : image.SamplesFit sub.baseArrayLayer ↔
    image.format.blockSize = 4 ∨ SmallFor image.format.blockSize image.width image.height ∧
      image.widePlanes * samplePlaneBytes ≤ image.size := by
  obtain ⟨htiled, hlevels, hstencil, -, -⟩ := copySide_four hside hfour
  obtain ⟨count, hcount⟩ : samplePlaneBytes ∣ image.size := by
    rw [size_single htiled hlevels hstencil]
    exact (show samplePlaneBytes ∣ tiledAlignment by decide).trans (alignTo_dvd _ _)
  have hoffset : image.layerOffset sub.baseArrayLayer = 0 := if_neg (by omega)
  rw [ImageInfo.SamplesFit, hoffset, Nat.zero_add, hcount, Nat.mul_comm samplePlaneBytes]
  refine or_congr_right (and_congr_right fun hsmall => ?_)
  rw [wideReach_le_iff_planes (by unfold SmallFor at hsmall; omega) hsmall, Nat.mul_le_mul_right_iff (by decide)]

end

/-- A square four-sample target of a format. -/
def fourSampleTarget (number bytes extent : Nat) (hpos : 0 < extent) (hle : extent ≤ maxExtent2D) :
    BoundImage :=
  ⟨.ofShape (.colour number bytes) extent extent 1 1 4 true false
    ⟨⟨hpos, hle⟩, ⟨hpos, hle⟩, by decide, by decide, by decide, fun h => Bool.noConfusion h⟩, 0x200000⟩

theorem samplesSafe_fourSampleTarget :
    (fourSampleTarget 37 4 64 (by decide) (by decide)).copySide ⟨.colour, 0, 0⟩ =
        some (16, CpuMap.fourColour.side 0x200000 64) ∧
      SamplesSafe (fourSampleTarget 37 4 64 (by decide) (by decide))
        (CpuMap.fourColour.side 0x200000 64) 64 64 := by
  have hside : (fourSampleTarget 37 4 64 (by decide) (by decide)).copySide ⟨.colour, 0, 0⟩ =
      some (16, CpuMap.fourColour.side 0x200000 64) := rfl
  exact ⟨hside, (samplesSafe_iff hside rfl (by decide)).2 (.inl rfl)⟩

/-- Of a 32x32 target of eight-byte texels, the first sample of one texel is the second of another. -/
theorem fourSampleTarget_collision :
    ∃ side, (fourSampleTarget 97 8 32 (by decide) (by decide)).copySide ⟨.colour, 0, 0⟩ = some (32, side) ∧
      side.sampleAt 16 16 0 = side.sampleAt 0 0 1 ∧
      ¬SamplesSafe (fourSampleTarget 97 8 32 (by decide) (by decide)) side 32 32 := by
  refine ⟨(⟨0, 8, false⟩ : Plane).tiledSide 4 0x200000 32 0, rfl, by decide, fun hsafe => ?_⟩
  have hapart := hsafe.apart (by decide : 16 < 32) (by decide : 16 < 32) (by decide : 0 < 4)
    (by decide : 0 < 32) (by decide : 0 < 32) (by decide : 1 < 4) (by decide)
  revert hapart
  decide

end FourSamples

end Ps5Vulkan.Image
