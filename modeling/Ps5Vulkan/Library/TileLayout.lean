import Mathlib.Tactic.Ring
import Ps5Vulkan.Library.XorMap

/-!
# Tiled layouts

A plane of elements is cut into tiles of one size. The tiles lie in memory row by row, and inside
each of them every element has its own aligned place. A layout carries what makes this sound: places
stay inside the tile, are aligned, and no two elements of a tile share one. Over a whole grid of
tiles the elements are then disjoint and inside the grid's bytes. Layouts are built from exclusive-or
linear maps, and a layout of one sample from which one of several is made keeps the samples in planes
of their own or side by side inside an element.
-/

namespace Ps5Vulkan

/-- Where the elements of a tile lie. An element is named by its place in the tile and a sample; how
a tile is laid out may depend on its column and row in the grid. -/
structure TileLayout where
  width : Nat
  height : Nat
  samples : Nat
  element : Nat
  bytes : Nat
  place : (column row x y sample : Nat) → Nat
  width_pos : 0 < width
  height_pos : 0 < height
  element_dvd : element ∣ bytes
  place_lt : ∀ column row {x y sample}, x < width → y < height → sample < samples →
    place column row x y sample < bytes
  place_dvd : ∀ column row {x y sample}, x < width → y < height → sample < samples →
    element ∣ place column row x y sample
  place_inj : ∀ column row {x y sample x' y' sample'}, x < width → y < height → sample < samples →
    x' < width → y' < height → sample' < samples →
    place column row x y sample = place column row x' y' sample' →
    x = x' ∧ y = y' ∧ sample = sample'

namespace TileLayout

variable (layout : TileLayout)

/-- Where an element of the grid lies, with `perRow` tiles in a row. -/
def offset (perRow x y sample : Nat) : Nat :=
  (y / layout.height * perRow + x / layout.width) * layout.bytes +
    layout.place (x / layout.width) (y / layout.height) (x % layout.width) (y % layout.height) sample

variable {layout} {perRow rows x y sample x' y' sample' : Nat}

/-- A sum of whole blocks and a rest tells both. -/
theorem mul_add_inj {block a r a' r' : Nat} (hr : r < block) (hr' : r' < block)
    (heq : a * block + r = a' * block + r') : a = a' ∧ r = r' := by
  have hdiv := congrArg (· / block) heq
  simp only [Nat.mul_comm _ block, Nat.mul_add_div (by omega : 0 < block), Nat.div_eq_of_lt hr,
    Nat.div_eq_of_lt hr', Nat.add_zero] at hdiv
  exact ⟨hdiv, by rw [hdiv] at heq; omega⟩

/-- Aligned positions that differ are an element apart. -/
theorem apart_of_dvd {element a b : Nat} (ha : element ∣ a) (hb : element ∣ b) (hne : a ≠ b) :
    a + element ≤ b ∨ b + element ≤ a := by
  obtain ⟨i, rfl⟩ := ha
  obtain ⟨j, rfl⟩ := hb
  rcases Nat.lt_trichotomy i j with hlt | rfl | hlt
  · left
    calc element * i + element = element * (i + 1) := by ring
      _ ≤ element * j := Nat.mul_le_mul_left _ hlt
  · exact absurd rfl hne
  · right
    calc element * j + element = element * (j + 1) := by ring
      _ ≤ element * i := Nat.mul_le_mul_left _ hlt

/-- Aligned positions below an aligned bound have room for their element. -/
theorem add_le_of_dvd {element a b : Nat} (ha : element ∣ a) (hb : element ∣ b) (hlt : a < b) : a + element ≤ b := by
  rcases apart_of_dvd ha hb hlt.ne with h | h
  · exact h
  · omega

theorem place_lt_mod (layout : TileLayout) {sample : Nat} (hsample : sample < layout.samples)
    (column row x y : Nat) : layout.place column row (x % layout.width) (y % layout.height) sample < layout.bytes :=
  layout.place_lt column row (Nat.mod_lt _ layout.width_pos) (Nat.mod_lt _ layout.height_pos) hsample

theorem offset_dvd (hsample : sample < layout.samples) : layout.element ∣ layout.offset perRow x y sample :=
  Nat.dvd_add (Dvd.dvd.mul_left layout.element_dvd _)
    (layout.place_dvd _ _ (Nat.mod_lt _ layout.width_pos) (Nat.mod_lt _ layout.height_pos) hsample)

/-- An element of the grid lies inside the grid's bytes. -/
theorem offset_add_le (hx : x / layout.width < perRow) (hy : y / layout.height < rows)
    (hsample : sample < layout.samples) :
    layout.offset perRow x y sample + layout.element ≤ rows * perRow * layout.bytes := by
  apply add_le_of_dvd (offset_dvd hsample) (Dvd.dvd.mul_left layout.element_dvd _)
  have htile : y / layout.height * perRow + x / layout.width + 1 ≤ rows * perRow := by
    calc y / layout.height * perRow + x / layout.width + 1
        ≤ y / layout.height * perRow + perRow := by omega
      _ = (y / layout.height + 1) * perRow := by ring
      _ ≤ rows * perRow := Nat.mul_le_mul_right _ hy
  have hplace := layout.place_lt_mod hsample (x / layout.width) (y / layout.height) x y
  calc layout.offset perRow x y sample
      < (y / layout.height * perRow + x / layout.width) * layout.bytes + layout.bytes :=
        Nat.add_lt_add_left hplace _
    _ = (y / layout.height * perRow + x / layout.width + 1) * layout.bytes := by ring
    _ ≤ rows * perRow * layout.bytes := Nat.mul_le_mul_right _ htile

/-- No two elements of the grid share a place. -/
theorem offset_inj (layout : TileLayout) (hx : x / layout.width < perRow) (hx' : x' / layout.width < perRow)
    (hsample : sample < layout.samples) (hsample' : sample' < layout.samples)
    (heq : layout.offset perRow x y sample = layout.offset perRow x' y' sample') :
    x = x' ∧ y = y' ∧ sample = sample' := by
  have hplace := layout.place_lt_mod hsample (x / layout.width) (y / layout.height) x y
  have hplace' :=
    layout.place_lt_mod hsample' (x' / layout.width) (y' / layout.height) x' y'
  obtain ⟨htile, hlocal⟩ := mul_add_inj hplace hplace' heq
  -- The tile's number gives its row and its column.
  obtain ⟨hrow, hcolumn⟩ := mul_add_inj hx hx' htile
  rw [hrow, hcolumn] at hlocal
  obtain ⟨hmodx, hmody, hsamples⟩ := layout.place_inj _ _ (Nat.mod_lt _ layout.width_pos)
    (Nat.mod_lt _ layout.height_pos) hsample (Nat.mod_lt _ layout.width_pos)
    (Nat.mod_lt _ layout.height_pos) hsample' hlocal
  refine ⟨?_, ?_, hsamples⟩
  · rw [← Nat.div_add_mod x layout.width, ← Nat.div_add_mod x' layout.width, hcolumn, hmodx]
  · rw [← Nat.div_add_mod y layout.height, ← Nat.div_add_mod y' layout.height, hrow, hmody]

/-- Two elements of the grid are disjoint. -/
theorem offset_apart (hx : x / layout.width < perRow) (hx' : x' / layout.width < perRow)
    (hsample : sample < layout.samples) (hsample' : sample' < layout.samples)
    (hne : (x, y, sample) ≠ (x', y', sample')) :
    layout.offset perRow x y sample + layout.element ≤ layout.offset perRow x' y' sample' ∨
      layout.offset perRow x' y' sample' + layout.element ≤ layout.offset perRow x y sample := by
  apply apart_of_dvd (offset_dvd hsample) (offset_dvd hsample')
  intro heq
  obtain ⟨rfl, rfl, rfl⟩ := layout.offset_inj hx hx' hsample hsample' heq
  exact hne rfl

/-- Each sample in a plane of its own, the planes one after the other. -/
def planes (layout : TileLayout) (hone : 0 < layout.samples) (count : Nat) : TileLayout where
  width := layout.width
  height := layout.height
  samples := count
  element := layout.element
  bytes := count * layout.bytes
  place column row x y sample := sample * layout.bytes + layout.place column row x y 0
  width_pos := layout.width_pos
  height_pos := layout.height_pos
  element_dvd := Dvd.dvd.mul_left layout.element_dvd _
  place_lt := by
    intro column row x y sample hx hy hsample
    have hplace := layout.place_lt column row hx hy hone
    calc sample * layout.bytes + layout.place column row x y 0
        < sample * layout.bytes + layout.bytes := Nat.add_lt_add_left hplace _
      _ = (sample + 1) * layout.bytes := by ring
      _ ≤ count * layout.bytes := Nat.mul_le_mul_right _ hsample
  place_dvd := by
    intro column row x y sample hx hy _
    exact Nat.dvd_add (Dvd.dvd.mul_left layout.element_dvd _)
      (layout.place_dvd column row hx hy hone)
  place_inj := by
    intro column row x y sample x' y' sample' hx hy _ hx' hy' _ heq
    have hplace := layout.place_lt column row hx hy hone
    have hplace' := layout.place_lt column row hx' hy' hone
    obtain ⟨hsample, hlocal⟩ := mul_add_inj hplace hplace' heq
    obtain ⟨rfl, rfl, -⟩ := layout.place_inj column row hx hy hone hx' hy' hone hlocal
    exact ⟨rfl, rfl, hsample⟩

/-- The samples side by side inside the element, `part` bytes each. -/
def interleaved (layout : TileLayout) (hone : 0 < layout.samples) (count part : Nat)
    (hpos : 0 < part) (hpart : count * part = layout.element) : TileLayout where
  width := layout.width
  height := layout.height
  samples := count
  element := part
  bytes := layout.bytes
  place column row x y sample := layout.place column row x y 0 + sample * part
  width_pos := layout.width_pos
  height_pos := layout.height_pos
  element_dvd := (Dvd.intro_left count hpart).trans layout.element_dvd
  place_lt := by
    intro column row x y sample hx hy hsample
    have hplace := layout.place_lt column row hx hy hone
    have hroom := add_le_of_dvd (layout.place_dvd column row hx hy hone) layout.element_dvd hplace
    have hsample' : sample * part < count * part := Nat.mul_lt_mul_of_pos_right hsample hpos
    omega
  place_dvd := by
    intro column row x y sample hx hy _
    exact Nat.dvd_add ((Dvd.intro_left count hpart).trans (layout.place_dvd column row hx hy hone))
      (Nat.dvd_mul_left _ _)
  place_inj := by
    intro column row x y sample x' y' sample' hx hy hsample hx' hy' hsample' heq
    have hsample : sample * part < layout.element :=
      hpart ▸ Nat.mul_lt_mul_of_pos_right hsample hpos
    have hsample' : sample' * part < layout.element :=
      hpart ▸ Nat.mul_lt_mul_of_pos_right hsample' hpos
    have hplaces : layout.place column row x y 0 = layout.place column row x' y' 0 := by
      by_contra hne
      rcases apart_of_dvd (layout.place_dvd column row hx hy hone)
        (layout.place_dvd column row hx' hy' hone) hne with h | h
      · omega
      · omega
    obtain ⟨rfl, rfl, -⟩ := layout.place_inj column row hx hy hone hx' hy' hone hplaces
    exact ⟨rfl, rfl, Nat.eq_of_mul_eq_mul_right hpos (Nat.add_left_cancel heq)⟩

end TileLayout

open XorMap

/-- A tile whose places are an exclusive-or linear map of the coordinates, with an inverse for each
of them. The tile's column and row may turn the coordinates before the map and the place after it.
The checks are over the coordinates' bits. -/
structure XorTile where
  map : Nat → Nat → Nat
  unX : List Nat
  unY : List Nat
  xBits : Nat
  yBits : Nat
  alignment : Nat
  bits : Nat
  turnX : (column row : Nat) → Nat
  turnY : (column row : Nat) → Nat
  turn : (column row : Nat) → Nat
  linear : XorLinear₂ map
  unX_map : agree₂ (fun x y => ofColumns unX (map x y)) (fun x _ => x) xBits yBits = true
  unY_map : agree₂ (fun x y => ofColumns unY (map x y)) (fun _ y => y) xBits yBits = true
  map_lt : agree₂ (fun x y => map x y >>> bits) (fun _ _ => 0) xBits yBits = true
  map_dvd : agree₂ (fun x y => map x y % 2 ^ alignment) (fun _ _ => 0) xBits yBits = true
  turnX_lt : ∀ column row, turnX column row < 2 ^ xBits
  turnY_lt : ∀ column row, turnY column row < 2 ^ yBits
  turn_lt : ∀ column row, turn column row < 2 ^ bits
  turn_dvd : ∀ column row, turn column row % 2 ^ alignment = 0
  alignment_le : alignment ≤ bits

namespace XorTile

variable (tile : XorTile) {x y : Nat}

/-- The place of a texel in the tile at a column and row. -/
def place (column row x y : Nat) : Nat :=
  tile.map (x ^^^ tile.turnX column row) (y ^^^ tile.turnY column row) ^^^ tile.turn column row

variable {tile}

theorem place_lt (column row : Nat) (hx : x < 2 ^ tile.xBits) (hy : y < 2 ^ tile.yBits) :
    tile.place column row x y < 2 ^ tile.bits := by
  have hmap := ((xorLinear_shiftRight tile.bits).comp tile.linear).eq_of_agree₂ xorLinear₂_zero
    tile.map_lt (Nat.xor_lt_two_pow hx (tile.turnX_lt column row))
    (Nat.xor_lt_two_pow hy (tile.turnY_lt column row))
  apply Nat.xor_lt_two_pow _ (tile.turn_lt column row)
  rw [Nat.shiftRight_eq_div_pow] at hmap
  exact Nat.lt_of_div_eq_zero (Nat.two_pow_pos _) hmap

theorem place_mod (column row : Nat) (hx : x < 2 ^ tile.xBits) (hy : y < 2 ^ tile.yBits) :
    tile.place column row x y % 2 ^ tile.alignment = 0 := by
  have hmap := ((xorLinear_mod tile.alignment).comp tile.linear).eq_of_agree₂ xorLinear₂_zero
    tile.map_dvd (Nat.xor_lt_two_pow hx (tile.turnX_lt column row))
    (Nat.xor_lt_two_pow hy (tile.turnY_lt column row))
  rw [place, Nat.xor_mod_two_pow, hmap, tile.turn_dvd, Nat.xor_self]

/-- The inverse finds the turned coordinates of a place. -/
theorem un_place (tile : XorTile) (column row : Nat) (hx : x < 2 ^ tile.xBits) (hy : y < 2 ^ tile.yBits) :
    ofColumns tile.unX (tile.place column row x y ^^^ tile.turn column row) = x ^^^ tile.turnX column row ∧
      ofColumns tile.unY (tile.place column row x y ^^^ tile.turn column row) = y ^^^ tile.turnY column row := by
  have hturnX := Nat.xor_lt_two_pow hx (tile.turnX_lt column row)
  have hturnY := Nat.xor_lt_two_pow hy (tile.turnY_lt column row)
  rw [place, Nat.xor_xor_cancel_right]
  exact ⟨((xorLinear_ofColumns tile.unX).comp tile.linear).eq_of_agree₂ xorLinear₂_fst tile.unX_map
    hturnX hturnY, ((xorLinear_ofColumns tile.unY).comp tile.linear).eq_of_agree₂ xorLinear₂_snd
    tile.unY_map hturnX hturnY⟩

/-- The tile with a number exclusive-ored into every place. -/
def xored (tile : XorTile) (amount : Nat) (hlt : amount < 2 ^ tile.bits)
    (hmod : amount % 2 ^ tile.alignment = 0) : XorTile where
  map := tile.map
  unX := tile.unX
  unY := tile.unY
  xBits := tile.xBits
  yBits := tile.yBits
  alignment := tile.alignment
  bits := tile.bits
  turnX := tile.turnX
  turnY := tile.turnY
  turn column row := tile.turn column row ^^^ amount
  linear := tile.linear
  unX_map := tile.unX_map
  unY_map := tile.unY_map
  map_lt := tile.map_lt
  map_dvd := tile.map_dvd
  turnX_lt := tile.turnX_lt
  turnY_lt := tile.turnY_lt
  turn_lt column row := Nat.xor_lt_two_pow (tile.turn_lt column row) hlt
  turn_dvd column row := by rw [Nat.xor_mod_two_pow, tile.turn_dvd, hmod, Nat.xor_self]
  alignment_le := tile.alignment_le

/-- Two texels at one place of a tile, under two numbers, differ by what the inverse makes of the
numbers' difference. -/
theorem xor_eq_of_place_xored (tile : XorTile) {amount amount' column row x y x' y' : Nat}
    (hlt hmod hlt' hmod') (hx : x < 2 ^ tile.xBits) (hy : y < 2 ^ tile.yBits) (hx' : x' < 2 ^ tile.xBits)
    (hy' : y' < 2 ^ tile.yBits) (heq : (tile.xored amount hlt hmod).place column row x y =
      (tile.xored amount' hlt' hmod').place column row x' y') : x ^^^ x' = ofColumns tile.unX (amount ^^^ amount') ∧
      y ^^^ y' = ofColumns tile.unY (amount ^^^ amount') := by
  obtain ⟨hunX, hunY⟩ := un_place (tile.xored amount hlt hmod) column row hx hy
  obtain ⟨hunX', hunY'⟩ := un_place (tile.xored amount' hlt' hmod') column row hx' hy'
  rw [heq] at hunX hunY
  generalize (tile.xored amount' hlt' hmod').place column row x' y' = place at hunX hunY hunX' hunY'
  have hdifference : amount ^^^ amount' =
      (place ^^^ (tile.turn column row ^^^ amount)) ^^^ (place ^^^ (tile.turn column row ^^^ amount')) := by
    rw [Nat.xor_comm place (_ ^^^ amount), Nat.xor_comm place (_ ^^^ amount'), xor_cancel_right,
      Nat.xor_comm (tile.turn _ _), Nat.xor_comm (tile.turn _ _), xor_cancel_right]
  constructor
  · rw [hdifference, xorLinear_ofColumns tile.unX]
    refine Eq.trans ?_ (congrArg₂ _ hunX hunX').symm
    change _ = (x ^^^ tile.turnX column row) ^^^ (x' ^^^ tile.turnX column row)
    rw [xor_cancel_right]
  · rw [hdifference, xorLinear_ofColumns tile.unY]
    refine Eq.trans ?_ (congrArg₂ _ hunY hunY').symm
    change _ = (y ^^^ tile.turnY column row) ^^^ (y' ^^^ tile.turnY column row)
    rw [xor_cancel_right]

/-- The layout of such tiles, an element `2 ^ alignment` bytes. -/
def layout (tile : XorTile) : TileLayout where
  width := 2 ^ tile.xBits
  height := 2 ^ tile.yBits
  samples := 1
  element := 2 ^ tile.alignment
  bytes := 2 ^ tile.bits
  place column row x y _ := tile.place column row x y
  width_pos := Nat.two_pow_pos _
  height_pos := Nat.two_pow_pos _
  element_dvd := Nat.pow_dvd_pow 2 tile.alignment_le
  place_lt := fun column row _ _ _ hx hy _ => place_lt column row hx hy
  place_dvd := fun column row _ _ _ hx hy _ => Nat.dvd_of_mod_eq_zero (place_mod column row hx hy)
  place_inj := by
    intro column row x y sample x' y' sample' hx hy hsample hx' hy' hsample' heq
    have hmap : tile.map (x ^^^ tile.turnX column row) (y ^^^ tile.turnY column row) =
        tile.map (x' ^^^ tile.turnX column row) (y' ^^^ tile.turnY column row) :=
      Nat.xor_left_injective heq
    obtain ⟨hturnx, hturny⟩ := tile.linear.injective_of_agree₂ (xorLinear_ofColumns tile.unX)
      (xorLinear_ofColumns tile.unY) tile.unX_map tile.unY_map
      (Nat.xor_lt_two_pow hx (tile.turnX_lt column row))
      (Nat.xor_lt_two_pow hy (tile.turnY_lt column row))
      (Nat.xor_lt_two_pow hx' (tile.turnX_lt column row))
      (Nat.xor_lt_two_pow hy' (tile.turnY_lt column row)) hmap
    refine ⟨?_, ?_, by omega⟩
    · exact Nat.xor_left_injective hturnx
    · exact Nat.xor_left_injective hturny

end XorTile

end Ps5Vulkan
