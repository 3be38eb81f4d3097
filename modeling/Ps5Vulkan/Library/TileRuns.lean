import Ps5Vulkan.Library.TileLayout

/-!
# Tiles that keep runs

A tile of an exclusive-or map in which the elements of a row lie contiguous in aligned runs of
`2 ^ runBits`, and no further: the address bit just above a run is one bit of the row and of nothing
else. Inside a run the offset of an element moves by one element; the offset one run further is that
of the same columns in another row, or of no element with its row's bit.
-/

namespace Ps5Vulkan

open XorMap

/-- A tile that keeps runs of `2 ^ runBits` elements of a row. The address bit above a run is bit
`rowBit` of the row. -/
structure RunTile extends XorTile where
  runBits : Nat
  rowBit : Nat
  runBits_le : runBits ≤ xBits
  rowBit_lt : rowBit < yBits
  run_lt : alignment + runBits < bits
  low : agree₂ (fun x y => map x y % 2 ^ (alignment + runBits))
    (fun x _ => (x % 2 ^ runBits) <<< alignment) xBits yBits = true
  high : agree₂ (fun x y => map x y >>> (alignment + runBits))
    (fun x y => map ((x >>> runBits) <<< runBits) y >>> (alignment + runBits)) xBits yBits = true
  above : runBits ≠ 0 → agree₂ (fun x y => (map x y >>> (alignment + runBits)) % 2 ^ 1)
    (fun _ y => (y >>> rowBit) % 2 ^ 1) xBits yBits = true
  row : runBits ≠ 0 → map 0 (2 ^ rowBit) = 2 ^ (alignment + runBits)
  turnX_run : ∀ column row, turnX column row % 2 ^ runBits = 0
  turnY_row : ∀ column row, (turnY column row >>> rowBit) % 2 ^ 1 = 0
  turn_run : ∀ column row, turn column row % 2 ^ (alignment + runBits + 1) = 0

namespace RunTile

variable (tile : RunTile)

/-- The run's number in the tile. -/
def runPlace (column row index y : Nat) : Nat :=
  tile.place column row (index <<< tile.runBits) y >>> (tile.alignment + tile.runBits)

/-- The run's number in the grid. -/
def runOffset (perRow index y : Nat) : Nat :=
  let across := 2 ^ (tile.xBits - tile.runBits)
  (y / 2 ^ tile.yBits * perRow + index / across) * 2 ^ (tile.bits - (tile.alignment + tile.runBits)) +
    tile.runPlace (index / across) (y / 2 ^ tile.yBits) (index % across) (y % 2 ^ tile.yBits)

/-- The bit of a row that is the address bit above a run. -/
def rowParity (y : Nat) : Nat := (y >>> tile.rowBit) % 2 ^ 1

variable {tile} {column row x y index : Nat}

/-- Inside a block a step moves on in it. -/
theorem div_mod_add {block n step : Nat} (hstep : n % block + step < block) :
    (n + step) / block = n / block ∧ (n + step) % block = n % block + step := by
  have hsplit := Nat.div_add_mod n block
  have hdiv : (n + step) / block = n / block := by
    rw [← hsplit, Nat.add_assoc, Nat.mul_add_div (by omega), Nat.div_eq_of_lt hstep, hsplit, Nat.add_zero]
  have hmod := Nat.div_add_mod (n + step) block
  rw [hdiv] at hmod
  exact ⟨hdiv, by omega⟩

theorem xorLinear₂_mod_shiftLeft (bits shift : Nat) : XorLinear₂ fun x _ => (x % 2 ^ bits) <<< shift := by
  intro a b c d
  dsimp only
  rw [Nat.xor_mod_two_pow, Nat.shiftLeft_xor_distrib]

theorem turn_mod (tile : RunTile) (column row : Nat) :
    tile.turn column row % 2 ^ (tile.alignment + tile.runBits) = 0 := by
  have hdvd : 2 ^ (tile.alignment + tile.runBits) ∣ 2 ^ (tile.alignment + tile.runBits + 1) :=
    Nat.pow_dvd_pow 2 (Nat.le_succ _)
  rw [← Nat.mod_mod_of_dvd _ hdvd, tile.turn_run, Nat.zero_mod]

theorem place_mod_run (column row : Nat) (hx : x < 2 ^ tile.xBits) (hy : y < 2 ^ tile.yBits) :
    tile.place column row x y % 2 ^ (tile.alignment + tile.runBits) = (x % 2 ^ tile.runBits) <<< tile.alignment := by
  have hlow := ((xorLinear_mod (tile.alignment + tile.runBits)).comp tile.linear).eq_of_agree₂
    (xorLinear₂_mod_shiftLeft tile.runBits tile.alignment) tile.low
    (Nat.xor_lt_two_pow hx (tile.turnX_lt column row))
    (Nat.xor_lt_two_pow hy (tile.turnY_lt column row))
  rw [XorTile.place, Nat.xor_mod_two_pow, hlow, tile.turn_mod, Nat.xor_zero, Nat.xor_mod_two_pow,
    tile.turnX_run, Nat.xor_zero]

/-- The part of a place above its run depends on the run alone. -/
theorem place_shiftRight_run (hx : x < 2 ^ tile.xBits) (hy : y < 2 ^ tile.yBits) :
    tile.place column row x y >>> (tile.alignment + tile.runBits) =
      tile.runPlace column row (x / 2 ^ tile.runBits) y := by
  have hlinear : XorLinear₂ fun x y =>
      tile.map ((x >>> tile.runBits) <<< tile.runBits) y >>> (tile.alignment + tile.runBits) := by
    intro a b c d
    dsimp only
    rw [Nat.shiftRight_xor_distrib, Nat.shiftLeft_xor_distrib, tile.linear, Nat.shiftRight_xor_distrib]
  have hhigh : ∀ {a}, a < 2 ^ tile.xBits → tile.map (a ^^^ tile.turnX column row)
      (y ^^^ tile.turnY column row) >>> (tile.alignment + tile.runBits) =
        tile.map (((a ^^^ tile.turnX column row) >>> tile.runBits) <<< tile.runBits)
          (y ^^^ tile.turnY column row) >>> (tile.alignment + tile.runBits) := fun ha =>
    ((xorLinear_shiftRight (tile.alignment + tile.runBits)).comp tile.linear).eq_of_agree₂ hlinear
      tile.high (Nat.xor_lt_two_pow ha (tile.turnX_lt column row))
      (Nat.xor_lt_two_pow hy (tile.turnY_lt column row))
  have hstart : (x / 2 ^ tile.runBits) <<< tile.runBits < 2 ^ tile.xBits := by
    rw [Nat.shiftLeft_eq]
    exact Nat.lt_of_le_of_lt (Nat.div_mul_le_self _ _) hx
  have hback : ((x / 2 ^ tile.runBits) <<< tile.runBits) >>> tile.runBits = x >>> tile.runBits := by
    rw [Nat.shiftLeft_shiftRight, Nat.shiftRight_eq_div_pow]
  simp only [runPlace, XorTile.place, Nat.shiftRight_xor_distrib]
  rw [hhigh hx, hhigh hstart, Nat.shiftRight_xor_distrib, Nat.shiftRight_xor_distrib, hback]

/-- A place is that of its run and the element's in the run. -/
theorem place_eq (column row : Nat) (hx : x < 2 ^ tile.xBits) (hy : y < 2 ^ tile.yBits) : tile.place column row x y =
      2 ^ (tile.alignment + tile.runBits) * tile.runPlace column row (x / 2 ^ tile.runBits) y +
        x % 2 ^ tile.runBits * 2 ^ tile.alignment := by
  rw [← place_shiftRight_run hx hy, ← Nat.shiftLeft_eq, ← place_mod_run column row hx hy,
    Nat.shiftRight_eq_div_pow, Nat.div_add_mod]

/-- Below the bits of an exclusive-or addition goes on as it was. -/
theorem add_xor {bits place amount step : Nat} (hamount : amount % 2 ^ bits = 0)
    (hstep : place % 2 ^ bits + step < 2 ^ bits) : (place + step) ^^^ amount = (place ^^^ amount) + step := by
  obtain ⟨hdiv, hmod⟩ := div_mod_add hstep
  have hxor : ∀ n, n ^^^ amount = 2 ^ bits * (n / 2 ^ bits ^^^ amount / 2 ^ bits) + n % 2 ^ bits := by
    intro n
    have hsplit := Nat.div_add_mod (n ^^^ amount) (2 ^ bits)
    rw [← Nat.shiftRight_eq_div_pow, Nat.shiftRight_xor_distrib, Nat.xor_mod_two_pow, hamount,
      Nat.xor_zero, Nat.shiftRight_eq_div_pow, Nat.shiftRight_eq_div_pow] at hsplit
    exact hsplit.symm
  rw [hxor, hxor place, hdiv, hmod, Nat.add_assoc]

/-- Inside a run a place moves by one element, also with a number exclusive-ored in above the run. -/
theorem place_add_xor {step amount : Nat} (hx : x + step < 2 ^ tile.xBits) (hy : y < 2 ^ tile.yBits)
    (hstep : x % 2 ^ tile.runBits + step < 2 ^ tile.runBits)
    (hamount : amount % 2 ^ (tile.alignment + tile.runBits) = 0) (column row : Nat) :
    tile.place column row (x + step) y ^^^ amount =
      (tile.place column row x y ^^^ amount) + step * 2 ^ tile.alignment := by
  obtain ⟨hdiv, hmod⟩ := div_mod_add hstep
  have hplace : tile.place column row (x + step) y = tile.place column row x y + step * 2 ^ tile.alignment := by
    rw [place_eq column row hx hy, place_eq column row (by omega) hy, hdiv, hmod]
    ring
  rw [hplace, add_xor hamount]
  rw [place_mod_run column row (by omega) hy, Nat.shiftLeft_eq, ← Nat.add_mul, Nat.pow_add,
    Nat.mul_comm (2 ^ tile.alignment)]
  exact Nat.mul_lt_mul_of_pos_right hstep (Nat.two_pow_pos _)

/-- The run's number has the parity of its row's bit. -/
theorem runPlace_mod (hrun : tile.runBits ≠ 0)
    (hindex : index <<< tile.runBits < 2 ^ tile.xBits) (hy : y < 2 ^ tile.yBits) :
    tile.runPlace column row index y % 2 ^ 1 = tile.rowParity y := by
  have hbit : XorLinear fun place => (place >>> (tile.alignment + tile.runBits)) % 2 ^ 1 := by
    intro a b
    dsimp only
    rw [Nat.shiftRight_xor_distrib, Nat.xor_mod_two_pow]
  have hrow : XorLinear₂ fun _ y => (y >>> tile.rowBit) % 2 ^ 1 := by
    intro a b c d
    dsimp only
    rw [Nat.shiftRight_xor_distrib, Nat.xor_mod_two_pow]
  have habove := (hbit.comp tile.linear).eq_of_agree₂ hrow (tile.above hrun)
    (Nat.xor_lt_two_pow hindex (tile.turnX_lt column row))
    (Nat.xor_lt_two_pow hy (tile.turnY_lt column row))
  have hturn : (tile.turn column row >>> (tile.alignment + tile.runBits)) % 2 ^ 1 = 0 := by
    rw [Nat.shiftRight_eq_div_pow, ← Nat.mod_mul_right_div_self, ← Nat.pow_add, tile.turn_run, Nat.zero_div]
  rw [runPlace, XorTile.place, Nat.shiftRight_xor_distrib, Nat.xor_mod_two_pow, habove, hturn,
    Nat.xor_zero, Nat.shiftRight_xor_distrib, Nat.xor_mod_two_pow, tile.turnY_row, Nat.xor_zero, rowParity]

/-- The row whose bit differs has the neighbouring run. -/
theorem runPlace_xor_row (hrun : tile.runBits ≠ 0) : tile.runPlace column row index (y ^^^ 2 ^ tile.rowBit) =
      tile.runPlace column row index y ^^^ 1 := by
  have hmap := tile.linear ((index <<< tile.runBits) ^^^ tile.turnX column row) 0
    (y ^^^ tile.turnY column row) (2 ^ tile.rowBit)
  rw [Nat.xor_zero, tile.row hrun] at hmap
  have hone : 2 ^ (tile.alignment + tile.runBits) >>> (tile.alignment + tile.runBits) = 1 := by
    rw [Nat.shiftRight_eq_div_pow, Nat.div_self (Nat.two_pow_pos _)]
  simp only [runPlace, XorTile.place]
  rw [Nat.xor_right_comm y, hmap]
  simp only [Nat.shiftRight_xor_distrib, hone]
  ac_rfl

theorem xor_two_pow_eq_add {n bit : Nat} (h : (n >>> bit) % 2 ^ 1 = 0) : n ^^^ 2 ^ bit = n + 2 ^ bit := by
  have hdiv : (n ^^^ 2 ^ bit) / 2 ^ bit = n / 2 ^ bit + 1 := by
    rw [← Nat.shiftRight_eq_div_pow, Nat.shiftRight_xor_distrib, Nat.shiftRight_eq_div_pow (2 ^ bit),
      Nat.div_self (Nat.two_pow_pos _), Nat.xor_one_of_even (Nat.even_iff.2 h), Nat.shiftRight_eq_div_pow]
  have hmod : (n ^^^ 2 ^ bit) % 2 ^ bit = n % 2 ^ bit := by
    rw [Nat.xor_mod_two_pow, Nat.mod_self, Nat.xor_zero]
  rw [← Nat.div_add_mod (n ^^^ 2 ^ bit) (2 ^ bit), hdiv, hmod, Nat.mul_add, Nat.mul_one,
    Nat.add_right_comm, Nat.div_add_mod]

theorem rowParity_mod (tile : RunTile) (y : Nat) : tile.rowParity (y % 2 ^ tile.yBits) = tile.rowParity y := by
  have hlt := tile.rowBit_lt
  have hsplit : 2 ^ tile.yBits = 2 ^ tile.rowBit * 2 ^ (tile.yBits - tile.rowBit) := by
    rw [← Nat.pow_add]
    congr 1
    omega
  have hdvd : 2 ^ 1 ∣ 2 ^ (tile.yBits - tile.rowBit) := Nat.pow_dvd_pow 2 (by omega)
  rw [rowParity, rowParity, Nat.shiftRight_eq_div_pow, Nat.shiftRight_eq_div_pow, hsplit,
    Nat.mod_mul_right_div_self, Nat.mod_mod_of_dvd _ hdvd]

section Grid

variable {perRow x' y' : Nat}

theorem across_mul (tile : RunTile) : 2 ^ tile.xBits = 2 ^ tile.runBits * 2 ^ (tile.xBits - tile.runBits) := by
  have hle := tile.runBits_le
  rw [← Nat.pow_add]
  congr 1
  omega

/-- An offset is that of its run and the element's in the run. -/
theorem offset_eq (tile : RunTile) (perRow x y sample : Nat) : tile.layout.offset perRow x y sample =
      2 ^ (tile.alignment + tile.runBits) * tile.runOffset perRow (x / 2 ^ tile.runBits) y +
        x % 2 ^ tile.runBits * 2 ^ tile.alignment := by
  have hbits : 2 ^ tile.bits = 2 ^ (tile.alignment + tile.runBits) *
      2 ^ (tile.bits - (tile.alignment + tile.runBits)) := by
    have hlt := tile.run_lt
    rw [← Nat.pow_add]
    congr 1
    omega
  have hcolumn : x / 2 ^ tile.xBits = x / 2 ^ tile.runBits / 2 ^ (tile.xBits - tile.runBits) := by
    rw [tile.across_mul, Nat.div_div_eq_div_mul]
  have hindex : x % 2 ^ tile.xBits / 2 ^ tile.runBits = x / 2 ^ tile.runBits % 2 ^ (tile.xBits - tile.runBits) := by
    rw [tile.across_mul, Nat.mod_mul_right_div_self]
  have hmod : x % 2 ^ tile.xBits % 2 ^ tile.runBits = x % 2 ^ tile.runBits :=
    Nat.mod_mod_of_dvd _ (Nat.pow_dvd_pow 2 tile.runBits_le)
  have hplace := place_eq (x / 2 ^ tile.xBits) (y / 2 ^ tile.yBits)
    (Nat.mod_lt x (Nat.two_pow_pos tile.xBits)) (Nat.mod_lt y (Nat.two_pow_pos tile.yBits))
  rw [hindex, hmod] at hplace
  change (y / 2 ^ tile.yBits * perRow + x / 2 ^ tile.xBits) * 2 ^ tile.bits +
    tile.place (x / 2 ^ tile.xBits) (y / 2 ^ tile.yBits) (x % 2 ^ tile.xBits) (y % 2 ^ tile.yBits) = _
  rw [hplace, runOffset, hbits, ← hcolumn]
  ring

/-- Inside a run an offset moves by one element. -/
theorem offset_add (tile : RunTile) {step : Nat} (hstep : x % 2 ^ tile.runBits + step < 2 ^ tile.runBits)
    (perRow y sample : Nat) : tile.layout.offset perRow (x + step) y sample =
      tile.layout.offset perRow x y sample + step * 2 ^ tile.alignment := by
  obtain ⟨hdiv, hmod⟩ := div_mod_add hstep
  rw [offset_eq, offset_eq, hdiv, hmod]
  ring

theorem index_lt (tile : RunTile) (index : Nat) :
    (index % 2 ^ (tile.xBits - tile.runBits)) <<< tile.runBits < 2 ^ tile.xBits := by
  rw [Nat.shiftLeft_eq, tile.across_mul, Nat.mul_comm]
  exact Nat.mul_lt_mul_of_pos_left (Nat.mod_lt _ (Nat.two_pow_pos _)) (Nat.two_pow_pos _)

theorem runOffset_mod (hrun : tile.runBits ≠ 0) (perRow index y : Nat) :
    tile.runOffset perRow index y % 2 ^ 1 = tile.rowParity y := by
  have hlt := tile.run_lt
  have heven : 2 ^ 1 ∣ 2 ^ (tile.bits - (tile.alignment + tile.runBits)) :=
    Nat.pow_dvd_pow 2 (by omega)
  rw [runOffset, Nat.add_mod, Nat.mod_eq_zero_of_dvd (Dvd.dvd.mul_left heven _), Nat.zero_add,
    Nat.mod_mod, runPlace_mod hrun (tile.index_lt index) (Nat.mod_lt _ (Nat.two_pow_pos _)), rowParity_mod]

/-- The row that sets the clear bit has the next run. -/
theorem runOffset_add_row (hrun : tile.runBits ≠ 0) (hparity : tile.rowParity y = 0) (perRow index : Nat) :
    tile.runOffset perRow index (y + 2 ^ tile.rowBit) = tile.runOffset perRow index y + 1 := by
  have hrest : (y % 2 ^ tile.yBits) ^^^ 2 ^ tile.rowBit = y % 2 ^ tile.yBits + 2 ^ tile.rowBit :=
    xor_two_pow_eq_add ((tile.rowParity_mod y).trans hparity)
  have hlt : y % 2 ^ tile.yBits + 2 ^ tile.rowBit < 2 ^ tile.yBits :=
    hrest ▸ Nat.xor_lt_two_pow (Nat.mod_lt _ (Nat.two_pow_pos _))
      (Nat.pow_lt_pow_right (by decide) tile.rowBit_lt)
  obtain ⟨hdiv, hmod⟩ := div_mod_add hlt
  rw [← hrest] at hmod
  have heven : Even (tile.runPlace (index / 2 ^ (tile.xBits - tile.runBits)) (y / 2 ^ tile.yBits)
      (index % 2 ^ (tile.xBits - tile.runBits)) (y % 2 ^ tile.yBits)) := by
    rw [Nat.even_iff, ← hparity, ← rowParity_mod]
    exact runPlace_mod hrun (tile.index_lt index) (Nat.mod_lt _ (Nat.two_pow_pos _))
  rw [runOffset, runOffset, hdiv, hmod, runPlace_xor_row hrun, Nat.xor_one_of_even heven, Nat.add_assoc]

/-- The offset one run past that of a column. -/
def beyond (tile : RunTile) (perRow x y : Nat) : Nat :=
  2 ^ (tile.alignment + tile.runBits) * (tile.runOffset perRow (x / 2 ^ tile.runBits) y + 1)

/-- The offset past a run is that of no element with the row's bit. -/
theorem beyond_ne_of_rowParity (hrun : tile.runBits ≠ 0) (hparity : tile.rowParity y' = tile.rowParity y)
    {byte : Nat} (hbyte : byte < 2 ^ tile.alignment) :
    tile.beyond perRow x y ≠ tile.layout.offset perRow x' y' 0 + byte := by
  intro heq
  have hinside : x' % 2 ^ tile.runBits * 2 ^ tile.alignment + byte < 2 ^ (tile.alignment + tile.runBits) := by
    have hlast : x' % 2 ^ tile.runBits + 1 ≤ 2 ^ tile.runBits := Nat.mod_lt _ (Nat.two_pow_pos _)
    calc x' % 2 ^ tile.runBits * 2 ^ tile.alignment + byte
        < x' % 2 ^ tile.runBits * 2 ^ tile.alignment + 2 ^ tile.alignment := by omega
      _ = (x' % 2 ^ tile.runBits + 1) * 2 ^ tile.alignment := by ring
      _ ≤ 2 ^ tile.runBits * 2 ^ tile.alignment := Nat.mul_le_mul_right _ hlast
      _ = 2 ^ (tile.alignment + tile.runBits) := by rw [Nat.add_comm, Nat.pow_add]
  rw [beyond, offset_eq, Nat.add_assoc] at heq
  have hruns := congrArg (· / 2 ^ (tile.alignment + tile.runBits)) heq
  simp only [Nat.mul_div_cancel_left _ (Nat.two_pow_pos (tile.alignment + tile.runBits)),
    Nat.mul_add_div (Nat.two_pow_pos (tile.alignment + tile.runBits)), Nat.div_eq_of_lt hinside,
    Nat.add_zero] at hruns
  have hmod := runOffset_mod hrun perRow (x / 2 ^ tile.runBits) y
  have hmod' := runOffset_mod hrun perRow (x' / 2 ^ tile.runBits) y'
  omega

/-- From a row with the bit clear, the offset past a run is that of the run's columns in another row. -/
theorem beyond_eq_offset (hrun : tile.runBits ≠ 0) (hparity : tile.rowParity y = 0) (perRow x : Nat) :
    tile.beyond perRow x y =
      tile.layout.offset perRow (x / 2 ^ tile.runBits * 2 ^ tile.runBits) (y + 2 ^ tile.rowBit) 0 := by
  rw [offset_eq, Nat.mul_div_cancel _ (Nat.two_pow_pos _), Nat.mul_mod_left,
    runOffset_add_row hrun hparity, Nat.zero_mul]
  rfl

/-- Below a column inside its run, and over any rows, the offset past the run is in some row that of
no element of the rows from the column on. -/
theorem exists_beyond_outside (tile : RunTile) (hx : x % 2 ^ tile.runBits ≠ 0) (hperRow : x / 2 ^ tile.xBits < perRow)
    {height : Nat} (hheight : 0 < height) (y : Nat) :
    ∃ row < height, ∀ x' y' byte, x ≤ x' → x' / 2 ^ tile.xBits < perRow → y ≤ y' → y' < y + height →
      byte < 2 ^ tile.alignment → tile.beyond perRow x (y + row) ≠ tile.layout.offset perRow x' y' 0 + byte := by
  have hrun : tile.runBits ≠ 0 := by
    intro hzero
    rw [hzero, Nat.pow_zero, Nat.mod_one] at hx
    exact hx rfl
  have hparity : ∀ n, tile.rowParity n < 2 := fun n => Nat.mod_lt _ (by decide)
  by_cases hclear : ∃ row < height, tile.rowParity (y + row) = 0
  · obtain ⟨row, hrow, hzero⟩ := hclear
    refine ⟨row, hrow, fun x' y' byte hxle hx' _ _ hbyte heq => ?_⟩
    rw [beyond_eq_offset hrun hzero] at heq
    -- Both offsets are aligned, so they are equal and the columns are.
    have haligned : ∀ a b, tile.layout.element ∣ tile.layout.offset perRow a b 0 :=
      fun a b => TileLayout.offset_dvd Nat.zero_lt_one
    have hbyteZero : byte = 0 := by
      have hdvd := (Nat.dvd_add_right (haligned x' y')).1 (heq ▸ haligned _ _)
      exact Nat.eq_zero_of_dvd_of_lt hdvd hbyte
    rw [hbyteZero, Nat.add_zero] at heq
    have hstart : x / 2 ^ tile.runBits * 2 ^ tile.runBits < x := by
      have hsplit := Nat.div_add_mod x (2 ^ tile.runBits)
      rw [Nat.mul_comm] at hsplit
      omega
    have hcolumn : x / 2 ^ tile.runBits * 2 ^ tile.runBits / 2 ^ tile.xBits < perRow :=
      Nat.lt_of_le_of_lt (Nat.div_le_div_right hstart.le) hperRow
    have hsame : x / 2 ^ tile.runBits * 2 ^ tile.runBits = x' :=
      (tile.layout.offset_inj hcolumn hx' Nat.zero_lt_one Nat.zero_lt_one heq).1
    omega
  · refine ⟨0, hheight, fun x' y' byte _ _ hyle hylt hbyte => ?_⟩
    have hone : ∀ n, y ≤ n → n < y + height → tile.rowParity n = 1 := by
      intro n hle hlt
      have hne : tile.rowParity n ≠ 0 := fun hzero =>
        hclear ⟨n - y, by omega, by rwa [Nat.add_sub_cancel' hle]⟩
      have := hparity n
      omega
    apply beyond_ne_of_rowParity hrun _ hbyte
    rw [hone y' hyle hylt, hone (y + 0) (by omega) (by omega)]

end Grid

/-- What is checked of a tile's map for its runs. -/
def checks (tile : XorTile) (runBits rowBit : Nat) : Bool :=
  agree₂ (fun x y => tile.map x y % 2 ^ (tile.alignment + runBits))
      (fun x _ => (x % 2 ^ runBits) <<< tile.alignment) tile.xBits tile.yBits &&
    (agree₂ (fun x y => tile.map x y >>> (tile.alignment + runBits))
        (fun x y => tile.map ((x >>> runBits) <<< runBits) y >>> (tile.alignment + runBits))
        tile.xBits tile.yBits &&
      (runBits == 0 ||
        agree₂ (fun x y => (tile.map x y >>> (tile.alignment + runBits)) % 2 ^ 1)
          (fun _ y => (y >>> rowBit) % 2 ^ 1) tile.xBits tile.yBits &&
          tile.map 0 (2 ^ rowBit) == 2 ^ (tile.alignment + runBits)))

/-- A tile whose runs are checked and whose turns keep them. -/
def ofChecks (tile : XorTile) (runBits rowBit : Nat) (hfits : runBits ≤ tile.xBits ∧ rowBit < tile.yBits ∧
      tile.alignment + runBits < tile.bits) (hchecks : checks tile runBits rowBit = true)
    (hturnX : ∀ column row, tile.turnX column row % 2 ^ runBits = 0)
    (hturnY : ∀ column row, (tile.turnY column row >>> rowBit) % 2 ^ 1 = 0)
    (hturn : ∀ column row, tile.turn column row % 2 ^ (tile.alignment + runBits + 1) = 0) : RunTile where
  toXorTile := tile
  runBits := runBits
  rowBit := rowBit
  runBits_le := hfits.1
  rowBit_lt := hfits.2.1
  run_lt := hfits.2.2
  low := (Bool.and_eq_true_iff.1 hchecks).1
  high := (Bool.and_eq_true_iff.1 (Bool.and_eq_true_iff.1 hchecks).2).1
  above hrun := by
    have habove := (Bool.and_eq_true_iff.1 (Bool.and_eq_true_iff.1 hchecks).2).2
    rw [beq_eq_false_iff_ne.2 hrun, Bool.false_or] at habove
    exact (Bool.and_eq_true_iff.1 habove).1
  row hrun := by
    have habove := (Bool.and_eq_true_iff.1 (Bool.and_eq_true_iff.1 hchecks).2).2
    rw [beq_eq_false_iff_ne.2 hrun, Bool.false_or] at habove
    exact beq_iff_eq.1 (Bool.and_eq_true_iff.1 habove).2
  turnX_run := hturnX
  turnY_row := hturnY
  turn_run := hturn

/-- The tile with a number exclusive-ored into every place. -/
def xored (tile : RunTile) (amount : Nat) (hlt : amount < 2 ^ tile.bits)
    (hmod : amount % 2 ^ (tile.alignment + tile.runBits + 1) = 0) : RunTile where
  toXorTile := tile.toXorTile.xored amount hlt (by
    have hdvd : 2 ^ tile.alignment ∣ 2 ^ (tile.alignment + tile.runBits + 1) :=
      Nat.pow_dvd_pow 2 (by omega)
    rw [← Nat.mod_mod_of_dvd _ hdvd, hmod, Nat.zero_mod])
  runBits := tile.runBits
  rowBit := tile.rowBit
  runBits_le := tile.runBits_le
  rowBit_lt := tile.rowBit_lt
  run_lt := tile.run_lt
  low := tile.low
  high := tile.high
  above := tile.above
  row := tile.row
  turnX_run := tile.turnX_run
  turnY_row := tile.turnY_row
  turn_run column row := by
    change (tile.turn column row ^^^ amount) % 2 ^ (tile.alignment + tile.runBits + 1) = 0
    rw [Nat.xor_mod_two_pow, tile.turn_run, hmod, Nat.xor_self]

end RunTile

end Ps5Vulkan
