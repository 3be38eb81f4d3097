import Ps5Vulkan.Image.Copy

/-!
# Uploads into tiled images

`ps5vk_image_write_execute` writes the rows of a buffer at the places of a tiled level. It walks a row
in runs too, but its first run ends at a multiple of the run, so every run stays in the group the
level keeps contiguous and the upload is the one texel by texel, from every column on.
-/

namespace Ps5Vulkan.Image

/-- The side an upload writes through (`ps5vk_CmdCopyMemoryToImageKHR`). -/
def BoundImage.uploadSide (image : BoundImage) (sub : Subresource) : Option CopySide := do
  let plane ← image.plane sub.aspect
  if plane.offset ≠ 0 ∧ (image.mipLevels ≠ 1 ∨ image.arrayLayers ≠ 1) then none
  else do
    let base ← image.tiledLayerLevelBase sub.mipLevel sub.baseArrayLayer
    some
      { address := image.address + plane.offset + base / 0x10000 * 0x10000
        rowPitch := 0
        levelWidth := image.rowWidth sub.mipLevel
        tileXor := base % 0x10000
        tileWidth := (tileExtent plane.elementBytes plane.depthMap image.samples).1
        tileHeight := (tileExtent plane.elementBytes plane.depthMap image.samples).2
        elementBytes := plane.elementBytes
        samples := 1
        depth := plane.depthMap
        tiled := true }

/-- What `ps5vk_image_write_execute` reads of a `struct ps5vk_memory_copy`. -/
structure ImageWrite where
  source : Nat
  sourcePitch : Nat
  destinationSide : CopySide
  destinationX : Nat
  destinationY : Nat
  width : Nat
  height : Nat
  destinationTexelBytes : Nat
  reverseTexelBytes : Nat
  deriving DecidableEq, Repr

/-- The runs of a row from a column on, each to the next multiple of a run. Every run has a texel, so
as many steps as columns are left walk them all. -/
def writeRuns (run : Nat) : (steps column left : Nat) → List (Nat × Nat)
  | 0, _, _ => []
  | steps + 1, column, left =>
    if left = 0 then []
    else
      let count := min (run - column % run) left
      (column, count) :: writeRuns run steps (column + count) (left - count)

namespace ImageWrite

variable (upload : ImageWrite)

/-- The texels of a run: one where the level's offset flips bits inside a run. -/
def runTexels : Nat :=
  match upload.destinationSide.runBytes upload.destinationTexelBytes with
  | none => 1
  | some limit =>
    if upload.destinationTexelBytes ≤ limit ∧ upload.destinationSide.tileXor &&& (limit - 1) = 0 then
      limit / upload.destinationTexelBytes
    else 1

def destinationAt (column row : Nat) : Nat :=
  upload.destinationSide.copyAddress column (upload.destinationY + row : Nat)
    upload.destinationTexelBytes 0

def sourceAt (column row : Nat) : Nat :=
  upload.source + row * upload.sourcePitch +
    (column - upload.destinationX) * upload.destinationTexelBytes

/-- The bytes an upload moves. -/
def moves : List Move :=
  (List.range upload.height).flatMap fun row =>
    (writeRuns upload.runTexels upload.width upload.destinationX upload.width).flatMap fun run =>
      runMoves upload.reverseTexelBytes upload.destinationTexelBytes (upload.destinationAt run.1 row)
        (upload.sourceAt run.1 row) (run.2 * upload.destinationTexelBytes)

/-- `ps5vk_image_write_execute`. -/
def imageWriteExecute (memory : Nat → UInt8) : Nat → UInt8 :=
  moveAll upload.moves memory

/-- The bytes of the region moved texel by texel. -/
def texelMoves : List Move :=
  (List.range upload.height).flatMap fun row => (List.range upload.width).flatMap fun column =>
    (List.range upload.destinationTexelBytes).map fun byte =>
      (upload.destinationAt (upload.destinationX + column) row + byte,
        upload.sourceAt (upload.destinationX + column) row +
          sourceByte upload.reverseTexelBytes upload.destinationTexelBytes byte)

end ImageWrite

section Runs

variable {β : Type*} {run : Nat}

/-- The runs are the columns, in order. -/
theorem flatMap_writeRuns (hrun : 0 < run) (g : Nat → List β) (column : Nat) {steps left : Nat}
    (hsteps : left ≤ steps) :
    ((writeRuns run steps column left).flatMap fun part => (List.range part.2).flatMap fun i =>
      g (part.1 + i)) = (List.range left).flatMap fun i => g (column + i) := by
  induction steps generalizing column left with
  | zero =>
    obtain rfl : left = 0 := by omega
    rfl
  | succ steps ih =>
    unfold writeRuns
    split
    · rename_i hzero
      rw [hzero]
      rfl
    · rename_i hleft
      have hmod := Nat.mod_lt column hrun
      generalize hcount : min (run - column % run) left = count
      have hsplit : left = count + (left - count) := by omega
      rw [List.flatMap_cons, ih _ (by omega)]
      conv_rhs => rw [hsplit, List.range_add, List.flatMap_append, List.flatMap_map]
      simp only [Nat.add_assoc]

/-- A run ends at a multiple of a run, and with the columns. -/
theorem writeRuns_inside {steps column left : Nat} {part : Nat × Nat} (hpart : part ∈ writeRuns run steps column left) :
    (0 < run → part.1 % run + part.2 ≤ run) ∧ column ≤ part.1 ∧ part.1 + part.2 ≤ column + left := by
  induction steps generalizing column left with
  | zero => cases hpart
  | succ steps ih =>
    unfold writeRuns at hpart
    split at hpart
    · cases hpart
    · rcases List.mem_cons.1 hpart with rfl | hrest
      · have hmod := Nat.mod_lt (y := run) column
        dsimp only
        omega
      · have hinside := ih hrest
        omega

end Runs

namespace ImageWrite

variable {upload : ImageWrite}

/-- Into a tiled level an upload walks the runs the level keeps. -/
theorem runTexels_level (level : TiledSide) (hside : upload.destinationSide = level.side)
    (hbytes : upload.destinationTexelBytes = level.map.elementBytes) : upload.runTexels = level.run := by
  have hpos : 0 < level.map.elementBytes := by
    rw [← level.tile_alignment]
    exact Nat.two_pow_pos _
  have hrun : 0 < level.run := Nat.two_pow_pos _
  have hlimit : level.run * level.map.elementBytes = 2 ^ (level.tile.alignment + level.tile.runBits) := by
    rw [TiledSide.run, ← level.tile_alignment, Nat.pow_add, Nat.mul_comm]
  have htail : level.tail &&& (level.run * level.map.elementBytes - 1) = 0 := by
    have hdvd : 2 ^ (level.tile.alignment + level.tile.runBits) ∣ 2 ^ 10 :=
      Nat.pow_dvd_pow 2 level.tile_low
    rw [hlimit, and_mask, ← Nat.mod_mod_of_dvd _ hdvd, level.tail_mod, Nat.zero_mod]
  have hle : level.map.elementBytes ≤ level.run * level.map.elementBytes :=
    Nat.le_mul_of_pos_left _ hrun
  simp only [runTexels, hside, hbytes, runBytes_level]
  rw [if_pos ⟨hle, htail⟩, Nat.mul_div_cancel _ hpos]

/-- Where the texels of a run follow each other, an upload moves the bytes it would move texel by
texel. -/
theorem moves_eq_of_follows (hpos : 0 < upload.destinationTexelBytes) (hrun : 0 < upload.runTexels)
    (hfollows : ∀ row < upload.height, ∀ column step, column % upload.runTexels + step < upload.runTexels →
      column + step < upload.destinationX + upload.width → upload.destinationAt (column + step) row =
        upload.destinationAt column row + step * upload.destinationTexelBytes) : upload.moves = upload.texelMoves := by
  unfold moves texelMoves
  apply List.flatMap_congr
  intro row hrow
  have hrow := List.mem_range.1 hrow
  have hcolumns := flatMap_writeRuns hrun (fun column =>
    (List.range upload.destinationTexelBytes).map fun byte =>
      (upload.destinationAt column row + byte, upload.sourceAt column row +
        sourceByte upload.reverseTexelBytes upload.destinationTexelBytes byte))
    upload.destinationX (Nat.le_refl upload.width)
  rw [← hcolumns]
  apply List.flatMap_congr
  intro part hpart
  obtain ⟨hgroup, hlow, hhigh⟩ := writeRuns_inside hpart
  rw [runMoves_eq hpos]
  apply List.flatMap_congr
  intro i hi
  have hi := List.mem_range.1 hi
  -- The texels of a run follow on both sides.
  have hto := hfollows row hrow part.1 i (by omega) (by omega)
  have hfrom : upload.sourceAt part.1 row + i * upload.destinationTexelBytes = upload.sourceAt (part.1 + i) row := by
    rw [sourceAt, sourceAt, Nat.add_assoc, ← Nat.add_mul]
    congr 2
    omega
  simp only [← Nat.add_assoc, hto, hfrom]

variable (level : TiledSide) (hside : upload.destinationSide = level.side)
  (hbytes : upload.destinationTexelBytes = level.map.elementBytes)
  (hx : upload.destinationX + upload.width ≤ 2 ^ 31) (hy : upload.destinationY + upload.height ≤ 2 ^ 31)

include hside hbytes hx hy

/-- An upload into a tiled level moves the bytes it would move texel by texel. -/
theorem moves_eq_texelMoves : upload.moves = upload.texelMoves := by
  have hrun := runTexels_level level hside hbytes
  refine moves_eq_of_follows ?_ ?_ fun row hrow column step hstep hcolumn => ?_
  · rw [hbytes, ← level.tile_alignment]
    exact Nat.two_pow_pos _
  · rw [hrun]
    exact Nat.two_pow_pos _
  · rw [hrun] at hstep
    rw [destinationAt, destinationAt, hside, hbytes, level.copyAddress_eq (by omega) (by omega),
      level.copyAddress_eq (by omega) (by omega), TiledSide.texelAt_add hstep]

/-- An upload lands on the texels of its region alone. -/
theorem exists_texel_of_landsOn {address : Nat} (hlands : LandsOn upload.moves address) :
    ∃ column < upload.width, ∃ row < upload.height, ∃ byte < level.map.elementBytes,
      address = level.texelAt (upload.destinationX + column) (upload.destinationY + row) + byte := by
  rw [moves_eq_texelMoves level hside hbytes hx hy] at hlands
  obtain ⟨move, hmem, rfl⟩ := hlands
  simp only [texelMoves, List.mem_flatMap, List.mem_map, List.mem_range] at hmem
  obtain ⟨row, hrow, column, hcolumn, byte, hbyte, rfl⟩ := hmem
  refine ⟨column, hcolumn, row, hrow, byte, hbytes ▸ hbyte, ?_⟩
  rw [destinationAt, hside, hbytes, level.copyAddress_eq (by omega) (by omega)]

end ImageWrite

end Ps5Vulkan.Image
