import Mathlib.Data.List.ProdSigma
import Ps5Vulkan.Library.MoveLog
import Ps5Vulkan.Image.Sides

/-!
# CPU image copies

`ps5vk_image_copy_execute` walks a region in runs: every row from its first texel on, as many texels
at a time as both sides keep contiguous. A side keeps its texels contiguous in aligned groups, and the
runs are counted from the region's first column, so the copy is the one texel by texel exactly when no
run of a tiled side leaves its group.

## Implementation notes

Memory is bytes by address, and a copy is the log of the bytes it moves. The passes that evict cache
lines move nothing and are left out.
-/

namespace Ps5Vulkan.Image

/-- What `ps5vk_image_copy_pass` reads of a `struct ps5vk_memory_copy`. -/
structure ImageCopy where
  sourceSide : CopySide
  destinationSide : CopySide
  sourceX : Int
  sourceY : Int
  destinationX : Nat
  destinationY : Nat
  width : Nat
  height : Nat
  sourceTexelBytes : Nat
  reverseTexelBytes : Nat
  deriving DecidableEq, Repr

/-- `PS5VK_TILED_RUN_BYTES`. -/
def tiledRunBytes : Nat := 16

/-- `ps5vk_copy_side_run_bytes`. A row layout has no limit. -/
def CopySide.runBytes (side : CopySide) (texelBytes : Nat) : Option Nat :=
  if ¬side.tiled then none
  else if side.depth then some (if side.samples = 4 then texelBytes else 2 * side.elementBytes)
  else some (if side.elementBytes = 1 then 8 else tiledRunBytes)

/-- `MIN2` of two limits. -/
def minLimit : Option Nat → Option Nat → Option Nat
  | none, limit => limit
  | limit, none => limit
  | some a, some b => some (min a b)

/-- The bytes a run moves: as they stand, or every texel's reversed. -/
def runMoves (reverseTexelBytes texelBytes destination source bytes : Nat) : List Move :=
  if reverseTexelBytes = 0 then
    (List.range bytes).map fun byte => (destination + byte, source + byte)
  else
    (List.range (bytes / texelBytes)).flatMap fun texel => (List.range texelBytes).map fun byte =>
      (destination + (texel * texelBytes + byte), source + (texel * texelBytes + (texelBytes - 1 - byte)))

/-- The byte of a source texel that becomes a byte of the destination's. -/
def sourceByte (reverseTexelBytes texelBytes byte : Nat) : Nat :=
  if reverseTexelBytes = 0 then byte else texelBytes - 1 - byte

namespace ImageCopy

variable (copy : ImageCopy)

/-- The texels of a run. -/
def runTexels : Nat :=
  match minLimit (copy.sourceSide.runBytes copy.sourceTexelBytes)
      (copy.destinationSide.runBytes copy.sourceTexelBytes) with
  | none => max copy.width 1
  | some bytes => max (bytes / copy.sourceTexelBytes) 1

/-- Where a texel of the region lies in the source. -/
def sourceAt (column row : Nat) : Nat :=
  copy.sourceSide.copyAddress (copy.sourceX + column) (copy.sourceY + row) copy.sourceTexelBytes 0

/-- Where a texel of the region lies in the destination. -/
def destinationAt (column row : Nat) : Nat :=
  copy.destinationSide.copyAddress (copy.destinationX + column : Nat) (copy.destinationY + row : Nat)
    copy.sourceTexelBytes 0

/-- The bytes `ps5vk_image_copy_pass` moves: in each row the runs, one `runTexels` after the other. -/
def copyMoves : List Move :=
  let texelBytes := copy.sourceTexelBytes
  let rowBytes := copy.width * texelBytes
  let step := copy.runTexels * texelBytes
  (List.range copy.height).flatMap fun row =>
    ((List.range (ceilDiv rowBytes step)).map (· * step)).flatMap fun start =>
      runMoves copy.reverseTexelBytes texelBytes (copy.destinationAt (start / texelBytes) row)
        (copy.sourceAt (start / texelBytes) row) (min (rowBytes - start) step)

/-- `ps5vk_image_copy_execute`. -/
def imageCopyExecute (memory : Nat → UInt8) : Nat → UInt8 :=
  moveAll copy.copyMoves memory

/-- The bytes of the region moved texel by texel. -/
def texelMoves : List Move :=
  (List.range copy.height).flatMap fun row => (List.range copy.width).flatMap fun column =>
    (List.range copy.sourceTexelBytes).map fun byte =>
      (copy.destinationAt column row + byte,
        copy.sourceAt column row + sourceByte copy.reverseTexelBytes copy.sourceTexelBytes byte)

/-- What a copy is for: every texel of the region copied by itself. -/
def copyTexels (memory : Nat → UInt8) : Nat → UInt8 :=
  moveAll copy.texelMoves memory

end ImageCopy

section Runs

variable {β : Type*}

/-- A range by blocks of one length. -/
theorem map_range_mul (g : Nat → β) (count length : Nat) : (List.range (count * length)).map g =
      (List.range count).flatMap fun block => (List.range length).map fun i => g (block * length + i) := by
  induction count with
  | zero => rw [Nat.zero_mul]; rfl
  | succ count ih =>
    rw [Nat.succ_mul, List.range_add, List.map_append, ih, List.range_succ, List.flatMap_append]
    simp

/-- A range by runs, of which the last may be short. -/
theorem flatMap_range_runs (g : Nat → List β) (run total : Nat) (runs : Nat) :
    ((List.range runs).flatMap fun k => (List.range (min (total - k * run) run)).flatMap fun i =>
      g (k * run + i)) = (List.range (min total (runs * run))).flatMap g := by
  induction runs with
  | zero => simp
  | succ runs ih =>
    rw [List.range_succ, List.flatMap_append, ih]
    have hsplit : min total ((runs + 1) * run) = min total (runs * run) + min (total - runs * run) run := by
      rw [Nat.succ_mul]
      omega
    rw [hsplit, List.range_add, List.flatMap_append]
    congr 1
    rcases Nat.le_total total (runs * run) with hle | hle
    · have hnone : min (total - runs * run) run = 0 := by omega
      simp only [List.flatMap_singleton, hnone, List.range_zero, List.map_nil, List.flatMap_nil]
    · rw [Nat.min_eq_right hle]
      simp [List.flatMap_map]

/-- A run's bytes by its texels. -/
theorem runMoves_eq {texelBytes : Nat} (hbytes : 0 < texelBytes) (reverseTexelBytes destination source count : Nat) :
    runMoves reverseTexelBytes texelBytes destination source (count * texelBytes) =
      (List.range count).flatMap fun texel => (List.range texelBytes).map fun byte =>
        (destination + (texel * texelBytes + byte),
          source + (texel * texelBytes + sourceByte reverseTexelBytes texelBytes byte)) := by
  unfold runMoves sourceByte
  split
  · exact map_range_mul _ _ _
  · rw [Nat.mul_div_cancel _ hbytes]

theorem ceilDiv_mul_right {a b c : Nat} (hc : 0 < c) (hb : 0 < b) : ceilDiv (a * c) (b * c) = ceilDiv a b := by
  have hlast : (a * c + b * c - 1) / c = a + b - 1 := by
    have hsplit : a * c + b * c - 1 = c * (a + b - 1) + (c - 1) := by
      have hpos : c ≤ (a + b) * c := Nat.le_mul_of_pos_left c (by omega)
      rw [Nat.mul_sub, Nat.mul_one, Nat.mul_comm c, ← Nat.add_mul]
      omega
    rw [hsplit, Nat.mul_add_div hc, Nat.div_eq_of_lt (by omega), Nat.add_zero]
  rw [ceilDiv, ceilDiv, Nat.mul_comm b c, ← Nat.div_div_eq_div_mul, Nat.mul_comm c b, hlast]

theorem le_ceilDiv_mul (a : Nat) {b : Nat} (hb : 0 < b) : a ≤ ceilDiv a b * b :=
  le_alignTo a hb

end Runs

namespace ImageCopy

variable (copy : ImageCopy)

/-- Where a run starts that holds the column. -/
def runStart (column : Nat) : Nat := column / copy.runTexels * copy.runTexels

theorem runTexels_pos : 0 < copy.runTexels := by
  unfold runTexels
  split
  · omega
  · omega

/-- How a byte of a texel moves in the run that holds its column. -/
def runMove (row column byte : Nat) : Move :=
  (copy.destinationAt (copy.runStart column) row +
      ((column - copy.runStart column) * copy.sourceTexelBytes + byte),
    copy.sourceAt (copy.runStart column) row + ((column - copy.runStart column) *
      copy.sourceTexelBytes + sourceByte copy.reverseTexelBytes copy.sourceTexelBytes byte))

/-- The bytes the runs move, by the texel they belong to. -/
theorem copyMoves_eq (hbytes : 0 < copy.sourceTexelBytes) :
    copy.copyMoves = (List.range copy.height).flatMap fun row => (List.range copy.width).flatMap
      fun column => (List.range copy.sourceTexelBytes).map (copy.runMove row column) := by
  have hrun := copy.runTexels_pos
  unfold copyMoves
  dsimp only
  apply List.flatMap_congr
  intro row _
  rw [List.flatMap_map, ceilDiv_mul_right hbytes hrun]
  have htotal : min copy.width (ceilDiv copy.width copy.runTexels * copy.runTexels) = copy.width :=
    Nat.min_eq_left (le_ceilDiv_mul _ hrun)
  have hruns := flatMap_range_runs
    (fun column => (List.range copy.sourceTexelBytes).map (copy.runMove row column)) copy.runTexels
    copy.width (ceilDiv copy.width copy.runTexels)
  rw [htotal] at hruns
  rw [← hruns]
  apply List.flatMap_congr
  intro k _
  have hstart : k * (copy.runTexels * copy.sourceTexelBytes) / copy.sourceTexelBytes = k * copy.runTexels := by
    rw [← Nat.mul_assoc, Nat.mul_div_cancel _ hbytes]
  have hcount : min (copy.width * copy.sourceTexelBytes -
        k * (copy.runTexels * copy.sourceTexelBytes)) (copy.runTexels * copy.sourceTexelBytes) =
      min (copy.width - k * copy.runTexels) copy.runTexels * copy.sourceTexelBytes := by
    rw [← Nat.mul_assoc, ← Nat.sub_mul, Nat.mul_min_mul_right]
  rw [hstart, hcount, runMoves_eq hbytes]
  apply List.flatMap_congr
  intro i hi
  have hlt : i < copy.runTexels := by
    have := List.mem_range.1 hi
    omega
  have hcolumn : copy.runStart (k * copy.runTexels + i) = k * copy.runTexels := by
    rw [runStart, Nat.mul_comm k, Nat.mul_add_div hrun, Nat.div_eq_of_lt hlt, Nat.add_zero, Nat.mul_comm]
  unfold runMove
  rw [hcolumn, Nat.add_sub_cancel_left]

end ImageCopy

/-- The side of a buffer's rows. -/
def bufferSide (address rowPitch : Nat) : CopySide where
  address := address
  rowPitch := rowPitch
  levelWidth := 0
  tileXor := 0
  tileWidth := 0
  tileHeight := 0
  elementBytes := 0
  samples := 0
  depth := false
  tiled := false

/-- The extent a level is stored with. -/
def ImageInfo.storedWidth (info : ImageInfo) (level : Nat) : Nat :=
  if info.tiled then info.levelWidth level else info.rowWidth level

def ImageInfo.storedHeight (info : ImageInfo) (level : Nat) : Nat :=
  if info.tiled then info.levelHeight level else info.rowHeight level

/-- The sides of a copy, with the extent they hold: a level of a one-sample image, or a buffer's rows,
whose coordinates are numbers of `int32_t`. -/
inductive SideOf (texelBytes : Nat) : CopySide → (width height : Nat) → Prop
  | image (image : BoundImage) (sub : Subresource) {side : CopySide}
      (hside : image.copySide sub = some (texelBytes, side)) (hone : image.samples = 1)
      (hlevel : sub.mipLevel < image.mipLevels) :
      SideOf texelBytes side (image.storedWidth sub.mipLevel) (image.storedHeight sub.mipLevel)
  | buffer (address rowLength height : Nat) (htexel : 0 < texelBytes) (hlength : rowLength ≤ 2 ^ 31)
      (hheight : height ≤ 2 ^ 31) :
      SideOf texelBytes (bufferSide address (rowLength * texelBytes)) rowLength height

section Sides

variable {texelBytes width height : Nat} {side : CopySide}

theorem ceilDiv_le (a : Nat) {b : Nat} (hb : 0 < b) : ceilDiv a b ≤ a := by
  have hmul : a * 1 ≤ a * b := Nat.mul_le_mul_left _ hb
  rw [ceilDiv, ← Nat.lt_succ_iff, Nat.div_lt_iff_lt_mul hb, Nat.succ_mul]
  omega

theorem ImageInfo.storedWidth_le (info : ImageInfo) (level : Nat) : info.storedWidth level ≤ maxExtent2D := by
  have hrow := ceilDiv_le info.width (Nat.two_pow_pos level)
  have hwidth := info.width_le
  have hpos := info.width_pos
  unfold ImageInfo.storedWidth
  split
  · exact info.levelWidth_le level
  · unfold ImageInfo.rowWidth
    omega

theorem ImageInfo.storedHeight_le (info : ImageInfo) (level : Nat) : info.storedHeight level ≤ maxExtent2D := by
  have hshift : info.height >>> level ≤ info.height := Nat.shiftRight_le _ _
  have hrow := ceilDiv_le info.height (Nat.two_pow_pos level)
  have hheight := info.height_le
  have hpos := info.height_pos
  unfold ImageInfo.storedHeight ImageInfo.levelHeight ImageInfo.rowHeight
  split
  · omega
  · omega

/-- A side is a tiled level, or rows that hold the width. -/
theorem SideOf.cases (h : SideOf texelBytes side width height) : width ≤ 2 ^ 31 ∧ height ≤ 2 ^ 31 ∧
      ((∃ level : TiledSide, side = level.side ∧ texelBytes = level.map.elementBytes ∧ width = level.levelWidth) ∨
      (side.tiled = false ∧ 0 < texelBytes ∧ width * texelBytes ≤ side.rowPitch)) := by
  cases h with
  | image image sub hside hone hlevel =>
    have hwidth := image.storedWidth_le sub.mipLevel
    have hheight := image.storedHeight_le sub.mipLevel
    simp only [maxExtent2D] at hwidth hheight
    refine ⟨by omega, by omega, ?_⟩
    obtain ⟨plane, -, -, -, -, hcases⟩ := copySide_cases hside
    rcases copySide_one hside hone hlevel with ⟨level, rfl, hbytes, hlevelWidth⟩ |
      ⟨htiled, hpos, hrows, hpitch⟩
    · left
      refine ⟨level, rfl, hbytes, ?_⟩
      have htiled : image.tiled = true := by
        rcases hcases with ⟨h, -⟩ | ⟨h, -⟩ | ⟨-, -, h, -⟩
        · exact h
        · exact h
        · cases h
      rw [ImageInfo.storedWidth, if_pos htiled, hlevelWidth]
    · right
      refine ⟨hrows, hpos, ?_⟩
      rwa [ImageInfo.storedWidth, htiled, if_neg Bool.false_ne_true]
  | buffer address rowLength height htexel hlength hheight =>
    exact ⟨hlength, hheight, .inr ⟨rfl, htexel, Nat.le_refl _⟩⟩

theorem SideOf.texelBytes_pos (h : SideOf texelBytes side width height) : 0 < texelBytes := by
  rcases h.cases.2.2 with ⟨level, -, rfl, -⟩ | ⟨-, hpos, -⟩
  · rw [← level.tile_alignment]
    exact Nat.two_pow_pos _
  · exact hpos

theorem toU64_natCast {n : Nat} (h : n < 2 ^ 64) : toU64 n = n := by
  have hmod : (n : Int) % 2 ^ 64 = n := Int.emod_eq_of_lt (by omega) (by omega)
  rw [toU64, hmod, Int.toNat_natCast]

/-- A row layout's texels follow one another. -/
theorem copyAddress_rows (hrows : side.tiled = false) {x y : Nat} (hx : x < 2 ^ 31) (hy : y < 2 ^ 31) :
    side.copyAddress x y texelBytes 0 = side.address + y * side.rowPitch + x * texelBytes := by
  rw [CopySide.copyAddress, hrows, if_neg Bool.false_ne_true, toU64_natCast (by omega),
    toU64_natCast (by omega)]

/-- No two texels of a side share a byte. -/
theorem SideOf.copyAddress_inj (h : SideOf texelBytes side width height) {x y x' y' byte byte' : Nat}
    (hx : x < width) (hy : y < height) (hx' : x' < width) (hy' : y' < height)
    (hbyte : byte < texelBytes) (hbyte' : byte' < texelBytes)
    (heq : side.copyAddress x y texelBytes 0 + byte = side.copyAddress x' y' texelBytes 0 + byte') :
    x = x' ∧ y = y' ∧ byte = byte' := by
  obtain ⟨hwidth, hheight, ⟨level, rfl, rfl, rfl⟩ | ⟨hrows, hpos, hpitch⟩⟩ := h.cases
  · rw [level.copyAddress_eq (by omega) (by omega), level.copyAddress_eq (by omega) (by omega)] at heq
    exact TiledSide.texelAt_inj hx hx' hbyte hbyte' heq
  · rw [copyAddress_rows hrows (by omega) (by omega), copyAddress_rows hrows (by omega) (by omega)] at heq
    -- A row's texels end before the next row.
    have hrow : ∀ {a b}, a < width → b < texelBytes → a * texelBytes + b < side.rowPitch := by
      intro a b ha hb
      calc a * texelBytes + b < a * texelBytes + texelBytes := by omega
        _ = (a + 1) * texelBytes := by rw [Nat.add_mul, Nat.one_mul]
        _ ≤ width * texelBytes := Nat.mul_le_mul_right _ ha
        _ ≤ side.rowPitch := hpitch
    rw [Nat.add_assoc, Nat.add_assoc, Nat.add_assoc, Nat.add_assoc] at heq
    obtain ⟨hys, hinside⟩ :=
      TileLayout.mul_add_inj (hrow hx hbyte) (hrow hx' hbyte') (Nat.add_left_cancel heq)
    obtain ⟨hxs, hbytes⟩ := TileLayout.mul_add_inj hbyte hbyte' hinside
    exact ⟨hxs, hys, hbytes⟩

/-- The runs of a region stay in the groups its side keeps: they start at a multiple of a run, or the
region is inside one group. -/
def CopySide.RunsAligned (side : CopySide) (texelBytes run x width : Nat) : Prop :=
  match side.runBytes texelBytes with
  | none => True
  | some bytes => x % run = 0 ∨ x % (bytes / texelBytes) + width ≤ bytes / texelBytes

theorem runBytes_level (level : TiledSide) :
    level.side.runBytes level.map.elementBytes = some (level.run * level.map.elementBytes) := by
  obtain ⟨map, one, address, levelWidth, tail, -, -, -⟩ := level
  cases map with
  | fourDepth | fourColour => cases one
  | _ => rfl

theorem runsAligned_level (level : TiledSide) (run x width : Nat) :
    level.side.RunsAligned level.map.elementBytes run x width ↔ x % run = 0 ∨ x % level.run + width ≤ level.run := by
  have hpos : 0 < level.map.elementBytes := by
    rw [← level.tile_alignment]
    exact Nat.two_pow_pos _
  simp only [CopySide.RunsAligned, runBytes_level, Nat.mul_div_cancel _ hpos]

/-- Aligned runs stay in their group. -/
theorem mod_add_lt_of_aligned {x column run group : Nat} (hdvd : run ∣ group) (hrun : 0 < run)
    (hgroup : 0 < group) (haligned : x % run = 0 ∨ x % group + width ≤ group) (hcolumn : column < width) :
    (x + column / run * run) % group + (column - column / run * run) < group := by
  have hsplit := Nat.div_add_mod column run
  have hstep := Nat.mod_lt column hrun
  rw [Nat.mul_comm] at hsplit
  rcases haligned with hstart | hinside
  · obtain ⟨count, rfl⟩ := hdvd
    have hmultiple : run ∣ (x + column / run * run) % (run * count) :=
      (Nat.dvd_mod_iff (Dvd.intro _ rfl)).2
        (Nat.dvd_add (Nat.dvd_of_mod_eq_zero hstart) (Nat.dvd_mul_left _ _))
    have hroom := TileLayout.add_le_of_dvd hmultiple (Dvd.intro _ rfl) (Nat.mod_lt _ hgroup)
    omega
  · have hmod : (x + column / run * run) % group = x % group + column / run * run := by
      rw [Nat.add_mod, Nat.mod_eq_of_lt (by omega : column / run * run < group),
        Nat.mod_eq_of_lt (by omega)]
    omega

/-- Where the runs of a region are aligned, each texel of a run lies where the run puts it. -/
theorem SideOf.follows (h : SideOf texelBytes side width height) {run x count : Nat} (hrun : 0 < run)
    (hdvd : ∀ level : TiledSide, side = level.side → texelBytes = level.map.elementBytes → run ∣ level.run)
    (haligned : side.RunsAligned texelBytes run x count) (hinside : x + count ≤ width) {column y : Nat}
    (hcolumn : column < count) (hy : y < height) : side.copyAddress (x + column / run * run : Nat) y texelBytes 0 +
        (column - column / run * run) * texelBytes = side.copyAddress (x + column : Nat) y texelBytes 0 := by
  have hle : column / run * run ≤ column := Nat.div_mul_le_self _ _
  obtain ⟨hwidth, hheight, ⟨level, rfl, rfl, rfl⟩ | ⟨hrows, hpos, -⟩⟩ := h.cases
  · rw [level.copyAddress_eq (by omega) (by omega), level.copyAddress_eq (by omega) (by omega),
      ← TiledSide.texelAt_add (mod_add_lt_of_aligned (hdvd level rfl rfl) hrun (Nat.two_pow_pos _)
        ((runsAligned_level level run x count).1 haligned) hcolumn)]
    congr 1
    omega
  · rw [copyAddress_rows hrows (by omega) (by omega), copyAddress_rows hrows (by omega) (by omega),
      Nat.add_assoc, ← Nat.add_mul]
    congr 2
    omega

/-- Where they are not, the run that reaches the first column of the next group puts it past its own
group. -/
theorem TiledSide.exists_run_beyond (level : TiledSide) {run x count : Nat} (hdvd : run ∣ level.run)
    (hnot : ¬(x % run = 0 ∨ x % level.run + count ≤ level.run)) :
    x % level.run ≠ 0 ∧ ∃ column < count, ∀ y, level.texelAt (x + column / run * run) y +
        (column - column / run * run) * level.map.elementBytes = level.beyond x y := by
  obtain ⟨hstart, hcross⟩ := not_or.1 hnot
  have hgroup : 0 < level.run := Nat.two_pow_pos _
  have hmod := Nat.mod_lt x hgroup
  have hdivmod := Nat.div_add_mod x level.run
  have hne : x % level.run ≠ 0 := by
    intro hzero
    apply hstart
    rw [← Nat.mod_mod_of_dvd x hdvd, hzero, Nat.zero_mod]
  refine ⟨hne, level.run - x % level.run, by omega, fun y => ?_⟩
  generalize hcolumn : level.run - x % level.run = column
  -- The run starts inside the group, since the group's end is no multiple of a run away.
  have hinside : column / run * run < column := by
    have hle : column / run * run ≤ column := Nat.div_mul_le_self _ _
    have hneq : column / run * run ≠ column := by
      intro heq
      apply hstart
      have hend : run ∣ x + column := by
        have hsum : x + column = level.run * (x / level.run + 1) := by
          rw [Nat.mul_add]
          omega
        rw [hsum]
        exact Dvd.dvd.mul_right hdvd _
      have hcolumnDvd : run ∣ column := ⟨column / run, by rw [Nat.mul_comm]; exact heq.symm⟩
      exact Nat.mod_eq_zero_of_dvd ((Nat.dvd_add_iff_left hcolumnDvd).2 hend)
    omega
  generalize column / run * run = start at hinside
  have hbase : x + start = x / level.run * level.run + (x % level.run + start) := by
    rw [Nat.mul_comm]
    omega
  have hzero : x / level.run * level.run % level.run = 0 := Nat.mul_mod_left _ _
  rw [hbase, TiledSide.texelAt_add (by rw [hzero]; omega), TiledSide.beyond_eq, Nat.add_assoc,
    ← Nat.add_mul]
  congr 2
  omega

/-- Only a tiled level has runs that are not aligned. -/
theorem SideOf.level_of_not_aligned (h : SideOf texelBytes side width height) {run x count : Nat}
    (hnot : ¬side.RunsAligned texelBytes run x count) :
    ∃ level : TiledSide, side = level.side ∧ texelBytes = level.map.elementBytes ∧
      width = level.levelWidth ∧ ¬(x % run = 0 ∨ x % level.run + count ≤ level.run) := by
  rcases h.cases.2.2 with ⟨level, rfl, rfl, hwidth⟩ | ⟨hrows, -, -⟩
  · exact ⟨level, rfl, rfl, hwidth, fun haligned =>
      hnot ((runsAligned_level level run x count).2 haligned)⟩
  · have hnone : side.runBytes texelBytes = none := by
      rw [CopySide.runBytes, hrows]
      rfl
    exact absurd (by rw [CopySide.RunsAligned, hnone]; trivial) hnot

/-- A side's limit is none, or a power of two of texels. -/
theorem SideOf.runBytes_cases (h : SideOf texelBytes side width height) :
    side.runBytes texelBytes = none ∨ ∃ bits, side.runBytes texelBytes = some (2 ^ bits * texelBytes) := by
  rcases h.cases.2.2 with ⟨level, rfl, rfl, -⟩ | ⟨hrows, -, -⟩
  · exact .inr ⟨level.tile.runBits, runBytes_level level⟩
  · left
    rw [CopySide.runBytes, hrows]
    rfl

end Sides

namespace ImageCopy

variable {copy : ImageCopy} {sourceWidth sourceHeight destinationWidth destinationHeight : Nat}

/-- The region lies inside the levels of its two sides. -/
structure Inside (copy : ImageCopy) (sourceWidth sourceHeight destinationWidth destinationHeight : Nat) :
    Prop where
  sourceX : 0 ≤ copy.sourceX ∧ copy.sourceX + copy.width ≤ sourceWidth
  sourceY : 0 ≤ copy.sourceY ∧ copy.sourceY + copy.height ≤ sourceHeight
  destinationX : copy.destinationX + copy.width ≤ destinationWidth
  destinationY : copy.destinationY + copy.height ≤ destinationHeight

/-- The runs of the copy stay in the groups of both sides. -/
def RunsAligned (copy : ImageCopy) : Prop :=
  copy.sourceSide.RunsAligned copy.sourceTexelBytes copy.runTexels copy.sourceX.toNat copy.width ∧
    copy.destinationSide.RunsAligned copy.sourceTexelBytes copy.runTexels copy.destinationX copy.width

section Region

variable (hsource : SideOf copy.sourceTexelBytes copy.sourceSide sourceWidth sourceHeight)
  (hdestination :
    SideOf copy.sourceTexelBytes copy.destinationSide destinationWidth destinationHeight)

include hsource hdestination

/-- A run divides the group of a tiled side. -/
theorem runTexels_dvd (level : TiledSide) (hside : copy.sourceSide = level.side ∨ copy.destinationSide = level.side)
    (hbytes : copy.sourceTexelBytes = level.map.elementBytes) : copy.runTexels ∣ level.run := by
  have hpos := hsource.texelBytes_pos
  have hlevel := runBytes_level level
  rw [← hbytes] at hlevel
  have hmin : ∀ {a b : Nat}, max (min (2 ^ a * copy.sourceTexelBytes) (2 ^ b * copy.sourceTexelBytes) /
      copy.sourceTexelBytes) 1 = 2 ^ min a b := by
    intro a b
    rw [Nat.mul_min_mul_right, Nat.mul_div_cancel _ hpos]
    rcases Nat.le_total a b with hab | hab
    · have hpow := Nat.pow_le_pow_right (by decide : 0 < 2) hab
      rw [Nat.min_eq_left hpow, Nat.min_eq_left hab]
      exact Nat.max_eq_left Nat.one_le_two_pow
    · have hpow := Nat.pow_le_pow_right (by decide : 0 < 2) hab
      rw [Nat.min_eq_right hpow, Nat.min_eq_right hab]
      exact Nat.max_eq_left Nat.one_le_two_pow
  have hone : ∀ {a : Nat}, max (2 ^ a * copy.sourceTexelBytes / copy.sourceTexelBytes) 1 = 2 ^ a := by
    intro a
    rw [Nat.mul_div_cancel _ hpos]
    exact Nat.max_eq_left Nat.one_le_two_pow
  unfold runTexels
  rcases hside with hside | hside <;> rw [hside, hlevel]
  · rcases hdestination.runBytes_cases with hother | ⟨bits, hother⟩ <;>
      simp only [hother, minLimit, TiledSide.run, hone, hmin, Nat.dvd_refl]
    exact Nat.pow_dvd_pow 2 (Nat.min_le_left _ _)
  · rcases hsource.runBytes_cases with hother | ⟨bits, hother⟩ <;>
      simp only [hother, minLimit, TiledSide.run, hone, hmin, Nat.dvd_refl]
    exact Nat.pow_dvd_pow 2 (Nat.min_le_right _ _)

variable (hinside : copy.Inside sourceWidth sourceHeight destinationWidth destinationHeight)

include hinside

omit hsource hdestination in
theorem sourceAt_eq (column row : Nat) :
    copy.sourceAt column row = copy.sourceSide.copyAddress (copy.sourceX.toNat + column : Nat)
      (copy.sourceY.toNat + row : Nat) copy.sourceTexelBytes 0 := by
  rw [sourceAt, Nat.cast_add, Nat.cast_add, Int.toNat_of_nonneg hinside.sourceX.1,
    Int.toNat_of_nonneg hinside.sourceY.1]

/-- With aligned runs the destination's texels follow. -/
theorem destinationAt_follows (haligned : copy.destinationSide.RunsAligned copy.sourceTexelBytes copy.runTexels
      copy.destinationX copy.width) {column row : Nat} (hcolumn : column < copy.width)
    (hrow : row < copy.height) : copy.destinationAt (copy.runStart column) row +
        (column - copy.runStart column) * copy.sourceTexelBytes = copy.destinationAt column row := by
  have hy := hinside.destinationY
  exact hdestination.follows copy.runTexels_pos
    (fun level hside => runTexels_dvd hsource hdestination level (.inr hside)) haligned
    hinside.destinationX hcolumn (by omega)

/-- With aligned runs the source's texels follow. -/
theorem sourceAt_follows (haligned : copy.sourceSide.RunsAligned copy.sourceTexelBytes copy.runTexels
      copy.sourceX.toNat copy.width) {column row : Nat} (hcolumn : column < copy.width)
    (hrow : row < copy.height) : copy.sourceAt (copy.runStart column) row +
        (column - copy.runStart column) * copy.sourceTexelBytes = copy.sourceAt column row := by
  obtain ⟨hx, hxle⟩ := hinside.sourceX
  obtain ⟨hy, hyle⟩ := hinside.sourceY
  rw [sourceAt_eq hinside, sourceAt_eq hinside]
  exact hsource.follows copy.runTexels_pos
    (fun level hside => runTexels_dvd hsource hdestination level (.inl hside)) haligned
    (by omega) hcolumn (by omega)

/-- With aligned runs the copy moves the bytes it would move texel by texel. -/
theorem copyMoves_eq_texelMoves (haligned : copy.RunsAligned) : copy.copyMoves = copy.texelMoves := by
  rw [copyMoves_eq copy hsource.texelBytes_pos, texelMoves]
  apply List.flatMap_congr
  intro row hrow
  apply List.flatMap_congr
  intro column hcolumn
  have hfrom := sourceAt_follows hsource hdestination hinside haligned.1 (List.mem_range.1 hcolumn)
    (List.mem_range.1 hrow)
  have hto := destinationAt_follows hsource hdestination hinside haligned.2 (List.mem_range.1 hcolumn)
    (List.mem_range.1 hrow)
  unfold runMove
  simp only [← Nat.add_assoc, hfrom, hto]

end Region

section Moves

theorem mem_texelMoves {move : Move} : move ∈ copy.texelMoves ↔ ∃ row < copy.height, ∃ column < copy.width,
      ∃ byte < copy.sourceTexelBytes, (copy.destinationAt column row + byte,
        copy.sourceAt column row + sourceByte copy.reverseTexelBytes copy.sourceTexelBytes byte) = move := by
  simp only [texelMoves, List.mem_flatMap, List.mem_map, List.mem_range]

theorem mem_copyMoves (hbytes : 0 < copy.sourceTexelBytes) {row column byte : Nat}
    (hrow : row < copy.height) (hcolumn : column < copy.width) (hbyte : byte < copy.sourceTexelBytes) :
    copy.runMove row column byte ∈ copy.copyMoves := by
  rw [copyMoves_eq copy hbytes]
  simp only [List.mem_flatMap, List.mem_map, List.mem_range]
  exact ⟨row, hrow, column, hcolumn, byte, hbyte, rfl⟩

/-- The bytes of the region in the destination, each moved to once. -/
theorem texelMoves_nodup (hdestination :
      SideOf copy.sourceTexelBytes copy.destinationSide destinationWidth destinationHeight)
    (hinside : copy.Inside sourceWidth sourceHeight destinationWidth destinationHeight) :
    (copy.texelMoves.map Prod.fst).Nodup := by
  have hproduct : copy.texelMoves.map Prod.fst =
      (List.range copy.height ×ˢ List.range copy.width ×ˢ List.range copy.sourceTexelBytes).map
        fun place => copy.destinationAt place.2.1 place.1 + place.2.2 := by
    simp only [texelMoves, SProd.sprod, List.product, List.map_flatMap, List.map_map]
    rfl
  rw [hproduct]
  apply List.Nodup.map_on
  · rintro ⟨row, column, byte⟩ hplace ⟨row', column', byte'⟩ hplace' heq
    simp only [List.mem_product, List.mem_range] at hplace hplace'
    dsimp only at heq
    have hx := hinside.destinationX
    have hy := hinside.destinationY
    obtain ⟨hcolumn, hrow, hbyte⟩ := hdestination.copyAddress_inj (by omega) (by omega) (by omega)
      (by omega) hplace.2.2 hplace'.2.2 heq
    simp only [Prod.mk.injEq]
    omega
  · exact List.nodup_range.product (List.nodup_range.product List.nodup_range)

end Moves

section Misaligned

instance : Nontrivial UInt8 := ⟨0, 1, by decide⟩

variable (hsource : SideOf copy.sourceTexelBytes copy.sourceSide sourceWidth sourceHeight)
  (hdestination :
    SideOf copy.sourceTexelBytes copy.destinationSide destinationWidth destinationHeight)
  (hinside : copy.Inside sourceWidth sourceHeight destinationWidth destinationHeight)
  (hapart : ReadsApart (copy.copyMoves ++ copy.texelMoves))

include hsource hdestination hinside hapart

omit hsource hdestination hinside in
theorem copyMoves_readsApart : ReadsApart copy.copyMoves :=
  fun move hmem ⟨other, hother, heq⟩ =>
    hapart move (List.mem_append_left _ hmem) ⟨other, List.mem_append_left _ hother, heq⟩

omit hsource hdestination hinside in
theorem texelMoves_readsApart : ReadsApart copy.texelMoves :=
  fun move hmem ⟨other, hother, heq⟩ =>
    hapart move (List.mem_append_right _ hmem) ⟨other, List.mem_append_right _ hother, heq⟩

/-- A run that leaves its group of the destination writes where no texel of the region lies. -/
theorem exists_ne_of_destination_not_aligned (hheight : 0 < copy.height)
    (hnot : ¬copy.destinationSide.RunsAligned copy.sourceTexelBytes copy.runTexels copy.destinationX copy.width) :
    ∃ memory, copy.imageCopyExecute memory ≠ copy.copyTexels memory := by
  have hpos := hsource.texelBytes_pos
  have hx := hinside.destinationX
  have hy := hinside.destinationY
  obtain ⟨hwidthLe, hheightLe, -⟩ := hdestination.cases
  obtain ⟨level, hside, hbytes, hwidth, hmisaligned⟩ := hdestination.level_of_not_aligned hnot
  obtain ⟨hgroup, column, hcolumn, hbeyond⟩ := level.exists_run_beyond
    (runTexels_dvd hsource hdestination level (.inr hside) hbytes) hmisaligned
  have haddress : ∀ {column row}, column < copy.width → row < copy.height → copy.destinationAt column row =
        level.texelAt (copy.destinationX + column) (copy.destinationY + row) := by
    intro column row hcolumn hrow
    rw [destinationAt, hside, hbytes, level.copyAddress_eq (by omega) (by omega)]
  obtain ⟨row, hrow, houtside⟩ :=
    TiledSide.exists_beyond_outside hgroup (by omega) hheight copy.destinationY
  apply (copyMoves_readsApart hapart).exists_moveAll_ne_of_landsOn
    (level.beyond copy.destinationX (copy.destinationY + row))
  · refine ⟨_, mem_copyMoves hpos hrow hcolumn hpos, ?_⟩
    have hstart : copy.runStart column < copy.width :=
      Nat.lt_of_le_of_lt (Nat.div_mul_le_self _ _) hcolumn
    rw [runMove, Nat.add_zero, haddress hstart hrow, hbytes]
    exact hbeyond _
  · rintro ⟨move, hmem, hmove⟩
    obtain ⟨row', hrow', column', hcolumn', byte, hbyte, rfl⟩ := mem_texelMoves.1 hmem
    rw [hbytes] at hbyte
    apply houtside (copy.destinationX + column') (copy.destinationY + row') byte (by omega) (by omega)
      (by omega) (by omega) hbyte
    rw [← haddress hcolumn' hrow']
    exact hmove.symm

/-- A run that leaves its group of the source reads where its texel does not lie. -/
theorem exists_ne_of_source_not_aligned (hheight : 0 < copy.height)
    (hnot : ¬copy.sourceSide.RunsAligned copy.sourceTexelBytes copy.runTexels copy.sourceX.toNat copy.width)
    (haligned : copy.destinationSide.RunsAligned copy.sourceTexelBytes copy.runTexels
      copy.destinationX copy.width) : ∃ memory, copy.imageCopyExecute memory ≠ copy.copyTexels memory := by
  have hpos := hsource.texelBytes_pos
  obtain ⟨hx, hxle⟩ := hinside.sourceX
  obtain ⟨hy, hyle⟩ := hinside.sourceY
  obtain ⟨hwidthLe, hheightLe, -⟩ := hsource.cases
  obtain ⟨level, hside, hbytes, hwidth, hmisaligned⟩ := hsource.level_of_not_aligned hnot
  obtain ⟨hgroup, column, hcolumn, hbeyond⟩ := level.exists_run_beyond
    (runTexels_dvd hsource hdestination level (.inl hside) hbytes) hmisaligned
  have hstart : copy.runStart column < copy.width :=
    Nat.lt_of_le_of_lt (Nat.div_mul_le_self _ _) hcolumn
  have haddress : ∀ {column}, column < copy.width →
      copy.sourceAt column 0 = level.texelAt (copy.sourceX.toNat + column) copy.sourceY.toNat := by
    intro column hcolumn
    rw [sourceAt_eq hinside, hside, hbytes, level.copyAddress_eq (by omega) (by omega), Nat.add_zero]
  have hfollows : ∀ row < copy.height, ∀ column < copy.width, copy.destinationAt (copy.runStart column) row +
        (column - copy.runStart column) * copy.sourceTexelBytes = copy.destinationAt column row :=
    fun row hrow column hcolumn =>
      destinationAt_follows hsource hdestination hinside haligned hcolumn hrow
  -- The destinations are the same, in the same order.
  have hfst : copy.copyMoves.map Prod.fst = copy.texelMoves.map Prod.fst := by
    rw [copyMoves_eq copy hpos, texelMoves, List.map_flatMap, List.map_flatMap]
    apply List.flatMap_congr
    intro row hrow
    rw [List.map_flatMap, List.map_flatMap]
    apply List.flatMap_congr
    intro column hcolumn
    simp only [List.map_map, Function.comp_def, runMove, ← Nat.add_assoc,
      hfollows row (List.mem_range.1 hrow) column (List.mem_range.1 hcolumn)]
  have hnodup := texelMoves_nodup hdestination hinside
  have hmem := mem_copyMoves hpos hheight hcolumn hpos
  rw [runMove, ← Nat.add_assoc, hfollows 0 hheight column hcolumn, ← Nat.add_assoc, haddress hstart, hbytes,
    runStart, hbeyond] at hmem
  apply (copyMoves_readsApart hapart).exists_moveAll_ne_of_sources (texelMoves_readsApart hapart)
    (hfst ▸ hnodup) hnodup hmem (mem_texelMoves.2 ⟨0, hheight, column, hcolumn, 0, hpos, rfl⟩)
  rw [haddress hcolumn, hbytes]
  intro heq
  exact TiledSide.beyond_ne hgroup _ _ (Nat.add_right_cancel heq)

/-- A copy in runs is the copy texel by texel exactly when it is empty of rows or its runs stay in the
groups of both sides. -/
theorem imageCopyExecute_eq_copyTexels_iff :
    (∀ memory, copy.imageCopyExecute memory = copy.copyTexels memory) ↔
      copy.height = 0 ∨ copy.RunsAligned := by
  constructor
  · intro hequal
    by_contra hnot
    obtain ⟨hheight, hruns⟩ := not_or.1 hnot
    have hrows : 0 < copy.height := Nat.pos_of_ne_zero hheight
    obtain ⟨memory, hne⟩ : ∃ memory, copy.imageCopyExecute memory ≠ copy.copyTexels memory := by
      by_cases hdestinationAligned : copy.destinationSide.RunsAligned copy.sourceTexelBytes
          copy.runTexels copy.destinationX copy.width
      · exact exists_ne_of_source_not_aligned hsource hdestination hinside hapart hrows
          (fun hsourceAligned => hruns ⟨hsourceAligned, hdestinationAligned⟩) hdestinationAligned
      · exact exists_ne_of_destination_not_aligned hsource hdestination hinside hapart hrows
          hdestinationAligned
    exact hne (hequal memory)
  · rintro (hheight | haligned) memory
    · simp only [imageCopyExecute, copyTexels, copyMoves, texelMoves, hheight, List.range_zero,
        List.flatMap_nil]
    · rw [imageCopyExecute, copyTexels, copyMoves_eq_texelMoves hsource hdestination hinside haligned]

end Misaligned

end ImageCopy

section Readback

/-- A single-level 64x64 colour target of four-byte texels. -/
def colourTarget : BoundImage :=
  ⟨.ofShape (.colour 37 4) 64 64 1 1 1 true false (by decide), 0x200000⟩

/-- The readback of four texels of the target's first row, from a column on, into a buffer. -/
def readbackFrom (column : Nat) : ImageCopy where
  sourceSide := CpuMap.colour4.side 0x200000 64
  destinationSide := bufferSide 0x100000 (4 * 4)
  sourceX := column
  sourceY := 0
  destinationX := 0
  destinationY := 0
  width := 4
  height := 1
  sourceTexelBytes := 4
  reverseTexelBytes := 0

theorem readbackFrom_source (column : Nat) :
    SideOf (readbackFrom column).sourceTexelBytes (readbackFrom column).sourceSide 64 64 :=
  .image colourTarget ⟨.colour, 0, 0⟩ rfl rfl (by decide)

theorem readbackFrom_destination (column : Nat) :
    SideOf (readbackFrom column).sourceTexelBytes (readbackFrom column).destinationSide 4 1 :=
  .buffer 0x100000 4 1 (Nat.succ_pos 3) (by decide) (by decide)

theorem imageCopyExecute_readbackFrom_four :
    ReadsApart ((readbackFrom 4).copyMoves ++ (readbackFrom 4).texelMoves) ∧
      ∀ memory, (readbackFrom 4).imageCopyExecute memory = (readbackFrom 4).copyTexels memory := by
  have hapart : ReadsApart ((readbackFrom 4).copyMoves ++ (readbackFrom 4).texelMoves) := by
    decide +kernel
  exact ⟨hapart, (ImageCopy.imageCopyExecute_eq_copyTexels_iff (readbackFrom_source 4)
    (readbackFrom_destination 4) ⟨by decide, by decide, by decide, by decide⟩ hapart).2
    (.inr ⟨.inl rfl, trivial⟩)⟩

/-- From column one a run of four texels leaves its group after three: the buffer's last texel is that
of the row below. -/
theorem readbackFrom_one_not_texelExact :
    SideOf 4 (readbackFrom 1).sourceSide 64 64 ∧ SideOf 4 (readbackFrom 1).destinationSide 4 1 ∧
      (readbackFrom 1).Inside 64 64 4 1 ∧
      ReadsApart ((readbackFrom 1).copyMoves ++ (readbackFrom 1).texelMoves) ∧
      ∃ memory : Nat → UInt8, (readbackFrom 1).imageCopyExecute memory 0x10000c = 0 ∧
        (readbackFrom 1).copyTexels memory 0x10000c = 1 ∧
        memory (colourTarget.address + CpuMap.colour4.layout.offset 1 4 0 0) = 1 := by
  refine ⟨readbackFrom_source 1, readbackFrom_destination 1,
    ⟨by decide, by decide, by decide, by decide⟩, by decide +kernel,
    fun address => if address = 0x200080 then 1 else 0, ?_, ?_, ?_⟩
  · decide +kernel
  · decide +kernel
  · decide +kernel

end Readback

end Ps5Vulkan.Image
