import Ps5Vulkan.Image.Copy
import Ps5Vulkan.Memory.CpuCache

/-!
# The cache lines of an image copy

The passes of `ps5vk_image_copy_execute` that evict what the copy will read and what it wrote. A pass skips a short
run that starts in the line where the run before it ended. That line has been evicted, but a run that goes on into
the next one leaves that one to the other runs.
-/

namespace Ps5Vulkan.Image

open Memory (lineBytes lineOf evictCpuLines rangeLines mem_evictCpuLines mem_rangeLines)

/-- A run of a pass: its address and its bytes. -/
abbrev Run := Nat × Nat

/-- The last line of a run. -/
def lastLine (run : Run) : Nat := lineOf (run.1 + run.2 - 1)

/-- A run short enough to be skipped, that starts in the line the run before it ended in. -/
def skipped (last : Option Nat) (run : Run) : Bool :=
  decide (run.2 ≤ lineBytes) && last == some (lineOf run.1)

/-- The lines a pass evicts (`ps5vk_image_copy_pass`), after a run that ended in the line `last`. -/
def evictPass : Option Nat → List Run → List Nat
  | _, [] => []
  | last, run :: rest =>
    (if skipped last run then [] else evictCpuLines run.1 run.2) ++ evictPass (some (lastLine run)) rest

/-- Every line of every run is evicted. -/
def Evicts (runs : List Run) : Prop :=
  ∀ run ∈ runs, ∀ line ∈ rangeLines run.1 run.2, line ∈ evictPass none runs

/-- No run of at most a line's bytes straddles two lines. -/
def RunsWhole (runs : List Run) : Prop :=
  ∀ run ∈ runs, run.2 ≤ lineBytes → run.1 % lineBytes + run.2 ≤ lineBytes

/-- A pass over whole runs evicts every line of them. The lines `done` are evicted before or by it. -/
theorem done_of_runsWhole {runs : List Run} (last : Option Nat) {done : Nat → Prop} (hpos : ∀ run ∈ runs, 0 < run.2)
    (hwhole : RunsWhole runs) (hlast : ∀ line ∈ last, done line) (hpass : ∀ line ∈ evictPass last runs, done line) :
    ∀ run ∈ runs, ∀ line ∈ rangeLines run.1 run.2, done line := by
  induction runs generalizing last with
  | nil => exact fun run hmem => absurd hmem List.not_mem_nil
  | cons run rest ih =>
    obtain ⟨hrun, hposRest⟩ := List.forall_mem_cons.mp hpos
    obtain ⟨hshort, hwholeRest⟩ := List.forall_mem_cons.mp hwhole
    obtain ⟨hevicted, hpassRest⟩ := List.forall_mem_append.mp hpass
    have hfirst : ∀ line ∈ rangeLines run.1 run.2, done line := by
      intro line hline
      cases hskip : skipped last run with
      | false => exact hevicted line (by simpa [hskip] using mem_evictCpuLines.mpr (.inl hline))
      | true =>
        -- a short run lies in its first line, where the run before it ended
        simp only [skipped, Bool.and_eq_true, decide_eq_true_eq, beq_iff_eq] at hskip
        have hinside := hshort hskip.1
        obtain ⟨-, hlow, hhigh⟩ := mem_rangeLines.mp hline
        have hstart : line = lineOf run.1 := by
          simp only [lineOf, lineBytes] at hlow hhigh hinside ⊢
          omega
        exact hlast line (hstart ▸ hskip.2)
    have hend : lastLine run ∈ rangeLines run.1 run.2 := by
      rw [mem_rangeLines]
      simp only [lastLine, lineOf, lineBytes]
      omega
    refine List.forall_mem_cons.mpr ⟨hfirst, ih (some (lastLine run)) hposRest hwholeRest (fun line hmem => ?_) hpassRest⟩
    obtain rfl : lastLine run = line := Option.some.inj hmem
    exact hfirst _ hend

theorem evicts_of_runsWhole {runs : List Run} (hpos : ∀ run ∈ runs, 0 < run.2) (hwhole : RunsWhole runs) : Evicts runs :=
  done_of_runsWhole none hpos hwhole (fun _ hmem => by cases hmem) fun _ hmem => hmem

/-- The bytes a run moves lie in its two ranges. -/
theorem runMoves_inside {reverseTexelBytes texelBytes destination source bytes : Nat} {move : Move}
    (hmem : move ∈ runMoves reverseTexelBytes texelBytes destination source bytes) :
    (destination ≤ move.1 ∧ move.1 < destination + bytes) ∧ source ≤ move.2 ∧ move.2 < source + bytes := by
  unfold runMoves at hmem
  split at hmem
  · obtain ⟨byte, hbyte, rfl⟩ := List.mem_map.mp hmem
    have := List.mem_range.mp hbyte
    dsimp only
    omega
  · simp only [List.mem_flatMap, List.mem_map, List.mem_range] at hmem
    obtain ⟨texel, htexel, byte, hbyte, rfl⟩ := hmem
    have hend := (Nat.le_div_iff_mul_le (by omega)).mp (Nat.succ_le_of_lt htexel)
    rw [Nat.succ_mul] at hend
    dsimp only
    omega

namespace ImageCopy

variable (copy : ImageCopy)

/-- The runs of a side whose texels lie at `place`, row by row. -/
def runs (place : Nat → Nat → Nat) : List Run :=
  let texelBytes := copy.sourceTexelBytes
  let rowBytes := copy.width * texelBytes
  let step := copy.runTexels * texelBytes
  (List.range copy.height).flatMap fun row =>
    ((List.range (ceilDiv rowBytes step)).map (· * step)).map fun start =>
      (place (start / texelBytes) row, min (rowBytes - start) step)

/-- The lines evicted before the copy (`PS5VK_COPY_EVICT_SOURCE`). -/
def evictSource : List Nat := evictPass none (copy.runs copy.sourceAt)

/-- The lines evicted after it (`PS5VK_COPY_EVICT_DESTINATION`). -/
def evictDestination : List Nat := evictPass none (copy.runs copy.destinationAt)

/-- Every line the copy reads is evicted before it. -/
def SourceEvicted : Prop := ∀ move ∈ copy.copyMoves, lineOf move.2 ∈ copy.evictSource

/-- Every line the copy wrote is evicted after it. -/
def DestinationEvicted : Prop := ∀ move ∈ copy.copyMoves, lineOf move.1 ∈ copy.evictDestination

variable {copy}

theorem mem_runs {place : Nat → Nat → Nat} {run : Run} (hmem : run ∈ copy.runs place) :
    0 < copy.sourceTexelBytes ∧ ∃ row < copy.height, ∃ k, k * copy.runTexels < copy.width ∧
      run = (place (k * copy.runTexels) row,
        min (copy.width - k * copy.runTexels) copy.runTexels * copy.sourceTexelBytes) := by
  simp only [runs, List.mem_flatMap, List.mem_range, List.mem_map] at hmem
  obtain ⟨row, hrow, _, ⟨k, hk, rfl⟩, rfl⟩ := hmem
  have htexel : 0 < copy.sourceTexelBytes := by
    by_contra hzero
    obtain hzero : copy.sourceTexelBytes = 0 := by omega
    simp [hzero, ceilDiv] at hk
  refine ⟨htexel, row, hrow, k, ?_, ?_⟩
  · rw [ceilDiv_mul_right htexel copy.runTexels_pos] at hk
    have hle := (Nat.le_div_iff_mul_le copy.runTexels_pos).mp (Nat.succ_le_of_lt hk)
    rw [Nat.succ_mul] at hle
    have := copy.runTexels_pos
    omega
  · rw [← Nat.mul_assoc, Nat.mul_div_cancel _ htexel, ← Nat.sub_mul, Nat.mul_min_mul_right]

theorem runs_pos (place : Nat → Nat → Nat) : ∀ run ∈ copy.runs place, 0 < run.2 := by
  intro run hmem
  obtain ⟨htexel, row, -, k, hk, rfl⟩ := mem_runs hmem
  have := copy.runTexels_pos
  exact Nat.mul_pos (by omega) htexel

/-- A byte moves in a run of each side. -/
theorem exists_runs {move : Move} (hmem : move ∈ copy.copyMoves) :
    (∃ run ∈ copy.runs copy.sourceAt, run.1 ≤ move.2 ∧ move.2 < run.1 + run.2) ∧
      ∃ run ∈ copy.runs copy.destinationAt, run.1 ≤ move.1 ∧ move.1 < run.1 + run.2 := by
  simp only [copyMoves, List.mem_flatMap, List.mem_range] at hmem
  obtain ⟨row, hrow, start, hstart, hmove⟩ := hmem
  have hrun : ∀ place : Nat → Nat → Nat, (place (start / copy.sourceTexelBytes) row,
      min (copy.width * copy.sourceTexelBytes - start) (copy.runTexels * copy.sourceTexelBytes)) ∈ copy.runs place :=
    fun place => List.mem_flatMap.mpr ⟨row, List.mem_range.mpr hrow, List.mem_map.mpr ⟨start, hstart, rfl⟩⟩
  obtain ⟨hdestination, hsource⟩ := runMoves_inside hmove
  exact ⟨⟨_, hrun _, hsource⟩, _, hrun _, hdestination⟩

/-- A copy with whole runs on both sides evicts every line it reads and every line it wrote. -/
theorem evicted_of_runsWhole (hsource : RunsWhole (copy.runs copy.sourceAt))
    (hdestination : RunsWhole (copy.runs copy.destinationAt)) : copy.SourceEvicted ∧ copy.DestinationEvicted := by
  constructor
  · intro move hmem
    obtain ⟨run, hrun, hlow, hhigh⟩ := (exists_runs hmem).1
    exact evicts_of_runsWhole (runs_pos _) hsource run hrun _ ⟨move.2, hlow, hhigh, rfl⟩
  · intro move hmem
    obtain ⟨run, hrun, hlow, hhigh⟩ := (exists_runs hmem).2
    exact evicts_of_runsWhole (runs_pos _) hdestination run hrun _ ⟨move.1, hlow, hhigh, rfl⟩

end ImageCopy

/-! ### Pitches and alignment -/

/-- The runs of a region fit the lines. A tiled side's are aligned in groups that divide lines. Rows are runs longer than
a line, or the runs start as far into a block that divides the lines, the pitch and the step between runs, and end in it. -/
def CopySide.FitsLines (side : CopySide) (texelBytes run x y width height : Nat) : Prop :=
  match side.runBytes texelBytes with
  | some bytes => bytes ∣ side.address ∧ side.RunsAligned texelBytes run x width
  | none => width ≤ run ∧ lineBytes < width * texelBytes ∨
      ∃ block, block ∣ lineBytes ∧ (height ≤ 1 ∨ block ∣ side.rowPitch) ∧ (width ≤ run ∨ block ∣ run * texelBytes) ∧
        (side.address + y * side.rowPitch + x * texelBytes) % block + min width run * texelBytes ≤ block

theorem mod_add_le_of_dvd {block line place bytes : Nat} (hdvd : block ∣ line) (hline : 0 < line)
    (h : place % block + bytes ≤ block) : place % line + bytes ≤ line := by
  obtain ⟨count, rfl⟩ := hdvd
  have hcount : 0 < count := Nat.pos_of_mul_pos_left hline
  have hlt : block * (place / block % count + 1) ≤ block * count :=
    Nat.mul_le_mul_left _ (Nat.mod_lt _ hcount)
  rw [Nat.mul_add, Nat.mul_one] at hlt
  rw [Nat.mod_mul]
  omega

theorem TiledSide.group_dvd_line (level : TiledSide) : level.run * level.map.elementBytes ∣ lineBytes := by
  suffices h : ∀ bytes ∈ level.side.runBytes level.map.elementBytes, bytes ∣ lineBytes from
    h _ (runBytes_level level)
  obtain ⟨map, one, address, levelWidth, tail, -, -, -⟩ := level
  cases map with
  | fourDepth | fourColour => cases one
  | _ => simp [CopySide.runBytes, side, CpuMap.side, CpuMap.depth, CpuMap.elementBytes, one, tiledRunBytes, lineBytes]

section Sides

variable {texelBytes width height run x y count rows k row : Nat} {side : CopySide}

/-- A run of a tiled level ends in its group. -/
theorem TiledSide.texelAt_mod_add_le (level : TiledSide) (hdvd : run ∣ level.run) (hrun : 0 < run)
    (haddress : level.run * level.map.elementBytes ∣ level.address)
    (haligned : x % run = 0 ∨ x % level.run + count ≤ level.run) (hk : k * run < count) (y : Nat) :
    level.texelAt (x + k * run) y % (level.run * level.map.elementBytes) +
      min (count - k * run) run * level.map.elementBytes ≤ level.run * level.map.elementBytes := by
  have hgroup : 2 ^ (level.tile.alignment + level.tile.runBits) = level.run * level.map.elementBytes := by
    rw [Nat.pow_add, level.tile_alignment, Nat.mul_comm]
    rfl
  have hcolumn : (k * run + (min (count - k * run) run - 1)) / run = k := by
    rw [Nat.mul_comm, Nat.mul_add_div hrun, Nat.div_eq_of_lt (by omega), Nat.add_zero]
  have hlast := mod_add_lt_of_aligned hdvd hrun (Nat.two_pow_pos _) haligned
    (show k * run + (min (count - k * run) run - 1) < count by omega)
  rw [hcolumn, Nat.add_sub_cancel_left] at hlast
  have hinside : ((x + k * run) % level.run + min (count - k * run) run) * level.map.elementBytes ≤
      level.run * level.map.elementBytes := Nat.mul_le_mul_right _ (by omega)
  have hplace : level.texelAt (x + k * run) y % (level.run * level.map.elementBytes) ≤
      (x + k * run) % level.run * level.map.elementBytes := by
    obtain ⟨base, hbase⟩ := haddress
    rw [texelAt, RunTile.offset_eq, level.tile_alignment, hgroup, hbase, Nat.mul_add_mod, Nat.mul_add_mod]
    exact Nat.mod_le _ _
  rw [Nat.add_mul] at hinside
  omega

/-- A run of rows ends in its block. -/
theorem rows_mod_add_le {block : Nat} (hrows : rows ≤ 1 ∨ block ∣ side.rowPitch)
    (hruns : count ≤ run ∨ block ∣ run * texelBytes)
    (hblock : (side.address + y * side.rowPitch + x * texelBytes) % block + min count run * texelBytes ≤ block)
    (hrow : row < rows) (hk : k * run < count) :
    (side.address + (y + row) * side.rowPitch + (x + k * run) * texelBytes) % block +
      min (count - k * run) run * texelBytes ≤ block := by
  have hbytes : min (count - k * run) run * texelBytes ≤ min count run * texelBytes :=
    Nat.mul_le_mul_right _ (by omega)
  have hrowDvd : block ∣ row * side.rowPitch := by
    rcases hrows with hone | hpitch
    · obtain rfl : row = 0 := by omega
      exact ⟨0, by rw [Nat.zero_mul, Nat.mul_zero]⟩
    · exact Dvd.dvd.mul_left hpitch _
  have hrunDvd : block ∣ k * run * texelBytes := by
    rcases hruns with hone | hstep
    · have hzero : k = 0 := by
        by_contra hk0
        have := Nat.le_mul_of_pos_left run (Nat.pos_of_ne_zero hk0)
        omega
      exact ⟨0, by rw [hzero, Nat.zero_mul, Nat.zero_mul, Nat.mul_zero]⟩
    · rw [Nat.mul_assoc]
      exact Dvd.dvd.mul_left hstep _
  obtain ⟨a, ha⟩ := hrowDvd
  obtain ⟨b, hb⟩ := hrunDvd
  have hplace : side.address + (y + row) * side.rowPitch + (x + k * run) * texelBytes =
      side.address + y * side.rowPitch + x * texelBytes + block * (a + b) := by
    rw [Nat.add_mul, Nat.add_mul, ha, hb, Nat.mul_add]
    omega
  rw [hplace, Nat.add_mul_mod_self_left]
  omega

/-- No run of at most a line's bytes straddles two lines where the runs fit the lines. -/
theorem SideOf.whole_run (h : SideOf texelBytes side width height)
    (hdvd : ∀ level : TiledSide, side = level.side → texelBytes = level.map.elementBytes → run ∣ level.run)
    (hrun : 0 < run) (hfits : side.FitsLines texelBytes run x y count rows) (hx : x + count ≤ width)
    (hy : y + rows ≤ height) (hrow : row < rows) (hk : k * run < count)
    (hshort : min (count - k * run) run * texelBytes ≤ lineBytes) :
    side.copyAddress (x + k * run : Nat) (y + row : Nat) texelBytes 0 % lineBytes +
      min (count - k * run) run * texelBytes ≤ lineBytes := by
  obtain ⟨hwidth, hheight, ⟨level, rfl, rfl, rfl⟩ | ⟨hrows, hpos, -⟩⟩ := h.cases
  · rw [CopySide.FitsLines, runBytes_level] at hfits
    rw [level.copyAddress_eq (by omega) (by omega)]
    exact mod_add_le_of_dvd level.group_dvd_line (by decide) (level.texelAt_mod_add_le (hdvd level rfl rfl) hrun
      hfits.1 ((runsAligned_level level run x count).1 hfits.2) hk _)
  · have hnone : side.runBytes texelBytes = none := by
      rw [CopySide.runBytes, hrows]
      rfl
    rw [CopySide.FitsLines, hnone] at hfits
    rw [copyAddress_rows hrows (by omega) (by omega)]
    rcases hfits with ⟨hone, hlong⟩ | ⟨block, hline, hpitch, hstep, hblock⟩
    · have hzero : k = 0 := by
        by_contra hk0
        have := Nat.le_mul_of_pos_left run (Nat.pos_of_ne_zero hk0)
        omega
      rw [hzero, Nat.zero_mul, Nat.sub_zero, Nat.min_eq_left hone] at hshort
      omega
    · exact mod_add_le_of_dvd hline (by decide) (rows_mod_add_le hpitch hstep hblock hrow hk)

end Sides

namespace ImageCopy

/-- Ten texels a row, read back from a row layout into a packed buffer. -/
def packedReadback : ImageCopy where
  sourceSide := bufferSide 0 256
  destinationSide := bufferSide 0x1000 40
  sourceX := 0
  sourceY := 0
  destinationX := 0
  destinationY := 0
  width := 10
  height := 3
  sourceTexelBytes := 4
  reverseTexelBytes := 0

end ImageCopy

end Ps5Vulkan.Image
