import Ps5Vulkan.Image.Upload

/-!
# Uploads at any level base

A tiled side of an upload is one of the CPU's maps with the low bits of the level's base exclusive-ored
into the places of a colour map. Where those bits reach into a run, `ps5vk_image_write_execute` writes a
texel at a time; where they do not, the run stays contiguous. Either way the upload is the one texel by
texel, and what it flushes at its end spans the runs it wrote.
-/

namespace Ps5Vulkan.Image

namespace CpuMap

/-- The side of a level whose base leaves bits to exclusive-or in. -/
def sideAt (map : CpuMap) (address levelWidth tileXor : Nat) : CopySide :=
  { map.side address levelWidth with tileXor := tileXor }

section Rows

variable (map : CpuMap) (hrows : map ≠ .fourDepth)

theorem rowTile_alignment : 2 ^ (map.rowTile hrows).alignment = map.elementBytes := by
  cases map with
  | fourDepth => exact absurd rfl hrows
  | _ => rfl

theorem rowTile_width : 2 ^ (map.rowTile hrows).xBits = map.layout.width := by
  cases map with
  | fourDepth => exact absurd rfl hrows
  | _ => rfl

theorem rowTile_height : 2 ^ (map.rowTile hrows).yBits = map.layout.height := by
  cases map with
  | fourDepth => exact absurd rfl hrows
  | _ => rfl

theorem place_rowTile (column row x y : Nat) :
    map.layout.place column row x y 0 = (map.rowTile hrows).place column row x y := by
  cases map with
  | fourDepth => exact absurd rfl hrows
  | fourColour => exact Nat.zero_add _
  | _ => rfl

/-- The bytes a run of the map may take are those of the tile's runs. -/
theorem runBytes_sideAt (address levelWidth tileXor : Nat) :
    (map.sideAt address levelWidth tileXor).runBytes map.elementBytes =
      some (2 ^ ((map.rowTile hrows).alignment + (map.rowTile hrows).runBits)) := by
  cases map with
  | fourDepth => exact absurd rfl hrows
  | _ => rfl

end Rows

/-- What is exclusive-ored into a place: nothing of a depth map. -/
def flipped (map : CpuMap) (tileXor : Nat) : Nat := if map.depth then 0 else tileXor

/-- Where the driver puts a texel of a side: the bits stay inside the tile's place. -/
theorem copyAddress_sideAt (map : CpuMap) {x y : Nat} (hx : x < 2 ^ 32) (hy : y < 2 ^ 32)
    (address levelWidth tileXor : Nat) : (map.sideAt address levelWidth tileXor).copyAddress x y map.elementBytes 0 =
      address + (y / map.layout.height * divRoundUp levelWidth map.layout.width + x / map.layout.width) *
        tileBytes + (map.layout.place (x / map.layout.width) (y / map.layout.height)
          (x % map.layout.width) (y % map.layout.height) 0 ^^^ map.flipped tileXor) := by
  have hsample : 0 < map.samples := by
    cases map <;> decide
  unfold flipped sideAt
  cases hdepth : map.depth with
  | true =>
    rw [map.copyAddress_of_depth hdepth, map.copyAddress_side hx hy hsample, TileLayout.offset,
      map.layout_bytes, if_pos rfl, Nat.xor_zero, Nat.add_assoc]
  | false =>
    rw [map.copyAddress_of_colour hdepth hx hy hsample, Nat.zero_mul, Nat.add_zero]
    rfl

/-- Inside a run a texel lies one element after the one before it, where the bits stay above the
run. -/
theorem copyAddress_add (map : CpuMap) (hrows : map ≠ .fourDepth) {x y step tileXor : Nat}
    (hx : x + step < 2 ^ 32) (hy : y < 2 ^ 32)
    (hstep : x % 2 ^ (map.rowTile hrows).runBits + step < 2 ^ (map.rowTile hrows).runBits)
    (hxor : tileXor % 2 ^ ((map.rowTile hrows).alignment + (map.rowTile hrows).runBits) = 0)
    (address levelWidth : Nat) :
    (map.sideAt address levelWidth tileXor).copyAddress (x + step : Nat) y map.elementBytes 0 =
      (map.sideAt address levelWidth tileXor).copyAddress x y map.elementBytes 0 + step * map.elementBytes := by
  have hdvd : 2 ^ (map.rowTile hrows).runBits ∣ map.layout.width := by
    rw [← map.rowTile_width hrows]
    exact Nat.pow_dvd_pow 2 (map.rowTile hrows).runBits_le
  have hmod : x % map.layout.width % 2 ^ (map.rowTile hrows).runBits =
      x % 2 ^ (map.rowTile hrows).runBits := Nat.mod_mod_of_dvd x hdvd
  have hroom : x % map.layout.width + step < map.layout.width := by
    obtain ⟨groups, hgroups⟩ := hdvd
    have hsplit := Nat.div_add_mod (x % map.layout.width) (2 ^ (map.rowTile hrows).runBits)
    have hlt := Nat.mod_lt x map.layout.width_pos
    have hgroup : x % map.layout.width / 2 ^ (map.rowTile hrows).runBits + 1 ≤ groups :=
      Nat.div_lt_of_lt_mul (hgroups ▸ hlt)
    have hle := Nat.mul_le_mul_left (2 ^ (map.rowTile hrows).runBits) hgroup
    rw [← hgroups, Nat.mul_add, Nat.mul_one] at hle
    omega
  have hflipped : map.flipped tileXor % 2 ^ ((map.rowTile hrows).alignment + (map.rowTile hrows).runBits) = 0 := by
    unfold flipped
    split
    · exact Nat.zero_mod _
    · exact hxor
  have hy' : y % map.layout.height < 2 ^ (map.rowTile hrows).yBits := by
    rw [map.rowTile_height]
    exact Nat.mod_lt y map.layout.height_pos
  rw [← hmod] at hstep
  have hplace := RunTile.place_add_xor (by rw [map.rowTile_width]; exact hroom) hy' hstep hflipped
    (x / map.layout.width) (y / map.layout.height)
  obtain ⟨hdiv, hcolumn⟩ := RunTile.div_mod_add hroom
  rw [map.copyAddress_sideAt hx hy, map.copyAddress_sideAt (by omega) hy, hdiv, hcolumn,
    map.place_rowTile hrows, map.place_rowTile hrows, hplace, map.rowTile_alignment]
  omega

end CpuMap

namespace ImageWrite

variable (upload : ImageWrite)

/-- The runs the upload writes: where each lies, and its bytes. -/
def spans : List (Nat × Nat) :=
  (List.range upload.height).flatMap fun row =>
    (writeRuns upload.runTexels upload.width upload.destinationX upload.width).map fun run =>
      (upload.destinationAt run.1 row, run.2 * upload.destinationTexelBytes)

/-- What the upload flushes at its end: from the lowest of the runs to past the highest. -/
def flushRange : Option (Nat × Nat) :=
  let low := upload.spans.foldl (fun low span => min low span.1) (2 ^ 64 - 1)
  let high := upload.spans.foldl (fun high span => max high (span.1 + span.2)) 0
  if low < high then some (low, high) else none

section Flushes

/-- A fold that only moves one way ends beyond what each item takes it to. -/
theorem foldl_beyond {α : Type*} (beyond : Nat → Nat → Prop) {step : Nat → α → Nat}
    (htrans : ∀ {a b c}, beyond a b → beyond b c → beyond a c) (hkeep : ∀ n item, beyond n (step n item))
    {items : List α} {item : α} (hitem : item ∈ items) {bound : Nat}
    (hbound : ∀ n, beyond bound (step n item)) (start : Nat) : beyond bound (items.foldl step start) := by
  have hfold : ∀ (items : List α) {n}, beyond bound n → beyond bound (items.foldl step n) := by
    intro items
    induction items with
    | nil => exact id
    | cons head rest ih => exact fun h => ih (htrans h (hkeep _ head))
  induction items generalizing start with
  | nil => cases hitem
  | cons head rest ih =>
    rcases List.mem_cons.1 hitem with rfl | hrest
    · exact hfold rest (hbound start)
    · exact ih hrest _

variable {upload}

/-- A byte of a run lies in what is flushed. -/
theorem flushRange_of_mem_spans {span : Nat × Nat} (hspan : span ∈ upload.spans) {byte : Nat}
    (hlow : span.1 ≤ byte) (hhigh : byte < span.1 + span.2) :
    ∃ low high, upload.flushRange = some (low, high) ∧ low ≤ byte ∧ byte < high := by
  have hmin : upload.spans.foldl (fun low span => min low span.1) (2 ^ 64 - 1) ≤ span.1 :=
    foldl_beyond (· ≥ ·) (fun h h' => Nat.le_trans h' h) (fun low span => Nat.min_le_left low span.1)
      hspan (fun low => Nat.min_le_right low span.1) _
  have hmax : span.1 + span.2 ≤ upload.spans.foldl (fun high span => max high (span.1 + span.2)) 0 :=
    foldl_beyond (· ≤ ·) (fun h h' => Nat.le_trans h h') (fun high span => Nat.le_max_left high (span.1 + span.2))
      hspan (fun high => Nat.le_max_right high (span.1 + span.2)) _
  refine ⟨_, _, if_pos ?_, Nat.le_trans hmin hlow, Nat.lt_of_lt_of_le hhigh hmax⟩
  exact Nat.lt_of_le_of_lt hmin (Nat.lt_of_le_of_lt hlow (Nat.lt_of_lt_of_le hhigh hmax))

/-- Every byte the upload moves is one of a run. -/
theorem exists_span_of_mem_moves (hpos : 0 < upload.destinationTexelBytes) {move : Move}
    (hmove : move ∈ upload.moves) : ∃ span ∈ upload.spans, span.1 ≤ move.1 ∧ move.1 < span.1 + span.2 := by
  simp only [moves, List.mem_flatMap] at hmove
  obtain ⟨row, hrow, run, hrun, hmem⟩ := hmove
  rw [runMoves_eq hpos] at hmem
  simp only [List.mem_flatMap, List.mem_map, List.mem_range] at hmem
  obtain ⟨texel, htexel, byte, hbyte, rfl⟩ := hmem
  have hle := Nat.mul_le_mul_right upload.destinationTexelBytes (Nat.succ_le_of_lt htexel)
  rw [Nat.succ_mul] at hle
  refine ⟨(upload.destinationAt run.1 row, run.2 * upload.destinationTexelBytes), ?_, ?_, ?_⟩
  · exact List.mem_flatMap.2 ⟨row, hrow, List.mem_map.2 ⟨run, hrun, rfl⟩⟩
  · exact Nat.le_add_right _ _
  · dsimp only
    omega

end Flushes

section Texels

variable {upload} {map : CpuMap} {address levelWidth tileXor : Nat}

section

variable (hside : upload.destinationSide = map.sideAt address levelWidth tileXor)
  (hbytes : upload.destinationTexelBytes = map.elementBytes)

include hside hbytes

/-- An upload takes runs where the bits stay above them, and texels elsewhere. -/
theorem runTexels_sideAt : upload.runTexels = 1 ∨ ∃ hrows : map ≠ .fourDepth,
      upload.runTexels = 2 ^ (map.rowTile hrows).runBits ∧
        tileXor % 2 ^ ((map.rowTile hrows).alignment + (map.rowTile hrows).runBits) = 0 := by
  by_cases hrows : map = .fourDepth
  · left
    subst hrows
    have hlimit : (CpuMap.fourDepth.sideAt address levelWidth tileXor).runBytes
        CpuMap.fourDepth.elementBytes = some 4 := rfl
    simp only [runTexels, hside, hbytes, hlimit]
    exact ite_self 1
  · have hlimit := map.runBytes_sideAt hrows address levelWidth tileXor
    simp only [runTexels, hside, hbytes, hlimit]
    split
    · rename_i hruns
      refine .inr ⟨hrows, ?_, ?_⟩
      · rw [← map.rowTile_alignment hrows, Nat.pow_add, Nat.mul_div_cancel_left _ (Nat.two_pow_pos _)]
      · rw [← and_mask]
        exact hruns.2
    · exact .inl rfl

/-- An upload through a tiled side moves the bytes it would move texel by texel. -/
theorem moves_sideAt (hx : upload.destinationX + upload.width ≤ 2 ^ 31)
    (hy : upload.destinationY + upload.height ≤ 2 ^ 31) : upload.moves = upload.texelMoves := by
  have hpos : 0 < upload.destinationTexelBytes := by
    rw [hbytes]
    cases map <;> decide
  rcases runTexels_sideAt hside hbytes with hone | ⟨hrows, hrun, hxor⟩
  · refine moves_eq_of_follows hpos (by rw [hone]; decide) fun row _ column step hstep _ => ?_
    obtain rfl : step = 0 := by omega
    rw [Nat.add_zero, Nat.zero_mul, Nat.add_zero]
  · refine moves_eq_of_follows hpos (by rw [hrun]; exact Nat.two_pow_pos _)
      fun row hrow column step hstep hcolumn => ?_
    rw [hrun] at hstep
    rw [destinationAt, destinationAt, hside, hbytes,
      map.copyAddress_add hrows (by omega) (by omega) hstep hxor]

/-- An upload through a tiled side leaves memory as the texels written one by one at the map's
addresses leave it, changes no byte but theirs, and what it flushes at its end has every byte it
wrote. -/
theorem imageWriteExecute_texels
    (hx : upload.destinationX + upload.width ≤ 2 ^ 31)
    (hy : upload.destinationY + upload.height ≤ 2 ^ 31) (memory : Nat → UInt8) :
    upload.imageWriteExecute memory = moveAll upload.texelMoves memory ∧
    (∀ byte, (∀ column < upload.width, ∀ row < upload.height, ∀ part < map.elementBytes,
        byte ≠ (map.sideAt address levelWidth tileXor).copyAddress (upload.destinationX + column : Nat)
          (upload.destinationY + row : Nat) map.elementBytes 0 + part) →
      upload.imageWriteExecute memory byte = memory byte) ∧
    ∀ move ∈ upload.moves, ∃ low high, upload.flushRange = some (low, high) ∧
      low ≤ move.1 ∧ move.1 < high := by
  have hmoves := moves_sideAt hside hbytes hx hy
  have hpos : 0 < upload.destinationTexelBytes := by
    rw [hbytes]
    cases map <;> decide
  refine ⟨by rw [imageWriteExecute, hmoves], fun byte houtside => ?_, fun move hmove => ?_⟩
  · refine moveAll_of_not_landsOn ?_
    rintro ⟨move, hmem, rfl⟩
    rw [hmoves] at hmem
    simp only [texelMoves, List.mem_flatMap, List.mem_map, List.mem_range] at hmem
    obtain ⟨row, hrow, column, hcolumn, part, hpart, rfl⟩ := hmem
    apply houtside column hcolumn row hrow part (hbytes ▸ hpart)
    rw [destinationAt, hside, hbytes]
  · obtain ⟨span, hspan, hlow, hhigh⟩ := exists_span_of_mem_moves hpos hmove
    exact flushRange_of_mem_spans hspan hlow hhigh

end

/-- Three rows of five reversed texels, from a column inside a run on, into a level whose base flips
the bit just above a run. -/
def offsetUpload : ImageWrite where
  source := 0x20000
  sourcePitch := 20
  destinationSide := CpuMap.colour4.sideAt 0x100000 200 0x10
  destinationX := 3
  destinationY := 130
  width := 5
  height := 3
  destinationTexelBytes := 4
  reverseTexelBytes := 4

theorem imageWriteExecute_texels_offset :
    offsetUpload.runTexels = 4 ∧
    offsetUpload.imageWriteExecute UInt8.ofNat = moveAll offsetUpload.texelMoves UInt8.ofNat ∧
    ∀ move ∈ offsetUpload.moves, ∃ low high, offsetUpload.flushRange = some (low, high) ∧
      low ≤ move.1 ∧ move.1 < high := by
  have htexels := imageWriteExecute_texels
    (rfl : offsetUpload.destinationSide = CpuMap.colour4.sideAt 0x100000 200 0x10) rfl (by decide)
    (by decide) UInt8.ofNat
  exact ⟨by decide, htexels.1, htexels.2.2⟩

end Texels

end ImageWrite

end Ps5Vulkan.Image
