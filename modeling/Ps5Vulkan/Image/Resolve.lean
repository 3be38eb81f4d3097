import Ps5Vulkan.Image.Blit
import Ps5Vulkan.Image.Samples

/-!
# CPU resolves

`ps5vk_CmdResolveImage2KHR` records a region's two sides, its destination offset and its extent;
`ps5vk_resolve_execute` averages the four samples of each source texel. The record has no place for the
source offset, so the samples read are those of the level's corner.
-/

namespace Ps5Vulkan.Image

open WordBuffer

/-- `VkImageResolve2`, with the offsets valid usage allows. -/
structure ResolveRegion where
  sourceSub : Subresource
  destinationSub : Subresource
  sourceLayers : Nat
  destinationLayers : Nat
  sourceX : Nat
  sourceY : Nat
  destinationX : Nat
  destinationY : Nat
  width : Nat
  height : Nat
  deriving DecidableEq, Repr

/-- What `ps5vk_resolve_execute` reads of a `struct ps5vk_memory_copy`. -/
structure ImageResolve where
  sourceSide : CopySide
  destinationSide : CopySide
  destinationX : Nat
  destinationY : Nat
  width : Nat
  height : Nat
  sourceTexelBytes : Nat
  destinationTexelBytes : Nat
  deriving DecidableEq, Repr

/-- The rounded average of one byte of the four samples at the places. -/
def average (memory : Nat → UInt8) (places : Nat → Nat) (byte : Nat) : UInt8 :=
  UInt8.ofNat ((((List.range 4).map fun sample => (memory (places sample + byte)).toNat).sum + 2) / 4)

namespace ImageResolve

variable (resolve : ImageResolve)

def sampleBytes : Nat := resolve.sourceTexelBytes / 4

def sourceAt (column row sample : Nat) : Nat :=
  resolve.sourceSide.copyAddress column row resolve.sampleBytes sample

def destinationAt (column row : Nat) : Nat :=
  resolve.destinationSide.copyAddress (resolve.destinationX + column : Nat)
    (resolve.destinationY + row : Nat) resolve.destinationTexelBytes 0

/-- The bytes a texel of the region resolves to; the row comes first. -/
def resolved (memory : Nat → UInt8) (texel : Nat × Nat) : List UInt8 :=
  (List.range resolve.destinationTexelBytes).map
    (average memory (resolve.sourceAt texel.2 texel.1))

def texels : List (Nat × Nat) := List.range resolve.height ×ˢ List.range resolve.width

/-- `ps5vk_resolve_execute`. -/
def resolveExecute (memory : Nat → UInt8) : Nat → UInt8 :=
  resolve.texels.foldl
    (fun memory texel =>
      write memory (resolve.destinationAt texel.2 texel.1) (resolve.resolved memory texel)) memory

end ImageResolve

/-- What valid usage gives a region: its levels exist, its rectangles lie inside them, and the two
levels share no byte. -/
structure ResolveRegion.Valid (region : ResolveRegion) (source destination : BoundImage) : Prop where
  source_level : region.sourceSub.mipLevel < source.mipLevels
  destination_level : region.destinationSub.mipLevel < destination.mipLevels
  source_width : region.sourceX + region.width ≤ source.levelWidth region.sourceSub.mipLevel
  source_height : region.sourceY + region.height ≤ source.levelHeight region.sourceSub.mipLevel
  destination_width :
    region.destinationX + region.width ≤ destination.levelWidth region.destinationSub.mipLevel
  destination_height :
    region.destinationY + region.height ≤ destination.levelHeight region.destinationSub.mipLevel
  apart : ∀ {sourceBytes sourceSide bytes side}, source.copySide region.sourceSub = some (sourceBytes, sourceSide) →
    destination.copySide region.destinationSub = some (bytes, side) → ∀ {x y sample x' y' byte byte' : Nat},
    x < source.levelWidth region.sourceSub.mipLevel → y < source.levelHeight region.sourceSub.mipLevel →
    sample < 4 → x' < destination.levelWidth region.destinationSub.mipLevel →
    y' < destination.levelHeight region.destinationSub.mipLevel → byte < bytes → byte' < bytes →
    sourceSide.sampleAt x y sample + byte ≠ side.copyAddress x' y' bytes 0 + byte'

/-- `VkResolveImageInfo2`. -/
structure ResolveCall where
  source : BoundImage
  destination : BoundImage
  regions : List ResolveRegion
  valid : ∀ region ∈ regions, region.Valid source destination

namespace ResolveCall

variable (call : ResolveCall)

/-- The sides of a region, with their texels' bytes. -/
def sides (region : ResolveRegion) : Option ((Nat × CopySide) × (Nat × CopySide)) := do
  let source ← call.source.copySide region.sourceSub
  let destination ← call.destination.copySide region.destinationSub
  some (source, destination)

def record (region : ResolveRegion) (sides : (Nat × CopySide) × (Nat × CopySide)) : ImageResolve where
  sourceSide := sides.1.2
  destinationSide := sides.2.2
  destinationX := region.destinationX
  destinationY := region.destinationY
  width := region.width
  height := region.height
  sourceTexelBytes := sides.1.1
  destinationTexelBytes := sides.2.1

/-- The loop over the regions, each with its record. A region without a side ends it without a
refusal. -/
def recordRegions : List ResolveRegion → Option (List (Option ImageResolve))
  | [] => some []
  | region :: rest =>
    match call.sides region with
    | none => some ((region :: rest).map fun _ => none)
    | some sides =>
      if region.sourceLayers ≠ 1 ∨ region.sourceSub.baseArrayLayer ≠ 0 ∨
          region.destinationLayers ≠ 1 ∨ region.destinationSub.baseArrayLayer ≠ 0 then none
      else (recordRegions rest).map (some (record region sides) :: ·)

/-- `ps5vk_CmdResolveImage2KHR` on the CPU path. -/
def resolveImage : Option (List (Option ImageResolve)) :=
  if call.source.samples ≠ 4 ∨ call.destination.samples ≠ 1 then none
  else if !imageTransferCheck call.source call.destination true || !call.source.tiled ||
      call.source.format.blockSize != 4 then none
  else call.recordRegions call.regions

end ResolveCall

/-- What the execution of a region's record, if it has one, leaves. -/
def resolveRecorded (record : Option ImageResolve) (memory : Nat → UInt8) : Nat → UInt8 :=
  match record with
  | none => memory
  | some resolve => resolve.resolveExecute memory

namespace ResolveRegion

variable (region : ResolveRegion)

/-- A sample of a texel of the source region. -/
def sourceSample (side : CopySide) (column row sample : Nat) : Nat :=
  side.sampleAt (region.sourceX + column) (region.sourceY + row) sample

/-- A texel of the destination region. -/
def destinationTexel (side : CopySide) (texelBytes column row : Nat) : Nat :=
  side.copyAddress (region.destinationX + column : Nat) (region.destinationY + row : Nat) texelBytes 0

/-- What a resolve is for: every byte of a destination texel becomes the average of its source
texel's samples, and nothing else changes. -/
structure Exact (sides : (Nat × CopySide) × (Nat × CopySide)) (record : Option ImageResolve) : Prop where
  texels : ∀ (memory : Nat → UInt8), ∀ column < region.width, ∀ row < region.height,
    ∀ byte < sides.2.1,
    resolveRecorded record memory (region.destinationTexel sides.2.2 sides.2.1 column row + byte) =
      average memory (region.sourceSample sides.1.2 column row) byte
  others : ∀ (memory : Nat → UInt8) (address : Nat),
    (∀ column < region.width, ∀ row < region.height, ∀ byte < sides.2.1,
      address ≠ region.destinationTexel sides.2.2 sides.2.1 column row + byte) →
    resolveRecorded record memory address = memory address

end ResolveRegion

/-- A call is refused, or every region that has sides is resolved exactly. -/
def ResolveCall.Exact (call : ResolveCall) : Prop :=
  ∀ records, call.resolveImage = some records → ∀ before region after,
    call.regions = before ++ region :: after → ∀ sides, call.sides region = some sides →
      region.Exact sides (records.getD before.length none)

section Recording

variable {call : ResolveCall} {region : ResolveRegion} {sides : (Nat × CopySide) × (Nat × CopySide)}

theorem sides_spec (hsides : call.sides region = some sides) : call.source.copySide region.sourceSub = some sides.1 ∧
      call.destination.copySide region.destinationSub = some sides.2 := by
  simp only [ResolveCall.sides, Option.bind_eq_bind, Option.bind_eq_some_iff, Option.some.injEq] at hsides
  obtain ⟨source, hsource, destination, hdestination, rfl⟩ := hsides
  exact ⟨hsource, hdestination⟩

/-- A region is recorded when every region before it has sides, and then on its first layer. -/
theorem recordRegions_getD (hsides : call.sides region = some sides) {before after : List ResolveRegion}
    {records : List (Option ImageResolve)} (hrecords : call.recordRegions (before ++ region :: after) = some records) :
    ((∀ other ∈ before, (call.sides other).isSome = true) →
      records.getD before.length none = some (ResolveCall.record region sides) ∧ region.sourceSub.baseArrayLayer = 0) ∧
    (¬(∀ other ∈ before, (call.sides other).isSome = true) → records.getD before.length none = none) := by
  induction before generalizing records with
  | nil =>
    rw [List.nil_append, ResolveCall.recordRegions, hsides] at hrecords
    dsimp only at hrecords
    split at hrecords
    · cases hrecords
    · rename_i hlayers
      obtain ⟨rest, -, rfl⟩ := Option.map_eq_some_iff.1 hrecords
      refine ⟨fun _ => ⟨rfl, by omega⟩, fun h => ?_⟩
      exact absurd (fun other hmem => absurd hmem List.not_mem_nil) h
  | cons first before ih =>
    rw [List.cons_append, ResolveCall.recordRegions] at hrecords
    cases hfirst : call.sides first with
    | none =>
      rw [hfirst] at hrecords
      obtain rfl := Option.some.inj hrecords
      constructor
      · intro h
        have hsome := h first List.mem_cons_self
        rw [hfirst] at hsome
        cases hsome
      · intro _
        rw [List.getD_eq_getElem?_getD, List.getElem?_map]
        cases (first :: (before ++ region :: after))[(first :: before).length]? <;> rfl
    | some firstSides =>
      rw [hfirst] at hrecords
      dsimp only at hrecords
      split at hrecords
      · cases hrecords
      · obtain ⟨rest, hrest, rfl⟩ := Option.map_eq_some_iff.1 hrecords
        rw [List.forall_mem_cons, hfirst]
        simpa using ih hrest

end Recording

section Texels

variable {image : BoundImage} {sub : Subresource} {texelBytes : Nat} {side : CopySide}

/-- A sample of a four-sample side is one element. -/
theorem copySide_four_div (hside : image.copySide sub = some (texelBytes, side)) (hfour : image.samples = 4) :
    texelBytes / 4 = side.elementBytes := by
  obtain ⟨plane, -, -, -, rfl, hcases⟩ := copySide_cases hside
  rw [hfour]
  rcases hcases with ⟨-, -, -, base, -, rfl⟩ | ⟨-, -, -, -, -, rfl⟩ | ⟨-, hone, -⟩
  · exact Nat.mul_div_cancel _ (by decide)
  · exact Nat.mul_div_cancel _ (by decide)
  · omega

/-- Texels of a one-sample level are apart. -/
theorem SideOf.apart {width height : Nat} (h : SideOf texelBytes side width height) {x y x' y' : Nat}
    (hx : x < width) (hy : y < height) (hx' : x' < width) (hy' : y' < height) (hne : (x, y) ≠ (x', y')) :
    side.copyAddress x y texelBytes 0 + texelBytes ≤ side.copyAddress x' y' texelBytes 0 ∨
      side.copyAddress x' y' texelBytes 0 + texelBytes ≤ side.copyAddress x y texelBytes 0 := by
  have hpos := h.texelBytes_pos
  by_contra hover
  obtain ⟨hlow, hhigh⟩ := not_or.1 hover
  -- Of two that overlap, one starts inside the other.
  rcases Nat.le_total (side.copyAddress x y texelBytes 0) (side.copyAddress x' y' texelBytes 0) with hle | hle
  · obtain ⟨rfl, rfl, -⟩ :=
      h.copyAddress_inj hx hy hx' hy' (Nat.sub_lt_left_of_lt_add hle (by omega)) hpos (Nat.add_sub_of_le hle)
    exact hne rfl
  · obtain ⟨rfl, rfl, -⟩ :=
      h.copyAddress_inj hx' hy' hx hy (Nat.sub_lt_left_of_lt_add hle (by omega)) hpos (Nat.add_sub_of_le hle)
    exact hne rfl

end Texels

section Execution

variable {call : ResolveCall} {region : ResolveRegion} {sides : (Nat × CopySide) × (Nat × CopySide)}

/-- A byte of the four samples of a texel of the source level. -/
def ResolveCall.Sampled (call : ResolveCall) (region : ResolveRegion)
    (sides : (Nat × CopySide) × (Nat × CopySide)) (address : Nat) : Prop :=
  ∃ x < call.source.levelWidth region.sourceSub.mipLevel,
    ∃ y < call.source.levelHeight region.sourceSub.mipLevel, ∃ sample < 4, ∃ byte < sides.2.1,
      address = sides.1.2.sampleAt x y sample + byte

/-- Equal samples average equally. -/
theorem average_congr {memory memory' : Nat → UInt8} {places : Nat → Nat} {byte : Nat}
    (h : ∀ sample < 4, memory (places sample + byte) = memory' (places sample + byte)) :
    average memory places byte = average memory' places byte := by
  unfold average
  congr 4
  refine List.map_congr_left fun sample hsample => ?_
  rw [h sample (List.mem_range.1 hsample)]

theorem record_sourceAt (hsides : call.sides region = some sides) (hfour : call.source.samples = 4)
    (column row sample : Nat) :
    (ResolveCall.record region sides).sourceAt column row sample = sides.1.2.sampleAt column row sample := by
  have hdiv := copySide_four_div (sides_spec hsides).1 hfour
  unfold ImageResolve.sourceAt ImageResolve.sampleBytes CopySide.sampleAt
  rw [← hdiv]
  rfl

theorem record_resolved (hsides : call.sides region = some sides) (hfour : call.source.samples = 4)
    {memory : Nat → UInt8} {column row byte : Nat} (hbyte : byte < sides.2.1) :
    ((ResolveCall.record region sides).resolved memory (row, column))[byte]? =
      some (average memory (sides.1.2.sampleAt column row) byte) := by
  have hplaces : (ResolveCall.record region sides).sourceAt column row = sides.1.2.sampleAt column row :=
    funext fun sample => record_sourceAt hsides hfour column row sample
  change ((List.range sides.2.1).map
    (average memory ((ResolveCall.record region sides).sourceAt column row)))[byte]? = _
  rw [hplaces, List.getElem?_map, List.getElem?_range hbyte, Option.map_some]

section

variable (hvalid : region.Valid call.source call.destination)

include hvalid

/-- No texel of the destination region covers a sample. -/
theorem sampled_apart (hsides : call.sides region = some sides) {address column row : Nat}
    (hsampled : call.Sampled region sides address) (hcolumn : column < region.width) (hrow : row < region.height) :
    address < region.destinationTexel sides.2.2 sides.2.1 column row ∨
      region.destinationTexel sides.2.2 sides.2.1 column row + sides.2.1 ≤ address := by
  obtain ⟨x, hx, y, hy, sample, hsample, byte, hbyte, rfl⟩ := hsampled
  obtain ⟨hsource, hdestination⟩ := sides_spec hsides
  have hwidth := hvalid.destination_width
  have hheight := hvalid.destination_height
  by_contra hover
  obtain ⟨hlow, hhigh⟩ := not_or.1 hover
  have hcolumn' : region.destinationX + column < call.destination.levelWidth region.destinationSub.mipLevel := by omega
  have hrow' : region.destinationY + row < call.destination.levelHeight region.destinationSub.mipLevel := by omega
  have hbyte' : sides.1.2.sampleAt x y sample + byte -
      region.destinationTexel sides.2.2 sides.2.1 column row < sides.2.1 := by omega
  exact hvalid.apart hsource hdestination hx hy hsample hcolumn' hrow' hbyte hbyte'
    (Nat.add_sub_cancel' (Nat.le_of_not_lt hlow)).symm

/-- The bytes of the texels, all averaged from the memory before. -/
theorem record_execute_eq
    (hsides : call.sides region = some sides) (hfour : call.source.samples = 4) (memory : Nat → UInt8) :
    (ResolveCall.record region sides).resolveExecute memory =
      writeAll ((List.range region.height ×ˢ List.range region.width).map fun texel =>
        (region.destinationTexel sides.2.2 sides.2.1 texel.2 texel.1,
          (ResolveCall.record region sides).resolved memory texel)) memory := by
  have hwidth := hvalid.source_width
  have hheight := hvalid.source_height
  refine foldl_write_eq_writeAll _ _ (call.Sampled region sides) _ memory ?_ ?_
  · rintro ⟨row, column⟩ hmem memory memory' hsame
    obtain ⟨hrow, hcolumn⟩ := List.mem_product.1 hmem
    rw [List.mem_range] at hrow hcolumn
    refine List.map_congr_left fun byte hbyte => average_congr fun sample hsample => hsame _ ?_
    rw [record_sourceAt hsides hfour]
    change row < region.height at hrow
    change column < region.width at hcolumn
    exact ⟨column, by omega, row, by omega, sample, hsample, byte, List.mem_range.1 hbyte, rfl⟩
  · rintro ⟨row, column⟩ hmem memory address hsampled
    obtain ⟨hrow, hcolumn⟩ := List.mem_product.1 hmem
    rw [ImageResolve.resolved, List.length_map, List.length_range]
    exact sampled_apart hvalid hsides hsampled (List.mem_range.1 hcolumn) (List.mem_range.1 hrow)

/-- What the execution of a region's record leaves: in each destination texel the average of the samples
of the source texel that lies as far from the level's corner, and the rest as it was. -/
theorem record_execute_spec (hsides : call.sides region = some sides) (hfour : call.source.samples = 4)
    (hone : call.destination.samples = 1) (memory : Nat → UInt8) :
    (∀ column < region.width, ∀ row < region.height, ∀ byte < sides.2.1,
      (ResolveCall.record region sides).resolveExecute memory
          (region.destinationTexel sides.2.2 sides.2.1 column row + byte) =
        average memory (sides.1.2.sampleAt column row) byte) ∧
    ∀ address, (∀ column < region.width, ∀ row < region.height, ∀ byte < sides.2.1,
      address ≠ region.destinationTexel sides.2.2 sides.2.1 column row + byte) →
      (ResolveCall.record region sides).resolveExecute memory address = memory address := by
  obtain ⟨-, hdestination⟩ := sides_spec hsides
  have hside := SideOf.image call.destination region.destinationSub hdestination hone hvalid.destination_level
  have hwidth := hvalid.destination_width.trans (levelWidth_le_storedWidth _ _)
  have hheight := hvalid.destination_height.trans (levelHeight_le_storedHeight _ _)
  have hlength (texel : Nat × Nat) : ((ResolveCall.record region sides).resolved memory texel).length = sides.2.1 := by
    rw [ImageResolve.resolved, List.length_map, List.length_range]
    rfl
  rw [record_execute_eq hvalid hsides hfour]
  constructor
  · intro column hcolumn row hrow byte hbyte
    have hmem : (region.destinationTexel sides.2.2 sides.2.1 column row,
        (ResolveCall.record region sides).resolved memory (row, column)) ∈
        (List.range region.height ×ˢ List.range region.width).map fun texel =>
          (region.destinationTexel sides.2.2 sides.2.1 texel.2 texel.1,
            (ResolveCall.record region sides).resolved memory texel) :=
      List.mem_map.2 ⟨(row, column), by simp [List.mem_product, hrow, hcolumn], rfl⟩
    have hread := read_writeAll_of_mem memory ?_ hmem
    · dsimp only at hread
      rw [hlength] at hread
      have hat := congrArg (·[byte]?) hread
      rw [getElem?_read, if_pos hbyte, record_resolved hsides hfour hbyte, Option.some.injEq] at hat
      exact hat
    · rw [List.pairwise_map]
      apply List.Pairwise.imp_of_mem _ (List.nodup_range.product List.nodup_range)
      rintro ⟨row, column⟩ ⟨row', column'⟩ hplace hplace' hne
      simp only [List.mem_product, List.mem_range] at hplace hplace'
      rw [hlength, hlength]
      apply hside.apart (by omega) (by omega) (by omega) (by omega)
      intro heq
      simp only [Prod.mk.injEq, Nat.add_left_cancel_iff] at heq
      exact hne (by rw [heq.1, heq.2])
  · intro address houtside
    apply writeAll_apply_of_outside
    intro run hmem
    obtain ⟨⟨row, column⟩, hplace, rfl⟩ := List.mem_map.1 hmem
    simp only [List.mem_product, List.mem_range] at hplace
    dsimp only
    rw [hlength]
    by_contra hover
    obtain ⟨hlow, hhigh⟩ := not_or.1 hover
    exact houtside column hplace.2 row hplace.1
      (address - region.destinationTexel sides.2.2 sides.2.1 column row) (by omega) (by omega)

end

end Execution

section Exactness

variable {call : ResolveCall} {region : ResolveRegion} {sides : (Nat × CopySide) × (Nat × CopySide)}

/-- Four equal samples average to their value. -/
theorem average_const {memory : Nat → UInt8} {places : Nat → Nat} {byte : Nat} {value : UInt8}
    (h : ∀ sample < 4, memory (places sample + byte) = value) : average memory places byte = value := by
  have hvalues : ((List.range 4).map fun sample => (memory (places sample + byte)).toNat) =
      List.replicate 4 value.toNat := by
    rw [List.eq_replicate_iff]
    refine ⟨by rw [List.length_map, List.length_range], fun total htotal => ?_⟩
    obtain ⟨sample, hsample, rfl⟩ := List.mem_map.1 htotal
    rw [h sample (List.mem_range.1 hsample)]
  have hmean : (List.replicate 4 value.toNat).sum + 2 = 4 * value.toNat + 2 := by
    rw [List.sum_replicate_nat]
  rw [average, hvalues, hmean, Nat.mul_add_div (by decide), Nat.add_zero, UInt8.ofNat_toNat]

section

variable (hvalid : region.Valid call.source call.destination)

include hvalid

theorem texelBytes_pos_of_sides
    (hsides : call.sides region = some sides) (hone : call.destination.samples = 1) : 0 < sides.2.1 :=
  (SideOf.image call.destination region.destinationSub (sides_spec hsides).2 hone
    hvalid.destination_level).texelBytes_pos

/-- A region without a record is exact when it is empty. -/
theorem exact_none_iff (hsides : call.sides region = some sides) (hone : call.destination.samples = 1) :
    region.Exact sides none ↔ region.width = 0 ∨ region.height = 0 := by
  have hpos := texelBytes_pos_of_sides hvalid hsides hone
  have hwidth := hvalid.source_width
  have hheight := hvalid.source_height
  constructor
  · intro hexact
    by_contra hempty
    -- The first destination texel is left as it was, whatever the samples are.
    let first := region.destinationTexel sides.2.2 sides.2.1 0 0
    have htexel := hexact.texels (fun address => if address = first then 1 else 0) 0 (by omega) 0
      (by omega) 0 hpos
    have hzero : average (fun address => if address = first then (1 : UInt8) else 0)
        (region.sourceSample sides.1.2 0 0) 0 = 0 := by
      refine average_const fun sample hsample => if_neg fun heq => ?_
      have hsampled : call.Sampled region sides first :=
        ⟨region.sourceX, by omega, region.sourceY, by omega, sample, hsample, 0, hpos, heq.symm⟩
      have hapart := sampled_apart hvalid hsides hsampled (by omega : 0 < _) (by omega : 0 < _)
      change first < first ∨ first + _ ≤ first at hapart
      omega
    rw [hzero] at htexel
    change (if first + 0 = first then (1 : UInt8) else 0) = 0 at htexel
    rw [if_pos (Nat.add_zero _)] at htexel
    exact absurd htexel (by decide)
  · intro hempty
    refine ⟨fun memory column hcolumn row hrow => ?_, fun memory address _ => rfl⟩
    omega

/-- A recorded region is exact when it is empty or starts at the source level's corner. -/
theorem exact_some_iff (hsides : call.sides region = some sides) (hfour : call.source.samples = 4)
    (hone : call.destination.samples = 1) (hlayer : region.sourceSub.baseArrayLayer = 0)
    (hbytes : call.source.format.blockSize = 4) : region.Exact sides (some (ResolveCall.record region sides)) ↔
      region.width = 0 ∨ region.height = 0 ∨ region.sourceX = 0 ∧ region.sourceY = 0 := by
  have hpos := texelBytes_pos_of_sides hvalid hsides hone
  have hwidth := hvalid.source_width
  have hheight := hvalid.source_height
  have hlevelWidth := levelWidth_le_width call.source.toImageInfo region.sourceSub.mipLevel
  have hlevelHeight := levelHeight_le_height call.source.toImageInfo region.sourceSub.mipLevel
  have hspec := record_execute_spec hvalid hsides hfour hone
  constructor
  · intro hexact
    by_contra hsafe
    have hsamples : SamplesSafe call.source sides.1.2 call.source.width call.source.height :=
      samplesSafe_four (sides_spec hsides).1 hfour (by rw [hlayer]; exact call.source.arrayLayers_pos)
        hbytes
    -- A memory with ones in the samples due and zeros in those of the corner.
    let memory : Nat → UInt8 := fun address =>
      if address ∈ (List.range 4).map (sides.1.2.sampleAt region.sourceX region.sourceY) then 255 else 0
    have hdue : average memory (region.sourceSample sides.1.2 0 0) 0 = 255 :=
      average_const fun sample hsample =>
        if_pos (List.mem_map.2 ⟨sample, List.mem_range.2 hsample, rfl⟩)
    have hcorner : average memory (sides.1.2.sampleAt 0 0) 0 = 0 := by
      refine average_const fun sample hsample => if_neg fun hmem => ?_
      obtain ⟨other, hother, heq⟩ := List.mem_map.1 hmem
      have helement : 0 < sides.1.2.elementBytes := by
        rw [(copySide_four (sides_spec hsides).1 hfour).2.2.2.1]
        change 0 < call.source.format.blockSize
        omega
      have hapart := hsamples.apart (by omega : 0 < _) (by omega : 0 < _) hsample
        (by omega : region.sourceX < _) (by omega : region.sourceY < _) (List.mem_range.1 hother)
        (by simp only [ne_eq, Prod.mk.injEq]; omega)
      omega
    have htexel := hexact.texels memory 0 (by omega) 0 (by omega) 0 hpos
    have hleft := (hspec memory).1 0 (by omega) 0 (by omega) 0 hpos
    rw [hdue] at htexel
    rw [hcorner] at hleft
    exact absurd (htexel.symm.trans hleft) (by decide)
  · intro hsafe
    refine ⟨fun memory column hcolumn row hrow byte hbyte => ?_, fun memory => (hspec memory).2⟩
    obtain ⟨hx, hy⟩ : region.sourceX = 0 ∧ region.sourceY = 0 := by omega
    refine ((hspec memory).1 column hcolumn row hrow byte hbyte).trans ?_
    have hplaces : region.sourceSample sides.1.2 column row = sides.1.2.sampleAt column row := by
      funext sample
      rw [ResolveRegion.sourceSample, hx, hy, Nat.zero_add, Nat.zero_add]
    rw [hplaces]

end

/-- When a call's regions are resolved exactly: a region with sides is empty, or it starts at the source
level's corner and no region before it ended the recording. -/
def ResolveCall.Safe (call : ResolveCall) : Prop :=
  ∀ before region after, call.regions = before ++ region :: after → (call.sides region).isSome = true →
    region.width = 0 ∨ region.height = 0 ∨
      (∀ other ∈ before, (call.sides other).isSome = true) ∧ region.sourceX = 0 ∧ region.sourceY = 0

/-- A call is refused or its regions are resolved exactly, exactly when an accepted call is safe. -/
theorem resolveImage_exact_iff (call : ResolveCall) :
    call.Exact ↔ (call.resolveImage.isSome = true → call.Safe) := by
  have hregion {records : List (Option ImageResolve)} (hrecords : call.resolveImage = some records)
      {before after : List ResolveRegion} {region : ResolveRegion}
      (hregions : call.regions = before ++ region :: after) {sides} (hsides : call.sides region = some sides) :
      region.Exact sides (records.getD before.length none) ↔
        region.width = 0 ∨ region.height = 0 ∨
          (∀ other ∈ before, (call.sides other).isSome = true) ∧ region.sourceX = 0 ∧ region.sourceY = 0 := by
    have hvalid := call.valid region (by rw [hregions]; simp)
    unfold ResolveCall.resolveImage at hrecords
    split at hrecords
    · cases hrecords
    · rename_i hsamples
      split at hrecords
      · cases hrecords
      · rename_i hcheck
        simp only [ne_eq, not_or, not_not] at hsamples
        have hbytes : call.source.format.blockSize = 4 := by
          by_contra hne
          exact hcheck (by simp [bne_iff_ne.2 hne])
        rw [hregions] at hrecords
        obtain ⟨hrecorded, hended⟩ := recordRegions_getD hsides hrecords
        by_cases hbefore : ∀ other ∈ before, (call.sides other).isSome = true
        · obtain ⟨hrecord, hlayer⟩ := hrecorded hbefore
          rw [hrecord, exact_some_iff hvalid hsides hsamples.1 hsamples.2 hlayer hbytes,
            and_iff_right hbefore]
        · rw [hended hbefore, exact_none_iff hvalid hsides hsamples.2]
          simp only [hbefore, false_and, or_false]
  constructor
  · intro hexact haccepted before region after hregions hsides
    obtain ⟨records, hrecords⟩ := Option.isSome_iff_exists.1 haccepted
    obtain ⟨sides, hsides⟩ := Option.isSome_iff_exists.1 hsides
    exact (hregion hrecords hregions hsides).1 (hexact records hrecords before region after hregions
      sides hsides)
  · intro hsafe records hrecords before region after hregions sides hsides
    exact (hregion hrecords hregions hsides).2 (hsafe (Option.isSome_iff_exists.2 ⟨records, hrecords⟩)
      before region after hregions (Option.isSome_iff_exists.2 ⟨sides, hsides⟩))

/-- A 2x2 image of row layout. -/
def resolveTarget : BoundImage := squareImage 2 0x10000 (by decide) (by decide)

/-- One texel of the first row into the destination's corner. -/
def texelRegion (x : Nat) : ResolveRegion := ⟨⟨.colour, 0, 0⟩, ⟨.colour, 0, 0⟩, 1, 1, x, 0, 0, 0, 1, 1⟩

def texelSides : (Nat × CopySide) × (Nat × CopySide) :=
  ((16, CpuMap.fourColour.side 0x200000 2), (4, ⟨0x10000, 256, 2, 0, 0, 0, 4, 1, false, false⟩))

theorem copySide_texelSides :
    (fourSampleTarget 37 4 2 (by decide) (by decide)).copySide ⟨.colour, 0, 0⟩ = some texelSides.1 ∧
      resolveTarget.copySide ⟨.colour, 0, 0⟩ = some texelSides.2 := by
  decide +kernel

theorem texelSides_apart : (∀ x < 2, ∀ y < 2, ∀ sample < 4, 0x200000 ≤ texelSides.1.2.sampleAt x y sample) ∧
      ∀ x < 2, ∀ y < 2, texelSides.2.2.copyAddress (x : Nat) (y : Nat) 4 0 + 4 ≤ 0x200000 := by
  decide +kernel

def texelCall (x : Nat) (hx : x < 2) : ResolveCall where
  source := fourSampleTarget 37 4 2 (by decide) (by decide)
  destination := resolveTarget
  regions := [texelRegion x]
  valid := by
    intro region hmem
    obtain rfl := List.mem_singleton.1 hmem
    refine ⟨Nat.zero_lt_one, Nat.zero_lt_one, hx, (by decide +revert), (by decide +revert),
      (by decide +revert), ?_⟩
    intro sourceBytes sourceSide bytes side hsource hdestination x y sample x' y' byte byte' hx hy hsample
      hx' hy' hbyte hbyte'
    obtain ⟨rfl, rfl⟩ := Prod.mk.inj (Option.some.inj (hsource.symm.trans copySide_texelSides.1))
    obtain ⟨rfl, rfl⟩ := Prod.mk.inj (Option.some.inj (hdestination.symm.trans copySide_texelSides.2))
    have hlow := texelSides_apart.1 x hx y hy sample hsample
    have hhigh := texelSides_apart.2 x' hx' y' hy'
    change texelSides.1.2.sampleAt x y sample + byte ≠ texelSides.2.2.copyAddress x' y' 4 0 + byte'
    omega

/-- The second texel of a row is resolved from the first one's samples. -/
theorem texelCall_not_exact :
    (texelCall 1 (by decide)).resolveImage =
        some [some (ResolveCall.record (texelRegion 0) texelSides)] ∧
      ¬(texelCall 1 (by decide)).Exact := by
  have hrecords : (texelCall 1 (by decide)).resolveImage =
      some [some (ResolveCall.record (texelRegion 0) texelSides)] := by decide +kernel
  have hsides : (texelCall 1 (by decide)).sides (texelRegion 1) = some texelSides := by decide +kernel
  refine ⟨hrecords, fun hexact => ?_⟩
  have hregion : (texelRegion 1).Exact texelSides (some (ResolveCall.record (texelRegion 1) texelSides)) :=
    hexact _ hrecords [] (texelRegion 1) [] rfl texelSides hsides
  have hoffset := (exact_some_iff ((texelCall 1 (by decide)).valid _ List.mem_cons_self) hsides rfl rfl rfl
    rfl).1 hregion
  exact absurd hoffset (by decide)

end Exactness

end Ps5Vulkan.Image
