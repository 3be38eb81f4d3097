import Mathlib.Data.Rat.Floor
import Mathlib.Tactic.Ring
import Ps5Vulkan.Library.Outcome
import Ps5Vulkan.Library.WordBuffer
import Ps5Vulkan.Image.Copy

/-!
# CPU blits

`ps5vk_CmdBlitImage2KHR` records a region whose rectangles have the same size as an image copy and any
other as a scaled blit, whose step is the source's length over the length of the clipped destination.
A rectangle is a span along each axis, and a span that stops before it starts is a mirrored one. Only a
destination that is not mirrored and not clipped is blitted as the linear map asks, and of one-to-one
regions those whose runs stay in the groups of both sides.

## Implementation notes

The sample points are exact rationals where the driver has floats. The texels' bytes are those of
`imageCopyExecute` on the one-to-one path; on the scaled path a format's decode and encode are left out,
since no point and no rectangle depends on them.
-/

namespace Ps5Vulkan.Image

/-- A span of texels along one axis; one that stops before it starts is walked backwards. -/
structure Span where
  start : Int
  stop : Int
  deriving DecidableEq, Repr

namespace Span

variable (source destination : Span)

def length : Int := destination.stop - destination.start

/-- Where the linear map of the destination onto the source takes the centre of a texel. -/
def point (texel : Int) : ℚ :=
  source.start + (texel + 1 / 2 - destination.start) * (source.length / destination.length)

/-- The first texel of the part of the span in `[0, extent)`, and the one after its last. -/
def low : Int := max (min destination.start destination.stop) 0

def high (extent : Nat) : Int := min (max destination.start destination.stop) extent

/-- A texel of the span inside the extent. -/
abbrev Covers (extent : Nat) (texel : Int) : Prop :=
  destination.low ≤ texel ∧ texel < destination.high extent

/-- All of the span is inside the extent. -/
abbrev Within (extent : Nat) : Prop :=
  (0 ≤ source.start ∧ source.start ≤ extent) ∧ 0 ≤ source.stop ∧ source.stop ≤ extent

end Span

/-- One axis of a `VkImageBlit2`, with a destination whose length an `int32_t` holds. -/
structure BlitAxis where
  source : Span
  destination : Span
  destination_start : -2 ^ 31 ≤ destination.start ∧ destination.start < 2 ^ 31
  destination_stop : -2 ^ 31 ≤ destination.stop ∧ destination.stop < 2 ^ 31
  destination_length : -2 ^ 31 ≤ destination.length ∧ destination.length < 2 ^ 31

/-- `VkImageBlit2`. -/
structure BlitRegion where
  sourceSub : Subresource
  destinationSub : Subresource
  sourceLayers : Nat
  destinationLayers : Nat
  x : BlitAxis
  y : BlitAxis

/-- What a blit asks of a region's source: a rectangle inside a level that exists, of one-sample images. -/
abbrev BlitRegion.Valid (region : BlitRegion) (source destination : BoundImage) : Prop :=
  (source.samples = 1 ∧ destination.samples = 1) ∧
    (region.sourceSub.mipLevel < source.mipLevels ∧ region.destinationSub.mipLevel < destination.mipLevels) ∧
    region.x.source.Within (source.levelWidth region.sourceSub.mipLevel) ∧
    region.y.source.Within (source.levelHeight region.sourceSub.mipLevel)

/-- `VkBlitImageInfo2`. -/
structure BlitCall where
  source : BoundImage
  destination : BoundImage
  regions : List BlitRegion
  linear : Bool

/-- What the formats contribute: `ps5vk_rgba8_texel_bytes` and whether `ps5vk_find_format` has an image
format. -/
structure FormatTable where
  encodes : Format → Bool
  sampled : Format → Bool

/-- `VK_FORMAT_R8G8B8A8_UNORM`. -/
def rgba8 : Format := .colour 37 4

/-- What `ps5vk_blit_rows` reads of a `struct ps5vk_memory_copy`. -/
structure ScaledBlit where
  linear : Bool
  sourceSide : CopySide
  destinationSide : CopySide
  sourceX : Int
  sourceY : Int
  destinationX : Nat
  destinationY : Nat
  width : Nat
  height : Nat
  sourceTexelBytes : Nat
  destinationTexelBytes : Nat
  sourceFormat : Format
  destinationFormat : Format
  sourceStepX : ℚ
  sourceStepY : ℚ
  deriving DecidableEq

/-- A record of a blit. -/
inductive BlitWork where
  | copy (record : ImageCopy)
  | scaled (record : ScaledBlit)
  deriving DecidableEq

section Recording

/-- `ps5vk_image_transfer_check` of one tiled side. -/
def transferMapped (image : BoundImage) : Bool :=
  let bytes := image.format.blockSize
  !image.tiled ||
    ((bytes == 4 || bytes == 8 || bytes == 16 || ((bytes == 1 || bytes == 2) && image.samples == 1)) &&
      (image.mipLevels == 1 || (!image.format.hasDepth && image.tiledChainOf.isSome)))

/-- `ps5vk_image_transfer_check`. -/
def imageTransferCheck (source destination : BoundImage) (sameFormat : Bool) : Bool :=
  let sourceDepth := source.format.hasDepth || source.format.hasStencil
  let destinationDepth := destination.format.hasDepth || destination.format.hasStencil
  source.address != 0 && destination.address != 0 &&
    (!sameFormat || source.format == destination.format) &&
    sourceDepth == destinationDepth && (!sourceDepth || source.format == destination.format) &&
    transferMapped source && transferMapped destination

/-- `ps5vk_image_region_sides`. -/
def imageRegionSides (source destination : BoundImage) (region : BlitRegion) :
    Option (Nat × CopySide × CopySide) :=
  let depth4 := source.samples == 4 && destination.samples == 4 && source.format.hasDepth &&
    destination.format.hasDepth && source.tiled && destination.tiled
  if ¬depth4 ∧ (source.samples ≠ 1 ∨ destination.samples ≠ 1) then none
  else if region.sourceLayers ≠ 1 ∨ region.destinationLayers ≠ 1 ∨
      region.sourceSub.baseArrayLayer ≠ 0 ∨ region.destinationSub.baseArrayLayer ≠ 0 then none
  else if region.sourceSub.aspect ≠ region.destinationSub.aspect then none
  else do
    let (texelBytes, sourceSide) ← source.copySide region.sourceSub
    let (_, destinationSide) ← destination.copySide region.destinationSub
    some (texelBytes, sourceSide, destinationSide)

namespace BlitAxis

variable (axis : BlitAxis)

def scaled : Bool := axis.source.length != axis.destination.length

/-- The destination clipped to the image. -/
def clipStart : Int := max axis.destination.start 0

def clipStop (extent : Nat) : Int := min axis.destination.stop extent

/-- The length of the clipped destination. -/
def clipLength (extent : Nat) : Nat := (axis.clipStop extent - axis.clipStart).toNat

/-- `source_step_x` and `source_step_y`. -/
def sourceStep (extent : Nat) : ℚ :=
  (axis.source.stop - axis.source.start : Int) / (max (axis.clipLength extent) 1 : Nat)

end BlitAxis

def BlitRegion.scaled (region : BlitRegion) : Bool := region.x.scaled || region.y.scaled

namespace BlitCall

variable (call : BlitCall)

/-- `ps5vk_cmd_buffer_copy_image` of one region. The destination's lengths become unsigned. -/
def copyRegion (region : BlitRegion) : Option ImageCopy := do
  let (texelBytes, sourceSide, destinationSide) ← imageRegionSides call.source call.destination region
  some
    { sourceSide := sourceSide
      destinationSide := destinationSide
      sourceX := region.x.source.start
      sourceY := region.y.source.start
      destinationX := toU32 region.x.destination.start
      destinationY := toU32 region.y.destination.start
      width := toU32 region.x.destination.length
      height := toU32 region.y.destination.length
      sourceTexelBytes := texelBytes
      reverseTexelBytes := 0 }

/-- The scaled path's body for one region, with `ps5vk_cmd_buffer_blit_image_region`. A region with
nothing between its clipped ends records nothing. -/
def scaledRegion (region : BlitRegion) : Option (List BlitWork) :=
  let width := call.destination.width
  let height := call.destination.height
  if region.x.clipStop width ≤ region.x.clipStart ∨ region.y.clipStop height ≤ region.y.clipStart then
    some []
  else do
    let (texelBytes, sourceSide, destinationSide) ← imageRegionSides call.source call.destination region
    some [.scaled
      { linear := call.linear
        sourceSide := sourceSide
        destinationSide := destinationSide
        sourceX := region.x.source.start
        sourceY := region.y.source.start
        destinationX := region.x.clipStart.toNat
        destinationY := region.y.clipStart.toNat
        width := region.x.clipLength width
        height := region.y.clipLength height
        sourceTexelBytes := texelBytes
        destinationTexelBytes := call.destination.format.blockSize
        sourceFormat := call.source.format
        destinationFormat := call.destination.format
        sourceStepX := region.x.sourceStep width
        sourceStepY := region.y.sourceStep height }]

/-- `ps5vk_CmdBlitImage2KHR` on the CPU path: the records of each region, or a refusal. The first
region decides which path the call takes. -/
def blitImage (table : FormatTable) : Option (List (List BlitWork)) :=
  match call.regions with
  | [] => some []
  | first :: _ =>
    if call.regions.any (fun region => region.scaled != first.scaled) then none
    else if !first.scaled then
      if imageTransferCheck call.source call.destination true then
        call.regions.mapM fun region => (call.copyRegion region).map ([.copy ·])
      else none
    else if !imageTransferCheck call.source call.destination false then none
    else if !table.encodes call.destination.format || !table.sampled call.source.format then none
    else if call.linear && (call.source.format != rgba8 || call.destination.format != rgba8) then none
    else call.regions.mapM call.scaledRegion

end BlitCall

end Recording

section Execution

/-- The `int32_t` an unsigned coordinate converts to. -/
def toI32 (coordinate : Nat) : Int :=
  let low : Nat := coordinate % 2 ^ 32
  if low < 2 ^ 31 then low else (low : Int) - 2 ^ 32

/-- The texels a record writes along an axis, each with the point of the source it reads at. -/
def axisSamples (first count : Nat) (point : Nat → ℚ) : List (Int × ℚ) :=
  (List.range count).map fun k => (toI32 (first + k), point k)

/-- A texel a record writes and where it samples, along x and along y. -/
abbrev Sample := (Int × ℚ) × (Int × ℚ)

/-- The texels of a rectangle, row by row. -/
def gridSamples (columns rows : List (Int × ℚ)) : List Sample :=
  rows.flatMap fun row => columns.map fun column => (column, row)

/-- The texels of an image copy's region, each with the centre of its own in the source: what the copy is
for, texel by texel. -/
def ImageCopy.samples (copy : ImageCopy) : List Sample :=
  gridSamples (axisSamples copy.destinationX copy.width fun k => copy.sourceX + k + 1 / 2)
    (axisSamples copy.destinationY copy.height fun k => copy.sourceY + k + 1 / 2)

namespace ScaledBlit

variable (blit : ScaledBlit)

def samples : List Sample :=
  gridSamples (axisSamples blit.destinationX blit.width fun k => blit.sourceX + (k + 1 / 2) * blit.sourceStepX)
    (axisSamples blit.destinationY blit.height fun k => blit.sourceY + (k + 1 / 2) * blit.sourceStepY)

end ScaledBlit

namespace BlitWork

def samples : BlitWork → List Sample
  | .copy record => record.samples
  | .scaled record => record.samples

def width : BlitWork → Nat
  | .copy record => record.width
  | .scaled record => record.width

def height : BlitWork → Nat
  | .copy record => record.height
  | .scaled record => record.height

end BlitWork

theorem toI32_of_lt {coordinate : Nat} (h : coordinate < 2 ^ 31) : toI32 coordinate = coordinate := by
  unfold toI32
  dsimp only
  split <;> omega

theorem mem_axisSamples {first count : Nat} {point : Nat → ℚ} {sample : Int × ℚ} :
    sample ∈ axisSamples first count point ↔ ∃ k < count, sample = (toI32 (first + k), point k) := by
  simp only [axisSamples, List.mem_map, List.mem_range, eq_comm]

theorem setOf_mem_gridSamples (columns rows : List (Int × ℚ)) : {sample | sample ∈ gridSamples columns rows} =
      {column | column ∈ columns} ×ˢ {row | row ∈ rows} := by
  ext ⟨column, row⟩
  simp only [gridSamples, List.mem_flatMap, List.mem_map, Set.mem_ofPred_eq, Set.mem_prod, Prod.mk.injEq]
  constructor
  · rintro ⟨row, hrow, column, hcolumn, rfl, rfl⟩
    exact ⟨hcolumn, hrow⟩
  · rintro ⟨hcolumn, hrow⟩
    exact ⟨row, hrow, column, hcolumn, rfl, rfl⟩

end Execution

section Exactness

/-- What a blit is for along an axis: every texel of the destination inside the extent, sampled where
the linear map of the whole destination onto the source takes its centre. -/
def BlitAxis.wanted (axis : BlitAxis) (extent : Nat) : Set (Int × ℚ) :=
  {sample | axis.destination.Covers extent sample.1 ∧
    sample.2 = axis.source.point axis.destination sample.1}

/-- The records of a region write the texels of its destination rectangle inside the level, each from
its own point, and none is larger than the rectangle. -/
structure BlitRegion.Exact (region : BlitRegion) (destination : BoundImage) (works : List BlitWork) :
    Prop where
  samples : {sample | ∃ work ∈ works, sample ∈ work.samples} =
    region.x.wanted (destination.levelWidth region.destinationSub.mipLevel) ×ˢ
      region.y.wanted (destination.levelHeight region.destinationSub.mipLevel)
  extent : ∀ work ∈ works, work.width ≤ region.x.destination.length.natAbs ∧
    work.height ≤ region.y.destination.length.natAbs
  /-- What a copy's runs move is what its texels are to be. -/
  copied : ∀ record, .copy record ∈ works → ∀ memory, record.imageCopyExecute memory = record.copyTexels memory

/-- A call is refused, or the records of every region are exact. -/
def BlitCall.Exact (call : BlitCall) (table : FormatTable) : Prop :=
  ∀ works, call.blitImage table = some works →
    List.Forall₂ (fun region works => region.Exact call.destination works) call.regions works

/-- The destination is not mirrored, not empty and inside the level. -/
abbrev BlitAxis.Inside (axis : BlitAxis) (level : Nat) : Prop :=
  0 ≤ axis.destination.start ∧ axis.destination.start < axis.destination.stop ∧ axis.destination.stop ≤ level

/-- The destination lies inside its level as it is, and the runs of a one-to-one copy stay in the groups
of both sides. -/
structure BlitCall.Safe (call : BlitCall) (region : BlitRegion) : Prop where
  x : region.x.Inside (call.destination.levelWidth region.destinationSub.mipLevel)
  y : region.y.Inside (call.destination.levelHeight region.destinationSub.mipLevel)
  runs : region.scaled = false → ∀ record ∈ call.copyRegion region, record.RunsAligned

namespace BlitAxis

variable {axis : BlitAxis} {extent level : Nat}

section

variable (hin : axis.Inside level)

include hin

/-- A walk of the destination reads what is wanted when each of its points is the texel's. -/
theorem axisSamples_eq_wanted (hlevel : level ≤ maxExtent2D) {first count : Nat}
    {point : Nat → ℚ} (hfirst : (first : Int) = axis.destination.start)
    (hcount : (count : Int) = axis.destination.length)
    (hpoint : ∀ k : Nat, point k = axis.source.point axis.destination (axis.destination.start + k)) :
    {sample | sample ∈ axisSamples first count point} = axis.wanted level := by
  obtain ⟨hstart, hforward, hstop⟩ := hin
  unfold Span.length at hcount
  unfold maxExtent2D at hlevel
  have htexel : ∀ k < count, toI32 (first + k) = axis.destination.start + k := by
    intro k hk
    rw [toI32_of_lt (by omega)]
    omega
  ext ⟨texel, place⟩
  simp only [Set.mem_ofPred_eq, mem_axisSamples, wanted, Span.Covers, Span.low, Span.high, Prod.mk.injEq]
  constructor
  · rintro ⟨k, hk, rfl, rfl⟩
    rw [htexel k hk]
    exact ⟨by omega, hpoint k⟩
  · rintro ⟨⟨hlow, hhigh⟩, rfl⟩
    have hk : (texel - axis.destination.start).toNat < count := by omega
    have hat : axis.destination.start + ((texel - axis.destination.start).toNat : Int) = texel := by omega
    exact ⟨_, hk, by rw [htexel _ hk, hat], by rw [hpoint, hat]⟩

theorem clip_of_inside (hlevel : level ≤ extent) :
    axis.clipStart = axis.destination.start ∧ axis.clipStop extent = axis.destination.stop ∧
      (axis.clipLength extent : Int) = axis.destination.length := by
  obtain ⟨hstart, hforward, hstop⟩ := hin
  unfold clipLength clipStart clipStop Span.length
  omega

theorem scaled_eq_wanted (hlevel : level ≤ extent) (hextent : extent ≤ maxExtent2D) :
    {sample | sample ∈ axisSamples axis.clipStart.toNat (axis.clipLength extent) fun k =>
      axis.source.start + (k + 1 / 2) * axis.sourceStep extent} = axis.wanted level := by
  obtain ⟨hstart, -, hlength⟩ := clip_of_inside hin hlevel
  have hpos : 0 < axis.clipLength extent := by
    have hforward := hin.2.1
    unfold Span.length at hlength
    omega
  refine axisSamples_eq_wanted hin (hlevel.trans hextent) ?_ hlength fun k => ?_
  · rw [hstart, Int.toNat_of_nonneg hin.1]
  · rw [sourceStep, max_eq_left hpos, Span.point, ← hlength, Span.length]
    push_cast
    ring

theorem toU32_of_inside (hlevel : level ≤ maxExtent2D) : (toU32 axis.destination.start : Int) = axis.destination.start ∧
      (toU32 axis.destination.length : Int) = axis.destination.length := by
  obtain ⟨hstart, hforward, hstop⟩ := hin
  unfold toU32 Span.length
  unfold maxExtent2D at hlevel
  omega

theorem copied_eq_wanted (hlevel : level ≤ maxExtent2D) (hsame : axis.source.length = axis.destination.length) :
    {sample | sample ∈ axisSamples (toU32 axis.destination.start) (toU32 axis.destination.length) fun k =>
      axis.source.start + k + 1 / 2} = axis.wanted level := by
  obtain ⟨hstart, hlength⟩ := toU32_of_inside hin hlevel
  refine axisSamples_eq_wanted hin hlevel hstart hlength fun k => ?_
  have hne : (axis.destination.length : ℚ) ≠ 0 := by
    have hforward := hin.2.1
    unfold Span.length
    exact_mod_cast (by omega)
  rw [Span.point, hsame, div_self hne]
  push_cast
  ring

end

end BlitAxis

section Levels

variable (info : ImageInfo) (level : Nat)

theorem levelWidth_le_width : info.levelWidth level ≤ info.width := by
  have hpos := info.width_pos
  have hshift := Nat.shiftRight_le info.width level
  unfold ImageInfo.levelWidth
  omega

theorem levelHeight_le_height : info.levelHeight level ≤ info.height := by
  have hpos := info.height_pos
  have hshift := Nat.shiftRight_le info.height level
  unfold ImageInfo.levelHeight
  omega

theorem levelWidth_le_storedWidth : info.levelWidth level ≤ info.storedWidth level := by
  unfold ImageInfo.storedWidth
  split
  · exact Nat.le_refl _
  · have hpos := Nat.two_pow_pos level
    have hceil : info.width / 2 ^ level ≤ ceilDiv info.width (2 ^ level) :=
      Nat.div_le_div_right (by omega)
    unfold ImageInfo.levelWidth ImageInfo.rowWidth
    rw [Nat.shiftRight_eq_div_pow]
    omega

theorem levelHeight_le_storedHeight : info.levelHeight level ≤ info.storedHeight level := by
  unfold ImageInfo.storedHeight
  split
  · exact Nat.le_refl _
  · have hpos := Nat.two_pow_pos level
    have hceil : info.height / 2 ^ level ≤ ceilDiv info.height (2 ^ level) :=
      Nat.div_le_div_right (by omega)
    unfold ImageInfo.levelHeight ImageInfo.rowHeight
    rw [Nat.shiftRight_eq_div_pow]
    omega

end Levels

namespace BlitCall

variable {call : BlitCall} {region : BlitRegion} {works : List BlitWork}

theorem exact_singleton {destination : BoundImage} {work : BlitWork} {columns rows : List (Int × ℚ)}
    (hsamples : work.samples = gridSamples columns rows) (hcolumns : {column | column ∈ columns} =
      region.x.wanted (destination.levelWidth region.destinationSub.mipLevel))
    (hrows : {row | row ∈ rows} = region.y.wanted (destination.levelHeight region.destinationSub.mipLevel))
    (hextent : (work.width : Int) = region.x.destination.length ∧ (work.height : Int) = region.y.destination.length)
    (hcopied : ∀ record, work = .copy record → ∀ memory, record.imageCopyExecute memory = record.copyTexels memory) :
    region.Exact destination [work] := by
  refine ⟨?_, List.forall_mem_singleton.2 (by omega), fun record hmem => hcopied record (List.mem_singleton.1 hmem).symm⟩
  rw [← hcolumns, ← hrows, ← setOf_mem_gridSamples, ← hsamples]
  simp

theorem scaledRegion_exact (hsafe : call.Safe region) (hworks : call.scaledRegion region = some works) :
    region.Exact call.destination works := by
  have hwidth := levelWidth_le_width call.destination.toImageInfo region.destinationSub.mipLevel
  have hheight := levelHeight_le_height call.destination.toImageInfo region.destinationSub.mipLevel
  obtain ⟨hstartX, hstopX, hlengthX⟩ := BlitAxis.clip_of_inside hsafe.x hwidth
  obtain ⟨hstartY, hstopY, hlengthY⟩ := BlitAxis.clip_of_inside hsafe.y hheight
  have hforwardX := hsafe.x.2.1
  have hforwardY := hsafe.y.2.1
  unfold scaledRegion at hworks
  dsimp only at hworks
  rw [if_neg (by omega)] at hworks
  simp only [Option.bind_eq_bind, Option.bind_eq_some_iff, Option.some.injEq] at hworks
  obtain ⟨⟨texelBytes, sourceSide, destinationSide⟩, -, rfl⟩ := hworks
  exact exact_singleton rfl (BlitAxis.scaled_eq_wanted hsafe.x hwidth call.destination.width_le)
    (BlitAxis.scaled_eq_wanted hsafe.y hheight call.destination.height_le) ⟨hlengthX, hlengthY⟩
    fun record heq => by cases heq

/-- Planes of one aspect and format have elements of one size. -/
theorem plane_elementBytes {info info' : ImageInfo} {aspect : Aspect} {plane plane' : Plane}
    (hplane : info.plane aspect = some plane) (hplane' : info'.plane aspect = some plane')
    (hformat : info.format = info'.format) : plane.elementBytes = plane'.elementBytes := by
  simp only [ImageInfo.plane, hformat] at hplane hplane'
  split_ifs at hplane hplane' <;> cases hplane <;> cases hplane' <;> rfl

/-- The sides of a copy between images of one format. -/
theorem sideOf_imageRegionSides {texelBytes : Nat} {sourceSide destinationSide : CopySide}
    (hvalid : region.Valid call.source call.destination) (hformat : call.source.format = call.destination.format)
    (hsides : imageRegionSides call.source call.destination region = some (texelBytes, sourceSide, destinationSide)) :
    SideOf texelBytes sourceSide (call.source.storedWidth region.sourceSub.mipLevel)
        (call.source.storedHeight region.sourceSub.mipLevel) ∧
      SideOf texelBytes destinationSide (call.destination.storedWidth region.destinationSub.mipLevel)
        (call.destination.storedHeight region.destinationSub.mipLevel) := by
  obtain ⟨⟨hsource, hdestination⟩, ⟨hlevel, hlevel'⟩, -⟩ := hvalid
  unfold imageRegionSides at hsides
  dsimp only at hsides
  split_ifs at hsides with hsamples hlayers haspect
  simp only [Option.bind_eq_bind, Option.bind_eq_some_iff, Option.some.injEq] at hsides
  obtain ⟨⟨bytes, side⟩, hside, ⟨bytes', side'⟩, hside', heq⟩ := hsides
  obtain ⟨rfl, rfl, rfl⟩ := heq
  obtain ⟨plane, hplane, -, -, hbytes, -⟩ := copySide_cases hside
  obtain ⟨plane', hplane', -, -, hbytes', -⟩ := copySide_cases hside'
  rw [← not_not.1 haspect] at hplane'
  have hsame : bytes' = bytes := by
    rw [hbytes, hbytes', hsource, hdestination, plane_elementBytes hplane hplane' hformat]
  exact ⟨.image _ _ hside hsource hlevel, .image _ _ (hsame ▸ hside') hdestination hlevel'⟩

theorem copyRegion_exact (hvalid : region.Valid call.source call.destination) (hsafe : call.Safe region)
    (hformat : call.source.format = call.destination.format) (hscaled : region.scaled = false) {record : ImageCopy}
    (hrecord : call.copyRegion region = some record) : region.Exact call.destination [.copy record] := by
  have haligned := hsafe.runs hscaled record hrecord
  simp only [BlitRegion.scaled, BlitAxis.scaled, Bool.or_eq_false_iff, bne_eq_false_iff_eq] at hscaled
  simp only [copyRegion, Option.bind_eq_bind, Option.bind_eq_some_iff, Option.some.injEq] at hrecord
  obtain ⟨⟨texelBytes, sourceSide, destinationSide⟩, hsides, rfl⟩ := hrecord
  obtain ⟨hsource, hdestination⟩ := sideOf_imageRegionSides hvalid hformat hsides
  have hstoredX := levelWidth_le_storedWidth call.source.toImageInfo region.sourceSub.mipLevel
  have hstoredY := levelHeight_le_storedHeight call.source.toImageInfo region.sourceSub.mipLevel
  have hstoredX' := levelWidth_le_storedWidth call.destination.toImageInfo region.destinationSub.mipLevel
  have hstoredY' := levelHeight_le_storedHeight call.destination.toImageInfo region.destinationSub.mipLevel
  have hlevelX := (levelWidth_le_width call.destination.toImageInfo region.destinationSub.mipLevel).trans
    call.destination.width_le
  have hlevelY := (levelHeight_le_height call.destination.toImageInfo region.destinationSub.mipLevel).trans
    call.destination.height_le
  obtain ⟨hstartX, hlengthX⟩ := BlitAxis.toU32_of_inside hsafe.x hlevelX
  obtain ⟨hstartY, hlengthY⟩ := BlitAxis.toU32_of_inside hsafe.y hlevelY
  refine exact_singleton rfl (BlitAxis.copied_eq_wanted hsafe.x hlevelX hscaled.1)
    (BlitAxis.copied_eq_wanted hsafe.y hlevelY hscaled.2) ⟨hlengthX, hlengthY⟩ ?_
  rintro record ⟨⟩ memory
  obtain ⟨-, -, ⟨hlowX, hhighX⟩, hlowY, hhighY⟩ := hvalid
  obtain ⟨hinX, -, hstopX⟩ := hsafe.x
  obtain ⟨hinY, -, hstopY⟩ := hsafe.y
  unfold Span.length at *
  rw [ImageCopy.imageCopyExecute, ImageCopy.copyTexels, ImageCopy.copyMoves_eq_texelMoves hsource hdestination
    ⟨by dsimp only; omega, by dsimp only; omega, by dsimp only; omega, by dsimp only; omega⟩ haligned]

/-- The records of an accepted call are those of its regions, all on one path. -/
theorem blitImage_spec {table : FormatTable} {works : List (List BlitWork)}
    (h : call.blitImage table = some works) : List.Forall₂ (fun region works =>
      region ∈ call.regions ∧ (call.scaledRegion region = some works ∨
        call.source.format = call.destination.format ∧ region.scaled = false ∧
          (call.copyRegion region).map ([.copy ·]) = some works)) call.regions works := by
  unfold blitImage at h
  split at h
  next hnil =>
    obtain rfl := Option.some.inj h
    rw [hnil]
    exact .nil
  next first rest hregions =>
    split_ifs at h with hmixed hscaled hcheck
    · refine ((List.forall₂_and_left _ _).2 ⟨fun _ hmem => hmem, Outcome.forall₂_of_mapM h⟩).imp ?_
      rintro region works ⟨hmem, hworks⟩
      refine ⟨hmem, .inr ⟨?_, ?_, hworks⟩⟩
      · simp only [imageTransferCheck, Bool.and_eq_true] at hcheck
        simpa using hcheck.1.1.1.1.2
      · by_contra hne
        refine hmixed (List.any_eq_true.2 ⟨region, hmem, bne_iff_ne.2 fun heq => hne (heq.trans ?_)⟩)
        simpa using hscaled
    · refine ((List.forall₂_and_left _ _).2 ⟨fun _ hmem => hmem, Outcome.forall₂_of_mapM h⟩).imp ?_
      exact fun region works hworks => ⟨hworks.1, .inl hworks.2⟩

end BlitCall

/-- A square image of row layout. -/
def squareImage (size address : Nat) (hpos : 0 < size) (hle : size ≤ maxExtent2D) : BoundImage :=
  ⟨.ofShape rgba8 size size 1 1 1 false false
    ⟨⟨hpos, hle⟩, ⟨hpos, hle⟩, by decide, by decide, by decide, fun h => absurd h (by decide)⟩, address⟩

/-- A table of one format. -/
def unormTable : FormatTable where
  encodes format := format == rgba8
  sampled format := format == rgba8

def upAxis : BlitAxis :=
  ⟨⟨0, 8⟩, ⟨0, 16⟩, by decide, by decide, by decide⟩

def mirroredAxis : BlitAxis :=
  ⟨⟨0, 8⟩, ⟨16, 0⟩, by decide, by decide, by decide⟩

def turnedAxis : BlitAxis :=
  ⟨⟨8, 0⟩, ⟨8, 0⟩, by decide, by decide, by decide⟩

def sameAxis : BlitAxis :=
  ⟨⟨0, 8⟩, ⟨0, 8⟩, by decide, by decide, by decide⟩

def clippedAxis : BlitAxis :=
  ⟨⟨0, 8⟩, ⟨-16, 16⟩, by decide, by decide, by decide⟩

/-- A region of one-level images. -/
def smallRegion (x y : BlitAxis) : BlitRegion :=
  ⟨⟨.colour, 0, 0⟩, ⟨.colour, 0, 0⟩, 1, 1, x, y⟩

/-- A blit into a 16x16 image. -/
def blitFrom (source : BoundImage) (x y : BlitAxis) : BlitCall where
  source := source
  destination := squareImage 16 0x20000 (by decide) (by decide)
  regions := [smallRegion x y]
  linear := false

/-- A blit of the 8x8 image. -/
def smallBlit : BlitAxis → BlitAxis → BlitCall :=
  blitFrom (squareImage 8 0x10000 (by decide) (by decide))

/-- Four columns of the source into the first four of the destination. -/
def columnAxis (start : Int) : BlitAxis :=
  ⟨⟨start, start + 4⟩, ⟨0, 4⟩, by decide, by decide, by decide⟩

/-- What an exact blit of one region records. -/
theorem exact_records {source : BoundImage} {x y : BlitAxis} {works : List (List BlitWork)}
    (hexact : (blitFrom source x y).Exact unormTable) (hworks : (blitFrom source x y).blitImage unormTable = some works) :
    ∃ records, works = [records] ∧
      (smallRegion x y).Exact (squareImage 16 0x20000 (by decide) (by decide)) records := by
  have hall := hexact works hworks
  cases hall with
  | cons hfirst hrest => cases hrest with | nil => exact ⟨_, rfl, hfirst⟩

theorem not_exact_of_missed {x y : BlitAxis} (column row : Int)
    (haccepted : ((smallBlit x y).blitImage unormTable).isSome)
    (hcolumn : x.destination.Covers 16 column) (hrow : y.destination.Covers 16 row)
    (hmissed : ((smallBlit x y).blitImage unormTable).all (·.all (·.all fun work => !work.samples.contains
      ((column, x.source.point x.destination column), row, y.source.point y.destination row)))) :
    ¬(smallBlit x y).Exact unormTable := by
  intro hexact
  obtain ⟨works, hworks⟩ := Option.isSome_iff_exists.1 haccepted
  obtain ⟨records, rfl, hrecords⟩ := exact_records hexact hworks
  have hwanted : ((column, x.source.point x.destination column), row, y.source.point y.destination row) ∈
      {sample | ∃ work ∈ records, sample ∈ work.samples} := by
    rw [hrecords.samples]
    exact ⟨⟨hcolumn, rfl⟩, hrow, rfl⟩
  obtain ⟨work, hwork, hmem⟩ := hwanted
  rw [hworks] at hmissed
  simp only [Option.all_some, List.all_cons, List.all_nil, Bool.and_true, List.all_eq_true, Bool.not_eq_true',
    List.contains_eq_mem, decide_eq_false_iff_not] at hmissed
  exact hmissed work hwork hmem

/-- The copy of the tiled columns from the second on. -/
def misread : ImageCopy :=
  { readbackFrom 1 with destinationSide := ⟨0x20000, 256, 16, 0, 0, 0, 4, 1, false, false⟩, height := 4 }

end Exactness

end Ps5Vulkan.Image
