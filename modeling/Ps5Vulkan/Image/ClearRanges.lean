import Mathlib.Data.List.Perm.Basic
import Ps5Vulkan.Library.Outcome
import Ps5Vulkan.Image.Clear

/-!
# The levels a clear names

`ps5vk_CmdClearColorImage` and `ps5vk_CmdClearDepthStencilImage` record one clear for each level of each
range, in a loop that runs to the 32-bit sum of the base level and the level count. The count
`VK_REMAINING_MIP_LEVELS` is all ones, so the sum wraps around: from level 0 it runs past every level,
and from any other it ends before the first.

## Implementation notes

A record carries the subresource it was made for, which the driver's record does not; no path reads it.
-/

namespace Ps5Vulkan.Image

/-- `VK_REMAINING_MIP_LEVELS`. -/
def remainingMipLevels : Nat := 2 ^ 32 - 1

/-- `VkImageAspectFlags`; `other` is every bit but these three. -/
structure AspectMask where
  colour : Bool
  depth : Bool
  stencil : Bool
  other : Bool
  deriving DecidableEq, Repr

/-- The aspect a mask of one bit is. -/
def AspectMask.aspect : AspectMask → Aspect
  | ⟨true, false, false, false⟩ => .colour
  | ⟨false, true, false, false⟩ => .depth
  | ⟨false, false, true, false⟩ => .stencil
  | _ => .other

/-- `VkImageSubresourceRange`, from an existing level and with a count in range or all the levels that
remain. -/
structure ClearRange (info : ImageInfo) where
  aspectMask : AspectMask
  baseMipLevel : Nat
  levelCount : Nat
  baseArrayLayer : Nat
  layerCount : Nat
  base_lt : baseMipLevel < info.mipLevels
  count_valid : levelCount = remainingMipLevels ∨ baseMipLevel + levelCount ≤ info.mipLevels

namespace ClearRange

variable {info : ImageInfo} (range : ClearRange info)

/-- The levels the recorders' loop visits. -/
def loopLevels : List Nat :=
  List.range' range.baseMipLevel ((range.baseMipLevel + range.levelCount) % 2 ^ 32 - range.baseMipLevel)

/-- The levels the range names. -/
def levels : List Nat :=
  List.range' range.baseMipLevel
    (if range.levelCount = remainingMipLevels then info.mipLevels - range.baseMipLevel
      else range.levelCount)

/-- The aspects the depth and stencil recorder's inner loop visits. -/
def depthAspects : List Aspect :=
  (if range.aspectMask.depth then [.depth] else []) ++ if range.aspectMask.stencil then [.stencil] else []

end ClearRange

/-- A record of a clear. -/
inductive ClearWork where
  | clear (sub : Subresource) (record : ImageClear)
  | fill (destination bytes : Nat) (word : List UInt8)
  deriving DecidableEq, Repr

/-- A call of either command. `texel` is what `ps5vk_format_encode_clear` makes of the value. -/
structure ClearCall where
  image : BoundImage
  depthStencil : Bool
  texel : Option (List UInt8)
  stencilTexel : List UInt8
  ranges : List (ClearRange image.toImageInfo)

namespace ClearCall

variable (call : ClearCall) (texel : List UInt8)

/-- The record of one level of an aspect. -/
def recordLevel (aspect : Aspect) (level : Nat) : Option ClearWork := do
  let (texelBytes, side) ← call.image.copySide ⟨aspect, level, 0⟩
  some (.clear ⟨aspect, level, 0⟩
    { destinationSide := side
      destinationTexelBytes := texelBytes
      destinationX := 0
      destinationY := 0
      width := call.image.levelWidth level
      height := call.image.levelHeight level
      clearTexel := texel })

variable (range : ClearRange call.image.toImageInfo)

/-- The colour recorder's loop body for one range. -/
def colourRange :
    Option (List ClearWork) :=
  if range.baseArrayLayer ≠ 0 ∨ range.layerCount ≠ 1 then none
  else range.loopLevels.mapM (call.recordLevel texel range.aspectMask.aspect)

/-- `ps5vk_CmdClearColorImage` on the CPU path: the records of each range, or a refusal. -/
def clearColorImage : Option (List (List ClearWork)) :=
  if call.ranges = [] then some []
  else if call.image.format.hasDepth || call.image.format.hasStencil then none
  else do
    let texel ← call.texel
    call.ranges.mapM (call.colourRange texel)

/-- The depth and stencil recorder's loop body for one range: each aspect, and each level of it. -/
def depthRange :
    Option (List ClearWork) :=
  let mask := range.aspectMask
  if (!mask.depth && !mask.stencil) || mask.colour || mask.other ||
      (mask.stencil && !call.image.format.hasStencil) then none
  else if range.baseArrayLayer ≠ 0 ∨ range.layerCount ≠ 1 then none
  else (range.depthAspects.mapM fun aspect => range.loopLevels.mapM (call.recordLevel
    (if aspect = .stencil then call.stencilTexel else texel) aspect)).map List.flatten

/-- The storage fill of a four-sample depth image. -/
def depthFill : Option (List (List ClearWork)) :=
  match call.ranges with
  | [range] =>
    if range.aspectMask ≠ ⟨false, true, false, false⟩ ∨ range.baseMipLevel ≠ 0 ∨
        range.levelCount ≠ 1 ∨ range.baseArrayLayer ≠ 0 ∨ range.layerCount ≠ 1 then none
    else some [[.fill call.image.address call.image.size (texel.take 4)]]
  | _ => none

/-- `ps5vk_CmdClearDepthStencilImage` on the CPU path. -/
def clearDepthStencilImage : Option (List (List ClearWork)) :=
  if call.ranges = [] then some []
  else if !call.image.format.hasDepth then none
  else do
    let texel ← call.texel
    if call.image.samples = 4 then call.depthFill texel
    else call.ranges.mapM (call.depthRange texel)

/-- The records of the call's ranges. -/
def records : Option (List (List ClearWork)) :=
  if call.depthStencil then call.clearDepthStencilImage else call.clearColorImage

/-- The aspects of a range, each a plane of its own. -/
def aspects : List Aspect :=
  if call.depthStencil then range.depthAspects else [range.aspectMask.aspect]

/-- The subresources a range names. -/
def named : List Subresource :=
  (call.aspects range).flatMap fun aspect => range.levels.map fun level => ⟨aspect, level, 0⟩

end ClearCall

/-- The subresources a record clears: a fill whose bytes take in the storage clears all of them. -/
def ClearWork.covered (image : BoundImage) : ClearWork → List Subresource
  | .clear sub _ => [sub]
  | .fill destination bytes _ =>
    if destination ≤ image.address ∧ image.address + image.size ≤ destination + bytes then
      (List.range image.mipLevels).flatMap fun level =>
        (List.range image.arrayLayers).map fun layer => ⟨.depth, level, layer⟩
    else []

/-- The records clear the named subresources once each, and each over its full extent. -/
structure ClearsExactly (image : BoundImage) (named : List Subresource) (works : List ClearWork) :
    Prop where
  once : (works.flatMap (ClearWork.covered image)).Perm named
  whole : ∀ sub record, ClearWork.clear sub record ∈ works →
    image.copySide sub = some (record.destinationTexelBytes, record.destinationSide) ∧
      record.destinationX = 0 ∧ record.destinationY = 0 ∧
      record.width = image.levelWidth sub.mipLevel ∧ record.height = image.levelHeight sub.mipLevel

/-- A call is refused, or the records of each range clear what it names. -/
def ClearCall.Exact (call : ClearCall) : Prop :=
  ∀ records, call.records = some records →
    List.Forall₂ (fun range works => ClearsExactly call.image (call.named range) works) call.ranges records

/-- When an accepted call clears what it names: no range has the count of the levels that remain, and a
four-sample depth image has one level and one layer. -/
def ClearCall.Safe (call : ClearCall) : Prop :=
  (∀ range ∈ call.ranges, range.levelCount ≠ remainingMipLevels) ∧
    (call.depthStencil = true → call.image.samples = 4 → call.ranges ≠ [] →
      call.image.mipLevels = 1 ∧ call.image.arrayLayers = 1)

section Levels

variable {info : ImageInfo} {range : ClearRange info}

/-- A count in range makes the loop visit the levels the range names. -/
theorem ClearRange.loopLevels_eq (hcount : range.levelCount ≠ remainingMipLevels) :
    range.loopLevels = range.levels := by
  have hrange := range.count_valid.resolve_left hcount
  have hlevels := info.mipLevels_le
  unfold maxMipLevels at hlevels
  rw [loopLevels, levels, if_neg hcount, Nat.mod_eq_of_lt (by omega), Nat.add_sub_cancel_left]

/-- The count of the levels that remain makes it visit too many or none. -/
theorem ClearRange.length_loopLevels_ne (hcount : range.levelCount = remainingMipLevels) :
    range.loopLevels.length ≠ range.levels.length := by
  have hbase := range.base_lt
  have hlevels := info.mipLevels_le
  unfold maxMipLevels at hlevels
  rw [loopLevels, levels, if_pos hcount, hcount, List.length_range', List.length_range', remainingMipLevels]
  omega

end Levels

section Records

variable {call : ClearCall} {texel : List UInt8} {aspect : Aspect} {level : Nat}

/-- The record of a level is of the whole level. -/
theorem recordLevel_spec {work : ClearWork} (h : call.recordLevel texel aspect level = some work) :
    work.covered call.image = [⟨aspect, level, 0⟩] ∧ ∀ sub record, work = .clear sub record →
      call.image.copySide sub = some (record.destinationTexelBytes, record.destinationSide) ∧
        record.destinationX = 0 ∧ record.destinationY = 0 ∧ record.width = call.image.levelWidth sub.mipLevel ∧
        record.height = call.image.levelHeight sub.mipLevel := by
  simp only [ClearCall.recordLevel, Option.bind_eq_bind, Option.bind_eq_some_iff, Option.some.injEq] at h
  obtain ⟨⟨texelBytes, side⟩, hside, rfl⟩ := h
  refine ⟨rfl, fun sub record heq => ?_⟩
  obtain ⟨rfl, rfl⟩ := ClearWork.clear.inj heq
  exact ⟨hside, rfl, rfl, rfl, rfl⟩

/-- What the records of some levels of an aspect clear. -/
theorem recordLevels_spec {levels : List Nat} {works : List ClearWork}
    (h : levels.mapM (call.recordLevel texel aspect) = some works) :
    works.flatMap (ClearWork.covered call.image) = levels.map (fun level => ⟨aspect, level, 0⟩) ∧
      ∀ work ∈ works, ∃ level, call.recordLevel texel aspect level = some work := by
  have hall := Outcome.forall₂_of_mapM h
  clear h
  induction hall with
  | nil => exact ⟨rfl, fun work hmem => absurd hmem List.not_mem_nil⟩
  | cons hfirst _ ih =>
    constructor
    · rw [List.flatMap_cons, (recordLevel_spec hfirst).1, ih.1]
      rfl
    · intro work hmem
      rcases List.mem_cons.1 hmem with rfl | hmem
      · exact ⟨_, hfirst⟩
      · exact ih.2 work hmem

/-- What the records of some levels of some aspects clear. -/
theorem recordAspects_spec {texelOf : Aspect → List UInt8} {aspects : List Aspect} {levels : List Nat}
    {parts : List (List ClearWork)}
    (h : (aspects.mapM fun aspect => levels.mapM (call.recordLevel (texelOf aspect) aspect)) = some parts) :
    parts.flatten.flatMap (ClearWork.covered call.image) =
        (aspects.flatMap fun aspect => levels.map fun level => ⟨aspect, level, 0⟩) ∧
      ∀ work ∈ parts.flatten, ∃ texel aspect level, call.recordLevel texel aspect level = some work := by
  have hall := Outcome.forall₂_of_mapM h
  clear h
  induction hall with
  | nil => exact ⟨rfl, fun work hmem => absurd hmem List.not_mem_nil⟩
  | cons hfirst _ ih =>
    obtain ⟨hcovered, hrecorded⟩ := recordLevels_spec hfirst
    constructor
    · rw [List.flatten_cons, List.flatMap_append, List.flatMap_cons, hcovered, ih.1]
    · intro work hmem
      rcases List.mem_append.1 hmem with hmem | hmem
      · exact ⟨_, _, hrecorded work hmem⟩
      · exact ih.2 work hmem

variable {range : ClearRange call.image.toImageInfo} {works : List ClearWork}

/-- Records that cover the levels the loop visits clear what the range names exactly when its count is
in range. -/
theorem clearsExactly_iff (haspects : call.aspects range ≠ [])
    (hcovered : works.flatMap (ClearWork.covered call.image) =
      (call.aspects range).flatMap fun aspect => range.loopLevels.map fun level => ⟨aspect, level, 0⟩)
    (hrecorded : ∀ work ∈ works, ∃ texel aspect level, call.recordLevel texel aspect level = some work) :
    ClearsExactly call.image (call.named range) works ↔ range.levelCount ≠ remainingMipLevels := by
  constructor
  · intro hexact hcount
    have hlength := hexact.once.length_eq
    rw [hcovered, ClearCall.named] at hlength
    simp only [List.length_flatMap, List.length_map, List.map_const', List.sum_replicate_nat] at hlength
    have hpos : 0 < (call.aspects range).length := List.length_pos_iff.2 haspects
    exact ClearRange.length_loopLevels_ne hcount (Nat.eq_of_mul_eq_mul_left hpos hlength)
  · intro hcount
    constructor
    · rw [hcovered, ClearRange.loopLevels_eq hcount, ClearCall.named]
    · intro sub record hmem
      obtain ⟨texel, aspect, level, hwork⟩ := hrecorded _ hmem
      exact (recordLevel_spec hwork).2 sub record rfl

theorem colourRange_exact_iff (hcommand : call.depthStencil = false)
    (hworks : call.colourRange texel range = some works) :
    ClearsExactly call.image (call.named range) works ↔ range.levelCount ≠ remainingMipLevels := by
  have haspects : call.aspects range = [range.aspectMask.aspect] := by
    rw [ClearCall.aspects, hcommand, if_neg Bool.false_ne_true]
  unfold ClearCall.colourRange at hworks
  split at hworks
  · cases hworks
  · obtain ⟨hcovered, hrecorded⟩ := recordLevels_spec hworks
    refine clearsExactly_iff (by rw [haspects]; simp) ?_ fun work hmem => ⟨_, _, hrecorded work hmem⟩
    rw [hcovered, haspects, List.flatMap_singleton]

theorem depthRange_exact_iff (hcommand : call.depthStencil = true) (hworks : call.depthRange texel range = some works) :
    ClearsExactly call.image (call.named range) works ↔ range.levelCount ≠ remainingMipLevels := by
  have haspects : call.aspects range = range.depthAspects := by
    rw [ClearCall.aspects, hcommand, if_pos rfl]
  unfold ClearCall.depthRange at hworks
  dsimp only at hworks
  split at hworks
  · cases hworks
  · rename_i hmask
    split at hworks
    · cases hworks
    · obtain ⟨parts, hparts, rfl⟩ := Option.map_eq_some_iff.1 hworks
      obtain ⟨hcovered, hrecorded⟩ := recordAspects_spec hparts
      refine clearsExactly_iff ?_ (by rw [hcovered, haspects]) hrecorded
      rw [haspects]
      intro hnil
      apply hmask
      simp only [ClearRange.depthAspects, List.append_eq_nil_iff, ite_eq_right_iff, List.cons_ne_nil,
        imp_false, Bool.not_eq_true] at hnil
      simp [hnil.1, hnil.2]

/-- A storage fill clears what its range names when the image has one level and one layer. -/
theorem depthFill_exact_iff {records : List (List ClearWork)} (hcommand : call.depthStencil = true)
    (hrecords : call.depthFill texel = some records) :
    (List.Forall₂ (fun range works => ClearsExactly call.image (call.named range) works) call.ranges
      records ↔ call.image.mipLevels = 1 ∧ call.image.arrayLayers = 1) ∧
    ∀ range ∈ call.ranges, range.levelCount ≠ remainingMipLevels := by
  unfold ClearCall.depthFill at hrecords
  split at hrecords
  · rename_i range hranges
    split at hrecords
    · cases hrecords
    · rename_i hwhole
      simp only [ne_eq, not_or, not_not] at hwhole
      obtain ⟨hmask, hbase, hcount, -⟩ := hwhole
      obtain rfl := Option.some.inj hrecords
      have hremaining : range.levelCount ≠ remainingMipLevels := by
        rw [hcount, remainingMipLevels]
        decide
      have hnamed : call.named range = [⟨.depth, 0, 0⟩] := by
        simp [ClearCall.named, ClearCall.aspects, ClearRange.depthAspects, ClearRange.levels, hcommand, hmask,
          hbase, hcount, remainingMipLevels]
      rw [hranges]
      refine ⟨?_, by simpa using hremaining⟩
      rw [List.forall₂_cons, and_iff_left List.Forall₂.nil, hnamed]
      constructor
      · intro hexact
        have hlength := hexact.once.length_eq
        simp only [ClearWork.covered, Nat.le_refl, and_self, if_true, List.flatMap_cons, List.flatMap_nil,
          List.append_nil, List.length_flatMap, List.length_map, List.length_range, List.map_const', List.sum_replicate_nat,
          List.length_singleton] at hlength
        exact ⟨Nat.eq_one_of_mul_eq_one_right hlength, Nat.eq_one_of_mul_eq_one_left hlength⟩
      · rintro ⟨hlevels, hlayers⟩
        constructor
        · simp [ClearWork.covered, hlevels, hlayers]
        · intro sub record hmem
          cases List.mem_singleton.1 hmem
  · cases hrecords

/-- The records of an accepted call clear what its ranges name exactly when the call is safe. -/
theorem records_exact_iff {records : List (List ClearWork)} (hrecords : call.records = some records) :
    List.Forall₂ (fun range works => ClearsExactly call.image (call.named range) works) call.ranges records ↔
      call.Safe := by
  unfold ClearCall.records ClearCall.clearDepthStencilImage ClearCall.clearColorImage at hrecords
  by_cases hranges : call.ranges = []
  · rw [if_pos hranges, if_pos hranges, ite_self] at hrecords
    rw [← Option.some.inj hrecords, hranges]
    refine iff_of_true .nil ⟨?_, fun _ _ hne => absurd hranges hne⟩
    rw [hranges]
    exact fun range hmem => absurd hmem List.not_mem_nil
  rw [if_neg hranges, if_neg hranges] at hrecords
  cases hcommand : call.depthStencil with
  | false =>
    rw [hcommand, if_neg Bool.false_ne_true] at hrecords
    split at hrecords
    · cases hrecords
    · obtain ⟨texel, -, hmap⟩ := Option.bind_eq_some_iff.1 hrecords
      have hall := (Outcome.forall₂_of_mapM hmap).imp fun range works hworks =>
        colourRange_exact_iff hcommand hworks
      rw [Outcome.forall₂_iff_forall_mem hall, ClearCall.Safe, hcommand]
      simp
  | true =>
    rw [hcommand, if_pos rfl] at hrecords
    split at hrecords
    · cases hrecords
    · obtain ⟨texel, -, hmap⟩ := Option.bind_eq_some_iff.1 hrecords
      by_cases hfour : call.image.samples = 4
      · rw [if_pos hfour] at hmap
        obtain ⟨hiff, hcounts⟩ := depthFill_exact_iff hcommand hmap
        rw [hiff, ClearCall.Safe, and_iff_right hcounts]
        exact ⟨fun h _ _ _ => h, fun h => h hcommand hfour hranges⟩
      · rw [if_neg hfour] at hmap
        have hall := (Outcome.forall₂_of_mapM hmap).imp fun range works hworks =>
          depthRange_exact_iff hcommand hworks
        rw [Outcome.forall₂_iff_forall_mem hall, ClearCall.Safe]
        simp [hfour]

end Records

/-- A clear is refused or clears exactly what its ranges name, exactly when an accepted call is safe. -/
theorem clear_exact_iff (call : ClearCall) :
    call.Exact ↔ (call.records.isSome = true → call.Safe) := by
  constructor
  · intro hexact haccepted
    obtain ⟨records, hrecords⟩ := Option.isSome_iff_exists.1 haccepted
    exact (records_exact_iff hrecords).1 (hexact records hrecords)
  · intro hsafe records hrecords
    exact (records_exact_iff hrecords).2 (hsafe (Option.isSome_iff_exists.2 ⟨records, hrecords⟩))

/-- A 64x64 image of three levels in row layout. -/
def threeLevels : BoundImage :=
  ⟨.ofShape (.colour 37 4) 64 64 3 1 1 false false (by decide), 0x200000⟩

/-- Two layers of a four-sample depth target. -/
def depthLayers : BoundImage :=
  ⟨.ofShape .d32 64 64 1 2 4 true false (by decide), 0x200000⟩

/-- A clear of the levels from 1 on. -/
def remainingClear : ClearCall where
  image := threeLevels
  depthStencil := false
  texel := some (List.replicate 16 0)
  stencilTexel := []
  ranges := [⟨⟨true, false, false, false⟩, 1, remainingMipLevels, 0, 1, by decide, by decide⟩]

/-- A clear of the first of two layers. -/
def firstLayerClear : ClearCall where
  image := depthLayers
  depthStencil := true
  texel := some (List.replicate 16 0)
  stencilTexel := List.replicate 16 0
  ranges := [⟨⟨false, true, false, false⟩, 0, 1, 0, 1, by decide, by decide⟩]

/-- The levels that remain from level 1 are two, and no record is made; a clear of one layer of a
four-sample depth image fills both. -/
theorem remainingClear_not_exact :
    (remainingClear.records = some [[]] ∧
      remainingClear.ranges.map remainingClear.named = [[⟨.colour, 1, 0⟩, ⟨.colour, 2, 0⟩]] ∧
      ¬remainingClear.Exact) ∧
    firstLayerClear.records = some [[.fill 0x200000 depthLayers.size [0, 0, 0, 0]]] ∧
      firstLayerClear.ranges.map firstLayerClear.named = [[⟨.depth, 0, 0⟩]] ∧ ¬firstLayerClear.Exact := by
  have hnothing : remainingClear.records = some [[]] := by decide +kernel
  have hfill : firstLayerClear.records = some [[.fill 0x200000 depthLayers.size [0, 0, 0, 0]]] := by
    decide +kernel
  refine ⟨⟨hnothing, by decide +kernel, fun hexact => ?_⟩, hfill, by decide +kernel, fun hexact => ?_⟩
  · exact ((records_exact_iff hnothing).1 (hexact _ hnothing)).1 _ List.mem_cons_self rfl
  · exact absurd (((records_exact_iff hfill).1 (hexact _ hfill)).2 rfl rfl (List.cons_ne_nil _ _)).2
      (by decide)

end Ps5Vulkan.Image
