import Ps5Vulkan.Image.Eviction
import Ps5Vulkan.Image.Resolve
import Ps5Vulkan.Image.Upload
import Ps5Vulkan.Query.Copies

/-!
# Indirect parameters and recorded writes

The parameters of an indirect draw or dispatch are read when it is recorded, so one whose parameters
the command buffer itself writes has to be refused (`ps5vk_cmd_buffer_writes_range`). The test looks at
the destination and bytes of each record. Copies, fills and updates write there; a readback and a copy
of query results say elsewhere what they write, and the test passes them by.

## Implementation notes

A range of bytes ends below 2⁶⁴, as memory does: the address after its last byte can be named. What a
blit writes is taken to be the whole rectangle it is for.
-/

namespace Ps5Vulkan.Record

open Ps5Vulkan.Image (ImageCopy ImageWrite ImageClear ImageResolve ScaledBlit CopySide bufferSide runMoves)
open Ps5Vulkan.Query (QueryCopy queryExecute resultBytes)

/-- A range of bytes. -/
structure ByteRange where
  address : Nat
  bytes : Nat
  ends : address + bytes < 2 ^ 64

/-- The byte lies in the range. -/
def ByteRange.Contains (range : ByteRange) (a : Nat) : Prop :=
  range.address ≤ a ∧ a < range.address + range.bytes

/-- A record of a copy, an update or a fill. -/
structure ByteCopy where
  source : Nat
  destination : ByteRange
  fillValue : Option UInt32
  reverseTexelBytes : Nat

/-- `struct ps5vk_memory_copy`, by what the queue does with it. An event or a split moves nothing. -/
inductive CpuRecord where
  | copy (copy : ByteCopy)
  | resolve (resolve : ImageResolve)
  | blit (blit : ScaledBlit)
  | imageWrite (upload : ImageWrite)
  | imageCopy (copy : ImageCopy)
  | clear (clear : ImageClear)
  | query (copy : QueryCopy)
  | event
  | split

/-- The bytes a copy, an update or a fill writes. -/
def ByteCopy.Writes (copy : ByteCopy) (a : Nat) : Prop :=
  match copy.fillValue with
  | some _ => ∃ word < copy.destination.bytes / 4,
      copy.destination.address + 4 * word ≤ a ∧ a < copy.destination.address + 4 * word + 4
  | none => LandsOn (runMoves copy.reverseTexelBytes copy.reverseTexelBytes copy.destination.address
      copy.source copy.destination.bytes) a

namespace CpuRecord

/-- The bytes a record writes when the queue runs it. -/
def Writes : CpuRecord → Nat → Prop
  | .copy record, a => record.Writes a
  | .resolve record, a => ∃ texel ∈ record.texels,
      record.destinationAt texel.2 texel.1 ≤ a ∧
        a < record.destinationAt texel.2 texel.1 + record.destinationTexelBytes
  | .blit record, a => ∃ sample ∈ record.samples,
      let texel := record.destinationSide.copyAddress sample.1.1 sample.2.1
        record.destinationTexelBytes 0
      texel ≤ a ∧ a < texel + record.destinationTexelBytes
  | .imageWrite record, a => LandsOn record.moves a
  | .imageCopy record, a => LandsOn record.copyMoves a
  | .clear record, a => ∃ write ∈ record.writes, write.1 ≤ a ∧ a < write.1 + write.2.length
  | .query record, a => ∃ write ∈ queryExecute (fun _ _ => 0) record,
      write.1.toNat ≤ a ∧ a < write.1.toNat + write.2.length
  | .event, _ => False
  | .split, _ => False

/-- The field `blit`. -/
def isBlit : CpuRecord → Bool
  | .blit _ => true
  | _ => false

/-- The field `clear`. -/
def isClear : CpuRecord → Bool
  | .clear _ => true
  | _ => false

/-- The field `destination`. -/
def destination : CpuRecord → Nat
  | .copy record => record.destination.address
  | .query record => record.destination.toNat
  | _ => 0

/-- The field `bytes`. -/
def bytes : CpuRecord → Nat
  | .copy record => record.destination.bytes
  | _ => 0

end CpuRecord

/-- `ps5vk_cmd_buffer_writes_range`. -/
def writesRange (records : List CpuRecord) (range : ByteRange) : Bool :=
  records.any fun record =>
    !(record.isBlit || record.isClear || record.bytes == 0) &&
      (decide (range.address < (record.destination + record.bytes) % 2 ^ 64) &&
        decide (record.destination < (range.address + range.bytes) % 2 ^ 64))

/-! ## Indirect draws and dispatches -/

/-- The parameters of an indirect draw or dispatch. Valid usage: they lie in the buffer. -/
structure IndirectRead where
  buffer : Query.Buffer
  offset : Nat
  count : Nat
  stride : Nat
  commandBytes : Nat
  count_pos : 0 < count
  inside : offset + ((count - 1) * stride + commandBytes) ≤ buffer.size.toNat
  ends : buffer.address.toNat + buffer.size.toNat < 2 ^ 64

/-- Why an indirect draw or dispatch is refused. -/
inductive IndirectRefusal where
  | noAddress
  | parametersWritten
  deriving DecidableEq, Repr

namespace IndirectRead

variable (read : IndirectRead)

/-- The address of the first parameters. -/
def firstAddress : Nat := read.buffer.address.toNat + read.offset

/-- The range the parameters lie in. -/
def range : ByteRange where
  address := read.firstAddress
  bytes := (read.count - 1) * read.stride + read.commandBytes
  ends := by
    have hinside := read.inside
    have hends := read.ends
    unfold firstAddress
    omega

/-- `ps5vk_cmd_draw_indirect` and `ps5vk_CmdDispatchIndirect`: the addresses the parameters of each
draw are read from. -/
def record (records : List CpuRecord) : Except IndirectRefusal (List Nat) :=
  if read.buffer.address = 0 then .error .noAddress
  else if writesRange records read.range then .error .parametersWritten
  else .ok ((List.range read.count).map fun draw => read.firstAddress + draw * read.stride)

end IndirectRead

section Commands

variable (buffer : Query.Buffer) (offset : Nat) (hends : buffer.address.toNat + buffer.size.toNat < 2 ^ 64)

/-- The bytes of `VkDrawIndirectCommand` or `VkDrawIndexedIndirectCommand`. -/
def drawCommandBytes (indexed : Bool) : Nat := if indexed then 20 else 16

/-- `vkCmdDrawIndirect` and `vkCmdDrawIndexedIndirect` of some draws. -/
def drawIndirect (drawCount stride : Nat) (indexed : Bool) (hcount : 0 < drawCount)
    (hinside : offset + ((drawCount - 1) * stride + drawCommandBytes indexed) ≤ buffer.size.toNat) :
    IndirectRead :=
  ⟨buffer, offset, drawCount, stride, drawCommandBytes indexed, hcount, hinside, hends⟩

/-- `vkCmdDispatchIndirect`. -/
def dispatchIndirect (hinside : offset + 12 ≤ buffer.size.toNat) : IndirectRead :=
  ⟨buffer, offset, 1, 0, 12, Nat.one_pos, by simpa using hinside, hends⟩

end Commands

/-! ## What the test finds -/

/-- Some record writes a byte of the range. -/
def Written (records : List CpuRecord) (range : ByteRange) : Prop :=
  ∃ record ∈ records, ∃ a, record.Writes a ∧ range.Contains a

/-- The test finds the range where it is written, and no parameters in it are read that a record writes. -/
structure WritesFound (records : List CpuRecord) (range : ByteRange) : Prop where
  ranges : Written records range → writesRange records range = true
  reads : ∀ (read : IndirectRead) addresses, read.range = range → read.record records = .ok addresses →
    ∀ first ∈ addresses, ∀ record ∈ records, ∀ a, record.Writes a →
      ¬ (first ≤ a ∧ a < first + read.commandBytes)

/-- The address after the last result of a copy. -/
def queryEnd (copy : QueryCopy) : Nat :=
  copy.destination.toNat + (copy.count.toNat - 1) * copy.stride.toNat + resultBytes copy.flags

/-- A rectangle of a side's texels. -/
structure ImageRegion where
  side : CopySide
  x : Nat
  y : Nat
  width : Nat
  height : Nat
  texelBytes : Nat

/-- Where a sample of a texel of the rectangle lies. -/
def ImageRegion.texelAt (region : ImageRegion) (column row sample : Nat) : Nat :=
  region.side.copyAddress (region.x + column : Nat) (region.y + row : Nat) region.texelBytes sample

/-- The byte lies in a row of the rectangle, from a texel on. -/
def ImageRegion.Covers (region : ImageRegion) (a : Nat) : Prop :=
  ∃ column < region.width, ∃ row < region.height, ∃ sample < 4, region.texelAt column row sample ≤ a ∧
    a < region.texelAt column row sample + (region.width - column) * region.texelBytes

/-- The rectangle a record writes, of an image or a buffer's rows. -/
def CpuRecord.region? : CpuRecord → Option ImageRegion
  | .resolve r => some ⟨r.destinationSide, r.destinationX, r.destinationY, r.width, r.height, r.destinationTexelBytes⟩
  | .blit r => some ⟨r.destinationSide, r.destinationX, r.destinationY, r.width, r.height, r.destinationTexelBytes⟩
  | .imageWrite r => some ⟨r.destinationSide, r.destinationX, r.destinationY, r.width, r.height, r.destinationTexelBytes⟩
  | .imageCopy r => some ⟨r.destinationSide, r.destinationX, r.destinationY, r.width, r.height, r.sourceTexelBytes⟩
  | .clear r => some ⟨r.destinationSide, r.destinationX, r.destinationY, r.width, r.height, r.sampleBytes⟩
  | _ => none

/-- What a record does not have in `destination` and `bytes` misses the range: the results of queries lie before it
or after it, and so does each texel of a rectangle with what its row has left. -/
def CpuRecord.Misses (range : ByteRange) : CpuRecord → Prop
  | .query record => queryEnd record ≤ 2 ^ 64 ∧
      (queryEnd record ≤ range.address ∨ range.address + range.bytes ≤ record.destination.toNat)
  | record => ∀ region ∈ record.region?, region.x + region.width ≤ 2 ^ 31 ∧ region.y + region.height ≤ 2 ^ 31 ∧
      ∀ column < region.width, ∀ row < region.height, ∀ sample < 4,
        region.texelAt column row sample + (region.width - column) * region.texelBytes ≤ range.address ∨
          range.address + range.bytes ≤ region.texelAt column row sample

section Footprints

variable {a : Nat}

/-- A copy, an update or a fill writes in its destination. -/
theorem ByteCopy.Writes.contains {copy : ByteCopy} (h : copy.Writes a) : copy.destination.Contains a := by
  unfold ByteCopy.Writes at h
  split at h
  next =>
    obtain ⟨word, hword, hlow, hhigh⟩ := h
    exact ⟨by omega, by omega⟩
  next =>
    obtain ⟨move, hmem, rfl⟩ := h
    exact (Image.runMoves_inside hmem).1

/-- A copy of query results that does not wrap writes from its destination to its last result. -/
theorem query_footprint {copy : QueryCopy} (hend : queryEnd copy ≤ 2 ^ 64) (h : (CpuRecord.query copy).Writes a) :
    copy.destination.toNat ≤ a ∧ a < queryEnd copy := by
  obtain ⟨write, hmem, hlow, hhigh⟩ := h
  obtain ⟨index, hindex, rfl⟩ := List.mem_map.mp hmem
  dsimp only at hlow hhigh
  rw [Query.length_resultImage] at hhigh
  have hle : index * copy.stride.toNat ≤ (copy.count.toNat - 1) * copy.stride.toNat :=
    Nat.mul_le_mul_right _ (Nat.le_sub_one_of_lt (List.mem_range.mp hindex))
  have hpos := Query.resultBytes_pos copy.flags
  unfold queryEnd at *
  have haddress : (copy.address index).toNat = copy.destination.toNat + index * copy.stride.toNat := by
    rw [QueryCopy.address, UInt64.toNat_add, UInt64.toNat_mul, UInt64.toNat_ofNat', Nat.mod_mul_mod, Nat.add_mod_mod,
      Nat.mod_eq_of_lt (by omega)]
  omega

/-- A texel of a rectangle. -/
theorem covers_texel {region : ImageRegion} {column row sample : Nat} (hcolumn : column < region.width)
    (hrow : row < region.height) (hsample : sample < 4) (hlow : region.texelAt column row sample ≤ a)
    (hhigh : a < region.texelAt column row sample + region.texelBytes) : region.Covers a :=
  ⟨column, hcolumn, row, hrow, sample, hsample, hlow, hhigh.trans_le
    (Nat.add_le_add_left (Nat.le_mul_of_pos_left _ (Nat.sub_pos_of_lt hcolumn)) _)⟩

/-- What a record of texels writes lies in its rectangle. -/
theorem region_footprint {record : CpuRecord} {region : ImageRegion} (hregion : record.region? = some region)
    (hright : region.x + region.width ≤ 2 ^ 31) (hbottom : region.y + region.height ≤ 2 ^ 31) (h : record.Writes a) :
    region.Covers a := by
  cases record with
  | copy | query | event | split => cases hregion
  | resolve record =>
    cases hregion
    obtain ⟨⟨row, column⟩, hmem, hlow, hhigh⟩ := h
    obtain ⟨hrow, hcolumn⟩ := List.mem_product.mp hmem
    exact covers_texel (List.mem_range.mp hcolumn) (List.mem_range.mp hrow) (by decide) hlow hhigh
  | blit record =>
    cases hregion
    obtain ⟨sample, hmem, hlow, hhigh⟩ := h
    simp only [ScaledBlit.samples, Image.gridSamples, Image.axisSamples, List.mem_flatMap, List.mem_map, List.mem_range]
      at hmem
    obtain ⟨_, ⟨row, hrow, rfl⟩, _, ⟨column, hcolumn, rfl⟩, rfl⟩ := hmem
    dsimp only at hlow hhigh hright hbottom
    rw [Image.toI32_of_lt (by omega), Image.toI32_of_lt (by omega)] at hlow hhigh
    exact covers_texel hcolumn hrow (by decide) hlow hhigh
  | imageWrite record =>
    cases hregion
    obtain ⟨move, hmem, rfl⟩ := h
    simp only [ImageWrite.moves, List.mem_flatMap, List.mem_range] at hmem
    obtain ⟨row, hrow, part, hpart, hmove⟩ := hmem
    obtain ⟨-, hfirst, hlast⟩ := Image.writeRuns_inside hpart
    obtain ⟨⟨hlow, hhigh⟩, -⟩ := Image.runMoves_inside hmove
    have hsome : part.2 ≠ 0 := by
      intro hzero
      rw [hzero] at hhigh
      omega
    refine ⟨part.1 - record.destinationX, by dsimp only; omega, row, hrow, 0, by decide, ?_⟩
    rw [ImageRegion.texelAt, Nat.add_sub_cancel' hfirst]
    exact ⟨hlow, hhigh.trans_le (Nat.add_le_add_left (Nat.mul_le_mul_right _ (by dsimp only; omega)) _)⟩
  | imageCopy record =>
    cases hregion
    obtain ⟨move, hmem, rfl⟩ := h
    obtain ⟨run, hrun, hlow, hhigh⟩ := (ImageCopy.exists_runs hmem).2
    obtain ⟨-, row, hrow, k, hk, rfl⟩ := ImageCopy.mem_runs hrun
    exact ⟨_, hk, row, hrow, 0, by decide, hlow, hhigh.trans_le (Nat.add_le_add_left
      (Nat.mul_le_mul_right _ (Nat.min_le_left ..)) _)⟩
  | clear record =>
    cases hregion
    obtain ⟨write, hmem, hlow, hhigh⟩ := h
    simp only [ImageClear.writes, List.mem_flatMap, List.mem_map, List.mem_range] at hmem
    obtain ⟨row, hrow, column, hcolumn, sample, hsample, rfl⟩ := hmem
    have hfour : record.samples ≤ 4 := by
      unfold ImageClear.samples
      split <;> decide
    exact covers_texel hcolumn hrow (hsample.trans_le hfour) hlow
      (hhigh.trans_le (Nat.add_le_add_left (List.length_take_le ..) _))

end Footprints

section Bytes

variable {records : List CpuRecord} {range : ByteRange} {a : Nat}

/-- A copy, an update or a fill that writes a byte of the range is found. -/
theorem writesRange_of_writes {copy : ByteCopy} (hcopy : CpuRecord.copy copy ∈ records) (hwrites : copy.Writes a)
    (hrange : range.Contains a) : writesRange records range = true := by
  obtain ⟨hlow, hhigh⟩ := hwrites.contains
  obtain ⟨hfirst, hlast⟩ := hrange
  refine List.any_eq_true.mpr ⟨.copy copy, hcopy, ?_⟩
  simp only [CpuRecord.isBlit, CpuRecord.isClear, CpuRecord.bytes, CpuRecord.destination,
    Nat.mod_eq_of_lt copy.destination.ends, Nat.mod_eq_of_lt range.ends, Bool.false_or, Bool.and_eq_true,
    Bool.not_eq_true', beq_eq_false_iff_ne, decide_eq_true_eq]
  omega

/-- A record of another kind that misses the range writes no byte of it. -/
theorem CpuRecord.Misses.not_contains {record : CpuRecord} (hmisses : record.Misses range)
    (hkind : ∀ copy, record ≠ .copy copy) (hwrites : record.Writes a) : ¬range.Contains a := by
  rintro ⟨hlow, hhigh⟩
  cases record with
  | copy copy => exact hkind copy rfl
  | event | split => exact hwrites
  | query copy =>
    obtain ⟨hends, hapart⟩ := hmisses
    have hfootprint := query_footprint hends hwrites
    omega
  | resolve | blit | imageWrite | imageCopy | clear =>
    obtain ⟨hright, hbottom, hapart⟩ := hmisses _ rfl
    obtain ⟨column, hcolumn, row, hrow, sample, hsample, hfootprint⟩ := region_footprint rfl hright hbottom hwrites
    have := hapart column hcolumn row hrow sample hsample
    omega

/-- The parameters of each draw lie in the range that is tested. -/
theorem IndirectRead.range_contains (read : IndirectRead) {draw : Nat} (hdraw : draw < read.count)
    (hlow : read.firstAddress + draw * read.stride ≤ a)
    (hhigh : a < read.firstAddress + draw * read.stride + read.commandBytes) : read.range.Contains a := by
  have hstride : draw * read.stride ≤ (read.count - 1) * read.stride :=
    Nat.mul_le_mul_right _ (Nat.le_sub_one_of_lt hdraw)
  simp only [ByteRange.Contains, IndirectRead.range]
  omega

end Bytes

/-- The results of four queries, copied to a buffer. -/
def queryRecord (destination : UInt64) : CpuRecord :=
  .query ⟨⟨.timestamp, 4⟩, 0, 4, 8, Query.result64Bit, destination⟩

/-- Two texels read back to a buffer. -/
def readbackRecord (destination : Nat) : CpuRecord := .imageCopy
  { sourceSide := bufferSide 0x40000 8
    destinationSide := bufferSide destination 8
    sourceX := 0
    sourceY := 0
    destinationX := 0
    destinationY := 0
    width := 2
    height := 1
    sourceTexelBytes := 4
    reverseTexelBytes := 0 }

/-- The draw of a buffer's first parameters. -/
def firstDraw : IndirectRead :=
  drawIndirect ⟨0x10000, 64, Query.resultBuffer.bound⟩ 0 (by decide) 1 0 false Nat.one_pos (by decide)

end Ps5Vulkan.Record
