import Ps5Vulkan.Library.Strides
import Ps5Vulkan.Query.Resets

/-!
# Copies of query results

`vkCmdCopyQueryPoolResults` checks its queries and its bytes with sums of 32 and 64 bits, and the queue
later adds again, query by query (`ps5vk_query_execute`). What the check lets through stays inside the
pool and the buffer exactly where the queries do not wrap and the results go up the buffer without
wrapping, or down it by a stride of nearly 2⁶⁴.
-/

variable (flags : UInt32)

namespace Ps5Vulkan.Query

/-- `struct ps5vk_query_pool`, without its counters. -/
structure QueryPool where
  type : PoolType
  count : UInt32

/-- `struct ps5vk_buffer`. A buffer that is bound lies in one address window. -/
structure Buffer where
  address : UInt64
  size : UInt64
  bound : address ≠ 0 → size.toNat ≤ 2 ^ 32 ∧ address.toNat + size.toNat ≤ 2 ^ 64

/-- `VK_QUERY_RESULT_64_BIT`. -/
def result64Bit : UInt32 := 1

/-- `VK_QUERY_RESULT_WITH_AVAILABILITY_BIT`. -/
def resultWithAvailabilityBit : UInt32 := 4

/-- A result is 64 bits wide. -/
def isWide : Bool := flags &&& result64Bit != 0

/-- A result has its availability after it. -/
def hasAvailability : Bool := flags &&& resultWithAvailabilityBit != 0

/-- The bytes of one result. -/
def resultBytes : Nat :=
  (if isWide flags then 8 else 4) * (if hasAvailability flags then 2 else 1)

/-- The arguments of `vkCmdCopyQueryPoolResults`. -/
structure CopyInfo where
  firstQuery : UInt32
  queryCount : UInt32
  dstOffset : UInt64
  stride : UInt64
  flags : UInt32

/-- `struct ps5vk_memory_copy` of a query-result copy. -/
structure QueryCopy where
  pool : QueryPool
  first : UInt32
  count : UInt32
  stride : UInt64
  flags : UInt32
  destination : UInt64

/-- Why a copy is refused. -/
inductive CopyRefusal where
  | handlesOrQueries
  | noAddress
  | pastBuffer
  deriving DecidableEq, Repr

/-- `ps5vk_CmdCopyQueryPoolResults`, of a command buffer without an error: the record it makes, none for
no queries. -/
def copyQueryPoolResults (pool : Option QueryPool) (buffer : Option Buffer) (info : CopyInfo) :
    Except CopyRefusal (Option QueryCopy) :=
  if info.queryCount = 0 then .ok none
  else
    match pool, buffer with
    | some pool, some buffer =>
      let bytes := UInt64.ofNat (resultBytes info.flags)
      if info.firstQuery + info.queryCount > pool.count then .error .handlesOrQueries
      else if buffer.address = 0 then .error .noAddress
      else if info.stride < bytes ∨
          info.dstOffset + (info.queryCount - 1).toUInt64 * info.stride + bytes > buffer.size then
        .error .pastBuffer
      else
        .ok (some ⟨pool, info.firstQuery, info.queryCount, info.stride, info.flags,
          buffer.address + info.dstOffset⟩)
    | _, _ => .error .handlesOrQueries

namespace QueryCopy

/-- The query of a result. -/
def query (copy : QueryCopy) (index : Nat) : UInt32 := copy.first + UInt32.ofNat index

/-- Where a result goes. -/
def address (copy : QueryCopy) (index : Nat) : UInt64 :=
  copy.destination + UInt64.ofNat index * copy.stride

end QueryCopy

/-- The bytes of a number, lowest first. -/
def littleEndian (bytes : Nat) (value : UInt64) : List UInt8 :=
  (List.range bytes).map fun i => UInt8.ofNat (value.toNat >>> (8 * i))

/-- The bytes of a result. -/
def resultImage (samples : UInt64) (written : Bool) : List UInt8 :=
  let width := if isWide flags then 8 else 4
  littleEndian width samples ++
    if hasAvailability flags then littleEndian width (if written then 1 else 0) else []

/-- `ps5vk_query_execute`: what it writes, each with its address, of the counters each query has. -/
def queryExecute (counters : UInt32 → Fin 2 → UInt64) (copy : QueryCopy) : List (UInt64 × List UInt8) :=
  (List.range copy.count.toNat).map fun index =>
    let pair := counters (copy.query index)
    (copy.address index,
      resultImage copy.flags (queryResult copy.pool.type pair) (queryAvailable copy.pool.type pair))

/-- The copy reads queries of its pool only, and writes bytes of the buffer only. -/
structure QueryCopy.Inside (copy : QueryCopy) (buffer : Buffer) : Prop where
  queries : ∀ index < copy.count.toNat, copy.query index < copy.pool.count
  bytes : ∀ counters, ∀ write ∈ queryExecute counters copy, ∀ k < write.2.length,
    buffer.address.toNat ≤ write.1.toNat + k ∧
      write.1.toNat + k < buffer.address.toNat + buffer.size.toNat

/-- The results of a copy lie in the buffer: they go up to its end, or down to its start. -/
def CopyInfo.Reaches (info : CopyInfo) (buffer : Buffer) : Prop :=
  info.dstOffset.toNat + (info.queryCount.toNat - 1) * info.stride.toNat + resultBytes info.flags ≤
      buffer.size.toNat ∨
    info.dstOffset.toNat + resultBytes info.flags ≤ buffer.size.toNat ∧
      (info.queryCount.toNat - 1) * (2 ^ 64 - info.stride.toNat) ≤ info.dstOffset.toNat

/-- The queries of a copy do not wrap. -/
def CopyInfo.QueriesFit (info : CopyInfo) : Prop := info.firstQuery.toNat + info.queryCount.toNat < 2 ^ 32

/-! ## What is recorded -/

theorem resultBytes_pos : 0 < resultBytes flags := by
  unfold resultBytes
  split <;> split <;> decide

theorem length_resultImage (samples : UInt64) (written : Bool) :
    (resultImage flags samples written).length = resultBytes flags := by
  unfold resultImage resultBytes littleEndian
  cases isWide flags <;> cases hasAvailability flags <;> simp

/-- A recorded copy has passed the checks. -/
structure Recorded (pool : QueryPool) (buffer : Buffer) (info : CopyInfo) : Prop where
  count_pos : 0 < info.queryCount.toNat
  queries : (info.firstQuery.toNat + info.queryCount.toNat) % 2 ^ 32 ≤ pool.count.toNat
  bound : buffer.address ≠ 0

theorem recorded_of_copy {pool : QueryPool} {buffer : Buffer} {info : CopyInfo} {copy : QueryCopy}
    (h : copyQueryPoolResults (some pool) (some buffer) info = .ok (some copy)) :
    Recorded pool buffer info ∧ copy = ⟨pool, info.firstQuery, info.queryCount, info.stride, info.flags,
      buffer.address + info.dstOffset⟩ := by
  unfold copyQueryPoolResults at h
  split at h
  · cases h
  · next hcount =>
      dsimp only at h
      split at h
      · cases h
      · next hqueries =>
          split at h
          · cases h
          · next hbound =>
              split at h
              · cases h
              · cases h
                refine ⟨⟨?_, ?_, hbound⟩, rfl⟩
                · exact Nat.pos_of_ne_zero fun hzero => hcount (UInt32.toNat_inj.mp hzero)
                · have hle := UInt32.le_iff_toNat_le.mp (UInt32.not_lt.mp hqueries)
                  rwa [UInt32.toNat_add] at hle

section Inside

variable {pool : QueryPool} {buffer : Buffer} {info : CopyInfo}

/-- The record of the arguments. -/
def CopyInfo.record (info : CopyInfo) (pool : QueryPool) (buffer : Buffer) : QueryCopy :=
  ⟨pool, info.firstQuery, info.queryCount, info.stride, info.flags, buffer.address + info.dstOffset⟩

/-- The queries read are the pool's exactly where they do not wrap. -/
theorem Recorded.queries_iff (h : Recorded pool buffer info) :
    (∀ index < info.queryCount.toNat, (info.record pool buffer).query index < pool.count) ↔
      info.QueriesFit := by
  have hquery : ∀ index, ((info.record pool buffer).query index).toNat =
      (info.firstQuery.toNat + index) % 2 ^ 32 := fun index => by
    rw [QueryCopy.query, CopyInfo.record, UInt32.toNat_add, UInt32.toNat_ofNat', Nat.add_mod_mod]
  have hfirst := info.firstQuery.toNat_lt
  have hpool := pool.count.toNat_lt
  have hchecked := h.queries
  have hpos := h.count_pos
  unfold CopyInfo.QueriesFit
  constructor
  · intro hall
    by_contra hwraps
    -- the query before the wrap is the last number of 32 bits, past the end of any pool
    have hlast := UInt32.lt_iff_toNat_lt.mp (hall (2 ^ 32 - 1 - info.firstQuery.toNat) (by omega))
    rw [hquery] at hlast
    omega
  · intro hfits index hindex
    rw [UInt32.lt_iff_toNat_lt, hquery]
    omega

/-- Where a result goes, from the start of the buffer. -/
def CopyInfo.position (info : CopyInfo) (index : Nat) : Nat :=
  (info.dstOffset.toNat + index * info.stride.toNat) % 2 ^ 64

theorem CopyInfo.address_record (info : CopyInfo) (pool : QueryPool) (buffer : Buffer) (index : Nat) :
    ((info.record pool buffer).address index).toNat = (buffer.address.toNat + info.position index) % 2 ^ 64 := by
  rw [QueryCopy.address, CopyInfo.record, UInt64.toNat_add, UInt64.toNat_add, UInt64.toNat_mul,
    UInt64.toNat_ofNat', Nat.mod_mul_mod, Nat.mod_add_mod, Nat.add_mod_mod, CopyInfo.position,
    Nat.add_mod_mod, Nat.add_assoc]

/-- A result lies in the buffer exactly where its position does. -/
theorem Recorded.result_inside_iff (h : Recorded pool buffer info) (index : Nat) : (∀ k < resultBytes info.flags,
      buffer.address.toNat ≤ ((info.record pool buffer).address index).toNat + k ∧
        ((info.record pool buffer).address index).toNat + k < buffer.address.toNat + buffer.size.toNat) ↔
      info.position index < buffer.size.toNat + 1 - resultBytes info.flags := by
  obtain ⟨hsize, hend⟩ := buffer.bound h.bound
  have hpos := resultBytes_pos info.flags
  have hposition : info.position index < 2 ^ 64 := Nat.mod_lt _ (by decide)
  rw [CopyInfo.address_record]
  constructor
  · intro hinside
    have hfirst := hinside 0 hpos
    have hlast := hinside (resultBytes info.flags - 1) (by omega)
    omega
  · intro hlt k hk
    rw [Nat.mod_eq_of_lt (by omega)]
    omega

/-- The results stay in the buffer exactly where they reach up or down inside it. -/
theorem Recorded.bytes_iff (h : Recorded pool buffer info) :
    (∀ counters, ∀ write ∈ queryExecute counters (info.record pool buffer),
      ∀ k < write.2.length, buffer.address.toNat ≤ write.1.toNat + k ∧
        write.1.toNat + k < buffer.address.toNat + buffer.size.toNat) ↔ info.Reaches buffer := by
  obtain ⟨hsize, -⟩ := buffer.bound h.bound
  have hpos := resultBytes_pos info.flags
  have hstrides := @Strides.all_lt_iff (2 ^ 64) (buffer.size.toNat + 1 - resultBytes info.flags) _ _ _
    h.count_pos (by omega) info.dstOffset.toNat_lt info.stride.toNat_lt
  calc (∀ counters, ∀ write ∈ queryExecute counters (info.record pool buffer),
        ∀ k < write.2.length, buffer.address.toNat ≤ write.1.toNat + k ∧
          write.1.toNat + k < buffer.address.toNat + buffer.size.toNat)
      ↔ ∀ index < info.queryCount.toNat,
          info.position index < buffer.size.toNat + 1 - resultBytes info.flags := by
        simp only [queryExecute, List.forall_mem_map, List.mem_range, length_resultImage]
        constructor
        · exact fun hall index hindex =>
            (h.result_inside_iff index).mp (hall (fun _ _ => 0) index hindex)
        · exact fun hall counters index hindex => (h.result_inside_iff index).mpr (hall index hindex)
    _ ↔ info.Reaches buffer := by
        refine hstrides.trans ?_
        unfold CopyInfo.Reaches
        omega

/-- A copy that is recorded stays inside its pool and its buffer exactly where its queries do not wrap
and its results reach up or down inside the buffer. -/
theorem copyQueryPoolResults_inside_iff {copy : QueryCopy}
    (h : copyQueryPoolResults (some pool) (some buffer) info = .ok (some copy)) :
    copy.Inside buffer ↔ info.QueriesFit ∧ info.Reaches buffer := by
  obtain ⟨hrecorded, hcopy⟩ := recorded_of_copy h
  obtain rfl : copy = info.record pool buffer := hcopy
  exact ⟨fun hinside => ⟨hrecorded.queries_iff.mp hinside.queries, hrecorded.bytes_iff.mp hinside.bytes⟩,
    fun hfits => ⟨hrecorded.queries_iff.mpr hfits.1, hrecorded.bytes_iff.mpr hfits.2⟩⟩

end Inside

/-- A buffer of 64 bytes. -/
def resultBuffer : Buffer := ⟨0x10000, 64, fun _ => by decide⟩

/-- Four queries of a pool of four, eight bytes each. -/
def fourResults : CopyInfo := ⟨0, 4, 32, 8, result64Bit⟩

theorem fourResults_inside :
    ∃ copy, copyQueryPoolResults (some ⟨.timestamp, 4⟩) (some resultBuffer) fourResults =
      .ok (some copy) ∧ copy.Inside resultBuffer := by
  obtain ⟨copy, hcopy⟩ : ∃ copy, copyQueryPoolResults (some ⟨.timestamp, 4⟩) (some resultBuffer)
      fourResults = .ok (some copy) := ⟨_, rfl⟩
  refine ⟨copy, hcopy, (copyQueryPoolResults_inside_iff hcopy).mpr ⟨?_, .inl ?_⟩⟩
  · show fourResults.firstQuery.toNat + fourResults.queryCount.toNat < 2 ^ 32
    decide
  · decide

/-- Two queries from the last number of 32 bits on. -/
def wrappedQueries : CopyInfo := ⟨0xffffffff, 2, 0, 8, result64Bit⟩

/-- Three results, the second one 2⁶³ bytes from the buffer. -/
def wrappedResults : CopyInfo := ⟨0, 3, 0, 0x8000000000000000, result64Bit⟩

/-- Both are recorded, and leave the pool and the buffer. -/
theorem wrapped_copies_outside :
    (∃ copy, copyQueryPoolResults (some ⟨.timestamp, 4⟩) (some resultBuffer) wrappedQueries =
        .ok (some copy) ∧ copy.query 0 = 0xffffffff ∧ ¬ copy.Inside resultBuffer) ∧
      ∃ copy, copyQueryPoolResults (some ⟨.timestamp, 4⟩) (some resultBuffer) wrappedResults =
        .ok (some copy) ∧ copy.address 1 = 0x8000000000010000 ∧ ¬ copy.Inside resultBuffer := by
  refine ⟨⟨_, rfl, by decide, fun hinside => ?_⟩, ⟨_, rfl, by decide, fun hinside => ?_⟩⟩
  · exact absurd (hinside.queries 0 (by decide)) (by decide)
  · have hbyte := hinside.bytes (fun _ _ => 0) (0x8000000000010000, List.replicate 8 0)
      (by decide) 0 (by decide)
    exact absurd hbyte (by decide)

end Ps5Vulkan.Query
