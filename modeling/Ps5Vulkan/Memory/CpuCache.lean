import Ps5Vulkan.Queue.Reachable

/-!
# Evicting CPU cache lines

The two walks of `ps5vk_direct_memory.c` over a range of bytes, and the flush behind a buffer copy or fill.
`ps5vk_evict_cpu_lines` starts at the line of the range's first byte, `ps5vk_flush_cpu_cache` at the byte itself.
Both step by a line, so the second leaves out the last byte's line where the range reaches further into it than its
start lies into the first.

## Implementation notes

Addresses are natural numbers: a range of memory does not wrap around the address space.
-/

variable (address bytes : Nat)

namespace Ps5Vulkan.Memory

open Queue (MemoryCopy)

/-- The bytes of a cache line. -/
def lineBytes : Nat := 64

/-- The line an address lies in, which is what `_mm_clflush` evicts. -/
def lineOf (address : Nat) : Nat := address / lineBytes

/-- The addresses `for (at = first; at < stop; at += 64)` visits. -/
def walk (stop first : Nat) : List Nat :=
  if first < stop then first :: walk stop (first + lineBytes) else []
termination_by stop - first
decreasing_by simp only [lineBytes]; omega

/-- `ps5vk_evict_cpu_lines`: the lines evicted. -/
def evictCpuLines : List Nat :=
  (walk (address + bytes) (address / lineBytes * lineBytes)).map lineOf

/-- `ps5vk_flush_cpu_cache`: the lines evicted before its fence. -/
def flushCpuCache : List Nat :=
  (walk (address + bytes) address).map lineOf

/-- The lines a range of bytes lies in. -/
def rangeLines : Set Nat :=
  { line | ∃ byte, address ≤ byte ∧ byte < address + bytes ∧ lineOf byte = line }

theorem mem_walk {stop first place : Nat} :
    place ∈ walk stop first ↔ ∃ count, place = first + count * lineBytes ∧ place < stop := by
  induction hlength : stop - first using Nat.strongRecOn generalizing first with
  | _ length ih =>
    unfold walk
    split
    · rename_i hfirst
      rw [List.mem_cons, ih (stop - (first + lineBytes)) (by simp only [lineBytes]; omega) rfl]
      constructor
      · rintro (rfl | ⟨count, rfl, hstop⟩)
        · exact ⟨0, by simp, hfirst⟩
        · exact ⟨count + 1, by rw [Nat.add_mul]; omega, hstop⟩
      · rintro ⟨count, rfl, hstop⟩
        cases count with
        | zero => exact Or.inl (by simp)
        | succ count => exact Or.inr ⟨count, by rw [Nat.add_mul]; omega, hstop⟩
    · rename_i hfirst
      simp only [List.not_mem_nil, false_iff, not_exists, not_and]
      rintro count rfl
      omega

theorem mem_flushCpuCache {address bytes line : Nat} : line ∈ flushCpuCache address bytes ↔
      ∃ count, count * lineBytes < bytes ∧ lineOf address + count = line := by
  simp only [flushCpuCache, List.mem_map, mem_walk]
  constructor
  · rintro ⟨_, ⟨count, rfl, hstop⟩, rfl⟩
    exact ⟨count, by omega, by simp only [lineOf, lineBytes]; omega⟩
  · rintro ⟨count, hcount, rfl⟩
    exact ⟨address + count * lineBytes, ⟨count, rfl, by omega⟩, by simp only [lineOf, lineBytes]; omega⟩

/-- The lines of a range run from its first byte's to its last byte's. -/
theorem mem_rangeLines {address bytes line : Nat} :
    line ∈ rangeLines address bytes ↔ 0 < bytes ∧ lineOf address ≤ line ∧ line ≤ lineOf (address + (bytes - 1)) := by
  simp only [rangeLines, lineOf, lineBytes, Set.mem_ofPred_eq]
  constructor
  · rintro ⟨byte, hlow, hhigh, rfl⟩
    omega
  · rintro ⟨hbytes, hlow, hhigh⟩
    exact ⟨max address (line * 64), by omega, by omega, by omega⟩

/-- Evicting by lines evicts the lines of the range, and of an empty range inside a line that line. -/
theorem mem_evictCpuLines {address bytes line : Nat} : line ∈ evictCpuLines address bytes ↔
      line ∈ rangeLines address bytes ∨ bytes = 0 ∧ address % lineBytes ≠ 0 ∧ line = lineOf address := by
  simp only [evictCpuLines, List.mem_map, mem_walk, mem_rangeLines, lineOf, lineBytes]
  constructor
  · rintro ⟨_, ⟨count, rfl, hstop⟩, rfl⟩
    omega
  · intro h
    exact ⟨line * 64, ⟨line - address / 64, by omega, by omega⟩, by omega⟩

/-- The range reaches no further into its last line than the walk from its first byte does. -/
def TailReached : Prop :=
  bytes = 0 ∨ address % lineBytes + (bytes - 1) % lineBytes < lineBytes

/-- A flush covers its range exactly if the walk reaches the last byte's line. -/
theorem rangeLines_subset_flush_iff :
    (∀ line ∈ rangeLines address bytes, line ∈ flushCpuCache address bytes) ↔ TailReached address bytes := by
  simp only [mem_rangeLines, mem_flushCpuCache, TailReached]
  constructor
  · intro h
    by_contra hcross
    obtain ⟨count, hcount, hline⟩ := h (lineOf (address + (bytes - 1)))
      ⟨by omega, by simp only [lineOf, lineBytes]; omega, le_refl _⟩
    simp only [lineOf, lineBytes] at hcount hline hcross
    omega
  · rintro htail line ⟨hbytes, hlow, hhigh⟩
    refine ⟨line - lineOf address, ?_, by omega⟩
    simp only [lineOf, lineBytes] at hlow hhigh htail ⊢
    omega

/-- The bytes a copy or fill of a buffer writes (`ps5vk_queue_run_copy_steps`): a fill whole words, a copy into a
reversed image whole texels. -/
def bufferWrites (copy : MemoryCopy) : List Nat :=
  let unit := if copy.fill then 4 else if copy.reverseTexelBytes = 0 then 1 else copy.reverseTexelBytes
  (List.range (copy.bytes / unit * unit)).map (copy.destination + ·)

/-- The lines flushed behind it. -/
def bufferFlushes (copy : MemoryCopy) : List Nat :=
  if copy.bytes = 0 then [] else flushCpuCache copy.destination copy.bytes

theorem mem_bufferWrites_inside {copy : MemoryCopy} {byte : Nat} (h : byte ∈ bufferWrites copy) :
    copy.destination ≤ byte ∧ byte < copy.destination + copy.bytes := by
  obtain ⟨offset, hoffset, rfl⟩ := List.mem_map.mp h
  have hlt := List.mem_range.mp hoffset
  have hle := Nat.div_mul_le_self copy.bytes
    (if copy.fill then 4 else if copy.reverseTexelBytes = 0 then 1 else copy.reverseTexelBytes)
  omega

/-- A flush evicts every line of its range, the lines that evicting by lines does, and with it every byte that a
copy or fill of the range wrote, exactly if the range is no longer in its last line than its start is into the
first; an empty range must start a line. -/
theorem flushCpuCache_covers_iff :
    ((∀ line ∈ rangeLines address bytes, line ∈ flushCpuCache address bytes) ∧
      (∀ line, line ∈ flushCpuCache address bytes ↔ line ∈ evictCpuLines address bytes) ∧
      ∀ copy : MemoryCopy, copy.destination = address → copy.bytes = bytes →
        ∀ byte ∈ bufferWrites copy, lineOf byte ∈ bufferFlushes copy) ↔
      (bytes = 0 ∧ address % lineBytes = 0 ∨
        0 < bytes ∧ address % lineBytes + (bytes - 1) % lineBytes < lineBytes) := by
  constructor
  · rintro ⟨hcovers, hsame, -⟩
    have htail := (rangeLines_subset_flush_iff address bytes).mp hcovers
    rcases Nat.eq_zero_or_pos bytes with rfl | hbytes
    · refine Or.inl ⟨rfl, by_contra fun hinside => ?_⟩
      have hevicted := mem_evictCpuLines.mpr (Or.inr ⟨rfl, hinside, rfl⟩)
      obtain ⟨count, hcount, -⟩ := mem_flushCpuCache.mp ((hsame _).mpr hevicted)
      exact absurd hcount (Nat.not_lt_zero _)
    · exact Or.inr ⟨hbytes, htail.resolve_left (by omega)⟩
  · intro hcondition
    have htail : TailReached address bytes := hcondition.imp (·.1) (·.2)
    have hcovers := (rangeLines_subset_flush_iff address bytes).mpr htail
    refine ⟨hcovers, fun line => ?_, ?_⟩
    · rw [mem_evictCpuLines]
      refine ⟨fun hline => Or.inl ?_, ?_⟩
      · obtain ⟨count, hcount, rfl⟩ := mem_flushCpuCache.mp hline
        exact ⟨address + count * lineBytes, by omega, by omega, by simp only [lineOf, lineBytes]; omega⟩
      · rintro (hline | ⟨hzero, hinside, -⟩)
        · exact hcovers line hline
        · omega
    · rintro copy rfl rfl byte hbyte
      obtain ⟨hlow, hhigh⟩ := mem_bufferWrites_inside hbyte
      rw [bufferFlushes, if_neg (by omega)]
      exact hcovers _ ⟨byte, hlow, hhigh, rfl⟩

/-- A fill of sixteen words from the second word of a line on. -/
def unalignedFill : MemoryCopy :=
  { Queue.fillRecord 0 with destination := 4, bytes := 64 }

/-- Its last word lies in the next line, which is not flushed. -/
theorem unalignedFill_not_flushed :
    67 ∈ bufferWrites unalignedFill ∧ lineOf 67 = 1 ∧ 1 ∉ bufferFlushes unalignedFill ∧
      1 ∈ rangeLines 4 64 ∧ 1 ∈ evictCpuLines 4 64 := by
  have hline : 1 ∈ rangeLines 4 64 := ⟨67, by decide, by decide, by decide⟩
  refine ⟨by decide, by decide, ?_, hline, mem_evictCpuLines.mpr (Or.inl hline)⟩
  intro hflushed
  obtain ⟨count, hcount, hcountLine⟩ := mem_flushCpuCache.mp hflushed
  simp only [lineOf, lineBytes, unalignedFill] at hcount hcountLine
  omega

end Ps5Vulkan.Memory
