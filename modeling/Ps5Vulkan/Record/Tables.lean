import Mathlib.Algebra.Order.Group.Nat
import Mathlib.Data.List.MinMax
import Ps5Vulkan.Library.Extents
import Ps5Vulkan.Library.Rounding

/-!
# The tables of a command buffer

The register tables, push constants and descriptor tables of a recording lie in chunks of GPU-visible memory that the
command buffer keeps across resets (`ps5vk_cmd_buffer.c`). A table goes behind the one before it, in the chunk
`table_chunk` names. A chunk without room for it is left behind, and after the last chunk a new one is mapped. A reset
starts at the first chunk again, and may release them all.

## Implementation notes

The loop of `ps5vk_cmd_buffer_table` is taken turn by turn; that it ends is proved. Addresses lie in the address window,
so that no sum wraps. `tables` is read by no function: the tables returned since the last reset, the newest first.
-/

variable (chunks : TableChunks)

namespace Ps5Vulkan.Record

open Extents

/-- `PS5VK_TABLE_CHUNK_BYTES`. -/
def tableChunkBytes : Nat := 0x40000

/-- `PS5VK_DIRECT_PAGE_BYTES`, to which a chunk is aligned. -/
def directPageBytes : Nat := 0x4000

/-- The arguments of `ps5vk_cmd_buffer_table`, as its assertions have them. -/
structure TableRequest where
  bytes : Nat
  alignment : Nat
  bytes_le : bytes ≤ tableChunkBytes
  alignment_pow : ∃ bits ≤ 14, alignment = 2 ^ bits

/-- The request's bytes in whole words of eight. -/
def TableRequest.size (request : TableRequest) : Nat :=
  Rounding.up request.bytes 8

inductive TableRefusal
  /-- "no memory to track register tables" -/
  | untracked
  /-- "register tables could not be mapped in the address window" -/
  | unmapped (result : Int32)
  deriving DecidableEq, Repr

/-- Where a new chunk is mapped: on a page boundary, and apart from the chunks that are live. -/
structure ChunkKernel where
  map : List Extent → Except TableRefusal Nat
  aligned : ∀ {live address}, map live = .ok address → directPageBytes ∣ address
  apart : ∀ {live address}, map live = .ok address →
    ∀ chunk ∈ live, chunk.Disjoint ⟨address, tableChunkBytes⟩

/-- The list `table_chunks`, cut where `table_chunk` points, and `table_bytes_used`. -/
structure TableChunks where
  passed : List Extent
  rest : List Extent
  used : Nat
  deriving DecidableEq, Repr

namespace TableChunks

def all : List Extent :=
  chunks.passed ++ chunks.rest

/-- Where in a chunk a table goes, if it has room. -/
def fit (chunk : Extent) (used : Nat) (request : TableRequest) : Option Nat :=
  let offset := Rounding.up used request.alignment
  if offset ≤ chunk.bytes ∧ request.size ≤ chunk.bytes - offset then some offset else none

/-- So many turns of the loop in `ps5vk_cmd_buffer_table`. -/
def tableTurns (request : TableRequest) (kernel : ChunkKernel) :
    Nat → TableChunks → Option (TableChunks × Except TableRefusal Nat)
  | 0, _ => none
  | turns + 1, ⟨passed, chunk :: rest, used⟩ =>
    match fit chunk used request with
    | some offset => some (⟨passed, chunk :: rest, offset + request.size⟩, .ok (chunk.start + offset))
    | none => tableTurns request kernel turns ⟨passed ++ [chunk], rest, 0⟩
  | turns + 1, ⟨passed, [], used⟩ =>
    match kernel.map passed with
    | .error refusal => some (⟨passed, [], used⟩, .error refusal)
    | .ok address => tableTurns request kernel turns ⟨passed, [⟨address, tableChunkBytes⟩], used⟩

/-- `ps5vk_cmd_buffer_table`. -/
def table (request : TableRequest) (kernel : ChunkKernel) :
    Option (TableChunks × Except TableRefusal Nat) :=
  tableTurns request kernel (chunks.rest.length + 2) chunks

/-- `ps5vk_cmd_buffer_release_tables`. -/
def release : TableChunks :=
  ⟨[], [], 0⟩

/-- The tables' part of `ps5vk_cmd_buffer_clear_state`. -/
def clearState : TableChunks :=
  ⟨[], chunks.all, 0⟩

end TableChunks

/-- A table that was returned. -/
structure Table where
  request : TableRequest
  address : Nat

def Table.extent (table : Table) : Extent :=
  ⟨table.address, table.request.size⟩

/-- The tables after a request. -/
def noted (request : TableRequest) (tables : List Table) : Except TableRefusal Nat → List Table
  | .ok address => ⟨request, address⟩ :: tables
  | .error _ => tables

structure TableRecording where
  chunks : TableChunks
  tables : List Table

inductive TableEvent
  | table (request : TableRequest) (kernel : ChunkKernel)
  /-- `ps5vk_cmd_buffer_reset`, with `VK_COMMAND_BUFFER_RESET_RELEASE_RESOURCES_BIT` or not. -/
  | reset (releases : Bool)

namespace TableRecording

def step (recording : TableRecording) : TableEvent → Option TableRecording
  | .table request kernel => do
    let (chunks, result) ← recording.chunks.table request kernel
    return ⟨chunks, noted request recording.tables result⟩
  | .reset releases => some ⟨(if releases then .release else recording.chunks).clearState, []⟩

def run (events : List TableEvent) : Option TableRecording :=
  events.foldlM step ⟨.release, []⟩

/-- The tables of a recording do not overlap. -/
structure Apart (recording : TableRecording) : Prop where
  disjoint : (recording.tables.map Table.extent).Pairwise Extent.Disjoint
  whole : ∀ table ∈ recording.tables, table.request.bytes ≤ table.extent.bytes
  aligned : ∀ table ∈ recording.tables, table.request.alignment ∣ table.address
  inside : ∀ table ∈ recording.tables, ∃ chunk ∈ recording.chunks.all, table.extent.Within chunk

end TableRecording

/-! ### The chunks and what is in use of them -/

namespace TableChunks

variable {passed rest : List Extent} {chunk : Extent} {used : Nat} {tables : List Table} {request : TableRequest}
  {kernel : ChunkKernel}

theorem fit_new (address : Nat) (request : TableRequest) : fit ⟨address, tableChunkBytes⟩ 0 request = some 0 := by
  obtain ⟨bits, -, hbits⟩ := request.alignment_pow
  have hzero : Rounding.up 0 request.alignment = 0 := by
    rw [Rounding.up, Nat.div_eq_of_lt, Nat.zero_mul]
    have := Nat.two_pow_pos bits
    omega
  have hsize : request.size ≤ tableChunkBytes := by
    have := request.bytes_le
    unfold TableRequest.size Rounding.up tableChunkBytes at *
    omega
  rw [fit, hzero]
  exact if_pos ⟨Nat.zero_le _, hsize⟩

/-- The chunks left behind, and of the one in use as much as is. -/
def filled : List Extent :=
  chunks.passed ++ (chunks.rest.head?.map fun chunk => ⟨chunk.start, chunks.used⟩).toList

structure Sound (chunks : TableChunks) (tables : List Table) : Prop where
  apart : chunks.all.Pairwise Extent.Disjoint
  pages : ∀ chunk ∈ chunks.all, directPageBytes ∣ chunk.start
  idle : chunks.rest = [] → chunks.used = 0
  used_le : ∀ chunk ∈ chunks.rest.head?, chunks.used ≤ chunk.bytes
  held : ∀ table ∈ tables, ∃ part ∈ chunks.filled, table.extent.Within part
  disjoint : (tables.map Table.extent).Pairwise Extent.Disjoint
  aligned : ∀ table ∈ tables, table.request.alignment ∣ table.address

namespace Sound

/-- With all in use in parts that are in use still, the cursor moves. -/
theorem move {chunks chunks' : TableChunks} (h : chunks.Sound tables) (hall : chunks'.all.Pairwise Extent.Disjoint)
    (hpages : ∀ chunk ∈ chunks'.all, directPageBytes ∣ chunk.start) (hused : chunks'.used = 0)
    (hfilled : ∀ part ∈ chunks.filled, ∃ part' ∈ chunks'.filled, part.Within part') : chunks'.Sound tables where
  apart := hall
  pages := hpages
  idle _ := hused
  used_le _ _ := hused ▸ Nat.zero_le _
  held table htable := by
    obtain ⟨part, hpart, hwithin⟩ := h.held table htable
    obtain ⟨part', hpart', hwithin'⟩ := hfilled part hpart
    exact ⟨part', hpart', hwithin.trans hwithin'⟩
  disjoint := h.disjoint
  aligned := h.aligned

/-- A chunk without room is left behind. -/
theorem pass (h : Sound ⟨passed, chunk :: rest, used⟩ tables) : Sound ⟨passed ++ [chunk], rest, 0⟩ tables := by
  have hall : (⟨passed ++ [chunk], rest, 0⟩ : TableChunks).all = passed ++ chunk :: rest := List.append_assoc ..
  refine h.move (hall ▸ h.apart) (hall ▸ h.pages) rfl fun part hpart => ?_
  rcases List.mem_append.mp hpart with hpassed | hcurrent
  · exact ⟨part, by simp [filled, hpassed], .refl part⟩
  · obtain rfl : part = ⟨chunk.start, used⟩ := by simpa using hcurrent
    exact ⟨chunk, by simp [filled], Nat.le_refl _, Nat.add_le_add_left (h.used_le chunk rfl) _⟩

theorem append (h : Sound ⟨passed, [], used⟩ tables) {address : Nat} (haddress : kernel.map passed = .ok address) :
    Sound ⟨passed, [⟨address, tableChunkBytes⟩], used⟩ tables := by
  have hpassed : (⟨passed, [], used⟩ : TableChunks).all = passed := List.append_nil _
  refine h.move ?_ ?_ (h.idle rfl) fun part hpart => ⟨part, ?_, .refl part⟩
  · refine List.pairwise_append.mpr ⟨hpassed ▸ h.apart, List.pairwise_singleton .., fun chunk hchunk new hnew => ?_⟩
    exact List.mem_singleton.mp hnew ▸ kernel.apart haddress chunk hchunk
  · refine List.forall_mem_append.mpr ⟨hpassed ▸ h.pages, fun new hnew => ?_⟩
    exact List.mem_singleton.mp hnew ▸ kernel.aligned haddress
  · simpa [filled] using .inl (by simpa [filled] using hpart)

/-- A table goes behind all that is in use. -/
theorem place (h : Sound ⟨passed, chunk :: rest, used⟩ tables) {offset : Nat} (hfit : fit chunk used request = some offset) :
    Sound ⟨passed, chunk :: rest, offset + request.size⟩ (⟨request, chunk.start + offset⟩ :: tables) := by
  obtain ⟨bits, hle, hbits⟩ := request.alignment_pow
  obtain ⟨⟨hoffset, hroom⟩, rfl⟩ : (Rounding.up used request.alignment ≤ chunk.bytes ∧
      request.size ≤ chunk.bytes - Rounding.up used request.alignment) ∧ Rounding.up used request.alignment = offset := by
    simpa [fit] using hfit
  have hbehind := Rounding.le_up used (hbits ▸ Nat.two_pow_pos bits : 0 < request.alignment)
  generalize hat : Rounding.up used request.alignment = offset at *
  have hcurrent : (⟨chunk.start, offset + request.size⟩ : Extent) ∈
      (⟨passed, chunk :: rest, offset + request.size⟩ : TableChunks).filled := by simp [filled]
  refine ⟨h.apart, h.pages, nofun, fun other hother => ?_, List.forall_mem_cons.mpr ⟨⟨_, hcurrent, ?_⟩, ?_⟩,
    List.pairwise_cons.mpr ⟨fun other hother => ?_, h.disjoint⟩, List.forall_mem_cons.mpr ⟨?_, h.aligned⟩⟩
  · obtain rfl : chunk = other := Option.some.inj hother
    exact Nat.add_le_of_le_sub' hoffset hroom
  · exact ⟨Nat.le_add_right .., Nat.le_of_eq (Nat.add_assoc ..)⟩
  · intro table htable
    obtain ⟨part, hpart, hwithin⟩ := h.held table htable
    rcases List.mem_append.mp hpart with hpassed | hused
    · exact ⟨part, List.mem_append_left _ hpassed, hwithin⟩
    · obtain rfl : part = ⟨chunk.start, used⟩ := by simpa using hused
      exact ⟨_, hcurrent, hwithin.trans ⟨Nat.le_refl _, Nat.add_le_add_left (Nat.le_add_right_of_le hbehind) _⟩⟩
  · obtain ⟨table, htable, rfl⟩ := List.mem_map.mp hother
    obtain ⟨part, hpart, hwithin⟩ := h.held table htable
    rcases List.mem_append.mp hpart with hpassed | hused
    · -- a chunk left behind shares nothing with this one
      have happart := (List.pairwise_append.mp h.apart).2.2 part hpassed chunk List.mem_cons_self
      have hin : Extent.Within ⟨chunk.start + offset, request.size⟩ chunk :=
        ⟨Nat.le_add_right .., (Nat.add_assoc ..).trans_le (Nat.add_le_add_left (Nat.add_le_of_le_sub' hoffset hroom) _)⟩
      exact hin.disjoint (hwithin.disjoint happart).symm
    · obtain rfl : part = ⟨chunk.start, used⟩ := by simpa using hused
      exact .inr (Nat.le_trans hwithin.2 (Nat.add_le_add_left hbehind _))
  · have hpage : request.alignment ∣ directPageBytes := hbits ▸ Nat.pow_dvd_pow 2 hle
    exact Nat.dvd_add (Nat.dvd_trans hpage (h.pages chunk (by simp [all]))) (hat ▸ Rounding.dvd_up ..)

/-- The loop comes to its end: a chunk that is new has room. -/
theorem tableTurns (h : Sound ⟨passed, rest, used⟩ tables) (request : TableRequest) (kernel : ChunkKernel) {turns : Nat}
    (hturns : rest.length + 2 ≤ turns) :
    ∃ answer, TableChunks.tableTurns request kernel turns ⟨passed, rest, used⟩ = some answer ∧
      answer.1.Sound (noted request tables answer.2) := by
  induction rest generalizing passed used turns with
  | nil =>
    obtain ⟨turns, rfl⟩ := Nat.exists_eq_add_of_le' hturns
    rw [show turns + (([] : List Extent).length + 2) = turns + 1 + 1 from rfl, TableChunks.tableTurns]
    cases hmap : kernel.map passed with
    | error refusal => exact ⟨_, rfl, h⟩
    | ok address =>
      obtain rfl : used = 0 := h.idle rfl
      have hfit := fit_new address request
      refine ⟨(⟨passed, [⟨address, tableChunkBytes⟩], 0 + request.size⟩, .ok (address + 0)), ?_, (h.append hmap).place hfit⟩
      simp only [TableChunks.tableTurns, hfit]
  | cons chunk rest ih =>
    obtain ⟨turns, rfl⟩ := Nat.exists_eq_add_of_le' hturns
    rw [show turns + ((chunk :: rest).length + 2) = turns + (rest.length + 2) + 1 from rfl, TableChunks.tableTurns]
    cases hfit : fit chunk used request with
    | none => exact ih h.pass (Nat.le_add_left ..)
    | some offset => exact ⟨_, rfl, h.place hfit⟩

theorem clearState {chunks : TableChunks} (h : chunks.Sound tables) : chunks.clearState.Sound [] where
  apart := h.apart
  pages := h.pages
  idle _ := rfl
  used_le _ _ := Nat.zero_le _
  held := nofun
  disjoint := .nil
  aligned := nofun

theorem release : TableChunks.release.Sound [] :=
  ⟨.nil, nofun, fun _ => rfl, nofun, nofun, .nil, nofun⟩

end Sound

end TableChunks

namespace TableRecording

theorem step_sound {recording : TableRecording} (h : recording.chunks.Sound recording.tables) (event : TableEvent) :
    ∃ next, recording.step event = some next ∧ next.chunks.Sound next.tables := by
  cases event with
  | table request kernel =>
    obtain ⟨⟨chunks, result⟩, htable, hsound⟩ := h.tableTurns request kernel (Nat.le_refl _)
    exact ⟨⟨chunks, noted request recording.tables result⟩, by simp [step, TableChunks.table, htable], hsound⟩
  | reset releases =>
    refine ⟨_, rfl, ?_⟩
    cases releases with
    | true => exact TableChunks.Sound.release.clearState
    | false => exact h.clearState

theorem steps_sound {recording : TableRecording} (h : recording.chunks.Sound recording.tables) (events : List TableEvent) :
    ∃ last, events.foldlM step recording = some last ∧ last.chunks.Sound last.tables := by
  induction events generalizing recording with
  | nil => exact ⟨recording, rfl, h⟩
  | cons event events ih =>
    obtain ⟨next, hstep, hnext⟩ := step_sound h event
    simpa only [List.foldlM_cons, hstep, Option.bind_eq_bind, Option.bind_some] using ih hnext

/-- After any requests and resets the tables returned since the last reset do not overlap. -/
theorem run_apart (events : List TableEvent) : ∃ recording, run events = some recording ∧ recording.Apart := by
  obtain ⟨recording, hrun, h⟩ := @steps_sound ⟨.release, []⟩ TableChunks.Sound.release events
  refine ⟨recording, hrun, h.disjoint, fun table _ => Rounding.le_up _ (by decide), h.aligned, fun table htable => ?_⟩
  obtain ⟨part, hpart, hwithin⟩ := h.held table htable
  rcases List.mem_append.mp hpart with hpassed | hused
  · exact ⟨part, List.mem_append_left _ hpassed, hwithin⟩
  · obtain ⟨chunk, hchunk, rfl⟩ := Option.map_eq_some_iff.mp (Option.mem_toList.mp hused)
    refine ⟨chunk, List.mem_append_right _ (List.mem_of_mem_head? hchunk), hwithin.trans ⟨Nat.le_refl _, ?_⟩⟩
    exact Nat.add_le_add_left (h.used_le chunk hchunk) _

/-- A kernel that maps each chunk on the next page behind those that are live. -/
def bumpKernel : ChunkKernel where
  map live := .ok (Rounding.up ((live.map Extent.stop).foldr max 0) directPageBytes)
  aligned h := by
    cases h
    exact Rounding.dvd_up ..
  apart h chunk hchunk := by
    cases h
    have hbelow := List.le_max_of_le' 0 (List.mem_map_of_mem (f := Extent.stop) hchunk) (Nat.le_refl _)
    exact .inl (Nat.le_trans hbelow (Rounding.le_up _ (by decide)))

/-- So many bytes, aligned to 256. -/
def bumpTable (bytes : Nat) (hbytes : bytes ≤ tableChunkBytes) : TableEvent :=
  .table ⟨bytes, 256, hbytes, 8, by decide, rfl⟩ bumpKernel

/-- Two tables that need two chunks, and after a reset three that go on from the first of them to a new one. -/
theorem run_apart_bump : ∃ recording, run [bumpTable 0x30000 (by decide), bumpTable 0x20000 (by decide), .reset false,
      bumpTable 0x30004 (by decide), bumpTable 0x8 (by decide), bumpTable 0x3ff00 (by decide),
      bumpTable 0x200 (by decide)] = some recording ∧
    recording.tables.map (·.address) = [0x80000, 0x40000, 0x30100, 0] ∧ recording.chunks.all.length = 3 ∧
      recording.Apart := by
  obtain ⟨recording, hrun, happart⟩ := run_apart [bumpTable 0x30000 (by decide), bumpTable 0x20000 (by decide),
    .reset false, bumpTable 0x30004 (by decide), bumpTable 0x8 (by decide), bumpTable 0x3ff00 (by decide),
    bumpTable 0x200 (by decide)]
  refine ⟨recording, hrun, ?_, ?_, happart⟩
  · cases hrun
    decide +kernel
  · cases hrun
    decide +kernel

end TableRecording

end Ps5Vulkan.Record
