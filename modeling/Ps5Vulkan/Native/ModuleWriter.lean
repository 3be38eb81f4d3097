import Mathlib.Algebra.GroupWithZero.Nat
import Mathlib.Data.List.Basic
import Mathlib.Data.Option.Basic
import Ps5Vulkan.Library.Rounding

/-!
# Segments of a converted executable

`write_executable` (`tooling/native/sce_module_writer.cpp`) turns a linked image into an executable with five `PT_LOAD`
headers. It gathers each one's bounds from the sections of its kind, copies the sections to their own file offsets, and
takes the segments' file offsets from particular sections. Thread-local sections are of no segment's kind: they are
loaded only where they lie within the bounds of other sections, and initialised thread-local data after the last stored
data section, as the linker script places it, is not.

## Implementation notes

Names that are told apart by how they begin carry a number in place of the rest. Addresses do not wrap. A section's data
is as long as its size, as the reader of the image makes it. Only `PT_LOAD` and `PT_TLS` are modelled of the headers;
everything else that can make a conversion fail is one Boolean, and the size of the new dynamic metadata is a number.
-/

namespace Ps5Vulkan.Native

inductive SectionName
  | text | dynamic | got | gotPlt | ehFrameHdr | ehFrame | dynstr | dynsym | hash | gnuHash
  /-- `.rela.`, `.data.rel.ro`, `.preinit_array`, `.init_array` and `.fini_array`, and what follows. -/
  | rela (rest : Nat) | dataRelRo (rest : Nat) | preinitArray (rest : Nat) | initArray (rest : Nat) | finiArray (rest : Nat)
  | other (name : Nat)
  deriving DecidableEq, Repr

namespace SectionName

/-- `metadata_section`. -/
def metadata : SectionName → Bool
  | .dynstr | .dynsym | .dynamic | .hash | .gnuHash | .rela _ => true
  | _ => false

/-- `relro_section`. -/
def relro : SectionName → Bool
  | .got | .gotPlt | .dataRelRo _ | .preinitArray _ | .initArray _ | .finiArray _ => true
  | _ => false

end SectionName

/-- `elf::Section`. -/
structure Section where
  name : SectionName
  allocated : Bool
  executable : Bool
  writable : Bool
  tls : Bool
  noBits : Bool
  address : Nat
  fileOffset : Nat
  size : Nat
  stop_lt : address + size < 2 ^ 64
  deriving DecidableEq

namespace Section

variable (input : Section)

def stop : Nat :=
  input.address + input.size

/-- It is allocated and backed by the file. -/
def stored : Bool :=
  input.allocated && !input.noBits

/-- Its bytes are copied to the output. -/
def copied : Bool :=
  input.stored && !input.name.metadata

end Section

/-- `kPage`. -/
def page : Nat := 0x4000

/-- The start of a segment without sections. -/
def noStart : Nat := 2 ^ 64 - 1

def alignUp (value alignment : Nat) : Nat :=
  if alignment ≤ 1 then value else (value + alignment - 1) / alignment * alignment

def congruentOffset (minimum address : Nat) : Nat :=
  if minimum ≤ address % page then address % page else alignUp (minimum - address % page) page + address % page

/-- What the loop over the sections gathers. -/
structure Bounds where
  textEnd : Nat
  roStart : Nat
  roEnd : Nat
  relroStart : Nat
  relroContentEnd : Nat
  dataStart : Nat
  dataEnd : Nat
  dataStoredEnd : Nat
  tlsStart : Nat
  tlsFileEnd : Nat
  tlsMemoryEnd : Nat
  deriving DecidableEq, Repr

namespace Bounds

def start (text dynamicSource : Section) : Bounds where
  textEnd := text.stop
  roStart := noStart
  roEnd := 0
  relroStart := noStart
  relroContentEnd := 0
  dataStart := dynamicSource.address
  dataEnd := dynamicSource.address + 8
  dataStoredEnd := dynamicSource.address + 8
  tlsStart := 0
  tlsFileEnd := 0
  tlsMemoryEnd := 0

def gather (bounds : Bounds) (input : Section) : Bounds :=
  if !input.allocated || input.name = .dynamic then bounds
  else if input.executable then { bounds with textEnd := max bounds.textEnd input.stop }
  else if input.tls then
    { bounds with
      tlsStart := min (if bounds.tlsStart = 0 then input.address else bounds.tlsStart) input.address
      tlsMemoryEnd := max bounds.tlsMemoryEnd input.stop
      tlsFileEnd := if input.noBits then bounds.tlsFileEnd else max bounds.tlsFileEnd input.stop }
  else if input.name.relro then
    { bounds with
      relroStart := min bounds.relroStart input.address
      relroContentEnd := max bounds.relroContentEnd input.stop }
  else if input.writable || input.noBits then
    { bounds with
      dataStart := min bounds.dataStart input.address
      dataEnd := max bounds.dataEnd input.stop
      dataStoredEnd := if input.noBits then bounds.dataStoredEnd else max bounds.dataStoredEnd input.stop }
  else if !input.name.metadata then
    { bounds with roStart := min bounds.roStart input.address, roEnd := max bounds.roEnd input.stop }
  else bounds

/-- Without read-only sections their segment is empty, after the text. -/
def settle (bounds : Bounds) : Bounds :=
  if bounds.roStart = noStart then
    { bounds with roStart := alignUp bounds.textEnd page, roEnd := alignUp bounds.textEnd page }
  else bounds

/-- The process parameters and their blocks follow the relocated constants. -/
def relroEnd (bounds : Bounds) : Nat :=
  let processAddress :=
    alignUp (max bounds.relroContentEnd (if bounds.relroStart < bounds.roEnd then bounds.roEnd else 0)) 8
  alignUp (processAddress + 0x60) 8 + 0x270

end Bounds

structure ProgramHeader where
  offset : Nat
  address : Nat
  fileSize : Nat
  memorySize : Nat
  deriving DecidableEq, Repr

namespace ProgramHeader

/-- The address is in the part that comes from the file. -/
def holds (header : ProgramHeader) (address : Nat) : Bool :=
  decide (header.address ≤ address) && decide (address < header.address + header.fileSize)

/-- The two have an address in common. -/
def overlaps (first second : ProgramHeader) : Bool :=
  decide (max first.address second.address <
    min (first.address + first.memorySize) (second.address + second.memorySize))

end ProgramHeader

structure Headers where
  text : ProgramHeader
  ro : ProgramHeader
  relro : ProgramHeader
  data : ProgramHeader
  dynamic : ProgramHeader
  tls : ProgramHeader
  deriving DecidableEq, Repr

/-- The `PT_LOAD` headers. -/
def Headers.loads (headers : Headers) : List ProgramHeader :=
  [headers.text, headers.ro, headers.relro, headers.data, headers.dynamic]

/-- The lowest section of the relocated constants. -/
def relroFirst (sections : List Section) : Option Section :=
  sections.foldl (fun first input =>
    if input.allocated && input.name.relro && first.all (fun first => input.address < first.address) then some input
    else first) none

/-- The end of what is copied. -/
def copiedFileEnd (sections : List Section) : Nat :=
  sections.foldl (fun stop input => if input.stored then max stop (input.fileOffset + input.size) else stop) page

def layOut (sections : List Section) (text dynamicSource first eh : Section) (bounds : Bounds) (dynamicBytes : Nat) :
    Headers :=
  let dynamicBase := alignUp (max bounds.dataEnd (bounds.dataStart + 8)) 16
  { text := ⟨text.fileOffset, 0, bounds.textEnd, bounds.textEnd⟩
    ro := ⟨eh.fileOffset, bounds.roStart, bounds.roEnd - bounds.roStart, bounds.roEnd - bounds.roStart⟩
    relro := ⟨first.fileOffset, bounds.relroStart, bounds.relroEnd - bounds.relroStart, bounds.relroEnd - bounds.relroStart⟩
    data := ⟨dynamicSource.fileOffset, bounds.dataStart, max 8 (bounds.dataStoredEnd - bounds.dataStart),
      max bounds.dataEnd (bounds.dataStart + 8) - bounds.dataStart⟩
    dynamic := ⟨congruentOffset (copiedFileEnd sections) dynamicBase, dynamicBase, dynamicBytes, dynamicBytes⟩
    tls := if bounds.tlsStart = 0 then ⟨first.fileOffset, bounds.relroStart, 0, 0⟩
      else ⟨first.fileOffset + bounds.tlsStart - bounds.relroStart, bounds.tlsStart,
        bounds.tlsFileEnd - bounds.tlsStart, bounds.tlsMemoryEnd - bounds.tlsStart⟩ }

/-- `write_executable`: its headers, or nothing where it throws. -/
def writeExecutable (sections : List Section) (others : Bool) (dynamicBytes : Nat) : Option Headers := do
  let text ← sections.find? (·.name = .text)
  let dynamicSource ← sections.find? (·.name = .dynamic)
  let _ ← sections.find? (·.name = .got)
  guard (text.executable = true ∧ text.address = 0 ∧ page ≤ text.fileOffset)
  let gathered := sections.foldl Bounds.gather (.start text dynamicSource)
  guard (gathered.relroStart ≠ noStart)
  let bounds := gathered.settle
  guard (bounds.relroEnd ≤ bounds.dataStart)
  let first ← relroFirst sections
  guard (first.address = bounds.relroStart)
  let eh ← (sections.find? (·.name = .ehFrameHdr)).or (sections.find? (·.name = .ehFrame))
  let headers := layOut sections text dynamicSource first eh bounds dynamicBytes
  guard (∀ load ∈ headers.loads, load.offset % page = load.address % page)
  guard (others = true)
  return headers

/-! ### Bounds of the sections -/

/-- The segments that sections are gathered for. -/
inductive Kind
  | text | ro | relro | data
  deriving DecidableEq, Repr

namespace Section

variable (input : Section)

/-- The segment a section is gathered for; `.dynamic`, thread-local sections and metadata have none. -/
def kind : Option Kind :=
  if !input.allocated || input.name = .dynamic then none
  else if input.executable then some .text
  else if input.tls then none
  else if input.name.relro then some .relro
  else if input.writable || input.noBits then some .data
  else if !input.name.metadata then some .ro
  else none

/-- It is gathered for the thread-local image. -/
def threadLocal : Bool :=
  input.allocated && input.name != .dynamic && !input.executable && input.tls

theorem stop_le : input.stop ≤ noStart :=
  Nat.le_sub_one_of_lt input.stop_lt

end Section

namespace Bounds

variable {bounds : Bounds} {sections : List Section} {input : Section} {kind : Kind}

def low (bounds : Bounds) : Kind → Nat
  | .text => 0
  | .ro => bounds.roStart
  | .relro => bounds.relroStart
  | .data => bounds.dataStart

/-- The end of the sections of a kind. -/
def high (bounds : Bounds) : Kind → Nat
  | .text => bounds.textEnd
  | .ro => bounds.roEnd
  | .relro => bounds.relroContentEnd
  | .data => bounds.dataEnd

/-- A section moves the bounds of its kind, and no others, to just hold it. -/
theorem gather_kind (bounds : Bounds) (input : Section) (kind : Kind) :
    (bounds.gather input).low kind = (if input.kind = some kind then min (bounds.low kind) input.address else bounds.low kind) ∧
      (bounds.gather input).high kind =
        (if input.kind = some kind then max (bounds.high kind) input.stop else bounds.high kind) := by
  unfold Section.kind gather
  split_ifs <;> cases kind <;> simp_all [low, high]

/-- A stored section of the data moves the end of what is stored. -/
theorem gather_stored (bounds : Bounds) (input : Section) :
    (bounds.gather input).dataStoredEnd = (if input.kind = some .data ∧ input.noBits = false then
      max bounds.dataStoredEnd input.stop else bounds.dataStoredEnd) := by
  unfold Section.kind gather
  split_ifs <;> simp_all

/-- What gathering a section makes true, and gathering others keeps. -/
theorem foldl_reaches {P : Bounds → Prop} (hmem : input ∈ sections) (hself : ∀ bounds : Bounds, P (bounds.gather input))
    (hkeeps : ∀ (bounds : Bounds) other, P bounds → P (bounds.gather other)) (bounds : Bounds) : P (sections.foldl gather bounds) := by
  induction sections generalizing bounds with
  | nil => cases hmem
  | cons other sections ih =>
    rcases List.mem_cons.mp hmem with rfl | hrest
    · exact List.foldlRecOn (motive := P) sections gather (hself bounds) fun bounds h other _ => hkeeps bounds other h
    · exact ih hrest _

/-- The bounds hold the sections of their kind, and of the data what is stored. -/
theorem foldl_covers (hmem : input ∈ sections) (hkind : input.kind = some kind) (bounds : Bounds) :
    (sections.foldl gather bounds).low kind ≤ input.address ∧ input.stop ≤ (sections.foldl gather bounds).high kind ∧
      (kind = .data → input.noBits = false → input.stop ≤ (sections.foldl gather bounds).dataStoredEnd) := by
  refine foldl_reaches (P := fun bounds => bounds.low kind ≤ input.address ∧ input.stop ≤ bounds.high kind ∧
    (kind = .data → input.noBits = false → input.stop ≤ bounds.dataStoredEnd)) hmem (fun bounds => ?_)
    (fun bounds other h => ?_) bounds
  · have hgather := gather_kind bounds input kind
    rw [if_pos hkind, if_pos hkind] at hgather
    refine ⟨by omega, by omega, fun hdata hbits => ?_⟩
    rw [gather_stored, if_pos ⟨hdata ▸ hkind, hbits⟩]
    exact Nat.le_max_right ..
  · have hgather := gather_kind bounds other kind
    rw [gather_stored]
    refine ⟨by split at hgather <;> omega, by split at hgather <;> omega, fun hdata hbits => ?_⟩
    have := h.2.2 hdata hbits
    split <;> omega

/-- And they hold no more, from the start on. -/
theorem le_foldl_low (kind : Kind) {low : Nat} (hall : ∀ input ∈ sections, input.kind = some kind → low ≤ input.address)
    (h : low ≤ bounds.low kind) : low ≤ (sections.foldl gather bounds).low kind := by
  refine List.foldlRecOn (motive := fun bounds => low ≤ bounds.low kind) sections gather h fun bounds h input hmem => ?_
  rw [(gather_kind bounds input kind).1]
  split
  next hkind => exact Nat.le_min.mpr ⟨h, hall input hmem hkind⟩
  next => exact h

theorem foldl_high_le {high : Nat} (hall : ∀ input ∈ sections, input.kind = some kind → input.stop ≤ high)
    (h : bounds.high kind ≤ high) : (sections.foldl gather bounds).high kind ≤ high := by
  refine List.foldlRecOn (motive := fun bounds => bounds.high kind ≤ high) sections gather h fun bounds h input hmem => ?_
  rw [(gather_kind bounds input kind).2]
  split
  next hkind => exact Nat.max_le.mpr ⟨h, hall input hmem hkind⟩
  next => exact h

/-- Where the sections of one kind all come before those of another, so do the bounds. -/
theorem foldl_apart (kind kind' : Kind) (hlow : bounds.low kind' = noStart) (hhigh : bounds.high kind ≤ noStart)
    (hbefore : ∀ input ∈ sections, input.kind = some kind' → bounds.high kind ≤ input.address)
    (horder : ∀ first ∈ sections, ∀ second ∈ sections, first.kind = some kind → second.kind = some kind' →
      first.stop ≤ second.address) :
    (sections.foldl gather bounds).high kind ≤ (sections.foldl gather bounds).low kind' := by
  refine le_foldl_low kind' (fun input hmem hkind => ?_) ?_
  · exact foldl_high_le (fun first hfirst hfirstKind => horder first hfirst input hmem hfirstKind hkind)
      (hbefore input hmem hkind)
  · rw [hlow]
    exact foldl_high_le (fun input _ _ => input.stop_le) hhigh

/-- What the bounds keep from the start on: the data holds what is stored of it and does not start after `.dynamic`, and
there are relocated constants or their bounds are as at the start. -/
theorem foldl_sane {start : Nat} (h : bounds.dataStoredEnd ≤ bounds.dataEnd ∧ bounds.dataStart ≤ start ∧
      (bounds.relroStart ≤ bounds.relroContentEnd ∨ bounds.relroStart = noStart)) :
    (sections.foldl gather bounds).dataStoredEnd ≤ (sections.foldl gather bounds).dataEnd ∧
      (sections.foldl gather bounds).dataStart ≤ start ∧
      ((sections.foldl gather bounds).relroStart ≤ (sections.foldl gather bounds).relroContentEnd ∨
        (sections.foldl gather bounds).relroStart = noStart) := by
  refine List.foldlRecOn (motive := fun bounds => bounds.dataStoredEnd ≤ bounds.dataEnd ∧ bounds.dataStart ≤ start ∧
    (bounds.relroStart ≤ bounds.relroContentEnd ∨ bounds.relroStart = noStart)) sections gather h fun bounds h input _ => ?_
  have hstop : input.address ≤ input.stop := Nat.le_add_right ..
  unfold gather
  split_ifs <;> first | exact h | (dsimp only; omega)

/-- The thread-local image lies where its sections do. -/
theorem foldl_tls (bounds : Bounds) {low high : Nat}
    (hall : ∀ input ∈ sections, input.threadLocal = true → low ≤ input.address ∧ input.stop ≤ high)
    (h : (bounds.tlsStart = 0 ∨ low ≤ bounds.tlsStart) ∧ bounds.tlsMemoryEnd ≤ high) :
    ((sections.foldl gather bounds).tlsStart = 0 ∨ low ≤ (sections.foldl gather bounds).tlsStart) ∧
      (sections.foldl gather bounds).tlsMemoryEnd ≤ high := by
  refine List.foldlRecOn (motive := fun bounds => (bounds.tlsStart = 0 ∨ low ≤ bounds.tlsStart) ∧ bounds.tlsMemoryEnd ≤ high)
    sections gather h fun bounds h input hmem => ?_
  unfold gather
  split_ifs <;> first | exact h | skip
  all_goals
    have := hall input hmem (by simp_all [Section.threadLocal])
    dsimp only
    omega

theorem le_alignUp (value : Nat) {alignment : Nat} (h : 0 < alignment) : value ≤ alignUp value alignment := by
  unfold alignUp
  split
  · exact Nat.le_refl _
  · exact Rounding.le_up value h

theorem relroContentEnd_le (bounds : Bounds) : bounds.relroContentEnd ≤ bounds.relroEnd := by
  have hprocess := le_alignUp (max bounds.relroContentEnd
    (if bounds.relroStart < bounds.roEnd then bounds.roEnd else 0)) (show 0 < 8 by decide)
  have hblocks := le_alignUp (alignUp (max bounds.relroContentEnd
    (if bounds.relroStart < bounds.roEnd then bounds.roEnd else 0)) 8 + 0x60) (show 0 < 8 by decide)
  unfold relroEnd
  dsimp only
  omega

end Bounds

/-- The first of the relocated constants is one of them. -/
theorem relroFirst_mem {sections : List Section} : ∀ first ∈ relroFirst sections,
    first ∈ sections ∧ first.allocated = true ∧ first.name.relro = true := by
  refine List.foldlRecOn (motive := fun found : Option Section => ∀ first ∈ found,
    first ∈ sections ∧ first.allocated = true ∧ first.name.relro = true) sections _ (fun _ hmem => by cases hmem)
    fun found hfound input hmem => ?_
  split
  next htaken =>
    simp only [Bool.and_eq_true] at htaken
    rintro _ ⟨⟩
    exact ⟨hmem, htaken.1⟩
  next => exact hfound

/-! ### Stored bytes -/

variable {sections : List Section} {headers : Headers}

/-- The stored sections are all as far from their file offsets. -/
def SameDifference (sections : List Section) : Prop :=
  ∀ first ∈ sections, ∀ second ∈ sections, first.stored = true → second.stored = true →
    first.fileOffset + second.address = second.fileOffset + first.address

instance : Decidable (SameDifference sections) :=
  inferInstanceAs (Decidable (∀ first ∈ sections, _))

/-- Every stored byte is loaded where it was linked: by one `PT_LOAD`, from the place it was copied to. -/
structure Loaded (sections : List Section) (headers : Headers) : Prop where
  loaded : ∀ input ∈ sections, input.copied = true → ∀ i < input.size,
    ∃ load, headers.loads.filter (·.holds (input.address + i)) = [load] ∧
      load.offset + (input.address + i - load.address) = input.fileOffset + i
  apart : headers.loads.Pairwise fun first second => first.overlaps second = false
  threadLocal : (headers.loads.filter (·.overlaps headers.tls)).length ≤ 1

/-- The section the read-only segment's file offset is from. -/
def ehSection (sections : List Section) : Option Section :=
  (sections.find? (·.name = .ehFrameHdr)).or (sections.find? (·.name = .ehFrame))

/-- An image laid out for the writer. -/
structure Arranged (sections : List Section) : Prop where
  /-- Text comes before read-only data, and both before the relocated constants. -/
  order : ∀ first ∈ sections, ∀ second ∈ sections,
    first.kind = some .text ∧ (second.kind = some .ro ∨ second.kind = some .relro) ∨
      first.kind = some .ro ∧ second.kind = some .relro → first.stop ≤ second.address
  /-- `.text`, `.dynamic` and the relocated constants are stored. -/
  anchors : ∀ input ∈ sections, input.name = .text ∨ input.name = .dynamic ∨ input.allocated = true ∧ input.name.relro = true →
    input.stored = true
  /-- `.eh_frame_hdr`, or without it `.eh_frame`, is the first of the read-only data. -/
  eh : ∀ eh ∈ ehSection sections, eh.stored = true ∧ 0 < eh.size ∧ eh.kind = some .ro ∧
    ∀ input ∈ sections, input.kind = some .ro → eh.address ≤ input.address
  /-- `.dynamic` comes before the data, and thread-local data after it. -/
  dynamic : ∀ first ∈ sections, first.name = .dynamic → ∀ input ∈ sections,
    input.kind = some .data ∨ input.threadLocal = true → first.address ≤ input.address
  /-- After thread-local data there is other data, stored where that is. -/
  threadLocal : ∀ input ∈ sections, input.threadLocal = true →
    ∃ last ∈ sections, last.kind = some .data ∧ input.stop ≤ last.stop ∧ (input.noBits = false → last.noBits = false)

/-- What an accepted image satisfies, and the headers it gets. -/
structure Written (sections : List Section) (dynamicBytes : Nat) (headers : Headers) (text dynamicSource first eh : Section)
    (bounds : Bounds) : Prop where
  gathered : sections.foldl Bounds.gather (.start text dynamicSource) = bounds
  laidOut : headers = layOut sections text dynamicSource first eh bounds.settle dynamicBytes
  isText : text ∈ sections ∧ text.name = .text ∧ text.executable = true ∧ text.address = 0
  isDynamic : dynamicSource ∈ sections ∧ dynamicSource.name = .dynamic
  isFirst : relroFirst sections = some first ∧ first.address = bounds.settle.relroStart
  isEh : ehSection sections = some eh
  relro : bounds.relroStart ≠ noStart ∧ bounds.settle.relroEnd ≤ bounds.settle.dataStart

theorem written_of_writeExecutable {others : Bool} {dynamicBytes : Nat}
    (h : writeExecutable sections others dynamicBytes = some headers) :
    ∃ text dynamicSource first eh bounds, Written sections dynamicBytes headers text dynamicSource first eh bounds := by
  simp only [writeExecutable, bind, Option.bind_eq_some_iff, pure, Option.guard_eq_some'] at h
  obtain ⟨text, htext, dynamicSource, hdynamic, _, -, _, hguard, _, hsome, _, hend, first, hfirst, _, hstart, eh, heh, _, -, _, -,
    heq⟩ := h
  refine ⟨text, dynamicSource, first, eh, _, rfl, (Option.some.inj heq).symm,
    ⟨List.mem_of_find?_eq_some htext, ?_, hguard.1, hguard.2.1⟩, ⟨List.mem_of_find?_eq_some hdynamic, ?_⟩, ⟨hfirst, hstart⟩, heh,
    hsome, hend⟩
  · simpa using List.find?_some htext
  · simpa using List.find?_some hdynamic

/-- The segment of a kind. -/
def Headers.segment (headers : Headers) : Kind → ProgramHeader
  | .text => headers.text
  | .ro => headers.ro
  | .relro => headers.relro
  | .data => headers.data

theorem Headers.segment_mem (headers : Headers) (kind : Kind) : headers.segment kind ∈ headers.loads := by
  cases kind <;> simp [segment, loads]

namespace Written

variable {dynamicBytes : Nat} {text dynamicSource first eh : Section} {bounds : Bounds}
  (h : Written sections dynamicBytes headers text dynamicSource first eh bounds) (ha : Arranged sections)

include h

theorem covers {input : Section} {kind : Kind} (hmem : input ∈ sections) (hkind : input.kind = some kind) :
    bounds.low kind ≤ input.address ∧ input.stop ≤ bounds.high kind ∧
      (kind = .data → input.noBits = false → input.stop ≤ bounds.dataStoredEnd) :=
  h.gathered ▸ Bounds.foldl_covers hmem hkind _

include ha

theorem eh_spec : eh ∈ sections ∧ eh.stored = true ∧ bounds.roStart = eh.address ∧ bounds.settle = bounds := by
  obtain ⟨hstored, hsize, hkind, hlowest⟩ := ha.eh eh h.isEh
  have hmem : eh ∈ sections := by
    rcases Option.or_eq_some_iff.mp h.isEh with hfound | ⟨-, hfound⟩
    · exact List.mem_of_find?_eq_some hfound
    · exact List.mem_of_find?_eq_some hfound
  have hstop := eh.stop_le
  have hend : eh.stop = eh.address + eh.size := rfl
  have hstart : bounds.roStart = eh.address := Nat.le_antisymm (h.covers hmem hkind).1
    (h.gathered ▸ Bounds.le_foldl_low .ro hlowest (by dsimp only [Bounds.low, Bounds.start]; omega))
  exact ⟨hmem, hstored, hstart, if_neg (by omega)⟩

omit ha in
theorem sane : bounds.dataStoredEnd ≤ bounds.dataEnd ∧ bounds.dataStart ≤ dynamicSource.address ∧
    (bounds.relroStart ≤ bounds.relroContentEnd ∨ bounds.relroStart = noStart) :=
  h.gathered ▸ Bounds.foldl_sane ⟨Nat.le_refl _, Nat.le_refl _, .inr rfl⟩

/-- The data starts with `.dynamic`. -/
theorem dataStart_eq : bounds.dataStart = dynamicSource.address :=
  Nat.le_antisymm h.sane.2.1 (h.gathered ▸ Bounds.le_foldl_low .data (fun input hmem hkind =>
    ha.dynamic _ h.isDynamic.1 h.isDynamic.2 input hmem (.inl hkind)) (Nat.le_refl _))

/-- The segments come one after the other. -/
theorem ordered : bounds.textEnd ≤ bounds.roStart ∧ bounds.roEnd ≤ bounds.relroStart ∧ bounds.textEnd ≤ bounds.relroStart ∧
    bounds.relroStart ≤ bounds.dataStart ∧ bounds.relroEnd ≤ bounds.dataStart ∧ bounds.dataStoredEnd ≤ bounds.dataEnd := by
  obtain ⟨htext, hname, hexecutable, -⟩ := h.isText
  have hkind : text.kind = some .text := by
    have hstored := ha.anchors text htext (.inl hname)
    simp_all [Section.kind, Section.stored]
  have hafter : ∀ second ∈ sections, second.kind = some .ro ∨ second.kind = some .relro → text.stop ≤ second.address :=
    fun second hsecond hsecondKind => ha.order text htext second hsecond (.inl ⟨hkind, hsecondKind⟩)
  have hsettle := (h.eh_spec ha).2.2.2
  have hend := h.relro.2
  rw [hsettle] at hend
  have hcontent := bounds.relroContentEnd_le
  have hsome := h.sane.2.2.resolve_right h.relro.1
  refine ⟨?_, ?_, ?_, by omega, hend, h.sane.1⟩
  · exact h.gathered ▸ Bounds.foldl_apart .text .ro rfl text.stop_le
      (fun second hsecond hkind => hafter second hsecond (.inl hkind))
      fun first hfirst second hsecond hkind hkind' => ha.order first hfirst second hsecond (.inl ⟨hkind, .inl hkind'⟩)
  · exact h.gathered ▸ Bounds.foldl_apart .ro .relro rfl (Nat.zero_le _) (fun _ _ _ => Nat.zero_le _)
      fun first hfirst second hsecond hkind hkind' => ha.order first hfirst second hsecond (.inr ⟨hkind, hkind'⟩)
  · exact h.gathered ▸ Bounds.foldl_apart .text .relro rfl text.stop_le
      (fun second hsecond hkind => hafter second hsecond (.inr hkind))
      fun first hfirst second hsecond hkind hkind' => ha.order first hfirst second hsecond (.inl ⟨hkind, .inr hkind'⟩)

/-- Thread-local sections lie in the data, and stored ones in what is stored of it. -/
theorem threadLocal_inside {input : Section} (hmem : input ∈ sections) (hlocal : input.threadLocal = true) :
    bounds.dataStart ≤ input.address ∧ input.stop ≤ bounds.dataEnd ∧
      (input.noBits = false → input.stop ≤ bounds.dataStoredEnd) := by
  obtain ⟨last, hlast, hkind, hstop, hbits⟩ := ha.threadLocal input hmem hlocal
  obtain ⟨-, hend, hstored⟩ := h.covers hlast hkind
  refine ⟨?_, Nat.le_trans hstop hend, fun hnone => Nat.le_trans hstop (hstored rfl (hbits hnone))⟩
  rw [h.dataStart_eq ha]
  exact ha.dynamic _ h.isDynamic.1 h.isDynamic.2 input hmem (.inr hlocal)

theorem loads_apart : headers.loads.Pairwise fun first second => first.overlaps second = false := by
  have hordered := h.ordered ha
  have hdynamic := Bounds.le_alignUp (max bounds.dataEnd (bounds.dataStart + 8)) (show 0 < 16 by decide)
  rw [h.laidOut, (h.eh_spec ha).2.2.2]
  simp only [Headers.loads, layOut, ProgramHeader.overlaps, List.pairwise_cons, List.forall_mem_cons, decide_eq_false_iff_not,
    List.not_mem_nil, false_imp_iff, implies_true, List.Pairwise.nil, and_true]
  omega

/-- Only the data's segment meets the thread-local image. -/
theorem threadLocal_apart : (headers.loads.filter (·.overlaps headers.tls)).length ≤ 1 := by
  have hordered := h.ordered ha
  have htls : (bounds.tlsStart = 0 ∨ bounds.dataStart ≤ bounds.tlsStart) ∧ bounds.tlsMemoryEnd ≤ bounds.dataEnd := by
    have hfold := Bounds.foldl_tls (.start text dynamicSource) (fun input hmem hlocal =>
      ⟨(h.threadLocal_inside ha hmem hlocal).1, (h.threadLocal_inside ha hmem hlocal).2.1⟩) ⟨.inl rfl, Nat.zero_le _⟩
    rwa [h.gathered] at hfold
  have hdynamic := Bounds.le_alignUp (max bounds.dataEnd (bounds.dataStart + 8)) (show 0 < 16 by decide)
  have hothers : ∀ load ∈ [headers.text, headers.ro, headers.relro, headers.dynamic], load.overlaps headers.tls = false := by
    rw [h.laidOut, (h.eh_spec ha).2.2.2]
    by_cases hnone : bounds.tlsStart = 0 <;>
      simp only [layOut, hnone, ProgramHeader.overlaps, List.forall_mem_cons, decide_eq_false_iff_not, List.not_mem_nil,
        false_imp_iff, implies_true, and_true, if_true, if_false] <;> omega
  simp only [List.forall_mem_cons, List.not_mem_nil, false_imp_iff, implies_true, and_true] at hothers
  simp only [Headers.loads, List.filter_cons, hothers, Bool.false_eq_true, if_false, List.filter_nil]
  split <;> simp

/-- Each segment starts with a stored section. -/
theorem segment_anchor (kind : Kind) : ∃ anchor ∈ sections, anchor.stored = true ∧
    (headers.segment kind).offset = anchor.fileOffset ∧ (headers.segment kind).address = anchor.address := by
  obtain ⟨heh, hstored, hstart, hsettle⟩ := h.eh_spec ha
  obtain ⟨htext, hname, -, hzero⟩ := h.isText
  obtain ⟨hdynamic, hdynamicName⟩ := h.isDynamic
  obtain ⟨hfirst, hallocated, hrelro⟩ := relroFirst_mem first h.isFirst.1
  rw [h.laidOut]
  cases kind with
  | text => exact ⟨text, htext, ha.anchors text htext (.inl hname), rfl, hzero.symm⟩
  | ro => exact ⟨eh, heh, hstored, rfl, by rw [hsettle]; exact hstart⟩
  | relro => exact ⟨first, hfirst, ha.anchors first hfirst (.inr (.inr ⟨hallocated, hrelro⟩)), rfl, h.isFirst.2.symm⟩
  | data =>
    exact ⟨dynamicSource, hdynamic, ha.anchors _ hdynamic (.inr (.inl hdynamicName)), rfl, by rw [hsettle]; exact h.dataStart_eq ha⟩

/-- Every copied byte lies in the stored part of a segment. -/
theorem exists_segment {input : Section} (hmem : input ∈ sections) (hcopied : input.copied = true) {i : Nat}
    (hi : i < input.size) : ∃ kind, (headers.segment kind).holds (input.address + i) = true := by
  obtain ⟨⟨hallocated, hbits⟩, hmetadata⟩ : (input.allocated = true ∧ input.noBits = false) ∧ input.name.metadata = false := by
    simpa [Section.copied, Section.stored] using hcopied
  have hstop : input.stop = input.address + input.size := rfl
  have hcontent := bounds.relroContentEnd_le
  rw [h.laidOut, (h.eh_spec ha).2.2.2]
  cases hkind : input.kind with
  | some kind =>
    obtain ⟨hlow, hhigh, hstored⟩ := h.covers hmem hkind
    refine ⟨kind, ?_⟩
    simp only [ProgramHeader.holds, Bool.and_eq_true, decide_eq_true_eq]
    cases kind <;> simp only [Headers.segment, layOut, Bounds.low, Bounds.high, hbits, true_imp_iff] at hlow hhigh hstored ⊢ <;> omega
  | none =>
    -- only thread-local sections are copied and of no kind
    have hlocal : input.threadLocal = true := by
      have hname : input.name ≠ .dynamic := by
        intro heq
        rw [heq] at hmetadata
        cases hmetadata
      unfold Section.kind at hkind
      unfold Section.threadLocal
      split_ifs at hkind <;> simp_all
    obtain ⟨hlow, -, hhigh⟩ := h.threadLocal_inside ha hmem hlocal
    have hend := hhigh hbits
    refine ⟨.data, ?_⟩
    simp only [ProgramHeader.holds, Bool.and_eq_true, decide_eq_true_eq]
    simp only [Headers.segment, layOut]
    omega

end Written

/-- Of segments that do not overlap one at most holds an address. -/
theorem filter_holds_eq {loads : List ProgramHeader} {load : ProgramHeader} {address : Nat}
    (hsize : ∀ load ∈ loads, load.fileSize ≤ load.memorySize)
    (hapart : loads.Pairwise fun first second => first.overlaps second = false) (hmem : load ∈ loads)
    (hholds : load.holds address = true) : loads.filter (·.holds address) = [load] := by
  have hfilter := hapart.filter (·.holds address)
  have hin : load ∈ loads.filter (·.holds address) := List.mem_filter.mpr ⟨hmem, hholds⟩
  have hall : ∀ other ∈ loads.filter (·.holds address), other.fileSize ≤ other.memorySize ∧ other.holds address = true :=
    fun other hother => ⟨hsize other (List.mem_filter.mp hother).1, (List.mem_filter.mp hother).2⟩
  generalize loads.filter (·.holds address) = found at *
  match found with
  | [] => cases hin
  | [only] => rw [List.mem_singleton.mp hin]
  | first :: second :: rest =>
    have hnot := List.rel_of_pairwise_cons hfilter List.mem_cons_self
    obtain ⟨hfirst, hfirst'⟩ := hall first List.mem_cons_self
    obtain ⟨hsecond, hsecond'⟩ := hall second (List.mem_cons_of_mem _ List.mem_cons_self)
    simp only [ProgramHeader.holds, Bool.and_eq_true, decide_eq_true_eq] at hfirst' hsecond'
    simp only [ProgramHeader.overlaps, decide_eq_false_iff_not] at hnot
    omega

/-- An image as the linker script lays it out, each section at its address and 16 KiB further in the file. The script
puts `.tdata` after `.data`. -/
def scripted (dataFirst : Bool) : List Section :=
  [⟨.text, true, true, false, false, false, 0, 0x4000, 0x100, by decide⟩,
    ⟨.ehFrame, true, false, false, false, false, 0x4000, 0x8000, 0x40, by decide⟩,
    ⟨.got, true, false, true, false, false, 0x8000, 0xc000, 0x20, by decide⟩,
    ⟨.dynamic, true, false, true, false, false, 0xc000, 0x10000, 0x100, by decide⟩,
    ⟨.other 0, true, false, true, dataFirst.not, false, 0xc100, 0x10100, 0x40, by decide⟩,
    ⟨.other 1, true, false, true, dataFirst, false, 0xc140, 0x10140, 0x40, by decide⟩,
    ⟨.other 2, true, false, true, false, true, 0xc180, 0x10180, 0x80, by decide⟩]

def scriptedHeaders (dataBytes tlsStart : Nat) : Headers where
  text := ⟨0x4000, 0, 0x100, 0x100⟩
  ro := ⟨0x8000, 0x4000, 0x40, 0x40⟩
  relro := ⟨0xc000, 0x8000, 0x2f0, 0x2f0⟩
  data := ⟨0x10000, 0xc000, dataBytes, 0x200⟩
  dynamic := ⟨0x10200, 0xc200, 0x100, 0x100⟩
  tls := ⟨tlsStart + 0x4000, tlsStart, 0x40, 0x40⟩

end Ps5Vulkan.Native
