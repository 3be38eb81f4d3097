import Ps5Vulkan.Library.Extents
import Ps5Vulkan.Library.LittleEndian
import Ps5Vulkan.Library.Rounding

/-!
# Shader packages and the stage workspace

A compiled shader is an ELF file with a header and a code section. The driver finds the sections of a pipeline's two
packages, copies them into the pipeline's stage workspace, and has the shader library make the shader objects there
(`driver/ps5vk_pipeline.c`). The library writes into each object where its register tables are and how many records they
have. A draw copies those records.

## Implementation notes

What the shader library answers is any answer. The contents of the headers but for their checked fields, the linked
primitive type, the cache flush and the device's list of stages are left out. The workspace lies in the address window,
so that no sum wraps.
-/

variable (vertex pixel : Extent × Extent)

namespace Ps5Vulkan.Shader

open Extents LittleEndian

/-- `struct ps5vk_shader_package`. -/
structure ShaderPackage where
  data : Bytes
  size : Nat

/-- `strcmp` finds the text. -/
def named (data : Bytes) (start : Nat) (text : String) : Bool :=
  (text.toList.map Char.toNat ++ [0]).zipIdx.all fun letter => (data (start + letter.2)).toNat == letter.1

/-- `memchr` finds a zero. -/
def terminated (data : Bytes) (start bytes : Nat) : Bool :=
  (List.range bytes).any fun i => data (start + i) == 0

namespace ShaderPackage

variable (package : ShaderPackage)

/-- A header and a code section, as far as they have been found. -/
abbrev Found := Option Extent × Option Extent

/-- The section table: where it starts, the bytes of a record, and where the names are. -/
structure SectionTable where
  start : Nat
  entryBytes : Nat
  names : Extent

/-- A turn of the loop over the section table. -/
def scan (table : SectionTable) (found : Found) (index : Nat) : Option Found :=
  let record := table.start + index * table.entryBytes
  let name := read package.data record 4
  let input : Extent := ⟨read package.data (record + 24) 8, read package.data (record + 32) 8⟩
  if table.names.bytes ≤ name ∨ package.size < input.start ∨ package.size - input.start < input.bytes ∨
      !terminated package.data (table.names.start + name) (table.names.bytes - name) then none
  else if named package.data (table.names.start + name) ".shader_header" then some (some input, found.2)
  else if named package.data (table.names.start + name) ".shader_text" then some (found.1, some input)
  else some found

/-- The checks of a header and its code. -/
def accepts (hardwareStage : Nat) (header code : Extent) : Bool :=
  let field offset bytes := read package.data (header.start + offset) bytes
  96 ≤ header.bytes && code.bytes != 0 && field 0 4 == 0x34333231 && field 4 4 == 24 && field 8 8 != 0 &&
    field 16 8 == 0 && field 64 4 == header.bytes && field 68 4 == code.bytes && field 0x5a 1 == hardwareStage

/-- `ps5vk_package_sections`: the header and the code. -/
def sections (hardwareStage : Nat) : Option (Extent × Extent) := do
  let data := package.data
  guard (64 ≤ package.size ∧ read data 0 4 = 0x464c457f)
  let start := read data 40 8
  let entryBytes := read data 58 2
  let count := read data 60 2
  let namesIndex := read data 62 2
  guard (start ≠ 0 ∧ 64 ≤ entryBytes ∧ count ≠ 0 ∧ namesIndex < count ∧ start ≤ package.size ∧
    count ≤ (package.size - start) / entryBytes)
  let record := start + namesIndex * entryBytes
  let names : Extent := ⟨read data (record + 24) 8, read data (record + 32) 8⟩
  guard (names.start ≤ package.size ∧ names.bytes ≤ package.size - names.start)
  let found ← (List.range count).foldlM (package.scan ⟨start, entryBytes, names⟩) (none, none)
  let header ← found.1
  let code ← found.2
  guard (package.accepts hardwareStage header code)
  return (header, code)

end ShaderPackage

/-- `PS5VK_STAGE_REGION_ALIGNMENT`. -/
def regionAlignment : Nat := 0x1000

/-- `PS5VK_STAGE_BYTES`. -/
def stageBytes : Nat := 0x10000

/-- A section copied to an offset of the workspace. -/
structure StageCopy where
  source : Extent
  offset : Nat
  deriving DecidableEq, Repr

def StageCopy.region (copy : StageCopy) : Extent :=
  ⟨copy.offset, copy.source.bytes⟩

structure StageLayout where
  vertexHeader : StageCopy
  vertexCode : StageCopy
  pixelHeader : StageCopy
  pixelCode : StageCopy
  contextOffset : Nat
  uniformOffset : Nat
  bytes : Nat
  deriving DecidableEq, Repr

/-- The sections one behind the other, each on a region of its own. -/
def StageLayout.placed (contextOffset uniformOffset bytes : Nat) : StageLayout :=
  let vertexCode := Rounding.up vertex.1.bytes regionAlignment
  let pixelHeader := vertexCode + Rounding.up vertex.2.bytes regionAlignment
  let pixelCode := pixelHeader + Rounding.up pixel.1.bytes regionAlignment
  ⟨⟨vertex.1, 0⟩, ⟨vertex.2, vertexCode⟩, ⟨pixel.1, pixelHeader⟩, ⟨pixel.2, pixelCode⟩, contextOffset, uniformOffset, bytes⟩

/-- Shaders that end before `PS5VK_STAGE_CONTEXT_OFFSET` have the linked context and the uniforms at fixed offsets, larger
ones behind their code. -/
def stageLayout : StageLayout :=
  let fixed := StageLayout.placed vertex pixel 0x5000 0x6000 stageBytes
  let codeEnd := fixed.pixelCode.region.stop
  if codeEnd ≤ 0x5000 then fixed
  else
    let contextOffset := Rounding.up codeEnd regionAlignment
    let uniformOffset := contextOffset + regionAlignment
    .placed vertex pixel contextOffset uniformOffset (Rounding.up (uniformOffset + regionAlignment) stageBytes)

/-- The regions of the workspace. -/
def StageLayout.regions (layout : StageLayout) : List Extent :=
  [layout.vertexHeader.region, layout.vertexCode.region, layout.pixelHeader.region, layout.pixelCode.region,
    ⟨layout.contextOffset, regionAlignment⟩, ⟨layout.uniformOffset, regionAlignment⟩]

/-- What the driver reads of a shader object. -/
structure ShaderObject where
  cx : UInt64
  sh : UInt64
  cxCount : UInt8
  shCount : UInt8
  deriving DecidableEq, Repr

inductive StageError
  /-- "the compiled shaders are not valid AGC shader packages" -/
  | packages
  /-- "the stage workspace could not be mapped in the address window" -/
  | unmapped (result : Int32)
  /-- "AGC shader creation or linking failed" -/
  | library (result : Int32)
  /-- "a created shader's register tables are out of bounds" -/
  | tables
  deriving DecidableEq, Repr

/-- A pipeline's shaders: the workspace, and the objects in it. -/
structure Stage where
  layout : StageLayout
  address : Nat
  vertex : ShaderObject
  pixel : ShaderObject
  deriving DecidableEq, Repr

namespace Stage

variable (stage : Stage)

def mapping : Extent :=
  ⟨stage.address, stage.layout.bytes⟩

/-- The check of an object's register tables. -/
def keeps (object : ShaderObject) : Bool :=
  object.cx != 0 && object.sh != 0 && stage.mapping.Has object.cx.toNat && stage.mapping.Has object.sh.toNat &&
    object.cxCount ≤ 32 && object.shCount ≤ 16

/-- `ps5vk_pipeline_create_shaders`, by where the workspace is mapped and what the library answers. -/
def create (vertex pixel : ShaderPackage) (mapped : Except Int32 {address : Nat // 0x4000 ∣ address})
    (objects : Except Int32 (ShaderObject × ShaderObject)) : Except StageError Stage :=
  match vertex.sections 2, pixel.sections 1, mapped, objects with
  | some vertex, some pixel, .ok address, .ok objects =>
    let stage : Stage := ⟨stageLayout vertex pixel, address, objects.1, objects.2⟩
    if stage.keeps objects.1 && stage.keeps objects.2 then .ok stage else .error .tables
  | some _, some _, .ok _, .error result => .error (.library result)
  | some _, some _, .error result, _ => .error (.unmapped result)
  | _, _, _, _ => .error .packages

/-- The objects' context and shader tables, of records of eight bytes. -/
def tables : List Extent :=
  [⟨stage.vertex.cx.toNat, 8 * stage.vertex.cxCount.toNat⟩, ⟨stage.pixel.cx.toNat, 8 * stage.pixel.cxCount.toNat⟩,
    ⟨stage.vertex.sh.toNat, 8 * stage.vertex.shCount.toNat⟩, ⟨stage.pixel.sh.toNat, 8 * stage.pixel.shCount.toNat⟩]

def records (table : Extent) : List Extent :=
  (List.range (table.bytes / 8)).map fun i => ⟨table.start + 8 * i, 8⟩

/-- The records `ps5vk_cmd_draw` copies: those of the linked context, and of the objects' tables. -/
def drawn : List Extent :=
  (⟨stage.address + stage.layout.contextOffset, 8 * 34⟩ :: stage.tables).flatMap records

end Stage

/-! ### Sections lie in their package -/

namespace ShaderPackage

variable {package : ShaderPackage} {found found' : Found}

/-- What has been found lies in the package. -/
def Inside (package : ShaderPackage) (found : Found) : Prop :=
  ∀ input : Extent, input ∈ found.1 ∨ input ∈ found.2 → input.stop ≤ package.size

theorem Inside.scan {table : SectionTable} {index : Nat} (h : package.Inside found)
    (hscan : package.scan table found index = some found') : package.Inside found' := by
  unfold ShaderPackage.scan at hscan
  dsimp only at hscan
  split at hscan
  · cases hscan
  next hrefused =>
    simp only [not_or, Nat.not_le, Nat.not_lt] at hrefused
    obtain ⟨-, hstart, hbytes, -⟩ := hrefused
    have hnew := Nat.add_le_of_le_sub' hstart hbytes
    repeat' split at hscan
    all_goals obtain rfl := Option.some.inj hscan
    · rintro input (hinput | hinput)
      · exact Option.some.inj hinput ▸ hnew
      · exact h input (.inr hinput)
    · rintro input (hinput | hinput)
      · exact h input (.inl hinput)
      · exact Option.some.inj hinput ▸ hnew
    · exact h

theorem Inside.foldlM {table : SectionTable} {indices : List Nat} (h : package.Inside found)
    (hscan : indices.foldlM (package.scan table) found = some found') : package.Inside found' := by
  induction indices generalizing found with
  | nil => exact Option.some.inj hscan ▸ h
  | cons index indices ih =>
    obtain ⟨next, hnext, hrest⟩ := Option.bind_eq_some_iff.mp hscan
    exact ih (h.scan hnext) hrest

theorem sections_within {hardwareStage : Nat} {header code : Extent}
    (h : package.sections hardwareStage = some (header, code)) : header.stop ≤ package.size ∧ code.stop ≤ package.size := by
  simp only [sections, Option.bind_eq_bind, Option.bind_eq_some_iff, Option.pure_def, Option.some.injEq] at h
  obtain ⟨-, -, -, -, -, -, found, hfound, header', hheader, code', hcode, -, -, heq⟩ := h
  obtain ⟨rfl, rfl⟩ := Prod.mk.inj heq
  have hinside := Inside.foldlM (fun _ h => by simp at h) hfound
  exact ⟨hinside _ (.inl hheader), hinside _ (.inr hcode)⟩

end ShaderPackage

/-! ### The regions of the workspace -/

namespace StageLayout

/-- The regions follow each other on aligned offsets, and the workspace has room for the last. -/
structure Laid (layout : StageLayout) : Prop where
  inOrder : layout.regions.IsChain fun first second => first.stop ≤ second.start
  aligned : ∀ region ∈ layout.regions, regionAlignment ∣ region.start
  room : layout.uniformOffset + regionAlignment ≤ layout.bytes

variable {layout : StageLayout}

theorem Laid.pairwise (h : layout.Laid) : layout.regions.Pairwise fun first second => first.stop ≤ second.start :=
  have : IsTrans Extent fun first second => first.stop ≤ second.start :=
    ⟨fun _ second _ h h' => h.trans ((Nat.le_add_right second.start _).trans h')⟩
  h.inOrder.pairwise

/-- All regions end before the last one does. -/
theorem Laid.stop_le (h : layout.Laid) {region : Extent} (hregion : region ∈ layout.regions) :
    region.stop ≤ layout.bytes := by
  have hlast := List.pairwise_append.mp (show (layout.regions.take 5 ++ layout.regions.drop 5).Pairwise _ from h.pairwise)
  rcases List.mem_append.mp (show region ∈ layout.regions.take 5 ++ layout.regions.drop 5 from hregion) with hmem | hmem
  · refine (hlast.2.2 region hmem _ List.mem_cons_self).trans ((Nat.le_add_right ..).trans h.room)
  · obtain rfl := List.mem_singleton.mp hmem
    exact h.room

end StageLayout

theorem laid_placed {contextOffset uniformOffset bytes : Nat}
    (hcontext : (StageLayout.placed vertex pixel contextOffset uniformOffset bytes).pixelCode.region.stop ≤ contextOffset)
    (huniform : contextOffset + regionAlignment ≤ uniformOffset) (hbytes : uniformOffset + regionAlignment ≤ bytes)
    (hcontextDvd : regionAlignment ∣ contextOffset) (huniformDvd : regionAlignment ∣ uniformOffset) :
    (StageLayout.placed vertex pixel contextOffset uniformOffset bytes).Laid := by
  have hdvd := fun value => Rounding.dvd_up value regionAlignment
  have hpixel := Nat.dvd_add (hdvd vertex.1.bytes) (hdvd vertex.2.bytes)
  have hle := fun value => Rounding.le_up value (show 0 < regionAlignment by decide)
  refine ⟨.cons_cons ?_ (.cons_cons ?_ (.cons_cons ?_ (.cons_cons hcontext (.cons_cons huniform (.singleton _))))), ?_, hbytes⟩
  · exact (Nat.zero_add _).trans_le (hle _)
  · exact Nat.add_le_add_left (hle _) _
  · exact Nat.add_le_add_left (hle _) _
  · simp only [StageLayout.regions, List.forall_mem_cons]
    exact ⟨Nat.dvd_zero _, hdvd _, hpixel, Nat.dvd_add hpixel (hdvd _), hcontextDvd, huniformDvd, nofun⟩

/-- The code ends where it does wherever the linked context goes. -/
theorem stop_placed (contextOffset uniformOffset bytes context' uniform' bytes' : Nat) :
    (StageLayout.placed vertex pixel contextOffset uniformOffset bytes).pixelCode.region.stop =
      (StageLayout.placed vertex pixel context' uniform' bytes').pixelCode.region.stop := rfl

theorem laid_stageLayout : (stageLayout vertex pixel).Laid := by
  unfold stageLayout
  dsimp only
  split
  next hfits => exact laid_placed vertex pixel hfits (by decide) (by decide) (by decide) (by decide)
  next =>
    have hcontext := Rounding.dvd_up (StageLayout.placed vertex pixel 0x5000 0x6000 stageBytes).pixelCode.region.stop
      regionAlignment
    exact laid_placed vertex pixel ((stop_placed ..).trans_le (Rounding.le_up _ (by decide))) (Nat.le_refl _)
      (Rounding.le_up _ (by decide)) hcontext (Nat.dvd_add hcontext (Nat.dvd_refl _))

theorem source_stageLayout :
    ((stageLayout vertex pixel).vertexHeader.source, (stageLayout vertex pixel).vertexCode.source) = vertex ∧
      ((stageLayout vertex pixel).pixelHeader.source, (stageLayout vertex pixel).pixelCode.source) = pixel := by
  unfold stageLayout
  dsimp only
  split <;> exact ⟨rfl, rfl⟩

/-! ### What a draw reads -/

namespace Stage

variable {stage : Stage} {mapping table : Extent}

/-- What is copied into the workspace, and where it goes. -/
structure Staged (stage : Stage) (vertex pixel : ShaderPackage) : Prop where
  vertexInside : stage.layout.vertexHeader.source.stop ≤ vertex.size ∧ stage.layout.vertexCode.source.stop ≤ vertex.size
  pixelInside : stage.layout.pixelHeader.source.stop ≤ pixel.size ∧ stage.layout.pixelCode.source.stop ≤ pixel.size
  disjoint : stage.layout.regions.Pairwise Extent.Disjoint
  aligned : ∀ region ∈ stage.layout.regions, 0x1000 ∣ stage.address + region.start
  inside : ∀ region ∈ stage.layout.regions, region.stop ≤ stage.layout.bytes

/-- The records of a table lie in the workspace if it ends there. -/
theorem records_within_iff {count : Nat} (hbytes : table.bytes = 8 * count) (hstart : mapping.start ≤ table.start)
    (hlt : table.start ≤ mapping.stop) :
    (∀ record ∈ records table, record.Within mapping) ↔ table.stop ≤ mapping.stop := by
  have hcount : table.bytes / 8 = count := by omega
  simp only [records, hcount, List.forall_mem_map, List.mem_range]
  constructor
  · intro h
    rcases Nat.eq_zero_or_pos count with rfl | hpos
    · exact (congrArg _ hbytes).trans_le hlt
    · have hlast := (h (count - 1) (by omega)).2
      unfold Extent.stop at *
      dsimp only at hlast
      omega
  · intro h i hi
    refine ⟨hstart.trans (Nat.le_add_right ..), Nat.le_trans ?_ h⟩
    unfold Extent.stop
    dsimp only
    omega

theorem create_ok {vertex pixel : ShaderPackage} {mapped : Except Int32 {address : Nat // 0x4000 ∣ address}}
    {objects : Except Int32 (ShaderObject × ShaderObject)} (h : create vertex pixel mapped objects = .ok stage) :
    ∃ vertexSections pixelSections, vertex.sections 2 = some vertexSections ∧ pixel.sections 1 = some pixelSections ∧
      stage.layout = stageLayout vertexSections pixelSections ∧ 0x4000 ∣ stage.address ∧
      stage.keeps stage.vertex = true ∧ stage.keeps stage.pixel = true := by
  unfold create at h
  split at h
  next vertexSections pixelSections address objects hvertex hpixel =>
    dsimp only at h
    split at h
    next hkeeps =>
      obtain rfl := Except.ok.inj h
      obtain ⟨hkeepsVertex, hkeepsPixel⟩ := Bool.and_eq_true_iff.mp hkeeps
      exact ⟨_, _, hvertex, hpixel, rfl, address.2, hkeepsVertex, hkeepsPixel⟩
    next => cases h
  all_goals cases h

/-- The check looks at where a table starts. -/
theorem start_of_keeps {object : ShaderObject} (h : stage.keeps object = true) :
    stage.mapping.Has object.cx.toNat ∧ stage.mapping.Has object.sh.toNat := by
  simp only [keeps, Bool.and_eq_true, decide_eq_true_eq] at h
  exact ⟨h.1.1.1.2, h.1.1.2⟩

/-- The linked context lies in the workspace. -/
theorem context_within (hlaid : stage.layout.Laid) :
    ∀ record ∈ records ⟨stage.address + stage.layout.contextOffset, 8 * 34⟩, record.Within stage.mapping := by
  have hregion : stage.layout.contextOffset + regionAlignment ≤ stage.layout.bytes :=
    @StageLayout.Laid.stop_le _ hlaid ⟨stage.layout.contextOffset, regionAlignment⟩ (by simp [StageLayout.regions])
  have hend : stage.layout.contextOffset + 8 * 34 ≤ stage.layout.bytes :=
    (Nat.add_le_add_left (by decide) _).trans hregion
  refine (records_within_iff rfl (Nat.le_add_right ..) ?_).mpr ?_
  · exact Nat.add_le_add_left ((Nat.le_add_right ..).trans hend) _
  · exact (Nat.add_assoc ..).trans_le (Nat.add_le_add_left hend _)

theorem tables_start (hvertex : stage.keeps stage.vertex = true) (hpixel : stage.keeps stage.pixel = true) :
    ∀ table ∈ stage.tables, (∃ count, table.bytes = 8 * count) ∧ stage.mapping.Has table.start := by
  obtain ⟨hvertexCx, hvertexSh⟩ := start_of_keeps hvertex
  obtain ⟨hpixelCx, hpixelSh⟩ := start_of_keeps hpixel
  simp only [tables, List.forall_mem_cons]
  exact ⟨⟨⟨_, rfl⟩, hvertexCx⟩, ⟨⟨_, rfl⟩, hpixelCx⟩, ⟨⟨_, rfl⟩, hvertexSh⟩, ⟨⟨_, rfl⟩, hpixelSh⟩, nofun⟩

/-- The workspace holds what was copied into it. It holds the records a draw copies if and only if each of the objects'
tables ends in it. -/
theorem create_staged {vertex pixel : ShaderPackage} {mapped : Except Int32 {address : Nat // 0x4000 ∣ address}}
    {objects : Except Int32 (ShaderObject × ShaderObject)} (h : create vertex pixel mapped objects = .ok stage) :
    stage.Staged vertex pixel ∧ ((∀ record ∈ stage.drawn, record.Within stage.mapping) ↔
      ∀ table ∈ stage.tables, table.stop ≤ stage.mapping.stop) := by
  obtain ⟨vertexSections, pixelSections, hvertex, hpixel, hlayout, haddress, hkeepsVertex, hkeepsPixel⟩ := create_ok h
  have hlaid : stage.layout.Laid := hlayout ▸ laid_stageLayout ..
  obtain ⟨hvertexSource, hpixelSource⟩ := source_stageLayout vertexSections pixelSections
  rw [← hlayout] at hvertexSource hpixelSource
  constructor
  · refine ⟨?_, ?_, hlaid.pairwise.imp .inl, fun region hregion => ?_, fun _ => hlaid.stop_le⟩
    · exact ShaderPackage.sections_within (hvertexSource ▸ hvertex)
    · exact ShaderPackage.sections_within (hpixelSource ▸ hpixel)
    · exact Nat.dvd_add (Nat.dvd_trans (by decide) haddress) (hlaid.aligned region hregion)
  · rw [drawn, List.flatMap_cons, List.forall_mem_append, and_iff_right (context_within hlaid), List.forall_mem_flatMap]
    refine forall₂_congr fun table htable => ?_
    obtain ⟨⟨count, hcount⟩, hstart⟩ := tables_start hkeepsVertex hkeepsPixel table htable
    exact records_within_iff hcount hstart.1 (Nat.le_of_lt hstart.2)

/-- Numbers put into a file of zeros: each at an offset, of so many bytes. -/
def file (fields : List (Nat × Nat × Nat)) : Bytes :=
  fields.foldr (fun field data => write data field.1 field.2.1 field.2.2) fun _ => 0

/-- The bytes of a text, lowest first. -/
def textNumber (text : String) : Nat :=
  text.toList.foldr (fun letter number => letter.toNat + 256 * number) 0

/-- A package of a header and four bytes of code: three sections from 64 on, names at 256, the header at 288. -/
def smallPackage (hardwareStage : Nat) : ShaderPackage where
  size := 388
  data := file [(0, 4, 0x464c457f), (40, 8, 64), (58, 2, 64), (60, 2, 3), (64, 4, 0), (88, 8, 256), (96, 8, 29),
    (128, 4, 1), (152, 8, 288), (160, 8, 96), (192, 4, 16), (216, 8, 384), (224, 8, 4),
    (257, 14, textNumber ".shader_header"), (272, 12, textNumber ".shader_text"), (288, 4, 0x34333231), (292, 4, 24),
    (296, 8, 1), (352, 4, 96), (356, 4, 4), (378, 1, hardwareStage)]

theorem sections_smallPackage : (smallPackage 2).sections 2 = some (⟨288, 96⟩, ⟨384, 4⟩) ∧
    (smallPackage 1).sections 1 = some (⟨288, 96⟩, ⟨384, 4⟩) := by
  decide +kernel

/-- An object whose tables both start at an address, with two records and one. -/
def objectAt (address : UInt64) : ShaderObject :=
  ⟨address, address, 2, 1⟩

def smallStage (tables : UInt64) : Stage :=
  ⟨stageLayout (⟨288, 96⟩, ⟨384, 4⟩) (⟨288, 96⟩, ⟨384, 4⟩), 0x2000000, objectAt tables, objectAt tables⟩

theorem create_smallStage {tables : UInt64} (h : (smallStage tables).keeps (objectAt tables) = true) :
    create (smallPackage 2) (smallPackage 1) (.ok ⟨0x2000000, by decide⟩) (.ok (objectAt tables, objectAt tables)) =
      .ok (smallStage tables) := by
  unfold create
  rw [sections_smallPackage.1, sections_smallPackage.2]
  exact if_pos (Bool.and_eq_true_iff.mpr ⟨h, h⟩)

theorem smallStage_staged : (smallStage 0x2000000).Staged (smallPackage 2) (smallPackage 1) ∧
    ∀ record ∈ (smallStage 0x2000000).drawn, record.Within (smallStage 0x2000000).mapping := by
  obtain ⟨hstaged, hiff⟩ := create_staged (@create_smallStage 0x2000000 (by decide))
  exact ⟨hstaged, hiff.mpr (by decide)⟩

/-- With tables at the last record of the workspace, the second record a draw copies lies behind it. -/
theorem smallStage_overrun :
    create (smallPackage 2) (smallPackage 1) (.ok ⟨0x2000000, by decide⟩)
      (.ok (objectAt 0x200fff8, objectAt 0x200fff8)) = .ok (smallStage 0x200fff8) ∧
      ∃ record ∈ (smallStage 0x200fff8).drawn, ¬record.Within (smallStage 0x200fff8).mapping :=
  ⟨create_smallStage (by decide), ⟨0x2010000, 8⟩, by decide, fun h => absurd h.2 (by decide)⟩

end Stage

end Ps5Vulkan.Shader
