import Ps5Vulkan.Library.Files
import Ps5Vulkan.Library.SelfDelimiting

/-!
# The shader cache's keys

A cache entry's key is the digest of the driver's build, the shader and every compile option
(`ps5vk_shader_cache_key` in `ps5vk_shader_cache.c`). The digest is of one string of bytes without separators: the
counts and sizes that stand in it say where its parts end, so that two requests with the same string are the same
request.

## Implementation notes

A member of the compiler's records is its bytes in memory. How many they are is the compiler's (`OptionLayout`).
-/

namespace Ps5Vulkan.Shader

open Files SelfDelimiting

/-! ### Records -/

/-- The bytes of a record's members. -/
structure Members (Field : Type) (width : Field → Nat) where
  bytes : Field → List UInt8
  length_eq : ∀ field, (bytes field).length = width field

namespace Members

variable {Field : Type} {width : Field → Nat} {first second : Members Field width}

/-- `FIELD`, for one member after another. -/
def hashed (fields : List Field) (members : Members Field width) : List UInt8 :=
  fields.flatMap members.bytes

theorem hashed_inj {fields : List Field} {s t : List UInt8} (h : first.hashed fields ++ s = second.hashed fields ++ t) :
    (∀ field ∈ fields, first.bytes field = second.bytes field) ∧ s = t := by
  induction fields with
  | nil => exact ⟨nofun, h⟩
  | cons field fields ih =>
    simp only [hashed, List.flatMap_cons, List.append_assoc] at h
    obtain ⟨heq, hrest⟩ := List.append_inj h ((first.length_eq field).trans (second.length_eq field).symm)
    exact ⟨List.forall_mem_cons.mpr ⟨heq, (ih hrest).1⟩, (ih hrest).2⟩

theorem eq_of_bytes_eq (h : ∀ field, first.bytes field = second.bytes field) : first = second := by
  cases first
  cases second
  congr
  exact funext h

theorem delimits_hashed {fields : List Field} (hall : ∀ field, field ∈ fields) :
    Delimits (hashed fields : Members Field width → List UInt8) := by
  intro first second s t h
  obtain ⟨heq, hrest⟩ := hashed_inj h
  exact ⟨eq_of_bytes_eq fun field => heq field (hall field), hrest⟩

end Members

/-! ### Requests -/

/-- The members of `PsbcCompileOptions` with one value. -/
inductive OptionField
  | target | stage | optimise | ngg | omitImplicitPrimitiveId | primitiveIdPerPrimitive | ps5GlobalStreamout
  | ps5GlobalPrimitiveQuery | splitVertexInstances | forceAcceleratedDot | primitiveType | provokingVtxLast
  | flatInputVertexValid | flatInputVertex | address32Hi | multiview | rasterizationSamples | spiShaderColFormat
  | colorIsInt8 | colorIsInt10 | galliumBufferArrays | computePrivateBuffer | computeBufferSpills
  deriving DecidableEq, Repr

/-- Those hashed before the vertex attributes. -/
def leadingFields : List OptionField :=
  [.target, .stage, .optimise, .ngg, .omitImplicitPrimitiveId, .primitiveIdPerPrimitive, .ps5GlobalStreamout,
    .ps5GlobalPrimitiveQuery, .splitVertexInstances, .forceAcceleratedDot, .primitiveType, .provokingVtxLast,
    .flatInputVertexValid, .flatInputVertex, .address32Hi, .multiview]

/-- Those hashed after the descriptor bindings. -/
def trailingFields : List OptionField :=
  [.rasterizationSamples, .spiShaderColFormat, .colorIsInt8, .colorIsInt10, .galliumBufferArrays, .computePrivateBuffer,
    .computeBufferSpills]

/-- `PsbcVertexAttribute`. -/
inductive AttributeField
  | location | binding | format | offset | stride | alignment | instanceDivisor
  deriving DecidableEq, Repr

def attributeFields : List AttributeField :=
  [.location, .binding, .format, .offset, .stride, .alignment, .instanceDivisor]

/-- `PsbcDescriptorBinding`. -/
inductive BindingField
  | set | binding | type | arraySize | offset | stride
  deriving DecidableEq, Repr

def bindingFields : List BindingField :=
  [.set, .binding, .type, .arraySize, .offset, .stride]

/-- `PsbcSpecializationEntry`. -/
inductive EntryField
  | constantId | offset | size
  deriving DecidableEq, Repr

def entryFields : List EntryField :=
  [.constantId, .offset, .size]

def EntryField.width : EntryField → Nat
  | .constantId | .offset => 4
  | .size => 8

/-- How many bytes the members of the compiler's records and the two counts of its arrays are. -/
structure OptionLayout where
  optionWidth : OptionField → Nat
  attributeWidth : AttributeField → Nat
  bindingWidth : BindingField → Nat
  attributeCount : Nat
  bindingCount : Nat

/-- A SPIR-V module in host byte order, as the driver checks it before a compile: its first word is the magic number. -/
structure SpirvBytes where
  bytes : List UInt8
  magic : bytes.take 4 = toBytes 4 0x07230203

inductive ShaderInput
  | spirv (module : SpirvBytes)
  | nir (serialized : List UInt8)

/-- What is hashed of the input: a zero word stands before serialized NIR. -/
def ShaderInput.bytes : ShaderInput → List UInt8
  | .spirv module => module.bytes
  | .nir serialized => toBytes 4 0 ++ serialized

/-- A name is a string of the language, which ends at its first zero. -/
abbrev EntryName := { name : List UInt8 // 0 ∉ name }

/-- `main`. -/
def mainName : EntryName :=
  ⟨[109, 97, 105, 110], by decide⟩

variable {layout : OptionLayout}

structure CompileRequest (layout : OptionLayout) where
  input : ShaderInput
  entrypoint : Option EntryName
  options : Members OptionField layout.optionWidth
  vertexAttributes : List (Members AttributeField layout.attributeWidth)
  descriptorBindings : List (Members BindingField layout.bindingWidth)
  specializationEntries : List (Members EntryField EntryField.width)
  specializationData : List UInt8
  /-- The sizes and counts are what their members can hold. -/
  input_lt : input.bytes.length < 256 ^ 8
  vertexAttributes_lt : vertexAttributes.length < 256 ^ layout.attributeCount
  descriptorBindings_lt : descriptorBindings.length < 256 ^ layout.bindingCount
  specializationEntries_lt : specializationEntries.length < 256 ^ 4
  specializationData_lt : specializationData.length < 256 ^ 8

namespace CompileRequest

variable (request : CompileRequest layout)

/-- A missing entry point is `main`. -/
def entry : EntryName :=
  request.entrypoint.getD mainName

/-- What is hashed from the counts of the specialization on. -/
def specializationBytes : List UInt8 :=
  toBytes 4 request.specializationEntries.length ++ (toBytes 8 request.specializationData.length ++
    (request.specializationEntries.flatMap (Members.hashed entryFields) ++ request.specializationData))

/-- What is hashed from the options on. -/
def optionBytes : List UInt8 :=
  request.options.hashed leadingFields ++ (toBytes layout.attributeCount request.vertexAttributes.length ++
    (request.vertexAttributes.flatMap (Members.hashed attributeFields) ++
      (toBytes layout.bindingCount request.descriptorBindings.length ++
        (request.descriptorBindings.flatMap (Members.hashed bindingFields) ++
          (request.options.hashed trailingFields ++ request.specializationBytes)))))

/-- The bytes that `ps5vk_shader_cache_key` and `ps5vk_shader_cache_nir_key` hash, in this build of the driver. -/
def keyBytes (build : List UInt8) : List UInt8 :=
  build ++ (toBytes 8 request.input.bytes.length ++ (request.input.bytes ++ (request.entry.val ++ 0 :: request.optionBytes)))

end CompileRequest

/-! ### Equal bytes -/

theorem toBytes_append_inj {width count count' : Nat} {s t : List UInt8} (hcount : count < 256 ^ width)
    (hcount' : count' < 256 ^ width) (h : toBytes width count ++ s = toBytes width count' ++ t) : count = count' ∧ s = t := by
  obtain ⟨heq, hrest⟩ := List.append_inj h (by rw [length_toBytes, length_toBytes])
  exact ⟨toBytes_injOn hcount hcount' heq, hrest⟩

/-- A module does not start as serialized NIR does. -/
theorem ShaderInput.bytes_injective : Function.Injective ShaderInput.bytes := by
  have hkind : ∀ (module : SpirvBytes) (serialized : List UInt8), module.bytes ≠ toBytes 4 0 ++ serialized := by
    intro module serialized h
    have hmagic := module.magic
    rw [h, List.take_left' (length_toBytes 4 0)] at hmagic
    exact absurd hmagic (by decide)
  intro input input' h
  cases input with
  | spirv module =>
    cases input' with
    | spirv module' => cases module; cases module'; cases h; rfl
    | nir serialized => exact absurd h (hkind module serialized)
  | nir serialized =>
    cases input' with
    | spirv module => exact absurd h.symm (hkind module serialized)
    | nir serialized' => exact congrArg _ (List.append_cancel_left h)

namespace CompileRequest

variable {first second : CompileRequest layout}

theorem specializationBytes_inj (h : first.specializationBytes = second.specializationBytes) :
    first.specializationEntries = second.specializationEntries ∧ first.specializationData = second.specializationData := by
  obtain ⟨hentries, h⟩ := toBytes_append_inj first.specializationEntries_lt second.specializationEntries_lt h
  obtain ⟨-, h⟩ := toBytes_append_inj first.specializationData_lt second.specializationData_lt h
  exact flatMap_inj (Members.delimits_hashed (by intro field; cases field <;> decide)) hentries h

theorem optionBytes_inj (h : first.optionBytes = second.optionBytes) :
    first.options = second.options ∧ first.vertexAttributes = second.vertexAttributes ∧
      first.descriptorBindings = second.descriptorBindings ∧
      first.specializationBytes = second.specializationBytes := by
  obtain ⟨hleading, h⟩ := Members.hashed_inj h
  obtain ⟨hattributes, h⟩ := toBytes_append_inj first.vertexAttributes_lt second.vertexAttributes_lt h
  obtain ⟨hattributes, h⟩ := flatMap_inj (Members.delimits_hashed (by intro field; cases field <;> decide)) hattributes h
  obtain ⟨hbindings, h⟩ := toBytes_append_inj first.descriptorBindings_lt second.descriptorBindings_lt h
  obtain ⟨hbindings, h⟩ := flatMap_inj (Members.delimits_hashed (by intro field; cases field <;> decide)) hbindings h
  obtain ⟨htrailing, h⟩ := Members.hashed_inj h
  refine ⟨Members.eq_of_bytes_eq fun field => ?_, hattributes, hbindings, h⟩
  have hfield : field ∈ leadingFields ∨ field ∈ trailingFields := by cases field <;> decide
  exact hfield.elim (hleading field) (htrailing field)

/-- The key determines the compile. -/
theorem keyBytes_determines (build : List UInt8) (first second : CompileRequest layout)
    (h : first.keyBytes build = second.keyBytes build) :
    first.input = second.input ∧ first.entry = second.entry ∧ first.options = second.options ∧
      first.vertexAttributes = second.vertexAttributes ∧ first.descriptorBindings = second.descriptorBindings ∧
      first.specializationEntries = second.specializationEntries ∧
      first.specializationData = second.specializationData := by
  obtain ⟨hlength, h⟩ := toBytes_append_inj first.input_lt second.input_lt (List.append_cancel_left h)
  obtain ⟨hinput, h⟩ := List.append_inj h hlength
  obtain ⟨hentry, h⟩ := terminated_inj first.entry.property second.entry.property h
  obtain ⟨hoptions, hattributes, hbindings, h⟩ := optionBytes_inj h
  obtain ⟨hentries, hdata⟩ := specializationBytes_inj h
  exact ⟨ShaderInput.bytes_injective hinput, Subtype.ext hentry, hoptions, hattributes, hbindings, hentries, hdata⟩

/-- Two bytes of NIR, with or without the name of its entry point. -/
def plain (entrypoint : Option EntryName) : CompileRequest ⟨fun _ => 1, fun _ => 1, fun _ => 1, 1, 1⟩ where
  input := .nir [5, 7]
  entrypoint
  options := ⟨fun _ => [0], fun _ => rfl⟩
  vertexAttributes := [⟨fun _ => [1], fun _ => rfl⟩, ⟨fun _ => [2], fun _ => rfl⟩]
  descriptorBindings := [⟨fun _ => [3], fun _ => rfl⟩]
  specializationEntries := [⟨fun field => List.replicate field.width 4, fun _ => List.length_replicate⟩]
  specializationData := [6, 8]
  input_lt := by decide
  vertexAttributes_lt := by decide
  descriptorBindings_lt := by decide
  specializationEntries_lt := by decide
  specializationData_lt := by decide

theorem plain_determines : (plain none).keyBytes [] = (plain (some mainName)).keyBytes [] ∧
    (plain none).entry = (plain (some mainName)).entry :=
  ⟨rfl, (keyBytes_determines [] _ _ rfl).2.1⟩

end CompileRequest

end Ps5Vulkan.Shader
