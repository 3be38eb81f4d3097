import Ps5Vulkan.Record.DynamicOffsets

/-!
# The binding options of a graphics pipeline

Creating a graphics pipeline tells the compiler the bindings each stage sees: an entry for every
visible binding of the pipeline layout, with its place in the table of its set, and after them a
reserved entry through which the stage reads its push constants. The entries of the layout are
counted against the room of the array, the reserved one is not; binding numbers are narrowed to a
byte, and the reserved number is one an application may use.
-/

namespace Ps5Vulkan.Record

/-- `PS5VK_MAX_PUSH_CONSTANT_BYTES`. -/
def maxPushConstantBytes : UInt32 := 128

/-- A declared binding with the stages that see it. -/
structure StagedBinding extends LayoutBinding where
  stages : UInt32
  deriving DecidableEq, Repr

/-- `VkPushConstantRange`. -/
structure PushRange where
  stages : UInt32
  offset : UInt32
  size : UInt32
  deriving DecidableEq, Repr

/-- `struct vk_pipeline_layout`: its sets, at their numbers, and its push-constant ranges. -/
structure PipelineLayout where
  sets : List (Option (List StagedBinding))
  pushRanges : List PushRange
  deriving DecidableEq, Repr

/-- A stage of a graphics pipeline. -/
inductive GraphicsStage where
  | vertex
  | fragment
  deriving DecidableEq, Repr

/-- `VkShaderStageFlagBits`. -/
def GraphicsStage.bit : GraphicsStage → UInt32
  | vertex => 0x1
  | fragment => 0x10

/-- The compiler's descriptor types. -/
inductive PsbcDescriptorType where
  | uniformBuffer
  | combinedImageSampler
  | storageBuffer
  | uniformTexelBuffer
  | storageTexelBuffer
  | storageImage
  deriving DecidableEq, Repr

/-- What a descriptor type is to the compiler. -/
def DescriptorType.psbc : DescriptorType → PsbcDescriptorType
  | uniformBuffer | uniformBufferDynamic => .uniformBuffer
  | storageBuffer => .storageBuffer
  | uniformTexelBuffer => .uniformTexelBuffer
  | storageTexelBuffer => .storageTexelBuffer
  | storageImage | inputAttachment => .storageImage
  | _ => .combinedImageSampler

/-- `PsbcDescriptorBinding`, as an option. -/
structure DescriptorOption where
  set : UInt8
  binding : UInt8
  type : PsbcDescriptorType
  arraySize : Nat
  offset : Nat
  stride : Nat
  deriving DecidableEq, Repr

/-- Why creation refuses a layout. -/
inductive OptionsError where
  | tooManySets (set : Nat)
  | noTableEntry (set index : Nat)
  | tooManyBindings
  | pushConstantsPast (bytes : UInt32)
  deriving DecidableEq, Repr

/-- A binding the loops of `ps5vk_descriptor_options` come to. -/
structure Visit where
  set : Nat
  index : Nat
  stages : UInt32
  placed : PlacedBinding
  deriving DecidableEq, Repr

/-- The bindings of a set, at their numbers. -/
def visitSet (set : Nat) (bindings : List StagedBinding) : List Visit :=
  (bindings.zip (placeLayout (bindings.map (·.toLayoutBinding)))).zipIdx.map
    fun visited => ⟨set, visited.2, visited.1.1.stages, visited.1.2⟩

/-- The bindings of a layout, set by set. A set without a layout has none. -/
def PipelineLayout.visits (layout : PipelineLayout) : List Visit :=
  layout.sets.zipIdx.flatMap fun set => visitSet set.2 (set.1.getD [])

namespace Visit

/-- The stage sees the binding. -/
def Visible (bit : UInt32) (visit : Visit) : Prop :=
  visit.placed.count ≠ 0 ∧ visit.stages &&& bit ≠ 0

instance (bit : UInt32) : DecidablePred (Visible bit) :=
  fun _ => inferInstanceAs (Decidable (_ ∧ _))

/-- The binding's name. -/
def name (visit : Visit) : Nat × Nat := (visit.set, visit.index)

/-- The entry of a binding. -/
def toOption (visit : Visit) : DescriptorOption where
  set := UInt8.ofNat visit.set
  binding := UInt8.ofNat visit.index
  type := visit.placed.type.psbc
  arraySize := visit.placed.count
  offset := visit.placed.offset
  stride := visit.placed.stride

/-- The body of the loops of `ps5vk_descriptor_options`. -/
def add (bit : UInt32) (options : List DescriptorOption) (visit : Visit) :
    Except OptionsError (List DescriptorOption) :=
  if ¬ visit.Visible bit then .ok options
  else if descriptorSetCount ≤ visit.set then .error (.tooManySets visit.set)
  else if visit.placed.stride = 0 then .error (.noTableEntry visit.set visit.index)
  else if options.length = maxDescriptorBindings then .error .tooManyBindings
  else .ok (options ++ [visit.toOption])

end Visit

/-- `ps5vk_descriptor_options`. -/
def descriptorOptions (layout : PipelineLayout) (bit : UInt32) :
    Except OptionsError (List DescriptorOption) :=
  layout.visits.foldlM (Visit.add bit) []

/-- `ps5vk_push_constant_range`: the bytes and the stages. -/
def pushConstantRange (ranges : List PushRange) : UInt32 × UInt32 :=
  ranges.foldl (fun pushed range =>
    (max pushed.1 (range.offset + range.size), pushed.2 ||| range.stages)) (0, 0)

/-- The entry of `ps5vk_push_constant_options`. The compiler chooses its number. -/
def pushConstantOption (reserved : UInt8) (layout : PipelineLayout) : DescriptorOption where
  set := 0
  binding := reserved
  type := .uniformBuffer
  arraySize := 1
  offset := (layout.sets.head?.join.map fun bindings =>
    (layoutTotals (bindings.map (·.toLayoutBinding))).offset).getD 0
  stride := 16

/-- The options of a stage after its push constants. -/
def withPushConstants (reserved : UInt8) (layout : PipelineLayout) (stages : UInt32)
    (stage : GraphicsStage) (options : List DescriptorOption) : List DescriptorOption :=
  if stages &&& stage.bit ≠ 0 then options ++ [pushConstantOption reserved layout] else options

/-- The binding options of `ps5vk_graphics_pipeline_create`, of a pipeline with or without a
fragment stage. -/
def graphicsOptions (reserved : UInt8) (layout : PipelineLayout) (pixel : Bool) :
    Except OptionsError (GraphicsStage → List DescriptorOption) := do
  let (bytes, pushed) := pushConstantRange layout.pushRanges
  let stages := if pixel then pushed else pushed &&& ~~~GraphicsStage.fragment.bit
  if maxPushConstantBytes < bytes then throw (.pushConstantsPast bytes)
  let vertex ← descriptorOptions layout GraphicsStage.vertex.bit
  let fragment ← if pixel then descriptorOptions layout GraphicsStage.fragment.bit else pure []
  return fun
    | .vertex => withPushConstants reserved layout stages .vertex vertex
    | .fragment => withPushConstants reserved layout stages .fragment fragment

/-! ## What the options should say -/

namespace DescriptorOption

variable (entry : DescriptorOption)

def name : Nat × Nat := (entry.set.toNat, entry.binding.toNat)

/-- The table bytes of an entry, as their first one and their number. -/
def range : Nat × Nat := (entry.offset, entry.arraySize * entry.stride)

end DescriptorOption

/-- Two ranges of bytes do not meet. -/
def RangesApart (a b : Nat × Nat) : Prop := a.1 + a.2 ≤ b.1 ∨ b.1 + b.2 ≤ a.1

instance (a b : Nat × Nat) : Decidable (RangesApart a b) :=
  inferInstanceAs (Decidable (_ ∨ _))

namespace PipelineLayout

variable (reserved : UInt8) (layout : PipelineLayout) (stage : GraphicsStage)

/-- The bindings a stage sees. -/
def visible : List Visit := layout.visits.filter (Visit.Visible stage.bit)

/-- The stage has push constants. -/
def Pushes : Prop := (pushConstantRange layout.pushRanges).2 &&& stage.bit ≠ 0

instance : Decidable (layout.Pushes stage) := inferInstanceAs (Decidable (_ ≠ _))

/-- The options name every binding the stage sees once, and the reserved one if the stage has push
constants. -/
structure NamesOnce (options : List DescriptorOption) : Prop where
  bounded : options.length ≤ maxDescriptorBindings
  named : (options.map DescriptorOption.name).Perm
    ((layout.visible stage).map Visit.name ++
      if layout.Pushes stage then [(0, reserved.toNat)] else [])
  distinct : (options.map DescriptorOption.name).Nodup
  apart : options.Pairwise fun a b => a.set = b.set → RangesApart a.range b.range

/-- The bytes each binding of a set takes in its table. -/
def widths (set : Nat) : List Nat :=
  ((layout.sets.getD set none).getD []).map fun binding =>
    binding.count * descriptorStride binding.type

/-- The table bytes of a binding: after all bindings of its set with lower numbers, cut to 32 bits. -/
def cutRange (visit : Visit) : Nat × Nat :=
  (Ragged.start (layout.widths visit.set) visit.index % 2 ^ 32,
    (layout.widths visit.set).getD visit.index 0)

/-- The stage leaves room for its push constants, its binding numbers are bytes other than the
reserved one, and no cut range of its bindings meets another. -/
structure OptionsFit : Prop where
  room : (layout.visible stage).length + (if layout.Pushes stage then 1 else 0) ≤
    maxDescriptorBindings
  byte : ∀ visit ∈ layout.visible stage, visit.index < 2 ^ 8
  unreserved : layout.Pushes stage → (0, reserved.toNat) ∉ (layout.visible stage).map Visit.name
  apart : (layout.visible stage).Pairwise fun a b =>
    a.set = b.set → RangesApart (layout.cutRange a) (layout.cutRange b)
  last : layout.Pushes stage → ∀ visit ∈ layout.visible stage, visit.set = 0 →
    RangesApart (layout.cutRange visit) ((layout.widths 0).sum % 2 ^ 32, 16)

end PipelineLayout

/-! ## The entries of a layout -/

theorem mem_visitSet {set : Nat} {bindings : List StagedBinding} {visit : Visit}
    (h : visit ∈ visitSet set bindings) : visit.set = set ∧
      (placeLayout (bindings.map (·.toLayoutBinding)))[visit.index]? = some visit.placed := by
  obtain ⟨⟨⟨binding, placed⟩, index⟩, hvisited, rfl⟩ := List.mem_map.mp h
  have hentry := List.mem_zipIdx_iff_getElem?.mp hvisited
  exact ⟨rfl, (List.getElem?_zip_eq_some.mp hentry).2⟩

theorem PipelineLayout.mem_visits {layout : PipelineLayout} {visit : Visit} (h : visit ∈ layout.visits) :
    visit ∈ visitSet visit.set ((layout.sets.getD visit.set none).getD []) := by
  obtain ⟨⟨bindings, set⟩, hset, hvisit⟩ := List.mem_flatMap.mp h
  have hentry : layout.sets[set]? = some bindings := List.mem_zipIdx_iff_getElem?.mp hset
  obtain rfl : visit.set = set := (mem_visitSet hvisit).1
  rwa [List.getD_eq_getElem?_getD, hentry]

theorem PipelineLayout.widths_eq (layout : PipelineLayout) (set : Nat) :
    (((layout.sets.getD set none).getD []).map (·.toLayoutBinding)).map
      (fun binding => binding.count * descriptorStride binding.type) = layout.widths set :=
  List.map_map

/-- The table bytes of a binding are its cut range. -/
theorem PipelineLayout.range_toOption {layout : PipelineLayout} {visit : Visit}
    (h : visit ∈ layout.visits) : visit.toOption.range = layout.cutRange visit := by
  have hplaced := (mem_visitSet (mem_visits h)).2
  have hrow := congrArg (·[visit.index]?) (table_placeBindings ⟨0, 0, 0⟩
    (((layout.sets.getD visit.set none).getD []).map (·.toLayoutBinding))).1
  simp only [widths_eq, List.getElem?_map] at hrow
  rw [← placeLayout, hplaced, Ragged.getElem?_stack (Nat.two_pow_pos 32), Nat.zero_add] at hrow
  cases hwidth : (layout.widths visit.set)[visit.index]? with
  | none =>
    rw [hwidth] at hrow
    cases hrow
  | some width =>
    rw [hwidth] at hrow
    rw [cutRange, List.getD_eq_getElem?_getD, hwidth]
    exact Option.some.inj hrow

theorem PipelineLayout.range_pushConstantOption (reserved : UInt8) (layout : PipelineLayout) :
    (pushConstantOption reserved layout).range = ((layout.widths 0).sum % 2 ^ 32, 16) := by
  have htotal := (table_placeBindings ⟨0, 0, 0⟩
    (((layout.sets.getD 0 none).getD []).map (·.toLayoutBinding))).2
  rw [widths_eq, Ragged.top_eq_mod (Nat.two_pow_pos 32), Nat.zero_add] at htotal
  rw [← htotal]
  obtain ⟨_ | ⟨_ | bindings, rest⟩, ranges⟩ := layout <;> rfl

theorem nodup_visitSet (set : Nat) (bindings : List StagedBinding) :
    ((visitSet set bindings).map Visit.name).Nodup := by
  rw [visitSet, List.map_map]
  have hname : Visit.name ∘ (fun visited : (StagedBinding × PlacedBinding) × Nat =>
      (⟨set, visited.2, visited.1.1.stages, visited.1.2⟩ : Visit)) = Prod.mk set ∘ Prod.snd := rfl
  rw [hname, ← List.map_map, List.zipIdx_map_snd]
  exact List.Nodup.map (Prod.mk_right_injective set) List.nodup_range'

/-- No two bindings have the same name. -/
theorem PipelineLayout.nodup_names (layout : PipelineLayout) : (layout.visits.map Visit.name).Nodup := by
  rw [List.Nodup, List.pairwise_map, PipelineLayout.visits, List.pairwise_flatMap]
  constructor
  · intro set _
    exact List.pairwise_map.mp (nodup_visitSet set.2 (set.1.getD []))
  · have hsets : (layout.sets.zipIdx.map Prod.snd).Nodup := by
      rw [List.zipIdx_map_snd]
      exact List.nodup_range'
    refine (List.pairwise_map.mp hsets).imp fun hne a ha b hb heq => hne ?_
    rw [← (mem_visitSet ha).1, ← (mem_visitSet hb).1]
    exact congrArg Prod.fst heq

namespace Visit

variable {bit : UInt32} {visits : List Visit} {options result : List DescriptorOption}

/-- The loops append an entry for every visible binding, as long as there is room. -/
theorem foldlM_add (h : visits.foldlM (add bit) options = .ok result) (hroom : options.length ≤ maxDescriptorBindings) :
    result = options ++ (visits.filter (Visible bit)).map toOption ∧ result.length ≤ maxDescriptorBindings ∧
      ∀ visit ∈ visits.filter (Visible bit), visit.set < descriptorSetCount := by
  induction visits generalizing options with
  | nil =>
    cases h
    simpa using hroom
  | cons visit rest ih =>
    rw [List.foldlM_cons, add] at h
    by_cases hvisible : visit.Visible bit
    · rw [if_neg (not_not_intro hvisible)] at h
      split at h
      · nomatch h
      · split at h
        · nomatch h
        · split at h
          · nomatch h
          · next hset _ hfull =>
              obtain ⟨hresult, hlength, hsets⟩ := ih h (by simp; omega)
              rw [List.filter_cons_of_pos (by simpa using hvisible)]
              refine ⟨by simpa using hresult, hlength, ?_⟩
              rintro other (_ | ⟨_, hother⟩)
              · exact Nat.lt_of_not_le hset
              · exact hsets other hother
    · rw [if_pos hvisible] at h
      rw [List.filter_cons_of_neg (by simpa using hvisible)]
      exact ih h hroom

end Visit

namespace PipelineLayout

variable {reserved : UInt8} {layout : PipelineLayout} {pixel : Bool} {stage : GraphicsStage}
  {options : GraphicsStage → List DescriptorOption}

theorem descriptorOptions_ok {entries : List DescriptorOption}
    (h : descriptorOptions layout stage.bit = .ok entries) : entries = (layout.visible stage).map Visit.toOption ∧
      ∀ visit ∈ layout.visible stage, visit.set < descriptorSetCount := by
  obtain ⟨hentries, -, hsets⟩ := Visit.foldlM_add h (Nat.zero_le _)
  exact ⟨hentries, hsets⟩

/-- The options of a stage that is compiled: an entry for each binding it sees, in order, and the
reserved one if it has push constants. -/
theorem graphicsOptions_ok (h : graphicsOptions reserved layout pixel = .ok options)
    (hstage : stage = .fragment → pixel = true) : options stage = (layout.visible stage).map Visit.toOption ++
        (if layout.Pushes stage then [pushConstantOption reserved layout] else []) ∧
      ∀ visit ∈ layout.visible stage, visit.set < descriptorSetCount := by
  have hpushed : ∀ (stages : UInt32) (entries : List DescriptorOption),
      stages &&& stage.bit = (pushConstantRange layout.pushRanges).2 &&& stage.bit →
      withPushConstants reserved layout stages stage entries = entries ++
        (if layout.Pushes stage then [pushConstantOption reserved layout] else []) := by
    intro stages entries hbit
    by_cases hpushes : layout.Pushes stage
    · rw [withPushConstants, hbit, if_pos hpushes]
      exact if_pos hpushes
    · rw [withPushConstants, hbit, if_neg hpushes, List.append_nil]
      exact if_neg hpushes
  simp only [graphicsOptions] at h
  split at h
  · nomatch h
  cases hvertex : descriptorOptions layout GraphicsStage.vertex.bit with
  | error refusal =>
    rw [hvertex] at h
    nomatch h
  | ok vertex =>
    rw [hvertex] at h
    cases stage with
    | vertex =>
      obtain ⟨hentries, hsets⟩ := descriptorOptions_ok hvertex
      refine ⟨?_, hsets⟩
      cases pixel with
      | false =>
        cases h
        rw [← hentries]
        -- clearing the fragment stage's bit leaves the vertex stage's
        exact hpushed _ _ (UInt32.and_assoc ..)
      | true =>
        cases hfragment : descriptorOptions layout GraphicsStage.fragment.bit with
        | error refusal =>
          simp only [if_true, hfragment] at h
          nomatch h
        | ok fragment =>
          simp only [if_true, hfragment] at h
          cases h
          rw [← hentries]
          exact hpushed _ _ rfl
    | fragment =>
      obtain rfl := hstage rfl
      cases hfragment : descriptorOptions layout GraphicsStage.fragment.bit with
      | error refusal =>
        simp only [if_true, hfragment] at h
        nomatch h
      | ok fragment =>
        obtain ⟨hentries, hsets⟩ := descriptorOptions_ok hfragment
        simp only [if_true, hfragment] at h
        cases h
        rw [← hentries]
        exact ⟨hpushed _ _ rfl, hsets⟩

theorem mem_visits_of_visible {visit : Visit} (h : visit ∈ layout.visible stage) : visit ∈ layout.visits :=
  (List.mem_filter.mp h).1

theorem nodup_visible (layout : PipelineLayout) (stage : GraphicsStage) :
    ((layout.visible stage).map Visit.name).Nodup :=
  layout.nodup_names.sublist (List.filter_sublist.map _)

section Accepted

variable (hsets : ∀ visit ∈ layout.visible stage, visit.set < descriptorSetCount)

theorem name_toOption {visit : Visit} (hset : visit.set < descriptorSetCount) :
    visit.toOption.name = (visit.set, visit.index % 2 ^ 8) := by
  have hnarrow : visit.set % 2 ^ 8 = visit.set := Nat.mod_eq_of_lt (by
    rw [descriptorSetCount] at hset
    omega)
  rw [← hnarrow]
  rfl

include hsets

/-- The entries of the layout have the bindings' names exactly where the numbers are bytes. -/
theorem names_toOption (hbyte : ∀ visit ∈ layout.visible stage, visit.index < 2 ^ 8) :
    ((layout.visible stage).map Visit.toOption).map DescriptorOption.name = (layout.visible stage).map Visit.name := by
  rw [List.map_map]
  refine List.map_congr_left fun visit hvisit => ?_
  rw [Function.comp_apply, name_toOption (hsets visit hvisit), Nat.mod_eq_of_lt (hbyte visit hvisit)]
  rfl

/-- The ranges of the layout's entries are apart where the cut ranges are. -/
theorem apart_toOption_iff : (((layout.visible stage).map Visit.toOption).Pairwise fun a b =>
        a.set = b.set → RangesApart a.range b.range) ↔ (layout.visible stage).Pairwise fun a b =>
        a.set = b.set → RangesApart (layout.cutRange a) (layout.cutRange b) := by
  rw [List.pairwise_map]
  refine List.Pairwise.iff_of_mem fun {a b} ha hb => ?_
  rw [range_toOption (mem_visits_of_visible ha), range_toOption (mem_visits_of_visible hb)]
  have hset : a.toOption.set = b.toOption.set ↔ a.set = b.set := by
    rw [← UInt8.toNat_inj]
    have hfirst := congrArg Prod.fst (name_toOption (hsets a ha))
    have hsecond := congrArg Prod.fst (name_toOption (hsets b hb))
    exact iff_of_eq (congrArg₂ Eq hfirst hsecond)
  rw [hset]

end Accepted

/-- The reserved entry is apart from an entry of the layout where its range at the end of set 0's
table is. -/
theorem apart_pushConstantOption_iff {visit : Visit} (hvisit : visit ∈ layout.visits)
    (hset : visit.set < descriptorSetCount) : (visit.toOption.set = (pushConstantOption reserved layout).set →
        RangesApart visit.toOption.range (pushConstantOption reserved layout).range) ↔
      (visit.set = 0 → RangesApart (layout.cutRange visit) ((layout.widths 0).sum % 2 ^ 32, 16)) := by
  have hzero : visit.toOption.set = (pushConstantOption reserved layout).set ↔ visit.set = 0 := by
    rw [← UInt8.toNat_inj]
    exact iff_of_eq (congrArg (· = 0) (congrArg Prod.fst (name_toOption hset)))
  rw [hzero, range_toOption hvisit, range_pushConstantOption]

/-- Every name of an entry is a byte, and where the bindings are named theirs are among them. -/
theorem NamesOnce.byte {entries : List DescriptorOption} (h : layout.NamesOnce reserved stage entries) :
    ∀ visit ∈ layout.visible stage, visit.index < 2 ^ 8 := by
  intro visit hvisit
  have hname := h.named.mem_iff.mpr (List.mem_append_left _ (List.mem_map_of_mem (f := Visit.name) hvisit))
  obtain ⟨entry, -, hentry⟩ := List.mem_map.mp hname
  have hlt := entry.binding.toNat_lt
  rwa [show entry.binding.toNat = visit.index from congrArg Prod.snd hentry] at hlt

/-- Of a pipeline that creation accepts, the options of a stage name every binding once exactly
where the layout and the push constants fit. -/
theorem namesOnce_graphicsOptions_iff (h : graphicsOptions reserved layout pixel = .ok options)
    (hstage : stage = .fragment → pixel = true) :
    layout.NamesOnce reserved stage (options stage) ↔ layout.OptionsFit reserved stage := by
  obtain ⟨hoptions, hsets⟩ := graphicsOptions_ok h hstage
  have hreserved := fun visit hvisit => @apart_pushConstantOption_iff reserved layout visit
    (mem_visits_of_visible hvisit) (hsets visit hvisit)
  rw [hoptions]
  constructor
  · intro hnames
    have hbyte := hnames.byte
    obtain ⟨hbounded, hnamed, hdistinct, hapart⟩ := hnames
    rw [List.pairwise_append, apart_toOption_iff hsets] at hapart
    refine ⟨?_, hbyte, fun hpushes => ?_, hapart.1, fun hpushes visit hvisit => ?_⟩
    · rw [List.length_append, List.length_map] at hbounded
      split at hbounded <;> simp_all
    · rw [hnamed.nodup_iff, if_pos hpushes] at hdistinct
      exact fun hmem => (List.nodup_append.mp hdistinct).2.2 _ hmem _ List.mem_cons_self rfl
    · rw [if_pos hpushes] at hapart
      exact (hreserved visit hvisit).mp
        (hapart.2.2 _ (List.mem_map_of_mem hvisit) _ List.mem_cons_self)
  · rintro ⟨hroom, hbyte, hunreserved, hapart, hlast⟩
    have hspec : ((layout.visible stage).map Visit.toOption ++
        if layout.Pushes stage then [pushConstantOption reserved layout] else []).map
          DescriptorOption.name = (layout.visible stage).map Visit.name ++
        if layout.Pushes stage then [(0, reserved.toNat)] else [] := by
      rw [List.map_append, names_toOption hsets hbyte]
      split <;> rfl
    refine ⟨?_, List.Perm.of_eq hspec, ?_, ?_⟩
    · rw [List.length_append, List.length_map]
      split <;> simp_all
    · rw [hspec]
      split
      · rename_i hpushes
        exact List.nodup_append.mpr ⟨nodup_visible layout stage, List.nodup_singleton _,
          fun name hname other hother hsame => hunreserved hpushes
            (List.mem_singleton.mp hother ▸ hsame ▸ hname)⟩
      · rw [List.append_nil]
        exact nodup_visible layout stage
    · rw [List.pairwise_append, apart_toOption_iff hsets]
      refine ⟨hapart, ?_, ?_⟩
      · split <;> simp
      · intro entry hentry last hmem
        split at hmem
        · rename_i hpushes
          obtain ⟨visit, hvisit, rfl⟩ := List.mem_map.mp hentry
          rw [List.mem_singleton.mp hmem]
          exact (hreserved visit hvisit).mpr (hlast hpushes visit hvisit)
        · nomatch hmem

/-- A fragment stage with a uniform buffer, a texture of another set and push constants. -/
theorem namesOnce_graphicsOptions_texture :
    let layout : PipelineLayout :=
      ⟨[some [⟨⟨.uniformBuffer, 1⟩, 0x11⟩], some [⟨⟨.combinedImageSampler, 2⟩, 0x10⟩]],
        [⟨0x11, 0, 16⟩]⟩
    ∃ options, graphicsOptions 64 layout true = .ok options ∧
      layout.NamesOnce 64 .fragment (options .fragment) := by
  intro layout
  obtain ⟨options, hoptions⟩ : ∃ options, graphicsOptions 64 layout true = .ok options := ⟨_, rfl⟩
  exact ⟨options, hoptions, (namesOnce_graphicsOptions_iff hoptions fun _ => rfl).mpr
    (by constructor <;> decide)⟩

/-- Binding 256 of a set reaches the compiler as binding 0. -/
theorem not_namesOnce_narrowed :
    let layout : PipelineLayout :=
      ⟨[some (List.replicate 256 ⟨⟨.uniformBuffer, 0⟩, 0⟩ ++ [⟨⟨.uniformBuffer, 1⟩, 0x1⟩])], []⟩
    ∃ options, graphicsOptions 64 layout false = .ok options ∧
      ¬ layout.NamesOnce 64 .vertex (options .vertex) := by
  intro layout
  have hvisible : ⟨0, 256, 1, ⟨⟨.uniformBuffer, 1, 0, 0⟩, 16, 0⟩⟩ ∈ layout.visible .vertex := by
    decide +kernel
  have haccepted : (graphicsOptions 64 layout false).isOk := by decide +kernel
  cases hoptions : graphicsOptions 64 layout false with
  | error refusal =>
    rw [hoptions] at haccepted
    nomatch haccepted
  | ok options => exact ⟨options, rfl, fun h => absurd (h.byte _ hvisible) (by decide)⟩

end PipelineLayout

end Ps5Vulkan.Record
