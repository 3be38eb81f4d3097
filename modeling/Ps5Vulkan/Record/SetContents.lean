import Ps5Vulkan.Record.DescriptorUpdates

/-!
# What descriptor sets hold

The update model of Vulkan, in its own terms: a set has a descriptor for each element of each binding
of its layout, and a write or a copy replaces the descriptors it covers, in the order of the elements
and on into the bindings after its own, past the ones without elements. The sets of the driver hold,
record by record, what that model says. Of immutable samplers a layout keeps nothing, so the sampler
of a draw is the one the latest write named.
-/

variable (info : LayoutInfo)

namespace Ps5Vulkan.Record

/-- `VkDescriptorSetLayoutBinding`. -/
structure LayoutInfoBinding where
  binding : Nat
  type : DescriptorType
  count : Nat
  immutableSamplers : Option (Nat → Sampler)

/-- `VkDescriptorSetLayoutCreateInfo`. Valid usage: binding numbers are unique. -/
structure LayoutInfo where
  bindings : List LayoutInfoBinding
  unique : (bindings.map LayoutInfoBinding.binding).Nodup

/-- One more than the last binding number of a layout. -/
def LayoutInfo.bindingCount : Nat :=
  (info.bindings.map fun source => source.binding + 1).foldl max 0

/-- `ps5vk_CreateDescriptorSetLayout`: the bindings by number, in zeroed memory. The immutable
samplers are not read. -/
def createDescriptorSetLayout : SetLayout :=
  info.bindings.foldl (fun layout source => layout.set source.binding ⟨source.type, source.count⟩)
    (List.replicate info.bindingCount ⟨.sampler, 0⟩)

/-! ## The update model -/

namespace LayoutInfo

/-- The declaration of a binding number. -/
def find (binding : Nat) : Option LayoutInfoBinding :=
  info.bindings.find? fun source => source.binding = binding

/-- The elements of a binding. -/
def count (binding : Nat) : Nat := ((info.find binding).map (·.count)).getD 0

/-- The elements of each binding in order. -/
def counts : List Nat := (List.range info.bindingCount).map info.count

/-- The immutable sampler a layout gives an element of a sampler or combined image sampler binding. -/
def immutableSampler (binding element : Nat) : Option Sampler := do
  let source ← info.find binding
  let samplers ← source.immutableSamplers
  if (source.type = .sampler ∨ source.type = .combinedImageSampler) ∧ element < source.count then
    some (samplers element)
  else none

end LayoutInfo

/-- What the sets hold, by handle, binding and element. -/
abbrev SetModel := Nat → Nat × Nat → Option Descriptor

section Model

variable (infos : Nat → Option LayoutInfo)

/-- The elements of each binding of a set, none for a handle that names no set. -/
def setCounts (handle : Nat) : List Nat := ((infos handle).map LayoutInfo.counts).getD []

/-- A write covers elements from its first one on, each with the descriptor of its turn. -/
def SetModel.write (model : SetModel) (write : SetWrite) : SetModel := fun handle p =>
  if handle = write.dstSet then
    match (Ragged.walk (setCounts infos write.dstSet) (write.dstBinding, write.dstArrayElement)
        write.descriptorCount).idxOf? p with
    | some i => some (write.one i)
    | none => model handle p
  else model handle p

/-- A copy covers elements of its destination with what those of its source hold. -/
def SetModel.copy (model : SetModel) (copy : SetCopy) : SetModel := fun handle p =>
  if handle = copy.dstSet then
    match (Ragged.walk (setCounts infos copy.dstSet) (copy.dstBinding, copy.dstArrayElement)
        copy.descriptorCount).idxOf? p with
    | some i =>
      (Ragged.walk (setCounts infos copy.srcSet) (copy.srcBinding, copy.srcArrayElement)
        copy.descriptorCount)[i]?.bind (model copy.srcSet)
    | none => model handle p
  else model handle p

/-- The writes and copies of one `vkUpdateDescriptorSets`. -/
structure UpdateCall where
  writes : List SetWrite
  copies : List SetCopy

/-- A call performs its writes and then its copies. -/
def SetModel.update (model : SetModel) (call : UpdateCall) : SetModel :=
  call.copies.foldl (SetModel.copy infos) (call.writes.foldl (SetModel.write infos) model)

/-- A call whose writes and copies start at an element of their binding and stay in their sets. -/
structure UpdateCall.Valid (call : UpdateCall) : Prop where
  writes : ∀ write ∈ call.writes, Ragged.Run (setCounts infos write.dstSet)
    (write.dstBinding, write.dstArrayElement) write.descriptorCount
  sources : ∀ copy ∈ call.copies, Ragged.Run (setCounts infos copy.srcSet)
    (copy.srcBinding, copy.srcArrayElement) copy.descriptorCount
  destinations : ∀ copy ∈ call.copies, Ragged.Run (setCounts infos copy.dstSet)
    (copy.dstBinding, copy.dstArrayElement) copy.descriptorCount

/-- What the model holds after some calls on sets that start unwritten. -/
def modelRun (calls : List UpdateCall) : SetModel :=
  calls.foldl (SetModel.update infos) fun _ _ => none

/-- The layouts the driver made of the sets'. -/
def createdLayouts : Nat → Option SetLayout :=
  fun handle => (infos handle).map createDescriptorSetLayout

/-- What the driver's sets hold after the calls. Every record of a new set is unwritten. -/
def contentsRun (calls : List UpdateCall) : Contents :=
  calls.foldl (fun contents call =>
    updateDescriptorSets (createdLayouts infos) contents call.writes call.copies) fun _ _ => none

end Model

/-- The sampler an entry built from a record has the words of: a storage or sampled image has none
(`ps5vk_sampled_image`, and `ps5vk_cmd_buffer_shader_resources` for a bare sampler). -/
def Descriptor.usedSampler (written : Descriptor) : Option Sampler :=
  match written.type with
  | .sampler | .combinedImageSampler => written.sampler
  | _ => none

/-- The sampler a draw uses for an element of the set in a slot. -/
def Slot.drawSampler (slot : Slot) (contents : Contents) (binding element : Nat) : Option Sampler :=
  (slot.descriptor contents binding element).bind Descriptor.usedSampler

/-- A set with its layout's numbering, as a draw finds it in a slot. -/
def slotOf (handle : Nat) (info : LayoutInfo) : Slot :=
  ⟨some ⟨handle, createDescriptorSetLayout info, false⟩, fun _ => 0⟩

/-- A draw may read an element that was written, and one of a sampler binding, which needs no write
where its samplers are immutable. -/
def Drawable (infos : Nat → Option LayoutInfo) (calls : List UpdateCall) (handle : Nat)
    (info : LayoutInfo) (binding element : Nat) : Prop :=
  (info.find binding).map (·.type) = some .sampler ∨
    (modelRun infos calls handle (binding, element)).isSome

/-- A draw reads from each set what the latest update of each element put there, and for an element
with an immutable sampler uses that one. -/
structure FollowsUpdates (infos : Nat → Option LayoutInfo) (calls : List UpdateCall) : Prop where
  held : ∀ handle info, infos handle = some info → ∀ binding element,
    (slotOf handle info).descriptor (contentsRun infos calls) binding element =
      if element < info.count binding then modelRun infos calls handle (binding, element) else none
  immutable : ∀ handle info, infos handle = some info → ∀ binding element sampler,
    info.immutableSampler binding element = some sampler →
      Drawable infos calls handle info binding element →
      (slotOf handle info).drawSampler (contentsRun infos calls) binding element = some sampler

/-- The latest update of each element with an immutable sampler that a draw may read names that
sampler. -/
def NamesImmutables (infos : Nat → Option LayoutInfo) (calls : List UpdateCall) : Prop :=
  ∀ handle info, infos handle = some info → ∀ binding element sampler,
    info.immutableSampler binding element = some sampler →
      Drawable infos calls handle info binding element →
      (modelRun infos calls handle (binding, element)).bind Descriptor.usedSampler = some sampler

/-! ## The numbering of a layout -/

theorem LayoutInfo.binding_lt {source : LayoutInfoBinding}
    (h : source ∈ info.bindings) : source.binding < info.bindingCount := by
  rw [LayoutInfo.bindingCount, List.foldl_max]
  have hmem := List.mem_map_of_mem (f := fun s : LayoutInfoBinding => s.binding + 1) h
  have hle := List.le_max?_getD_of_mem (k := 0) hmem
  omega

/-- Binding numbers past the last have no elements. -/
theorem LayoutInfo.counts_getD (binding : Nat) : info.counts.getD binding 0 = info.count binding := by
  rw [LayoutInfo.counts, List.getD_eq_getElem?_getD, List.getElem?_map]
  by_cases h : binding < info.bindingCount
  · rw [List.getElem?_range h]
    rfl
  · have hnone : info.find binding = none := by
      rw [LayoutInfo.find, List.find?_eq_none]
      intro source hsource
      have := info.binding_lt hsource
      simp only [decide_eq_true_eq]
      omega
    rw [List.getElem?_eq_none (by simpa using h), LayoutInfo.count, hnone]
    rfl

/-- Each declaration of a layout with unique numbers ends up at its number. -/
theorem foldl_set_getElem? (bindings : List LayoutInfoBinding) (layout : SetLayout)
    (h : (bindings.map LayoutInfoBinding.binding).Nodup) (b : Nat) :
    (bindings.foldl (fun layout source => layout.set source.binding ⟨source.type, source.count⟩) layout)[b]? =
      (layout[b]?).map fun old => ((bindings.find? fun source => source.binding = b).map
        fun source => ⟨source.type, source.count⟩).getD old := by
  induction bindings generalizing layout with
  | nil => simp
  | cons source rest ih =>
    obtain ⟨habsent, hrest⟩ := List.nodup_cons.mp h
    rw [List.foldl_cons, ih _ hrest]
    by_cases hb : source.binding = b
    · have hnone : rest.find? (fun other => other.binding = b) = none := by
        rw [List.find?_eq_none]
        intro other hother
        simp only [decide_eq_true_eq]
        exact fun heq => habsent (List.mem_map.mpr ⟨other, hother, heq.trans hb.symm⟩)
      rw [hnone, List.find?_cons_of_pos (by simpa using hb), ← hb, List.getElem?_set_self']
      cases layout[source.binding]? <;> rfl
    · rw [List.find?_cons_of_neg (by simpa using hb), List.getElem?_set_ne hb]

/-- The driver's layout has the elements of each binding. -/
theorem createDescriptorSetLayout_counts : (createDescriptorSetLayout info).map LayoutBinding.count = info.counts := by
  refine List.ext_getElem? fun b => ?_
  rw [List.getElem?_map, createDescriptorSetLayout, foldl_set_getElem? _ _ info.unique,
    LayoutInfo.counts, List.getElem?_map, List.getElem?_replicate]
  by_cases hb : b < info.bindingCount
  · rw [if_pos hb, List.getElem?_range hb]
    simp only [Option.map_some, LayoutInfo.count, LayoutInfo.find]
    cases info.bindings.find? fun source => source.binding = b <;> rfl
  · rw [if_neg hb, List.getElem?_eq_none (by simpa using hb)]
    rfl

theorem recordCounts_createdLayouts (infos : Nat → Option LayoutInfo) (handle : Nat) :
    recordCounts (createdLayouts infos handle) = setCounts infos handle := by
  rw [recordCounts, createdLayouts, setCounts]
  cases infos handle with
  | none => rfl
  | some info => exact createDescriptorSetLayout_counts info

/-- A draw finds an element's record at its flat place. -/
theorem slotOf_descriptor (handle : Nat) (info : LayoutInfo) (contents : Contents)
    (binding element : Nat) : (slotOf handle info).descriptor contents binding element =
      if element < info.count binding then contents handle (Ragged.flat info.counts (binding, element))
      else none := by
  have hnumber := numberBindings_getElem? 0 0 (createDescriptorSetLayout info) binding
  have hcounts := createDescriptorSetLayout_counts info
  rw [hcounts] at hnumber
  have hcount := info.counts_getD binding
  rw [← hcounts, List.getD_eq_getElem?_getD, List.getElem?_map] at hcount
  simp only [slotOf, Slot.descriptor, DescriptorSet.bindings, Option.bind_eq_bind, Option.bind_some]
  cases hdeclared : (numberBindings 0 0 (createDescriptorSetLayout info))[binding]? with
  | none =>
    rw [hdeclared, Option.map_none, eq_comm, Option.map_eq_none_iff] at hnumber
    rw [hnumber] at hcount
    simp [← hcount]
  | some declared =>
    rw [hdeclared, Option.map_some, eq_comm, Option.map_eq_some_iff] at hnumber
    obtain ⟨found, hfound, hpair⟩ := hnumber
    obtain ⟨hsame, hindex⟩ := Prod.mk.inj hpair
    rw [hfound, Option.map_some, Option.getD_some] at hcount
    rw [Option.bind_some, ← hsame, hcount, ← hindex, Nat.zero_add]
    rfl

/-! ## The records follow the model -/

section Refinement

variable {infos : Nat → Option LayoutInfo} {contents : Contents} {model : SetModel}

/-- Every record holds what the model has for its element. -/
def Held (infos : Nat → Option LayoutInfo) (contents : Contents) (model : SetModel) : Prop :=
  ∀ handle p, Ragged.Valid (setCounts infos handle) p →
    contents handle (Ragged.flat (setCounts infos handle) p) = model handle p

/-- A write of the driver covers the elements of the model's. -/
theorem Held.write (h : Held infos contents model) {write : SetWrite}
    (hrun : Ragged.Run (setCounts infos write.dstSet) (write.dstBinding, write.dstArrayElement) write.descriptorCount) :
    Held infos (setWrite (createdLayouts infos) contents write) (model.write infos write) := by
  intro handle p hp
  rw [setWrite_eq, recordCounts_createdLayouts, if_pos hrun, Contents.splice, SetModel.write]
  by_cases hset : handle = write.dstSet
  · subst hset
    rw [if_pos rfl, Ragged.idxOf?_walk hrun.1 hp]
    simp only [true_and]
    split
    · rfl
    · exact h _ p hp
  · rw [if_neg (fun hin => hset hin.1), if_neg hset]
    exact h handle p hp

/-- A copy of the driver covers the elements of the model's with what those hold. -/
theorem Held.copy (h : Held infos contents model) {copy : SetCopy}
    (hsrc : Ragged.Run (setCounts infos copy.srcSet) (copy.srcBinding, copy.srcArrayElement) copy.descriptorCount)
    (hdst : Ragged.Run (setCounts infos copy.dstSet) (copy.dstBinding, copy.dstArrayElement) copy.descriptorCount) :
    Held infos (setCopy (createdLayouts infos) contents copy) (model.copy infos copy) := by
  intro handle p hp
  rw [setCopy, descriptorRange_eq, descriptorRange_eq, recordCounts_createdLayouts,
    recordCounts_createdLayouts, if_pos hsrc, if_pos hdst, SetModel.copy]
  simp only [Contents.splice]
  by_cases hset : handle = copy.dstSet
  · subst hset
    rw [if_pos rfl, Ragged.idxOf?_walk hdst.1 hp]
    simp only [true_and]
    split
    · rename_i hin
      -- The source has an element for each of the destination's.
      obtain ⟨q, hq, hflat⟩ := Ragged.exists_flat (setCounts infos copy.srcSet)
        (k := Ragged.flat (setCounts infos copy.srcSet) (copy.srcBinding, copy.srcArrayElement) +
          (Ragged.flat (setCounts infos copy.dstSet) p -
            Ragged.flat (setCounts infos copy.dstSet) (copy.dstBinding, copy.dstArrayElement)))
        (by have := hsrc.1.flat_lt; have := hsrc.2; omega)
      have hturn : Ragged.flat (setCounts infos copy.dstSet) p -
          Ragged.flat (setCounts infos copy.dstSet) (copy.dstBinding, copy.dstArrayElement) <
            copy.descriptorCount := by omega
      have hvisited := (Ragged.getElem?_walk hsrc.1).mpr ⟨hturn, hq, hflat⟩
      simp only [hvisited, Option.bind_some]
      rw [← hflat]
      exact h _ q hq
    · exact h _ p hp
  · rw [if_neg (fun hin => hset hin.1), if_neg hset]
    exact h handle p hp

theorem Held.update (h : Held infos contents model) {call : UpdateCall} (hvalid : call.Valid infos) :
    Held infos (updateDescriptorSets (createdLayouts infos) contents call.writes call.copies)
      (model.update infos call) := by
  have hwrites : Held infos (call.writes.foldl (setWrite (createdLayouts infos)) contents)
      (call.writes.foldl (SetModel.write infos) model) :=
    List.foldl_rel h fun write hwrite _ _ hheld => hheld.write (hvalid.writes write hwrite)
  exact List.foldl_rel hwrites fun copy hcopy _ _ hheld =>
    hheld.copy (hvalid.sources copy hcopy) (hvalid.destinations copy hcopy)

/-- After every sequence of valid calls the records hold what the model says. -/
theorem held_contentsRun {calls : List UpdateCall} (hvalid : ∀ call ∈ calls, call.Valid infos) :
    Held infos (contentsRun infos calls) (modelRun infos calls) := by
  have hfresh : Held infos (fun _ _ => none) (fun _ _ => none) := fun _ _ _ => rfl
  exact List.foldl_rel hfresh fun call hcall _ _ hheld => hheld.update (hvalid call hcall)

end Refinement

/-- What a draw reads of a set after valid calls is what the latest update of the element put there. -/
theorem slotOf_descriptor_run {infos : Nat → Option LayoutInfo} {calls : List UpdateCall}
    (hvalid : ∀ call ∈ calls, call.Valid infos) {handle : Nat} {info : LayoutInfo}
    (hinfo : infos handle = some info) (binding element : Nat) :
    (slotOf handle info).descriptor (contentsRun infos calls) binding element =
      if element < info.count binding then modelRun infos calls handle (binding, element)
      else none := by
  rw [slotOf_descriptor]
  by_cases helement : element < info.count binding
  · have hcounts : setCounts infos handle = info.counts := by rw [setCounts, hinfo]; rfl
    have hheld := held_contentsRun hvalid handle (binding, element)
    rw [hcounts] at hheld
    rw [if_pos helement, if_pos helement]
    exact hheld (by rwa [Ragged.Valid, info.counts_getD])
  · rw [if_neg helement, if_neg helement]

/-! ## Immutable samplers -/

theorem LayoutInfo.lt_count_of_immutableSampler {info : LayoutInfo} {binding element : Nat}
    {sampler : Sampler} (h : info.immutableSampler binding element = some sampler) : element < info.count binding := by
  rw [LayoutInfo.immutableSampler] at h
  obtain ⟨source, hsource, h⟩ := Option.bind_eq_some_iff.mp h
  obtain ⟨samplers, -, h⟩ := Option.bind_eq_some_iff.mp h
  rw [LayoutInfo.count, hsource]
  split at h
  · rename_i hin
    exact hin.2
  · cases h

/-- A draw follows the updates, with the immutable samplers of the layouts, if and only if each latest
update of an element with one names it. -/
theorem followsUpdates_iff (infos : Nat → Option LayoutInfo) {calls : List UpdateCall}
    (hvalid : ∀ call ∈ calls, call.Valid infos) :
    FollowsUpdates infos calls ↔ NamesImmutables infos calls := by
  -- The sampler a draw uses is the one the latest update named.
  have hdraws : ∀ handle info, infos handle = some info → ∀ binding element sampler,
      info.immutableSampler binding element = some sampler →
      (slotOf handle info).drawSampler (contentsRun infos calls) binding element =
        (modelRun infos calls handle (binding, element)).bind Descriptor.usedSampler := by
    intro handle info hinfo binding element sampler hsampler
    rw [Slot.drawSampler, slotOf_descriptor_run hvalid hinfo,
      if_pos (LayoutInfo.lt_count_of_immutableSampler hsampler)]
  constructor
  · intro hfollows handle info hinfo binding element sampler hsampler hdrawable
    rw [← hdraws handle info hinfo binding element sampler hsampler]
    exact hfollows.immutable handle info hinfo binding element sampler hsampler hdrawable
  · intro hnames
    refine ⟨fun handle info hinfo => slotOf_descriptor_run hvalid hinfo, ?_⟩
    intro handle info hinfo binding element sampler hsampler hdrawable
    rw [hdraws handle info hinfo binding element sampler hsampler]
    exact hnames handle info hinfo binding element sampler hsampler hdrawable

/-- The sampler a texture layout gives its element. -/
def layoutSampler : Sampler := ⟨0x92, 0x00fff000, 0x00500000, 0⟩

/-- A combined image sampler with an immutable sampler at binding 2. -/
def textureLayout : LayoutInfo where
  bindings := [⟨2, .combinedImageSampler, 1, some fun _ => layoutSampler⟩]
  unique := by decide

/-- Handle 1 names a set of the texture layout. -/
def textureSets (handle : Nat) : Option LayoutInfo := if handle = 1 then some textureLayout else none

/-- The write of a texture with a sampler. -/
def textureWrite (sampler : Sampler) : SetWrite where
  dstSet := 1
  dstBinding := 2
  dstArrayElement := 0
  descriptorCount := 1
  type := .combinedImageSampler
  imageInfo := some fun _ =>
    ⟨some ⟨tiledImage 0x10000 1 1, .d2, .other (some plainFormat), 0, 1⟩, some sampler⟩
  bufferInfo := none
  texelBufferView := none

theorem textureWrite_valid (sampler : Sampler) :
    ∀ call ∈ [UpdateCall.mk [textureWrite sampler] []], call.Valid textureSets := by
  intro call hcall
  obtain rfl := List.mem_singleton.mp hcall
  refine ⟨fun write hwrite => ?_, by simp, by simp⟩
  obtain rfl := List.mem_singleton.mp hwrite
  exact show Ragged.Run [0, 0, 1] (2, 0) 1 by decide

/-- A write that names the layout's sampler. -/
theorem followsUpdates_sameSampler :
    FollowsUpdates textureSets [⟨[textureWrite layoutSampler], []⟩] := by
  refine (followsUpdates_iff textureSets (textureWrite_valid layoutSampler)).mpr ?_
  intro handle info hinfo binding element sampler hsampler _
  have hlt := LayoutInfo.lt_count_of_immutableSampler hsampler
  by_cases hhandle : handle = 1
  · rw [textureSets, if_pos hhandle] at hinfo
    cases hinfo
    by_cases hbinding : binding = 2
    · have helement : element = 0 := by
        rw [hbinding] at hlt
        exact Nat.lt_one_iff.mp hlt
      rw [hbinding, helement] at hsampler
      rw [hhandle, hbinding, helement, ← hsampler]
      decide +kernel
    · have hnone : textureLayout.count binding = 0 := by
        simp [LayoutInfo.count, LayoutInfo.find, textureLayout, Ne.symm hbinding]
      omega
  · rw [textureSets, if_neg hhandle] at hinfo
    cases hinfo

/-- A draw uses the sampler a write names in the place of the layout's. -/
theorem textureWrite_replaces_immutable :
    (∀ call ∈ [UpdateCall.mk [textureWrite ⟨0, 0, 0, 0⟩] []], call.Valid textureSets) ∧
      textureLayout.immutableSampler 2 0 = some layoutSampler ∧
      (slotOf 1 textureLayout).drawSampler
        (contentsRun textureSets [⟨[textureWrite ⟨0, 0, 0, 0⟩], []⟩]) 2 0 = some ⟨0, 0, 0, 0⟩ ∧
      ¬ FollowsUpdates textureSets [⟨[textureWrite ⟨0, 0, 0, 0⟩], []⟩] := by
  have hdraw : (slotOf 1 textureLayout).drawSampler
      (contentsRun textureSets [⟨[textureWrite ⟨0, 0, 0, 0⟩], []⟩]) 2 0 = some ⟨0, 0, 0, 0⟩ := by
    decide +kernel
  refine ⟨textureWrite_valid _, rfl, hdraw, fun hfollows => ?_⟩
  have himmutable := hfollows.immutable 1 textureLayout rfl 2 0 layoutSampler rfl
    (Or.inr (by decide +kernel))
  rw [hdraw] at himmutable
  exact absurd himmutable (by decide)

end Ps5Vulkan.Record
