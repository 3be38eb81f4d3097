import Ps5Vulkan.Library.Ragged
import Ps5Vulkan.Record.DescriptorPool

/-!
# Updates of descriptor sets

Set layouts number one record for each descriptor, and `vkUpdateDescriptorSets` writes and copies runs
of records (`ps5vk_descriptor_set_layout.c`, `ps5vk_descriptor_set.c`). A run that is longer than its
binding goes on in the bindings after it. An update with a template writes each descriptor of an entry
on its own, at the entry's binding, and so stays in it.

## Implementation notes

A pointer to an array of infos is a function of the element, and a template's data block is read at
byte offsets. What a write records of a handle is the object it names. Record numbers are natural
numbers: a layout has fewer than `2 ^ 32` descriptors.
-/

variable (layout : Option SetLayout)

namespace Ps5Vulkan.Record

/-- What the writes left in the records of each set, by handle and record. -/
abbrev Contents := Nat → Nat → Option Descriptor

/-- `VkDescriptorImageInfo`. -/
structure ImageInfo where
  view : Option ImageView
  sampler : Option Sampler

/-- A buffer a descriptor names: its device address, zero while it is bound to no memory, and size. -/
structure DescriptorBuffer where
  deviceAddress : Nat
  size : Nat

/-- `VkDescriptorBufferInfo`, the range `none` for `VK_WHOLE_SIZE`. -/
structure BufferInfo where
  buffer : Option DescriptorBuffer
  offset : Nat
  range : Option Nat

/-- `VkWriteDescriptorSet`. -/
structure SetWrite where
  dstSet : Nat
  dstBinding : Nat
  dstArrayElement : Nat
  descriptorCount : Nat
  type : DescriptorType
  imageInfo : Option (Nat → ImageInfo)
  bufferInfo : Option (Nat → BufferInfo)
  texelBufferView : Option (Nat → Option TexelBuffer)

/-- `VkCopyDescriptorSet`. -/
structure SetCopy where
  srcSet : Nat
  srcBinding : Nat
  srcArrayElement : Nat
  dstSet : Nat
  dstBinding : Nat
  dstArrayElement : Nat
  descriptorCount : Nat

/-- A record of a type that names nothing, which a draw refuses by name. -/
def Descriptor.ofType (type : DescriptorType) : Descriptor := ⟨type, 0, 0, none, none, none⟩

/-- The record of a buffer. One with no memory has no address. -/
def BufferInfo.record (info : BufferInfo) (type : DescriptorType) : Descriptor :=
  match info.buffer with
  | none => .ofType type
  | some buffer =>
    if buffer.deviceAddress = 0 then .ofType type
    else
      { Descriptor.ofType type with
        address := (buffer.deviceAddress + info.offset) % 2 ^ 64
        size := info.range.getD ((buffer.size + 2 ^ 64 - info.offset) % 2 ^ 64) }

/-- `ps5vk_descriptor_write_one`. -/
def SetWrite.one (write : SetWrite) (element : Nat) : Descriptor :=
  let empty := Descriptor.ofType write.type
  match write.type with
  | .uniformTexelBuffer | .storageTexelBuffer =>
    write.texelBufferView.elim empty fun views => { empty with texelBuffer := views element }
  | .storageImage | .sampledImage | .inputAttachment =>
    write.imageInfo.elim empty fun images => { empty with view := (images element).view }
  | .sampler =>
    write.imageInfo.elim empty fun images => { empty with sampler := (images element).sampler }
  | .combinedImageSampler =>
    write.imageInfo.elim empty fun images =>
      { empty with view := (images element).view, sampler := (images element).sampler }
  | .uniformBuffer | .uniformBufferDynamic | .storageBuffer =>
    write.bufferInfo.elim empty fun buffers => (buffers element).record write.type
  | .storageBufferDynamic => empty

/-- The descriptors of a layout. -/
def descriptorCount (layout : SetLayout) : Nat := (layout.map LayoutBinding.count).sum

/-- `ps5vk_descriptor_range`: the first record of a run that starts in a binding and stays in the
set. -/
def descriptorRange (binding element count : Nat) : Option Nat := do
  let layout ← layout
  let declared ← (numberBindings 0 0 layout)[binding]?
  let first := declared.recordIndex + element
  if declared.count ≤ element then none
  else if count ≤ descriptorCount layout - first then some first
  else none

/-- Record `index` of a set. -/
def Contents.write (contents : Contents) (set index : Nat) (value : Descriptor) : Contents :=
  fun handle k => if handle = set ∧ k = index then some value else contents handle k

/-- `count` records of a set from one on. -/
def Contents.splice (contents : Contents) (set first count : Nat)
    (values : Nat → Option Descriptor) : Contents :=
  fun handle k =>
    if handle = set ∧ first ≤ k ∧ k < first + count then values (k - first) else contents handle k

section Updates

variable (sets : Nat → Option SetLayout) (contents : Contents)

/-- `ps5vk_descriptor_set_write`, with the layouts of the sets by handle. -/
def setWrite (write : SetWrite) : Contents :=
  match descriptorRange (sets write.dstSet) write.dstBinding write.dstArrayElement
      write.descriptorCount with
  | none => contents
  | some first =>
    (List.range write.descriptorCount).foldl
      (fun contents i => contents.write write.dstSet (first + i) (write.one i)) contents

/-- `ps5vk_descriptor_set_copy`. The move reads all its records before it writes one. -/
def setCopy (copy : SetCopy) : Contents :=
  match descriptorRange (sets copy.srcSet) copy.srcBinding copy.srcArrayElement
      copy.descriptorCount,
    descriptorRange (sets copy.dstSet) copy.dstBinding copy.dstArrayElement
      copy.descriptorCount with
  | some src, some dst =>
    contents.splice copy.dstSet dst copy.descriptorCount fun i => contents copy.srcSet (src + i)
  | _, _ => contents

/-- `ps5vk_UpdateDescriptorSets`. -/
def updateDescriptorSets (writes : List SetWrite) (copies : List SetCopy) :
    Contents :=
  copies.foldl (setCopy sets) (writes.foldl (setWrite sets) contents)

end Updates

/-! ## Templates -/

/-- `struct vk_descriptor_template_entry`. -/
structure TemplateEntry where
  type : DescriptorType
  binding : Nat
  arrayElement : UInt32
  arrayCount : UInt32
  offset : Nat
  stride : Nat

/-- A template's data, read at a byte offset as each kind of info. -/
structure DataBlock where
  imageAt : Nat → ImageInfo
  bufferAt : Nat → BufferInfo
  texelBufferAt : Nat → Option TexelBuffer

namespace TemplateEntry

variable (entry : TemplateEntry)

/-- The write of an entry's type to its binding, with the `i`th info at a byte offset of the data. -/
def write (set : Nat) (data : DataBlock) (element count : Nat)
    (offset : Nat → Nat) : SetWrite where
  dstSet := set
  dstBinding := entry.binding
  dstArrayElement := element
  descriptorCount := count
  type := entry.type
  imageInfo :=
    match entry.type with
    | .sampler | .combinedImageSampler | .sampledImage | .storageImage | .inputAttachment =>
      some fun i => data.imageAt (offset i)
    | _ => none
  bufferInfo :=
    match entry.type with
    | .sampler | .combinedImageSampler | .sampledImage | .storageImage | .inputAttachment => none
    | .uniformTexelBuffer | .storageTexelBuffer => none
    | _ => some fun i => data.bufferAt (offset i)
  texelBufferView :=
    match entry.type with
    | .uniformTexelBuffer | .storageTexelBuffer => some fun i => data.texelBufferAt (offset i)
    | _ => none

/-- The write of one descriptor that the update with a template makes of an element of an entry. -/
def elementWrite (set : Nat) (data : DataBlock) (i : Nat) : SetWrite :=
  entry.write set data (entry.arrayElement + UInt32.ofNat i).toNat 1
    fun _ => entry.offset + i * entry.stride

/-- The plain write an entry stands for. -/
def plainWrite (set : Nat) (data : DataBlock) : SetWrite :=
  entry.write set data entry.arrayElement.toNat entry.arrayCount.toNat
    fun i => entry.offset + i * entry.stride

end TemplateEntry

/-- `ps5vk_UpdateDescriptorSetWithTemplate`. -/
def updateWithTemplate (sets : Nat → Option SetLayout) (contents : Contents) (set : Nat)
    (entries : List TemplateEntry) (data : DataBlock) : Contents :=
  entries.foldl (fun contents entry =>
    (List.range entry.arrayCount.toNat).foldl (fun contents i =>
      updateDescriptorSets sets contents [entry.elementWrite set data i] []) contents) contents

/-- An entry whose elements do not wrap, and that stays in its binding where it starts in it. -/
def TemplateEntry.Safe (entry : TemplateEntry) : Prop :=
  ∀ binding, layout.bind (·[entry.binding]?) = some binding → binding.count ≠ 0 →
    entry.arrayElement.toNat + entry.arrayCount.toNat ≤ 2 ^ 32 ∧
      (entry.arrayElement.toNat < binding.count →
        entry.arrayElement.toNat + entry.arrayCount.toNat ≤ binding.count)

/-! ## Runs of records -/

/-- The descriptors of each binding of a set's layout. -/
def recordCounts : List Nat := (layout.getD []).map LayoutBinding.count

/-- A binding's records come after those of the bindings before it. -/
theorem numberBindings_getElem? (dynamicIndex recordIndex : Nat) (layout : SetLayout) (b : Nat) :
    ((numberBindings dynamicIndex recordIndex layout)[b]?).map
        (fun declared => (declared.count, declared.recordIndex)) = (layout[b]?).map fun binding =>
        (binding.count, recordIndex + Ragged.start (layout.map LayoutBinding.count) b) := by
  induction layout generalizing dynamicIndex recordIndex b with
  | nil => rfl
  | cons binding rest ih =>
    cases b with
    | zero => by_cases h : binding.type = .uniformBufferDynamic <;> simp [numberBindings, h, Ragged.start]
    | succ b =>
      simp only [List.map_cons, Ragged.start_cons_succ, List.getElem?_cons_succ, ← Nat.add_assoc]
      by_cases h : binding.type = .uniformBufferDynamic
      · rw [numberBindings, if_pos h, List.getElem?_cons_succ, ih]
      · rw [numberBindings, if_neg h, List.getElem?_cons_succ, ih]

/-- A run is taken where its first element is one of the binding and the set has as many records. -/
theorem descriptorRange_eq (binding element count : Nat) : descriptorRange layout binding element count =
      if Ragged.Run (recordCounts layout) (binding, element) count then
        some (Ragged.flat (recordCounts layout) (binding, element))
      else none := by
  cases layout with
  | none => simp [descriptorRange, recordCounts, Ragged.Run, Ragged.Valid]
  | some layout =>
    have hnumber := numberBindings_getElem? 0 0 layout binding
    simp only [descriptorRange, recordCounts, Option.getD_some, Option.bind_eq_bind,
      Option.bind_some, descriptorCount, Ragged.Run, Ragged.Valid, Ragged.flat, List.getD_eq_getElem?_getD,
      List.getElem?_map]
    cases hdeclared : (numberBindings 0 0 layout)[binding]? with
    | none =>
      rw [hdeclared, Option.map_none, eq_comm, Option.map_eq_none_iff] at hnumber
      simp [hnumber]
    | some declared =>
      rw [hdeclared, Option.map_some, eq_comm, Option.map_eq_some_iff] at hnumber
      obtain ⟨found, hfound, hpair⟩ := hnumber
      obtain ⟨hcount, hindex⟩ := Prod.mk.inj hpair
      rw [Nat.zero_add] at hindex
      simp only [hfound, hindex, ← hcount, Option.bind_some, Option.map_some, Option.getD_some]
      by_cases hin : element < found.count
      · rw [if_neg (Nat.not_le.mpr hin)]
        simp only [hin, true_and]
        rfl
      · simp [hin, Nat.not_lt.mp hin]

/-- The loop of a write leaves the run it covers. -/
theorem foldl_write_eq_splice (contents : Contents) (set first count : Nat) (values : Nat → Descriptor) :
    (List.range count).foldl (fun contents i => contents.write set (first + i) (values i)) contents =
      contents.splice set first count fun i => some (values i) := by
  induction count with
  | zero =>
    funext handle k
    simp only [List.range_zero, List.foldl_nil, Contents.splice]
    rw [if_neg (by omega)]
  | succ count ih =>
    rw [List.range_succ, List.foldl_append, List.foldl_cons, List.foldl_nil, ih]
    funext handle k
    simp only [Contents.write, Contents.splice]
    by_cases hlast : handle = set ∧ k = first + count
    · obtain ⟨rfl, rfl⟩ := hlast
      simp
    · rw [if_neg hlast]
      by_cases hin : handle = set ∧ first ≤ k ∧ k < first + count
      · rw [if_pos hin, if_pos (by omega)]
      · rw [if_neg hin, if_neg (by omega)]

theorem Contents.splice_one (contents : Contents) (set first : Nat) (values : Nat → Descriptor) :
    (contents.splice set first 1 fun i => some (values i)) = contents.write set first (values 0) :=
  (foldl_write_eq_splice contents set first 1 values).symm

/-- What a write leaves: the run of its records where the set has them, nothing elsewhere. -/
theorem setWrite_eq (sets : Nat → Option SetLayout) (contents : Contents) (write : SetWrite) :
    setWrite sets contents write =
      if Ragged.Run (recordCounts (sets write.dstSet)) (write.dstBinding, write.dstArrayElement)
          write.descriptorCount then contents.splice write.dstSet
          (Ragged.flat (recordCounts (sets write.dstSet)) (write.dstBinding, write.dstArrayElement))
          write.descriptorCount fun i => some (write.one i)
      else contents := by
  rw [setWrite, descriptorRange_eq]
  by_cases h : Ragged.Run (recordCounts (sets write.dstSet))
      (write.dstBinding, write.dstArrayElement) write.descriptorCount
  · rw [if_pos h, if_pos h]
    exact foldl_write_eq_splice _ _ _ _ _
  · rw [if_neg h, if_neg h]

/-! ## Templates and plain updates -/

section Templates

variable {sets : Nat → Option SetLayout} {set : Nat} {data : DataBlock} {entry : TemplateEntry}

/-- What a write of an entry records depends on where its info is. -/
theorem TemplateEntry.write_one (entry : TemplateEntry) (set : Nat) (data : DataBlock)
    {element element' count count' i j : Nat} {offset offset' : Nat → Nat} (h : offset i = offset' j) :
    (entry.write set data element count offset).one i = (entry.write set data element' count' offset').one j := by
  obtain ⟨type, _⟩ := entry
  cases type <;> simp [SetWrite.one, TemplateEntry.write, h]

theorem setWrite_entry (contents : Contents) (element count : Nat) (offset : Nat → Nat) :
    setWrite sets contents (entry.write set data element count offset) =
      if Ragged.Run (recordCounts (sets set)) (entry.binding, element) count then
        contents.splice set (Ragged.flat (recordCounts (sets set)) (entry.binding, element)) count
          fun i => some ((entry.write set data element count offset).one i)
      else contents :=
  setWrite_eq sets contents _

/-- The element an entry's `i`th write names, counted in 32 bits. -/
def TemplateEntry.element (entry : TemplateEntry) (i : Nat) : Nat :=
  (entry.arrayElement.toNat + i) % 2 ^ 32

theorem setWrite_elementWrite (contents : Contents) (i : Nat) : setWrite sets contents (entry.elementWrite set data i) =
      if entry.element i < (recordCounts (sets set)).getD entry.binding 0 then
        contents.write set (Ragged.start (recordCounts (sets set)) entry.binding + entry.element i)
          ((entry.plainWrite set data).one i)
      else contents := by
  have helement : (entry.arrayElement + UInt32.ofNat i).toNat = entry.element i := by
    rw [UInt32.toNat_add, UInt32.toNat_ofNat', TemplateEntry.element, Nat.add_mod_mod]
  rw [TemplateEntry.elementWrite, helement, setWrite_entry, Contents.splice_one]
  by_cases hin : entry.element i < (recordCounts (sets set)).getD entry.binding 0
  · have hvalid : Ragged.Valid (recordCounts (sets set)) (entry.binding, entry.element i) := hin
    rw [if_pos hvalid.run_one, if_pos hin]
    exact congrArg _ (entry.write_one set data rfl)
  · rw [if_neg (fun h => hin h.1), if_neg hin]

theorem TemplateEntry.safe_iff : entry.Safe (sets set) ↔ ((recordCounts (sets set)).getD entry.binding 0 ≠ 0 →
        entry.arrayElement.toNat + entry.arrayCount.toNat ≤ 2 ^ 32 ∧
          (entry.arrayElement.toNat < (recordCounts (sets set)).getD entry.binding 0 →
            entry.arrayElement.toNat + entry.arrayCount.toNat ≤ (recordCounts (sets set)).getD entry.binding 0)) := by
  rw [TemplateEntry.Safe, recordCounts, List.getD_eq_getElem?_getD, List.getElem?_map]
  cases sets set with
  | none => simp
  | some layout =>
    rw [Option.bind_some, Option.getD_some]
    cases layout[entry.binding]? with
    | none | some binding => simp

/-- An entry that stays in its binding writes the plain write's records. -/
theorem TemplateEntry.Safe.entry_eq (h : entry.Safe (sets set)) (contents : Contents) :
    (List.range entry.arrayCount.toNat).foldl (fun contents i =>
        setWrite sets contents (entry.elementWrite set data i)) contents =
      setWrite sets contents (entry.plainWrite set data) := by
  simp only [setWrite_elementWrite]
  rw [TemplateEntry.plainWrite, setWrite_entry]
  have hsafe := TemplateEntry.safe_iff.mp h
  set counts := recordCounts (sets set)
  by_cases hstart : entry.arrayElement.toNat < counts.getD entry.binding 0
  · obtain ⟨hwraps, hstays⟩ := hsafe (by omega)
    have hstays := hstays hstart
    have hvalid : Ragged.Valid counts (entry.binding, entry.arrayElement.toNat) := hstart
    rw [if_pos (hvalid.run_of_row hstays), ← foldl_write_eq_splice]
    refine List.foldl_ext _ _ _ fun contents i hi => ?_
    have hi' : i < entry.arrayCount.toNat := List.mem_range.mp hi
    have helement : entry.element i = entry.arrayElement.toNat + i :=
      Nat.mod_eq_of_lt (by omega)
    rw [helement, if_pos (by omega), Ragged.flat, Nat.add_assoc]
  · have hskip : ∀ i < entry.arrayCount.toNat, ¬ entry.element i < counts.getD entry.binding 0 := by
      intro i hi hlt
      obtain ⟨hwraps, -⟩ := hsafe (by omega)
      rw [TemplateEntry.element, Nat.mod_eq_of_lt (by omega)] at hlt
      omega
    rw [if_neg (fun hvalid => hstart hvalid.1)]
    refine (List.foldl_ext _ (fun contents _ => contents) _ fun contents i hi => ?_).trans
      (List.foldl_fixed _)
    exact if_neg (hskip i (List.mem_range.mp hi))

/-- The template's loop fills the records its elements of the binding lie at. -/
theorem foldl_elementWrite_isSome (sets : Nat → Option SetLayout) (set : Nat) (data : DataBlock)
    (entry : TemplateEntry) (l : List Nat) (contents : Contents) (k : Nat) :
    ((l.foldl (fun contents i => setWrite sets contents (entry.elementWrite set data i)) contents)
        set k).isSome ↔ (contents set k).isSome ∨
        ∃ i ∈ l, entry.element i < (recordCounts (sets set)).getD entry.binding 0 ∧
          k = Ragged.start (recordCounts (sets set)) entry.binding + entry.element i := by
  simp only [setWrite_elementWrite]
  generalize (recordCounts (sets set)).getD entry.binding 0 = count
  generalize Ragged.start (recordCounts (sets set)) entry.binding = base
  induction l generalizing contents with
  | nil => simp
  | cons i rest ih =>
    rw [List.foldl_cons, ih]
    by_cases hin : entry.element i < count
    · by_cases hplace : k = base + entry.element i <;> simp [Contents.write, hin, hplace]
    · simp [hin]

/-- From empty sets, an entry and its plain write fill the same records only where the entry stays in
its binding. -/
theorem TemplateEntry.safe_of_entry_eq (h : (List.range entry.arrayCount.toNat).foldl (fun contents i =>
        setWrite sets contents (entry.elementWrite set data i)) (fun _ _ => none) =
      setWrite sets (fun _ _ => none) (entry.plainWrite set data)) : entry.Safe (sets set) := by
  rw [TemplateEntry.safe_iff]
  -- The records each of the two fills, compared.
  have hfilled : ∀ k, (∃ i ∈ List.range entry.arrayCount.toNat,
        entry.element i < (recordCounts (sets set)).getD entry.binding 0 ∧
          k = Ragged.start (recordCounts (sets set)) entry.binding + entry.element i) ↔
      Ragged.Run (recordCounts (sets set)) (entry.binding, entry.arrayElement.toNat)
          entry.arrayCount.toNat ∧
        Ragged.start (recordCounts (sets set)) entry.binding + entry.arrayElement.toNat ≤ k ∧
        k < Ragged.start (recordCounts (sets set)) entry.binding + entry.arrayElement.toNat +
          entry.arrayCount.toNat := by
    intro k
    have hloop := foldl_elementWrite_isSome sets set data entry (List.range entry.arrayCount.toNat) (fun _ _ => none) k
    rw [h, TemplateEntry.plainWrite, setWrite_entry] at hloop
    by_cases hrun : Ragged.Run (recordCounts (sets set)) (entry.binding, entry.arrayElement.toNat)
        entry.arrayCount.toNat
    · rw [if_pos hrun] at hloop
      simpa [hrun, Contents.splice, Ragged.flat] using hloop.symm
    · rw [if_neg hrun] at hloop
      simpa [hrun] using hloop
  intro hcount
  have helement := entry.arrayElement.toNat_lt
  have harray := entry.arrayCount.toNat_lt
  constructor
  · by_contra hwraps
    -- The element that wraps to zero is in the binding, and the plain write never goes back to it.
    have hzero : entry.element (2 ^ 32 - entry.arrayElement.toNat) = 0 := by
      rw [TemplateEntry.element, Nat.add_sub_cancel' (Nat.le_of_lt helement), Nat.mod_self]
    obtain ⟨-, hback, -⟩ := (hfilled (Ragged.start (recordCounts (sets set)) entry.binding)).mp
      ⟨2 ^ 32 - entry.arrayElement.toNat, List.mem_range.mpr (by omega),
        by rw [hzero]; omega, by rw [hzero]; rfl⟩
    omega
  · intro hstart
    by_cases hnone : entry.arrayCount.toNat = 0
    · omega
    · have hfirst : entry.element 0 = entry.arrayElement.toNat := Nat.mod_eq_of_lt (by omega)
      obtain ⟨hrun, -⟩ := (hfilled _).mp ⟨0, List.mem_range.mpr (by omega), by rwa [hfirst], rfl⟩
      -- The last record of the run is one of the template's, so in the binding.
      obtain ⟨i, -, hin, hlast⟩ := (hfilled (Ragged.start (recordCounts (sets set)) entry.binding +
        entry.arrayElement.toNat + entry.arrayCount.toNat - 1)).mpr ⟨hrun, by omega, by omega⟩
      omega

end Templates

/-- An update with a template of entries that stay in their bindings is the plain update with one write
for each, and no other entry is by itself the plain write it stands for. -/
theorem updateWithTemplate_eq_plain (sets : Nat → Option SetLayout) (set : Nat) (data : DataBlock) :
    (∀ entries : List TemplateEntry, (∀ entry ∈ entries, entry.Safe (sets set)) → ∀ contents,
      updateWithTemplate sets contents set entries data =
        updateDescriptorSets sets contents (entries.map fun entry => entry.plainWrite set data) []) ∧
    ∀ entry : TemplateEntry,
      (∀ contents, updateWithTemplate sets contents set [entry] data =
        updateDescriptorSets sets contents [entry.plainWrite set data] []) ↔
      entry.Safe (sets set) := by
  refine ⟨fun entries hsafe contents => ?_, fun entry => ⟨fun heq => ?_, fun hsafe contents => ?_⟩⟩
  · rw [updateDescriptorSets, List.foldl_nil, List.foldl_map, updateWithTemplate]
    exact List.foldl_ext _ _ _ fun contents entry hentry => (hsafe entry hentry).entry_eq contents
  · exact TemplateEntry.safe_of_entry_eq (heq fun _ _ => none)
  · exact hsafe.entry_eq contents

/-- One uniform buffer in each of two bindings. -/
def twoUniforms : Nat → Option SetLayout :=
  fun _ => some [⟨.uniformBuffer, 1⟩, ⟨.uniformBuffer, 1⟩]

/-- A data block of uniform buffer ranges, each at the address of its offset in the block. -/
def rangeBlock : DataBlock where
  imageAt _ := ⟨none, none⟩
  bufferAt offset := ⟨some ⟨0x1000, 256⟩, offset, some 16⟩
  texelBufferAt _ := none

/-- An entry for each of two bindings. -/
theorem updateWithTemplate_two_entries :
    updateWithTemplate twoUniforms (fun _ _ => none) 1 [⟨.uniformBuffer, 0, 0, 1, 0, 16⟩,
        ⟨.uniformBuffer, 1, 0, 1, 16, 16⟩] rangeBlock =
      updateDescriptorSets twoUniforms (fun _ _ => none)
        [TemplateEntry.plainWrite ⟨.uniformBuffer, 0, 0, 1, 0, 16⟩ 1 rangeBlock,
          TemplateEntry.plainWrite ⟨.uniformBuffer, 1, 0, 1, 16, 16⟩ 1 rangeBlock] [] := by
  refine (updateWithTemplate_eq_plain twoUniforms 1 rangeBlock).1 _ (fun entry hentry => ?_) _
  simp only [List.mem_cons, List.not_mem_nil, or_false] at hentry
  rcases hentry with rfl | rfl <;> exact fun binding hbinding _ => by cases hbinding; decide

/-- One entry for both leaves the second binding unwritten, which the plain write fills. -/
theorem crossingEntry_stops :
    updateWithTemplate twoUniforms (fun _ _ => none) 1 [⟨.uniformBuffer, 0, 0, 2, 0, 16⟩] rangeBlock
        1 1 = none ∧
      updateDescriptorSets twoUniforms (fun _ _ => none)
        [TemplateEntry.plainWrite ⟨.uniformBuffer, 0, 0, 2, 0, 16⟩ 1 rangeBlock] [] 1 1 =
      some ⟨.uniformBuffer, 0x1010, 16, none, none, none⟩ := by
  decide +kernel

end Ps5Vulkan.Record
