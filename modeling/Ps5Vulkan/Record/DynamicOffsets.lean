import Ps5Vulkan.Record.BindPoints
import Ps5Vulkan.Record.DescriptorUpdates
import Mathlib.Algebra.Order.BigOperators.Group.List

/-!
# The places of a set layout, and dynamic offsets

`ps5vk_CreateDescriptorSetLayout` gives each binding a place among the records, in the table and among
the dynamic offsets, by counters of 32 bits. A bind copies the given dynamic offsets to those places
and a draw takes them from there. Whatever a bind that is taken has bound, the draw adds the offset
Vulkan assigns. The places of different bindings are apart as long as no counter wraps, and none does
in a layout within the limits of `ps5vk_GetDescriptorSetLayoutSupport`.

## Implementation notes

The bind and the draw of `Record.Descriptors` number bindings without wrapping: no bind that is taken
shows the difference.
-/

namespace Ps5Vulkan.Record

/-- `ps5vk_descriptor_stride`. -/
def descriptorStride : DescriptorType → Nat
  | .uniformBuffer | .uniformBufferDynamic => 16
  | .combinedImageSampler => 48
  | .storageBuffer => 16
  | .uniformTexelBuffer | .storageTexelBuffer => 16
  | .storageImage | .inputAttachment => 32
  | .sampler | .sampledImage => 48
  | .storageBufferDynamic => 0

/-- `struct ps5vk_descriptor_binding` with its place in the table. -/
structure PlacedBinding extends DescriptorBinding where
  stride : Nat
  offset : Nat
  deriving DecidableEq, Repr

/-- The counters of `ps5vk_CreateDescriptorSetLayout`. After the last binding they are the totals of
the layout. -/
structure LayoutCursor where
  offset : Nat
  recordIndex : Nat
  dynamicIndex : Nat
  deriving DecidableEq, Repr

namespace LayoutCursor

variable (cursor : LayoutCursor) (binding : LayoutBinding)

/-- The binding at the counters' places. -/
def place : PlacedBinding where
  type := binding.type
  count := binding.count
  dynamicIndex := if binding.type = .uniformBufferDynamic then cursor.dynamicIndex else 0
  recordIndex := cursor.recordIndex
  stride := descriptorStride binding.type
  offset := cursor.offset

/-- The counters after a binding. -/
def advance : LayoutCursor where
  offset := (cursor.offset + binding.count * descriptorStride binding.type) % 2 ^ 32
  recordIndex := (cursor.recordIndex + binding.count) % 2 ^ 32
  dynamicIndex :=
    if binding.type = .uniformBufferDynamic then (cursor.dynamicIndex + binding.count) % 2 ^ 32
    else cursor.dynamicIndex

end LayoutCursor

/-- The second loop of `ps5vk_CreateDescriptorSetLayout`. -/
def placeBindings : LayoutCursor → SetLayout → List PlacedBinding
  | _, [] => []
  | cursor, binding :: rest => cursor.place binding :: placeBindings (cursor.advance binding) rest

/-- The bindings of a layout, from zeroed counters. -/
def placeLayout (layout : SetLayout) : List PlacedBinding := placeBindings ⟨0, 0, 0⟩ layout

/-- `descriptor_count` and `table_bytes` of a layout, and its dynamic offsets. -/
def layoutTotals (layout : SetLayout) : LayoutCursor :=
  layout.foldl LayoutCursor.advance ⟨0, 0, 0⟩

/-- The records, table bytes and dynamic offsets of different bindings are apart and inside the totals
of the layout. -/
structure PlacesApart (layout : SetLayout) : Prop where
  records : Ragged.Laid ((placeLayout layout).map fun placed => (placed.recordIndex, placed.count))
    (layoutTotals layout).recordIndex
  table : Ragged.Laid
    ((placeLayout layout).map fun placed => (placed.offset, placed.count * placed.stride))
    (layoutTotals layout).offset
  dynamic : Ragged.Laid
    (((placeLayout layout).filter (·.type = .uniformBufferDynamic)).map
      fun placed => (placed.dynamicIndex, placed.count))
    (layoutTotals layout).dynamicIndex

/-- The descriptors of some types in a layout. -/
def countOf (layout : SetLayout) (types : List DescriptorType) : Nat :=
  ((layout.filter (·.type ∈ types)).map (·.count)).sum

/-- `ps5vk_GetDescriptorSetLayoutSupport`, with the limits of `ps5vk_physical_device.c`. -/
def getDescriptorSetLayoutSupport (layout : SetLayout) : Bool :=
  layout.all (fun binding => descriptorStride binding.type != 0) &&
    decide ((layout.map (·.count)).sum ≤ 1024 ∧
      countOf layout [.sampler, .combinedImageSampler] ≤ 3 * 16 ∧
      countOf layout [.uniformBuffer, .uniformBufferDynamic] ≤ 3 * 12 ∧
      countOf layout [.uniformBufferDynamic] ≤ dynamicUniformCount ∧
      countOf layout [.storageBuffer, .storageBufferDynamic] ≤ 3 * 4 ∧
      countOf layout [.storageBufferDynamic] ≤ 4 ∧
      countOf layout [.combinedImageSampler, .sampledImage, .uniformTexelBuffer] ≤ 3 * 16 ∧
      countOf layout [.storageImage, .storageTexelBuffer] ≤ 3 * 4 ∧
      countOf layout [.inputAttachment] ≤ 4)

/-! ## Places -/

section Places

variable (cursor : LayoutCursor) (layout : SetLayout)

theorem records_placeBindings : (placeBindings cursor layout).map (fun placed => (placed.recordIndex, placed.count)) =
        Ragged.stack (2 ^ 32) cursor.recordIndex (layout.map (·.count)) ∧
      (layout.foldl LayoutCursor.advance cursor).recordIndex =
        Ragged.top (2 ^ 32) cursor.recordIndex (layout.map (·.count)) := by
  induction layout generalizing cursor with
  | nil => exact ⟨rfl, rfl⟩
  | cons binding rest ih =>
    obtain ⟨hrows, htop⟩ := ih (cursor.advance binding)
    exact ⟨congrArg _ hrows, htop⟩

theorem table_placeBindings :
    (placeBindings cursor layout).map (fun placed => (placed.offset, placed.count * placed.stride)) =
        Ragged.stack (2 ^ 32) cursor.offset (layout.map fun binding => binding.count * descriptorStride binding.type) ∧
      (layout.foldl LayoutCursor.advance cursor).offset = Ragged.top (2 ^ 32) cursor.offset
          (layout.map fun binding => binding.count * descriptorStride binding.type) := by
  induction layout generalizing cursor with
  | nil => exact ⟨rfl, rfl⟩
  | cons binding rest ih =>
    obtain ⟨hrows, htop⟩ := ih (cursor.advance binding)
    exact ⟨congrArg _ hrows, htop⟩

theorem dynamic_placeBindings : ((placeBindings cursor layout).filter (·.type = .uniformBufferDynamic)).map
          (fun placed => (placed.dynamicIndex, placed.count)) = Ragged.stack (2 ^ 32) cursor.dynamicIndex
          ((layout.filter (·.type = .uniformBufferDynamic)).map (·.count)) ∧
      (layout.foldl LayoutCursor.advance cursor).dynamicIndex = Ragged.top (2 ^ 32) cursor.dynamicIndex
          ((layout.filter (·.type = .uniformBufferDynamic)).map (·.count)) := by
  induction layout generalizing cursor with
  | nil => exact ⟨rfl, rfl⟩
  | cons binding rest ih =>
    obtain ⟨hrows, htop⟩ := ih (cursor.advance binding)
    by_cases hdynamic : binding.type = .uniformBufferDynamic
    · simp_all [placeBindings, LayoutCursor.place, LayoutCursor.advance, Ragged.stack, Ragged.top]
    · simp_all [placeBindings, LayoutCursor.place, LayoutCursor.advance]

theorem dynamicCount_le : dynamicCount layout ≤ (layout.map (·.count)).sum :=
  (List.filter_sublist.map _).sum_le_sum fun _ _ => Nat.zero_le _

/-- The table holds at most 48 bytes a descriptor. -/
theorem tableBytes_le : (layout.map fun binding => binding.count * descriptorStride binding.type).sum ≤
      (layout.map (·.count)).sum * 48 := by
  induction layout with
  | nil => exact Nat.zero_le _
  | cons binding rest ih =>
    have hstride : descriptorStride binding.type ≤ 48 := by cases binding.type <;> decide
    have hbytes := Nat.mul_le_mul_left binding.count hstride
    simp only [List.map_cons, List.sum_cons]
    omega

/-- The places of a layout within the limits are apart. -/
theorem placesApart_of_support (hsupport : getDescriptorSetLayoutSupport layout = true) :
    PlacesApart layout := by
  have hrecords := records_placeBindings ⟨0, 0, 0⟩ layout
  have htable := table_placeBindings ⟨0, 0, 0⟩ layout
  have hdynamic := dynamic_placeBindings ⟨0, 0, 0⟩ layout
  have hcount : (layout.map (·.count)).sum ≤ 1024 :=
    (of_decide_eq_true (Bool.and_eq_true_iff.mp hsupport).2).1
  have hbytes := tableBytes_le layout
  constructor
  · rw [placeLayout, layoutTotals, hrecords.1, hrecords.2]
    exact Ragged.laid_stack ((Nat.zero_add _).trans_lt (by omega))
  · rw [placeLayout, layoutTotals, htable.1, htable.2]
    exact Ragged.laid_stack ((Nat.zero_add _).trans_lt (by omega))
  · rw [placeLayout, layoutTotals, hdynamic.1, hdynamic.2]
    exact Ragged.laid_stack ((Nat.zero_add _).trans_lt ((dynamicCount_le layout).trans_lt (by omega)))

end Places

/-! ## Binds and draws -/

namespace LayoutCursor

variable {cursor : LayoutCursor} {binding : LayoutBinding}

theorem advance_dynamic (hdynamic : binding.type = .uniformBufferDynamic)
    (hfits : cursor.dynamicIndex + binding.count < 2 ^ 32) :
    (cursor.advance binding).dynamicIndex = cursor.dynamicIndex + binding.count :=
  (if_pos hdynamic).trans (Nat.mod_eq_of_lt hfits)

theorem advance_other (hother : binding.type ≠ .uniformBufferDynamic) :
    (cursor.advance binding).dynamicIndex = cursor.dynamicIndex :=
  if_neg hother

end LayoutCursor

theorem bindOffsets_place (layout : SetLayout) (cursor : LayoutCursor) {dynamicIndex : Nat}
    (recordIndex : Nat) (hcursor : cursor.dynamicIndex = dynamicIndex) (hlt : dynamicIndex < 2 ^ 32)
    (offsets : Offsets) (given : List UInt32) :
    bindOffsets ((placeBindings cursor layout).map PlacedBinding.toDescriptorBinding) offsets given =
      bindOffsets (numberBindings dynamicIndex recordIndex layout) offsets given := by
  induction layout generalizing cursor dynamicIndex recordIndex offsets given with
  | nil => rfl
  | cons binding rest ih =>
    subst hcursor
    by_cases hdynamic : binding.type = .uniformBufferDynamic
    · simp only [placeBindings, LayoutCursor.place, List.map_cons, numberBindings, hdynamic, if_true,
        bindOffsets, ne_eq, not_true_eq_false, or_false]
      have hrest (hfits : cursor.dynamicIndex + binding.count < 2 ^ 32) :=
        ih _ (recordIndex + binding.count) (LayoutCursor.advance_dynamic hdynamic hfits) hfits
      split
      · exact hrest (by omega) _ _
      · split
        · rfl
        · next hfits =>
            simp only [dynamicUniformCount] at hfits
            exact hrest (by omega) _ _
    · simp only [placeBindings, LayoutCursor.place, List.map_cons, numberBindings, hdynamic, if_false,
        bindOffsets, ne_eq, not_false_eq_true, or_true, if_true]
      exact ih _ _ (LayoutCursor.advance_other hdynamic) hlt _ _

/-- A bind numbers dynamic offsets as the layout has placed them: it is refused before a counter could wrap. -/
theorem bindOffsets_placeLayout (set : DescriptorSet) (offsets : Offsets) (given : List UInt32) :
    bindOffsets ((placeLayout set.layout).map (·.toDescriptorBinding)) offsets given =
      bindOffsets set.bindings offsets given :=
  bindOffsets_place _ _ 0 rfl (by decide) _ _

/-- The dynamic offsets of the bindings before one. -/
def dynamicBefore (layout : SetLayout) (binding : Nat) : Nat := dynamicCount (layout.take binding)

theorem dynamicCount_cons (binding : LayoutBinding) (rest : SetLayout) : dynamicCount (binding :: rest) =
      (if binding.type = .uniformBufferDynamic then binding.count else 0) + dynamicCount rest := by
  by_cases hdynamic : binding.type = .uniformBufferDynamic <;> simp [dynamicCount, hdynamic]

/-- Without wrapping the layout's places are the plain numbers. -/
theorem dynamicIndex_place (layout : SetLayout) (cursor : LayoutCursor) (recordIndex : Nat)
    (hfits : cursor.dynamicIndex + dynamicCount layout < 2 ^ 32) : (placeBindings cursor layout).map (·.dynamicIndex) =
      (numberBindings cursor.dynamicIndex recordIndex layout).map (·.dynamicIndex) := by
  induction layout generalizing cursor recordIndex with
  | nil => rfl
  | cons binding rest ih =>
    have hrest := ih (cursor.advance binding) (recordIndex + binding.count)
    rw [dynamicCount_cons] at hfits
    by_cases hdynamic : binding.type = .uniformBufferDynamic
    · rw [if_pos hdynamic] at hfits
      rw [LayoutCursor.advance_dynamic hdynamic (by omega)] at hrest
      rw [numberBindings, if_pos hdynamic, placeBindings, List.map_cons, List.map_cons, hrest (by omega)]
      simp [LayoutCursor.place, hdynamic]
    · rw [if_neg hdynamic] at hfits
      rw [LayoutCursor.advance_other hdynamic] at hrest
      rw [numberBindings, if_neg hdynamic, placeBindings, List.map_cons, List.map_cons, hrest (by omega)]
      simp [LayoutCursor.place, hdynamic]

/-- A dynamic binding's offsets come after those of the bindings before it. -/
theorem dynamicIndex_numberBindings (layout : SetLayout) (dynamicIndex recordIndex : Nat) {b : Nat}
    {binding : LayoutBinding} (hbinding : layout[b]? = some binding) (hdynamic : binding.type = .uniformBufferDynamic) :
    ((numberBindings dynamicIndex recordIndex layout).map (·.dynamicIndex))[b]? =
      some (dynamicIndex + dynamicBefore layout b) := by
  induction layout generalizing dynamicIndex recordIndex b with
  | nil => cases hbinding
  | cons first rest ih =>
    cases b with
    | zero =>
      cases hbinding
      simp [numberBindings, hdynamic, dynamicBefore, dynamicCount]
    | succ b =>
      rw [dynamicBefore, List.take_succ_cons, dynamicCount_cons, ← Nat.add_assoc]
      by_cases hfirst : first.type = .uniformBufferDynamic
      · rw [numberBindings, if_pos hfirst, if_pos hfirst]
        exact ih _ _ hbinding
      · rw [numberBindings, if_neg hfirst, if_neg hfirst]
        exact ih _ _ hbinding

/-- The elements of a dynamic binding are among the dynamic offsets of its layout. -/
theorem dynamicBefore_add_lt {layout : SetLayout} {b element : Nat} {binding : LayoutBinding}
    (hbinding : layout[b]? = some binding) (hdynamic : binding.type = .uniformBufferDynamic)
    (helement : element < binding.count) : dynamicBefore layout b + element < dynamicCount layout := by
  induction layout generalizing b with
  | nil => cases hbinding
  | cons first rest ih =>
    rw [dynamicCount_cons]
    cases b with
    | zero =>
      cases hbinding
      rw [if_pos hdynamic]
      simp only [dynamicBefore, List.take_zero, dynamicCount, List.filter_nil, List.map_nil, List.sum_nil]
      omega
    | succ b =>
      rw [dynamicBefore, List.take_succ_cons, dynamicCount_cons, Nat.add_assoc]
      exact Nat.add_lt_add_left (ih hbinding) _

/-! ## Offsets -/

/-- The offset a draw adds to an element of a dynamic uniform buffer, at the place the layout gave it;
none where the place is past the last. -/
def Slot.drawOffset (slot : Slot) (binding element : Nat) : Option UInt32 := do
  let set ← slot.set
  let placed ← (placeLayout set.layout)[binding]?
  if h : placed.dynamicIndex + element < dynamicUniformCount then
    some (slot.offsets ⟨placed.dynamicIndex + element, h⟩)
  else none

/-- The dynamic offsets Vulkan counts for a binding. -/
def LayoutBinding.dynamics (binding : LayoutBinding) : Nat :=
  if binding.type = .uniformBufferDynamic ∨ binding.type = .storageBufferDynamic then binding.count
  else 0

/-- The dynamic offsets Vulkan counts for bindings. -/
def dynamics (layout : SetLayout) : Nat := (layout.map LayoutBinding.dynamics).sum

namespace BindInfo

/-- The set a bind names for a set index. -/
def entry (info : BindInfo) (i : Fin descriptorSetCount) : Option DescriptorSet :=
  (info.sets[(i : Nat) - info.firstSet]?).join

/-- The offset Vulkan assigns to an element of a binding: those given are consumed in the order of the
sets, then of the bindings, then of the elements. -/
def assigned (info : BindInfo) (i : Fin descriptorSetCount) (layout : SetLayout)
    (binding element : Nat) : Option UInt32 :=
  let before := (info.sets.take (i - info.firstSet)).map fun set => dynamics ((set.map (·.layout)).getD [])
  info.dynamicOffsets[before.sum + dynamics (layout.take binding) + element]?

/-- The dynamic bindings of a bind's sets are all uniform buffers. -/
def UniformDynamic (info : BindInfo) : Prop :=
  ∀ set, some set ∈ info.sets → ∀ binding ∈ set.layout, binding.type ≠ .storageBufferDynamic

/-- What a bind that is taken consumes. -/
structure Taken (info : BindInfo) : Prop where
  given : (info.sets.map offsetsTaken).sum ≤ info.dynamicOffsets.length
  fits : ∀ set ∈ info.sets, offsetsTaken set ≤ dynamicUniformCount

end BindInfo

theorem bindSets_taken {index : Nat} {sets : List (Option DescriptorSet)} {slots slots' : Slots}
    {given left : List UInt32} (h : bindSets index sets slots given = (slots', some left)) :
    (sets.map offsetsTaken).sum ≤ given.length ∧ ∀ set ∈ sets, offsetsTaken set ≤ dynamicUniformCount := by
  induction sets generalizing index slots given with
  | nil => exact ⟨Nat.zero_le _, nofun⟩
  | cons set rest ih =>
    obtain ⟨_, _, -, ⟨hgiven, hfits⟩, hrest⟩ := bindSets_cons h
    obtain ⟨hsum, hall⟩ := ih hrest
    rw [List.length_drop] at hsum
    refine ⟨?_, List.forall_mem_cons.mpr ⟨hfits, hall⟩⟩
    rw [List.map_cons, List.sum_cons]
    omega

theorem BoundRecorder.bind_taken {b : BoundRecorder} {info : BindInfo}
    (hrefused : (b.bind info).recorder.refused = none) : info.Taken := by
  unfold bind at hrefused
  split at hrefused
  · next hsome => simp [hrefused] at hsome
  · cases hbound : bindSets info.firstSet info.sets b.slots info.dynamicOffsets with
    | mk slots left =>
      cases left with
      | none => simp [bindDescriptorSets, hbound, Recorder.refuse] at hrefused
      | some left => exact ⟨(bindSets_taken hbound).1, (bindSets_taken hbound).2⟩

/-- Every bind of a recording that is not refused was taken. -/
theorem taken_of_run {device : Device} (commands : List BoundCommand) (b : BoundRecorder)
    (hrun : BoundRecorder.run device commands = some b) (hrefused : b.recorder.refused = none) :
    ∀ info ∈ commands.filterMap (·.bindInfo), info.Taken := by
  induction commands using List.reverseRecOn generalizing b with
  | nil => exact List.forall_mem_nil _
  | append_singleton commands command ih =>
    rw [BoundRecorder.run_concat] at hrun
    obtain ⟨before, hbefore, hstep⟩ := Option.bind_eq_some_iff.1 hrun
    have hmoves := (BoundRecorder.step_moves hstep).1
    have htaken := ih before hbefore (refused_of_moves hmoves hrefused)
    rw [List.filterMap_append, List.forall_mem_append]
    refine ⟨htaken, fun info hinfo => ?_⟩
    cases command with
    | bindDescriptorSets made =>
      cases hstep
      cases List.mem_singleton.mp hinfo
      exact BoundRecorder.bind_taken hrefused
    | _ => cases hinfo

section Assigned

variable {info : BindInfo} {i : Fin descriptorSetCount} {set : DescriptorSet}
  {b element : Nat} {binding : LayoutBinding}

theorem dynamics_eq_dynamicCount {layout : SetLayout}
    (h : ∀ binding ∈ layout, binding.type ≠ .storageBufferDynamic) : dynamics layout = dynamicCount layout := by
  induction layout with
  | nil => rfl
  | cons binding rest ih =>
    obtain ⟨hbinding, hrest⟩ := List.forall_mem_cons.mp h
    rw [dynamicCount_cons, ← ih hrest, dynamics, List.map_cons, List.sum_cons, LayoutBinding.dynamics]
    simp only [hbinding, or_false]
    rfl

/-- The offsets of the sets before one, as Vulkan and the driver count them. -/
theorem BindInfo.UniformDynamic.before (h : info.UniformDynamic) (n : Nat) :
    ((info.sets.take n).map fun set => dynamics ((set.map (·.layout)).getD [])) =
      (info.sets.take n).map offsetsTaken := by
  apply List.map_congr_left
  intro set hset
  cases set with
  | none => rfl
  | some set => exact dynamics_eq_dynamicCount (h set (List.mem_of_mem_take hset))

/-- The offsets given cover a set of the bind and those before it. -/
theorem BindInfo.Taken.before_add_le (htaken : info.Taken) (hentry : info.entry i = some set) :
    ((info.sets.take (i - info.firstSet)).map offsetsTaken).sum + dynamicCount set.layout ≤
      info.dynamicOffsets.length := by
  obtain ⟨hlt, hget⟩ := List.getElem?_eq_some_iff.mp (Option.join_eq_some_iff.mp hentry)
  calc ((info.sets.take (i - info.firstSet)).map offsetsTaken).sum + dynamicCount set.layout
      = ((info.sets.take (i - info.firstSet + 1)).map offsetsTaken).sum := by
          rw [← List.take_append_getElem hlt, hget, List.map_append, List.sum_append]
          rfl
    _ ≤ (info.sets.map offsetsTaken).sum :=
          ((List.take_sublist _ _).map _).sum_le_sum fun _ _ => Nat.zero_le _
    _ ≤ info.dynamicOffsets.length := htaken.given

/-- The offset Vulkan assigns, by the driver's numbers. -/
theorem BindInfo.UniformDynamic.assigned_eq (huniform : info.UniformDynamic)
    (hset : some set ∈ info.sets) (b element : Nat) : info.assigned i set.layout b element =
      info.dynamicOffsets[((info.sets.take (i - info.firstSet)).map offsetsTaken).sum +
        (dynamicBefore set.layout b + element)]? := by
  have hlayout : dynamics (set.layout.take b) = dynamicCount (set.layout.take b) :=
    dynamics_eq_dynamicCount fun binding hmem => huniform set hset binding (List.mem_of_mem_take hmem)
  rw [BindInfo.assigned, huniform.before, Nat.add_assoc, dynamicBefore, hlayout]

theorem BindInfo.slot_of_entry (hentry : info.entry i = some set) :
    info.slot i = ⟨some set, fun k => if (k : Nat) < dynamicCount set.layout then
        info.dynamicOffsets.getD (((info.sets.take (i - info.firstSet)).map offsetsTaken).sum + k) 0 else 0⟩ := by
  rw [BindInfo.slot, show (info.sets[(i : Nat) - info.firstSet]?).join = some set from hentry]
  rfl

/-- What a taken bind leaves for an element is the offset Vulkan assigns to it. -/
theorem BindInfo.slot_drawOffset (htaken : info.Taken) (huniform : info.UniformDynamic)
    (hentry : info.entry i = some set) (hbinding : set.layout[b]? = some binding)
    (hdynamic : binding.type = .uniformBufferDynamic) (helement : element < binding.count) :
    ∃ offset, (info.slot i).drawOffset b element = some offset ∧ (info.slot i).dynamicOffset b element = offset ∧
      info.assigned i set.layout b element = some offset := by
  have hset : some set ∈ info.sets := List.mem_of_getElem? (Option.join_eq_some_iff.mp hentry)
  have hcount : dynamicCount set.layout ≤ dynamicUniformCount := htaken.fits _ hset
  have helements := dynamicBefore_add_lt hbinding hdynamic helement
  have hroom : dynamicBefore set.layout b + element < dynamicUniformCount := by omega
  have hgiven := htaken.before_add_le hentry
  -- the place of the layout and the plain number are the same, as neither is past the last place
  have hnumber := dynamicIndex_numberBindings set.layout 0 0 hbinding hdynamic
  have hplace := hnumber
  rw [← dynamicIndex_place set.layout ⟨0, 0, 0⟩ 0
    ((Nat.zero_add _).trans_lt (hcount.trans_lt (by decide)))] at hplace
  rw [Nat.zero_add, List.getElem?_map, Option.map_eq_some_iff] at hnumber hplace
  obtain ⟨declared, hdeclared, hindex⟩ := hnumber
  obtain ⟨placed, hplaced, hplacedIndex⟩ := hplace
  refine ⟨info.dynamicOffsets.getD (((info.sets.take (i - info.firstSet)).map offsetsTaken).sum +
    (dynamicBefore set.layout b + element)) 0, ?_, ?_, ?_⟩
  · simp only [BindInfo.slot_of_entry hentry, Slot.drawOffset, placeLayout, Option.bind_eq_bind,
      Option.bind_some, hplaced, hplacedIndex, hroom, helements, dif_pos, if_true]
  · simp only [BindInfo.slot_of_entry hentry, Slot.dynamicOffset, DescriptorSet.bindings,
      Option.bind_some, hdeclared, hindex, hroom, helements, dif_pos, if_true]
  · rw [huniform.assigned_eq hset, List.getD_eq_getElem?_getD, List.getElem?_eq_getElem (by omega),
      Option.getD_some]

end Assigned

/-- At the end of a recording, and so at each of its draws, every element of a dynamic uniform buffer
of a bound layout is read with the offset Vulkan assigns: the one of the latest bind of its set. -/
def DynamicOffsetsReach (device : Device) (commands : List BoundCommand) : Prop :=
  ∀ b, BoundRecorder.run device commands = some b → b.recorder.refused = none →
    ∀ i info set, lastBind (·.point = .graphics) commands i = some info →
      info.entry i = some set →
        ∀ binding declared element, set.layout[binding]? = some declared →
          declared.type = .uniformBufferDynamic → element < declared.count →
            ∃ offset, (b.slots i).drawOffset binding element = some offset ∧
              (b.slots i).dynamicOffset binding element = offset ∧
              info.assigned i set.layout binding element = some offset

theorem dynamicOffsetsReach {device : Device} {commands : List BoundCommand}
    (hgraphics : ∀ info ∈ commands.filterMap (·.bindInfo), info.point = .graphics)
    (huniform : ∀ info ∈ commands.filterMap (·.bindInfo), info.UniformDynamic) :
    DynamicOffsetsReach device commands := by
  intro b hrun hrefused i info set hlast hentry binding declared element hbinding hdynamic helement
  have hmem : ∀ {keep : BindInfo → Bool} {found : BindInfo},
      lastBind keep commands i = some found → found ∈ commands.filterMap (·.bindInfo) :=
    fun h => List.mem_reverse.mp (List.mem_of_find?_eq_some h)
  have hslot : b.slots i = info.slot i := by
    have hown : OwnBind .graphics commands i := fun other hother =>
      .inl (hgraphics other (hmem hother))
    rw [(slot_eq_latest_iff hrun hrefused .graphics i).mpr hown, latestSlot, hlast]
    rfl
  rw [hslot]
  exact info.slot_drawOffset (taken_of_run commands b hrun hrefused info (hmem hlast))
    (huniform info (hmem hlast)) hentry hbinding hdynamic helement

/-- A layout with an array of two dynamic uniform buffers at binding 0, nothing at binding 1 and one
more at binding 2. -/
def sparseLayout : SetLayout := [⟨.uniformBufferDynamic, 2⟩, ⟨.sampler, 0⟩, ⟨.uniformBufferDynamic, 1⟩]

/-- Two sets of it bound from set index 1 on, and the second bound again. -/
def rebinds : List BoundCommand :=
  [.bindDescriptorSets ⟨.graphics, 1, [some ⟨1, sparseLayout, false⟩, some ⟨2, sparseLayout, false⟩],
      [0x100, 0x200, 0x300, 0x400, 0x500, 0x600]⟩,
    .bindDescriptorSets ⟨.graphics, 2, [some ⟨3, sparseLayout, false⟩], [0x700, 0x800, 0x900]⟩]

end Ps5Vulkan.Record
