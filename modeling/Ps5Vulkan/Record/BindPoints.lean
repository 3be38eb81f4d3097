import Ps5Vulkan.Record.Descriptors
import Mathlib.Data.List.Induction

/-!
# Bind points

An application binds descriptor sets for draws and for dispatches apart, and Vulkan keeps them apart:
a draw reads the latest graphics bind of each set index, a dispatch the latest compute bind. The
command buffer has one slot per set index for both. This module says what the slots hold after any
interleaving of binds, draws and dispatches, and when a draw or a dispatch reads what Vulkan says.
-/

namespace Ps5Vulkan.Record

/-- A graphics pipeline: its draw state and its stages. -/
structure GraphicsPipeline where
  state : Pipeline
  stages : List Stage

/-- A compute pipeline. -/
structure ComputePipeline where
  stage : Stage

/-- `struct ps5vk_cmd_buffer` with its pipelines and descriptor sets. -/
structure BoundRecorder where
  recorder : Recorder
  pipeline : Option GraphicsPipeline
  computePipeline : Option ComputePipeline
  slots : Slots

/-- `ps5vk_cmd_buffer_clear_state`. -/
def BoundRecorder.init : BoundRecorder where
  recorder := .init
  pipeline := none
  computePipeline := none
  slots _ := .empty

/-- A draw as the application records it. What AGC's encoders make of it depends on its tables. -/
structure DrawCall where
  count : Nat
  instanceCount : Nat
  indexed : Option IndexedDraw
  dynamic : DynamicState
  reading : Reading
  vertexBuffers : Bool
  encoded : List DescriptorTable → Option (List UInt32)

/-- A draw of no vertices or instances. -/
def DrawCall.empty (call : DrawCall) : Bool :=
  call.instanceCount == 0 || call.count == 0

/-- A draw with the resources its pipeline's stages build from the slots. -/
def DrawCall.toDraw (call : DrawCall) (pipeline : GraphicsPipeline) (slots : Slots) : Draw :=
  let built := shaderTables call.reading slots pipeline.stages
  { count := call.count
    instanceCount := call.instanceCount
    indexed := call.indexed
    pipeline := pipeline.state
    dynamic := call.dynamic
    sampled := (built.toOption.map (·.1)).getD []
    resources := built.toOption.isSome && call.vertexBuffers
    encoded := built.toOption.bind fun (_, tables) => call.encoded tables }

/-- A dispatch as the application records it. -/
structure DispatchCall where
  groups : Nat × Nat × Nat
  reading : Reading
  words : List DescriptorTable → List UInt32

/-- A dispatch of no workgroups. -/
def DispatchCall.empty (call : DispatchCall) : Bool :=
  call.groups.1 == 0 || call.groups.2.1 == 0 || call.groups.2.2 == 0

/-- A dispatch with the resources its pipeline's stage builds from the slots. -/
def DispatchCall.toDispatch (call : DispatchCall) (pipeline : Option ComputePipeline)
    (slots : Slots) : Dispatch :=
  let stages := (pipeline.map (·.stage)).toList
  let built := shaderTables call.reading slots stages
  { bound := pipeline.isSome
    empty := call.empty
    sampled := (built.toOption.map (·.1)).getD []
    resources := built.toOption.isSome
    words := (built.toOption.map fun (_, tables) => call.words tables).getD [] }

/-- What an application records. The other commands are those that read no descriptors. -/
inductive BoundCommand where
  | bindPipeline (pipeline : GraphicsPipeline)
  | bindComputePipeline (pipeline : ComputePipeline)
  | bindDescriptorSets (info : BindInfo)
  | draw (call : DrawCall)
  | dispatch (call : DispatchCall)
  | other (command : Command)

/-- Draws and dispatches. -/
def Command.isWork : Command → Bool
  | .draw _ | .dispatch _ => true
  | _ => false

namespace BoundRecorder

variable (device : Device) (b : BoundRecorder)

/-- A command of the recorder alone. -/
def onRecorder (command : Command) : Option BoundRecorder :=
  (b.recorder.step device command).map fun recorder => { b with recorder := recorder }

/-- A bind of descriptor sets. A refused command buffer takes none. -/
def bind (info : BindInfo) : BoundRecorder :=
  if b.recorder.refused.isSome then b
  else
    let (slots, taken) := bindDescriptorSets b.slots info
    { b with
      slots := slots
      recorder := if taken then b.recorder else b.recorder.refuse .descriptorSets }

/-- One command, `none` where it is not valid to record it. -/
def step : BoundCommand → Option BoundRecorder
  | .bindPipeline pipeline => some { b with pipeline := some pipeline }
  | .bindComputePipeline pipeline => some { b with computePipeline := some pipeline }
  | .bindDescriptorSets info => some (b.bind info)
  | .draw call =>
    match b.pipeline with
    | none => if b.recorder.refused.isSome ∨ call.empty then some b else none
    | some pipeline => b.onRecorder device (.draw (call.toDraw pipeline b.slots))
  | .dispatch call =>
    b.onRecorder device (.dispatch (call.toDispatch b.computePipeline b.slots))
  | .other command => if command.isWork then none else b.onRecorder device command

/-- A recording, from a cleared command buffer. -/
def run (commands : List BoundCommand) : Option BoundRecorder :=
  commands.foldlM (step device) .init

/-- The set indices whose slots a command's resources are read from. -/
def reads : BoundCommand → List (Fin descriptorSetCount)
  | .draw call =>
    if call.empty then []
    else shaderReads call.reading ((b.pipeline.map (·.stages)).getD [])
  | .dispatch call =>
    if call.empty then []
    else shaderReads call.reading (b.computePipeline.map (·.stage)).toList
  | _ => []

end BoundRecorder

/-- The bind point whose sets a command reads. -/
def BoundCommand.point : BoundCommand → BindPoint
  | .dispatch _ => .compute
  | _ => .graphics

/-- The bind a command makes. -/
def BoundCommand.bindInfo : BoundCommand → Option BindInfo
  | .bindDescriptorSets info => some info
  | _ => none

/-- The dynamic uniform buffers a set layout declares. -/
def dynamicCount (layout : List LayoutBinding) : Nat :=
  ((layout.filter (·.type = .uniformBufferDynamic)).map (·.count)).sum

/-- The dynamic offsets an entry of a bind takes. -/
def offsetsTaken : Option DescriptorSet → Nat
  | none => 0
  | some set => dynamicCount set.layout

namespace BindInfo

/-- Whether a bind names a set index. -/
def covers (info : BindInfo) (set : Fin descriptorSetCount) : Bool :=
  decide (info.firstSet ≤ set ∧ (set : Nat) < info.firstSet + info.sets.length)

/-- What Vulkan binds to a set index: the set named for it, and its dynamic offsets, which stand
after those of the sets before it, in the order of bindings and array elements. -/
def slot (info : BindInfo) (set : Fin descriptorSetCount) : Slot :=
  let entry := (info.sets[(set : Nat) - info.firstSet]?).join
  let before := ((info.sets.take (set - info.firstSet)).map offsetsTaken).sum
  ⟨entry, fun k =>
    if (k : Nat) < offsetsTaken entry then info.dynamicOffsets.getD (before + k) 0 else 0⟩

end BindInfo

/-- The last bind of a set index among the kept ones. -/
def lastBind (keep : BindInfo → Bool) (commands : List BoundCommand)
    (set : Fin descriptorSetCount) : Option BindInfo :=
  (commands.filterMap (·.bindInfo)).reverse.find? fun info => keep info && info.covers set

/-- What a bind leaves at a set index, nothing where there was none. -/
def boundSlot (set : Fin descriptorSetCount) : Option BindInfo → Slot
  | none => .empty
  | some info => info.slot set

/-- Vulkan's descriptor sets of a bind point: the latest bind of each set index for it. -/
def latestSlot (point : BindPoint) (commands : List BoundCommand)
    (set : Fin descriptorSetCount) : Slot :=
  boundSlot set (lastBind (·.point = point) commands set)

theorem getD_drop (given : List UInt32) (n k : Nat) : (given.drop n).getD k 0 = given.getD (n + k) 0 := by
  rw [List.getD_eq_getElem?_getD, List.getElem?_drop, List.getD_eq_getElem?_getD]

/-- The offsets of a set are the next of the given ones, by dynamic index; there are as many, and they
fit. -/
theorem bindOffsets_numberBindings (layout : List LayoutBinding) (dynamicIndex recordIndex : Nat)
    (offsets offsets' : Offsets) (given left : List UInt32)
    (h : bindOffsets (numberBindings dynamicIndex recordIndex layout) offsets given =
      (offsets', some left)) : left = given.drop (dynamicCount layout) ∧
      (∀ k, offsets' k = if dynamicIndex ≤ k ∧ k < dynamicIndex + dynamicCount layout then
        given.getD (k - dynamicIndex) 0 else offsets k) ∧ dynamicCount layout ≤ given.length ∧
      (0 < dynamicCount layout → dynamicIndex + dynamicCount layout ≤ dynamicUniformCount) := by
  induction layout generalizing dynamicIndex recordIndex offsets given with
  | nil =>
    cases h
    refine ⟨rfl, fun k => ?_, Nat.zero_le _, fun hpos => absurd hpos (by simp [dynamicCount])⟩
    rw [if_neg]
    simp [dynamicCount]
  | cons binding rest ih =>
    by_cases hdynamic : binding.type = .uniformBufferDynamic
    · have hcount : dynamicCount (binding :: rest) = binding.count + dynamicCount rest := by
        simp [dynamicCount, hdynamic]
      rw [numberBindings, if_pos hdynamic, bindOffsets] at h
      dsimp only at h
      split at h
      · rename_i hskip
        have hzero : binding.count = 0 := by
          rcases hskip with hzero | hother
          · exact hzero
          · exact absurd hdynamic hother
        rw [hcount, hzero, Nat.zero_add]
        rw [hzero] at h
        exact ih _ _ _ _ h
      · split at h
        · cases h
        · rename_i hfits
          obtain ⟨hleft, hoffsets, hgiven, hroom⟩ := ih _ _ _ _ h
          rw [List.length_drop] at hgiven
          refine ⟨?_, fun k => ?_, ?_, fun _ => ?_⟩
          · rw [hleft, hcount, List.drop_drop]
          · rw [hoffsets k, hcount]
            unfold writeOffsets
            by_cases hlow : dynamicIndex + binding.count ≤ k
            · have hat : binding.count + (k - (dynamicIndex + binding.count)) =
                  k - dynamicIndex := by omega
              rw [getD_drop, hat]
              grind
            · grind
          · omega
          · omega
    · have hcount : dynamicCount (binding :: rest) = dynamicCount rest := by
        simp [dynamicCount, hdynamic]
      rw [numberBindings, if_neg hdynamic, bindOffsets, if_pos (Or.inr hdynamic)] at h
      rw [hcount]
      exact ih _ _ _ _ h

/-- What one set of a bind leaves in its slot, and the offsets left for the sets after it. -/
theorem bindSets_cons {index : Nat} {set : Option DescriptorSet}
    {rest : List (Option DescriptorSet)} {slots slots' : Slots} {given left : List UInt32}
    (h : bindSets index (set :: rest) slots given = (slots', some left)) :
    ∃ (hindex : index < descriptorSetCount) (offsets : Offsets),
      (∀ k, offsets k = if (k : Nat) < offsetsTaken set then given.getD k 0 else 0) ∧
      (offsetsTaken set ≤ given.length ∧ offsetsTaken set ≤ dynamicUniformCount) ∧
      bindSets (index + 1) rest (Function.update slots ⟨index, hindex⟩ ⟨set, offsets⟩)
        (given.drop (offsetsTaken set)) = (slots', some left) := by
  rw [bindSets] at h
  split at h
  · rename_i hindex
    cases set with
    | none =>
      exact ⟨hindex, fun _ => 0, fun k => by simp [offsetsTaken],
        ⟨Nat.zero_le _, Nat.zero_le _⟩, h⟩
    | some bound =>
      dsimp only at h
      split at h
      · rename_i offsets next hbound
        obtain ⟨hnext, hoffsets, hgiven, hroom⟩ := bindOffsets_numberBindings _ _ _ _ _ _ _ hbound
        rw [hnext] at h
        have hfits : dynamicCount bound.layout ≤ dynamicUniformCount := by omega
        exact ⟨hindex, offsets, fun k => by simpa [offsetsTaken] using hoffsets k,
          ⟨hgiven, hfits⟩, h⟩
      · cases h
  · cases h

section Covered

variable (point : BindPoint) {index : Nat} (set : Option DescriptorSet)
  (rest : List (Option DescriptorSet)) (given : List UInt32) {i : Fin descriptorSetCount}

theorem BindInfo.covers_cons (hne : (i : Nat) ≠ index) : BindInfo.covers ⟨point, index, set :: rest, given⟩ i =
      BindInfo.covers ⟨point, index + 1, rest, given.drop (offsetsTaken set)⟩ i := by
  simp only [BindInfo.covers, List.length_cons, decide_eq_decide]
  omega

theorem BindInfo.slot_cons_self (heq : (i : Nat) = index) : BindInfo.slot ⟨point, index, set :: rest, given⟩ i =
      ⟨set, fun k => if (k : Nat) < offsetsTaken set then given.getD k 0 else 0⟩ := by
  simp [BindInfo.slot, heq]

theorem BindInfo.slot_cons_of_lt (hlt : index < i) : BindInfo.slot ⟨point, index, set :: rest, given⟩ i =
      BindInfo.slot ⟨point, index + 1, rest, given.drop (offsetsTaken set)⟩ i := by
  have hsub : (i : Nat) - index = (i - (index + 1)) + 1 := by omega
  simp only [BindInfo.slot, hsub, List.getElem?_cons_succ, List.take_succ_cons, List.map_cons,
    List.sum_cons, getD_drop, Nat.add_assoc]

end Covered

/-- A bind the driver takes leaves in every slot it covers what Vulkan binds there, and the other
slots as they were. -/
theorem bindSets_slots (point : BindPoint) (sets : List (Option DescriptorSet)) (index : Nat)
    (slots slots' : Slots) (given left : List UInt32)
    (h : bindSets index sets slots given = (slots', some left)) (i : Fin descriptorSetCount) :
    slots' i = if BindInfo.covers ⟨point, index, sets, given⟩ i then BindInfo.slot ⟨point, index, sets, given⟩ i
      else slots i := by
  induction sets generalizing index slots given with
  | nil =>
    cases h
    rw [if_neg]
    simp [BindInfo.covers]
  | cons set rest ih =>
    obtain ⟨hindex, offsets, hoffsets, -, hrest⟩ := bindSets_cons h
    rw [ih _ _ _ hrest]
    rcases Nat.lt_trichotomy i index with hlt | heq | hgt
    · rw [BindInfo.covers_cons point set rest given (Nat.ne_of_lt hlt)]
      have hfirst : ¬BindInfo.covers ⟨point, index + 1, rest, given.drop (offsetsTaken set)⟩ i := by
        simp only [BindInfo.covers, decide_eq_true_eq]
        omega
      rw [if_neg hfirst, if_neg hfirst, Function.update_of_ne]
      exact Fin.ne_of_lt hlt
    · have hfirst : ¬BindInfo.covers ⟨point, index + 1, rest, given.drop (offsetsTaken set)⟩ i := by
        simp only [BindInfo.covers, decide_eq_true_eq]
        omega
      have hcovers : BindInfo.covers ⟨point, index, set :: rest, given⟩ i := by
        simp [BindInfo.covers, heq]
      have hi : i = ⟨index, hindex⟩ := Fin.ext heq
      rw [if_neg hfirst, if_pos hcovers, BindInfo.slot_cons_self point set rest given heq, hi,
        Function.update_self, funext hoffsets]
    · rw [BindInfo.covers_cons point set rest given (Nat.ne_of_gt hgt),
        BindInfo.slot_cons_of_lt point set rest given hgt, Function.update_of_ne]
      exact Fin.ne_of_gt hgt

/-- What moves leave unrefused was unrefused. -/
theorem refused_of_moves {device : Device} {ok : RenderingInfo → Prop} {r r' : Recorder}
    (h : Moves device ok r r') (hrefused : r'.refused = none) : r.refused = none := by
  induction h with
  | refl => exact hrefused
  | tail _ hlast ih =>
    apply ih
    cases hlast with
    | idle _ h' _ => simp [hrefused] at h'
    | refuse reason => cases hrefused
    | sample _ h | barrier h | view h _ | draw _ _ h _ | words _ h | target _ h | record _ h
    | start h _ _ _ | finish h => exact h

namespace BoundRecorder

variable {device : Device} {b b' : BoundRecorder}

theorem moves_onRecorder {command : Command} (h : b.onRecorder device command = some b') :
    Moves device (fun _ => True) b.recorder b'.recorder ∧ b'.slots = b.slots := by
  obtain ⟨recorder, hstep, rfl⟩ := Option.map_eq_some_iff.1 h
  exact ⟨moves_step device _ (fun _ _ => trivial) hstep, rfl⟩

/-- A bind that is taken leaves Vulkan's slots where it covers them. -/
theorem bind_slots (info : BindInfo) (hrefused : (b.bind info).recorder.refused = none)
    (i : Fin descriptorSetCount) : (b.bind info).slots i = if info.covers i then info.slot i else b.slots i := by
  unfold bind at hrefused ⊢
  split at hrefused
  · rename_i hsome
    simp [hrefused] at hsome
  · rename_i hnone
    rw [if_neg hnone]
    unfold bindDescriptorSets at hrefused ⊢
    cases hbound : bindSets info.firstSet info.sets b.slots info.dynamicOffsets with
    | mk slots left =>
      cases left with
      | none => simp [hbound, Recorder.refuse] at hrefused
      | some left => exact bindSets_slots info.point _ _ _ _ _ _ hbound i

/-- Every command is moves of the recorder; binds alone change the slots. -/
theorem step_moves {command : BoundCommand} (h : b.step device command = some b') :
    Moves device (fun _ => True) b.recorder b'.recorder ∧ (command.bindInfo = none → b'.slots = b.slots) := by
  cases command with
  | bindPipeline pipeline | bindComputePipeline pipeline =>
    cases h
    exact ⟨.refl, fun _ => rfl⟩
  | bindDescriptorSets info =>
    cases h
    constructor
    · unfold bind
      split
      · exact .refl
      · dsimp only
        split
        · exact .refl
        · exact .single (.refuse _)
    · intro hnone
      cases hnone
  | draw call =>
    rw [step] at h
    split at h
    · split at h
      · cases h
        exact ⟨.refl, fun _ => rfl⟩
      · cases h
    · obtain ⟨hmoves, hslots⟩ := moves_onRecorder h
      exact ⟨hmoves, fun _ => hslots⟩
  | dispatch call =>
    obtain ⟨hmoves, hslots⟩ := moves_onRecorder h
    exact ⟨hmoves, fun _ => hslots⟩
  | other command =>
    rw [step] at h
    split at h
    · cases h
    · obtain ⟨hmoves, hslots⟩ := moves_onRecorder h
      exact ⟨hmoves, fun _ => hslots⟩

theorem run_concat (commands : List BoundCommand) (command : BoundCommand) :
    run device (commands ++ [command]) = (run device commands).bind (step device · command) := by
  unfold run
  rw [List.foldlM_append]
  cases commands.foldlM (step device) init with
  | none => rfl
  | some b => exact bind_pure (step device b command)

end BoundRecorder

theorem lastBind_concat (keep : BindInfo → Bool) (commands : List BoundCommand)
    (command : BoundCommand) (i : Fin descriptorSetCount) : lastBind keep (commands ++ [command]) i =
      ((command.bindInfo.filter fun info => keep info && info.covers i).or (lastBind keep commands i)) := by
  unfold lastBind
  cases h : command.bindInfo with
  | none => simp [h]
  | some info =>
    cases hkeep : keep info && info.covers i with
    | true | false => simp [h, Option.filter, hkeep]

/-- The slots of a recording hold the last bind of each set index, for either bind point. -/
theorem slots_of_run {device : Device} (commands : List BoundCommand) (b : BoundRecorder)
    (hrun : BoundRecorder.run device commands = some b) (hrefused : b.recorder.refused = none)
    (i : Fin descriptorSetCount) : b.slots i = boundSlot i (lastBind (fun _ => true) commands i) := by
  induction commands using List.reverseRecOn generalizing b with
  | nil =>
    cases hrun
    rfl
  | append_singleton commands command ih =>
    rw [BoundRecorder.run_concat] at hrun
    obtain ⟨before, hbefore, hstep⟩ := Option.bind_eq_some_iff.1 hrun
    obtain ⟨hmoves, hkept⟩ := BoundRecorder.step_moves hstep
    have hslots := ih before hbefore (refused_of_moves hmoves hrefused)
    rw [lastBind_concat]
    cases hinfo : command.bindInfo with
    | none =>
      rw [hkept hinfo, hslots]
      rfl
    | some info =>
      cases command with
      | bindDescriptorSets made =>
        cases hinfo
        cases hstep
        rw [BoundRecorder.bind_slots info hrefused i, hslots]
        cases hcovers : info.covers i with
        | true => simp [Option.filter, hcovers, boundSlot]
        | false => simp [Option.filter, hcovers]
      | _ => cases hinfo

/-- Every draw and dispatch of a recording reads, at every set index it reads, the set and dynamic
offsets of the latest bind of that index for its own bind point. -/
def ReadsOwnBinds (device : Device) (commands : List BoundCommand) : Prop :=
  ∀ before work after b, commands = before ++ work :: after →
    BoundRecorder.run device before = some b → b.recorder.refused = none →
      ∀ i ∈ b.reads work, b.slots i = latestSlot work.point before i

/-- The last bind of a set index, for either bind point, was for this one, or bound the same. -/
def OwnBind (point : BindPoint) (commands : List BoundCommand) (i : Fin descriptorSetCount) :
    Prop :=
  ∀ info, lastBind (fun _ => true) commands i = some info →
    info.point = point ∨ info.slot i = latestSlot point commands i

/-- At every draw and dispatch no bind for the other bind point has replaced what it reads. -/
def BindsApart (device : Device) (commands : List BoundCommand) : Prop :=
  ∀ before work after b, commands = before ++ work :: after →
    BoundRecorder.run device before = some b → b.recorder.refused = none →
      ∀ i ∈ b.reads work, OwnBind work.point before i

/-- A bind that is the last of all is the last of its bind point. -/
theorem lastBind_own {commands : List BoundCommand} {i : Fin descriptorSetCount} {info : BindInfo}
    (h : lastBind (fun _ => true) commands i = some info) : lastBind (·.point = info.point) commands i = some info := by
  obtain ⟨hcovers, later, earlier, hsplit, hnone⟩ := List.find?_eq_some_iff_append.1 h
  apply List.find?_eq_some_iff_append.2
  refine ⟨by simpa using hcovers, later, earlier, hsplit, ?_⟩
  intro other hother
  have hout := hnone other hother
  simp only [Bool.true_and, Bool.not_eq_true'] at hout
  simp [hout]

theorem lastBind_none {commands : List BoundCommand} {i : Fin descriptorSetCount}
    (h : lastBind (fun _ => true) commands i = none) (keep : BindInfo → Bool) : lastBind keep commands i = none := by
  apply List.find?_eq_none.2
  intro info hmem
  have hout := List.find?_eq_none.1 h info hmem
  simp only [Bool.true_and, Bool.not_eq_true] at hout
  simp [hout]

/-- What a slot holds is Vulkan's for a bind point exactly where the bind point owns it. -/
theorem slot_eq_latest_iff {device : Device} {commands : List BoundCommand} {b : BoundRecorder}
    (hrun : BoundRecorder.run device commands = some b) (hrefused : b.recorder.refused = none)
    (point : BindPoint) (i : Fin descriptorSetCount) :
    b.slots i = latestSlot point commands i ↔ OwnBind point commands i := by
  rw [slots_of_run commands b hrun hrefused i]
  unfold OwnBind
  cases hlast : lastBind (fun _ => true) commands i with
  | none =>
    simp only [latestSlot, lastBind_none hlast, reduceCtorEq, false_imp_iff, implies_true]
  | some info =>
    constructor
    · intro h other hother
      cases hother
      exact Or.inr h
    · intro h
      rcases h info rfl with hpoint | hsame
      · unfold latestSlot
        rw [← hpoint, lastBind_own hlast]
      · exact hsame

/-- Draws and dispatches read their own bind point's sets in exactly the recordings whose binds for
the other bind point have not replaced them. -/
theorem reads_own_binds_iff_apart (device : Device) (commands : List BoundCommand) :
    ReadsOwnBinds device commands ↔ BindsApart device commands := by
  constructor
  · intro h before work after b hsplit hrun hrefused i hi
    exact (slot_eq_latest_iff hrun hrefused work.point i).1
      (h before work after b hsplit hrun hrefused i hi)
  · intro h before work after b hsplit hrun hrefused i hi
    exact (slot_eq_latest_iff hrun hrefused work.point i).2
      (h before work after b hsplit hrun hrefused i hi)

/-- A stage that reads one uniform buffer of set 0. -/
def uniformStage : Stage where
  userSgprCount := 1
  bindings := [⟨0, 0, 0, 1, 16, false⟩]
  setsValid i := (i : Nat) == 0
  setsUserDataDword _ := 0
  pushPointer := none
  pushConstants := false

/-- Sets whose writes left a uniform buffer at an address of their handle. -/
def uniformReading : Reading where
  contents handle _ := some ⟨.uniformBuffer, 0x1000 * handle, 16, none, none, none⟩
  inputAttachment _ _ := .ok none
  imageWords _ _ := none
  pushBlock := (0, 0)

/-- A bind of one set to set index 0. -/
def bindUniform (point : BindPoint) (handle : Nat) : BoundCommand :=
  .bindDescriptorSets ⟨point, 0, [some ⟨handle, [⟨.uniformBuffer, 1⟩], false⟩], []⟩

/-- A draw of one triangle. -/
def uniformDraw : BoundCommand :=
  .draw ⟨3, 1, none, plainDynamic, uniformReading, true, fun tables =>
    some (tables.flatMap fun table => table.entries.flatMap (·.2))⟩

/-- A set bound for draws and another for dispatches, before the draw. -/
def bindBoth : List BoundCommand :=
  [.bindPipeline ⟨plainPipeline, [uniformStage]⟩, bindUniform .graphics 1, bindUniform .compute 2,
    .other (.beginRendering (colourInfo (tiledImage 0x10000 1 1)))]

theorem bindBoth_draw_reads_compute :
    ¬ReadsOwnBinds plainDevice (bindBoth ++ [uniformDraw]) := by
  intro h
  have hread := h bindBoth uniformDraw [] _ rfl rfl rfl ⟨0, by decide⟩ (by decide)
  have hhandle := congrArg (fun slot => slot.set.map (·.handle)) hread
  revert hhandle
  decide

end Ps5Vulkan.Record
