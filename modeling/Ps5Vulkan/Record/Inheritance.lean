import Ps5Vulkan.Record.Recorder
import Mathlib.Data.List.Induction

/-!
# What a draw inherits

Context registers keep their value from one draw to the next, so a register a draw's table leaves out
holds what an earlier draw of the step put there. This module says which registers decide how a draw
rasterizes and what it writes, and that each of them is the draw's own as long as no draw of the step
has fewer multisample words than one before it, and none enables a depth bias without a depth
attachment after one that recorded the bias.

## Implementation notes

AGC's shader tables and its defaults are not the driver's: what they have to keep for this is a named
hypothesis on the pipelines and on the registers a step starts with.
-/

variable (left : Bool) (first second : List Event)

namespace Ps5Vulkan.Record

open RegisterFile

/-- The registers of the multisample words, those of eight samples last. -/
def multisampleOffsets : List Nat :=
  [0x2f8, 0x292, 0x201, 0x2fe, 0x302, 0x306, 0x30a, 0x2f5, 0x2f6, 0x30e, 0x30f, 0x2ff, 0x303, 0x307,
   0x30b]

/-- The registers of a depth target. -/
def depthOffsets : List Nat :=
  [0x010, 0x011, 0x012, 0x013, 0x014, 0x015, 0x01a, 0x01b, 0x01c, 0x01d, 0x01e, 0x002, 0x005, 0x007,
   0x00b, 0x00a]

/-- The registers of the stencil state. -/
def stencilOffsets : List Nat := [0x10b, 0x10c, 0x10d]

/-- The registers of the viewport and the scissor, whose block ends in the target mask. -/
def viewportOffsets : List Nat :=
  [0x10f, 0x110, 0x111, 0x112, 0x113, 0x114, 0x0b4, 0x0b5, 0x2fa, 0x2fb, 0x2fc, 0x2fd, 0x090, 0x091,
   0x08e]

/-- The registers of the blend constants. -/
def constantOffsets : List Nat := [0x105, 0x106, 0x107, 0x108]

/-- The registers of the polygon offset. -/
def polyOffsets : List Nat := [0x2de, 0x2df, 0x2e0, 0x2e1, 0x2e2, 0x2e3]

/-- The registers of a line. -/
def lineOffsets : List Nat := [0x29b, 0x282, 0x2f7]

/-- The registers only some draws write. -/
def partialOffsets : List Nat :=
  multisampleOffsets ++ depthOffsets ++ [depthControlRegister] ++ polyOffsets

/-- The first colour target's registers. -/
def colourOffsets : List Nat := targetColumn ⟨0, maxColorAttachments_pos⟩

/-- A draw's shader tables. -/
def Pipeline.tables (pipeline : Pipeline) : List Register :=
  pipeline.linked ++ pipeline.vertexTable ++ pipeline.pixelTable

/-- What AGC's tables for a pipeline keep: they write none of the registers only some draws write,
and they write the shader mask. -/
structure Pipeline.TablesOwn (pipeline : Pipeline) : Prop where
  apart : ∀ r ∈ partialOffsets, r ∉ written pipeline.tables
  shaderMask : 0x08f ∈ written pipeline.tables

/-- The registers that decide how a draw rasterizes and what it writes, those its own words make
inert left out. -/
inductive Decides (pass : Pass) (pipeline : Pipeline) (dynamic : DynamicState) (r : Nat) : Prop
  | colourTarget (h : r ∈ colourOffsets)
  | multisample (h : r ∈ multisampleOffsets)
  | depthControl (h : r = depthControlRegister)
  | depthTarget (h : r ∈ depthOffsets) (hbound : pass.depth.isSome)
  | stencil (h : r ∈ stencilOffsets) (hbound : pass.stencilBound) (htest : dynamic.stencilTest)
  | viewport (h : r ∈ viewportOffsets)
  | masks (h : r = 0x08e ∨ r = 0x08f)
  | blend (h : r = 0x1e0 ∨ r = 0x202)
  | blendConstants (h : r ∈ constantOffsets) (huses : pipeline.blendUsesConstants)
  | rasterizer (h : r = 0x205)
  | clip (h : r = 0x204)
  | polyOffset (h : r ∈ polyOffsets) (hbias : dynamic.depthBias)
  | line (h : r ∈ lineOffsets) (hline : pipeline.lineRasterizer)

theorem written_multisampleRegisters (samples : Nat) : written (multisampleRegisters samples) =
      multisampleOffsets.take (multisampleRegisters samples).length := by
  by_cases hmulti : multisampled samples
  · by_cases height : samples = 8
    · subst height
      rfl
    · simp [multisampleRegisters, hmulti, height, multisampleOffsets]
  · simp [multisampleRegisters, hmulti]

/-- What begin-rendering leaves a rendering with, whichever view is selected. -/
structure Pass.Built (pass : Pass) : Prop where
  colour : pass.colour.length ≤ 1
  targets : written pass.targetRows.flatten = colourOffsets
  multisample : written pass.multisample = multisampleOffsets.take pass.multisample.length
  depth : pass.depth.isSome → written pass.depthTable = depthOffsets

theorem written_viewportRegisters (viewport : Viewport) (scissor : Scissor) :
    written (viewportRegisters viewport scissor) = viewportOffsets := rfl

/-- The registers a draw's table writes. -/
theorem mem_written_drawTable {flags : AbFlags} {pass : Pass} {pipeline : Pipeline}
    {dynamic : DynamicState} (hbuilt : pass.Built) {r : Nat} : r ∈ written (drawTable flags pass pipeline dynamic) ↔
      r ∈ colourOffsets ∨ r ∈ multisampleOffsets.take pass.multisample.length ∨
      (pass.depth.isSome ∧ (r ∈ depthOffsets ∨ r = depthControlRegister ∨
        ((pass.stencilBound && dynamic.stencilTest) = true ∧ r ∈ stencilOffsets))) ∨
      r ∈ viewportOffsets ∨ r ∈ written pipeline.tables ∨ r = 0x08e ∨
      (pipeline.colourWriteMask = 0 ∧ r = 0x08f) ∨ (r = 0x1e0 ∨ r = 0x202) ∨
      (pipeline.blendUsesConstants ∧ r ∈ constantOffsets) ∨ r = 0x205 ∨
      (flags.pixCenter ∧ r = 0x2f9) ∨ r = 0x204 ∨ (recordsOffset pass dynamic ∧ r ∈ polyOffsets) ∨
      (pipeline.lineRasterizer ∧ r ∈ lineOffsets) := by
  have hdepth : r ∈ written (depthBlock flags pass dynamic) ↔
      pass.depth.isSome ∧ (r ∈ depthOffsets ∨ r = depthControlRegister ∨
        ((pass.stencilBound && dynamic.stencilTest) = true ∧ r ∈ stencilOffsets)) := by
    unfold depthBlock
    rw [mem_written_ite]
    refine and_congr_right fun hbound => ?_
    rw [written_append, written_append, hbuilt.depth hbound, List.mem_append, List.mem_append,
      mem_written_ite, or_assoc]
    exact or_congr_right (or_congr_left List.mem_singleton)
  have hmask : r ∈ written (maskBlock flags pipeline) ↔ r = 0x08e ∨ (pipeline.colourWriteMask = 0 ∧ r = 0x08f) := by
    unfold maskBlock
    rw [written_cons, List.mem_cons, mem_written_ite]
    exact or_congr_right (and_congr_right fun _ => List.mem_singleton)
  have hblend : r ∈ written (blendBlock flags pipeline dynamic) ↔
      (r = 0x1e0 ∨ r = 0x202) ∨ (pipeline.blendUsesConstants ∧ r ∈ constantOffsets) := by
    unfold blendBlock
    rw [written_append, List.mem_append, mem_written_ite]
    exact or_congr_left List.mem_pair
  have hraster : r ∈ written (rasterBlock flags pass pipeline dynamic) ↔
      r = 0x205 ∨ (flags.pixCenter ∧ r = 0x2f9) ∨ r = 0x204 ∨
      (recordsOffset pass dynamic ∧ r ∈ polyOffsets) ∨
      (pipeline.lineRasterizer ∧ r ∈ lineOffsets) := by
    simp only [rasterBlock, written_append, List.mem_append, mem_written_ite, written_cons,
      written_nil, List.mem_singleton, or_assoc]
    rfl
  unfold drawTable
  rw [show pipeline.linked ++ pipeline.vertexTable ++ pipeline.pixelTable = pipeline.tables from rfl]
  simp only [written_append, List.mem_append, hdepth, hmask, hblend, hraster, hbuilt.targets,
    hbuilt.multisample, written_viewportRegisters, or_assoc]

theorem length_of_mapM {α β : Type} {f : α → Option β} {xs : List α} {ys : List β}
    (h : xs.mapM f = some ys) : ys.length = xs.length := by
  induction xs generalizing ys with
  | nil =>
    cases h
    rfl
  | cons x rest ih =>
    rw [List.mapM_cons] at h
    obtain ⟨y, -, hrest⟩ := Option.bind_eq_some_iff.1 h
    obtain ⟨tail, htail, hys⟩ := Option.bind_eq_some_iff.1 hrest
    cases hys
    simp only [List.length_cons, ih htail]

theorem written_defaultTargetRegisters {defaults : Defaults} {target : Fin maxColorAttachments}
    {row : List Register} (h : defaultTargetRegisters defaults target = some row) :
    written row = targetColumn target := by
  obtain ⟨values, hvalues, rfl⟩ := Option.map_eq_some_iff.1 h
  refine List.map_fst_zip (Nat.le_of_eq ?_)
  rw [length_of_mapM hvalues]
  simp only [targetColumn, List.length_map]

theorem written_targetRegisters {defaults : Defaults} {address samples : Nat} {width height : UInt32}
    {colour : ColourFormat} {linear : Bool} {target : Fin maxColorAttachments} {row : List Register}
    (h : targetRegisters defaults address width height colour samples linear target = some row) :
    written row = targetColumn target := by
  obtain ⟨records, hrecords, rfl⟩ := Option.map_eq_some_iff.1 h
  rw [← written_defaultTargetRegisters hrecords]
  refine List.ext_getElem? fun index => ?_
  simp only [written, List.getElem?_map, List.getElem?_mapIdx, Option.map_map]
  rfl

theorem colourAttachment_row {defaults : Defaults} {info : RenderingInfo}
    {target : Fin maxColorAttachments} {attachment : Attachment} {colour : ViewTarget}
    {row : List Register} {image : Image}
    (h : colourAttachment defaults info target attachment = .ok (colour, row, image)) :
    written row = targetColumn target := by
  unfold colourAttachment at h
  simp only [throw, throwThe, MonadExceptOf.throw, pure, Except.pure] at h
  split at h
  · cases h
  · split at h
    · split at h
      · cases h
      · split at h
        · cases h
        · rename_i registers hregisters
          cases h
          exact written_targetRegisters hregisters
    · cases h

/-- Every rendering that is begun is built. -/
theorem Begun.built {defaults : Defaults} {info : RenderingInfo} {pass : Pass}
    {targets : List Queue.RenderTarget} (h : Begun defaults info pass targets) : pass.Built := by
  have hdepth : pass.depth.isSome → written pass.depthTable = depthOffsets := by
    intro hsome
    obtain ⟨depth, hdepth⟩ := Option.isSome_iff_exists.1 hsome
    rw [h.depthTable, hdepth]
    rfl
  rcases h.attachments with ⟨row, target, -, hrow, hcolour, hrows, hmulti, -⟩ |
    ⟨attachment, colour, row, image, hrow, hcolour, hrows, hmulti, -⟩
  · refine ⟨by simp [hcolour], ?_, ?_, hdepth⟩
    · rw [hrows, List.flatten_singleton]
      exact written_defaultTargetRegisters hrow
    · rw [hmulti]
      exact written_multisampleRegisters _
  · refine ⟨by simp [hcolour], ?_, ?_, hdepth⟩
    · rw [hrows, List.flatten_singleton]
      exact colourAttachment_row hrow
    · rw [hmulti]
      exact written_multisampleRegisters _

/-- Selecting a view writes the same registers. -/
theorem Pass.Built.selectView {defaults : Defaults} {pass pass' : Pass} {view : Nat}
    (h : pass.Built) (hview : selectView defaults pass view = some pass') : pass'.Built := by
  obtain ⟨rows, hrows, rfl⟩ := Option.map_eq_some_iff.1 hview
  refine ⟨h.colour, ?_, h.multisample, fun hsome => ?_⟩
  · split at hrows
    · cases hrows
      exact h.targets
    · obtain ⟨target, hcolour⟩ : ∃ target, pass.colour = [target] := by
        rcases hlist : pass.colour with _ | ⟨target, rest⟩
        · contradiction
        · have hlength := h.colour
          rw [hlist, List.length_cons] at hlength
          exact ⟨target, by rw [List.length_eq_zero_iff.1 (Nat.le_zero.1 (Nat.le_of_succ_le_succ hlength))]⟩
      rw [hcolour] at hrows
      obtain ⟨row, hrow, hrest⟩ := Option.bind_eq_some_iff.1 hrows
      cases hrest
      change written ([row].flatten) = colourOffsets
      rw [List.flatten_singleton]
      exact written_targetRegisters hrow
  · obtain ⟨depth, hdepth⟩ := Option.isSome_iff_exists.1 hsome
    dsimp only at hdepth ⊢
    rw [hdepth]
    rfl

/-- The table an event loads into the context registers. -/
def Event.table? (flags : AbFlags) : Event → Option (List Register)
  | .draw pass pipeline dynamic => some (drawTable flags pass pipeline dynamic)
  | .depthReset => some depthResetTable
  | _ => none

/-- The context registers after a history, from those a step starts with. -/
def registersAfter (flags : AbFlags) (initial : Nat → UInt32) (events : List Event) : Nat → UInt32 :=
  run initial (events.filterMap (Event.table? flags))

/-- Whether an event loads a table. -/
def Event.isTable : Event → Bool
  | .draw .. | .depthReset => true
  | _ => false

/-- Whether a depth control is left behind an event, given whether one was before it. -/
def Event.leavesDepth : Event → Bool
  | .draw pass _ _ => left || pass.depth.isSome
  | .depthReset => false
  | _ => left

/-- Whether a history leaves the depth control of a rendering it did not reset. -/
def depthLeft (events : List Event) : Bool :=
  events.foldl Event.leavesDepth left

/-- No draw without a depth attachment finds a depth control left behind. -/
def DepthClosed (left : Bool) : List Event → Prop
  | [] => True
  | event :: rest =>
    (∀ pass pipeline dynamic, event = .draw pass pipeline dynamic → pass.depth = none →
      left = false) ∧ DepthClosed (event.leavesDepth left) rest

theorem depthLeft_append : depthLeft left (first ++ second) = depthLeft (depthLeft left first) second :=
  List.foldl_append

theorem depthClosed_append : DepthClosed left (first ++ second) ↔
      DepthClosed left first ∧ DepthClosed (depthLeft left first) second := by
  induction first generalizing left with
  | nil => simp [DepthClosed, depthLeft]
  | cons event rest ih =>
    rw [List.cons_append, DepthClosed, ih, DepthClosed, and_assoc]
    rfl

/-- What was left before a history matters only until it resets it. -/
theorem DepthClosed.mono {left left' : Bool} {events : List Event} (h : DepthClosed left events)
    (hle : left = false → left' = false) : DepthClosed left' events := by
  induction events generalizing left left' with
  | nil => trivial
  | cons event rest ih =>
    refine ⟨fun pass pipeline dynamic heq hnone => hle (h.1 pass pipeline dynamic heq hnone),
      ih h.2 ?_⟩
    cases event with
    | draw pass pipeline dynamic =>
      simp only [Event.leavesDepth, Bool.or_eq_false_iff]
      exact And.imp_left hle
    | depthReset => exact id
    | sampled image reported | barrier | split => exact hle

/-- What a recording keeps of its draws' tables and of the depth control. -/
structure Settled (r : Recorder) : Prop where
  built : ∀ pass pipeline dynamic, .draw pass pipeline dynamic ∈ r.events → pass.Built
  closed : DepthClosed false r.events
  left : depthLeft false r.events = true → r.rendering = true ∧ r.pass.depth.isSome
  pass : r.rendering = true → r.pass.Built

section Moves

variable {device : Device} {r r' : Recorder}

/-- An event that is neither a draw nor a reset leaves the context registers. -/
theorem Settled.other (h : Settled r) {last : Event} (hevents : r'.events = r.events ++ [last])
    (hlast : last.isTable = false) (hrendering : r'.rendering = r.rendering)
    (hpass : r'.pass = r.pass) : Settled r' := by
  have hleaves : ∀ left, last.leavesDepth left = left := by
    intro left
    cases last <;> first | rfl | cases hlast
  refine ⟨?_, ?_, ?_, ?_⟩
  · rw [hevents]
    intro pass pipeline dynamic hmem
    rcases List.mem_append.1 hmem with hmem | hmem
    · exact h.built pass pipeline dynamic hmem
    · cases List.mem_singleton.1 hmem
      cases hlast
  · rw [hevents, depthClosed_append]
    refine ⟨h.closed, ?_, trivial⟩
    rintro pass pipeline dynamic rfl
    cases hlast
  · rw [hevents, depthLeft_append, hrendering, hpass]
    change last.leavesDepth (depthLeft false r.events) = true → _
    rw [hleaves]
    exact h.left
  · rw [hrendering, hpass]
    exact h.pass

theorem Settled.draw (h : Settled r) (hrendering : r.rendering = true) (draw : Draw)
    (words : List UInt32) : Settled (r.appendDraw draw words) := by
  refine ⟨?_, ?_, ?_, h.pass⟩
  · intro pass pipeline dynamic hmem
    rcases List.mem_append.1 hmem with hmem | hmem
    · exact h.built pass pipeline dynamic hmem
    · cases List.mem_singleton.1 hmem
      exact h.pass hrendering
  · refine (depthClosed_append ..).2 ⟨h.closed, ?_, trivial⟩
    intro pass pipeline dynamic heq hnone
    cases heq
    by_contra hleft
    have hsome := (h.left (by simpa using hleft)).2
    rw [hnone] at hsome
    cases hsome
  · change depthLeft false (r.events ++ [_]) = true → _
    rw [depthLeft_append]
    intro hleft
    rcases Bool.or_eq_true_iff.1 hleft with hbefore | hsome
    · exact h.left hbefore
    · exact ⟨hrendering, hsome⟩

/-- Leaving a rendering resets the depth control its draws left. -/
theorem Settled.finish (h : Settled r) (hnone : r.refused = none)
    (hnone' : (r.endRendering device).refused = none) : Settled (r.endRendering device) := by
  by_cases hbound : r.pass.depth.isSome
  · have hcond : r.pass.depth.isSome ∧ r.refused.isNone := ⟨hbound, by rw [hnone]; rfl⟩
    cases hwords : device.depthReset with
    | none =>
      rw [Recorder.endRendering, Recorder.resetDepth, if_pos hcond, hwords] at hnone'
      cases hnone'
    | some words =>
      rw [Recorder.endRendering, Recorder.resetDepth, if_pos hcond, hwords]
      refine ⟨?_, (depthClosed_append _ r.events [.depthReset]).2 ⟨h.closed, ?_, trivial⟩, ?_, nofun⟩
      · intro pass pipeline dynamic hmem
        rcases List.mem_append.1 hmem with hmem | hmem
        · exact h.built pass pipeline dynamic hmem
        · cases List.mem_singleton.1 hmem
      · intro pass pipeline dynamic heq
        cases heq
      · change depthLeft false (r.events ++ [.depthReset]) = true → _
        rw [depthLeft_append]
        exact nofun
  · rw [Recorder.endRendering, Recorder.resetDepth, if_neg fun hcond => hbound hcond.1]
    exact ⟨h.built, h.closed, fun hleft => absurd (h.left hleft).2 hbound, nofun⟩

theorem selectView_depth {defaults : Defaults} {pass pass' : Pass} {view : Nat}
    (h : selectView defaults pass view = some pass') : pass'.depth = pass.depth := by
  obtain ⟨rows, -, rfl⟩ := Option.map_eq_some_iff.1 h
  rfl

theorem Settled.move (hmove : Move device (fun _ => True) r r')
    (h : r.refused = none → Settled r) (hnone' : r'.refused = none) : Settled r' := by
  cases hmove with
  | idle _ hsome _ =>
    rw [hnone'] at hsome
    cases hsome
  | refuse reason => cases hnone'
  | sample image hnone => exact (h hnone).other rfl rfl rfl rfl
  | barrier hnone =>
    unfold Recorder.gpuBarrier
    split <;> exact (h hnone).other rfl rfl rfl rfl
  | view hnone hview =>
    refine ⟨(h hnone).built, (h hnone).closed, ?_, fun hrendering =>
      ((h hnone).pass hrendering).selectView hview⟩
    rw [selectView_depth hview]
    exact (h hnone).left
  | draw draw words hnone hrendering => exact (h hnone).draw hrendering draw words
  | words words hnone => exact ⟨(h hnone).built, (h hnone).closed, (h hnone).left, (h hnone).pass⟩
  | target target hnone => exact ⟨(h hnone).built, (h hnone).closed, (h hnone).left, (h hnone).pass⟩
  | record copy hnone => exact (h hnone).other rfl rfl rfl rfl
  | start hnone hout _ hbegin =>
    refine ⟨(h hnone).built, (h hnone).closed, fun hleft => ?_, fun _ =>
      (begun_of_beginPass hbegin).built⟩
    exact absurd ((h hnone).left hleft).1 hout
  | finish hnone => exact (h hnone).finish hnone hnone'

end Moves

/-- A command buffer recorded to its end: accepted, and outside a rendering. -/
structure Recording (device : Device) where
  commands : List Command
  recorder : Recorder
  run : Recorder.run device commands = some recorder
  accepted : recorder.refused = none
  ended : recorder.rendering = false

theorem Recording.settled {device : Device} (recording : Recording device) : Settled recording.recorder := by
  refine Recorder.run_induction device (fun _ => True) (P := fun r => r.refused = none → Settled r)
    (fun _ => ⟨?_, trivial, nofun, nofun⟩) (fun _ _ hmove h => Settled.move hmove h)
    (fun _ _ => trivial) recording.run recording.accepted
  intro pass pipeline dynamic hmem
  cases hmem

/-- The events of command buffers submitted one after the other. -/
def submittedEvents {device : Device} (recordings : List (Recording device)) : List Event :=
  recordings.flatMap fun recording => recording.recorder.events

/-- Command buffers leave no depth control to the next one. -/
theorem depthClosed_submittedEvents {device : Device} (recordings : List (Recording device)) :
    DepthClosed false (submittedEvents recordings) := by
  induction recordings with
  | nil => trivial
  | cons recording rest ih =>
    have hsettled := recording.settled
    have hleft : depthLeft false recording.recorder.events = false := by
      by_contra hleft
      have hin := (hsettled.left (by simpa using hleft)).1
      rw [recording.ended] at hin
      cases hin
    refine (depthClosed_append ..).2 ⟨hsettled.closed, ?_⟩
    rw [hleft]
    exact ih

/-- What one submitted step runs: events that follow one another in the command buffers of a
submission. -/
def StepEvents (device : Device) (events : List Event) : Prop :=
  ∃ recordings : List (Recording device), events <:+: submittedEvents recordings

theorem StepEvents.depthClosed {device : Device} {events : List Event}
    (h : StepEvents device events) : DepthClosed false events := by
  obtain ⟨recordings, before, after, hsplit⟩ := h
  have hclosed := depthClosed_submittedEvents recordings
  rw [← hsplit, depthClosed_append, depthClosed_append] at hclosed
  exact hclosed.1.2.mono fun _ => rfl

theorem StepEvents.built {device : Device} {events : List Event} (h : StepEvents device events)
    {pass : Pass} {pipeline : Pipeline} {dynamic : DynamicState}
    (hmem : .draw pass pipeline dynamic ∈ events) : pass.Built := by
  obtain ⟨recordings, hinside⟩ := h
  obtain ⟨recording, -, hevent⟩ := List.mem_flatMap.1 (hinside.subset hmem)
  exact recording.settled.built pass pipeline dynamic hevent

/-- What a draw has to keep after an earlier draw of its step: it has no fewer multisample words, and
no depth bias without a depth attachment where the earlier one recorded the bias. -/
def Event.Follows : Event → Event → Prop
  | .draw pass _ dynamic, .draw pass' _ dynamic' =>
    pass.multisample.length ≤ pass'.multisample.length ∧
      (recordsOffset pass dynamic = true → dynamic'.depthBias = true → pass'.depth.isSome)
  | _, _ => True

/-- The pipelines of a step have AGC's tables as they are assumed. -/
def TablesOwn (events : List Event) : Prop :=
  ∀ pass pipeline dynamic, .draw pass pipeline dynamic ∈ events → pipeline.TablesOwn

section Step

variable {flags : AbFlags} {initial : Nat → UInt32} {events : List Event}

theorem registersAfter_append : registersAfter flags initial (first ++ second) =
      registersAfter flags (registersAfter flags initial first) second := by
  simp only [registersAfter, List.filterMap_append, run_append]

theorem registersAfter_draw (pass : Pass) (pipeline : Pipeline) (dynamic : DynamicState) :
    registersAfter flags initial [.draw pass pipeline dynamic] =
      load initial (drawTable flags pass pipeline dynamic) := rfl

/-- A register no event's table writes keeps what the step started with. -/
theorem registersAfter_of_notMem {r : Nat} (hreset : r ≠ depthControlRegister)
    (h : ∀ pass pipeline dynamic, .draw pass pipeline dynamic ∈ events →
      r ∉ written (drawTable flags pass pipeline dynamic)) : registersAfter flags initial events r = initial r := by
  refine run_of_notMem (fun table hmem => ?_) initial
  obtain ⟨event, hevent, htable⟩ := List.mem_filterMap.1 hmem
  cases event with
  | draw pass pipeline dynamic =>
    cases htable
    exact h pass pipeline dynamic hevent
  | depthReset =>
    cases htable
    simpa [depthResetTable] using hreset
  | sampled image reported | barrier | split => cases htable

/-- No block that every draw has, and none of the state the draw alone reads, writes a register only
some draws write. -/
theorem partialOffsets_apart : ∀ r ∈ partialOffsets, r ∉ colourOffsets ∧ r ∉ stencilOffsets ∧
    r ∉ viewportOffsets ∧ r ≠ 0x08e ∧ r ≠ 0x08f ∧ (r ≠ 0x1e0 ∧ r ≠ 0x202) ∧ r ∉ constantOffsets ∧
    r ≠ 0x205 ∧ r ≠ 0x2f9 ∧ r ≠ 0x204 ∧ r ∉ lineOffsets := by
  decide

/-- A register only some draws write is one of a block the draw has. -/
theorem mem_drawTable_partial {pass : Pass} {pipeline : Pipeline} {dynamic : DynamicState}
    (hbuilt : pass.Built) (hown : pipeline.TablesOwn) {r : Nat} (hr : r ∈ partialOffsets)
    (h : r ∈ written (drawTable flags pass pipeline dynamic)) : r ∈ multisampleOffsets.take pass.multisample.length ∨
      (pass.depth.isSome ∧ (r ∈ depthOffsets ∨ r = depthControlRegister)) ∨
      (recordsOffset pass dynamic ∧ r ∈ polyOffsets) := by
  obtain ⟨hcolour, hstencil, hviewport, hmask, hshader, hblend, hconstant, hraster, hvertex, hclip,
    hline⟩ := partialOffsets_apart r hr
  rcases (mem_written_drawTable hbuilt).1 h with h | h | ⟨hbound, h | h | ⟨-, h⟩⟩ | h | h | h | ⟨-, h⟩ |
    (h | h) | ⟨-, h⟩ | h | ⟨-, h⟩ | h | h | ⟨-, h⟩
  · exact absurd h hcolour
  · exact Or.inl h
  · exact Or.inr (Or.inl ⟨hbound, Or.inl h⟩)
  · exact Or.inr (Or.inl ⟨hbound, Or.inr h⟩)
  · exact absurd h hstencil
  · exact absurd h hviewport
  · exact absurd h (hown.apart r hr)
  · exact absurd h hmask
  · exact absurd h hshader
  · exact absurd h hblend.1
  · exact absurd h hblend.2
  · exact absurd h hconstant
  · exact absurd h hraster
  · exact absurd h hvertex
  · exact absurd h hclip
  · exact Or.inr (Or.inr h)
  · exact absurd h hline

/-- The depth control is zero wherever no rendering left it. -/
theorem depthControl_registersAfter (hbuilt : ∀ pass pipeline dynamic,
      .draw pass pipeline dynamic ∈ events → pass.Built) (hown : TablesOwn events)
    (hinitial : initial depthControlRegister = 0) (hleft : depthLeft false events = false) :
    registersAfter flags initial events depthControlRegister = 0 := by
  induction events using List.reverseRecOn with
  | nil => exact hinitial
  | append_singleton before last ih =>
    rw [depthLeft_append] at hleft
    have hbefore : depthLeft false before = false → registersAfter flags initial before depthControlRegister = 0 :=
      ih (fun pass pipeline dynamic hmem =>
          hbuilt pass pipeline dynamic (List.mem_append_left _ hmem))
        fun pass pipeline dynamic hmem =>
          hown pass pipeline dynamic (List.mem_append_left _ hmem)
    rw [registersAfter_append]
    cases last with
    | draw pass pipeline dynamic =>
      have hmem : Event.draw pass pipeline dynamic ∈ before ++ [.draw pass pipeline dynamic] := by
        simp
      obtain ⟨hkept, hdepth⟩ := Bool.or_eq_false_iff.1 hleft
      rw [registersAfter_draw, load_of_notMem fun hwritten => ?_]
      · exact hbefore hkept
      · rcases mem_drawTable_partial (hbuilt _ _ _ hmem) (hown _ _ _ hmem)
          (by decide : depthControlRegister ∈ partialOffsets) hwritten with h | ⟨hsome, -⟩ | ⟨-, h⟩
        · exact absurd (List.mem_of_mem_take h) (by decide)
        · rw [hdepth] at hsome
          cases hsome
        · exact absurd h (by decide)
    | depthReset => rfl
    | sampled image reported | barrier | split => exact hbefore hleft

/-- A multisample register that a draw leaves out was written by no earlier draw with no more
multisample words. -/
theorem multisample_notMem {pass pass' : Pass} {pipeline : Pipeline} {dynamic : DynamicState}
    (hbuilt : pass.Built) (hown : pipeline.TablesOwn)
    (hle : pass.multisample.length ≤ pass'.multisample.length) {r : Nat}
    (hr : r ∈ multisampleOffsets) (hout : r ∉ multisampleOffsets.take pass'.multisample.length) :
    r ∉ written (drawTable flags pass pipeline dynamic) := by
  have hapart : ∀ r ∈ multisampleOffsets, r ∈ partialOffsets ∧ r ∉ depthOffsets ∧
      r ≠ depthControlRegister ∧ r ∉ polyOffsets := by decide
  obtain ⟨hshared, hdepth, hcontrol, hpoly⟩ := hapart r hr
  intro hwritten
  rcases mem_drawTable_partial hbuilt hown hshared hwritten with h | ⟨-, h | h⟩ | ⟨-, h⟩
  · exact hout ((List.take_prefix_take_left hle).subset h)
  · exact hdepth h
  · exact hcontrol h
  · exact hpoly h

/-- A polygon-offset register is written by the draws that record the offset alone. -/
theorem polyOffset_notMem {pass : Pass} {pipeline : Pipeline} {dynamic : DynamicState}
    (hbuilt : pass.Built) (hown : pipeline.TablesOwn) (hrecords : recordsOffset pass dynamic = false)
    {r : Nat} (hr : r ∈ polyOffsets) : r ∉ written (drawTable flags pass pipeline dynamic) := by
  have hapart : ∀ r ∈ polyOffsets, r ∈ partialOffsets ∧ r ∉ multisampleOffsets ∧ r ∉ depthOffsets ∧
      r ≠ depthControlRegister := by decide
  obtain ⟨hshared, hmulti, hdepth, hcontrol⟩ := hapart r hr
  intro hwritten
  rcases mem_drawTable_partial hbuilt hown hshared hwritten with h | ⟨-, h | h⟩ | ⟨h, -⟩
  · exact hmulti (List.mem_of_mem_take h)
  · exact hdepth h
  · exact hcontrol h
  · rw [hrecords] at h
    cases h

end Step

/-- A register that decides a draw is one its table writes, or one of the three kinds a table can
leave out. -/
theorem Decides.written_or {flags : AbFlags} {pass : Pass} {pipeline : Pipeline}
    {dynamic : DynamicState} (hbuilt : pass.Built) (hown : pipeline.TablesOwn) {r : Nat}
    (h : Decides pass pipeline dynamic r) : r ∈ written (drawTable flags pass pipeline dynamic) ∨
      (r ∈ multisampleOffsets ∧ r ∉ multisampleOffsets.take pass.multisample.length) ∨
      (r = depthControlRegister ∧ pass.depth = none) ∨ (r ∈ polyOffsets ∧ dynamic.depthBias ∧ pass.depth = none) := by
  rw [mem_written_drawTable hbuilt]
  cases h with
  | multisample h =>
    by_cases htake : r ∈ multisampleOffsets.take pass.multisample.length
    · simp [htake]
    · exact Or.inr (Or.inl ⟨h, htake⟩)
  | depthControl h => cases hbound : pass.depth <;> simp [h]
  | polyOffset h hbias => cases hbound : pass.depth <;> simp [h, hbias, hbound, recordsOffset]
  | stencil h hbound htest =>
    obtain ⟨depth, hdepth, -⟩ := (Option.any_eq_true _ _).1 hbound
    simp [h, hbound, htest, hdepth]
  | masks h => rcases h with rfl | rfl <;> simp [hown.shaderMask]
  | colourTarget h | viewport h | blend h | rasterizer h | clip h => simp [h]
  | depthTarget h hset | blendConstants h hset | line h hset => simp [h, hset]

/-- In every step whose draws follow one another so, each register that decides a draw has the value
it has when the draw runs alone from the registers the step started with. -/
theorem draw_registers_own (device : Device) (events : List Event)
    (hstep : StepEvents device events) (hfollows : events.Pairwise Event.Follows)
    (hown : TablesOwn events) (initial : Nat → UInt32)
    (hinitial : initial depthControlRegister = 0) :
    ∀ before pass pipeline dynamic after, events = before ++ .draw pass pipeline dynamic :: after →
      ∀ r, Decides pass pipeline dynamic r →
        registersAfter device.flags initial (before ++ [.draw pass pipeline dynamic]) r =
          registersAfter device.flags initial [.draw pass pipeline dynamic] r := by
  rintro before pass pipeline dynamic after rfl r hdecides
  have hdraw : Event.draw pass pipeline dynamic ∈
      before ++ .draw pass pipeline dynamic :: after := by simp
  have hbefore : ∀ pass' pipeline' dynamic', .draw pass' pipeline' dynamic' ∈ before →
      pass'.Built ∧ pipeline'.TablesOwn ∧
        Event.Follows (.draw pass' pipeline' dynamic') (.draw pass pipeline dynamic) := by
    intro pass' pipeline' dynamic' hmem
    have hall := List.mem_append_left (.draw pass pipeline dynamic :: after) hmem
    exact ⟨hstep.built hall, hown _ _ _ hall,
      (List.pairwise_append.1 hfollows).2.2 _ hmem _ (List.mem_cons_self ..)⟩
  rw [registersAfter_append, registersAfter_draw, registersAfter_draw]
  -- A register of the draw's own table is the draw's; the others kept what the step started with.
  rcases hdecides.written_or (hstep.built hdraw) (hown _ _ _ hdraw) with
    hwritten | ⟨h, htake⟩ | ⟨h, hnone⟩ | ⟨h, hbias, hnone⟩
  · exact load_of_mem hwritten _ _
  · refine load_congr (registersAfter_of_notMem ?_ fun pass' pipeline' dynamic' hmem => ?_)
    · rintro rfl
      exact absurd h (by decide)
    · obtain ⟨hbuilt', hown', hle, -⟩ := hbefore pass' pipeline' dynamic' hmem
      exact multisample_notMem hbuilt' hown' hle h htake
  · have hclosed := hstep.depthClosed
    rw [depthClosed_append] at hclosed
    refine load_congr ?_
    rw [h, hinitial]
    exact depthControl_registersAfter (fun _ _ _ hmem => (hbefore _ _ _ hmem).1)
      (fun _ _ _ hmem => (hbefore _ _ _ hmem).2.1) hinitial (hclosed.2.1 _ _ _ rfl hnone)
  · refine load_congr (registersAfter_of_notMem ?_ fun pass' pipeline' dynamic' hmem => ?_)
    · rintro rfl
      exact absurd h (by decide)
    · obtain ⟨hbuilt', hown', -, hoffset⟩ := hbefore pass' pipeline' dynamic' hmem
      refine polyOffset_notMem hbuilt' hown' ?_ h
      by_contra hrecords
      simpa [hnone] using hoffset (by simpa using hrecords) hbias

/-- Two renderings of one draw each, into images of these sample counts. -/
def twoRenderings (first second : Nat) : List Command :=
  [.beginRendering (colourInfo (tiledImage 0x100000 1 first)), .draw (plainDraw []), .endRendering,
   .beginRendering (colourInfo (tiledImage 0x200000 1 second)), .draw (plainDraw []), .endRendering]

theorem plainPipeline_tablesOwn : plainPipeline.TablesOwn :=
  ⟨by decide, by decide⟩

theorem draw_registers_own_twoRenderings :
    ∃ r pass pass', Recorder.run plainDevice (twoRenderings 1 4) = some r ∧
      r.events = [.draw pass plainPipeline plainDynamic, .draw pass' plainPipeline plainDynamic] ∧
      ∀ register, Decides pass' plainPipeline plainDynamic register →
        registersAfter plainDevice.flags (fun _ => 0) r.events register =
          registersAfter plainDevice.flags (fun _ => 0)
            [.draw pass' plainPipeline plainDynamic] register := by
  have hown : ∀ pass pass' : Pass, TablesOwn
      [.draw pass plainPipeline plainDynamic, .draw pass' plainPipeline plainDynamic] := by
    intro pass pass' _ pipeline _ hmem
    simp only [List.mem_cons, List.not_mem_nil, or_false, Event.draw.injEq] at hmem
    rcases hmem with ⟨-, rfl, -⟩ | ⟨-, rfl, -⟩ <;> exact plainPipeline_tablesOwn
  refine ⟨_, _, _, rfl, rfl, ?_⟩
  refine draw_registers_own plainDevice _
    ⟨[⟨twoRenderings 1 4, _, rfl, rfl, rfl⟩], List.infix_refl _⟩ ?_ (hown _ _) (fun _ => 0) rfl
    [.draw _ plainPipeline plainDynamic] _ plainPipeline plainDynamic [] rfl
  refine List.pairwise_pair.2 ⟨?_, ?_⟩
  · decide
  · exact nofun

/-- A draw into a one-sample image records no multisample words, and after a four-sample draw of the
same step it runs with that draw's sample count. -/
theorem twoRenderings_inherits :
    ∃ r pass pass', Recorder.run plainDevice (twoRenderings 4 1) = some r ∧
      r.refused = none ∧ r.rendering = false ∧
      r.events = [.draw pass plainPipeline plainDynamic, .draw pass' plainPipeline plainDynamic] ∧
      plainPipeline.TablesOwn ∧ Decides pass' plainPipeline plainDynamic 0x2f8 ∧
      registersAfter plainDevice.flags (fun _ => 0) r.events 0x2f8 ≠
        registersAfter plainDevice.flags (fun _ => 0)
          [.draw pass' plainPipeline plainDynamic] 0x2f8 := by
  refine ⟨_, _, _, rfl, rfl, rfl, rfl, plainPipeline_tablesOwn, .multisample (by decide), ?_⟩
  decide +kernel

end Ps5Vulkan.Record
