import Ps5Vulkan.Record.DrawState
import Mathlib.Logic.Relation

/-!
# Recording a command buffer

The commands a command buffer records: renderings and the draws in them, dispatches, CPU records and
the targets queries register. A recorder keeps what the source keeps of a rendering to sample behind
(`targets`, `barrierTargets`, `passFirstTarget`, `passDrawn`), and a history of what its words do.
Every command is made of a few moves, and what holds over every recording is proved move by move.

## Implementation notes

A refused command buffer records nothing that is ever submitted, so commands after a refusal are
modelled as far as they change the state later commands read. What AGC's encoders write is part of a
command. Valid usage the source asserts or relies on is a command's `none`.
-/

namespace Ps5Vulkan.Record

open Queue (RenderTarget MemoryCopy gpuBarrierWords)

/-- What recording reads of the device: AGC's defaults, the debug switches, the queue's fence word
once the queue has one, and the words AGC writes for the depth reset. -/
structure Device where
  defaults : Defaults
  flags : AbFlags
  fence : Option Nat
  depthReset : Option (List UInt32)

/-- What the words of a recording do, and what the recording reported. -/
inductive Event where
  | sampled (image : Image) (reported : Bool)
  | barrier
  | split
  | draw (pass : Pass) (pipeline : Pipeline) (dynamic : DynamicState)
  | depthReset

/-- `struct ps5vk_cmd_buffer`, as recording keeps it. `lastRender` is the last word that renders. -/
structure Recorder where
  refused : Option Refusal
  rendering : Bool
  pass : Pass
  words : List UInt32
  copies : List MemoryCopy
  fencePatches : List Nat
  targets : List RenderTarget
  samplesEarly : Bool
  barrierTargets : Nat
  passFirstTarget : Option Nat
  passDrawn : Bool
  lastRender : Option Nat
  events : List Event

/-- `ps5vk_cmd_buffer_clear_state`. -/
def Recorder.init : Recorder where
  refused := none
  rendering := false
  pass := ⟨[], [], [], none, [], 0, 0, []⟩
  words := []
  copies := []
  fencePatches := []
  targets := []
  samplesEarly := false
  barrierTargets := 0
  passFirstTarget := none
  passDrawn := false
  lastRender := none
  events := []

/-- `ps5vk_cmd_buffer_refuse`. -/
def Recorder.refuse (r : Recorder) (reason : Refusal) : Recorder :=
  { r with refused := some reason }

/-- A CPU record at the words recorded so far. -/
def Recorder.record (r : Recorder) (copy : MemoryCopy) : Recorder :=
  { r with
    copies := r.copies ++ [{ copy with afterWords := r.words.length }]
    events := r.events ++ [.split] }

/-- A record with nothing to do but to split the submission. -/
def splitRecord : MemoryCopy where
  source := 0
  destination := 0
  bytes := 0
  afterWords := 0
  fill := false
  fillValue := 0
  reverseTexelBytes := 0
  clear := false
  blit := false
  sourceSpan := 0
  sourceSpanBytes := 0
  destinationSpan := 0
  destinationSpanBytes := 0
  resolve := false
  imageWrite := false
  imageCopy := false
  query := false
  height := 0
  event := 0
  eventAction := .none
  blit_or_resolve := MemoryCopy.neither

/-- `ps5vk_cmd_buffer_split`. -/
def Recorder.split (r : Recorder) : Recorder :=
  r.record splitRecord

/-- `ps5vk_cmd_buffer_gpu_barrier`. -/
def Recorder.gpuBarrier (device : Device) (r : Recorder) : Recorder :=
  match device.fence with
  | none => r.split
  | some address =>
    { r with
      words := r.words ++ gpuBarrierWords address 0
      fencePatches := r.fencePatches ++ [r.words.length]
      barrierTargets := r.targets.length
      passDrawn := false
      events := r.events ++ [.barrier] }

/-- Whether a target at an index was rendered since the last GPU barrier. -/
def Recorder.since (r : Recorder) (index : Nat) : Bool :=
  decide (r.barrierTargets ≤ index) || (r.passDrawn && r.passFirstTarget.any (· ≤ index))

/-- Whether an image is one the command buffer rendered into since its last GPU barrier. -/
def Recorder.renderedHere (r : Recorder) (image : Image) : Bool :=
  r.targets.zipIdx.any fun (target, index) => r.since index && target.address == image.address

/-- `ps5vk_sampled_image`: what sampling an image leaves, and whether it needs a barrier. -/
def Recorder.sampledImage (r : Recorder) (image : Image) : Recorder × Bool :=
  let reported := r.renderedHere image
  ({ r with
      samplesEarly := r.samplesEarly || r.fencePatches.isEmpty
      events := r.events ++ [.sampled image reported] }, reported)

/-- The images a draw's or a dispatch's resources sample, in order
(`ps5vk_cmd_buffer_shader_resources`). -/
def Recorder.shaderResources : Recorder → List Image → Recorder × Bool
  | r, [] => (r, false)
  | r, image :: images =>
    let (r₁, reported) := r.sampledImage image
    let (r₂, needed) := r₁.shaderResources images
    (r₂, reported || needed)

/-- An index buffer's bound, as an indexed draw reads it. -/
structure IndexedDraw where
  firstIndex : Nat
  address : Nat
  size : Nat
  indexBytes : Nat

/-- A draw: its counts, the state it is made with, the images its resources sample, whether the rest
of its resources could be written, and the words AGC's encoders make of it. -/
structure Draw where
  count : Nat
  instanceCount : Nat
  indexed : Option IndexedDraw
  pipeline : Pipeline
  dynamic : DynamicState
  sampled : List Image
  resources : Bool
  encoded : Option (List UInt32)

/-- The vertices or indices drawn, clamped to what the index buffer covers. -/
def Draw.drawCount (draw : Draw) : Nat :=
  match draw.indexed with
  | none => draw.count
  | some indexed =>
    if indexed.size = 0 then draw.count
    else min draw.count (indexed.size / indexed.indexBytes - indexed.firstIndex)

/-- `PS5VK_DRAW_MAX_WORDS`. -/
def drawMaxWords : Nat := 89

/-- The words of a draw join the command buffer's. -/
def Recorder.appendDraw (r : Recorder) (draw : Draw) (words : List UInt32) : Recorder :=
  { r with
    words := r.words ++ words
    passDrawn := true
    lastRender := if words = [] then r.lastRender else some (r.words.length + words.length - 1)
    events := r.events ++ [.draw r.pass draw.pipeline draw.dynamic] }

/-- One draw into the rendering's current layer (`ps5vk_cmd_draw`). -/
def Recorder.drawOnce (device : Device) (r : Recorder) (draw : Draw) : Recorder :=
  if r.refused.isSome ∨ draw.instanceCount = 0 ∨ draw.count = 0 then r
  else
    match drawRefused r.pass draw.pipeline draw.dynamic with
    | some reason => r.refuse reason
    | none =>
      let (r₁, needed) := r.shaderResources draw.sampled
      if !draw.resources then r₁.refuse .resources
      else if draw.drawCount = 0 then r₁
      else if draw.indexed.any fun indexed => indexed.address == 0 then r₁.refuse .indexBuffer
      else
        let r₂ := if needed then r₁.gpuBarrier device else r₁
        match draw.encoded with
        | none => r₂.refuse .encoding
        | some words =>
          if words.length > drawMaxWords then r₂.refuse .encoding
          else r₂.appendDraw draw words

/-- A draw once per view of a multiview rendering, each into its view's layer. -/
def Recorder.drawViews (device : Device) (r : Recorder) (draw : Draw) : List Nat → Recorder
  | [] => r
  | view :: rest =>
    match selectView device.defaults r.pass view with
    | none => r.refuse .targetDefault
    | some pass =>
      let r₁ := Recorder.drawOnce device { r with pass := pass } draw
      if r₁.refused.isSome then r₁ else r₁.drawViews device draw rest

/-- `ps5vk_cmd_draw`. -/
def Recorder.cmdDraw (device : Device) (r : Recorder) (draw : Draw) : Recorder :=
  if r.pass.viewMask ≠ 0 then r.drawViews device draw (views r.pass.viewMask)
  else r.drawOnce device draw

/-- A dispatch: whether a compute pipeline is bound and a workgroup asked for, its samples, whether
its resources could be written, and its words. -/
structure Dispatch where
  bound : Bool
  empty : Bool
  sampled : List Image
  resources : Bool
  words : List UInt32

/-- `ps5vk_CmdDispatch`. -/
def Recorder.dispatch (device : Device) (r : Recorder) (dispatch : Dispatch) : Recorder :=
  if r.refused.isSome then r
  else if !dispatch.bound then r.refuse .computePipeline
  else if dispatch.empty then r
  else
    let (r₁, needed) := r.shaderResources dispatch.sampled
    if !dispatch.resources then r₁.refuse .resources
    else
      let r₂ := if needed then r₁.gpuBarrier device else r₁
      { r₂ with words := r₂.words ++ dispatch.words }

/-- `ps5vk_CmdBeginRendering`, `none` inside a rendering. -/
def Recorder.beginRendering (device : Device) (r : Recorder) (info : RenderingInfo) :
    Option Recorder :=
  if r.refused.isSome then some { r with rendering := false }
  else if r.rendering then none
  else
    match beginPass device.defaults info with
    | .error reason => some (r.refuse reason)
    | .ok (pass, targets) =>
      some { r with
        rendering := true
        pass := pass
        targets := r.targets ++ targets
        passFirstTarget := some r.targets.length
        passDrawn := false }

/-- The reset that leaves a depth rendering. -/
def Recorder.resetDepth (device : Device) (r : Recorder) : Recorder :=
  if r.pass.depth.isSome ∧ r.refused.isNone then
    match device.depthReset with
    | none => r.refuse .encoding
    | some words =>
      { r with words := r.words ++ words, events := r.events ++ [.depthReset] }
  else r

/-- What leaving a rendering does to the tracking: a rendering drawn into since the last GPU barrier
leaves its targets to be covered by the next one. -/
def Recorder.leavePass (r : Recorder) : Recorder :=
  { r with
    barrierTargets :=
      match r.passFirstTarget with
      | some first => if r.passDrawn ∧ first < r.barrierTargets then first else r.barrierTargets
      | none => r.barrierTargets
    passFirstTarget := none
    passDrawn := false
    pass := { r.pass with depth := none, viewMask := 0, currentView := 0 }
    rendering := false }

/-- `ps5vk_CmdEndRendering`. -/
def Recorder.endRendering (device : Device) (r : Recorder) : Recorder :=
  (r.resetDepth device).leavePass

/-- What is recorded. -/
inductive Command where
  | beginRendering (info : RenderingInfo)
  | endRendering
  | draw (draw : Draw)
  | dispatch (dispatch : Dispatch)
  | gpuBarrier
  | registerTarget (target : RenderTarget)
  | record (copy : MemoryCopy)

/-- One command, `none` where it is not valid to record it. A draw that draws something is recorded
inside a rendering only. -/
def Recorder.step (device : Device) (r : Recorder) : Command → Option Recorder
  | .beginRendering info => r.beginRendering device info
  | .endRendering => some (r.endRendering device)
  | .draw draw =>
    if r.refused.isNone ∧ ¬r.rendering then none else some (r.cmdDraw device draw)
  | .dispatch dispatch => some (r.dispatch device dispatch)
  | .gpuBarrier => some (if r.refused.isSome then r else r.gpuBarrier device)
  | .registerTarget target =>
    some (if r.refused.isSome then r else { r with targets := r.targets ++ [target] })
  | .record copy => some (if r.refused.isSome then r else r.record copy)

/-- A recording of commands, from a cleared command buffer. -/
def Recorder.run (device : Device) (commands : List Command) : Option Recorder :=
  commands.foldlM (Recorder.step device) .init

/-- The moves commands are made of. Renderings are begun with the infos `ok` allows. A refused
recorder's history stays. -/
inductive Move (device : Device) (ok : RenderingInfo → Prop) : Recorder → Recorder → Prop
  | idle {r r' : Recorder} (h : r.refused.isSome) (h' : r'.refused.isSome)
      (hevents : r'.events = r.events) : Move device ok r r'
  | refuse {r : Recorder} (reason : Refusal) : Move device ok r (r.refuse reason)
  | sample {r : Recorder} (image : Image) (h : r.refused = none) :
      Move device ok r (r.sampledImage image).1
  | barrier {r : Recorder} (h : r.refused = none) : Move device ok r (r.gpuBarrier device)
  | view {r : Recorder} {view : Nat} {pass : Pass} (h : r.refused = none)
      (hview : selectView device.defaults r.pass view = some pass) :
      Move device ok r { r with pass := pass }
  | draw {r : Recorder} (draw : Draw) (words : List UInt32) (h : r.refused = none)
      (hrendering : r.rendering) : Move device ok r (r.appendDraw draw words)
  | words {r : Recorder} (words : List UInt32) (h : r.refused = none) :
      Move device ok r { r with words := r.words ++ words }
  | target {r : Recorder} (target : RenderTarget) (h : r.refused = none) :
      Move device ok r { r with targets := r.targets ++ [target] }
  | record {r : Recorder} (copy : MemoryCopy) (h : r.refused = none) :
      Move device ok r (r.record copy)
  | start {r : Recorder} {info : RenderingInfo} {pass : Pass} {targets : List RenderTarget}
      (h : r.refused = none) (hrendering : ¬r.rendering) (hok : ok info)
      (hbegin : beginPass device.defaults info = .ok (pass, targets)) :
      Move device ok r { r with
        rendering := true
        pass := pass
        targets := r.targets ++ targets
        passFirstTarget := some r.targets.length
        passDrawn := false }
  | finish {r : Recorder} (h : r.refused = none) : Move device ok r (r.endRendering device)

/-- Moves one after the other. -/
abbrev Moves (device : Device) (ok : RenderingInfo → Prop) : Recorder → Recorder → Prop :=
  Relation.ReflTransGen (Move device ok)

section Moves

variable (device : Device) (ok : RenderingInfo → Prop) {r r' : Recorder}

theorem Recorder.refused_gpuBarrier (r : Recorder) : (r.gpuBarrier device).refused = r.refused := by
  unfold Recorder.gpuBarrier
  split <;> rfl

theorem Recorder.rendering_gpuBarrier (r : Recorder) : (r.gpuBarrier device).rendering = r.rendering := by
  unfold Recorder.gpuBarrier
  split <;> rfl

/-- Sampling resources is moves that leave the recorder unrefused and in its rendering. -/
theorem moves_shaderResources (r : Recorder) (images : List Image) (h : r.refused = none) :
    Moves device ok r (r.shaderResources images).1 ∧ (r.shaderResources images).1.refused = none ∧
      (r.shaderResources images).1.rendering = r.rendering := by
  induction images generalizing r with
  | nil => exact ⟨.refl, h, rfl⟩
  | cons image images ih =>
    obtain ⟨hmoves, hrefused, hrendering⟩ := ih (r.sampledImage image).1 h
    exact ⟨.head (.sample image h) hmoves, hrefused, hrendering⟩

/-- The barrier a draw or a dispatch asks for. -/
theorem moves_barrier_if (needed : Bool) (h : r.refused = none) :
    Moves device ok r (if needed then r.gpuBarrier device else r) ∧
      (if needed then r.gpuBarrier device else r).refused = none ∧
      (if needed then r.gpuBarrier device else r).rendering = r.rendering := by
  split
  · exact ⟨.single (.barrier h), (r.refused_gpuBarrier device).trans h,
      r.rendering_gpuBarrier device⟩
  · exact ⟨.refl, h, rfl⟩

variable (draw : Draw)

theorem moves_drawOnce (hrendering : r.refused = none → r.rendering) :
    Moves device ok r (r.drawOnce device draw) ∧ ((r.drawOnce device draw).refused = none →
        (r.drawOnce device draw).rendering = r.rendering) := by
  unfold Recorder.drawOnce
  split
  · exact ⟨.refl, fun _ => rfl⟩
  · rename_i hdraws
    have h : r.refused = none := by simpa using fun hsome => hdraws (Or.inl hsome)
    split
    · exact ⟨.single (.refuse _), nofun⟩
    · obtain ⟨hmoves₁, hrefused₁, hrendering₁⟩ :=
        moves_shaderResources device ok r draw.sampled h
      obtain ⟨hmoves₂, hrefused₂, hrendering₂⟩ :=
        moves_barrier_if device ok (r.shaderResources draw.sampled).2 hrefused₁
      dsimp only
      split
      · exact ⟨hmoves₁.tail (.refuse _), nofun⟩
      · split
        · exact ⟨hmoves₁, fun _ => hrendering₁⟩
        · split
          · exact ⟨hmoves₁.tail (.refuse _), nofun⟩
          · split
            · exact ⟨(hmoves₁.trans hmoves₂).tail (.refuse _), nofun⟩
            · split
              · exact ⟨(hmoves₁.trans hmoves₂).tail (.refuse _), nofun⟩
              · refine ⟨(hmoves₁.trans hmoves₂).tail (.draw draw _ hrefused₂ ?_), fun _ => ?_⟩
                · rw [hrendering₂, hrendering₁]
                  exact hrendering h
                · exact hrendering₂.trans hrendering₁

theorem moves_drawViews (remaining : List Nat) (r : Recorder) (h : r.refused = none) (hrendering : r.rendering) :
    Moves device ok r (r.drawViews device draw remaining) := by
  induction remaining generalizing r with
  | nil => exact .refl
  | cons view rest ih =>
    unfold Recorder.drawViews
    split
    · exact .single (.refuse _)
    · rename_i pass hview
      obtain ⟨hmoves, hkept⟩ :=
        moves_drawOnce device ok (r := { r with pass := pass }) draw fun _ => hrendering
      have hstart : Moves device ok r (Recorder.drawOnce device { r with pass := pass } draw) :=
        .head (.view h hview) hmoves
      dsimp only
      split
      · exact hstart
      · rename_i hnot
        have hnone : (Recorder.drawOnce device { r with pass := pass } draw).refused = none := by
          simpa using hnot
        exact hstart.trans (ih _ hnone ((hkept hnone).trans hrendering))

/-- A refused recorder draws nothing. -/
theorem drawViews_refused (remaining : List Nat) (h : r.refused.isSome) :
    (r.drawViews device draw remaining).refused.isSome ∧ (r.drawViews device draw remaining).events = r.events := by
  cases remaining with
  | nil => exact ⟨h, rfl⟩
  | cons view rest =>
    unfold Recorder.drawViews
    split
    · exact ⟨rfl, rfl⟩
    · rename_i pass hview
      have hidle : Recorder.drawOnce device { r with pass := pass } draw =
          { r with pass := pass } := if_pos (Or.inl h)
      rw [hidle]
      simp only [h, if_true, and_self]

theorem moves_cmdDraw (hrendering : r.refused = none → r.rendering) : Moves device ok r (r.cmdDraw device draw) := by
  unfold Recorder.cmdDraw
  split
  · cases h : r.refused with
    | none => exact moves_drawViews device ok draw _ r h (hrendering h)
    | some reason =>
      have hsome : r.refused.isSome := by rw [h]; rfl
      obtain ⟨hrefused, hevents⟩ := drawViews_refused device draw (views r.pass.viewMask) hsome
      exact .single (.idle hsome hrefused hevents)
  · exact (moves_drawOnce device ok draw hrendering).1

theorem moves_dispatch (dispatch : Dispatch) : Moves device ok r (r.dispatch device dispatch) := by
  unfold Recorder.dispatch
  split
  · exact .refl
  · rename_i hnot
    have h : r.refused = none := by simpa using hnot
    obtain ⟨hmoves₁, hrefused₁, -⟩ := moves_shaderResources device ok r dispatch.sampled h
    obtain ⟨hmoves₂, hrefused₂, -⟩ :=
      moves_barrier_if device ok (r.shaderResources dispatch.sampled).2 hrefused₁
    dsimp only
    split
    · exact .single (.refuse _)
    · split
      · exact .refl
      · split
        · exact hmoves₁.tail (.refuse _)
        · exact (hmoves₁.trans hmoves₂).tail (.words _ hrefused₂)

theorem moves_beginRendering {info : RenderingInfo} (hok : ok info)
    (hstep : r.beginRendering device info = some r') : Moves device ok r r' := by
  unfold Recorder.beginRendering at hstep
  split at hstep
  · rename_i h
    cases hstep
    exact .single (.idle h h rfl)
  · rename_i hnot
    have h : r.refused = none := by simpa using hnot
    split at hstep
    · cases hstep
    · rename_i hrendering
      split at hstep
      · cases hstep
        exact .single (.refuse _)
      · rename_i hbegin
        cases hstep
        exact .single (.start h hrendering hok hbegin)

theorem moves_endRendering : Moves device ok r (r.endRendering device) := by
  cases h : r.refused with
  | none => exact .single (.finish h)
  | some reason =>
    have hreset : r.resetDepth device = r := by
      unfold Recorder.resetDepth
      rw [if_neg]
      rintro ⟨-, hnone⟩
      rw [h] at hnone
      cases hnone
    have hsome : r.refused.isSome := by rw [h]; rfl
    refine .single (.idle hsome ?_ ?_)
    · unfold Recorder.endRendering
      rw [hreset]
      exact hsome
    · unfold Recorder.endRendering
      rw [hreset]
      rfl

/-- Every command is moves. -/
theorem moves_step {command : Command} (hok : ∀ info, command = .beginRendering info → ok info)
    (hstep : r.step device command = some r') : Moves device ok r r' := by
  have hguard : ∀ next : Recorder, (r.refused = none → Moves device ok r next) →
      Moves device ok r (if r.refused.isSome then r else next) := by
    intro next hnext
    split
    · exact .refl
    · rename_i hnot
      exact hnext (by simpa using hnot)
  cases command with
  | beginRendering info => exact moves_beginRendering device ok (hok info rfl) hstep
  | endRendering =>
    cases hstep
    exact moves_endRendering device ok
  | draw draw =>
    simp only [Recorder.step] at hstep
    split at hstep
    · cases hstep
    · rename_i hvalid
      cases hstep
      refine moves_cmdDraw device ok draw fun hnone => ?_
      by_contra hout
      exact hvalid ⟨by rw [hnone]; rfl, hout⟩
  | dispatch dispatch =>
    cases hstep
    exact moves_dispatch device ok dispatch
  | gpuBarrier =>
    cases hstep
    exact hguard _ fun h => .single (.barrier h)
  | registerTarget target =>
    cases hstep
    exact hguard _ fun h => .single (.target target h)
  | record copy =>
    cases hstep
    exact hguard _ fun h => .single (.record copy h)

/-- What the cleared recorder has and every move keeps holds after every recording. -/
theorem Recorder.run_induction {P : Recorder → Prop} (hinit : P .init)
    (hmove : ∀ r r', Move device ok r r' → P r → P r') {commands : List Command}
    (hok : ∀ info, .beginRendering info ∈ commands → ok info) (hrun : Recorder.run device commands = some r) : P r := by
  have hmoves : ∀ {r r' : Recorder}, Moves device ok r r' → P r → P r' := by
    intro r r' h hr
    induction h with
    | refl => exact hr
    | tail _ hlast ih => exact hmove _ _ hlast ih
  have hfold : ∀ (commands : List Command) (start : Recorder), P start →
      (∀ info, .beginRendering info ∈ commands → ok info) →
      commands.foldlM (Recorder.step device) start = some r → P r := by
    intro commands
    induction commands with
    | nil =>
      intro start hstart _ hrun
      cases hrun
      exact hstart
    | cons command rest ih =>
      intro start hstart hok hrun
      rw [List.foldlM_cons] at hrun
      obtain ⟨next, hstep, hrest⟩ := Option.bind_eq_some_iff.1 hrun
      refine ih next (hmoves (moves_step device ok (fun info hinfo => ?_) hstep) hstart)
        (fun info hmem => hok info (List.mem_cons_of_mem _ hmem)) hrest
      exact hok info (hinfo ▸ List.mem_cons_self ..)
  exact hfold commands .init hinit hok hrun

end Moves

/-- A list that ends in an entry, taken apart at another entry. -/
theorem append_singleton_split {α : Type*} {events before after : List α} {last e : α}
    (h : events ++ [last] = before ++ e :: after) : (after = [] ∧ before = events ∧ e = last) ∨
      ∃ kept, after = kept ++ [last] ∧ events = before ++ e :: kept := by
  rcases List.eq_nil_or_concat after with rfl | ⟨kept, final, rfl⟩
  · obtain ⟨hbefore, hlast⟩ := List.append_inj' h rfl
    cases hlast
    exact Or.inl ⟨rfl, hbefore.symm, rfl⟩
  · have happend : events ++ [last] = (before ++ e :: kept) ++ [final] := by
      simpa using h
    obtain ⟨hevents, hlast⟩ := List.append_inj' happend rfl
    cases hlast
    exact Or.inr ⟨kept, by simp, hevents⟩

/-- A device with zero defaults and a fence. -/
def plainDevice : Device where
  defaults _ := some 0
  flags := ⟨false, false, false, false, false, false⟩
  fence := some 0x1000
  depthReset := some [0xd]

/-- A stencil face that keeps everything. -/
def plainFace : StencilFace := ⟨.keep, .keep, .keep, .always, 0, 0, 0⟩

/-- One viewport, and no depth, stencil or bias. -/
def plainDynamic : DynamicState where
  viewportCount := 1
  scissorCount := 1
  viewport := ⟨0, 0, 1, 1, 0, 1⟩
  scissor := ⟨0, 0, 1, 1⟩
  lineWidth := 1
  depthBias := false
  depthBiasClamp := 0
  depthBiasSlope := 0
  depthBiasConstant := 0
  depthTest := false
  depthWrite := false
  depthCompare := .always
  stencilTest := false
  front := plainFace
  back := plainFace
  blendConstants _ := 0

/-- A pipeline that writes every channel and blends nothing. -/
def plainPipeline : Pipeline where
  drawRefusal := false
  prepared := true
  lineRasterizer := false
  rasterizerWord := 0
  discardRasterizer := false
  colourWriteMask := 0xf
  blendControl := 0
  blendUsesConstants := false
  blendConstantsDynamic := false
  blendConstants _ := 0
  linked := []
  vertexTable := []
  pixelTable := [(0x08f, 0xf)]

/-- A draw of one triangle that samples these images. -/
def plainDraw (sampled : List Image) : Draw where
  count := 3
  instanceCount := 1
  indexed := none
  pipeline := plainPipeline
  dynamic := plainDynamic
  sampled := sampled
  resources := true
  encoded := some [0xa]

/-- A tiled image at an address. -/
def tiledImage (address arrayLayers samples : Nat) : Image where
  address := address
  size := 0x40000
  memory := none
  video := -1
  bufferIndex := ⟨0, Queue.swapchainImages_pos⟩
  storage := .tiles
  twoDimensional := true
  width := 128
  height := 128
  mipLevels := 1
  arrayLayers := arrayLayers
  samples := samples
  texelBytes := 4
  layerBytes := 0x20000
  stencilOffset := 0

/-- A four-channel colour format. -/
def plainFormat : ColourFormat := ⟨10, 0, 0⟩

/-- A rendering into a colour image. -/
def colourInfo (image : Image) : RenderingInfo where
  flags := 0
  layerCount := 1
  viewMask := 0
  colour := [⟨some ⟨image, .d2, .other (some plainFormat), 0, 1⟩, false⟩]
  depth := none
  stencil := none

/-- A multiview rendering into one layer of a depth image. -/
def depthLayerInfo (image : Image) (layer : Nat) : RenderingInfo where
  flags := 0
  layerCount := 1
  viewMask := 1
  colour := []
  depth := some ⟨some ⟨image, .d2Array, .d32Sfloat, layer, 1⟩, false⟩
  stencil := none

end Ps5Vulkan.Record
