import Ps5Vulkan.Record.Recorder

/-!
# Rendering and sampling inside one command buffer

A draw that samples what an earlier draw of its command buffer rendered needs a GPU barrier between
them. The recorder knows it by the targets registered since the last barrier, and by those of the
active rendering once a draw went into them. Over every recording it reports each such sample, as
long as the depth attachments are registered where their images start.
-/

namespace Ps5Vulkan.Record

open Queue (RenderTarget)

/-- Whether an event renders. -/
def Event.isDraw : Event → Bool
  | .draw .. => true
  | _ => false

/-- An earlier draw rendered into the image, and no GPU barrier was recorded since. -/
def RenderedSince (events : List Event) (image : Image) : Prop :=
  ∃ before pass pipeline dynamic after, events = before ++ .draw pass pipeline dynamic :: after ∧
    image ∈ pass.images ∧ Event.barrier ∉ after

/-- Every sample of an image rendered since the last GPU barrier is reported. -/
def ReportsRenders (events : List Event) : Prop :=
  ∀ before image reported after, events = before ++ .sampled image reported :: after →
    RenderedSince before image → reported = true

/-- The depth attachment starts where its image does. -/
def RenderingInfo.DepthAtBase (info : RenderingInfo) : Prop :=
  ∀ view, info.depth.bind Attachment.view = some view →
    (view.baseArrayLayer + firstView info.viewMask) * attachmentLayerBytes view.image = 0

/-- A target registered for the image counts as rendered. -/
def Recorder.Covers (r : Recorder) (image : Image) : Prop :=
  ∃ index target, r.targets[index]? = some target ∧ target.address = image.address ∧
    r.since index = true

theorem Recorder.renderedHere_iff (r : Recorder) (image : Image) : r.renderedHere image = true ↔ r.Covers image := by
  simp only [Recorder.renderedHere, List.any_eq_true, Bool.and_eq_true, beq_iff_eq]
  constructor
  · rintro ⟨⟨target, index⟩, hmem, hsince, haddress⟩
    exact ⟨index, target, List.mem_zipIdx_iff_getElem?.1 hmem, haddress, hsince⟩
  · rintro ⟨index, target, htarget, haddress, hsince⟩
    exact ⟨(target, index), List.mem_zipIdx_iff_getElem?.2 htarget, hsince, haddress⟩

theorem Recorder.since_iff (r : Recorder) (index : Nat) : r.since index = true ↔ r.barrierTargets ≤ index ∨
      r.passDrawn = true ∧ ∃ first, r.passFirstTarget = some first ∧ first ≤ index := by
  simp [Recorder.since, Option.any_eq_true]

/-- What an event adds: a barrier flushes everything, a draw renders into its attachments. -/
theorem RenderedSince.of_append {events : List Event} {last : Event} {image : Image}
    (h : RenderedSince (events ++ [last]) image) : last ≠ .barrier ∧ (RenderedSince events image ∨
      ∃ pass pipeline dynamic, last = .draw pass pipeline dynamic ∧ image ∈ pass.images) := by
  obtain ⟨before, pass, pipeline, dynamic, after, hsplit, himage, hbarrier⟩ := h
  rcases append_singleton_split hsplit with ⟨-, -, rfl⟩ | ⟨kept, rfl, hevents⟩
  · exact ⟨nofun, Or.inr ⟨pass, pipeline, dynamic, rfl, himage⟩⟩
  · simp only [List.mem_append, List.mem_singleton, not_or] at hbarrier
    exact ⟨fun hlast => hbarrier.2 hlast.symm,
      Or.inl ⟨before, pass, pipeline, dynamic, kept, hevents, himage, hbarrier.1⟩⟩

theorem ReportsRenders.append {events : List Event} {last : Event} (h : ReportsRenders events)
    (hlast : ∀ image reported, last = .sampled image reported → RenderedSince events image →
      reported = true) : ReportsRenders (events ++ [last]) := by
  intro before image reported after hsplit hsince
  rcases append_singleton_split hsplit with ⟨-, rfl, heq⟩ | ⟨kept, -, hevents⟩
  · exact hlast image reported heq.symm hsince
  · exact h before image reported kept hevents hsince

/-- What the recorder's counters say of the renders behind them. -/
structure Tracked (r : Recorder) : Prop where
  barrier_le : r.barrierTargets ≤ r.targets.length
  outside : r.rendering = false → r.passFirstTarget = none ∧ r.passDrawn = false
  inside : r.rendering = true → ∃ first, r.passFirstTarget = some first ∧
    ∀ image ∈ r.pass.images, ∃ index target, first ≤ index ∧ r.targets[index]? = some target ∧
      target.address = image.address
  covered : ∀ image, RenderedSince r.events image → r.Covers image

/-- The invariant of a recording: its reports are right, and its counters are until it is refused. -/
def Reporting (r : Recorder) : Prop :=
  ReportsRenders r.events ∧ (r.refused = none → Tracked r)

section Moves

variable {device : Device} {r r' : Recorder}

theorem getElem?_of_prefix {targets targets' : List RenderTarget} {index : Nat}
    {target : RenderTarget} (h : targets <+: targets') (htarget : targets[index]? = some target) :
    targets'[index]? = some target := by
  obtain ⟨added, rfl⟩ := h
  rw [List.getElem?_append_left (List.getElem?_eq_some_iff.1 htarget).1]
  exact htarget

/-- Images stay covered while targets are added and none stops to count. -/
theorem Recorder.Covers.mono {image : Image} (h : r.Covers image) (htargets : r.targets <+: r'.targets)
    (hsince : ∀ index, r.since index = true → r'.since index = true) : r'.Covers image := by
  obtain ⟨index, target, htarget, haddress, hindex⟩ := h
  exact ⟨index, target, getElem?_of_prefix htargets htarget, haddress, hsince index hindex⟩

/-- A move that keeps the counters and adds targets at most, and no render to the history. -/
theorem Tracked.keep (h : Tracked r) (htargets : r.targets <+: r'.targets)
    (hrendering : r'.rendering = r.rendering) (himages : r'.pass.images = r.pass.images)
    (hbarrier : r'.barrierTargets = r.barrierTargets)
    (hfirst : r'.passFirstTarget = r.passFirstTarget) (hdrawn : r'.passDrawn = r.passDrawn)
    (hevents : ∀ image, RenderedSince r'.events image → RenderedSince r.events image) : Tracked r' := by
  refine ⟨?_, ?_, ?_, ?_⟩
  · rw [hbarrier]
    exact Nat.le_trans h.barrier_le htargets.length_le
  · rw [hrendering, hfirst, hdrawn]
    exact h.outside
  · rw [hrendering, hfirst, himages]
    intro hin
    obtain ⟨first, hsome, hcovers⟩ := h.inside hin
    refine ⟨first, hsome, fun image himage => ?_⟩
    obtain ⟨index, target, hle, htarget, haddress⟩ := hcovers image himage
    exact ⟨index, target, hle, getElem?_of_prefix htargets htarget, haddress⟩
  · intro image hrendered
    refine (h.covered image (hevents image hrendered)).mono htargets fun index => ?_
    rw [Recorder.since_iff, Recorder.since_iff, hbarrier, hfirst, hdrawn]
    exact id

/-- An event that is neither a barrier nor a draw leaves what was rendered. -/
theorem RenderedSince.of_other {events : List Event} {last : Event} {image : Image}
    (hlast : last.isDraw = false) (h : RenderedSince (events ++ [last]) image) :
    RenderedSince events image := by
  rcases h.of_append.2 with hevents | ⟨pass, pipeline, dynamic, rfl, -⟩
  · exact hevents
  · cases hlast

theorem Reporting.sample (h : Reporting r) (hnone : r.refused = none) (image : Image) :
    Reporting (r.sampledImage image).1 := by
  have htracked := h.2 hnone
  refine ⟨h.1.append fun sampled reported heq hsince => ?_, fun _ => ?_⟩
  · obtain ⟨rfl, rfl⟩ := Event.sampled.inj heq
    exact (r.renderedHere_iff image).2 (htracked.covered image hsince)
  · refine htracked.keep (List.prefix_refl _) rfl rfl rfl rfl rfl fun other hrendered => ?_
    change RenderedSince (r.events ++ [.sampled image (r.renderedHere image)]) other at hrendered
    exact hrendered.of_other rfl

theorem Reporting.record (h : Reporting r) (hnone : r.refused = none) (copy : Queue.MemoryCopy) :
    Reporting (r.record copy) := by
  refine ⟨h.1.append nofun, fun _ => ?_⟩
  refine (h.2 hnone).keep (List.prefix_refl _) rfl rfl rfl rfl rfl fun other hrendered => ?_
  change RenderedSince (r.events ++ [.split]) other at hrendered
  exact hrendered.of_other rfl

/-- A GPU barrier flushes every render, so nothing is left to cover. -/
theorem Reporting.barrier (h : Reporting r) (hnone : r.refused = none) : Reporting (r.gpuBarrier device) := by
  unfold Recorder.gpuBarrier
  split
  · exact h.record hnone splitRecord
  · have htracked := h.2 hnone
    refine ⟨h.1.append nofun, fun _ => ⟨Nat.le_refl _, fun hout => ?_, htracked.inside, ?_⟩⟩
    · exact ⟨(htracked.outside hout).1, rfl⟩
    · intro image hrendered
      exact absurd rfl hrendered.of_append.1

/-- A draw renders into the attachments of its rendering, whose targets now count. -/
theorem Reporting.draw (h : Reporting r) (hnone : r.refused = none) (hrendering : r.rendering)
    (draw : Draw) (words : List UInt32) : Reporting (r.appendDraw draw words) := by
  have htracked := h.2 hnone
  refine ⟨h.1.append nofun, fun _ => ⟨htracked.barrier_le, ?_, htracked.inside, ?_⟩⟩
  · intro hout
    have hin : r.rendering = true := hrendering
    rw [show (r.appendDraw draw words).rendering = r.rendering from rfl, hin] at hout
    cases hout
  · intro image hrendered
    rcases hrendered.of_append.2 with hbefore | ⟨pass, pipeline, dynamic, heq, himage⟩
    · refine (htracked.covered image hbefore).mono (List.prefix_refl _) fun index => ?_
      rw [Recorder.since_iff, Recorder.since_iff]
      exact Or.imp_right fun hdrawn => ⟨rfl, hdrawn.2⟩
    · cases heq
      obtain ⟨first, hfirst, hcovers⟩ := htracked.inside hrendering
      obtain ⟨index, target, hle, htarget, haddress⟩ := hcovers image himage
      exact ⟨index, target, htarget, haddress, (Recorder.since_iff _ _).2 (Or.inr ⟨rfl, first, hfirst, hle⟩)⟩

/-- The targets a rendering registers are at its images' addresses, where the depth attachment
starts where its image does. -/
theorem Begun.target_of_image {defaults : Defaults} {info : RenderingInfo} {pass : Pass}
    {targets : List RenderTarget} (h : Begun defaults info pass targets)
    (hdepth : info.DepthAtBase) {image : Image} (himage : image ∈ pass.images) :
    ∃ target ∈ targets, target.address = image.address := by
  have hdepthImage : ∀ depth, pass.depth = some depth →
      depth.address (firstView info.viewMask) = depth.image.address := by
    intro depth hsome
    obtain ⟨view, hview, heq, hbytes, hbase⟩ := depthAttachment_base (hsome ▸ h.depth)
    have hzero := hdepth view hview
    rw [← hbytes, Nat.add_mul] at hzero
    rw [DepthTarget.address, hbase, heq]
    omega
  have hdepthTargets : image ∈ pass.depth.toList.map DepthTarget.image →
      ∃ target ∈ depthTargets pass.depth (firstView info.viewMask),
        target.address = image.address := by
    intro hmem
    obtain ⟨depth, hsome, rfl⟩ := List.mem_map.1 hmem
    exact ⟨_, List.mem_map.2 ⟨depth, hsome, rfl⟩, hdepthImage depth (by simpa using hsome)⟩
  rcases h.attachments with ⟨-, -, -, -, -, -, -, himages, rfl⟩ | ⟨-, -, -, colour, -, -, -, -,
    himages, rfl⟩
  · rw [himages] at himage
    exact hdepthTargets himage
  · rw [himages, List.mem_cons] at himage
    rcases himage with rfl | himage
    · exact ⟨_, List.mem_cons_self .., rfl⟩
    · obtain ⟨target, hmem, haddress⟩ := hdepthTargets himage
      exact ⟨target, List.mem_cons_of_mem _ hmem, haddress⟩

theorem Reporting.start {info : RenderingInfo} {pass : Pass} {targets : List RenderTarget}
    (h : Reporting r) (hnone : r.refused = none) (hout : r.rendering = false)
    (hdepth : info.DepthAtBase) (hbegun : Begun device.defaults info pass targets) : Reporting { r with
      rendering := true
      pass := pass
      targets := r.targets ++ targets
      passFirstTarget := some r.targets.length
      passDrawn := false } := by
  have htracked := h.2 hnone
  refine ⟨h.1, fun _ => ⟨?_, nofun, fun _ => ⟨_, rfl, fun image himage => ?_⟩, ?_⟩⟩
  · simp only [List.length_append]
    exact Nat.le_trans htracked.barrier_le (Nat.le_add_right _ _)
  · obtain ⟨target, hmem, haddress⟩ := hbegun.target_of_image hdepth himage
    obtain ⟨place, hplace⟩ := List.getElem?_of_mem hmem
    refine ⟨r.targets.length + place, target, Nat.le_add_right _ _, ?_, haddress⟩
    rw [List.getElem?_append_right (Nat.le_add_right _ _), Nat.add_sub_cancel_left]
    exact hplace
  · intro image hrendered
    refine (htracked.covered image hrendered).mono (List.prefix_append _ _) fun index => ?_
    rw [Recorder.since_iff, Recorder.since_iff, (htracked.outside hout).2]
    rintro (hbarrier | ⟨hdrawn, -⟩)
    · exact Or.inl hbarrier
    · cases hdrawn

/-- Leaving a rendering that was drawn into leaves its targets below the next barrier's mark. -/
theorem Recorder.since_leavePass {index : Nat} (h : r.since index = true) : r.leavePass.since index = true := by
  rw [Recorder.since_iff] at h ⊢
  left
  simp only [Recorder.leavePass]
  rcases h with hbarrier | ⟨hdrawn, first, hfirst, hle⟩
  · split
    · split <;> omega
    · exact hbarrier
  · rw [hfirst]
    dsimp only
    split
    · exact hle
    · rename_i hnot
      have hmark : ¬first < r.barrierTargets := fun hlt => hnot ⟨hdrawn, hlt⟩
      omega

theorem Reporting.leavePass (h : Reporting r) (hnone : r.refused = none) : Reporting r.leavePass := by
  have htracked := h.2 hnone
  refine ⟨h.1, fun _ => ⟨?_, fun _ => ⟨rfl, rfl⟩, nofun, fun image hrendered => ?_⟩⟩
  · have hle := htracked.barrier_le
    simp only [Recorder.leavePass]
    split
    · split <;> omega
    · exact hle
  · exact (htracked.covered image hrendered).mono (List.prefix_refl _) fun _ =>
      Recorder.since_leavePass

theorem Reporting.finish (h : Reporting r) (hnone : r.refused = none) : Reporting (r.endRendering device) := by
  unfold Recorder.endRendering Recorder.resetDepth
  split
  · split
    · exact ⟨h.1, nofun⟩
    · refine Reporting.leavePass ⟨h.1.append nofun, fun _ => ?_⟩ hnone
      refine (h.2 hnone).keep (List.prefix_refl _) rfl rfl rfl rfl rfl fun other hrendered => ?_
      change RenderedSince (r.events ++ [.depthReset]) other at hrendered
      exact hrendered.of_other rfl
  · exact h.leavePass hnone

theorem selectView_images {defaults : Defaults} {pass pass' : Pass} {view : Nat}
    (h : selectView defaults pass view = some pass') : pass'.images = pass.images := by
  obtain ⟨rows, -, rfl⟩ := Option.map_eq_some_iff.1 h
  rfl

/-- Every move keeps the reports right. -/
theorem Reporting.move (hmove : Move device RenderingInfo.DepthAtBase r r') (h : Reporting r) : Reporting r' := by
  cases hmove with
  | idle _ hsome hevents =>
    refine ⟨hevents ▸ h.1, fun hnone => ?_⟩
    rw [hnone] at hsome
    cases hsome
  | refuse reason => exact ⟨h.1, nofun⟩
  | sample image hnone => exact h.sample hnone image
  | barrier hnone => exact h.barrier hnone
  | view hnone hview =>
    exact ⟨h.1, fun _ => (h.2 hnone).keep (List.prefix_refl _) rfl (selectView_images hview) rfl
      rfl rfl fun _ => id⟩
  | draw draw words hnone hrendering => exact h.draw hnone hrendering draw words
  | words words hnone =>
    exact ⟨h.1, fun _ => (h.2 hnone).keep (List.prefix_refl _) rfl rfl rfl rfl rfl fun _ => id⟩
  | target target hnone =>
    exact ⟨h.1, fun _ => (h.2 hnone).keep (List.prefix_append _ _) rfl rfl rfl rfl rfl
      fun _ => id⟩
  | record copy hnone => exact h.record hnone copy
  | start hnone hout hdepth hbegin =>
    exact h.start hnone (by simpa using hout) hdepth (begun_of_beginPass hbegin)
  | finish hnone => exact h.finish hnone

theorem reporting_init : Reporting .init := by
  refine ⟨fun before image reported after hsplit => ?_, fun _ => ⟨Nat.le_refl _, fun _ => ⟨rfl, rfl⟩,
    nofun, fun image hrendered => ?_⟩⟩
  · cases before <;> cases hsplit
  · obtain ⟨before, pass, pipeline, dynamic, after, hsplit, -⟩ := hrendered
    cases before <;> cases hsplit

end Moves

/-- Over every recording whose depth attachments start where their images do, a sample of an image
that an earlier draw rendered into with no GPU barrier since is reported. -/
theorem recording_reports_renders (device : Device) (commands : List Command) (r : Recorder)
    (hrun : Recorder.run device commands = some r)
    (hdepth : ∀ info, .beginRendering info ∈ commands → info.DepthAtBase) :
    ∀ before image reported after, r.events = before ++ .sampled image reported :: after →
      RenderedSince before image → reported = true :=
  (Recorder.run_induction device RenderingInfo.DepthAtBase reporting_init
    (fun _ _ hmove h => h.move hmove) hdepth hrun).1

/-- A rendering into a colour image, and a draw into another that samples it. -/
def sampleColour : List Command :=
  [.beginRendering (colourInfo (tiledImage 0x100000 1 1)), .draw (plainDraw []), .endRendering,
   .beginRendering (colourInfo (tiledImage 0x200000 1 1)),
   .draw (plainDraw [tiledImage 0x100000 1 1])]

theorem recording_reports_renders_sampleColour :
    ∃ r, Recorder.run plainDevice sampleColour = some r ∧
      ∃ before reported after,
        r.events = before ++ .sampled (tiledImage 0x100000 1 1) reported :: after ∧
        RenderedSince before (tiledImage 0x100000 1 1) ∧ reported = true := by
  have hdepth : ∀ info, .beginRendering info ∈ sampleColour → info.DepthAtBase := by
    intro info hmem view hview
    simp only [sampleColour, List.mem_cons, List.not_mem_nil, or_false, reduceCtorEq, false_or,
      Command.beginRendering.injEq] at hmem
    rcases hmem with rfl | rfl <;> cases hview
  have hsince : ∀ pass pipeline dynamic, tiledImage 0x100000 1 1 ∈ pass.images →
      RenderedSince [.draw pass pipeline dynamic] (tiledImage 0x100000 1 1) :=
    fun pass pipeline dynamic himage => ⟨[], pass, pipeline, dynamic, [], rfl, himage, nofun⟩
  refine ⟨_, rfl, [.draw _ _ _], _, [.barrier, .draw _ _ _], rfl, hsince _ _ _ (by decide), ?_⟩
  exact recording_reports_renders plainDevice sampleColour _ rfl hdepth _ _ _ _ rfl
    (hsince _ _ _ (by decide))

/-- A rendering into the second layer of a depth image, and a draw that samples the image. -/
def sampleLayer : List Command :=
  [.beginRendering (depthLayerInfo (tiledImage 0x100000 2 1) 1), .draw (plainDraw []), .endRendering,
   .beginRendering (colourInfo (tiledImage 0x200000 1 1)),
   .draw (plainDraw [tiledImage 0x100000 2 1])]

/-- The depth target of a layer past the first is registered at the layer, and the sample is looked
for at the image: the draw needs a barrier, and none is reported. -/
theorem sampleLayer_not_reported :
    ∃ r, Recorder.run plainDevice sampleLayer = some r ∧
      ∃ before after,
        r.events = before ++ .sampled (tiledImage 0x100000 2 1) false :: after ∧
        RenderedSince before (tiledImage 0x100000 2 1) := by
  refine ⟨_, rfl, [.draw _ _ _, .depthReset], [.draw _ _ _], rfl, [], _, _, _, [.depthReset], rfl,
    ?_, ?_⟩
  · decide
  · simp

end Ps5Vulkan.Record
