import Mathlib.Data.List.Basic

/-!
# Who holds the display output

The process has at most one output (`ps5vk_output` in `ps5vk_wsi.c`). A swapchain takes it when it is created, or takes
it over from its `oldSwapchain`, and lets it go when it is destroyed; the application may retain it in between, and
settling a device's modes may open one of its own.

## Implementation notes

Handles are never used twice. `handles` is what VideoOut has open, and `closedOwned` remembers whether an output was
closed while it was owned. What the fields of `pCreateInfo` are checked for is one Boolean, as are the results of the
system's calls.
-/

namespace Ps5Vulkan.Present.Ownership

/-- `struct ps5vk_video_out`. -/
structure VideoOut where
  handle : Nat
  owned : Bool
  highFrameRate : Bool
  registered : Bool
  /-- It was opened by `ps5vk_display_settle_modes`. -/
  settled : Bool
  /-- A swapchain has held it. -/
  taken : Bool
  deriving DecidableEq, Repr

/-- `struct ps5vk_swapchain`. -/
structure Swapchain where
  serial : Nat
  video : Option Nat
  retired : Bool
  deriving DecidableEq, Repr

structure Process where
  output : Option VideoOut
  retained : Bool
  handles : List Nat
  closedOwned : Bool
  swapchains : List Swapchain
  /-- The devices whose `video_out` is set. -/
  claimed : List Nat
  /-- The physical devices whose modes are settled. -/
  settledDevices : List Nat
  /-- The next handle, and the next swapchain. -/
  next : Nat
  deriving DecidableEq, Repr

/-- The system's part of opening an output: whether VideoOut opens, and in the mode that was asked for, and whether the
framebuffers are registered. -/
structure OpenOutcome where
  opens : Option Bool
  registers : Bool
  deriving DecidableEq, Repr

structure CreateInfo where
  /-- The checks of the fields pass. -/
  accepts : Bool
  old : Option Swapchain
  highFrameRate : Bool
  allocates : Bool
  outcome : OpenOutcome
  /-- `ps5vk_swapchain_create_images` succeeds. -/
  images : Bool
  deriving DecidableEq, Repr

inductive OutputEvent
  | create (device : Nat) (info : CreateInfo)
  | destroy (device : Nat) (swapchain : Swapchain)
  | retain (retain : Bool)
  | settle (device : Nat) (declares : Bool) (opens : Option Bool)
  deriving DecidableEq, Repr

namespace Process

def start : Process :=
  ⟨none, false, [], false, [], [], [], 0⟩

variable (process : Process)

/-- `ps5vk_output_close`. -/
def close : Process :=
  match process.output with
  | none => process
  | some video =>
    { process with
      output := none
      handles := process.handles.erase video.handle
      closedOwned := process.closedOwned || video.owned }

/-- `ps5vk_output_open_handle`, where there is no output. -/
def openHandle (highFrameRate settled : Bool) (opens : Option Bool) : Process :=
  match process.output, opens with
  | none, some accepted =>
    { process with
      output := some ⟨process.next, false, highFrameRate && accepted, false, settled, false⟩
      handles := process.next :: process.handles
      next := process.next + 1 }
  | _, _ => process

/-- The output is closed if it is one of these. -/
def closeIf (test : VideoOut → Bool) : Process :=
  if process.output.any test then process.close else process

variable (device : Nat)

/-- `ps5vk_display_settle_modes`. -/
def settleModes (declares : Bool) (opens : Option Bool) : Process :=
  if device ∈ process.settledDevices then process
  else
    let process := { process with settledDevices := device :: process.settledDevices }
    if declares then
      let process := process.closeIf fun video => !video.owned && !video.highFrameRate
      let process := process.openHandle true true opens
      process.closeIf fun video => !video.owned && !video.registered && !video.highFrameRate
    else process

/-- `ps5vk_video_out_open`, and whether it succeeded. -/
def videoOutOpen (highFrameRate : Bool) (outcome : OpenOutcome) : Process × Bool :=
  if process.output.any (·.owned) then (process, false)
  else
    -- The high-frame-rate mode is offered only where the output took it: a refused one stays.
    let highFrameRate := highFrameRate && process.output.all (·.highFrameRate)
    let process := process.closeIf fun video => video.highFrameRate != highFrameRate
    let process := process.openHandle highFrameRate false outcome.opens
    match process.output with
    | none => (process, false)
    | some video =>
      if !video.registered && !outcome.registers then (process.close, false)
      else ({ process with output := some { video with owned := true, registered := true, taken := true } }, true)

/-- `ps5vk_video_out_release`. -/
def release : Process :=
  let process := { process with output := process.output.map fun video => { video with owned := false } }
  if process.retained then process else process.close

/-- `ps5vk_display_retain`. -/
def retain (retain : Bool) : Process :=
  let process := { process with retained := retain }
  if retain then process else process.closeIf fun video => !video.owned

/-- `ps5vk_swapchain_free`. -/
def swapchainFree (swapchain : Swapchain) : Process :=
  if swapchain.video.isSome then
    let process := process.release
    { process with claimed := process.claimed.filter (· ≠ device) }
  else process

/-- `ps5vk_DestroySwapchainKHR`, of a swapchain that exists. -/
def destroy (swapchain : Swapchain) : Process :=
  if swapchain ∈ process.swapchains then
    { process with swapchains := process.swapchains.erase swapchain }.swapchainFree device swapchain
  else process

/-- The new swapchain takes the output over from one that presents. -/
def replace (old : Swapchain) (images : Bool) : Process :=
  if images then
    { process with
      swapchains := ⟨process.next, old.video, false⟩ :: { old with video := none, retired := true } ::
        process.swapchains.erase old
      next := process.next + 1 }
  else process.swapchainFree device ⟨process.next, none, false⟩

/-- The new swapchain takes an output of its own. -/
def create (info : CreateInfo) : Process :=
  match process.videoOutOpen info.highFrameRate info.outcome with
  | (process, false) => process
  | (process, true) =>
    let swapchain : Swapchain := ⟨process.next, process.output.map VideoOut.handle, false⟩
    let process := { process with claimed := device :: process.claimed }
    if info.images then
      { process with swapchains := swapchain :: process.swapchains, next := process.next + 1 }
    else process.swapchainFree device swapchain

/-- `ps5vk_CreateSwapchainKHR`. -/
def createSwapchain (info : CreateInfo) : Process :=
  if !info.accepts then process
  else match info.old with
    | some old =>
      if old ∉ process.swapchains ∨ old.retired ∨ old.video.isNone ∨ ¬info.allocates then process
      else process.replace device old info.images
    | none => if device ∈ process.claimed ∨ ¬info.allocates then process else process.create device info

def step : OutputEvent → Process
  | .create device info => process.createSwapchain device info
  | .destroy device swapchain => process.destroy device swapchain
  | .retain retain => process.retain retain
  | .settle device declares opens => process.settleModes device declares opens

def run (events : List OutputEvent) : Process :=
  events.foldl step start

end Process

namespace Process

variable {process : Process} {loose : List Nat}

/-! ### What each call keeps -/

/-- The output is owned by the one swapchain that holds it, or by one a function has in hand (`loose`). -/
structure Kept (loose : List Nat) (process : Process) : Prop where
  handles : process.handles = (process.output.map VideoOut.handle).toList
  unclosed : process.closedOwned = false
  holders : (loose ++ process.swapchains.filterMap Swapchain.video).Perm
    ((process.output.filter VideoOut.owned).map VideoOut.handle).toList
  retired : ∀ swapchain ∈ process.swapchains, swapchain.retired = swapchain.video.isNone

/-- An output that is neither owned nor retained was opened in the high-frame-rate mode when modes were settled, and no
swapchain has held it. -/
def Idle (process : Process) : Prop :=
  process.retained = false → ∀ video, process.output = some video → video.owned = false →
    video.settled = true ∧ video.highFrameRate = true ∧ video.taken = false

theorem output_close : process.close.output = none := by
  unfold close
  split
  next h => exact h
  next => rfl

theorem idle_of_none (h : process.output = none) : process.Idle :=
  fun _ _ hsome => absurd (h.symm.trans hsome) nofun

namespace Kept

theorem close (h : Kept loose process) (hfree : ∀ video, process.output = some video → video.owned = false) :
    Kept loose process.close := by
  unfold Process.close
  split
  · exact h
  next video hvideo =>
    obtain ⟨hhandles, hunclosed, hholders, hretired⟩ := h
    rw [hvideo] at hhandles hholders
    rw [Option.filter_some_neg (by simp [hfree video hvideo])] at hholders
    refine ⟨?_, by rw [hunclosed, hfree video hvideo]; rfl, hholders, hretired⟩
    rw [hhandles]
    exact List.erase_cons_head ..

theorem closeIf (h : Kept loose process) {test : VideoOut → Bool} (htest : ∀ video, test video = true → video.owned = false) :
    Kept loose (process.closeIf test) := by
  unfold Process.closeIf
  split
  next hany =>
    refine h.close fun video hvideo => htest video ?_
    rwa [hvideo] at hany
  next => exact h

theorem openHandle (h : Kept loose process) (highFrameRate settled : Bool) (opens : Option Bool) :
    Kept loose (process.openHandle highFrameRate settled opens) := by
  unfold Process.openHandle
  split
  next hnone =>
    obtain ⟨hhandles, hunclosed, hholders, hretired⟩ := h
    rw [hnone] at hhandles hholders
    exact ⟨by rw [hhandles]; rfl, hunclosed, hholders, hretired⟩
  next => exact h

/-- What holds the output lets it go. -/
theorem release {handle : Nat} (h : Kept [handle] process) : Kept [] process.release := by
  have hfree : Kept [] { process with output := process.output.map fun video => { video with owned := false } } := by
    obtain ⟨hhandles, hunclosed, hholders, hretired⟩ := h
    cases houtput : process.output with
    | none =>
      rw [houtput] at hholders
      exact absurd hholders.length_eq (by simp)
    | some video =>
      rw [houtput] at hhandles hholders
      have hlength := hholders.length_eq
      refine ⟨hhandles, hunclosed, ?_, hretired⟩
      cases howned : video.owned with
      | false => simp [Option.filter, howned] at hlength
      | true =>
        have hnone : process.swapchains.filterMap Swapchain.video = [] := by
          rw [← List.length_eq_zero_iff]
          simp only [Option.filter, howned, if_true, Option.map_some, Option.toList_some, List.length_append,
            List.length_singleton] at hlength
          omega
        rw [hnone]
        rfl
  unfold Process.release
  dsimp only
  split
  · exact hfree
  · refine hfree.close fun video hvideo => ?_
    obtain ⟨before, -, rfl⟩ := Option.map_eq_some_iff.mp hvideo
    rfl

end Kept

theorem idle_closeIf (h : process.Idle) (test : VideoOut → Bool) : (process.closeIf test).Idle := by
  unfold closeIf
  split
  · exact idle_of_none output_close
  · exact h

theorem idle_release : process.release.Idle := by
  unfold release
  dsimp only
  split
  next hretained => exact fun hnot => Bool.noConfusion (hnot.symm.trans hretained)
  next => exact idle_of_none output_close

/-- `Kept` and `Idle`, between calls. -/
structure Sound (process : Process) : Prop where
  kept : Kept [] process
  idle : process.Idle

namespace Sound

theorem settleModes (h : process.Sound) (device : Nat) (declares : Bool) (opens : Option Bool) :
    (process.settleModes device declares opens).Sound := by
  unfold Process.settleModes
  split
  · exact h
  · dsimp only
    split
    next =>
      have hfirst : ({ process with settledDevices := device :: process.settledDevices }.closeIf
          fun video => !video.owned && !video.highFrameRate).Sound := by
        refine ⟨Kept.closeIf ?_ (by simp +contextual), idle_closeIf ?_ _⟩
        · exact { h.kept with }
        · exact h.idle
      generalize Process.closeIf _ _ = process at hfirst
      refine ⟨(hfirst.kept.openHandle _ _ _).closeIf (by simp +contextual), ?_⟩
      unfold Process.closeIf
      split
      · exact idle_of_none output_close
      next hkeep =>
        unfold Process.openHandle at hkeep ⊢
        split at hkeep
        next =>
          intro _ video hvideo _
          obtain rfl := Option.some.inj hvideo
          exact ⟨rfl, by simpa using hkeep, rfl⟩
        next => exact hfirst.idle
    next => exact ⟨{ h.kept with }, h.idle⟩

theorem retain (h : process.Sound) (retain : Bool) : (process.retain retain).Sound := by
  unfold Process.retain
  dsimp only
  split
  next hretain => exact ⟨{ h.kept with }, fun hnot => Bool.noConfusion (hnot.symm.trans hretain)⟩
  next =>
    refine ⟨Kept.closeIf ?_ (by simp), ?_⟩
    · exact { h.kept with }
    unfold closeIf
    split
    · exact idle_of_none output_close
    next howned =>
      intro _ video hvideo hfree
      refine absurd ?_ howned
      change process.output = some video at hvideo
      rw [hvideo]
      exact congrArg not hfree

/-- An output that could not be had leaves none, or another swapchain's; one that was had is in hand. -/
theorem videoOutOpen (h : process.Sound) (highFrameRate : Bool) (outcome : OpenOutcome) :
    ((process.videoOutOpen highFrameRate outcome).2 = false ∧ (process.videoOutOpen highFrameRate outcome).1.Sound) ∨
      ∃ video, (process.videoOutOpen highFrameRate outcome).2 = true ∧ video.owned = true ∧
        (process.videoOutOpen highFrameRate outcome).1.output = some video ∧
        Kept [video.handle] (process.videoOutOpen highFrameRate outcome).1 := by
  unfold Process.videoOutOpen
  split
  · exact .inl ⟨rfl, h⟩
  next hunowned =>
    dsimp only
    generalize (highFrameRate && process.output.all (·.highFrameRate)) = mode
    have hfree : ∀ video, process.output = some video → video.owned = false := by
      intro video hvideo
      rw [hvideo] at hunowned
      exact Bool.eq_false_iff.mpr hunowned
    have hclosed : Kept [] (process.closeIf fun video => video.highFrameRate != mode) ∧
        ∀ video, (process.closeIf fun video => video.highFrameRate != mode).output = some video → video.owned = false := by
      unfold Process.closeIf
      split
      · exact ⟨h.kept.close hfree, fun video hvideo => absurd (output_close.symm.trans hvideo) nofun⟩
      · exact ⟨h.kept, hfree⟩
    generalize Process.closeIf _ _ = process at hclosed
    have hopened : Kept [] (process.openHandle mode false outcome.opens) ∧
        ∀ video, (process.openHandle mode false outcome.opens).output = some video → video.owned = false := by
      refine ⟨hclosed.1.openHandle _ _ _, ?_⟩
      unfold Process.openHandle
      split
      · intro video hvideo
        obtain rfl := Option.some.inj hvideo
        rfl
      · exact hclosed.2
    generalize Process.openHandle _ _ _ _ = process at hopened
    obtain ⟨hkept, hfree⟩ := hopened
    split
    next hnone => exact .inl ⟨rfl, hkept, idle_of_none hnone⟩
    next video hvideo =>
      split
      · exact .inl ⟨rfl, hkept.close hfree, idle_of_none output_close⟩
      · refine .inr ⟨_, rfl, rfl, rfl, ?_⟩
        obtain ⟨hhandles, hunclosed, hholders, hretired⟩ := hkept
        rw [hvideo] at hhandles hholders
        rw [Option.filter_some_neg (by simp [hfree video hvideo])] at hholders
        exact ⟨hhandles, hunclosed, hholders.cons _, hretired⟩

theorem swapchainFree {swapchain : Swapchain} (h : Kept swapchain.video.toList process)
    (hidle : swapchain.video = none → process.Idle) (device : Nat) : (process.swapchainFree device swapchain).Sound := by
  unfold Process.swapchainFree
  cases hvideo : swapchain.video with
  | none =>
    rw [hvideo] at h
    exact ⟨h, hidle hvideo⟩
  | some handle =>
    rw [hvideo] at h
    exact ⟨{ Kept.release h with }, idle_release⟩

/-- A swapchain is taken out of the list. -/
theorem part (h : process.Sound) {swapchain : Swapchain} (hmem : swapchain ∈ process.swapchains) :
    Kept swapchain.video.toList { process with swapchains := process.swapchains.erase swapchain } := by
  obtain ⟨hhandles, hunclosed, hholders, hretired⟩ := h.kept
  refine ⟨hhandles, hunclosed, .trans ?_ hholders, fun other hother => hretired other (List.mem_of_mem_erase hother)⟩
  refine .trans (.of_eq ?_) ((List.perm_cons_erase hmem).filterMap _).symm
  cases hvideo : swapchain.video with
  | none => rw [List.filterMap_cons_none hvideo]; rfl
  | some handle => rw [List.filterMap_cons_some hvideo]; rfl

theorem destroy (h : process.Sound) (device : Nat) (swapchain : Swapchain) :
    (process.destroy device swapchain).Sound := by
  unfold Process.destroy
  split
  next hmem => exact swapchainFree (h.part hmem) (fun _ => h.idle) device
  next => exact h

theorem replace (h : process.Sound) {old : Swapchain} (hmem : old ∈ process.swapchains) (hvideo : old.video.isNone = false)
    (device : Nat) (images : Bool) : (process.replace device old images).Sound := by
  unfold Process.replace
  split
  next =>
    obtain ⟨hhandles, hunclosed, hholders, hretired⟩ := h.part hmem
    refine ⟨⟨hhandles, hunclosed, .trans (.of_eq ?_) hholders, ?_⟩, h.idle⟩
    · obtain ⟨handle, hhandle⟩ := Option.isSome_iff_exists.mp (Option.isNone_eq_false_iff.mp hvideo)
      rw [hhandle]
      rfl
    · exact List.forall_mem_cons.mpr ⟨hvideo.symm, List.forall_mem_cons.mpr ⟨rfl, hretired⟩⟩
  next => exact h

theorem create (h : process.Sound) (device : Nat) (info : CreateInfo) : (process.create device info).Sound := by
  unfold Process.create
  rcases h.videoOutOpen info.highFrameRate info.outcome with ⟨hfalse, hsound⟩ | ⟨video, htrue, howned, hvideo, hkept⟩
  · generalize process.videoOutOpen info.highFrameRate info.outcome = result at *
    obtain ⟨process, _⟩ := result
    cases hfalse
    exact hsound
  · generalize process.videoOutOpen info.highFrameRate info.outcome = result at *
    obtain ⟨⟨output, _, _, _, _, _, _, _⟩, _⟩ := result
    cases htrue
    obtain rfl : output = some video := hvideo
    dsimp only
    split
    · refine ⟨⟨hkept.handles, hkept.unclosed, hkept.holders, ?_⟩, ?_⟩
      · exact List.forall_mem_cons.mpr ⟨rfl, hkept.retired⟩
      · rintro - other hother hunowned
        obtain rfl := Option.some.inj hother
        exact Bool.noConfusion (howned.symm.trans hunowned)
    · refine swapchainFree ?_ (fun hnone => absurd hnone (Option.some_ne_none _)) device
      exact ⟨hkept.handles, hkept.unclosed, hkept.holders, hkept.retired⟩

theorem step (h : process.Sound) (event : OutputEvent) : (process.step event).Sound := by
  cases event with
  | create device info =>
    simp only [Process.step, createSwapchain]
    split
    · exact h
    · split
      next old _ =>
        split
        · exact h
        next hpass =>
          simp only [not_or, Decidable.not_not, Bool.not_eq_true] at hpass
          exact h.replace hpass.1 hpass.2.2.1 device info.images
      next =>
        split
        · exact h
        · exact h.create device info
  | destroy device swapchain => exact h.destroy device swapchain
  | retain retain => exact h.retain retain
  | settle device declares opens => exact h.settleModes device declares opens

theorem run (events : List OutputEvent) : (run events).Sound := by
  have hstart : start.Sound := ⟨⟨rfl, rfl, .refl _, nofun⟩, nofun⟩
  exact List.foldlRecOn events _ hstart fun _ h event _ => h.step event

end Sound

/-- One owner for the output. -/
structure OneOwner (process : Process) : Prop where
  handles : process.handles.length ≤ 1
  owned : ∀ video, process.output = some video → (video.owned = true ↔
    ∃ swapchain ∈ process.swapchains, swapchain.retired = false ∧ swapchain.video = some video.handle)
  held : ∀ swapchain ∈ process.swapchains, swapchain.retired = false →
    ∃ video, process.output = some video ∧ swapchain.video = some video.handle
  holder : (process.swapchains.filter (!·.retired)).length ≤ 1
  unclosed : process.closedOwned = false
  parted : ∀ swapchain ∈ process.swapchains, swapchain.retired = true → ∀ device,
    (process.destroy device swapchain).output = process.output ∧
      (process.destroy device swapchain).handles = process.handles
  closed : process.retained = false → (∀ swapchain ∈ process.swapchains, swapchain.retired = true) →
    ∀ video, process.output = some video →
      video.settled = true ∧ video.highFrameRate = true ∧ video.taken = false

/-- The handles that swapchains hold: the output's, if it is owned. -/
theorem Sound.mem_holders (h : process.Sound) (handle : Nat) :
    (∃ swapchain ∈ process.swapchains, swapchain.video = some handle) ↔
      ∃ video, process.output = some video ∧ video.owned = true ∧ video.handle = handle := by
  have hholders : (process.swapchains.filterMap Swapchain.video).Perm _ := h.kept.holders
  rw [← List.mem_filterMap, hholders.mem_iff]
  simp [Option.map_eq_some_iff, Option.filter_eq_some_iff, and_assoc]

theorem Sound.owned_iff (h : process.Sound) {video : VideoOut} (hvideo : process.output = some video) :
    video.owned = true ↔
      ∃ swapchain ∈ process.swapchains, swapchain.retired = false ∧ swapchain.video = some video.handle := by
  constructor
  · intro howned
    obtain ⟨swapchain, hmem, heq⟩ := (h.mem_holders _).mpr ⟨video, hvideo, howned, rfl⟩
    exact ⟨swapchain, hmem, by rw [h.kept.retired swapchain hmem, heq]; rfl, heq⟩
  · rintro ⟨swapchain, hmem, -, heq⟩
    obtain ⟨other, hother, hother', -⟩ := (h.mem_holders _).mp ⟨swapchain, hmem, heq⟩
    rwa [Option.some.inj (hvideo.symm.trans hother)]

theorem Sound.video_of_live (h : process.Sound) {swapchain : Swapchain} (hmem : swapchain ∈ process.swapchains)
    (hretired : swapchain.retired = false) :
    ∃ video, process.output = some video ∧ swapchain.video = some video.handle := by
  rw [h.kept.retired swapchain hmem] at hretired
  obtain ⟨handle, heq⟩ := Option.isSome_iff_exists.mp (Option.isNone_eq_false_iff.mp hretired)
  obtain ⟨video, hvideo, -, rfl⟩ := (h.mem_holders handle).mp ⟨swapchain, hmem, heq⟩
  exact ⟨video, hvideo, heq⟩

theorem Sound.live_le_one (h : process.Sound) : (process.swapchains.filter (!·.retired)).length ≤ 1 := by
  calc
    (process.swapchains.filter (!·.retired)).length =
        (process.swapchains.filter (·.video.isSome)).length := by
      refine congrArg _ (List.filter_congr fun swapchain hmem => ?_)
      rw [h.kept.retired swapchain hmem, Option.not_isNone]
    _ = (process.swapchains.filterMap Swapchain.video).length := (List.length_filterMap_eq_countP ..).symm ▸
      List.countP_eq_length_filter.symm
    _ = (((process.output.filter VideoOut.owned).map VideoOut.handle).toList).length := h.kept.holders.length_eq
    _ ≤ 1 := by cases (process.output.filter VideoOut.owned) <;> simp

theorem run_oneOwner (events : List OutputEvent) : (run events).OneOwner := by
  have h := Sound.run events
  generalize run events = process at h
  refine ⟨?_, fun _ => h.owned_iff, fun _ => h.video_of_live, h.live_le_one, h.kept.unclosed, ?_, ?_⟩
  · rw [h.kept.handles]
    cases process.output <;> simp
  · intro swapchain hmem hretired device
    have hnone : swapchain.video = none := Option.isNone_iff_eq_none.mp (h.kept.retired swapchain hmem ▸ hretired)
    simp [destroy, hmem, Process.swapchainFree, hnone]
  · intro hretained hparted video hvideo
    refine h.idle hretained video hvideo (Bool.eq_false_iff.mpr fun howner => ?_)
    obtain ⟨swapchain, hmem, hretired, -⟩ := (h.owned_iff hvideo).mp howner
    exact Bool.noConfusion (hretired.symm.trans (hparted swapchain hmem))

end Process

end Ps5Vulkan.Present.Ownership
