import Mathlib.Data.List.MinMax
import Mathlib.Data.Fintype.Basic

/-!
# Swapchain images and the display

The process has one output, VideoOut with five framebuffers, and the newest swapchain presents through
it (`ps5vk_wsi.c`). A present queues a flip with the next marker, VideoOut shows queued flips in order
and names the marker of the latest one shown. An acquire takes a buffer that is neither on screen nor
queued, which it works out from the markers it has kept. This is right as long as a flip that failed
was never submitted: one that fails after its submission is shown, and its buffer is handed out while
it is on screen.

## Implementation notes

Markers are counted without bound, and VideoOut's status names 0 before the first flip. A present that
waits for its flip is one that is followed by vblanks. Swapchains that were replaced reach no output:
their acquires and presents do nothing here.
-/

namespace Ps5Vulkan.Present

/-- `PS5VK_SWAPCHAIN_IMAGES`. -/
def swapchainImages : Nat := 5

/-- `PS5VK_SWAPCHAIN_DEFAULT_IMAGES`. -/
def swapchainDefaultImages : Nat := 3

/-- `PS5VK_FLIP_WAITS`. -/
def flipWaits : Nat := 200

/-- One of VideoOut's registered framebuffers. -/
abbrev Buffer := Fin swapchainImages

/-! ## VideoOut -/

/-- A flip as it was submitted. -/
structure Flip where
  buffer : Buffer
  marker : Nat
  deriving DecidableEq, Repr

/-- VideoOut's side of an output: the flips it has not shown, the buffer on screen, and the marker of
the latest flip shown. -/
structure Display where
  queue : List Flip
  screen : Option Buffer
  marker : Nat
  deriving DecidableEq, Repr

namespace Display

/-- VideoOut as it is opened. -/
def opened : Display := ⟨[], none, 0⟩

/-- The next queued flip is shown. -/
def next (display : Display) : Display :=
  match display.queue with
  | [] => display
  | flip :: rest => ⟨rest, some flip.buffer, flip.marker⟩

/-- A vblank at which some of the queued flips are shown. -/
def vblank (display : Display) : Nat → Display
  | 0 => display
  | flips + 1 => display.next.vblank flips

/-- A flip is queued. -/
def submit (display : Display) (flip : Flip) : Display :=
  { display with queue := display.queue ++ [flip] }

/-- The buffer is on screen or queued for a flip. -/
def InUse (display : Display) (buffer : Buffer) : Prop :=
  display.screen = some buffer ∨ ∃ flip ∈ display.queue, flip.buffer = buffer

end Display

/-! ## The driver's side -/

/-- `struct ps5vk_video_out`. -/
structure VideoOut where
  registered : Bool
  highFrameRate : Bool
  shown : Option Buffer
  flipMarker : Nat
  imageMarker : Buffer → Nat

namespace VideoOut

/-- `ps5vk_output_open_handle`, which may be refused the high frame rate. -/
def opened (highFrameRate : Bool) : VideoOut := ⟨false, highFrameRate, none, 0, fun _ => 0⟩

variable (video : VideoOut)

/-- The marker of the latest flip shown, as far as the status can be read. -/
def shownMarker (status : Option Nat) : Nat :=
  if video.flipMarker ≠ 0 then status.getD 0 else 0

/-- The buffer on screen: the latest one flipped at or before the flip VideoOut showed last. -/
def onScreen (shownMarker : Nat) : Option Buffer :=
  (List.finRange swapchainImages).foldl (fun screen index =>
    if video.imageMarker index ≠ 0 ∧ video.imageMarker index ≤ shownMarker ∧
        ∀ other ∈ screen, video.imageMarker index > video.imageMarker other then
      some index
    else screen) (if video.flipMarker = 0 then video.shown else none)

/-- The buffer flipped longest ago among the first `count` that are free. -/
def best (count shownMarker : Nat) : Option Buffer :=
  ((List.finRange swapchainImages).filter (·.val < count)).foldl (fun best index =>
    if video.onScreen shownMarker = some index ∨ video.imageMarker index > shownMarker then best
    else if ∀ other ∈ best, video.imageMarker index < video.imageMarker other then some index
    else best) none

end VideoOut

/-- One round of waiting for a free buffer: whether the status can be read, and the flips shown at the
vblank that is waited for. -/
structure Attempt where
  statusRead : Bool
  flips : Nat
  deriving DecidableEq, Repr

/-- What an acquire returns. -/
inductive AcquireResult where
  | success (buffer : Buffer)
  | notReady
  | timeout
  deriving DecidableEq, Repr

/-- `ps5vk_swapchain_free_image`, for as many rounds as are given: its result, and what the display has
come to. -/
def freeImage (video : VideoOut) (count : Nat) (zeroTimeout : Bool) :
    List Attempt → Display → AcquireResult × Display
  | [], display => (.timeout, display)
  | attempt :: rest, display =>
    let status := if attempt.statusRead then some display.marker else none
    match video.best count (video.shownMarker status) with
    | some buffer => (.success buffer, display)
    | none =>
      if zeroTimeout then (.notReady, display)
      else freeImage video count zeroTimeout rest (display.vblank attempt.flips)

/-- The rounds of an acquire. -/
abbrev Attempts := { attempts : List Attempt // attempts.length = flipWaits }

/-- `struct ps5vk_swapchain`, while it has an output. -/
structure Swapchain where
  imageCount : Nat
  acquired : Option Buffer
  imageCount_ge : swapchainDefaultImages ≤ imageCount
  imageCount_le : imageCount ≤ swapchainImages

/-- `ps5vk_output`, with the swapchain that owns it. -/
structure Output where
  video : VideoOut
  display : Display
  swapchain : Option Swapchain

/-- The state of the process: `ps5vk_output_retained` and `ps5vk_output`. -/
structure State where
  retained : Bool
  output : Option Output

/-- What `ps5vk_queue_flip` comes to: the flip is queued; it fails before it is submitted; or it fails
after, at the suspend point or waiting to be shown. -/
inductive FlipOutcome where
  | queued
  | unsubmitted
  | lost
  deriving DecidableEq, Repr

/-- What reaches an output. `opened` is whether a fresh handle opens, and whether it then has the high
frame rate, `registers` and `images` whether its framebuffers register and the images are created. -/
inductive Op where
  | settle (opened : Option Bool)
  | create (replace : Bool) (minImageCount : Nat) (highFrameRate : Bool) (opened : Option Bool)
      (registers images : Bool)
  | destroy
  | retain (keep : Bool)
  | acquire (zeroTimeout signals : Bool) (attempts : Attempts)
  | present (outcome : FlipOutcome)
  | vblank (flips : Nat)

/-- The images of a new swapchain. -/
def Swapchain.new (minImageCount : Nat) (h : minImageCount ≤ swapchainImages) : Swapchain where
  imageCount := max minImageCount swapchainDefaultImages
  acquired := none
  imageCount_ge := Nat.le_max_right ..
  imageCount_le := Nat.max_le.mpr ⟨h, by decide⟩

namespace Output

/-- A present of a buffer: the marker is taken whatever comes of the flip. -/
def present (output : Output) (swapchain : Swapchain) (buffer : Buffer) (outcome : FlipOutcome) :
    Output :=
  let marker := output.video.flipMarker + 1
  let video := { output.video with flipMarker := marker }
  let swapchain := some { swapchain with acquired := none }
  match outcome with
  | .queued =>
    { video := { video with
        imageMarker := Function.update video.imageMarker buffer marker
        shown := some buffer }
      display := output.display.submit ⟨buffer, marker⟩
      swapchain }
  | .unsubmitted => { video, display := output.display, swapchain }
  | .lost => { video, display := output.display.submit ⟨buffer, marker⟩, swapchain }

/-- `ps5vk_swapchain_acquire`, where no image is acquired. `signals` is whether the semaphore and the
fence could be signalled. -/
def acquire (output : Output) (swapchain : Swapchain) (zeroTimeout signals : Bool)
    (attempts : List Attempt) : Output :=
  match freeImage output.video swapchain.imageCount zeroTimeout attempts output.display with
  | (.success buffer, display) =>
    { output with
      display
      swapchain := some (if signals then { swapchain with acquired := some buffer } else swapchain) }
  | (_, display) => { output with display }

end Output

namespace State

/-- Before anything is opened. -/
def init : State := ⟨false, none⟩

variable (state : State)

/-- `ps5vk_video_out_release`. -/
def release : State :=
  { state with
    output := if state.retained then state.output.map ({ · with swapchain := none }) else none }

/-- `ps5vk_display_settle_modes`, of a title that declares the high frame rate: an output nothing owns
that does not have it gets another try, and a refused one is not kept. -/
def settle (opened : Option Bool) : State :=
  let kept := state.output.filter fun output => output.swapchain.isSome || output.video.highFrameRate
  { state with
    output := kept.or ((opened.filter id).map fun high => ⟨.opened high, .opened, none⟩) }

/-- `ps5vk_video_out_open`, where no swapchain owns the output: the retained or settled output when its
mode matches, a fresh one otherwise. -/
def openOutput (highFrameRate : Bool) (opened : Option Bool) (registers : Bool) : Option Output :=
  let high := highFrameRate && state.output.all (·.video.highFrameRate)
  let kept := state.output.filter fun output => output.video.highFrameRate == high
  let found := kept.or (opened.map fun granted => ⟨.opened (high && granted), .opened, none⟩)
  (found.filter fun output => output.video.registered || registers).map fun output =>
    { output with video := { output.video with registered := true } }

/-- `ps5vk_CreateSwapchainKHR`, in place of the owning swapchain or without one. -/
def create (replace : Bool) (minImageCount : Nat) (highFrameRate : Bool) (opened : Option Bool)
    (registers images : Bool) : State :=
  if h : minImageCount ≤ swapchainImages then
    let swapchain := some (Swapchain.new minImageCount h)
    match state.output.bind (·.swapchain) with
    | some _ =>
      if replace && images then { state with output := state.output.map ({ · with swapchain }) }
      else state
    | none =>
      if replace then state
      else
        let created := { state with
          output := (state.openOutput highFrameRate opened registers).map ({ · with swapchain }) }
        if images then created else created.release
  else state

/-- The effect of an operation. -/
def step : Op → State
  | .settle opened => state.settle opened
  | .create replace minImageCount highFrameRate opened registers images =>
    state.create replace minImageCount highFrameRate opened registers images
  | .destroy => if (state.output.bind (·.swapchain)).isSome then state.release else state
  | .retain keep =>
    { retained := keep
      output := state.output.filter fun output => keep || output.swapchain.isSome }
  | .acquire zeroTimeout signals attempts =>
    match state.output with
    | some ⟨video, display, some swapchain⟩ =>
      if swapchain.acquired.isSome then state
      else
        { state with
          output := some
            (Output.acquire ⟨video, display, swapchain⟩ swapchain zeroTimeout signals attempts.val) }
    | _ => state
  | .present outcome =>
    match state.output with
    | some ⟨video, display, some swapchain⟩ =>
      match swapchain.acquired with
      | some buffer =>
        { state with
          output := some (Output.present ⟨video, display, swapchain⟩ swapchain buffer outcome) }
      | none => state
    | _ => state
  | .vblank flips =>
    { state with
      output := state.output.map fun output =>
        { output with display := output.display.vblank flips } }

/-- A run of the process. -/
def run (ops : List Op) : State := ops.foldl step init

end State

/-! ## What the markers say -/

namespace VideoOut

variable {video : VideoOut} {shownMarker count : Nat} {buffer : Buffer}

/-- The buffers last flipped at or before a marker. -/
def flippedBy (video : VideoOut) (shownMarker : Nat) : List Buffer :=
  (List.finRange swapchainImages).filter fun index =>
    video.imageMarker index ≠ 0 ∧ video.imageMarker index ≤ shownMarker

theorem mem_flippedBy : buffer ∈ video.flippedBy shownMarker ↔
    video.imageMarker buffer ≠ 0 ∧ video.imageMarker buffer ≤ shownMarker := by
  simp [flippedBy]

/-- The search for the buffer on screen is for the greatest marker shown. -/
theorem onScreen_eq_argmax (hshown : video.flipMarker = 0 → video.shown = none) :
    video.onScreen shownMarker = (video.flippedBy shownMarker).argmax video.imageMarker := by
  have hinit : (if video.flipMarker = 0 then video.shown else none) = none := by
    split
    · next h => exact hshown h
    · rfl
  rw [onScreen, hinit, flippedBy, List.argmax, List.foldl_filter]
  congr 1
  funext screen index
  by_cases hcandidate : video.imageMarker index ≠ 0 ∧ video.imageMarker index ≤ shownMarker
  · cases screen <;> simp [List.argAux, hcandidate]
  · rw [if_neg fun h => hcandidate ⟨h.1, h.2.1⟩, if_neg (by simpa using hcandidate)]

/-- The buffers an acquire may take. -/
def Free (video : VideoOut) (count shownMarker : Nat) (buffer : Buffer) : Prop :=
  buffer.val < count ∧ video.onScreen shownMarker ≠ some buffer ∧ video.imageMarker buffer ≤ shownMarker

instance : DecidablePred (video.Free count shownMarker) := fun _ => inferInstanceAs (Decidable (_ ∧ _))

/-- The search for a free buffer is for the least marker among the free ones. -/
theorem best_eq_argmin : video.best count shownMarker =
      ((List.finRange swapchainImages).filter fun index => video.Free count shownMarker index).argmin
        video.imageMarker := by
  rw [best, List.argmin, List.foldl_filter, List.foldl_filter]
  congr 1
  funext best index
  by_cases hcount : index.val < count
  · by_cases hbusy : video.onScreen shownMarker = some index ∨ video.imageMarker index > shownMarker
    · have hfree : ¬ video.Free count shownMarker index := fun h =>
        hbusy.elim h.2.1 (Nat.not_lt.mpr h.2.2)
      simp [hcount, hbusy, hfree]
    · have hfree : video.Free count shownMarker index :=
        ⟨hcount, fun h => hbusy (.inl h), Nat.not_lt.mp fun h => hbusy (.inr h)⟩
      cases best <;> simp [List.argAux, hcount, hbusy, hfree]
  · have hfree : ¬ video.Free count shownMarker index := fun h => hcount h.1
    simp [hcount, hfree]

theorem free_of_best (h : video.best count shownMarker = some buffer) :
    video.Free count shownMarker buffer := by
  rw [best_eq_argmin] at h
  simpa using List.argmin_mem h

theorem best_isSome (h : video.Free count shownMarker buffer) : ∃ found, video.best count shownMarker = some found := by
  apply Option.ne_none_iff_exists'.mp
  rw [best_eq_argmin, Ne, List.argmin_eq_none]
  exact List.ne_nil_of_mem (List.mem_filter.mpr ⟨List.mem_finRange buffer, decide_eq_true h⟩)

end VideoOut

/-! ## The invariant -/

/-- What holds of an output as long as no flip that failed was submitted. -/
structure Output.Invariant (output : Output) : Prop where
  unflipped : output.video.flipMarker = 0 → output.video.shown = none
  bounded : ∀ buffer, output.video.imageMarker buffer ≤ output.video.flipMarker
  distinct : ∀ buffer other, output.video.imageMarker buffer = output.video.imageMarker other →
    output.video.imageMarker buffer ≠ 0 → buffer = other
  marker_le : output.display.marker ≤ output.video.flipMarker
  ordered : output.display.queue.Pairwise fun flip later => flip.marker < later.marker
  later : ∀ flip ∈ output.display.queue, output.display.marker < flip.marker
  queued : ∀ flip ∈ output.display.queue, output.video.imageMarker flip.buffer = flip.marker
  waiting : ∀ buffer, output.display.marker < output.video.imageMarker buffer →
    ∃ flip ∈ output.display.queue, flip.buffer = buffer
  screen : ∀ buffer, output.display.screen = some buffer →
    output.video.imageMarker buffer = output.display.marker ∧ output.display.marker ≠ 0
  acquired : ∀ swapchain, output.swapchain = some swapchain → ∀ buffer,
    swapchain.acquired = some buffer →
      output.video.imageMarker buffer ≤ output.display.marker ∧ output.display.screen ≠ some buffer

namespace Output.Invariant

variable {output : Output} {buffer : Buffer} {count : Nat}

section

variable (h : output.Invariant)

include h

/-- A buffer whose marker was shown is not queued. -/
theorem not_inUse (hmarker : output.video.imageMarker buffer ≤ output.display.marker)
    (hscreen : output.display.screen ≠ some buffer) : ¬ output.display.InUse buffer := by
  rintro (hon | ⟨flip, hflip, rfl⟩)
  · exact hscreen hon
  · have hqueued := h.queued flip hflip
    have hlater := h.later flip hflip
    omega

/-- The buffer on screen is found from the markers. -/
theorem onScreen_eq (hscreen : output.display.screen = some buffer) :
    output.video.onScreen output.display.marker = some buffer := by
  obtain ⟨hmarker, hne⟩ := h.screen buffer hscreen
  rw [VideoOut.onScreen_eq_argmax h.unflipped]
  have hmem := VideoOut.mem_flippedBy.mpr ⟨hmarker ▸ hne, hmarker.le⟩
  cases hfound : (output.video.flippedBy output.display.marker).argmax output.video.imageMarker with
  | none => exact absurd (List.argmax_eq_none.mp hfound) (List.ne_nil_of_mem hmem)
  | some found =>
    have hbest := List.le_of_mem_argmax hmem hfound
    obtain ⟨hflipped, hle⟩ := VideoOut.mem_flippedBy.mp (List.argmax_mem hfound)
    have heq : output.video.imageMarker found = output.video.imageMarker buffer := by omega
    rw [h.distinct found buffer heq hflipped]

/-- What one round finds is not in use. -/
theorem best_not_inUse (status : Bool) (hbest : output.video.best count
      (output.video.shownMarker (if status then some output.display.marker else none)) = some buffer) :
    output.video.imageMarker buffer ≤ output.display.marker ∧ output.display.screen ≠ some buffer := by
  obtain ⟨-, hon, hle⟩ := VideoOut.free_of_best hbest
  by_cases hread : status = true ∧ output.video.flipMarker ≠ 0
  · have hshown : output.video.shownMarker (if status then some output.display.marker else none) =
        output.display.marker := by
      simp [VideoOut.shownMarker, hread]
    rw [hshown] at hon hle
    exact ⟨hle, fun hscreen => hon (h.onScreen_eq hscreen)⟩
  · -- only buffers that were never flipped are free
    have hshown : output.video.shownMarker (if status then some output.display.marker else none) = 0 := by
      cases status <;> simp_all [VideoOut.shownMarker]
    rw [hshown] at hle
    refine ⟨by omega, fun hscreen => ?_⟩
    have := h.screen buffer hscreen
    omega

/-- A swapchain without an acquired image takes the output over, or one whose image is not in use. -/
theorem withSwapchain (swapchain : Option Swapchain)
    (hacquired : ∀ taken, swapchain = some taken → ∀ buffer, taken.acquired = some buffer →
      output.video.imageMarker buffer ≤ output.display.marker ∧
        output.display.screen ≠ some buffer) : Output.Invariant { output with swapchain } :=
  { h with acquired := hacquired }

theorem next : Output.Invariant { output with display := output.display.next } := by
  cases hqueue : output.display.queue with
  | nil =>
    have hsame : output.display.next = output.display := by rw [Display.next, hqueue]
    rw [hsame]
    exact h
  | cons flip rest =>
    have hnext : output.display.next = ⟨rest, some flip.buffer, flip.marker⟩ := by
      rw [Display.next, hqueue]
    have hordered := h.ordered
    have hlater := h.later
    have hqueued := h.queued
    rw [hqueue] at hordered hlater hqueued
    obtain ⟨hfirst, hrest⟩ := List.pairwise_cons.mp hordered
    have hflip := hqueued flip List.mem_cons_self
    have hshown := hlater flip List.mem_cons_self
    rw [hnext]
    refine { h with
      marker_le := hflip ▸ h.bounded flip.buffer
      ordered := hrest
      later := hfirst
      queued := fun later hmem => hqueued later (List.mem_cons_of_mem _ hmem)
      waiting := fun buffer hwaiting => ?_
      screen := fun buffer hscreen => ?_
      acquired := fun swapchain hswapchain buffer hbuffer => ?_ }
    · obtain ⟨later, hmem, rfl⟩ := h.waiting buffer (hshown.trans hwaiting)
      rw [hqueue] at hmem
      rcases List.mem_cons.mp hmem with rfl | hmem
      · exact absurd hwaiting (hflip ▸ lt_irrefl _)
      · exact ⟨later, hmem, rfl⟩
    · cases hscreen
      exact ⟨hflip, Nat.ne_of_gt (Nat.zero_lt_of_lt hshown)⟩
    · obtain ⟨hle, -⟩ := h.acquired swapchain hswapchain buffer hbuffer
      refine ⟨hle.trans hshown.le, fun hscreen => ?_⟩
      cases hscreen
      omega

theorem vblank (flips : Nat) : Output.Invariant { output with display := output.display.vblank flips } := by
  induction flips generalizing output with
  | zero => exact h
  | succ flips ih => exact ih h.next

/-- An acquire finds a buffer that is not in use, however many vblanks it waits. -/
theorem freeImage (zeroTimeout : Bool) (attempts : List Attempt) :
    let (result, display) := freeImage output.video count zeroTimeout attempts output.display
    Output.Invariant { output with display } ∧ ∀ buffer, result = .success buffer →
      output.video.imageMarker buffer ≤ display.marker ∧ display.screen ≠ some buffer := by
  induction attempts generalizing output with
  | nil => exact ⟨h, nofun⟩
  | cons attempt rest ih =>
    rw [Present.freeImage]
    cases hbest : output.video.best count
        (output.video.shownMarker (if attempt.statusRead then some output.display.marker else none)) with
    | some found =>
      refine ⟨h, fun buffer hbuffer => ?_⟩
      cases hbuffer
      exact h.best_not_inUse attempt.statusRead hbest
    | none =>
      cases zeroTimeout with
      | true => exact ⟨h, nofun⟩
      | false => exact ih (h.vblank attempt.flips)

end

theorem opened (highFrameRate : Bool) : Output.Invariant ⟨.opened highFrameRate, .opened, none⟩ where
  unflipped _ := rfl
  bounded _ := Nat.le_refl 0
  distinct _ _ _ hne := absurd rfl hne
  marker_le := Nat.le_refl 0
  ordered := List.Pairwise.nil
  later := nofun
  queued := nofun
  waiting _ hwaiting := absurd hwaiting (Nat.lt_irrefl 0)
  screen := nofun
  acquired := nofun

/-- A flip that is queued, of a buffer that is not in use. -/
theorem present_queued (h : output.Invariant) {swapchain : Swapchain}
    (hmarker : output.video.imageMarker buffer ≤ output.display.marker)
    (hscreen : output.display.screen ≠ some buffer) : (output.present swapchain buffer .queued).Invariant := by
  have hother : ∀ flip ∈ output.display.queue, flip.buffer ≠ buffer := fun flip hflip heq =>
    h.not_inUse hmarker hscreen (.inr ⟨flip, hflip, heq⟩)
  constructor
  · exact nofun
  · intro other
    by_cases hsame : other = buffer
    · rw [hsame]
      exact (Function.update_self ..).le
    · show Function.update output.video.imageMarker buffer _ other ≤ _
      rw [Function.update_of_ne hsame]
      exact Nat.le_succ_of_le (h.bounded other)
  · intro first second heq hne
    have hfirst := h.bounded first
    have hsecond := h.bounded second
    simp only [Output.present, Function.update_apply] at heq hne
    by_cases hf : first = buffer <;> by_cases hs : second = buffer <;>
      simp only [hf, hs, if_true, if_false] at heq hne ⊢
    · omega
    · omega
    · exact h.distinct first second heq hne
  · exact Nat.le_succ_of_le h.marker_le
  · refine List.pairwise_append.mpr ⟨h.ordered, List.pairwise_singleton .., fun flip hflip last hlast => ?_⟩
    cases List.mem_singleton.mp hlast
    have hbounded := h.bounded flip.buffer
    rw [h.queued flip hflip] at hbounded
    exact Nat.lt_succ_of_le hbounded
  · refine List.forall_mem_append.mpr ⟨h.later, fun last hlast => ?_⟩
    cases List.mem_singleton.mp hlast
    exact Nat.lt_succ_of_le h.marker_le
  · refine List.forall_mem_append.mpr ⟨fun flip hflip => ?_, fun last hlast => ?_⟩
    · exact (Function.update_of_ne (hother flip hflip) ..).trans (h.queued flip hflip)
    · cases List.mem_singleton.mp hlast
      exact Function.update_self ..
  · intro other hwaiting
    by_cases hsame : other = buffer
    · exact ⟨_, List.mem_append_right _ (List.mem_singleton_self _), hsame.symm⟩
    · have hold : output.display.marker < output.video.imageMarker other := by
        simpa only [Output.present, Display.submit, Function.update_of_ne hsame] using hwaiting
      obtain ⟨flip, hflip, heq⟩ := h.waiting other hold
      exact ⟨flip, List.mem_append_left _ hflip, heq⟩
  · intro other hon
    have hne : other ≠ buffer := fun heq => hscreen (heq ▸ hon)
    exact ⟨(Function.update_of_ne hne ..).trans (h.screen other hon).1, (h.screen other hon).2⟩
  · intro taken htaken other hacquired
    cases htaken
    cases hacquired

theorem present_unsubmitted (h : output.Invariant) (swapchain : Swapchain) :
    (output.present swapchain buffer .unsubmitted).Invariant :=
  { h with
    unflipped := nofun
    bounded := fun other => Nat.le_succ_of_le (h.bounded other)
    marker_le := Nat.le_succ_of_le h.marker_le
    acquired := fun taken htaken other hacquired => by
      cases htaken
      cases hacquired }

/-- With every flip shown there is a buffer to take at once. -/
theorem freeImage_at_once (h : output.Invariant) (hqueue : output.display.queue = [])
    (hcount : swapchainDefaultImages ≤ count) (zeroTimeout : Bool) (attempt : Attempt)
    (hread : attempt.statusRead = true) (rest : List Attempt) :
    ∃ buffer, Present.freeImage output.video count zeroTimeout (attempt :: rest) output.display =
      (.success buffer, output.display) := by
  have hshown : ∀ buffer, output.video.imageMarker buffer ≤ output.display.marker := fun buffer => by
    by_contra hlater
    obtain ⟨flip, hflip, -⟩ := h.waiting buffer (Nat.not_le.mp hlater)
    rw [hqueue] at hflip
    cases hflip
  have hall : ∀ buffer, output.video.imageMarker buffer ≤
      output.video.shownMarker (some output.display.marker) := fun buffer => by
    rw [VideoOut.shownMarker]
    split
    · exact hshown buffer
    · next hnone => exact (h.bounded buffer).trans (Nat.le_of_eq (not_not.mp hnone))
  -- one of the first two buffers is not the one on screen
  obtain ⟨buffer, hlt, hother⟩ : ∃ buffer : Buffer, buffer.val < 2 ∧
      output.video.onScreen (output.video.shownMarker (some output.display.marker)) ≠ some buffer := by
    by_cases hzero : output.video.onScreen (output.video.shownMarker (some output.display.marker)) = some ⟨0, by decide⟩
    · exact ⟨⟨1, by decide⟩, Nat.lt_succ_self 1, by rw [hzero]; decide⟩
    · exact ⟨⟨0, by decide⟩, Nat.two_pos, hzero⟩
  have hin : buffer.val < count := hlt.trans hcount
  obtain ⟨found, hfound⟩ := VideoOut.best_isSome ⟨hin, hother, hall buffer⟩
  refine ⟨found, ?_⟩
  rw [Present.freeImage]
  simp only [hread, if_true, hfound]

end Output.Invariant

namespace State

variable {state : State}

/-- What holds of the state as long as no flip that failed was submitted. -/
def Invariant (state : State) : Prop := ∀ output, state.output = some output → output.Invariant

theorem Invariant.release (h : state.Invariant) : state.release.Invariant := by
  intro output houtput
  by_cases hretained : state.retained = true
  · rw [State.release, if_pos hretained] at houtput
    obtain ⟨old, hold, rfl⟩ := Option.map_eq_some_iff.mp houtput
    exact (h old hold).withSwapchain none nofun
  · rw [State.release, if_neg hretained] at houtput
    cases houtput

theorem Invariant.settle (h : state.Invariant) (opened : Option Bool) : (state.settle opened).Invariant := by
  intro output houtput
  rcases Option.or_eq_some_iff.mp houtput with hkept | ⟨-, hfresh⟩
  · exact h output (Option.filter_eq_some_iff.mp hkept).1
  · obtain ⟨high, -, rfl⟩ := Option.map_eq_some_iff.mp hfresh
    exact Output.Invariant.opened high

theorem Invariant.openOutput (h : state.Invariant) {highFrameRate : Bool} {opened : Option Bool}
    {registers : Bool} {output : Output}
    (houtput : state.openOutput highFrameRate opened registers = some output) : output.Invariant := by
  obtain ⟨found, hfound, rfl⟩ := Option.map_eq_some_iff.mp houtput
  have hinvariant : found.Invariant := by
    rcases Option.or_eq_some_iff.mp (Option.filter_eq_some_iff.mp hfound).1 with hkept | ⟨-, hfresh⟩
    · exact h found (Option.filter_eq_some_iff.mp hkept).1
    · obtain ⟨granted, -, rfl⟩ := Option.map_eq_some_iff.mp hfresh
      exact Output.Invariant.opened _
  exact { hinvariant with }

theorem Invariant.create (h : state.Invariant) (replace : Bool) (minImageCount : Nat)
    (highFrameRate : Bool) (opened : Option Bool) (registers images : Bool) :
    (state.create replace minImageCount highFrameRate opened registers images).Invariant := by
  rw [State.create]
  split
  · next hcount =>
      have hnew : ∀ taken, some (Swapchain.new minImageCount hcount) = some taken →
          ∀ buffer, taken.acquired ≠ some buffer := fun taken htaken buffer hacquired => by
        cases htaken
        cases hacquired
      dsimp only
      split
      · split
        · intro output houtput
          obtain ⟨old, hold, rfl⟩ := Option.map_eq_some_iff.mp houtput
          exact (h old hold).withSwapchain _ fun taken htaken buffer hbuffer =>
            absurd hbuffer (hnew taken htaken buffer)
        · exact h
      · have hcreated : State.Invariant { state with
            output := (state.openOutput highFrameRate opened registers).map
              ({ · with swapchain := some (Swapchain.new minImageCount hcount) }) } := by
          intro output houtput
          obtain ⟨old, hold, rfl⟩ := Option.map_eq_some_iff.mp houtput
          exact (h.openOutput hold).withSwapchain _ fun taken htaken buffer hbuffer =>
            absurd hbuffer (hnew taken htaken buffer)
        split
        · exact h
        · split
          · exact hcreated
          · exact hcreated.release
  · exact h

theorem Invariant.acquire {video : VideoOut} {display : Display} {swapchain : Swapchain}
    (h : Output.Invariant ⟨video, display, swapchain⟩) (hnone : swapchain.acquired = none)
    (zeroTimeout signals : Bool) (attempts : List Attempt) :
    (Output.acquire ⟨video, display, swapchain⟩ swapchain zeroTimeout signals attempts).Invariant := by
  have hfree := @Output.Invariant.freeImage _ swapchain.imageCount h zeroTimeout attempts
  rw [Output.acquire]
  cases hresult : freeImage video swapchain.imageCount zeroTimeout attempts display with
  | mk result waited =>
    rw [hresult] at hfree
    obtain ⟨hinvariant, hsuccess⟩ := hfree
    cases result with
    | notReady | timeout => exact hinvariant
    | success buffer =>
      refine hinvariant.withSwapchain _ fun taken htaken found hfound => ?_
      cases signals with
      | true =>
        cases htaken
        cases hfound
        exact hsuccess buffer rfl
      | false =>
        cases htaken
        exact absurd (hnone.symm.trans hfound) nofun

/-- Every operation keeps the invariant, save a present that fails with its flip submitted. -/
theorem Invariant.step (h : state.Invariant) (op : Op) (hop : op ≠ .present .lost) : (state.step op).Invariant := by
  cases op with
  | settle opened => exact h.settle opened
  | create replace minImageCount highFrameRate opened registers images =>
    exact h.create replace minImageCount highFrameRate opened registers images
  | destroy =>
    rw [State.step]
    split
    · exact h.release
    · exact h
  | retain keep =>
    intro output houtput
    exact h output (Option.filter_eq_some_iff.mp houtput).1
  | acquire zeroTimeout signals attempts =>
    rw [State.step]
    split
    · next video display swapchain houtput =>
        split
        · exact h
        · next hnone =>
            intro output hacquired
            cases hacquired
            exact Invariant.acquire (h _ houtput) (Option.not_isSome_iff_eq_none.mp hnone) ..
    · exact h
  | present outcome =>
    rw [State.step]
    split
    · next video display swapchain houtput =>
        split
        · next buffer hacquired =>
            intro output hpresent
            cases hpresent
            obtain ⟨hmarker, hscreen⟩ := (h _ houtput).acquired swapchain rfl buffer hacquired
            cases outcome with
            | queued => exact (h _ houtput).present_queued hmarker hscreen
            | unsubmitted => exact (h _ houtput).present_unsubmitted swapchain
            | lost => exact absurd rfl hop
        · exact h
    · exact h
  | vblank flips =>
    intro output houtput
    obtain ⟨before, hbefore, rfl⟩ := Option.map_eq_some_iff.mp houtput
    exact (h before hbefore).vblank flips

theorem invariant_run {ops : List Op} (hops : ∀ op ∈ ops, op ≠ .present .lost) : (run ops).Invariant :=
  List.foldlRecOn (motive := Invariant) ops step nofun fun _ h op hop => h.step op (hops op hop)

end State

/-! ## Acquired images -/

/-- The image of an acquire is not in use by the display, from the acquire on; an acquire never takes a
buffer in use, and takes one without waiting when every queued flip has been shown. -/
structure Output.Safe (output : Output) : Prop where
  acquired : ∀ swapchain, output.swapchain = some swapchain → ∀ buffer,
    swapchain.acquired = some buffer → ¬ output.display.InUse buffer
  free : ∀ count, swapchainDefaultImages ≤ count → count ≤ swapchainImages →
    ∀ zeroTimeout (attempts : Attempts) buffer display,
      freeImage output.video count zeroTimeout attempts.val output.display = (.success buffer, display) →
        ¬ display.InUse buffer
  at_once : output.display.queue = [] → ∀ count, swapchainDefaultImages ≤ count →
    count ≤ swapchainImages → ∀ zeroTimeout (attempts : Attempts),
      (∀ attempt ∈ attempts.val, attempt.statusRead = true) →
        ∃ buffer, freeImage output.video count zeroTimeout attempts.val output.display =
          (.success buffer, output.display)

theorem Output.Invariant.safe {output : Output} (h : output.Invariant) : output.Safe where
  acquired swapchain hswapchain buffer hbuffer :=
    let ⟨hmarker, hscreen⟩ := h.acquired swapchain hswapchain buffer hbuffer
    h.not_inUse hmarker hscreen
  free count _ _ zeroTimeout attempts buffer display hfree := by
    have hfound := @Output.Invariant.freeImage _ count h zeroTimeout attempts.val
    rw [hfree] at hfound
    obtain ⟨hmarker, hscreen⟩ := hfound.2 buffer rfl
    exact hfound.1.not_inUse hmarker hscreen
  at_once hqueue count hcount _ zeroTimeout attempts hread := by
    obtain ⟨attempts, hlength⟩ := attempts
    cases attempts with
    | nil => cases hlength
    | cons attempt rest =>
      exact h.freeImage_at_once hqueue hcount zeroTimeout attempt (hread attempt List.mem_cons_self) rest

/-- Rounds in which the status is read and nothing is shown. -/
def promptAttempts : Attempts := ⟨List.replicate flipWaits ⟨true, 0⟩, List.length_replicate⟩

/-- A present of a fresh swapchain whose flip is submitted and then fails, and is shown. -/
def lostRun : List Op :=
  [.create false 3 false (some false) true true, .acquire true true promptAttempts, .present .lost,
    .vblank 1]

/-- The buffer of the flip is on screen and the next acquire takes it. -/
theorem lostRun_free :
    ∃ output, (State.run lostRun).output = some output ∧ output.display.screen = some ⟨0, by decide⟩ ∧
      freeImage output.video 3 true promptAttempts.val output.display = (.success ⟨0, by decide⟩, output.display) :=
  ⟨_, rfl, by decide, by decide⟩

/-- On every run the display leaves acquired images alone, exactly if no flip that fails has been
submitted. -/
theorem images_safe_iff (allowed : FlipOutcome → Prop) :
    (∀ ops : List Op, (∀ outcome, Op.present outcome ∈ ops → allowed outcome) →
      ∀ output, (State.run ops).output = some output → output.Safe) ↔ ¬ allowed .lost := by
  constructor
  · intro hsafe hlost
    obtain ⟨output, houtput, hscreen, hfree⟩ := lostRun_free
    have hops : ∀ outcome, Op.present outcome ∈ lostRun → allowed outcome := fun outcome hmem => by
      simp only [lostRun, List.mem_cons, reduceCtorEq, List.not_mem_nil, Op.present.injEq, false_or,
        or_false] at hmem
      exact hmem ▸ hlost
    exact (hsafe lostRun hops output houtput).free 3 (by decide) (by decide) _ _ _ _ hfree (.inl hscreen)
  · intro hlost ops hops output houtput
    have hkept : ∀ op ∈ ops, op ≠ .present .lost := fun op hop heq => hlost (hops .lost (heq ▸ hop))
    exact (State.invariant_run hkept output houtput).safe

theorem lostRun_takes_screen :
    ∃ output, (State.run lostRun).output = some output ∧ ¬ output.Safe := by
  obtain ⟨output, houtput, hscreen, hfree⟩ := lostRun_free
  exact ⟨output, houtput, fun hsafe =>
    hsafe.free 3 (by decide) (by decide) _ _ _ _ hfree (.inl hscreen)⟩

end Ps5Vulkan.Present
