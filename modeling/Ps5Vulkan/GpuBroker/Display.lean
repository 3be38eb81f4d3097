import Mathlib.Data.List.Basic
import Mathlib.Logic.Function.Iterate

/-!
# The broker's display

The display has three buffers and writes them in turn (`tooling/gpu-broker/display.cpp`). Every flip has the next
serial number as its argument, and the flip status carries the argument of the latest flip shown. A buffer is
written once the flip before the last has been shown. A flip that VideoOut refuses has its serial number and its turn
like any other.

## Implementation notes

The display is one that has been opened. What is written into a buffer, the panels over it and captures are left
out, and so is the time a wait takes but for its number of looks at the status. `writes` and `refused` are read by no
function: the former says what was on screen and queued when a buffer was written, the latter counts the flips
refused since the last one that was accepted.
-/

variable (events : List DisplayEvent)

namespace Ps5Vulkan.GpuBroker

/-- `buffer_count`. -/
def displayBuffers : Nat := 3

def displayWidth : Nat := 1920

def displayHeight : Nat := 1080

structure Flip where
  serial : Nat
  buffer : Nat
  deriving DecidableEq, Repr

/-- A buffer was written while others were on screen and queued. -/
structure DisplayWrite where
  buffer : Nat
  screen : Option Nat
  queued : List Nat
  deriving DecidableEq, Repr

/-- What VideoOut does at one look at the flip status: the look may fail, and so many vblanks follow it. -/
structure Look where
  fails : Bool
  vblanks : Nat
  deriving DecidableEq, Repr

inductive DisplayResult
  | ok
  | invalid
  | busy
  /-- VideoOut's error: the status could not be read, or the flip was refused. -/
  | error
  deriving DecidableEq, Repr

structure Display where
  flips : Nat
  back : Nat
  /-- The flips VideoOut has accepted and not shown, and the one on screen. -/
  queue : List Flip
  screen : Option Flip
  writes : List DisplayWrite
  refused : Nat
  deriving DecidableEq, Repr

namespace Display

def opened : Display :=
  ⟨0, 0, [], none, [], 0⟩

variable (display : Display)

/-- The argument in the flip status. -/
def shown : Nat :=
  display.screen.elim 0 Flip.serial

/-- A vblank shows the next flip. -/
def vblank : Display :=
  match display.queue with
  | [] => display
  | flip :: queue => { display with queue, screen := some flip }

/-- The buffer written next is free. -/
def ready : Bool :=
  decide (display.flips ≤ display.shown + 1)

/-- The wait for the next buffer, with so many sleeps at most; where it fails, with what. -/
def await : Nat → (Nat → Look) → Display → Display × Option DisplayResult
  | sleeps, looks, display =>
    if (looks 0).fails then (display, some .error)
    else if display.ready then (display, none)
    else
      match sleeps with
      | 0 => (display, some .busy)
      | sleeps + 1 => await sleeps (fun k => looks (k + 1)) (vblank^[(looks 0).vblanks] display)

/-- From the third flip on there is a wait. -/
def prepare (looks : Nat → Look) : Display × Option DisplayResult :=
  if 2 ≤ display.flips then await 2000 looks display else (display, none)

/-- The next buffer is written, and its flip submitted. -/
def flip (accepted : Bool) : Display × DisplayResult :=
  let write := ⟨display.back, display.screen.map Flip.buffer, display.queue.map Flip.buffer⟩
  let serial := display.flips + 1
  ({ flips := serial
     back := (display.back + 1) % displayBuffers
     queue := if accepted then display.queue ++ [⟨serial, display.back⟩] else display.queue
     screen := display.screen
     writes := write :: display.writes
     refused := if accepted then 0 else display.refused + 1 },
    if accepted then .ok else .error)

/-- The frame's size and pitch. -/
structure Picture where
  width : Nat
  height : Nat
  pitch : Nat
  deriving DecidableEq, Repr

def Picture.valid (picture : Picture) : Bool :=
  decide (0 < picture.width ∧ picture.width ≤ displayWidth ∧ 0 < picture.height ∧ picture.height ≤ displayHeight ∧
    picture.width * 4 ≤ picture.pitch ∧ picture.pitch ≤ 2176 * 4)

/-- `Ps5GpuDisplay::present`. -/
def present (picture : Picture) (looks : Nat → Look) (accepted : Bool) : Display × DisplayResult :=
  if !picture.valid then (display, .invalid)
  else
    match display.prepare looks with
    | (display, some result) => (display, result)
    | (display, none) => display.flip accepted

/-- `Ps5GpuDisplay::reshow`. -/
def reshow (looks : Nat → Look) (accepted : Bool) : Display × DisplayResult :=
  if display.flips = 0 then (display, .busy)
  else
    match display.prepare looks with
    | (display, some result) => (display, result)
    | (display, none) => display.flip accepted

end Display

inductive DisplayEvent
  | present (picture : Display.Picture) (looks : Nat → Look) (accepted : Bool)
  | reshow (looks : Nat → Look) (accepted : Bool)
  | vblank

namespace Display

def step (display : Display) : DisplayEvent → Display
  | .present picture looks accepted => (display.present picture looks accepted).1
  | .reshow looks accepted => (display.reshow looks accepted).1
  | .vblank => display.vblank

def run : Display :=
  events.foldl step opened

/-! ### Every buffer in its turn -/

/-- The serial number of the latest flip that was accepted. -/
def latest (display : Display) : Nat :=
  (display.queue.getLast?.map Flip.serial).getD display.shown

/-- The queued flips come after the one on screen, each with the buffer of its turn. -/
structure Wf (display : Display) : Prop where
  back : display.back = display.flips % displayBuffers
  screen : ∀ flip ∈ display.screen, 0 < flip.serial ∧ flip.serial ≤ display.flips ∧
    flip.buffer = (flip.serial - 1) % displayBuffers
  queue : ∀ flip ∈ display.queue, display.shown < flip.serial ∧ flip.serial ≤ display.flips ∧
    flip.buffer = (flip.serial - 1) % displayBuffers
  inOrder : display.queue.Pairwise fun first second => first.serial < second.serial
  counted : display.latest + display.refused = display.flips
  clear : ∀ write ∈ display.writes, write.buffer ∉ write.queued ∧ write.screen ≠ some write.buffer

namespace Wf

variable {display : Display}

theorem opened : Display.opened.Wf where
  back := rfl
  screen := nofun
  queue := nofun
  inOrder := .nil
  counted := rfl
  clear := nofun

theorem vblank (h : display.Wf) : display.vblank.Wf := by
  unfold Display.vblank
  cases hqueue : display.queue with
  | nil => exact h
  | cons flip rest =>
    have hflip := h.queue flip (by simp [hqueue])
    have hsorted := hqueue ▸ h.inOrder
    refine ⟨h.back, ?_, fun other hother => ?_, hsorted.of_cons, ?_, h.clear⟩
    · intro other hother
      obtain rfl : flip = other := Option.some.inj hother
      exact ⟨Nat.zero_lt_of_lt hflip.1, hflip.2⟩
    · exact ⟨List.rel_of_pairwise_cons hsorted hother, (h.queue other (by simp [hqueue, hother])).2⟩
    · have hlatest : (rest.getLast?.map Flip.serial).getD flip.serial = display.latest := by
        unfold latest
        rw [hqueue, List.getLast?_cons]
        cases rest.getLast? <;> rfl
      show (rest.getLast?.map Flip.serial).getD flip.serial + display.refused = display.flips
      rw [hlatest, h.counted]

theorem vblanks (h : display.Wf) (count : Nat) : (Display.vblank^[count] display).Wf := by
  induction count generalizing display with
  | zero => exact h
  | succ count ih => exact ih h.vblank

theorem await (h : display.Wf) (sleeps : Nat) (looks : Nat → Look) : (Display.await sleeps looks display).1.Wf := by
  induction sleeps generalizing display looks with
  | zero =>
    unfold Display.await
    dsimp only
    repeat' split
    all_goals exact h
  | succ sleeps ih =>
    unfold Display.await
    split
    · exact h
    · split
      · exact h
      · exact ih (h.vblanks _) _

end Wf

/-- A wait that succeeds ends where the buffer is free. -/
theorem ready_of_await {sleeps : Nat} {looks : Nat → Look} {display : Display}
    (h : (await sleeps looks display).2 = none) : (await sleeps looks display).1.ready = true := by
  induction sleeps generalizing display looks with
  | zero =>
    unfold await at h ⊢
    split at h
    · cases h
    · split at h
      next hfails hready => rwa [if_neg hfails, if_pos hready]
      next => cases h
  | succ sleeps ih =>
    unfold await at h ⊢
    split at h
    · cases h
    next hfails =>
      rw [if_neg hfails]
      split at h
      next hready => rwa [if_pos hready]
      next hready =>
        rw [if_neg hready]
        exact ih h

/-- The buffer written next is neither on screen nor queued. -/
theorem Wf.back_clear {display : Display} (h : display.Wf) (hfree : display.flips < 2 ∨ display.ready = true) :
    display.back ∉ display.queue.map Flip.buffer ∧ display.screen.map Flip.buffer ≠ some display.back := by
  have hfree : display.flips < 2 ∨ display.flips ≤ display.shown + 1 := hfree.imp_right of_decide_eq_true
  have hback := h.back
  unfold displayBuffers at hback
  constructor
  · intro hmem
    obtain ⟨flip, hflip, hsame⟩ := List.mem_map.mp hmem
    obtain ⟨hafter, hbound, hbuffer⟩ := h.queue flip hflip
    unfold displayBuffers at hbuffer
    omega
  · intro hsome
    obtain ⟨flip, hflip, hsame⟩ := Option.map_eq_some_iff.mp hsome
    obtain ⟨hpos, hbound, hbuffer⟩ := h.screen flip hflip
    have hshown : display.shown = flip.serial := by
      unfold shown
      rw [hflip]
      rfl
    unfold displayBuffers at hbuffer
    omega

theorem Wf.flip {display : Display} (h : display.Wf) (hfree : display.flips < 2 ∨ display.ready = true)
    (accepted : Bool) : (display.flip accepted).1.Wf := by
  have hshown : display.shown ≤ display.flips := by
    unfold shown
    cases hscreen : display.screen with
    | none => exact Nat.zero_le _
    | some flip => exact (h.screen flip hscreen).2.1
  have hclear := h.back_clear hfree
  have hback : (display.back + 1) % displayBuffers = (display.flips + 1) % displayBuffers := by
    rw [h.back, Nat.mod_add_mod]
  have hwrites : ∀ write ∈ (⟨display.back, display.screen.map Flip.buffer, display.queue.map Flip.buffer⟩ ::
      display.writes : List DisplayWrite), write.buffer ∉ write.queued ∧ write.screen ≠ some write.buffer :=
    List.forall_mem_cons.mpr ⟨hclear, h.clear⟩
  have hscreen : ∀ flip ∈ display.screen, 0 < flip.serial ∧ flip.serial ≤ display.flips + 1 ∧
      flip.buffer = (flip.serial - 1) % displayBuffers := fun flip hflip =>
    ⟨(h.screen flip hflip).1, Nat.le_succ_of_le (h.screen flip hflip).2.1, (h.screen flip hflip).2.2⟩
  have hqueue : ∀ flip ∈ display.queue, display.shown < flip.serial ∧ flip.serial ≤ display.flips + 1 ∧
      flip.buffer = (flip.serial - 1) % displayBuffers := fun flip hflip =>
    ⟨(h.queue flip hflip).1, Nat.le_succ_of_le (h.queue flip hflip).2.1, (h.queue flip hflip).2.2⟩
  cases accepted with
  | false =>
    refine ⟨hback, hscreen, hqueue, h.inOrder, ?_, hwrites⟩
    show display.latest + (display.refused + 1) = display.flips + 1
    rw [← Nat.add_assoc, h.counted]
  | true =>
    refine ⟨hback, hscreen, fun flip hflip => ?_, ?_, ?_, hwrites⟩
    · rcases List.mem_append.mp hflip with hold | hnew
      · exact hqueue flip hold
      · obtain rfl := List.mem_singleton.mp hnew
        exact ⟨Nat.lt_succ_of_le hshown, Nat.le_refl _, h.back⟩
    · refine List.pairwise_append.mpr ⟨h.inOrder, List.pairwise_singleton .., fun flip hflip last hlast => ?_⟩
      obtain rfl := List.mem_singleton.mp hlast
      exact Nat.lt_succ_of_le (h.queue flip hflip).2.1
    · show (((display.queue ++ [_]).getLast?).map Flip.serial).getD _ + 0 = display.flips + 1
      rw [List.getLast?_concat]
      rfl

theorem Wf.prepare {display : Display} (h : display.Wf) (looks : Nat → Look) : (display.prepare looks).1.Wf := by
  unfold Display.prepare
  split
  · exact h.await ..
  · exact h

theorem free_of_prepare {display : Display} {looks : Nat → Look} (h : (display.prepare looks).2 = none) :
    (display.prepare looks).1.flips < 2 ∨ (display.prepare looks).1.ready = true := by
  unfold prepare at h ⊢
  split at h
  next hflips =>
    rw [if_pos hflips]
    exact Or.inr (ready_of_await h)
  next hflips =>
    rw [if_neg hflips]
    exact Or.inl (Nat.not_le.mp hflips)

theorem Wf.step {display : Display} (h : display.Wf) (event : DisplayEvent) : (display.step event).Wf := by
  have hwrite : ∀ looks accepted, (match display.prepare looks with
      | (display, some result) => (display, result)
      | (display, none) => display.flip accepted : Display × DisplayResult).1.Wf := by
    intro looks accepted
    have hprepared := h.prepare looks
    cases hresult : display.prepare looks with
    | mk prepared result =>
      rw [hresult] at hprepared
      cases result with
      | some result => exact hprepared
      | none =>
        have hfree := @free_of_prepare display looks (by rw [hresult])
        rw [hresult] at hfree
        exact hprepared.flip hfree accepted
  cases event with
  | present picture looks accepted =>
    unfold Display.step present
    dsimp only
    split
    · exact h
    · exact hwrite looks accepted
  | reshow looks accepted =>
    unfold Display.step reshow
    dsimp only
    split
    · exact h
    · exact hwrite looks accepted
  | vblank => exact h.vblank

theorem run_wf : (run events).Wf :=
  List.foldlRecOn (motive := Wf) events _ .opened fun _ h event _ => h.step event

/-! ### Presents that are refused as busy -/

theorem vblanks_of_empty {display : Display} (h : display.queue = []) (count : Nat) : vblank^[count] display = display := by
  have hsame : display.vblank = display := by
    unfold vblank
    rw [h]
  exact Function.iterate_fixed hsame count

/-- Where all is shown and the buffer is not free, no wait helps. -/
theorem await_of_empty {display : Display} (hqueue : display.queue = []) (hready : display.ready = false)
    (sleeps : Nat) {looks : Nat → Look} (hlooks : ∀ k, (looks k).fails = false) :
    await sleeps looks display = (display, some .busy) := by
  induction sleeps generalizing looks with
  | zero =>
    unfold await
    simp [hlooks 0, hready]
  | succ sleeps ih =>
    unfold await
    rw [vblanks_of_empty hqueue]
    simp only [hlooks 0, hready, Bool.false_eq_true, if_false]
    exact ih fun k => hlooks (k + 1)

/-- The flip status then lags by the flips that were refused since. -/
theorem Wf.ready_iff {display : Display} (h : display.Wf) (hqueue : display.queue = []) :
    display.ready = true ↔ display.refused < 2 := by
  have hlatest : display.latest = display.shown := by
    unfold latest
    rw [hqueue]
    rfl
  have hcounted := h.counted
  unfold ready
  rw [decide_eq_true_iff]
  omega

/-- Where the buffer is free there is no wait. -/
theorem prepare_of_ready {display : Display} (hready : display.ready = true) (looks : Nat → Look) :
    display.prepare looks = (display, none) ∨ display.prepare looks = (display, some .error) := by
  unfold prepare
  split
  · unfold await
    rw [if_pos hready]
    split
    · exact Or.inr rfl
    · exact Or.inl rfl
  · exact Or.inl rfl

theorem present_ne_busy {display : Display} (hready : display.ready = true) (picture : Picture)
    (looks : Nat → Look) (accepted : Bool) : (display.present picture looks accepted).2 ≠ .busy := by
  unfold present
  split
  · nofun
  · rcases prepare_of_ready hready looks with hprepare | hprepare
    all_goals rw [hprepare]
    · cases accepted <;> nofun
    · nofun

/-- A picture of one pixel, and looks at the status that do not fail. -/
def pixel : Picture :=
  ⟨1, 1, 4⟩

def quiet : Nat → Look :=
  fun _ => ⟨false, 0⟩

theorem present_busy {display : Display} (hqueue : display.queue = []) (hready : display.ready = false)
    (hflips : 2 ≤ display.flips) (accepted : Bool) : (display.present pixel quiet accepted).2 = .busy := by
  have hprepare : display.prepare quiet = (display, some .busy) := by
    unfold prepare
    rw [if_pos hflips]
    exact await_of_empty hqueue hready 2000 fun _ => rfl
  unfold present
  rw [if_neg (by decide), hprepare]

/-- In every run the buffers that are written are neither on screen nor queued; and where every accepted flip has been
shown, presents are never refused as busy exactly if VideoOut has not refused the last two flips. -/
theorem run_clear :
    (∀ write ∈ (run events).writes, write.buffer ∉ write.queued ∧ write.screen ≠ some write.buffer) ∧
    ((run events).queue = [] →
      ((∀ picture looks accepted, ((run events).present picture looks accepted).2 ≠ .busy) ↔
        (run events).refused < 2)) := by
  have h := run_wf events
  generalize run events = display at h
  refine ⟨h.clear, fun hqueue => ⟨fun hnever => ?_, fun hrefused => ?_⟩⟩
  · by_contra hrefused
    have hready : display.ready = false := Bool.eq_false_iff.mpr (mt (h.ready_iff hqueue).mp hrefused)
    have hcounted := h.counted
    exact hnever pixel quiet true (present_busy hqueue hready (by omega) true)
  · exact present_ne_busy ((h.ready_iff hqueue).mpr hrefused)

/-- A frame that is shown. -/
def shownOnce : List DisplayEvent :=
  [.present pixel quiet true, .vblank]

/-- After a refused flip the next present is not refused as busy. -/
theorem refusedOnce_clear :
    (run (shownOnce ++ [.present pixel quiet false])).queue = [] ∧
      ∀ picture looks accepted,
        ((run (shownOnce ++ [.present pixel quiet false])).present picture looks accepted).2 ≠ .busy :=
  ⟨by decide, ((run_clear (shownOnce ++ [.present pixel quiet false])).2 (by decide)).mpr (by decide)⟩

/-- After two, all that was accepted is shown and every present is refused as busy. -/
theorem refusedTwice_busy :
    (run (shownOnce ++ [.present pixel quiet false, .present pixel quiet false])).queue = [] ∧
      ((run (shownOnce ++ [.present pixel quiet false, .present pixel quiet false])).present pixel quiet true).2 = .busy :=
  ⟨by decide, present_busy (by decide) (by decide) (by decide) true⟩

end Display

end Ps5Vulkan.GpuBroker
