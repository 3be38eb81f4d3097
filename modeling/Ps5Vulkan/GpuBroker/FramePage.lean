import Mathlib.Algebra.GroupWithZero.Nat
import Mathlib.Tactic.Common

/-!
# Frame pages

A helper publishes its pictures in a page it shares with the broker (`PwFramePage`): `sequence` is odd while it
writes, and even and larger once the frame is whole. The compositor copies the picture out, and shows the copy only if
`sequence` was even before and is the same after. The helper's and the compositor's accesses are words of 32 bits, each
a step of its own.
-/

variable (words : FrameWords)

namespace Ps5Vulkan.GpuBroker

/-- `PW_FRAME_BYTES`, `PW_FRAME_HEADER`, `PW_FRAME_WIDTH` and `PW_FRAME_HEIGHT`. -/
def frameBytes : Nat := 8323072

def frameHeader : Nat := 16384

def frameWidth : Nat := 1920

def frameHeight : Nat := 1080

/-- The page's words but `sequence`, by their index. -/
abbrev FrameWords : Type := Nat → Nat

/-- The words a copy reads, in turn: `width`, `height`, `stride`, `x`, `y`, and the pixels. -/
def frameWord (turn : Nat) : Nat :=
  if turn < 5 then turn + 2 else frameHeader / 4 + (turn - 5)

/-- The compositor's check of a header it has read. -/
def frameAccepted (width height stride : Nat) : Prop :=
  width ≠ 0 ∧ width ≤ frameWidth ∧ height ≠ 0 ∧ height ≤ frameHeight ∧ stride = width * 4

instance (width height stride : Nat) : Decidable (frameAccepted width height stride) :=
  inferInstanceAs (Decidable (_ ∧ _))

/-- How many words a copy has once it is whole, as far as is known: `none` where the header is refused. -/
def frameTotal : List Nat → Option Nat
  | width :: height :: stride :: _ :: _ :: _ =>
    if frameAccepted width height stride then some (5 + width * height) else none
  | _ => some 5

structure FramePage where
  sequence : Nat
  words : FrameWords
  /-- The frames published so far, the newest first. -/
  published : List FrameWords
  /-- The compositor's copy: the sequence it found, and the words read so far. -/
  copy : Option (Nat × List Nat)
  /-- The frames published since the copy was begun. -/
  since : Nat
  shown : List (List Nat)
  /-- The words the compositor has read. -/
  touched : List Nat

inductive FrameEvent
  | begin
  | write (word value : Nat)
  | publish
  /-- The compositor's next access. -/
  | read
  deriving DecidableEq, Repr

namespace FramePage

/-- A new page, whatever its words are. -/
def start : FramePage :=
  ⟨0, words, [], none, 0, [], []⟩

variable (page : FramePage)

def read : FramePage :=
  match page.copy with
  | none =>
    if page.sequence % 2 = 1 ∨ page.sequence = 0 then page else { page with copy := some (page.sequence, []), since := 0 }
  | some (sequence, got) =>
    match frameTotal got with
    | none => { page with copy := none }
    | some total =>
      if got.length < total then
        { page with
          copy := some (sequence, got ++ [page.words (frameWord got.length)])
          touched := frameWord got.length :: page.touched }
      else { page with copy := none, shown := if page.sequence = sequence then got :: page.shown else page.shown }

def step : FrameEvent → FramePage
  | .begin => if page.sequence % 2 = 0 then { page with sequence := (page.sequence + 1) % 2 ^ 32 } else page
  | .write word value =>
    if page.sequence % 2 = 1 then { page with words := Function.update page.words word value } else page
  | .publish =>
    if page.sequence % 2 = 1 then
      { page with
        sequence := (page.sequence + 1) % 2 ^ 32
        published := page.words :: page.published
        since := page.since + 1 }
    else page
  | .read => page.read

def run (events : List FrameEvent) : FramePage :=
  events.foldl step (start words)

/-- Fewer than 2^31 frames are published during one copy. -/
def briefAlong : FramePage → List FrameEvent → Bool
  | page, [] => page.copy.isNone || decide (page.since < 2 ^ 31)
  | page, event :: events =>
    (page.copy.isNone || decide (page.since < 2 ^ 31)) && briefAlong (page.step event) events

/-- The copy is the whole of a frame: its size, its place and all its pixels. -/
def Whole (frame : FrameWords) (picture : List Nat) : Prop :=
  frameAccepted (frame 2) (frame 3) (frame 4) ∧
    picture = (List.range (5 + frame 2 * frame 3)).map fun turn => frame (frameWord turn)

/-! ### Steps -/

/-- A copy has its header, or every word of it that is read is in the header. -/
theorem frameTotal_cases {got : List Nat} {total : Nat} (h : frameTotal got = some total) :
    got.length < 5 ∧ total = 5 ∨ ∃ width height stride x y pixels, got = width :: height :: stride :: x :: y :: pixels ∧
      frameAccepted width height stride ∧ total = 5 + width * height := by
  match got with
  | [] | [_] | [_, _] | [_, _, _] | [_, _, _, _] => exact .inl ⟨by simp, (Option.some.inj h).symm⟩
  | width :: height :: stride :: x :: y :: pixels =>
    rw [frameTotal] at h
    split at h
    next haccepted =>
      exact .inr ⟨width, height, stride, x, y, pixels, rfl, haccepted, (Option.some.inj h).symm⟩
    next => cases h

theorem length_lt_frameTotal {got : List Nat} {total total' value : Nat} (h : frameTotal got = some total)
    (hlt : got.length < total) (h' : frameTotal (got ++ [value]) = some total') : got.length + 1 ≤ total' := by
  rcases frameTotal_cases h with ⟨hshort, rfl⟩ | ⟨width, height, stride, x, y, pixels, rfl, haccepted, rfl⟩
  · rcases frameTotal_cases h' with ⟨-, rfl⟩ | ⟨width, height, stride, x, y, pixels, -, -, rfl⟩
    · omega
    · omega
  · simp only [List.cons_append, frameTotal, if_pos haccepted, Option.some.injEq] at h'
    omega

/-- Whatever the header holds, the words of a copy lie in the page. -/
theorem frameWord_lt {got : List Nat} {total : Nat} (h : frameTotal got = some total) (hlt : got.length < total) :
    frameWord got.length < frameBytes / 4 := by
  simp only [frameWord, frameHeader, frameBytes]
  rcases frameTotal_cases h with ⟨hshort, -⟩ | ⟨width, height, stride, x, y, pixels, -, haccepted, rfl⟩
  · rw [if_pos hshort]
    omega
  · obtain ⟨-, hwidth, -, hheight, -⟩ := haccepted
    have hsize : width * height ≤ frameWidth * frameHeight := Nat.mul_le_mul hwidth hheight
    simp only [frameWidth, frameHeight] at hsize
    split <;> omega

variable {page}

structure Sound (page : FramePage) : Prop where
  sequence : page.sequence < 2 ^ 32
  newest : page.sequence % 2 = 0 → page.sequence = 0 ∨ page.words ∈ page.published
  /-- The sequence has moved on by two for each frame since, and by one more for one that is being written. -/
  moved : ∀ first got, page.copy = some (first, got) → first ≠ 0 ∧ first % 2 = 0 ∧ first < 2 ^ 32 ∧
    page.sequence = (first + 2 * page.since + page.sequence % 2) % 2 ^ 32
  copied : ∀ first got, page.copy = some (first, got) → page.since = 0 → page.sequence % 2 = 0 →
    got = (List.range got.length).map fun turn => page.words (frameWord turn)
  within : ∀ first got, page.copy = some (first, got) → ∀ total, frameTotal got = some total → got.length ≤ total
  shown : ∀ picture ∈ page.shown, ∃ frame ∈ page.published, Whole frame picture
  touched : ∀ word ∈ page.touched, word < frameBytes / 4

namespace Sound

/-- A copy whose sequence has not changed is the newest frame. -/
theorem whole (h : page.Sound) {first total : Nat} {got : List Nat} (hcopy : page.copy = some (first, got))
    (hbrief : page.since < 2 ^ 31) (htotal : frameTotal got = some total) (hlength : ¬got.length < total)
    (hsame : page.sequence = first) : ∃ frame ∈ page.published, Whole frame got := by
  obtain ⟨hne, heven, -, hmoved⟩ := h.moved first got hcopy
  have hwords := h.copied first got hcopy (by omega) (by omega)
  refine ⟨page.words, (h.newest (by omega)).resolve_left (by omega), ?_⟩
  have hexact : got.length = total := Nat.le_antisymm (h.within first got hcopy total htotal) (by omega)
  rcases frameTotal_cases htotal with ⟨hshort, rfl⟩ | ⟨width, height, stride, x, y, pixels, rfl, haccepted, rfl⟩
  · omega
  · have hheader : ∀ turn, turn < 5 → (width :: height :: stride :: x :: y :: pixels)[turn]? =
        some (page.words (turn + 2)) := by
      intro turn hturn
      rw [hwords, List.getElem?_map, List.getElem?_range (by simp; omega), Option.map_some, frameWord, if_pos hturn]
    have hwidth : width = page.words 2 := Option.some.inj (hheader 0 (by decide))
    have hheight : height = page.words 3 := Option.some.inj (hheader 1 (by decide))
    have hstride : stride = page.words 4 := Option.some.inj (hheader 2 (by decide))
    rw [hwidth, hheight, hstride] at haccepted
    refine ⟨haccepted, hwords.trans ?_⟩
    rw [hexact, hwidth, hheight]

theorem read (h : page.Sound) (hbrief : page.copy.isNone || decide (page.since < 2 ^ 31)) : page.read.Sound := by
  unfold FramePage.read
  split
  next hnone =>
    split
    · exact h
    next hready =>
      have hsequence := h.sequence
      refine { h with moved := ?_, copied := ?_, within := ?_ }
      all_goals
        intro first got hcopy
        obtain ⟨rfl, rfl⟩ := Prod.mk.inj (Option.some.inj hcopy)
      · exact ⟨by omega, by omega, h.sequence, by dsimp only; omega⟩
      · exact fun _ _ => rfl
      · exact fun _ _ => Nat.zero_le _
  next first got hcopy =>
    have hsince : page.since < 2 ^ 31 := by simpa [hcopy] using hbrief
    split
    · exact { h with moved := nofun, copied := nofun, within := nofun }
    next total htotal =>
      split
      next hlt =>
        refine { h with moved := ?_, copied := ?_, within := ?_, touched := ?_ }
        · intro _ _ hnew
          obtain ⟨rfl, rfl⟩ := Prod.mk.inj (Option.some.inj hnew)
          exact h.moved _ _ hcopy
        · intro _ _ hnew hzero heven
          obtain ⟨rfl, rfl⟩ := Prod.mk.inj (Option.some.inj hnew)
          rw [List.length_append, List.length_singleton, List.range_succ, List.map_append,
            ← h.copied _ _ hcopy hzero heven, List.map_singleton]
        · intro _ _ hnew total' htotal'
          obtain ⟨rfl, rfl⟩ := Prod.mk.inj (Option.some.inj hnew)
          rw [List.length_append]
          exact length_lt_frameTotal htotal hlt htotal'
        · exact List.forall_mem_cons.mpr ⟨frameWord_lt htotal hlt, h.touched⟩
      next hlength =>
        refine { h with moved := nofun, copied := nofun, within := nofun, shown := ?_ }
        dsimp only
        split
        next hsame => exact List.forall_mem_cons.mpr ⟨h.whole hcopy hsince htotal hlength hsame, h.shown⟩
        next => exact h.shown

theorem step (h : page.Sound) (event : FrameEvent) (hbrief : page.copy.isNone || decide (page.since < 2 ^ 31)) :
    (page.step event).Sound := by
  have hsequence := h.sequence
  cases event with
  | read => exact h.read hbrief
  | begin =>
    unfold FramePage.step
    dsimp only
    split
    next heven =>
      have hodd : (page.sequence + 1) % 2 ^ 32 % 2 = 1 := by omega
      refine { h with
        sequence := Nat.mod_lt _ (by decide)
        newest := fun h' => absurd (h'.symm.trans hodd) (by decide)
        moved := fun first got hcopy => ?_
        copied := fun _ _ _ _ h' => absurd (h'.symm.trans hodd) (by decide) }
      obtain ⟨hne, hfirst, hlt, hmoved⟩ := h.moved first got hcopy
      exact ⟨hne, hfirst, hlt, by dsimp only; omega⟩
    next => exact h
  | write word value =>
    unfold FramePage.step
    dsimp only
    split
    next hodd =>
      exact { h with
        newest := fun heven => absurd (hodd.symm.trans heven) (by decide)
        copied := fun _ _ _ _ heven => absurd (hodd.symm.trans heven) (by decide) }
    next => exact h
  | publish =>
    unfold FramePage.step
    dsimp only
    split
    next hodd =>
      refine { h with
        sequence := Nat.mod_lt _ (by decide)
        newest := fun _ => .inr List.mem_cons_self
        moved := fun first got hcopy => ?_
        copied := fun _ _ _ hzero => absurd hzero (Nat.succ_ne_zero _)
        shown := fun picture hpicture => ?_ }
      · obtain ⟨hne, hfirst, hlt, hmoved⟩ := h.moved first got hcopy
        exact ⟨hne, hfirst, hlt, by dsimp only; omega⟩
      · obtain ⟨frame, hframe, hwhole⟩ := h.shown picture hpicture
        exact ⟨frame, List.mem_cons_of_mem _ hframe, hwhole⟩
    next => exact h

end Sound

/-- Every picture shown is a whole frame that was published, and no word outside the page is read. -/
theorem run_whole (events : List FrameEvent) (hbrief : briefAlong (start words) events = true) :
    (∀ picture ∈ (run words events).shown, ∃ frame ∈ (run words events).published, Whole frame picture) ∧
      ∀ word ∈ (run words events).touched, word < frameBytes / 4 := by
  suffices hsound : ∀ page : FramePage, page.Sound → briefAlong page events = true → (events.foldl step page).Sound by
    have hstart : (start words).Sound := ⟨Nat.two_pow_pos 32, fun _ => .inl rfl, nofun, nofun, nofun, nofun, nofun⟩
    exact ⟨(hsound _ hstart hbrief).shown, (hsound _ hstart hbrief).touched⟩
  clear hbrief
  induction events with
  | nil => exact fun _ h _ => h
  | cons event events ih =>
    intro page h hbrief
    obtain ⟨hfirst, hrest⟩ := Bool.and_eq_true_iff.mp hbrief
    exact ih _ (h.step event hfirst) hrest

/-- While a frame of one pixel is copied the next one is published; the copy is dropped and begun again. -/
def onePixel : List FrameEvent :=
  [.begin, .write 2 1, .write 3 1, .write 4 4, .write 4096 7, .publish, .read, .read, .begin, .write 4096 8, .publish] ++
    List.replicate 14 .read

theorem onePixel_whole :
    briefAlong (start fun _ => 0) onePixel = true ∧ (run (fun _ => 0) onePixel).shown = [[1, 1, 4, 0, 0, 8]] ∧
      ∀ picture ∈ (run (fun _ => 0) onePixel).shown,
        ∃ frame ∈ (run (fun _ => 0) onePixel).published, Whole frame picture :=
  ⟨by decide, by decide, (run_whole _ onePixel (by decide)).1⟩

end FramePage

end Ps5Vulkan.GpuBroker
