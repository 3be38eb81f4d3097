import Mathlib.Algebra.GroupWithZero.Nat
import Mathlib.Data.List.Pairwise
import Mathlib.Tactic.Common

/-!
# The frame counter

`ps5_gpu_broker_flips` reads three numbers without a lock: whether the application's cover is held and, if not, the
display's flips and those of the cover. Presents and changes of the cover happen under `display_lock`. Every load and
store is a step of its own, and the two operands of the difference may be read in either order (`flipsFirst`). The
count a cover began with, the program's own flips and what was true throughout a call are here for what is proved.
-/

namespace Ps5Vulkan.GpuBroker

/-- Where the holder of `display_lock` is, between two of its stores. -/
inductive DisplayLock
  | free
  /-- The cover's flip is not in the cover's count yet. -/
  | counting
  /-- The count is frozen for a cover that is not held yet. -/
  | freezing
  deriving DecidableEq, Repr

/-- How far a call is. -/
inductive FlipsCall
  | idle
  | covered
  | uncovered
  | half (operand : Nat)
  deriving DecidableEq, Repr

/-- A call that returned: its value, the program's flips when it started and when it returned, the count the last
cover began with, and whether the cover stayed held, or not held, throughout. -/
structure FlipsAnswer where
  value : Nat
  started : Nat
  finished : Nat
  began : Nat
  whole : Bool
  held : Bool
  deriving DecidableEq, Repr

/-- A cover throughout: the count it began with. None throughout: a count of the program's flips during the call. -/
def FlipsAnswer.Right (answer : FlipsAnswer) : Prop :=
  answer.whole = true →
    (answer.held = true → answer.value = answer.began) ∧
      (answer.held = false → answer.started ≤ answer.value ∧ answer.value ≤ answer.finished)

structure FlipCounter where
  flips : Nat
  coverFlips : Nat
  frozen : Nat
  held : Bool
  lock : DisplayLock
  call : FlipsCall
  program : Nat
  began : Nat
  started : Nat
  whole : Bool
  answers : List FlipsAnswer
  deriving DecidableEq, Repr

inductive FlipEvent
  | present
  | coverFlip
  | coverCount
  | freeze
  | hold
  | uncover
  /-- The next load of the calling thread. -/
  | load
  deriving DecidableEq, Repr

namespace FlipCounter

/-- The difference of two 64-bit numbers. -/
def sub64 (a b : Nat) : Nat :=
  (a + 2 ^ 64 - b) % 2 ^ 64

def start : FlipCounter :=
  ⟨0, 0, 0, false, .free, .idle, 0, 0, 0, true, []⟩

def answer (state : FlipCounter) (value : Nat) : FlipCounter :=
  { state with
    call := .idle
    answers := ⟨value, state.started, state.program, state.began, state.whole, state.held⟩ :: state.answers }

/-- `ps5_gpu_broker_flips`. -/
def load (flipsFirst : Bool) (state : FlipCounter) : FlipCounter :=
  match state.call with
  | .idle =>
    { state with call := if state.held then .covered else .uncovered, started := state.program, whole := true }
  | .covered => state.answer state.frozen
  | .uncovered => { state with call := .half (if flipsFirst then state.flips else state.coverFlips) }
  | .half operand =>
    state.answer (if flipsFirst then sub64 operand state.coverFlips else sub64 state.flips operand)

def step (flipsFirst : Bool) (state : FlipCounter) : FlipEvent → FlipCounter
  | .present =>
    if state.lock = .free then { state with flips := state.flips + 1, program := state.program + 1 } else state
  | .coverFlip =>
    if state.lock = .free ∧ state.held then { state with flips := state.flips + 1, lock := .counting } else state
  | .coverCount =>
    if state.lock = .counting then { state with coverFlips := state.coverFlips + 1, lock := .free } else state
  -- `ps5_gpu_broker_set_cover`, with a picture and none before it
  | .freeze =>
    if state.lock = .free ∧ ¬state.held then
      { state with frozen := sub64 state.flips state.coverFlips, lock := .freezing }
    else state
  | .hold =>
    if state.lock = .freezing then
      { state with held := true, lock := .free, began := state.program, whole := false }
    else state
  | .uncover =>
    if state.lock = .free ∧ state.held then { state with held := false, whole := false } else state
  | .load => state.load flipsFirst

def run (flipsFirst : Bool) (events : List FlipEvent) : FlipCounter :=
  events.foldl (step flipsFirst) start

/-- The frames are counted: no answer is smaller than the one before it, and each is right. -/
structure Counted (state : FlipCounter) : Prop where
  sorted : (state.answers.map FlipsAnswer.value).Pairwise (· ≥ ·)
  right : ∀ answer ∈ state.answers, answer.Right

/-- No cover becomes held under a call that has found none, and the flips have not come around. -/
def undisturbed (state : FlipCounter) (event : FlipEvent) : Bool :=
  decide (state.flips < 2 ^ 64) && (event != .hold || state.call == .idle || state.call == .covered)

def undisturbedAlong (flipsFirst : Bool) : FlipCounter → List FlipEvent → Bool
  | _, [] => true
  | state, event :: events =>
    state.undisturbed event && undisturbedAlong flipsFirst (state.step flipsFirst event) events

/-! ### Steps -/

variable {flipsFirst : Bool} {state : FlipCounter}

theorem sub64_of_le {a b : Nat} (h : b ≤ a) (hlt : a < 2 ^ 64) : sub64 a b = a - b := by
  unfold sub64
  omega

/-- What a call that is under way has read: a count of the program's flips since it started, and since all calls
before it. -/
def Reads (flipsFirst : Bool) (state : FlipCounter) : Prop :=
  match state.call with
  | .idle => True
  | .covered => (∀ answer ∈ state.answers, answer.value ≤ state.frozen) ∧ (state.whole = true → state.held = true)
  | .uncovered => state.held = false
  | .half operand => state.held = false ∧ ∃ count,
      operand = (if flipsFirst then count + state.coverFlips else state.coverFlips) ∧
        state.started ≤ count ∧ count ≤ state.program ∧ ∀ answer ∈ state.answers, answer.value ≤ count

structure Sound (flipsFirst : Bool) (state : FlipCounter) : Prop where
  total : state.flips = state.program + state.coverFlips + (if state.lock = .counting then 1 else 0)
  counting : state.lock = .counting → state.held = true
  freezing : state.lock = .freezing → state.frozen = state.program ∧ state.held = false
  frozen : state.frozen ≤ state.program
  began : state.held = true → state.frozen = state.began
  started : state.started ≤ state.program
  below : ∀ answer ∈ state.answers, answer.value ≤ state.program
  belowFrozen : state.held = true → ∀ answer ∈ state.answers, answer.value ≤ state.frozen
  reads : state.Reads flipsFirst
  counted : state.Counted

namespace Sound

section

variable (h : state.Sound flipsFirst)

include h

/-- A call returns a count no call before it was above. -/
theorem answer {value : Nat} (hle : value ≤ state.program)
    (hfrozen : state.held = true → value ≤ state.frozen) (habove : ∀ answer ∈ state.answers, answer.value ≤ value)
    (hright : (⟨value, state.started, state.program, state.began, state.whole, state.held⟩ : FlipsAnswer).Right) :
    (state.answer value).Sound flipsFirst where
  __ := h
  below := List.forall_mem_cons.mpr ⟨hle, h.below⟩
  belowFrozen hheld := List.forall_mem_cons.mpr ⟨hfrozen hheld, h.belowFrozen hheld⟩
  reads := trivial
  counted :=
    { sorted := List.pairwise_cons.mpr ⟨fun value hvalue => by
        obtain ⟨answer, hanswer, rfl⟩ := List.mem_map.mp hvalue
        exact habove answer hanswer, h.counted.sorted⟩
      right := List.forall_mem_cons.mpr ⟨hright, h.counted.right⟩ }

/-- With no cover held, every flip of the covers so far is counted. -/
theorem flips_eq (hheld : state.held = false) : state.flips = state.program + state.coverFlips := by
  have hlock : state.lock ≠ .counting := fun hlock => absurd (h.counting hlock) (by simp [hheld])
  simpa [hlock] using h.total

theorem load (hflips : state.flips < 2 ^ 64) : (state.load flipsFirst).Sound flipsFirst := by
  have hreads := h.reads
  unfold FlipCounter.load
  unfold Reads at hreads
  split
  next hcall =>
    refine { h with started := Nat.le_refl _, reads := ?_, counted := ⟨h.counted.sorted, h.counted.right⟩ }
    cases hheld : state.held with
    | true => exact ⟨h.belowFrozen hheld, fun _ => rfl⟩
    | false => exact rfl
  next hcall =>
    rw [hcall] at hreads
    refine h.answer h.frozen (fun _ => Nat.le_refl _) hreads.1 fun hwhole => ⟨h.began, fun hheld => ?_⟩
    exact absurd (hreads.2 hwhole) (by simp [show state.held = false from hheld])
  next hcall =>
    rw [hcall] at hreads
    refine { h with
      reads := ⟨hreads, state.program, by rw [h.flips_eq hreads], h.started, Nat.le_refl _, h.below⟩
      counted := ⟨h.counted.sorted, h.counted.right⟩ }
  next operand hcall =>
    rw [hcall] at hreads
    obtain ⟨hheld, count, hoperand, hstarted, hle, habove⟩ := hreads
    have htotal := h.flips_eq hheld
    have huncovered : ¬state.held = true := by simp [hheld]
    cases flipsFirst with
    | true =>
      have hvalue : sub64 operand state.coverFlips = count := by
        simp only [if_true] at hoperand
        rw [sub64_of_le (by omega) (by omega)]
        omega
      simp only [if_true, hvalue]
      exact h.answer hle (absurd · huncovered) habove fun _ => ⟨(absurd · huncovered), fun _ => ⟨hstarted, hle⟩⟩
    | false =>
      have hvalue : sub64 state.flips operand = state.program := by
        simp only [Bool.false_eq_true, if_false] at hoperand
        rw [sub64_of_le (by omega) (by omega)]
        omega
      simp only [Bool.false_eq_true, if_false, hvalue]
      exact h.answer (Nat.le_refl _) (absurd · huncovered) h.below
        fun _ => ⟨(absurd · huncovered), fun _ => ⟨h.started, Nat.le_refl _⟩⟩

/-- What a call has read stays so, unless a cover becomes held under it. -/
theorem reads_of {state' : FlipCounter} (hcall : state'.call = state.call)
    (hanswers : state'.answers = state.answers) (hstarted : state'.started = state.started)
    (hfrozen : state.frozen ≤ state'.frozen) (hprogram : state.program ≤ state'.program)
    (hwhole : state'.whole = true → state.whole = true ∧ state'.held = state.held)
    (hheld : state.call = .idle ∨ state.call = .covered ∨
      (state.held = false → state'.held = false ∧ state'.coverFlips = state.coverFlips)) : state'.Reads flipsFirst := by
  have hreads := h.reads
  unfold Reads at hreads ⊢
  rw [hcall, hanswers, hstarted]
  cases hstate : state.call with
  | idle => trivial
  | covered =>
    rw [hstate] at hreads
    refine ⟨fun answer hanswer => Nat.le_trans (hreads.1 answer hanswer) hfrozen, fun hw => ?_⟩
    exact (hwhole hw).2.trans (hreads.2 (hwhole hw).1)
  | uncovered =>
    rw [hstate] at hreads hheld
    exact ((hheld.resolve_left nofun).resolve_left nofun hreads).1
  | half operand =>
    rw [hstate] at hreads hheld
    obtain ⟨hnone, count, hoperand, hfrom, hle, habove⟩ := hreads
    obtain ⟨hnone', hcover⟩ := (hheld.resolve_left nofun).resolve_left nofun hnone
    exact ⟨hnone', count, hcover ▸ hoperand, hfrom, Nat.le_trans hle hprogram, habove⟩

theorem choose {condition : Prop} [Decidable condition] {state' : FlipCounter}
    (h' : condition → state'.Sound flipsFirst) : Sound flipsFirst (if condition then state' else state) := by
  split
  next hcondition => exact h' hcondition
  next => exact h

theorem step {event : FlipEvent} (hquiet : state.undisturbed event = true) :
    (state.step flipsFirst event).Sound flipsFirst := by
  obtain ⟨hflips, hcall⟩ := Bool.and_eq_true_iff.mp hquiet
  have hflips : state.flips < 2 ^ 64 := of_decide_eq_true hflips
  have htotal := h.total
  have hcounted : ∀ state' : FlipCounter, state'.answers = state.answers → state'.Counted := fun state' hsame =>
    ⟨hsame ▸ h.counted.sorted, hsame ▸ h.counted.right⟩
  cases event with
  | load => exact h.load hflips
  | present =>
    refine h.choose fun hfree => { h with
      total := ?_
      freezing := fun hlock => absurd (hfree.symm.trans hlock) nofun
      frozen := Nat.le_succ_of_le h.frozen
      started := Nat.le_succ_of_le h.started
      below := fun answer hanswer => Nat.le_succ_of_le (h.below answer hanswer)
      reads := h.reads_of rfl rfl rfl (Nat.le_refl _) (Nat.le_succ _) (fun hw => ⟨hw, rfl⟩)
        (.inr (.inr fun hnone => ⟨hnone, rfl⟩))
      counted := hcounted _ rfl }
    simp only [hfree] at htotal ⊢
    omega
  | coverFlip =>
    refine h.choose fun hguard => { h with
      total := ?_
      counting := fun _ => hguard.2
      freezing := nofun
      reads := h.reads_of rfl rfl rfl (Nat.le_refl _) (Nat.le_refl _) (fun hw => ⟨hw, rfl⟩)
        (.inr (.inr fun hnone => ⟨hnone, rfl⟩))
      counted := hcounted _ rfl }
    rw [hguard.1, if_neg nofun] at htotal
    exact congrArg Nat.succ htotal
  | coverCount =>
    refine h.choose fun hcounting => { h with
      total := ?_
      counting := nofun
      freezing := nofun
      reads := h.reads_of rfl rfl rfl (Nat.le_refl _) (Nat.le_refl _) (fun hw => ⟨hw, rfl⟩)
        (.inr (.inr fun hnone => absurd (h.counting hcounting) (by simp [hnone])))
      counted := hcounted _ rfl }
    rw [if_pos hcounting] at htotal
    exact htotal
  | freeze =>
    refine h.choose fun hguard => ?_
    have hnone : state.held = false := by simpa using hguard.2
    have hprogram := h.flips_eq hnone
    have hvalue : sub64 state.flips state.coverFlips = state.program := by
      rw [sub64_of_le (by omega) hflips]
      omega
    rw [hvalue]
    exact { h with
      total := hprogram
      counting := nofun
      freezing := fun _ => ⟨rfl, hnone⟩
      frozen := Nat.le_refl _
      began := fun hheld => absurd hheld (by simp [hnone])
      belowFrozen := fun hheld => absurd hheld (by simp [hnone])
      reads := h.reads_of rfl rfl rfl h.frozen (Nat.le_refl _) (fun hw => ⟨hw, rfl⟩)
        (.inr (.inr fun hnone => ⟨hnone, rfl⟩))
      counted := hcounted _ rfl }
  | hold =>
    refine h.choose fun hfreezing => ?_
    obtain ⟨hfrozen, hnone⟩ := h.freezing hfreezing
    have hidle : state.call = .idle ∨ state.call = .covered := by simpa using hcall
    exact { h with
      total := h.flips_eq hnone
      counting := nofun
      freezing := nofun
      began := fun _ => hfrozen
      belowFrozen := fun _ answer hanswer => hfrozen ▸ h.below answer hanswer
      reads := h.reads_of rfl rfl rfl (Nat.le_refl _) (Nat.le_refl _) nofun (hidle.imp_right .inl)
      counted := hcounted _ rfl }
  | uncover =>
    exact h.choose fun hguard => { h with
      counting := fun hlock => absurd (hguard.1.symm.trans hlock) nofun
      freezing := fun hlock => absurd (hguard.1.symm.trans hlock) nofun
      began := nofun
      belowFrozen := nofun
      reads := h.reads_of rfl rfl rfl (Nat.le_refl _) (Nat.le_refl _) nofun (.inr (.inr fun _ => ⟨rfl, rfl⟩))
      counted := hcounted _ rfl }

theorem steps {events : List FlipEvent} (hquiet : undisturbedAlong flipsFirst state events = true) :
    (events.foldl (FlipCounter.step flipsFirst) state).Sound flipsFirst := by
  induction events generalizing state with
  | nil => exact h
  | cons event events ih =>
    obtain ⟨hfirst, hrest⟩ := Bool.and_eq_true_iff.mp hquiet
    exact ih (h.step hfirst) hrest

end

end Sound

/-- In every run in which no cover becomes held under a call that has found none, the frames are counted. -/
theorem run_counted (flipsFirst : Bool) (events : List FlipEvent)
    (hquiet : undisturbedAlong flipsFirst start events = true) : (run flipsFirst events).Counted :=
  have hstart : start.Sound flipsFirst :=
    ⟨rfl, nofun, nofun, Nat.le_refl _, nofun, Nat.le_refl _, nofun, nofun, trivial, ⟨.nil, nofun⟩⟩
  (hstart.steps hquiet).counted

/-- A frame, a call, a cover that is shown once during which a call is made, and a call after it. -/
def coveredOnce : List FlipEvent :=
  [.present, .load, .load, .load, .freeze, .hold, .coverFlip, .load, .coverCount, .load, .uncover, .present, .load, .load,
    .load]

theorem coveredOnce_counted :
    undisturbedAlong true start coveredOnce = true ∧
      (run true coveredOnce).answers.map FlipsAnswer.value = [2, 1, 1] ∧ (run true coveredOnce).Counted :=
  ⟨by decide, by decide, run_counted true coveredOnce (by decide)⟩

/-- A frame and a call; then a cover becomes held and is shown under a call, between its loads of the flips and of the
cover's. -/
def shownBetween : List FlipEvent :=
  [.present, .load, .load, .load, .load, .load, .freeze, .hold, .coverFlip, .coverCount, .load]

/-- The same for the other order of the loads, and a call after it. -/
def flippedBetween : List FlipEvent :=
  [.present, .load, .load, .load, .load, .load, .freeze, .hold, .coverFlip, .load, .coverCount, .load, .load]

/-- In either order of the loads an answer is smaller than the one before it. -/
theorem answers_fall :
    (run true shownBetween).answers.map FlipsAnswer.value = [0, 1] ∧ ¬(run true shownBetween).Counted ∧
      (run false flippedBetween).answers.map FlipsAnswer.value = [1, 2, 1] ∧ ¬(run false flippedBetween).Counted := by
  have htrue : (run true shownBetween).answers.map FlipsAnswer.value = [0, 1] := by decide
  have hfalse : (run false flippedBetween).answers.map FlipsAnswer.value = [1, 2, 1] := by decide
  refine ⟨htrue, fun hcounted => ?_, hfalse, fun hcounted => ?_⟩
  · exact absurd (htrue ▸ hcounted.sorted) (by decide)
  · exact absurd (hfalse ▸ hcounted.sorted) (by decide)

end FlipCounter

end Ps5Vulkan.GpuBroker
