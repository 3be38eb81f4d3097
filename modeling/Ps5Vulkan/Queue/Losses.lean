import Ps5Vulkan.Queue.Reachable

/-!
# When a wait gives the queue up

`ps5vk_queue_wait_value` looks once, spins for a while, and then looks once a millisecond. At the
sleeping look numbered `PS5VK_MARKER_POLLS` it declares the queue lost. The looks are counted from the
start of the wait, not from the last step the GPU finished, so a wait for several steps is also lost
when the GPU finishes some of them on the way.
-/

namespace Ps5Vulkan.Queue

/-- The deadline as a wait finds it: passed already at the first look, or at a sleeping look. -/
structure Deadline where
  atOnce : Bool
  passed : Nat → Bool

def Deadline.never : Deadline := ⟨false, fun _ => false⟩

/-- What a wait returns. -/
inductive WaitResult where
  | success
  | timeout
  | lost
  deriving DecidableEq, Repr

/-- The queue's completed value has reached the value. -/
def sees (value : UInt32) (m : Machine) : Bool := markerReached m.completedValue value

/-- Looks from the one numbered `poll` on, with `left` of them to go after it: each may see what is
waited for or find the deadline passed, and after the last the wait is lost. -/
def looksFrom {σ : Type*} (look : σ → σ) (seen : σ → Bool) (passed : Nat → Bool) :
    (left poll : Nat) → σ → WaitResult × σ
  | 0, poll, s =>
    if seen (look s) then (.success, look s)
    else if passed poll then (.timeout, look s)
    else (.lost, look s)
  | left + 1, poll, s =>
    if seen (look s) then (.success, look s)
    else if passed poll then (.timeout, look s)
    else looksFrom look seen passed left (poll + 1) (look s)

/-- The bounded spin, and then the sleeping looks. -/
def spinThenSleep (agc : Agc) (deadline : Deadline) (value : UInt32) (m : Machine) :
    WaitResult × Machine :=
  let (reached, m) := pollUntil value (agc.spinPolls + 1) m
  if reached then (.success, m) else looksFrom queuePoll (sees value) deadline.passed markerPolls 0 m

/-- `ps5vk_queue_wait_value`. -/
def queueWaitUntil (agc : Agc) (deadline : Deadline) (value : UInt32) (m : Machine) :
    WaitResult × Machine :=
  let m := queuePoll m
  if sees value m then (.success, m)
  else if deadline.atOnce then (.timeout, m)
  else spinThenSleep agc deadline value m

/-- The looks of a wait that ends with the queue lost. -/
def Agc.looks (agc : Agc) : Nat := 1 + (agc.spinPolls + 1) + (markerPolls + 1)

/-- The steps finished once the marker was looked at `polls` times. -/
def Machine.finishedBy (m : Machine) (polls : Nat) : Nat :=
  m.finished + min (m.progress.take polls).sum (m.steps - m.finished)

/-- A wait loses the queue only if the completed value stood still over its last
`PS5VK_MARKER_POLLS` looks. -/
def LostStandingStill (agc : Agc) (deadline : Deadline) (value : UInt32) (m : Machine) : Prop :=
  (queueWaitUntil agc deadline value m).1 = .lost →
    ∀ back ≤ markerPolls, (queuePoll^[agc.looks - back] m).completedValue =
      (queueWaitUntil agc deadline value m).2.completedValue

section From

/-- None of the first looks sees what is waited for. -/
def Unseen {σ : Type*} (look : σ → σ) (seen : σ → Bool) (s : σ) (looks : Nat) : Prop :=
  ∀ k < looks, seen (look^[k + 1] s) = false

variable {σ : Type*} {look : σ → σ} {seen : σ → Bool} {passed : Nat → Bool} {s : σ}

@[simp] theorem unseen_zero : Unseen look seen s 0 := fun _ h => absurd h (Nat.not_lt_zero _)

theorem unseen_succ (looks : Nat) :
    Unseen look seen s (looks + 1) ↔ seen (look s) = false ∧ Unseen look seen (look s) looks := by
  simp only [Unseen, Nat.forall_lt_succ_left, Function.iterate_succ_apply, Function.iterate_zero_apply]

theorem unseen_add (first rest : Nat) : Unseen look seen s (first + rest) ↔
      Unseen look seen s first ∧ Unseen look seen (look^[first] s) rest := by
  induction first generalizing s with
  | zero => simp
  | succ first ih =>
    rw [Nat.add_right_comm, unseen_succ, unseen_succ, ih, and_assoc, Function.iterate_succ_apply]

/-- The looks are lost when none sees what is waited for and the deadline stays ahead. -/
theorem looksFrom_lost_iff (left poll : Nat) : (looksFrom look seen passed left poll s).1 = .lost ↔
      (∀ k < left + 1, passed (poll + k) = false) ∧ Unseen look seen s (left + 1) := by
  induction left generalizing poll s with
  | zero =>
    unfold looksFrom
    cases hseen : seen (look s) <;> cases hpassed : passed poll <;> simp [unseen_succ, hseen, hpassed]
  | succ left ih =>
    unfold looksFrom
    rw [unseen_succ]
    simp only [Nat.forall_lt_succ_left (n := left + 1)]
    cases hseen : seen (look s) with
    | true => simp
    | false =>
      cases hpassed : passed poll with
      | true => simp
      | false => simp [ih, Nat.add_assoc, Nat.add_comm 1]

theorem looksFrom_of_lost {left poll : Nat} (h : (looksFrom look seen passed left poll s).1 = .lost) :
    (looksFrom look seen passed left poll s).2 = look^[left + 1] s := by
  induction left generalizing poll s with
  | zero =>
    unfold looksFrom at h ⊢
    split at h
    · cases h
    · split at h
      · cases h
      · rename_i hseen hpassed
        rw [if_neg hseen, if_neg hpassed, Function.iterate_one]
  | succ left ih =>
    unfold looksFrom at h ⊢
    split at h
    · cases h
    · split at h
      · cases h
      · rename_i hseen hpassed
        rw [if_neg hseen, if_neg hpassed]
        exact ih h

end From

section Looks

variable {value : UInt32} {m : Machine}

theorem pollUntil_succ (polls : Nat) : pollUntil value (polls + 1) m =
      if sees value (queuePoll m) then (true, queuePoll m) else pollUntil value polls (queuePoll m) := rfl

theorem pollUntil_false_iff (polls : Nat) :
    (pollUntil value polls m).1 = false ↔ Unseen queuePoll (sees value) m polls := by
  induction polls generalizing m with
  | zero => simp [pollUntil]
  | succ polls ih =>
    rw [pollUntil_succ, unseen_succ]
    cases hseen : sees value (queuePoll m) with
    | true => simp
    | false => simp [ih]

theorem pollUntil_of_false {polls : Nat} (h : (pollUntil value polls m).1 = false) :
    (pollUntil value polls m).2 = queuePoll^[polls] m := by
  induction polls generalizing m with
  | zero => rfl
  | succ polls ih =>
    rw [pollUntil_succ] at h ⊢
    split at h
    · cases h
    · rename_i hseen
      rw [if_neg hseen, Function.iterate_succ_apply]
      exact ih h

end Looks

section Progress

variable {m : Machine} {seen : Nat}

theorem finished_queuePoll (m : Machine) : (queuePoll m).finished = m.finished + m.finishing := rfl

theorem steps_queuePoll (m : Machine) : (queuePoll m).steps = m.steps := rfl

theorem progress_queuePoll (m : Machine) : (queuePoll m).progress = m.progress.tail := rfl

/-- What the GPU has finished after some looks, from its schedule. -/
theorem finished_iterate (polls : Nat) (m : Machine) : (queuePoll^[polls] m).finished = m.finishedBy polls := by
  induction polls generalizing m with
  | zero => simp [Machine.finishedBy]
  | succ polls ih =>
    rw [Function.iterate_succ_apply, ih, Machine.finishedBy, Machine.finishedBy, finished_queuePoll,
      steps_queuePoll, progress_queuePoll, Machine.finishing]
    cases m.progress with
    | nil => simp
    | cons first rest =>
      simp only [List.headD_cons, List.tail_cons, List.take_succ_cons, List.sum_cons]
      omega

theorem Machine.finishedBy_mono (m : Machine) {polls polls' : Nat} (h : polls ≤ polls') :
    m.finishedBy polls ≤ m.finishedBy polls' := by
  obtain ⟨rest, hrest⟩ := List.take_prefix_take_left (l := m.progress) h
  unfold Machine.finishedBy
  rw [← hrest, List.sum_append]
  omega

/-- A coherent queue stays coherent over looks, and has seen what is finished at the last. -/
theorem Coherent.iterate (h : Coherent m seen) (polls : Nat) :
    Coherent (Queue.queuePoll^[polls + 1] m) (m.finishedBy (polls + 1)) := by
  rw [← finished_iterate]
  induction polls with
  | zero => exact h.queuePoll
  | succ polls ih =>
    rw [Function.iterate_succ_apply' _ (polls + 1)]
    exact ih.queuePoll

/-- After a look the completed value is that of the steps finished. -/
theorem Coherent.completed_iterate (h : Coherent m seen) (polls : Nat) :
    (Queue.queuePoll^[polls + 1] m).completedValue = markerOf (m.finishedBy (polls + 1)) :=
  (h.iterate polls).completed

/-- Two counts of finished steps that give one value are the same: fewer steps are in flight than the
values tell apart. -/
theorem Coherent.finishedBy_inj (h : Coherent m seen) {polls polls' : Nat}
    (heq : markerOf (m.finishedBy polls) = markerOf (m.finishedBy polls')) :
    m.finishedBy polls = m.finishedBy polls' := by
  have hwindow := h.window
  have hseen := h.seen_le
  have hwide := stepWindow_lt
  have hle : ∀ polls, m.finished ≤ m.finishedBy polls ∧ m.finishedBy polls ≤ m.finished + stepWindow := by
    intro polls
    unfold Machine.finishedBy
    omega
  have hone := hle polls
  have hother := hle polls'
  have hreached : markerReached (markerOf (m.finishedBy polls)) (markerOf (m.finishedBy polls)) = true :=
    markerReached_of_le (Nat.le_refl _) (by omega)
  rcases Nat.le_total (m.finishedBy polls) (m.finishedBy polls') with hcase | hcase
  · exact eq_of_markerReached hcase (by omega) (by rw [← heq]; exact hreached)
  · exact (eq_of_markerReached hcase (by omega) (by rw [← heq]; exact hreached)).symm

end Progress

section Losses

variable {agc : Agc} {deadline : Deadline} {value : UInt32} {m : Machine} {seen : Nat}

theorem spinThenSleep_lost_iff : (spinThenSleep agc deadline value m).1 = .lost ↔
      (∀ k < markerPolls + 1, deadline.passed k = false) ∧
        Unseen queuePoll (sees value) m (agc.spinPolls + 1 + (markerPolls + 1)) := by
  rw [spinThenSleep, unseen_add, ← pollUntil_false_iff]
  cases hspin : (pollUntil value (agc.spinPolls + 1) m).1 with
  | true => simp [hspin]
  | false =>
    simp only [hspin, Bool.false_eq_true, if_false, looksFrom_lost_iff, Nat.zero_add,
      pollUntil_of_false hspin, true_and]

/-- A wait loses the queue when no look sees the value and the deadline stays ahead. -/
theorem queueWaitUntil_lost_iff : (queueWaitUntil agc deadline value m).1 = .lost ↔
      deadline.atOnce = false ∧ (∀ k < markerPolls + 1, deadline.passed k = false) ∧
        Unseen queuePoll (sees value) m agc.looks := by
  rw [Agc.looks, Nat.add_assoc, Nat.add_comm 1, unseen_succ, queueWaitUntil]
  cases sees value (queuePoll m) with
  | true => simp
  | false =>
    cases deadline.atOnce with
    | true => simp
    | false => simp [spinThenSleep_lost_iff]

theorem spinThenSleep_of_lost (h : (spinThenSleep agc deadline value m).1 = .lost) :
    (spinThenSleep agc deadline value m).2 = queuePoll^[markerPolls + 1] (queuePoll^[agc.spinPolls + 1] m) := by
  rw [spinThenSleep] at h ⊢
  cases hspin : (pollUntil value (agc.spinPolls + 1) m).1 with
  | true => simp [hspin] at h
  | false =>
    simp only [hspin, Bool.false_eq_true, if_false, pollUntil_of_false hspin] at h ⊢
    exact looksFrom_of_lost h

theorem queueWaitUntil_of_lost (h : (queueWaitUntil agc deadline value m).1 = .lost) :
    (queueWaitUntil agc deadline value m).2 = queuePoll^[agc.looks] m := by
  obtain ⟨honce, -, hunseen⟩ := queueWaitUntil_lost_iff.1 h
  have hlooks : agc.looks = markerPolls + 1 + (agc.spinPolls + 1) + 1 := by
    rw [Agc.looks]
    omega
  have hfirst : sees value (queuePoll m) = false := by
    rw [hlooks, unseen_succ] at hunseen
    exact hunseen.1
  rw [hlooks, Function.iterate_succ_apply, Function.iterate_add_apply]
  simp only [queueWaitUntil, hfirst, honce, Bool.false_eq_true, if_false] at h ⊢
  exact spinThenSleep_of_lost h

/-- A wait without a deadline for a step that is not finished by its last look loses the queue. -/
theorem Coherent.queueWaitUntil_lost (h : Coherent m seen) {last : Nat} (hlast : m.finishedBy agc.looks ≤ last)
    (hvalue : ∀ step ≤ last, markerReached (markerOf step) value = false) :
    (queueWaitUntil agc .never value m).1 = .lost := by
  refine queueWaitUntil_lost_iff.2 ⟨rfl, fun _ _ => rfl, fun k hk => ?_⟩
  rw [sees, h.completed_iterate]
  exact hvalue _ (Nat.le_trans (m.finishedBy_mono (Nat.succ_le_of_lt hk)) hlast)

/-- The completed value stood still over the last looks of a wait that loses the queue exactly when
the value was seen on the way, the deadline passed, or the GPU finished no step during those looks. -/
theorem lostStandingStill_iff (h : Coherent m seen) :
    LostStandingStill agc deadline value m ↔
      deadline.atOnce = true ∨ (∃ k < markerPolls + 1, deadline.passed k = true) ∨
        (∃ k < agc.looks, markerReached (markerOf (m.finishedBy (k + 1))) value = true) ∨
        m.finishedBy (agc.looks - markerPolls) = m.finishedBy agc.looks := by
  have hlooks : markerPolls + 1 < agc.looks := by
    rw [Agc.looks]
    omega
  -- Every look of a coherent queue completes what is finished by then.
  have hcompleted : ∀ polls, 0 < polls →
      (queuePoll^[polls] m).completedValue = markerOf (m.finishedBy polls) := by
    intro polls hpolls
    obtain ⟨before, rfl⟩ := Nat.exists_eq_succ_of_ne_zero (Nat.ne_of_gt hpolls)
    exact h.completed_iterate before
  have hunseen : Unseen queuePoll (sees value) m agc.looks ↔
      ∀ k < agc.looks, markerReached (markerOf (m.finishedBy (k + 1))) value = false := by
    simp only [Unseen, sees, h.completed_iterate]
  constructor
  · intro hstill
    by_contra hnone
    push Not at hnone
    obtain ⟨honce, hpassed, hseen, hmoved⟩ := hnone
    have hlost := queueWaitUntil_lost_iff.2 ⟨Bool.eq_false_iff.2 honce,
      fun k hk => Bool.eq_false_iff.2 (hpassed k hk),
      hunseen.2 fun k hk => Bool.eq_false_iff.2 (hseen k hk)⟩
    have heq := hstill hlost markerPolls (Nat.le_refl _)
    rw [queueWaitUntil_of_lost hlost, hcompleted _ (by omega), hcompleted _ (by omega)] at heq
    exact hmoved (h.finishedBy_inj heq)
  · rintro hholds hlost back hback
    obtain ⟨honce, hpassed, hseen⟩ := queueWaitUntil_lost_iff.1 hlost
    rcases hholds with hyes | ⟨k, hk, hyes⟩ | ⟨k, hk, hyes⟩ | hsame
    · rw [honce] at hyes
      cases hyes
    · rw [hpassed k hk] at hyes
      cases hyes
    · rw [hunseen.1 hseen k hk] at hyes
      cases hyes
    · have hlow := m.finishedBy_mono (show agc.looks - markerPolls ≤ agc.looks - back by omega)
      have hhigh := m.finishedBy_mono (Nat.sub_le agc.looks back)
      rw [queueWaitUntil_of_lost hlost, hcompleted _ (by omega), hcompleted _ (by omega)]
      exact congrArg markerOf (by omega)

end Losses

section Queues

/-- A submission of one word. -/
def wordBuffer : CmdBuffer where
  words := [0xa]
  copies := []
  fencePatches := []
  targets := []
  samplesEarly := false
  patches_fit := by simp
  copies_sorted := CmdBuffer.noCopies_sorted

/-- The queue after a submission of one word. -/
def submitWord (m : Machine) : Machine :=
  match queueRun plainAgc [wordBuffer] m with
  | .ok m => m
  | .error (_, m) => m

theorem Reachable.submitWord {m : Machine} (h : Reachable plainAgc m)
    (hok : (queueRun plainAgc [wordBuffer] m).isOk = true) : Reachable plainAgc (submitWord m) := by
  unfold Queue.submitWord
  cases hrun : queueRun plainAgc [wordBuffer] m with
  | ok m' => exact .run h hrun
  | error stopped =>
    rw [hrun] at hok
    cases hok

/-- One step handed over, which the GPU never finishes. -/
def stuckQueue : Machine := submitWord (.init [])

theorem reachable_stuckQueue : Reachable plainAgc stuckQueue :=
  (Reachable.init _).submitWord (by decide +kernel)

theorem lostStandingStill_stuckQueue :
    (queueWaitUntil plainAgc .never (markerOf 1) stuckQueue).1 = .lost ∧
      LostStandingStill plainAgc .never (markerOf 1) stuckQueue := by
  obtain ⟨seen, hready, -⟩ := (reachable_stuckQueue.sound plainAgc_releasesPacket).ready
  have hnone : stuckQueue.finishedBy 3 = 0 ∧ stuckQueue.finishedBy 2003 = 0 := by decide +kernel
  refine ⟨hready.toCoherent.queueWaitUntil_lost (Nat.le_of_eq hnone.2) (by decide), ?_⟩
  exact (lostStandingStill_iff hready.toCoherent).2 (.inr (.inr (.inr (hnone.1.trans hnone.2.symm))))

/-- Three steps handed over, of which the GPU finishes one every second: the first after a thousand of
the sleeping looks, the second after two thousand. -/
def slowQueue : Machine :=
  submitWord (submitWord (submitWord (.init
    (List.replicate 1007 0 ++ [1] ++ List.replicate 999 0 ++ [1, 0, 1]))))

theorem reachable_slowQueue : Reachable plainAgc slowQueue :=
  (((Reachable.init _).submitWord (by decide +kernel)).submitWord (by decide +kernel)).submitWord
    (by decide +kernel)

theorem slowQueue_finishedBy : slowQueue.finishedBy 3 = 0 ∧ slowQueue.finishedBy 2003 = 2 := by
  decide +kernel

/-- A wait for the third step loses the queue though a step finished at its last look and another a
thousand looks before. -/
theorem slowQueue_lost :
    Reachable plainAgc slowQueue ∧ (queueWaitUntil plainAgc .never (markerOf 3) slowQueue).1 = .lost ∧
      ¬LostStandingStill plainAgc .never (markerOf 3) slowQueue := by
  obtain ⟨seen, hready, -⟩ := (reachable_slowQueue.sound plainAgc_releasesPacket).ready
  have hcoherent := hready.toCoherent
  obtain ⟨hearly, hlate⟩ := slowQueue_finishedBy
  have hlost : (queueWaitUntil plainAgc .never (markerOf 3) slowQueue).1 = .lost :=
    hcoherent.queueWaitUntil_lost (Nat.le_of_eq hlate) (by decide)
  refine ⟨reachable_slowQueue, hlost, fun hstill => ?_⟩
  have heq := hstill hlost markerPolls (Nat.le_refl _)
  rw [queueWaitUntil_of_lost hlost] at heq
  change (queuePoll^[2 + 1] slowQueue).completedValue = (queuePoll^[2002 + 1] slowQueue).completedValue at heq
  rw [hcoherent.completed_iterate, hcoherent.completed_iterate, hearly, hlate] at heq
  exact absurd heq (by decide)

end Queues

end Ps5Vulkan.Queue
