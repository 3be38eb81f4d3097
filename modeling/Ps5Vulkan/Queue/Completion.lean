import Ps5Vulkan.Queue.Sync

/-!
# Completion of fences and semaphores

A wait on a sync returns only once the GPU has run the step the sync's signal stands for. The
invariant ties every marker value in use to its step: those of the queues, of the syncs and of the
threads between two actions. Steps only rise, so each part of the invariant outlives what other
threads do, and an action is checked against what it changes alone.
-/

namespace Ps5Vulkan.Queue.Sync

/-- One queue has come at least as far as another. -/
structure QueueState.Behind (a b : QueueState) : Prop where
  submitted : a.submitted ≤ b.submitted
  completed : a.completed ≤ b.completed
  finished : a.finished ≤ b.finished

/-- The values of a queue are those of its steps, which complete in order. -/
structure QueueState.Ok (queue : QueueState) : Prop where
  markerValue : queue.markerValue = markerOf queue.submitted
  submittedValue : queue.submittedValue = markerOf queue.submitted
  completedValue : queue.completedValue = markerOf queue.completed
  marker : queue.marker = markerOf queue.finished
  running : queue.running =
    (List.range' (queue.finished + 1) (queue.submitted - queue.finished)).map markerOf
  completed_le : queue.completed ≤ queue.finished
  finished_le : queue.finished ≤ queue.submitted

namespace QueueState

variable {queue : QueueState}

theorem Behind.refl (queue : QueueState) : queue.Behind queue :=
  ⟨Nat.le_refl _, Nat.le_refl _, Nat.le_refl _⟩

theorem ok_init : QueueState.init.Ok := by
  constructor <;> rfl

theorem Ok.submitStep (h : queue.Ok) : queue.submitStep.Ok ∧ queue.Behind queue.submitStep := by
  have hnext : nextValue queue.markerValue = markerOf (queue.submitted + 1) := by
    rw [h.markerValue, nextValue_markerOf]
  have hle := h.finished_le
  constructor
  · constructor
    · exact hnext
    · exact hnext
    · exact h.completedValue
    · exact h.marker
    · have hcount : queue.submitted + 1 - queue.finished =
          (queue.submitted - queue.finished) + 1 := by omega
      have hlast : queue.finished + 1 + 1 * (queue.submitted - queue.finished) = queue.submitted + 1 := by omega
      simp only [QueueState.submitStep, hnext, h.running, hcount, List.range'_concat, hlast,
        List.map_append, List.map_cons, List.map_nil]
    · exact h.completed_le
    · exact Nat.le_succ_of_le hle
  · exact ⟨Nat.le_succ _, Nat.le_refl _, Nat.le_refl _⟩

theorem Ok.finishStep {queue' : QueueState} (h : queue.Ok) (hstep : queue.finishStep = some queue') :
    queue'.Ok ∧ queue.Behind queue' := by
  unfold QueueState.finishStep at hstep
  cases hrunning : queue.running with
  | nil => simp [hrunning] at hstep
  | cons value rest =>
    rw [hrunning] at hstep
    cases hstep
    have hrun := h.running
    rw [hrunning] at hrun
    cases hcount : queue.submitted - queue.finished with
    | zero => simp [hcount] at hrun
    | succ count =>
      rw [hcount, List.range'_succ, List.map_cons, List.cons.injEq] at hrun
      constructor
      · constructor
        · exact h.markerValue
        · exact h.submittedValue
        · exact h.completedValue
        · exact hrun.1
        · have hleft : queue.submitted - (queue.finished + 1) = count := by omega
          simp only [hleft]
          exact hrun.2
        · exact Nat.le_succ_of_le h.completed_le
        · show queue.finished + 1 ≤ queue.submitted
          omega
      · exact ⟨Nat.le_refl _, Nat.le_refl _, Nat.le_succ _⟩

/-- A poll never takes the queue back, however long ago within the window it read the marker. -/
theorem Ok.update (h : queue.Ok) {step : Nat} (hstep : step ≤ queue.finished)
    (hwindow : queue.submitted - step < 2 ^ 31) :
    (queue.update (markerOf step) step).Ok ∧ queue.Behind (queue.update (markerOf step) step) := by
  unfold QueueState.update
  split
  · rename_i hseen
    rw [Bool.and_eq_true] at hseen
    have hle : queue.completed ≤ step := by
      by_contra hnot
      have hlt : step < queue.completed := Nat.lt_of_not_le hnot
      have hcompleted := h.completed_le
      have hfinished := h.finished_le
      have hreached := hseen.1
      rw [h.completedValue] at hreached
      have heq := eq_of_markerReached (Nat.le_of_lt hlt) (by omega) hreached
      omega
    constructor
    · exact ⟨h.markerValue, h.submittedValue, rfl, h.marker, h.running, hstep, h.finished_le⟩
    · exact ⟨Nat.le_refl _, hle, Nat.le_refl _⟩
  · exact ⟨h, .refl queue⟩

/-- A completed value that has reached a submitted step's is of a step the GPU has finished. -/
theorem Ok.finished_of_reached (h : queue.Ok) (hwindow : queue.submitted - queue.completed < 2 ^ 31)
    {step : Nat} (hstep : step ≤ queue.submitted)
    (hreached : markerReached queue.completedValue (markerOf step)) : step ≤ queue.finished := by
  rw [h.completedValue] at hreached
  by_cases hle : step ≤ queue.completed
  · exact Nat.le_trans hle h.completed_le
  · have heq : queue.completed = step := eq_of_markerReached (by omega) (by omega) hreached
    exact absurd (Nat.le_of_eq heq.symm) hle

end QueueState

variable {Q S T : Type} {queues queues' : Q → QueueState}

/-- What a sync stands for: a submitted step whose value it holds while it is pending, and a
finished one, or none, once it is not. -/
structure SyncState.Ok (queues : Q → QueueState) (sync : SyncState Q) : Prop where
  unset : sync.signaled = false → sync.queue = none
  pending : ∀ q, sync.queue = some q → ∃ step, sync.step = some (q, step) ∧
    sync.value = markerOf step ∧ step ≤ (queues q).submitted
  done : sync.signaled → sync.queue = none → ∀ q step, sync.step = some (q, step) →
    step ≤ (queues q).finished

/-- The value of a submitted step. -/
def IsStep (queues : Q → QueueState) (q : Q) (value : UInt32) (step : Nat) : Prop :=
  value = markerOf step ∧ step ≤ (queues q).submitted

/-- What a thread holds between two actions. -/
def Call.Ok (queues : Q → QueueState) : Call Q S → Prop
  | .sync _ q asked step => IsStep queues q asked step
  | .value _ _ => True
  | .signals q asked step _ => IsStep queues q asked step

@[inherit_doc Call.Ok]
def Thread.Ok (queues : Q → QueueState) : Thread Q S → Prop
  | .idle => True
  | .moving _ taken => taken.Ok queues
  | .polling call => call.Ok queues
  | .read call seen step =>
    call.Ok queues ∧ seen = markerOf step ∧ step ≤ (queues call.queue).finished
  | .clearing _ q value step => IsStep queues q value step ∧ step ≤ (queues q).finished
  | .signalling pending q value step _ =>
    IsStep queues q value step ∧ (pending = false → step ≤ (queues q).finished)

/-- The invariant of the queues, syncs and threads. -/
structure State.Ok (st : State Q S T) : Prop where
  queues : ∀ q, (st.queues q).Ok
  syncs : ∀ s, (st.syncs s).Ok st.queues
  threads : ∀ t, (st.threads t).Ok st.queues

section Rising

variable (h : ∀ q, (queues q).Behind (queues' q))
include h

theorem IsStep.mono {q : Q} {value : UInt32} {step : Nat} (hstep : IsStep queues q value step) :
    IsStep queues' q value step :=
  ⟨hstep.1, Nat.le_trans hstep.2 (h q).submitted⟩

theorem SyncState.Ok.mono {sync : SyncState Q} (hsync : sync.Ok queues) : sync.Ok queues' := by
  constructor
  · exact hsync.unset
  · intro q hq
    obtain ⟨step, hstep, hvalue, hle⟩ := hsync.pending q hq
    exact ⟨step, hstep, hvalue, Nat.le_trans hle (h q).submitted⟩
  · intro hsignaled hnone q step hstep
    exact Nat.le_trans (hsync.done hsignaled hnone q step hstep) (h q).finished

theorem Call.Ok.mono {call : Call Q S} (hcall : call.Ok queues) : call.Ok queues' := by
  cases call with
  | sync s q value step => exact IsStep.mono h hcall
  | value q value => trivial
  | signals q value step syncs => exact IsStep.mono h hcall

theorem Thread.Ok.mono {thread : Thread Q S} (hthread : thread.Ok queues) : thread.Ok queues' := by
  cases thread with
  | idle => trivial
  | moving dst taken => exact SyncState.Ok.mono h hthread
  | polling call => exact Call.Ok.mono h hthread
  | read call seen step =>
    obtain ⟨hcall, hseen, hle⟩ := hthread
    exact ⟨Call.Ok.mono h hcall, hseen, Nat.le_trans hle (h call.queue).finished⟩
  | clearing s q value step =>
    exact ⟨IsStep.mono h hthread.1, Nat.le_trans hthread.2 (h q).finished⟩
  | signalling pending q value step syncs =>
    exact ⟨IsStep.mono h hthread.1,
      fun hpending => Nat.le_trans (hthread.2 hpending) (h q).finished⟩

end Rising

namespace SyncState

variable {sync : SyncState Q}

/-- A signal or a reset by the CPU. -/
theorem ok_set_cpu (signaled : Bool) (value : UInt32) :
    (SyncState.set signaled none value none : SyncState Q).Ok queues := by
  constructor
  · intro _
    simp [SyncState.set]
  · intro q hq
    simp [SyncState.set] at hq
  · intro _ _ q step hstep
    cases hstep

theorem ok_taken (sync : SyncState Q) : sync.taken.Ok queues := by
  constructor
  · intro _
    rfl
  · intro q hq
    cases hq
  · intro hsignaled
    cases hsignaled

/-- What a move sets is what it took. -/
theorem Ok.set (h : sync.Ok queues) : (SyncState.set sync.signaled sync.queue sync.value sync.step).Ok queues := by
  have hqueue : (if sync.signaled then sync.queue else none) = sync.queue := by
    cases hsignaled : sync.signaled with
    | true => rfl
    | false => exact (h.unset hsignaled).symm
  unfold SyncState.set
  rw [hqueue]
  exact ⟨h.unset, h.pending, h.done⟩

/-- A wait clears a sync only of a step the GPU has finished: within the window no other step has
the value it waited for. -/
theorem Ok.clear [DecidableEq Q] (h : sync.Ok queues) {q : Q} {step : Nat}
    (hfinished : step ≤ (queues q).finished) (hwindow : (queues q).submitted - step < 2 ^ 31) :
    (sync.clear q (markerOf step)).Ok queues := by
  unfold SyncState.clear
  split
  · rename_i hsame
    obtain ⟨other, hother, hvalue, hle⟩ := h.pending q hsame.1
    have hdone : other ≤ (queues q).finished := by
      by_cases hbefore : other ≤ step
      · exact Nat.le_trans hbefore hfinished
      · have hself : markerReached (markerOf step) (markerOf other) = true := by
          rw [← hvalue, hsame.2]
          exact markerReached_self _
        have heq : step = other := eq_of_markerReached (by omega) (by omega) hself
        exact heq ▸ hfinished
    constructor
    · intro _
      rfl
    · intro q' hq'
      cases hq'
    · intro _ _ q' step' hstep'
      rw [hother] at hstep'
      cases hstep'
      exact hdone
  · exact h

/-- A submission's signal stands for the step it was made for. -/
theorem ok_signalOne {pending : Bool} {q : Q} {value : UInt32} {step : Nat}
    (hstep : IsStep queues q value step) (hdone : pending = false → step ≤ (queues q).finished) :
    (State.signalOne pending q value step).Ok queues := by
  cases pending with
  | true =>
    constructor
    · intro hsignaled
      cases hsignaled
    · intro q' hq'
      cases hq'
      exact ⟨step, rfl, hstep.1, hstep.2⟩
    · intro _ hnone
      cases hnone
  | false =>
    constructor
    · intro hsignaled
      cases hsignaled
    · intro q' hq'
      cases hq'
    · intro _ _ q' step' hstep'
      cases hstep'
      exact hdone rfl

end SyncState

/-- What an action returns to the application holds: a wait that returned success found a signal of a
finished step, or of none, and a wait skipped for a queue is for a step submitted to it. -/
def Return.Sound (st st' : State Q S T) : Return Q S → Prop
  | .waited _ signal => ∀ q step, signal = some (q, step) → step ≤ (st'.queues q).finished
  | .skipped s q => ∃ step, (st.syncs s).step = some (q, step) ∧
      (st.syncs s).value = markerOf step ∧ step ≤ (st.queues q).submitted

/-- Fewer than `2 ^ 31` steps are outstanding: past the completed value, past the marker a poll in
progress has read, and past the signal of a wait in progress. -/
structure State.InWindow (st : State Q S T) : Prop where
  queues : ∀ q, (st.queues q).submitted - (st.queues q).completed < 2 ^ 31
  polls : ∀ t call seen step, st.threads t = .read call seen step →
    (st.queues call.queue).submitted - step < 2 ^ 31
  waits : ∀ t s q value step, st.threads t = .clearing s q value step →
    (st.queues q).submitted - step < 2 ^ 31

/-- What an action comes to: the invariant, queues that only rise, and a sound return. -/
structure State.Advances (st st' : State Q S T) (returned : Option (Return Q S)) : Prop where
  ok : st'.Ok
  behind : ∀ q, (st.queues q).Behind (st'.queues q)
  sound : ∀ r, returned = some r → r.Sound st st'

namespace State

variable {st : State Q S T}

theorem behind_setQueue [DecidableEq Q] {q : Q} {queue : QueueState} (h : (st.queues q).Behind queue) (q' : Q) :
    (st.queues q').Behind ((st.setQueue q queue).queues q') := by
  by_cases heq : q' = q
  · subst heq
    simpa [setQueue] using h
  · simp [setQueue, heq, QueueState.Behind.refl]

theorem Ok.setQueue [DecidableEq Q] (hok : st.Ok) {q : Q} {queue : QueueState}
    (h : queue.Ok ∧ (st.queues q).Behind queue) : (st.setQueue q queue).Ok := by
  have hbehind := behind_setQueue h.2
  constructor
  · intro q'
    by_cases heq : q' = q
    · subst heq
      simpa [State.setQueue] using h.1
    · simpa [State.setQueue, heq] using hok.queues q'
  · intro s
    exact SyncState.Ok.mono hbehind (hok.syncs s)
  · intro t
    exact Thread.Ok.mono hbehind (hok.threads t)

theorem Ok.setSync [DecidableEq S] (hok : st.Ok) {s : S} {sync : SyncState Q} (h : sync.Ok st.queues) :
    (st.setSync s sync).Ok := by
  constructor
  · exact hok.queues
  · intro s'
    by_cases heq : s' = s
    · subst heq
      simpa [State.setSync] using h
    · simpa [State.setSync, heq] using hok.syncs s'
  · exact hok.threads

theorem Ok.setThread [DecidableEq T] (hok : st.Ok) {t : T} {thread : Thread Q S} (h : thread.Ok st.queues) :
    (st.setThread t thread).Ok := by
  constructor
  · exact hok.queues
  · exact hok.syncs
  · intro t'
    by_cases heq : t' = t
    · subst heq
      simpa [State.setThread] using h
    · simpa [State.setThread, heq] using hok.threads t'

/-- An action that leaves the queues and returns nothing. -/
theorem Advances.still {st' : State Q S T} (hok : st'.Ok) (hqueues : st'.queues = st.queues) :
    st.Advances st' none := by
  refine ⟨hok, fun q => ?_, nofun⟩
  rw [hqueues]
  exact .refl _

theorem Ok.thread (hok : st.Ok) {t : T} {thread : Thread Q S} (h : st.threads t = thread) : thread.Ok st.queues :=
  h ▸ hok.threads t

/-- What a thread holds after its poll. -/
theorem afterPoll_ok {call : Call Q S} {queue : QueueState} (hat : queues call.queue = queue)
    (hok : queue.Ok) (hwindow : queue.submitted - queue.completed < 2 ^ 31)
    (hcall : call.Ok queues) : (afterPoll call queue.completedValue).Ok queues := by
  subst hat
  cases call with
  | sync s q value step =>
    simp only [afterPoll]
    split
    · rename_i hreached
      rw [hcall.1] at hreached
      exact ⟨hcall, hok.finished_of_reached hwindow hcall.2 hreached⟩
    · exact hcall
  | value q value =>
    simp only [afterPoll]
    split
    · trivial
    · trivial
  | signals q value step syncs =>
    refine ⟨hcall, fun hpending => ?_⟩
    rw [Bool.not_eq_false', hcall.1] at hpending
    exact hok.finished_of_reached hwindow hcall.2 hpending

/-- The signal a wait finds, and the call it polls with. -/
theorem Ok.wait [DecidableEq T] (hok : st.Ok) {t : T} {s : S} {st' : State Q S T}
    {returned : Option (Return Q S)} (hsignaled : (st.syncs s).signaled)
    (h : st.wait t s = (st', returned)) : st.Advances st' returned := by
  unfold State.wait at h
  cases hqueue : (st.syncs s).queue with
  | none =>
    rw [hqueue] at h
    cases h
    refine ⟨hok, fun q => .refl _, ?_⟩
    intro r hr
    cases hr
    exact (hok.syncs s).done hsignaled hqueue
  | some q =>
    rw [hqueue] at h
    cases h
    obtain ⟨step, hstep, hvalue, hle⟩ := (hok.syncs s).pending q hqueue
    apply Advances.still
    · apply hok.setThread
      rw [hstep]
      exact ⟨hvalue, hle⟩
    · rfl

/-- The locked part of a poll. -/
theorem Ok.update [DecidableEq Q] [DecidableEq T] (hok : st.Ok) (hwindow : st.InWindow) {t : T}
    {call : Call Q S} {seen : UInt32} {step : Nat} (hthread : st.threads t = .read call seen step) :
    st.Advances ((st.setQueue call.queue ((st.queues call.queue).update seen step)).setThread t
      (afterPoll call ((st.queues call.queue).update seen step).completedValue)) none := by
  obtain ⟨hcall, rfl, hle⟩ := hok.thread hthread
  have hqueue := (hok.queues call.queue).update hle (hwindow.polls t call _ step hthread)
  have hset := hok.setQueue hqueue
  have hbehind := behind_setQueue hqueue.2
  have hat : (st.setQueue call.queue ((st.queues call.queue).update (markerOf step) step)).queues
      call.queue = (st.queues call.queue).update (markerOf step) step := by
    simp [State.setQueue]
  refine ⟨hset.setThread ?_, hbehind, nofun⟩
  apply afterPoll_ok hat hqueue.1
  · have hsubmitted : ((st.queues call.queue).update (markerOf step) step).submitted =
        (st.queues call.queue).submitted := by
      unfold QueueState.update
      split <;> rfl
    have hcompleted := hqueue.2.completed
    have hbound := hwindow.queues call.queue
    omega
  · exact Call.Ok.mono hbehind hcall

/-- Every action within the window keeps the invariant, moves no queue back and returns soundly. -/
theorem Ok.step [DecidableEq Q] [DecidableEq S] [DecidableEq T] {st' : State Q S T}
    {returned : Option (Return Q S)} {action : Action Q S T} (hok : st.Ok) (hwindow : st.InWindow)
    (h : st.step action = some (st', returned)) : st.Advances st' returned := by
  cases action with
  | submitStep q =>
    cases h
    have hqueue := (hok.queues q).submitStep
    exact ⟨hok.setQueue hqueue, behind_setQueue hqueue.2, nofun⟩
  | finishStep q =>
    obtain ⟨queue, hstep, heq⟩ := Option.map_eq_some_iff.1 h
    cases heq
    have hqueue := (hok.queues q).finishStep hstep
    exact ⟨hok.setQueue hqueue, behind_setQueue hqueue.2, nofun⟩
  | signal s =>
    cases h
    exact .still (hok.setSync (SyncState.ok_set_cpu true 0)) rfl
  | reset s =>
    cases h
    exact .still (hok.setSync (SyncState.ok_set_cpu false 0)) rfl
  | moveTake t dst src =>
    simp only [State.step] at h
    split at h
    · cases h
      exact .still ((hok.setSync (SyncState.ok_taken _)).setThread (hok.syncs src)) rfl
    · cases h
  | moveSet t =>
    simp only [State.step] at h
    split at h
    · rename_i dst taken hthread
      cases h
      have htaken : taken.Ok st.queues := hok.thread hthread
      exact .still ((hok.setSync htaken.set).setThread trivial) rfl
    · cases h
  | wait t s =>
    simp only [State.step] at h
    split at h
    · split at h
      · rename_i hsignaled
        exact hok.wait hsignaled (Option.some.inj h)
      · cases h
    · cases h
  | waitValue t q value =>
    simp only [State.step] at h
    split at h
    · cases h
      exact .still (hok.setThread trivial) rfl
    · cases h
  | readMarker t =>
    simp only [State.step] at h
    split at h
    · rename_i call hthread
      cases h
      have hcall : call.Ok st.queues := hok.thread hthread
      exact .still (hok.setThread ⟨hcall, (hok.queues call.queue).marker, Nat.le_refl _⟩) rfl
    · cases h
  | update t =>
    simp only [State.step] at h
    split at h
    · rename_i call seen step hthread
      cases h
      exact hok.update hwindow hthread
    · cases h
  | giveUp t =>
    simp only [State.step] at h
    split at h
    · cases h
      exact .still (hok.setThread trivial) rfl
    · cases h
      exact .still (hok.setThread trivial) rfl
    · cases h
  | clear t =>
    simp only [State.step] at h
    split at h
    · rename_i s q value step hthread
      cases h
      obtain ⟨⟨rfl, -⟩, hfinished⟩ := hok.thread hthread
      have hsync := (hok.syncs s).clear hfinished (hwindow.waits t s q _ step hthread)
      refine ⟨(hok.setSync hsync).setThread trivial, fun q => .refl _, ?_⟩
      intro r hr
      cases hr
      intro q' step' heq
      cases heq
      exact hfinished
    · cases h
  | submissionEnd t q signals =>
    simp only [State.step] at h
    split at h
    · cases h
      exact .still (hok.setThread ⟨(hok.queues q).submittedValue, Nat.le_refl _⟩) rfl
    · cases h
  | signalNext t =>
    simp only [State.step] at h
    split at h
    · cases h
      exact .still (hok.setThread trivial) rfl
    · rename_i pending q value step s rest hthread
      cases h
      obtain ⟨hstep, hdone⟩ := hok.thread hthread
      have hsync := SyncState.ok_signalOne hstep hdone
      exact .still ((hok.setSync hsync).setThread ⟨hstep, hdone⟩) rfl
    · cases h
  | pendingOn s q =>
    cases h
    refine ⟨hok, fun q => .refl _, ?_⟩
    intro r hr
    split at hr
    · rename_i hpending
      cases hr
      simp only [SyncState.pendingOn, Bool.and_eq_true, beq_iff_eq] at hpending
      exact (hok.syncs s).pending q hpending.2
    · cases hr

end State

section Runs

variable [DecidableEq Q] [DecidableEq S] [DecidableEq T]

/-- The states the threads and the GPU come to, in any interleaving, while fewer than `2 ^ 31` steps
are outstanding. -/
inductive Run (signaled : S → Bool) : State Q S T → Prop
  | start : Run signaled (.init signaled)
  | step {st st' : State Q S T} {action : Action Q S T} {returned : Option (Return Q S)}
      (hrun : Run signaled st) (hwindow : st.InWindow)
      (hstep : st.step action = some (st', returned)) : Run signaled st'

variable {signaled : S → Bool} {st st' : State Q S T}

omit [DecidableEq Q] [DecidableEq S] [DecidableEq T] in
theorem ok_start : (State.init signaled : State Q S T).Ok := by
  constructor
  · exact fun _ => QueueState.ok_init
  · intro s
    constructor
    · exact fun _ => rfl
    · intro q hq
      cases hq
    · intro _ _ q step hstep
      cases hstep
  · exact fun _ => trivial

theorem Run.ok (h : Run signaled st) : st.Ok := by
  induction h with
  | start => exact ok_start
  | step _ hwindow hstep ih => exact (ih.step hwindow hstep).ok

/-- In every interleaving `completed_value` goes from the value of a step to that of the same or a
later one and never past the last step submitted; a wait on a sync that returns success found the
signal of a finished step, or of none; and a wait is skipped only for a step submitted before. -/
theorem completion_sound {action : Action Q S T} {returned : Option (Return Q S)}
    (hrun : Run signaled st) (hwindow : st.InWindow)
    (hstep : st.step action = some (st', returned)) :
    (∀ q, (st'.queues q).completedValue = markerOf (st'.queues q).completed ∧
      (st'.queues q).submittedValue = markerOf (st'.queues q).submitted ∧
      (st.queues q).completed ≤ (st'.queues q).completed ∧
      (st'.queues q).completed ≤ (st'.queues q).submitted) ∧
    (∀ s signal, returned = some (.waited s signal) →
      ∀ q step, signal = some (q, step) → step ≤ (st'.queues q).finished) ∧
    (∀ s q, returned = some (.skipped s q) →
      ∃ step, (st.syncs s).step = some (q, step) ∧ (st.syncs s).value = markerOf step ∧
        step ≤ (st.queues q).submitted) := by
  have hadvances := hrun.ok.step hwindow hstep
  constructor
  · intro q
    have hqueue := hadvances.ok.queues q
    exact ⟨hqueue.completedValue, hqueue.submittedValue, (hadvances.behind q).completed,
      Nat.le_trans hqueue.completed_le hqueue.finished_le⟩
  constructor
  · intro s signal hreturned
    exact hadvances.sound _ hreturned
  · intro s q hreturned
    exact hadvances.sound _ hreturned

end Runs

/-- Before `2 ^ 31` steps nothing is out of the window. -/
theorem State.inWindow_of_lt {st : State Q S T} (h : ∀ q, (st.queues q).submitted < 2 ^ 31) :
    st.InWindow := by
  constructor
  · exact fun q => Nat.lt_of_le_of_lt (Nat.sub_le _ _) (h q)
  · exact fun _ call _ _ _ => Nat.lt_of_le_of_lt (Nat.sub_le _ _) (h call.queue)
  · exact fun _ _ q _ _ _ => Nat.lt_of_le_of_lt (Nat.sub_le _ _) (h q)

/-- A step that signals a fence while it runs, a wait on the fence, and the end of the step. -/
def signalThenWait : List (Action Unit Unit Unit) :=
  [.submitStep (), .submissionEnd () () [()], .readMarker (), .update (), .signalNext (),
    .signalNext (), .wait () (), .finishStep (), .readMarker (), .update ()]

/-- The state after actions of a program with one queue that has not come to `2 ^ 31` steps. -/
def State.after (st : State Unit Unit Unit) : List (Action Unit Unit Unit) →
    Option (State Unit Unit Unit)
  | [] => some st
  | action :: rest =>
    if (st.queues ()).submitted < 2 ^ 31 then
      (st.step action).bind fun (next, _) => next.after rest
    else none

theorem Run.after {signaled : Unit → Bool} {st st' : State Unit Unit Unit} (hrun : Run signaled st)
    (actions : List (Action Unit Unit Unit)) (h : st.after actions = some st') : Run signaled st' := by
  induction actions generalizing st with
  | nil =>
    cases h
    exact hrun
  | cons action rest ih =>
    rw [State.after] at h
    split at h
    · rename_i hlt
      obtain ⟨⟨next, returned⟩, hstep, hrest⟩ := Option.bind_eq_some_iff.1 h
      exact ih (hrun.step (State.inWindow_of_lt fun _ => hlt) hstep) hrest
    · cases h

theorem completion_sound_signalThenWait :
    ∃ st st' : State Unit Unit Unit,
      (State.init fun _ => false).after signalThenWait = some st ∧
      st.step (.clear ()) = some (st', some (.waited () (some ((), 1)))) ∧
      1 ≤ (st'.queues ()).finished := by
  have hstates : ∃ st st' : State Unit Unit Unit,
      (State.init fun _ => false).after signalThenWait = some st ∧
      st.step (.clear ()) = some (st', some (.waited () (some ((), 1)))) ∧
      (st.queues ()).submitted < 2 ^ 31 := ⟨_, _, rfl, rfl, by decide⟩
  obtain ⟨st, st', hafter, hstep, hlt⟩ := hstates
  have hrun : Run (fun _ => false) st := Run.start.after signalThenWait hafter
  have hsound := completion_sound hrun (State.inWindow_of_lt fun _ => hlt) hstep
  exact ⟨st, st', hafter, hstep, hsound.2.1 () _ rfl () 1 rfl⟩

end Ps5Vulkan.Queue.Sync
