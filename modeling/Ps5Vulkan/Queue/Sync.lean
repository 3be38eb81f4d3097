import Ps5Vulkan.Queue.Machine

/-!
# Fences and semaphores

Sync objects (`ps5vk_sync.c`), the queues whose steps they stand for and the threads that signal,
reset, move and wait on them. What a mutex covers is one action here; what is outside it is not, so a
poll reads the marker in one action and takes the queue's lock in another, a move takes from its
source and sets its destination in two, and a wait reads the sync, polls and clears the sync in turn.
A list of actions is an interleaving of the threads and the GPU.

## Implementation notes

The counts `submitted`, `completed` and `finished` and the steps beside the marker values are what a
value was read or made for. The code never reads them. A deadline passes, or a queue is lost, at any
time a wait looks at the clock.
-/

namespace Ps5Vulkan.Queue

namespace Sync

/-- A queue and its GPU: `struct ps5vk_queue`'s values, the marker word, and the values the steps
that still run will write to it. -/
structure QueueState where
  markerValue : UInt32
  submittedValue : UInt32
  completedValue : UInt32
  marker : UInt32
  running : List UInt32
  submitted : Nat
  completed : Nat
  finished : Nat

/-- `ps5vk_queue_init`. -/
def QueueState.init : QueueState := ⟨0, 0, 0, 0, [], 0, 0, 0⟩

/-- `struct ps5vk_sync`. `step` is the step its latest signal stands for, nothing where the CPU
signalled it. -/
structure SyncState (Q : Type) where
  signaled : Bool
  queue : Option Q
  value : UInt32
  step : Option (Q × Nat)

/-- What a thread polls a queue for: a wait on a sync, another wait for a value, or the end of a
submission with the syncs it is to signal. -/
inductive Call (Q S : Type) where
  | sync (sync : S) (queue : Q) (value : UInt32) (step : Nat)
  | value (queue : Q) (value : UInt32)
  | signals (queue : Q) (value : UInt32) (step : Nat) (syncs : List S)

/-- The queue a call polls. -/
def Call.queue {Q S : Type} : Call Q S → Q
  | .sync _ q _ _ | .value q _ | .signals q _ _ _ => q

/-- Where a thread stands between two actions. -/
inductive Thread (Q S : Type) where
  | idle
  | moving (dst : S) (taken : SyncState Q)
  | polling (call : Call Q S)
  | read (call : Call Q S) (seen : UInt32) (step : Nat)
  | clearing (sync : S) (queue : Q) (value : UInt32) (step : Nat)
  | signalling (pending : Bool) (queue : Q) (value : UInt32) (step : Nat) (syncs : List S)

/-- Queues, syncs and threads. -/
structure State (Q S T : Type) where
  queues : Q → QueueState
  syncs : S → SyncState Q
  threads : T → Thread Q S

/-- Fresh queues, syncs made signalled or not, and idle threads. -/
def State.init {Q S T : Type} (signaled : S → Bool) : State Q S T where
  queues _ := .init
  syncs s := ⟨signaled s, none, 0, none⟩
  threads _ := .idle

/-- What the threads and the GPU do. -/
inductive Action (Q S T : Type) where
  | submitStep (queue : Q)
  | finishStep (queue : Q)
  | signal (sync : S)
  | reset (sync : S)
  | moveTake (thread : T) (dst src : S)
  | moveSet (thread : T)
  | wait (thread : T) (sync : S)
  | waitValue (thread : T) (queue : Q) (value : UInt32)
  | readMarker (thread : T)
  | update (thread : T)
  | giveUp (thread : T)
  | clear (thread : T)
  | submissionEnd (thread : T) (queue : Q) (signals : List S)
  | signalNext (thread : T)
  | pendingOn (sync : S) (queue : Q)

/-- What an action returns to the application: a wait on a sync that returns `VK_SUCCESS`, with the
step the signal it found stands for, or a wait skipped for a sync pending on the queue. -/
inductive Return (Q S : Type) where
  | waited (sync : S) (signal : Option (Q × Nat))
  | skipped (sync : S) (queue : Q)

section Queues

/-- A step takes the next marker value and is handed to the GPU (`ps5vk_queue_run_step`). -/
def QueueState.submitStep (queue : QueueState) : QueueState :=
  let value := nextValue queue.markerValue
  { queue with
    markerValue := value
    submittedValue := value
    running := queue.running ++ [value]
    submitted := queue.submitted + 1 }

/-- The GPU finishes the oldest of the steps that run and writes its value to the marker. -/
def QueueState.finishStep (queue : QueueState) : Option QueueState :=
  match queue.running with
  | [] => none
  | value :: running =>
    some { queue with marker := value, running := running, finished := queue.finished + 1 }

/-- The locked part of `ps5vk_queue_poll`, with the marker it saw and the step it saw it at. -/
def QueueState.update (queue : QueueState) (seen : UInt32) (step : Nat) : QueueState :=
  if markerReached seen queue.completedValue && markerReached queue.submittedValue seen then
    { queue with completedValue := seen, completed := step }
  else queue

end Queues

section Syncs

variable {Q : Type}

/-- `ps5vk_sync_set`. -/
def SyncState.set (signaled : Bool) (queue : Option Q) (value : UInt32)
    (step : Option (Q × Nat)) : SyncState Q :=
  ⟨signaled, if signaled then queue else none, value, step⟩

/-- `ps5vk_sync_pending_on`. -/
def SyncState.pendingOn [DecidableEq Q] (sync : SyncState Q) (queue : Q) : Bool :=
  sync.signaled && sync.queue == some queue

/-- The source of a move, once it is taken. -/
def SyncState.taken (sync : SyncState Q) : SyncState Q :=
  { sync with signaled := false, queue := none }

/-- The end of a wait: the GPU has run what the sync stands for, unless it stands for another step
by now. -/
def SyncState.clear [DecidableEq Q] (sync : SyncState Q) (queue : Q) (value : UInt32) :
    SyncState Q :=
  if sync.queue = some queue ∧ sync.value = value then { sync with queue := none } else sync

end Syncs

namespace State

variable {Q S T : Type} [DecidableEq Q] [DecidableEq S] [DecidableEq T] (st : State Q S T)

/-- The state with one queue, sync or thread changed. -/
def setQueue (q : Q) (queue : QueueState) : State Q S T :=
  { st with queues := Function.update st.queues q queue }

@[inherit_doc setQueue]
def setSync (s : S) (sync : SyncState Q) : State Q S T :=
  { st with syncs := Function.update st.syncs s sync }

@[inherit_doc setQueue]
def setThread (t : T) (thread : Thread Q S) : State Q S T :=
  { st with threads := Function.update st.threads t thread }

/-- The locked part of `ps5vk_sync_wait`, of a sync that is signalled. -/
def wait (t : T) (s : S) : State Q S T × Option (Return Q S) :=
  match (st.syncs s).queue with
  | none => (st, some (.waited s (st.syncs s).step))
  | some q =>
    let step := ((st.syncs s).step.map (·.2)).getD 0
    (st.setThread t (.polling (.sync s q (st.syncs s).value step)), none)

/-- What a thread does after a poll whose queue came to a completed value. -/
def afterPoll (call : Call Q S) (completed : UInt32) : Thread Q S :=
  match call with
  | .sync s q value step =>
    if markerReached completed value then .clearing s q value step else .polling call
  | .value _ value => if markerReached completed value then .idle else .polling call
  | .signals q value step syncs =>
    .signalling (!markerReached completed value) q value step syncs

/-- The signal of one sync by a submission: pending on the queue, or set at once where the queue had
come to the value. -/
def signalOne (pending : Bool) (q : Q) (value : UInt32) (step : Nat) : SyncState Q :=
  if pending then .set true (some q) value (some (q, step)) else .set true none 0 (some (q, step))

/-- One action, `none` where it cannot be taken. -/
def step : Action Q S T → Option (State Q S T × Option (Return Q S))
  | .submitStep q => some (st.setQueue q (st.queues q).submitStep, none)
  | .finishStep q => (st.queues q).finishStep.map fun queue => (st.setQueue q queue, none)
  | .signal s => some (st.setSync s (.set true none 0 none), none)
  | .reset s => some (st.setSync s (.set false none 0 none), none)
  | .moveTake t dst src =>
    match st.threads t with
    | .idle =>
      some ((st.setSync src (st.syncs src).taken).setThread t (.moving dst (st.syncs src)), none)
    | _ => none
  | .moveSet t =>
    match st.threads t with
    | .moving dst taken =>
      some ((st.setSync dst (.set taken.signaled taken.queue taken.value taken.step)).setThread t
        .idle, none)
    | _ => none
  | .wait t s =>
    match st.threads t with
    | .idle => if (st.syncs s).signaled then some (st.wait t s) else none
    | _ => none
  | .waitValue t q value =>
    match st.threads t with
    | .idle => some (st.setThread t (.polling (.value q value)), none)
    | _ => none
  | .readMarker t =>
    match st.threads t with
    | .polling call =>
      let queue := st.queues call.queue
      some (st.setThread t (.read call queue.marker queue.finished), none)
    | _ => none
  | .update t =>
    match st.threads t with
    | .read call seen step =>
      let queue := (st.queues call.queue).update seen step
      some ((st.setQueue call.queue queue).setThread t (afterPoll call queue.completedValue),
        none)
    | _ => none
  | .giveUp t =>
    match st.threads t with
    | .polling (.sync ..) | .polling (.value ..) => some (st.setThread t .idle, none)
    | _ => none
  | .clear t =>
    match st.threads t with
    | .clearing s q value step =>
      some ((st.setSync s ((st.syncs s).clear q value)).setThread t .idle,
        some (.waited s (some (q, step))))
    | _ => none
  | .submissionEnd t q signals =>
    match st.threads t with
    | .idle =>
      let queue := st.queues q
      some (st.setThread t
        (.polling (.signals q queue.submittedValue queue.submitted signals)), none)
    | _ => none
  | .signalNext t =>
    match st.threads t with
    | .signalling _ _ _ _ [] => some (st.setThread t .idle, none)
    | .signalling pending q value step (s :: rest) =>
      some ((st.setSync s (signalOne pending q value step)).setThread t
        (.signalling pending q value step rest), none)
    | _ => none
  | .pendingOn s q =>
    some (st, if (st.syncs s).pendingOn q then some (.skipped s q) else none)

end State

end Sync

end Ps5Vulkan.Queue
