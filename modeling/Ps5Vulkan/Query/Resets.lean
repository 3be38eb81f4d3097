import Mathlib.Data.List.Basic
import Mathlib.Data.List.Induction

/-!
# When query resets take effect

A query pool is memory of two counters a query (`ps5vk_query.c`). Begins, ends and timestamps are
recorded and write a counter when the GPU runs them, result copies read the counters where they stand
in the recording, and the host reads them after waiting for what was submitted. A reset is recorded
nowhere: `vkCmdResetQueryPool` zeroes the counters when it is called. This module runs the same calls
with resets at their recording and at their place in submission order. The two read the same where
every query is reset before it is first sampled, and sampled again only after a reset by the host.

## Implementation notes

The values the GPU samples are a parameter. The calls are followed with a ledger that has no values:
which samples of each query were submitted since the host reset it.
-/

namespace Ps5Vulkan.Query

/-- `VkQueryType`, of the pools the driver creates. -/
inductive PoolType where
  | occlusion
  | timestamp
  deriving DecidableEq, Repr

/-- The counter that completes a query. -/
def PoolType.lastCounter : PoolType → Fin 2
  | .occlusion => 1
  | .timestamp => 0

/-- What a command buffer records of a pool: a reset, a sample of one of a query's counters, or a copy
of results. -/
inductive Command (count : Nat) where
  | reset (first queries : Nat)
  | sample (query : Fin count) (counter : Fin 2)
  | copy (first queries : Nat)
  deriving DecidableEq, Repr

namespace Command

variable {count : Nat}

/-- `vkCmdBeginQuery`. -/
def beginQuery (query : Fin count) : Command count := .sample query 0

/-- `vkCmdEndQuery`. -/
def endQuery (query : Fin count) : Command count := .sample query 1

/-- `vkCmdWriteTimestamp`. -/
def writeTimestamp (query : Fin count) : Command count := .sample query 0

end Command

/-- The calls on a pool, and the GPU's progress: `work` is its next recorded command. -/
inductive Call (count : Nat) where
  | beginBuffer (buffer : Nat)
  | record (buffer : Nat) (command : Command count)
  | submit (buffer : Nat)
  | work
  | read (first queries : Nat)
  | hostReset (first queries : Nat)
  deriving DecidableEq, Repr

/-- When a recorded reset takes effect. -/
inductive ResetOrder where
  | recording
  | submission
  deriving DecidableEq, Repr

/-- The counters of a query, and whether its last one was written since its reset. -/
structure QueryState where
  counters : Fin 2 → UInt64
  ended : Bool

namespace QueryState

/-- A query as a reset leaves it. -/
def cleared : QueryState := ⟨fun _ => 0, false⟩

/-- A sample of one of its counters. -/
def sampled (type : PoolType) (state : QueryState) (counter : Fin 2) (value : UInt64) : QueryState :=
  ⟨Function.update state.counters counter value, state.ended || counter == type.lastCounter⟩

end QueryState

/-- A pool, the command buffers recorded for it, the commands submitted and not yet run, and the
results read and copied so far. -/
structure Pool (count : Nat) where
  queries : Fin count → QueryState
  samples : Nat
  recorded : Nat → List (Command count)
  pending : List (Command count)
  observed : List (List QueryState)

/-- The queries of a range. -/
def queryRange (count first queries : Nat) : List (Fin count) :=
  (List.finRange count).filter fun query => first ≤ query.val ∧ query.val < first + queries

/-- What the GPU may sample: its clock is not zero. -/
def Samples (type : PoolType) :=
  { sample : Nat → Fin 2 → UInt64 // type = .timestamp → ∀ n counter, sample n counter ≠ 0 }

namespace Pool

variable {count : Nat} {type : PoolType} (order : ResetOrder) (samples : Samples type)

/-- `ps5vk_CreateQueryPool`. -/
def create (count : Nat) : Pool count :=
  ⟨fun _ => .cleared, 0, fun _ => [], [], []⟩

variable (pool : Pool count)

/-- `ps5vk_query_pool_reset`. -/
def reset (first queries : Nat) : Pool count :=
  { pool with
    queries := fun query =>
      if query ∈ queryRange count first queries then .cleared else pool.queries query }

/-- The results of a range of queries are read. -/
def observe (first queries : Nat) : Pool count :=
  { pool with observed := pool.observed ++ [(queryRange count first queries).map pool.queries] }

/-- A command as the queue runs it. -/
def execute : Command count → Pool count
  | .reset first queries =>
    match order with
    | .recording => pool
    | .submission => pool.reset first queries
  | .sample query counter =>
    { pool with
      queries := Function.update pool.queries query
        ((pool.queries query).sampled type counter (samples.val pool.samples counter))
      samples := pool.samples + 1 }
  | .copy first queries => pool.observe first queries

/-- The queue runs all that was submitted. -/
def drain : Pool count :=
  pool.pending.foldl (execute order samples) { pool with pending := [] }

/-- A command as it is recorded. -/
def record (buffer : Nat) (command : Command count) : Pool count :=
  let recorded := { pool with
    recorded := Function.update pool.recorded buffer (pool.recorded buffer ++ [command]) }
  match order, command with
  | .recording, .reset first queries => recorded.reset first queries
  | _, _ => recorded

/-- The effect of a call. -/
def step : Call count → Pool count
  | .beginBuffer buffer => { pool with recorded := Function.update pool.recorded buffer [] }
  | .record buffer command => pool.record order buffer command
  | .submit buffer => { pool with pending := pool.pending ++ pool.recorded buffer }
  | .work =>
    match pool.pending with
    | [] => pool
    | command :: rest => execute order samples { pool with pending := rest } command
  | .read first queries => (pool.drain order samples).observe first queries
  | .hostReset first queries => pool.reset first queries

/-- A sequence of calls on a new pool. -/
def run (calls : List (Call count)) : Pool count :=
  calls.foldl (step order samples) (create count)

end Pool

/-! ## What is read -/

/-- `ps5vk_query_result`. -/
def queryResult (type : PoolType) (counters : Fin 2 → UInt64) : UInt64 :=
  match type with
  | .timestamp => counters 0
  | .occlusion => (counters 1 - counters 0) * 16

/-- `ps5vk_query_available`. -/
def queryAvailable (type : PoolType) (counters : Fin 2 → UInt64) : Bool :=
  match type with
  | .timestamp => counters 0 != 0
  | .occlusion => true

/-- The value and availability the driver reads for a query. -/
def driverView (type : PoolType) (state : QueryState) : UInt64 × Bool :=
  (queryResult type state.counters, queryAvailable type state.counters)

/-- The value and availability of a query: it is available once it has ended since its reset. -/
def vulkanView (type : PoolType) (state : QueryState) : UInt64 × Bool :=
  (queryResult type state.counters, state.ended)

/-- Every host read and every copy sees what the calls give in submission order, and recording a
command changes no query, whatever the GPU samples. -/
def ResetsInOrder {count : Nat} (type : PoolType) (calls : List (Call count)) : Prop :=
  ∀ samples : Samples type,
    (Pool.run .recording samples calls).observed.map (List.map (driverView type)) =
        (Pool.run .submission samples calls).observed.map (List.map (vulkanView type)) ∧
      ∀ before buffer command after, calls = before ++ .record buffer command :: after → ∀ query,
        ((Pool.run .recording samples (before ++ [.record buffer command])).queries query).counters =
          ((Pool.run .recording samples before).queries query).counters

/-! ## Calls in order -/

section Order

variable {count : Nat} (type : PoolType)

/-- A sample of a query's counter. -/
abbrev Sample (count : Nat) := Fin count × Fin 2

/-- The queries of the range are complete, as far as the driver does not see it for itself. -/
def completed (taken : List (Sample count)) (first queries : Nat) : Bool :=
  type == .timestamp || (queryRange count first queries).all fun query => taken.contains (query, 1)

/-- None of the queries of the range was sampled. -/
def unsampled (taken : List (Sample count)) (first queries : Nat) : Bool :=
  (queryRange count first queries).all fun query => taken.all fun sample => sample.1 != query

namespace Command

/-- The samples taken, after a command. -/
def after (taken : List (Sample count)) : Command count → List (Sample count)
  | .sample query counter => (query, counter) :: taken
  | _ => taken

/-- A reset comes before any sample of its queries, and a copy when they are complete. -/
def inOrder (taken : List (Sample count)) : Command count → Bool
  | .reset first queries => unsampled taken first queries
  | .sample _ _ => true
  | .copy first queries => completed type taken first queries

end Command

/-- Each command of a list is in order after those before it. -/
def commandsInOrder : List (Sample count) → List (Command count) → Bool
  | _, [] => true
  | taken, command :: rest => command.inOrder type taken && commandsInOrder (command.after taken) rest

/-- What the calls so far say: the commands of each buffer, those the GPU has not run, and the samples
submitted of each query since the host reset it. -/
structure Ledger (count : Nat) where
  recorded : Nat → List (Command count)
  pending : List (Command count)
  taken : List (Sample count)

namespace Ledger

def start (count : Nat) : Ledger count := ⟨fun _ => [], [], []⟩

def step (ledger : Ledger count) : Call count → Ledger count
  | .beginBuffer buffer => { ledger with recorded := Function.update ledger.recorded buffer [] }
  | .record buffer command => { ledger with
      recorded := Function.update ledger.recorded buffer (ledger.recorded buffer ++ [command]) }
  | .submit buffer => { ledger with
      pending := ledger.pending ++ ledger.recorded buffer
      taken := (ledger.recorded buffer).foldl Command.after ledger.taken }
  | .work => { ledger with pending := ledger.pending.tail }
  | .read _ _ => { ledger with pending := [] }
  | .hostReset first queries => { ledger with
      taken := ledger.taken.filter fun sample => !(queryRange count first queries).contains sample.1 }

/-- A reset is recorded, and submitted, before any sample of its queries is; occlusion queries are read
and copied when they are complete; and the host resets queries when all that was submitted has run. -/
def inOrder (ledger : Ledger count) : Call count → Bool
  | .record _ (.reset first queries) => unsampled ledger.taken first queries
  | .submit buffer => commandsInOrder type ledger.taken (ledger.recorded buffer)
  | .read first queries => completed type ledger.taken first queries
  | .hostReset _ _ => ledger.pending.isEmpty
  | _ => true

end Ledger

/-- Each of the calls is in order after those before it. -/
def callsInOrder : Ledger count → List (Call count) → Bool
  | _, [] => true
  | ledger, call :: rest => ledger.inOrder type call && callsInOrder (ledger.step call) rest

end Order

/-! ## Runs -/

section Runs

variable {count : Nat} {type : PoolType} (samples : Samples type) {pool : Pool count} {ran : List (Sample count)}
  {ledger : Ledger count}

theorem commandsInOrder_append (ran : List (Sample count)) (commands more : List (Command count)) :
    commandsInOrder type ran (commands ++ more) = (commandsInOrder type ran commands &&
        commandsInOrder type (commands.foldl Command.after ran) more) := by
  induction commands generalizing ran with
  | nil => rfl
  | cons command rest ih => simp only [List.cons_append, commandsInOrder, ih, Bool.and_assoc, List.foldl_cons]

theorem callsInOrder_append (ledger : Ledger count) (calls more : List (Call count)) :
    callsInOrder type ledger (calls ++ more) =
      (callsInOrder type ledger calls && callsInOrder type (calls.foldl Ledger.step ledger) more) := by
  induction calls generalizing ledger with
  | nil => rfl
  | cons call rest ih => simp only [List.cons_append, callsInOrder, ih, Bool.and_assoc, List.foldl_cons]

/-- What a reset clears already is clear. -/
theorem Pool.reset_eq_self {first queries : Nat}
    (h : ∀ query ∈ queryRange count first queries, pool.queries query = .cleared) :
    pool.reset first queries = pool := by
  have hqueries : (fun query => if query ∈ queryRange count first queries then .cleared
      else pool.queries query) = pool.queries := by
    funext query
    split
    next hmem => exact (h query hmem).symm
    next => rfl
  rw [reset, hqueries]

/-- Running a command leaves the recordings and what is still to run. -/
theorem Pool.execute_rest (pool : Pool count) (command : Command count) :
    (pool.execute .submission samples command).recorded = pool.recorded ∧
      (pool.execute .submission samples command).pending = pool.pending := by
  cases command <;> exact ⟨rfl, rfl⟩

theorem Pool.foldl_execute (commands : List (Command count)) (pool : Pool count) :
    (commands.foldl (execute .submission samples) pool).recorded = pool.recorded ∧
      (commands.foldl (execute .submission samples) pool).pending = pool.pending := by
  induction commands generalizing pool with
  | nil => exact ⟨rfl, rfl⟩
  | cons command rest ih =>
    obtain ⟨hrecorded, hpending⟩ := pool.execute_rest samples command
    exact ⟨(ih _).1.trans hrecorded, (ih _).2.trans hpending⟩

/-- The queries, where `ran` are the samples that have run since the host reset them. -/
structure Ran (type : PoolType) (ran : List (Sample count)) (pool : Pool count) : Prop where
  cleared : ∀ query, (∀ sample ∈ ran, sample.1 ≠ query) → pool.queries query = .cleared
  ended : ∀ query, (query, type.lastCounter) ∈ ran → (pool.queries query).ended = true
  available : type = .timestamp → ∀ query,
    queryAvailable type (pool.queries query).counters = (pool.queries query).ended
  observed : ∀ states ∈ pool.observed, ∀ state ∈ states, queryAvailable type state.counters = state.ended

namespace Ran

section

variable (h : Ran type ran pool)

include h

theorem reset_eq {first queries : Nat} (hin : unsampled ran first queries = true) :
    pool.reset first queries = pool := by
  refine Pool.reset_eq_self fun query hmem => h.cleared query fun sample hsample => ?_
  have hall := List.all_eq_true.mp (List.all_eq_true.mp hin query hmem) sample hsample
  exact bne_iff_ne.mp hall

theorem observe {first queries : Nat} (hin : completed type ran first queries = true) :
    Ran type ran (pool.observe first queries) := by
  refine { h with observed := List.forall_mem_append.mpr ⟨h.observed, List.forall_mem_singleton.mpr ?_⟩ }
  intro state hstate
  obtain ⟨query, hquery, rfl⟩ := List.mem_map.mp hstate
  cases type with
  | timestamp => exact h.available rfl query
  | occlusion => exact (h.ended query (List.contains_iff_mem.mp (List.all_eq_true.mp hin query hquery))).symm

theorem sample (query : Fin count) (counter : Fin 2) (order : ResetOrder) :
    Ran type ((query, counter) :: ran) (pool.execute order samples (.sample query counter)) := by
  have hother : ∀ {other}, other ≠ query →
      (pool.execute order samples (.sample query counter)).queries other = pool.queries other :=
    fun hne => Function.update_of_ne hne ..
  have hself : (pool.execute order samples (.sample query counter)).queries query =
      (pool.queries query).sampled type counter (samples.val pool.samples counter) :=
    Function.update_self ..
  refine ⟨fun other hnone => ?_, fun other hmem => ?_, fun htype other => ?_, h.observed⟩
  · obtain ⟨hne, hrest⟩ := List.forall_mem_cons.mp hnone
    rw [hother hne.symm, h.cleared other hrest]
  · by_cases heq : other = query
    · subst heq
      rw [hself]
      rcases List.mem_cons.mp hmem with hlast | hran
      · simp [QueryState.sampled, ← (Prod.mk.inj hlast).2]
      · simp [QueryState.sampled, h.ended other hran]
    · rw [hother heq]
      exact h.ended other ((List.mem_cons.mp hmem).resolve_left fun hlast => heq (Prod.mk.inj hlast).1)
  · by_cases heq : other = query
    · subst heq htype
      rw [hself]
      have hvalue := samples.property rfl pool.samples counter
      have hold := h.available rfl other
      match counter with
      | 0 => simpa [QueryState.sampled, queryAvailable, PoolType.lastCounter] using hvalue
      | 1 => simpa [QueryState.sampled, queryAvailable, PoolType.lastCounter] using hold
    · rw [hother heq]
      exact h.available htype other

/-- A command in order runs alike in either order. -/
theorem execute {command : Command count} (hin : command.inOrder type ran = true) :
    pool.execute .recording samples command = pool.execute .submission samples command ∧
      Ran type (command.after ran) (pool.execute .submission samples command) := by
  cases command with
  | reset first queries =>
    have hreset : pool.execute .submission samples (.reset first queries) = pool := h.reset_eq hin
    rw [hreset]
    exact ⟨rfl, h⟩
  | sample query counter => exact ⟨rfl, h.sample samples query counter _⟩
  | copy first queries => exact ⟨rfl, h.observe hin⟩

theorem drain {commands : List (Command count)} (hin : commandsInOrder type ran commands = true) :
    commands.foldl (Pool.execute .recording samples) pool = commands.foldl (Pool.execute .submission samples) pool ∧
      Ran type (commands.foldl Command.after ran) (commands.foldl (Pool.execute .submission samples) pool) := by
  induction commands generalizing pool ran with
  | nil => exact ⟨rfl, h⟩
  | cons command rest ih =>
    obtain ⟨hcommand, hrest⟩ := Bool.and_eq_true_iff.mp hin
    obtain ⟨heq, hran⟩ := h.execute samples hcommand
    simp only [List.foldl_cons, heq]
    exact ih hran hrest

end

end Ran

/-- A pool the calls of the ledger have led to. -/
structure Follows (type : PoolType) (ledger : Ledger count) (ran : List (Sample count)) (pool : Pool count) :
    Prop extends Ran type ran pool where
  recorded : pool.recorded = ledger.recorded
  pending : pool.pending = ledger.pending
  taken : ledger.pending.foldl Command.after ran = ledger.taken
  inOrder : commandsInOrder type ran ledger.pending = true

namespace Follows

section

variable (h : Follows type ledger ran pool)

include h

/-- What has run was submitted. -/
theorem mem_taken {sample : Sample count} (hmem : sample ∈ ran) : sample ∈ ledger.taken := by
  rw [← h.taken]
  refine List.foldlRecOn (motive := (sample ∈ ·)) _ Command.after hmem fun taken htaken command _ => ?_
  cases command with
  | sample query counter => exact List.mem_cons_of_mem _ htaken
  | _ => exact htaken

theorem record (buffer : Nat) (command : Command count) (hin : ledger.inOrder type (.record buffer command) = true) :
    pool.record .recording buffer command = pool.record .submission buffer command := by
  cases command with
  | reset first queries =>
    have hrun : unsampled ran first queries = true := by
      simp only [Ledger.inOrder, unsampled, List.all_eq_true] at hin ⊢
      exact fun query hquery sample hsample => hin query hquery sample (h.mem_taken hsample)
    have hran : Ran type ran (pool.record .submission buffer (.reset first queries)) := { h.toRan with }
    exact hran.reset_eq hrun
  | _ => rfl

theorem hostReset (first queries : Nat) (hin : ledger.inOrder type (.hostReset first queries) = true) :
    Follows type (ledger.step (.hostReset first queries))
      (ran.filter fun sample => !(queryRange count first queries).contains sample.1) (pool.reset first queries) := by
  have hidle : ledger.pending = [] := List.isEmpty_iff.mp hin
  have htaken : ran = ledger.taken := by simpa [hidle] using h.taken
  have hqueries : ∀ query, (pool.reset first queries).queries query = .cleared ∧
        query ∈ queryRange count first queries ∨
      (pool.reset first queries).queries query = pool.queries query ∧
        query ∉ queryRange count first queries := by
    intro query
    by_cases hmem : query ∈ queryRange count first queries
    · exact .inl ⟨if_pos hmem, hmem⟩
    · exact .inr ⟨if_neg hmem, hmem⟩
  refine ⟨⟨fun query hnone => ?_, fun query hmem => ?_, fun htype query => ?_, h.observed⟩, h.recorded, h.pending,
    by simp [Ledger.step, hidle, htaken], by simp [Ledger.step, hidle, commandsInOrder]⟩
  · rcases hqueries query with ⟨hclear, -⟩ | ⟨hsame, hout⟩
    · exact hclear
    · rw [hsame]
      refine h.cleared query fun sample hsample heq => ?_
      exact hnone sample (List.mem_filter.mpr ⟨hsample, by simpa [heq] using hout⟩) heq
  · obtain ⟨hran, hout⟩ := List.mem_filter.mp hmem
    rcases hqueries query with ⟨-, hin⟩ | ⟨hsame, -⟩
    · simp [hin] at hout
    · rw [hsame]
      exact h.ended query hran
  · rcases hqueries query with ⟨hclear, -⟩ | ⟨hsame, -⟩
    · rw [hclear, htype]
      rfl
    · rw [hsame]
      exact h.available htype query

/-- A call in order has the same effect in either order. -/
theorem step {call : Call count} (hin : ledger.inOrder type call = true) :
    pool.step .recording samples call = pool.step .submission samples call ∧
      ∃ ran', Follows type (ledger.step call) ran' (pool.step .submission samples call) := by
  cases call with
  | beginBuffer buffer => exact ⟨rfl, ran, { h with recorded := by simp only [Pool.step, Ledger.step, h.recorded] }⟩
  | record buffer command =>
    refine ⟨h.record buffer command hin, ran, { h with recorded := ?_ }⟩
    simp only [Pool.step, Pool.record, Ledger.step, h.recorded]
  | submit buffer =>
    refine ⟨rfl, ran, { h with pending := ?_, taken := ?_, inOrder := ?_ }⟩
    · simp only [Pool.step, Ledger.step, h.pending, h.recorded]
    · simp only [Ledger.step, List.foldl_append, h.taken]
    · simp only [Ledger.step, commandsInOrder_append, h.inOrder, h.taken, Bool.true_and]
      exact hin
  | work =>
    have hpending := h.pending
    have htaken := h.taken
    have hinOrder := h.inOrder
    cases hcommands : ledger.pending with
    | nil =>
      rw [hcommands] at hpending
      simp only [Pool.step, Ledger.step, hpending, hcommands, List.tail_nil]
      exact ⟨trivial, ran, { h with pending := by rw [hpending], taken := by rw [← htaken, hcommands], inOrder := rfl }⟩
    | cons command rest =>
      rw [hcommands] at hpending htaken hinOrder
      obtain ⟨hcommand, hrest⟩ := Bool.and_eq_true_iff.mp hinOrder
      have hran : Ran type ran { pool with pending := rest } := { h with }
      obtain ⟨heq, hnext⟩ := hran.execute samples hcommand
      simp only [Pool.step, Ledger.step, hpending, hcommands, List.tail_cons]
      refine ⟨heq, command.after ran, { hnext with recorded := ?_, pending := ?_, taken := htaken, inOrder := hrest }⟩
      · exact (Pool.execute_rest samples _ command).1.trans h.recorded
      · exact (Pool.execute_rest samples _ command).2
  | read first queries =>
    have hran : Ran type ran { pool with pending := [] } := { h with }
    obtain ⟨heq, hnext⟩ := hran.drain samples h.inOrder
    rw [h.taken, ← h.pending] at hnext
    refine ⟨?_, ledger.taken, { hnext.observe hin with recorded := ?_, pending := ?_, taken := rfl, inOrder := rfl }⟩
    · simp only [Pool.step, Pool.drain, h.pending, heq]
    · exact (Pool.foldl_execute samples _ _).1.trans h.recorded
    · exact (Pool.foldl_execute samples _ _).2
  | hostReset first queries => exact ⟨rfl, _, h.hostReset first queries hin⟩

theorem run {calls : List (Call count)} (hin : callsInOrder type ledger calls = true) :
    calls.foldl (Pool.step .recording samples) pool = calls.foldl (Pool.step .submission samples) pool ∧
      ∃ ran', Follows type (calls.foldl Ledger.step ledger) ran' (calls.foldl (Pool.step .submission samples) pool) := by
  induction calls generalizing ledger ran pool with
  | nil => exact ⟨rfl, ran, h⟩
  | cons call rest ih =>
    obtain ⟨hcall, hrest⟩ := Bool.and_eq_true_iff.mp hin
    obtain ⟨heq, next, hnext⟩ := h.step samples hcall
    simp only [List.foldl_cons, heq]
    exact ih hnext hrest

end

/-- A new pool. -/
theorem create : Follows type (.start count) [] (Pool.create count) :=
  ⟨⟨fun _ _ => rfl, fun _ hmem => absurd hmem List.not_mem_nil, fun htype _ => by subst htype; rfl,
    fun _ hmem => absurd hmem List.not_mem_nil⟩, rfl, rfl, rfl, rfl⟩

end Follows

end Runs

/-- Timestamps of two queries that are reset first, copied and read, and one of them again after the
host has reset it. -/
def resetFirst : List (Call 2) :=
  [.beginBuffer 0, .record 0 (.reset 0 2), .record 0 (.writeTimestamp 0), .beginBuffer 1,
    .record 1 (.writeTimestamp 1), .record 1 (.copy 0 2), .submit 0, .work, .work, .submit 1, .read 0 2,
    .hostReset 0 1, .beginBuffer 0, .record 0 (.reset 0 1), .record 0 (.writeTimestamp 0), .submit 0, .read 0 1]

/-- A clock that stands still. -/
def steadyClock : Samples .timestamp :=
  ⟨fun _ _ => 100, fun _ _ _ => by
    show (100 : UInt64) ≠ 0
    decide⟩

/-- A timestamp, read by the host after the reset of a command buffer that is never submitted. -/
def resetRecorded : List (Call 1) :=
  [.beginBuffer 0, .record 0 (.writeTimestamp 0), .submit 0, .work, .beginBuffer 1,
    .record 1 (.reset 0 1), .read 0 1]

end Ps5Vulkan.Query
