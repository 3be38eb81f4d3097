import Mathlib.Data.List.Basic

/-!
# The control agent

The agent (`payload/ps5vkctl/main.c`) answers one command per connection. Its accepting thread answers `ping`, `health`
and `quit` itself. Any other command it hands to its one worker, and waits for the answer until a deadline; a command
that has not returned by then keeps the worker, and its late answer is nobody's. While the accepting thread waits it
accepts no connection, so that a `ping` that comes meanwhile is answered only after the wait.

## Implementation notes

What a thread does while it holds the lock is one step. `g_answer` is written without it, by steps of their own. A
deadline passes at any time. Clients are numbered as they connect, and the lists are what has happened, the newest
first.
-/

namespace Ps5Vulkan.Control

variable {Line Text : Type}

/-- A client's command. -/
inductive Request (Line : Type)
  | ping
  | health
  | quit
  | system (line : Line)

inductive Answer (Line Text : Type)
  | pong
  | bye
  /-- The command that runs (`some none`: the worker is still starting), and how many were served. -/
  | health (busy : Option (Option Line)) (served : Nat)
  | busy (command : Option Line)
  | timeout (line : Line)
  /-- `g_answer`, or `err no answer`. -/
  | produced (text : Option Text)

/-- Where the worker is. Outside `waiting` it is in a system call, or about to make one. -/
inductive Worker (Line : Type)
  | initializing
  | waiting
  | taken (client : Nat) (line : Line)
  | running (client : Nat) (line : Line)

/-- Where the accepting thread is. -/
inductive Accepting (Line : Type)
  | accepting
  | serving (client : Nat) (request : Request Line)
  | awaiting (client : Nat) (line : Line)
  | left

def Worker.client : Worker Line → Option Nat
  | .initializing | .waiting => none
  | .taken client _ | .running client _ => some client

def Accepting.client : Accepting Line → Option Nat
  | .serving client _ => some client
  | _ => none

structure Agent (Line Text : Type) where
  /-- `g_work_line`, with the client it is from. -/
  workLine : Option (Nat × Line)
  /-- `g_work_command`; `none` is `init`. -/
  command : Option Line
  answer : Option Text
  pending : Bool
  busy : Bool
  served : Nat
  worker : Worker Line
  thread : Accepting Line
  /-- The connections that wait to be accepted. -/
  backlog : List (Nat × Request Line)
  arrived : Nat
  handed : List (Nat × Line)
  started : List (Nat × Line)
  finished : List Nat
  replies : List (Nat × Text)
  sent : List (Nat × Request Line × Answer Line Text)

inductive AgentEvent (Line Text : Type)
  | arrive (request : Request Line)
  | accept
  | serve
  | wake
  | timeout
  | initialized
  | take
  | clear
  | reply (text : Text)
  | finish

/-- The request of a client that connects. -/
def AgentEvent.arrival : AgentEvent Line Text → Option (Request Line)
  | .arrive request => some request
  | _ => none

namespace Agent

/-- The agent listens, and its worker has been created. -/
def start : Agent Line Text :=
  ⟨none, none, none, false, true, 0, .initializing, .accepting, [], 0, [], [], [], [], []⟩

variable (agent : Agent Line Text)

def send (client : Nat) (request : Request Line) (answer : Answer Line Text) : Agent Line Text :=
  { agent with thread := .accepting, sent := (client, request, answer) :: agent.sent }

/-- `serve_client`, as far as the wait. -/
def serve (client : Nat) : Request Line → Agent Line Text
  | .ping => agent.send client .ping .pong
  | .quit => { agent.send client .quit .bye with thread := .left }
  | .health => agent.send client .health (.health (if agent.busy then some agent.command else none) agent.served)
  | .system line =>
    if agent.busy then agent.send client (.system line) (.busy agent.command)
    else
      { agent with
        workLine := some (client, line)
        command := some line
        pending := true
        busy := true
        thread := .awaiting client line
        handed := (client, line) :: agent.handed }

def step : AgentEvent Line Text → Agent Line Text
  | .arrive request =>
    { agent with backlog := agent.backlog ++ [(agent.arrived, request)], arrived := agent.arrived + 1 }
  | .accept =>
    match agent.thread, agent.backlog with
    | .accepting, (client, request) :: backlog => { agent with thread := .serving client request, backlog := backlog }
    | _, _ => agent
  | .serve =>
    match agent.thread with
    | .serving client request => agent.serve client request
    | _ => agent
  | .wake =>
    match agent.thread, agent.busy with
    | .awaiting client line, false =>
      { agent.send client (.system line) (.produced agent.answer) with served := agent.served + 1 }
    | _, _ => agent
  | .timeout =>
    match agent.thread, agent.busy with
    | .awaiting client line, true =>
      { agent.send client (.system line) (.timeout line) with served := agent.served + 1 }
    | _, _ => agent
  | .initialized =>
    match agent.worker with
    | .initializing => { agent with worker := .waiting, busy := false }
    | _ => agent
  | .take =>
    match agent.worker, agent.pending, agent.workLine with
    | .waiting, true, some (client, line) =>
      { agent with worker := .taken client line, pending := false, started := (client, line) :: agent.started }
    | _, _, _ => agent
  | .clear =>
    match agent.worker with
    | .taken client line => { agent with worker := .running client line, answer := none }
    | _ => agent
  | .reply text =>
    match agent.worker with
    | .running client _ => { agent with answer := some text, replies := (client, text) :: agent.replies }
    | _ => agent
  | .finish =>
    match agent.worker with
    | .running client _ => { agent with worker := .waiting, busy := false, finished := client :: agent.finished }
    | _ => agent

def run (events : List (AgentEvent Line Text)) : Agent Line Text :=
  events.foldl step start

/-- What a command answered last. -/
def replyTo (client : Nat) : Option Text :=
  agent.replies.lookup client

/-- The answer a client was sent is to its request: its own command's, once that has finished. -/
def Fits : Nat × Request Line × Answer Line Text → Prop
  | (_, .ping, answer) => answer = .pong
  | (_, .quit, answer) => answer = .bye
  | (_, .health, answer) => ∃ busy served, answer = .health busy served
  | (client, .system line, answer) => (∃ command, answer = .busy command) ∨ answer = .timeout line ∨
      answer = .produced (agent.replyTo client) ∧ client ∈ agent.finished ∧ (client, line) ∈ agent.started

variable {agent}

/-- What was handed over has been started, but for the line the worker has not taken; what was started has finished, but
for the command the worker is in; and the answer is that command's, or the last one's. -/
structure Orderly (agent : Agent Line Text) : Prop where
  clients : (agent.thread.client.toList ++ agent.backlog.map Prod.fst ++ agent.handed.map Prod.fst).Nodup
  arrived : ∀ client ∈ agent.thread.client.toList ++ agent.backlog.map Prod.fst ++ agent.handed.map Prod.fst,
    client < agent.arrived
  handed : agent.handed = (if agent.pending then agent.workLine.toList else []) ++ agent.started
  started : agent.started.map Prod.fst = agent.worker.client.toList ++ agent.finished
  idle : agent.busy = false → agent.worker = .waiting ∧ agent.pending = false
  queued : agent.pending = true → agent.worker = .waiting
  awaiting : ∀ client line, agent.thread = .awaiting client line → agent.handed.head? = some (client, line)
  last : ∀ client, agent.worker.client = none → agent.finished.head? = some client → agent.answer = agent.replyTo client
  running : ∀ client line, agent.worker = .running client line → agent.answer = agent.replyTo client
  replies : ∀ entry ∈ agent.replies, entry.1 ∈ agent.finished ∨ ∃ line, agent.worker = .running entry.1 line
  sent : ∀ entry ∈ agent.sent, agent.Fits entry

namespace Orderly

section

variable (h : agent.Orderly)

include h

theorem nodup_started : (agent.started.map Prod.fst).Nodup := by
  have hnodup := (List.nodup_append.mp h.clients).2.1
  rw [h.handed, List.map_append] at hnodup
  exact (List.nodup_append.mp hnodup).2.1

/-- The worker's command has not finished before. -/
theorem not_finished {client : Nat} (hclient : agent.worker.client = some client) : client ∉ agent.finished := by
  have hnodup := h.nodup_started
  rw [h.started, hclient] at hnodup
  exact (List.nodup_cons.mp hnodup).1

theorem not_pending (hworker : agent.worker ≠ .waiting) : agent.pending = false :=
  Bool.eq_false_iff.mpr fun hpending => hworker (h.queued hpending)

/-- An answer that was sent stays its client's. -/
theorem sent_of {agent' : Agent Line Text}
    (hstarted : agent.started ⊆ agent'.started) (hfinished : agent.finished ⊆ agent'.finished)
    (hreply : ∀ client ∈ agent.finished, agent'.replyTo client = agent.replyTo client) :
    ∀ entry ∈ agent.sent, agent'.Fits entry := by
  intro entry hentry
  have hfits := h.sent entry hentry
  obtain ⟨client, request, answer⟩ := entry
  cases request with
  | system line =>
    refine hfits.imp_right fun hfits => hfits.imp_right fun ⟨hanswer, hmem, hline⟩ => ?_
    exact ⟨hreply client hmem ▸ hanswer, hfinished hmem, hstarted hline⟩
  | _ => exact hfits

/-- The accepting thread answers the client it serves. -/
theorem send {client : Nat} {request : Request Line} {answer : Answer Line Text}
    (hfits : agent.Fits (client, request, answer)) : (agent.send client request answer).Orderly where
  clients := by
    have hclients := h.clients
    rw [List.append_assoc] at hclients
    exact (List.nodup_append.mp hclients).2.1
  arrived := fun other hother => h.arrived other (by
    rw [List.append_assoc]
    exact List.mem_append_right _ hother)
  handed := h.handed
  started := h.started
  idle := h.idle
  queued := h.queued
  awaiting := nofun
  last := h.last
  running := h.running
  replies := h.replies
  sent := List.forall_mem_cons.mpr ⟨hfits, h.sent⟩

theorem serve {client : Nat} {request : Request Line}
    (hthread : agent.thread = .serving client request) : (agent.serve client request).Orderly := by
  cases request with
  | ping => exact h.send rfl
  | health => exact h.send ⟨_, _, rfl⟩
  | quit =>
    have hsend : (agent.send client .quit .bye).Orderly := h.send rfl
    exact { hsend with awaiting := nofun }
  | system line =>
    dsimp only [Agent.serve]
    split
    next => exact h.send (.inl ⟨_, rfl⟩)
    next hbusy =>
      obtain ⟨hworker, hpending⟩ := h.idle (Bool.eq_false_iff.mpr hbusy)
      have hperm : ([] ++ agent.backlog.map Prod.fst ++ ((client, line) :: agent.handed).map Prod.fst).Perm
          (agent.thread.client.toList ++ agent.backlog.map Prod.fst ++ agent.handed.map Prod.fst) := by
        rw [hthread]
        exact List.perm_middle
      exact
        { clients := hperm.nodup_iff.mpr h.clients
          arrived := fun other hother => h.arrived other (hperm.mem_iff.mp hother)
          handed := by
            rw [h.handed, hpending]
            rfl
          started := h.started
          idle := nofun
          queued := fun _ => hworker
          awaiting := fun _ _ heq => by cases heq; rfl
          last := h.last
          running := h.running
          replies := h.replies
          sent := h.sent }

/-- The worker's answer is the one the accepting thread waits for. -/
theorem wake {client : Nat} {line : Line} (hthread : agent.thread = .awaiting client line)
    (hbusy : agent.busy = false) : agent.Fits (client, .system line, .produced agent.answer) := by
  obtain ⟨hworker, hpending⟩ := h.idle hbusy
  have hhead := h.awaiting client line hthread
  have hhanded := h.handed
  rw [hpending] at hhanded
  rw [hhanded] at hhead
  obtain ⟨rest, hstarted⟩ : ∃ rest, agent.started = (client, line) :: rest := by
    cases hlist : agent.started with
    | nil => rw [hlist] at hhead; cases hhead
    | cons entry rest => rw [hlist] at hhead; exact ⟨rest, by rw [Option.some.inj hhead]⟩
  have hfinished : agent.finished = client :: rest.map Prod.fst := by
    have := h.started
    rw [hworker, hstarted] at this
    exact this.symm
  refine .inr (.inr ⟨congrArg _ (h.last client (by rw [hworker]; rfl) (by rw [hfinished]; rfl)), ?_, ?_⟩)
  · rw [hfinished]
    exact List.mem_cons_self
  · rw [hstarted]
    exact List.mem_cons_self

theorem arrive (request : Request Line) : (agent.step (.arrive request)).Orderly := by
  have hperm : (agent.thread.client.toList ++ (agent.backlog ++ [(agent.arrived, request)]).map Prod.fst ++
      agent.handed.map Prod.fst).Perm (agent.arrived :: (agent.thread.client.toList ++ agent.backlog.map Prod.fst ++
      agent.handed.map Prod.fst)) := by
    rw [List.map_append, ← List.append_assoc, List.append_assoc (_ ++ _)]
    exact List.perm_middle
  refine { h with clients := hperm.nodup_iff.mpr (List.nodup_cons.mpr ⟨fun hmem => ?_, h.clients⟩), arrived := ?_ }
  · exact absurd (h.arrived _ hmem) (Nat.lt_irrefl _)
  · intro client hmem
    rcases List.mem_cons.mp (hperm.mem_iff.mp hmem) with rfl | hold
    · exact Nat.lt_succ_self _
    · exact Nat.lt_succ_of_lt (h.arrived client hold)

theorem accept : (agent.step .accept).Orderly := by
  simp only [Agent.step]
  split
  next client request backlog hthread hbacklog =>
    have heq : agent.thread.client.toList ++ agent.backlog.map Prod.fst = [client] ++ backlog.map Prod.fst := by
      rw [hthread, hbacklog]
      rfl
    exact { h with
      clients := heq ▸ h.clients
      arrived := heq ▸ h.arrived
      awaiting := nofun }
  next => exact h

theorem take : (agent.step .take).Orderly := by
  simp only [Agent.step]
  split
  next client line hworker hpending hline =>
    have hhanded : agent.handed = (client, line) :: agent.started := by
      rw [h.handed, hpending, hline]
      rfl
    have hstarted := h.started
    rw [hworker] at hstarted
    exact { h with
      handed := hhanded
      started := congrArg (client :: ·) hstarted
      idle := fun hbusy => Bool.noConfusion (hpending.symm.trans (h.idle hbusy).2)
      queued := nofun
      last := nofun
      running := nofun
      replies := fun entry hentry => (h.replies entry hentry).imp_right fun ⟨_, heq⟩ =>
        absurd (hworker.symm.trans heq) nofun
      sent := h.sent_of (List.subset_cons_self ..) (List.Subset.refl _) fun _ _ => rfl }
  next => exact h

theorem clear : (agent.step .clear).Orderly := by
  simp only [Agent.step]
  split
  next client line hworker =>
    have hnew : client ∉ agent.finished := h.not_finished (by rw [hworker]; rfl)
    have hreplies : ∀ entry ∈ agent.replies, entry.1 ∈ agent.finished := fun entry hentry =>
      (h.replies entry hentry).resolve_right fun ⟨_, heq⟩ => absurd (hworker.symm.trans heq) nofun
    refine { h with
      started := by rw [h.started, hworker]; rfl
      idle := fun hbusy => absurd (hworker.symm.trans (h.idle hbusy).1) nofun
      queued := fun hpending => absurd (hworker.symm.trans (h.queued hpending)) nofun
      last := nofun
      running := ?_
      replies := fun entry hentry => .inl (hreplies entry hentry)
      sent := h.sent_of (List.Subset.refl _) (List.Subset.refl _) fun _ _ => rfl }
    rintro _ _ ⟨⟩
    refine (List.lookup_eq_none_iff.mpr fun entry hentry => ?_).symm
    exact bne_iff_ne.mpr fun heq : client = entry.1 => hnew (heq ▸ hreplies entry hentry)
  next => exact h

theorem reply (text : Text) : (agent.step (.reply text)).Orderly := by
  simp only [Agent.step]
  split
  next client line hworker =>
    have hnew : client ∉ agent.finished := h.not_finished (by rw [hworker]; rfl)
    refine { h with
      last := fun _ hnone => absurd (hworker ▸ hnone) nofun
      running := ?_
      replies := List.forall_mem_cons.mpr ⟨.inr ⟨line, hworker⟩, h.replies⟩
      sent := h.sent_of (List.Subset.refl _) (List.Subset.refl _) fun other hother => ?_ }
    · intro other line' hrunning
      obtain ⟨rfl, -⟩ := Worker.running.inj (hworker.symm.trans hrunning)
      exact (List.lookup_cons_self).symm
    · have hne : (other == client) = false := beq_eq_false_iff_ne.mpr fun heq => hnew (heq ▸ hother)
      simp only [replyTo, List.lookup_cons, hne]
  next => exact h

theorem finish : (agent.step .finish).Orderly := by
  simp only [Agent.step]
  split
  next client line hworker =>
    exact { h with
      started := by rw [h.started, hworker]; rfl
      idle := fun _ => ⟨rfl, h.not_pending (by rw [hworker]; nofun)⟩
      queued := fun _ => rfl
      last := fun other _ hhead => by cases hhead; exact h.running client line hworker
      running := nofun
      replies := fun entry hentry => .inl ((h.replies entry hentry).elim (List.mem_cons_of_mem _) fun ⟨_, heq⟩ => by
        obtain ⟨rfl, -⟩ := Worker.running.inj (hworker.symm.trans heq)
        exact List.mem_cons_self)
      sent := h.sent_of (List.Subset.refl _) (List.subset_cons_self ..) fun _ _ => rfl }
  next => exact h

theorem step (event : AgentEvent Line Text) : (agent.step event).Orderly := by
  cases event with
  | arrive request => exact h.arrive request
  | accept => exact h.accept
  | serve =>
    simp only [Agent.step]
    split
    next client request hthread => exact h.serve hthread
    next => exact h
  | wake =>
    simp only [Agent.step]
    split
    next client line hthread hbusy => exact { h.send (h.wake hthread hbusy) with }
    next => exact h
  | timeout =>
    simp only [Agent.step]
    split
    next client line hthread hbusy =>
      have hsend : (agent.send client (.system line) (.timeout line)).Orderly := h.send (.inr (.inl rfl))
      exact { hsend with }
    next => exact h
  | initialized =>
    simp only [Agent.step]
    split
    next hworker =>
      exact { h with
        started := by rw [h.started, hworker]; rfl
        idle := fun _ => ⟨rfl, h.not_pending (by rw [hworker]; nofun)⟩
        queued := fun _ => rfl
        last := fun client _ => h.last client (by rw [hworker]; rfl)
        running := nofun
        replies := fun entry hentry => (h.replies entry hentry).imp_right fun ⟨_, heq⟩ =>
          absurd (hworker.symm.trans heq) nofun }
    next => exact h
  | take => exact h.take
  | clear => exact h.clear
  | reply text => exact h.reply text
  | finish => exact h.finish

end

theorem run (events : List (AgentEvent Line Text)) : (run events).Orderly := by
  have hstart : (start : Agent Line Text).Orderly :=
    ⟨.nil, nofun, rfl, rfl, nofun, nofun, nofun, nofun, nofun, nofun, nofun⟩
  exact List.foldlRecOn events _ hstart fun _ h event _ => h.step event

end Orderly

theorem finished_subset (more : List (AgentEvent Line Text)) (agent : Agent Line Text) :
    agent.finished ⊆ (more.foldl step agent).finished := by
  induction more generalizing agent with
  | nil => exact List.Subset.refl _
  | cons event more ih =>
    refine List.Subset.trans ?_ (ih _)
    cases event with
    | serve =>
      simp only [step]
      split
      next client request _ =>
        cases request with
        | system line =>
          simp only [serve]
          split <;> exact List.Subset.refl _
        | _ => exact List.Subset.refl _
      next => exact List.Subset.refl _
    | arrive request => exact List.Subset.refl _
    | _ =>
      simp only [step]
      split <;> first | exact List.Subset.refl _ | exact List.subset_cons_self ..

/-- The accepting thread goes on waiting for a command that has not returned. -/
theorem Orderly.waits (h : agent.Orderly) {client : Nat} {line : Line} (hthread : agent.thread = .awaiting client line)
    (more : List (AgentEvent Line Text)) (htimely : ∀ event ∈ more, event ≠ .timeout)
    (hout : client ∉ (more.foldl Agent.step agent).finished) :
    (more.foldl Agent.step agent).thread = .awaiting client line ∧ (more.foldl Agent.step agent).sent = agent.sent ∧
      (more.foldl Agent.step agent).backlog.map Prod.snd =
        agent.backlog.map Prod.snd ++ more.filterMap AgentEvent.arrival := by
  induction more generalizing agent with
  | nil => exact ⟨hthread, rfl, (List.append_nil _).symm⟩
  | cons event more ih =>
    obtain ⟨hevent, hrest⟩ := List.forall_mem_cons.mp htimely
    have hstill : (agent.step event).thread = .awaiting client line ∧ (agent.step event).sent = agent.sent ∧
        (agent.step event).backlog.map Prod.snd = agent.backlog.map Prod.snd ++ event.arrival.toList := by
      cases event with
      | timeout => exact absurd rfl hevent
      | wake =>
        -- the answer would be one of a command that has returned
        have hbusy : agent.busy = true := by
          by_contra hidle
          have hfits := h.wake hthread (Bool.eq_false_iff.mpr hidle)
          rcases hfits with ⟨_, heq⟩ | heq | ⟨-, hfinished, -⟩
          · cases heq
          · cases heq
          · exact hout (finished_subset (.wake :: more) agent hfinished)
        simp [Agent.step, hthread, hbusy, AgentEvent.arrival]
      | arrive request | accept | serve => simp [Agent.step, hthread, AgentEvent.arrival]
      | _ =>
        simp only [Agent.step]
        split <;> simp [hthread, AgentEvent.arrival]
    obtain ⟨hlast, hsent, hbacklog⟩ := ih (h.step event) hstill.1 hrest hout
    refine ⟨hlast, hsent.trans hstill.2.1, hbacklog.trans ?_⟩
    rw [hstill.2.2, List.append_assoc]
    cases event <;> rfl

/-- One command at a time (`one`), each at most once and as it was handed over (`once`, `own`); every answer is to its
client's request; and a client that is served with `ping`, `health` or `quit` is answered by the accepting thread's
next step, whatever the worker is in. While that thread waits for a command, until it has returned or the deadline
passes, it accepts no one: whoever comes, with whatever request, stays in the backlog. -/
structure Belongs (agent : Agent Line Text) : Prop where
  one : agent.started.map Prod.fst = agent.worker.client.toList ++ agent.finished
  once : (agent.started.map Prod.fst).Nodup
  own : agent.started ⊆ agent.handed
  sent : ∀ entry ∈ agent.sent, agent.Fits entry
  prompt : ∀ client request, agent.thread = .serving client request → (∀ line, request ≠ .system line) →
    ∃ answer, (agent.step .serve).sent = (client, request, answer) :: agent.sent
  waits : ∀ client line, agent.thread = .awaiting client line → ∀ more : List (AgentEvent Line Text),
    (∀ event ∈ more, event ≠ .timeout) → client ∉ (more.foldl step agent).finished →
      (more.foldl step agent).thread = .awaiting client line ∧ (more.foldl step agent).sent = agent.sent ∧
        (more.foldl step agent).backlog.map Prod.snd =
          agent.backlog.map Prod.snd ++ more.filterMap AgentEvent.arrival

theorem run_belongs (events : List (AgentEvent Line Text)) : (run events).Belongs := by
  have h := Orderly.run events
  refine ⟨h.started, h.nodup_started, ?_, h.sent, ?_, fun _ _ => h.waits⟩
  · rw [h.handed]
    exact List.subset_append_right ..
  · intro client request hthread hquick
    simp only [step, hthread]
    cases request with
    | system line => exact absurd rfl (hquick line)
    | _ => exact ⟨_, rfl⟩

/-- A command is in its system call, and a `ping` has arrived. -/
def pingMeanwhile : List (AgentEvent Unit Unit) :=
  [.initialized, .arrive (.system ()), .accept, .serve, .take, .clear, .arrive .ping]

/-- The `ping` is not answered until the system call returns or the deadline passes. -/
theorem ping_unanswered :
    (run pingMeanwhile).backlog = [(1, .ping)] ∧ ∀ more : List (AgentEvent Unit Unit),
      (∀ event ∈ more, event ≠ .finish ∧ event ≠ .timeout) → (run (pingMeanwhile ++ more)).sent = [] := by
  refine ⟨rfl, ?_⟩
  suffices hheld : ∀ (more : List (AgentEvent Unit Unit)) (agent : Agent Unit Unit),
      agent.thread = .awaiting 0 () ∧ agent.worker = .running 0 () ∧ agent.busy = true ∧ agent.sent = [] →
      (∀ event ∈ more, event ≠ .finish ∧ event ≠ .timeout) → (more.foldl step agent).sent = [] by
    intro more hmore
    rw [run, List.foldl_append]
    exact hheld more _ ⟨rfl, rfl, rfl, rfl⟩ hmore
  intro more
  induction more with
  | nil => exact fun _ h _ => h.2.2.2
  | cons event more ih =>
    intro agent ⟨hthread, hworker, hbusy, hsent⟩ hmore
    obtain ⟨hevent, hrest⟩ := List.forall_mem_cons.mp hmore
    refine ih _ ?_ hrest
    cases event with
    | finish => exact absurd rfl hevent.1
    | timeout => exact absurd rfl hevent.2
    | _ => simp [step, hthread, hworker, hbusy, hsent]

end Agent

end Ps5Vulkan.Control
