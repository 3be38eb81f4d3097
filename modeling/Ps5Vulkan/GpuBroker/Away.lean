import Ps5Vulkan.GpuBroker.Keeps
import Ps5Vulkan.GpuBroker.Moves
import Ps5Vulkan.GpuBroker.Releases

/-!
# Away from the foreground

While the application is away the broker starts nothing: a submission or a present that a client sends waits, under
the broker's lock, until it is back. The wait ends early where the client is ended or the broker is stopped, and the
request is then handled all the same. A present that has its image goes on to the display without the broker's lock,
and so past `ps5_gpu_broker_set_away`.

`Foreground` is a broker with the requests that wait, the clients that are ended, and how far the presents are.
-/

namespace Ps5Vulkan.GpuBroker

/-- The requests that wait while the application is away. -/
inductive Job
  | submit (message : Broker.SubmitMessage) (kernel : Kernel)
  | present (address bytes : Nat) (valid : Bool)

structure Foreground where
  broker : Broker
  away : Bool
  stopping : Bool
  ended : Fin 32 → Bool
  /-- What the thread of a client's connection, or of its present link, waits with. -/
  waiting : Fin 32 → Bool → Option Job
  /-- The present of the thread has been at the display. -/
  drawn : Fin 32 → Bool → Bool
  /-- The frames that reached the display. -/
  frames : Nat

inductive ForegroundEvent
  /-- A message is received, or the broker does something by itself. -/
  | event (event : Event)
  /-- A thread that waits looks again. -/
  | proceed (c : Fin 32) (link : Bool)
  /-- A present gets the display, which shows its frame or another client's. -/
  | display (c : Fin 32) (link shown : Bool)
  /-- The client is marked as ended: it is being closed, or a connection of it failed. -/
  | finish (c : Fin 32)
  /-- `ps5_gpu_broker_stop`. -/
  | stop
  /-- `ps5_gpu_broker_set_away(false)`. -/
  | back

/-- The client whose connection an event is a request on. -/
def Event.sender : Event → Option (Fin 32)
  | .alloc c _ _ => some c
  | .free c _ _ _ _ => some c
  | .tess c _ _ => some c
  | .offchip c _ _ => some c
  | .vrangeReserve c _ _ => some c
  | .vrangeRelease c _ _ => some c
  | .presentLink c => some c
  | _ => none

namespace Foreground

def start (windowReserved highReserved : Bool) : Foreground where
  broker := .start windowReserved highReserved
  away := false
  stopping := false
  ended _ := false
  waiting _ _ := none
  drawn _ _ := false
  frames := 0

variable (state : Foreground)

def setWaiting (c : Fin 32) (link : Bool) (job : Option Job) : Foreground :=
  { state with waiting := fun d link' => if d = c ∧ link' = link then job else state.waiting d link' }

def setDrawn (c : Fin 32) (link drawn : Bool) : Foreground :=
  { state with drawn := fun d link' => if d = c ∧ link' = link then drawn else state.drawn d link' }

def setEnded (c : Fin 32) (ended : Bool) : Foreground :=
  { state with ended := Function.update state.ended c ended }

/-- The thread is where it takes its next message. -/
def listens (c : Fin 32) (link : Bool) : Bool :=
  !state.stopping && !state.ended c && (state.waiting c link).isNone && (state.broker.clients c).connected &&
    decide ((state.broker.clients c).thread link = .idle) && (!link || (state.broker.clients c).linked)

variable (settings : Settings)

/-- A submission or a present is handled. -/
def handle (state : Foreground) (c : Fin 32) (link : Bool) : Job → Foreground
  | .submit message kernel => { state with broker := state.broker.step settings (.submit c message kernel) }
  | .present address bytes valid =>
    setDrawn { state with broker := state.broker.step settings (.present c link address bytes valid) } c link false

/-- A submission or a present is received. -/
def receive (state : Foreground) (c : Fin 32) (link : Bool) (job : Job) : Foreground :=
  if state.listens c link then
    if state.away then state.setWaiting c link (some job) else state.handle settings c link job
  else state

def step (state : Foreground) : ForegroundEvent → Foreground
  | .event event =>
    let next := { state with broker := state.broker.step settings event }
    match event with
    | .submit c message kernel => state.receive settings c false (.submit message kernel)
    | .present c link address bytes valid => state.receive settings c link (.present address bytes valid)
    | .presented c link => if state.drawn c link then next else state
    | .connect c => if (state.broker.clients c).connected then state else next.setEnded c false
    | .close c _ _ =>
      if state.ended c ∧ (state.waiting c false).isNone ∧ (state.waiting c true).isNone then next.setEnded c false
      else state
    | .away _ => if state.away then state else { next with away := true }
    | event =>
      match event.sender with
      | some c => if state.listens c false then next else state
      | none => next
  | .proceed c link =>
    match state.waiting c link with
    | none => state
    | some job =>
      if state.away && !state.stopping && !state.ended c then state
      else (state.setWaiting c link none).handle settings c link job
  | .display c link shown =>
    if ((state.broker.clients c).thread link).presents && !state.drawn c link then
      { state.setDrawn c link true with frames := if shown then state.frames + 1 else state.frames }
    else state
  | .finish c => state.setEnded c true
  | .stop => if ∀ c, (state.broker.clients c).connected = false then { state with stopping := true } else state
  | .back => { state with away := false }

def run (windowReserved highReserved : Bool) (events : List ForegroundEvent) : Foreground :=
  events.foldl (step settings) (start windowReserved highReserved)

/-- Nothing was started between the two: no command words were handed to the GPU, and no frame to the display. -/
def Still (state state' : Foreground) : Prop :=
  state'.broker.accepted = state.broker.accepted ∧ state'.frames = state.frames

/-- No present is between its check and the display. -/
def settled : Bool :=
  decide (∀ c link, ((state.broker.clients c).thread link).presents = true → state.drawn c link = true)

/-- The application goes away only while no present is on its way, and no client is ended while a request of it
waits. -/
def orderly : ForegroundEvent → Bool
  | .event (.away _) => state.settled
  | .finish c => (state.waiting c false).isNone && (state.waiting c true).isNone
  | _ => true

def orderlyAlong (settings : Settings) : Foreground → List ForegroundEvent → Bool
  | _, [] => true
  | state, event :: events => state.orderly event && orderlyAlong settings (state.step settings event) events

end Foreground

/-! ### What hands no words over -/

namespace Broker

theorem Moves.accepted {broker broker' : Broker} (h : Moves broker broker') : broker'.accepted = broker.accepted := by
  induction h with
  | refl => rfl
  | tail _ hmove ih =>
    refine Eq.trans ?_ ih
    cases hmove with
    | accounts _ hpending hfinished => simp only [Broker.accepted, hpending, hfinished]
    | complete => exact accepted_complete _
    | retire _ => exact (Steady.giveStaging _).accepted
    | defer => rfl

end Broker

/-! ### Nothing starts while the application is away -/

namespace Broker

/-- The client starts anew. -/
def resets (d : Fin 32) : Event → Bool
  | .connect c => decide (d = c)
  | .close c _ _ => decide (d = c)
  | _ => false

/-- Whatever is not a present makes no thread present, and only its close disconnects a client. -/
theorem step_threads (settings : Settings) (broker : Broker) {event : Event} {d : Fin 32}
    (hpresent : presenting event = false) (hresets : resets d event = false) :
    ((broker.step settings event).clients d).connected = (broker.clients d).connected ∧
      ∀ link, (((broker.step settings event).clients d).thread link).presents = true →
        ((broker.step settings event).clients d).thread link = (broker.clients d).thread link := by
  have hranges : ∀ broker' : Broker, (∃ ranges, broker'.clients d = { broker.clients d with ranges }) →
      (broker'.clients d).connected = (broker.clients d).connected ∧
        ∀ link, ((broker'.clients d).thread link).presents = true →
          (broker'.clients d).thread link = (broker.clients d).thread link := by
    rintro broker' ⟨ranges, hclient⟩
    rw [hclient]
    exact ⟨rfl, fun _ _ => rfl⟩
  cases hranging : ranging event with
  | false =>
    rcases broker.step_cases settings hranging with ⟨-, hkeeps⟩ | ⟨c, buffer, -, hfrees⟩
    · exact ⟨(hkeeps d).connected, (hkeeps d).presents hpresent⟩
    · exact ⟨hfrees.connected d, hfrees.presents d⟩
  | true =>
    cases event with
    | connect c =>
      have hne : d ≠ c := of_decide_eq_false hresets
      have hsame : (broker.step settings (.connect c)).clients d = broker.clients d := by
        unfold step
        dsimp only
        split
        · rfl
        · exact broker.clients_setClient_of_ne _ hne
      exact hranges _ ⟨_, hsame⟩
    | close c live kernel =>
      have hne : d ≠ c := of_decide_eq_false hresets
      have hsame : (broker.step settings (.close c live kernel)).clients d = broker.clients d := by
        unfold step
        dsimp only
        split
        · rw [(SameClients.close kernel c live).clients, broker.clients_setClient_of_ne _ hne]
        · rfl
      exact hranges _ ⟨_, hsame⟩
    | vrangeReserve c bytes kernel =>
      exact hranges _ (clients_request (broker.clients_vrangeReserve kernel c bytes) d)
    | vrangeRelease c address kernel =>
      exact hranges _ (clients_request (broker.clients_vrangeRelease kernel c address) d)
    | _ => cases hranging

end Broker

namespace Foreground

variable {settings : Settings} {state : Foreground}

/-- Clients with a request that waits are connected and not ended, and no thread waits in a broker that stops; while
the application is away every present has been at the display. -/
structure Gated (state : Foreground) : Prop where
  waiting : ∀ c link, state.waiting c link ≠ none →
    state.ended c = false ∧ (state.broker.clients c).connected = true ∧ state.stopping = false
  drawn : state.away = true → ∀ c link, ((state.broker.clients c).thread link).presents = true → state.drawn c link = true

namespace Gated

theorem start (windowReserved highReserved : Bool) : (Foreground.start windowReserved highReserved).Gated where
  waiting _ _ hwaiting := absurd rfl hwaiting
  drawn := nofun

section

variable (h : state.Gated)

include h

/-- A broker whose clients are connected and present as before. -/
theorem broker {broker : Broker} (hthreads : ∀ d, (broker.clients d).connected = (state.broker.clients d).connected ∧
      ∀ link, ((broker.clients d).thread link).presents = true →
        (broker.clients d).thread link = (state.broker.clients d).thread link) : Gated { state with broker } where
  waiting c link hwaiting := ⟨(h.waiting c link hwaiting).1, (hthreads c).1.trans (h.waiting c link hwaiting).2.1,
    (h.waiting c link hwaiting).2.2⟩
  drawn haway c link hpresents := by
    have hsame := (hthreads c).2 link hpresents
    exact h.drawn haway c link (hsame ▸ hpresents)

theorem request {event : Event} (hpresent : Broker.presenting event = false)
    (hresets : ∀ d, Broker.resets d event = false) : Gated { state with broker := state.broker.step settings event } :=
  h.broker fun d => state.broker.step_threads settings hpresent (hresets d)

theorem wait {c : Fin 32} {link : Bool} (hlistens : state.listens c link = true) (job : Job) :
    (state.setWaiting c link (some job)).Gated := by
  simp only [listens, Bool.and_eq_true, Bool.not_eq_true'] at hlistens
  obtain ⟨⟨⟨⟨⟨hstopping, hended⟩, -⟩, hconnected⟩, -⟩, -⟩ := hlistens
  refine ⟨fun d link' hwaiting => ?_, h.drawn⟩
  by_cases hthis : d = c ∧ link' = link
  · obtain ⟨rfl, rfl⟩ := hthis
    exact ⟨hended, hconnected, hstopping⟩
  · simp only [setWaiting, if_neg hthis] at hwaiting
    exact h.waiting d link' hwaiting

theorem resume (c : Fin 32) (link : Bool) : (state.setWaiting c link none).Gated := by
  refine ⟨fun d link' hwaiting => ?_, h.drawn⟩
  by_cases hthis : d = c ∧ link' = link
  · simp only [setWaiting, if_pos hthis] at hwaiting
    exact absurd rfl hwaiting
  · simp only [setWaiting, if_neg hthis] at hwaiting
    exact h.waiting d link' hwaiting

/-- A job is handled while the application is there. -/
theorem handle (haway : state.away = false) (c : Fin 32) (link : Bool) (job : Job) :
    (state.handle settings c link job).Gated := by
  cases job with
  | submit message kernel => exact h.request rfl fun _ => rfl
  | present address bytes valid =>
    refine ⟨fun d link' hwaiting => ?_, fun htrue => absurd (haway.symm.trans htrue) (by decide)⟩
    obtain ⟨hended, hconnected, hstopping⟩ := h.waiting d link' hwaiting
    refine ⟨hended, ?_, hstopping⟩
    rcases @Broker.step_cases settings state.broker (.present c link address bytes valid) rfl with
      ⟨-, hkeeps⟩ | ⟨_, _, hfreed, -⟩
    · exact (hkeeps d).connected.trans hconnected
    · cases hfreed

theorem receive (c : Fin 32) (link : Bool) (job : Job) : (state.receive settings c link job).Gated := by
  unfold Foreground.receive
  split
  next hlistens =>
    cases haway : state.away with
    | true => exact h.wait hlistens job
    | false => exact h.handle haway c link job
  next => exact h

/-- A client that has no request waiting and no thread that presents starts anew, or ends. -/
theorem renew (c : Fin 32) (ended : Bool) {broker : Broker} (hidle : ∀ link, state.waiting c link = none)
    (hself : ∀ link, ((broker.clients c).thread link).presents = true → (broker.clients c).thread link = (state.broker.clients c).thread link)
    (hothers : ∀ d, d ≠ c → broker.clients d = state.broker.clients d) :
    (setEnded { state with broker } c ended).Gated := by
  refine ⟨fun d link hwaiting => ?_, fun haway d link hpresents => ?_⟩
  · by_cases hd : d = c
    · exact absurd (hd ▸ hidle link) hwaiting
    · obtain ⟨hended, hconnected, hstopping⟩ := h.waiting d link hwaiting
      refine ⟨(Function.update_of_ne hd ..).trans hended, ?_, hstopping⟩
      show (broker.clients d).connected = true
      rw [hothers d hd, hconnected]
  · refine h.drawn haway d link ?_
    have hpresents : ((broker.clients d).thread link).presents = true := hpresents
    by_cases hd : d = c
    · subst hd
      exact hself link hpresents ▸ hpresents
    · exact hothers d hd ▸ hpresents

theorem connect {c : Fin 32} (hconnected : (state.broker.clients c).connected = false) :
    (setEnded { state with broker := state.broker.step settings (.connect c) } c false).Gated := by
  have hstep : state.broker.step settings (.connect c) =
      state.broker.setClient c { Client.fresh with connected := true } := by
    rw [Broker.step, if_neg (by simp [hconnected])]
  refine h.renew c false (fun link => ?_) (fun link hpresents => ?_) fun d hd => ?_
  · by_contra hwaiting
    exact absurd (hconnected.symm.trans (h.waiting c link hwaiting).2.1) (by decide)
  · rw [hstep, Broker.clients_setClient_self] at hpresents
    cases link <;> cases hpresents
  · rw [hstep, Broker.clients_setClient_of_ne _ _ hd]

theorem close {c : Fin 32} (live : Bool) (kernel : Kernel) (hidle : ∀ link, state.waiting c link = none) :
    (setEnded { state with broker := state.broker.step settings (.close c live kernel) } c false).Gated := by
  unfold Broker.step
  dsimp only
  split
  · have hclosed : SameClients (state.broker.setClient c .fresh) (state.broker.close kernel c live) := .close ..
    refine h.renew c false hidle (fun link hpresents => ?_) fun d hd => ?_
    · rw [hclosed.clients, Broker.clients_setClient_self] at hpresents
      cases link <;> cases hpresents
    · rw [hclosed.clients, Broker.clients_setClient_of_ne _ _ hd]
  · exact h.renew c false hidle (fun _ _ => rfl) fun _ _ => rfl

theorem event {event : Event} (horderly : state.orderly (.event event) = true) :
    (state.step settings (.event event)).Gated := by
  unfold Foreground.step
  dsimp only
  split
  next => exact h.receive ..
  next => exact h.receive ..
  next =>
    split
    · exact h.request rfl fun _ => rfl
    · exact h
  next =>
    split
    · exact h
    next hconnected => exact h.connect (Bool.eq_false_iff.mpr hconnected)
  next c live kernel =>
    split
    next hidle =>
      refine h.close live kernel fun link => ?_
      cases link with
      | false => exact Option.isNone_iff_eq_none.mp hidle.2.1
      | true => exact Option.isNone_iff_eq_none.mp hidle.2.2
    next => exact h
  next kernel =>
    split
    · exact h
    · have hnext : Gated { state with broker := state.broker.step settings (.away kernel) } :=
        h.request rfl fun _ => rfl
      refine ⟨hnext.waiting, fun _ c link hpresents => ?_⟩
      have hthreads := @Broker.step_threads settings state.broker (.away kernel) c rfl rfl
      exact of_decide_eq_true horderly c link (hthreads.2 link hpresents ▸ hpresents)
  next hsubmit hpresent hpresented hconnect hclose haway =>
    have hnext : Gated { state with broker := state.broker.step settings event } := by
      refine h.request ?_ fun d => ?_
      · cases event <;> first | rfl | exact absurd rfl (hpresent _ _ _ _ _)
      · cases event <;> first | rfl | exact absurd rfl (hconnect _) | exact absurd rfl (hclose _ _ _)
    split
    · split
      · exact hnext
      · exact h
    · exact hnext

theorem step {event : ForegroundEvent} (horderly : state.orderly event = true) : (state.step settings event).Gated := by
  cases event with
  | event event => exact h.event horderly
  | proceed c link =>
    unfold Foreground.step
    dsimp only
    split
    next => exact h
    next job hwaiting =>
      obtain ⟨hended, -, hstopping⟩ := h.waiting c link (by simp [hwaiting])
      cases haway : state.away with
      | true =>
        rw [hended, hstopping]
        exact h
      | false => exact (h.resume c link).handle haway c link job
  | display c link shown =>
    unfold Foreground.step
    dsimp only
    split
    · refine ⟨h.waiting, fun haway d link' hpresents => ?_⟩
      simp only [setDrawn]
      split
      · rfl
      · exact h.drawn haway d link' hpresents
    · exact h
  | finish c =>
    obtain ⟨hmain, hlink⟩ := Bool.and_eq_true_iff.mp horderly
    refine h.renew c true (fun link => ?_) (fun _ _ => rfl) fun _ _ => rfl
    cases link with
    | false => exact Option.isNone_iff_eq_none.mp hmain
    | true => exact Option.isNone_iff_eq_none.mp hlink
  | stop =>
    unfold Foreground.step
    dsimp only
    split
    next hnone =>
      refine ⟨fun c link hwaiting => ?_, h.drawn⟩
      exact absurd ((hnone c).symm.trans (h.waiting c link hwaiting).2.1) (by decide)
    next => exact h
  | back => exact ⟨h.waiting, nofun⟩

end

end Gated

/-- While the application is away no step starts anything. -/
theorem Gated.still (h : state.Gated) (haway : state.away = true) (event : ForegroundEvent) :
    Still state (state.step settings event) := by
  have hreceive : ∀ c link job, Still state (state.receive settings c link job) := by
    intro c link job
    unfold Foreground.receive
    rw [haway]
    split <;> exact ⟨rfl, rfl⟩
  cases event with
  | event event =>
    unfold Foreground.step
    dsimp only
    split
    next => exact hreceive ..
    next => exact hreceive ..
    next =>
      split
      · exact ⟨(state.broker.step_moves settings rfl).accepted, rfl⟩
      · exact ⟨rfl, rfl⟩
    next =>
      split
      · exact ⟨rfl, rfl⟩
      · exact ⟨(state.broker.step_moves settings rfl).accepted, rfl⟩
    next =>
      split
      · exact ⟨(state.broker.step_moves settings rfl).accepted, rfl⟩
      · exact ⟨rfl, rfl⟩
    next =>
      rw [if_pos haway]
      exact ⟨rfl, rfl⟩
    next hsubmit _ _ _ _ _ =>
      have hnext : Still state { state with broker := state.broker.step settings event } :=
        ⟨(state.broker.step_moves settings (by cases event <;> first | rfl | exact absurd rfl (hsubmit _ _ _))).accepted, rfl⟩
      repeat' split
      · exact hnext
      · exact ⟨rfl, rfl⟩
      · exact hnext
  | proceed c link =>
    unfold Foreground.step
    dsimp only
    split
    next => exact ⟨rfl, rfl⟩
    next job hwaiting =>
      obtain ⟨hended, -, hstopping⟩ := h.waiting c link (by simp [hwaiting])
      rw [haway, hended, hstopping]
      exact ⟨rfl, rfl⟩
  | display c link shown =>
    unfold Foreground.step
    dsimp only
    split
    next hundrawn =>
      obtain ⟨hpresents, hdrawn⟩ := Bool.and_eq_true_iff.mp hundrawn
      rw [h.drawn haway c link hpresents] at hdrawn
      cases hdrawn
    next => exact ⟨rfl, rfl⟩
  | finish c => exact ⟨rfl, rfl⟩
  | stop =>
    unfold Foreground.step
    dsimp only
    split <;> exact ⟨rfl, rfl⟩
  | back => exact ⟨rfl, rfl⟩

theorem Gated.steps (h : state.Gated) {events before : List ForegroundEvent}
    (horderly : orderlyAlong settings state events = true) (hbefore : before <+: events) :
    (before.foldl (Foreground.step settings) state).Gated := by
  induction before generalizing state events with
  | nil => exact h
  | cons event before ih =>
    obtain ⟨rest, rfl⟩ := hbefore
    obtain ⟨hfirst, hrest⟩ := Bool.and_eq_true_iff.mp horderly
    exact ih (h.step hfirst) hrest (List.prefix_append before rest)

/-- In every run in which the application goes away only while no present is on its way to the display, and no client
is ended while a request of it waits, nothing starts while the application is away. -/
theorem run_still (settings : Settings) (windowReserved highReserved : Bool) (events : List ForegroundEvent)
    (horderly : orderlyAlong settings (start windowReserved highReserved) events = true)
    (before : List ForegroundEvent) (event : ForegroundEvent) (hbefore : before ++ [event] <+: events)
    (haway : (run settings windowReserved highReserved before).away = true) :
    Still (run settings windowReserved highReserved before)
      (run settings windowReserved highReserved (before ++ [event])) := by
  have hgated : (run settings windowReserved highReserved before).Gated :=
    (Gated.start ..).steps horderly ((List.prefix_append before [event]).trans hbefore)
  have hrun : run settings windowReserved highReserved (before ++ [event]) =
      (run settings windowReserved highReserved before).step settings event := by
    simp only [run, List.foldl_append, List.foldl_cons, List.foldl_nil]
  rw [hrun]
  exact hgated.still haway event

end Foreground

/-! ### What starts all the same -/

namespace Gone

def client : List ForegroundEvent :=
  [.event (.connect 0), .event Lost.alloc]

/-- A submission whose words and marker are in the client's page. -/
def submit : ForegroundEvent :=
  .event (.submit 0 ⟨windowBase, 64, windowBase + 64⟩ .willing)

def present : ForegroundEvent :=
  .event (.present 0 false windowBase pageBytes true)

def away : ForegroundEvent :=
  .event (.away .willing)

/-- A submission waits until the application is back. -/
def patient : List ForegroundEvent :=
  client ++ [away, submit, .proceed 0 false, .back, .proceed 0 false]

theorem patient_still :
    Foreground.orderlyAlong Lost.settings (.start true true) patient = true ∧
      (Foreground.run Lost.settings true true (client ++ [away, submit])).away = true ∧
      Foreground.Still (Foreground.run Lost.settings true true (client ++ [away, submit]))
        (Foreground.run Lost.settings true true (client ++ [away, submit] ++ [.proceed 0 false])) :=
  ⟨by decide, by decide, Foreground.run_still Lost.settings true true patient (by decide) (client ++ [away, submit])
    (.proceed 0 false) ⟨[.back, .proceed 0 false], rfl⟩ (by decide)⟩

/-- The client is closed while its submission waits. -/
def closing : List ForegroundEvent :=
  client ++ [away, submit, .finish 0, .proceed 0 false]

/-- The application goes away while a present waits for the display. -/
def passing : List ForegroundEvent :=
  client ++ [present, away, .display 0 false true]

/-- The submission of a client that is being closed is handed to the GPU, and a present that had its image reaches
the display, while the application is away. -/
theorem started_while_away :
    ((Foreground.run Lost.settings true true (client ++ [away])).away = true ∧
      (Foreground.run Lost.settings true true (client ++ [away])).broker.accepted = 0 ∧
      (Foreground.run Lost.settings true true closing).away = true ∧
      (Foreground.run Lost.settings true true closing).broker.accepted = 1) ∧
    (Foreground.run Lost.settings true true (client ++ [present, away])).away = true ∧
      (Foreground.run Lost.settings true true (client ++ [present, away])).frames = 0 ∧
      (Foreground.run Lost.settings true true passing).away = true ∧
      (Foreground.run Lost.settings true true passing).frames = 1 := by
  decide

end Gone

end Ps5Vulkan.GpuBroker
