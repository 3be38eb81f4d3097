import Ps5Vulkan.GpuBroker.Moves
import Ps5Vulkan.GpuBroker.Releases

/-!
# The state all clients share

The GPU has one tessellation ring and one setting of off-chip parameters. Each client has its own wish, and
`submit` sets the hardware to it, where the broker's record differs, once nothing is in flight. `Watched` is a
broker with the hardware itself and the calls that were made: a change of the state, with the submissions the GPU
had not completed then, and words handed over, with their client and the state in force.
-/

namespace Ps5Vulkan.GpuBroker

/-- The tessellation ring's address and bytes, and the off-chip granularity and buffering. -/
structure Hardware where
  tess : Nat × Nat
  offchip : Nat × Nat
  deriving DecidableEq, Repr

inductive Call
  | changed (inFlight : List Nat)
  | handed (client : Client) (hardware : Hardware)
  deriving DecidableEq, Repr

/-- A change finds nothing in flight, and words find the state their client set last: a ring it has not freed
(FREE forgets the ring in its buffer), and parameters. -/
def Call.Right : Call → Prop
  | .changed inFlight => inFlight = []
  | .handed client hardware =>
    (client.tess ≠ 0 → hardware.tess = (client.tess, client.tessBytes)) ∧
      (client.offchip = true → hardware.offchip = (client.granularity, client.buffering))

/-- The fences' record of the state. -/
def Fences.shared (fences : Fences) : (Nat × Nat) × Bool × (Nat × Nat) :=
  ((fences.tess, fences.tessBytes), fences.offchip, fences.granularity, fences.buffering)

/-- What is recorded is in force. -/
def Hardware.Matches (hardware : Hardware) (fences : Fences) : Prop :=
  (fences.tess ≠ 0 → hardware.tess = (fences.tess, fences.tessBytes)) ∧
    (fences.offchip = true → hardware.offchip = (fences.granularity, fences.buffering))

namespace Broker

/-- The calls of a submission from its staging on: a call that fails leaves the hardware as it is. -/
def Sending.calls (sending : Sending) (kernel : Kernel) (client : Client) (hardware : Hardware) :
    Hardware × List Call :=
  let changed (condition : Bool) : List Call := if condition then [.changed sending.broker.pending] else []
  if sending.tessChanges && !kernel.tessSet then (hardware, [])
  else
    let hardware := if sending.tessChanges then { hardware with tess := (client.tess, client.tessBytes) } else hardware
    if sending.offchipChanges && !kernel.offchipSet then (hardware, changed sending.tessChanges)
    else
      let hardware := if sending.offchipChanges then
          { hardware with offchip := (client.granularity, client.buffering) }
        else hardware
      (hardware, changed sending.tessChanges ++ changed sending.offchipChanges ++ [.handed client hardware])

end Broker

structure Watched where
  broker : Broker
  hardware : Hardware
  calls : List Call

namespace Watched

def start (windowReserved highReserved : Bool) (hardware : Hardware) : Watched :=
  ⟨.start windowReserved highReserved, hardware, []⟩

/-- What an event calls. -/
def called (settings : Settings) (state : Watched) : Event → Hardware × List Call
  | .submit c message kernel =>
    if (state.broker.clients c).connected ∧ (state.broker.clients c).main = .idle then
      match state.broker.submission settings kernel c message with
      | .ok sending => sending.calls kernel (state.broker.clients c) state.hardware
      | .error _ => (state.hardware, [])
    else (state.hardware, [])
  | _ => (state.hardware, [])

def step (settings : Settings) (state : Watched) (event : Event) : Watched :=
  ⟨state.broker.step settings event, (state.called settings event).1, state.calls ++ (state.called settings event).2⟩

end Watched

/-! ### The record -/

namespace Broker

variable {broker broker' : Broker} {settings : Settings} {kernel : Kernel} {client : Client}

theorem shared_giveStaging (staging : Staging) : (broker.giveStaging staging).fences.shared = broker.fences.shared := by
  unfold giveStaging
  split <;> rfl

theorem Moves.shared (h : Moves broker broker') : broker'.fences.shared = broker.fences.shared := by
  induction h with
  | refl => rfl
  | tail _ hmove ih =>
    refine Eq.trans ?_ ih
    cases hmove with
    | accounts hfences => rw [hfences]
    | complete =>
      unfold complete
      split <;> rfl
    | retire _ => exact shared_giveStaging _
    | defer => rfl

theorem shared_fencesReady {ready : Broker} (h : broker.fencesReady kernel = some ready) :
    ready.fences.shared = broker.fences.shared := by
  unfold fencesReady at h
  split at h
  · exact Option.some.inj h ▸ rfl
  · split at h
    · exact Option.some.inj h ▸ rfl
    · cases h

theorem shared_takeStaging {need : Nat} {taken : Staging × Broker} (h : broker.takeStaging kernel need = some taken) :
    taken.2.fences.shared = broker.fences.shared := by
  unfold takeStaging at h
  split at h
  · exact Option.some.inj h ▸ rfl
  · split at h
    · exact Option.some.inj h ▸ rfl
    · cases h

theorem shared_handOver (staging : Staging) (seq : Nat) :
    (broker.handOver kernel staging seq).1.fences.shared = broker.fences.shared := by
  unfold handOver
  split <;> rfl

end Broker

theorem Hardware.Matches.of_shared {hardware : Hardware} {fences fences' : Fences} (h : hardware.Matches fences)
    (hshared : fences'.shared = fences.shared) : hardware.Matches fences' := by
  simp only [Fences.shared, Prod.mk.injEq] at hshared
  obtain ⟨⟨htess, hbytes⟩, hoffchip, hgranularity, hbuffering⟩ := hshared
  simpa only [Hardware.Matches, htess, hbytes, hoffchip, hgranularity, hbuffering] using h

namespace Broker

variable {broker broker' : Broker} {settings : Settings} {kernel : Kernel} {client : Client} {sending : Sending}

theorem Sending.Compares.of_shared {fences fences' : Fences} (h : sending.Compares client fences)
    (hshared : fences'.shared = fences.shared) : sending.Compares client fences' := by
  simp only [Fences.shared, Prod.mk.injEq] at hshared
  obtain ⟨⟨htess, hbytes⟩, hoffchip, hgranularity, hbuffering⟩ := hshared
  simpa only [Sending.Compares, htess, hbytes, hoffchip, hgranularity, hbuffering] using h

/-- What does not have to change is as the client set it. -/
theorem Sending.Compares.inForce {hardware : Hardware} {fences : Fences} (h : sending.Compares client fences)
    (hmatch : hardware.Matches fences) :
    (sending.tessChanges = false → client.tess ≠ 0 → hardware.tess = (client.tess, client.tessBytes)) ∧
      (sending.offchipChanges = false → client.offchip = true →
        hardware.offchip = (client.granularity, client.buffering)) := by
  obtain ⟨htess, hoffchip⟩ := h
  rw [htess, hoffchip]
  constructor
  · intro hsame hset
    obtain ⟨haddress, hbytes⟩ : client.tess = fences.tess ∧ client.tessBytes = fences.tessBytes := by
      simpa [hset] using hsame
    rw [haddress, hbytes]
    exact hmatch.1 (haddress ▸ hset)
  · intro hsame hset
    obtain ⟨hknown, hgranularity, hbuffering⟩ : fences.offchip = true ∧ client.granularity = fences.granularity ∧
        client.buffering = fences.buffering := by simpa [hset] using hsame
    rw [hgranularity, hbuffering]
    exact hmatch.2 hknown

/-- A submission's calls are right, and the record follows them. -/
theorem Sending.calls_right {hardware : Hardware} (hmatch : hardware.Matches sending.broker.fences)
    (hcompares : sending.Compares client sending.broker.fences)
    (hidle : (sending.tessChanges || sending.offchipChanges) = true → sending.broker.pending = []) :
    (sending.calls kernel client hardware).1.Matches (sending.broker.sendStaged kernel client sending.tessChanges
        sending.offchipChanges sending.staging).1.fences ∧
      ∀ call ∈ (sending.calls kernel client hardware).2, call.Right := by
  obtain ⟨hring, hparameters⟩ := hcompares.inForce hmatch
  have hchanged : ∀ condition : Bool, (condition = true → sending.broker.pending = []) →
      ∀ call ∈ (if condition then [.changed sending.broker.pending] else [] : List Call), call.Right := by
    intro condition hpending call hcall
    split at hcall
    next htrue => exact List.mem_singleton.mp hcall ▸ hpending htrue
    next => cases hcall
  have htess := hchanged sending.tessChanges fun h => hidle (by simp [h])
  have hoffchip := hchanged sending.offchipChanges fun h => hidle (by simp [h])
  unfold Sending.calls sendStaged
  dsimp only
  split
  · exact ⟨hmatch.of_shared (shared_giveStaging _), fun _ hcall => absurd hcall List.not_mem_nil⟩
  · split
    · refine ⟨.of_shared ?_ (shared_giveStaging _), htess⟩
      split
      · exact ⟨fun _ => rfl, hmatch.2⟩
      · exact hmatch
    · constructor
      · refine .of_shared ?_ (shared_handOver ..)
        repeat' split
        · exact ⟨fun _ => rfl, fun _ => rfl⟩
        · exact ⟨hmatch.1, fun _ => rfl⟩
        · exact ⟨fun _ => rfl, hmatch.2⟩
        · exact hmatch
      · intro call hcall
        rcases List.mem_append.mp hcall with hcall | hcall
        · exact (List.mem_append.mp hcall).elim (htess call) (hoffchip call)
        · obtain rfl := List.mem_singleton.mp hcall
          constructor
          · intro hset
            cases hkept : sending.tessChanges <;> split <;> first | rfl | exact hring hkept hset
          · intro hset
            cases hkept : sending.offchipChanges <;> cases sending.tessChanges <;> first | rfl | exact hparameters hkept hset

/-- Up to its staging a submission leaves the record as it is, and compares its client's wish with it. -/
theorem shared_sending {bytes : Nat} : match broker.sending settings kernel client bytes with
    | .error (left, _) => left.fences.shared = broker.fences.shared
    | .ok sending => sending.broker.fences.shared = broker.fences.shared ∧
        sending.Compares client sending.broker.fences := by
  have hsending := @sending_rec broker settings kernel client bytes
    (fun broker' => broker'.fences.shared = broker.fences.shared)
    (fun _ h => (Moves.reap kernel).shared.trans h) (fun _ h => (Moves.drain kernel).shared.trans h) rfl
  generalize broker.sending settings kernel client bytes = result at hsending
  cases result with
  | error left =>
    rcases hsending with hleft | ⟨last, hlast, hgive⟩
    · exact hleft
    · exact (congrArg (fun left => left.fences.shared) hgive).trans hlast
  | ok sending =>
    obtain ⟨room, shared, hroom, hshared, hcompares, -, htake⟩ := hsending
    have hsame := (shared_takeStaging htake).trans hshared
    exact ⟨hsame, hcompares.of_shared (hsame.trans hroom.symm)⟩

variable {c : Fin 32} {message : SubmitMessage}

theorem shared_submit_of_error {left : Broker × Errno} (h : broker.submission settings kernel c message = .error left) :
    (broker.submit settings kernel c message).1.fences.shared = broker.fences.shared := by
  unfold submit
  rw [h]
  rcases @submission_cases broker settings kernel c message with ⟨errno, heq⟩ | ⟨-, ready, hready, heq⟩
  · obtain rfl := Except.error.inj (heq.symm.trans h)
    rfl
  · have hsending := @shared_sending ready settings kernel (broker.clients c) message.bytes
    rw [← heq, h] at hsending
    exact hsending.trans (shared_fencesReady hready)

theorem submit_of_submission (hflow : broker.Flow 2) (h : broker.submission settings kernel c message = .ok sending) :
    (broker.submit settings kernel c message).1 = (sending.broker.sendStaged kernel (broker.clients c)
        sending.tessChanges sending.offchipChanges sending.staging).1 ∧
      sending.broker.fences.shared = broker.fences.shared ∧ sending.Compares (broker.clients c) sending.broker.fences ∧
      ((sending.tessChanges || sending.offchipChanges) = true → sending.broker.pending = []) := by
  unfold submit
  rw [h]
  rcases @submission_cases broker settings kernel c message with ⟨errno, heq⟩ | ⟨hwedged, ready, hready, heq⟩
  · cases heq.symm.trans h
  · obtain ⟨hflow', -, hsame⟩ := hflow.fencesReady (by decide) hready
    have hsending := @shared_sending ready settings kernel (broker.clients c) message.bytes
    rw [← heq, h] at hsending
    obtain ⟨-, -, -, hidle⟩ := hflow'.sending (hsame.trans hwedged) (heq.symm.trans h)
    exact ⟨rfl, hsending.1.trans (shared_fencesReady hready), hsending.2, hidle⟩

end Broker

/-! ### Runs -/

namespace Watched

variable {settings : Settings} {state : Watched}

/-- The record is in force, and every call was right. -/
structure Follows (state : Watched) : Prop where
  matching : state.hardware.Matches state.broker.fences
  calls : ∀ call ∈ state.calls, call.Right

theorem Follows.step (h : state.Follows) (hflow : state.broker.Flow 2) (event : Event) :
    (state.step settings event).Follows := by
  have hkept : ∀ event, (state.broker.step settings event).fences.shared = state.broker.fences.shared →
      Follows ⟨state.broker.step settings event, state.hardware, state.calls ++ []⟩ := fun event hshared =>
    ⟨h.matching.of_shared hshared, by simpa using h.calls⟩
  cases event with
  | submit c message kernel =>
    unfold Watched.step called
    dsimp only
    split
    next hidle =>
      have hstep : state.broker.step settings (.submit c message kernel) =
          (state.broker.submit settings kernel c message).1 := if_pos hidle
      cases hsubmission : state.broker.submission settings kernel c message with
      | error left => exact hkept _ (hstep ▸ Broker.shared_submit_of_error hsubmission)
      | ok sending =>
        obtain ⟨hsubmit, hshared, hcompares, hpending⟩ := Broker.submit_of_submission hflow hsubmission
        obtain ⟨hmatch, hcalls⟩ := @Broker.Sending.calls_right kernel (state.broker.clients c) sending state.hardware
          (h.matching.of_shared hshared) hcompares hpending
        refine ⟨?_, fun call hcall => (List.mem_append.mp hcall).elim (h.calls call) (hcalls call)⟩
        dsimp only
        rw [hstep, hsubmit]
        exact hmatch
    next hidle => exact hkept _ (congrArg (fun broker : Broker => broker.fences.shared) (if_neg hidle))
  | _ => exact hkept _ (Broker.step_moves settings state.broker rfl).shared

theorem Follows.steps (h : state.Follows) (hflow : state.broker.Flow 1) {events : List Event}
    (hnear : Broker.nearAlong settings state.broker events = true) :
    (events.foldl (Watched.step settings) state).Follows := by
  induction events generalizing state with
  | nil => exact h
  | cons event events ih =>
    obtain ⟨hfirst, hrest⟩ := Bool.and_eq_true_iff.mp hnear
    exact ih (h.step (hflow.widen hfirst) event) ((hflow.widen hfirst).step settings event) hrest

/-- In every run in which the numbers stay near the fence page's, whatever the hardware held at first, all calls are
right. -/
theorem run_right (settings : Settings) (windowReserved highReserved : Bool) (hardware : Hardware)
    (events : List Event)
    (hnear : Broker.nearAlong settings (.start windowReserved highReserved) events = true) :
    ∀ call ∈ (events.foldl (Watched.step settings) (.start windowReserved highReserved hardware)).calls, call.Right :=
  have hstart : (Watched.start windowReserved highReserved hardware).Follows :=
    ⟨⟨fun h => absurd rfl h, fun h => absurd h Bool.false_ne_true⟩, fun _ hcall => absurd hcall List.not_mem_nil⟩
  (hstart.steps (.start ..) hnear).calls

end Watched

/-! ### A ring under the GPU -/

namespace Drawn

open Lost (settings)

/-- The client wants a smaller ring in the same place. -/
def smaller : Event :=
  .tess 0 windowBase 2048

theorem orderly_right :
    Broker.nearAlong settings (.start true true) (client ++ [submit .willing, .complete, smaller, submit .willing]) =
        true ∧
      ∀ call ∈ ((client ++ [submit .willing, .complete, smaller, submit .willing]).foldl (Watched.step settings)
        (.start true true ⟨(0, 0), (0, 0)⟩)).calls, call.Right :=
  ⟨by decide, Watched.run_right settings true true _ _ (by decide)⟩

/-- The submission in flight is taken for one that has passed, and the next one changes the ring. -/
theorem Vain.Overtaken.submission {sent : Broker} (h : Overtaken sent) :
    (((sent.step settings smaller).clients 0).connected ∧ ((sent.step settings smaller).clients 0).main = .idle) ∧
    ∃ sending, (sent.step settings smaller).submission settings .willing 0 ⟨windowBase, 4, windowBase + 8⟩ =
      .ok sending ∧ sending.tessChanges = true ∧ sending.broker.pending = [fenceValues / 2] := by
  obtain ⟨staging, hring⟩ := h.ring
  have hsmaller : sent.step settings smaller =
      sent.setClient 0 { sent.clients 0 with tess := windowBase, tessBytes := 2048 } := by
    have howned : (2048 < 2 ^ 32 ∧ (sent.clients 0).owned windowBase 2048) := h.client ▸ by decide
    exact (if_pos (h.client ▸ by decide)).trans (if_pos howned)
  obtain ⟨broker, hbroker⟩ : ∃ broker, broker = sent.step settings smaller := ⟨_, rfl⟩
  rw [← hbroker]
  rw [hsmaller] at hbroker
  have hfences : broker.fences = sent.fences := hbroker ▸ rfl
  have hclient : broker.clients 0 = { (Broker.run settings true true Drawn.client).clients 0 with
      tess := windowBase, tessBytes := 2048 } := by
    rw [hbroker, sent.clients_setClient_self, h.client]
  have hreap := @reap_passed broker ⟨fenceValues / 2, staging⟩ (hfences ▸ h.page) (hfences ▸ hring)
    (hfences ▸ h.deferred) (by decide : done (fenceValues / 2) 0 = true) .willing
  have hreaped : Idle (broker.reap .willing) ∧ (broker.reap .willing).pending = [fenceValues / 2] ∧
      (broker.reap .willing).fences.tessBytes = 4096 := by
    rw [hreap, Broker.giveStaging, hfences]
    split <;> exact ⟨⟨h.page, rfl, h.deferred⟩, hbroker ▸ h.pending, h.tess⟩
  obtain ⟨hidle, hpending, hbytes⟩ := hreaped
  obtain ⟨staged, taken, htake, hsending⟩ :=
    @Idle.sending _ .willing hidle rfl rfl settings (broker.clients 0) 4
  -- a second look at the page changes nothing
  have hsame : broker.sending settings .willing (broker.clients 0) 4 =
      (broker.reap .willing).sending settings .willing (broker.clients 0) 4 := by
    unfold Broker.sending
    rw [hidle.reap_eq]
  have hready : broker.fencesReady .willing = some broker := if_pos (by rw [hfences, h.page]; rfl)
  have hsubmission : broker.submission settings .willing 0 ⟨windowBase, 4, windowBase + 8⟩ =
      broker.sending settings .willing (broker.clients 0) 4 := by
    have hwedged : broker.wedged = false := hbroker ▸ h.wedged
    unfold Broker.submission
    dsimp only
    rw [if_neg (by rw [hclient]; decide), if_neg (by simp [hwedged]), hready]
  rw [hsubmission, hsame, hsending]
  refine ⟨by rw [hclient]; decide, _, rfl, ?_, ?_⟩
  · dsimp only
    rw [hclient, hbytes]
    exact decide_eq_true ⟨by decide, .inr (by decide)⟩
  · rcases htake with ⟨spares, spareBytes, rfl⟩ | rfl
    · exact hpending
    · exact hpending

theorem foldl_broker (state : Watched) (events : List Event) :
    (events.foldl (Watched.step settings) state).broker = events.foldl (Broker.step settings) state.broker := by
  induction events generalizing state with
  | nil => rfl
  | cons event events ih => exact ih _

/-- After 2^31 - 1 submissions that the system refused to set a ring for, one is accepted; the client's next
submission changes the ring while the GPU has not completed it. -/
theorem ring_changed_in_flight :
    Call.changed [2 ^ 31] ∈ ((vain (2 ^ 31 - 1) ++ [submit .willing, smaller, submit .willing]).foldl
        (Watched.step settings) (.start true true ⟨(0, 0), (0, 0)⟩)).calls ∧
      ¬(Call.changed [2 ^ 31]).Right := by
  refine ⟨?_, nofun⟩
  obtain ⟨state, hstate⟩ : ∃ state, state = (vain (2 ^ 31 - 1)).foldl (Watched.step settings)
    (.start true true ⟨(0, 0), (0, 0)⟩) := ⟨_, rfl⟩
  have hvain : Vain (2 ^ 31 - 1) state.broker := by
    rw [hstate, foldl_broker]
    exact run_vain (by decide) (by decide)
  rw [List.foldl_append, ← hstate, List.foldl_cons, List.foldl_cons, List.foldl_cons, List.foldl_nil]
  clear hstate
  obtain ⟨hidle, sending, hsending, hchanges, hpending⟩ := (hvain.accept (by decide)).submission
  refine List.mem_append_right _ ?_
  have hcalled : ∀ later : Watched, later.broker = (state.broker.step settings (submit .willing)).step settings smaller →
      (later.called settings (submit .willing)).2 = (sending.calls .willing (later.broker.clients 0) later.hardware).2 := by
    intro later hlater
    unfold Watched.called submit
    dsimp only
    rw [if_pos (hlater ▸ hidle), hlater, hsending]
  rw [hcalled _ rfl, Broker.Sending.calls, hchanges, hpending]
  simp [Kernel.willing, fenceValues]

end Drawn

end Ps5Vulkan.GpuBroker
