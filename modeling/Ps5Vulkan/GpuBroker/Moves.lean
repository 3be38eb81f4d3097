import Ps5Vulkan.GpuBroker.Buffers

/-!
# What a step does to the fences

A step that is no submission touches the fences in three ways only: a submission at the head of the ring is
retired, the GPU completes one, and buffers are deferred or no longer are. What these keep, the step keeps.
-/

variable (kernel : Kernel) (c : Fin 32)

namespace Ps5Vulkan.GpuBroker

namespace Broker

inductive Move : Broker → Broker → Prop
  /-- Clients, windows, and what is recorded of buffers. -/
  | accounts {broker broker' : Broker} : broker'.fences = broker.fences → broker'.pending = broker.pending →
      broker'.finished = broker.finished → broker.made ≤ broker'.made →
      (broker'.wedged = false → broker.wedged = false) → Move broker broker'
  | complete (broker : Broker) : Move broker broker.complete
  | retire {broker : Broker} {entry : Inflight} {ring : List Inflight} : broker.fences.ring = entry :: ring →
      Move broker (Broker.giveStaging { broker with fences := { broker.fences with ring } } entry.staging)
  | defer (broker : Broker) (deferred : List Deferred) :
      Move broker { broker with fences := { broker.fences with deferred } }

abbrev Moves : Broker → Broker → Prop :=
  Relation.ReflTransGen Move

namespace Moves

variable {settings : Settings} {broker broker' handle : Broker}

theorem refl : Moves broker broker :=
  Relation.ReflTransGen.refl

theorem accounts (hfences : broker'.fences = broker.fences) (hpending : broker'.pending = broker.pending)
    (hfinished : broker'.finished = broker.finished) (hmade : broker.made ≤ broker'.made)
    (hwedged : broker'.wedged = false → broker.wedged = false) : Moves broker broker' :=
  .single (.accounts hfences hpending hfinished hmade hwedged)

theorem setClient (client : Client) : Moves broker (broker.setClient c client) :=
  accounts rfl rfl rfl (Nat.le_refl _) id

theorem giveUp : Moves broker broker.giveUp :=
  accounts rfl rfl rfl (Nat.le_refl _) nofun

theorem choose {condition : Prop} [Decidable condition] (h : Moves broker handle) :
    Moves broker (if condition then handle else broker) := by
  split
  · exact h
  · exact refl

/-- The ring is set only once what has passed is given back; in between it is as if it had been popped. -/
theorem retire (completed : Nat) (ring : List Inflight) :
    Moves { broker with fences := { broker.fences with ring } } (Broker.retire completed ring broker) := by
  induction ring generalizing broker with
  | nil => exact refl
  | cons entry ring ih =>
    unfold Broker.retire
    split
    · refine .head (.retire rfl) ?_
      have hrest := @ih (broker.giveStaging entry.staging)
      rw [Broker.giveStaging_ring] at hrest
      exact hrest
    · exact refl

theorem release (buffer : Buffer) (asked : Asked) : Moves broker (broker.release kernel buffer asked) := by
  unfold Broker.release Broker.giveRange
  dsimp only
  repeat' split
  all_goals exact accounts rfl rfl rfl (Nat.le_refl _) id

theorem releaseAll {α : Type} (buffer : α → Buffer) (asked : α → Asked) (entries : List α) :
    Moves broker (entries.foldl (fun broker entry => broker.release kernel (buffer entry) (asked entry)) broker) :=
  List.foldlRecOn (motive := fun broker' : Broker => Moves broker broker') entries _ refl
    fun _ h _ _ => h.trans (release ..)

theorem reap : Moves broker (broker.reap kernel) := by
  unfold Broker.reap
  split
  · exact refl
  next completed _ =>
    refine .trans (retire completed broker.fences.ring) ?_
    exact .trans (.single (.defer ..)) (releaseAll kernel Deferred.buffer Deferred.asked _)

theorem drain : Moves broker (broker.drain kernel) :=
  Broker.drain_rec (fun _ h => h.tail (.complete _)) (fun _ h => h.trans (reap kernel)) refl

theorem allocate (message : AllocMessage) : Moves broker (broker.allocate settings kernel c message).1 := by
  obtain ⟨_, ⟨_, _, _, _, _, rfl⟩, heq | ⟨buffer, heq, -⟩⟩ := broker.allocate_cases settings kernel c message <;> rw [heq]
  · exact accounts rfl rfl rfl (Nat.le_refl _) id
  · exact accounts rfl rfl rfl (Nat.le_succ _) id

theorem freeBuffer (buffer : Buffer) : Moves broker (broker.freeBuffer kernel c buffer) := by
  rcases Broker.freeBuffer_rec (fun _ h => .trans h (reap kernel)) (fun _ h => .trans h (drain kernel))
    (setClient c ((broker.clients c).discount buffer)) with ⟨-, heq⟩ | ⟨-, room, hroom, heq | ⟨-, heq⟩ | ⟨-, heq⟩⟩ <;> rw [heq]
  · exact setClient ..
  · exact hroom.trans giveUp
  · exact hroom.trans (release ..)
  · exact hroom.tail (.defer ..)

theorem free (token address bytes : Nat) : Moves broker (broker.free kernel c token address bytes) := by
  unfold Broker.free
  dsimp only
  split
  · exact setClient ..
  · split
    · exact setClient ..
    · exact .trans (setClient ..) (freeBuffer ..)

theorem vrangeRelease (address : Nat) : Moves broker (broker.vrangeRelease kernel c address).1 := by
  unfold Broker.vrangeRelease
  dsimp only
  repeat' split
  · exact refl
  · exact drain kernel
  · exact (drain kernel).trans (accounts rfl rfl rfl (Nat.le_refl _) id)

theorem close (live : Bool) : Moves broker (broker.close kernel c live) := by
  obtain ⟨judged, ⟨-, hjudged, heq⟩ | ⟨-, -, hjudged, heq⟩⟩ := Broker.close_rec c live
    (fun _ h => .trans h (drain kernel)) (refl : Moves broker broker) <;> rw [heq]
  · rcases hjudged with hjudged | ⟨last, hlast, rfl⟩
    · exact hjudged.trans (setClient ..)
    · exact (hlast.trans giveUp).trans (setClient ..)
  · refine .trans (.trans hjudged ?_) ((releaseAll kernel id (fun _ => broker.now) _).trans (setClient ..))
    exact List.foldlRecOn (motive := fun broker' : Broker => Moves judged broker') _ _ refl
      fun _ h _ _ => h.tail (.accounts rfl rfl rfl (Nat.le_refl _) id)

end Moves

def submitting : Event → Bool
  | .submit _ _ _ => true
  | _ => false

/-- Every step but a submission. -/
theorem step_moves (settings : Settings) (broker : Broker) {event : Event} (h : submitting event = false) :
    Moves broker (broker.step settings event) := by
  have htrusted : ∀ (c : Fin 32) (handle : Broker), Moves broker handle →
      Moves broker (broker.request c (if broker.wedged then broker else handle)) := by
    intro c handle hhandle
    refine .choose ?_
    split
    · exact .refl
    · exact hhandle
  cases event with
  | submit c message kernel => cases h
  | connect c =>
    unfold step
    dsimp only
    split
    · exact .refl
    · exact .setClient ..
  | alloc c message kernel => exact htrusted _ _ (.allocate ..)
  | free c token address bytes kernel => exact .choose (.free ..)
  | wake c kernel =>
    unfold step
    dsimp only
    split
    · exact .free ..
    · exact .refl
  | tess c address bytes | offchip c granularity buffering => exact .choose (.choose (.setClient ..))
  | vrangeReserve c bytes kernel =>
    refine htrusted _ _ ?_
    unfold vrangeReserve
    dsimp only
    repeat' split
    · exact .refl
    · exact .refl
    · exact .refl
    · exact .accounts rfl rfl rfl (Nat.le_succ _) id
  | vrangeRelease c address kernel => exact htrusted _ _ (.vrangeRelease ..)
  | presentLink c => exact .choose (.setClient ..)
  | present c link address bytes valid =>
    refine .choose ?_
    unfold present
    dsimp only
    repeat' split
    all_goals exact .accounts rfl rfl rfl (Nat.le_refl _) id
  | presented c link =>
    unfold step
    dsimp only
    split
    · exact .setClient ..
    · exact .refl
  | close c live kernel => exact .choose (.close ..)
  | reap kernel => exact .reap kernel
  | away kernel => exact .choose (.drain kernel)
  | complete => exact .single (.complete broker)

end Broker

end Ps5Vulkan.GpuBroker
