import Ps5Vulkan.GpuBroker.Server
import Mathlib.Data.List.ReduceOption
import Mathlib.Data.Fintype.Basic

/-!
# Where buffers go

A buffer starts as a range taken from a window, or as memory the system places. It is in a client's slot,
then it waits in the deferred list or not, and then it is released; on the way it may be lost. `Handed` says
so once, for a broker and the buffers that one of its functions has in hand, and every run of the broker is
an instance of it. What is proved about all buffers is then proved by induction over `Handed`.
-/

namespace Ps5Vulkan.GpuBroker

/-! ### Buffers in lists -/

section Slots

theorem fillGap_perm {α : Type} (rest : List α) : (fillGap rest).Perm rest := by
  unfold fillGap
  cases hlast : rest.getLast? with
  | none => rw [List.getLast?_eq_none_iff.mp hlast]
  | some last =>
    obtain ⟨before, rfl⟩ := List.getLast?_eq_some_iff.mp hlast
    rw [List.dropLast_concat]
    exact (List.perm_append_singleton last before).symm

/-- What stays and what goes is what there was. -/
theorem sweep_perm (completed : Nat) {fuel : Nat} {deferred : List Deferred} (h : deferred.length ≤ fuel) :
    ((Broker.sweep completed fuel deferred).2 ++ (Broker.sweep completed fuel deferred).1).Perm deferred := by
  induction fuel generalizing deferred with
  | zero => rw [List.length_eq_zero_iff.mp (Nat.le_zero.mp h)]; exact .nil
  | succ fuel ih =>
    cases deferred with
    | nil => exact .nil
    | cons entry rest =>
      have hrest : rest.length ≤ fuel := Nat.le_of_succ_le_succ h
      simp only [Broker.sweep]
      split
      · have hgap := fillGap_perm rest
        exact ((ih (hgap.length_eq.trans_le hrest)).trans hgap).cons entry
      · exact List.perm_middle.trans ((ih hrest).cons entry)

theorem reduceOption_putSlot (buffer : Buffer) (slots : List (Option Buffer)) :
    (putSlot buffer slots).reduceOption.Perm (buffer :: slots.reduceOption) := by
  induction slots with
  | nil => exact .refl _
  | cons slot rest ih =>
    cases slot with
    | none => exact .refl _
    | some other =>
      simp only [putSlot, List.reduceOption_cons_of_some]
      exact (ih.cons other).trans (.swap ..)

theorem reduceOption_takeSlot {token address bytes : Nat} {slots rest : List (Option Buffer)} {buffer : Buffer}
    (h : takeSlot token address bytes slots = some (buffer, rest)) :
    slots.reduceOption.Perm (buffer :: rest.reduceOption) := by
  induction slots generalizing rest with
  | nil => cases h
  | cons slot slots ih =>
    cases slot with
    | none =>
      obtain ⟨⟨found, left⟩, hfound, heq⟩ := Option.map_eq_some_iff.mp h
      obtain ⟨rfl, rfl⟩ := Prod.mk.inj heq
      simpa only [List.reduceOption_cons_of_none] using ih hfound
    | some other =>
      simp only [takeSlot] at h
      split at h
      next =>
        obtain ⟨rfl, rfl⟩ := Prod.mk.inj (Option.some.inj h)
        simp
      next =>
        obtain ⟨⟨found, left⟩, hfound, heq⟩ := Option.map_eq_some_iff.mp h
        obtain ⟨rfl, rfl⟩ := Prod.mk.inj heq
        simp only [List.reduceOption_cons_of_some]
        exact ((ih hfound).cons other).trans (.swap ..)

end Slots

/-! ### The buffers of a broker -/

/-- The buffer a release was of. -/
def Release.buffer? (release : Release) : Option Nat :=
  match release.memory with
  | .buffer serial => some serial
  | .staging _ => none
  | .range _ => none

namespace Broker

section Lists

variable (broker : Broker)

/-- Every client's buffers. -/
def live : List Buffer :=
  (List.finRange 32).flatMap fun c => (broker.clients c).buffers

/-- Every client's buffers, and those that wait to be released. -/
def held : List Buffer :=
  broker.live ++ broker.fences.deferred.map Deferred.buffer

/-- The serial numbers of the buffers that were released. -/
def releasedBuffers : List Nat :=
  broker.released.filterMap Release.buffer?

/-- The buffers there have been and that were not released. -/
def unreleased : List Buffer :=
  broker.placed.filter fun buffer => decide (buffer.serial ∉ broker.releasedBuffers)

/-- No range has been lost, but for want of an extent. -/
structure Whole : Prop where
  relaid : broker.relayFailed = false
  trusted : broker.wedged = false
  named : broker.tokenWrapped = false

end Lists

variable {broker : Broker} {c : Fin 32}

/-- The buffers of all clients but one. -/
def others (broker : Broker) (c : Fin 32) : List Buffer :=
  ((List.finRange 32).erase c).flatMap fun other => (broker.clients other).buffers

theorem live_perm (broker : Broker) (c : Fin 32) : broker.live.Perm ((broker.clients c).buffers ++ broker.others c) :=
  (List.perm_cons_erase (List.mem_finRange c)).flatMap_right _

theorem live_setClient_perm (broker : Broker) (c : Fin 32) (client : Client) :
    (broker.setClient c client).live.Perm (client.buffers ++ broker.others c) := by
  refine ((broker.setClient c client).live_perm c).trans ?_
  have hself : (broker.setClient c client).clients c = client := Function.update_self ..
  have hothers : (broker.setClient c client).others c = broker.others c := by
    refine List.flatMap_congr fun other hother => ?_
    have hne : other ≠ c := ((List.nodup_finRange 32).mem_erase_iff.mp hother).1
    exact congrArg Client.buffers (Function.update_of_ne hne ..)
  rw [hself, hothers]

theorem mem_held (broker : Broker) {c : Fin 32} {buffer : Buffer} (h : buffer ∈ (broker.clients c).buffers) :
    buffer ∈ broker.held :=
  List.mem_append_left _ (List.mem_flatMap.mpr ⟨c, List.mem_finRange c, h⟩)

/-- Clients that change but in their buffers. -/
theorem held_setClient (c : Fin 32) {client : Client} (h : client.slots = (broker.clients c).slots) :
    (broker.setClient c client).held.Perm broker.held := by
  have hbuffers : client.buffers = (broker.clients c).buffers := congrArg List.reduceOption h
  exact ((broker.live_setClient_perm c client).trans (hbuffers ▸ (broker.live_perm c).symm)).append_right _

/-- A buffer out of its slot. -/
theorem held_takeSlot {token address bytes : Nat} {slots : List (Option Buffer)} {client : Client}
    {buffer : Buffer} (htake : takeSlot token address bytes (broker.clients c).slots = some (buffer, slots))
    (hslots : client.slots = slots) : (buffer :: (broker.setClient c client).held).Perm broker.held := by
  subst hslots
  have hbuffers : (broker.clients c).buffers.Perm (buffer :: client.buffers) := reduceOption_takeSlot htake
  have hlive : (buffer :: (broker.setClient c client).live).Perm broker.live :=
    ((broker.live_setClient_perm c client).cons buffer).trans
      ((hbuffers.symm.append_right _).trans (broker.live_perm c).symm)
  exact hlive.append_right _

/-- A buffer in a slot. -/
theorem held_addBuffer {buffer : Buffer} (htoken : buffer.token ≠ 0) :
    (broker.addBuffer c buffer).1.held.Perm (buffer :: broker.held) := by
  have hbuffers : ((broker.clients c).addBuffer buffer).buffers.Perm (buffer :: (broker.clients c).buffers) := by
    simp only [Client.buffers, Client.addBuffer, if_neg htoken]
    exact reduceOption_putSlot buffer _
  have hlive : (broker.setClient c ((broker.clients c).addBuffer buffer)).live.Perm (buffer :: broker.live) :=
    (broker.live_setClient_perm c _).trans
      ((hbuffers.append_right _).trans ((broker.live_perm c).symm.cons buffer))
  exact hlive.append_right _

/-- A client that leaves its buffers. -/
theorem held_leave (broker : Broker) (c : Fin 32) :
    ((broker.setClient c .fresh).held ++ (broker.clients c).buffers).Perm broker.held := by
  have hothers : (broker.setClient c .fresh).live.Perm (broker.others c) := broker.live_setClient_perm c .fresh
  have hlive : ((broker.clients c).buffers ++ (broker.setClient c .fresh).live).Perm broker.live :=
    (hothers.append_left _).trans (broker.live_perm c).symm
  have hheld := hlive.append_right (broker.fences.deferred.map Deferred.buffer)
  exact List.perm_append_comm.trans ((List.append_assoc ..).symm ▸ hheld)

end Broker

/-! ### What leaves buffers alone -/

/-- No buffer changes hands, and no range is lost or found. -/
structure SameBuffers (broker broker' : Broker) : Prop where
  window : broker'.window = broker.window
  high : broker'.high = broker.high
  clients : broker'.clients = broker.clients
  deferred : broker'.fences.deferred.Perm broker.fences.deferred
  relayFailed : broker'.relayFailed = broker.relayFailed
  tokenWrapped : broker'.tokenWrapped = broker.tokenWrapped
  wedged : broker.wedged = true → broker'.wedged = true
  made : broker.made ≤ broker'.made
  released : broker'.releasedBuffers = broker.releasedBuffers
  placed : broker'.placed = broker.placed

namespace SameBuffers

variable {broker broker' broker'' : Broker}

theorem refl (broker : Broker) : SameBuffers broker broker :=
  ⟨rfl, rfl, rfl, .refl _, rfl, rfl, id, Nat.le_refl _, rfl, rfl⟩

theorem trans (h : SameBuffers broker broker') (h' : SameBuffers broker' broker'') : SameBuffers broker broker'' :=
  ⟨h'.window.trans h.window, h'.high.trans h.high, h'.clients.trans h.clients, h'.deferred.trans h.deferred,
    h'.relayFailed.trans h.relayFailed, h'.tokenWrapped.trans h.tokenWrapped, h'.wedged ∘ h.wedged,
    h.made.trans h'.made, h'.released.trans h.released, h'.placed.trans h.placed⟩

theorem held (h : SameBuffers broker broker') : broker'.held.Perm broker.held := by
  have hlive : broker'.live = broker.live := by
    unfold Broker.live
    rw [h.clients]
  unfold Broker.held
  rw [hlive]
  exact (h.deferred.map Deferred.buffer).append_left broker.live

theorem whole (h : SameBuffers broker broker') (hwhole : broker'.Whole) : broker.Whole where
  relaid := h.relayFailed ▸ hwhole.relaid
  trusted := by
    cases hwedged : broker.wedged with
    | false => rfl
    | true => exact (h.wedged hwedged).symm.trans hwhole.trusted
  named := h.tokenWrapped ▸ hwhole.named

/-- Other fences, with the same deferred buffers. -/
theorem of_fences {fences : Fences} (h : fences.deferred.Perm broker.fences.deferred) :
    SameBuffers broker { broker with fences } :=
  ⟨rfl, rfl, rfl, h, rfl, rfl, id, Nat.le_refl _, rfl, rfl⟩

theorem logRelease {memory : Memory} {asked : Asked} (h : ∀ serial, memory ≠ .buffer serial) :
    SameBuffers broker (broker.logRelease memory asked) := by
  refine ⟨rfl, rfl, rfl, .refl _, rfl, rfl, id, Nat.le_refl _, ?_, rfl⟩
  cases memory with
  | buffer serial => exact absurd rfl (h serial)
  | staging | range => rfl

theorem logReleases (asked : Asked) (ranges : List SparseRange) : SameBuffers broker
      (ranges.foldl (fun broker range => broker.logRelease (.range range.serial) asked) broker) :=
  List.foldlRecOn (motive := fun broker' : Broker => SameBuffers broker broker') ranges _ (.refl broker)
    fun _ hsame _ _ => hsame.trans (logRelease fun _ => nofun)

theorem giveUp : SameBuffers broker broker.giveUp :=
  ⟨rfl, rfl, rfl, .refl _, rfl, rfl, fun _ => rfl, Nat.le_refl _, rfl, rfl⟩

theorem complete : SameBuffers broker broker.complete := by
  unfold Broker.complete
  split
  · exact .refl _
  · exact ⟨rfl, rfl, rfl, .refl _, rfl, rfl, id, Nat.le_refl _, rfl, rfl⟩

theorem giveStaging (staging : Staging) : SameBuffers broker (broker.giveStaging staging) := by
  unfold Broker.giveStaging
  split
  · exact logRelease fun _ => nofun
  · exact of_fences (.refl _)

theorem retire (completed : Nat) (ring : List Inflight) : SameBuffers broker (Broker.retire completed ring broker) := by
  induction ring generalizing broker with
  | nil => exact of_fences (.refl _)
  | cons entry ring ih =>
    unfold Broker.retire
    split
    · exact (giveStaging _).trans ih
    · exact of_fences (.refl _)

theorem setCursor (window : Bool) (cursor : Nat) : SameBuffers broker (broker.setCursor window cursor) := by
  unfold Broker.setCursor
  split <;> exact ⟨rfl, rfl, rfl, .refl _, rfl, rfl, id, Nat.le_refl _, rfl, rfl⟩

theorem fencesReady {kernel : Kernel} {ready : Broker} (h : broker.fencesReady kernel = some ready) :
    SameBuffers broker ready := by
  unfold Broker.fencesReady at h
  split at h
  · exact Option.some.inj h ▸ .refl _
  · split at h
    · exact Option.some.inj h ▸ of_fences (.refl _)
    · cases h

theorem takeStaging {kernel : Kernel} {need : Nat} {staging : Staging} {taken : Broker}
    (h : broker.takeStaging kernel need = some (staging, taken)) : SameBuffers broker taken := by
  unfold Broker.takeStaging at h
  split at h
  · obtain ⟨rfl, rfl⟩ := Prod.mk.inj (Option.some.inj h)
    exact ⟨rfl, rfl, rfl, .refl _, rfl, rfl, id, Nat.le_refl _, rfl, rfl⟩
  · split at h
    · obtain ⟨rfl, rfl⟩ := Prod.mk.inj (Option.some.inj h)
      exact ⟨rfl, rfl, rfl, .refl _, rfl, rfl, id, Nat.le_succ _, rfl, rfl⟩
    · cases h

theorem handOver (kernel : Kernel) (staging : Staging) (seq : Nat) :
    SameBuffers broker (broker.handOver kernel staging seq).1 := by
  unfold Broker.handOver
  split
  · exact ⟨rfl, rfl, rfl, .refl _, rfl, rfl, id, Nat.le_refl _, rfl, rfl⟩
  · exact ⟨rfl, rfl, rfl, .refl _, rfl, rfl, fun _ => rfl, Nat.le_refl _, rfl, rfl⟩

theorem sendStaged (kernel : Kernel) (client : Client) (tessChanges offchipChanges : Bool) (staging : Staging) :
    SameBuffers broker (broker.sendStaged kernel client tessChanges offchipChanges staging).1 := by
  unfold Broker.sendStaged
  dsimp only
  split
  · refine SameBuffers.trans ?_ (giveStaging staging)
    exact of_fences (.refl _)
  · split
    · refine SameBuffers.trans ?_ (giveStaging staging)
      split <;> exact of_fences (.refl _)
    · refine SameBuffers.trans ?_ (handOver ..)
      repeat' split
      all_goals exact of_fences (.refl _)

end SameBuffers

/-! ### Submissions -/

namespace Broker

variable {broker : Broker} {settings : Settings} {kernel : Kernel} {client : Client} {bytes : Nat} {c : Fin 32}

theorem giveStaging_ring (staging : Staging) (ring : List Inflight) :
    { broker.giveStaging staging with fences := { (broker.giveStaging staging).fences with ring } } =
      giveStaging { broker with fences := { broker.fences with ring } } staging := by
  unfold giveStaging
  split <;> rfl

/-- What completions and looks at the fence page keep, a drain keeps. -/
theorem drain_rec {motive : Broker → Prop} (hcomplete : ∀ broker : Broker, motive broker → motive broker.complete)
    (hreap : ∀ broker : Broker, motive broker → motive (broker.reap kernel)) (h : motive broker) :
    motive (broker.drain kernel) := by
  refine List.foldlRecOn (motive := motive) kernel.progress _ (hreap _ h) fun broker' h' completions _ => ?_
  unfold drainStep
  split
  · exact h'
  · exact hreap _ (Function.Iterate.rec motive h' hcomplete completions)

/-- A request to submit is refused as it stands, or goes on from a fence page. -/
theorem submission_cases (message : SubmitMessage) :
    (∃ errno, broker.submission settings kernel c message = .error (broker, errno)) ∨
      broker.wedged = false ∧ ∃ ready, broker.fencesReady kernel = some ready ∧
        broker.submission settings kernel c message = ready.sending settings kernel (broker.clients c) message.bytes := by
  unfold submission
  dsimp only
  split
  · exact .inl ⟨_, rfl⟩
  · split
    · exact .inl ⟨_, rfl⟩
    next hwedged =>
      cases broker.fencesReady kernel with
      | none => exact .inl ⟨_, rfl⟩
      | some ready => exact .inr ⟨Bool.eq_false_iff.mpr hwedged, ready, rfl, rfl⟩

/-- The state the client wants differs from that of the fences. -/
def Sending.Compares (sending : Sending) (client : Client) (fences : Fences) : Prop :=
  sending.tessChanges = decide (client.tess ≠ 0 ∧
      (client.tess ≠ fences.tess ∨ client.tessBytes ≠ fences.tessBytes)) ∧
    sending.offchipChanges = (client.offchip && (!fences.offchip ||
      decide (client.granularity ≠ fences.granularity ∨ client.buffering ≠ fences.buffering)))

/-- What looks at the fence page keep, a submission keeps up to its staging. -/
theorem sending_rec {motive : Broker → Prop} (hreap : ∀ broker : Broker, motive broker → motive (broker.reap kernel))
    (hdrain : ∀ broker : Broker, motive broker → motive (broker.drain kernel)) (h : motive broker) :
    match broker.sending settings kernel client bytes with
    | .error (left, _) => motive left ∨ ∃ last, motive last ∧ left = last.giveUp
    | .ok sending => ∃ room shared, motive room ∧ motive shared ∧ sending.Compares client room.fences ∧
        ((sending.tessChanges || sending.offchipChanges) = true → shared.drained = true) ∧
        shared.takeStaging kernel (bytes + settings.stampBytes + 32) = some (sending.staging, sending.broker) := by
  have hif : ∀ (condition : Bool) (broker : Broker), motive broker →
      motive (if condition then broker.drain kernel else broker) := by
    intro condition broker hbroker
    split
    · exact hdrain broker hbroker
    · exact hbroker
  unfold sending
  dsimp only
  generalize decide ((broker.reap kernel).fences.ring.length = ringEntries) = full
  have hroom := hif full _ (hreap broker h)
  generalize (if full then (broker.reap kernel).drain kernel else broker.reap kernel : Broker) = room at hroom
  cases hfull : full && !room.drained with
  | true => exact .inr ⟨room, hroom, rfl⟩
  | false =>
    simp only [Bool.false_eq_true, if_false]
    generalize htess : decide (client.tess ≠ 0 ∧
      (client.tess ≠ room.fences.tess ∨ client.tessBytes ≠ room.fences.tessBytes)) = tessChanges
    generalize hoffchip : (client.offchip && (!room.fences.offchip || decide (client.granularity ≠ room.fences.granularity ∨
      client.buffering ≠ room.fences.buffering))) = offchipChanges
    have hshared := hif (tessChanges || offchipChanges) room hroom
    generalize (if tessChanges || offchipChanges then room.drain kernel else room : Broker) = shared at hshared
    cases hdone : (tessChanges || offchipChanges) && !shared.drained with
    | true => exact .inr ⟨shared, hshared, rfl⟩
    | false =>
      simp only [Bool.false_eq_true, if_false]
      cases htake : shared.takeStaging kernel (bytes + settings.stampBytes + 32) with
      | none => exact .inl hshared
      | some taken =>
        refine ⟨room, shared, hroom, hshared, ⟨htess.symm, hoffchip.symm⟩, fun hchanges => ?_, htake⟩
        simpa [show (tessChanges || offchipChanges) = true from hchanges] using hdone

variable {buffer : Buffer}

/-- And a free does, up to where the buffer is released or deferred, or the broker gives up. -/
theorem freeBuffer_rec {motive : Broker → Prop} (hreap : ∀ broker : Broker, motive broker → motive (broker.reap kernel))
    (hdrain : ∀ broker : Broker, motive broker → motive (broker.drain kernel))
    (h : motive (broker.setClient c ((broker.clients c).discount buffer))) : broker.wedged = true ∧
        broker.freeBuffer kernel c buffer = broker.setClient c ((broker.clients c).discount buffer) ∨
      broker.wedged = false ∧ ∃ room, motive room ∧ (broker.freeBuffer kernel c buffer = room.giveUp ∨
        room.fences.ring = [] ∧ broker.freeBuffer kernel c buffer = room.release kernel buffer broker.now ∨
        room.fences.ring ≠ [] ∧ broker.freeBuffer kernel c buffer = { room with fences := { room.fences with
          deferred := room.fences.deferred ++ [⟨buffer, room.fences.issued, broker.now⟩] } }) := by
  have hreaped := hreap _ h
  unfold freeBuffer
  dsimp only
  generalize (broker.setClient c ((broker.clients c).discount buffer)).reap kernel = reaped at hreaped
  cases hwedged : broker.wedged with
  | true => exact .inl ⟨rfl, if_pos hwedged⟩
  | false =>
    rw [if_neg (by exact hwedged ▸ Bool.false_ne_true)]
    refine .inr ⟨rfl, ?_⟩
    split
    next hring => exact ⟨reaped, hreaped, .inr (.inl ⟨List.isEmpty_iff.mp hring, rfl⟩)⟩
    next =>
      have hroom : motive (if decide (reaped.fences.deferred.length = deferredEntries) then reaped.drain kernel
          else reaped) := by
        split
        · exact hdrain reaped hreaped
        · exact hreaped
      generalize (if decide (reaped.fences.deferred.length = deferredEntries) then reaped.drain kernel
        else reaped : Broker) = room at hroom
      refine ⟨room, hroom, ?_⟩
      repeat' split
      next => exact .inl rfl
      next hring => exact .inr (.inl ⟨List.isEmpty_iff.mp hring, rfl⟩)
      next hring => exact .inr (.inr ⟨hring ∘ List.isEmpty_iff.mpr, rfl⟩)

theorem wedged_logReleases (asked : Asked) (ranges : List SparseRange) :
    (ranges.foldl (fun broker range => broker.logRelease (.range range.serial) asked) broker).wedged = broker.wedged :=
  List.foldlRecOn (motive := fun broker' : Broker => broker'.wedged = broker.wedged) ranges _ rfl fun _ h _ _ => h

/-- A close that finds the GPU stuck leaves the client's memory; another one has drained, and releases it. -/
theorem close_rec {motive : Broker → Prop} (c : Fin 32) (live : Bool)
    (hdrain : ∀ broker : Broker, motive broker → motive (broker.drain kernel)) (h : motive broker) :
    ∃ judged : Broker, (judged.wedged = true ∧ (motive judged ∨ ∃ last, motive last ∧ judged = last.giveUp) ∧
        broker.close kernel c live = judged.setClient c .fresh) ∨
      judged.wedged = false ∧ judged.drained = true ∧ motive judged ∧ broker.close kernel c live = Broker.setClient
          ((judged.clients c).buffers.foldl (fun broker' buffer => broker'.release kernel buffer broker.now)
            ((judged.clients c).ranges.foldl
              (fun broker' range => broker'.logRelease (.range range.serial) broker.now) judged)) c .fresh := by
  unfold close
  dsimp only
  cases live with
  | true => exact ⟨broker.giveUp, .inl ⟨rfl, .inr ⟨broker, h, rfl⟩, rfl⟩⟩
  | false =>
    have hdrained : motive (if broker.wedged then broker else broker.drain kernel) := by
      split
      · exact h
      · exact hdrain broker h
    simp only [Bool.false_eq_true, if_false]
    generalize (if broker.wedged then broker else broker.drain kernel : Broker) = drained at hdrained
    cases hwedged : drained.wedged with
    | true => exact ⟨drained, .inl ⟨hwedged, .inl hdrained, by simp [hwedged]⟩⟩
    | false =>
      cases hdone : drained.drained with
      | false => exact ⟨drained.giveUp, .inl ⟨rfl, .inr ⟨drained, hdrained, rfl⟩, by simp [giveUp]⟩⟩
      | true => exact ⟨drained, .inr ⟨hwedged, hdone, hdrained, by simp [hwedged, wedged_logReleases]⟩⟩

/-! ### Allocations -/

/-- All but the windows and their cursors is the same. -/
def SameButWindows (broker broker' : Broker) : Prop :=
  ∃ window high nextWindow nextHigh relayFailed, broker' = { broker with window, high, nextWindow, nextHigh, relayFailed }

/-- An allocation changes windows and cursors, and adds a buffer that the client has room for, or none. -/
theorem allocate_cases (broker : Broker) (settings : Settings) (kernel : Kernel) (c : Fin 32) (message : AllocMessage) :
    ∃ broker', SameButWindows broker broker' ∧ ((broker.allocate settings kernel c message).1 = broker' ∨
      ∃ buffer : Buffer, (broker.allocate settings kernel c message).1 = (broker'.addBuffer c buffer).1 ∧
        (buffer.isLocal = false → buffer.bytes ≤ settings.hostLimit - (broker.clients c).allocated)) := by
  have hsame : SameButWindows broker broker := ⟨_, _, _, _, _, rfl⟩
  have hrange : ∀ window range, SameButWindows broker (broker.setRange window range) := by
    intro window range
    cases window <;> exact ⟨_, _, _, _, _, rfl⟩
  have hstrand : ∀ window range, SameButWindows broker { broker.setRange window range with relayFailed := true } := by
    intro window range
    cases window <;> exact ⟨_, _, _, _, _, rfl⟩
  have hcursor : ∀ window cursor, SameButWindows broker (broker.setCursor window cursor) := by
    intro window cursor
    cases window <;> exact ⟨_, _, _, _, _, rfl⟩
  unfold allocate allocateLocal allocateRanged allocateCursor
  dsimp only
  generalize (if decide (message.window = 1) then broker.nextWindow else broker.nextHigh) = cursor
  repeat' split
  · exact ⟨_, hsame, .inl rfl⟩
  · exact ⟨_, hsame, .inl rfl⟩
  · exact ⟨_, hsame, .inl rfl⟩
  · exact ⟨_, hsame, .inl rfl⟩
  · exact ⟨_, hsame, .inl rfl⟩
  · exact ⟨_, hsame, .inr ⟨_, rfl, fun hlocal => by cases hlocal⟩⟩
  · exact ⟨_, hsame, .inl rfl⟩
  · exact ⟨_, hsame, .inl rfl⟩
  next hbudget _ _ _ _ _ _ => exact ⟨_, hrange .., .inr ⟨_, rfl, fun _ => Nat.not_lt.mp hbudget⟩⟩
  · exact ⟨_, hrange .., .inl rfl⟩
  · exact ⟨_, hstrand .., .inl rfl⟩
  · exact ⟨_, hcursor .., .inl rfl⟩
  next hbudget _ _ _ _ _ => exact ⟨_, hcursor .., .inr ⟨_, rfl, fun _ => Nat.not_lt.mp hbudget⟩⟩
  · exact ⟨_, hcursor .., .inl rfl⟩

end Broker

/-! ### Housekeeping -/

/-- What the broker does besides a client's own request: deferred buffers are released, and no other buffer
changes hands. -/
inductive Housekeeping : Broker → Broker → Prop
  | same {broker broker' : Broker} : SameBuffers broker broker' → Housekeeping broker broker'
  | release {broker : Broker} (kernel : Kernel) {entry : Deferred} {rest : List Deferred} :
      broker.fences.deferred.Perm (entry :: rest) →
      Housekeeping broker (Broker.release { broker with fences := { broker.fences with deferred := rest } } kernel
        entry.buffer entry.asked)
  | trans {broker broker' broker'' : Broker} :
      Housekeeping broker broker' → Housekeeping broker' broker'' → Housekeeping broker broker''

namespace Broker

variable (broker : Broker)

theorem giveRange_setClient (c : Fin 32) (client : Client) (address bytes : Nat) :
    (broker.giveRange address bytes).setClient c client = (broker.setClient c client).giveRange address bytes := by
  unfold giveRange
  repeat' split
  all_goals rfl

theorem release_setClient (c : Fin 32) (client : Client) (kernel : Kernel) (buffer : Buffer) (asked : Asked) :
    (broker.release kernel buffer asked).setClient c client =
      (broker.setClient c client).release kernel buffer asked := by
  unfold release
  dsimp only
  repeat' split
  · rfl
  · exact giveRange_setClient ..
  · rfl

theorem releaseAll_setClient (c : Fin 32) (client : Client) (kernel : Kernel) (asked : Asked) (buffers : List Buffer) :
    (buffers.foldl (fun broker buffer => broker.release kernel buffer asked) broker).setClient c client =
      buffers.foldl (fun broker buffer => broker.release kernel buffer asked) (broker.setClient c client) := by
  induction buffers generalizing broker with
  | nil => rfl
  | cons buffer buffers ih =>
    simp only [List.foldl_cons]
    rw [ih, release_setClient]

theorem release_fences (kernel : Kernel) (buffer : Buffer) (asked : Asked) :
    (broker.release kernel buffer asked).fences = broker.fences := by
  unfold release giveRange
  dsimp only
  repeat' split
  all_goals rfl

theorem release_setFences (fences : Fences) (kernel : Kernel) (buffer : Buffer) (asked : Asked) :
    { broker.release kernel buffer asked with fences } = Broker.release { broker with fences } kernel buffer asked := by
  unfold release giveRange
  dsimp only
  repeat' split
  all_goals rfl

end Broker

namespace Housekeeping

variable {broker broker' : Broker}

theorem refl (broker : Broker) : Housekeeping broker broker :=
  .same (.refl broker)

variable (kernel : Kernel)

theorem releaseAll {entries kept : List Deferred} (h : broker.fences.deferred.Perm (entries ++ kept)) :
    Housekeeping broker (entries.foldl (fun broker entry => broker.release kernel entry.buffer entry.asked)
      { broker with fences := { broker.fences with deferred := kept } }) := by
  induction entries generalizing broker with
  | nil => exact .same (.of_fences h.symm)
  | cons entry entries ih =>
    refine .trans (.release kernel h) ?_
    rw [List.foldl_cons]
    generalize hnext : Broker.release { broker with fences := { broker.fences with deferred := entries ++ kept } }
      kernel entry.buffer entry.asked = next
    have hfences : next.fences = { broker.fences with deferred := entries ++ kept } :=
      hnext ▸ Broker.release_fences ..
    have hrest := @ih next (hfences ▸ .refl _)
    rw [hfences, ← hnext, Broker.release_setFences] at hrest
    exact hnext ▸ hrest

theorem reap : Housekeeping broker (broker.reap kernel) := by
  unfold Broker.reap
  split
  · exact .refl broker
  next completed _ =>
    dsimp only
    refine .trans (.same (.retire completed broker.fences.ring)) ?_
    exact releaseAll kernel (sweep_perm completed (Nat.le_refl _)).symm

theorem drain : Housekeeping broker (broker.drain kernel) :=
  Broker.drain_rec (fun _ h => h.trans (.same .complete)) (fun _ h => h.trans (reap kernel)) (.refl broker)

theorem submit (settings : Settings) (kernel : Kernel) (c : Fin 32) (message : Broker.SubmitMessage) :
    Housekeeping broker (broker.submit settings kernel c message).1 := by
  unfold Broker.submit
  rcases @Broker.submission_cases broker settings kernel c message with ⟨errno, heq⟩ | ⟨-, ready, hready, heq⟩ <;> rw [heq]
  · exact .refl broker
  · have hsending := @Broker.sending_rec ready settings kernel (broker.clients c) message.bytes (Housekeeping broker)
      (fun _ h => h.trans (reap kernel)) (fun _ h => h.trans (drain kernel)) (.same (.fencesReady hready))
    generalize ready.sending settings kernel (broker.clients c) message.bytes = result at hsending
    cases result with
    | error left =>
      rcases hsending with hleft | ⟨last, hlast, hgive⟩
      · exact hleft
      · exact hlast.trans (.same (hgive ▸ .giveUp))
    | ok sending =>
      obtain ⟨_, _, _, hshared, _, _, htake⟩ := hsending
      exact hshared.trans (.same ((SameBuffers.takeStaging htake).trans (.sendStaged ..)))

end Housekeeping

/-! ### Buffers in hand -/

/-- The windows are the same, and nothing that was lost is found. -/
structure SameRanges (broker broker' : Broker) : Prop where
  window : broker'.window = broker.window
  high : broker'.high = broker.high
  relayFailed : broker'.relayFailed = broker.relayFailed
  whole : broker'.Whole → broker.Whole
  made : broker.made ≤ broker'.made
  released : broker'.releasedBuffers = broker.releasedBuffers
  placed : broker'.placed = broker.placed

/-- The brokers there can be, with the buffers a function has in hand. -/
inductive Handed (reserved : Bool → Bool) : Broker → List Buffer → Prop
  | start : Handed reserved (.start (reserved true) (reserved false)) []
  /-- Buffers change places. -/
  | regroup {broker broker' : Broker} {loose loose' : List Buffer} : Handed reserved broker loose →
      SameRanges broker broker' → (broker'.held ++ loose').Perm (broker.held ++ loose) → Handed reserved broker' loose'
  /-- A buffer is forgotten, and its range with it. -/
  | lose {broker : Broker} {buffer : Buffer} {loose : List Buffer} : Handed reserved broker (buffer :: loose) →
      ¬broker.Whole → Handed reserved broker loose
  | release {broker : Broker} {buffer : Buffer} {loose : List Buffer} (kernel : Kernel) (asked : Asked) :
      Handed reserved broker (buffer :: loose) → Handed reserved (broker.release kernel buffer asked) loose
  /-- A buffer of a window. -/
  | take {broker : Broker} {loose : List Buffer} (c : Fin 32) (window : Bool) {bytes alignment asked address : Nat}
      {range : HostRange} : Handed reserved broker loose → 0 < bytes → 0 < alignment → asked = 0 ∨ asked ∣ alignment →
      (broker.range window).take bytes alignment = some (address, range) →
      Handed reserved { broker.setRange window range with
        made := broker.made + 1, placed := broker.nextBuffer c address bytes asked window false true :: broker.placed }
        (broker.nextBuffer c address bytes asked window false true :: loose)
  /-- A range that is taken, and given back as no buffer comes of it. -/
  | untake {broker : Broker} {loose : List Buffer} (window : Bool) {bytes alignment address : Nat}
      {range : HostRange} : Handed reserved broker loose → 0 < bytes → 0 < alignment →
      (broker.range window).take bytes alignment = some (address, range) →
      Handed reserved (broker.setRange window (range.give address bytes)) loose
  /-- A range that is taken and lost. -/
  | strand {broker : Broker} {loose : List Buffer} (window : Bool) {bytes alignment address : Nat}
      {range : HostRange} : Handed reserved broker loose → 0 < bytes → 0 < alignment →
      (broker.range window).take bytes alignment = some (address, range) →
      Handed reserved { broker.setRange window range with relayFailed := true } loose
  /-- A buffer where the system places it: local memory, or a window that is not reserved. -/
  | place {broker : Broker} {loose : List Buffer} (c : Fin 32) (address bytes asked : Nat) (low isLocal : Bool) :
      Handed reserved broker loose → (isLocal = false → (broker.range low).reserved = false) →
      Handed reserved { broker with
        made := broker.made + 1, placed := broker.nextBuffer c address bytes asked low isLocal false :: broker.placed }
        (broker.nextBuffer c address bytes asked low isLocal false :: loose)

theorem SameBuffers.ranges {broker broker' : Broker} (h : SameBuffers broker broker') : SameRanges broker broker' :=
  ⟨h.window, h.high, h.relayFailed, h.whole, h.made, h.released, h.placed⟩

/-- A client's own fields, of which the windows know nothing. -/
theorem SameRanges.setClient (broker : Broker) (c : Fin 32) (client : Client) :
    SameRanges broker (broker.setClient c client) :=
  ⟨rfl, rfl, rfl, fun hwhole => { hwhole with }, Nat.le_refl _, rfl, rfl⟩

namespace Handed

variable {reserved : Bool → Bool} {broker broker' : Broker} {loose : List Buffer} {buffer : Buffer} {c : Fin 32}

theorem same (h : Handed reserved broker loose) (hsame : SameBuffers broker broker') : Handed reserved broker' loose :=
  h.regroup hsame.ranges (hsame.held.append_right loose)

theorem housekeeping (h : Handed reserved broker loose) (hkeep : Housekeeping broker broker') : Handed reserved broker' loose := by
  induction hkeep with
  | same hsame => exact h.same hsame
  | @release broker kernel entry rest hperm =>
    refine .release kernel entry.asked (h.regroup ⟨rfl, rfl, rfl, fun hwhole => { hwhole with }, Nat.le_refl _, rfl, rfl⟩ ?_)
    have hdeferred := (hperm.symm.map Deferred.buffer).append_left broker.live
    have hheld : (broker.live ++ rest.map Deferred.buffer ++ [entry.buffer]).Perm broker.held := by
      rw [List.append_assoc]
      exact (List.perm_append_singleton entry.buffer _).append_left broker.live |>.trans hdeferred
    have hall := hheld.append_right loose
    rw [List.append_assoc, List.singleton_append] at hall
    exact hall
  | trans _ _ ih ih' => exact ih' (ih h)

theorem setClient (h : Handed reserved broker loose) {client : Client} (hslots : client.slots = (broker.clients c).slots) :
    Handed reserved (broker.setClient c client) loose :=
  h.regroup (.setClient ..) ((Broker.held_setClient c hslots).append_right loose)

theorem loseAll {buffers : List Buffer} (h : Handed reserved broker (buffers ++ loose)) (hlost : ¬broker.Whole) :
    Handed reserved broker loose := by
  induction buffers with
  | nil => exact h
  | cons buffer buffers ih => exact ih (.lose h hlost)

theorem releaseAll (kernel : Kernel) (asked : Asked) {buffers : List Buffer} (h : Handed reserved broker (buffers ++ loose)) :
    Handed reserved (buffers.foldl (fun broker buffer => broker.release kernel buffer asked) broker) loose := by
  induction buffers generalizing broker with
  | nil => exact h
  | cons buffer buffers ih => exact ih (.release kernel asked h)

/-! #### Allocations -/

theorem addBuffer
    (h : Handed reserved { broker with made := broker.made + 1, placed := buffer :: broker.placed } (buffer :: loose)) :
    Handed reserved (broker.addBuffer c buffer).1 loose := by
  have hranges : SameRanges { broker with made := broker.made + 1, placed := buffer :: broker.placed }
      (broker.addBuffer c buffer).1 :=
    ⟨rfl, rfl, rfl, fun hwhole => { hwhole with named := (Bool.or_eq_false_iff.mp hwhole.named).1 }, Nat.le_refl _, rfl, rfl⟩
  by_cases htoken : buffer.token = 0
  · have hslots : ((broker.clients c).addBuffer buffer).slots = (broker.clients c).slots := if_pos htoken
    refine .lose (h.regroup hranges ((Broker.held_setClient c hslots).append_right _)) fun hwhole => ?_
    have hnamed := (Bool.or_eq_false_iff.mp hwhole.named).2
    exact of_decide_eq_false hnamed htoken
  · exact h.regroup hranges
      (((Broker.held_addBuffer htoken).append_right loose).trans List.perm_middle.symm)

theorem allocateRanged (h : Handed reserved broker loose) (kernel : Kernel) (window : Bool) {bytes alignment asked : Nat}
    (hbytes : 0 < bytes) (halignment : 0 < alignment) (hasked : asked = 0 ∨ asked ∣ alignment) :
    Handed reserved (broker.allocateRanged kernel c window bytes alignment asked).1 loose := by
  unfold Broker.allocateRanged
  split
  next => exact h
  next address range htake =>
    split
    · have htaken := h.take c window hbytes halignment hasked htake
      cases window <;> exact addBuffer htaken
    · split
      · exact .untake window h hbytes halignment htake
      · exact .strand window h hbytes halignment htake

theorem allocateCursor (h : Handed reserved broker loose) (settings : Settings) (kernel : Kernel) {window : Bool}
    (hreserved : (broker.range window).reserved = false) (bytes alignment asked : Nat) :
    Handed reserved (broker.allocateCursor settings kernel c window bytes alignment asked).1 loose := by
  unfold Broker.allocateCursor
  dsimp only
  split
  · exact h.same (.setCursor ..)
  · split
    next address _ _ =>
      have hset := h.same (.setCursor window (address + bytes))
      cases window <;> exact addBuffer (hset.place c address bytes asked _ false fun _ => hreserved)
    · exact h.same (.setCursor ..)

theorem allocateLocal (h : Handed reserved broker loose) (kernel : Kernel) (bytes asked : Nat) :
    Handed reserved (broker.allocateLocal kernel c bytes asked).1 loose := by
  unfold Broker.allocateLocal
  repeat' split
  · exact h
  · exact h
  · exact h
  · exact addBuffer (.place c _ _ asked false true h nofun)

/-- What an accepted request asks for divides the alignment it gets. -/
theorem asked_dvd_alignment {asked : Nat} (h : ¬(asked ≠ 0 ∧ asked &&& (asked - 1) ≠ 0)) :
    asked = 0 ∨ asked ∣ max asked pageBytes := by
  by_cases hzero : asked = 0
  · exact Or.inl hzero
  · refine Or.inr ?_
    obtain ⟨k, rfl⟩ : asked.isPowerOfTwo :=
      (Nat.and_sub_one_eq_zero_iff_isPowerOfTwo hzero).mp (by tauto)
    rcases Nat.le_total (2 ^ k) pageBytes with hle | hle
    · rw [Nat.max_eq_right hle]
      have hk : k ≤ 14 := (Nat.pow_le_pow_iff_right (by decide : 1 < 2)).mp hle
      exact Nat.pow_dvd_pow 2 hk
    · rw [Nat.max_eq_left hle]

theorem allocate (h : Handed reserved broker loose) (settings : Settings) (kernel : Kernel)
    (message : Broker.AllocMessage) : Handed reserved (broker.allocate settings kernel c message).1 loose := by
  unfold Broker.allocate
  dsimp only
  split
  · exact h
  next hvalid =>
    simp only [not_or] at hvalid
    obtain ⟨hbytes, -, -, hpower, -⟩ := hvalid
    split
    · exact h
    · split
      · exact h.allocateLocal ..
      · split
        · exact h
        · split
          · exact h.allocateRanged kernel _ (Nat.lt_of_lt_of_le (Nat.pos_of_ne_zero hbytes) (le_roundUp (by decide)))
              (Nat.lt_of_lt_of_le (by decide) (Nat.le_max_right ..)) (asked_dvd_alignment hpower)
          next hreserved => exact h.allocateCursor settings kernel (Bool.eq_false_iff.mpr hreserved) ..

/-! #### Frees and closes -/

theorem freeBuffer (h : Handed reserved broker (buffer :: loose)) (kernel : Kernel) :
    Handed reserved (broker.freeBuffer kernel c buffer) loose := by
  have hclient : Handed reserved (broker.setClient c ((broker.clients c).discount buffer)) (buffer :: loose) :=
    h.setClient rfl
  rcases Broker.freeBuffer_rec (motive := fun broker => Handed reserved broker (buffer :: loose))
    (fun _ h => h.housekeeping (.reap kernel)) (fun _ h => h.housekeeping (.drain kernel)) hclient with
    ⟨hwedged, heq⟩ | ⟨-, room, hroom, heq | ⟨-, heq⟩ | ⟨-, heq⟩⟩ <;> rw [heq]
  · exact hclient.lose fun hwhole => Bool.false_ne_true (hwhole.trusted.symm.trans hwedged)
  · exact (hroom.same .giveUp).lose fun hwhole => by cases hwhole.trusted
  · exact hroom.release kernel _
  · refine hroom.regroup ⟨rfl, rfl, rfl, fun hwhole => { hwhole with }, Nat.le_refl _, rfl, rfl⟩ ?_
    simp only [Broker.held, List.map_append, List.map_cons, List.map_nil, List.append_assoc]
    exact .refl _

theorem free (h : Handed reserved broker []) (kernel : Kernel) (token address bytes : Nat) :
    Handed reserved (broker.free kernel c token address bytes) [] := by
  unfold Broker.free
  dsimp only
  split
  next => exact h.setClient rfl
  next buffer slots htake =>
    split
    · exact h.setClient rfl
    · apply freeBuffer
      refine h.regroup (.setClient ..) ?_
      exact List.perm_middle.trans ((Broker.held_takeSlot htake rfl).append_right [])

theorem close (h : Handed reserved broker []) (kernel : Kernel) (live : Bool) : Handed reserved (broker.close kernel c live) [] := by
  have hleft : ∀ judged broker', Handed reserved judged [] → SameBuffers judged broker' →
      Handed reserved (broker'.setClient c .fresh) ((judged.clients c).buffers ++ []) := fun judged broker' hjudged hsame => by
    refine (hjudged.same hsame).regroup (.setClient ..) ?_
    rw [List.append_nil, List.append_nil, ← hsame.clients]
    exact broker'.held_leave c
  obtain ⟨judged, ⟨hwedged, hjudged, heq⟩ | ⟨-, -, hjudged, heq⟩⟩ := Broker.close_rec
    (motive := fun broker => Handed reserved broker []) c live (fun _ h => h.housekeeping (.drain kernel)) h <;> rw [heq]
  · have hjudged : Handed reserved judged [] := by
      rcases hjudged with hjudged | ⟨last, hlast, rfl⟩
      · exact hjudged
      · exact hlast.same .giveUp
    refine (hleft judged judged hjudged (.refl _)).loseAll fun hwhole => ?_
    exact Bool.false_ne_true (hwhole.trusted.symm.trans hwedged)
  · rw [Broker.releaseAll_setClient]
    exact (hleft judged _ hjudged (.logReleases broker.now _)).releaseAll kernel broker.now

end Handed

end Ps5Vulkan.GpuBroker
