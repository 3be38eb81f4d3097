import Ps5Vulkan.GpuBroker.HostMemory
import Ps5Vulkan.Library.InFlight

/-!
# No memory is released under the GPU

A buffer, a sparse range or staging goes only once the GPU has finished every submission accepted before it
was given up. What makes the fence page's number tell is that the numbers in flight are ahead of it, and they
are while fewer than half of all numbers have been drawn beyond it. A submission whose shared state is refused
draws a number and leaves nothing in flight, so nothing else keeps that count small: after 2^31 of them in a
row, the next submission's number is taken for one that has passed.
-/

namespace Ps5Vulkan.GpuBroker

open SerialCounter

namespace Broker

/-! ### What is in flight -/

/-- The submissions up to a count are finished, or the last of them is in flight under a number. -/
def Covered (broker : Broker) (count seq : Nat) : Prop :=
  count ≤ broker.finished ∨ broker.pending[count - broker.finished - 1]? = some seq

/-- What the broker waits for, of the submissions the GPU has. -/
structure Flow (slack : Nat) (broker : Broker) : Prop where
  unready : broker.fences.page = none →
    broker.fences.issued = 0 ∧ broker.fences.ring = [] ∧ broker.fences.deferred = [] ∧ broker.pending = []
  order : ∀ page, broker.fences.page = some page →
    InFlight fenceValues slack page broker.pending broker.fences.issued
  ring : ∀ entry ∈ broker.fences.ring, broker.Covered entry.staging.used entry.seq
  deferred : ∀ entry ∈ broker.fences.deferred,
    broker.Covered entry.asked.accepted entry.seq ∧ entry.asked.wedged = false
  last : broker.wedged = false → broker.pending ≠ [] →
    ∃ staging, broker.fences.ring.getLast? = some ⟨broker.fences.issued, staging⟩ ∧
      staging.used = broker.accepted
  spares : ∀ staging ∈ broker.fences.spares, staging.used ≤ broker.finished
  released : ∀ release ∈ broker.released,
    release.asked.accepted ≤ release.finished ∧ release.asked.wedged = false

variable {broker broker' : Broker} {slack count seq completed : Nat}

/-- A number that has not passed is not taken for one that has. -/
theorem not_done_of_ahead (h : 0 < distance fenceValues seq completed ∧ distance fenceValues seq completed < fenceValues / 2) :
    done seq completed = false := by
  unfold done
  simp only [decide_eq_false_iff_not, not_or]
  exact ⟨Nat.ne_of_gt h.1, Nat.not_le.mpr h.2⟩

theorem Covered.complete (h : broker.Covered count seq) : broker.complete.Covered count seq := by
  unfold Covered Broker.complete at *
  split
  · exact h
  next first rest hpending =>
    rcases h with h | h
    · exact Or.inl (Nat.le_succ_of_le h)
    · rw [hpending] at h
      rcases Nat.lt_or_ge (broker.finished + 1) count with hlater | hnow
      · refine Or.inr ?_
        rw [show count - broker.finished - 1 = count - (broker.finished + 1) - 1 + 1 by omega,
          List.getElem?_cons_succ] at h
        exact h
      · exact Or.inl hnow

theorem Covered.append (h : broker.Covered count seq) (hfinished : broker'.finished = broker.finished)
    {later : List Nat} (hpending : broker'.pending = broker.pending ++ later) : broker'.Covered count seq := by
  unfold Covered
  rw [hfinished, hpending]
  refine h.imp_right fun hseq => ?_
  rw [List.getElem?_append_left (List.getElem?_eq_some_iff.mp hseq).1]
  exact hseq

theorem accepted_complete (broker : Broker) : broker.complete.accepted = broker.accepted := by
  unfold Broker.complete
  split
  · rfl
  next hpending => simp only [accepted, hpending, List.length_cons]; omega

/-- What a look at the fence page does not change: the submissions there have been, whether there is a page,
and whether the broker is wedged. -/
structure Steady (broker broker' : Broker) : Prop where
  accepted : broker'.accepted = broker.accepted
  page : broker'.fences.page.isSome = broker.fences.page.isSome
  wedged : broker'.wedged = broker.wedged

variable (kernel : Kernel)

namespace Steady

theorem refl (broker : Broker) : Steady broker broker :=
  ⟨rfl, rfl, rfl⟩

theorem trans {broker'' : Broker} (h : Steady broker broker') (h' : Steady broker' broker'') : Steady broker broker'' :=
  ⟨h'.accepted.trans h.accepted, h'.page.trans h.page, h'.wedged.trans h.wedged⟩

theorem complete : Steady broker broker.complete := by
  refine ⟨broker.accepted_complete, ?_, ?_⟩ <;> unfold Broker.complete <;> split
  · rfl
  · exact Option.isSome_map
  · rfl
  · rfl

theorem giveStaging (staging : Staging) : Steady broker (broker.giveStaging staging) := by
  unfold Broker.giveStaging
  split <;> exact ⟨rfl, rfl, rfl⟩

theorem retire (completed : Nat) (ring : List Inflight) : Steady broker (Broker.retire completed ring broker) := by
  induction ring generalizing broker with
  | nil => exact ⟨rfl, rfl, rfl⟩
  | cons entry ring ih =>
    unfold Broker.retire
    split
    · exact (giveStaging _).trans ih
    · exact ⟨rfl, rfl, rfl⟩

theorem release (buffer : Buffer) (asked : Asked) : Steady broker (broker.release kernel buffer asked) := by
  unfold Broker.release Broker.giveRange
  dsimp only
  repeat' split
  all_goals exact ⟨rfl, rfl, rfl⟩

theorem reap : Steady broker (broker.reap kernel) := by
  unfold Broker.reap
  split
  · exact .refl broker
  next completed _ =>
    refine (retire completed broker.fences.ring).trans ?_
    refine List.foldlRecOn (motive := fun broker' : Broker => Steady _ broker') _ _ ?_
      fun _ hsteady _ _ => hsteady.trans (release ..)
    exact ⟨rfl, rfl, rfl⟩

theorem drain : Steady broker (broker.drain kernel) :=
  Broker.drain_rec (fun _ h => h.trans complete) (fun _ h => h.trans (reap kernel)) (.refl broker)

end Steady

theorem page_retire (completed : Nat) (ring : List Inflight) :
    (Broker.retire completed ring broker).fences.page = broker.fences.page := by
  induction ring generalizing broker with
  | nil => rfl
  | cons entry ring ih =>
    unfold Broker.retire
    split
    · refine ih.trans ?_
      unfold Broker.giveStaging
      split <;> rfl
    · rfl

theorem finished_release (buffer : Buffer) (asked : Asked) :
    (broker.release kernel buffer asked).finished = broker.finished := by
  unfold Broker.release Broker.giveRange
  dsimp only
  repeat' split
  all_goals rfl

theorem finished_logReleases (broker : Broker) (asked : Asked) (ranges : List SparseRange) :
    (ranges.foldl (fun broker range => broker.logRelease (.range range.serial) asked) broker).finished =
      broker.finished :=
  List.foldlRecOn (motive := fun broker' : Broker => broker'.finished = broker.finished) ranges _ rfl
    fun _ hfinished _ _ => hfinished

namespace Flow

/-- What the page's number has passed is finished. -/
theorem le_of_done (h : broker.Flow (slack + 1)) (hpage : broker.fences.page = some completed)
    (hcovered : broker.Covered count seq) (hdone : done seq completed = true) : count ≤ broker.finished := by
  refine hcovered.resolve_right fun hpending => ?_
  have hahead := (h.order completed hpage).ahead (List.mem_of_getElem? hpending)
  exact Bool.false_ne_true ((not_done_of_ahead hahead).symm.trans hdone)

theorem less (h : broker.Flow (slack + 1)) : broker.Flow slack :=
  { h with order := fun page hpage => (h.order page hpage).less }

/-- With nothing left in the ring, nothing is in flight. -/
theorem pending_nil (h : broker.Flow slack) (hwedged : broker.wedged = false) (hring : broker.fences.ring = []) :
    broker.pending = [] := by
  by_contra hpending
  obtain ⟨staging, hlast, -⟩ := h.last hwedged hpending
  rw [hring] at hlast
  cases hlast

theorem accepted_le (h : broker.Flow slack) (hwedged : broker.wedged = false) (hring : broker.fences.ring = []) :
    broker.accepted ≤ broker.finished := by
  unfold accepted
  rw [h.pending_nil hwedged hring]
  exact Nat.le_refl _

theorem start (windowReserved highReserved : Bool) : (Broker.start windowReserved highReserved).Flow slack where
  unready _ := ⟨rfl, rfl, rfl, rfl⟩
  order := nofun
  ring := nofun
  deferred := nofun
  last _ hpending := absurd rfl hpending
  spares := nofun
  released := nofun

section

variable (h : broker.Flow slack)

include h

theorem complete : broker.complete.Flow slack := by
  have hring : ∀ entry ∈ broker.fences.ring, broker.complete.Covered entry.staging.used entry.seq :=
    fun entry hentry => (h.ring entry hentry).complete
  have hdeferred : ∀ entry ∈ broker.fences.deferred,
      broker.complete.Covered entry.asked.accepted entry.seq ∧ entry.asked.wedged = false :=
    fun entry hentry => ⟨(h.deferred entry hentry).1.complete, (h.deferred entry hentry).2⟩
  have haccepted := broker.accepted_complete
  unfold Broker.complete at hring hdeferred haccepted ⊢
  split
  · exact h
  next first rest hpending =>
    simp only [hpending] at hring hdeferred haccepted
    have hpages : ∃ page, broker.fences.page = some page := by
      refine Option.ne_none_iff_exists'.mp fun hnone => ?_
      rw [(h.unready hnone).2.2.2] at hpending
      cases hpending
    obtain ⟨page, hpage⟩ := hpages
    have horder := h.order page hpage
    rw [hpending] at horder
    refine ⟨by simp [hpage], fun other hother => ?_, hring, hdeferred, fun hwedged _ => ?_, ?_, h.released⟩
    · simp only [hpage, Option.map_some, Option.some.injEq] at hother
      exact hother ▸ horder.complete
    · obtain ⟨staging, hlast, hused⟩ := h.last hwedged (by simp [hpending])
      exact ⟨staging, hlast, hused.trans haccepted.symm⟩
    · exact fun staging hstaging => Nat.le_succ_of_le (h.spares staging hstaging)

theorem logRelease {asked : Asked} (memory : Memory)
    (hasked : asked.accepted ≤ broker.finished ∧ asked.wedged = false) : (broker.logRelease memory asked).Flow slack :=
  { h with released := List.forall_mem_cons.mpr ⟨hasked, h.released⟩ }

theorem giveStaging {staging : Staging} (hused : staging.used ≤ broker.finished) :
    (broker.giveStaging staging).Flow slack := by
  unfold Broker.giveStaging
  split
  · exact h.logRelease _ ⟨hused, rfl⟩
  · refine { h with spares := fun other hother => ?_ }
    rcases List.mem_append.mp hother with hold | hnew
    · exact h.spares other hold
    · exact List.mem_singleton.mp hnew ▸ hused

theorem release {asked : Asked} (kernel : Kernel) (buffer : Buffer)
    (hasked : asked.accepted ≤ broker.finished ∧ asked.wedged = false) :
    (broker.release kernel buffer asked).Flow slack := by
  have hlogged := h.logRelease (.buffer buffer.serial) hasked
  unfold Broker.release Broker.giveRange
  dsimp only
  repeat' split
  all_goals exact { hlogged with }

end

/-! #### Reaping -/

/-- The ring without a submission at its head that has finished. -/
theorem pop {entry : Inflight} {ring : List Inflight}
    (h : Flow slack { broker with fences := { broker.fences with ring := entry :: ring } })
    (hused : entry.staging.used ≤ broker.finished) :
    Flow slack { broker with fences := { broker.fences with ring } } := by
  refine { h with
    unready := fun hpage => ?_
    ring := fun other hother => h.ring other (List.mem_cons_of_mem _ hother)
    last := fun hwedged hpending => ?_ }
  · cases (h.unready hpage).2.1
  · obtain ⟨staging, hlast, haccepted⟩ := h.last hwedged hpending
    cases ring with
    | nil =>
      obtain rfl : entry = ⟨broker.fences.issued, staging⟩ := by simpa using hlast
      have hlength : 0 < broker.pending.length := List.length_pos_iff.mpr hpending
      have hcount : staging.used = broker.finished + broker.pending.length := haccepted
      exact absurd hused (by simp only; omega)
    | cons next rest => exact ⟨staging, by simpa using hlast, haccepted⟩

theorem retire (hpage : broker.fences.page = some completed) {ring : List Inflight}
    (h : Flow (slack + 1) { broker with fences := { broker.fences with ring } }) :
    (Broker.retire completed ring broker).Flow (slack + 1) := by
  induction ring generalizing broker with
  | nil => exact h
  | cons entry ring ih =>
    unfold Broker.retire
    split
    next hdone =>
      have hused : entry.staging.used ≤ broker.finished :=
        h.le_of_done hpage (h.ring entry List.mem_cons_self) hdone
      have hgiven := (h.pop hused).giveStaging hused
      refine ih ?_ (Broker.giveStaging_ring entry.staging ring ▸ hgiven)
      unfold Broker.giveStaging
      split <;> exact hpage
    next => exact h

/-- Deferred buffers stay or go; those that go have been passed. -/
theorem done_of_swept {fuel : Nat} {deferred : List Deferred} {entry : Deferred}
    (h : entry ∈ (sweep completed fuel deferred).2) : done entry.seq completed = true := by
  induction fuel generalizing deferred with
  | zero => cases h
  | succ fuel ih =>
    cases deferred with
    | nil => cases h
    | cons first rest =>
      simp only [sweep] at h
      split at h
      next hdone =>
        rcases List.mem_cons.mp h with rfl | hlater
        · exact hdone
        · exact ih hlater
      next => exact ih h

theorem releaseAll {α : Type} {buffer : α → Buffer} {asked : α → Asked} (h : broker.Flow slack) (kernel : Kernel)
    {entries : List α}
    (hasked : ∀ entry ∈ entries, (asked entry).accepted ≤ broker.finished ∧ (asked entry).wedged = false) :
    (entries.foldl (fun broker entry => broker.release kernel (buffer entry) (asked entry)) broker).Flow slack := by
  induction entries generalizing broker with
  | nil => exact h
  | cons entry entries ih =>
    obtain ⟨hfirst, hrest⟩ := List.forall_mem_cons.mp hasked
    refine ih (h.release kernel (buffer entry) hfirst) ?_
    rw [finished_release]
    exact hrest

theorem reap (h : broker.Flow (slack + 1)) (kernel : Kernel) : (broker.reap kernel).Flow (slack + 1) := by
  unfold Broker.reap
  split
  · exact h
  next completed hpage =>
    dsimp only
    have hretired : (Broker.retire completed broker.fences.ring broker).Flow (slack + 1) := retire hpage { h with }
    have hpage' : (Broker.retire completed broker.fences.ring broker).fences.page = some completed :=
      (page_retire ..).trans hpage
    generalize Broker.retire completed broker.fences.ring broker = retired at hretired hpage'
    have hperm := sweep_perm completed (Nat.le_refl retired.fences.deferred.length)
    refine releaseAll ?_ kernel ?_
    · refine { hretired with
        unready := fun hnone => absurd (hnone.symm.trans hpage') nofun
        deferred := fun entry hentry => hretired.deferred entry (hperm.subset (List.mem_append_right _ hentry)) }
    · intro entry hentry
      obtain ⟨hcovered, hwedged⟩ := hretired.deferred entry (hperm.subset (List.mem_append_left _ hentry))
      exact ⟨hretired.le_of_done hpage' hcovered (done_of_swept hentry), hwedged⟩

theorem drain (h : broker.Flow (slack + 1)) (kernel : Kernel) : (broker.drain kernel).Flow (slack + 1) :=
  Broker.drain_rec (fun _ h => h.complete) (fun _ h => h.reap kernel) h

/-! #### Frees and closes -/

theorem giveUp (h : broker.Flow slack) : broker.giveUp.Flow slack :=
  { h with last := nofun }

theorem setClient (h : broker.Flow slack) (c : Fin 32) (client : Client) : (broker.setClient c client).Flow slack :=
  { h with }

/-- The number drawn last covers all that was accepted. -/
theorem covered_issued (h : broker.Flow slack) (hwedged : broker.wedged = false) :
    broker.Covered broker.accepted broker.fences.issued := by
  by_cases hpending : broker.pending = []
  · left
    unfold accepted
    rw [hpending]
    exact Nat.le_refl _
  · obtain ⟨staging, hlast, hused⟩ := h.last hwedged hpending
    exact hused ▸ h.ring _ (List.mem_of_getLast? hlast)

theorem freeBuffer (h : broker.Flow (slack + 1)) (kernel : Kernel) (c : Fin 32) (buffer : Buffer) :
    (broker.freeBuffer kernel c buffer).Flow (slack + 1) := by
  have hclient := h.setClient c ((broker.clients c).discount buffer)
  rcases freeBuffer_rec (motive := fun broker' => broker'.Flow (slack + 1) ∧ Steady broker broker')
    (fun _ h => ⟨h.1.reap kernel, h.2.trans (.reap kernel)⟩) (fun _ h => ⟨h.1.drain kernel, h.2.trans (.drain kernel)⟩)
    ⟨hclient, ⟨rfl, rfl, rfl⟩⟩ with ⟨-, heq⟩ | ⟨hwedged, room, ⟨hroom, hsteady⟩, heq | ⟨hring, heq⟩ | ⟨hring, heq⟩⟩ <;> rw [heq]
  · exact hclient
  · exact hroom.giveUp
  · exact hroom.release kernel buffer
      ⟨hsteady.accepted.symm.trans_le (hroom.accepted_le (hsteady.wedged.trans hwedged) hring), hwedged⟩
  · refine { hroom with unready := fun hpage => absurd (hroom.unready hpage).2.1 hring, deferred := fun entry hentry => ?_ }
    rcases List.mem_append.mp hentry with hold | hnew
    · exact hroom.deferred entry hold
    · obtain rfl := List.mem_singleton.mp hnew
      have hcovered := hroom.covered_issued (hsteady.wedged.trans hwedged)
      rw [hsteady.accepted] at hcovered
      exact ⟨hcovered, hwedged⟩

theorem free (h : broker.Flow (slack + 1)) (kernel : Kernel) (c : Fin 32) (token address bytes : Nat) :
    (broker.free kernel c token address bytes).Flow (slack + 1) := by
  unfold Broker.free
  dsimp only
  split
  · exact h.setClient ..
  · split
    · exact h.setClient ..
    · exact (h.setClient ..).freeBuffer ..

theorem logReleases (h : broker.Flow slack) {asked : Asked}
    (hasked : asked.accepted ≤ broker.finished ∧ asked.wedged = false) (ranges : List SparseRange) :
    (ranges.foldl (fun broker range => broker.logRelease (.range range.serial) asked) broker).Flow slack := by
  induction ranges generalizing broker with
  | nil => exact h
  | cons range ranges ih => exact ih (h.logRelease _ hasked) hasked

/-- What is released after a drain, if the broker is not wedged by then. -/
theorem asked_of_drained {asked : Broker} (h : broker.Flow slack) (hsteady : Steady asked broker)
    (hwedged : broker.wedged = false) (hdrained : broker.drained = true) :
    asked.now.accepted ≤ broker.finished ∧ asked.now.wedged = false := by
  have hring : broker.fences.ring = [] := List.isEmpty_iff.mp (Bool.and_eq_true_iff.mp hdrained).1
  exact ⟨hsteady.accepted.symm.trans_le (h.accepted_le hwedged hring), hsteady.wedged.symm.trans hwedged⟩

theorem close (h : broker.Flow (slack + 1)) (kernel : Kernel) (c : Fin 32) (live : Bool) :
    (broker.close kernel c live).Flow (slack + 1) := by
  obtain ⟨judged, ⟨-, hjudged, heq⟩ | ⟨hwedged, hdrained, ⟨hjudged, hsteady⟩, heq⟩⟩ := close_rec
    (motive := fun broker' => broker'.Flow (slack + 1) ∧ Steady broker broker') c live
    (fun _ h => ⟨h.1.drain kernel, h.2.trans (.drain kernel)⟩) ⟨h, .refl broker⟩ <;> rw [heq] <;> apply setClient
  · rcases hjudged with hjudged | ⟨last, hlast, rfl⟩
    · exact hjudged.1
    · exact hlast.1.giveUp
  · have hasked := hjudged.asked_of_drained hsteady hwedged hdrained
    refine (hjudged.logReleases hasked _).releaseAll kernel fun _ _ => ?_
    rw [finished_logReleases]
    exact hasked

/-! #### Submissions -/

theorem fencesReady (h : broker.Flow slack) (hslack : slack < fenceValues / 2) {kernel : Kernel} {ready : Broker}
    (hready : broker.fencesReady kernel = some ready) :
    ready.Flow slack ∧ ready.fences.page.isSome = true ∧ ready.wedged = broker.wedged := by
  unfold Broker.fencesReady at hready
  split at hready
  next hpage =>
    obtain rfl := Option.some.inj hready
    exact ⟨h, hpage, rfl⟩
  next hpage =>
    split at hready
    · obtain rfl := Option.some.inj hready
      obtain ⟨hissued, hring, hdeferred, hpending⟩ := h.unready (by simpa using hpage)
      refine ⟨{ h with unready := nofun, order := fun page hpage => ?_ }, rfl, rfl⟩
      obtain rfl : broker.fences.issued = page := Option.some.inj hpage
      rw [hissued, hpending]
      exact .idle 0 hslack
    · cases hready

theorem stagingTake_perm {bytes : Nat} {spares rest : List Staging} {staging : Staging}
    (h : stagingTake bytes spares = some (staging, rest)) : spares.Perm (staging :: rest) := by
  induction spares generalizing rest with
  | nil => cases h
  | cons spare spares ih =>
    simp only [stagingTake] at h
    split at h
    · obtain ⟨rfl, rfl⟩ := Prod.mk.inj (Option.some.inj h)
      exact (fillGap_perm spares).symm.cons spare
    · obtain ⟨⟨found, left⟩, hfound, heq⟩ := Option.map_eq_some_iff.mp h
      obtain ⟨rfl, rfl⟩ := Prod.mk.inj heq
      exact ((ih hfound).cons spare).trans (.swap ..)

theorem takeStaging (h : broker.Flow slack) {kernel : Kernel} {need : Nat} {staging : Staging} {taken : Broker}
    (htake : broker.takeStaging kernel need = some (staging, taken)) :
    taken.Flow slack ∧ staging.used ≤ taken.finished ∧ taken.pending = broker.pending ∧
      taken.fences.page = broker.fences.page := by
  unfold Broker.takeStaging at htake
  split at htake
  next found spares hfound =>
    obtain ⟨rfl, rfl⟩ := Prod.mk.inj (Option.some.inj htake)
    have hperm := stagingTake_perm hfound
    have hused := h.spares found (hperm.symm.subset List.mem_cons_self)
    have hlogged : (broker.logRelease (.staging found.serial) ⟨found.used, false⟩).Flow slack :=
      h.logRelease _ ⟨hused, rfl⟩
    refine ⟨{ hlogged with spares := fun other hother => ?_ }, hused, rfl, rfl⟩
    exact h.spares other (hperm.symm.subset (List.mem_cons_of_mem _ hother))
  next =>
    split at htake
    · obtain ⟨rfl, rfl⟩ := Prod.mk.inj (Option.some.inj htake)
      exact ⟨{ h with }, Nat.zero_le _, rfl, rfl⟩
    · cases htake

/-- A number is drawn, with nothing in flight or in a broker that gives up. -/
theorem draw (h : broker.Flow (slack + 2)) (hpage : broker.fences.page.isSome = true)
    (hlast : broker.wedged = true ∨ broker.pending = []) : Flow (slack + 1) { broker with
      fences := { broker.fences with issued := next fenceValues broker.fences.issued } } where
  unready hnone := absurd (hpage.symm.trans (congrArg Option.isSome hnone)) nofun
  order page hpage := (h.order page hpage).draw (by decide)
  ring := h.ring
  deferred := h.deferred
  last hwedged hpending := by
    rcases hlast with htrue | hnil
    · exact absurd (htrue.symm.trans hwedged) nofun
    · exact absurd hnil hpending
  spares := h.spares
  released := h.released

/-- A number is drawn for a submission that the GPU has. -/
theorem send (h : broker.Flow (slack + 2)) (hpage : broker.fences.page.isSome = true) (wedged : Bool)
    (ring : List Inflight) (hring : ring = broker.fences.ring ∧ wedged = true ∨
      ∃ staging, staging.used = broker.accepted + 1 ∧
        ring = broker.fences.ring ++ [⟨next fenceValues broker.fences.issued, staging⟩]) :
    Flow (slack + 1) { broker with
      fences := { broker.fences with issued := next fenceValues broker.fences.issued, ring }
      pending := broker.pending ++ [next fenceValues broker.fences.issued]
      wedged } where
  unready hnone := absurd (hpage.symm.trans (congrArg Option.isSome hnone)) nofun
  order page hpage := (h.order page hpage).send (by decide)
  ring entry hentry := by
    rcases hring with ⟨rfl, -⟩ | ⟨staging, hused, rfl⟩
    · exact (h.ring entry hentry).append rfl rfl
    · rcases List.mem_append.mp hentry with hold | hnew
      · exact (h.ring entry hold).append rfl rfl
      · obtain rfl := List.mem_singleton.mp hnew
        right
        have hindex : staging.used - broker.finished - 1 = broker.pending.length := by
          unfold accepted at hused
          omega
        simp only [hindex, List.getElem?_concat_length]
  deferred entry hentry := ⟨(h.deferred entry hentry).1.append rfl rfl, (h.deferred entry hentry).2⟩
  last hwedged _ := by
    rcases hring with ⟨-, htrue⟩ | ⟨staging, hused, rfl⟩
    · exact absurd (htrue.symm.trans hwedged) nofun
    · refine ⟨staging, List.getLast?_concat, ?_⟩
      simp only [accepted, List.length_append, List.length_singleton]
      exact hused
  spares := h.spares
  released := h.released

/-- The fences with the next number, whatever the shared state is. -/
structure Drawn (old fences : Fences) : Prop where
  page : fences.page = old.page
  issued : fences.issued = next fenceValues old.issued
  ring : fences.ring = old.ring
  deferred : fences.deferred = old.deferred
  spares : fences.spares = old.spares

theorem handOver (h : broker.Flow (slack + 2)) (hpage : broker.fences.page.isSome = true) (kernel : Kernel)
    (staging : Staging) {fences : Fences} (hdrawn : Drawn broker.fences fences) :
    (Broker.handOver { broker with fences } kernel staging fences.issued).1.Flow (slack + 1) := by
  obtain ⟨page, issued, ring, deferred, spares⟩ := fences
  obtain ⟨rfl, rfl, rfl, rfl, rfl⟩ := hdrawn
  unfold Broker.handOver
  split
  · have hsent := h.send hpage broker.wedged _ (Or.inr ⟨{ staging with used := broker.accepted + 1 }, rfl, rfl⟩)
    exact { hsent with }
  · split
    · have hsent := h.send hpage true _ (Or.inl ⟨rfl, rfl⟩)
      exact { hsent with }
    · have hgiven := h.giveUp.draw hpage (Or.inl rfl)
      exact { hgiven with }

theorem sendStaged (h : broker.Flow (slack + 2)) (hpage : broker.fences.page.isSome = true) (kernel : Kernel)
    (client : Client) {tessChanges offchipChanges : Bool} {staging : Staging}
    (hused : staging.used ≤ broker.finished) (hchanges : (tessChanges || offchipChanges) = true → broker.pending = []) :
    (broker.sendStaged kernel client tessChanges offchipChanges staging).1.Flow (slack + 1) := by
  unfold Broker.sendStaged
  dsimp only
  split
  next hfailed =>
    have htess : tessChanges = true := (Bool.and_eq_true_iff.mp hfailed).1
    exact (h.draw hpage (Or.inr (hchanges (by simp [htess])))).giveStaging hused
  next =>
    split
    next hfailed =>
      have hoffchip : offchipChanges = true := (Bool.and_eq_true_iff.mp hfailed).1
      have hdrawn := h.draw hpage (Or.inr (hchanges (by simp [hoffchip])))
      apply giveStaging
      · split <;> exact { hdrawn with }
      · split <;> exact hused
    next =>
      repeat' split
      all_goals exact h.handOver hpage kernel staging ⟨rfl, rfl, rfl, rfl, rfl⟩

/-- The state all clients share changes for a submission only with nothing in flight. -/
theorem sending (h : broker.Flow (slack + 1)) (hwedged : broker.wedged = false) {settings : Settings} {kernel : Kernel}
    {client : Client} {bytes : Nat} {ready : Sending}
    (hready : broker.sending settings kernel client bytes = .ok ready) :
    ready.broker.Flow (slack + 1) ∧ ready.staging.used ≤ ready.broker.finished ∧
      ready.broker.fences.page.isSome = broker.fences.page.isSome ∧
      ((ready.tessChanges || ready.offchipChanges) = true → ready.broker.pending = []) := by
  have hsending := @sending_rec broker settings kernel client bytes
    (fun broker' => broker'.Flow (slack + 1) ∧ Steady broker broker')
    (fun _ hflow => ⟨hflow.1.reap kernel, hflow.2.trans (.reap kernel)⟩)
    (fun _ hflow => ⟨hflow.1.drain kernel, hflow.2.trans (.drain kernel)⟩) ⟨h, .refl broker⟩
  rw [hready] at hsending
  obtain ⟨_, shared, _, ⟨hshared, hsteady⟩, _, hdrained, htake⟩ := hsending
  obtain ⟨htaken, hused, hpending, hpage⟩ := hshared.takeStaging htake
  refine ⟨htaken, hused, by rw [hpage, hsteady.page], fun hchanges => ?_⟩
  rw [hpending]
  exact hshared.pending_nil (hsteady.wedged.trans hwedged)
    (List.isEmpty_iff.mp (Bool.and_eq_true_iff.mp (hdrained hchanges)).1)

theorem submit (h : broker.Flow (slack + 2)) (hslack : slack + 2 < fenceValues / 2) (settings : Settings)
    (kernel : Kernel) (c : Fin 32) (message : SubmitMessage) :
    (broker.submit settings kernel c message).1.Flow (slack + 1) := by
  unfold Broker.submit
  rcases @submission_cases broker settings kernel c message with ⟨errno, heq⟩ | ⟨hwedged, ready, hready, heq⟩ <;> rw [heq]
  · exact h.less
  · obtain ⟨hflow, hpage, hsame⟩ := h.fencesReady hslack hready
    cases hresult : ready.sending settings kernel (broker.clients c) message.bytes with
    | error left =>
      have hsending := @sending_rec ready settings kernel (broker.clients c) message.bytes
        (fun broker' => broker'.Flow (slack + 2)) (fun _ hflow => hflow.reap kernel) (fun _ hflow => hflow.drain kernel) hflow
      rw [hresult] at hsending
      rcases hsending with hleft | ⟨last, hlast, hgive⟩
      · exact hleft.less
      · exact hgive ▸ hlast.less.giveUp
    | ok sending =>
      obtain ⟨hsent, hused, hsome, hchanges⟩ := hflow.sending (hsame.trans hwedged) hresult
      exact hsent.sendStaged (hsome.trans hpage) kernel _ hused hchanges

/-! #### Steps -/

theorem vrangeReserve (h : broker.Flow slack) (kernel : Kernel) (c : Fin 32) (bytes : Nat) :
    (broker.vrangeReserve kernel c bytes).1.Flow slack := by
  unfold Broker.vrangeReserve
  dsimp only
  repeat' split
  all_goals exact { h with }

theorem vrangeRelease (h : broker.Flow (slack + 1)) (hwedged : broker.wedged = false) (kernel : Kernel) (c : Fin 32)
    (address : Nat) : (broker.vrangeRelease kernel c address).1.Flow (slack + 1) := by
  have hdrained := h.drain kernel
  have hsteady : Steady broker (broker.drain kernel) := .drain kernel
  unfold Broker.vrangeRelease
  dsimp only
  generalize broker.drain kernel = drained at hdrained hsteady
  repeat' split
  · exact h
  · exact hdrained
  next hdone =>
    apply setClient
    refine hdrained.logRelease _ ?_
    exact hdrained.asked_of_drained hsteady (hsteady.wedged.trans hwedged) (by simpa using hdone)

theorem allocate (h : broker.Flow slack) (settings : Settings) (kernel : Kernel) (c : Fin 32)
    (message : AllocMessage) : (broker.allocate settings kernel c message).1.Flow slack := by
  obtain ⟨_, ⟨_, _, _, _, _, rfl⟩, heq | ⟨buffer, heq, -⟩⟩ := broker.allocate_cases settings kernel c message
  all_goals exact heq ▸ { h with }

theorem present (h : broker.Flow slack) (c : Fin 32) (link : Bool) (address bytes : Nat) (valid : Bool) :
    (broker.present c link address bytes valid).Flow slack := by
  unfold Broker.present
  dsimp only
  repeat' split
  all_goals exact { h with }

theorem choose {condition : Prop} [Decidable condition] {handle : Broker} (h : broker.Flow slack)
    (hhandle : condition → handle.Flow slack) : Flow slack (if condition then handle else broker) := by
  split
  next hcondition => exact hhandle hcondition
  next => exact h

/-- A request that a wedged broker refuses. -/
theorem requestTrusted {handle : Broker} (h : broker.Flow slack) (c : Fin 32)
    (hhandle : broker.wedged = false → handle.Flow slack) :
    (broker.request c (if broker.wedged then broker else handle)).Flow slack := by
  refine h.choose fun _ => ?_
  split
  · exact h
  next hwedged => exact hhandle (Bool.eq_false_iff.mpr hwedged)

theorem step (h : broker.Flow 2) (settings : Settings) (event : Event) : (broker.step settings event).Flow 1 := by
  have hless : broker.Flow 1 := h.less
  cases event with
  | connect c =>
    unfold Broker.step
    dsimp only
    split
    · exact hless
    · exact hless.setClient ..
  | alloc c message kernel => exact hless.requestTrusted c fun _ => hless.allocate settings kernel c message
  | free c token address bytes kernel => exact hless.choose fun _ => hless.free kernel c token address bytes
  | wake c kernel =>
    unfold Broker.step
    dsimp only
    split
    · exact hless.free ..
    · exact hless
  | submit c message kernel => exact hless.choose fun _ => h.submit (by decide) settings kernel c message
  | tess c address bytes => exact hless.choose fun _ => hless.choose fun _ => hless.setClient ..
  | offchip c granularity buffering => exact hless.choose fun _ => hless.choose fun _ => hless.setClient ..
  | vrangeReserve c bytes kernel => exact hless.requestTrusted c fun _ => hless.vrangeReserve kernel c bytes
  | vrangeRelease c address kernel =>
    exact hless.requestTrusted c fun hwedged => hless.vrangeRelease hwedged kernel c address
  | presentLink c => exact hless.choose fun _ => hless.setClient ..
  | present c link address bytes valid => exact hless.choose fun _ => hless.present ..
  | presented c link =>
    unfold Broker.step
    dsimp only
    split
    · exact hless.setClient ..
    · exact hless
  | close c live kernel => exact hless.choose fun _ => hless.close kernel c live
  | reap kernel => exact hless.reap kernel
  | away kernel => exact hless.choose fun _ => hless.drain kernel
  | complete => exact hless.complete

end Flow

/-! ### Runs -/

/-- The number drawn last is less than half of all numbers ahead of the fence page's, with two to spare. -/
def near (broker : Broker) : Bool :=
  broker.fences.page.all fun page =>
    decide (distance fenceValues broker.fences.issued page + 2 < fenceValues / 2)

/-- So it is before every event. -/
def nearAlong (settings : Settings) : Broker → List Event → Bool
  | _, [] => true
  | broker, event :: events => broker.near && nearAlong settings (broker.step settings event) events

theorem Flow.widen (h : broker.Flow 1) (hnear : broker.near = true) : broker.Flow 2 where
  __ := h
  order page hpage := by
    rw [near, hpage, Option.all_some, decide_eq_true_iff] at hnear
    exact (h.order page hpage).slacken hnear

theorem Flow.steps (h : broker.Flow 1) {settings : Settings} {events : List Event}
    (hnear : nearAlong settings broker events = true) : (events.foldl (Broker.step settings) broker).Flow 1 := by
  induction events generalizing broker with
  | nil => exact h
  | cons event events ih =>
    obtain ⟨hfirst, hrest⟩ := Bool.and_eq_true_iff.mp hnear
    exact ih ((h.widen hfirst).step settings event) hrest

/-- Nothing is released under the GPU: all that had been accepted when something was given up was finished when
it was released, and the broker had not been wedged; and until then its range is neither free nor another
buffer's. -/
structure KeptFromGpu (broker : Broker) : Prop where
  released : ∀ release ∈ broker.released,
    release.asked.accepted ≤ release.finished ∧ release.asked.wedged = false
  apart : ∀ buffer ∈ broker.unreleased, buffer.ranged = true →
    (∀ other ∈ broker.unreleased, other.ranged = true → buffer ≠ other → buffer.extent.Disjoint other.extent) ∧
      ∀ low, ∀ extent ∈ (broker.range low).free, extent.Disjoint buffer.extent

/-- In every run in which the numbers stay near the fence page's, nothing is released under the GPU. -/
theorem run_keptFromGpu (settings : Settings) (windowReserved highReserved : Bool) (events : List Event)
    (hnear : nearAlong settings (start windowReserved highReserved) events = true) :
    (run settings windowReserved highReserved events).KeptFromGpu := by
  have hflow : (run settings windowReserved highReserved events).Flow 1 := (Flow.start ..).steps hnear
  have hhanded := run_handed settings (fun low => if low then windowReserved else highReserved) events
  have hhost : (run settings windowReserved highReserved events).HostInvariant [] := hhanded.hostInvariant
  refine ⟨hflow.released, fun buffer hbuffer hranged => ⟨fun other hother hranged' hne => ?_, fun low extent hextent => ?_⟩⟩
  · exact hhost.disjoint_of_ne hbuffer hother hranged hranged' hne
  · exact hhost.free_disjoint hextent hbuffer hranged

end Broker

/-! ### Numbers drawn in vain -/

namespace Drawn

open Lost (settings)

/-- Client 0 has a page of the low window, with command words, a marker and its tessellation ring in it. -/
def client : List Event :=
  [.connect 0, .alloc 0 ⟨pageBytes, 0, 1, 0⟩ .willing, .tess 0 windowBase 4096]

def submit (kernel : Kernel) : Event :=
  .submit 0 ⟨windowBase, 4, windowBase + 8⟩ kernel

/-- The system refuses the tessellation ring. -/
def refused : Event :=
  submit { Kernel.willing with tessSet := false }

def free : Event :=
  .free 0 1 windowBase pageBytes .willing

/-- A submission, and a free that waits until the GPU has finished it. -/
theorem orderly_keptFromGpu :
    Broker.nearAlong settings (.start true true) (client ++ [submit .willing, free, .complete, .reap .willing]) = true ∧
      (Broker.run settings true true (client ++ [submit .willing, free, .complete, .reap .willing])).KeptFromGpu :=
  ⟨by decide, Broker.run_keptFromGpu settings true true _ (by decide)⟩

theorem mem_released_release (broker : Broker) (kernel : Kernel) (buffer : Buffer) (asked : Asked) :
    ⟨.buffer buffer.serial, asked, broker.finished⟩ ∈ (broker.release kernel buffer asked).released := by
  unfold Broker.release Broker.giveRange
  dsimp only
  repeat' split
  all_goals exact List.mem_cons_self

/-- A look at the page, where its number seems to have passed all that is in flight. -/
theorem reap_passed {broker : Broker} {entry : Inflight} (hpage : broker.fences.page = some 0)
    (hring : broker.fences.ring = [entry]) (hdeferred : broker.fences.deferred = []) (hdone : done entry.seq 0 = true)
    (kernel : Kernel) : broker.reap kernel =
      Broker.giveStaging { broker with fences := { broker.fences with ring := [] } } entry.staging := by
  obtain ⟨window, high, nextWindow, nextHigh, fences⟩ := broker
  obtain ⟨page, number, ring, deferred⟩ := fences
  obtain ⟨rfl, rfl, rfl⟩ := (⟨hpage, hring, hdeferred⟩ : page = some 0 ∧ ring = [entry] ∧ deferred = [])
  unfold Broker.reap
  dsimp only
  unfold Broker.retire Broker.retire Broker.giveStaging
  rw [if_pos hdone]
  split <;> rfl

/-- A free, where the page's number seems to have passed all that is in flight. -/
theorem mem_released_freeBuffer {broker : Broker} {entry : Inflight} (hpage : broker.fences.page = some 0)
    (hring : broker.fences.ring = [entry]) (hdeferred : broker.fences.deferred = []) (hwedged : broker.wedged = false)
    (hdone : done entry.seq 0 = true) (kernel : Kernel) (c : Fin 32) (buffer : Buffer) :
    ⟨.buffer buffer.serial, broker.now, broker.finished⟩ ∈ (broker.freeBuffer kernel c buffer).released := by
  have hreap := @reap_passed (broker.setClient c ((broker.clients c).discount buffer)) entry hpage hring hdeferred hdone kernel
  have hempty : ((broker.setClient c ((broker.clients c).discount buffer)).reap kernel).fences.ring = [] := by
    rw [hreap, Broker.giveStaging]
    split <;> rfl
  have hfinished : ((broker.setClient c ((broker.clients c).discount buffer)).reap kernel).finished =
      broker.finished := by
    rw [hreap, Broker.giveStaging]
    split <;> rfl
  unfold Broker.freeBuffer
  dsimp only
  rw [if_neg (by exact hwedged ▸ Bool.false_ne_true), if_pos (List.isEmpty_iff.mpr hempty)]
  have hlogged := mem_released_release ((broker.setClient c ((broker.clients c).discount buffer)).reap kernel) kernel
    buffer broker.now
  rw [hfinished] at hlogged
  exact hlogged

/-- Nothing to look for at the fence page. -/
structure Idle (broker : Broker) : Prop where
  page : broker.fences.page = some 0
  ring : broker.fences.ring = []
  deferred : broker.fences.deferred = []

namespace Idle

variable {broker : Broker} {kernel : Kernel}

theorem reap_eq (h : Idle broker) : broker.reap kernel = broker := by
  obtain ⟨window, high, nextWindow, nextHigh, fences⟩ := broker
  obtain ⟨page, number, ring, deferred⟩ := fences
  obtain ⟨rfl, rfl, rfl⟩ := h
  rfl

theorem drain_eq (h : Idle broker) (hprogress : kernel.progress = []) : broker.drain kernel = broker := by
  unfold Broker.drain
  rw [hprogress, List.foldl_nil, h.reap_eq]

/-- A submission goes on with its staging: a spare, or a new one. -/
theorem sending (h : Idle broker) (hprogress : kernel.progress = []) (hmade : kernel.stagingMade = true)
    (settings : Settings) (client : Client) (bytes : Nat) : ∃ staging taken,
      ((∃ spares spareBytes, taken = { broker.logRelease (.staging staging.serial) ⟨staging.used, false⟩ with
        fences := { broker.fences with spares, spareBytes } }) ∨ taken = { broker with made := broker.made + 1 }) ∧
      broker.sending settings kernel client bytes = .ok ⟨taken,
        decide (client.tess ≠ 0 ∧ (client.tess ≠ broker.fences.tess ∨ client.tessBytes ≠ broker.fences.tessBytes)),
        client.offchip && (!broker.fences.offchip ||
          decide (client.granularity ≠ broker.fences.granularity ∨ client.buffering ≠ broker.fences.buffering)),
        staging⟩ := by
  have hfull : decide (broker.fences.ring.length = ringEntries) = false := by
    rw [h.ring]
    decide
  have hdrained : broker.drained = true := by simp [Broker.drained, h.ring, h.deferred]
  have hif : ∀ condition : Bool, (if condition then broker else broker) = broker := fun condition => ite_id broker
  unfold Broker.sending
  simp only [h.reap_eq, h.drain_eq hprogress, hfull, hif, hdrained, Bool.not_true, Bool.and_false, Bool.false_eq_true,
    if_false]
  unfold Broker.takeStaging
  cases stagingTake (stagingRound (bytes + settings.stampBytes + 32)) broker.fences.spares with
  | some found => exact ⟨found.1, _, .inl ⟨_, _, rfl⟩, rfl⟩
  | none =>
    simp only [hmade, if_true]
    exact ⟨_, _, .inr rfl, rfl⟩

end Idle

/-- A broker that has drawn so many numbers, and in which nothing was ever accepted. -/
structure Vain (issued : Nat) (broker : Broker) : Prop where
  client : broker.clients 0 = (Broker.run settings true true client).clients 0
  wedged : broker.wedged = false
  finished : broker.finished = 0
  pending : broker.pending = []
  page : broker.fences.page = some 0
  issued : broker.fences.issued = issued
  ring : broker.fences.ring = []
  deferred : broker.fences.deferred = []
  tess : broker.fences.tess = 0

namespace Vain

variable {broker : Broker} {issued : Nat} {kernel : Kernel}

theorem first : Vain 1 (Broker.run settings true true (Drawn.client ++ [refused])) :=
  ⟨by decide, by decide, by decide, by decide, by decide, by decide, by decide, by decide, by decide⟩

/-- The words go to the call, after a drain that has nothing to do. -/
theorem submit_eq (h : Vain issued broker) (hprogress : kernel.progress = []) (hmade : kernel.stagingMade = true) :
    ∃ staging taken, Vain issued taken ∧ broker.step settings (submit kernel) =
      (taken.sendStaged kernel (broker.clients 0) true false staging).1 := by
  have hrequest : broker.step settings (submit kernel) =
      (broker.submit settings kernel 0 ⟨windowBase, 4, windowBase + 8⟩).1 :=
    if_pos (h.client ▸ by decide)
  have hsubmission : broker.submission settings kernel 0 ⟨windowBase, 4, windowBase + 8⟩ =
      broker.sending settings kernel (broker.clients 0) 4 := by
    have hready : broker.fencesReady kernel = some broker := if_pos (by simp [h.page])
    unfold Broker.submission
    dsimp only
    rw [if_neg (by rw [h.client]; decide), if_neg (by simp [h.wedged]), hready]
  have htess : decide ((broker.clients 0).tess ≠ 0 ∧ ((broker.clients 0).tess ≠ broker.fences.tess ∨
      (broker.clients 0).tessBytes ≠ broker.fences.tessBytes)) = true := by
    have hset : (broker.clients 0).tess ≠ 0 := by
      rw [h.client]
      decide
    simp [h.tess, hset]
  have hoffchip : (broker.clients 0).offchip = false := by
    rw [h.client]
    decide
  obtain ⟨staging, taken, htake, hsending⟩ :=
    Idle.sending ⟨h.page, h.ring, h.deferred⟩ hprogress hmade settings (broker.clients 0) 4
  rw [hrequest, Broker.submit, hsubmission, hsending, htess, hoffchip]
  refine ⟨staging, taken, ?_, rfl⟩
  rcases htake with ⟨spares, spareBytes, rfl⟩ | rfl
  · exact { h with }
  · exact { h with }

theorem refuse (h : Vain issued broker) (hissued : issued + 1 < fenceValues) :
    Vain (issued + 1) (broker.step settings refused) := by
  obtain ⟨staging, taken, htaken, hstep⟩ := @submit_eq _ _ { Kernel.willing with tessSet := false } h rfl rfl
  have hnext : next fenceValues taken.fences.issued = issued + 1 := by
    rw [htaken.issued]
    exact if_neg (by unfold fenceValues at *; omega)
  have hdrawn : Vain (issued + 1) { taken with
      fences := { taken.fences with issued := next fenceValues taken.fences.issued } } :=
    { htaken with issued := hnext }
  have hsent : taken.sendStaged { Kernel.willing with tessSet := false } (broker.clients 0) true false staging =
      (Broker.giveStaging { taken with
        fences := { taken.fences with issued := next fenceValues taken.fences.issued } } staging, .error .io) := rfl
  rw [refused, hstep, hsent]
  unfold Broker.giveStaging
  split <;> exact { hdrawn with }

/-- The next number is half of all ahead, and a submission is in flight under it. -/
structure Overtaken (broker : Broker) : Prop where
  client : broker.clients 0 = (Broker.run settings true true Drawn.client).clients 0
  wedged : broker.wedged = false
  finished : broker.finished = 0
  pending : broker.pending = [fenceValues / 2]
  page : broker.fences.page = some 0
  ring : ∃ staging, broker.fences.ring = [⟨fenceValues / 2, staging⟩]
  deferred : broker.fences.deferred = []
  tess : broker.fences.tessBytes = 4096

theorem accept (h : Vain issued broker) (hissued : issued + 1 = fenceValues / 2) :
    Overtaken (broker.step settings (submit .willing)) := by
  obtain ⟨staging, taken, htaken, hstep⟩ := @submit_eq _ _ .willing h rfl rfl
  have hnext : next fenceValues taken.fences.issued = fenceValues / 2 := by
    rw [htaken.issued, ← hissued]
    exact if_neg (by unfold fenceValues at *; omega)
  have hsent : (taken.sendStaged .willing (broker.clients 0) true false staging).1 = { taken with
      fences := { taken.fences with
        issued := next fenceValues taken.fences.issued
        tess := (broker.clients 0).tess
        tessBytes := (broker.clients 0).tessBytes
        ring := taken.fences.ring ++
          [⟨next fenceValues taken.fences.issued, { staging with used := taken.accepted + 1 }⟩] }
      pending := taken.pending ++ [next fenceValues taken.fences.issued] } := rfl
  rw [hstep, hsent, hnext, htaken.ring, htaken.pending, h.client]
  have hbytes : ((Broker.run settings true true Drawn.client).clients 0).tessBytes = 4096 := by decide
  exact { htaken with pending := rfl, ring := ⟨_, rfl⟩, tess := hbytes }

/-- A free of the submission's own buffer releases it at once. -/
theorem Overtaken.release {sent : Broker} (h : Overtaken sent) :
    ⟨.buffer 0, ⟨1, false⟩, 0⟩ ∈ (sent.step settings free).released := by
  have hrequest : sent.step settings free = sent.free .willing 0 1 windowBase pageBytes :=
    if_pos (h.client ▸ by decide)
  have htake : takeSlot 1 windowBase pageBytes (sent.clients 0).slots =
      some (⟨windowBase, pageBytes, 1, false, true, 0, true, 0⟩, [none]) := by
    rw [h.client]
    decide
  have hpin : (sent.clients 0).pinned ⟨windowBase, pageBytes, 1, false, true, 0, true, 0⟩ = false := by
    rw [h.client]
    decide
  rw [hrequest]
  unfold Broker.free
  simp only [htake, hpin, Bool.false_eq_true, if_false]
  have hnow : sent.now = ⟨1, false⟩ := by simp [Broker.now, Broker.accepted, h.finished, h.pending, h.wedged]
  have hlog : (⟨.buffer 0, ⟨1, false⟩, 0⟩ : Release) = ⟨.buffer 0, sent.now, sent.finished⟩ := by rw [hnow, h.finished]
  obtain ⟨staging, hring⟩ := h.ring
  have hdone : done (fenceValues / 2) 0 = true := by decide
  rw [hlog]
  exact @mem_released_freeBuffer (sent.setClient 0 _) _ h.page hring h.deferred h.wedged hdone ..

end Vain

/-- So many submissions are refused in a row. -/
def vain (count : Nat) : List Event :=
  client ++ List.replicate count refused

theorem run_vain {count : Nat} (hpos : 1 ≤ count) (hcount : count < fenceValues) :
    Vain count (Broker.run settings true true (vain count)) := by
  induction count, hpos using Nat.le_induction with
  | base => exact .first
  | succ count hpos ih =>
    have hlast : vain (count + 1) = vain count ++ [refused] := by
      simp [vain, List.replicate_succ']
    rw [hlast]
    unfold Broker.run
    rw [List.foldl_append]
    exact (ih (Nat.lt_of_succ_lt hcount)).refuse hcount

theorem run_released {count : Nat} (hpos : 1 ≤ count) (hcount : count + 1 = fenceValues / 2) :
    ⟨.buffer 0, ⟨1, false⟩, 0⟩ ∈ (Broker.run settings true true (vain count ++ [submit .willing, free])).released := by
  have hvain := run_vain hpos (by unfold fenceValues at *; omega)
  unfold Broker.run at hvain ⊢
  rw [List.foldl_append, List.foldl_cons, List.foldl_cons, List.foldl_nil]
  exact (hvain.accept hcount).release

/-- 2^31 - 1 submissions are refused, one is accepted, and a free releases the buffer it uses while the GPU has
not finished it. -/
theorem buffer_released_under_gpu :
    ⟨.buffer 0, ⟨1, false⟩, 0⟩ ∈
        (Broker.run settings true true (vain (2 ^ 31 - 1) ++ [submit .willing, free])).released ∧
      ¬(Broker.run settings true true (vain (2 ^ 31 - 1) ++ [submit .willing, free])).KeptFromGpu := by
  have hreleased := @run_released (2 ^ 31 - 1) (by decide) (by decide)
  exact ⟨hreleased, fun hkept => absurd (hkept.released _ hreleased).1 (by decide)⟩

end Drawn

end Ps5Vulkan.GpuBroker
