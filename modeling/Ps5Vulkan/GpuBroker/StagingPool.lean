import Ps5Vulkan.GpuBroker.Moves
import Ps5Vulkan.GpuBroker.Releases

/-!
# Staging buffers

A submission's words are copied into a staging buffer of the size they round up to: a spare one
(`ps5_gpu_staging_take`), or a new one. Once the fence has passed it, or where the submission is not made after all,
the buffer is a spare again, or is freed past the spares' budget (`ps5_gpu_staging_give`). A submission whose call
failed keeps its buffer, and nothing is submitted any more. `Pool` has the spares and every buffer in use, with what
was freed and, for each size, the most that were in use at once.
-/

namespace Ps5Vulkan.GpuBroker

structure Pool where
  spares : List Staging
  spareBytes : Nat
  /-- The buffer of the submission that is being made. -/
  hand : Option Staging
  ring : List Staging
  kept : List Staging
  /-- The serial numbers of the buffers made, and of those freed. -/
  made : List Nat
  freed : List Nat
  peak : Nat → Nat

inductive PoolEvent
  /-- A submission takes its staging; the number of a new buffer, if one can be made. -/
  | take (need : Nat) (serial : Option Nat)
  | handOver (used : Nat)
  /-- The state all clients share was refused: the submission is not made. -/
  | refuse
  /-- The submission call failed. -/
  | fail
  /-- The fence has passed the oldest submission. -/
  | retire
  /-- `fences_reset`, after a drain. -/
  | reset
  deriving DecidableEq, Repr

namespace Pool

def start : Pool :=
  ⟨[], 0, none, [], [], [], [], fun _ => 0⟩

variable (pool : Pool)

def inUse : List Staging :=
  pool.hand.toList ++ pool.ring ++ pool.kept

/-- The buffers there are. -/
def all : List Staging :=
  pool.inUse ++ pool.spares

def give (staging : Staging) : Pool :=
  if pool.spares.length = stagingSpares ∨ stagingBudget < pool.spareBytes + staging.bytes then
    { pool with freed := staging.serial :: pool.freed }
  else { pool with spares := pool.spares ++ [staging], spareBytes := pool.spareBytes + staging.bytes }

def take (need : Nat) (serial : Option Nat) : Pool :=
  match stagingTake (stagingRound need) pool.spares with
  | some (staging, spares) => { pool with hand := some staging, spares, spareBytes := pool.spareBytes - staging.bytes }
  | none =>
    match serial with
    | some serial =>
      if serial ∈ pool.made then pool
      else { pool with hand := some ⟨stagingRound need, serial, 0⟩, made := serial :: pool.made }
    | none => pool

def move : PoolEvent → Pool
  | .take need serial => if pool.hand.isNone ∧ pool.kept = [] then pool.take need serial else pool
  | .handOver used =>
    { pool with hand := none, ring := pool.ring ++ pool.hand.toList.map fun staging => { staging with used } }
  | .refuse => pool.hand.elim pool fun staging => ({ pool with hand := none } : Pool).give staging
  | .fail => { pool with hand := none, kept := pool.kept ++ pool.hand.toList }
  | .retire =>
    match pool.ring with
    | [] => pool
    | staging :: ring => ({ pool with ring } : Pool).give staging
  | .reset =>
    if pool.inUse = [] then
      { pool with spares := [], spareBytes := 0, freed := pool.spares.map Staging.serial ++ pool.freed }
    else pool

/-- How many of the buffers have the size. -/
def count (size : Nat) (stagings : List Staging) : Nat :=
  stagings.countP fun staging => staging.bytes = size

def step (event : PoolEvent) : Pool :=
  { pool.move event with peak := fun size => max (pool.peak size) (count size (pool.move event).inUse) }

def run (events : List PoolEvent) : Pool :=
  events.foldl step start

end Pool

/-! ### Sizes -/

theorem le_stagingRound (need : Nat) : need ≤ stagingRound need := by
  unfold stagingRound
  split
  · exact le_roundUp (by decide)
  next hsmall =>
    have hlast : ∃ bytes ∈ (List.range 6).map fun k => stagingMin * 2 ^ k, decide (need ≤ bytes) = true :=
      ⟨stagingLarge, by decide, decide_eq_true (Nat.not_lt.mp hsmall)⟩
    obtain ⟨bytes, hfind⟩ := Option.isSome_iff_exists.mp (List.find?_isSome.mpr hlast)
    have hle := List.find?_some hfind
    rw [hfind]
    exact of_decide_eq_true hle

theorem stagingTake_bytes {bytes : Nat} {spares rest : List Staging} {staging : Staging}
    (h : stagingTake bytes spares = some (staging, rest)) : staging.bytes = bytes := by
  induction spares generalizing rest with
  | nil => cases h
  | cons spare spares ih =>
    simp only [stagingTake] at h
    split at h
    next hbytes =>
      obtain ⟨rfl, -⟩ := Prod.mk.inj (Option.some.inj h)
      exact hbytes
    next =>
      obtain ⟨found, hfound, heq⟩ := Option.map_eq_some_iff.mp h
      obtain ⟨rfl, -⟩ := Prod.mk.inj heq
      exact ih hfound

theorem count_of_stagingTake_none {bytes : Nat} {spares : List Staging} (h : stagingTake bytes spares = none) :
    Pool.count bytes spares = 0 := by
  induction spares with
  | nil => rfl
  | cons spare spares ih =>
    simp only [stagingTake] at h
    split at h
    · cases h
    next hbytes =>
      rw [Pool.count, List.countP_cons_of_neg (by simpa using hbytes)]
      exact ih (Option.map_eq_none_iff.mp h)

/-! ### Runs -/

namespace Pool

variable {pool : Pool} {stagings stagings' : List Staging} {staging : Staging}

/-- What holds of a pool in which these are the buffers. -/
structure Sound (pool : Pool) (stagings : List Staging) : Prop where
  serials : (pool.freed ++ stagings.map Staging.serial).Perm pool.made
  once : pool.made.Nodup
  bytes : pool.spareBytes = (pool.spares.map Staging.bytes).sum
  budget : pool.spareBytes ≤ stagingBudget
  sizes : ∀ size, count size stagings ≤ pool.peak size

theorem Sound.perm (h : pool.Sound stagings) (hperm : stagings'.Perm stagings) : pool.Sound stagings' where
  serials := ((hperm.map _).append_left _).trans h.serials
  once := h.once
  bytes := h.bytes
  budget := h.budget
  sizes size := (hperm.countP_eq _).trans_le (h.sizes size)

/-- A buffer nobody uses becomes a spare or is freed. -/
theorem Sound.give (h : pool.Sound (staging :: pool.all)) : (pool.give staging).Sound (pool.give staging).all := by
  unfold Pool.give
  split
  · refine ⟨.trans ?_ h.serials, h.once, h.bytes, h.budget, fun size => (List.Sublist.countP_le ?_).trans (h.sizes size)⟩
    · exact List.perm_middle.symm
    · exact List.sublist_cons_self ..
  next hroom =>
    refine Sound.perm ⟨h.serials, h.once, ?_, Nat.not_lt.mp fun hover => hroom (.inr hover), h.sizes⟩ ?_
    · simp [h.bytes]
    · refine .trans (.of_eq ?_) (List.perm_append_singleton staging pool.all)
      simp [all, inUse, List.append_assoc]

theorem all_eq (hhand : pool.hand = some staging) : pool.all = staging :: ({ pool with hand := none } : Pool).all := by
  simp [all, inUse, hhand]

/-- The peaks after a move: as many of a size as ever, or as are in use now. -/
def noted (before after : Pool) : Pool :=
  { after with peak := fun size => max (before.peak size) (count size after.inUse) }

theorem Sound.noted {after : Pool} (h : after.Sound after.all) (hpeak : after.peak = pool.peak) :
    (pool.noted after).Sound after.all :=
  ⟨h.serials, h.once, h.bytes, h.budget, fun size => (h.sizes size).trans (hpeak ▸ Nat.le_max_left ..)⟩

theorem peak_give (pool : Pool) (staging : Staging) : (pool.give staging).peak = pool.peak := by
  unfold Pool.give
  split <;> rfl

/-- A new buffer is made only while every buffer of its size is in use. -/
theorem Sound.take (h : pool.Sound pool.all) (hhand : pool.hand = none) (need : Nat) (serial : Option Nat) :
    (pool.noted (pool.take need serial)).Sound (pool.take need serial).all := by
  have hall : pool.all = pool.ring ++ pool.kept ++ pool.spares := by simp [all, inUse, hhand]
  unfold Pool.take
  split
  next staging spares htake =>
    have hperm := Broker.Flow.stagingTake_perm htake
    have hsum := (hperm.map Staging.bytes).sum_nat
    rw [List.map_cons, List.sum_cons, ← h.bytes] at hsum
    refine Sound.noted (Sound.perm ⟨h.serials, h.once, by dsimp only; omega, ?_, h.sizes⟩ ?_) rfl
    · exact (Nat.sub_le ..).trans h.budget
    · rw [hall]
      refine .trans (.of_eq ?_) ((hperm.append_left _).trans List.perm_middle).symm
      simp [all, inUse]
  next hnone =>
    repeat' split
    · exact h.noted rfl
    next serial hfresh =>
      have hnew : ({ pool with hand := some ⟨stagingRound need, serial, 0⟩, made := serial :: pool.made } :
          Pool).all = ⟨stagingRound need, serial, 0⟩ :: pool.all := by
        rw [hall]
        simp [all, inUse]
      rw [hnew]
      refine ⟨List.perm_middle.trans (h.serials.cons _), h.once.cons hfresh, h.bytes, h.budget, fun size => ?_⟩
      by_cases hsize : stagingRound need = size
      · refine .trans (Nat.le_of_eq ?_) (Nat.le_max_right ..)
        subst hsize
        have hspares := count_of_stagingTake_none hnone
        simp only [count] at hspares
        simp [hall, count, inUse, hspares, Nat.add_comm]
      · refine .trans (.trans (Nat.le_of_eq ?_) (h.sizes size)) (Nat.le_max_left ..)
        exact List.countP_cons_of_neg (by simpa using hsize)
    · exact h.noted rfl

theorem Sound.step (h : pool.Sound pool.all) (event : PoolEvent) : (pool.step event).Sound (pool.step event).all := by
  change (pool.noted (pool.move event)).Sound (pool.move event).all
  cases event with
  | take need serial =>
    unfold Pool.move
    dsimp only
    split
    next hfree => exact h.take (Option.isNone_iff_eq_none.mp hfree.1) need serial
    next => exact h.noted rfl
  | handOver used =>
    refine Sound.noted ?_ rfl
    cases hhand : pool.hand with
    | none =>
      refine Sound.perm ⟨h.serials, h.once, h.bytes, h.budget, h.sizes⟩ (.of_eq ?_)
      simp [Pool.move, all, inUse, hhand]
    | some staging =>
      rw [all_eq hhand] at h
      have hused : pool.Sound ({ staging with used } :: ({ pool with hand := none } : Pool).all) :=
        ⟨h.serials, h.once, h.bytes, h.budget, h.sizes⟩
      refine Sound.perm ⟨hused.serials, hused.once, hused.bytes, hused.budget, hused.sizes⟩ ?_
      simp only [Pool.move, hhand, all, inUse, Option.toList_some, Option.toList_none, List.map_cons, List.map_nil,
        List.nil_append, List.append_assoc, List.singleton_append]
      exact List.perm_middle
  | refuse =>
    cases hhand : pool.hand with
    | none => simpa only [Pool.move, hhand, Option.elim_none] using h.noted rfl
    | some staging =>
      simp only [Pool.move, hhand, Option.elim_some]
      refine Sound.noted (Sound.give ?_) (peak_give ..)
      rw [all_eq hhand] at h
      exact ⟨h.serials, h.once, h.bytes, h.budget, h.sizes⟩
  | fail =>
    refine Sound.noted (Sound.perm ⟨h.serials, h.once, h.bytes, h.budget, h.sizes⟩ (.append_right _ ?_)) rfl
    refine .trans (.of_eq ?_) (List.perm_append_comm.trans (.of_eq (List.append_assoc ..).symm))
    simp [Pool.move, inUse]
  | retire =>
    unfold Pool.move
    dsimp only
    split
    · exact h.noted rfl
    next staging ring hring =>
      refine Sound.noted (Sound.give (Sound.perm ⟨h.serials, h.once, h.bytes, h.budget, h.sizes⟩ ?_)) (peak_give ..)
      simp only [all, inUse, hring, List.append_assoc, List.cons_append]
      exact List.perm_middle.symm
  | reset =>
    unfold Pool.move
    dsimp only
    split
    next hidle =>
      have hall : pool.all = pool.spares := by rw [all, hidle, List.nil_append]
      refine Sound.noted (@Sound.perm _ [] _ ⟨.trans ?_ h.serials, h.once, rfl, Nat.zero_le _, fun _ => Nat.zero_le _⟩
        (.of_eq ((List.append_nil _).trans hidle))) rfl
      rw [hall, List.map_nil, List.append_nil]
      exact List.perm_append_comm
    next => exact h.noted rfl

theorem run_sound (events : List PoolEvent) : (run events).Sound (run events).all :=
  List.foldlRecOn (motive := fun pool : Pool => pool.Sound pool.all) events _ ⟨.nil, .nil, rfl, Nat.zero_le _, fun _ => Nat.le_refl _⟩
    fun _ h event _ => h.step event

/-- Over every run: a size has never more buffers than were once in use together, the spares stay within 32 MiB
and are counted, no buffer is twice among the spares and those in use, what a submission takes holds its words, and
every buffer made is either there or was freed once; after a clean stop none is there. -/
theorem run_bounded (events : List PoolEvent) :
    (∀ size, count size (run events).all ≤ (run events).peak size) ∧
      (run events).spareBytes = ((run events).spares.map Staging.bytes).sum ∧
      (run events).spareBytes ≤ 32 * 2 ^ 20 ∧
      ((run events).all.map Staging.serial).Nodup ∧
      (∀ need serial staging, (run events).hand = none →
        (run (events ++ [.take need serial])).hand = some staging → need ≤ staging.bytes) ∧
      (run events).made.Nodup ∧ ((run events).freed ++ (run events).all.map Staging.serial).Perm (run events).made ∧
      ((run events).inUse = [] → (run (events ++ [.reset])).freed.Perm (run events).made) := by
  have hsound := run_sound events
  have hnodup := (hsound.serials.nodup_iff.mpr hsound.once).of_append_right
  refine ⟨hsound.sizes, hsound.bytes, hsound.budget, hnodup, fun need serial staging hhand htaken => ?_, hsound.once,
    hsound.serials, fun hidle => ?_⟩
  · rw [run, List.foldl_append] at htaken
    change ((run events).move (.take need serial)).hand = some staging at htaken
    unfold Pool.move Pool.take at htaken
    dsimp only at htaken
    repeat' split at htaken
    next htake =>
      rw [← Option.some.inj htaken, stagingTake_bytes htake]
      exact le_stagingRound need
    rotate_left
    next =>
      rw [← Option.some.inj htaken]
      exact le_stagingRound need
    all_goals
      rw [hhand] at htaken
      cases htaken
  · have hreset : run (events ++ [.reset]) = (run events).step .reset := by rw [run, List.foldl_append]; rfl
    have hafter := (run_sound (events ++ [.reset])).serials
    have hall : (run (events ++ [.reset])).all = [] := by
      rw [hreset]
      change ((run events).move .reset).all = []
      rw [Pool.move, if_pos hidle]
      exact (List.append_nil _).trans hidle
    have hmade : (run (events ++ [.reset])).made = (run events).made := by
      rw [hreset]
      change ((run events).move .reset).made = _
      rw [Pool.move, if_pos hidle]
    rwa [hall, List.map_nil, List.append_nil, hmade] at hafter

end Pool

/-! ### The broker's staging -/

namespace Broker

/-- The pool is the broker's staging, with the buffer of a submission that is being made. -/
structure Stages (hand : Option Staging) (broker : Broker) (pool : Pool) : Prop where
  spares : pool.spares = broker.fences.spares
  bytes : pool.spareBytes = broker.fences.spareBytes
  ring : pool.ring = broker.fences.ring.map Inflight.staging
  hand : pool.hand = hand
  made : ∀ serial ∈ pool.made, serial < broker.made
  kept : broker.wedged = false → pool.kept = []

/-- Some events of the pool lead to one that is the broker's. -/
def StagesAfter (pool : Pool) (broker : Broker) : Prop :=
  ∃ events : List PoolEvent, broker.Stages none (events.foldl Pool.step pool)

variable {hand : Option Staging} {broker broker' : Broker} {pool : Pool} {settings : Settings} {kernel : Kernel}

theorem Stages.give (h : broker.Stages hand pool) (staging : Staging) :
    (broker.giveStaging staging).Stages hand (pool.give staging) := by
  unfold giveStaging Pool.give
  rw [h.spares, h.bytes]
  split <;> exact { h with spares := rfl, bytes := rfl }

theorem StagesAfter.step (events : List PoolEvent) (event : PoolEvent)
    (h : broker.Stages none ((events.foldl Pool.step pool).move event)) : StagesAfter pool broker := by
  refine ⟨events ++ [event], ?_⟩
  rw [List.foldl_append]
  exact { h with }

theorem StagesAfter.moves (h : StagesAfter pool broker) (hmoves : Moves broker broker') : StagesAfter pool broker' := by
  induction hmoves with
  | refl => exact h
  | tail _ hmove ih =>
    obtain ⟨events, ih⟩ := ih
    cases hmove with
    | accounts hfences _ _ hmade hwedged =>
      exact ⟨events, hfences ▸ ih.spares, hfences ▸ ih.bytes, hfences ▸ ih.ring, ih.hand,
        fun serial hserial => (ih.made serial hserial).trans_le hmade, fun h => ih.kept (hwedged h)⟩
    | complete =>
      refine ⟨events, ?_⟩
      unfold complete
      split <;> exact { ih with }
    | @retire entry ring hring =>
      have hpool := ih.ring
      rw [hring, List.map_cons] at hpool
      refine .step events .retire ?_
      simp only [Pool.move, hpool]
      refine Stages.give ?_ entry.staging
      exact { ih with ring := rfl }
    | defer => exact ⟨events, { ih with }⟩

/-- A submission's staging is the pool's. -/
theorem Stages.take (h : broker.Stages none pool) (hwedged : broker.wedged = false) {need : Nat} {staging : Staging}
    {taken : Broker} (htake : broker.takeStaging kernel need = some (staging, taken)) :
    taken.Stages (some staging) (pool.step (.take need (some broker.made))) := by
  have hfree : pool.hand.isNone ∧ pool.kept = [] := ⟨by rw [h.hand]; rfl, h.kept hwedged⟩
  have hfresh : broker.made ∉ pool.made := fun hmade => (h.made _ hmade).false
  unfold takeStaging at htake
  unfold Pool.step Pool.move
  dsimp only
  rw [if_pos hfree, Pool.take, h.spares]
  cases hfound : stagingTake (stagingRound need) broker.fences.spares with
  | some found =>
    rw [hfound] at htake
    obtain ⟨rfl, rfl⟩ := Prod.mk.inj (Option.some.inj htake)
    exact { h with spares := rfl, bytes := by rw [← h.bytes], hand := rfl }
  | none =>
    rw [hfound] at htake
    dsimp only at htake
    split at htake
    · obtain ⟨rfl, rfl⟩ := Prod.mk.inj (Option.some.inj htake)
      dsimp only
      rw [if_neg hfresh]
      refine { h with spares := rfl, hand := rfl, made := fun serial hserial => ?_ }
      exact (List.mem_cons.mp hserial).elim (fun heq => heq ▸ Nat.lt_succ_self _)
        fun hmem => Nat.lt_succ_of_lt (h.made serial hmem)
    · cases htake

section Send

variable {events : List PoolEvent} {staging : Staging} (h : broker.Stages (some staging) (events.foldl Pool.step pool))

include h

theorem Stages.refuse : StagesAfter pool (broker.giveStaging staging) := by
  refine .step events .refuse ?_
  simp only [Pool.move, h.hand, Option.elim_some]
  refine Stages.give ?_ staging
  exact { h with hand := rfl }

theorem Stages.handOver (seq : Nat) : StagesAfter pool (broker.handOver kernel staging seq).1 := by
  unfold Broker.handOver
  split
  · refine .step events (.handOver (broker.accepted + 1)) { h with ring := ?_, hand := rfl }
    simp [Pool.move, h.ring, h.hand, accepted]
  · exact .step events .fail { h with hand := rfl, kept := fun h => by cases h }

theorem Stages.send (client : Client) (tessChanges offchipChanges : Bool) :
    StagesAfter pool (broker.sendStaged kernel client tessChanges offchipChanges staging).1 := by
  unfold sendStaged
  dsimp only
  split
  · exact Stages.refuse { h with }
  · split
    · split <;> exact Stages.refuse { h with }
    · repeat' split
      all_goals
        apply Stages.handOver
        exact { h with }

end Send

/-- Whatever a step does to the broker's staging, events of the pool do. -/
theorem Stages.step (h : broker.Stages none pool) (settings : Settings) (event : Event) :
    StagesAfter pool (broker.step settings event) := by
  have hsame : StagesAfter pool broker := ⟨[], h⟩
  cases event with
  | submit c message kernel =>
    unfold Broker.step request
    dsimp only
    split
    · unfold submit
      rcases @submission_cases broker settings kernel c message with ⟨errno, heq⟩ | ⟨hwedged, ready, hready, heq⟩ <;> rw [heq]
      · exact hsame
      · have hstaged : StagesAfter pool ready ∧ ready.wedged = false := by
          unfold fencesReady at hready
          repeat' split at hready
          · exact Option.some.inj hready ▸ ⟨hsame, hwedged⟩
          · exact Option.some.inj hready ▸ ⟨⟨[], { h with }⟩, hwedged⟩
          · cases hready
        have hsending := @sending_rec ready settings kernel (broker.clients c) message.bytes
          (fun broker' => StagesAfter pool broker' ∧ broker'.wedged = false)
          (fun _ h => ⟨h.1.moves (.reap kernel), (Steady.reap kernel).wedged.trans h.2⟩)
          (fun _ h => ⟨h.1.moves (.drain kernel), (Steady.drain kernel).wedged.trans h.2⟩) hstaged
        generalize ready.sending settings kernel (broker.clients c) message.bytes = result at hsending
        cases result with
        | error left =>
          obtain ⟨left, errno⟩ := left
          rcases hsending with hleft | ⟨last, hlast, rfl⟩
          · exact hleft.1
          · exact hlast.1.moves (.accounts rfl rfl rfl le_rfl nofun)
        | ok sending =>
          obtain ⟨_, shared, _, ⟨⟨events, hshared⟩, hfree⟩, _, _, htake⟩ := hsending
          have htaken := hshared.take hfree htake
          exact @Stages.send _ _ kernel (events ++ [_]) _ (by rw [List.foldl_append]; exact htaken) ..
    · exact hsame
  | _ => exact hsame.moves (step_moves settings broker rfl)

/-- The staging of every run of the broker is that of a run of the pool. -/
theorem run_stages (settings : Settings) (windowReserved highReserved : Bool) (events : List Event) :
    StagesAfter .start (run settings windowReserved highReserved events) := by
  refine List.foldlRecOn (motive := fun broker : Broker => StagesAfter .start broker) events _
    ⟨[], rfl, rfl, rfl, rfl, nofun, fun _ => rfl⟩ fun broker hbroker event _ => ?_
  obtain ⟨before, h⟩ := hbroker
  obtain ⟨later, hlater⟩ := h.step settings event
  exact ⟨before ++ later, List.foldl_append ▸ hlater⟩

end Broker

end Ps5Vulkan.GpuBroker
