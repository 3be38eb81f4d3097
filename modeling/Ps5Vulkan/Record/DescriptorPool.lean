import Ps5Vulkan.Library.Ledger
import Ps5Vulkan.Record.Descriptors

/-!
# Descriptor pools

A pool counts the descriptors of each type that no set holds, and the sets it holds
(`ps5vk_descriptor_set.c`). An application allocates sets, several in a call, frees some of them and
resets the pool, in any order. The counters are of 32 bits, and the check before a set is taken looks
at each binding of its layout on its own: a layout with several bindings of a type can take more than
is left.

## Implementation notes

Whether the host has memory for a set, and the handle the set gets, are answers of the allocator, one
for each set of a call. Nothing asks that the handles differ.
-/

namespace Ps5Vulkan.Record

/-- The bindings of a set layout, by binding number. -/
abbrev SetLayout := List LayoutBinding

/-- `VkDescriptorPoolCreateInfo`. -/
structure PoolInfo where
  flags : UInt32
  maxSets : UInt32
  poolSizes : List (DescriptorType × UInt32)

/-- The entries a pool is created with, as the application named them: a type named twice has two. -/
def PoolInfo.sizes (info : PoolInfo) : Ledger DescriptorType :=
  info.poolSizes.map fun size => ⟨size.1, size.2⟩

/-- `struct ps5vk_descriptor_pool`, its sets newest first. -/
structure DescriptorPool where
  sets : List DescriptorSet
  setCount : UInt32
  maxSets : UInt32
  sizes : Ledger DescriptorType
  deriving DecidableEq, Repr

/-- `ps5vk_CreateDescriptorPool`. Freeing sets is the only flag it knows. -/
def createDescriptorPool (info : PoolInfo) : Option DescriptorPool :=
  if info.flags &&& ~~~1 ≠ 0 then none
  else some ⟨[], 0, info.maxSets, info.sizes⟩

/-- `ps5vk_descriptor_pool_has`. -/
def poolHas (sizes : Ledger DescriptorType) (layout : SetLayout) : Bool :=
  layout.all fun binding =>
    binding.count = 0 ||
      match Ledger.find sizes binding.type with
      | none => false
      | some size => ¬ size.remaining.toNat < binding.count

/-- The walk over a layout's bindings that taking and returning descriptors share. -/
def poolMove (amount : Nat → UInt32) (sizes : Ledger DescriptorType) (layout : SetLayout) :
    Ledger DescriptorType :=
  layout.foldl (fun sizes binding =>
    if binding.count ≠ 0 then Ledger.add sizes binding.type (amount binding.count) else sizes) sizes

/-- `ps5vk_descriptor_pool_take`. -/
def poolTake : Ledger DescriptorType → SetLayout → Ledger DescriptorType :=
  poolMove fun count => -UInt32.ofNat count

/-- `ps5vk_descriptor_pool_give`. -/
def poolGive : Ledger DescriptorType → SetLayout → Ledger DescriptorType :=
  poolMove UInt32.ofNat

namespace DescriptorPool

variable (pool : DescriptorPool)

/-- `ps5vk_descriptor_set_release`, of a set that is unlinked. -/
def setRelease (set : DescriptorSet) : DescriptorPool :=
  { pool with sizes := poolGive pool.sizes set.layout }

/-- The first set of a list with a handle, and the list without it. -/
def unlinkFrom : List DescriptorSet → Nat → Option (DescriptorSet × List DescriptorSet)
  | [], _ => none
  | set :: rest, handle =>
    if set.handle = handle then some (set, rest)
    else (unlinkFrom rest handle).map fun found => (found.1, set :: found.2)

/-- The pool without a set it holds. -/
def without (left : List DescriptorSet) : DescriptorPool :=
  { pool with sets := left, setCount := pool.setCount - 1 }

/-- `ps5vk_descriptor_pool_unlink`: the set it found, or `none` where the pool does not hold it. -/
def unlink (handle : Nat) : Option (DescriptorSet × DescriptorPool) :=
  (unlinkFrom pool.sets handle).map fun found => (found.1, pool.without found.2)

/-- A set of the pool is unlinked and released. -/
def freeSet (handle : Nat) : DescriptorPool :=
  match pool.unlink handle with
  | none => pool
  | some (set, rest) => rest.setRelease set

/-- The loop of `ps5vk_descriptor_pool_clear`, which unlinks the head each time. -/
def clearSets : List DescriptorSet → DescriptorPool → DescriptorPool
  | [], pool => pool
  | set :: rest, pool => clearSets rest ((pool.without rest).setRelease set)

/-- `ps5vk_ResetDescriptorPool`. -/
def resetDescriptorPool : DescriptorPool :=
  clearSets pool.sets pool

/-- `ps5vk_FreeDescriptorSets`. A null handle is skipped. -/
def freeDescriptorSets (handles : List (Option Nat)) : DescriptorPool :=
  handles.foldl (fun pool handle => handle.elim pool pool.freeSet) pool

/-- Why an allocation fails. -/
inductive AllocateError where
  | outOfPoolMemory
  | outOfHostMemory
  deriving DecidableEq, Repr

/-- The pool with a set at its head. -/
def push (set : DescriptorSet) : DescriptorPool :=
  { pool with sets := set :: pool.sets, setCount := pool.setCount + 1 }

/-- The pool with a layout's descriptors taken. -/
def take (layout : SetLayout) : DescriptorPool :=
  { pool with sizes := poolTake pool.sizes layout }

/-- The loop of `ps5vk_AllocateDescriptorSets`, over the layouts that are left: why it stopped, the
handles it allocated, newest first, and the pool. -/
def allocateLoop (memory : Nat → Option Nat) : List SetLayout → List Nat → DescriptorPool →
    Option AllocateError × List Nat × DescriptorPool
  | [], handles, pool => (none, handles, pool)
  | layout :: rest, handles, pool =>
    if ¬ poolHas pool.sizes layout then (some .outOfPoolMemory, handles, pool)
    else
      match memory handles.length with
      | none =>
        (some .outOfHostMemory, handles,
          { pool with sizes := poolGive (poolTake pool.sizes layout) layout })
      | some handle =>
        allocateLoop memory rest (handle :: handles) ((pool.take layout).push ⟨handle, layout, false⟩)

/-- `ps5vk_AllocateDescriptorSets`: the handles of the sets, or an error with the sets of the call
released, newest first. `memory` is the allocator's answer for each set of the call. -/
def allocateDescriptorSets (layouts : List SetLayout)
    (memory : Nat → Option Nat) : Except AllocateError (List Nat) × DescriptorPool :=
  if pool.maxSets < pool.setCount + UInt32.ofNat layouts.length then (.error .outOfPoolMemory, pool)
  else
    match allocateLoop memory layouts [] pool with
    | (none, handles, pool) => (.ok handles.reverse, pool)
    | (some error, handles, pool) => (.error error, handles.foldl freeSet pool)

end DescriptorPool

/-- A call on a pool. -/
inductive PoolOp where
  | allocate (layouts : List SetLayout) (memory : Nat → Option Nat)
  | free (handles : List (Option Nat))
  | reset

/-- What a call leaves of the pool. -/
def PoolOp.step (pool : DescriptorPool) : PoolOp → DescriptorPool
  | allocate layouts memory => (pool.allocateDescriptorSets layouts memory).2
  | free handles => pool.freeDescriptorSets handles
  | reset => pool.resetDescriptorPool

/-- The pool after a sequence of calls. -/
def DescriptorPool.run (pool : DescriptorPool) (ops : List PoolOp) : DescriptorPool :=
  ops.foldl PoolOp.step pool

/-! ## What a pool should count -/

variable (type : DescriptorType)

/-- The descriptors of a type a layout asks for, over all its bindings. -/
def demand (layout : SetLayout) : Nat :=
  (layout.map fun binding => if binding.type = type then binding.count else 0).sum

/-- The descriptors of a type a list of layouts asks for. -/
def demands (layouts : List SetLayout) : Nat :=
  (layouts.map (demand type)).sum

/-- The descriptors of a type the live sets hold. -/
def held (sets : List DescriptorSet) : Nat :=
  demands type (sets.map DescriptorSet.layout)

/-- The descriptors of a type a pool was created with, over all the entries that name it. -/
def PoolInfo.created (info : PoolInfo) (type : DescriptorType) : Nat :=
  (info.poolSizes.map fun size => if size.1 = type then size.2.toNat else 0).sum

/-- A pool has each descriptor it was created with either left or in a live set, and counts its sets,
of which it has no more than it was created for. -/
structure DescriptorPool.Conserved (info : PoolInfo) (pool : DescriptorPool) : Prop where
  descriptors : ∀ type, Ledger.total pool.sizes type + held type pool.sets = info.created type
  sets : pool.setCount.toNat = pool.sets.length
  capped : pool.sets.length ≤ info.maxSets.toNat

/-- Every binding on its own fits the first entry of its type. -/
def EachFits (sizes : Ledger DescriptorType) (layout : SetLayout) : Prop :=
  ∀ binding ∈ layout, binding.count ≤ (Ledger.first sizes binding.type).toNat

/-- Each binding of each layout fits what the layouts before its own leave in 32 bits. -/
def FitInTurn (sizes : Ledger DescriptorType) (layouts : List SetLayout) : Prop :=
  ∀ before layout, before ++ [layout] <+: layouts → EachFits (before.foldl poolTake sizes) layout

/-- What an allocation is checked for: the count of sets with its own, in 32 bits, the memory of each
set, and the bindings one by one. -/
def DescriptorPool.Grants (pool : DescriptorPool) (layouts : List SetLayout)
    (memory : Nat → Option Nat) : Prop :=
  ¬ pool.maxSets < pool.setCount + UInt32.ofNat layouts.length ∧
    (∀ index < layouts.length, (memory index).isSome) ∧ FitInTurn pool.sizes layouts

/-- A call takes no more than there is: where an allocation is granted, all the bindings of all its
layouts together ask for no more of a type than the pool's entry of the type has left, and its sets
fit beside the live ones. -/
def PoolOp.Safe (pool : DescriptorPool) : PoolOp → Prop
  | allocate layouts memory =>
    pool.Grants layouts memory →
      (∀ type, demands type layouts ≤ (Ledger.first pool.sizes type).toNat) ∧
        pool.sets.length + layouts.length ≤ pool.maxSets.toNat
  | free _ => True
  | reset => True

/-! ## Taking and returning the descriptors of a layout -/

theorem demand_cons (binding : LayoutBinding) (layout : SetLayout) : demand type (binding :: layout) =
      (if binding.type = type then binding.count else 0) + demand type layout := rfl

theorem demands_cons (layout : SetLayout) (layouts : List SetLayout) :
    demands type (layout :: layouts) = demand type layout + demands type layouts := rfl

theorem held_cons (set : DescriptorSet) (sets : List DescriptorSet) :
    held type (set :: sets) = demand type set.layout + held type sets := rfl

theorem held_perm {sets sets' : List DescriptorSet} (h : sets.Perm sets') : held type sets = held type sets' :=
  ((h.map DescriptorSet.layout).map (demand type)).sum_eq

theorem PoolInfo.created_eq (info : PoolInfo) (type : DescriptorType) :
    info.created type = Ledger.total info.sizes type := by
  simp [PoolInfo.created, PoolInfo.sizes, Ledger.total, Function.comp_def]

section Moves

variable {amount amount' : Nat → UInt32} {sizes : Ledger DescriptorType} {layout : SetLayout}

theorem poolMove_cons (binding : LayoutBinding) : poolMove amount sizes (binding :: layout) = poolMove amount
        (if binding.count ≠ 0 then Ledger.add sizes binding.type (amount binding.count) else sizes)
        layout := rfl

@[simp] theorem keys_poolMove (amount : Nat → UInt32) (sizes : Ledger DescriptorType)
    (layout : SetLayout) : Ledger.keys (poolMove amount sizes layout) = Ledger.keys sizes := by
  induction layout generalizing sizes with
  | nil => rfl
  | cons binding rest ih =>
    rw [poolMove_cons, ih]
    split <;> simp

@[simp] theorem later_poolMove (amount : Nat → UInt32) (sizes : Ledger DescriptorType)
    (layout : SetLayout) (type : DescriptorType) :
    Ledger.later (poolMove amount sizes layout) type = Ledger.later sizes type := by
  induction layout generalizing sizes with
  | nil => rfl
  | cons binding rest ih =>
    rw [poolMove_cons, ih]
    split <;> simp

/-- A change of one entry can be made before or after a walk. -/
theorem poolMove_add (type : DescriptorType) (count : UInt32) : poolMove amount (Ledger.add sizes type count) layout =
      Ledger.add (poolMove amount sizes layout) type count := by
  induction layout generalizing sizes with
  | nil => rfl
  | cons binding rest ih =>
    rw [poolMove_cons, poolMove_cons]
    by_cases hcount : binding.count = 0
    · simp only [hcount, ne_eq, not_true_eq_false, if_false, ih]
    · simp only [hcount, ne_eq, not_false_eq_true, if_true]
      rw [Ledger.add_comm, ih]

/-- A release gives back exactly what the allocation took. -/
theorem poolGive_poolTake (sizes : Ledger DescriptorType) (layout : SetLayout) :
    poolGive (poolTake sizes layout) layout = sizes := by
  induction layout generalizing sizes with
  | nil => rfl
  | cons binding rest ih =>
    rw [poolGive, poolTake, poolMove_cons, poolMove_cons]
    by_cases hcount : binding.count = 0
    · simp only [hcount, ne_eq, not_true_eq_false, if_false]
      exact ih sizes
    · simp only [hcount, ne_eq, not_false_eq_true, if_true]
      rw [← poolMove_add, Ledger.add_neg]
      exact ih sizes

/-- A layout's bindings are of types the pool has an entry for. -/
def Known (sizes : Ledger DescriptorType) (layout : SetLayout) : Prop :=
  ∀ binding ∈ layout, binding.count ≠ 0 → binding.type ∈ Ledger.keys sizes

@[simp] theorem fitInTurn_nil : FitInTurn sizes [] := by
  simp [FitInTurn]

theorem fitInTurn_cons {layouts : List SetLayout} : FitInTurn sizes (layout :: layouts) ↔
    EachFits sizes layout ∧ FitInTurn (poolTake sizes layout) layouts := by
  constructor
  · intro h
    exact ⟨h [] layout (List.prefix_append _ _), fun before next hnext =>
      h (layout :: before) next ((List.prefix_cons_inj layout).mpr hnext)⟩
  · rintro ⟨hfirst, hrest⟩ (_ | ⟨head, before⟩) next hnext
    · obtain ⟨rfl, -⟩ := List.cons_prefix_cons.mp hnext
      exact hfirst
    · obtain ⟨rfl, htail⟩ := List.cons_prefix_cons.mp hnext
      exact hrest before next htail

theorem poolHas_iff : poolHas sizes layout = true ↔ EachFits sizes layout := by
  rw [poolHas, List.all_eq_true]
  refine forall₂_congr fun binding _ => ?_
  cases hfind : Ledger.find sizes binding.type with
  | none => simp [Ledger.first_of_not_mem (Ledger.find_eq_none_iff.mp hfind)]
  | some size =>
    simp only [Ledger.first_eq_of_find hfind, Bool.or_eq_true, decide_eq_true_eq, Nat.not_lt]
    omega

theorem EachFits.known (h : EachFits sizes layout) : Known sizes layout := by
  intro binding hbinding hcount
  by_contra habsent
  have hfits := h binding hbinding
  rw [Ledger.first_of_not_mem habsent] at hfits
  exact hcount (Nat.le_zero.mp hfits)

/-- The counter of each type rises by what all the bindings of the type ask for. -/
theorem first_poolGive (hknown : Known sizes layout) (type : DescriptorType) :
    Ledger.first (poolGive sizes layout) type = Ledger.first sizes type + UInt32.ofNat (demand type layout) := by
  induction layout generalizing sizes with
  | nil => simp [poolGive, poolMove, demand]
  | cons binding rest ih =>
    have hbinding := hknown binding List.mem_cons_self
    have hrest : Known sizes rest := fun b hb => hknown b (List.mem_cons_of_mem _ hb)
    rw [poolGive, poolMove_cons, demand_cons]
    by_cases hcount : binding.count = 0
    · simpa [poolGive, hcount] using ih hrest
    · simp only [hcount, ne_eq, not_false_eq_true, if_true]
      have hkeys : Known (Ledger.add sizes binding.type (UInt32.ofNat binding.count)) rest := by
        simpa [Known] using hrest
      refine (ih hkeys).trans ?_
      by_cases htype : binding.type = type
      · rw [if_pos htype, ← htype, Ledger.first_add (hbinding hcount), UInt32.ofNat_add, add_assoc]
      · rw [if_neg htype, Ledger.first_add_of_ne (Ne.symm htype), Nat.zero_add]

/-- And falls by as much when they are taken. -/
theorem first_poolTake (hknown : Known sizes layout) (type : DescriptorType) :
    Ledger.first (poolTake sizes layout) type + UInt32.ofNat (demand type layout) =
      Ledger.first sizes type := by
  have htaken : Known (poolTake sizes layout) layout := by
    simpa [Known, poolTake] using hknown
  rw [← first_poolGive htaken, poolGive_poolTake]

end Moves

/-! ## The balance every pool keeps -/

namespace DescriptorPool

variable {info : PoolInfo} {pool : DescriptorPool}

/-- What holds of a pool in 32 bits, however many descriptors its sets took. -/
structure Balanced (info : PoolInfo) (pool : DescriptorPool) : Prop where
  keys : Ledger.keys pool.sizes = Ledger.keys info.sizes
  later : ∀ type, Ledger.later pool.sizes type = Ledger.later info.sizes type
  balance : ∀ type,
    Ledger.first pool.sizes type + UInt32.ofNat (held type pool.sets) = Ledger.first info.sizes type
  known : ∀ set ∈ pool.sets, Known info.sizes set.layout
  counted : pool.setCount = UInt32.ofNat pool.sets.length
  maxSets : pool.maxSets = info.maxSets

theorem balanced_create (h : createDescriptorPool info = some pool) : Balanced info pool := by
  unfold createDescriptorPool at h
  split at h
  · cases h
  · cases h
    exact ⟨rfl, fun _ => rfl, fun _ => by simp [held, demands], by simp, rfl, rfl⟩

/-- A balanced pool counts exactly while its sets hold no more of a type than the first entry of the
type was created with. -/
theorem Balanced.conserved_iff (h : Balanced info pool) : pool.Conserved info ↔
      (∀ type, held type pool.sets ≤ (Ledger.first info.sizes type).toNat) ∧ pool.sets.length ≤ info.maxSets.toNat := by
  have hexact : ∀ type, Ledger.total pool.sizes type + held type pool.sets = info.created type ↔
        held type pool.sets ≤ (Ledger.first info.sizes type).toNat := by
    intro type
    rw [← Ledger.exact_iff (h.balance type), info.created_eq, Ledger.total_eq, Ledger.total_eq, h.later]
    omega
  constructor
  · intro hconserved
    exact ⟨fun type => (hexact type).mp (hconserved.descriptors type), hconserved.capped⟩
  · rintro ⟨hheld, hcapped⟩
    refine ⟨fun type => (hexact type).mpr (hheld type), ?_, hcapped⟩
    have hmax := info.maxSets.toNat_lt
    rw [h.counted, UInt32.toNat_ofNat', Nat.mod_eq_of_lt (by omega)]

/-- A set is taken from a pool that has its descriptors. -/
theorem Balanced.push (h : Balanced info pool) {layout : SetLayout}
    (hfits : EachFits pool.sizes layout) (handle : Nat) :
    Balanced info ((pool.take layout).push ⟨handle, layout, false⟩) := by
  have hknown := hfits.known
  refine ⟨?_, ?_, ?_, ?_, ?_, h.maxSets⟩
  · simpa [DescriptorPool.push, take, poolTake] using h.keys
  · simpa [DescriptorPool.push, take, poolTake] using h.later
  · intro type
    have htaken := first_poolTake hknown type
    have hbalance := h.balance type
    simp only [DescriptorPool.push, take, held_cons, UInt32.ofNat_add]
    rw [← add_assoc, htaken, hbalance]
  · intro set hset
    rcases List.mem_cons.mp hset with rfl | hold
    · simpa [Known, h.keys] using hknown
    · exact h.known set hold
  · simp [DescriptorPool.push, take, h.counted]

/-- A set of the pool is unlinked and released. -/
theorem Balanced.release (h : Balanced info pool) {set : DescriptorSet} {left : List DescriptorSet}
    (hperm : pool.sets.Perm (set :: left)) : Balanced info ((pool.without left).setRelease set) := by
  have hset : Known pool.sizes set.layout := by
    have hknown := h.known set (hperm.mem_iff.mpr List.mem_cons_self)
    simpa [Known, h.keys] using hknown
  refine ⟨?_, ?_, ?_, ?_, ?_, h.maxSets⟩
  · simpa [setRelease, without, poolGive] using h.keys
  · simpa [setRelease, without, poolGive] using h.later
  · intro type
    have hbalance := h.balance type
    rw [held_perm type hperm, held_cons, UInt32.ofNat_add, ← add_assoc] at hbalance
    simpa only [setRelease, without, first_poolGive hset] using hbalance
  · intro other hother
    exact h.known other (hperm.mem_iff.mpr (List.mem_cons_of_mem _ hother))
  · simp [setRelease, without, h.counted, hperm.length_eq]

theorem unlinkFrom_perm {sets left : List DescriptorSet} {handle : Nat} {set : DescriptorSet}
    (h : unlinkFrom sets handle = some (set, left)) : sets.Perm (set :: left) := by
  induction sets generalizing left with
  | nil => cases h
  | cons head rest ih =>
    rw [unlinkFrom] at h
    split at h
    · cases h
      exact List.Perm.refl _
    · obtain ⟨⟨found, others⟩, hfound, heq⟩ := Option.map_eq_some_iff.mp h
      cases heq
      exact ((ih hfound).cons head).trans (List.Perm.swap _ _ _)

/-! ## Calls that release sets -/

/-- A balanced pool some of whose sets, and nothing else, went back to it. -/
structure Released (info : PoolInfo) (pool after : DescriptorPool) : Prop where
  balanced : Balanced info after
  sets : ∃ gone, pool.sets.Perm (gone ++ after.sets)

theorem Balanced.released_refl (h : Balanced info pool) : Released info pool pool :=
  ⟨h, [], List.Perm.refl _⟩

theorem Released.trans {middle after : DescriptorPool} (h : Released info pool middle)
    (h' : Released info middle after) : Released info pool after := by
  obtain ⟨gone, hgone⟩ := h.sets
  obtain ⟨gone', hgone'⟩ := h'.sets
  refine ⟨h'.balanced, gone ++ gone', ?_⟩
  rw [List.append_assoc]
  exact hgone.trans (hgone'.append_left gone)

/-- Returning sets keeps a pool exact. -/
theorem Released.conserved {after : DescriptorPool} (h : Released info pool after)
    (hbalanced : Balanced info pool) (hconserved : pool.Conserved info) : after.Conserved info := by
  obtain ⟨hheld, hcapped⟩ := hbalanced.conserved_iff.mp hconserved
  obtain ⟨gone, hgone⟩ := h.sets
  refine h.balanced.conserved_iff.mpr ⟨fun type => ?_, ?_⟩
  · have hsplit : held type pool.sets = held type gone + held type after.sets := by
      rw [held_perm type hgone]
      simp [held, demands]
    have := hheld type
    omega
  · have := hgone.length_eq
    rw [List.length_append] at this
    omega

theorem Balanced.released_release (h : Balanced info pool) {set : DescriptorSet}
    {left : List DescriptorSet} (hperm : pool.sets.Perm (set :: left)) :
    Released info pool ((pool.without left).setRelease set) :=
  ⟨h.release hperm, [set], hperm⟩

theorem Balanced.released_freeSet (h : Balanced info pool) (handle : Nat) :
    Released info pool (pool.freeSet handle) := by
  unfold freeSet unlink
  cases hfound : unlinkFrom pool.sets handle with
  | none => exact h.released_refl
  | some found => exact h.released_release (unlinkFrom_perm hfound)

theorem Balanced.released_free (h : Balanced info pool) (handles : List (Option Nat)) :
    Released info pool (pool.freeDescriptorSets handles) := by
  induction handles generalizing pool with
  | nil => exact h.released_refl
  | cons handle rest ih =>
    cases handle with
    | none => exact ih h
    | some handle =>
      have hfreed := h.released_freeSet handle
      exact hfreed.trans (ih hfreed.balanced)

theorem Balanced.released_clearSets (h : Balanced info pool) {sets : List DescriptorSet}
    (hsets : pool.sets = sets) : Released info pool (clearSets sets pool) := by
  induction sets generalizing pool with
  | nil => exact h.released_refl
  | cons set rest ih =>
    have hreleased := h.released_release (List.Perm.of_eq hsets)
    exact hreleased.trans (ih hreleased.balanced rfl)

/-! ## Allocation -/

/-- A set that was just allocated is the one its handle unlinks, and its release undoes the
allocation. -/
theorem freeSet_push (pool : DescriptorPool) (layout : SetLayout) (handle : Nat) :
    ((pool.take layout).push ⟨handle, layout, false⟩).freeSet handle = pool := by
  simp [freeSet, unlink, unlinkFrom, DescriptorPool.push, take, without, setRelease, poolGive_poolTake]

/-- The sets of a call, released newest first, leave the pool as the call found it. -/
theorem rollback_allocateLoop (memory : Nat → Option Nat) (layouts : List SetLayout)
    (handles : List Nat) (pool : DescriptorPool) : (allocateLoop memory layouts handles pool).2.1.foldl freeSet
        (allocateLoop memory layouts handles pool).2.2 = handles.foldl freeSet pool := by
  induction layouts generalizing handles pool with
  | nil => rfl
  | cons layout rest ih =>
    rw [allocateLoop]
    split
    · rfl
    · cases hmemory : memory handles.length with
      | none => simp only [poolGive_poolTake]
      | some handle => rw [ih, List.foldl_cons, freeSet_push]

/-- The loop allocates every set where the memory and the bindings of each are there in turn. -/
theorem allocateLoop_eq_none_iff {memory : Nat → Option Nat} {layouts : List SetLayout}
    {handles : List Nat} : (allocateLoop memory layouts handles pool).1 = none ↔
      (∀ index < layouts.length, (memory (index + handles.length)).isSome) ∧ FitInTurn pool.sizes layouts := by
  induction layouts generalizing handles pool with
  | nil => simp [allocateLoop]
  | cons layout rest ih =>
    rw [allocateLoop, fitInTurn_cons, ← poolHas_iff, List.length_cons, Nat.forall_lt_succ_left, Nat.zero_add]
    by_cases hhas : poolHas pool.sizes layout = true
    · cases hmemory : memory handles.length with
      | none => simp [hhas]
      | some handle => simp [hhas, ih, DescriptorPool.push, take, Nat.add_assoc, Nat.add_comm 1]
    · simp [hhas]

/-- An allocation that is not granted fails and leaves the pool unchanged; of one that is, the loop
allocates every set. -/
theorem allocate_cases (pool : DescriptorPool) (layouts : List SetLayout) (memory : Nat → Option Nat) :
    (¬ pool.Grants layouts memory ∧ ∃ error, pool.allocateDescriptorSets layouts memory = (.error error, pool)) ∨
    (pool.Grants layouts memory ∧ ∃ handles, (allocateLoop memory layouts [] pool).1 = none ∧
      pool.allocateDescriptorSets layouts memory = (.ok handles, (allocateLoop memory layouts [] pool).2.2)) := by
  have hrollback := rollback_allocateLoop memory layouts [] pool
  have hnone : (allocateLoop memory layouts [] pool).1 = none ↔ _ := allocateLoop_eq_none_iff
  unfold allocateDescriptorSets Grants
  split
  · rename_i hslots
    exact Or.inl ⟨fun h => h.1 hslots, _, rfl⟩
  · rename_i hslots
    generalize allocateLoop memory layouts [] pool = outcome at hrollback hnone ⊢
    obtain ⟨_ | error, handles, after⟩ := outcome
    · exact Or.inr ⟨⟨hslots, hnone.mp rfl⟩, handles.reverse, rfl, rfl⟩
    · exact Or.inl ⟨fun h => Option.some_ne_none error (hnone.mpr h.2), error,
        congrArg (Prod.mk _) hrollback⟩

/-- `pDescriptorSets` while a call allocates `count` sets: the entries written so far, from the
handles newest first, and null after them. -/
def handleArray (count : Nat) (handles : List Nat) : List (Option Nat) :=
  handles.reverse.map some ++ List.replicate (count - handles.length) none

/-- The loop of `ps5vk_AllocateDescriptorSets` that takes back the first entries of
`pDescriptorSets`, the last of them first. -/
def takeBack : Nat → List (Option Nat) → DescriptorPool → List (Option Nat) × DescriptorPool
  | 0, array, pool => (array, pool)
  | allocated + 1, array, pool =>
    takeBack allocated (array.set allocated none)
      (array[allocated]?.join.elim pool pool.freeSet)

/-- `ps5vk_AllocateDescriptorSets` with what it leaves in `pDescriptorSets`. -/
def allocateInto (pool : DescriptorPool) (layouts : List SetLayout)
    (memory : Nat → Option Nat) : Option AllocateError × List (Option Nat) × DescriptorPool :=
  if pool.maxSets < pool.setCount + UInt32.ofNat layouts.length then
    (some .outOfPoolMemory, handleArray layouts.length [], pool)
  else
    match allocateLoop memory layouts [] pool with
    | (none, handles, pool) => (none, handleArray layouts.length handles, pool)
    | (some error, handles, pool) =>
      (some error, takeBack handles.length (handleArray layouts.length handles) pool)

theorem length_allocateLoop (memory : Nat → Option Nat) (layouts : List SetLayout)
    (handles : List Nat) (pool : DescriptorPool) :
    (allocateLoop memory layouts handles pool).2.1.length ≤ handles.length + layouts.length := by
  induction layouts generalizing handles pool with
  | nil => exact Nat.le_refl _
  | cons layout rest ih =>
    rw [allocateLoop, List.length_cons]
    split
    · exact Nat.le_add_right _ _
    · cases hmemory : memory handles.length with
      | none => exact Nat.le_add_right _ _
      | some handle =>
        have hrest := ih (handle :: handles) ((pool.take layout).push ⟨handle, layout, false⟩)
        rw [List.length_cons] at hrest
        exact hrest.trans (by omega)

/-- Taking back the entries of a call releases its sets newest first and leaves every entry
null. -/
theorem takeBack_handleArray {count : Nat} {handles : List Nat} (hcount : handles.length ≤ count)
    (pool : DescriptorPool) : takeBack handles.length (handleArray count handles) pool =
      (handleArray count [], handles.foldl freeSet pool) := by
  induction handles generalizing pool with
  | nil => rfl
  | cons handle rest ih =>
    rw [List.length_cons] at hcount ⊢
    have hentry : (handleArray count (handle :: rest))[rest.length]? = some (some handle) := by
      simp [handleArray]
    have hleft : (handleArray count (handle :: rest)).set rest.length none =
        handleArray count rest := by
      have hnulls : count - rest.length = count - (rest.length + 1) + 1 := by omega
      simp [handleArray, hnulls, List.replicate_succ]
    rw [takeBack, hentry, hleft, ih (by omega)]
    rfl

/-- The call with its array has the outcome and the pool of the call that returns its handles. -/
theorem allocateInto_eq (pool : DescriptorPool) (layouts : List SetLayout)
    (memory : Nat → Option Nat) : pool.allocateInto layouts memory =
      match pool.allocateDescriptorSets layouts memory with
      | (.ok handles, after) => (none, handleArray layouts.length handles.reverse, after)
      | (.error error, after) => (some error, handleArray layouts.length [], after) := by
  have hlength := length_allocateLoop memory layouts [] pool
  unfold allocateInto allocateDescriptorSets
  split
  · rfl
  · generalize allocateLoop memory layouts [] pool = outcome at hlength ⊢
    obtain ⟨_ | error, handles, after⟩ := outcome
    · simp only [List.reverse_reverse]
    · simp only [takeBack_handleArray (by simpa using hlength)]

/-- A call that fails, at whichever set and for whichever reason, leaves the pool as it found it
and null in every entry of `pDescriptorSets`. -/
theorem allocateInto_failed {pool : DescriptorPool} {layouts : List SetLayout}
    {memory : Nat → Option Nat} {error : AllocateError}
    (h : (pool.allocateInto layouts memory).1 = some error) :
    (pool.allocateInto layouts memory).2 = (List.replicate layouts.length none, pool) := by
  rw [allocateInto_eq] at h ⊢
  obtain ⟨-, refused, hrefused⟩ | ⟨-, handles, -, hok⟩ := allocate_cases pool layouts memory
  · rw [hrefused]
    simp [handleArray]
  · rw [hok] at h
    exact absurd h.symm (Option.some_ne_none error)

/-- The second set of a call finds no host memory after the first took its descriptors. -/
theorem allocateInto_failed_memory :
    let pool : DescriptorPool := ⟨[], 0, 2, [⟨.uniformBuffer, 2⟩]⟩
    let layouts : List SetLayout := [[⟨.uniformBuffer, 1⟩], [⟨.uniformBuffer, 1⟩]]
    pool.allocateInto layouts (fun set => if set = 0 then some 7 else none) =
      (some .outOfHostMemory, [none, none], pool) := by
  intro pool layouts
  have hfailed : (pool.allocateInto layouts (fun set => if set = 0 then some 7 else none)).1 =
      some .outOfHostMemory := by decide
  exact Prod.ext hfailed (allocateInto_failed hfailed)

theorem Balanced.allocateLoop (h : Balanced info pool) (memory : Nat → Option Nat)
    (layouts : List SetLayout) (handles : List Nat) :
    Balanced info (DescriptorPool.allocateLoop memory layouts handles pool).2.2 := by
  induction layouts generalizing handles pool with
  | nil => exact h
  | cons layout rest ih =>
    rw [DescriptorPool.allocateLoop]
    split
    · exact h
    · rename_i hhas
      cases hmemory : memory handles.length with
      | none => simpa only [poolGive_poolTake] using h
      | some handle => exact ih (h.push (poolHas_iff.mp (by simpa using hhas)) handle) _

/-- A loop that allocates every set adds what their layouts ask for to what is held. -/
theorem allocateLoop_none {memory : Nat → Option Nat} {layouts : List SetLayout}
    {handles : List Nat} (h : (DescriptorPool.allocateLoop memory layouts handles pool).1 = none) :
    (∀ type, held type (DescriptorPool.allocateLoop memory layouts handles pool).2.2.sets =
      held type pool.sets + demands type layouts) ∧
    (DescriptorPool.allocateLoop memory layouts handles pool).2.2.sets.length = pool.sets.length + layouts.length := by
  induction layouts generalizing handles pool with
  | nil => exact ⟨fun _ => rfl, rfl⟩
  | cons layout rest ih =>
    rw [DescriptorPool.allocateLoop] at h ⊢
    split at h
    · cases h
    · rename_i hhas
      rw [if_neg hhas]
      cases hmemory : memory handles.length with
      | none => simp [hmemory] at h
      | some handle =>
        simp only [hmemory] at h ⊢
        obtain ⟨hheld, hlength⟩ := ih h
        refine ⟨fun type => ?_, ?_⟩
        · rw [hheld, demands_cons]
          simp only [DescriptorPool.push, take, held_cons]
          omega
        · rw [hlength]
          simp only [DescriptorPool.push, take, List.length_cons]
          omega

end DescriptorPool

end Ps5Vulkan.Record
