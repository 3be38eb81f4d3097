import Ps5Vulkan.Record.DescriptorPool

/-!
# Sequences of calls on a descriptor pool

After each call every descriptor of the pool is left or held by a live set, if and only if no call of
the sequence took more than there was. Layouts with one binding of a type never do, and a set of such
a layout is admitted exactly when it fits.
-/

namespace Ps5Vulkan.Record

variable {info : PoolInfo} {pool : DescriptorPool}

theorem PoolOp.balanced_step (h : pool.Balanced info) (op : PoolOp) : (op.step pool).Balanced info := by
  cases op with
  | allocate layouts memory =>
    rcases pool.allocate_cases layouts memory with ⟨-, error, heq⟩ | ⟨-, handles, -, heq⟩
    · simpa only [step, heq] using h
    · simpa only [step, heq] using h.allocateLoop memory layouts []
  | free handles => exact (h.released_free handles).balanced
  | reset => exact (h.released_clearSets rfl).balanced

/-- A call on an exact pool leaves an exact pool if and only if it takes no more than there is. -/
theorem PoolOp.conserved_step_iff (h : pool.Balanced info) (hconserved : pool.Conserved info)
    (op : PoolOp) : (op.step pool).Conserved info ↔ op.Safe pool := by
  cases op with
  | allocate layouts memory =>
    rcases pool.allocate_cases layouts memory with
      ⟨hdenied, error, heq⟩ | ⟨hgranted, handles, hloop, heq⟩
    · simp only [step, Safe, heq]
      exact iff_of_true hconserved fun hgranted => absurd hgranted hdenied
    · obtain ⟨hheld, hlength⟩ := DescriptorPool.allocateLoop_none hloop
      simp only [step, Safe, heq]
      rw [(h.allocateLoop memory layouts []).conserved_iff, hlength, h.maxSets]
      -- What the first entry has left is what it started with without what is held.
      have hfirst : ∀ type, (Ledger.first pool.sizes type).toNat + held type pool.sets =
          (Ledger.first info.sizes type).toNat := fun type =>
        (Ledger.exact_iff (h.balance type)).mpr ((h.conserved_iff.mp hconserved).1 type)
      have hfits : ∀ type, held type pool.sets + demands type layouts ≤ (Ledger.first info.sizes type).toNat ↔
            demands type layouts ≤ (Ledger.first pool.sizes type).toNat := by
        intro type
        have := hfirst type
        omega
      simp [hheld, hfits, hgranted]
  | free handles => exact iff_of_true ((h.released_free handles).conserved h hconserved) trivial
  | reset => exact iff_of_true ((h.released_clearSets rfl).conserved h hconserved) trivial

theorem DescriptorPool.run_concat (pool : DescriptorPool) (ops : List PoolOp) (op : PoolOp) :
    pool.run (ops ++ [op]) = op.step (pool.run ops) := by
  simp [DescriptorPool.run]

theorem DescriptorPool.Balanced.run (h : pool.Balanced info) (ops : List PoolOp) : (pool.run ops).Balanced info := by
  induction ops using List.reverseRecOn with
  | nil => exact h
  | append_singleton ops op ih =>
    rw [DescriptorPool.run_concat]
    exact op.balanced_step ih

theorem DescriptorPool.conserved_create (h : createDescriptorPool info = some pool) :
    pool.Conserved info := by
  refine (DescriptorPool.balanced_create h).conserved_iff.mpr ?_
  unfold createDescriptorPool at h
  split at h
  · cases h
  · cases h
    simp [held, demands]

/-- After each call of a sequence every descriptor is either left or held and the sets are counted,
if and only if no call of the sequence takes more than there is. -/
theorem DescriptorPool.run_conserved_iff (hcreate : createDescriptorPool info = some pool)
    (ops : List PoolOp) :
    (∀ earlier, earlier <+: ops → (pool.run earlier).Conserved info) ↔
      ∀ earlier op, earlier ++ [op] <+: ops → op.Safe (pool.run earlier) := by
  have hbalanced : ∀ earlier, (pool.run earlier).Balanced info :=
    fun earlier => (DescriptorPool.balanced_create hcreate).run earlier
  constructor
  · intro hconserved earlier op hprefix
    have hbefore := hconserved earlier ((List.prefix_append earlier [op]).trans hprefix)
    have hafter := hconserved (earlier ++ [op]) hprefix
    rw [DescriptorPool.run_concat] at hafter
    exact (op.conserved_step_iff (hbalanced earlier) hbefore).mp hafter
  · intro hsafe earlier
    induction earlier using List.reverseRecOn with
    | nil => exact fun _ => DescriptorPool.conserved_create hcreate
    | append_singleton earlier op ih =>
      intro hprefix
      have hbefore := ih ((List.prefix_append earlier [op]).trans hprefix)
      rw [DescriptorPool.run_concat]
      exact (op.conserved_step_iff (hbalanced earlier) hbefore).mpr (hsafe earlier op hprefix)

/-- Two uniform buffers of two descriptors each, from a pool of three: each binding fits, and the
pool's counter wraps. -/
theorem DescriptorPool.pairedBindings_overdraw :
    ∃ pool, createDescriptorPool ⟨1, 1, [(.uniformBuffer, 3)]⟩ = some pool ∧
      ¬ (pool.run [.allocate [[⟨.uniformBuffer, 2⟩, ⟨.uniformBuffer, 2⟩]] some]).Conserved
        ⟨1, 1, [(.uniformBuffer, 3)]⟩ := by
  refine ⟨_, rfl, fun hconserved => ?_⟩
  have hcount := hconserved.descriptors .uniformBuffer
  revert hcount
  decide +kernel

/-! ## Layouts with one binding of a type -/

/-- No two bindings of a layout that hold descriptors are of one type. -/
def OnePerType (layout : SetLayout) : Prop :=
  ((layout.filter fun binding => binding.count ≠ 0).map LayoutBinding.type).Nodup

instance (layout : SetLayout) : Decidable (OnePerType layout) :=
  inferInstanceAs (Decidable (List.Nodup _))

theorem demand_eq_zero {type : DescriptorType} {layout : SetLayout}
    (h : ∀ binding ∈ layout, binding.count ≠ 0 → binding.type ≠ type) : demand type layout = 0 := by
  induction layout with
  | nil => rfl
  | cons binding rest ih =>
    have hrest := ih fun b hb => h b (List.mem_cons_of_mem _ hb)
    have hbinding := h binding List.mem_cons_self
    rw [demand_cons, hrest]
    grind

/-- Where a layout has one binding of a type, checking each binding checks each type. -/
theorem OnePerType.demand_le {sizes : Ledger DescriptorType} {layout : SetLayout}
    (h : OnePerType layout) (hfits : EachFits sizes layout) (type : DescriptorType) :
    demand type layout ≤ (Ledger.first sizes type).toNat := by
  induction layout with
  | nil => exact Nat.zero_le _
  | cons binding rest ih =>
    obtain ⟨hbinding, hrest⟩ := List.forall_mem_cons.mp hfits
    rw [demand_cons]
    by_cases hcount : binding.count = 0
    · have hone : OnePerType rest := by simpa [OnePerType, hcount] using h
      simpa [hcount] using ih hone hrest
    · obtain ⟨habsent, hone⟩ : binding.type ∉ (rest.filter fun b => b.count ≠ 0).map
          LayoutBinding.type ∧ OnePerType rest := by
        simpa [OnePerType, hcount] using h
      by_cases htype : binding.type = type
      · have hzero : demand type rest = 0 := demand_eq_zero fun b hb hb0 heq =>
          habsent (List.mem_map.mpr ⟨b, by simp [hb, hb0], heq.trans htype.symm⟩)
        rw [if_pos htype, hzero, ← htype]
        exact hbinding
      · rw [if_neg htype, Nat.zero_add]
        exact ih hone hrest

/-- So granted layouts of that kind take no more than there is. -/
theorem FitInTurn.demands_le {sizes : Ledger DescriptorType} {layouts : List SetLayout}
    (h : FitInTurn sizes layouts) (hone : ∀ layout ∈ layouts, OnePerType layout)
    (type : DescriptorType) : demands type layouts ≤ (Ledger.first sizes type).toNat := by
  induction layouts generalizing sizes with
  | nil => exact Nat.zero_le _
  | cons layout rest ih =>
    obtain ⟨hfits, hrest⟩ := fitInTurn_cons.mp h
    have hlayout := (hone layout List.mem_cons_self).demand_le hfits type
    have hexact := (Ledger.exact_iff (first_poolTake hfits.known type)).mpr hlayout
    have hlater := ih hrest fun l hl => hone l (List.mem_cons_of_mem _ hl)
    rw [demands_cons]
    omega

/-- A call is safe where its layouts have one binding of a type, and the sets it asks for do not wrap
the count of the pool's. -/
theorem PoolOp.safe_of_onePerType (h : pool.Balanced info) {layouts : List SetLayout}
    (hone : ∀ layout ∈ layouts, OnePerType layout)
    (hcount : pool.sets.length + layouts.length < 2 ^ 32) (memory : Nat → Option Nat) :
    (PoolOp.allocate layouts memory).Safe pool := by
  rintro ⟨hslots, -, hfits⟩
  refine ⟨hfits.demands_le hone, ?_⟩
  rw [UInt32.not_lt, UInt32.le_iff_toNat_le, h.counted, ← UInt32.ofNat_add, UInt32.toNat_ofNat',
    Nat.mod_eq_of_lt hcount] at hslots
  exact hslots

/-- A call whose allocations have layouts with one binding of a type, and ask for no more sets than
can be counted beside a full pool. -/
def PoolOp.Plain (info : PoolInfo) : PoolOp → Prop
  | allocate layouts _ =>
    (∀ layout ∈ layouts, OnePerType layout) ∧ info.maxSets.toNat + layouts.length < 2 ^ 32
  | free _ => True
  | reset => True

/-- Sequences of such calls keep the pool exact. -/
theorem DescriptorPool.run_conserved_of_plain (hcreate : createDescriptorPool info = some pool)
    {ops : List PoolOp} (hplain : ∀ op ∈ ops, op.Plain info) : (pool.run ops).Conserved info := by
  induction ops using List.reverseRecOn with
  | nil => exact DescriptorPool.conserved_create hcreate
  | append_singleton ops op ih =>
    have hbefore := ih fun o ho => hplain o (List.mem_append_left _ ho)
    have hbalanced := (DescriptorPool.balanced_create hcreate).run ops
    have hop := hplain op (List.mem_append_right _ (List.mem_singleton_self op))
    rw [DescriptorPool.run_concat]
    refine (op.conserved_step_iff hbalanced hbefore).mpr ?_
    cases op with
    | allocate layouts memory =>
      have hcapped := hbefore.capped
      exact PoolOp.safe_of_onePerType hbalanced hop.1 (by have := hop.2; omega) memory
    | free handles | reset => trivial

/-- Two sets of two uniform buffers, of which the first is freed before the pool is reset. -/
theorem DescriptorPool.run_conserved_reuse :
    ∃ pool, createDescriptorPool ⟨1, 2, [(.uniformBuffer, 4)]⟩ = some pool ∧
      ∀ earlier, ∀ op : PoolOp, earlier ++ [op] <+:
          [.allocate [[⟨.uniformBuffer, 2⟩], [⟨.uniformBuffer, 2⟩]] some, .free [some 0], .reset] →
        op.Safe (pool.run earlier) := by
  have hcreate : createDescriptorPool ⟨1, 2, [(.uniformBuffer, 4)]⟩ =
      some ⟨[], 0, 2, [⟨.uniformBuffer, 4⟩]⟩ := rfl
  refine ⟨_, hcreate, (DescriptorPool.run_conserved_iff hcreate _).mp fun earlier hprefix => ?_⟩
  refine DescriptorPool.run_conserved_of_plain hcreate fun op hop => ?_
  have hmem := hprefix.subset hop
  simp only [List.mem_cons, List.not_mem_nil, or_false] at hmem
  rcases hmem with rfl | rfl | rfl
  · exact ⟨by decide, by decide⟩
  · trivial
  · trivial

/-! ## Admission of one set -/

namespace DescriptorPool

/-- What an allocation of one set asks of a pool: a free slot, and for each type as many descriptors,
of all the pool was created with, as all the bindings of the layout want. -/
def Admits (info : PoolInfo) (pool : DescriptorPool) (layout : SetLayout) : Prop :=
  pool.sets.length < info.maxSets.toNat ∧
    ∀ type, demand type layout ≤ info.created type - held type pool.sets

/-- With memory for it, one set is allocated where the counted sets and each binding fit. -/
theorem allocate_one_isOk {layout : SetLayout} {memory : Nat → Option Nat}
    (hmemory : (memory 0).isSome) : (pool.allocateDescriptorSets [layout] memory).1.isOk ↔
      ¬ pool.maxSets < pool.setCount + 1 ∧ EachFits pool.sizes layout := by
  have hgrants : pool.Grants [layout] memory ↔ ¬ pool.maxSets < pool.setCount + 1 ∧ EachFits pool.sizes layout := by
    simp [Grants, fitInTurn_cons, hmemory]
  rw [← hgrants]
  rcases pool.allocate_cases [layout] memory with ⟨h, error, heq⟩ | ⟨h, handles, -, heq⟩ <;>
    simp [h, heq, Except.isOk, Except.toBool]

theorem Balanced.slots_iff (h : Balanced info pool) : ¬ pool.maxSets < pool.setCount + 1 ↔
      (pool.sets.length + 1) % 2 ^ 32 ≤ info.maxSets.toNat := by
  rw [UInt32.not_lt, UInt32.le_iff_toNat_le, h.counted, h.maxSets, UInt32.toNat_add, UInt32.toNat_ofNat']
  simp [Nat.add_mod]

theorem count_le_demand {binding : LayoutBinding} {layout : SetLayout} (h : binding ∈ layout) :
    binding.count ≤ demand binding.type layout := by
  induction layout with
  | nil => cases h
  | cons head rest ih =>
    rw [demand_cons]
    rcases List.mem_cons.mp h with rfl | hrest
    · rw [if_pos rfl]
      omega
    · exact (ih hrest).trans (Nat.le_add_left _ _)

/-- What a conserved pool that names no type twice has left of a type is in its first entry. -/
theorem Balanced.left_eq_first (h : Balanced info pool) (hconserved : pool.Conserved info)
    (hdistinct : (Ledger.keys info.sizes).Nodup) (type : DescriptorType) :
    info.created type - held type pool.sets = (Ledger.first pool.sizes type).toNat := by
  have htotal := hconserved.descriptors type
  rw [Ledger.total_eq, h.later, Ledger.later_eq_zero hdistinct] at htotal
  omega

/-- A pool that names no type twice, at every state that allocations of layouts with one binding of a
type, frees and resets can reach, admits a set of such a layout exactly when it fits. -/
theorem allocate_exact_of_plain (hcreate : createDescriptorPool info = some pool)
    (hdistinct : (Ledger.keys info.sizes).Nodup) (ops : List PoolOp) (layout : SetLayout)
    (memory : Nat → Option Nat) (hmemory : (memory 0).isSome)
    (hplain : ∀ op ∈ ops ++ [.allocate [layout] memory], op.Plain info) :
    ((pool.run ops).allocateDescriptorSets [layout] memory).1.isOk ↔
      Admits info (pool.run ops) layout := by
  obtain ⟨hops, hlast⟩ := List.forall_mem_append.mp hplain
  obtain ⟨hlayouts, hmax⟩ := hlast _ List.mem_cons_self
  have hone : OnePerType layout := hlayouts layout List.mem_cons_self
  have hbalanced := (balanced_create hcreate).run ops
  have hconserved := run_conserved_of_plain hcreate hops
  have hcapped := hconserved.capped
  rw [List.length_singleton] at hmax
  rw [allocate_one_isOk hmemory, hbalanced.slots_iff, Nat.mod_eq_of_lt (by omega), Admits]
  simp only [hbalanced.left_eq_first hconserved hdistinct, Nat.succ_le_iff]
  refine and_congr_right fun _ => ⟨fun hfits => hone.demand_le hfits, fun hdemand binding hbinding => ?_⟩
  exact (count_le_demand hbinding).trans (hdemand binding.type)

/-- A set of two uniform buffers is taken from a pool of four, and one more fits. -/
theorem allocate_exact_pair :
    ∃ pool, createDescriptorPool ⟨1, 2, [(.uniformBuffer, 4)]⟩ = some pool ∧
      ((pool.run [.allocate [[⟨.uniformBuffer, 2⟩]] some]).allocateDescriptorSets
        [[⟨.uniformBuffer, 2⟩]] some).1.isOk ∧
      Admits ⟨1, 2, [(.uniformBuffer, 4)]⟩ (pool.run [.allocate [[⟨.uniformBuffer, 2⟩]] some])
        [⟨.uniformBuffer, 2⟩] := by
  have hcreate : createDescriptorPool ⟨1, 2, [(.uniformBuffer, 4)]⟩ =
      some ⟨[], 0, 2, [⟨.uniformBuffer, 4⟩]⟩ := rfl
  have hplain : (PoolOp.allocate [[⟨.uniformBuffer, 2⟩]] some).Plain
      ⟨1, 2, [(.uniformBuffer, 4)]⟩ := ⟨by decide, by decide⟩
  have hexact := allocate_exact_of_plain hcreate (by decide) [.allocate [[⟨.uniformBuffer, 2⟩]] some]
    [⟨.uniformBuffer, 2⟩] some rfl fun op hop => by
      rcases List.mem_pair.mp hop with rfl | rfl <;> exact hplain
  have hok : ((run ⟨[], 0, 2, [⟨.uniformBuffer, 4⟩]⟩
      [.allocate [[⟨.uniformBuffer, 2⟩]] some]).allocateDescriptorSets
        [[⟨.uniformBuffer, 2⟩]] some).1.isOk = true := by decide +kernel
  exact ⟨_, hcreate, hok, hexact.mp hok⟩

/-- A pool of three takes two bindings of two of a type, and a pool that names a type twice for one
each refuses a binding of two. -/
theorem admission_errs_both_ways :
    (∃ pool, createDescriptorPool ⟨1, 1, [(.uniformBuffer, 3)]⟩ = some pool ∧
      (pool.allocateDescriptorSets [[⟨.uniformBuffer, 2⟩, ⟨.uniformBuffer, 2⟩]] some).1.isOk ∧
      ¬ Admits ⟨1, 1, [(.uniformBuffer, 3)]⟩ pool [⟨.uniformBuffer, 2⟩, ⟨.uniformBuffer, 2⟩]) ∧
    (∃ pool, createDescriptorPool ⟨1, 1, [(.uniformBuffer, 1), (.uniformBuffer, 1)]⟩ = some pool ∧
      ¬ (pool.allocateDescriptorSets [[⟨.uniformBuffer, 2⟩]] some).1.isOk ∧
      Admits ⟨1, 1, [(.uniformBuffer, 1), (.uniformBuffer, 1)]⟩ pool [⟨.uniformBuffer, 2⟩]) := by
  refine ⟨⟨_, rfl, by decide +kernel, fun hadmits => ?_⟩, ⟨_, rfl, by decide +kernel, ?_⟩⟩
  · have hdemand := hadmits.2 .uniformBuffer
    revert hdemand
    decide +kernel
  · refine ⟨by decide, fun type => ?_⟩
    cases type <;> decide

end DescriptorPool

end Ps5Vulkan.Record
