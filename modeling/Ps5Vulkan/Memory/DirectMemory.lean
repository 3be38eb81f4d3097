import Mathlib.Algebra.BigOperators.Group.List.Basic
import Mathlib.Algebra.GroupWithZero.Nat
import Ps5Vulkan.Library.Bitmap

/-!
# Direct memory and the device memory region

Every GPU-visible allocation is a direct mapping. A mapping for `VkDeviceMemory` asks to go to a run
of granules of the device memory region, the lowest that is free; the kernel may put it elsewhere or
refuse it, and then the run is given back. Counters keep the number and the bytes of the mappings
that are live, in all and of each kind.
-/

namespace Ps5Vulkan.Memory

/-- `PS5VK_DEVICE_MEMORY_REGION`. -/
def deviceMemoryRegion : Nat := 0x4000000000

/-- `PS5VK_DEVICE_MEMORY_GRANULE`. -/
def deviceMemoryGranule : Nat := 0x200000

/-- `PS5VK_REGION_GRANULES`. -/
def regionGranules : Nat := 131072

/-- `enum ps5vk_direct_kind`. -/
inductive DirectKind where
  | memory
  | stage
  | compute
  | tables
  | query
  | queue
  | display
  deriving DecidableEq, Repr

/-- `struct ps5vk_direct_mapping`, of an allocation that succeeded. A null address is zero. -/
structure DirectMapping where
  start : Nat
  bytes : Nat
  address : Nat
  kind : DirectKind
  granule : Nat
  granules : Nat
  deriving DecidableEq, Repr

/-- A count of mappings and of their bytes. -/
structure Tally where
  count : UInt64
  bytes : UInt64
  deriving DecidableEq, Repr

/-- The driver's state: the region's granules in use, the counters, and the base and the next offset
of the test switch. -/
structure DirectMemory where
  regionUsed : Bitmap.Words
  live : Tally
  kinds : DirectKind → Tally
  base : UInt64
  next : UInt64

/-- `ps5vk_address_range_valid`. -/
def addressRangeValid (address bytes : Nat) : Bool :=
  bytes ≠ 0 ∧ address / 2 ^ 32 = 2 ∧ bytes ≤ 2 ^ 32 - address % 2 ^ 32

/-- `ps5vk_gpu_range_valid`. -/
def gpuRangeValid (address bytes : Nat) : Bool :=
  bytes ≠ 0 ∧ address ≠ 0 ∧ address < 2 ^ 47 ∧ bytes ≤ 2 ^ 47 - address

/-- `PS5VK_DIRECT_OUTSIDE_WINDOW`. -/
def directOutsideWindow : Int32 := -1

/-- The kernel's answers to one creation: to the allocation, to the mapping at the address asked for
and to the mapping at an address of its own. A mapping is where it put it, a refusal its result. -/
structure KernelAnswers where
  allocate : Except Int32 Nat
  map : Except Int32 Nat
  mapAnywhere : Except Int32 Nat

namespace Tally

def add (tally : Tally) (bytes : Nat) : Tally := ⟨tally.count + 1, tally.bytes + UInt64.ofNat bytes⟩

def sub (tally : Tally) (bytes : Nat) : Tally := ⟨tally.count - 1, tally.bytes - UInt64.ofNat bytes⟩

end Tally

namespace DirectMemory

variable (memory : DirectMemory) (mapping : DirectMapping)

/-- Every counter of a mapping moved. -/
def countMapping (move : Tally → Nat → Tally) : DirectMemory :=
  { memory with
    live := move memory.live mapping.bytes
    kinds := Function.update memory.kinds mapping.kind
      (move (memory.kinds mapping.kind) mapping.bytes) }

/-- `ps5vk_region_take`. -/
def regionTake (count : Nat) : Option Nat × DirectMemory :=
  if count = 0 ∨ regionGranules < count then (none, memory)
  else
    match Bitmap.search memory.regionUsed regionGranules count 0 0 with
    | none => (none, memory)
    | some first =>
      (some first, { memory with regionUsed := Bitmap.mark memory.regionUsed first count true })

/-- `ps5vk_region_give`. -/
def regionGive : DirectMapping × DirectMemory :=
  if mapping.granules = 0 then (mapping, memory)
  else ({ mapping with granules := 0 },
    { memory with
      regionUsed := Bitmap.mark memory.regionUsed mapping.granule mapping.granules false })

/-- The bytes of a mapping up to a granule, `align64` of 64 bits. -/
def stepBytes (bytes : Nat) : Nat :=
  (bytes + deviceMemoryGranule - 1) % 2 ^ 64 / deviceMemoryGranule * deviceMemoryGranule

/-- The granules of the bytes of a mapping, as 32 bits. -/
def granuleCount (bytes : Nat) : Nat := stepBytes bytes / deviceMemoryGranule % 2 ^ 32

/-- `ps5vk_direct_mapping_hint`: the address, null for the kernel's own choice. -/
def directMappingHint : Nat × DirectMapping × DirectMemory :=
  if mapping.kind ≠ .memory then (0, mapping, memory)
  else if memory.base ≠ 0 then
    ((memory.base + memory.next).toNat, mapping,
      { memory with next := memory.next + UInt64.ofNat (stepBytes mapping.bytes) })
  else
    match memory.regionTake (granuleCount mapping.bytes) with
    | (none, memory) => (0, mapping, memory)
    | (some first, memory) =>
      (deviceMemoryRegion + first * deviceMemoryGranule,
        { mapping with granule := first, granules := granuleCount mapping.bytes }, memory)

/-- `ps5vk_direct_mapping_destroy`, of a mapping with bytes. -/
def directMappingDestroy : DirectMemory :=
  ((memory.countMapping mapping Tally.sub).regionGive mapping).2

/-- The mapping calls of `ps5vk_direct_mapping_create`: an address, or the refusal of the last. -/
def mapDirect (hint : Nat) (kernel : KernelAnswers) :
    Except Int32 Nat × DirectMapping × DirectMemory :=
  match kernel.map with
  | .ok address => (.ok address, mapping, memory)
  | .error refusal =>
    if hint ≠ 0 then (kernel.mapAnywhere, memory.regionGive mapping)
    else (.error refusal, mapping, memory)

/-- The mapping with its address. One that is not where it asked to be gives its run back. -/
def settle (hint address : Nat) : DirectMapping × DirectMemory :=
  if address ≠ hint then memory.regionGive { mapping with address }
  else ({ mapping with address }, memory)

/-- The end of `ps5vk_direct_mapping_create`, after the mapping calls. -/
def finishMapping (hint : Nat) (answer : Except Int32 Nat) :
    Except Int32 DirectMapping × DirectMemory :=
  match answer with
  | .error refusal => (.error refusal, memory.directMappingDestroy mapping)
  | .ok address =>
    if address = 0 then (.error directOutsideWindow, memory.directMappingDestroy mapping)
    else
      let settled := memory.settle mapping hint address
      if addressRangeValid address mapping.bytes ∨
          (mapping.kind = .memory ∧ gpuRangeValid address mapping.bytes) then
        (.ok settled.1, settled.2)
      else (.error directOutsideWindow, settled.2.directMappingDestroy settled.1)

/-- `ps5vk_direct_mapping_create`. -/
def directMappingCreate (bytes : Nat) (kind : DirectKind) (kernel : KernelAnswers) :
    Except Int32 DirectMapping × DirectMemory :=
  match kernel.allocate with
  | .error refusal => (.error refusal, memory)
  | .ok start =>
    let mapping : DirectMapping := ⟨start, bytes, 0, kind, 0, 0⟩
    let hinted := (memory.countMapping mapping Tally.add).directMappingHint mapping
    let mapped := hinted.2.2.mapDirect hinted.2.1 hinted.1 kernel
    mapped.2.2.finishMapping mapped.2.1 hinted.1 mapped.1

end DirectMemory

/-- A size a mapping may have. -/
abbrev MappingBytes := {bytes : Nat // 0 < bytes ∧ bytes < 2 ^ 64}

/-- The driver's state with the mappings that were created and not yet destroyed. -/
structure DirectSystem where
  memory : DirectMemory
  live : List DirectMapping

/-- A call on direct memory. The test switch sets a base for `VkDeviceMemory`. -/
inductive DirectOp where
  | create (bytes : MappingBytes) (kind : DirectKind) (kernel : KernelAnswers)
  | destroy (index : Nat)
  | testBase (base : UInt64)

namespace DirectSystem

def step (system : DirectSystem) : DirectOp → DirectSystem
  | .create bytes kind kernel =>
    match system.memory.directMappingCreate bytes kind kernel with
    | (.ok mapping, memory) => ⟨memory, mapping :: system.live⟩
    | (.error _, memory) => ⟨memory, system.live⟩
  | .destroy index =>
    match system.live[index]? with
    | none => system
    | some mapping =>
      ⟨system.memory.directMappingDestroy mapping, system.live.eraseIdx index⟩
  | .testBase base => ⟨{ system.memory with base, next := 0 }, system.live⟩

def run (ops : List DirectOp) : DirectSystem :=
  ops.foldl step ⟨⟨fun _ => 0, ⟨0, 0⟩, fun _ => ⟨0, 0⟩, 0, 0⟩, []⟩

end DirectSystem

/-! ## What the region and the counters should say -/

/-- The granules of a mapping, the first and their number. -/
def DirectMapping.run (mapping : DirectMapping) : Nat × Nat := (mapping.granule, mapping.granules)

/-- What the counters see of a mapping: its kind and its bytes. -/
def DirectMapping.charge (mapping : DirectMapping) : DirectKind × Nat := (mapping.kind, mapping.bytes)

/-- The number and the bytes of some mappings. -/
def tally (charges : List (DirectKind × Nat)) : Tally :=
  ⟨UInt64.ofNat charges.length, UInt64.ofNat (charges.map Prod.snd).sum⟩

/-- The counters are the tallies of the mappings, in all and of each kind. -/
structure Counted (memory : DirectMemory) (charges : List (DirectKind × Nat)) : Prop where
  total : memory.live = tally charges
  kinds : ∀ kind, memory.kinds kind = tally (charges.filter (·.1 = kind))

/-! ## The counters -/

theorem tally_cons (charge : DirectKind × Nat) (charges : List (DirectKind × Nat)) :
    tally (charge :: charges) = (tally charges).add charge.2 := by
  simp [tally, Tally.add, Nat.add_comm charge.2]

theorem tally_perm {charges charges' : List (DirectKind × Nat)} (h : charges.Perm charges') :
    tally charges = tally charges' := by
  rw [tally, h.length_eq, (h.map Prod.snd).sum_eq, tally]

theorem Tally.sub_add (tally : Tally) (bytes : Nat) : (tally.add bytes).sub bytes = tally := by
  simp [Tally.add, Tally.sub]

namespace Counted

variable {memory : DirectMemory} {charges charges' : List (DirectKind × Nat)}
  {mapping : DirectMapping}

theorem perm (h : Counted memory charges) (hperm : charges.Perm charges') : Counted memory charges' :=
  ⟨h.total.trans (tally_perm hperm), fun kind => (h.kinds kind).trans (tally_perm (hperm.filter _))⟩

theorem add (h : Counted memory charges) (mapping : DirectMapping) :
    Counted (memory.countMapping mapping Tally.add) (mapping.charge :: charges) := by
  refine ⟨by rw [tally_cons, ← h.total]; rfl, fun kind => ?_⟩
  by_cases hkind : mapping.kind = kind
  · subst hkind
    rw [List.filter_cons_of_pos (by simp [DirectMapping.charge]), tally_cons, ← h.kinds]
    exact Function.update_self ..
  · rw [List.filter_cons_of_neg (by simp [DirectMapping.charge, hkind]), ← h.kinds]
    exact Function.update_of_ne (Ne.symm hkind) ..

theorem sub (h : Counted memory (mapping.charge :: charges)) :
    Counted (memory.countMapping mapping Tally.sub) charges := by
  have htotal := h.total
  rw [tally_cons] at htotal
  refine ⟨(congrArg (Tally.sub · mapping.bytes) htotal).trans (Tally.sub_add ..), fun kind => ?_⟩
  have hkinds := h.kinds kind
  by_cases hkind : mapping.kind = kind
  · subst hkind
    rw [List.filter_cons_of_pos (by simp [DirectMapping.charge]), tally_cons] at hkinds
    exact (Function.update_self ..).trans ((congrArg (Tally.sub · mapping.bytes) hkinds).trans (Tally.sub_add ..))
  · rw [List.filter_cons_of_neg (by simp [DirectMapping.charge, hkind])] at hkinds
    exact (Function.update_of_ne (Ne.symm hkind) ..).trans hkinds

end Counted

/-! ## Creation and destruction -/

/-- The region and the counters are those of the mappings. -/
structure DirectMemory.Exact (memory : DirectMemory) (live : List DirectMapping) : Prop where
  region : Bitmap.Exact memory.regionUsed regionGranules (live.map DirectMapping.run)
  counted : Counted memory (live.map DirectMapping.charge)

/-- A mapping that holds a run holds one of the region, which starts where the hint says. -/
def DirectMapping.RunAt (mapping : DirectMapping) (hint : Nat) : Prop :=
  mapping.granules ≠ 0 → mapping.kind = .memory ∧
    hint = deviceMemoryRegion + mapping.granule * deviceMemoryGranule

namespace DirectMemory

variable {memory : DirectMemory} {live : List DirectMapping} {mapping : DirectMapping} {hint : Nat}

theorem Exact.perm {live' : List DirectMapping} (h : memory.Exact live) (hperm : live.Perm live') :
    memory.Exact live' :=
  ⟨h.region.perm (hperm.map _), h.counted.perm (hperm.map _)⟩

/-- The test switch is apart from both. -/
theorem Exact.testBase (h : memory.Exact live) (base next : UInt64) : { memory with base, next }.Exact live :=
  ⟨h.region, h.counted.total, h.counted.kinds⟩

/-- Clearing the run of a mapping is what giving it back does, also of no granules. -/
theorem regionGive_eq (memory : DirectMemory) (mapping : DirectMapping) :
    memory.regionGive mapping = ({ mapping with granules := 0 },
      { memory with
        regionUsed := Bitmap.mark memory.regionUsed mapping.granule mapping.granules false }) := by
  rw [regionGive]
  split
  · rename_i hnone
    obtain ⟨start, bytes, address, kind, granule, granules⟩ := mapping
    cases hnone
    rfl
  · rfl

theorem Exact.regionGive (h : memory.Exact (mapping :: live)) :
    (memory.regionGive mapping).2.Exact ((memory.regionGive mapping).1 :: live) := by
  rw [regionGive_eq]
  refine ⟨h.region.give.cons rfl ?_, h.counted.total, h.counted.kinds⟩
  exact Nat.le_of_add_right_le (h.region.inside mapping.run List.mem_cons_self)

theorem Exact.directMappingDestroy (h : memory.Exact (mapping :: live)) :
    (memory.directMappingDestroy mapping).Exact live := by
  rw [DirectMemory.directMappingDestroy, regionGive_eq]
  exact ⟨h.region.give, h.counted.sub.total, h.counted.sub.kinds⟩

/-- The granules a request needs. -/
def granulesOf (bytes : Nat) : Nat := (bytes + deviceMemoryGranule - 1) / deviceMemoryGranule

/-- The run a request takes: the lowest free one of its length. -/
theorem regionTake_spec (memory : DirectMemory) (count : Nat) : (memory.regionTake count = (none, memory) ∧
      (count ≠ 0 → ∀ first, ¬ Bitmap.FreeRun memory.regionUsed regionGranules count first)) ∨
    ∃ first, memory.regionTake count = (some first,
        { memory with regionUsed := Bitmap.mark memory.regionUsed first count true }) ∧
      Bitmap.FreeRun memory.regionUsed regionGranules count first ∧
      ∀ other, Bitmap.FreeRun memory.regionUsed regionGranules count other → first ≤ other := by
  rw [regionTake]
  split
  · rename_i hcount
    refine Or.inl ⟨rfl, fun hne first hfree => ?_⟩
    have hinside := hfree.1
    omega
  · have hsearch := @Bitmap.search_spec memory.regionUsed regionGranules count 0 0 (by decide)
      (Nat.le_refl 0) (by omega) (fun _ _ hlt => absurd hlt (Nat.not_lt_zero _))
      (fun _ _ => Nat.zero_le _)
    cases hfound : Bitmap.search memory.regionUsed regionGranules count 0 0 with
    | none =>
      rw [hfound] at hsearch
      exact Or.inl ⟨rfl, fun _ => hsearch⟩
    | some first =>
      rw [hfound] at hsearch
      exact Or.inr ⟨first, rfl, hsearch⟩

section

variable (h : memory.Exact (mapping :: live))

include h

theorem Exact.take (hnone : mapping.granules = 0)
    {first count : Nat} (hfree : Bitmap.FreeRun memory.regionUsed regionGranules count first) :
    { memory with regionUsed := Bitmap.mark memory.regionUsed first count true }.Exact
      ({ mapping with granule := first, granules := count } :: live) := by
  have hrest := h.region.give
  rw [show mapping.run.2 = 0 from hnone, Bitmap.mark_zero] at hrest
  have hcounted : Counted memory
      (({ mapping with granule := first, granules := count } :: live).map DirectMapping.charge) :=
    h.counted
  exact ⟨@Bitmap.Exact.take _ _ _ (first, count) hrest hfree, hcounted.total, hcounted.kinds⟩

theorem Exact.directMappingHint (hnone : mapping.granules = 0) :
    (memory.directMappingHint mapping).2.2.Exact ((memory.directMappingHint mapping).2.1 :: live) ∧
      (memory.directMappingHint mapping).2.1.RunAt (memory.directMappingHint mapping).1 := by
  have hrun : ∀ hint, mapping.RunAt hint := fun hint hsome => absurd hnone hsome
  rw [DirectMemory.directMappingHint]
  split
  · exact ⟨h, hrun _⟩
  · split
    · exact ⟨h.testBase _ _, hrun _⟩
    · rename_i hkind _
      generalize granuleCount mapping.bytes = count
      obtain ⟨htake, -⟩ | ⟨first, htake, hfree, -⟩ := memory.regionTake_spec count
      · rw [htake]
        exact ⟨h, hrun _⟩
      · rw [htake]
        exact ⟨h.take hnone hfree, fun _ => ⟨not_not.mp hkind, rfl⟩⟩

theorem Exact.mapDirect (hrun : mapping.RunAt hint)
    (kernel : KernelAnswers) : (memory.mapDirect mapping hint kernel).2.2.Exact
        ((memory.mapDirect mapping hint kernel).2.1 :: live) ∧
      (memory.mapDirect mapping hint kernel).2.1.RunAt hint := by
  rw [DirectMemory.mapDirect]
  split
  · exact ⟨h, hrun⟩
  · split
    · refine ⟨h.regionGive, ?_⟩
      rw [regionGive_eq]
      exact fun hsome => absurd rfl hsome
    · exact ⟨h, hrun⟩

theorem Exact.settle (hrun : mapping.RunAt hint) (address : Nat) : (memory.settle mapping hint address).2.Exact
        ((memory.settle mapping hint address).1 :: live) ∧ (memory.settle mapping hint address).1.RunAt
        (memory.settle mapping hint address).1.address := by
  have hmapped : memory.Exact ({ mapping with address } :: live) := ⟨h.region, h.counted⟩
  rw [DirectMemory.settle]
  split
  · refine ⟨hmapped.regionGive, ?_⟩
    rw [regionGive_eq]
    exact fun hsome => absurd rfl hsome
  · rename_i hmoved
    exact ⟨hmapped, (not_not.mp hmoved).symm ▸ hrun⟩

theorem Exact.finishMapping (hrun : mapping.RunAt hint)
    (answer : Except Int32 Nat) : match memory.finishMapping mapping hint answer with
    | (.ok mapping, memory') => memory'.Exact (mapping :: live) ∧ mapping.RunAt mapping.address
    | (.error _, memory') => memory'.Exact live := by
  cases answer with
  | error refusal => exact h.directMappingDestroy
  | ok address =>
    have hsettled := h.settle hrun address
    rw [DirectMemory.finishMapping]
    by_cases hnull : address = 0
    · simp only [if_pos hnull]
      exact h.directMappingDestroy
    · simp only [if_neg hnull]
      by_cases hvalid : addressRangeValid address mapping.bytes ∨
          (mapping.kind = .memory ∧ gpuRangeValid address mapping.bytes)
      · simp only [if_pos hvalid]
        exact hsettled
      · simp only [if_neg hvalid]
        exact hsettled.1.directMappingDestroy

end

/-- A mapping that is created is counted and holds a run only where it is, and of one that is not
nothing is left. -/
theorem Exact.directMappingCreate (h : memory.Exact live) (bytes : Nat) (kind : DirectKind)
    (kernel : KernelAnswers) : match memory.directMappingCreate bytes kind kernel with
    | (.ok mapping, memory') => memory'.Exact (mapping :: live) ∧ mapping.RunAt mapping.address
    | (.error _, memory') => memory'.Exact live := by
  rw [DirectMemory.directMappingCreate]
  cases kernel.allocate with
  | error refusal => exact h
  | ok start =>
    have hcounted : (memory.countMapping ⟨start, bytes, 0, kind, 0, 0⟩ Tally.add).Exact
        (⟨start, bytes, 0, kind, 0, 0⟩ :: live) :=
      ⟨h.region.cons rfl (Nat.zero_le _), h.counted.add _⟩
    obtain ⟨hhinted, hrun⟩ := hcounted.directMappingHint rfl
    dsimp only
    generalize DirectMemory.directMappingHint _ _ = hinted at hhinted hrun ⊢
    obtain ⟨hmapped, hrun⟩ := hhinted.mapDirect hrun kernel
    generalize hinted.2.2.mapDirect _ _ _ = mapped at hmapped hrun ⊢
    exact hmapped.finishMapping hrun mapped.1

/-- The driver counts the granules of a request that fits the region without a wrap. -/
theorem granuleCount_eq (bytes : MappingBytes) (hfits : granulesOf bytes ≤ regionGranules) :
    granuleCount bytes = granulesOf bytes := by
  obtain ⟨bytes, hpos, hlt⟩ := bytes
  simp only [granuleCount, stepBytes, granulesOf, deviceMemoryGranule, regionGranules] at hfits ⊢
  omega

/-- The region's part of the hint of a request that fits. -/
theorem directMappingHint_lowest (hbase : memory.base = 0) (hkind : mapping.kind = .memory)
    {count first : Nat} (hcount : granuleCount mapping.bytes = count) (hpos : count ≠ 0)
    (hfirst : Bitmap.FreeRun memory.regionUsed regionGranules count first)
    (hlowest : ∀ other, Bitmap.FreeRun memory.regionUsed regionGranules count other → first ≤ other) :
    memory.directMappingHint mapping = (deviceMemoryRegion + first * deviceMemoryGranule,
      { mapping with granule := first, granules := count },
      { memory with regionUsed := Bitmap.mark memory.regionUsed first count true }) := by
  rw [DirectMemory.directMappingHint, if_neg (not_not_intro hkind), if_neg (not_not_intro hbase), hcount]
  obtain ⟨-, hnone⟩ | ⟨taken, htake, htaken, hleast⟩ := memory.regionTake_spec count
  · exact absurd hfirst (hnone hpos first)
  · obtain rfl : taken = first := Nat.le_antisymm (hleast first hfirst) (hlowest taken htaken)
    rw [htake]

/-- A request for `VkDeviceMemory` takes the lowest free run of its length, and has it where the
kernel maps it there. -/
theorem directMappingCreate_lowest (bytes : MappingBytes) (hbase : memory.base = 0)
    (hfree : ∃ first, Bitmap.FreeRun memory.regionUsed regionGranules (granulesOf bytes) first) :
    ∃ first, Bitmap.FreeRun memory.regionUsed regionGranules (granulesOf bytes) first ∧
      (∀ other, Bitmap.FreeRun memory.regionUsed regionGranules (granulesOf bytes) other →
        first ≤ other) ∧ ∀ start anywhere, (memory.directMappingCreate bytes .memory
        ⟨.ok start, .ok (deviceMemoryRegion + first * deviceMemoryGranule), anywhere⟩).1 =
        .ok ⟨start, bytes, deviceMemoryRegion + first * deviceMemoryGranule, .memory, first, granulesOf bytes⟩ := by
  obtain ⟨some, hsome⟩ := hfree
  have hpos : granulesOf bytes ≠ 0 := by
    have := bytes.2.1
    simp only [granulesOf, deviceMemoryGranule]
    omega
  have hcount := granuleCount_eq bytes (Nat.le_of_add_left_le hsome.1)
  obtain ⟨-, hnone⟩ | ⟨first, -, hfirst, hlowest⟩ := memory.regionTake_spec (granulesOf bytes)
  · exact absurd hsome (hnone hpos some)
  refine ⟨first, hfirst, hlowest, fun start anywhere => ?_⟩
  -- the region ends far below what the GPU reaches
  have hreach : deviceMemoryRegion + first * deviceMemoryGranule ≠ 0 ∧
      gpuRangeValid (deviceMemoryRegion + first * deviceMemoryGranule) bytes := by
    have hinside := hfirst.1
    have hbytes := bytes.2.1
    simp only [granulesOf, deviceMemoryRegion, deviceMemoryGranule, regionGranules] at hinside ⊢
    exact ⟨by omega, decide_eq_true (by omega)⟩
  have hhint := @directMappingHint_lowest (memory.countMapping ⟨start, bytes, 0, .memory, 0, 0⟩ Tally.add)
    ⟨start, bytes, 0, .memory, 0, 0⟩ hbase rfl _ first hcount hpos hfirst hlowest
  simp only [DirectMemory.directMappingCreate, hhint, DirectMemory.mapDirect,
    DirectMemory.finishMapping, if_neg hreach.1, hreach.2, DirectMemory.settle, ne_eq,
    not_true_eq_false, if_false, and_self, or_true, if_true]

end DirectMemory

/-! ## Runs -/

namespace DirectSystem

/-- The books of a system: the region and the counters are those of its live mappings, and a run is
held only by a mapping that is where its hint was. -/
structure Exact (system : DirectSystem) : Prop where
  books : system.memory.Exact system.live
  placed : ∀ mapping ∈ system.live, mapping.RunAt mapping.address

theorem Exact.step {system : DirectSystem} (h : system.Exact) (op : DirectOp) : (system.step op).Exact := by
  cases op with
  | create bytes kind kernel =>
    have hcreate := h.books.directMappingCreate bytes kind kernel
    rw [DirectSystem.step]
    split
    · rename_i mapping memory hcreated
      rw [hcreated] at hcreate
      exact ⟨hcreate.1, List.forall_mem_cons.mpr ⟨hcreate.2, h.placed⟩⟩
    · rename_i hrefused
      rw [hrefused] at hcreate
      exact ⟨hcreate, h.placed⟩
  | destroy index =>
    rw [DirectSystem.step]
    split
    · exact h
    · rename_i mapping hmapping
      obtain ⟨hlt, rfl⟩ := List.getElem?_eq_some_iff.mp hmapping
      have hperm := List.getElem_cons_eraseIdx_perm hlt
      exact ⟨(h.books.perm hperm.symm).directMappingDestroy,
        fun other hother => h.placed other (List.mem_of_mem_eraseIdx hother)⟩
  | testBase base => exact ⟨h.books.testBase _ _, h.placed⟩

theorem exact_run (ops : List DirectOp) : (run ops).Exact := by
  have hfold : ∀ (ops : List DirectOp) (system : DirectSystem), system.Exact →
      (ops.foldl DirectSystem.step system).Exact := by
    intro ops
    induction ops with
    | nil => exact fun _ h => h
    | cons op rest ih => exact fun system h => ih _ (h.step op)
  refine hfold ops _ ⟨⟨⟨fun unit => ?_, ?_, ?_⟩, ?_, ?_⟩, ?_⟩
  · simp [Bitmap.used]
  all_goals simp [tally]

/-- After any calls the granules in use are the runs of the live mappings, all of them where their
hints were, the runs lie in the region and do not meet, the counters are those of the live mappings,
and a request for `VkDeviceMemory` gets the lowest free run of its length whenever there is one. -/
theorem run_region_exact (ops : List DirectOp) :
    (run ops).Exact ∧
    ∀ bytes : MappingBytes, (run ops).memory.base = 0 →
      (∃ first, Bitmap.FreeRun (run ops).memory.regionUsed regionGranules
        (DirectMemory.granulesOf bytes) first) →
      ∃ first, Bitmap.FreeRun (run ops).memory.regionUsed regionGranules
          (DirectMemory.granulesOf bytes) first ∧
        (∀ other, Bitmap.FreeRun (run ops).memory.regionUsed regionGranules
          (DirectMemory.granulesOf bytes) other → first ≤ other) ∧
        ∀ start anywhere, ((run ops).memory.directMappingCreate bytes .memory
          ⟨.ok start, .ok (deviceMemoryRegion + first * deviceMemoryGranule), anywhere⟩).1 =
          .ok ⟨start, bytes, deviceMemoryRegion + first * deviceMemoryGranule, .memory, first,
            DirectMemory.granulesOf bytes⟩ :=
  ⟨exact_run ops, fun bytes hbase hfree => DirectMemory.directMappingCreate_lowest bytes hbase hfree⟩

end DirectSystem

end Ps5Vulkan.Memory
