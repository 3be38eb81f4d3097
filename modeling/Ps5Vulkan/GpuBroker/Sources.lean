import Ps5Vulkan.GpuBroker.Buffers

/-!
# Placed mappings

A client keeps where the memory of a host-visible allocation comes from (`sources` in
`tooling/gpu-broker/client.c`), by the allocation's address, to map it again where the application asks. Freeing the
allocation takes the entry out and closes its descriptor, but not in the owner's process: there the entry stays, and a
later allocation at the same address is mapped from it.

## Implementation notes

Descriptors are numbered in the order they are received, so that a number the system uses again is another one here.
`live` and `placed` are what the application holds and what was mapped for it.
-/

namespace Ps5Vulkan.GpuBroker

/-- What a mapping shows: direct memory, by its offset plus one, or the memory of a descriptor. -/
inductive Backing
  | direct (plusOne : Nat)
  | shared (fd : Nat)
  deriving DecidableEq, Repr

/-- `struct shared_source`. -/
structure SharedSource where
  address : Nat
  fd : Option Nat
  dmemPlusOne : Nat
  deriving DecidableEq, Repr

/-- `map_host_at`, which fails where it has neither. -/
def mapHostAt (fd : Option Nat) (dmemPlusOne : Nat) : Option Backing :=
  if dmemPlusOne ≠ 0 then some (.direct dmemPlusOne) else fd.map .shared

/-- `source_find` with `take`: the last entry is moved into the place of the one taken out. -/
def sourceTake (address : Nat) : List SharedSource → Option (SharedSource × List SharedSource)
  | [] => none
  | source :: rest =>
    if source.address = address then some (source, fillGap rest)
    else (sourceTake address rest).map fun found => (found.1, source :: found.2)

/-- `source_find` without `take`. -/
def sourceFind (address : Nat) (sources : List SharedSource) : Option SharedSource :=
  sources.find? fun source => source.address = address

/-- `radv_ps5_memory`, with the memory behind it. -/
structure HostAllocation where
  cpu : Nat
  bytes : Nat
  granule : Nat
  backing : Option Backing
  deriving DecidableEq, Repr

structure AllocRequest where
  bytes : Nat
  alignment : Nat
  window32 : Bool
  deriving DecidableEq, Repr

/-- The broker's answer to `PW_GPU_ALLOC`. -/
structure AllocReply where
  /-- A whole packet with the magic, sequence and operation of the request. -/
  answers : Bool
  status : Nat
  address : Nat
  bytes : Nat
  granule : Nat
  dmemPlusOne : Nat
  /-- How many descriptors came with it. -/
  descriptors : Nat
  deriving DecidableEq, Repr

/-- `rpc_on`'s check: a descriptor comes with a success, or an offset in its place. -/
def AllocReply.okay (reply : AllocReply) : Bool :=
  reply.answers && (reply.descriptors == (if reply.status = 0 then 1 else 0) ||
    (reply.status == 0 && reply.descriptors == 0 && reply.dmemPlusOne != 0))

/-- What the system does on the way of an allocation. -/
structure AllocOutcome where
  /-- What `bare` finds beyond the client's own mappings. -/
  bare : Bool
  mapped : Bool
  /-- The array of sources had room, or could be grown. -/
  grown : Bool
  /-- The broker took the `PW_GPU_FREE` of memory the client could not map. -/
  freed : Bool
  deriving DecidableEq, Repr

structure ClientSettings where
  inOwner : Bool
  rangesReserved : Bool
  hostLimit : Nat
  /-- `RADV_PS5_WINDOW_BASE`, `RADV_PS5_WINDOW_BYTES` and `RADV_PS5_GPU_ADDRESS_LIMIT`. -/
  radvWindowBase : Nat
  radvWindowBytes : Nat
  addressLimit : Nat
  deriving DecidableEq, Repr

namespace ClientSettings

variable (settings : ClientSettings)

def refuses (request : AllocRequest) : Bool :=
  request.bytes == 0 || decide (settings.hostLimit < request.bytes) || decide (2 * 2 ^ 20 < request.alignment) ||
    (request.alignment != 0 && request.alignment &&& (request.alignment - 1) != 0)

/-- The broker's answer fits the request. -/
def fits (request : AllocRequest) (reply : AllocReply) : Bool :=
  decide (request.bytes ≤ reply.bytes) && decide (reply.bytes ≤ settings.hostLimit) &&
    reply.bytes % pageBytes == 0 && reply.address % pageBytes == 0 &&
    (request.alignment == 0 || reply.address &&& (request.alignment - 1) == 0) &&
    decide (0 < reply.granule) && decide (reply.granule < 2 ^ 32) &&
    decide (settings.radvWindowBase ≤ reply.address) && decide (reply.address + reply.bytes ≤ settings.addressLimit) &&
    (!request.window32 || contains settings.radvWindowBase settings.radvWindowBytes reply.address reply.bytes)

end ClientSettings

structure Placement where
  memory : HostAllocation
  backing : Option Backing
  /-- The descriptor it was mapped from was closed before. -/
  stale : Bool
  deriving DecidableEq, Repr

structure SourceClient where
  keepSources : Bool
  broken : Bool
  sources : List SharedSource
  live : List HostAllocation
  received : Nat
  closed : List Nat
  placed : List Placement
  deriving DecidableEq, Repr

inductive SourceEvent
  /-- `ps5_gpu_client_keep_sources`. -/
  | keep
  | alloc (request : AllocRequest) (reply : AllocReply) (outcome : AllocOutcome)
  | free (memory : HostAllocation) (answered : Bool)
  | mapAt (memory : HostAllocation) (address : Nat) (bare : Bool)
  deriving DecidableEq, Repr

namespace SourceClient

def start : SourceClient :=
  ⟨false, false, [], [], 0, [], []⟩

variable (settings : ClientSettings) (client : SourceClient)

/-- No byte of a range is in the client's own memory, which the kernel finds mapped and so not bare. -/
def unmapped (address bytes : Nat) : Bool :=
  client.live.all fun memory => memory.cpu + memory.bytes ≤ address || address + bytes ≤ memory.cpu

/-- `bare`: what `sceKernelVirtualQuery` finds of the client's own memory, and `outside` of it. -/
def bare (outside : Bool) (address bytes : Nat) : Bool :=
  outside && client.unmapped address bytes

/-- The broker's memory is mapped in this process: by the owner, or over its own reservation of a host range. -/
def maps (reply : AllocReply) (outcome : AllocOutcome) : Bool :=
  settings.inOwner || (settings.rangesReserved && (contains windowBase windowBytes reply.address reply.bytes ||
    contains highBase highBytes reply.address reply.bytes) && client.bare outcome.bare reply.address reply.bytes &&
    outcome.mapped)

/-- `radv_ps5_memory_alloc` once the broker has said yes. -/
def accept (request : AllocRequest) (reply : AllocReply) (outcome : AllocOutcome) (fd : Option Nat) : SourceClient :=
  if settings.fits request reply && client.maps settings reply outcome then
    let kept := client.keepSources && outcome.grown
    { client with
      sources := if kept then
          client.sources ++ [⟨reply.address, if reply.dmemPlusOne ≠ 0 then none else fd, reply.dmemPlusOne⟩]
        else client.sources
      closed := if kept && reply.dmemPlusOne == 0 then client.closed else fd.toList ++ client.closed
      live := ⟨reply.address, reply.bytes, reply.granule, mapHostAt fd reply.dmemPlusOne⟩ :: client.live }
  else { client with closed := fd.toList ++ client.closed, broken := client.broken || !outcome.freed }

/-- `radv_ps5_memory_alloc`. -/
def alloc (request : AllocRequest) (reply : AllocReply) (outcome : AllocOutcome) : SourceClient :=
  if settings.refuses request || client.broken then client
  else
    let fds := List.range' client.received reply.descriptors
    let heard := { client with received := client.received + reply.descriptors }
    if !reply.okay then { heard with broken := true, closed := fds ++ client.closed }
    else if reply.status ≠ 0 then heard
    else heard.accept settings request reply outcome fds.head?

/-- `radv_ps5_memory_free`. -/
def free (memory : HostAllocation) (answered : Bool) : SourceClient :=
  if memory ∈ client.live then
    let client := { client with live := client.live.erase memory, broken := client.broken || !answered }
    if settings.inOwner then client
    else match sourceTake memory.cpu client.sources with
      | some (source, rest) => { client with sources := rest, closed := source.fd.toList ++ client.closed }
      | none => client
  else client

/-- `radv_ps5_memory_map_at`. -/
def mapAt (memory : HostAllocation) (address : Nat) (bare : Bool) : SourceClient :=
  match sourceFind memory.cpu client.sources with
  | none => client
  | some source =>
    if memory ∉ client.live ∨ address = 0 ∨ address % pageBytes ≠ 0 ∨ ¬client.bare bare address memory.bytes then client
    else { client with
      placed := ⟨memory, mapHostAt source.fd source.dmemPlusOne, source.fd.any (· ∈ client.closed)⟩ :: client.placed }

def step : SourceEvent → SourceClient
  | .keep => { client with keepSources := true }
  | .alloc request reply outcome => client.alloc settings request reply outcome
  | .free memory answered => client.free settings memory answered
  | .mapAt memory address bare => client.mapAt memory address bare

def run (events : List SourceEvent) : SourceClient :=
  events.foldl (step settings) start

end SourceClient

/-! ### The table of sources -/

theorem sourceTake_spec {address : Nat} {sources rest : List SharedSource} {source : SharedSource}
    (h : sourceTake address sources = some (source, rest)) :
    source.address = address ∧ sources.Perm (source :: rest) := by
  induction sources generalizing rest with
  | nil => cases h
  | cons first others ih =>
    rw [sourceTake] at h
    split at h
    next heq =>
      obtain ⟨rfl, rfl⟩ := Prod.mk.inj (Option.some.inj h)
      exact ⟨heq, (fillGap_perm others).symm.cons first⟩
    next =>
      obtain ⟨found, hfound, heq⟩ := Option.map_eq_some_iff.mp h
      obtain ⟨rfl, rfl⟩ := Prod.mk.inj heq
      exact ⟨(ih hfound).1, ((ih hfound).2.cons first).trans (.swap ..)⟩

theorem sourceTake_none {address : Nat} {sources : List SharedSource} (h : sourceTake address sources = none) :
    ∀ source ∈ sources, source.address ≠ address := by
  induction sources with
  | nil => exact nofun
  | cons first others ih =>
    rw [sourceTake] at h
    split at h
    next => cases h
    next hne => exact List.forall_mem_cons.mpr ⟨hne, ih (Option.map_eq_none_iff.mp h)⟩

namespace SourceClient

variable {settings : ClientSettings} {client : SourceClient}

/-- The table is in step with the allocations, and every descriptor is closed or in the table. -/
structure InStep (settings : ClientSettings) (client : SourceClient) : Prop where
  unkept : settings.inOwner = true → client.keepSources = false ∧ client.sources = []
  apart : settings.inOwner = false → (client.live.map HostAllocation.cpu).Nodup
  positive : ∀ memory ∈ client.live, 0 < memory.bytes
  addresses : (client.sources.map SharedSource.address).Nodup
  held : ∀ source ∈ client.sources, ∃ memory ∈ client.live,
    memory.cpu = source.address ∧ memory.backing = mapHostAt source.fd source.dmemPlusOne
  either : ∀ source ∈ client.sources, source.fd.isSome → source.dmemPlusOne = 0
  descriptors : (client.closed ++ client.sources.filterMap SharedSource.fd).Perm (List.range client.received)
  placed : ∀ entry ∈ client.placed, entry.backing = entry.memory.backing ∧ entry.stale = false

namespace InStep

section

variable (h : InStep settings client)

include h

theorem sourceFind_backing {memory : HostAllocation} {source : SharedSource}
    (hmemory : memory ∈ client.live) (hfind : sourceFind memory.cpu client.sources = some source) :
    mapHostAt source.fd source.dmemPlusOne = memory.backing := by
  have hsource : source ∈ client.sources := List.mem_of_find?_eq_some hfind
  have hcpu : source.address = memory.cpu := by simpa using List.find?_some hfind
  have howner : settings.inOwner = false := by
    cases hin : settings.inOwner with
    | false => rfl
    | true =>
      rw [(h.unkept hin).2] at hsource
      exact absurd hsource List.not_mem_nil
  obtain ⟨other, hother, haddress, hbacking⟩ := h.held source hsource
  rw [← hbacking, List.inj_on_of_nodup_map (h.apart howner) hother hmemory (haddress.trans hcpu)]

theorem not_closed {source : SharedSource} {fd : Nat} (hsource : source ∈ client.sources)
    (hfd : source.fd = some fd) : fd ∉ client.closed := by
  have hnodup := h.descriptors.nodup_iff.mpr List.nodup_range
  exact fun hclosed => (List.nodup_append.mp hnodup).2.2 fd hclosed fd (List.mem_filterMap.mpr ⟨source, hsource, hfd⟩) rfl

theorem mapAt (memory : HostAllocation) (address : Nat) (bare : Bool) :
    InStep settings (client.mapAt memory address bare) := by
  unfold SourceClient.mapAt
  split
  · exact h
  next source hfind =>
    split
    · exact h
    next hgiven =>
      have hlive : memory ∈ client.live := Decidable.not_not.mp fun hnot => hgiven (.inl hnot)
      refine { h with placed := List.forall_mem_cons.mpr ⟨⟨h.sourceFind_backing hlive hfind, ?_⟩, h.placed⟩ }
      cases hfd : source.fd with
      | none => rfl
      | some fd => exact decide_eq_false (h.not_closed (List.mem_of_find?_eq_some hfind) hfd)

/-- Memory that goes without a source: there was none, or it has been taken out. -/
theorem erase (memory : HostAllocation) (hnone : ∀ source ∈ client.sources, source.address ≠ memory.cpu) :
    InStep settings { client with live := client.live.erase memory } where
  unkept := h.unkept
  apart := fun howner => (h.apart howner).sublist (List.erase_sublist.map _)
  positive := fun _ hother => h.positive _ (List.mem_of_mem_erase hother)
  addresses := h.addresses
  held := by
    intro source hsource
    obtain ⟨other, hother, haddress, hbacking⟩ := h.held source hsource
    have hne : other ≠ memory := fun heq => hnone source hsource (haddress.symm.trans (congrArg _ heq))
    exact ⟨other, (List.mem_erase_of_ne hne).mpr hother, haddress, hbacking⟩
  either := h.either
  descriptors := h.descriptors
  placed := h.placed

/-- A source is taken out, and its descriptor closed. -/
theorem take {source : SharedSource} {rest : List SharedSource} (hperm : client.sources.Perm (source :: rest)) :
    InStep settings { client with sources := rest, closed := source.fd.toList ++ client.closed } where
  unkept := fun hin => absurd ((h.unkept hin).2 ▸ hperm).nil_eq (by nofun)
  apart := h.apart
  positive := h.positive
  addresses := (List.nodup_cons.mp ((hperm.map _).nodup_iff.mp h.addresses)).2
  held := fun other hother => h.held other (hperm.mem_iff.mpr (List.mem_cons_of_mem _ hother))
  either := fun other hother => h.either other (hperm.mem_iff.mpr (List.mem_cons_of_mem _ hother))
  descriptors := by
    have hfds : (client.sources.filterMap SharedSource.fd).Perm (source.fd.toList ++ rest.filterMap SharedSource.fd) := by
      refine (hperm.filterMap _).trans (.of_eq ?_)
      cases hfd : source.fd with
      | none => rw [List.filterMap_cons_none hfd]; rfl
      | some fd => rw [List.filterMap_cons_some hfd]; rfl
    refine .trans ?_ h.descriptors
    rw [List.append_assoc]
    exact List.perm_append_comm_assoc .. |>.trans (hfds.symm.append_left _)
  placed := h.placed

theorem free (memory : HostAllocation) (answered : Bool) : InStep settings (client.free settings memory answered) := by
  unfold SourceClient.free
  split
  · dsimp only
    split
    next hin =>
      have hsources := (h.unkept hin).2
      exact { h.erase memory (by rw [hsources]; exact nofun) with }
    next =>
      split
      next source rest htake =>
        obtain ⟨haddress, hperm⟩ := sourceTake_spec htake
        have hnodup := List.nodup_cons.mp ((hperm.map _).nodup_iff.mp h.addresses)
        have hrest : ∀ other ∈ rest, other.address ≠ memory.cpu := fun other hother heq =>
          hnodup.1 (List.mem_map.mpr ⟨other, hother, heq.trans haddress.symm⟩)
        exact { (h.take hperm).erase memory hrest with }
      next htake => exact { h.erase memory (sourceTake_none htake) with }
  · exact h

/-- Descriptors that are closed as soon as they are received. -/
theorem hear (count : Nat) : InStep settings { client with
      received := client.received + count
      closed := List.range' client.received count ++ client.closed } := by
  refine { h with descriptors := ?_ }
  have hrange : List.range (client.received + count) = List.range client.received ++ List.range' client.received count := by
    rw [List.range_eq_range', List.range_eq_range', ← List.range'_append_1, Nat.zero_add]
  rw [hrange, List.append_assoc]
  exact List.perm_append_comm.trans (h.descriptors.append_right _)

/-- New memory, where none of the client's lies. -/
theorem add (memory : HostAllocation) (hbytes : 0 < memory.bytes)
    (hfresh : settings.inOwner = false → memory.cpu ∉ client.live.map HostAllocation.cpu) :
    InStep settings { client with live := memory :: client.live } where
  unkept := h.unkept
  apart := fun howner => List.nodup_cons.mpr ⟨hfresh howner, h.apart howner⟩
  positive := List.forall_mem_cons.mpr ⟨hbytes, h.positive⟩
  addresses := h.addresses
  held := fun source hsource => (h.held source hsource).imp fun _ hother => ⟨List.mem_cons_of_mem _ hother.1, hother.2⟩
  either := h.either
  descriptors := h.descriptors
  placed := h.placed

/-- New memory, with its source. -/
theorem keep (memory : HostAllocation) (source : SharedSource) (hbytes : 0 < memory.bytes)
    (howner : settings.inOwner = false) (hfresh : memory.cpu ∉ client.live.map HostAllocation.cpu)
    (haddress : memory.cpu = source.address) (hbacking : memory.backing = mapHostAt source.fd source.dmemPlusOne)
    (heither : source.fd.isSome → source.dmemPlusOne = 0) {received : Nat} {closed : List Nat}
    (hdescriptors : (closed ++ (client.sources ++ [source]).filterMap SharedSource.fd).Perm (List.range received)) :
    InStep settings { client with
      live := memory :: client.live, sources := client.sources ++ [source], received := received, closed := closed } where
  unkept := fun hin => Bool.noConfusion (howner.symm.trans hin)
  apart := (h.add memory hbytes fun _ => hfresh).apart
  positive := (h.add memory hbytes fun _ => hfresh).positive
  addresses := by
    rw [List.map_append, List.nodup_append_comm]
    refine List.nodup_cons.mpr ⟨fun hmem => hfresh ?_, h.addresses⟩
    obtain ⟨other, hother, heq⟩ := List.mem_map.mp hmem
    obtain ⟨held, hheld, hcpu, -⟩ := h.held other hother
    exact List.mem_map.mpr ⟨held, hheld, hcpu.trans (heq.trans haddress.symm)⟩
  held := by
    intro other hother
    rcases List.mem_append.mp hother with hold | hnew
    · exact (h.add memory hbytes fun _ => hfresh).held other hold
    · obtain rfl := List.mem_singleton.mp hnew
      exact ⟨memory, List.mem_cons_self, haddress, hbacking⟩
  either := by
    intro other hother
    rcases List.mem_append.mp hother with hold | hnew
    · exact h.either other hold
    · obtain rfl := List.mem_singleton.mp hnew
      exact heither
  descriptors := hdescriptors
  placed := h.placed

/-- Bare memory is none of the client's. -/
theorem fresh_of_maps {reply : AllocReply} {outcome : AllocOutcome}
    (hmaps : client.maps settings reply outcome = true) (hbytes : 0 < reply.bytes) (howner : settings.inOwner = false) :
    reply.address ∉ client.live.map HostAllocation.cpu := by
  simp only [maps, howner, Bool.false_or, Bool.and_eq_true, bare] at hmaps
  intro hmem
  obtain ⟨memory, hmemory, heq⟩ := List.mem_map.mp hmem
  have hclear := List.all_eq_true.mp hmaps.1.2.2 memory hmemory
  have hpositive := h.positive memory hmemory
  simp only [Bool.or_eq_true, decide_eq_true_eq] at hclear
  omega

theorem accept {request : AllocRequest} {reply : AllocReply} (outcome : AllocOutcome)
    {fd : Option Nat} {count : Nat} (hfd : fd.toList = List.range' client.received count) (hrequest : 0 < request.bytes) :
    InStep settings (SourceClient.accept settings { client with received := client.received + count } request reply
      outcome fd) := by
  unfold SourceClient.accept
  split
  next hokay =>
    obtain ⟨hfits, hmaps⟩ := Bool.and_eq_true_iff.mp hokay
    have hbytes : 0 < reply.bytes := by
      simp only [ClientSettings.fits, Bool.and_eq_true, decide_eq_true_eq] at hfits
      omega
    have hfresh := h.fresh_of_maps hmaps hbytes
    have hheard := h.hear count
    dsimp only
    split
    next hkept =>
      have howner : settings.inOwner = false := by
        cases hin : settings.inOwner with
        | false => rfl
        | true => rw [(h.unkept hin).1] at hkept; cases hkept
      have hkeep := h.keep ⟨reply.address, reply.bytes, reply.granule, mapHostAt fd reply.dmemPlusOne⟩
        ⟨reply.address, if reply.dmemPlusOne ≠ 0 then none else fd, reply.dmemPlusOne⟩ hbytes howner (hfresh howner) rfl
      rw [hkept]
      by_cases hdmem : reply.dmemPlusOne = 0
      · rw [hdmem] at hkeep ⊢
        refine hkeep rfl (fun _ => rfl) ?_
        refine .trans ?_ hheard.descriptors
        rw [← hfd, List.filterMap_append, List.append_assoc, ← List.append_assoc]
        refine List.perm_append_comm.trans (.of_eq ?_)
        cases fd <;> rfl
      · simp only [hdmem, not_false_eq_true, ne_eq, if_true, hfd, beq_eq_false_iff_ne.mpr hdmem, Bool.and_false] at hkeep ⊢
        refine hkeep (by simp [mapHostAt, hdmem]) nofun ?_
        rw [List.filterMap_append, List.filterMap_cons_none rfl, List.filterMap_nil, List.append_nil]
        exact hheard.descriptors
    next hkept =>
      rw [Bool.not_eq_true] at hkept
      rw [hkept, hfd]
      exact hheard.add _ hbytes hfresh
  next =>
    rw [hfd]
    exact { h.hear count with }

theorem alloc (request : AllocRequest) (reply : AllocReply) (outcome : AllocOutcome) :
    InStep settings (client.alloc settings request reply outcome) := by
  unfold SourceClient.alloc
  split
  · exact h
  next hproceed =>
    have hrequest : 0 < request.bytes := by
      simp only [ClientSettings.refuses, Bool.or_eq_true, beq_iff_eq, not_or] at hproceed
      omega
    dsimp only
    split
    · exact { h.hear reply.descriptors with }
    next hokay =>
      simp only [AllocReply.okay, Bool.not_eq_true', Bool.not_eq_false, Bool.and_eq_true, Bool.or_eq_true,
        beq_iff_eq] at hokay
      split
      next hstatus =>
        have hcount : reply.descriptors = 0 := by
          rcases hokay.2 with hcount | ⟨⟨hzero, -⟩, -⟩
          · rwa [if_neg hstatus] at hcount
          · exact absurd hzero hstatus
        rw [hcount]
        exact h
      next hstatus =>
        refine h.accept outcome ?_ hrequest
        rcases hokay.2 with hcount | ⟨⟨-, hcount⟩, -⟩
        · rw [hcount, if_pos (Decidable.not_not.mp hstatus)]
          rfl
        · rw [hcount]
          rfl

theorem step (event : SourceEvent)
    (hkeep : event = .keep → settings.inOwner = false) : InStep settings (client.step settings event) := by
  cases event with
  | keep => exact { h with unkept := fun hin => Bool.noConfusion ((hkeep rfl).symm.trans hin) }
  | alloc request reply outcome => exact h.alloc request reply outcome
  | free memory answered => exact h.free memory answered
  | mapAt memory address bare => exact h.mapAt memory address bare

end

theorem run {events : List SourceEvent} (h : settings.inOwner = false ∨ SourceEvent.keep ∉ events) :
    InStep settings (run settings events) := by
  have hstart : InStep settings start := ⟨fun _ => ⟨rfl, rfl⟩, fun _ => .nil, nofun, .nil, nofun, nofun, .refl _, nofun⟩
  refine List.foldlRecOn events _ hstart fun _ hclient event hevent => hclient.step event fun heq => ?_
  exact h.resolve_right fun hnot => hnot (heq ▸ hevent)

end InStep

/-- Every placed mapping shows the memory of the allocation it was asked for, through a descriptor that is still open;
and a descriptor is closed once, unless its allocation is still held. -/
structure Shows (client : SourceClient) : Prop where
  placed : ∀ entry ∈ client.placed, entry.backing = entry.memory.backing ∧ entry.stale = false
  closed : ∀ fd < client.received, client.closed.count fd = 1 ∨
    client.closed.count fd = 0 ∧ ∃ memory ∈ client.live, memory.backing = some (.shared fd)

/-- In a process of its own, or while no sources are kept. -/
theorem run_shows (settings : ClientSettings) (events : List SourceEvent)
    (h : settings.inOwner = false ∨ SourceEvent.keep ∉ events) : (run settings events).Shows := by
  have hstep := InStep.run h
  refine ⟨hstep.placed, fun fd hfd => ?_⟩
  have hnodup := hstep.descriptors.nodup_iff.mpr List.nodup_range
  rcases List.mem_append.mp (hstep.descriptors.mem_iff.mpr (List.mem_range.mpr hfd)) with hclosed | hkept
  · exact .inl (List.count_eq_one_of_mem (List.nodup_append.mp hnodup).1 hclosed)
  · obtain ⟨source, hsource, heq⟩ := List.mem_filterMap.mp hkept
    obtain ⟨memory, hmemory, -, hbacking⟩ := hstep.held source hsource
    refine .inr ⟨List.count_eq_zero.mpr (hstep.not_closed hsource heq), memory, hmemory, ?_⟩
    rw [hbacking, hstep.either source hsource (heq ▸ rfl), heq]
    rfl

/-- A page is allocated, freed, allocated again at the same address, and mapped at 64 KiB. -/
def mappedAgain : List SourceEvent :=
  let reply : AllocReply := ⟨true, 0, windowBase, pageBytes, 1, 0, 1⟩
  let page (fd : Nat) : HostAllocation := ⟨windowBase, pageBytes, 1, some (.shared fd)⟩
  [.keep, .alloc ⟨pageBytes, 0, false⟩ reply ⟨true, true, true, true⟩, .free (page 0) true,
    .alloc ⟨pageBytes, 0, false⟩ reply ⟨true, true, true, true⟩, .mapAt (page 1) 0x10000 true]

def mappedAgainSettings (inOwner : Bool) : ClientSettings :=
  ⟨inOwner, true, 128 * 2 ^ 20, windowBase, windowBytes, 2 ^ 40⟩

theorem mappedAgain_shows :
    (run (mappedAgainSettings false) mappedAgain).placed =
        [⟨⟨windowBase, pageBytes, 1, some (.shared 1)⟩, some (.shared 1), false⟩] ∧
      (run (mappedAgainSettings false) mappedAgain).Shows :=
  ⟨by decide, run_shows _ _ (.inl rfl)⟩

/-- In the owner's process the page is mapped from the memory that was freed, and the first descriptor is not closed. -/
theorem mappedAgain_owner :
    (run (mappedAgainSettings true) mappedAgain).placed =
        [⟨⟨windowBase, pageBytes, 1, some (.shared 1)⟩, some (.shared 0), false⟩] ∧
      (run (mappedAgainSettings true) mappedAgain).closed = [] ∧
      ¬(run (mappedAgainSettings true) mappedAgain).Shows :=
  ⟨by decide, by decide, fun h => absurd (h.placed _ List.mem_cons_self).1 (by decide)⟩

end SourceClient

end Ps5Vulkan.GpuBroker
