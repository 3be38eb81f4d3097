import Ps5Vulkan.GpuBroker.Clients

/-!
# Host addresses are handed out exclusively

The buffers of the two windows that a client holds, or that wait in the deferred list, share no address
with each other or with the free extents, whatever fails on the way. Together with the free extents they
make up the windows, until a range is lost: its reservation could not be laid back, the array of extents
was full, the broker was wedged when it was freed, or the buffer's token came around to 0.
-/

namespace Ps5Vulkan.GpuBroker

open Extents

/-! ### Blocks -/

namespace Buffer

def extent (buffer : Buffer) : Extent :=
  ⟨buffer.address, buffer.bytes⟩

/-- A buffer of the low window, or of the high one. -/
def inside (buffer : Buffer) (low : Bool) : Bool :=
  buffer.ranged && (buffer.low == low)

end Buffer

/-- The ranges of the buffers in a window. -/
def blocks (low : Bool) (buffers : List Buffer) : List Extent :=
  (buffers.filter (·.inside low)).map Buffer.extent

section Blocks

variable {low : Bool} {buffers buffers' : List Buffer} {buffer : Buffer}

theorem blocks_perm (h : buffers.Perm buffers') : (blocks low buffers).Perm (blocks low buffers') :=
  (h.filter _).map Buffer.extent

theorem blocks_cons_of_inside (h : buffer.inside low = true) :
    blocks low (buffer :: buffers) = buffer.extent :: blocks low buffers := by
  simp [blocks, h]

theorem blocks_cons_of_outside (h : buffer.inside low = false) :
    blocks low (buffer :: buffers) = blocks low buffers := by
  simp [blocks, h]

theorem mem_blocks (h : buffer ∈ buffers) (hinside : buffer.inside low = true) : buffer.extent ∈ blocks low buffers :=
  List.mem_map_of_mem (List.mem_filter.mpr ⟨h, hinside⟩)

end Blocks

/-! ### One window -/

/-- Where a window lies. -/
def place (low : Bool) : Extent :=
  if low then ⟨windowBase, windowBytes⟩ else ⟨highBase, highBytes⟩

/-- What a window keeps while buffers of it are held; it is all there if nothing was lost (`whole`) and the
array of extents was never full. -/
structure WindowKept (low : Bool) (range : HostRange) (buffers : List Buffer) (whole : Prop) : Prop where
  place : range.extent = place low
  exclusive : range.Exclusive (blocks low buffers)
  tiles : whole → range.reserved = true → range.most < maxExtents → range.Tiles (blocks low buffers)

namespace WindowKept

variable {low : Bool} {range range' : HostRange} {buffers buffers' : List Buffer} {buffer : Buffer}
  {whole whole' : Prop}

theorem reserve (low reserved : Bool) (hpos : 0 < (GpuBroker.place low).bytes) :
    WindowKept low (.reserve (GpuBroker.place low).start (GpuBroker.place low).bytes reserved) [] whole where
  place := rfl
  exclusive := by
    cases reserved with
    | true =>
      exact ⟨Nat.le_refl 1, Extent.spaced_singleton hpos, by simp [HostRange.reserve, HostRange.extent, Extent.Within.refl],
        nofun, nofun, .nil, nofun⟩
    | false => exact ⟨Nat.zero_le 1, ⟨nofun, .nil⟩, nofun, nofun, nofun, .nil, nofun⟩
  tiles _ hreserved _ := by
    obtain rfl : reserved = true := hreserved
    exact fun address haddress => Or.inl ⟨_, List.mem_singleton_self _, haddress⟩

theorem perm (h : WindowKept low range buffers whole) (hperm : buffers'.Perm buffers) (hwhole : whole' → whole) :
    WindowKept low range buffers' whole' where
  place := h.place
  exclusive := h.exclusive.perm (blocks_perm hperm)
  tiles hwhole' hreserved hmost := (h.tiles (hwhole hwhole') hreserved hmost).perm (blocks_perm hperm)

/-- A buffer of another window comes or goes. -/
theorem cons_iff (houtside : buffer.inside low = false) :
    WindowKept low range (buffer :: buffers) whole ↔ WindowKept low range buffers whole := by
  constructor
  · intro h
    exact ⟨h.place, blocks_cons_of_outside houtside ▸ h.exclusive,
      fun hwhole hreserved hmost => blocks_cons_of_outside houtside ▸ h.tiles hwhole hreserved hmost⟩
  · intro h
    exact ⟨h.place, (blocks_cons_of_outside houtside).symm ▸ h.exclusive,
      fun hwhole hreserved hmost => (blocks_cons_of_outside houtside).symm ▸ h.tiles hwhole hreserved hmost⟩

/-- A buffer is lost. -/
theorem lose (h : WindowKept low range (buffer :: buffers) whole) (hlost : ¬whole') :
    WindowKept low range buffers whole' := by
  refine ⟨h.place, ?_, fun hwhole => absurd hwhole hlost⟩
  cases hinside : buffer.inside low with
  | false => exact blocks_cons_of_outside hinside ▸ h.exclusive
  | true => exact (blocks_cons_of_inside hinside ▸ h.exclusive).drop

theorem give (h : WindowKept low range (buffer :: buffers) whole) (hinside : buffer.inside low = true) :
    WindowKept low (range.give buffer.address buffer.bytes) buffers whole := by
  have hexclusive : range.Exclusive (buffer.extent :: blocks low buffers) :=
    blocks_cons_of_inside hinside ▸ h.exclusive
  refine ⟨h.place, hexclusive.give, fun hwhole hreserved hmost => ?_⟩
  have hlt : range.most < maxExtents := Nat.lt_of_le_of_lt (Nat.le_max_left ..) hmost
  have htiles : range.Tiles (buffer.extent :: blocks low buffers) :=
    blocks_cons_of_inside hinside ▸ h.tiles hwhole hreserved hlt
  exact htiles.give hexclusive (Nat.lt_of_le_of_lt hexclusive.counted hlt)

variable {bytes alignment address : Nat}

theorem take (h : WindowKept low range buffers whole) (hbytes : 0 < bytes) (halignment : 0 < alignment)
    (htake : range.take bytes alignment = some (address, range')) (hinside : buffer.inside low = true)
    (hextent : buffer.extent = ⟨address, bytes⟩) : WindowKept low range' (buffer :: buffers) whole := by
  have hexclusive := h.exclusive.take hbytes halignment htake
  refine ⟨?_, ?_, fun hwhole hreserved hmost => ?_⟩
  · obtain ⟨left, -, rfl⟩ := HostRange.take_eq_some htake
    exact h.place
  · rw [blocks_cons_of_inside hinside, hextent]
    exact hexclusive
  · have htiles : range.Tiles (blocks low buffers) := by
      obtain ⟨left, -, rfl⟩ := HostRange.take_eq_some htake
      exact h.tiles hwhole hreserved (Nat.lt_of_le_of_lt (Nat.le_max_left ..) hmost)
    rw [blocks_cons_of_inside hinside, hextent]
    exact htiles.take h.exclusive.spaced halignment htake

/-- A buffer's range lies in its window. -/
theorem within (h : WindowKept low range buffers whole) (hmem : buffer ∈ buffers)
    (hinside : buffer.inside low = true) : 0 < buffer.bytes ∧ buffer.extent.Within (GpuBroker.place low) :=
  have hblock := mem_blocks hmem hinside
  ⟨h.exclusive.blockPos _ hblock, h.place ▸ h.exclusive.blockInside _ hblock⟩

end WindowKept

/-! ### Both windows -/

namespace Broker

section Ranges

variable (broker : Broker)

theorem range_setRange_self (low : Bool) (range : HostRange) : (broker.setRange low range).range low = range := by
  cases low <;> rfl

theorem range_setRange_of_ne {low other : Bool} (h : other ≠ low) (range : HostRange) :
    (broker.setRange low range).range other = broker.range other := by
  cases low <;> cases other <;> first | rfl | exact absurd rfl h

theorem setRange_setRange (low : Bool) (range range' : HostRange) :
    (broker.setRange low range).setRange low range' = broker.setRange low range' := by
  cases low <;> rfl

theorem reserved_setRange {low : Bool} {range : HostRange} (h : range.reserved = (broker.range low).reserved)
    (other : Bool) : ((broker.setRange low range).range other).reserved = (broker.range other).reserved := by
  cases low <;> cases other <;> first | rfl | exact h

/-- A range goes back to its own window. -/
theorem giveRange_eq {low : Bool} {address bytes : Nat} (hbytes : 0 < bytes)
    (hwithin : (⟨address, bytes⟩ : Extent).Within (place low)) :
    broker.giveRange address bytes = broker.setRange low ((broker.range low).give address bytes) := by
  cases low with
  | true => exact if_pos ((contains_iff (by decide)).mpr ⟨hbytes, hwithin⟩)
  | false =>
    have hout := not_window_of_high hbytes hwithin
    exact (if_neg (by simp [hout])).trans (if_pos ((contains_iff (by decide)).mpr ⟨hbytes, hwithin⟩))

end Ranges

end Broker

/-- Both windows are kept while buffers of them are held. -/
def WindowsKept (broker : Broker) (buffers : List Buffer) (whole : Prop) : Prop :=
  ∀ low, WindowKept low (broker.range low) buffers whole

namespace WindowsKept

variable {broker broker' : Broker} {buffers buffers' : List Buffer} {buffer : Buffer} {whole whole' : Prop}

/-- At first everything that is reserved is free. -/
theorem start (windowReserved highReserved : Bool) : WindowsKept (.start windowReserved highReserved) [] whole := by
  intro low
  cases low with
  | true => exact .reserve true windowReserved (by decide)
  | false => exact .reserve false highReserved (by decide)

theorem perm (h : WindowsKept broker buffers whole) (hperm : buffers'.Perm buffers) :
    WindowsKept broker buffers' whole :=
  fun low => (h low).perm hperm id

/-- A buffer of no window comes or goes. -/
theorem cons_iff (hranged : buffer.ranged = false) :
    WindowsKept broker (buffer :: buffers) whole ↔ WindowsKept broker buffers whole :=
  forall_congr' fun _ => WindowKept.cons_iff (by simp [Buffer.inside, hranged])

theorem lose (h : WindowsKept broker (buffer :: buffers) whole) (hlost : ¬whole') : WindowsKept broker buffers whole' :=
  fun low => (h low).lose hlost

/-- A buffer's range goes back to its window. -/
theorem giveRange (h : WindowsKept broker (buffer :: buffers) whole) (hranged : buffer.ranged = true) :
    WindowsKept (broker.giveRange buffer.address buffer.bytes) buffers whole := by
  have hinside : buffer.inside buffer.low = true := by simp [Buffer.inside, hranged]
  obtain ⟨hbytes, hwithin⟩ := (h buffer.low).within List.mem_cons_self hinside
  rw [broker.giveRange_eq hbytes hwithin]
  intro low
  by_cases hlow : low = buffer.low
  · subst hlow
    rw [Broker.range_setRange_self]
    exact (h _).give hinside
  · have houtside : buffer.inside low = false := by simp [Buffer.inside, Ne.symm hlow]
    rw [broker.range_setRange_of_ne hlow]
    exact (WindowKept.cons_iff houtside).mp (h low)

section Take

variable {low : Bool} {bytes alignment address : Nat} {range : HostRange}

/-- A range is taken for a buffer. -/
theorem take (h : WindowsKept broker buffers whole) (hbytes : 0 < bytes) (halignment : 0 < alignment)
    (htake : (broker.range low).take bytes alignment = some (address, range)) (hranged : buffer.ranged = true)
    (hlow : buffer.low = low) (hextent : buffer.extent = ⟨address, bytes⟩) :
    WindowsKept (broker.setRange low range) (buffer :: buffers) whole := by
  intro other
  by_cases hother : other = low
  · subst hother
    rw [Broker.range_setRange_self]
    exact (h other).take hbytes halignment htake (by simp [Buffer.inside, hranged, hlow]) hextent
  · rw [broker.range_setRange_of_ne hother]
    have houtside : buffer.inside other = false := by simp [Buffer.inside, hlow, Ne.symm hother]
    exact (WindowKept.cons_iff houtside).mpr (h other)

/-- A range that is taken and given back. -/
theorem untake (h : WindowsKept broker buffers whole) (hbytes : 0 < bytes) (halignment : 0 < alignment)
    (htake : (broker.range low).take bytes alignment = some (address, range)) :
    WindowsKept (broker.setRange low (range.give address bytes)) buffers whole := by
  -- as if for a buffer that is released again
  have htaken : WindowsKept (broker.setRange low range) (⟨address, bytes, 0, false, true, 0, low, 0⟩ :: buffers) whole :=
    h.take hbytes halignment htake rfl rfl rfl
  have hwithin : (⟨address, bytes⟩ : Extent).Within (place low) :=
    ((htaken low).within List.mem_cons_self (by simp [Buffer.inside])).2
  have hgiven : (broker.setRange low range).giveRange address bytes =
      broker.setRange low (range.give address bytes) := by
    rw [Broker.giveRange_eq _ hbytes hwithin, Broker.range_setRange_self, Broker.setRange_setRange]
  rw [← hgiven]
  exact htaken.giveRange rfl

end Take

end WindowsKept

/-! ### All buffers -/

namespace Broker

/-- What holds of all buffers there have been: those that were not released are in a client's slot, in the
deferred list, in hand, or lost. -/
structure HostInvariant (broker : Broker) (loose : List Buffer) : Prop where
  windows : WindowsKept broker broker.unreleased (broker.relayFailed = false)
  serials : (broker.placed.map Buffer.serial).Nodup
  fresh : ∀ buffer ∈ broker.placed, buffer.serial < broker.made
  logged : ∀ serial ∈ broker.releasedBuffers, serial < broker.made
  aligned : ∀ buffer ∈ broker.placed, buffer.ranged = true →
    buffer.isLocal = false ∧ (buffer.asked = 0 ∨ buffer.asked ∣ buffer.address)
  ranged : ∀ buffer ∈ broker.placed, buffer.isLocal = false →
    buffer.ranged = true ∨ (broker.range buffer.low).reserved = false
  split : ∃ lost, (broker.held ++ loose ++ lost).Perm broker.unreleased ∧ (broker.Whole → lost = [])

/-- What a release does besides the windows. -/
theorem release_frame (broker : Broker) (kernel : Kernel) (buffer : Buffer) (asked : Asked) :
    (broker.release kernel buffer asked).held = broker.held ∧
      (broker.release kernel buffer asked).placed = broker.placed ∧
      (broker.release kernel buffer asked).made = broker.made ∧
      (broker.release kernel buffer asked).releasedBuffers = buffer.serial :: broker.releasedBuffers ∧
      ((broker.release kernel buffer asked).relayFailed = false → broker.relayFailed = false) ∧
      ((broker.release kernel buffer asked).Whole → broker.Whole) ∧
      ∀ low, ((broker.release kernel buffer asked).range low).reserved = (broker.range low).reserved := by
  unfold Broker.release giveRange
  dsimp only
  repeat' split
  all_goals refine ⟨rfl, rfl, rfl, rfl, ?_, ?_, fun low => by cases low <;> rfl⟩
  all_goals first | exact id | exact fun hwhole => { hwhole with } | exact nofun

section Unreleased

variable {broker broker' : Broker} {buffer : Buffer}

theorem unreleased_eq (hplaced : broker'.placed = broker.placed)
    (hreleased : broker'.releasedBuffers = broker.releasedBuffers) : broker'.unreleased = broker.unreleased := by
  unfold unreleased
  rw [hplaced, hreleased]

theorem mem_placed (h : buffer ∈ broker.unreleased) : buffer ∈ broker.placed :=
  (List.mem_filter.mp h).1

/-- A new buffer. -/
theorem unreleased_cons (hplaced : broker'.placed = buffer :: broker.placed)
    (hreleased : broker'.releasedBuffers = broker.releasedBuffers) (hnew : buffer.serial ∉ broker.releasedBuffers) :
    broker'.unreleased = buffer :: broker.unreleased := by
  unfold unreleased
  rw [hplaced, hreleased, List.filter_cons_of_pos (by simpa using hnew)]

/-- A buffer is released. -/
theorem unreleased_perm (hserials : (broker.placed.map Buffer.serial).Nodup) (hbuffer : buffer ∈ broker.unreleased)
    (hplaced : broker'.placed = broker.placed)
    (hreleased : broker'.releasedBuffers = buffer.serial :: broker.releasedBuffers) :
    broker.unreleased.Perm (buffer :: broker'.unreleased) := by
  have hnodup : broker.unreleased.Nodup := (List.Nodup.of_map _ hserials).filter _
  have herase : broker'.unreleased = broker.unreleased.erase buffer := by
    rw [hnodup.erase_eq_filter]
    unfold unreleased
    rw [hplaced, hreleased, List.filter_filter]
    refine List.filter_congr fun other hother => ?_
    have hsame : other.serial = buffer.serial ↔ other = buffer :=
      ⟨fun heq => List.inj_on_of_nodup_map hserials hother (mem_placed hbuffer) heq, fun heq => heq ▸ rfl⟩
    by_cases heq : other = buffer <;> simp [heq, hsame, bne]
  rw [herase]
  exact List.perm_cons_erase hbuffer

end Unreleased

namespace HostInvariant

variable {broker broker' : Broker} {loose loose' : List Buffer} {buffer : Buffer}

theorem start (windowReserved highReserved : Bool) : (Broker.start windowReserved highReserved).HostInvariant [] where
  windows := .start windowReserved highReserved
  serials := List.nodup_nil
  fresh := nofun
  logged := nofun
  aligned := nofun
  ranged := nofun
  split := ⟨[], by simp [held, live, unreleased, Broker.start, Client.buffers, Client.fresh], fun _ => rfl⟩

/-- The same buffers, wherever they are. -/
theorem regroup (h : broker.HostInvariant loose) (hsame : SameRanges broker broker')
    (hperm : (broker'.held ++ loose').Perm (broker.held ++ loose)) : broker'.HostInvariant loose' := by
  have hrange : ∀ low, broker'.range low = broker.range low := by
    intro low
    cases low with
    | true => exact hsame.window
    | false => exact hsame.high
  have hunreleased := unreleased_eq hsame.placed hsame.released
  obtain ⟨lost, hsplit, hwhole⟩ := h.split
  refine ⟨fun low => ?_, ?_, ?_, ?_, ?_, ?_, lost, ?_, fun hwhole' => hwhole (hsame.whole hwhole')⟩
  · rw [hrange, hunreleased, hsame.relayFailed]
    exact h.windows low
  · exact hsame.placed ▸ h.serials
  · exact hsame.placed ▸ fun other hother => (h.fresh other hother).trans_le hsame.made
  · exact hsame.released ▸ fun serial hserial => (h.logged serial hserial).trans_le hsame.made
  · exact hsame.placed ▸ h.aligned
  · rw [hsame.placed]
    intro other hother
    rw [hrange]
    exact h.ranged other hother
  · rw [hunreleased]
    exact (hperm.append_right lost).trans hsplit

theorem lose (h : broker.HostInvariant (buffer :: loose)) (hlost : ¬broker.Whole) : broker.HostInvariant loose := by
  obtain ⟨lost, hsplit, -⟩ := h.split
  refine { h with split := ⟨buffer :: lost, ?_, fun hwhole => absurd hwhole hlost⟩ }
  refine List.Perm.trans ?_ hsplit
  simp only [List.append_assoc, List.cons_append]
  exact List.perm_middle.append_left broker.held

theorem mem_unreleased (h : broker.HostInvariant loose) (hbuffer : buffer ∈ broker.held ++ loose) :
    buffer ∈ broker.unreleased := by
  obtain ⟨lost, hsplit, -⟩ := h.split
  exact hsplit.subset (List.mem_append_left lost hbuffer)

section Release

variable (kernel : Kernel) (asked : Asked)

/-- The windows after a release. -/
theorem windows_release {buffers : List Buffer} {whole : Prop} (h : WindowsKept broker (buffer :: buffers) whole)
    (hlocal : buffer.ranged = true → buffer.isLocal = false)
    (hwhole : (broker.release kernel buffer asked).relayFailed = false → whole) :
    WindowsKept (broker.release kernel buffer asked) buffers
      ((broker.release kernel buffer asked).relayFailed = false) := by
  have hlogged : WindowsKept (broker.logRelease (.buffer buffer.serial) asked) (buffer :: buffers) whole := h
  unfold Broker.release at hwhole ⊢
  dsimp only at hwhole ⊢
  generalize broker.logRelease (.buffer buffer.serial) asked = logged at hlogged hwhole
  cases hranged : buffer.ranged with
  | false =>
    simp only [hranged, Bool.not_false, Bool.or_true, if_true] at hwhole ⊢
    exact fun low => ((WindowsKept.cons_iff hranged).mp hlogged low).perm (.refl _) hwhole
  | true =>
    simp only [hlocal hranged, hranged, Bool.not_true, Bool.or_false, Bool.false_eq_true, if_false] at hwhole ⊢
    split at hwhole
    next hrelaid =>
      rw [if_pos hrelaid]
      exact fun low => (hlogged.giveRange hranged low).perm (.refl _) hwhole
    next hrelaid =>
      rw [if_neg hrelaid]
      exact fun low => (hlogged low).lose nofun

theorem release (h : broker.HostInvariant (buffer :: loose)) :
    (broker.release kernel buffer asked).HostInvariant loose := by
  have hbuffer : buffer ∈ broker.unreleased := h.mem_unreleased (by simp)
  obtain ⟨hheld, hplaced, hmade, hreleased, hrelaid, hwhole, hreserved⟩ := broker.release_frame kernel buffer asked
  have hperm := unreleased_perm h.serials hbuffer hplaced hreleased
  have hwindows := windows_release kernel asked (h.windows.perm hperm.symm)
    (fun hranged => (h.aligned buffer (mem_placed hbuffer) hranged).1) hrelaid
  generalize broker.release kernel buffer asked = broker' at *
  obtain ⟨lost, hsplit, hlost⟩ := h.split
  refine ⟨hwindows, hplaced ▸ h.serials, ?_, ?_, hplaced ▸ h.aligned, ?_, lost, ?_, fun hwhole' => hlost (hwhole hwhole')⟩
  · rw [hplaced, hmade]
    exact h.fresh
  · rw [hreleased, hmade]
    exact List.forall_mem_cons.mpr ⟨h.fresh buffer (mem_placed hbuffer), h.logged⟩
  · rw [hplaced]
    intro other hother
    rw [hreserved]
    exact h.ranged other hother
  · have hall := hsplit.trans hperm
    rw [List.append_assoc, List.cons_append] at hall
    rw [hheld, List.append_assoc]
    exact (List.perm_middle.symm.trans hall).cons_inv

end Release

section Enter

/-- A new buffer. -/
theorem enter (h : broker.HostInvariant loose) (hheld : broker'.held = broker.held)
    (hmade : broker'.made = broker.made + 1) (hserial : buffer.serial = broker.made)
    (hplaced : broker'.placed = buffer :: broker.placed) (hreleased : broker'.releasedBuffers = broker.releasedBuffers)
    (hreserved : ∀ low, (broker'.range low).reserved = (broker.range low).reserved)
    (hwhole : broker'.Whole → broker.Whole)
    (hwindows : WindowsKept broker' (buffer :: broker.unreleased) (broker'.relayFailed = false))
    (haligned : buffer.ranged = true → buffer.isLocal = false ∧ (buffer.asked = 0 ∨ buffer.asked ∣ buffer.address))
    (hranged : buffer.isLocal = false → buffer.ranged = true ∨ (broker.range buffer.low).reserved = false) :
    broker'.HostInvariant (buffer :: loose) := by
  have hnew : ∀ other ∈ broker.placed, other.serial ≠ buffer.serial := fun other hother =>
    Nat.ne_of_lt (hserial ▸ h.fresh other hother)
  have hunreleased : broker'.unreleased = buffer :: broker.unreleased :=
    unreleased_cons hplaced hreleased fun hlogged => Nat.lt_irrefl _ (hserial ▸ h.logged _ hlogged)
  obtain ⟨lost, hsplit, hlost⟩ := h.split
  refine ⟨hunreleased ▸ hwindows, ?_, ?_, ?_, ?_, ?_, lost, ?_, fun hwhole' => hlost (hwhole hwhole')⟩
  · rw [hplaced, List.map_cons, List.nodup_cons]
    refine ⟨fun hmem => ?_, h.serials⟩
    obtain ⟨other, hother, heq⟩ := List.mem_map.mp hmem
    exact hnew other hother heq
  · rw [hplaced, hmade]
    exact List.forall_mem_cons.mpr
      ⟨Nat.lt_succ_of_le (Nat.le_of_eq hserial), fun other hother => Nat.lt_succ_of_lt (h.fresh other hother)⟩
  · rw [hreleased, hmade]
    exact fun serial hlogged => Nat.lt_succ_of_lt (h.logged serial hlogged)
  · exact hplaced ▸ List.forall_mem_cons.mpr ⟨haligned, h.aligned⟩
  · rw [hplaced]
    refine List.forall_mem_cons.mpr ⟨?_, fun other hother => ?_⟩
    · rw [hreserved]
      exact hranged
    · rw [hreserved]
      exact h.ranged other hother
  · rw [hunreleased, hheld, List.append_assoc, List.cons_append]
    refine List.perm_middle.trans (List.Perm.cons buffer ?_)
    rw [← List.append_assoc]
    exact hsplit

/-- A window changes, or a range of it is lost, and no buffer. -/
theorem setRange (h : broker.HostInvariant loose) {low relayFailed : Bool} {range : HostRange}
    (hreserved : range.reserved = (broker.range low).reserved)
    (hrelaid : relayFailed = false → broker.relayFailed = false)
    (hwindows : WindowsKept (broker.setRange low range) broker.unreleased (relayFailed = false)) :
    HostInvariant { broker.setRange low range with relayFailed } loose := by
  have hranged : ∀ buffer ∈ broker.placed, buffer.isLocal = false →
      buffer.ranged = true ∨ ((broker.setRange low range).range buffer.low).reserved = false := by
    intro buffer hbuffer
    rw [broker.reserved_setRange hreserved]
    exact h.ranged buffer hbuffer
  obtain ⟨lost, hsplit, hlost⟩ := h.split
  cases low with
  | true | false => exact ⟨hwindows, h.serials, h.fresh, h.logged, h.aligned, hranged, lost, hsplit,
      fun hwhole => hlost { hwhole with relaid := hrelaid hwhole.relaid }⟩

variable {low : Bool} {bytes alignment address : Nat} {range : HostRange}

theorem reserved_take (htake : (broker.range low).take bytes alignment = some (address, range)) :
    range.reserved = (broker.range low).reserved := by
  obtain ⟨left, -, rfl⟩ := HostRange.take_eq_some htake
  rfl

section

variable (h : broker.HostInvariant loose)

include h

/-- A buffer of a window. -/
theorem take (hbytes : 0 < bytes) (halignment : 0 < alignment)
    (htake : (broker.range low).take bytes alignment = some (address, range)) (c : Fin 32) {asked : Nat}
    (hasked : asked = 0 ∨ asked ∣ alignment) : HostInvariant { broker.setRange low range with
      made := broker.made + 1, placed := broker.nextBuffer c address bytes asked low false true :: broker.placed }
      (broker.nextBuffer c address bytes asked low false true :: loose) := by
  have hreserved := broker.reserved_setRange (reserved_take htake)
  have hwindows : WindowsKept (broker.setRange low range)
      (broker.nextBuffer c address bytes asked low false true :: broker.unreleased) (broker.relayFailed = false) :=
    h.windows.take hbytes halignment htake rfl rfl rfl
  have haligned : asked = 0 ∨ asked ∣ address := by
    obtain ⟨left, hfound, -⟩ := HostRange.take_eq_some htake
    exact hasked.imp_right fun hdvd => Nat.dvd_trans hdvd (dvd_takeFrom halignment hfound)
  cases low with
  | true | false =>
    exact h.enter rfl rfl rfl rfl rfl hreserved (fun hwhole => { hwhole with }) hwindows
      (fun _ => ⟨rfl, haligned⟩) fun _ => Or.inl rfl

/-- A range that is taken and given back. -/
theorem untake (hbytes : 0 < bytes) (halignment : 0 < alignment)
    (htake : (broker.range low).take bytes alignment = some (address, range)) :
    (broker.setRange low (range.give address bytes)).HostInvariant loose := by
  have hreserved : range.reserved = (broker.range low).reserved := reserved_take htake
  have hset : HostInvariant { broker.setRange low (range.give address bytes) with relayFailed := broker.relayFailed }
      loose := h.setRange hreserved id (h.windows.untake hbytes halignment htake)
  cases low <;> exact hset

/-- A range that is taken and lost. -/
theorem strand (hbytes : 0 < bytes) (halignment : 0 < alignment)
    (htake : (broker.range low).take bytes alignment = some (address, range)) :
    HostInvariant { broker.setRange low range with relayFailed := true } loose := by
  have htaken : WindowsKept (broker.setRange low range)
      (broker.nextBuffer 0 address bytes 0 low false true :: broker.unreleased) (broker.relayFailed = false) :=
    h.windows.take hbytes halignment htake rfl rfl rfl
  exact h.setRange (reserved_take htake) nofun (htaken.lose nofun)

/-- A buffer of no window. -/
theorem place (c : Fin 32) (address bytes asked : Nat) {low isLocal : Bool}
    (hreserved : isLocal = false → (broker.range low).reserved = false) : HostInvariant { broker with
      made := broker.made + 1, placed := broker.nextBuffer c address bytes asked low isLocal false :: broker.placed }
      (broker.nextBuffer c address bytes asked low isLocal false :: loose) :=
  h.enter rfl rfl rfl rfl rfl (fun _ => rfl) (fun hwhole => { hwhole with })
    ((WindowsKept.cons_iff rfl).mpr h.windows) nofun fun hlocal => Or.inr (hreserved hlocal)

end

end Enter

end HostInvariant

end Broker

namespace Handed

variable {reserved : Bool → Bool} {broker : Broker} {loose : List Buffer}

/-- Wherever buffers go, the windows are kept. -/
theorem hostInvariant (h : Handed reserved broker loose) : broker.HostInvariant loose := by
  induction h with
  | start => exact .start ..
  | regroup _ hsame hperm ih => exact ih.regroup hsame hperm
  | lose _ hlost ih => exact ih.lose hlost
  | release kernel asked _ ih => exact ih.release kernel asked
  | take c window _ hbytes halignment hasked htake ih => exact ih.take hbytes halignment htake c hasked
  | untake window _ hbytes halignment htake ih => exact ih.untake hbytes halignment htake
  | strand window _ hbytes halignment htake ih => exact ih.strand hbytes halignment htake
  | place c address bytes asked low isLocal _ hreserved ih => exact ih.place c address bytes asked hreserved

/-- A window stays as reserved as it was. -/
theorem reserved_eq (h : Handed reserved broker loose) (low : Bool) : (broker.range low).reserved = reserved low := by
  induction h with
  | start => cases low <;> rfl
  | regroup _ hsame _ ih =>
    cases low with
    | true => exact (congrArg HostRange.reserved hsame.window).trans ih
    | false => exact (congrArg HostRange.reserved hsame.high).trans ih
  | lose _ _ ih => exact ih
  | release kernel asked _ ih => exact ((Broker.release_frame ..).2.2.2.2.2.2 low).trans ih
  | take _ _ _ _ _ _ htake ih =>
    exact (Broker.reserved_setRange _ (Broker.HostInvariant.reserved_take htake) low).trans ih
  | untake _ _ _ _ htake ih =>
    have hreserved := Broker.HostInvariant.reserved_take htake
    exact (Broker.reserved_setRange _ (by exact hreserved) low).trans ih
  | strand _ _ _ _ htake ih =>
    exact (Broker.reserved_setRange _ (Broker.HostInvariant.reserved_take htake) low).trans ih
  | place _ _ _ _ _ _ _ _ ih => exact ih

theorem nodup_releasedBuffers (h : Handed reserved broker loose) : broker.releasedBuffers.Nodup := by
  induction h with
  | start => exact .nil
  | regroup _ hsame _ ih => exact hsame.released.symm ▸ ih
  | release kernel asked h ih =>
    rw [(Broker.release_frame ..).2.2.2.1]
    have hbuffer := h.hostInvariant.mem_unreleased (List.mem_append_right _ List.mem_cons_self)
    exact ih.cons (of_decide_eq_true (List.mem_filter.mp hbuffer).2)
  | take _ window | untake window | strand window => cases window <;> assumption
  | _ => assumption

/-- No buffer is released twice or while it is held, and none is forgotten while nothing is lost. -/
theorem run_releasedOnce (settings : Settings) (reserved : Bool → Bool) (events : List Event) :
    let broker := Broker.run settings (reserved true) (reserved false) events
    (broker.held.map Buffer.serial ++ broker.releasedBuffers).Nodup ∧
      (broker.Whole → ∀ buffer ∈ broker.placed, buffer ∈ broker.held ∨ buffer.serial ∈ broker.releasedBuffers) := by
  intro broker
  have hhanded : Handed reserved broker [] := Broker.run_handed settings reserved events
  have h := hhanded.hostInvariant
  obtain ⟨lost, hsplit, hlost⟩ := h.split
  rw [List.append_nil] at hsplit
  have hserials : ((broker.held ++ lost).map Buffer.serial).Nodup :=
    (hsplit.map _).nodup_iff.mpr (h.serials.sublist (List.filter_sublist.map _))
  rw [List.map_append] at hserials
  refine ⟨hserials.of_append_left.append hhanded.nodup_releasedBuffers ?_, fun hwhole buffer hbuffer => ?_⟩
  · intro serial hheld hreleased
    obtain ⟨buffer, hbuffer, rfl⟩ := List.mem_map.mp hheld
    have hmem := List.mem_filter.mp (h.mem_unreleased (List.mem_append_left [] hbuffer))
    exact of_decide_eq_true hmem.2 hreleased
  · rw [hlost hwhole, List.append_nil] at hsplit
    refine or_iff_not_imp_right.mpr fun hreleased => ?_
    exact hsplit.mem_iff.mpr (List.mem_filter.mpr ⟨hbuffer, decide_eq_true hreleased⟩)

end Handed

/-! ### Runs with both windows reserved -/

/-- The host-visible buffers, live or deferred. -/
def Broker.hosts (broker : Broker) : List Buffer :=
  broker.held.filter fun buffer => !buffer.isLocal

/-- Host addresses are handed out exclusively. -/
structure HostsKept (settings : Settings) (broker : Broker) : Prop where
  disjoint : broker.hosts.Pairwise fun first second => first.extent.Disjoint second.extent
  placed : ∀ buffer ∈ broker.hosts, 0 < buffer.bytes ∧ (buffer.asked = 0 ∨ buffer.asked ∣ buffer.address) ∧
    buffer.extent.Within (place buffer.low)
  /-- By address, not empty and no two adjacent. -/
  spaced : ∀ low, Extent.Spaced (broker.range low).free
  freed : ∀ low, ∀ extent ∈ (broker.range low).free, extent.Within (place low) ∧
    ∀ buffer ∈ broker.hosts, extent.Disjoint buffer.extent
  tiled : broker.relayFailed = false → broker.wedged = false → broker.tokenWrapped = false →
    ∀ low, (broker.range low).most < maxExtents → ∀ address, (place low).Has address →
      Extent.Covers (broker.range low).free address ∨ Extent.Covers (broker.hosts.map Buffer.extent) address
  counted : ∀ c, hostBytes (broker.clients c).buffers ≤ (broker.clients c).allocated ∧
    (broker.clients c).allocated ≤ settings.hostLimit ∧
    (broker.tokenWrapped = false → (broker.clients c).allocated = hostBytes (broker.clients c).buffers)

section Hosts

variable {broker : Broker} {loose : List Buffer} {buffer : Buffer}

/-- What is in one window is not in the other. -/
theorem disjoint_of_places {first second : Extent} {low : Bool} (hfirst : first.Within (place low))
    (hsecond : second.Within (place !low)) : first.Disjoint second := by
  have hplaces : (place low).Disjoint (place !low) := by cases low <;> decide
  exact hfirst.disjoint (hsecond.disjoint hplaces.symm).symm

namespace Broker.HostInvariant

/-- A buffer's range lies in its window. -/
theorem within (h : broker.HostInvariant loose) (hbuffer : buffer ∈ broker.unreleased) (hranged : buffer.ranged = true) :
    0 < buffer.bytes ∧ buffer.extent.Within (GpuBroker.place buffer.low) :=
  (h.windows buffer.low).within hbuffer (by simp [Buffer.inside, hranged])

/-- Until it is released, a buffer shares no address with another. -/
theorem disjoint_of_ne (h : broker.HostInvariant loose) {other : Buffer} (hbuffer : buffer ∈ broker.unreleased)
    (hother : other ∈ broker.unreleased) (hranged : buffer.ranged = true) (hranged' : other.ranged = true)
    (hne : buffer ≠ other) : buffer.extent.Disjoint other.extent := by
  by_cases hlow : other.low = buffer.low
  · have hapart := List.pairwise_map.mp (h.windows buffer.low).exclusive.blocksApart
    have hmem : ∀ some ∈ broker.unreleased, some.ranged = true → some.low = buffer.low →
        some ∈ broker.unreleased.filter (·.inside buffer.low) := fun some hsome hranged hlow =>
      List.mem_filter.mpr ⟨hsome, by simp [Buffer.inside, hranged, hlow]⟩
    have hsymm : Std.Symm fun first second : Buffer => first.extent.Disjoint second.extent :=
      ⟨fun _ _ hdisjoint => hdisjoint.symm⟩
    exact hapart.forall (hmem buffer hbuffer hranged rfl) (hmem other hother hranged' hlow) hne
  · have hplace := (h.within hother hranged').2
    rw [Bool.eq_not_of_ne hlow] at hplace
    exact disjoint_of_places (h.within hbuffer hranged).2 hplace

/-- And none with what is free. -/
theorem free_disjoint (h : broker.HostInvariant loose) {low : Bool} {extent : Extent}
    (hextent : extent ∈ (broker.range low).free) (hbuffer : buffer ∈ broker.unreleased)
    (hranged : buffer.ranged = true) : extent.Disjoint buffer.extent := by
  by_cases hlow : buffer.low = low
  · have hinside : buffer.inside low = true := by simp [Buffer.inside, hranged, hlow]
    exact (h.windows low).exclusive.apart _ (mem_blocks hbuffer hinside) extent hextent
  · have hplace := (h.windows low).place ▸ (h.windows low).exclusive.freeInside extent hextent
    exact disjoint_of_places hplace (Bool.eq_not_of_ne hlow ▸ (h.within hbuffer hranged).2)

theorem held_nodup (h : broker.HostInvariant []) : broker.held.Nodup := by
  obtain ⟨lost, hsplit, -⟩ := h.split
  have hnodup : broker.unreleased.Nodup := (List.Nodup.of_map _ h.serials).filter _
  rw [List.append_nil] at hsplit
  exact (hsplit.nodup_iff.mpr hnodup).of_append_left

/-- With both windows reserved the host-visible buffers are in them. -/
theorem host (h : broker.HostInvariant []) (hreserved : ∀ low, (broker.range low).reserved = true)
    (hbuffer : buffer ∈ broker.hosts) : buffer ∈ broker.unreleased ∧ buffer.ranged = true := by
  obtain ⟨hheld, hlocal⟩ := List.mem_filter.mp hbuffer
  have hmem := h.mem_unreleased (List.mem_append_left [] hheld)
  refine ⟨hmem, ?_⟩
  rcases h.ranged buffer (mem_placed hmem) (by simpa using hlocal) with hranged | hnot
  · exact hranged
  · exact absurd (hnot.symm.trans (hreserved _)) (by decide)

/-- While nothing is lost, the blocks of a window are those of the host-visible buffers in it. -/
theorem covers_hosts (h : broker.HostInvariant []) (hwhole : broker.Whole) {low : Bool} {address : Nat}
    (hcovers : Extent.Covers (blocks low broker.unreleased) address) :
    Extent.Covers (broker.hosts.map Buffer.extent) address := by
  obtain ⟨block, hblock, hhas⟩ := hcovers
  obtain ⟨buffer, hbuffer, rfl⟩ := List.mem_map.mp hblock
  obtain ⟨hmem, hinside⟩ := List.mem_filter.mp hbuffer
  have hranged : buffer.ranged = true := (Bool.and_eq_true_iff.mp hinside).1
  have hlocal := (h.aligned buffer (mem_placed hmem) hranged).1
  obtain ⟨lost, hsplit, hlost⟩ := h.split
  rw [hlost hwhole, List.append_nil, List.append_nil] at hsplit
  exact ⟨_, List.mem_map_of_mem (List.mem_filter.mpr ⟨hsplit.symm.subset hmem, by simp [hlocal]⟩), hhas⟩

end Broker.HostInvariant

end Hosts

/-- In every run with both windows reserved, whatever requests come and whatever the system refuses, host
addresses are handed out exclusively. -/
theorem run_hostsKept (settings : Settings) (events : List Event) :
    HostsKept settings (Broker.run settings true true events) := by
  have hhanded := Broker.run_handed settings (fun _ => true) events
  have haccounts := Broker.run_accounts settings true true events
  generalize Broker.run settings true true events = broker at hhanded haccounts
  have h := hhanded.hostInvariant
  have hreserved := hhanded.reserved_eq
  refine ⟨?_, fun buffer hbuffer => ?_, fun low => (h.windows low).exclusive.spaced,
    fun low extent hextent => ⟨?_, fun buffer hbuffer => ?_⟩, fun hrelaid htrusted hnamed low hmost address haddress => ?_,
    fun c => ⟨(haccounts c).covers, (haccounts c).limited, (haccounts c).counted⟩⟩
  · have hdistinct : broker.hosts.Pairwise (· ≠ ·) := h.held_nodup.filter _
    refine hdistinct.imp_of_mem fun {first second} hfirst hsecond hne => ?_
    exact h.disjoint_of_ne (h.host hreserved hfirst).1 (h.host hreserved hsecond).1 (h.host hreserved hfirst).2
      (h.host hreserved hsecond).2 hne
  · obtain ⟨hmem, hranged⟩ := h.host hreserved hbuffer
    obtain ⟨hpos, hwithin⟩ := h.within hmem hranged
    exact ⟨hpos, (h.aligned buffer (Broker.mem_placed hmem) hranged).2, hwithin⟩
  · exact (h.windows low).place ▸ (h.windows low).exclusive.freeInside extent hextent
  · obtain ⟨hmem, hranged⟩ := h.host hreserved hbuffer
    exact h.free_disjoint hextent hmem hranged
  · have htiles := (h.windows low).tiles hrelaid (hreserved low) hmost
    have hhas : (broker.range low).extent.Has address := (h.windows low).place.symm ▸ haddress
    exact (htiles address hhas).imp_right (h.covers_hosts ⟨hrelaid, htrusted, hnamed⟩)

/-! ### What is lost -/

namespace Lost

/-- 64 MiB for each client, no timestamps. -/
def settings : Settings where
  hostLimit := 64 * 2 ^ 20
  stampBytes := 0
  shaderBase := windowBase
  shaderBytes := windowBytes
  hostLimit_pages := by decide

/-- A page of the low window, and its free. -/
def alloc : Event :=
  .alloc 0 ⟨pageBytes, 0, 1, 0⟩ .willing

def free (token : Nat) : Event :=
  .free 0 token windowBase pageBytes .willing

/-- A client is closed while its service is still there; then another client's buffer is freed. -/
def wedged : List Event :=
  [.connect 0, .connect 1, alloc, .close 1 true .willing, free 1]

/-- A client with its slots, its last token and its count. -/
def client (slots : List (Option Buffer)) (token allocated : Nat) : Client :=
  { Client.fresh with connected := true, slots, nextToken := token, allocated }

/-- A broker whose client 0 has had all its requests handled. -/
def served (window : HostRange) (client : Client) (made : Nat) (placed : List Buffer) (released : List Release) : Broker :=
  Broker.setClient { Broker.start true true with window, made, placed, released } 0 client

/-- Client 0 without buffers. -/
def idle (slots : List (Option Buffer)) (token made : Nat) (placed : List Buffer) (released : List Release) : Broker :=
  served (.reserve windowBase windowBytes true) (client slots token 0) made placed released

def page (token serial : Nat) : Buffer :=
  ⟨windowBase, pageBytes, token, false, true, 0, true, serial⟩

/-- The low window without its first page. -/
def opened : HostRange :=
  ⟨windowBase, windowBytes, true, [⟨windowBase + pageBytes, windowBytes - pageBytes⟩], 1⟩

section Pairs

variable {slots : List (Option Buffer)} {token made : Nat} {placed : List Buffer} {released : List Release}

theorem step_alloc (hslots : slots = [] ∨ slots = [none]) :
    (idle slots token made placed released).step settings alloc =
      ((served opened (client slots token 0) made placed released).addBuffer 0 (page ((token + 1) % 2 ^ 32) made)).1 := by
  rcases hslots with rfl | rfl <;> rfl

/-- The next buffer, while the token is not 0. -/
theorem step_alloc_named (hslots : slots = [] ∨ slots = [none]) (htoken : token + 1 < 2 ^ 32) :
    (idle slots token made placed released).step settings alloc =
      served opened (client [some (page (token + 1) made)] (token + 1) pageBytes) (made + 1)
        (page (token + 1) made :: placed) released := by
  have hadded : (client slots token 0).addBuffer (page (token + 1) made) =
      client [some (page (token + 1) made)] (token + 1) pageBytes := by
    rcases hslots with rfl | rfl <;> simp [Client.addBuffer, page, putSlot, client]
  rw [step_alloc hslots, Nat.mod_eq_of_lt htoken]
  simp only [Broker.addBuffer, served, Broker.clients_setClient_self, Broker.setClient_setClient, hadded]
  simp [page, Broker.setClient, Broker.start]

/-- The buffer is freed, and released at once. -/
theorem step_free :
    (served opened (client [some (page token made)] token pageBytes) (made + 1) placed released).step settings
      (free token) = idle [none] token (made + 1) placed (⟨.buffer made, ⟨0, false⟩, 0⟩ :: released) := by
  have htake : takeSlot token windowBase pageBytes (client [some (page token made)] token pageBytes).slots =
      some (page token made, [none]) := by
    simp [takeSlot, page, client]
  have hgive : opened.give windowBase pageBytes = .reserve windowBase windowBytes true := by decide
  have hpin : (client [some (page token made)] token pageBytes).pinned (page token made) = false := rfl
  generalize hbroker : served opened (client [some (page token made)] token pageBytes) (made + 1) placed released = broker
  have hclient : broker.clients 0 = client [some (page token made)] token pageBytes :=
    hbroker ▸ Broker.clients_setClient_self ..
  have hrequest : broker.step settings (free token) = broker.free .willing 0 token windowBase pageBytes :=
    if_pos (hclient ▸ ⟨rfl, rfl⟩)
  rw [hrequest]
  unfold Broker.free
  simp only [hclient, htake, hpin]
  subst hbroker
  simp only [Bool.false_eq_true, if_false, served, Broker.setClient_setClient, Broker.freeBuffer,
    Broker.clients_setClient_self]
  have hin : contains windowBase windowBytes windowBase pageBytes = true := by decide
  simp [client, page, idle, served, Client.setThread, Client.discount, Client.fresh, Broker.setClient, Broker.start,
    Broker.reap, Broker.release, Broker.giveRange, Broker.logRelease, Broker.now, Broker.accepted, Kernel.willing, hin,
    hgive]

end Pairs

/-- A client connects, and gets and frees a page so many times. -/
def pairs (count : Nat) : List Event :=
  .connect 0 :: (List.range count).flatMap fun k => [alloc, free (k + 1)]

theorem pairs_succ (count : Nat) : pairs (count + 1) = pairs count ++ [alloc, free (count + 1)] := by
  simp [pairs, List.range_succ]

theorem run_pairs {count : Nat} (h : count < 2 ^ 32) : ∃ slots made placed released, (slots = [] ∨ slots = [none]) ∧
      Broker.run settings true true (pairs count) = idle slots count made placed released := by
  induction count with
  | zero => exact ⟨[], 0, [], [], Or.inl rfl, rfl⟩
  | succ count ih =>
    obtain ⟨slots, made, placed, released, hslots, hrun⟩ := ih (Nat.lt_of_succ_lt h)
    refine ⟨[none], made + 1, page (count + 1) made :: placed, ⟨.buffer made, ⟨0, false⟩, 0⟩ :: released,
      Or.inr rfl, ?_⟩
    unfold Broker.run at hrun ⊢
    rw [pairs_succ, List.foldl_append, hrun]
    simp only [List.foldl_cons, List.foldl_nil]
    rw [step_alloc_named hslots h, step_free]

/-- The token comes around to 0: the buffer has no slot, and the client's count has it. -/
theorem run_wrapped {count : Nat} (h : count + 1 = 2 ^ 32) :
    ((Broker.run settings true true (pairs count ++ [alloc])).clients 0).allocated = pageBytes ∧
      ((Broker.run settings true true (pairs count ++ [alloc])).clients 0).buffers = [] := by
  obtain ⟨slots, made, placed, released, hslots, hrun⟩ := run_pairs (Nat.lt_of_succ_le (Nat.le_of_eq h))
  have hlast : Broker.run settings true true (pairs count ++ [alloc]) =
      ((served opened (client slots count 0) made placed released).addBuffer 0 (page 0 made)).1 := by
    unfold Broker.run at hrun ⊢
    rw [List.foldl_append, hrun]
    simp only [List.foldl_cons, List.foldl_nil]
    rw [step_alloc hslots, h, Nat.mod_self]
  have hclient : ((served opened (client slots count 0) made placed released).addBuffer 0 (page 0 made)).1.clients 0 =
      (client slots count 0).addBuffer (page 0 made) := by
    simp only [Broker.addBuffer, served, Broker.clients_setClient_self, Broker.setClient_setClient]
  rw [hlast, hclient]
  rcases hslots with rfl | rfl <;> simp [Client.addBuffer, client, page, Client.buffers]

/-- A range that is freed while the broker is wedged is neither free nor held, with room in the array and
every reservation laid back; and a client that comes around to token 0 counts a buffer it does not have. -/
theorem range_and_count_lost :
    ((Broker.run settings true true wedged).relayFailed = false ∧
      (∀ low, ((Broker.run settings true true wedged).range low).most < maxExtents) ∧
      (place true).Has windowBase ∧
      ¬Extent.Covers ((Broker.run settings true true wedged).range true).free windowBase ∧
      ¬Extent.Covers ((Broker.run settings true true wedged).hosts.map Buffer.extent) windowBase) ∧
    ((Broker.run settings true true (pairs (2 ^ 32 - 1) ++ [alloc])).clients 0).allocated ≠
      hostBytes ((Broker.run settings true true (pairs (2 ^ 32 - 1) ++ [alloc])).clients 0).buffers := by
  refine ⟨by decide, ?_⟩
  obtain ⟨hallocated, hbuffers⟩ := @run_wrapped (2 ^ 32 - 1) (by decide)
  rw [hallocated, hbuffers]
  decide

end Lost

end Ps5Vulkan.GpuBroker
