import Ps5Vulkan.GpuBroker.HostMemory

/-!
# Presents read memory their client has

A present looks up its image under the broker's lock, pins it in the client and reads it without the lock. The
client's connection and its present link share one pin. As long as only one of the two presents, the pin is that
of the present, and a free of the image's buffer waits for it; where both present, the second takes the first
one's pin away.
-/

namespace Ps5Vulkan.GpuBroker

def Connection.presents : Connection → Bool
  | .presenting _ _ _ => true
  | .idle => false
  | .freeing _ _ _ => false

namespace Client

/-- At most one of the client's threads presents. -/
def single (client : Client) : Bool :=
  !(client.main.presents && client.link.presents)

/-- What a thread presents lies in a buffer of the client, and is what the client has pinned. -/
def Pinned (client : Client) : Prop :=
  ∀ link buffer address bytes, client.thread link = .presenting buffer address bytes →
    buffer ∈ client.buffers ∧ contains buffer.address buffer.bytes address bytes = true ∧
      client.pin = some (address, bytes)

section Threads

variable {client : Client} {connection : Connection}

theorem presents_eq_false (h : ∀ buffer address bytes, connection ≠ .presenting buffer address bytes) :
    connection.presents = false := by
  cases connection with
  | presenting buffer address bytes => exact absurd rfl (h buffer address bytes)
  | idle | freeing => rfl

/-- Where one thread presents, the other does not. -/
theorem presents_other (h : client.single = true) (link : Bool) (hpresents : (client.thread link).presents = true) :
    (client.thread !link).presents = false := by
  have hboth : (client.main.presents && client.link.presents) = false := by
    rw [single, Bool.not_eq_true'] at h
    exact h
  cases link with
  | false =>
    have hmain : client.main.presents = true := hpresents
    rw [hmain, Bool.true_and] at hboth
    exact hboth
  | true =>
    have hlink : client.link.presents = true := hpresents
    rw [hlink, Bool.and_true] at hboth
    exact hboth

/-- The buffer that was looked up holds the range. -/
theorem owner_spec {buffer : Buffer} {address bytes : Nat} (h : client.owner address bytes = some buffer) :
    buffer ∈ client.buffers ∧ contains buffer.address buffer.bytes address bytes = true :=
  ⟨List.mem_of_find?_eq_some h, by simpa using List.find?_some h⟩

/-- A free of the buffer in which the pin lies waits. -/
theorem pinned_of_contains {buffer : Buffer} {address bytes : Nat} (hpin : client.pin = some (address, bytes))
    (hcontains : contains buffer.address buffer.bytes address bytes = true) : client.pinned buffer = true := by
  simp only [contains, decide_eq_true_eq] at hcontains
  simp only [pinned, hpin, decide_eq_true_eq]
  omega

end Threads

namespace Pinned

variable {settings : Settings} {wrapped : Bool} {client client' : Client}

/-- No thread presents. -/
theorem of_quiet (h : ∀ link, (client.thread link).presents = false) : client.Pinned := by
  intro link buffer address bytes hthread
  have hpresents := h link
  rw [hthread] at hpresents
  cases hpresents

/-- The same presents and pin, and at least the buffers that are presented. -/
theorem mono (h : client.Pinned)
    (hthread : ∀ link, (client'.thread link).presents = true → client'.thread link = client.thread link)
    (hpin : client'.pin = client.pin)
    (hbuffers : ∀ buffer ∈ client.buffers, client.pinned buffer = true → buffer ∈ client'.buffers) : client'.Pinned := by
  intro link buffer address bytes hpresenting
  have hsame := hthread link (by rw [hpresenting]; rfl)
  obtain ⟨hmem, hcontains, hpinned⟩ := h link buffer address bytes (hsame.symm.trans hpresenting)
  exact ⟨hbuffers buffer hmem (pinned_of_contains hpinned hcontains), hcontains, hpin.trans hpinned⟩

theorem add (h : client.Pinned) (buffer : Buffer) : (client.addBuffer buffer).Pinned := by
  refine h.mono (fun _ _ => rfl) rfl fun other hother _ => ?_
  unfold buffers addBuffer
  dsimp only
  split
  · exact hother
  · exact (reduceOption_putSlot buffer client.slots).symm.subset (List.mem_cons_of_mem buffer hother)

theorem settle (h : client.Pinned) {connection : Connection} (hconnection : connection.presents = false) :
    (client.setThread false connection).Pinned := by
  refine h.mono (fun link hpresents => ?_) rfl fun _ hbuffer _ => hbuffer
  cases link with
  | true => rfl
  | false => exact absurd (hconnection.symm.trans hpresents) (by decide)

/-- A buffer is freed that is not pinned. -/
theorem free (h : client.Pinned) {token address bytes : Nat} {buffer : Buffer} {slots : List (Option Buffer)}
    (htake : takeSlot token address bytes client.slots = some (buffer, slots)) (hfree : client.pinned buffer = false)
    (tess tessBytes : Nat) : (client.withoutBuffer buffer slots tess tessBytes).Pinned := by
  refine h.mono (fun link hpresents => ?_) rfl fun other hother hpinned => ?_
  · cases link with
    | true => rfl
    | false => cases hpresents
  · rcases List.mem_cons.mp ((reduceOption_takeSlot htake).subset hother) with rfl | hrest
    · exact absurd (hfree.symm.trans hpinned) (by decide)
    · exact hrest

/-- A present of the only thread that does. -/
theorem present {link : Bool} {buffer : Buffer} {address bytes : Nat}
    (howner : client.owner address bytes = some buffer) (hother : (client.thread !link).presents = false) :
    Pinned { client.setThread link (.presenting buffer address bytes) with pin := some (address, bytes) } := by
  intro link' buffer' address' bytes' hpresenting
  obtain ⟨hmem, hcontains⟩ := owner_spec howner
  have hthis : link' = link := by
    by_contra hlink
    rw [Bool.eq_not_of_ne hlink] at hpresenting
    have hthread : client.thread (!link) = .presenting buffer' address' bytes' := by
      cases link <;> exact hpresenting
    rw [hthread] at hother
    cases hother
  subst hthis
  have hsame : Connection.presenting buffer address bytes = .presenting buffer' address' bytes' := by
    cases link' <;> exact hpresenting
  obtain ⟨rfl, rfl, rfl⟩ := Connection.presenting.inj hsame
  refine ⟨?_, hcontains, rfl⟩
  cases link' <;> exact hmem

/-- The present of the only thread that did ends. -/
theorem presented {link : Bool} (hother : (client.thread !link).presents = false) :
    Pinned { client.setThread link .idle with pin := none } := by
  refine of_quiet fun link' => ?_
  by_cases hlink : link' = link
  · subst hlink
    cases link' <;> rfl
  · rw [Bool.eq_not_of_ne hlink]
    cases link <;> exact hother

theorem step (h : client.Pinned) (hsingle : client.single = true) (hsingle' : client'.single = true)
    (hstep : Step settings wrapped client client') : client'.Pinned := by
  cases hstep with
  | keep => exact h
  | connect => exact of_quiet fun link => by cases link <;> rfl
  | other _ hslots _ hpin hmain hlink =>
    refine h.mono (fun link _ => ?_) hpin fun _ hbuffer _ => ?_
    · cases link with
      | false => exact hmain
      | true => exact hlink
    · unfold buffers
      rwa [hslots]
  | add => exact h.add _
  | settle _ hconnection => exact h.settle (presents_eq_false hconnection)
  | free tess tessBytes _ htake hfree => exact h.free htake hfree tess tessBytes
  | @present link _ _ _ _ howner =>
    refine present howner ?_
    have hother := presents_other hsingle' link (by cases link <;> rfl)
    cases link <;> exact hother
  | presented hpresenting =>
    refine presented (presents_other hsingle _ ?_)
    rw [hpresenting]
    rfl
  | close => exact of_quiet fun link => by cases link <;> rfl

end Pinned

end Client

/-! ### Runs -/

namespace Broker

variable {settings : Settings} {broker : Broker}

/-- No client presents on both of its connections. -/
def single (broker : Broker) : Bool :=
  decide (∀ c, (broker.clients c).single = true)

/-- So it is throughout a run. -/
def singleAlong (settings : Settings) : Broker → List Event → Bool
  | broker, [] => broker.single
  | broker, event :: events => broker.single && singleAlong settings (broker.step settings event) events

theorem singleAlong.first {events : List Event} (h : singleAlong settings broker events = true) :
    ∀ c, (broker.clients c).single = true := by
  cases events with
  | nil => exact of_decide_eq_true h
  | cons event events => exact of_decide_eq_true (Bool.and_eq_true_iff.mp h).1

/-- Along a run of single presents, what is presented is pinned. -/
theorem pinned_steps (haccounts : broker.Accounts settings) (hpinned : ∀ c, (broker.clients c).Pinned)
    {events : List Event} (hsingle : singleAlong settings broker events = true) :
    ∀ c, ((events.foldl (step settings) broker).clients c).Pinned := by
  induction events generalizing broker with
  | nil => exact hpinned
  | cons event events ih =>
    have hrest := (Bool.and_eq_true_iff.mp hsingle).2
    obtain ⟨_, hstep⟩ := broker.stepAt settings (fun c => (haccounts c).limited) event
    refine ih (haccounts.step event) (fun c => ?_) hrest
    exact (hpinned c).step (singleAlong.first hsingle c) (singleAlong.first hrest c) (hstep.all c)

/-- Every image that is being read lies in a buffer its client has, which was not released, and whose range is
neither free nor another buffer's. -/
def PresentsKept (broker : Broker) : Prop :=
  ∀ c link buffer address bytes, (broker.clients c).thread link = .presenting buffer address bytes →
    contains buffer.address buffer.bytes address bytes = true ∧ buffer ∈ (broker.clients c).buffers ∧
    buffer.serial ∉ broker.releasedBuffers ∧
    (buffer.ranged = true →
      (∀ other ∈ broker.unreleased, other.ranged = true → other ≠ buffer → other.extent.Disjoint buffer.extent) ∧
      ∀ low, ∀ extent ∈ (broker.range low).free, extent.Disjoint buffer.extent)

/-- In every run in which no client presents on both of its connections at once, presents read what their client
has. -/
theorem run_presentsKept (settings : Settings) (windowReserved highReserved : Bool) (events : List Event)
    (hsingle : singleAlong settings (start windowReserved highReserved) events = true) :
    (run settings windowReserved highReserved events).PresentsKept := by
  intro c link buffer address bytes hpresenting
  have hquiet : ∀ c, ((start windowReserved highReserved).clients c).Pinned := fun _ =>
    .of_quiet fun link => by cases link <;> rfl
  have hpinned : ((run settings windowReserved highReserved events).clients c).Pinned :=
    pinned_steps (fun _ => .fresh false) hquiet hsingle c
  have hhanded := run_handed settings (fun low => if low then windowReserved else highReserved) events
  have hhost : (run settings windowReserved highReserved events).HostInvariant [] := hhanded.hostInvariant
  obtain ⟨hmem, hcontains, -⟩ := hpinned link buffer address bytes hpresenting
  have hunreleased := hhost.mem_unreleased (List.mem_append_left [] (mem_held _ hmem))
  refine ⟨hcontains, hmem, by simpa using (List.mem_filter.mp hunreleased).2, fun hranged => ⟨?_, ?_⟩⟩
  · exact fun other hother hranged' hne => hhost.disjoint_of_ne hother hunreleased hranged' hranged hne
  · exact fun low extent hextent => hhost.free_disjoint hextent hunreleased hranged

end Broker

/-! ### Two presents of a client -/

namespace TwoPresents

/-- A client with two pages and a present link, which presents the first. -/
def client : List Event :=
  [.connect 0, Lost.alloc, Lost.alloc, .presentLink 0, .present 0 true windowBase pageBytes true]

/-- A free of the page waits until it has been read. -/
def waiting : List Event :=
  client ++ [Lost.free 1, .wake 0 .willing]

theorem waiting_presentsKept :
    Broker.singleAlong Lost.settings (.start true true) waiting = true ∧
      (Broker.run Lost.settings true true waiting).PresentsKept :=
  ⟨by decide, Broker.run_presentsKept Lost.settings true true waiting (by decide)⟩

/-- Meanwhile the connection presents the second page, and the first is freed and given to client 1. -/
def crossed : List Event :=
  client ++ [.present 0 false (windowBase + pageBytes) pageBytes true, .presented 0 false, Lost.free 1,
    .connect 1, .alloc 1 ⟨pageBytes, 0, 1, 0⟩ .willing]

/-- The link still reads its page, which was released and is another client's. -/
theorem page_released_under_present :
    ∃ buffer, ((Broker.run Lost.settings true true crossed).clients 0).link =
        .presenting buffer windowBase pageBytes ∧
      buffer.serial ∈ (Broker.run Lost.settings true true crossed).releasedBuffers ∧
      ∃ other ∈ ((Broker.run Lost.settings true true crossed).clients 1).buffers,
        other.extent = buffer.extent :=
  ⟨Lost.page 1 0, by decide⟩

end TwoPresents

end Ps5Vulkan.GpuBroker
