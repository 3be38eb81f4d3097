import Ps5Vulkan.GpuBroker.Presents

/-!
# What requests keep

A request takes from a client at most the buffer that it frees. All but the requests about sparse ranges keep every
client's ranges, no client is disconnected but by its close, and only a present makes a thread present.
-/

namespace Ps5Vulkan.GpuBroker

/-- A client keeps its buffers and ranges, and its threads present only where `presenting` says that they may. -/
structure Client.Keeps (presenting : Bool) (client client' : Client) : Prop where
  buffers : client.buffers ⊆ client'.buffers
  ranges : client'.ranges = client.ranges
  connected : client'.connected = client.connected
  presents : presenting = false → ∀ link, (client'.thread link).presents = true → client'.thread link = client.thread link

namespace Client.Keeps

variable {presenting : Bool} {client client' client'' : Client}

theorem refl (client : Client) : client.Keeps presenting client :=
  ⟨List.Subset.refl _, rfl, rfl, fun _ _ _ => rfl⟩

theorem trans (h : client.Keeps presenting client') (h' : client'.Keeps presenting client'') :
    client.Keeps presenting client'' := by
  refine ⟨List.Subset.trans h.buffers h'.buffers, h'.ranges.trans h.ranges, h'.connected.trans h.connected, ?_⟩
  intro hpresenting link hpresents
  have hsame := h'.presents hpresenting link hpresents
  exact hsame.trans (h.presents hpresenting link (hsame ▸ hpresents))

/-- A thread that does not present. -/
theorem settle (client : Client) (link : Bool) {connection : Connection} (h : connection.presents = false) :
    client.Keeps presenting (client.setThread link connection) := by
  have hthread : ∀ link', ((client.setThread link connection).thread link').presents = true →
      (client.setThread link connection).thread link' = client.thread link' := by
    intro link' hpresents
    cases link <;> cases link' <;> first | rfl | exact absurd (h.symm.trans hpresents) (by decide)
  cases link <;> exact ⟨List.Subset.refl _, rfl, rfl, fun _ => hthread⟩

theorem setPin (client : Client) (pin : Option (Nat × Nat)) : client.Keeps presenting { client with pin } :=
  ⟨List.Subset.refl _, rfl, rfl, fun _ _ _ => rfl⟩

theorem present (client : Client) (link : Bool) (connection : Connection) (pin : Option (Nat × Nat)) :
    client.Keeps true { client.setThread link connection with pin } := by
  cases link <;> exact ⟨List.Subset.refl _, rfl, rfl, nofun⟩

theorem addBuffer (client : Client) (buffer : Buffer) : client.Keeps presenting (client.addBuffer buffer) := by
  refine ⟨fun other hother => ?_, rfl, rfl, fun _ _ _ => rfl⟩
  unfold Client.addBuffer Client.buffers
  dsimp only
  split
  · exact hother
  · exact (reduceOption_putSlot buffer _).symm.subset (List.mem_cons_of_mem buffer hother)

end Client.Keeps

/-- Every client does. -/
def Keeps (presenting : Bool) (broker broker' : Broker) : Prop :=
  ∀ c, (broker.clients c).Keeps presenting (broker'.clients c)

namespace Keeps

variable {settings : Settings} {presenting : Bool} {broker broker' handle : Broker} {c : Fin 32}

theorem refl (broker : Broker) : Keeps presenting broker broker :=
  fun c => .refl (broker.clients c)

theorem of_same (h : SameClients broker broker') : Keeps presenting broker broker' :=
  fun _ => h.clients ▸ .refl _

theorem setClient {client : Client} (h : (broker.clients c).Keeps presenting client) :
    Keeps presenting broker (broker.setClient c client) := by
  intro d
  by_cases hd : d = c
  · rwa [hd, broker.clients_setClient_self]
  · rw [broker.clients_setClient_of_ne client hd]
    exact .refl _

theorem choose {condition : Prop} [Decidable condition] (h : Keeps presenting broker handle) :
    Keeps presenting broker (if condition then handle else broker) := by
  split
  · exact h
  · exact refl broker

theorem addBuffer (buffer : Buffer) : Keeps presenting broker (broker.addBuffer c buffer).1 := by
  have hset : Keeps presenting broker (broker.setClient c ((broker.clients c).addBuffer buffer)) := setClient (.addBuffer ..)
  exact hset

theorem allocate (kernel : Kernel) (message : Broker.AllocMessage) :
    Keeps presenting broker (broker.allocate settings kernel c message).1 := by
  obtain ⟨_, ⟨_, _, _, _, _, rfl⟩, heq | ⟨buffer, heq, -⟩⟩ := broker.allocate_cases settings kernel c message <;> rw [heq]
  · exact refl broker
  · exact (addBuffer buffer : Keeps presenting broker (broker.addBuffer c buffer).1)

end Keeps

namespace Broker

variable {settings : Settings} {broker : Broker} {c : Fin 32}

/-- The buffer a free takes from its client, unless it waits. -/
def unpinned (broker : Broker) (c : Fin 32) (token address bytes : Nat) : Option (Fin 32 × Buffer) :=
  match takeSlot token address bytes (broker.clients c).slots with
  | none => none
  | some (buffer, _) => if (broker.clients c).pinned buffer then none else some (c, buffer)

/-- The buffer an event frees, and its client. -/
def freed (broker : Broker) : Event → Option (Fin 32 × Buffer)
  | .free c token address bytes _ =>
    if (broker.clients c).connected ∧ (broker.clients c).main = .idle then broker.unpinned c token address bytes
    else none
  | .wake c _ =>
    match (broker.clients c).main with
    | .freeing token address bytes => broker.unpinned c token address bytes
    | _ => none
  | _ => none

/-- A client loses a buffer, and keeps all else. -/
structure Frees (c : Fin 32) (buffer : Buffer) (broker broker' : Broker) : Prop where
  buffers : (broker.clients c).buffers.Perm (buffer :: (broker'.clients c).buffers)
  others : ∀ d, d ≠ c → broker'.clients d = broker.clients d
  ranges : ∀ d, (broker'.clients d).ranges = (broker.clients d).ranges
  connected : ∀ d, (broker'.clients d).connected = (broker.clients d).connected
  presents : ∀ d link, ((broker'.clients d).thread link).presents = true →
    (broker'.clients d).thread link = (broker.clients d).thread link

theorem Frees.freeBuffer {token address bytes : Nat} {buffer : Buffer} {slots : List (Option Buffer)}
    (htake : takeSlot token address bytes (broker.clients c).slots = some (buffer, slots)) (tess tessBytes : Nat)
    (kernel : Kernel) :
    Frees c buffer broker ((broker.setClient c { (broker.clients c).setThread false .idle with slots, tess, tessBytes }).freeBuffer
      kernel c buffer) := by
  generalize hclient : ({ (broker.clients c).setThread false .idle with slots, tess, tessBytes } : Client) = client
  have hsame : SameClients (broker.setClient c (client.discount buffer))
      ((broker.setClient c client).freeBuffer kernel c buffer) := by
    have hfree : SameClients _ ((broker.setClient c client).freeBuffer kernel c buffer) := .freeBuffer kernel c buffer
    rwa [broker.clients_setClient_self, broker.setClient_setClient] at hfree
  have hself : ((broker.setClient c client).freeBuffer kernel c buffer).clients c = client.discount buffer := by
    rw [hsame.clients, broker.clients_setClient_self]
  have hothers : ∀ d, d ≠ c → ((broker.setClient c client).freeBuffer kernel c buffer).clients d = broker.clients d := by
    intro d hd
    rw [hsame.clients, broker.clients_setClient_of_ne _ hd]
  subst hclient
  refine ⟨?_, hothers, fun d => ?_, fun d => ?_, fun d link hpresents => ?_⟩
  · rw [hself]
    exact reduceOption_takeSlot htake
  all_goals by_cases hd : d = c
  · rw [hd, hself]
    rfl
  · exact congrArg Client.ranges (hothers d hd)
  · rw [hd, hself]
    rfl
  · exact congrArg Client.connected (hothers d hd)
  · subst hd
    rw [hself] at hpresents ⊢
    cases link with
    | true => rfl
    | false => cases hpresents
  · exact congrArg (Client.thread · link) (hothers d hd)

/-- A free either takes its buffer or keeps all. -/
theorem free_cases (broker : Broker) (kernel : Kernel) (c : Fin 32) (token address bytes : Nat) :
    (broker.unpinned c token address bytes = none ∧ Keeps false broker (broker.free kernel c token address bytes)) ∨
      ∃ buffer, broker.unpinned c token address bytes = some (c, buffer) ∧
        Frees c buffer broker (broker.free kernel c token address bytes) := by
  unfold free unpinned
  dsimp only
  cases htake : takeSlot token address bytes (broker.clients c).slots with
  | none => exact Or.inl ⟨rfl, .setClient (.settle _ false rfl)⟩
  | some found =>
    obtain ⟨buffer, slots⟩ := found
    dsimp only
    split
    · exact Or.inl ⟨rfl, .setClient (.settle _ false rfl)⟩
    · exact Or.inr ⟨buffer, rfl, .freeBuffer htake _ _ kernel⟩

/-- A client's ranges change, and nothing else. -/
theorem clients_setRanges (broker : Broker) (c : Fin 32) (ranges : List SparseRange) (d : Fin 32) :
    ∃ ranges', (broker.setClient c { broker.clients c with ranges }).clients d = { broker.clients d with ranges := ranges' } := by
  by_cases hd : d = c
  · subst hd
    exact ⟨ranges, broker.clients_setClient_self ..⟩
  · exact ⟨(broker.clients d).ranges, broker.clients_setClient_of_ne _ hd⟩

theorem clients_vrangeReserve (broker : Broker) (kernel : Kernel) (c : Fin 32) (bytes : Nat) (d : Fin 32) :
    ∃ ranges, (broker.vrangeReserve kernel c bytes).1.clients d = { broker.clients d with ranges } := by
  unfold vrangeReserve
  dsimp only
  repeat' split
  · exact ⟨_, rfl⟩
  · exact ⟨_, rfl⟩
  · exact ⟨_, rfl⟩
  · exact broker.clients_setRanges c _ d

theorem clients_vrangeRelease (broker : Broker) (kernel : Kernel) (c : Fin 32) (address : Nat) (d : Fin 32) :
    ∃ ranges, (broker.vrangeRelease kernel c address).1.clients d = { broker.clients d with ranges } := by
  have hdrained : SameClients broker (broker.drain kernel) := .housekeeping (.drain kernel)
  unfold vrangeRelease
  dsimp only
  repeat' split
  · exact ⟨_, rfl⟩
  · exact ⟨_, congrFun hdrained.clients d⟩
  next range _ _ =>
    rw [← hdrained.clients]
    exact ((broker.drain kernel).logRelease (.range range.serial) broker.now).clients_setRanges c _ d

/-- The same of a request that a wedged broker refuses. -/
theorem clients_request {handle : Broker} (h : ∀ d, ∃ ranges, handle.clients d = { broker.clients d with ranges })
    (d : Fin 32) :
    ∃ ranges, (broker.request c (if broker.wedged then broker else handle)).clients d = { broker.clients d with ranges } := by
  unfold request
  repeat' split
  · exact ⟨_, rfl⟩
  · exact h d
  · exact ⟨_, rfl⟩

/-- The events of a client's ranges, and of the client as a whole. -/
def ranging : Event → Bool
  | .connect _ => true
  | .close _ _ _ => true
  | .vrangeReserve _ _ _ => true
  | .vrangeRelease _ _ _ => true
  | _ => false

def presenting : Event → Bool
  | .present _ _ _ _ _ => true
  | _ => false

/-- The other events keep all, or free a buffer. -/
theorem step_cases (settings : Settings) (broker : Broker) {event : Event} (hevent : ranging event = false) :
    (broker.freed event = none ∧ Keeps (presenting event) broker (broker.step settings event)) ∨
      ∃ c buffer, broker.freed event = some (c, buffer) ∧ Frees c buffer broker (broker.step settings event) := by
  cases event with
  | connect c | close c live kernel | vrangeReserve c bytes kernel => cases hevent
  | vrangeRelease c address kernel => cases hevent
  | alloc c message kernel =>
    refine Or.inl ⟨rfl, .choose ?_⟩
    split
    · exact .refl broker
    · exact .allocate kernel message
  | free c token address bytes kernel =>
    unfold freed step request
    dsimp only
    split
    · rcases broker.free_cases kernel c token address bytes with hkeeps | ⟨buffer, hfrees⟩
      · exact Or.inl hkeeps
      · exact Or.inr ⟨c, buffer, hfrees⟩
    · exact Or.inl ⟨rfl, .refl broker⟩
  | wake c kernel =>
    unfold freed step
    dsimp only
    cases hmain : (broker.clients c).main with
    | idle | presenting buffer address bytes => exact Or.inl ⟨rfl, .refl broker⟩
    | freeing token address bytes =>
      rcases broker.free_cases kernel c token address bytes with hkeeps | ⟨buffer, hfrees⟩
      · exact Or.inl hkeeps
      · exact Or.inr ⟨c, buffer, hfrees⟩
  | submit c message kernel =>
    exact Or.inl ⟨rfl, .choose (.of_same (.housekeeping (.submit settings kernel c message)))⟩
  | tess c address bytes | offchip c granularity buffering =>
    exact Or.inl ⟨rfl, .choose (.choose (.setClient ⟨List.Subset.refl _, rfl, rfl, fun _ _ _ => rfl⟩))⟩
  | presentLink c => exact Or.inl ⟨rfl, .choose (.setClient ⟨List.Subset.refl _, rfl, rfl, fun _ _ _ => rfl⟩)⟩
  | present c link address bytes valid =>
    refine Or.inl ⟨rfl, .choose ?_⟩
    unfold present
    dsimp only
    repeat' split
    · exact .refl broker
    · exact .refl broker
    · exact .setClient (.present _ link _ _)
  | presented c link =>
    refine Or.inl ⟨rfl, ?_⟩
    unfold step
    dsimp only
    split
    · exact .setClient ((Client.Keeps.settle _ link rfl).trans (.setPin _ none))
    · exact .refl broker
  | reap kernel => exact Or.inl ⟨rfl, .of_same (.housekeeping (.reap kernel))⟩
  | away kernel => exact Or.inl ⟨rfl, .choose (.of_same (.housekeeping (.drain kernel)))⟩
  | complete => exact Or.inl ⟨rfl, .of_same (.housekeeping (.same .complete))⟩

end Broker

end Ps5Vulkan.GpuBroker
