import Ps5Vulkan.GpuBroker.Buffers

/-!
# What a request does to a client

`Client.Step` lists what can become of a client in one step of the broker, whoever caused it. An invariant of
the clients is checked against it.
-/

variable (kernel : Kernel)

namespace Ps5Vulkan.GpuBroker

namespace Client

/-- A client without one of its buffers: `free_buffer` and what FREE does before it. -/
def withoutBuffer (client : Client) (buffer : Buffer) (slots : List (Option Buffer)) (tess tessBytes : Nat) :
    Client :=
  ({ client.setThread false .idle with slots, tess, tessBytes } : Client).discount buffer

/-- What one step of the broker makes of a client; `wrapped` says whether a client's tokens have come around
by then. -/
inductive Step (settings : Settings) (wrapped : Bool) : Client → Client → Prop
  | keep (client : Client) : Step settings wrapped client client
  | connect {client : Client} : client.connected = false →
      Step settings wrapped client { fresh with connected := true }
  /-- The client's fields that neither buffers nor presents are about. -/
  | other {client client' : Client} : client'.connected = client.connected → client'.slots = client.slots →
      client'.allocated = client.allocated → client'.pin = client.pin → client'.main = client.main →
      client'.link = client.link → Step settings wrapped client client'
  | add {client : Client} {buffer : Buffer} : client.connected = true →
      (buffer.isLocal = false → client.allocated + buffer.bytes ≤ settings.hostLimit) →
      (buffer.token = 0 → wrapped = true) → Step settings wrapped client (client.addBuffer buffer)
  /-- A free that finds no buffer, or waits for the pin. -/
  | settle {client : Client} {connection : Connection} :
      (∀ buffer address bytes, client.main ≠ .presenting buffer address bytes) →
      (∀ buffer address bytes, connection ≠ .presenting buffer address bytes) →
      Step settings wrapped client (client.setThread false connection)
  | free {client : Client} {token address bytes : Nat} {buffer : Buffer} {slots : List (Option Buffer)}
      (tess tessBytes : Nat) : (∀ buffer address bytes, client.main ≠ .presenting buffer address bytes) →
      takeSlot token address bytes client.slots = some (buffer, slots) → client.pinned buffer = false →
      Step settings wrapped client (client.withoutBuffer buffer slots tess tessBytes)
  | present {client : Client} {link : Bool} {buffer : Buffer} {address bytes : Nat} :
      client.thread link = .idle → client.owner address bytes = some buffer →
      Step settings wrapped client
        { client.setThread link (.presenting buffer address bytes) with pin := some (address, bytes) }
  | presented {client : Client} {link : Bool} {buffer : Buffer} {address bytes : Nat} :
      client.thread link = .presenting buffer address bytes →
      Step settings wrapped client { client.setThread link .idle with pin := none }
  | close {client : Client} : client.main = .idle → client.link = .idle → Step settings wrapped client fresh

end Client

theorem Broker.clients_setClient_self (broker : Broker) (c : Fin 32) (client : Client) :
    (broker.setClient c client).clients c = client :=
  Function.update_self ..

theorem Broker.clients_setClient_of_ne (broker : Broker) {c d : Fin 32} (client : Client) (h : d ≠ c) :
    (broker.setClient c client).clients d = broker.clients d :=
  Function.update_of_ne h ..

theorem Broker.setClient_setClient (broker : Broker) (c : Fin 32) (client client' : Client) :
    (broker.setClient c client).setClient c client' = broker.setClient c client' := by
  unfold Broker.setClient
  rw [Function.update_idem]

/-- The clients are the same. -/
structure SameClients (broker broker' : Broker) : Prop where
  clients : broker'.clients = broker.clients
  tokenWrapped : broker'.tokenWrapped = broker.tokenWrapped

namespace SameClients

variable {broker broker' broker'' : Broker}

theorem refl (broker : Broker) : SameClients broker broker :=
  ⟨rfl, rfl⟩

theorem trans (h : SameClients broker broker') (h' : SameClients broker' broker'') : SameClients broker broker'' :=
  ⟨h'.clients.trans h.clients, h'.tokenWrapped.trans h.tokenWrapped⟩

theorem release (buffer : Buffer) (asked : Asked) : SameClients broker (broker.release kernel buffer asked) := by
  unfold Broker.release Broker.giveRange
  dsimp only
  repeat' split
  all_goals exact ⟨rfl, rfl⟩

theorem releaseAll (asked : Asked) (buffers : List Buffer) :
    SameClients broker (buffers.foldl (fun broker buffer => broker.release kernel buffer asked) broker) :=
  List.foldlRecOn (motive := fun broker' : Broker => SameClients broker broker') buffers _ (.refl broker)
    fun _ hsame _ _ => hsame.trans (release ..)

theorem housekeeping (h : Housekeeping broker broker') : SameClients broker broker' := by
  induction h with
  | same h => exact ⟨h.clients, h.tokenWrapped⟩
  | release kernel h =>
    refine .trans ?_ (release ..)
    exact ⟨rfl, rfl⟩
  | trans _ _ ih ih' => exact ih.trans ih'

theorem setClient (h : SameClients broker broker') (c : Fin 32) (client : Client) :
    SameClients (broker.setClient c client) (broker'.setClient c client) := by
  refine ⟨?_, h.tokenWrapped⟩
  unfold Broker.setClient
  rw [h.clients]

/-- Of the clients a free changes what its own did. -/
theorem freeBuffer (c : Fin 32) (buffer : Buffer) :
    SameClients (broker.setClient c ((broker.clients c).discount buffer)) (broker.freeBuffer kernel c buffer) := by
  rcases Broker.freeBuffer_rec (motive := SameClients _) (fun _ h => h.trans (.housekeeping (.reap kernel)))
    (fun _ h => h.trans (.housekeeping (.drain kernel))) (.refl _) with
    ⟨-, heq⟩ | ⟨-, room, hroom, heq | ⟨-, heq⟩ | ⟨-, heq⟩⟩ <;> rw [heq]
  · exact .refl _
  · exact hroom.trans ⟨rfl, rfl⟩
  · exact hroom.trans (.release ..)
  · exact hroom.trans ⟨rfl, rfl⟩

/-- Of the clients a close changes the one it closes. -/
theorem close (c : Fin 32) (live : Bool) : SameClients (broker.setClient c .fresh) (broker.close kernel c live) := by
  obtain ⟨judged, ⟨-, hjudged, heq⟩ | ⟨-, -, hjudged, heq⟩⟩ := Broker.close_rec (motive := SameClients _) c live
    (fun _ h => h.trans (.housekeeping (.drain kernel))) (.refl broker) <;> rw [heq] <;> refine setClient ?_ c .fresh
  · rcases hjudged with hjudged | ⟨last, hlast, rfl⟩
    · exact hjudged
    · exact hlast.trans ⟨rfl, rfl⟩
  · exact hjudged.trans (.trans (.housekeeping (.same (.logReleases broker.now _))) (.releaseAll ..))

end SameClients

/-- A step at one client: the others stay as they are. -/
structure StepAt (settings : Settings) (c : Fin 32) (broker broker' : Broker) : Prop where
  client : Client.Step settings broker'.tokenWrapped (broker.clients c) (broker'.clients c)
  others : ∀ d, d ≠ c → broker'.clients d = broker.clients d
  wrapped : broker.tokenWrapped = true → broker'.tokenWrapped = true

namespace StepAt

variable {settings : Settings} {c : Fin 32} {broker broker' broker'' : Broker}

theorem all (h : StepAt settings c broker broker') (d : Fin 32) :
    Client.Step settings broker'.tokenWrapped (broker.clients d) (broker'.clients d) := by
  by_cases hd : d = c
  · exact hd ▸ h.client
  · exact h.others d hd ▸ .keep _

/-- A client is set. -/
theorem setClient {client : Client} (h : Client.Step settings broker.tokenWrapped (broker.clients c) client) :
    StepAt settings c broker (broker.setClient c client) where
  client := by
    rw [broker.clients_setClient_self]
    exact h
  others _ hd := broker.clients_setClient_of_ne client hd
  wrapped := id

theorem of_same (h : SameClients broker broker') : StepAt settings c broker broker' :=
  ⟨h.clients ▸ .keep _, fun _ _ => h.clients ▸ rfl, fun hwrapped => h.tokenWrapped.trans hwrapped⟩

/-- A step of a broker whose clients are the same. -/
theorem from_same (h : SameClients broker broker') (hstep : StepAt settings c broker' broker'') :
    StepAt settings c broker broker'' :=
  ⟨h.clients ▸ hstep.client, h.clients ▸ hstep.others, h.tokenWrapped ▸ hstep.wrapped⟩

/-- What leaves the clients alone does not change what a step did. -/
theorem after (h : StepAt settings c broker broker') (hsame : SameClients broker' broker'') :
    StepAt settings c broker broker'' where
  client := hsame.clients.symm ▸ hsame.tokenWrapped.symm ▸ h.client
  others d hd := hsame.clients.symm ▸ h.others d hd
  wrapped hwrapped := hsame.tokenWrapped.trans (h.wrapped hwrapped)

theorem refl : StepAt settings c broker broker :=
  of_same (.refl broker)

theorem addBuffer {buffer : Buffer} (hconnected : (broker.clients c).connected = true)
    (hroom : buffer.isLocal = false → (broker.clients c).allocated + buffer.bytes ≤ settings.hostLimit) :
    StepAt settings c broker (broker.addBuffer c buffer).1 where
  client := by
    refine (broker.clients_setClient_self c ((broker.clients c).addBuffer buffer)).symm ▸ .add hconnected hroom ?_
    intro htoken
    simp [Broker.addBuffer, htoken]
  others _ hd := broker.clients_setClient_of_ne _ hd
  wrapped hwrapped := by simp [Broker.addBuffer, hwrapped]

theorem allocate (hconnected : (broker.clients c).connected = true)
    (hlimit : (broker.clients c).allocated ≤ settings.hostLimit) (kernel : Kernel) (message : Broker.AllocMessage) :
    StepAt settings c broker (broker.allocate settings kernel c message).1 := by
  obtain ⟨_, ⟨_, _, _, _, _, rfl⟩, heq | ⟨buffer, heq, hroom⟩⟩ := broker.allocate_cases settings kernel c message <;>
    rw [heq]
  · exact of_same ⟨rfl, rfl⟩
  · exact (addBuffer hconnected fun hlocal => Nat.add_le_of_le_sub' hlimit (hroom hlocal)).after ⟨rfl, rfl⟩

theorem free (hmain : ∀ buffer address bytes, (broker.clients c).main ≠ .presenting buffer address bytes)
    (kernel : Kernel) (token address bytes : Nat) :
    StepAt settings c broker (broker.free kernel c token address bytes) := by
  unfold Broker.free
  dsimp only
  split
  next => exact setClient (.settle hmain nofun)
  next buffer slots htake =>
    split
    · exact setClient (.settle hmain nofun)
    next hpin =>
      refine after ?_ (.freeBuffer kernel c buffer)
      rw [Broker.clients_setClient_self, Broker.setClient_setClient]
      exact setClient (.free _ _ hmain htake (Bool.eq_false_iff.mpr hpin))

theorem submit (message : Broker.SubmitMessage) :
    StepAt settings c broker (broker.submit settings kernel c message).1 :=
  of_same (.housekeeping (.submit settings kernel c message))

theorem vrangeReserve (bytes : Nat) : StepAt settings c broker (broker.vrangeReserve kernel c bytes).1 := by
  unfold Broker.vrangeReserve
  dsimp only
  repeat' split
  · exact refl
  · exact refl
  · exact refl
  next address bytes _ =>
    have hset : StepAt settings c broker (broker.setClient c { broker.clients c with
        ranges := (broker.clients c).ranges ++ [⟨address, bytes, broker.made⟩] }) :=
      setClient (.other rfl rfl rfl rfl rfl rfl)
    exact hset.after ⟨rfl, rfl⟩

theorem vrangeRelease (address : Nat) : StepAt settings c broker (broker.vrangeRelease kernel c address).1 := by
  unfold Broker.vrangeRelease
  dsimp only
  have hdrained : SameClients broker (broker.drain kernel) := .housekeeping (.drain kernel)
  repeat' split
  · exact refl
  · exact of_same hdrained
  next range _ _ =>
    have hlogged : SameClients broker ((broker.drain kernel).logRelease (.range range.serial) broker.now) :=
      hdrained.trans ⟨rfl, rfl⟩
    refine from_same hlogged (setClient ?_)
    exact .other rfl rfl rfl rfl rfl rfl

theorem present {link : Bool} (hidle : (broker.clients c).thread link = .idle) (address bytes : Nat)
    (valid : Bool) : StepAt settings c broker (broker.present c link address bytes valid) := by
  unfold Broker.present
  dsimp only
  repeat' split
  · exact refl
  · exact refl
  next howner => exact setClient (.present hidle howner)

theorem request {handle : Broker}
    (h : (broker.clients c).connected = true → (broker.clients c).main = .idle → StepAt settings c broker handle) :
    StepAt settings c broker (broker.request c handle) := by
  unfold Broker.request
  split
  next hidle => exact h hidle.1 hidle.2
  next => exact refl

theorem requestTrusted {handle : Broker} (h : (broker.clients c).connected = true → StepAt settings c broker handle) :
    StepAt settings c broker (broker.request c (if broker.wedged then broker else handle)) := by
  refine request fun hconnected _ => ?_
  split
  · exact refl
  · exact h hconnected

end StepAt

/-- Every event is a step at one client, or at none. -/
theorem Broker.stepAt (settings : Settings) {broker : Broker}
    (hlimit : ∀ c, (broker.clients c).allocated ≤ settings.hostLimit) (event : Event) :
    ∃ c, StepAt settings c broker (broker.step settings event) := by
  cases event with
  | connect c =>
    refine ⟨c, ?_⟩
    unfold step
    dsimp only
    split
    · exact .refl
    next hconnected => exact .setClient (.connect (Bool.eq_false_iff.mpr hconnected))
  | alloc c message kernel =>
    exact ⟨c, .requestTrusted fun hconnected => .allocate hconnected (hlimit c) kernel message⟩
  | free c token address bytes kernel =>
    refine ⟨c, .request fun _ hidle => .free ?_ kernel token address bytes⟩
    rw [hidle]
    nofun
  | wake c kernel =>
    refine ⟨c, ?_⟩
    unfold step
    dsimp only
    split
    next hfreeing =>
      refine .free ?_ kernel _ _ _
      rw [hfreeing]
      nofun
    next => exact .refl
  | submit c message kernel => exact ⟨c, .request fun _ _ => .submit kernel message⟩
  | tess c address bytes | offchip c granularity buffering =>
    refine ⟨c, .request fun _ _ => ?_⟩
    split
    · exact .setClient (.other rfl rfl rfl rfl rfl rfl)
    · exact .refl
  | vrangeReserve c bytes kernel => exact ⟨c, .requestTrusted fun _ => .vrangeReserve kernel bytes⟩
  | vrangeRelease c address kernel => exact ⟨c, .requestTrusted fun _ => .vrangeRelease kernel address⟩
  | presentLink c => exact ⟨c, .request fun _ _ => .setClient (.other rfl rfl rfl rfl rfl rfl)⟩
  | present c link address bytes valid =>
    refine ⟨c, ?_⟩
    unfold step
    dsimp only
    split
    next hready => exact .present hready.2.2 address bytes valid
    next => exact .refl
  | presented c link =>
    refine ⟨c, ?_⟩
    unfold step
    dsimp only
    split
    next hpresenting => exact .setClient (.presented hpresenting)
    next => exact .refl
  | close c live kernel =>
    refine ⟨c, ?_⟩
    unfold step
    dsimp only
    split
    next hidle => exact .after (.setClient (.close hidle.2.1 hidle.2.2)) (.close kernel c live)
    next => exact .refl
  | reap kernel => exact ⟨0, .of_same (.housekeeping (.reap kernel))⟩
  | away kernel =>
    refine ⟨0, ?_⟩
    unfold step
    dsimp only
    split
    · exact .of_same (.housekeeping (.drain kernel))
    · exact .refl
  | complete => exact ⟨0, .of_same (.housekeeping (.same .complete))⟩

/-! ### Accounts -/

/-- The bytes of host-visible buffers. -/
def hostBytes (buffers : List Buffer) : Nat :=
  ((buffers.filter fun buffer => !buffer.isLocal).map Buffer.bytes).sum

theorem hostBytes_perm {buffers buffers' : List Buffer} (h : buffers.Perm buffers') :
    hostBytes buffers = hostBytes buffers' :=
  ((h.filter _).map _).sum_nat

theorem hostBytes_cons (buffer : Buffer) (buffers : List Buffer) :
    hostBytes (buffer :: buffers) = (if buffer.isLocal then 0 else buffer.bytes) + hostBytes buffers := by
  unfold hostBytes
  cases hlocal : buffer.isLocal <;> simp [hlocal]

namespace Client

/-- A client's count of host bytes: it covers the client's buffers and is within the limit, and it is their sum
while no token has come around. -/
structure Account (settings : Settings) (wrapped : Bool) (client : Client) : Prop where
  unused : client.connected = false → client.slots = []
  covers : hostBytes client.buffers ≤ client.allocated
  limited : client.allocated ≤ settings.hostLimit
  counted : wrapped = false → client.allocated = hostBytes client.buffers

namespace Account

variable {settings : Settings} {wrapped wrapped' : Bool} {client client' : Client} {buffer : Buffer}

theorem fresh (connected : Bool) : Account settings wrapped { Client.fresh with connected } where
  unused _ := rfl
  covers := Nat.le_refl 0
  limited := Nat.zero_le _
  counted _ := rfl

section

variable (h : client.Account settings wrapped)

include h

/-- The account where nothing of it changes. -/
theorem other (hconnected : client'.connected = client.connected)
    (hslots : client'.slots = client.slots) (hallocated : client'.allocated = client.allocated) :
    client'.Account settings wrapped := by
  have hbuffers : client'.buffers = client.buffers := congrArg List.reduceOption hslots
  refine ⟨fun hunused => hslots.trans (h.unused (hconnected ▸ hunused)), ?_, ?_, fun hwrapped => ?_⟩
  · rw [hbuffers, hallocated]
    exact h.covers
  · rw [hallocated]
    exact h.limited
  · rw [hbuffers, hallocated]
    exact h.counted hwrapped

theorem setThread (link : Bool) (connection : Connection) :
    (client.setThread link connection).Account settings wrapped := by
  cases link <;> exact h.other rfl rfl rfl

theorem add (hconnected : client.connected = true)
    (hroom : buffer.isLocal = false → client.allocated + buffer.bytes ≤ settings.hostLimit)
    (htoken : buffer.token = 0 → wrapped = true) : (client.addBuffer buffer).Account settings wrapped := by
  -- the count grows by what the buffer has, the sum only if the buffer gets a slot
  have hallocated : (client.addBuffer buffer).allocated =
      (if buffer.isLocal then 0 else buffer.bytes) + client.allocated := by
    cases hlocal : buffer.isLocal <;> simp [addBuffer, hlocal, Nat.add_comm]
  have hlimited : (client.addBuffer buffer).allocated ≤ settings.hostLimit := by
    rw [hallocated]
    cases hlocal : buffer.isLocal with
    | true => simpa using h.limited
    | false => simpa [Nat.add_comm] using hroom hlocal
  have hunused : (client.addBuffer buffer).connected = false → (client.addBuffer buffer).slots = [] :=
    fun hfalse => absurd (hconnected.symm.trans hfalse) (by decide)
  by_cases hzero : buffer.token = 0
  · have hbuffers : (client.addBuffer buffer).buffers = client.buffers := by
      simp only [buffers, addBuffer, if_pos hzero]
    refine ⟨hunused, ?_, hlimited, fun hfalse => absurd ((htoken hzero).symm.trans hfalse) (by decide)⟩
    rw [hbuffers, hallocated]
    exact Nat.le_add_left_of_le h.covers
  · have hbuffers : hostBytes (client.addBuffer buffer).buffers =
        (if buffer.isLocal then 0 else buffer.bytes) + hostBytes client.buffers := by
      rw [← hostBytes_cons]
      simp only [buffers, addBuffer, if_neg hzero]
      exact hostBytes_perm (reduceOption_putSlot buffer _)
    refine ⟨hunused, ?_, hlimited, fun hfalse => ?_⟩
    · rw [hbuffers, hallocated]
      exact Nat.add_le_add_left h.covers _
    · rw [hbuffers, hallocated, h.counted hfalse]

theorem free {token address bytes : Nat} {slots : List (Option Buffer)}
    (htake : takeSlot token address bytes client.slots = some (buffer, slots)) (tess tessBytes : Nat) :
    (client.withoutBuffer buffer slots tess tessBytes).Account settings wrapped := by
  have hbuffers : hostBytes client.buffers = (if buffer.isLocal then 0 else buffer.bytes) +
      hostBytes (client.withoutBuffer buffer slots tess tessBytes).buffers := by
    rw [← hostBytes_cons]
    exact hostBytes_perm (reduceOption_takeSlot htake)
  have hallocated : (client.withoutBuffer buffer slots tess tessBytes).allocated =
      client.allocated - (if buffer.isLocal then 0 else buffer.bytes) := by
    cases hlocal : buffer.isLocal <;> simp [withoutBuffer, discount, Client.setThread, hlocal]
  refine ⟨fun hunused => ?_, ?_, ?_, fun hfalse => ?_⟩
  · rw [h.unused hunused] at htake
    cases htake
  · rw [hallocated]
    exact Nat.le_sub_of_add_le' (hbuffers ▸ h.covers)
  · rw [hallocated]
    exact (Nat.sub_le ..).trans h.limited
  · rw [hallocated, h.counted hfalse, hbuffers, Nat.add_sub_cancel_left]

theorem step (hwrapped : wrapped = true → wrapped' = true)
    (hstep : Step settings wrapped' client client') : client'.Account settings wrapped' := by
  have hold : client.Account settings wrapped' :=
    { h with counted := fun hfalse => h.counted (by
        cases htrue : wrapped with
        | false => rfl
        | true => exact (hwrapped htrue).symm.trans hfalse) }
  cases hstep with
  | keep => exact hold
  | connect => exact fresh true
  | other hconnected hslots hallocated => exact hold.other hconnected hslots hallocated
  | add hconnected hroom htoken => exact hold.add hconnected hroom htoken
  | settle => exact hold.setThread ..
  | free tess tessBytes _ htake => exact hold.free htake tess tessBytes
  | present | presented => exact (hold.setThread ..).other rfl rfl rfl
  | close => exact fresh false

end

end Account

end Client

namespace Broker

def Accounts (settings : Settings) (broker : Broker) : Prop :=
  ∀ c, (broker.clients c).Account settings broker.tokenWrapped

theorem Accounts.step {settings : Settings} {broker : Broker} (h : broker.Accounts settings) (event : Event) :
    (broker.step settings event).Accounts settings := by
  obtain ⟨_, hstep⟩ := broker.stepAt settings (fun c => (h c).limited) event
  exact fun d => (h d).step hstep.wrapped (hstep.all d)

theorem run_accounts (settings : Settings) (windowReserved highReserved : Bool) (events : List Event) :
    (run settings windowReserved highReserved events).Accounts settings :=
  List.foldlRecOn (motive := Accounts settings) events _ (fun _ => .fresh false) fun _ h event _ => h.step event

end Broker

/-! ### Runs -/

namespace Handed

variable {reserved : Bool → Bool} {settings : Settings} {broker handle : Broker} {c : Fin 32}

theorem vrangeReserve (h : Handed reserved broker []) (kernel : Kernel) (bytes : Nat) :
    Handed reserved (broker.vrangeReserve kernel c bytes).1 [] := by
  unfold Broker.vrangeReserve
  dsimp only
  repeat' split
  · exact h
  · exact h
  · exact h
  next address bytes _ =>
    have hset : Handed reserved (broker.setClient c { broker.clients c with
        ranges := (broker.clients c).ranges ++ [⟨address, bytes, broker.made⟩] }) [] := h.setClient rfl
    exact hset.same ⟨rfl, rfl, rfl, .refl _, rfl, rfl, id, Nat.le_succ _, rfl, rfl⟩

theorem vrangeRelease (h : Handed reserved broker []) (kernel : Kernel) (address : Nat) :
    Handed reserved (broker.vrangeRelease kernel c address).1 [] := by
  have hdrained : Handed reserved (broker.drain kernel) [] := h.housekeeping (.drain kernel)
  unfold Broker.vrangeRelease
  dsimp only
  repeat' split
  · exact h
  · exact hdrained
  next range _ _ =>
    have hlogged : Handed reserved ((broker.drain kernel).logRelease (.range range.serial) broker.now) [] :=
      hdrained.same (.logRelease fun _ => nofun)
    exact hlogged.setClient rfl

theorem setThread_slots (client : Client) (link : Bool) (connection : Connection) :
    (client.setThread link connection).slots = client.slots := by
  cases link <;> rfl

section

variable (h : Handed reserved broker [])

include h

theorem present (link : Bool) (address bytes : Nat) (valid : Bool) :
    Handed reserved (broker.present c link address bytes valid) [] := by
  unfold Broker.present
  dsimp only
  repeat' split
  · exact h
  · exact h
  · exact h.setClient (setThread_slots ..)

theorem presented (link : Bool) : Handed reserved (broker.presented c link) [] :=
  h.setClient (setThread_slots (broker.clients c) link .idle)

theorem choose {condition : Prop} [Decidable condition] (hhandle : Handed reserved handle []) :
    Handed reserved (if condition then handle else broker) [] := by
  split
  · exact hhandle
  · exact h

theorem request (hhandle : Handed reserved handle []) : Handed reserved (broker.request c handle) [] :=
  h.choose hhandle

/-- A request that a wedged broker refuses. -/
theorem requestTrusted (hhandle : Handed reserved handle []) :
    Handed reserved (broker.request c (if broker.wedged then broker else handle)) [] :=
  h.request (hhandle.choose h)

theorem step (haccounts : broker.Accounts settings) (event : Event) :
    Handed reserved (broker.step settings event) [] := by
  cases event with
  | connect c =>
    unfold Broker.step
    dsimp only
    split
    · exact h
    next hconnected => exact h.setClient ((haccounts c).unused (Bool.eq_false_iff.mpr hconnected)).symm
  | alloc c message kernel => exact h.requestTrusted (h.allocate settings kernel message)
  | free c token address bytes kernel => exact h.request (h.free kernel token address bytes)
  | wake c kernel =>
    unfold Broker.step
    dsimp only
    split
    · exact h.free kernel _ _ _
    · exact h
  | submit c message kernel => exact h.request (h.housekeeping (.submit settings kernel c message))
  | tess c address bytes => exact h.request (h.choose (h.setClient rfl))
  | offchip c granularity buffering => exact h.request (h.choose (h.setClient rfl))
  | vrangeReserve c bytes kernel => exact h.requestTrusted (h.vrangeReserve kernel bytes)
  | vrangeRelease c address kernel => exact h.requestTrusted (h.vrangeRelease kernel address)
  | presentLink c => exact h.request (h.setClient rfl)
  | present c link address bytes valid => exact h.choose (h.present link address bytes valid)
  | presented c link =>
    unfold Broker.step
    dsimp only
    split
    · exact h.presented link
    · exact h
  | close c live kernel => exact h.choose (h.close kernel live)
  | reap kernel => exact h.housekeeping (.reap kernel)
  | away kernel => exact h.choose (h.housekeeping (.drain kernel))
  | complete => exact h.same .complete

end

end Handed

theorem Broker.run_handed (settings : Settings) (reserved : Bool → Bool) (events : List Event) :
    Handed reserved (run settings (reserved true) (reserved false) events) [] := by
  have hboth : (run settings (reserved true) (reserved false) events).Accounts settings ∧
      Handed reserved (run settings (reserved true) (reserved false) events) [] :=
    List.foldlRecOn (motive := fun broker : Broker => broker.Accounts settings ∧ Handed reserved broker []) events _
      ⟨fun _ => .fresh false, .start⟩ fun _ h event _ => ⟨h.1.step event, h.2.step h.1 event⟩
  exact hboth.2

end Ps5Vulkan.GpuBroker
