import Ps5Vulkan.GpuBroker.HostRange
import Ps5Vulkan.Library.SerialCounter

/-!
# The GPU broker

The broker owns the GPU for up to 32 client processes (`tooling/gpu-broker/server.cpp`). It makes their
buffers and sparse ranges, copies their command words into staging and submits them, each followed by a
write of the submission's number to a fence page, and shows their frames. What the GPU may still use is
kept until the page's number has passed it: staging in a ring of submissions, freed buffers in a deferred
list. Where the broker cannot tell, it is wedged: it accepts no more work and gives nothing back.

Requests are handled one at a time, under the broker's lock. Two are not: a present reads its image
without the lock, with the image pinned in its client, and a free of a pinned buffer waits.

## Implementation notes

What the system answers to one request is a `Kernel`. The GPU completes accepted submissions in order,
between requests and while the broker waits for it. A submission call that fails may have reached the GPU.

Some data is here for what is proved and is read by no function: serial numbers of buffers, staging and
sparse ranges, the alignment and the window a buffer was asked with, all buffers there have been (`placed`),
what had been accepted when something was given up (`Asked`), the log of what was given back (`released`), and
whether a reservation could not be laid back (`relayFailed`) or a client's tokens came around
(`tokenWrapped`). Sockets, descriptors, accounts of time and the log are left out.
-/

namespace Ps5Vulkan.GpuBroker

open SerialCounter

/-! ### Numbers and limits -/

/-- Fence numbers have 32 bits. -/
def fenceValues : Nat := 2 ^ 32

/-- `done`: `int32_t(seq - completed) <= 0`. -/
def done (seq completed : Nat) : Bool :=
  let ahead := distance fenceValues seq completed
  decide (ahead = 0 ∨ fenceValues / 2 ≤ ahead)

/-- `Fences::kRing`. -/
def ringEntries : Nat := 512

/-- `Fences::kDeferred`. -/
def deferredEntries : Nat := 1024

/-- `kClientBuffers`. -/
def clientBuffers : Nat := 1024

/-- `kClientRanges`. -/
def clientRanges : Nat := 32768

/-- `kLocalOffer`. -/
def localOffer : Nat := 8 * 2 ^ 30

/-- `PW_GPU_ALIGNMENT_MAX`. -/
def alignmentMax : Nat := 2 * 2 ^ 20

/-- What the application chose before the broker started. -/
structure Settings where
  hostLimit : Nat
  /-- The bytes of a submission's two timestamp packets, 0 without timestamps. -/
  stampBytes : Nat
  /-- `RADV_PS5_WINDOW_BASE` and `RADV_PS5_WINDOW_BYTES`. -/
  shaderBase : Nat
  shaderBytes : Nat
  hostLimit_pages : pageBytes ∣ hostLimit

/-- The largest buffer a client may ask for. -/
def Settings.limit (settings : Settings) (isLocal : Bool) : Nat :=
  if isLocal then localOffer else settings.hostLimit

inductive Errno
  | invalid
  | noSpace
  | noMemory
  | addressInUse
  | io
  | busy
  deriving DecidableEq, Repr

/-! ### Memory -/

structure Buffer where
  address : Nat
  bytes : Nat
  token : Nat
  isLocal : Bool
  ranged : Bool
  asked : Nat
  low : Bool
  serial : Nat
  deriving DecidableEq, Repr

/-- `Range`: a sparse range. -/
structure SparseRange where
  address : Nat
  bytes : Nat
  serial : Nat
  deriving DecidableEq, Repr

structure Staging where
  bytes : Nat
  serial : Nat
  /-- The submissions accepted up to the last one that used it. -/
  used : Nat
  deriving DecidableEq, Repr

/-- When something was given up: the submissions accepted so far, and whether the broker was wedged. -/
structure Asked where
  accepted : Nat
  wedged : Bool
  deriving DecidableEq, Repr

inductive Memory
  | buffer (serial : Nat)
  | staging (serial : Nat)
  | range (serial : Nat)
  deriving DecidableEq, Repr

/-- Memory was unmapped, or taken by another submission, when the GPU had finished so many. -/
structure Release where
  memory : Memory
  asked : Asked
  finished : Nat
  deriving DecidableEq, Repr

/-! ### Spare staging (`staging.h`) -/

/-- `PS5_GPU_STAGING_SPARES`. -/
def stagingSpares : Nat := 512

/-- `PS5_GPU_STAGING_MIN`. -/
def stagingMin : Nat := 0x10000

/-- `PS5_GPU_STAGING_LARGE`. -/
def stagingLarge : Nat := 0x200000

/-- `PS5_GPU_STAGING_BUDGET`. -/
def stagingBudget : Nat := stagingSpares * stagingMin

/-- `ps5_gpu_staging_round`: the least power of two times the smallest size, or steps of the large one. -/
def stagingRound (need : Nat) : Nat :=
  if stagingLarge < need then roundUp need stagingLarge
  else ((List.range 6).map fun k => stagingMin * 2 ^ k).find? (fun bytes => need ≤ bytes) |>.getD stagingMin

/-- The entries with one taken out, the last one moved into its place. -/
def fillGap {α : Type} (rest : List α) : List α :=
  match rest.getLast? with
  | some last => last :: rest.dropLast
  | none => []

/-- `ps5_gpu_staging_take`. -/
def stagingTake (bytes : Nat) : List Staging → Option (Staging × List Staging)
  | [] => none
  | spare :: rest =>
    if spare.bytes = bytes then some (spare, fillGap rest)
    else (stagingTake bytes rest).map fun found => (found.1, spare :: found.2)

/-! ### Fences -/

structure Inflight where
  seq : Nat
  staging : Staging
  deriving DecidableEq, Repr

structure Deferred where
  buffer : Buffer
  seq : Nat
  asked : Asked
  deriving DecidableEq, Repr

structure Fences where
  /-- The fence page's number, once there is a page. -/
  page : Option Nat
  issued : Nat
  ring : List Inflight
  deferred : List Deferred
  spares : List Staging
  spareBytes : Nat
  tess : Nat
  tessBytes : Nat
  offchip : Bool
  granularity : Nat
  buffering : Nat
  deriving DecidableEq, Repr

/-! ### Clients -/

/-- What a thread of a client does between two stretches under the lock. -/
inductive Connection
  | idle
  /-- A free that waits for the pin. -/
  | freeing (token address bytes : Nat)
  /-- A present that reads its image, which lies in the buffer. -/
  | presenting (buffer : Buffer) (address bytes : Nat)
  deriving DecidableEq, Repr

structure Client where
  connected : Bool
  slots : List (Option Buffer)
  nextToken : Nat
  allocated : Nat
  localBytes : Nat
  ranges : List SparseRange
  tess : Nat
  tessBytes : Nat
  offchip : Bool
  granularity : Nat
  buffering : Nat
  pin : Option (Nat × Nat)
  linked : Bool
  /-- The thread of the client's connection, and that of its present link. -/
  main : Connection
  link : Connection
  deriving DecidableEq, Repr

namespace Client

/-- `Client{}`. -/
def fresh : Client where
  connected := false
  slots := []
  nextToken := 0
  allocated := 0
  localBytes := 0
  ranges := []
  tess := 0
  tessBytes := 0
  offchip := false
  granularity := 0
  buffering := 0
  pin := none
  linked := false
  main := .idle
  link := .idle

variable (client : Client)

/-- The buffers with a token. -/
def buffers : List Buffer :=
  client.slots.reduceOption

/-- `owned`: the buffer that holds a range. -/
def owner (address bytes : Nat) : Option Buffer :=
  client.buffers.find? fun buffer => contains buffer.address buffer.bytes address bytes

def owned (address bytes : Nat) : Bool :=
  (client.owner address bytes).isSome

/-- The pin meets the buffer. -/
def pinned (buffer : Buffer) : Bool :=
  match client.pin with
  | some (address, bytes) =>
    decide (0 < bytes ∧ buffer.address < address + bytes ∧ address < buffer.address + buffer.bytes)
  | none => false

def thread (link : Bool) : Connection :=
  if link then client.link else client.main

def setThread (link : Bool) (connection : Connection) : Client :=
  if link then { client with link := connection } else { client with main := connection }

end Client

/-- A buffer into the first slot without a token. -/
def putSlot (buffer : Buffer) : List (Option Buffer) → List (Option Buffer)
  | [] => [some buffer]
  | none :: rest => some buffer :: rest
  | some other :: rest => some other :: putSlot buffer rest

/-- The first buffer a free names, and the slots without it. -/
def takeSlot (token address bytes : Nat) : List (Option Buffer) → Option (Buffer × List (Option Buffer))
  | [] => none
  | none :: rest => (takeSlot token address bytes rest).map fun found => (found.1, none :: found.2)
  | some buffer :: rest =>
    if buffer.token = token ∧ buffer.address = address ∧ buffer.bytes = bytes then
      some (buffer, none :: rest)
    else (takeSlot token address bytes rest).map fun found => (found.1, some buffer :: found.2)

namespace Client

/-- A new buffer in its slot and in the client's account; a slot whose token is 0 is free. -/
def addBuffer (client : Client) (buffer : Buffer) : Client :=
  { client with
    nextToken := buffer.token
    slots := if buffer.token = 0 then client.slots else putSlot buffer client.slots
    allocated := if buffer.isLocal then client.allocated else client.allocated + buffer.bytes
    localBytes := if buffer.isLocal then client.localBytes + buffer.bytes else client.localBytes }

/-- A freed buffer out of the client's account. -/
def discount (client : Client) (buffer : Buffer) : Client :=
  { client with
    allocated := if buffer.isLocal then client.allocated else client.allocated - buffer.bytes
    localBytes := if buffer.isLocal then client.localBytes - buffer.bytes else client.localBytes }

end Client

/-! ### The broker -/

/-- What the system answers during one request. -/
structure Kernel where
  /-- A reservation is laid back over the mapping at an address. -/
  relaid : Nat → Bool
  /-- The submissions the GPU completes before each look of a drain, until its timeout. -/
  progress : List Nat
  /-- A buffer's memory is mapped at its address, and the GPU is granted it. -/
  mapped : Bool
  granted : Bool
  /-- The address and size of direct memory. -/
  direct : Option (Nat × Nat)
  /-- Direct memory stays above the floor. -/
  aboveFloor : Bool
  /-- A reservation at an address succeeds there. -/
  reservedAt : Nat → Bool
  pageMade : Bool
  stagingMade : Bool
  tessSet : Bool
  offchipSet : Bool
  /-- The submission call succeeds; or else whether its words reached the GPU. -/
  submitted : Bool
  reached : Bool
  /-- The address and size of a sparse range. -/
  sparse : Option (Nat × Nat)

/-- A system that does what it is asked, and a GPU that makes no progress. -/
def Kernel.willing : Kernel where
  relaid _ := true
  progress := []
  mapped := true
  granted := true
  direct := none
  aboveFloor := true
  reservedAt _ := true
  pageMade := true
  stagingMade := true
  tessSet := true
  offchipSet := true
  submitted := true
  reached := true
  sparse := none

/-- There are clients. -/
scoped instance clients_neZero : NeZero 32 :=
  ⟨by decide⟩

structure Broker where
  window : HostRange
  high : HostRange
  /-- Where buffers are looked for in a window that is not reserved. -/
  nextWindow : Nat
  nextHigh : Nat
  fences : Fences
  wedged : Bool
  clients : Fin 32 → Client
  /-- The numbers of the submissions the GPU has accepted and not completed, and how many it has. -/
  pending : List Nat
  finished : Nat
  made : Nat
  placed : List Buffer
  released : List Release
  relayFailed : Bool
  tokenWrapped : Bool

namespace Broker

/-- `ps5_gpu_broker_start`. -/
def start (windowReserved highReserved : Bool) : Broker where
  window := .reserve windowBase windowBytes windowReserved
  high := .reserve highBase highBytes highReserved
  nextWindow := 0x240000000
  nextHigh := 0x5100000000
  fences := ⟨none, 0, [], [], [], 0, 0, 0, false, 0, 0⟩
  wedged := false
  clients _ := .fresh
  pending := []
  finished := 0
  made := 0
  placed := []
  released := []
  relayFailed := false
  tokenWrapped := false

variable (broker : Broker)

/-- The submissions accepted so far. -/
def accepted : Nat :=
  broker.finished + broker.pending.length

def now : Asked :=
  ⟨broker.accepted, broker.wedged⟩

/-- The GPU completes its next submission and writes the number. -/
def complete : Broker :=
  match broker.pending with
  | [] => broker
  | seq :: rest =>
    { broker with
      fences := { broker.fences with page := broker.fences.page.map fun _ => seq }
      pending := rest
      finished := broker.finished + 1 }

/-- `give_up`, in a broker that goes on. -/
def giveUp : Broker :=
  { broker with wedged := true }

def setClient (c : Fin 32) (client : Client) : Broker :=
  { broker with clients := Function.update broker.clients c client }

def logRelease (memory : Memory) (asked : Asked) : Broker :=
  { broker with released := ⟨memory, asked, broker.finished⟩ :: broker.released }

/-- A range goes back to the window it lies in (`pw_gpu_host_range`). -/
def giveRange (address bytes : Nat) : Broker :=
  if contains windowBase windowBytes address bytes then
    { broker with window := broker.window.give address bytes }
  else if contains highBase highBytes address bytes then
    { broker with high := broker.high.give address bytes }
  else
    broker

variable (kernel : Kernel)

/-- `release`. -/
def release (buffer : Buffer) (asked : Asked) : Broker :=
  let broker := broker.logRelease (.buffer buffer.serial) asked
  if buffer.isLocal || !buffer.ranged then broker
  else if kernel.relaid buffer.address then broker.giveRange buffer.address buffer.bytes
  else { broker with relayFailed := true }

/-- Staging that no submission uses: `ps5_gpu_staging_give`, or freed past the budget. -/
def giveStaging (staging : Staging) : Broker :=
  if broker.fences.spares.length = stagingSpares ∨
      stagingBudget < broker.fences.spareBytes + staging.bytes then
    broker.logRelease (.staging staging.serial) ⟨staging.used, false⟩
  else
    { broker with fences := { broker.fences with
        spares := broker.fences.spares ++ [staging]
        spareBytes := broker.fences.spareBytes + staging.bytes } }

/-- The submissions at the head of the ring that the number has passed. -/
def retire (completed : Nat) : List Inflight → Broker → Broker
  | [], broker => { broker with fences := { broker.fences with ring := [] } }
  | entry :: ring, broker =>
    if done entry.seq completed then retire completed ring (broker.giveStaging entry.staging)
    else { broker with fences := { broker.fences with ring := entry :: ring } }

/-- The deferred buffers that stay, and those the number has passed in the order they are released: the
last entry takes the place of one that goes. -/
def sweep (completed : Nat) : Nat → List Deferred → List Deferred × List Deferred
  | 0, deferred => (deferred, [])
  | _ + 1, [] => ([], [])
  | fuel + 1, entry :: rest =>
    if done entry.seq completed then
      let swept := sweep completed fuel (fillGap rest)
      (swept.1, entry :: swept.2)
    else
      let swept := sweep completed fuel rest
      (entry :: swept.1, swept.2)

/-- `reap`. -/
def reap : Broker :=
  match broker.fences.page with
  | none => broker
  | some completed =>
    let broker := retire completed broker.fences.ring broker
    let swept := sweep completed broker.fences.deferred.length broker.fences.deferred
    swept.2.foldl (fun broker entry => broker.release kernel entry.buffer entry.asked)
      { broker with fences := { broker.fences with deferred := swept.1 } }

/-- Nothing in flight, and nothing deferred. -/
def drained : Bool :=
  broker.fences.ring.isEmpty && broker.fences.deferred.isEmpty

/-- One look of a drain. -/
def drainStep (broker : Broker) (completions : Nat) : Broker :=
  if broker.drained then broker else (complete^[completions] broker).reap kernel

/-- `drain`; whether it succeeded is whether the broker it leaves is `drained`. -/
def drain : Broker :=
  kernel.progress.foldl (drainStep kernel) (broker.reap kernel)

/-! ### Buffers -/

structure AllocMessage where
  bytes : Nat
  alignment : Nat
  window : Nat
  flags : Nat

structure Reply where
  address : Nat
  bytes : Nat
  token : Nat

/-- A new buffer, with its client's next token. -/
def nextBuffer (c : Fin 32) (address bytes asked : Nat) (low isLocal ranged : Bool) : Buffer :=
  ⟨address, bytes, ((broker.clients c).nextToken + 1) % 2 ^ 32, isLocal, ranged, asked, low, broker.made⟩

def addBuffer (c : Fin 32) (buffer : Buffer) : Broker × Except Errno Reply :=
  ({ broker.setClient c ((broker.clients c).addBuffer buffer) with
      made := broker.made + 1
      placed := buffer :: broker.placed
      tokenWrapped := broker.tokenWrapped || decide (buffer.token = 0) },
    .ok ⟨buffer.address, buffer.bytes, buffer.token⟩)

/-- `allocate_local`. -/
def allocateLocal (c : Fin 32) (bytes asked : Nat) : Broker × Except Errno Reply :=
  if (localOffer + 2 ^ 64 - (broker.clients c).localBytes) % 2 ^ 64 < bytes then (broker, .error .noMemory)
  else if !kernel.aboveFloor then (broker, .error .noMemory)
  else
    match kernel.direct with
    | none => (broker, .error .noMemory)
    | some (address, bytes) => broker.addBuffer c (broker.nextBuffer c address bytes asked false true false)

/-- `host_ranges[window32 ? 0 : 1]`. -/
def range (window : Bool) : HostRange :=
  if window then broker.window else broker.high

def setRange (window : Bool) (range : HostRange) : Broker :=
  if window then { broker with window := range } else { broker with high := range }

/-- A buffer of a window that is reserved. -/
def allocateRanged (c : Fin 32) (window : Bool) (bytes alignment asked : Nat) :
    Broker × Except Errno Reply :=
  match (broker.range window).take bytes alignment with
  | none => (broker, .error .noMemory)
  | some (address, range) =>
    if kernel.mapped && kernel.granted then
      (broker.setRange window range).addBuffer c (broker.nextBuffer c address bytes asked window false true)
    else if kernel.relaid address then
      (broker.setRange window (range.give address bytes), .error .noMemory)
    else ({ broker.setRange window range with relayFailed := true }, .error .noMemory)

/-- The next address from a cursor on that can be reserved, in 64 attempts; and the cursor. -/
def searchCursor (settings : Settings) (kernel : Kernel) (window : Bool) (bytes alignment : Nat) :
    Nat → Nat → Nat × Except Errno Nat
  | 0, cursor => (cursor, .error .addressInUse)
  | attempts + 1, cursor =>
    let address := roundUp cursor alignment
    if window && !contains settings.shaderBase settings.shaderBytes address bytes then
      (cursor, .error .noMemory)
    else if kernel.reservedAt address then (cursor, .ok address)
    else if attempts = 0 then (cursor, .error .addressInUse)
    else searchCursor settings kernel window bytes alignment attempts (address + max bytes (2 * 2 ^ 20))

def setCursor (window : Bool) (cursor : Nat) : Broker :=
  if window then { broker with nextWindow := cursor } else { broker with nextHigh := cursor }

variable (settings : Settings)

/-- A buffer of a window that is not reserved. -/
def allocateCursor (kernel : Kernel) (c : Fin 32) (window : Bool)
    (bytes alignment asked : Nat) : Broker × Except Errno Reply :=
  let found := searchCursor settings kernel window bytes alignment 64
    (if window then broker.nextWindow else broker.nextHigh)
  match found.2 with
  | .error errno => (broker.setCursor window found.1, .error errno)
  | .ok address =>
    if kernel.mapped && kernel.granted then
      (broker.setCursor window (address + bytes)).addBuffer c
        (broker.nextBuffer c address bytes asked window false false)
    else (broker.setCursor window found.1, .error .noMemory)

/-- `allocate`. -/
def allocate (kernel : Kernel) (c : Fin 32) (message : AllocMessage) :
    Broker × Except Errno Reply :=
  let isLocal := decide (message.flags % 2 = 1)
  let bytes := roundUp message.bytes pageBytes
  let alignment := max message.alignment pageBytes
  let window := decide (message.window = 1)
  if message.bytes = 0 ∨ settings.limit isLocal < message.bytes ∨ alignmentMax < message.alignment ∨
      message.alignment ≠ 0 ∧ message.alignment &&& (message.alignment - 1) ≠ 0 ∨
      1 < message.window ∨ 3 < message.flags then
    (broker, .error .invalid)
  else if (broker.clients c).buffers.length = clientBuffers then (broker, .error .noSpace)
  else if isLocal then broker.allocateLocal kernel c bytes message.alignment
  else if settings.hostLimit - (broker.clients c).allocated < bytes then (broker, .error .noMemory)
  else if (broker.range window).reserved then
    broker.allocateRanged kernel c window bytes alignment message.alignment
  else broker.allocateCursor settings kernel c window bytes alignment message.alignment

/-- `free_buffer`, of a buffer that has left its slot. -/
def freeBuffer (c : Fin 32) (buffer : Buffer) : Broker :=
  let asked := broker.now
  let broker := broker.setClient c ((broker.clients c).discount buffer)
  if broker.wedged then broker
  else
    let broker := broker.reap kernel
    if broker.fences.ring.isEmpty then broker.release kernel buffer asked
    else
      let full := decide (broker.fences.deferred.length = deferredEntries)
      let broker := if full then broker.drain kernel else broker
      if full && !broker.drained then broker.giveUp
      else if broker.fences.ring.isEmpty then broker.release kernel buffer asked
      else
        { broker with fences := { broker.fences with
            deferred := broker.fences.deferred ++ [⟨buffer, broker.fences.issued, asked⟩] } }

/-- `PW_GPU_FREE`: a buffer the pin meets waits; the tessellation ring in it is forgotten. -/
def free (c : Fin 32) (token address bytes : Nat) : Broker :=
  let client := broker.clients c
  match takeSlot token address bytes client.slots with
  | none => broker.setClient c (client.setThread false .idle)
  | some (buffer, slots) =>
    if client.pinned buffer then broker.setClient c (client.setThread false (.freeing token address bytes))
    else
      let forget := client.tess ≠ 0 ∧ contains buffer.address buffer.bytes client.tess client.tessBytes
      let client :=
        { client.setThread false .idle with
          slots
          tess := if forget then 0 else client.tess
          tessBytes := if forget then 0 else client.tessBytes }
      (broker.setClient c client).freeBuffer kernel c buffer

/-! ### Submissions -/

structure SubmitMessage where
  address : Nat
  bytes : Nat
  marker : Nat

/-- `fences_ready`. -/
def fencesReady : Option Broker :=
  if broker.fences.page.isSome then some broker
  else if kernel.pageMade then
    some { broker with fences := { broker.fences with page := some broker.fences.issued } }
  else none

/-- Staging for a submission: a spare of its size, or a new buffer. -/
def takeStaging (need : Nat) : Option (Staging × Broker) :=
  match stagingTake (stagingRound need) broker.fences.spares with
  | some (staging, spares) =>
    some (staging,
      { broker.logRelease (.staging staging.serial) ⟨staging.used, false⟩ with
        fences := { broker.fences with spares, spareBytes := broker.fences.spareBytes - staging.bytes } })
  | none =>
    if kernel.stagingMade then
      some (⟨stagingRound need, broker.made, 0⟩, { broker with made := broker.made + 1 })
    else none

/-- The call itself, of words in staging with a number. -/
def handOver (staging : Staging) (seq : Nat) : Broker × Except Errno Unit :=
  if kernel.submitted then
    ({ broker with
        fences := { broker.fences with
          ring := broker.fences.ring ++ [⟨seq, { staging with used := broker.accepted + 1 }⟩] }
        pending := broker.pending ++ [seq] }, .ok ())
  else
    -- whatever became of the words, their staging stays
    ({ broker.giveUp with pending := if kernel.reached then broker.pending ++ [seq] else broker.pending },
      .error .io)

/-- From staging on: the number, the state all clients share, and the call. -/
def sendStaged (client : Client) (tessChanges offchipChanges : Bool) (staging : Staging) :
    Broker × Except Errno Unit :=
  let seq := next fenceValues broker.fences.issued
  let broker := { broker with fences := { broker.fences with issued := seq } }
  if tessChanges && !kernel.tessSet then (broker.giveStaging staging, .error .io)
  else
    let broker := if tessChanges then
        { broker with fences := { broker.fences with tess := client.tess, tessBytes := client.tessBytes } }
      else broker
    if offchipChanges && !kernel.offchipSet then (broker.giveStaging staging, .error .io)
    else
      let broker := if offchipChanges then
          { broker with fences := { broker.fences with
              offchip := true, granularity := client.granularity, buffering := client.buffering } }
        else broker
      broker.handOver kernel staging seq

/-- A submission that has its staging, and whether the state all clients share has to change for it. -/
structure Sending where
  broker : Broker
  tessChanges : Bool
  offchipChanges : Bool
  staging : Staging

/-- `submit` from a fence page up to its staging: room in the ring, and a drain where the shared state changes. -/
def sending (kernel : Kernel) (client : Client) (bytes : Nat) : Except (Broker × Errno) Sending :=
  let broker := broker.reap kernel
  let full := decide (broker.fences.ring.length = ringEntries)
  let broker := if full then broker.drain kernel else broker
  if full && !broker.drained then .error (broker.giveUp, .io)
  else
    let tessChanges := decide (client.tess ≠ 0 ∧
      (client.tess ≠ broker.fences.tess ∨ client.tessBytes ≠ broker.fences.tessBytes))
    let offchipChanges := client.offchip && (!broker.fences.offchip ||
      decide (client.granularity ≠ broker.fences.granularity ∨ client.buffering ≠ broker.fences.buffering))
    let changes := tessChanges || offchipChanges
    let broker := if changes then broker.drain kernel else broker
    if changes && !broker.drained then .error (broker.giveUp, .io)
    else
      match broker.takeStaging kernel (bytes + settings.stampBytes + 32) with
      | none => .error (broker, .noMemory)
      | some (staging, broker) => .ok ⟨broker, tessChanges, offchipChanges, staging⟩

/-- `submit` up to its staging. -/
def submission (kernel : Kernel) (c : Fin 32) (message : SubmitMessage) : Except (Broker × Errno) Sending :=
  let client := broker.clients c
  if message.bytes = 0 ∨ message.bytes % 4 ≠ 0 ∨ 16 * 2 ^ 20 < message.bytes ∨ message.address % 4 ≠ 0 ∨
      !client.owned message.address message.bytes ∨ message.marker = 0 ∨ message.marker % 4 ≠ 0 ∨
      !client.owned message.marker 4 then
    .error (broker, .invalid)
  else if broker.wedged then .error (broker, .io)
  else
    match broker.fencesReady kernel with
    | none => .error (broker, .noMemory)
    | some broker => broker.sending settings kernel client message.bytes

/-- `submit`. -/
def submit (kernel : Kernel) (c : Fin 32) (message : SubmitMessage) : Broker × Except Errno Unit :=
  match broker.submission settings kernel c message with
  | .error (broker, errno) => (broker, .error errno)
  | .ok sending => sending.broker.sendStaged kernel (broker.clients c) sending.tessChanges sending.offchipChanges
      sending.staging

/-! ### Sparse ranges -/

/-- `vrange_reserve`; page tables that run out are a range the system does not make. -/
def vrangeReserve (c : Fin 32) (bytes : Nat) : Broker × Except Errno Reply :=
  let client := broker.clients c
  if bytes = 0 ∨ 64 * 2 ^ 30 < bytes then (broker, .error .invalid)
  else if clientRanges ≤ client.ranges.length then (broker, .error .noSpace)
  else
    match kernel.sparse with
    | none => (broker, .error .noMemory)
    | some (address, bytes) =>
      ({ broker.setClient c { client with ranges := client.ranges ++ [⟨address, bytes, broker.made⟩] } with
          made := broker.made + 1 }, .ok ⟨address, bytes, 0⟩)

/-- `vrange_release`. -/
def vrangeRelease (c : Fin 32) (address : Nat) : Broker × Except Errno Unit :=
  match (broker.clients c).ranges.find? fun range => decide (address ≠ 0 ∧ range.address = address) with
  | none => (broker, .error .invalid)
  | some range =>
    let asked := broker.now
    let broker := broker.drain kernel
    if !broker.drained then (broker, .error .busy)
    else
      let client := broker.clients c
      ((broker.logRelease (.range range.serial) asked).setClient c
        { client with ranges := client.ranges.erase range }, .ok ())

/-! ### Presents and closes -/

/-- A present, until it lets go of the lock. -/
def present (c : Fin 32) (link : Bool) (address bytes : Nat) (valid : Bool) : Broker :=
  let client := broker.clients c
  if broker.wedged || !valid then broker
  else
    match client.owner address bytes with
    | none => broker
    | some buffer =>
      broker.setClient c
        { client.setThread link (.presenting buffer address bytes) with pin := some (address, bytes) }

/-- A present from its last read on. -/
def presented (c : Fin 32) (link : Bool) : Broker :=
  let client := broker.clients c
  broker.setClient c { client.setThread link .idle with pin := none }

/-- `ps5_gpu_broker_close`, from the end of the client's threads on; `live` says that its service was
still there. -/
def close (c : Fin 32) (live : Bool) : Broker :=
  let asked := broker.now
  let broker := if live then broker.giveUp else broker
  let broker := if broker.wedged then broker else broker.drain kernel
  let broker := if !broker.wedged && !broker.drained then broker.giveUp else broker
  let client := broker.clients c
  let broker := if broker.wedged then broker
    else client.ranges.foldl (fun broker range => broker.logRelease (.range range.serial) asked) broker
  let broker := if broker.wedged then broker
    else client.buffers.foldl (fun broker buffer => broker.release kernel buffer asked) broker
  broker.setClient c .fresh

end Broker

/-! ### Runs -/

inductive Event
  | connect (c : Fin 32)
  | alloc (c : Fin 32) (message : Broker.AllocMessage) (kernel : Kernel)
  | free (c : Fin 32) (token address bytes : Nat) (kernel : Kernel)
  /-- A free that waits looks at the pin again. -/
  | wake (c : Fin 32) (kernel : Kernel)
  | submit (c : Fin 32) (message : Broker.SubmitMessage) (kernel : Kernel)
  | tess (c : Fin 32) (address bytes : Nat)
  | offchip (c : Fin 32) (granularity buffering : Nat)
  | vrangeReserve (c : Fin 32) (bytes : Nat) (kernel : Kernel)
  | vrangeRelease (c : Fin 32) (address : Nat) (kernel : Kernel)
  | presentLink (c : Fin 32)
  | present (c : Fin 32) (link : Bool) (address bytes : Nat) (valid : Bool)
  | presented (c : Fin 32) (link : Bool)
  | close (c : Fin 32) (live : Bool) (kernel : Kernel)
  /-- A connection's thread without messages. -/
  | reap (kernel : Kernel)
  /-- `ps5_gpu_broker_set_away`. -/
  | away (kernel : Kernel)
  /-- The GPU completes a submission. -/
  | complete

namespace Broker

/-- A request on a client's connection, whose thread takes one at a time. -/
def request (broker : Broker) (c : Fin 32) (handle : Broker) : Broker :=
  if (broker.clients c).connected ∧ (broker.clients c).main = .idle then handle else broker

def step (settings : Settings) (broker : Broker) : Event → Broker
  | .connect c =>
    if (broker.clients c).connected then broker
    else broker.setClient c { Client.fresh with connected := true }
  | .alloc c message kernel =>
    broker.request c (if broker.wedged then broker else (broker.allocate settings kernel c message).1)
  | .free c token address bytes kernel => broker.request c (broker.free kernel c token address bytes)
  | .wake c kernel =>
    match (broker.clients c).main with
    | .freeing token address bytes => broker.free kernel c token address bytes
    | _ => broker
  | .submit c message kernel => broker.request c (broker.submit settings kernel c message).1
  | .tess c address bytes =>
    let client := broker.clients c
    broker.request c (if bytes < 2 ^ 32 ∧ client.owned address bytes then
      broker.setClient c { client with tess := address, tessBytes := bytes } else broker)
  | .offchip c granularity buffering =>
    broker.request c (if granularity ≤ 3 ∧ buffering ≤ 511 then
      broker.setClient c { broker.clients c with granularity, buffering, offchip := true } else broker)
  | .vrangeReserve c bytes kernel =>
    broker.request c (if broker.wedged then broker else (broker.vrangeReserve kernel c bytes).1)
  | .vrangeRelease c address kernel =>
    broker.request c (if broker.wedged then broker else (broker.vrangeRelease kernel c address).1)
  | .presentLink c => broker.request c (broker.setClient c { broker.clients c with linked := true })
  | .present c link address bytes valid =>
    let client := broker.clients c
    if client.connected ∧ (link → client.linked) ∧ client.thread link = .idle then
      broker.present c link address bytes valid
    else broker
  | .presented c link =>
    match (broker.clients c).thread link with
    | .presenting _ _ _ => broker.presented c link
    | _ => broker
  | .close c live kernel =>
    let client := broker.clients c
    if client.connected ∧ client.main = .idle ∧ client.link = .idle then broker.close kernel c live
    else broker
  | .reap kernel => broker.reap kernel
  | .away kernel => if broker.fences.page.isSome then broker.drain kernel else broker
  | .complete => broker.complete

def run (settings : Settings) (windowReserved highReserved : Bool) (events : List Event) : Broker :=
  events.foldl (step settings) (start windowReserved highReserved)

end Broker

end Ps5Vulkan.GpuBroker
