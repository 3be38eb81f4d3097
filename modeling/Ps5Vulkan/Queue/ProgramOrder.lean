import Ps5Vulkan.Queue.StepEffects

/-!
# Program order

What a submission is for, said without its buffer: a stream of words and the records that fall into
it are a program, and a history of the queue runs the program in order when the words go to the GPU
from the first to the last, each with nothing but its step's end packets added, and a record runs
where it falls, with every step before it finished.
-/

namespace Ps5Vulkan.Queue

/-- Every step handed over is finished. -/
def AllFinished (trace : List Event) : Prop :=
  ∀ step words, Event.submit step words ∈ trace → Event.finish step ∈ trace

/-- The history `events`, after `before`, runs what is left of a program: the words of `stream`
from `pos` on and the records `splits`. -/
inductive InOrder (agc : Agc) (stream : List UInt32) :
    List Event → Nat → List CopySplit → List Event → Prop
  | done {before} : InOrder agc stream before stream.length [] []
  | silent {before pos splits events event} (hsilent : event.Silent fun _ _ => True)
      (hrest : InOrder agc stream (before ++ [event]) pos splits events) :
      InOrder agc stream before pos splits (event :: events)
  | step {before pos splits events} (step stop : Nat) (packets : List UInt32) (hpos : pos ≤ stop)
      (hstop : stop ≤ stream.length) (hpackets : EndPackets agc (markerOf step) packets)
      (hrest : InOrder agc stream
        (before ++ [.submit step ((stream.drop pos).take (stop - pos) ++ packets)])
        stop splits events) :
      InOrder agc stream before pos splits
        (.submit step ((stream.drop pos).take (stop - pos) ++ packets) :: events)
  | split {before pos splits events} {split : CopySplit} (hkind : split.copy.kind? = none)
      (hoffset : split.offset = pos) (hrest : InOrder agc stream before pos splits events) :
      InOrder agc stream before pos (split :: splits) events
  | record {before pos splits events} {split : CopySplit} {kind : CpuKind}
      (hkind : split.copy.kind? = some kind) (hoffset : split.offset = pos)
      (hfinished : AllFinished before)
      (hrest : InOrder agc stream (before ++ [.run kind split.copy]) pos splits events) :
      InOrder agc stream before pos (split :: splits) (.run kind split.copy :: events)
  | wave {before pos splits events} {wave : List CopySplit}
      (hblits : ∀ split ∈ wave, split.offset = pos ∧ split.copy.kind? = some .blit)
      (hapart : (wave.map CopySplit.copy).Pairwise fun a b => b.touches a = false)
      (hfinished : AllFinished before)
      (hrest : InOrder agc stream (before ++ [.wave (wave.map CopySplit.copy)]) pos splits events) :
      InOrder agc stream before pos (wave ++ splits) (.wave (wave.map CopySplit.copy) :: events)

/-- The words the history handed over, the driver's end packets taken off. -/
def submittedWords (agc : Agc) : List Event → List UInt32
  | [] => []
  | .submit _ words :: events =>
    words.take (words.length - agc.endWords) ++ submittedWords agc events
  | _ :: events => submittedWords agc events

/-- The records the history ran, each with its kind and the number of words handed over before. -/
def recordsRun (agc : Agc) : Nat → List Event → List (CpuKind × MemoryCopy × Nat)
  | _, [] => []
  | pos, .submit _ words :: events => recordsRun agc (pos + (words.length - agc.endWords)) events
  | pos, .run kind copy :: events => (kind, copy, pos) :: recordsRun agc pos events
  | pos, .wave copies :: events =>
    copies.map (fun copy => (.blit, copy, pos)) ++ recordsRun agc pos events
  | pos, _ :: events => recordsRun agc pos events

/-- The event runs a record, or a wave of them. -/
def Event.IsRecord : Event → Prop
  | .run _ _ => True
  | .wave _ => True
  | _ => False

/-- The records of the splits, each with its kind and its place in the stream. -/
def recordsDue (splits : List CopySplit) : List (CpuKind × MemoryCopy × Nat) :=
  splits.filterMap fun split => split.copy.kind?.map fun kind => (kind, split.copy, split.offset)

namespace InOrder

variable {agc : Agc} {stream : List UInt32} {before events : List Event} {pos : Nat}
  {splits : List CopySplit}

/-- Time passing first. -/
theorem silents {quiet : List Event} (hquiet : ∀ event ∈ quiet, event.Silent fun _ _ => True)
    (h : InOrder agc stream (before ++ quiet) pos splits events) :
    InOrder agc stream before pos splits (quiet ++ events) := by
  induction quiet generalizing before with
  | nil => simpa using h
  | cons event quiet ih =>
    refine .silent (hquiet event List.mem_cons_self) (ih ?_ ?_)
    · exact fun other hmem => hquiet other (List.mem_cons_of_mem _ hmem)
    · simpa [List.append_assoc] using h

/-- A run of records of one kind, in turn. -/
theorem records {kind : CpuKind} {due : List CopySplit}
    (hdue : ∀ split ∈ due, split.offset = pos ∧ split.copy.kind? = some kind) (hfinished : AllFinished before)
    (h : InOrder agc stream (before ++ due.map fun split => .run kind split.copy) pos splits
      events) : InOrder agc stream before pos (due ++ splits)
      ((due.map fun split => .run kind split.copy) ++ events) := by
  induction due generalizing before with
  | nil => simpa using h
  | cons split due ih =>
    obtain ⟨hoffset, hkind⟩ := hdue split List.mem_cons_self
    refine .record hkind hoffset hfinished (ih ?_ ?_ ?_)
    · exact fun other hmem => hdue other (List.mem_cons_of_mem _ hmem)
    · intro step words hmem
      simp only [List.mem_append, List.mem_singleton, reduceCtorEq, or_false] at hmem ⊢
      exact hfinished step words hmem
    · simpa [List.append_assoc] using h

theorem length_take_packets {stop step : Nat} {packets : List UInt32} (hpos : pos ≤ stop)
    (hstop : stop ≤ stream.length) (hpackets : EndPackets agc (markerOf step) packets) :
    ((stream.drop pos).take (stop - pos) ++ packets).length - agc.endWords = stop - pos := by
  obtain ⟨barrier, -, hlength⟩ := hpackets
  simp only [List.length_append, List.length_take, List.length_drop, hlength]
  omega

/-- A program run in order hands over the words left, from the first to the last. -/
theorem submittedWords_eq (h : InOrder agc stream before pos splits events) :
    submittedWords agc events = stream.drop pos := by
  induction h with
  | done => simp [submittedWords]
  | @silent before pos splits events event hsilent _ ih =>
    cases event with
    | write pos words | finish step => exact ih
    | submit step words | run kind copy | wave copies => exact hsilent.elim
  | @step before pos splits events step stop packets hpos hstop hpackets _ ih =>
    have htake : ((stream.drop pos).take (stop - pos)).length = stop - pos := by
      rw [List.length_take, List.length_drop]
      omega
    rw [submittedWords, length_take_packets hpos hstop hpackets, ih,
      List.take_append_of_le_length htake.ge, List.take_take, min_self,
      show stream.drop stop = (stream.drop pos).drop (stop - pos) by
        rw [List.drop_drop]; congr 1; omega,
      List.take_append_drop]
  | split _ _ _ ih | record _ _ _ _ ih | wave _ _ _ _ ih => exact ih

/-- A program run in order runs every record once, in order and where it falls. -/
theorem recordsRun_eq (h : InOrder agc stream before pos splits events) :
    recordsRun agc pos events = recordsDue splits := by
  induction h with
  | done => rfl
  | @silent before pos splits events event hsilent _ ih =>
    cases event with
    | write pos words | finish step => exact ih
    | submit step words | run kind copy | wave copies => exact hsilent.elim
  | @step before pos splits events step stop packets hpos hstop hpackets _ ih =>
    rw [recordsRun, length_take_packets hpos hstop hpackets,
      show pos + (stop - pos) = stop by omega]
    exact ih
  | split hkind _ _ ih =>
    rw [ih]
    simp [recordsDue, hkind]
  | record hkind hoffset _ _ ih =>
    rw [recordsRun, ih]
    simp [recordsDue, hkind, hoffset]
  | @wave before pos splits events wave hblits _ _ _ ih =>
    rw [recordsRun, ih, recordsDue, recordsDue, List.filterMap_append, List.map_map]
    congr 1
    rw [← List.filterMap_eq_map]
    refine List.filterMap_congr fun split hmem => ?_
    obtain ⟨hoffset, hkind⟩ := hblits split hmem
    simp [hkind, hoffset]

end InOrder

/-- What the order of a program asks of the event that comes next, with the words before `pos`
handed over. -/
structure Event.InTurn (agc : Agc) (stream : List UInt32) (before : List Event) (pos : Nat)
    (event : Event) : Prop where
  finished : event.IsRecord → AllFinished before
  intact : ∀ step words, event = .submit step words → ∃ count packets,
    EndPackets agc (markerOf step) packets ∧ words = (stream.drop pos).take count ++ packets
  apart : ∀ copies, event = .wave copies → copies.Pairwise fun a b => b.touches a = false

namespace InOrder

variable {agc : Agc} {stream : List UInt32} {before events : List Event} {pos : Nat}
  {splits : List CopySplit}

/-- The first event is in turn, and the events after it run the rest. -/
theorem uncons {event : Event} (h : InOrder agc stream before pos splits (event :: events)) :
    event.InTurn agc stream before pos ∧ ∃ splits', InOrder agc stream (before ++ [event])
        (pos + (submittedWords agc [event]).length) splits' events := by
  generalize hevents : event :: events = all at h
  induction h with
  | done => cases hevents
  | @silent before pos splits rest first hsilent hrest ih =>
    cases hevents
    cases event with
    | write pos words | finish step =>
      exact ⟨⟨fun h => h.elim, nofun, nofun⟩, splits, hrest⟩
    | submit step words | run kind copy | wave copies => exact hsilent.elim
  | @step before pos splits rest step stop packets hpos hstop hpackets hrest ih =>
    cases hevents
    refine ⟨⟨fun h => h.elim, ?_, nofun⟩, splits, ?_⟩
    · intro step' words heq
      cases heq
      exact ⟨stop - pos, packets, hpackets, rfl⟩
    · have hlength := length_take_packets hpos hstop hpackets
      rw [submittedWords, submittedWords, List.append_nil, List.length_take, hlength,
        min_eq_left (by omega), show pos + (stop - pos) = stop by omega]
      exact hrest
  | split _ _ _ ih =>
    obtain ⟨hturn, hrest⟩ := ih hevents
    exact ⟨hturn, hrest⟩
  | record _ _ hfinished hrest ih =>
    cases hevents
    exact ⟨⟨fun _ => hfinished, nofun, nofun⟩, _, hrest⟩
  | wave _ hapart hfinished hrest ih =>
    cases hevents
    refine ⟨⟨fun _ => hfinished, nofun, ?_⟩, _, hrest⟩
    intro copies heq
    cases heq
    exact hapart

theorem submittedWords_cons (event : Event) (rest : List Event) :
    submittedWords agc (event :: rest) = submittedWords agc [event] ++ submittedWords agc rest := by
  cases event <;> simp [submittedWords]

/-- Every event of a program run in order is in turn. -/
theorem inTurn {earlier later : List Event} {event : Event}
    (h : InOrder agc stream before pos splits (earlier ++ event :: later)) :
    event.InTurn agc stream (before ++ earlier) (pos + (submittedWords agc earlier).length) := by
  induction earlier generalizing before pos splits with
  | nil => simpa [submittedWords] using h.uncons.1
  | cons first earlier ih =>
    obtain ⟨-, splits', hrest⟩ := h.uncons
    have hturn := ih hrest
    rw [submittedWords_cons, List.length_append, ← Nat.add_assoc]
    simpa using hturn

end InOrder

end Ps5Vulkan.Queue
