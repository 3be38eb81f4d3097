import Ps5Vulkan.Queue.Order

/-!
# Submissions from any reachable queue

A queue is reached from its start by submissions that went through or were refused, and by polls.
Whatever was submitted before, the steps not yet seen finished are fewer than the marker's values
can tell apart: each of their streams has sixteen words of the buffer to itself, and a stream that
no longer fits waits for all of them. So every submission of a reachable queue that goes through
runs in program order.
-/

namespace Ps5Vulkan.Queue

open Outcome WordBuffer

attribute [local irreducible] pollUntil

/-- A submission's stream is placed at `base`: at the buffer's start with every step finished, or
past the streams before it with room for its footprint. -/
structure PlacedAt (agc : Agc) (submit : List CmdBuffer) (m m₀ : Machine) (base : Nat) :
    Prop where
  quiet : Quiet (fun _ _ => False) m m₀
  buffer : m₀.buffer = m.buffer
  fence : m₀.fenceValue = m.fenceValue
  place : base = 0 ∧ Coherent m₀ m₀.steps ∨
    base = align16 m.ringHead ∧ base ≤ fenceWord ∧ footprint agc submit ≤ fenceWord - base

/-- The assembled stream lies in the buffer from its base on. -/
structure Assembled (P : Nat → Nat → Prop) (agc : Agc) (submit : List CmdBuffer) (m m₀ : Machine)
    (a : Assembly) (stream : List UInt32) : Prop where
  placed : PlacedAt agc submit m m₀ a.base
  parts : ∃ first, Prologue agc m.submittedValue submit first ∧
    stream = first ++ bodyStream agc submit m.fenceValue ∧
    a.splits = bodySplits submit first.length
  words : a.words = stream.length
  content : read a.machine.buffer a.base stream.length = stream
  quiet : Quiet P m₀ a.machine

theorem Assembled.sorted {P : Nat → Nat → Prop} {agc : Agc} {submit : List CmdBuffer}
    {m m₀ : Machine} {a : Assembly} {stream : List UInt32} (h : Assembled P agc submit m m₀ a stream) :
    a.splits.Pairwise (fun first second => first.offset ≤ second.offset) ∧
      ∀ split ∈ a.splits, split.offset ≤ stream.length := by
  obtain ⟨first, -, rfl, hsplits⟩ := h.parts
  obtain ⟨hsorted, hrange⟩ := bodySplits_sorted agc submit first.length m.fenceValue
  rw [hsplits]
  refine ⟨hsorted, fun split hmem => ?_⟩
  rw [List.length_append]
  exact (hrange split hmem).2

variable {m : Machine} {seen : Nat}

/-- The writes `P base` are allowed to a submission's stream at `base`, as long as the words `J base`
so far carry this to the next command buffer. -/
structure Allows (P : Nat → Nat → Nat → Prop) (J : Nat → List CmdBuffer → Nat → Prop) (agc : Agc)
    (submit : List CmdBuffer) (m : Machine) : Prop where
  prologue : ∀ m₀ base, PlacedAt agc submit m m₀ base →
    (∀ words len, words + len ≤ prologueCount agc → P base (base + words) len) ∧
    ∀ words ≤ prologueCount agc, J base submit words
  parts : ∀ m₀ base, PlacedAt agc submit m m₀ base → ∀ cb rest (a : Assembly), a.base = base →
    J base (cb :: rest) a.words → ¬cb.words.length > a.room agc →
    (∀ pos len, base + a.words ≤ pos →
      pos + len ≤ base + a.words + partCount cb rest.head? → P base pos len) ∧
    J base rest (a.words + partCount cb rest.head?)

theorem allows_any {agc : Agc} {submit : List CmdBuffer} :
    Allows (fun _ _ _ => True) (fun _ _ _ => True) agc submit m :=
  ⟨fun _ _ _ => ⟨fun _ _ _ => trivial, fun _ _ => trivial⟩,
    fun _ _ _ _ _ _ _ _ _ => ⟨fun _ _ _ _ => trivial, trivial⟩⟩

variable {P : Nat → Nat → Nat → Prop} {J : Nat → List CmdBuffer → Nat → Prop}

/-- Assembling a submission's stream. -/
theorem assemble_spec (agc : Agc) (submit : List CmdBuffer) (hcoh : Coherent m seen)
    (hallows : Allows P J agc submit m) : Post (assemble agc submit m)
      (fun a => J a.base [] a.words ∧ ∃ m₀ stream, Assembled (P a.base) agc submit m m₀ a stream)
      (fun _ m' => Quiet (fun _ _ => False) m m' ∨
        ∃ m₀ base, PlacedAt agc submit m m₀ base ∧ Quiet (P base) m₀ m') := by
  unfold assemble
  have hbase := queueStreamBase_spec (P := fun _ _ => False) agc (footprint agc submit) hcoh
  refine Post.bind (hbase.mono (fun _ h => h) fun _ _ h => Or.inl h) ?_
  rintro ⟨base, m₀⟩ ⟨hplace, hbuffer, hfence, hquiet⟩
  have hplaced : PlacedAt agc submit m m₀ base := ⟨hquiet, hbuffer, hfence, hplace⟩
  obtain ⟨hP, hstart⟩ := hallows.prologue m₀ base hplaced
  have hfirst := prologue_spec (P := P base)
    (a := { machine := m₀, base := base, words := 0, splits := [] }) agc submit rfl hP
  refine Post.bind (hfirst.mono (fun _ h => h) fun _ _ h => Or.inr ⟨m₀, base, hplaced, h⟩) ?_
  rintro a₁ ⟨first, hwords, hgrows₁⟩
  dsimp only at hgrows₁ hwords
  have hlength : a₁.words = first.length := by simpa using hgrows₁.words
  have hrest := appendCmdBuffers_spec (P := P base) agc (J base) base (hallows.parts m₀ base hplaced) submit a₁
    hgrows₁.base (by rw [hlength]; exact hstart _ hwords.length_le)
  refine hrest.mono ?_ fun _ _ h => Or.inr ⟨m₀, base, hplaced, hgrows₁.quiet.trans h⟩
  rintro a ⟨hJ', fence, hgrows₂⟩
  have hgrows := hgrows₁.trans hgrows₂
  have hbase' : a.base = base := hgrows.base
  have hsubmitted : m₀.submittedValue = m.submittedValue := hquiet.submitted
  rw [hgrows₁.fence] at hgrows
  rw [hsubmitted] at hwords
  rw [hfence, hlength] at hgrows
  rw [← hbase'] at hplaced hJ'
  refine ⟨hJ', m₀, first ++ bodyStream agc submit m.fenceValue, hplaced,
    ⟨first, hwords, rfl, by simpa using hgrows.splits⟩, ?_, ?_, ?_⟩
  · simpa using hgrows.words
  · rw [hbase']
    simpa using hgrows.content
  · rw [hbase']
    exact hgrows.quiet

theorem Ready.setRingHead (h : Ready m seen) (head : Nat) : Ready { m with ringHead := head } seen :=
  ⟨⟨h.submitted, h.completed, h.seen_le, h.finished_le, h.window, h.retire⟩, h.marker⟩

/-- What running an assembled stream leaves. The last step's ranges are kept unless a record at the
stream's end waited for it. -/
structure SubmissionRun (P : Nat → Nat → Prop) (agc : Agc) (submit : List CmdBuffer)
    (stream : List UInt32) (splits : List CopySplit) (seen : Nat) (m m' : Machine) : Prop where
  order : ∃ events, Progress P m m' events ∧ InOrder agc stream m.trace 0 splits events
  ready : ∃ seen', Ready m' seen' ∧ m'.steps ≤ seen' + (m.steps - seen) + 1
  deferred : (∀ split ∈ splits, split.offset < stream.length) → Defers submit m m'

variable {P : Nat → Nat → Prop} {agc : Agc} {submit : List CmdBuffer} {m₀ : Machine}
  {a : Assembly} {stream : List UInt32}

/-- A stream without records is one step of all its words. -/
theorem singleStep_spec (hrelease : agc.ReleasesPacket) (submit : List CmdBuffer) {base : Nat}
    (hcontent : read m.buffer base stream.length = stream) (hready : Ready m seen)
    (hroom : m.steps < seen + stepWindow) (hend : ∀ pos len, base ≤ pos → pos + len ≤ fenceWord → P pos len) :
    Post (queueRunStep agc submit base 0 stream.length false m)
      (fun m' => SubmissionRun P agc submit stream [] seen m m') (fun _ m' => WritesPlaced P m m') := by
  have hstep := queueRunStep_spec (P := P) agc hrelease submit base 0 stream.length (Nat.zero_le _)
    false hready hroom fun pos len hpos => hend pos len (by omega)
  refine hstep.mono ?_ fun _ _ h => h
  rintro m' ⟨-, packets, hpackets, hrun, -, kept, hkept, heq⟩
  obtain ⟨before, after, hprogress, hbefore, hafter⟩ := hrun.progress hready hroom
  obtain ⟨seen', hle, hready'⟩ := hrun.ready seen hready hroom
  refine ⟨⟨_, hprogress, InOrder.silents hbefore ?_⟩,
    ⟨seen', hready', by rw [hrun.steps]; omega⟩, fun _ => ?_⟩
  · have hwords : read m.buffer (base + 0) (stream.length - 0) ++ packets =
        (stream.drop 0).take (stream.length - 0) ++ packets := by
      simp [hcontent]
    rw [hwords]
    refine .step (m.steps + 1) stream.length packets (Nat.zero_le _) (le_refl _) hpackets ?_
    simpa using InOrder.silents hafter .done
  · exact ⟨kept, hkept, Or.inr hrun.steps, by rw [hrun.steps, heq]⟩

/-- The steps of an assembled stream run it in program order. -/
theorem runAssembled_spec (hrelease : agc.ReleasesPacket)
    (hasm : Assembled P agc submit m m₀ a stream) (counts : TraceCounts a.machine)
    (hready : Ready a.machine seen) (hroom : a.machine.steps < seen + stepWindow)
    (hwords : ∀ pos len, a.base ≤ pos → pos + len ≤ a.base + stream.length → P pos len)
    (hend : ∀ pos len, a.base ≤ pos → pos + len ≤ fenceWord → P pos len) :
    Post (runAssembled agc submit a) (fun m' => SubmissionRun P agc submit stream a.splits seen
        { a.machine with ringHead := a.base + a.words + agc.endWords } m')
      (fun _ m' => WritesPlaced P a.machine m') := by
  unfold runAssembled
  dsimp only
  split
  · rename_i hnone
    rw [hasm.words, hnone]
    have hstep := singleStep_spec (P := P) (m :=
      { a.machine with ringHead := a.base + stream.length + agc.endWords }) hrelease submit
      hasm.content (hready.setRingHead _) hroom hend
    exact hstep.mono (fun _ h => h) fun _ _ h => h
  · unfold queueRunCopySteps
    split
    · exact WritesPlaced.of_trace_eq rfl
    · obtain ⟨hsorted, hhigh⟩ := hasm.sorted
      dsimp only
      rw [hasm.words, hasm.content]
      have hloop := copyLoop_spec (P := P) agc hrelease submit a.base stream hwords hend a.splits
        hsorted hhigh 0 0 false (fun _ _ => Nat.zero_le _) (Nat.zero_le _)
        (m := { a.machine with ringHead := a.base + stream.length + agc.endWords })
        ⟨counts.finish_mem, counts.submit_mem⟩ (hready.setRingHead _) hroom (by simp)
      refine hloop.mono ?_ fun _ _ h => h
      rintro m' ⟨horder, hready', hdefer⟩
      refine ⟨horder, hready', fun hoffsets => hdefer ?_ hoffsets⟩
      rename_i hsome _
      obtain ⟨split, hmem⟩ := List.exists_mem_of_ne_nil _ hsome
      exact (Nat.zero_le _).trans_lt (hoffsets split hmem)

/-- The room a placed stream's step has among the steps not seen finished. -/
theorem PlacedAt.room {m₀ : Machine} {base : Nat} (h : PlacedAt agc submit m m₀ base)
    (hready : Ready m seen) (hring : 16 * (m.steps - seen) ≤ m.ringHead) :
    ∃ seen₀, Ready m₀ seen₀ ∧ m₀.steps < seen₀ + stepWindow ∧ 16 * (m₀.steps - seen₀) ≤ base := by
  rcases h.place with ⟨rfl, hcoh⟩ | ⟨rfl, hfits, -⟩
  · refine ⟨m₀.steps, ⟨hcoh, ?_⟩, lt_add_stepWindow _, by simp⟩
    rw [h.quiet.marker, h.quiet.steps, hready.marker]
  · obtain ⟨seen₀, hle, hready₀⟩ := h.quiet.ready hready
    have hsteps := h.quiet.steps
    have hwindow : fenceWord < 16 * stepWindow := by decide
    unfold align16 at hfits ⊢
    exact ⟨seen₀, hready₀, by omega, by omega⟩

/-- What a submission that went through leaves: its stream assembled and run. -/
def Submitted (P : Nat → Nat → Nat → Prop) (agc : Agc) (submit : List CmdBuffer)
    (m m' : Machine) : Prop :=
  ∃ m₀ a stream seen, Assembled (P a.base) agc submit m m₀ a stream ∧
    Ready a.machine seen ∧ 16 * (a.machine.steps - seen) ≤ a.base ∧
    SubmissionRun (P a.base) agc submit stream a.splits seen
      { a.machine with ringHead := a.base + a.words + agc.endWords }
      { m' with placements := m.placements } ∧
    m'.placements = m.placements ++ [⟨a.base, a.base + a.words + agc.endWords, m'.steps⟩]

/-- A submission from a coherent queue, with the writes `P base` allowed to a stream at `base`. -/
theorem queueRun_spec (hrelease : agc.ReleasesPacket) (submit : List CmdBuffer)
    (counts : TraceCounts m) (hready : Ready m seen) (hring : 16 * (m.steps - seen) ≤ m.ringHead)
    {P : Nat → Nat → Nat → Prop} {J : Nat → List CmdBuffer → Nat → Prop} (hallows : Allows P J agc submit m)
    (hwords : ∀ m₀ base words, PlacedAt agc submit m m₀ base → J base [] words →
      ∀ pos len, base ≤ pos → pos + len ≤ base + words → P base pos len)
    (hend : ∀ m₀ base, PlacedAt agc submit m m₀ base →
      ∀ pos len, base ≤ pos → pos + len ≤ fenceWord → P base pos len) : Post (queueRun agc submit m)
      (fun m' => Submitted P agc submit m m') (fun _ m' => Quiet (fun _ _ => False) m m' ∨
        ∃ m₀ base, PlacedAt agc submit m m₀ base ∧ WritesPlaced (P base) m₀ m') := by
  unfold queueRun
  have hassemble := assemble_spec agc submit hready.toCoherent hallows
  refine Post.bind (hassemble.mono (fun _ h => h) ?_) ?_
  · rintro _ m' (hquiet | ⟨m₀, base, hplaced, hquiet⟩)
    · exact Or.inl hquiet
    · exact Or.inr ⟨m₀, base, hplaced, hquiet.writesPlaced⟩
  rintro a ⟨hlast, m₀, stream, hasm⟩
  obtain ⟨seen₀, hready₀, hroom₀, hbase₀⟩ := hasm.placed.room hready hring
  obtain ⟨seen₁, hle, hready₁⟩ := hasm.quiet.ready hready₀
  have hsteps := hasm.quiet.steps
  have hrun := runAssembled_spec (P := P a.base) hrelease hasm
    (hasm.quiet.counts (hasm.placed.quiet.counts counts)) hready₁ (by omega)
    (hasm.words ▸ hwords m₀ a.base a.words hasm.placed hlast) (hend m₀ a.base hasm.placed)
  refine Post.bind (hrun.mono (fun _ h => h) fun _ m' h =>
    Or.inr ⟨m₀, a.base, hasm.placed, hasm.quiet.writesPlaced.trans h⟩) ?_
  intro m' hsubmission
  obtain ⟨events, hprogress, -⟩ := hsubmission.order
  have hplacements : m'.placements = m.placements := by
    rw [hprogress.placements]
    exact hasm.quiet.placements.trans hasm.placed.quiet.placements
  refine ⟨m₀, a, stream, seen₁, hasm, hready₁, by omega, ?_, by rw [hplacements]⟩
  rw [← hplacements]
  exact hsubmission

section Refused

/-- The only way the computation fails is a lost queue. -/
def LostOnly {α : Type} (result : Except (Failure × Machine) α) : Prop :=
  Post result (fun _ => True) fun reason _ => reason = .lost

theorem LostOnly.bind {α β : Type} {result : Except (Failure × Machine) α}
    {next : α → Except (Failure × Machine) β} (h : LostOnly result)
    (hnext : ∀ value, LostOnly (next value)) : LostOnly (result >>= next) :=
  Post.bind h fun value _ => hnext value

theorem lostOnly_endPackets (top up : Nat) (value : UInt32) (m : Machine) :
    LostOnly (endPackets agc top up value m) := by
  unfold endPackets
  refine LostOnly.bind ?_ fun stamped => ?_
  · unfold endStamp
    split
    · trivial
    · split
      · rfl
      · trivial
  · dsimp only
    split
    · rfl
    · split
      · rfl
      · trivial

theorem lostOnly_submitDcb (first past : Nat) (value : UInt32) (m : Machine) :
    LostOnly (submitDcb agc first past value m) := by
  unfold submitDcb
  dsimp only
  split
  · rfl
  · split
    · rfl
    · trivial

theorem lostOnly_waitStep (value : UInt32) (m : Machine) : LostOnly (waitStep agc value m) := by
  unfold waitStep
  dsimp only
  split
  · trivial
  · rfl

theorem lostOnly_queueRunStep (base start stop : Nat) (wait : Bool) (m : Machine) :
    LostOnly (queueRunStep agc submit base start stop wait m) := by
  unfold queueRunStep
  refine (lostOnly_endPackets _ _ _ _).bind fun ended =>
    (lostOnly_submitDcb _ _ _ _).bind fun m₁ => ?_
  split
  · exact lostOnly_waitStep _ _
  · trivial

theorem lostOnly_queueWaitIdle (m : Machine) : LostOnly (queueWaitIdle agc m) := by
  unfold queueWaitIdle queueWaitValue
  split
  · trivial
  · rfl

theorem lostOnly_copyLoop (base : Nat) (saved : List UInt32) (splits : List CopySplit)
    (skip start : Nat) (grouped : Bool) (m : Machine) :
    LostOnly (copyLoop agc submit base saved skip start grouped splits m) := by
  induction splits generalizing skip start grouped m with
  | nil =>
    unfold copyLoop
    split
    · exact lostOnly_queueRunStep _ _ _ _ _
    · trivial
  | cons split rest ih =>
    cases skip with
    | succ skip =>
      unfold copyLoop
      exact ih _ _ _ _
    | zero =>
      unfold copyLoop
      refine LostOnly.bind ?_ fun m₁ => LostOnly.bind ?_ fun ran => ih _ _ _ _
      · unfold reachSplit
        split
        · trivial
        · split
          · exact lostOnly_queueRunStep _ _ _ _ _
          · exact lostOnly_queueWaitIdle _
      · unfold runRecord
        split
        · trivial
        · trivial
        · split
          · rfl
          · trivial
        · trivial

/-- An assembled stream is refused only for want of host memory, before any step. -/
theorem runAssembled_refused {reason : Failure} {m' : Machine}
    (h : runAssembled agc submit a = .error (reason, m')) (hreason : reason ≠ .lost) :
    m' = { a.machine with ringHead := a.base + a.words + agc.endWords } := by
  unfold runAssembled at h
  dsimp only at h
  split at h
  · exact absurd ((lostOnly_queueRunStep _ _ _ _ _).of_eq_error h) hreason
  · unfold queueRunCopySteps at h
    split at h
    · cases h
      rfl
    · exact absurd ((lostOnly_copyLoop _ _ _ _ _ _ _).of_eq_error h) hreason

end Refused

end Ps5Vulkan.Queue
