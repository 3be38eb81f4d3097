import Ps5Vulkan.Queue.Reachable

/-!
# Barriers between the command buffers of a submission

A command buffer may sample what an earlier one of its submission rendered. The queue puts a barrier
between two neighbours when the first registered a target and the second samples before a barrier of
its own. Over the assembled stream this says which renders are flushed before a later command buffer
samples: a walk over the command buffers that keeps one bit, whether a render is not flushed yet,
decides it.
-/

variable (submit : List CmdBuffer) (agc : Agc) (first : List UInt32)

namespace Ps5Vulkan.Queue

/-- A command buffer with what its recording knows of its words: the last one that renders, and that
each fence patch is at a barrier's packets. -/
structure RecordedBuffer (fenceAddress : Nat) extends CmdBuffer where
  lastRender : Option Nat
  lastRender_lt : ∀ last ∈ lastRender, last < words.length
  lastRender_targets : lastRender ≠ none → targets ≠ []
  barrier_words : ∀ patch ∈ fencePatches,
    (words.drop patch).take gpuBarrierCount = gpuBarrierWords fenceAddress 0
  patches_apart : fencePatches.Pairwise fun first second => first + gpuBarrierCount ≤ second

/-- Where the barriers of a command buffer's part are, its words starting at `start`. -/
def partBarriers (cb : CmdBuffer) (next : Option CmdBuffer) (start : Nat) : List Nat :=
  cb.fencePatches.map (start + ·) ++
    if needsBarrier cb next then [start + cb.words.length] else []

/-- Where the barriers of command buffers whose words start at `start` are. -/
def barrierPlaces : List CmdBuffer → Nat → List Nat
  | [], _ => []
  | cb :: rest, start =>
    partBarriers cb rest.head? start ++ barrierPlaces rest (start + partCount cb rest.head?)

/-- The words before the command buffer at an index, those of the prologue not counted. -/
def streamStart : List CmdBuffer → Nat → Nat
  | [], _ => 0
  | _, 0 => 0
  | cb :: rest, index + 1 => partCount cb rest.head? + streamStart rest index

/-- Between two places of the stream stands a barrier, or a record whose step boundary the queue
waits at. -/
def FlushedBetween (start low high : Nat) : Prop :=
  (∃ place ∈ barrierPlaces submit start, low ≤ place ∧ place + gpuBarrierCount ≤ high) ∨
    ∃ split ∈ bodySplits submit start, low ≤ split.offset ∧ split.offset ≤ high

/-- Whether a command buffer flushes what was rendered before a word of it. -/
def CmdBuffer.flushesFrom (cb : CmdBuffer) (word : Nat) : Bool :=
  cb.fencePatches.any (word ≤ ·) ||
    cb.copies.any fun copy => word ≤ min copy.afterWords cb.words.length

variable {fenceAddress : Nat}

/-- Whether a command buffer leaves a render that is not flushed, given whether there was one. -/
def RecordedBuffer.leavesUnflushed (cb : RecordedBuffer fenceAddress) (unflushed : Bool) : Bool :=
  match cb.lastRender with
  | none => unflushed && !cb.flushesFrom 0
  | some last => !cb.flushesFrom (last + 1)

/-- No command buffer that samples early is reached with a render not flushed, except where a record
falls at its first word. -/
def rendersCovered : Bool → List (RecordedBuffer fenceAddress) → Bool
  | _, [] => true
  | unflushed, cb :: rest =>
    let parts := rest.map RecordedBuffer.toCmdBuffer
    (!(unflushed && cb.samplesEarly) ||
      (bodySplits (cb.toCmdBuffer :: parts) 0).any (·.offset == 0)) &&
    rendersCovered (cb.leavesUnflushed unflushed && !needsBarrier cb.toCmdBuffer parts.head?) rest

theorem CmdBuffer.flushesFrom_iff {cb : CmdBuffer} {word : Nat} :
    cb.flushesFrom word = true ↔ (∃ patch ∈ cb.fencePatches, word ≤ patch) ∨
      ∃ copy ∈ cb.copies, word ≤ min copy.afterWords cb.words.length := by
  simp only [CmdBuffer.flushesFrom, Bool.or_eq_true, List.any_eq_true, decide_eq_true_eq]

theorem CmdBuffer.flushesFrom_mono {cb : CmdBuffer} {word word' : Nat} (hle : word ≤ word')
    (h : cb.flushesFrom word' = true) : cb.flushesFrom word = true := by
  rw [CmdBuffer.flushesFrom_iff] at h ⊢
  rcases h with ⟨patch, hmem, hpatch⟩ | ⟨copy, hmem, hcopy⟩
  · exact Or.inl ⟨patch, hmem, hle.trans hpatch⟩
  · exact Or.inr ⟨copy, hmem, hle.trans hcopy⟩

theorem mem_partBarriers {cb : CmdBuffer} {next : Option CmdBuffer} {start place : Nat} :
    place ∈ partBarriers cb next start ↔ (∃ patch ∈ cb.fencePatches, start + patch = place) ∨
        needsBarrier cb next = true ∧ place = start + cb.words.length := by
  simp only [partBarriers, List.mem_append, List.mem_map]
  split <;> simp_all

theorem mem_partSplits {cb : CmdBuffer} {start : Nat} {split : CopySplit} :
    split ∈ partSplits cb start ↔ ∃ copy ∈ cb.copies,
      (⟨start + min copy.afterWords cb.words.length, copy⟩ : CopySplit) = split := by
  simp only [partSplits, List.mem_map]

/-- A barrier of a part lies inside it. -/
theorem place_add_le {cb : CmdBuffer} {next : Option CmdBuffer} {start place : Nat}
    (h : place ∈ partBarriers cb next start) : start ≤ place ∧ place + gpuBarrierCount ≤ start + partCount cb next := by
  rcases mem_partBarriers.1 h with ⟨patch, hmem, rfl⟩ | ⟨hneeds, rfl⟩
  · have hfit := cb.patches_fit patch hmem
    unfold partCount
    omega
  · simp only [partCount, hneeds, if_true]
    omega

theorem le_of_mem_barrierPlaces (start : Nat) {place : Nat}
    (h : place ∈ barrierPlaces submit start) : start ≤ place := by
  induction submit generalizing start with
  | nil => cases h
  | cons cb rest ih =>
    rcases List.mem_append.1 h with h | h
    · exact (place_add_le h).1
    · exact (Nat.le_add_right _ _).trans (ih _ h)

theorem le_of_mem_bodySplits (start : Nat) {split : CopySplit}
    (h : split ∈ bodySplits submit start) : start ≤ split.offset := by
  induction submit generalizing start with
  | nil => cases h
  | cons cb rest ih =>
    rcases List.mem_append.1 h with h | h
    · obtain ⟨copy, -, rfl⟩ := mem_partSplits.1 h
      exact Nat.le_add_right _ _
    · exact (Nat.le_add_right _ _).trans (ih _ h)

section Cut

variable {cb : CmdBuffer} {rest : List CmdBuffer} {start high : Nat}

/-- The first command buffer's part flushes between the places, or the rest does. -/
theorem flushedBetween_cons {low : Nat} : FlushedBetween (cb :: rest) start low high ↔
    ((∃ place ∈ partBarriers cb rest.head? start, low ≤ place ∧ place + gpuBarrierCount ≤ high) ∨
      ∃ split ∈ partSplits cb start, low ≤ split.offset ∧ split.offset ≤ high) ∨
        FlushedBetween rest (start + partCount cb rest.head?) low high := by
  simp only [FlushedBetween, barrierPlaces, bodySplits, List.mem_append, or_and_right, exists_or]
  exact or_or_or_comm

/-- From a word of the first command buffer on: it flushes after that word, the queue's barrier
follows it, or the rest flushes. -/
theorem flushedBetween_cons_iff {word : Nat} (hword : word ≤ cb.words.length)
    (hhigh : start + partCount cb rest.head? ≤ high) : FlushedBetween (cb :: rest) start (start + word) high ↔
      (cb.flushesFrom word = true ∨ needsBarrier cb rest.head? = true) ∨
        FlushedBetween rest (start + partCount cb rest.head?) (start + partCount cb rest.head?)
          high := by
  have hcount : cb.words.length ≤ partCount cb rest.head? := Nat.le_add_right _ _
  rw [flushedBetween_cons, CmdBuffer.flushesFrom_iff]
  refine or_congr ⟨?_, ?_⟩ (or_congr ?_ ?_)
  · rintro (⟨place, hmem, hlow, -⟩ | ⟨split, hmem, hlow, -⟩)
    · rcases mem_partBarriers.1 hmem with ⟨patch, hpatch, rfl⟩ | ⟨hneeds, -⟩
      · exact Or.inl (Or.inl ⟨patch, hpatch, by omega⟩)
      · exact Or.inr hneeds
    · obtain ⟨copy, hcopy, rfl⟩ := mem_partSplits.1 hmem
      exact Or.inl (Or.inr ⟨copy, hcopy, Nat.le_of_add_le_add_left hlow⟩)
  · rintro ((⟨patch, hpatch, hle⟩ | ⟨copy, hcopy, hle⟩) | hneeds)
    · have hpart : start + patch ∈ partBarriers cb rest.head? start :=
        mem_partBarriers.2 (Or.inl ⟨patch, hpatch, rfl⟩)
      exact Or.inl ⟨_, hpart, by omega, (place_add_le hpart).2.trans hhigh⟩
    · exact Or.inr ⟨_, mem_partSplits.2 ⟨copy, hcopy, rfl⟩, by dsimp only; omega, by dsimp only; omega⟩
    · have hpart : start + cb.words.length ∈ partBarriers cb rest.head? start :=
        mem_partBarriers.2 (Or.inr ⟨hneeds, rfl⟩)
      exact Or.inl ⟨_, hpart, by omega, (place_add_le hpart).2.trans hhigh⟩
  · refine exists_congr fun place => and_congr_right fun hmem => and_congr_left' ?_
    exact iff_of_true (by have := le_of_mem_barrierPlaces _ _ hmem; omega) (le_of_mem_barrierPlaces _ _ hmem)
  · refine exists_congr fun split => and_congr_right fun hmem => and_congr_left' ?_
    exact iff_of_true (by have := le_of_mem_bodySplits _ _ hmem; omega) (le_of_mem_bodySplits _ _ hmem)

/-- Past the first command buffer's part only the rest flushes. -/
theorem flushedBetween_cons_of_lt {low : Nat} (hlow : start + partCount cb rest.head? < low) :
    FlushedBetween (cb :: rest) start low high ↔ FlushedBetween rest (start + partCount cb rest.head?) low high := by
  have hcount : cb.words.length ≤ partCount cb rest.head? := Nat.le_add_right _ _
  refine flushedBetween_cons.trans (or_iff_right ?_)
  rintro (⟨place, hmem, hplace, -⟩ | ⟨split, hmem, hsplit, -⟩)
  · have hinside := (place_add_le hmem).2
    omega
  · obtain ⟨copy, hcopy, rfl⟩ := mem_partSplits.1 hmem
    dsimp only at hsplit
    omega

end Cut

theorem partSplits_add (cb : CmdBuffer) (start shift : Nat) : partSplits cb (start + shift) =
      (partSplits cb start).map fun split => { split with offset := split.offset + shift } := by
  simp only [partSplits, List.map_map]
  refine List.map_congr_left fun copy _ => ?_
  simp only [Function.comp, CopySplit.mk.injEq, and_true]
  omega

theorem bodySplits_add (start shift : Nat) : bodySplits submit (start + shift) =
      (bodySplits submit start).map fun split => { split with offset := split.offset + shift } := by
  induction submit generalizing start with
  | nil => rfl
  | cons cb rest ih =>
    simp only [bodySplits, List.map_append, partSplits_add]
    rw [← ih, Nat.add_right_comm]

/-- Before a command buffer's first word only a record at that word flushes. -/
theorem flushedBetween_self_iff (start : Nat) :
    FlushedBetween submit start start start ↔ (bodySplits submit 0).any (·.offset == 0) = true := by
  have hshift := bodySplits_add submit 0 start
  rw [Nat.zero_add] at hshift
  simp only [FlushedBetween, hshift, List.mem_map, List.any_eq_true, beq_iff_eq]
  constructor
  · rintro (⟨place, -, hlow, hhigh⟩ | ⟨split, ⟨split₀, hmem, rfl⟩, -, hhigh⟩)
    · exact absurd (Nat.lt_of_lt_of_le (by decide : 0 < gpuBarrierCount) (by omega)) (lt_irrefl 0)
    · exact ⟨split₀, hmem, by dsimp only at hhigh; omega⟩
  · rintro ⟨split, hmem, hzero⟩
    exact Or.inr ⟨_, ⟨split, hmem, rfl⟩, by dsimp only; omega, by dsimp only; omega⟩

/-- Every render is flushed before a later command buffer that samples early. -/
def RendersFlushed (start : Nat) (submit : List (RecordedBuffer fenceAddress)) : Prop :=
  ∀ i j a b last, i < j → submit[i]? = some a → submit[j]? = some b → a.lastRender = some last →
    b.samplesEarly = true →
    FlushedBetween (submit.map RecordedBuffer.toCmdBuffer) start
      (start + streamStart (submit.map RecordedBuffer.toCmdBuffer) i + (last + 1))
      (start + streamStart (submit.map RecordedBuffer.toCmdBuffer) j)

/-- What was rendered before the first command buffer is flushed before one that samples early. -/
def EarlyFlushed (start : Nat) (submit : List (RecordedBuffer fenceAddress)) : Prop :=
  ∀ j b, submit[j]? = some b → b.samplesEarly = true →
    FlushedBetween (submit.map RecordedBuffer.toCmdBuffer) start start
      (start + streamStart (submit.map RecordedBuffer.toCmdBuffer) j)

section Walk

variable {cb : RecordedBuffer fenceAddress} {rest : List (RecordedBuffer fenceAddress)} {start : Nat}

/-- Where the rest of the stream starts, after a first command buffer. -/
private def restStart (start : Nat) (cb : RecordedBuffer fenceAddress)
    (rest : List (RecordedBuffer fenceAddress)) : Nat :=
  start + partCount cb.toCmdBuffer (rest.map RecordedBuffer.toCmdBuffer).head?

private theorem streamStart_cons (index : Nat) :
    start + streamStart ((cb :: rest).map RecordedBuffer.toCmdBuffer) (index + 1) =
      restStart start cb rest + streamStart (rest.map RecordedBuffer.toCmdBuffer) index := by
  simp only [List.map_cons, streamStart, restStart, Nat.add_assoc]

/-- From a word of the first command buffer on, to every later one that samples early. -/
private theorem flushed_later_iff {word : Nat} (hword : word ≤ cb.words.length) :
    (∀ j b, rest[j]? = some b → b.samplesEarly = true →
      FlushedBetween ((cb :: rest).map RecordedBuffer.toCmdBuffer) start (start + word)
        (start + streamStart ((cb :: rest).map RecordedBuffer.toCmdBuffer) (j + 1))) ↔
      (cb.flushesFrom word = true ∨ needsBarrier cb.toCmdBuffer
          (rest.map RecordedBuffer.toCmdBuffer).head? = true) ∨ EarlyFlushed (restStart start cb rest) rest := by
  have hcut : ∀ j, FlushedBetween ((cb :: rest).map RecordedBuffer.toCmdBuffer) start
      (start + word) (start + streamStart ((cb :: rest).map RecordedBuffer.toCmdBuffer) (j + 1)) ↔
      (cb.flushesFrom word = true ∨ needsBarrier cb.toCmdBuffer (rest.map RecordedBuffer.toCmdBuffer).head? = true) ∨
        FlushedBetween (rest.map RecordedBuffer.toCmdBuffer) (restStart start cb rest)
          (restStart start cb rest)
          (restStart start cb rest + streamStart (rest.map RecordedBuffer.toCmdBuffer) j) := by
    intro j
    rw [streamStart_cons]
    exact flushedBetween_cons_iff hword (Nat.le_add_right _ _)
  simp only [hcut]
  constructor
  · intro h
    by_cases hflush : cb.flushesFrom word = true ∨ needsBarrier cb.toCmdBuffer
        (rest.map RecordedBuffer.toCmdBuffer).head? = true
    · exact Or.inl hflush
    · exact Or.inr fun j b hb hearly => (h j b hb hearly).resolve_left hflush
  · rintro (hflush | hrest) j b hb hearly
    · exact Or.inl hflush
    · exact Or.inr (hrest j b hb hearly)

private theorem rendersFlushed_cons_iff :
    RendersFlushed start (cb :: rest) ↔ RendersFlushed (restStart start cb rest) rest ∧
      ∀ last, cb.lastRender = some last → (cb.flushesFrom (last + 1) = true ∨ needsBarrier cb.toCmdBuffer
          (rest.map RecordedBuffer.toCmdBuffer).head? = true) ∨ EarlyFlushed (restStart start cb rest) rest := by
  -- A pair's render is in the rest, or in the first command buffer; the sampling one is in the rest.
  have hrest : ∀ i j last, FlushedBetween ((cb :: rest).map RecordedBuffer.toCmdBuffer) start
      (start + streamStart ((cb :: rest).map RecordedBuffer.toCmdBuffer) (i + 1) + (last + 1))
      (start + streamStart ((cb :: rest).map RecordedBuffer.toCmdBuffer) (j + 1)) ↔
      FlushedBetween (rest.map RecordedBuffer.toCmdBuffer) (restStart start cb rest)
        (restStart start cb rest + streamStart (rest.map RecordedBuffer.toCmdBuffer) i + (last + 1))
        (restStart start cb rest + streamStart (rest.map RecordedBuffer.toCmdBuffer) j) := by
    intro i j last
    rw [streamStart_cons, streamStart_cons]
    exact flushedBetween_cons_of_lt (by unfold restStart; omega)
  constructor
  · intro h
    refine ⟨fun i j a b last hij ha hb hlast hearly => ?_, fun last hlast => ?_⟩
    · exact (hrest i j last).1 (h (i + 1) (j + 1) a b last (by omega) ha hb hlast hearly)
    · exact (flushed_later_iff (cb.lastRender_lt last hlast)).1 fun j b hb hearly =>
        h 0 (j + 1) cb b last (Nat.succ_pos j) rfl hb hlast hearly
  · rintro ⟨hpairs, hfirst⟩ i j a b last hij ha hb hlast hearly
    obtain ⟨j, rfl⟩ : ∃ j', j = j' + 1 := ⟨j - 1, by omega⟩
    cases i with
    | zero =>
      cases ha
      exact (flushed_later_iff (cb.lastRender_lt last hlast)).2 (hfirst last hlast) j b hb hearly
    | succ i => exact (hrest i j last).2 (hpairs i j a b last (by omega) ha hb hlast hearly)

private theorem earlyFlushed_cons_iff : EarlyFlushed start (cb :: rest) ↔
      (cb.samplesEarly = true → (bodySplits (cb.toCmdBuffer :: rest.map RecordedBuffer.toCmdBuffer)
        0).any (·.offset == 0) = true) ∧ ((cb.flushesFrom 0 = true ∨ needsBarrier cb.toCmdBuffer
          (rest.map RecordedBuffer.toCmdBuffer).head? = true) ∨ EarlyFlushed (restStart start cb rest) rest) := by
  rw [← flushed_later_iff (Nat.zero_le _), ← flushedBetween_self_iff _ start]
  constructor
  · exact fun h => ⟨fun hearly => h 0 cb rfl hearly, fun j b hb hearly => h (j + 1) b hb hearly⟩
  · rintro ⟨hself, hlater⟩ j b hb hearly
    cases j with
    | zero =>
      cases hb
      exact hself hearly
    | succ j => exact hlater j b hb hearly

/-- The walk decides whether every render is flushed, those before the first command buffer too. -/
theorem rendersCovered_iff (unflushed : Bool) (submit : List (RecordedBuffer fenceAddress))
    (start : Nat) : rendersCovered unflushed submit = true ↔
      RendersFlushed start submit ∧ (unflushed = true → EarlyFlushed start submit) := by
  induction submit generalizing unflushed start with
  | nil => simp [rendersCovered, RendersFlushed, EarlyFlushed]
  | cons cb rest ih =>
    rw [rendersFlushed_cons_iff, earlyFlushed_cons_iff, rendersCovered, Bool.and_eq_true,
      ih _ (restStart start cb rest)]
    simp only [RecordedBuffer.leavesUnflushed]
    cases hlast : cb.lastRender with
    | none => cases unflushed <;> cases cb.samplesEarly <;> simp <;> grind
    | some last =>
      have hmono : cb.flushesFrom (last + 1) = true → cb.flushesFrom 0 = true :=
        CmdBuffer.flushesFrom_mono (Nat.zero_le _)
      cases unflushed <;> cases cb.samplesEarly <;> simp <;> grind

end Walk

/-- Patching a barrier leaves the words before it. -/
theorem patchedWords_before {place : Nat} (patches : List Nat) (fence : UInt32)
    (words : List UInt32) (h : ∀ patch ∈ patches, place + gpuBarrierCount ≤ patch) :
    ((patchedWords patches fence words).1.drop place).take gpuBarrierCount =
      (words.drop place).take gpuBarrierCount := by
  induction patches generalizing fence words with
  | nil => rfl
  | cons patch patches ih =>
    have hpatch := h patch (List.mem_cons_self ..)
    rw [patchedWords, ih _ _ fun q hq => h q (List.mem_cons_of_mem _ hq)]
    rw [List.drop_set, if_neg (by omega), List.drop_set, if_neg (by omega), List.take_set,
      List.take_set, List.set_eq_of_length_le, List.set_eq_of_length_le]
    all_goals simp only [List.length_take, List.length_set]; omega

/-- Every barrier a command buffer recorded is one in its part of the stream, with its value. -/
theorem patchedWords_barrier (patches : List Nat) (fence : UInt32) (words : List UInt32)
    (hapart : patches.Pairwise fun first second => first + gpuBarrierCount ≤ second) (hwords : ∀ patch ∈ patches,
      (words.drop patch).take gpuBarrierCount = gpuBarrierWords fenceAddress 0) :
    ∀ patch ∈ patches, ∃ value, ((patchedWords patches fence words).1.drop patch).take
      gpuBarrierCount = gpuBarrierWords fenceAddress value := by
  induction patches generalizing fence words with
  | nil => intro patch hmem; cases hmem
  | cons first patches ih =>
    obtain ⟨hfirst, hrest⟩ := List.pairwise_cons.1 hapart
    have hvalue : ∀ value : UInt32, ((((words.set (first + gpuBarrierValueWord) value).set
        (first + gpuBarrierRefWord) value).drop first).take gpuBarrierCount) =
        gpuBarrierWords fenceAddress value := by
      intro value
      rw [← gpuBarrierWords_patch, ← hwords first (List.mem_cons_self ..), List.drop_set,
        if_neg (by omega), List.drop_set, if_neg (by omega), List.take_set, List.take_set,
        Nat.add_sub_cancel_left, Nat.add_sub_cancel_left]
    intro patch hmem
    rcases List.mem_cons.1 hmem with rfl | hmem
    · refine ⟨nextValue fence, ?_⟩
      rw [patchedWords, patchedWords_before _ _ _ hfirst, hvalue]
    · refine ih _ _ hrest (fun later hlater => ?_) patch hmem
      have hbefore := hfirst later hlater
      rw [List.drop_set_of_lt, List.drop_set_of_lt]
      · exact hwords later (List.mem_cons_of_mem _ hlater)
      · simp only [gpuBarrierValueWord, gpuBarrierCount] at *; omega
      · simp only [gpuBarrierRefWord, gpuBarrierCount] at *; omega

theorem partWords_barrier (cb : RecordedBuffer agc.fenceAddress)
    (next : Option CmdBuffer) (fence : UInt32) {start place : Nat}
    (h : place ∈ partBarriers cb.toCmdBuffer next start) :
    ∃ value, ((partWords agc cb.toCmdBuffer next fence).drop (place - start)).take
      gpuBarrierCount = gpuBarrierWords agc.fenceAddress value := by
  unfold partWords
  dsimp only
  rcases mem_partBarriers.1 h with ⟨patch, hmem, rfl⟩ | ⟨hneeds, rfl⟩
  · obtain ⟨value, hvalue⟩ := patchedWords_barrier _ fence _ cb.patches_apart cb.barrier_words
      patch hmem
    have hfit := cb.patches_fit patch hmem
    refine ⟨value, ?_⟩
    rw [Nat.add_sub_cancel_left, List.drop_append_of_le_length, List.take_append_of_le_length, hvalue]
    all_goals simp only [List.length_drop, length_patchedWords]; omega
  · refine ⟨nextValue (patchedWords cb.fencePatches fence cb.words).2, ?_⟩
    rw [if_pos hneeds, Nat.add_sub_cancel_left, List.drop_append, length_patchedWords,
      Nat.sub_self, List.drop_eq_nil_of_le (by rw [length_patchedWords])]
    rfl

/-- Every barrier place of the stream holds a barrier. -/
theorem bodyStream_barrier (submit : List (RecordedBuffer agc.fenceAddress))
    (fence : UInt32) (start : Nat) {place : Nat}
    (h : place ∈ barrierPlaces (submit.map RecordedBuffer.toCmdBuffer) start) :
    ∃ value, ((bodyStream agc (submit.map RecordedBuffer.toCmdBuffer) fence).drop
      (place - start)).take gpuBarrierCount = gpuBarrierWords agc.fenceAddress value := by
  induction submit generalizing fence start with
  | nil => cases h
  | cons cb rest ih =>
    rcases List.mem_append.1 h with hpart | hrest
    · obtain ⟨value, hvalue⟩ := partWords_barrier agc cb _ fence hpart
      have hinside := place_add_le hpart
      refine ⟨value, ?_⟩
      rw [List.map_cons, bodyStream, List.drop_append_of_le_length, List.take_append_of_le_length, hvalue]
      all_goals simp only [List.length_drop, length_partWords]; omega
    · obtain ⟨value, hvalue⟩ := ih (partFence cb.toCmdBuffer _ fence) _ hrest
      have hle := le_of_mem_barrierPlaces _ _ hrest
      refine ⟨value, ?_⟩
      rw [List.map_cons, bodyStream, List.drop_append, length_partWords,
        List.drop_eq_nil_of_le (by rw [length_partWords]; omega), List.nil_append, Nat.sub_sub]
      exact hvalue

/-- In the stream of a submission, after the words `first` of its prologue, every pair of command
buffers of which the first renders and the second samples early has a barrier, or a record's step
boundary, after the last word that renders and before the first word of the second. -/
def RendersOrdered (fence : UInt32)
    (submit : List (RecordedBuffer agc.fenceAddress)) : Prop :=
  ∀ i j a b last, i < j → submit[i]? = some a → submit[j]? = some b → a.lastRender = some last →
    b.samplesEarly = true →
    let parts := submit.map RecordedBuffer.toCmdBuffer
    let low := first.length + streamStart parts i + (last + 1)
    let high := first.length + streamStart parts j
    (∃ place ∈ barrierPlaces parts first.length, low ≤ place ∧ place + gpuBarrierCount ≤ high ∧
      ∃ value, ((first ++ bodyStream agc parts fence).drop place).take gpuBarrierCount =
        gpuBarrierWords agc.fenceAddress value) ∨
    ∃ split ∈ bodySplits parts first.length, low ≤ split.offset ∧ split.offset ≤ high

theorem rendersOrdered_iff_flushed (fence : UInt32) (submit : List (RecordedBuffer agc.fenceAddress)) :
    RendersOrdered agc first fence submit ↔ RendersFlushed first.length submit := by
  constructor
  · intro h i j a b last hij ha hb hlast hearly
    rcases h i j a b last hij ha hb hlast hearly with ⟨place, hmem, hlow, hhigh, -⟩ | hsplit
    · exact Or.inl ⟨place, hmem, hlow, hhigh⟩
    · exact Or.inr hsplit
  · intro h i j a b last hij ha hb hlast hearly
    rcases h i j a b last hij ha hb hlast hearly with ⟨place, hmem, hlow, hhigh⟩ | hsplit
    · obtain ⟨value, hvalue⟩ := bodyStream_barrier agc submit fence first.length hmem
      refine Or.inl ⟨place, hmem, hlow, hhigh, value, ?_⟩
      rw [List.drop_append, List.drop_eq_nil_of_le (le_of_mem_barrierPlaces _ _ hmem), List.nil_append, hvalue]
    · exact Or.inr hsplit

/-- Renders are ordered before later samples exactly where the walk covers them. -/
theorem renders_ordered_iff_covered (fence : UInt32)
    (submit : List (RecordedBuffer agc.fenceAddress)) :
    RendersOrdered agc first fence submit ↔ rendersCovered false submit = true := by
  rw [rendersOrdered_iff_flushed, rendersCovered_iff false submit first.length]
  exact ⟨fun h => ⟨h, nofun⟩, fun h => h.1⟩

/-- A command buffer of plain words: what it registers, what it renders and whether it samples. -/
def plainBuffer (words : List UInt32) (targets : List RenderTarget) (samplesEarly : Bool) :
    RecordedBuffer fenceAddress where
  words := words
  copies := []
  fencePatches := []
  targets := targets
  samplesEarly := samplesEarly
  patches_fit := by simp
  copies_sorted := CmdBuffer.noCopies_sorted
  lastRender := if targets = [] ∨ words = [] then none else some (words.length - 1)
  lastRender_lt := by
    intro last hlast
    split at hlast
    · cases hlast
    · cases hlast
      have hpos : words.length ≠ 0 := by simp_all
      omega
  lastRender_targets := by
    intro h htargets
    simp [htargets] at h
  barrier_words := by simp
  patches_apart := by simp

/-- A target of a rendering, outside a swapchain. -/
def plainTarget : RenderTarget where
  memory := none
  always := false
  address := 0x10000
  bytes := 0x10000
  video := -1
  bufferIndex := ⟨0, swapchainImages_pos⟩

/-- A command buffer that renders, one that does neither, and one that samples. -/
def renderIdleSample : List (RecordedBuffer plainAgc.fenceAddress) :=
  [plainBuffer [0xa] [plainTarget] false, plainBuffer [0xb] [] false, plainBuffer [0xc] [] true]

/-- The command buffer between the two hides the render from the queue: the submission goes through,
and nothing stands between the render and the sample. -/
theorem renderIdleSample_not_ordered :
    (queueRun plainAgc (renderIdleSample.map RecordedBuffer.toCmdBuffer) (.init [])).isOk = true ∧
      ∀ first fence, ¬RendersOrdered plainAgc first fence renderIdleSample := by
  refine ⟨by decide +kernel, fun first fence h => ?_⟩
  rw [rendersOrdered_iff_flushed] at h
  have hcovered := (rendersCovered_iff false renderIdleSample first.length).2 ⟨h, nofun⟩
  revert hcovered
  decide

end Ps5Vulkan.Queue
