import Ps5Vulkan.Queue.Effects
import Mathlib.Data.Fintype.Card

/-!
# The stream a submission assembles

The stream as a list: the prologue's packets and each command buffer's words with its fence values
in place, a barrier after those that need one. The words the queue writes into the submission buffer
are this list, in one run from the stream's base.

## Implementation notes

Every lemma takes the writes `P` it is allowed and, over a loop, a property `J` of the words so far
that carries this from one round to the next. The stream's content needs neither.
-/

variable (agc : Agc) (cb : CmdBuffer) (next : Option CmdBuffer)

namespace Ps5Vulkan.Queue

open Outcome WordBuffer

/-- The wait packets of the images the targets name, each image once, in the targets' order. -/
inductive WaitPackets (agc : Agc) :
    List (Fin swapchainImages) → List RenderTarget → List UInt32 → Prop
  | nil {waited} : WaitPackets agc waited [] []
  | skip {waited target targets words} (hskip : target.video < 0 ∨ target.bufferIndex ∈ waited)
      (hrest : WaitPackets agc waited targets words) :
      WaitPackets agc waited (target :: targets) words
  | wait {waited target targets words packet} (found : List UInt32)
      (hwait : ¬(target.video < 0 ∨ target.bufferIndex ∈ waited))
      (hpacket : agc.waitUntilSafe target.video target.bufferIndex found = some packet)
      (hlength : packet.length = agc.waitPacketWords)
      (hrest : WaitPackets agc (target.bufferIndex :: waited) targets words) :
      WaitPackets agc waited (target :: targets) (packet ++ words)

/-- The packets before a submission's first command buffer, after a step with value `previous`. -/
def Prologue (previous : UInt32) (submit : List CmdBuffer) (words : List UInt32) :
    Prop :=
  ∃ step waits, (step = [] ∨ step = markerWaitWords agc.markerAddress previous) ∧
    WaitPackets agc [] (submit.flatMap CmdBuffer.targets) waits ∧
    words = stampWords agc 0 ++ (step ++ (waits ++ stampWords agc 1))

/-- A command buffer's words with the next fence values in place, and the last value taken. -/
def patchedWords : List Nat → UInt32 → List UInt32 → List UInt32 × UInt32
  | [], fence, words => (words, fence)
  | patch :: patches, fence, words =>
    let value := nextValue fence
    patchedWords patches value
      ((words.set (patch + gpuBarrierValueWord) value).set (patch + gpuBarrierRefWord) value)

/-- Whether the queue puts a barrier after a command buffer. -/
def needsBarrier : Bool :=
  next.any CmdBuffer.samplesEarly && !cb.targets.isEmpty

/-- The words of a command buffer's part of the stream, its barrier included. -/
def partCount : Nat :=
  cb.words.length + if needsBarrier cb next then gpuBarrierCount else 0

/-- The last fence value of a command buffer's part. -/
def partFence (fence : UInt32) : UInt32 :=
  let patched := (patchedWords cb.fencePatches fence cb.words).2
  if needsBarrier cb next then nextValue patched else patched

/-- A command buffer's part of the stream. -/
def partWords (fence : UInt32) :
    List UInt32 :=
  let patched := patchedWords cb.fencePatches fence cb.words
  patched.1 ++
    if needsBarrier cb next then gpuBarrierWords agc.fenceAddress (nextValue patched.2) else []

/-- The splits of a command buffer whose words start at `start`. -/
def partSplits (start : Nat) : List CopySplit :=
  cb.copies.map fun copy => ⟨start + min copy.afterWords cb.words.length, copy⟩

/-- The command buffers' parts of the stream. -/
def bodyStream (agc : Agc) : List CmdBuffer → UInt32 → List UInt32
  | [], _ => []
  | cb :: rest, fence =>
    partWords agc cb rest.head? fence ++ bodyStream agc rest (partFence cb rest.head? fence)

/-- The splits of command buffers whose words start at `start`. -/
def bodySplits : List CmdBuffer → Nat → List CopySplit
  | [], _ => []
  | cb :: rest, start =>
    partSplits cb start ++ bodySplits rest (start + partCount cb rest.head?)

theorem length_patchedWords (patches : List Nat) (fence : UInt32) (words : List UInt32) :
    (patchedWords patches fence words).1.length = words.length := by
  induction patches generalizing fence words with
  | nil => rfl
  | cons patch patches ih => simp [patchedWords, ih]

@[simp] theorem length_partWords (fence : UInt32) : (partWords agc cb next fence).length = partCount cb next := by
  unfold partWords partCount
  split <;> simp [length_patchedWords]

/-- The stream grew by `added`, its splits by `splits`, and `fence` is the last fence value. -/
structure Grows (P : Nat → Nat → Prop) (a a' : Assembly) (added : List UInt32)
    (splits : List CopySplit) (fence : UInt32) : Prop where
  base : a'.base = a.base
  words : a'.words = a.words + added.length
  content : read a'.machine.buffer a.base (a.words + added.length) =
    read a.machine.buffer a.base a.words ++ added
  splits : a'.splits = a.splits ++ splits
  fence : a'.machine.fenceValue = fence
  quiet : Quiet P a.machine a'.machine

theorem Grows.trans {P : Nat → Nat → Prop} {a a₁ a₂ : Assembly} {added added' : List UInt32}
    {splits splits' : List CopySplit} {fence fence' : UInt32}
    (h : Grows P a a₁ added splits fence) (h' : Grows P a₁ a₂ added' splits' fence') :
    Grows P a a₂ (added ++ added') (splits ++ splits') fence' := by
  have hcontent := h'.content
  rw [h.base, h.words, h.content, List.append_assoc] at hcontent
  refine ⟨h'.base.trans h.base, ?_, ?_, ?_, h'.fence, h.quiet.trans h'.quiet⟩
  · rw [h'.words, h.words, List.length_append, Nat.add_assoc]
  · rw [List.length_append, ← Nat.add_assoc]
    exact hcontent
  · rw [h'.splits, h.splits, List.append_assoc]

theorem Grows.refl {P : Nat → Nat → Prop} (a : Assembly) : Grows P a a [] [] a.machine.fenceValue :=
  ⟨rfl, rfl, by simp, by simp, rfl, Quiet.refl _⟩

variable {P : Nat → Nat → Prop} {a : Assembly}

/-- Appending words grows the stream by them. -/
theorem emit_spec (words : List UInt32) (hP : P (a.base + a.words) words.length) :
    Post (a.emit words) (fun a' => Grows P a a' words [] a.machine.fenceValue) (fun _ m => Quiet P a.machine m) := by
  unfold Assembly.emit
  dsimp only
  split
  · refine ⟨rfl, rfl, ?_, by simp, rfl, Quiet.poke hP⟩
    change read (write a.machine.buffer (a.base + a.words) words) a.base _ = _
    rw [read_add, read_write_self, read_write_of_apart (Or.inl (le_refl _))]
  · exact Quiet.poke hP

/-- A stamp grows the stream by its packet. -/
theorem stampPacket_spec (slot : Nat)
    (hP : P (a.base + a.words) (stampWords agc slot).length) : Post (stampPacket agc slot a)
      (fun a' => Grows P a a' (stampWords agc slot) [] a.machine.fenceValue) (fun _ m => Quiet P a.machine m) := by
  unfold stampPacket stampWords at *
  cases hstamps : agc.stamps with
  | none => exact Grows.refl a
  | some stamps =>
    rw [hstamps] at hP
    exact emit_spec _ hP

/-- A poll leaves the stream as it is. -/
theorem grows_queuePoll (a : Assembly) :
    Grows P a { a with machine := queuePoll a.machine } [] [] a.machine.fenceValue :=
  ⟨rfl, rfl, by simp [(waits_queuePoll a.machine).buffer], by simp, rfl, Quiet.queuePoll _⟩

/-- The wait for the step before grows the stream by its packet, or by nothing. -/
theorem previousStepWait_spec (hP : P (a.base + a.words) 9) : Post (previousStepWait agc a) (fun a' => ∃ step,
        (step = [] ∨ step = markerWaitWords agc.markerAddress a.machine.submittedValue) ∧
        Grows P a a' step [] a.machine.fenceValue) (fun _ m => Quiet P a.machine m) := by
  unfold previousStepWait
  dsimp only
  split
  · exact ⟨[], Or.inl rfl, Grows.refl a⟩
  · split
    · exact ⟨[], Or.inl rfl, grows_queuePoll a⟩
    · have hpoll := grows_queuePoll (P := P) a
      have hemit := emit_spec (a := { a with machine := queuePoll a.machine })
        (markerWaitWords agc.markerAddress a.machine.submittedValue) hP
      refine hemit.mono (fun a' hgrows => ⟨_, Or.inr rfl, ?_⟩) fun _ m hquiet => ?_
      · exact hpoll.trans hgrows
      · exact hpoll.quiet.trans hquiet

/-- Waiting for one more image leaves one packet less to come. -/
theorem remaining_images {image : Fin swapchainImages}
    {waited : List (Fin swapchainImages)} (hnodup : (image :: waited).Nodup) :
    (swapchainImages - waited.length) * agc.waitPacketWords =
      agc.waitPacketWords + (swapchainImages - (image :: waited).length) * agc.waitPacketWords := by
  have hcount : (image :: waited).length ≤ swapchainImages := by
    simpa using hnodup.length_le_card
  rw [List.length_cons] at hcount ⊢
  rw [show swapchainImages - waited.length = (swapchainImages - (waited.length + 1)) + 1 by omega,
    Nat.add_mul, Nat.one_mul, Nat.add_comm]

/-- At most one wait packet for each image not waited for. -/
theorem WaitPackets.length_le {agc : Agc} {waited : List (Fin swapchainImages)}
    {targets : List RenderTarget} {words : List UInt32} (h : WaitPackets agc waited targets words)
    (hnodup : waited.Nodup) : words.length ≤ (swapchainImages - waited.length) * agc.waitPacketWords := by
  induction h with
  | nil => exact Nat.zero_le _
  | skip _ _ ih => exact ih hnodup
  | @wait waited target targets words packet found hwait hpacket hlength hrest ih =>
    have hnodup' : (target.bufferIndex :: waited).Nodup :=
      List.nodup_cons.mpr ⟨fun hmem => hwait (Or.inr hmem), hnodup⟩
    rw [remaining_images agc hnodup', List.length_append, hlength]
    exact Nat.add_le_add_left (ih hnodup') _

/-- The wait packets grow the stream by one packet for each image. -/
theorem waitPackets_spec (base limit : Nat)
    (hP : ∀ words, words + agc.waitPacketWords ≤ limit → P (base + words) agc.waitPacketWords)
    (waited : List (Fin swapchainImages)) (hnodup : waited.Nodup) (targets : List RenderTarget)
    (a : Assembly) (hbase : a.base = base)
    (hlimit : a.words + (swapchainImages - waited.length) * agc.waitPacketWords ≤ limit) :
    Post (waitPackets agc waited targets a) (fun a' => ∃ words, WaitPackets agc waited targets words ∧
        Grows P a a' words [] a.machine.fenceValue) (fun _ m => Quiet P a.machine m) := by
  induction targets generalizing waited a with
  | nil => exact ⟨[], .nil, Grows.refl a⟩
  | cons target targets ih =>
    unfold waitPackets
    split
    · rename_i hskip
      refine (ih waited hnodup a hbase hlimit).mono ?_ fun _ _ h => h
      rintro a' ⟨words, hwaits, hgrows⟩
      exact ⟨words, .skip hskip hwaits, hgrows⟩
    · rename_i hwait
      have hnodup' : (target.bufferIndex :: waited).Nodup :=
        List.nodup_cons.mpr ⟨fun hmem => hwait (Or.inr hmem), hnodup⟩
      have hsplit := remaining_images agc hnodup'
      split
      · exact Quiet.refl _
      · dsimp only
        split
        · exact Quiet.refl _
        · rename_i packet hpacket
          split
          · exact Quiet.refl _
          · rename_i hlength
            rw [ne_eq, not_not] at hlength
            have hemit := emit_spec (a := a) packet (by rw [hbase, hlength]; exact hP _ (by omega))
            refine Post.bind hemit fun a₁ hgrows => ?_
            have hrest := ih (target.bufferIndex :: waited) hnodup' a₁
              (hgrows.base.trans hbase) (by rw [hgrows.words, hlength]; omega)
            refine hrest.mono ?_ fun _ _ hquiet => hgrows.quiet.trans hquiet
            rintro a' ⟨words, hwaits, hgrows'⟩
            refine ⟨packet ++ words, .wait _ hwait hpacket hlength hwaits, ?_⟩
            have hboth := hgrows.trans hgrows'
            rwa [hgrows.fence] at hboth

/-- Patching the fences of a run of words patches the words as a list, and nothing before them. -/
theorem patchFences_spec (start count : Nat) (patches : List Nat)
    (hfit : ∀ patch ∈ patches, patch + gpuBarrierCount ≤ count)
    (hP : ∀ pos, start ≤ pos → pos + 1 ≤ start + count → P pos 1) (m : Machine) : let m' := patchFences start patches m
    read m'.buffer start count =
        (patchedWords patches m.fenceValue (read m.buffer start count)).1 ∧
      m'.fenceValue = (patchedWords patches m.fenceValue (read m.buffer start count)).2 ∧
      (∀ first size, first + size ≤ start → read m'.buffer first size = read m.buffer first size) ∧
      Quiet P m m' := by
  induction patches generalizing m with
  | nil => exact ⟨rfl, rfl, fun _ _ _ => rfl, Quiet.refl m⟩
  | cons patch patches ih =>
    have hpatch := hfit patch List.mem_cons_self
    simp only [gpuBarrierCount] at hpatch
    let value := nextValue m.fenceValue
    let m₁ := { m with fenceValue := value }
    let m₂ := m₁.poke (start + patch + gpuBarrierValueWord) [value]
    let m₃ := m₂.poke (start + patch + gpuBarrierRefWord) [value]
    obtain ⟨hread, hfence, hbefore, hquiet⟩ := ih (fun other hother => hfit other (List.mem_cons_of_mem _ hother)) m₃
    have hvalue : patch + gpuBarrierValueWord < count := by
      rw [gpuBarrierValueWord]
      omega
    have href : patch + gpuBarrierRefWord < count := by
      rw [gpuBarrierRefWord]
      omega
    have hm₃ : read m₃.buffer start count = ((read m.buffer start count).set (patch + gpuBarrierValueWord) value).set
          (patch + gpuBarrierRefWord) value := by
      change read (write (write m.buffer (start + patch + gpuBarrierValueWord) [value])
        (start + patch + gpuBarrierRefWord) [value]) start count = _
      rw [Nat.add_assoc start, Nat.add_assoc start, read_write_one _ href, read_write_one _ hvalue]
    rw [hm₃] at hread hfence
    refine ⟨hread, hfence, fun first size hle => ?_, ?_⟩
    · refine (hbefore first size hle).trans ?_
      change read (write (write m.buffer (start + patch + gpuBarrierValueWord) [value])
        (start + patch + gpuBarrierRefWord) [value]) first size = _
      rw [read_write_of_apart (Or.inl (by omega)), read_write_of_apart (Or.inl (by omega))]
    · have hquiet₁ : Quiet P m m₁ := Quiet.setFence m value
      have hquiet₂ : Quiet P m₁ m₂ := Quiet.poke (hP _ (by omega) (by omega))
      have hquiet₃ : Quiet P m₂ m₃ := Quiet.poke (hP _ (by omega) (by omega))
      exact ((hquiet₁.trans hquiet₂).trans hquiet₃).trans hquiet

/-- The most words the packets before the first command buffer take. -/
def prologueCount : Nat :=
  2 * 8 + 9 + swapchainImages * agc.waitPacketWords

theorem Prologue.length_le {agc : Agc} {previous : UInt32} {submit : List CmdBuffer}
    {words : List UInt32} (h : Prologue agc previous submit words) : words.length ≤ prologueCount agc := by
  obtain ⟨step, waits, hstep, hwaits, rfl⟩ := h
  have hstep' : step.length ≤ 9 := by rcases hstep with rfl | rfl <;> simp
  have hwaits' := hwaits.length_le List.nodup_nil
  have h0 := length_stampWords_le agc 0
  have h1 := length_stampWords_le agc 1
  simp only [List.length_append, List.length_nil, Nat.sub_zero, prologueCount] at *
  omega

/-- The prologue grows an empty stream by its packets. -/
theorem prologue_spec (submit : List CmdBuffer) (hempty : a.words = 0)
    (hP : ∀ words len, words + len ≤ prologueCount agc → P (a.base + words) len) : Post (prologue agc submit a)
      (fun a' => ∃ words, Prologue agc a.machine.submittedValue submit words ∧
        Grows P a a' words [] a.machine.fenceValue) (fun _ m => Quiet P a.machine m) := by
  have h0 := length_stampWords_le agc 0
  have h1 := length_stampWords_le agc 1
  unfold prologue
  refine Post.bind (stampPacket_spec agc 0 (hP _ _ (by unfold prologueCount; omega)))
    fun a₁ hgrows₁ => ?_
  have hwords₁ := hgrows₁.words
  have hprevious := previousStepWait_spec (P := P) (a := a₁) agc
    (by rw [hgrows₁.base]; exact hP _ _ (by unfold prologueCount; omega))
  refine Post.bind (hprevious.mono (fun _ h => h) fun _ _ h => hgrows₁.quiet.trans h) ?_
  rintro a₂ ⟨step, hstep, hgrows₂⟩
  have hgrows₁₂ := hgrows₁.trans hgrows₂
  have hstep' : step.length ≤ 9 := by rcases hstep with rfl | rfl <;> simp
  have hwords₂ := hgrows₂.words
  have hwaits := waitPackets_spec (P := P) agc a.base (prologueCount agc - 8)
    (fun words hle => hP _ _ (by omega)) [] List.nodup_nil (submit.flatMap CmdBuffer.targets) a₂
    hgrows₁₂.base (by unfold prologueCount; simp only [List.length_nil, Nat.sub_zero]; omega)
  refine Post.bind (hwaits.mono (fun _ h => h) fun _ _ h => hgrows₁₂.quiet.trans h) ?_
  rintro a₃ ⟨waits, hwaits, hgrows₃⟩
  have hgrows₁₃ := hgrows₁₂.trans hgrows₃
  have hwords₃ := hgrows₃.words
  have hlength := hwaits.length_le List.nodup_nil
  simp only [List.length_nil, Nat.sub_zero] at hlength
  have hstamp := stampPacket_spec (P := P) (a := a₃) agc 1
    (by rw [hgrows₁₃.base]; exact hP _ _ (by unfold prologueCount; omega))
  refine hstamp.mono (fun a' hgrows₄ => ?_) fun _ _ h => hgrows₁₃.quiet.trans h
  have hall := hgrows₁₃.trans hgrows₄
  rw [hgrows₃.fence, hgrows₂.fence, hgrows₁.fence] at hall
  rw [hgrows₁.quiet.submitted] at hstep
  refine ⟨_, ⟨step, waits, hstep, hwaits, rfl⟩, ?_⟩
  simpa only [List.append_assoc, List.append_nil] using hall

/-- A barrier after a command buffer grows the stream by its words. -/
theorem barrierBetween_spec (hP : needsBarrier cb next = true → P (a.base + a.words) gpuBarrierCount) :
    Post (barrierBetween agc cb next a) (fun a' => Grows P a a' (if needsBarrier cb next then
          gpuBarrierWords agc.fenceAddress (nextValue a.machine.fenceValue) else []) []
        (if needsBarrier cb next then nextValue a.machine.fenceValue else a.machine.fenceValue))
      (fun _ m => Quiet P a.machine m) := by
  unfold barrierBetween
  cases next with
  | none => exact Grows.refl a
  | some next =>
    by_cases hneeds : next.samplesEarly = true ∧ cb.targets ≠ []
    · have hneeds' : needsBarrier cb (some next) = true := by
        simp [needsBarrier, hneeds.1, hneeds.2]
      simp only [hneeds, hneeds', if_true, ne_eq, not_false_eq_true, and_self]
      have hemit := emit_spec (P := P)
        (a := { a with machine := { a.machine with fenceValue := nextValue a.machine.fenceValue } })
        (gpuBarrierWords agc.fenceAddress (nextValue a.machine.fenceValue)) (hP hneeds')
      have hfence : Quiet P a.machine
          { a.machine with fenceValue := nextValue a.machine.fenceValue } := Quiet.setFence _ _
      refine hemit.mono (fun a' hgrows => ?_) fun _ m hquiet => hfence.trans hquiet
      exact ⟨hgrows.base, hgrows.words, hgrows.content, hgrows.splits, hgrows.fence, hfence.trans hgrows.quiet⟩
    · have hneeds' : needsBarrier cb (some next) = false := by
        simpa [needsBarrier] using hneeds
      simp only [hneeds, hneeds', if_false, Bool.false_eq_true]
      exact Grows.refl a

/-- A command buffer grows the stream by its part, where the queue accepts it. -/
theorem appendCmdBuffer_spec (hP : ¬cb.words.length > a.room agc → ∀ pos len, a.base + a.words ≤ pos →
      pos + len ≤ a.base + a.words + partCount cb next → P pos len) : Post (appendCmdBuffer agc cb next a)
      (fun a' => Grows P a a' (partWords agc cb next a.machine.fenceValue)
        (partSplits cb a.words) (partFence cb next a.machine.fenceValue)) (fun _ m => Quiet P a.machine m) := by
  unfold appendCmdBuffer
  split
  · exact Quiet.refl _
  rename_i hroom
  replace hP := hP hroom
  split
  · exact Quiet.refl _
  have hemit := emit_spec (P := P) (a := a) cb.words (hP _ _ (le_refl _) (by unfold partCount; omega))
  refine Post.bind hemit fun a₁ hgrows => ?_
  have hcontent : read a₁.machine.buffer (a.base + a.words) cb.words.length = cb.words := by
    have hsplit := hgrows.content
    rw [read_add] at hsplit
    exact (List.append_inj hsplit (by simp)).2
  obtain ⟨hread, hfence, hbefore, hquiet⟩ := patchFences_spec (P := P) (a.base + a.words)
    cb.words.length cb.fencePatches cb.patches_fit
    (fun pos hlow hhigh => hP pos 1 hlow (by unfold partCount; omega)) a₁.machine
  rw [hcontent, hgrows.fence] at hread hfence
  have hpatched : Grows P a { a₁ with
        machine := patchFences (a.base + a.words) cb.fencePatches a₁.machine
        splits := a₁.splits ++ partSplits cb a.words }
      (patchedWords cb.fencePatches a.machine.fenceValue cb.words).1 (partSplits cb a.words)
      (patchedWords cb.fencePatches a.machine.fenceValue cb.words).2 := by
    refine ⟨hgrows.base, ?_, ?_, ?_, hfence, hgrows.quiet.trans hquiet⟩
    · rw [length_patchedWords]
      exact hgrows.words
    · rw [length_patchedWords, read_add, hread, hbefore _ _ (le_refl _)]
      have hsplit := hgrows.content
      rw [read_add] at hsplit
      rw [(List.append_inj hsplit (by simp)).1]
    · change a₁.splits ++ _ = _
      rw [hgrows.splits, List.append_nil]
  have hbarrier := barrierBetween_spec (P := P) (a :=
      { a₁ with
        machine := patchFences (a.base + a.words) cb.fencePatches a₁.machine
        splits := a₁.splits ++ partSplits cb a.words }) agc cb next ?_
  · refine hbarrier.mono (fun a' hgrows' => ?_) fun _ _ h => hpatched.quiet.trans h
    have hall := hpatched.trans hgrows'
    rw [hpatched.fence, List.append_nil] at hall
    exact hall
  · intro hneeds
    refine hP _ _ ?_ ?_
    · change a.base + a.words ≤ a₁.base + a₁.words
      rw [hgrows.base, hgrows.words]
      omega
    · change a₁.base + a₁.words + gpuBarrierCount ≤ _
      rw [hgrows.base, hgrows.words, partCount, if_pos hneeds]
      omega

/-- The command buffers grow the stream by their parts. -/
theorem appendCmdBuffers_spec (J : List CmdBuffer → Nat → Prop) (base : Nat)
    (hJ : ∀ cb rest (a : Assembly), a.base = base → J (cb :: rest) a.words →
      ¬cb.words.length > a.room agc → (∀ pos len, base + a.words ≤ pos →
        pos + len ≤ base + a.words + partCount cb rest.head? → P pos len) ∧ J rest (a.words + partCount cb rest.head?))
    (submit : List CmdBuffer) (a : Assembly) (hbase : a.base = base) (hwords : J submit a.words) :
    Post (appendCmdBuffers agc submit a) (fun a' => J [] a'.words ∧ ∃ fence, Grows P a a'
        (bodyStream agc submit a.machine.fenceValue) (bodySplits submit a.words) fence)
      (fun _ m => Quiet P a.machine m) := by
  induction submit generalizing a with
  | nil => exact ⟨hwords, _, Grows.refl a⟩
  | cons cb rest ih =>
    unfold appendCmdBuffers
    have hfirst := appendCmdBuffer_spec (P := P) (a := a) agc cb rest.head?
      (fun hroom => hbase ▸ (hJ cb rest a hbase hwords hroom).1)
    by_cases hroom : cb.words.length > a.room agc
    · have hrefused : appendCmdBuffer agc cb rest.head? a =
          .error (.outOfDeviceMemory, a.machine) := by
        unfold appendCmdBuffer
        rw [if_pos hroom]
      rw [hrefused]
      exact Quiet.refl _
    · refine Post.bind hfirst fun a₁ hgrows => ?_
      have hnext := (hJ cb rest a hbase hwords hroom).2
      have hrest := ih a₁ (hgrows.base.trans hbase) (by rw [hgrows.words, length_partWords]; exact hnext)
      refine hrest.mono ?_ fun _ _ hquiet => hgrows.quiet.trans hquiet
      rintro a' ⟨hJ', fence, hgrows'⟩
      have hall := hgrows.trans hgrows'
      rw [hgrows.fence, hgrows.words, length_partWords] at hall
      exact ⟨hJ', fence, hall⟩

/-- Where a stream is placed: at the buffer's start once every step is finished, or past the
streams before it with room for the whole footprint. -/
theorem queueStreamBase_spec (needed : Nat) {m : Machine} {seen : Nat}
    (h : Coherent m seen) : Post (queueStreamBase agc needed m)
      (fun placed => (placed.1 = 0 ∧ Coherent placed.2 placed.2.steps ∨
          placed.1 = align16 m.ringHead ∧ placed.1 ≤ fenceWord ∧ needed ≤ fenceWord - placed.1) ∧
        placed.2.buffer = m.buffer ∧ placed.2.fenceValue = m.fenceValue ∧ Quiet P m placed.2)
      (fun _ m' => Quiet P m m') := by
  have hpoll : Quiet P m (queuePoll m) := Quiet.queuePoll m
  unfold queueStreamBase
  dsimp only
  split
  · rename_i hreached
    rw [h.submitted] at hreached
    have hcoh := h.queuePoll
    have hsteps : m.steps ≤ (queuePoll m).finished := hcoh.le_of_reached (le_refl _) hreached
    have hall : (queuePoll m).finished = (queuePoll m).steps :=
      le_antisymm hcoh.finished_le hsteps
    exact ⟨Or.inl ⟨rfl, hall ▸ hcoh⟩, rfl, rfl, hpoll⟩
  · split
    · rename_i hfits
      exact ⟨Or.inr ⟨rfl, hfits⟩, rfl, rfl, hpoll⟩
    · have hidle := (queueWaitIdle_spec agc h.queuePoll).and
        (Quiet.queueWaitValue (P := P) agc (queuePoll m).submittedValue (queuePoll m))
      refine Post.bind (hidle.mono (fun _ h => h) fun _ _ h => hpoll.trans h.2) ?_
      rintro m' ⟨⟨hcoh, hwaits, -⟩, hquiet⟩
      exact ⟨Or.inl ⟨rfl, hcoh⟩, hwaits.buffer, hwaits.fence, hpoll.trans hquiet⟩

end Ps5Vulkan.Queue
