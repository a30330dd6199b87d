/-
# What a pass of the XMA engine leaves of the guest's context

A pass reads a context, decodes, reads the context again and writes it back with its
own fields changed.  The write-back takes all 64 bytes through `decode` and `encode`:
every bit that the engine does not own is written as it was read, but for the bits
that no field of `XmaContextData` holds, which become zero
(`getLsbD_words_publish`).  So a guest store is kept when it came before the second
read, and lost when it fell between that read and the write
(`pass_keeps_guest_iff`).
-/

import Mathlib.Tactic.IntervalCases
import XenonRecomp.Audio.XmaContext

namespace XenonRecomp
namespace Audio

/-- The bits of a context that a pass publishes: the loop count, the write, read and
packet offsets, the current buffer, the error fields, and the valid flags it cleared. -/
def engineOwned (initial progressed : XmaContextData) : ℕ → ℕ → Bool
  | 0, bit =>
    (12 ≤ bit && bit < 20) || 27 ≤ bit ||
      (bit == 20 && (initial.inputBuffer0Valid && !progressed.inputBuffer0Valid)) ||
      (bit == 21 && (initial.inputBuffer1Valid && !progressed.inputBuffer1Valid))
  | 1, bit => bit == 31 && (initial.outputBufferValid && !progressed.outputBufferValid)
  | 2, _ => true
  | 3, bit => 26 ≤ bit
  | 4, bit => 26 ≤ bit
  | _, _ => false

/-- The bits of a context that no field of `XmaContextData` holds. -/
def unheld : ℕ → ℕ → Bool
  | 1, bit => bit == 30
  | 9, bit => 5 ≤ bit && bit < 30
  | _, _ => false

/-- A bit of the context in memory. -/
def contextBit (base : ℕ) (memory : GuestBytes) (word bit : ℕ) : Bool :=
  (loadBe32 memory (base + 4 * word)).getLsbD bit

/-- Storing a word and loading it. -/
theorem loadBe32_of_storeBe32 {v : BitVec 32} {p : GuestBytes} {address : ℕ}
    (h : ∀ k, k < 4 → p (address + k) = storeBe32 v k) : loadBe32 p address = v := by
  have h0 : p address = storeBe32 v 0 := h 0 (by decide)
  have h1 := h 1 (by decide)
  have h2 := h 2 (by decide)
  have h3 := h 3 (by decide)
  rw [loadBe32, h0, h1, h2, h3]
  refine BitVec.eq_of_getLsbD_eq fun j hj => ?_
  interval_cases j <;> simp [storeBe32]

/-- A word of the context after the context is written. -/
theorem loadBe32_writeBytes (base : ℕ) (d : XmaContextData) (memory : GuestBytes) {word : ℕ}
    (hword : word < 16) :
    loadBe32 (writeBytes base kXmaContextBytes d.encode memory) (base + 4 * word) =
      d.words word := by
  refine loadBe32_of_storeBe32 fun k hk => ?_
  have hplace : base + 4 * word + k - base = 4 * word + k := by omega
  have hdiv : (4 * word + k) / 4 = word := by omega
  have hmod : (4 * word + k) % 4 = k := by omega
  rw [writeBytes, if_pos ⟨by omega, by unfold kXmaContextBytes; omega⟩, hplace,
    XmaContextData.encode, hdiv, hmod]

namespace XmaContextData

/-- A test of one bit. -/
theorem bit_ne_zero (w : BitVec 32) (k : ℕ) :
    ((w >>> k) &&& 1 != 0) = w.getLsbD k := by
  have hone : (1 : BitVec 32) = BitVec.twoPow 32 0 := rfl
  rw [hone, BitVec.and_twoPow, BitVec.getLsbD_ushiftRight, Nat.add_zero]
  cases w.getLsbD k <;> rfl

@[simp] theorem getElem_flag (b : Bool) (j : ℕ) (hj : j < 32) :
    (flag b)[j] = (decide (j = 0) && b) := by
  cases b <;> cases j <;> simp [flag]

end XmaContextData

section Words

open XmaContextData

variable (initial progressed : XmaContextData) (base : ℕ) (memory : GuestBytes) {bit : ℕ}

/-- The first word: packet count, loop count, valid flags, block count, write offset. -/
theorem getLsbD_word0 (hbit : bit < 32) (h : engineOwned initial progressed 0 bit = false) :
    ((publish initial progressed (decode memory base)).words 0).getLsbD bit =
      contextBit base memory 0 bit := by
  simp only [words, publish, decode, contextBit, bit_ne_zero]
  generalize loadBe32 memory (base + 4 * 0) = w
  unfold engineOwned at h
  generalize (initial.inputBuffer0Valid && !progressed.inputBuffer0Valid) = first at h ⊢
  generalize (initial.inputBuffer1Valid && !progressed.inputBuffer1Valid) = second at h ⊢
  interval_cases bit <;> simp at h ⊢ <;> simp [h]

/-- The second word: packet count, loop subframes, counts, format, output flag. -/
theorem getLsbD_word1 (hbit : bit < 32) (h : engineOwned initial progressed 1 bit = false) :
    ((publish initial progressed (decode memory base)).words 1).getLsbD bit =
      (!unheld 1 bit && contextBit base memory 1 bit) := by
  simp only [words, publish, decode, contextBit, unheld, bit_ne_zero]
  generalize loadBe32 memory (base + 4 * 1) = w
  unfold engineOwned at h
  generalize (initial.outputBufferValid && !progressed.outputBufferValid) = cleared at h ⊢
  interval_cases bit <;> simp at h ⊢
  simp [h]

/-- The fourth word: loop start, parser error. -/
theorem getLsbD_word3 (hbit : bit < 26) :
    ((publish initial progressed (decode memory base)).words 3).getLsbD bit =
      contextBit base memory 3 bit := by
  simp only [words, publish, decode, contextBit]
  generalize loadBe32 memory (base + 4 * 3) = w
  interval_cases bit <;> simp

/-- The fifth word: loop end, packet metadata, current buffer. -/
theorem getLsbD_word4 (hbit : bit < 26) :
    ((publish initial progressed (decode memory base)).words 4).getLsbD bit =
      contextBit base memory 4 bit := by
  simp only [words, publish, decode, contextBit]
  generalize loadBe32 memory (base + 4 * 4) = w
  interval_cases bit <;> simp

/-- The tenth word: read offset, stop and interrupt flags. -/
theorem getLsbD_word9 (hbit : bit < 32) :
    ((publish initial progressed (decode memory base)).words 9).getLsbD bit =
      (!unheld 9 bit && contextBit base memory 9 bit) := by
  simp only [words, publish, decode, contextBit, unheld, bit_ne_zero]
  generalize loadBe32 memory (base + 4 * 9) = w
  interval_cases bit <;> simp

/-- **A bit that the engine does not own is written as it was read**, and as zero when
no field holds it. -/
theorem getLsbD_words_publish {word : ℕ} (hword : word < 16) (hbit : bit < 32)
    (h : engineOwned initial progressed word bit = false) :
    ((publish initial progressed (decode memory base)).words word).getLsbD bit =
      (!unheld word bit && contextBit base memory word bit) := by
  match word, hword with
  | 0, _ => exact getLsbD_word0 initial progressed base memory hbit h
  | 1, _ => exact getLsbD_word1 initial progressed base memory hbit h
  | 2, _ => exact absurd h (by simp [engineOwned])
  | 3, _ =>
    have hlow : bit < 26 := by simpa [engineOwned] using h
    exact getLsbD_word3 initial progressed base memory hlow
  | 4, _ =>
    have hlow : bit < 26 := by simpa [engineOwned] using h
    exact getLsbD_word4 initial progressed base memory hlow
  | 5, _ => rfl
  | 6, _ => rfl
  | 7, _ => rfl
  | 8, _ => rfl
  | 9, _ => exact getLsbD_word9 initial progressed base memory hbit
  | i + 10, _ =>
    change contextBit base memory (10 + i) bit = contextBit base memory (i + 10) bit
    rw [Nat.add_comm]

end Words

section Pass

variable (environment : PassEnvironment) (base : ℕ)
  (progress : XmaContextData → Option XmaContextData) (counts : XmaErrorCounts)
  (memory : GuestBytes)

/-- Memory when a pass reads the context again. -/
def memoryAtReread : GuestBytes :=
  storeAll environment.decoding (storeAll environment.before memory)

/-- Memory when a pass writes the context back: what the guest last wrote. -/
def memoryAtWriteBack : GuestBytes :=
  storeAll environment.merging (memoryAtReread environment memory)

/-- The bits of the context that a pass may change. -/
def passOwned (word bit : ℕ) : Bool :=
  match published environment base progress memory with
  | none => false
  | some (initial, progressed) => engineOwned initial progressed word bit

/-- After a pass every bit that is not the engine's is as the guest last wrote it. -/
def KeepsGuest : Prop :=
  ∀ word bit, word < 16 → bit < 32 → passOwned environment base progress memory word bit = false →
    contextBit base (decodePass environment base progress counts memory) word bit =
      contextBit base (memoryAtWriteBack environment memory) word bit

/-- No guest store between the second read and the write of a pass that writes changes a
bit that a field holds and the engine does not own, and the bits that no field holds are
clear. -/
def NothingLost : Prop :=
  (published environment base progress memory).isSome = true → environment.rereadable = true →
    environment.writable = true →
      ∀ word bit, word < 16 → bit < 32 →
        passOwned environment base progress memory word bit = false →
          if unheld word bit then
            contextBit base (memoryAtWriteBack environment memory) word bit = false
          else
            contextBit base (memoryAtReread environment memory) word bit =
              contextBit base (memoryAtWriteBack environment memory) word bit

variable {environment base progress memory}

/-- A pass that writes nothing back leaves what the guest wrote. -/
theorem decodePass_of_not_written
    (h : ¬ ((published environment base progress memory).isSome = true ∧
      environment.rereadable = true ∧ environment.writable = true)) :
    decodePass environment base progress counts memory = memoryAtWriteBack environment memory := by
  unfold decodePass memoryAtWriteBack memoryAtReread
  cases hpublished : published environment base progress memory with
  | none => rfl
  | some found =>
    rw [hpublished] at h
    dsimp only [mergeHardwareProgress, readContext, writeContext]
    cases hread : environment.rereadable with
    | false => rfl
    | true =>
      cases hwrite : environment.writable with
      | false => rfl
      | true => exact absurd ⟨rfl, hread, hwrite⟩ h

/-- What a pass writes back. -/
theorem decodePass_of_written {initial progressed : XmaContextData}
    (hpublished : published environment base progress memory = some (initial, progressed))
    (hread : environment.rereadable = true) (hwrite : environment.writable = true) :
    decodePass environment base progress counts memory =
      writeBytes base kXmaContextBytes
        (publish initial progressed (.decode (memoryAtReread environment memory) base)).encode
        (memoryAtWriteBack environment memory) := by
  unfold decodePass memoryAtWriteBack memoryAtReread
  rw [hpublished, hread, hwrite]
  rfl

/-- **When a pass of the engine keeps the guest's updates of the context.** -/
theorem pass_keeps_guest_iff (environment : PassEnvironment) (base : ℕ)
    (progress : XmaContextData → Option XmaContextData) (counts : XmaErrorCounts)
    (memory : GuestBytes) :
    KeepsGuest environment base progress counts memory ↔
      NothingLost environment base progress memory := by
  unfold KeepsGuest NothingLost
  by_cases hwritten : (published environment base progress memory).isSome = true ∧
      environment.rereadable = true ∧ environment.writable = true
  · obtain ⟨hsome, hread, hwrite⟩ := hwritten
    obtain ⟨⟨initial, progressed⟩, hpublished⟩ := Option.isSome_iff_exists.1 hsome
    have hbit : ∀ word bit, word < 16 → bit < 32 →
        passOwned environment base progress memory word bit = false →
          contextBit base (decodePass environment base progress counts memory) word bit =
            (!unheld word bit &&
              contextBit base (memoryAtReread environment memory) word bit) := by
      intro word bit hword hbit howned
      rw [passOwned, hpublished] at howned
      rw [contextBit, decodePass_of_written counts hpublished hread hwrite,
        loadBe32_writeBytes base _ _ hword,
        getLsbD_words_publish initial progressed base _ hword hbit howned]
    constructor
    · intro h _ _ _ word bit hword hbit' howned
      have hkept := h word bit hword hbit' howned
      rw [hbit word bit hword hbit' howned] at hkept
      cases hheld : unheld word bit with
      | true =>
        rw [hheld] at hkept
        exact hkept.symm
      | false =>
        rw [hheld] at hkept
        exact hkept
    · intro h word bit hword hbit' howned
      have hkept := h hsome hread hwrite word bit hword hbit' howned
      rw [hbit word bit hword hbit' howned]
      cases hheld : unheld word bit with
      | true =>
        rw [hheld] at hkept
        exact (hkept : _ = false).symm
      | false =>
        rw [hheld] at hkept
        exact hkept
  · rw [decodePass_of_not_written counts hwritten]
    exact iff_of_true (fun _ _ _ _ _ => rfl)
      fun hsome hread hwrite => absurd ⟨hsome, hread, hwrite⟩ hwritten

/-- A context with an output ring of four blocks and no valid input. -/
def starvedContext : GuestBytes
  | 0 => 0x01
  | 4 => 0x80
  | 29 => 0x01
  | _ => 0

/-- What a pass without input does: it gives the output ring up. -/
def giveOutputUp (data : XmaContextData) : Option XmaContextData :=
  some { data with outputBufferValid := false }

/-- **A guest store between the second read and the write is lost**: here the read
offset of the output ring, which the guest moves on while a pass without input writes
back. -/
theorem pass_loses_readOffset :
    ¬ ∀ environment base progress counts memory,
      KeepsGuest environment base progress counts memory := by
  intro h
  have hkept := h ⟨true, true, true, [], [], [⟨39, 1⟩]⟩ 0 giveOutputUp ⟨fun _ => 0, 0⟩
    starvedContext 9 0 (by decide) (by decide) (by decide)
  exact absurd hkept (by decide)

end Pass

end Audio
end XenonRecomp
