/-
# Bits beyond the end of an LZX stream

Past its end a stream goes on with zero bits, and an odd last byte makes a word
whose upper half is missing.  `Settled` says that a computation went past words
of the stream only: on a longer stream it is the same.  `readTrees` and the
matches look at the flag before they are used; a literal does not, so a stream
may be accepted whose last literals are the zero bits past its end.
-/

import XenonRecomp.Xex.LzxProgress

namespace XenonRecomp
namespace Xex
namespace Lzx

open Library.Loop

/-! ### The reader on a longer stream -/

/-- The reader over the stream with more bytes behind it. -/
def BitReader.extend (r : BitReader) (tail : List UInt8) : BitReader :=
  { r with data := r.data ++ tail }

/-- What a computation that succeeded read of the stream: less than a word is
left over, and unless it went past the end it is the same on a longer stream. -/
structure Settled (r r' : BitReader) (again : Prop) : Prop where
  data : r'.data = r.data
  bitCount : r'.bitCount < 16
  bytePos : r.bytePos ≤ r'.bytePos
  again : r'.bytePos ≤ r.data.length → again

theorem Settled.trans {r r₁ r₂ : BitReader} {p q again : Prop} (h₁ : Settled r r₁ p)
    (h₂ : Settled r₁ r₂ q) (h : p → q → again) : Settled r r₂ again :=
  ⟨h₂.data.trans h₁.data, h₂.bitCount, h₁.bytePos.trans h₂.bytePos, fun hle =>
    h (h₁.again (h₂.bytePos.trans hle)) (h₂.again (h₁.data.symm ▸ hle))⟩

theorem Settled.mono {r r' : BitReader} {p q : Prop} (h : Settled r r' p) (hpq : p → q) :
    Settled r r' q :=
  ⟨h.data, h.bitCount, h.bytePos, hpq ∘ h.again⟩

/-- A computation that does the same on a longer stream unless it goes past the
end of the shorter one. -/
def Stable {α : Type} (m : DecodeM α) : Prop :=
  ∀ r a r', r.bitCount < 16 → m r = .ok (a, r') →
    ∀ tail, Settled r r' (m (r.extend tail) = .ok (a, r'.extend tail))

namespace Stable

variable {α β : Type}

theorem pure (a : α) : Stable (pure a : DecodeM α) := by
  rintro r a' r' hcount h tail
  cases h
  exact ⟨rfl, hcount, Nat.le_refl _, fun _ => rfl⟩

theorem throw (error : String) : Stable (throw error : DecodeM α) :=
  fun _ _ _ _ h => by cases h

theorem bind {m : DecodeM α} {f : α → DecodeM β} (hm : Stable m) (hf : ∀ a, Stable (f a)) :
    Stable (m >>= f) := by
  intro r b r' hcount h tail
  obtain ⟨a, r₁, hrun, hrest⟩ := bind_ok.mp h
  have h₁ := hm r a r₁ hcount hrun tail
  have h₂ := hf a r₁ b r' h₁.bitCount hrest tail
  exact h₁.trans h₂ fun hagain hagain' => bind_ok.mpr ⟨a, r₁.extend tail, hagain, hagain'⟩

end Stable

/-- A word that is not past the end is the same in a longer stream. -/
theorem BitReader.extend_pullWord (r : BitReader) (tail : List UInt8)
    (h : r.bytePos + 2 ≤ r.data.length) : (r.extend tail).pullWord = r.pullWord.extend tail := by
  have hbyte : ∀ i < r.data.length, (r.data ++ tail).getD i 0 = r.data.getD i 0 := fun i hi => by
    rw [List.getD_eq_getElem?_getD, List.getElem?_append_left hi, List.getD_eq_getElem?_getD]
  have hnext : (r.extend tail).nextWord = r.nextWord := by
    simp only [nextWord, extend, List.length_append]
    rw [if_pos (by omega), if_pos h, hbyte _ (by omega), hbyte _ (by omega)]
  unfold pullWord
  rw [hnext]
  simp only [extend, List.length_append]
  congr 2
  exact decide_eq_decide.mpr (by omega)

/-- What `ensure` leaves: no more words than the bits asked for, of the same
stream. -/
theorem BitReader.ensure_spec {n : ℕ} {r : BitReader} (hcount : r.bitCount < 16) :
    n ≤ (r.ensure n).bitCount ∧ (r.ensure n).bitCount - n < 16 ∧ (r.ensure n).data = r.data ∧
      r.bytePos ≤ (r.ensure n).bytePos ∧ (r.outOfData = true → (r.ensure n).outOfData = true) ∧
      ((r.ensure n).bytePos ≤ r.data.length →
        ∀ tail, (r.extend tail).ensure n = (r.ensure n).extend tail) := by
  suffices h : ∀ (fuel : ℕ) (r : BitReader), n ≤ r.bitCount + fuel → r.bitCount - n < 16 →
      ∀ r', whileDo (fun r => decide (r.bitCount < n)) pullWord fuel r = r' →
        n ≤ r'.bitCount ∧ r'.bitCount - n < 16 ∧ r'.data = r.data ∧ r.bytePos ≤ r'.bytePos ∧
          (r.outOfData = true → r'.outOfData = true) ∧
          (r'.bytePos ≤ r.data.length → ∀ tail,
            whileDo (fun r => decide (r.bitCount < n)) pullWord fuel (r.extend tail) =
              r'.extend tail) from
    h n r (Nat.le_add_left _ _) (by omega) _ rfl
  intro fuel
  induction fuel with
  | zero =>
    rintro r hle hlt r' rfl
    exact ⟨hle, hlt, rfl, Nat.le_refl _, id, fun _ _ => rfl⟩
  | succ fuel ih =>
    intro r hle hlt r' hr'
    rw [whileDo] at hr'
    split at hr'
    · next hc =>
      rw [decide_eq_true_eq] at hc
      obtain ⟨h₁, h₂, hdata, hpos, hflag, hagain⟩ :=
        ih r.pullWord (by simp only [pullWord]; omega) (by simp only [pullWord]; omega) r' hr'
      have hmoved : r.bytePos + 2 ≤ r'.bytePos := hpos
      refine ⟨h₁, h₂, hdata, (Nat.le_add_right _ _).trans hpos, fun hset => ?_, fun hend tail => ?_⟩
      · exact hflag (by simp [pullWord, hset])
      · have hc' : (r.extend tail).bitCount < n := hc
        rw [whileDo, if_pos (decide_eq_true hc'),
          extend_pullWord r tail (hmoved.trans hend)]
        exact hagain hend tail
    · next hc =>
      subst hr'
      rw [decide_eq_true_eq, not_lt] at hc
      refine ⟨hc, hlt, rfl, Nat.le_refl _, id, fun _ tail => ?_⟩
      exact whileDo_of_not _ (decide_eq_false (not_lt.mpr hc))

theorem stable_read (n : ℕ) : Stable (read n) := by
  intro r a r' hcount h tail
  unfold read BitReader.peek at h
  by_cases hn : n = 0
  · rw [if_pos hn] at h
    cases h
    refine ⟨rfl, by simpa [BitReader.consume, hn] using hcount, Nat.le_refl _, fun _ => ?_⟩
    unfold read BitReader.peek
    rw [if_pos hn]
    rfl
  · rw [if_neg hn] at h
    cases h
    obtain ⟨hle, hlt, hdata, hpos, -, hagain⟩ := r.ensure_spec (n := n) hcount
    refine ⟨hdata, hlt, hpos, fun hend => ?_⟩
    unfold read BitReader.peek
    rw [if_neg hn]
    dsimp only
    rw [hagain hend tail]
    rfl

/-- **Everything that is read off the stream is stable.** -/
theorem stable_reads : ReadRule fun _ m => Stable m where
  pure := Stable.pure
  throw := Stable.throw
  bind := Stable.bind
  read := stable_read
  outOfData := by
    rintro r a r' hcount h tail
    cases h
    exact ⟨rfl, hcount, Nat.le_refl _, fun _ => rfl⟩

theorem stable_flushToByteBoundary : Stable flushToByteBoundary := by
  intro r a r' hcount h tail
  cases h
  have hzero : r.align16.bitCount / 16 * 2 = 0 := by
    simp only [BitReader.align16]
    omega
  refine ⟨rfl, by simp [BitReader.flushToByteBoundary], ?_, fun _ => rfl⟩
  simp only [BitReader.flushToByteBoundary, hzero]
  exact Nat.le_refl _

theorem stable_readRaw (error : String) (n : ℕ) : Stable (readRaw error n) := by
  intro r a r' hcount h tail
  unfold readRaw BitReader.readRawBytes at h
  by_cases hlong : r.bytePos + n > r.data.length
  · rw [if_pos hlong] at h
    cases h
  · rw [if_neg hlong] at h
    cases h
    refine ⟨rfl, hcount, Nat.le_add_right _ _, fun _ => ?_⟩
    unfold readRaw BitReader.readRawBytes
    simp only [BitReader.extend, List.length_append]
    rw [if_neg (by omega)]
    dsimp only
    rw [List.drop_append_of_le_length (by omega), List.take_append_of_le_length (by
      rw [List.length_drop]
      omega)]
    rfl

theorem stable_readUncompressed (blockSize : ℕ) : Stable (readUncompressed blockSize) :=
  stable_flushToByteBoundary.bind fun _ => (stable_readRaw _ 4).bind fun _ =>
    (stable_readRaw _ 4).bind fun _ => (stable_readRaw _ 4).bind fun _ =>
      (stable_readRaw _ blockSize).bind fun _ => .pure _

/-! ### Output that has been written -/

/-- Two buffers of one size with the same first `n` bytes. -/
def Agrees (n : ℕ) (output output' : List UInt8) : Prop :=
  output'.length = output.length ∧ ∀ i < n, output'[i]? = output[i]?

theorem Agrees.set {n : ℕ} {output output' : List UInt8} (h : Agrees n output output')
    (value : UInt8) : Agrees (n + 1) (output.set n value) (output'.set n value) := by
  refine ⟨by simpa using h.1, fun i hi => ?_⟩
  rw [List.getElem?_set, List.getElem?_set, h.1]
  split
  · rfl
  · exact h.2 i (by omega)

/-- **A match copies what has been written**: the bytes of the buffer behind it
do not matter. -/
theorem copyMatch_agrees {reference : List UInt8} {distance : ℕ} :
    ∀ {length position : ℕ} {output output' result : List UInt8}, Agrees position output output' →
      copyMatch reference distance length position output = some result →
        ∃ result', copyMatch reference distance length position output' = some result' ∧
          Agrees (position + length) result result' := by
  intro length
  induction length with
  | zero =>
    intro position output output' result h hcopy
    cases hcopy
    exact ⟨output', rfl, h⟩
  | succ length ih =>
    intro position output output' result h hcopy
    have hnext : ∀ value, copyMatch reference distance length (position + 1)
        (output.set position value) = some result →
        ∃ result', copyMatch reference distance length (position + 1)
          (output'.set position value) = some result' ∧
          Agrees (position + (length + 1)) result result' := fun value hrest => by
      rw [Nat.add_comm length, ← Nat.add_assoc]
      exact ih (h.set value) hrest
    simp only [copyMatch, h.1] at hcopy ⊢
    split_ifs at hcopy ⊢ with h₁ h₂ h₃ h₄ h₅
    · exact hnext _ hcopy
    · rw [List.getD_eq_getElem?_getD, h.2 _ (not_le.mp h₄), ← List.getD_eq_getElem?_getD]
      exact hnext _ hcopy

/-- The decoders differ at most in their readers and in what is not written. -/
structure Decoder.Follows (s s₂ : Decoder) : Prop where
  rest : s₂ = { s with reader := s₂.reader, output := s₂.output }
  output : Agrees s.outPos s.output s₂.output

namespace Decoder

variable {s s₂ : Decoder}

theorem Follows.outPos (h : s.Follows s₂) : s₂.outPos = s.outPos := by
  rw [h.rest]

/-- What has been read is written into both buffers. -/
theorem Follows.write {reference : List UInt8} {token : Token} {s' : Decoder}
    (h : s.Follows s₂) (hwrite : s.write reference token = .ok s') :
    s'.reader = s.reader ∧ ∃ s₂', s₂.write reference token = .ok s₂' ∧ s'.Follows s₂' ∧
      s₂'.reader = s₂.reader := by
  cases token with
  | literal symbol =>
    unfold Decoder.write at hwrite ⊢
    rw [h.outPos, h.output.1]
    dsimp only at hwrite ⊢
    split at hwrite
    · cases hwrite
    · next hfits =>
      cases hwrite
      rw [if_neg hfits]
      refine ⟨rfl, _, rfl, ⟨?_, h.output.set _⟩, rfl⟩
      conv_lhs => rw [h.rest]
  | copy m =>
    unfold Decoder.write at hwrite ⊢
    rw [h.outPos, h.output.1]
    dsimp only at hwrite ⊢
    split at hwrite
    · cases hwrite
    next hfits =>
    rw [if_neg hfits]
    split at hwrite
    · cases hwrite
    next result hcopy =>
    cases hwrite
    obtain ⟨result', hcopy', hagrees⟩ := copyMatch_agrees h.output hcopy
    rw [hcopy']
    refine ⟨rfl, _, rfl, ⟨?_, hagrees⟩, rfl⟩
    conv_lhs => rw [h.rest]

theorem Follows.withReader (h : s.Follows s₂) (r r₂ : BitReader) :
    ({ s with reader := r } : Decoder).Follows { s₂ with reader := r₂ } := by
  refine ⟨?_, by simpa only [h.outPos] using h.output⟩
  conv_lhs => rw [h.rest]

/-- A realignment drops bits that the reader holds. -/
theorem realign_reader (s : Decoder) :
    s.realign.reader.data = s.reader.data ∧ s.realign.reader.bytePos = s.reader.bytePos ∧
      s.realign.reader.bitCount ≤ s.reader.bitCount ∧
      s.realign.reader.outOfData = s.reader.outOfData := by
  unfold Decoder.realign
  refine whileDo_keeps (I := fun (x : Decoder) => x.reader.data = s.reader.data ∧
    x.reader.bytePos = s.reader.bytePos ∧ x.reader.bitCount ≤ s.reader.bitCount ∧
    x.reader.outOfData = s.reader.outOfData) (fun x hx _ => ?_)
    ⟨rfl, rfl, Nat.le_refl _, rfl⟩
  exact ⟨hx.1, hx.2.1, (Nat.sub_le _ _).trans hx.2.2.1, hx.2.2.2⟩

/-- Readers that correspond do so after a realignment. -/
theorem Follows.realign {Q : BitReader → BitReader → Prop}
    (hQ : ∀ r r₂, Q r r₂ → Q r.align16 r₂.align16) (h : s.Follows s₂) (hr : Q s.reader s₂.reader) :
    s.realign.Follows s₂.realign ∧ Q s.realign.reader s₂.realign.reader := by
  unfold Decoder.realign
  rw [h.outPos]
  refine whileDo_simulates (R := fun (x y : Decoder) => x.Follows y ∧ Q x.reader y.reader)
    (fun x y hxy => ?_) (fun x y hxy _ => ⟨⟨?_, ?_⟩, ?_⟩) ⟨h, hr⟩
  · unfold Decoder.pastBoundary
    rw [hxy.1.rest]
    dsimp only
    rw [hxy.1.output.1]
  · conv_lhs => rw [hxy.1.rest]
    rfl
  · exact hxy.1.output
  · exact hQ _ _ hxy.2

end Decoder

theorem Settled.realign {r : BitReader} {s : Decoder} {again : Prop}
    (h : Settled r s.reader again) : Settled r s.realign.reader again := by
  obtain ⟨hdata, hpos, hcount, -⟩ := s.realign_reader
  exact ⟨hdata.trans h.data, hcount.trans_lt h.bitCount, hpos ▸ h.bytePos,
    fun hle => h.again (hpos ▸ hle)⟩

/-! ### Symbols and blocks -/

/-- The readers go over one stream, the second with more bytes behind it. -/
def Extended (tail : List UInt8) (r r₂ : BitReader) : Prop :=
  r₂ = r.extend tail

/-- A symbol on a longer stream, over another buffer. -/
theorem decodeSymbol_settled {reference : List UInt8} {trees : BlockTrees} {s s' : Decoder}
    (hcount : s.reader.bitCount < 16) (h : decodeSymbol reference trees s = .ok s')
    (tail : List UInt8) :
    Settled s.reader s'.reader (∀ s₂, s.Follows s₂ → Extended tail s.reader s₂.reader →
      ∃ s₂', decodeSymbol reference trees s₂ = .ok s₂' ∧ s'.Follows s₂' ∧
        Extended tail s'.reader s₂'.reader) := by
  unfold decodeSymbol at h
  obtain ⟨⟨token, r⟩, htoken, h⟩ := bind_eq_ok.mp h
  obtain ⟨s₁, hwrite, h⟩ := bind_eq_ok.mp h
  cases h
  have hread := stable_reads.readToken trees s.repeatedOffsets s.reader token r hcount htoken tail
  obtain ⟨hsame, -⟩ := (Decoder.Follows.mk (s := { s with reader := r }) rfl
    ⟨rfl, fun _ _ => rfl⟩).write hwrite
  refine Settled.realign (hsame.symm ▸ hread.mono fun hagain s₂ hfollows hreader => ?_)
  obtain ⟨-, s₃, hwrite', hfollows', hreader'⟩ :=
    (hfollows.withReader r (r.extend tail)).write hwrite
  have hrealign := hfollows'.realign (Q := Extended tail) (fun _ _ h => by rw [h]; rfl)
    (by rw [hreader', hsame]; rfl)
  refine ⟨s₃.realign, ?_, hrealign⟩
  have hoffsets : s₂.repeatedOffsets = s.repeatedOffsets := by rw [hfollows.rest]
  have htoken' : readToken trees s₂.repeatedOffsets s₂.reader = .ok (token, r.extend tail) := by
    rw [hoffsets, hreader, hagain]
  exact bind_eq_ok.mpr ⟨_, htoken', bind_eq_ok.mpr ⟨s₃, hwrite', rfl⟩⟩


/-- The symbols of a block on a longer stream, over another buffer. -/
theorem decodeSymbols_settled {reference : List UInt8} {trees : BlockTrees}
    {blockEnd blockSize : ℕ} {s s' : Decoder} (hcount : s.reader.bitCount < 16)
    (h : decodeSymbols reference trees blockEnd blockSize s = .ok s') (tail : List UInt8) :
    Settled s.reader s'.reader (∀ s₂, s.Follows s₂ → Extended tail s.reader s₂.reader →
      ∃ s₂', decodeSymbols reference trees blockEnd blockSize s₂ = .ok s₂' ∧ s'.Follows s₂' ∧
        Extended tail s'.reader s₂'.reader) := by
  have hkeep : ∀ x x' : Decoder, (x.reader.data = s.reader.data ∧ x.reader.bitCount < 16 ∧
      s.reader.bytePos ≤ x.reader.bytePos) → decide (x.outPos < blockEnd) = true →
      decodeSymbol reference trees x = .ok x' →
      (x'.reader.data = s.reader.data ∧ x'.reader.bitCount < 16 ∧
        s.reader.bytePos ≤ x'.reader.bytePos) ∧
        (x'.reader.bytePos ≤ s.reader.data.length → x.reader.bytePos ≤ s.reader.data.length) := by
    rintro x x' ⟨hdata, hx, hpos⟩ - hbody
    have hstep := decodeSymbol_settled hx hbody tail
    exact ⟨⟨hstep.data.trans hdata, hstep.bitCount, hpos.trans hstep.bytePos⟩,
      hstep.bytePos.trans⟩
  have hstart : s.reader.data = s.reader.data ∧ s.reader.bitCount < 16 ∧
      s.reader.bytePos ≤ s.reader.bytePos := ⟨rfl, hcount, Nat.le_refl _⟩
  obtain ⟨hdata, hlt, hpos⟩ := whileM_keeps (fun x x' hx hc hbody => (hkeep x x' hx hc hbody).1)
    (I := fun x : Decoder => x.reader.data = s.reader.data ∧ x.reader.bitCount < 16 ∧
      s.reader.bytePos ≤ x.reader.bytePos) hstart h
  refine ⟨hdata, hlt, hpos, fun hend s₂ hfollows hreader => ?_⟩
  refine whileM_simulates (P := fun x : Decoder => x.reader.bytePos ≤ s.reader.data.length)
    (R := fun x y : Decoder => x.Follows y ∧ Extended tail x.reader y.reader) hkeep
    (fun x y hxy => by rw [hxy.1.outPos]) (fun x y x' hx hxy _ hbody hpos' => ?_) hstart
    ⟨hfollows, hreader⟩ h hend
  exact (decodeSymbol_settled hx.2.1 hbody tail).again (hx.1 ▸ hpos') y hxy.1 hxy.2

/-- A Huffman block on a longer stream, over another buffer. -/
theorem decodeHuffman_settled {reference : List UInt8} {aligned : Bool} {blockSize : ℕ}
    {s s' : Decoder} (hcount : s.reader.bitCount < 16)
    (h : decodeHuffman reference aligned blockSize s = .ok s') (tail : List UInt8) :
    Settled s.reader s'.reader (∀ s₂, s.Follows s₂ → Extended tail s.reader s₂.reader →
      ∃ s₂', decodeHuffman reference aligned blockSize s₂ = .ok s₂' ∧ s'.Follows s₂' ∧
        Extended tail s'.reader s₂'.reader) := by
  unfold decodeHuffman at h
  obtain ⟨⟨trees, start⟩, hstart, h⟩ := bind_eq_ok.mp h
  obtain ⟨mainLengths, lengthLengths, r, htrees, rfl⟩ := startHuffman_spec hstart
  have hread := stable_reads.readTrees aligned s.mainTreeSize s.mainLengths s.lengthLengths
    s.reader _ r hcount htrees tail
  have hrun := decodeSymbols_settled (s := { s with reader := r, mainLengths, lengthLengths })
    hread.bitCount h tail
  refine hread.trans hrun fun hagain hagain' s₂ hfollows hreader => ?_
  obtain ⟨t', hrun', ht'⟩ := hagain' { s₂ with reader := r.extend tail, mainLengths, lengthLengths }
    ⟨by conv_lhs => rw [hfollows.rest], by simpa only [hfollows.outPos] using hfollows.output⟩ rfl
  refine ⟨t', ?_, ht'⟩
  have htrees' : readTrees aligned s₂.mainTreeSize s₂.mainLengths s₂.lengthLengths s₂.reader =
      .ok ((trees, mainLengths, lengthLengths), r.extend tail) := by
    rw [hreader, ← hagain, hfollows.rest]
  refine bind_eq_ok.mpr ⟨_, bind_eq_ok.mpr ⟨_, htrees', rfl⟩, ?_⟩
  dsimp only
  rw [hfollows.outPos] at hrun' ⊢
  exact hrun'

theorem agrees_write {n : ℕ} {output output' payload : List UInt8} (h : Agrees n output output')
    (hfits : n + payload.length ≤ output.length) :
    Agrees (n + payload.length) (output.take n ++ payload ++ output.drop (n + payload.length))
      (output'.take n ++ payload ++ output'.drop (n + payload.length)) := by
  obtain ⟨hlength, hsame⟩ := h
  have hhead : output'.take n = output.take n := by
    refine List.ext_getElem? fun i => ?_
    rw [List.getElem?_take, List.getElem?_take]
    split
    · next hi => exact hsame i hi
    · rfl
  refine ⟨by simp [hlength], fun i hi => ?_⟩
  have hlt : i < (output.take n ++ payload).length := by
    rw [List.length_append, List.length_take]
    omega
  rw [hhead, List.getElem?_append_left hlt, List.getElem?_append_left hlt]

/-- An uncompressed block on a longer stream, over another buffer.  Where its
padding byte is absent the flag is up, and nothing is read afterwards. -/
theorem decodeUncompressed_settled {blockSize : ℕ} {s s' : Decoder}
    (hcount : s.reader.bitCount < 16) (hfits : s.outPos + blockSize ≤ s.output.length)
    (h : decodeUncompressed blockSize s = .ok s') (tail : List UInt8) :
    Settled s.reader s'.reader (∀ s₂, s.Follows s₂ → Extended tail s.reader s₂.reader →
      ∃ s₂', decodeUncompressed blockSize s₂ = .ok s₂' ∧ s'.Follows s₂' ∧
        (s'.reader.outOfData = false → Extended tail s'.reader s₂'.reader)) := by
  unfold decodeUncompressed at h
  obtain ⟨⟨⟨offsets, payload⟩, r⟩, hread, h⟩ := bind_eq_ok.mp h
  cases h
  have hpayload := readUncompressed_length hread
  have hsettled := stable_readUncompressed blockSize s.reader _ r hcount hread tail
  have hpad : Settled r (if blockSize % 2 ≠ 0 then (r.readRawBytes 1).2 else r)
      ((if blockSize % 2 ≠ 0 then (r.readRawBytes 1).2 else r).outOfData = false →
        (if blockSize % 2 ≠ 0 then ((r.extend tail).readRawBytes 1).2 else r.extend tail) =
          (if blockSize % 2 ≠ 0 then (r.readRawBytes 1).2 else r).extend tail) := by
    split
    · unfold BitReader.readRawBytes
      split
      · exact ⟨rfl, hsettled.bitCount, Nat.le_refl _, fun _ hflag => by cases hflag⟩
      · next hshort =>
        refine ⟨rfl, hsettled.bitCount, Nat.le_add_right _ _, fun _ _ => ?_⟩
        rw [if_neg (by simp only [BitReader.extend, List.length_append]; omega)]
        rfl
    · exact ⟨rfl, hsettled.bitCount, Nat.le_refl _, fun _ _ => rfl⟩
  refine hsettled.trans hpad fun hagain hagain' s₂ hfollows hreader => ?_
  have hread' : readUncompressed blockSize s₂.reader = .ok ((offsets, payload), r.extend tail) := by
    rw [hreader, hagain]
  refine ⟨_, bind_eq_ok.mpr ⟨_, hread', rfl⟩, ⟨?_, ?_⟩, hagain'⟩
  · rw [hfollows.rest]
  · subst hpayload
    rw [hfollows.outPos]
    exact agrees_write hfollows.output hfits

/-- A header is not read past the end of the stream. -/
theorem readBlockHeader_flag {r r' : BitReader} {header : ℕ × ℕ} (hcount : r.bitCount < 16)
    (h : readBlockHeader r = .ok (header, r')) : r.outOfData = false := by
  unfold readBlockHeader at h
  obtain ⟨blockType, r₁, hread, h⟩ := bind_ok.mp h
  obtain ⟨ended, r₂, hflag, h⟩ := bind_ok.mp h
  cases hflag
  have hkept := (r.ensure_spec (n := 3) hcount).2.2.2.2.1
  have hr₁ : r₁.outOfData = (r.ensure 3).outOfData := by
    unfold read BitReader.peek at hread
    cases hread
    rfl
  cases hset : r.outOfData with
  | false => rfl
  | true =>
    rw [hr₁, hkept hset] at h
    cases h

/-- A block on a longer stream, over another buffer. -/
theorem decodeBlock_settled {reference : List UInt8} {s s' : Decoder}
    (hcount : s.reader.bitCount < 16) (h : decodeBlock reference s = .ok s') (tail : List UInt8) :
    Settled s.reader s'.reader (∀ s₂, s.Follows s₂ →
      (s.reader.outOfData = false → Extended tail s.reader s₂.reader) →
      ∃ s₂', decodeBlock reference s₂ = .ok s₂' ∧ s'.Follows s₂' ∧
        (s'.reader.outOfData = false → Extended tail s'.reader s₂'.reader)) := by
  unfold decodeBlock at h
  obtain ⟨⟨⟨blockType, blockSize⟩, r⟩, hheader, h⟩ := bind_eq_ok.mp h
  obtain ⟨s₁, hbody, h⟩ := bind_eq_ok.mp h
  cases h
  have hread := stable_reads.readBlockHeader s.reader _ r hcount hheader tail
  have hsettled : Settled r s₁.reader (∀ t, ({ s with reader := r } : Decoder).Follows t →
      Extended tail r t.reader → ∃ t', decodeBody reference blockType blockSize t = .ok t' ∧
        s₁.Follows t' ∧ (s₁.reader.outOfData = false → Extended tail s₁.reader t'.reader)) := by
    unfold decodeBody at hbody
    split at hbody
    · cases hbody
    next hsize =>
    have hfits : s.outPos + blockSize ≤ s.output.length :=
      not_lt.mp fun hlong => hsize (.inr hlong)
    split at hbody
    · next htype =>
      refine (decodeUncompressed_settled (s := { s with reader := r }) hread.bitCount hfits hbody tail).mono
        fun hagain t hfollows hreader => ?_
      obtain ⟨t', hrun, ht'⟩ := hagain t hfollows hreader
      refine ⟨t', ?_, ht'⟩
      rw [decodeBody, hfollows.outPos, hfollows.output.1, if_neg hsize, if_pos htype]
      exact hrun
    next hstored =>
    split at hbody
    · next htype =>
      refine (decodeHuffman_settled (s := { s with reader := r }) hread.bitCount hbody tail).mono
        fun hagain t hfollows hreader => ?_
      obtain ⟨t', hrun, ht', hreader'⟩ := hagain t hfollows hreader
      refine ⟨t', ?_, ht', fun _ => hreader'⟩
      rw [decodeBody, hfollows.outPos, hfollows.output.1, if_neg hsize, if_neg hstored,
        if_pos htype]
      exact hrun
    · cases hbody
  refine (hread.trans hsettled fun hagain hagain' s₂ hfollows hreader => ?_).realign
  have hexact := hreader (readBlockHeader_flag hcount hheader)
  obtain ⟨t', hrun, ht', hreader'⟩ :=
    hagain' _ (hfollows.withReader r (r.extend tail)) rfl
  have hrealign := ht'.realign
    (Q := fun r r₂ => r.outOfData = false → Extended tail r r₂)
    (fun _ _ h hflag => by rw [h hflag]; rfl) hreader'
  have hheader' : readBlockHeader s₂.reader = .ok ((blockType, blockSize), r.extend tail) := by
    rw [hexact, hagain]
  exact ⟨t'.realign, bind_eq_ok.mpr ⟨_, hheader', bind_eq_ok.mpr ⟨t', hrun, rfl⟩⟩, hrealign⟩

/-! ### Streams -/

/-- Every word that the reader takes lies in the stream, so that none of its
bits is padding: the position counts the words, and only a block that ends on a
byte boundary goes on without taking one. -/
def wordsInside (compressed : List UInt8) (windowBits : ℕ) (reference output : List UInt8) :
    Bool :=
  match decodeRun compressed windowBits reference output with
  | .ok s => decide (s.reader.bytePos ≤ compressed.length)
  | .error _ => true

/-- **A stream whose words are all there decodes the same way with anything
behind it, over a buffer that holds anything.** -/
theorem decode_append {compressed reference output result : List UInt8} {windowBits : ℕ}
    (hinside : wordsInside compressed windowBits reference output = true)
    (h : decode compressed windowBits reference output = .ok result)
    (tail output' : List UInt8) (hlength : output'.length = output.length) :
    decode (compressed ++ tail) windowBits reference output' = .ok result := by
  obtain ⟨s', hrun, rfl⟩ : ∃ s', decodeRun compressed windowBits reference output = .ok s' ∧
      s'.output = result := by
    unfold decode at h
    cases hrun : decodeRun compressed windowBits reference output with
    | error e =>
      rw [hrun] at h
      cases h
    | ok s' =>
      rw [hrun] at h
      exact ⟨s', rfl, Except.ok.inj h⟩
  have hend : s'.reader.bytePos ≤ compressed.length := by
    unfold wordsInside at hinside
    rw [hrun] at hinside
    exact of_decide_eq_true hinside
  unfold decode
  unfold decodeRun at hrun ⊢
  split at hrun
  · cases hrun
  next hwindow =>
  rw [if_neg hwindow]
  obtain ⟨hfull, hsize⟩ := decodeBlocks_fills (Nat.zero_le _) hrun
  have hstart : (Decoder.init compressed windowBits output).Follows
      (.init (compressed ++ tail) windowBits output') :=
    ⟨rfl, hlength, fun _ hi => absurd hi (Nat.not_lt_zero _)⟩
  obtain ⟨t', hrun', hfollows, -⟩ : ∃ t',
      whileM (fun y : Decoder => decide (y.outPos < y.output.length)) (decodeBlock reference) output.length (.init (compressed ++ tail) windowBits output') = .ok t' ∧
      s'.Follows t' ∧ (s'.reader.outOfData = false → Extended tail s'.reader t'.reader) := by
    refine whileM_simulates
      (I := fun x : Decoder => x.reader.data = compressed ∧ x.reader.bitCount < 16)
      (P := fun x : Decoder => x.reader.bytePos ≤ compressed.length)
      (R := fun x y : Decoder => x.Follows y ∧
        (x.reader.outOfData = false → Extended tail x.reader y.reader))
      (fun x x' hx _ hbody => ?_) (fun x y hxy => by rw [hxy.1.outPos, hxy.1.output.1])
      (fun x y x' hx hxy _ hbody hpos => ?_) ⟨rfl, Nat.zero_lt_succ _⟩ ⟨hstart, fun _ => rfl⟩
      hrun hend
    · have hstep := decodeBlock_settled hx.2 hbody tail
      exact ⟨⟨hstep.data.trans hx.1, hstep.bitCount⟩, hstep.bytePos.trans⟩
    · exact (decodeBlock_settled hx.2 hbody tail).again (hx.1.symm ▸ hpos) y hxy.1 hxy.2
  have hsame : t'.output = s'.output := by
    refine List.ext_getElem? fun i => ?_
    by_cases hi : i < s'.outPos
    · exact hfollows.output.2 i hi
    · rw [List.getElem?_eq_none (by rw [hfollows.output.1]; omega),
        List.getElem?_eq_none (by omega)]
  have hblocks : decodeBlocks reference (.init (compressed ++ tail) windowBits output') = .ok t' := by
    have hfuel : (Decoder.init (compressed ++ tail) windowBits output').output.length =
        output.length := hlength
    unfold decodeBlocks
    rw [hfuel]
    exact hrun'
  rw [hblocks, ← hsame]
  rfl

/-- An uncompressed block of two bytes. -/
def storedStream : List UInt8 :=
  [0x00, 0x60, 0x40, 0x00, 1, 0, 0, 0, 1, 0, 0, 0, 1, 0, 0, 0, 0xab, 0xcd]

theorem decode_append_stored :
    decode (storedStream ++ [0xff]) 15 [] [7, 7] = .ok [0xab, 0xcd] :=
  decode_append (by decide : wordsInside storedStream 15 [] [0, 0] = true)
    (by decide) [0xff] [7, 7] rfl

/-- A verbatim block of eleven bytes in which only the literal 0 has a code, of
one bit; the stream ends before the code of the last byte. -/
def cutStream : List UInt8 :=
  [0, 32, 96, 1, 0, 0, 0, 0, 0, 0, 2, 0, 15, 2, 255, 255, 192, 255, 0, 0, 0, 0, 0, 0, 0, 0, 31, 4,
    247, 125, 0, 208, 0, 0, 0, 0, 0, 0, 0, 0, 125, 16, 223, 247, 0, 100]

/-- **A stream that is cut short inside a block is accepted**: its last literal
is read from zero bits past the end, and the same stream with other bits there
is refused. -/
theorem decode_trusts_padding :
    ¬∀ (compressed tail reference output output' result : List UInt8) (windowBits : ℕ),
      output'.length = output.length →
      decode compressed windowBits reference output = .ok result →
        decode (compressed ++ tail) windowBits reference output' = .ok result := by
  intro h
  have haccepted : decode cutStream 15 [] (List.replicate 11 0) = .ok (List.replicate 11 0) := by
    decide +kernel
  have hrefused : decode (cutStream ++ [0xff, 0xff]) 15 [] (List.replicate 11 0) =
      .error "LZX main-tree symbol decode failed (truncated/corrupt stream)." := by
    decide +kernel
  rw [h cutStream [0xff, 0xff] [] _ (List.replicate 11 0) _ 15 rfl haccepted] at hrefused
  cases hrefused

end Lzx
end Xex
end XenonRecomp
