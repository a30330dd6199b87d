/-
# Blocks of an LZX stream

What the blocks of an accepted stream give.  `blocks` and `blockSymbols` are the
decoders in which the headers and the symbols of a run are read.  Copies stay in
the history, and the reader is realigned whenever a symbol or a block passes the
end of a chunk.  A match is only kept inside the buffer, not inside its block:
a stream is self-contained exactly when no match is longer than what is left of
its block.
-/

import XenonRecomp.Xex.LzxPadding

namespace XenonRecomp
namespace Xex
namespace Lzx

open Library.Loop

/-! ### Headers and symbols of a run -/

/-- The bytes that the header of the block at `b` declares. -/
def declaredSize (b : Decoder) : ℕ :=
  match readBlockHeader b.reader with
  | .ok ((_, blockSize), _) => blockSize
  | .error _ => 0

/-- A moment at which a symbol is read. -/
structure SymbolPoint where
  trees : BlockTrees
  blockEnd : ℕ
  state : Decoder

/-- Where the symbols of the block at `b` are read. -/
def blockSymbols (reference : List UInt8) (b : Decoder) : List SymbolPoint :=
  match readBlockHeader b.reader with
  | .ok ((blockType, blockSize), reader) =>
    if blockType = 1 ∨ blockType = 2 then
      match startHuffman (decide (blockType = 2)) { b with reader } with
      | .ok (trees, start) =>
        (rounds (fun x => decide (x.outPos < b.outPos + blockSize)) (decodeSymbol reference trees)
          blockSize start).map fun x => ⟨trees, b.outPos + blockSize, x⟩
      | .error _ => []
    else []
  | .error _ => []

/-- Where the headers of a stream are read. -/
def blocks (compressed : List UInt8) (windowBits : ℕ) (reference output : List UInt8) :
    List Decoder :=
  rounds (fun s => decide (s.outPos < s.output.length)) (decodeBlock reference) output.length
    (.init compressed windowBits output)

/-- What a block that is decoded consists of. -/
theorem decodeBlock_cases {reference : List UInt8} {b b' : Decoder}
    (h : decodeBlock reference b = .ok b') :
    ∃ r s₁, 0 < declaredSize b ∧ b.outPos + declaredSize b ≤ b.output.length ∧
      (∃ blockType, readBlockHeader b.reader = .ok ((blockType, declaredSize b), r)) ∧
      b' = s₁.realign ∧
      ((decodeUncompressed (declaredSize b) { b with reader := r } = .ok s₁ ∧
          blockSymbols reference b = []) ∨
        ∃ aligned trees start, startHuffman aligned { b with reader := r } = .ok (trees, start) ∧
          decodeSymbols reference trees (b.outPos + declaredSize b) (declaredSize b) start = .ok s₁ ∧
          blockSymbols reference b =
            (rounds (fun x => decide (x.outPos < b.outPos + declaredSize b))
              (decodeSymbol reference trees) (declaredSize b) start).map
              fun x => ⟨trees, b.outPos + declaredSize b, x⟩) := by
  unfold decodeBlock at h
  obtain ⟨⟨⟨blockType, blockSize⟩, r⟩, hheader, h⟩ := bind_eq_ok.mp h
  obtain ⟨s₁, hbody, h⟩ := bind_eq_ok.mp h
  cases h
  have hdeclared : declaredSize b = blockSize := by
    unfold declaredSize
    rw [hheader]
  rw [hdeclared]
  unfold decodeBody at hbody
  split at hbody
  · cases hbody
  next hsize =>
  refine ⟨r, s₁, Nat.pos_of_ne_zero fun hzero => hsize (.inl hzero),
    not_lt.mp fun hlong => hsize (.inr hlong), ⟨blockType, hheader⟩, rfl, ?_⟩
  split at hbody
  · next htype =>
    refine .inl ⟨hbody, ?_⟩
    unfold blockSymbols
    rw [hheader]
    dsimp only
    rw [if_neg (by omega)]
  split at hbody
  · next htype =>
    unfold decodeHuffman at hbody
    obtain ⟨⟨trees, start⟩, hstart, hsymbols⟩ := bind_eq_ok.mp hbody
    refine .inr ⟨_, trees, start, hstart, hsymbols, ?_⟩
    unfold blockSymbols
    rw [hheader]
    dsimp only
    rw [if_pos htype, hstart]
  · cases hbody

/-! ### Copies -/

/-- The bytes that a match of `length` at `position` copies are bytes of the
history before them. -/
def CopiesHistory (reference : List UInt8) (distance length position : ℕ) (output : List UInt8) :
    Prop :=
  ∀ i < length, 0 < distance ∧ distance ≤ reference.length + position + i ∧
    (reference ++ output)[reference.length + position + i]? =
      (reference ++ output)[reference.length + position + i - distance]?

/-- **A match copies the history, and leaves what is before it.** -/
theorem copyMatch_spec {reference : List UInt8} {distance : ℕ} :
    ∀ {length position : ℕ} {output result : List UInt8},
      copyMatch reference distance length position output = some result →
        CopiesHistory reference distance length position result ∧
          ∀ i < position, result[i]? = output[i]? := by
  intro length
  induction length with
  | zero =>
    intro position output result h
    cases h
    exact ⟨fun i hi => absurd hi (Nat.not_lt_zero _), fun _ _ => rfl⟩
  | succ length ih =>
    intro position output result h
    have hnext : ∀ value, position < output.length → 0 < distance →
        distance ≤ reference.length + position →
        (∀ l : List UInt8, (∀ i < position, l[i]? = output[i]?) →
          (reference ++ l)[reference.length + position - distance]? = some value) →
        copyMatch reference distance length (position + 1) (output.set position value) =
          some result →
        CopiesHistory reference distance (length + 1) position result ∧
          ∀ i < position, result[i]? = output[i]? := by
      intro value hfits hpos hle hvalue hrest
      obtain ⟨hcopies, hkept⟩ := ih hrest
      have hbefore : ∀ i < position, result[i]? = output[i]? := fun i hi => by
        rw [hkept i (by omega), List.getElem?_set_ne (by omega)]
      refine ⟨fun i hi => ?_, hbefore⟩
      rcases Nat.eq_zero_or_pos i with rfl | hpos'
      · refine ⟨hpos, hle, ?_⟩
        rw [Nat.add_zero, hvalue result hbefore, List.getElem?_append_right (by omega),
          Nat.add_sub_cancel_left, hkept position (by omega), List.getElem?_set_self hfits]
      · obtain ⟨-, hle', hsame⟩ := hcopies (i - 1) (by omega)
        have hindex : reference.length + (position + 1) + (i - 1) =
            reference.length + position + i := by omega
        rw [hindex] at hle' hsame
        exact ⟨hpos, hle', hsame⟩
    simp only [copyMatch] at h
    split_ifs at h with h₁ h₂ h₃ h₄ h₅
    · refine hnext _ (by omega) (by omega) (by omega) (fun l _ => ?_) h
      rw [List.getElem?_append_left h₂, List.getD_eq_getElem?_getD, List.getElem?_eq_getElem h₂,
        Option.getD_some]
    · refine hnext _ (by omega) (by omega) (by omega) (fun l hl => ?_) h
      rw [List.getElem?_append_right (by omega), hl _ (by omega), List.getD_eq_getElem?_getD,
        List.getElem?_eq_getElem (by omega), Option.getD_some]

/-! ### Alignment -/

/-- The next bit is the first of a word of the stream. -/
def BitReader.Aligned (r : BitReader) : Prop :=
  r.bitCount % 16 = 0 ∧ r.bytePos % 2 = 0

/-- Where the output passes the end of a chunk, what is read next starts a
word. -/
def AlignedPast (s s' : Decoder) : Prop :=
  s.outPos / kChunkSize < s'.outPos / kChunkSize → s'.reader.Aligned

/-- Reads move the position by whole words. -/
theorem parity_reads : ReadRule fun _ m => ∀ r a r', m r = .ok (a, r') →
    r'.bytePos % 2 = r.bytePos % 2 where
  pure := by
    rintro _ a r a' r' h
    cases h
    rfl
  throw := fun _ _ _ _ h => by cases h
  bind := by
    intro _ _ m f hm hf r b r' h
    obtain ⟨a, r₁, hrun, hrest⟩ := bind_ok.mp h
    exact (hf a r₁ b r' hrest).trans (hm r a r₁ hrun)
  read := by
    intro n r a r' h
    have hensure : (r.ensure n).bytePos % 2 = r.bytePos % 2 := by
      unfold BitReader.ensure
      exact whileDo_keeps (I := fun x : BitReader => x.bytePos % 2 = r.bytePos % 2)
        (fun x hx _ => by simpa [BitReader.pullWord] using hx) rfl
    unfold read BitReader.peek at h
    by_cases hn : n = 0
    · rw [if_pos hn] at h
      cases h
      rfl
    · rw [if_neg hn] at h
      cases h
      exact hensure
  outOfData := by
    rintro r a r' h
    cases h
    rfl

/-- Between symbols: the reader holds less than a word, and the next boundary is
the end of the chunk that the output is in. -/
structure Decoder.Steady (s : Decoder) : Prop where
  outPos : s.outPos ≤ s.output.length
  bitCount : s.reader.bitCount < 16
  chunk : kChunkSize ∣ s.nextChunkBoundary
  above : s.outPos < s.nextChunkBoundary
  below : s.nextChunkBoundary ≤ s.outPos + kChunkSize

theorem Decoder.Steady.init (compressed : List UInt8) (windowBits : ℕ) (output : List UInt8) :
    (Decoder.init compressed windowBits output).Steady :=
  ⟨Nat.zero_le _, Nat.zero_lt_succ _, Nat.dvd_refl _, Nat.zero_lt_succ _, Nat.le_add_left _ _⟩

/-- There is nothing to realign between symbols. -/
theorem Decoder.Steady.realign_eq {s : Decoder} (h : s.Steady) : s.realign = s := by
  have habove := h.above
  refine whileDo_of_not _ ?_
  unfold Decoder.pastBoundary
  rw [decide_eq_false (by omega), Bool.false_and]

/-- **After more output a realignment makes the decoder steady**, and its reader
aligned where the output has passed the end of a chunk. -/
theorem Decoder.Steady.realign {s : Decoder} (h : s.Steady) (s₁ : Decoder)
    (hpos : s.outPos ≤ s₁.outPos)
    (hnext : s₁.nextChunkBoundary = s.nextChunkBoundary) (hle : s₁.outPos ≤ s₁.output.length)
    (hcount : s₁.reader.bitCount < 16) :
    s₁.realign.Steady ∧
      (s.outPos / kChunkSize < s₁.outPos / kChunkSize →
        s₁.realign.reader.bitCount % 16 = 0) := by
  have habove := h.above
  have hbelow := h.below
  obtain ⟨houtPos, houtput⟩ := s₁.realign_output
  obtain ⟨-, -, hcount', -⟩ := s₁.realign_reader
  have hround : ∀ x : Decoder, x.pastBoundary = true →
      x.nextChunkBoundary ≤ x.outPos := fun x hx => by
    unfold Decoder.pastBoundary at hx
    rw [Bool.and_eq_true, decide_eq_true_eq] at hx
    exact hx.1
  obtain ⟨hchunk, hfrom, hbelow', haligned⟩ : kChunkSize ∣ s₁.realign.nextChunkBoundary ∧
      s.nextChunkBoundary ≤ s₁.realign.nextChunkBoundary ∧
      s₁.realign.nextChunkBoundary ≤ s₁.realign.outPos + kChunkSize ∧
      (s.nextChunkBoundary < s₁.realign.nextChunkBoundary →
        s₁.realign.reader.bitCount % 16 = 0) := by
    refine whileDo_keeps (I := fun x : Decoder => kChunkSize ∣ x.nextChunkBoundary ∧
      s.nextChunkBoundary ≤ x.nextChunkBoundary ∧ x.nextChunkBoundary ≤ x.outPos + kChunkSize ∧
      (s.nextChunkBoundary < x.nextChunkBoundary → x.reader.bitCount % 16 = 0))
      (fun x hx hc => ?_) ⟨hnext ▸ h.chunk, hnext.ge, by omega, fun hlt => by omega⟩
    refine ⟨Nat.dvd_add hx.1 (Nat.dvd_refl _), hx.2.1.trans (Nat.le_add_right _ _),
      Nat.add_le_add_right (hround x hc) _, fun _ => ?_⟩
    simp only [Decoder.alignChunk, BitReader.align16]
    omega
  have hdone : s₁.realign.pastBoundary = false := by
    refine whileDo_done (fun x : Decoder => x.outPos + 1 - x.nextChunkBoundary)
      (fun x hx => ?_) (fun x hx => ?_) ?_
    · have := hround x hx
      omega
    · have := hround x hx
      simp only [Decoder.alignChunk, kChunkSize]
      omega
    · omega
  have habove' : s₁.outPos < s₁.realign.nextChunkBoundary := by
    unfold Decoder.pastBoundary at hdone
    rw [houtPos, houtput, Bool.and_eq_false_iff, decide_eq_false_iff_not,
      decide_eq_false_iff_not] at hdone
    omega
  refine ⟨⟨?_, hcount'.trans_lt hcount, hchunk, ?_, hbelow'⟩, fun hcross => haligned ?_⟩
  · rw [houtPos, houtput]
    exact hle
  · rw [houtPos]
    exact habove'
  · obtain ⟨k, hk⟩ := h.chunk
    have hlow : s.outPos / kChunkSize < k := Nat.div_lt_of_lt_mul (hk ▸ habove)
    have hhigh : k ≤ s₁.outPos / kChunkSize := by
      have hbound : kChunkSize * k ≤ s.outPos + kChunkSize := hk ▸ hbelow
      unfold kChunkSize at *
      omega
    have hmul := Nat.mul_le_of_le_div _ _ _ hhigh
    rw [Nat.mul_comm, ← hk] at hmul
    omega

variable {reference : List UInt8}

/-- Where the output passes the end of a chunk, no bits are left of the word in
which the last one was read. -/
def Crosses (s s' : Decoder) : Prop :=
  s.outPos / kChunkSize < s'.outPos / kChunkSize → s'.reader.bitCount % 16 = 0

/-- Between symbols the reader is at a word. -/
def Decoder.AtWord (s : Decoder) : Prop :=
  s.Steady ∧ s.reader.bytePos % 2 = 0

theorem decodeSymbol_atWord {trees : BlockTrees} {s s' : Decoder} (h : s.AtWord)
    (hrun : decodeSymbol reference trees s = .ok s') : s'.AtWord ∧ Crosses s s' := by
  unfold decodeSymbol at hrun
  obtain ⟨⟨token, r⟩, htoken, hrun⟩ := bind_eq_ok.mp hrun
  obtain ⟨s₁, hwrite, hrun⟩ := bind_eq_ok.mp hrun
  cases hrun
  obtain ⟨hpos, hle, hlength, hreader, hnext⟩ := Decoder.write_spec hwrite
  have hcount : r.bitCount < 16 :=
    (stable_reads.readToken trees s.repeatedOffsets s.reader token r h.1.bitCount htoken []).bitCount
  have hparity := parity_reads.readToken trees s.repeatedOffsets s.reader token r htoken
  have hsteady := h.1.realign s₁ (by rw [hpos]; exact Nat.le_add_right _ _) hnext
    (hlength ▸ hle) (by rw [hreader]; exact hcount)
  refine ⟨⟨hsteady.1, ?_⟩, fun hcross => ?_⟩
  · rw [s₁.realign_reader.2.1, hreader]
    exact hparity.trans h.2
  · rw [s₁.realign_output.1] at hcross
    exact hsteady.2 hcross

/-- An uncompressed block ends on a word, unless its padding byte is absent. -/
theorem decodeUncompressed_atWord {blockSize : ℕ} {s s' : Decoder}
    (hparity : s.reader.bytePos % 2 = 0) (hrun : decodeUncompressed blockSize s = .ok s') :
    s'.reader.bitCount = 0 ∧ s'.nextChunkBoundary = s.nextChunkBoundary ∧
      (s'.reader.outOfData = false → s'.reader.bytePos % 2 = 0) := by
  unfold decodeUncompressed at hrun
  obtain ⟨⟨⟨offsets, payload⟩, r⟩, hread, hrun⟩ := bind_eq_ok.mp hrun
  cases hrun
  have hraw : ∀ {error : String} {n : ℕ} {a : List UInt8} {r r' : BitReader},
      readRaw error n r = .ok (a, r') →
        r'.bytePos = r.bytePos + n ∧ r'.bitCount = r.bitCount := by
    intro error n a r r' h
    unfold readRaw BitReader.readRawBytes at h
    split at h
    · next hbytes =>
      split at hbytes
      · cases hbytes
      · cases hbytes
        cases h
        exact ⟨rfl, rfl⟩
    · cases h
  obtain ⟨hcount, hpos⟩ : r.bitCount = 0 ∧ r.bytePos % 2 = blockSize % 2 := by
    unfold readUncompressed at hread
    obtain ⟨_, r₀, hflush, hread⟩ := bind_ok.mp hread
    obtain ⟨b₀, r₁, h₀, hread⟩ := bind_ok.mp hread
    obtain ⟨b₁, r₂, h₁, hread⟩ := bind_ok.mp hread
    obtain ⟨b₂, r₃, h₂, hread⟩ := bind_ok.mp hread
    obtain ⟨bytes, r₄, h₃, hread⟩ := bind_ok.mp hread
    cases hread
    cases hflush
    have e₀ := hraw h₀
    have e₁ := hraw h₁
    have e₂ := hraw h₂
    have e₃ := hraw h₃
    have hflushed : s.reader.flushToByteBoundary.bitCount = 0 := rfl
    have hback : s.reader.flushToByteBoundary.bytePos =
        s.reader.bytePos - s.reader.align16.bitCount / 16 * 2 := rfl
    omega
  dsimp only
  split
  · next hodd =>
    unfold BitReader.readRawBytes
    split
    · exact ⟨hcount, rfl, fun hflag => by cases hflag⟩
    · refine ⟨hcount, rfl, fun _ => ?_⟩
      dsimp only
      omega
  · next heven => exact ⟨hcount, rfl, fun _ => by omega⟩

/-- What is read in a block: its header, then its symbols. -/
def readings (reference : List UInt8) (b : Decoder) : List Decoder :=
  b :: (blockSymbols reference b).map SymbolPoint.state

/-- **A block leaves the decoder steady**, and every place where its output
passes the end of a chunk is followed by a word. -/
theorem decodeBlock_atWord {b b' : Decoder} (h : b.AtWord)
    (hrun : decodeBlock reference b = .ok b') :
    b'.Steady ∧ (b'.reader.outOfData = false → b'.reader.bytePos % 2 = 0) ∧
      (readings reference b ++ [b']).IsChain Crosses ∧
      ∀ x ∈ readings reference b, x.reader.bytePos % 2 = 0 := by
  obtain ⟨r, s₁, hsize, hfits, ⟨blockType, hheader⟩, rfl, hbody⟩ := decodeBlock_cases hrun
  have hcount : r.bitCount < 16 :=
    (stable_reads.readBlockHeader b.reader _ r h.1.bitCount hheader []).bitCount
  have hparity := (parity_reads.readBlockHeader b.reader _ r hheader).trans h.2
  rcases hbody with ⟨hstored, hsymbols⟩ | ⟨aligned, trees, start, hstart, hrun, hsymbols⟩
  · obtain ⟨hzero, hnext, hword⟩ := decodeUncompressed_atWord (s := { b with reader := r }) hparity hstored
    obtain ⟨hend, hlength⟩ := decodeUncompressed_advances (s := { b with reader := r }) hfits hstored
    obtain ⟨hsteady, hcross⟩ := h.1.realign s₁
      (by rw [hend]; exact Nat.le_add_right _ _) hnext (by rw [hend, hlength]; exact hfits)
      (by omega)
    obtain ⟨-, hpos, -, hflag⟩ := s₁.realign_reader
    refine ⟨hsteady, by rw [hpos, hflag]; exact hword, ?_, ?_⟩
    · unfold readings
      rw [hsymbols]
      refine List.isChain_cons_cons.mpr ⟨fun hlt => ?_, .singleton _⟩
      rw [s₁.realign_output.1] at hlt
      exact hcross hlt
    · unfold readings
      rw [hsymbols]
      simpa using h.2
  · obtain ⟨mainLengths, lengthLengths, r', htrees, rfl⟩ := startHuffman_spec hstart
    have hcount' : r'.bitCount < 16 :=
      (stable_reads.readTrees aligned _ _ _ r _ r' hcount htrees []).bitCount
    have hparity' := (parity_reads.readTrees aligned _ _ _ r _ r' htrees).trans hparity
    have hstart : ({ b with reader := r', mainLengths, lengthLengths } : Decoder).AtWord :=
      ⟨⟨h.1.outPos, hcount', h.1.chunk, h.1.above, h.1.below⟩, hparity'⟩
    unfold decodeSymbols at hrun
    have hend := whileM_keeps (I := Decoder.AtWord)
      (fun x x' hx _ hstep => (decodeSymbol_atWord hx hstep).1) hstart hrun
    obtain ⟨hchain, hall⟩ := rounds_chain (R := Crosses)
      (fun x x' hx _ hstep => decodeSymbol_atWord hx hstep) hstart hrun
    have hstates : readings reference b = b :: rounds
        (fun x => decide (x.outPos < b.outPos + declaredSize b)) (decodeSymbol reference trees)
        (declaredSize b) { b with reader := r', mainLengths, lengthLengths } := by
      unfold readings
      rw [hsymbols, List.map_map]
      exact congrArg (b :: ·) (List.map_id _)
    rw [hend.1.realign_eq, hstates]
    exact ⟨hend.1, fun _ => hend.2, hchain b fun hlt => absurd hlt (Nat.lt_irrefl _),
      List.forall_mem_cons.mpr ⟨h.2, fun x hx => (hall x hx).2⟩⟩

/-- **After each chunk of output what is read next starts a word.** -/
theorem aligned_past {compressed : List UInt8} {windowBits : ℕ} {output : List UInt8}
    {s' : Decoder} (hrun : decodeBlocks reference (.init compressed windowBits output) = .ok s') :
    ((blocks compressed windowBits reference output).flatMap (readings reference)).IsChain
      AlignedPast := by
  unfold decodeBlocks at hrun
  have hlinked : (∃ t, (blocks compressed windowBits reference output).flatMap
        (readings reference) ++ [s'] = .init compressed windowBits output :: t) ∧
      ((blocks compressed windowBits reference output).flatMap
        (readings reference) ++ [s']).IsChain Crosses ∧
      ∀ x ∈ (blocks compressed windowBits reference output).flatMap (readings reference),
        x.reader.bytePos % 2 = 0 := by
    refine rounds_induct (Q := fun s l =>
      s.Steady → (s.reader.outOfData = false → s.reader.bytePos % 2 = 0) →
        (∃ t, l.flatMap (readings reference) ++ [s'] = s :: t) ∧
        (l.flatMap (readings reference) ++ [s']).IsChain Crosses ∧
        ∀ x ∈ l.flatMap (readings reference), x.reader.bytePos % 2 = 0)
      (fun _ _ => ⟨⟨[], rfl⟩, .singleton _, by simp⟩)
      (fun s s₁ rest hc hbody hrest hsteady hword => ?_) hrun
      (Decoder.Steady.init compressed windowBits output) (fun _ => rfl)
    have hflag : s.reader.outOfData = false := by
      obtain ⟨r, s₂, -, -, ⟨blockType, hheader⟩, -⟩ := decodeBlock_cases hbody
      exact readBlockHeader_flag hsteady.bitCount hheader
    obtain ⟨hsteady₁, hword₁, hchain₁, hparity₁⟩ := decodeBlock_atWord ⟨hsteady, hword hflag⟩ hbody
    obtain ⟨⟨t, hhead⟩, hchain, hparity⟩ := hrest hsteady₁ hword₁
    rw [List.flatMap_cons, List.append_assoc]
    refine ⟨⟨_, rfl⟩, ?_, List.forall_mem_append.mpr ⟨hparity₁, hparity⟩⟩
    rw [hhead] at hchain ⊢
    have hwhole := List.IsChain.append_overlap hchain₁ hchain (List.cons_ne_nil s₁ [])
    rw [List.append_assoc] at hwhole
    exact hwhole
  obtain ⟨-, hchain, hparity⟩ := hlinked
  exact hchain.left_of_append.imp_of_mem_tail_imp fun x y _ hy hcross hlt =>
    ⟨hcross hlt, hparity y (List.mem_of_mem_tail hy)⟩

/-! ### What is written -/

/-- The bytes that are written are those of the result. -/
def Kept (result : List UInt8) (s : Decoder) : Prop :=
  ∀ i < s.outPos, result[i]? = s.output[i]?

theorem CopiesHistory.congr {distance length position : ℕ} {output result : List UInt8}
    (h : CopiesHistory reference distance length position output)
    (hsame : ∀ i < position + length, result[i]? = output[i]?) :
    CopiesHistory reference distance length position result := by
  intro i hi
  obtain ⟨hpos, hle, hcopy⟩ := h i hi
  have hread : ∀ j < reference.length + (position + length),
      (reference ++ result)[j]? = (reference ++ output)[j]? := by
    intro j hj
    rw [List.getElem?_append, List.getElem?_append]
    split
    · rfl
    · exact hsame _ (by omega)
  refine ⟨hpos, hle, ?_⟩
  rw [hread _ (by omega), hread _ (by omega)]
  exact hcopy

/-- A match that is read in a state. -/
def SymbolPoint.ReadsMatch (p : SymbolPoint) (m : Match) : Prop :=
  ∃ r, readToken p.trees p.state.repeatedOffsets p.state.reader = .ok (.copy m, r)

/-- What a symbol does to the output. -/
theorem decodeSymbol_writes {trees : BlockTrees} {s s' : Decoder} (blockEnd : ℕ)
    (hrun : decodeSymbol reference trees s = .ok s') :
    (∀ i < s.outPos, s'.output[i]? = s.output[i]?) ∧
      ((s'.outPos = s.outPos + 1 ∧ ∀ m, ¬SymbolPoint.ReadsMatch ⟨trees, blockEnd, s⟩ m) ∨
        ∃ m, s'.outPos = s.outPos + m.length ∧
          CopiesHistory reference m.distance m.length s.outPos s'.output ∧
          SymbolPoint.ReadsMatch ⟨trees, blockEnd, s⟩ m ∧
          ∀ m', SymbolPoint.ReadsMatch ⟨trees, blockEnd, s⟩ m' → m' = m) := by
  unfold decodeSymbol at hrun
  obtain ⟨⟨token, r⟩, htoken, hrun⟩ := bind_eq_ok.mp hrun
  obtain ⟨s₁, hwrite, hrun⟩ := bind_eq_ok.mp hrun
  cases hrun
  obtain ⟨houtPos, houtput⟩ := s₁.realign_output
  rw [houtPos, houtput]
  cases token with
  | literal symbol =>
    unfold Decoder.write at hwrite
    dsimp only at hwrite
    split at hwrite
    · cases hwrite
    cases hwrite
    refine ⟨fun i hi => List.getElem?_set_ne (Nat.ne_of_gt hi), .inl ⟨rfl, ?_⟩⟩
    rintro m ⟨r', hmatch⟩
    rw [htoken] at hmatch
    cases hmatch
  | copy m =>
    unfold Decoder.write at hwrite
    dsimp only at hwrite
    split at hwrite
    · cases hwrite
    split at hwrite
    · cases hwrite
    next result hcopy =>
    cases hwrite
    obtain ⟨hhistory, hkept⟩ := copyMatch_spec hcopy
    refine ⟨hkept, .inr ⟨m, rfl, hhistory, ⟨r, htoken⟩, ?_⟩⟩
    rintro m' ⟨r', hmatch⟩
    rw [htoken] at hmatch
    cases hmatch
    rfl

/-- **The matches of a block copy the history**, as the result has it. -/
theorem decodeBlock_history {result : List UInt8} {b b' : Decoder}
    (hrun : decodeBlock reference b = .ok b') (hkept : Kept result b') :
    Kept result b ∧ ∀ p ∈ blockSymbols reference b, ∀ m, p.ReadsMatch m →
      CopiesHistory reference m.distance m.length p.state.outPos result := by
  obtain ⟨r, s₁, hsize, hfits, -, rfl, hbody⟩ := decodeBlock_cases hrun
  obtain ⟨houtPos, houtput⟩ := s₁.realign_output
  have hkept₁ : Kept result s₁ := by
    unfold Kept at hkept ⊢
    rw [houtPos, houtput] at hkept
    exact hkept
  rcases hbody with ⟨hstored, hsymbols⟩ | ⟨aligned, trees, start, hstart, hsymbolsRun, hsymbols⟩
  · rw [hsymbols]
    refine ⟨fun i hi => ?_, fun p hp => absurd hp List.not_mem_nil⟩
    unfold decodeUncompressed at hstored
    obtain ⟨⟨⟨offsets, payload⟩, r'⟩, hread, hstored⟩ := bind_eq_ok.mp hstored
    cases hstored
    rw [hkept₁ i (Nat.lt_add_right _ hi)]
    dsimp only
    rw [List.append_assoc, List.getElem?_append_left (by rw [List.length_take]; omega),
      List.getElem?_take_of_lt hi]
  · obtain ⟨mainLengths, lengthLengths, r', -, rfl⟩ := startHuffman_spec hstart
    obtain ⟨hkept₀, hmatches⟩ := rounds_induct (Q := fun s l => Kept result s ∧
      ∀ x ∈ l, ∀ m, SymbolPoint.ReadsMatch ⟨trees, b.outPos + declaredSize b, x⟩ m →
        CopiesHistory reference m.distance m.length x.outPos result)
      ⟨hkept₁, fun x hx => absurd hx List.not_mem_nil⟩
      (fun s s₂ rest _ hstep hrest => by
        obtain ⟨hkept₂, hrest⟩ := hrest
        obtain ⟨hbefore, htoken⟩ :=
          decodeSymbol_writes (b.outPos + declaredSize b) hstep
        have hadvance := (decodeSymbol_advances hstep).1
        refine ⟨fun i hi => (hkept₂ i (hi.trans hadvance)).trans (hbefore i hi),
          List.forall_mem_cons.mpr ⟨fun m hm => ?_, hrest⟩⟩
        rcases htoken with ⟨-, hliteral⟩ | ⟨m', houtPos', hhistory, -, hunique⟩
        · exact absurd hm (hliteral m)
        · cases hunique m hm
          exact hhistory.congr (houtPos' ▸ hkept₂)) hsymbolsRun
    refine ⟨hkept₀, ?_⟩
    rw [hsymbols]
    exact List.forall_mem_map.mpr hmatches

/-! ### Sizes -/

/-- The matches that are read here end inside the block. -/
def SymbolPoint.Fits (p : SymbolPoint) : Prop :=
  ∀ m, p.ReadsMatch m → p.state.outPos + m.length ≤ p.blockEnd

/-- **A block gives exactly its declared bytes where its matches fit.** -/
theorem decodeBlock_exact {b b' : Decoder} (hrun : decodeBlock reference b = .ok b') :
    b'.outPos = b.outPos + declaredSize b ↔ ∀ p ∈ blockSymbols reference b, p.Fits := by
  obtain ⟨r, s₁, hsize, hfits, -, rfl, hbody⟩ := decodeBlock_cases hrun
  rw [s₁.realign_output.1]
  rcases hbody with ⟨hstored, hsymbols⟩ | ⟨aligned, trees, start, hstart, hsymbolsRun, hsymbols⟩
  · rw [hsymbols]
    refine ⟨fun _ p hp => absurd hp List.not_mem_nil, fun _ => ?_⟩
    exact (decodeUncompressed_advances (s := { b with reader := r }) hfits hstored).1
  obtain ⟨mainLengths, lengthLengths, r', -, rfl⟩ := startHuffman_spec hstart
  have hend := (decodeSymbols_advances
    (s := { b with reader := r', mainLengths, lengthLengths })
    ((Nat.le_add_right _ _).trans hfits) (Nat.add_sub_cancel_left _ _).le hsymbolsRun).1
  obtain ⟨-, hrounds⟩ := rounds_induct (Q := fun s l => s.outPos ≤ s₁.outPos ∧
      (s.outPos ≤ b.outPos + declaredSize b →
        (s₁.outPos ≤ b.outPos + declaredSize b ↔
          ∀ x ∈ l, SymbolPoint.Fits ⟨trees, b.outPos + declaredSize b, x⟩)))
    ⟨Nat.le_refl _, fun hle => ⟨fun _ x hx => absurd hx List.not_mem_nil, fun _ => hle⟩⟩
    (fun s s₂ rest hc hstep hrest => by
      obtain ⟨hle, hrest⟩ := hrest
      have hadvance := (decodeSymbol_advances hstep).1
      refine ⟨hadvance.le.trans hle, fun _ => ?_⟩
      obtain ⟨-, htoken⟩ := decodeSymbol_writes (b.outPos + declaredSize b) hstep
      rw [List.forall_mem_cons]
      rw [decide_eq_true_eq] at hc
      rcases htoken with ⟨hone, hliteral⟩ | ⟨m, hlength, -, hmatch, hunique⟩
      · rw [hrest (by omega)]
        exact ⟨fun h => ⟨fun m hm => absurd hm (hliteral m), h⟩, And.right⟩
      · constructor
        · intro hinside
          refine ⟨fun m' hm' => ?_, (hrest (by omega)).mp hinside⟩
          rw [hunique m' hm', ← hlength]
          exact hle.trans hinside
        · rintro ⟨hfit, hall⟩
          exact (hrest (hlength ▸ hfit m hmatch)).mpr hall) hsymbolsRun
  rw [hsymbols, List.forall_mem_map, ← hrounds (Nat.le_add_right _ _)]
  exact ⟨le_of_eq, fun hle => le_antisymm hle hend⟩

/-! ### Streams -/

/-- No match of the stream is longer than what is left of its block. -/
def MatchesFit (compressed : List UInt8) (windowBits : ℕ) (reference output : List UInt8) :
    Prop :=
  ∀ b ∈ blocks compressed windowBits reference output, ∀ p ∈ blockSymbols reference b, p.Fits

/-- The blocks of a stream that decodes to `result` are self-contained. -/
structure SelfContained (compressed : List UInt8) (windowBits : ℕ)
    (reference output result : List UInt8) : Prop where
  /-- The declared sizes add up to the output. -/
  sizes : ((blocks compressed windowBits reference output).map declaredSize).sum = result.length
  /-- Each block gives its declared bytes. -/
  exact : ∀ b ∈ blocks compressed windowBits reference output, ∀ b',
    decodeBlock reference b = .ok b' → b'.outPos = b.outPos + declaredSize b
  /-- A match copies bytes of the reference or of the output before it. -/
  history : ∀ b ∈ blocks compressed windowBits reference output,
    ∀ p ∈ blockSymbols reference b, ∀ m, p.ReadsMatch m →
      CopiesHistory reference m.distance m.length p.state.outPos result
  /-- What is read after a chunk of output starts a word. -/
  aligned : ((blocks compressed windowBits reference output).flatMap (readings reference)).IsChain
    AlignedPast

/-- **The blocks of an accepted stream are self-contained exactly when no match
is longer than what is left of its block.** -/
theorem selfContained_iff {compressed reference output result : List UInt8} {windowBits : ℕ}
    (h : decode compressed windowBits reference output = .ok result) :
    SelfContained compressed windowBits reference output result ↔
      MatchesFit compressed windowBits reference output := by
  obtain ⟨s', hrun, rfl⟩ : ∃ s', decodeBlocks reference (.init compressed windowBits output) =
      .ok s' ∧ s'.output = result := by
    unfold decode decodeRun at h
    split at h
    · cases h
    cases hrun : decodeBlocks reference (.init compressed windowBits output) with
    | error e =>
      rw [hrun] at h
      cases h
    | ok s' =>
      rw [hrun] at h
      exact ⟨s', rfl, Except.ok.inj h⟩
  obtain ⟨hfull, hsize⟩ := decodeBlocks_fills (Nat.zero_le _) hrun
  have haligned := aligned_past hrun
  unfold decodeBlocks at hrun
  obtain ⟨-, hhistory⟩ := rounds_induct (Q := fun s l => Kept s'.output s ∧
      ∀ b ∈ l, ∀ p ∈ blockSymbols reference b, ∀ m, p.ReadsMatch m →
        CopiesHistory reference m.distance m.length p.state.outPos s'.output)
    ⟨fun _ _ => rfl, fun b hb => absurd hb List.not_mem_nil⟩
    (fun s s₁ rest _ hbody hrest => by
      obtain ⟨hkept, hblock⟩ := decodeBlock_history hbody hrest.1
      exact ⟨hkept, List.forall_mem_cons.mpr ⟨hblock, hrest.2⟩⟩) hrun
  have hexact := rounds_induct (Q := fun s l =>
      ((∀ b ∈ l, ∀ b', decodeBlock reference b = .ok b' → b'.outPos = b.outPos + declaredSize b) ↔
        ∀ b ∈ l, ∀ p ∈ blockSymbols reference b, p.Fits) ∧
      ((∀ b ∈ l, ∀ p ∈ blockSymbols reference b, p.Fits) →
        s.outPos + (l.map declaredSize).sum = s'.outPos))
    ⟨⟨fun _ b hb => absurd hb List.not_mem_nil, fun _ b hb => absurd hb List.not_mem_nil⟩,
      fun _ => rfl⟩
    (fun s s₁ rest _ hbody hrest => by
      obtain ⟨hiff, hsum⟩ := hrest
      have hblock := decodeBlock_exact hbody
      refine ⟨?_, fun hall => ?_⟩
      · rw [List.forall_mem_cons, List.forall_mem_cons, hiff, ← hblock]
        refine and_congr_left fun _ => ⟨fun h => h s₁ hbody, fun h b' hb' => ?_⟩
        rw [hbody] at hb'
        cases hb'
        exact h
      · rw [List.forall_mem_cons] at hall
        have hrest := hsum hall.2
        rw [hblock.mpr hall.1] at hrest
        rw [List.map_cons, List.sum_cons, ← Nat.add_assoc]
        exact hrest) hrun
  constructor
  · intro hself
    exact hexact.1.mp hself.exact
  · intro hfit
    refine ⟨?_, hexact.1.mpr hfit, hhistory, haligned⟩
    have hsum := hexact.2 hfit
    rw [← hsize] at hfull
    rw [← hfull, ← hsum]
    exact (Nat.zero_add _).symm

/-- **The blocks of a stored stream are self-contained.** -/
theorem selfContained_stored : SelfContained storedStream 15 [] [0, 0] [0xab, 0xcd] := by
  refine (selfContained_iff (by decide)).mpr fun b hb p hp => ?_
  have hnone : (blocks storedStream 15 [] [0, 0]).all
      (fun b => (blockSymbols [] b).isEmpty) = true := by decide
  rw [List.isEmpty_iff.mp (List.all_eq_true.mp hnone b hb)] at hp
  exact absurd hp List.not_mem_nil

/-- A verbatim block of two bytes: the literal 0, then a match of two bytes. -/
def overrunStream : List UInt8 :=
  [0, 32, 64, 0, 0, 0, 0, 0, 0, 0, 2, 0, 15, 2, 255, 255, 192, 255, 0, 0, 0, 0, 0, 0, 4, 0, 31, 4,
    255, 255, 128, 247, 0, 0, 0, 0, 0, 0, 0, 0, 62, 8, 239, 251, 128, 178]

/-- **A match that runs past the end of its block is accepted** where the buffer
has room for it: the block declares two bytes and gives three. -/
theorem decode_overruns_block :
    ¬∀ (compressed reference output result : List UInt8) (windowBits : ℕ),
      decode compressed windowBits reference output = .ok result →
        SelfContained compressed windowBits reference output result := by
  intro h
  have hself := h overrunStream [] [0, 0, 0] [0, 0, 0] 15 (by decide +kernel)
  have hsizes : ((blocks overrunStream 15 [] [0, 0, 0]).map declaredSize).sum = 2 := by
    decide +kernel
  exact absurd (hsizes.symm.trans hself.sizes) (by decide)

end Lzx
end Xex
end XenonRecomp
