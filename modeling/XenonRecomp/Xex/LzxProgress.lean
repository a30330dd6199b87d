/-
# The progress of the LZX decoder

Every symbol and every block moves the write position forward, inside the
buffer, whose size stays.  So the fuel of the loops is never used up: a block
ends because its end is reached, and a stream because the buffer is full.
-/

import Mathlib.Order.Nat
import XenonRecomp.Xex.LzxReads

namespace XenonRecomp
namespace Xex
namespace Lzx

open Library.Loop

/-! ### Symbols -/

/-- How many bytes a token writes. -/
def Token.length : Token → ℕ
  | .literal _ => 1
  | .copy m => m.length

/-- A token writes something. -/
theorem readToken_length {trees : BlockTrees} {offsets : ℕ × ℕ × ℕ} {token : Token}
    {r r' : BitReader} (h : readToken trees offsets r = .ok (token, r')) : 0 < token.length := by
  unfold readToken at h
  obtain ⟨symbol, r₁, -, h⟩ := bind_ok.mp h
  split at h
  · cases h
    exact Nat.one_pos
  obtain ⟨m, r₂, hmatch, h⟩ := bind_ok.mp h
  cases h
  unfold readMatch at hmatch
  obtain ⟨length, r₃, hlength, hmatch⟩ := bind_ok.mp hmatch
  obtain ⟨⟨distance, offsets'⟩, r₄, -, hmatch⟩ := bind_ok.mp hmatch
  obtain ⟨ended, r₅, -, hmatch⟩ := bind_ok.mp hmatch
  have hpos : 0 < length := by
    unfold readLength at hlength
    split at hlength
    · obtain ⟨symbol', r₆, -, hlength⟩ := bind_ok.mp hlength
      obtain ⟨rfl, -⟩ := Prod.mk.inj (Except.ok.inj hlength)
      exact Nat.lt_of_lt_of_le (by decide : 0 < kMinMatchLength + 7) (Nat.le_add_right _ _)
    · obtain ⟨rfl, -⟩ := Prod.mk.inj (Except.ok.inj hlength)
      exact Nat.lt_of_lt_of_le (by decide : 0 < kMinMatchLength) (Nat.le_add_right _ _)
  cases ended with
  | true => cases hmatch
  | false =>
    cases hmatch
    exact hpos

theorem copyMatch_length {reference : List UInt8} {distance : ℕ} :
    ∀ {length position : ℕ} {output result : List UInt8},
      copyMatch reference distance length position output = some result →
        result.length = output.length := by
  intro length
  induction length with
  | zero =>
    intro position output result h
    cases h
    rfl
  | succ length ih =>
    intro position output result h
    simp only [copyMatch] at h
    split_ifs at h <;> simpa using ih h

namespace Decoder

variable {s s' : Decoder} {reference : List UInt8} {token : Token}

/-- What a write changes. -/
theorem write_spec (h : s.write reference token = .ok s') :
    s'.outPos = s.outPos + token.length ∧ s'.outPos ≤ s.output.length ∧
      s'.output.length = s.output.length ∧ s'.reader = s.reader ∧
      s'.nextChunkBoundary = s.nextChunkBoundary := by
  cases token with
  | literal symbol =>
    unfold Decoder.write at h
    dsimp only at h
    split at h
    · cases h
    · next hfits =>
      cases h
      exact ⟨rfl, not_le.mp hfits, by simp, rfl, rfl⟩
  | copy m =>
    unfold Decoder.write at h
    dsimp only at h
    split at h
    · cases h
    next hfits =>
    split at h
    · cases h
    next result hcopy =>
    cases h
    exact ⟨rfl, not_lt.mp hfits, copyMatch_length hcopy, rfl, rfl⟩

/-- A realignment leaves the output alone. -/
theorem realign_output (s : Decoder) :
    s.realign.outPos = s.outPos ∧ s.realign.output = s.output := by
  unfold Decoder.realign
  refine whileDo_keeps (I := fun x : Decoder => x.outPos = s.outPos ∧ x.output = s.output)
    (fun x hx _ => ?_) ⟨rfl, rfl⟩
  exact ⟨hx.1, hx.2⟩

end Decoder

variable {s s' : Decoder} {reference : List UInt8}

/-- The position moves forward, and the size of the buffer stays. -/
def Advances (s s' : Decoder) : Prop :=
  s.outPos < s'.outPos ∧ s'.outPos ≤ s.output.length ∧ s'.output.length = s.output.length

theorem decodeSymbol_advances {trees : BlockTrees} (h : decodeSymbol reference trees s = .ok s') :
    Advances s s' := by
  unfold decodeSymbol at h
  obtain ⟨⟨token, r⟩, htoken, h⟩ := bind_eq_ok.mp h
  obtain ⟨s₁, hwrite, h⟩ := bind_eq_ok.mp h
  cases h
  obtain ⟨hpos, hle, hlength, -⟩ := Decoder.write_spec hwrite
  obtain ⟨houtPos, houtput⟩ := s₁.realign_output
  have htokenPos := readToken_length htoken
  dsimp only at hpos hle hlength
  refine ⟨?_, ?_, ?_⟩
  · rw [houtPos, hpos]
    exact Nat.lt_add_of_pos_right htokenPos
  · rw [houtPos]
    exact hle
  · rw [houtput]
    exact hlength

/-! ### Blocks -/

/-- The decoder at the first symbol has written nothing yet. -/
theorem startHuffman_spec {aligned : Bool} {trees : BlockTrees} {start : Decoder}
    (h : startHuffman aligned s = .ok (trees, start)) :
    ∃ mainLengths lengthLengths r,
      readTrees aligned s.mainTreeSize s.mainLengths s.lengthLengths s.reader =
        .ok ((trees, mainLengths, lengthLengths), r) ∧
      start = { s with reader := r, mainLengths, lengthLengths } := by
  unfold startHuffman at h
  obtain ⟨⟨⟨trees', mainLengths, lengthLengths⟩, r⟩, htrees, h⟩ := bind_eq_ok.mp h
  cases h
  exact ⟨mainLengths, lengthLengths, r, htrees, rfl⟩

/-- The loop over the symbols of a block ends because the end of the block is
reached. -/
theorem decodeSymbols_advances {trees : BlockTrees} {blockEnd blockSize : ℕ}
    (hfits : s.outPos ≤ s.output.length) (hfuel : blockEnd - s.outPos ≤ blockSize)
    (h : decodeSymbols reference trees blockEnd blockSize s = .ok s') :
    blockEnd ≤ s'.outPos ∧ s'.outPos ≤ s.output.length ∧ s'.output.length = s.output.length := by
  unfold decodeSymbols at h
  have hdone := whileM_done (fun x : Decoder => blockEnd - x.outPos)
    (fun x hx => Nat.sub_pos_of_lt (of_decide_eq_true hx))
    (fun x x' hx hstep => Nat.sub_lt_sub_left (of_decide_eq_true hx)
      (decodeSymbol_advances hstep).1) hfuel h
  refine ⟨not_lt.mp (of_decide_eq_false hdone), whileM_keeps
    (I := fun x : Decoder => x.outPos ≤ s.output.length ∧ x.output.length = s.output.length)
    (fun x x' hx _ hstep => ?_) ⟨hfits, rfl⟩ h⟩
  obtain ⟨-, hle, hlength⟩ := decodeSymbol_advances hstep
  exact ⟨hx.2 ▸ hle, hlength.trans hx.2⟩

/-- **A block gives its declared bytes at least.** -/
theorem decodeHuffman_advances {aligned : Bool} {blockSize : ℕ}
    (hfits : s.outPos + blockSize ≤ s.output.length)
    (h : decodeHuffman reference aligned blockSize s = .ok s') :
    s.outPos + blockSize ≤ s'.outPos ∧ s'.outPos ≤ s.output.length ∧
      s'.output.length = s.output.length := by
  unfold decodeHuffman at h
  obtain ⟨⟨trees, start⟩, hstart, h⟩ := bind_eq_ok.mp h
  obtain ⟨mainLengths, lengthLengths, r, -, rfl⟩ := startHuffman_spec hstart
  exact decodeSymbols_advances (s := { s with reader := r, mainLengths, lengthLengths })
    ((Nat.le_add_right _ _).trans hfits) (Nat.add_sub_cancel_left _ _).le h

theorem readUncompressed_length {blockSize : ℕ} {r r' : BitReader} {offsets : ℕ × ℕ × ℕ}
    {payload : List UInt8} (h : readUncompressed blockSize r = .ok ((offsets, payload), r')) :
    payload.length = blockSize := by
  unfold readUncompressed at h
  iterate 4
    obtain ⟨_, _, -, h⟩ := bind_ok.mp h
  obtain ⟨bytes, r₄, hraw, h⟩ := bind_ok.mp h
  cases h
  unfold readRaw BitReader.readRawBytes at hraw
  split at hraw
  · next hbytes =>
    split at hbytes
    · cases hbytes
    · cases hbytes
      cases hraw
      simp only [List.length_take, List.length_drop]
      omega
  · cases hraw

/-- An uncompressed block gives its declared bytes. -/
theorem decodeUncompressed_advances {blockSize : ℕ}
    (hfits : s.outPos + blockSize ≤ s.output.length)
    (h : decodeUncompressed blockSize s = .ok s') :
    s'.outPos = s.outPos + blockSize ∧ s'.output.length = s.output.length := by
  unfold decodeUncompressed at h
  obtain ⟨⟨⟨offsets, payload⟩, r⟩, hread, h⟩ := bind_eq_ok.mp h
  cases h
  have hpayload := readUncompressed_length hread
  refine ⟨rfl, ?_⟩
  simp only [List.length_append, List.length_take, List.length_drop]
  omega

theorem decodeBody_advances {blockType blockSize : ℕ}
    (h : decodeBody reference blockType blockSize s = .ok s') :
    0 < blockSize ∧ s.outPos + blockSize ≤ s'.outPos ∧ s'.outPos ≤ s.output.length ∧
      s'.output.length = s.output.length := by
  unfold decodeBody at h
  split at h
  · cases h
  next hsize =>
  have hpos : 0 < blockSize := Nat.pos_of_ne_zero fun hzero => hsize (.inl hzero)
  have hfits : s.outPos + blockSize ≤ s.output.length :=
    not_lt.mp fun hlong => hsize (.inr hlong)
  refine ⟨hpos, ?_⟩
  split at h
  · obtain ⟨hend, hlength⟩ := decodeUncompressed_advances hfits h
    exact ⟨hend.ge, hend.trans_le hfits, hlength⟩
  split at h
  · exact decodeHuffman_advances hfits h
  · cases h

/-- **A block moves the position forward.** -/
theorem decodeBlock_advances (h : decodeBlock reference s = .ok s') : Advances s s' := by
  unfold decodeBlock at h
  obtain ⟨⟨⟨blockType, blockSize⟩, r⟩, -, h⟩ := bind_eq_ok.mp h
  obtain ⟨s₁, hbody, h⟩ := bind_eq_ok.mp h
  cases h
  obtain ⟨hpos, hend, hle, hlength⟩ := decodeBody_advances hbody
  obtain ⟨houtPos, houtput⟩ := s₁.realign_output
  dsimp only at hend hle hlength
  refine ⟨?_, ?_, ?_⟩
  · rw [houtPos]
    omega
  · rw [houtPos]
    exact hle
  · rw [houtput]
    exact hlength

/-- **A stream that is accepted fills the buffer.** -/
theorem decodeBlocks_fills (hle : s.outPos ≤ s.output.length)
    (h : decodeBlocks reference s = .ok s') :
    s'.outPos = s.output.length ∧ s'.output.length = s.output.length := by
  unfold decodeBlocks at h
  have hdone := whileM_done (fun x : Decoder => x.output.length - x.outPos)
    (fun x hx => Nat.sub_pos_of_lt (of_decide_eq_true hx))
    (fun x x' hx hstep => by
      obtain ⟨hlt, -, hlength⟩ := decodeBlock_advances hstep
      rw [hlength]
      exact Nat.sub_lt_sub_left (of_decide_eq_true hx) hlt) (Nat.sub_le _ _) h
  obtain ⟨hle', hlength⟩ := whileM_keeps
    (I := fun x : Decoder => x.outPos ≤ s.output.length ∧ x.output.length = s.output.length)
    (fun x x' hx _ hstep => by
      obtain ⟨-, hle, hlength⟩ := decodeBlock_advances hstep
      exact ⟨hx.2 ▸ hle, hlength.trans hx.2⟩) ⟨hle, rfl⟩ h
  have hge := not_lt.mp (of_decide_eq_false hdone)
  exact ⟨by omega, hlength⟩

end Lzx
end Xex
end XenonRecomp
