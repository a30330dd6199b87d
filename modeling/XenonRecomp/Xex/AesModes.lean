/-
# AES-128 in chained blocks

`aes128_cbc_encrypt`, `aes128_cbc_decrypt` and `unwrap_image_key` of xex_crypto.cpp.
A message is a list of bytes that the loops take sixteen at a time; on a message of
whole blocks they are the chained mode of `Library.BlockModes`, so that decryption
gives the message back (`aes128Cbc_roundTrip`).  `aes128_cbc_decrypt` has its own copy
of the rounds of `aes128_decrypt_block`.
-/

import XenonRecomp.Xex.AesBlock

namespace XenonRecomp
namespace Xex
namespace Crypto

open Library

/-- The sixteen bytes that `memcpy` takes from the start of what is left. -/
def loadBlock (bytes : List UInt8) : Block := Vector.ofFn fun i => bytes.getD i 0

/-- `block[i] ^= iv[i]`. -/
def xorBlock (block iv : Block) : Block := Vector.ofFn fun i => block.get i ^^^ iv.get i

/-- The vector at the start: sixteen zeros. -/
def zeroIv : Block := Vector.replicate 16 0

/-- The loop of `aes128_cbc_encrypt`, with what is left of the input; it ends at less than
a block. -/
def cbcEncryptLoop (key iv : Block) (input : List UInt8) : List UInt8 :=
  if _h : 16 ≤ input.length then
    let cipher := aes128EncryptBlock key (xorBlock (loadBlock input) iv)
    cipher.toList ++ cbcEncryptLoop key cipher (input.drop 16)
  else []
termination_by input.length
decreasing_by simp; omega

/-- `aes128_cbc_encrypt`: the output buffer after it, whose bytes beyond the last block
stay. -/
def aes128CbcEncrypt (key : Block) (input output : List UInt8) : List UInt8 :=
  let written := cbcEncryptLoop key zeroIv input
  written ++ output.drop written.length

/-- The rounds of `aes128_cbc_decrypt`, its copy of those of `aes128_decrypt_block`. -/
def cbcDecryptRounds (rk : RoundKeys) (cipherBlock : Block) : Block :=
  let state := BlockModes.unrounds
    (fun round state => invMixColumns (addRoundKey rk round (subBytes invSbox (invShiftRows state))))
    (kNr - 1) (addRoundKey rk kNr cipherBlock)
  addRoundKey rk 0 (subBytes invSbox (invShiftRows state))

/-- The loop of `aes128_cbc_decrypt`. -/
def cbcDecryptLoop (rk : RoundKeys) (iv : Block) (input : List UInt8) : List UInt8 :=
  if _h : input ≠ [] then
    let cipherBlock := loadBlock input
    (xorBlock (cbcDecryptRounds rk cipherBlock) iv).toList ++
      cbcDecryptLoop rk cipherBlock (input.drop 16)
  else []
termination_by input.length
decreasing_by
  have := List.length_pos_iff.mpr _h
  simp
  omega

/-- `aes128_cbc_decrypt`: the answer and the output buffer. -/
def aes128CbcDecrypt (key : Block) (input output : List UInt8) : Bool × List UInt8 :=
  if input.length % 16 ≠ 0 ∨ input.length ≠ output.length then (false, output)
  else (true, cbcDecryptLoop (expandKey key) zeroIv input)

/-- `unwrap_image_key`. -/
def unwrapImageKey (wrappingKey encryptedImageKey : Block) : Block :=
  aes128DecryptBlock wrappingKey encryptedImageKey

/-! ### The loops on whole blocks -/

theorem cbcDecryptRounds_expandKey (key cipherBlock : Block) :
    cbcDecryptRounds (expandKey key) cipherBlock = aes128DecryptBlock key cipherBlock := rfl

theorem loadBlock_append (block : Block) (rest : List UInt8) :
    loadBlock (block.toList ++ rest) = block := by
  refine block_ext fun i => ?_
  have hi : i.val < block.toList.length := by
    rw [Vector.length_toList]
    exact i.isLt
  rw [loadBlock, get_ofFn, List.getD_eq_getElem?_getD, List.getElem?_append_left hi,
    List.getElem?_eq_getElem hi]
  rfl

theorem drop_append_block (block : Block) (rest : List UInt8) :
    (block.toList ++ rest).drop 16 = rest := by
  rw [List.drop_append_of_le_length (by simp)]
  simp

theorem toList_loadBlock (bytes : List UInt8) (h : 16 ≤ bytes.length) :
    (loadBlock bytes).toList = bytes.take 16 := by
  refine List.ext_getElem ?_ fun i hi hi' => ?_
  · rw [Vector.length_toList, List.length_take, Nat.min_eq_left h]
  · have hlt : i < bytes.length := by
      rw [List.length_take] at hi'
      omega
    simp [loadBlock, hlt]

/-- A message of whole blocks. -/
def ofBlocks (blocks : List Block) : List UInt8 := blocks.flatMap Vector.toList

theorem ofBlocks_cons (block : Block) (blocks : List Block) :
    ofBlocks (block :: blocks) = block.toList ++ ofBlocks blocks := rfl

theorem length_ofBlocks (blocks : List Block) : (ofBlocks blocks).length = 16 * blocks.length := by
  induction blocks with
  | nil => rfl
  | cons block blocks ih =>
      rw [ofBlocks_cons, List.length_append, ih, Vector.length_toList, List.length_cons]
      omega

/-- A message whose length is a multiple of sixteen is one of whole blocks. -/
theorem exists_ofBlocks (n : ℕ) (message : List UInt8) (h : message.length = 16 * n) :
    ∃ blocks, message = ofBlocks blocks := by
  induction n generalizing message with
  | zero => exact ⟨[], List.length_eq_zero_iff.mp (by omega)⟩
  | succ n ih =>
      obtain ⟨blocks, hblocks⟩ := ih (message.drop 16) (by rw [List.length_drop]; omega)
      refine ⟨loadBlock message :: blocks, ?_⟩
      rw [ofBlocks_cons, ← hblocks, toList_loadBlock message (by omega), List.take_append_drop]

theorem cbcEncryptLoop_ofBlocks (key iv : Block) (blocks : List Block) :
    cbcEncryptLoop key iv (ofBlocks blocks) =
      ofBlocks (BlockModes.cbcEncrypt xorBlock (aes128EncryptBlock key) iv blocks) := by
  induction blocks generalizing iv with
  | nil => simp [ofBlocks, cbcEncryptLoop, BlockModes.cbcEncrypt]
  | cons block blocks ih =>
      rw [cbcEncryptLoop, dif_pos (by rw [length_ofBlocks, List.length_cons]; omega)]
      dsimp only
      rw [ofBlocks_cons, loadBlock_append, drop_append_block, ih]
      rfl

theorem cbcDecryptLoop_ofBlocks (key iv : Block) (blocks : List Block) :
    cbcDecryptLoop (expandKey key) iv (ofBlocks blocks) =
      ofBlocks (BlockModes.cbcDecrypt xorBlock (aes128DecryptBlock key) iv blocks) := by
  induction blocks generalizing iv with
  | nil => simp [ofBlocks, cbcDecryptLoop, BlockModes.cbcDecrypt]
  | cons block blocks ih =>
      have hne : ofBlocks (block :: blocks) ≠ [] := by
        rw [← List.length_pos_iff, length_ofBlocks, List.length_cons]
        omega
      rw [cbcDecryptLoop, dif_pos hne]
      dsimp only
      rw [ofBlocks_cons, loadBlock_append, drop_append_block, ih, cbcDecryptRounds_expandKey]
      rfl

theorem length_cbcEncrypt (key iv : Block) (blocks : List Block) :
    (BlockModes.cbcEncrypt xorBlock (aes128EncryptBlock key) iv blocks).length =
      blocks.length := by
  induction blocks generalizing iv with
  | nil => rfl
  | cons block blocks ih => rw [BlockModes.cbcEncrypt, List.length_cons, List.length_cons, ih]

theorem xorBlock_xorBlock (block iv : Block) : xorBlock (xorBlock block iv) iv = block := by
  refine block_ext fun i => ?_
  rw [xorBlock, xorBlock, get_ofFn, get_ofFn, UInt8.xor_assoc, UInt8.xor_self, UInt8.xor_zero]

/-- **Decryption inverts encryption**: of a message of whole blocks under any key, of one
block, and of the wrapped image key. -/
theorem aes128Cbc_roundTrip (key block : Block) (message output output' : List UInt8)
    (hwhole : message.length % 16 = 0) (hout : output.length = message.length)
    (hout' : output'.length = message.length) :
    aes128CbcDecrypt key (aes128CbcEncrypt key message output) output' = (true, message) ∧
      aes128DecryptBlock key (aes128EncryptBlock key block) = block ∧
      aes128EncryptBlock key (aes128DecryptBlock key block) = block ∧
      unwrapImageKey key (aes128EncryptBlock key block) = block := by
  refine ⟨?_, aes128DecryptBlock_aes128EncryptBlock key block,
    aes128EncryptBlock_aes128DecryptBlock key block,
    aes128DecryptBlock_aes128EncryptBlock key block⟩
  obtain ⟨blocks, rfl⟩ := exists_ofBlocks (message.length / 16) message (by omega)
  have hlength : (ofBlocks (BlockModes.cbcEncrypt xorBlock (aes128EncryptBlock key) zeroIv
      blocks)).length = (ofBlocks blocks).length := by
    rw [length_ofBlocks, length_ofBlocks, length_cbcEncrypt]
  have hencrypt : aes128CbcEncrypt key (ofBlocks blocks) output =
      ofBlocks (BlockModes.cbcEncrypt xorBlock (aes128EncryptBlock key) zeroIv blocks) := by
    rw [aes128CbcEncrypt, cbcEncryptLoop_ofBlocks, hlength, ← hout, List.drop_length, List.append_nil]
  rw [hencrypt, aes128CbcDecrypt, if_neg (by rw [hlength, hout']; omega), cbcDecryptLoop_ofBlocks,
    BlockModes.cbcDecrypt_cbcEncrypt xorBlock_xorBlock (aes128DecryptBlock_aes128EncryptBlock key)]

/-- The key of development kits is all zeros. -/
def devkitKey : Block := Vector.replicate 16 0

theorem aes128Cbc_roundTrip_devkit :
    aes128CbcDecrypt devkitKey (aes128CbcEncrypt devkitKey (List.replicate 32 0x5A)
        (List.replicate 32 0)) (List.replicate 32 0) = (true, List.replicate 32 0x5A) ∧
      aes128DecryptBlock devkitKey (aes128EncryptBlock devkitKey zeroIv) = zeroIv ∧
      aes128EncryptBlock devkitKey (aes128DecryptBlock devkitKey zeroIv) = zeroIv ∧
      unwrapImageKey devkitKey (aes128EncryptBlock devkitKey zeroIv) = zeroIv :=
  aes128Cbc_roundTrip devkitKey zeroIv (List.replicate 32 0x5A) (List.replicate 32 0)
    (List.replicate 32 0) (by decide) (by decide) (by decide)

end Crypto
end Xex
end XenonRecomp
