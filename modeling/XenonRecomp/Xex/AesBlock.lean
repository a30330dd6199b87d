/-
# AES-128 on one block

`gf_mul` … `aes128_decrypt_block` of xex_crypto.cpp, and that decryption undoes
encryption and the other way round.  Every step of a round has an inverse of its
own: the S-box is a permutation because its affine map and the inversion of the
field are undone by computation (`unaffine`, `gfInverse_gfInverse`); the
multiplication is additive, so the two column matrices are inverse to each other
once they are on each byte alone.  Nothing about the key schedule is used.

`std::byte` and `std::uint8_t` are both `UInt8`, so that `load_state` and
`store_state` are the identity.
-/

import Mathlib.Dynamics.PeriodicPts.Defs
import Mathlib.Tactic.IntervalCases
import XenonRecomp.Library.BlockModes

namespace XenonRecomp
namespace Xex
namespace Crypto

open Library

/-! ### The field of 256 elements -/

/-- One doubling inside `gf_mul`. -/
def gfDouble (a : UInt8) : UInt8 := if a &&& 0x80 ≠ 0 then (a <<< 1) ^^^ 0x1B else a <<< 1

/-- The loop of `gf_mul`. -/
def gfMulLoop : ℕ → UInt8 → UInt8 → UInt8 → UInt8
  | 0, result, _, _ => result
  | n + 1, result, a, b =>
      gfMulLoop n (if b &&& 1 ≠ 0 then result ^^^ a else result) (gfDouble a) (b >>> 1)

/-- `gf_mul`. -/
def gfMul (a b : UInt8) : UInt8 := gfMulLoop 8 0 a b

/-- The loop of `gf_inverse`, for an exponent of at most `n` bits. -/
def gfPowLoop : ℕ → ℕ → UInt8 → UInt8 → UInt8
  | 0, _, result, _ => result
  | n + 1, exponent, result, base =>
      if exponent = 0 then result
      else gfPowLoop n (exponent / 2) (if exponent % 2 = 1 then gfMul result base else result)
        (gfMul base base)

/-- `gf_inverse`. -/
def gfInverse (value : UInt8) : UInt8 := if value = 0 then 0 else gfPowLoop 8 254 1 value

/-- A rotation to the left. -/
def rotl (x : UInt8) (n : UInt8) : UInt8 := (x <<< n) ||| (x >>> (8 - n))

/-- The affine map of the S-box. -/
def affine (x : UInt8) : UInt8 := x ^^^ rotl x 1 ^^^ rotl x 2 ^^^ rotl x 3 ^^^ rotl x 4 ^^^ 0x63

/-- A table of 256 bytes. -/
abbrev Table := UInt8 → UInt8

/-- `sbox_tables().sbox`. -/
def sbox : Table := fun i => affine (gfInverse i)

/-- `sbox_tables().inv_sbox`: the loop writes `i` at `sbox[i]`, for `i` from 0 to 255. -/
def invSbox : Table :=
  (List.range 256).foldl
    (fun table i => Function.update table (sbox (UInt8.ofNat i)) (UInt8.ofNat i)) fun _ => 0

theorem forall_byte {P : UInt8 → Prop} (h : ∀ n : Fin 256, P (UInt8.ofNat n)) (a : UInt8) : P a := by
  have := h ⟨a.toNat, a.toNat_lt⟩
  rwa [UInt8.ofNat_toNat] at this

/-! ### The multiplication is additive -/

theorem xor_right_comm (a b c : UInt8) : a ^^^ b ^^^ c = a ^^^ c ^^^ b := by
  rw [UInt8.xor_assoc, UInt8.xor_comm b, ← UInt8.xor_assoc]

theorem xor_xor_xor_comm (a b c d : UInt8) : a ^^^ b ^^^ (c ^^^ d) = a ^^^ c ^^^ (b ^^^ d) := by
  rw [← UInt8.xor_assoc, xor_right_comm a b c, UInt8.xor_assoc (a ^^^ c)]

/-- A mask on both sides goes away. -/
theorem xor_cancel_masks (a b m : UInt8) : a ^^^ m ^^^ (b ^^^ m) = a ^^^ b := by
  rw [xor_xor_xor_comm, UInt8.xor_self, UInt8.xor_zero]

theorem and_bit : ∀ a : UInt8, a &&& 0x80 = 0 ∨ a &&& 0x80 = 0x80 :=
  forall_byte (by set_option maxRecDepth 40000 in decide)

/-- What holds of the nibbles, and of a sum of bytes that it holds of, holds of every byte. -/
theorem xor_induction {P : UInt8 → Prop} (hxor : ∀ a b, P a → P b → P (a ^^^ b))
    (hlow : ∀ n : Fin 16, P (UInt8.ofNat n)) (hhigh : ∀ n : Fin 16, P (UInt8.ofNat (16 * n)))
    (a : UInt8) : P a := by
  have hnibbles : ∀ a : UInt8,
      UInt8.ofNat (16 * (a.toNat / 16)) ^^^ UInt8.ofNat (a.toNat % 16) = a :=
    forall_byte (by set_option maxRecDepth 40000 in decide)
  have hlt := a.toNat_lt
  rw [← hnibbles a]
  exact hxor _ _ (hhigh ⟨a.toNat / 16, by omega⟩) (hlow ⟨a.toNat % 16, by omega⟩)

theorem gfDouble_xor (a b : UInt8) : gfDouble (a ^^^ b) = gfDouble a ^^^ gfDouble b := by
  have hbit : (a ^^^ b) &&& 0x80 = (a &&& 0x80) ^^^ (b &&& 0x80) := by
    rw [← UInt8.toBitVec_inj]
    ext i
    simp [Bool.and_xor_distrib_right]
  unfold gfDouble
  rw [hbit, UInt8.shiftLeft_xor]
  rcases and_bit a with ha | ha <;> rcases and_bit b with hb | hb <;> rw [ha, hb]
  · rfl
  · exact UInt8.xor_assoc _ _ _
  · exact xor_right_comm _ _ _
  · exact (xor_cancel_masks _ _ _).symm

theorem gfMulLoop_xor (n : ℕ) (r r' a a' b : UInt8) :
    gfMulLoop n (r ^^^ r') (a ^^^ a') b = gfMulLoop n r a b ^^^ gfMulLoop n r' a' b := by
  induction n generalizing r r' a a' b with
  | zero => rfl
  | succ n ih =>
      rw [gfMulLoop, gfMulLoop, gfMulLoop, gfDouble_xor, ← ih]
      split
      · rw [xor_xor_xor_comm]
      · rfl

theorem gfMul_xor (a a' b : UInt8) : gfMul (a ^^^ a') b = gfMul a b ^^^ gfMul a' b :=
  gfMulLoop_xor 8 0 0 a a' b

/-! ### The powers of 3

Every byte other than 0 is a power of 3, and the loops add and multiply exponents, so that
inverting twice multiplies an exponent by 254 twice. -/

theorem gfMulLoop_double (n : ℕ) (r a b : UInt8) :
    gfMulLoop n (gfDouble r) (gfDouble a) b = gfDouble (gfMulLoop n r a b) := by
  induction n generalizing r a b with
  | zero => rfl
  | succ n ih =>
      rw [gfMulLoop, gfMulLoop, ← ih]
      split
      · rw [gfDouble_xor]
      · rfl

/-- Three times a byte. -/
def triple (a : UInt8) : UInt8 := gfDouble a ^^^ a

theorem triple_gfMul (a b : UInt8) : gfMul (triple a) b = triple (gfMul a b) := by
  have hdouble : gfMul (gfDouble a) b = gfDouble (gfMul a b) := gfMulLoop_double 8 0 a b
  rw [triple, triple, gfMul_xor, hdouble]

theorem one_gfMul : ∀ b, gfMul 1 b = b :=
  forall_byte (by set_option maxRecDepth 40000 in decide)

theorem zero_gfMul (b : UInt8) : gfMul 0 b = 0 := by
  rw [← UInt8.xor_self (a := 0), gfMul_xor, UInt8.xor_self, UInt8.xor_self]

/-- A power of 3. -/
def power (k : ℕ) : UInt8 := triple^[k] 1

theorem power_succ (k : ℕ) : power (k + 1) = triple (power k) :=
  Function.iterate_succ_apply' triple k 1

theorem gfMul_power (i j : ℕ) : gfMul (power i) (power j) = power (i + j) := by
  induction i with
  | zero =>
      rw [Nat.zero_add]
      exact one_gfMul _
  | succ i ih => rw [Nat.add_right_comm, power_succ, power_succ, triple_gfMul, ih]

theorem gfPowLoop_power (n : ℕ) {exponent : ℕ} (h : exponent < 2 ^ n) (i j : ℕ) :
    gfPowLoop n exponent (power i) (power j) = power (i + exponent * j) := by
  induction n generalizing exponent i j with
  | zero =>
      rw [gfPowLoop, show exponent = 0 by omega, Nat.zero_mul, Nat.add_zero]
  | succ n ih =>
      have hhalf : exponent / 2 < 2 ^ n := by omega
      have hsplit : exponent / 2 * (j + j) + exponent % 2 * j = exponent * j := by
        rw [← Nat.two_mul, ← Nat.mul_assoc, ← Nat.add_mul, Nat.div_add_mod']
      rw [gfPowLoop, gfMul_power, gfMul_power]
      split
      · next hzero => rw [hzero, Nat.zero_mul, Nat.add_zero]
      · rw [← hsplit]
        split
        · next hodd => rw [ih hhalf, hodd, Nat.one_mul, Nat.add_assoc, Nat.add_comm j]
        · next heven =>
            rw [ih hhalf, show exponent % 2 = 0 by omega, Nat.zero_mul, Nat.add_zero]

theorem power_eq (exponent : ℕ) (h : exponent < 2 ^ 8) :
    power exponent = gfPowLoop 8 exponent 1 3 := by
  have hloop := gfPowLoop_power 8 h 0 1
  rw [Nat.zero_add, Nat.mul_one] at hloop
  exact hloop.symm

theorem power_period : Function.IsPeriodicPt triple 255 1 := by
  refine (power_eq 255 (by decide)).trans ?_
  set_option maxRecDepth 40000 in decide

/-- The order of 3 is no smaller than 255. -/
theorem minimalPeriod_triple : Function.minimalPeriod triple 1 = 255 := by
  have hshort : ∀ k < 255, k ∣ 255 → ¬ Function.IsPeriodicPt triple k 1 := by
    have hpower : ∀ k, Function.IsPeriodicPt triple k 1 ↔ power k = 1 := fun k => Iff.rfl
    have h85 : power 85 ≠ 1 := power_eq 85 (by decide) ▸ by set_option maxRecDepth 40000 in decide
    have h51 : power 51 ≠ 1 := power_eq 51 (by decide) ▸ by set_option maxRecDepth 40000 in decide
    have h15 : power 15 ≠ 1 := power_eq 15 (by decide) ▸ by decide
    intro k hlt hdvd hperiod
    have hlarge : k ∣ 85 ∨ k ∣ 51 ∨ k ∣ 15 := by
      revert k
      set_option maxRecDepth 40000 in decide
    rcases hlarge with h | h | h
    · exact h85 (hperiod.trans_dvd h)
    · exact h51 (hperiod.trans_dvd h)
    · exact h15 (hperiod.trans_dvd h)
  have hdvd := power_period.minimalPeriod_dvd
  by_contra hne
  exact hshort _ (lt_of_le_of_ne (Nat.le_of_dvd (by decide) hdvd) hne) hdvd
    (Function.isPeriodicPt_minimalPeriod triple 1)

theorem power_ne_zero (k : ℕ) : power k ≠ 0 := by
  intro hzero
  have hproduct : gfMul (power k) (power (254 * k)) = 1 := by
    rw [gfMul_power, show k + 254 * k = k * 255 by omega]
    exact power_period.const_mul k
  rw [hzero, zero_gfMul] at hproduct
  exact absurd hproduct (by decide)

/-- A byte other than 0 is a power of 3. -/
theorem exists_power {x : UInt8} (hx : x ≠ 0) : ∃ k, power k = x := by
  have hinjective : Set.InjOn (fun k => (power k).toNat) (Finset.range 255) := by
    intro i hi j hj h
    rw [Finset.coe_range, ← minimalPeriod_triple] at hi hj
    exact Function.iterate_injOn_Iio_minimalPeriod hi hj (UInt8.toNat_inj.mp h)
  have hnonzero : ∀ y : UInt8, y ≠ 0 → y.toNat ∈ (Finset.range 256).erase 0 := fun y hy =>
    Finset.mem_erase.mpr
      ⟨fun h => hy (UInt8.toNat_inj.mp h), Finset.mem_range.mpr y.toNat_lt⟩
  have hrange : (Finset.range 255).image (fun k => (power k).toNat) = (Finset.range 256).erase 0 := by
    refine Finset.eq_of_subset_of_card_le (fun n hn => ?_) ?_
    · obtain ⟨k, -, rfl⟩ := Finset.mem_image.mp hn
      exact hnonzero _ (power_ne_zero k)
    · rw [Finset.card_image_of_injOn hinjective, Finset.card_range,
        Finset.card_erase_of_mem (Finset.mem_range.mpr (by decide)), Finset.card_range]
  have hmem := hnonzero x hx
  rw [← hrange] at hmem
  obtain ⟨k, -, hk⟩ := Finset.mem_image.mp hmem
  exact ⟨k, UInt8.toNat_inj.mp hk⟩

theorem gfInverse_power (k : ℕ) : gfInverse (power k) = power (254 * k) := by
  rw [gfInverse, if_neg (power_ne_zero k), ← Nat.zero_add (254 * k)]
  exact gfPowLoop_power 8 (by decide) 0 k

/-! ### The S-box is a permutation -/

/-- The affine map backwards. -/
def unaffine (s : UInt8) : UInt8 := rotl s 1 ^^^ rotl s 3 ^^^ rotl s 6 ^^^ 0x05

theorem unaffine_affine : ∀ x, unaffine (affine x) = x :=
  forall_byte (by set_option maxRecDepth 40000 in decide)

theorem affine_unaffine : ∀ x, affine (unaffine x) = x :=
  forall_byte (by set_option maxRecDepth 40000 in decide)

theorem gfInverse_gfInverse (x : UInt8) : gfInverse (gfInverse x) = x := by
  by_cases hx : x = 0
  · rw [hx]
    rfl
  · obtain ⟨k, rfl⟩ := exists_power hx
    rw [gfInverse_power, gfInverse_power, power, power, ← power_period.iterate_mod_apply,
      ← power_period.iterate_mod_apply k, show 254 * (254 * k) % 255 = k % 255 by omega]

/-- The S-box has two different values at two different bytes. -/
theorem sbox_injective : Function.Injective sbox := by
  have hleft : Function.LeftInverse (fun s => gfInverse (unaffine s)) sbox := fun x => by
    dsimp only [sbox]
    rw [unaffine_affine, gfInverse_gfInverse]
  exact hleft.injective

example : sbox 0x53 = 0xed := by set_option maxRecDepth 40000 in decide

/-- A table that is filled at the values of an injective map. -/
theorem foldl_update_apply {f : UInt8 → UInt8} (hf : Function.Injective f) (n : ℕ) (hn : n ≤ 256)
    (table : Table) (x : UInt8) :
    (List.range n).foldl (fun table i => Function.update table (f (UInt8.ofNat i)) (UInt8.ofNat i))
      table (f x) = if x.toNat < n then x else table (f x) := by
  induction n with
  | zero => rfl
  | succ n ih =>
      rw [List.range_succ, List.foldl_append, List.foldl_cons, List.foldl_nil]
      by_cases hx : x.toNat = n
      · rw [← hx, UInt8.ofNat_toNat, Function.update_self, if_pos (Nat.lt_succ_self _)]
      · have hne : x ≠ UInt8.ofNat n := by
          rintro rfl
          exact hx (UInt8.toNat_ofNat_of_lt hn)
        rw [Function.update_of_ne (hf.ne hne), ih (Nat.le_of_succ_le hn)]
        exact if_congr (by omega) rfl rfl

theorem invSbox_sbox (x : UInt8) : invSbox (sbox x) = x := by
  rw [invSbox, foldl_update_apply sbox_injective 256 le_rfl, if_pos x.toNat_lt]

theorem sbox_invSbox (y : UInt8) : sbox (invSbox y) = y := by
  have hy : sbox (gfInverse (unaffine y)) = y := by
    rw [sbox, gfInverse_gfInverse, affine_unaffine]
  rw [← hy, invSbox_sbox]

/-! ### The key schedule -/

/-- `AesKey`, `AesBlock` and `State`: sixteen bytes, column by column. -/
abbrev Block := Vector UInt8 16

/-- `RoundKeys`: 176 bytes. -/
abbrev RoundKeys := List UInt8

def kNk : ℕ := 4
def kNb : ℕ := 4
def kNr : ℕ := 10

/-- `rcon`. -/
def rcon (i : ℕ) : UInt8 :=
  [0x00, 0x01, 0x02, 0x04, 0x08, 0x10, 0x20, 0x40, 0x80, 0x1B, 0x36].getD i 0

/-- The word `i` of the schedule, from the words before it. -/
def nextWord (w : RoundKeys) (i : ℕ) : List UInt8 :=
  let prev := fun b => w.getD ((i - 1) * 4 + b) 0
  let temp := if i % kNk = 0 then
      [sbox (prev 1) ^^^ rcon (i / kNk), sbox (prev 2), sbox (prev 3), sbox (prev 0)]
    else [prev 0, prev 1, prev 2, prev 3]
  (List.range 4).map fun b => w.getD ((i - kNk) * 4 + b) 0 ^^^ temp.getD b 0

/-- `expand_key`. -/
def expandKey (key : Block) : RoundKeys :=
  (List.range' kNk (kNb * (kNr + 1) - kNk)).foldl (fun w i => w ++ nextWord w i) key.toList

/-! ### The steps of a round -/

local instance neZeroBlock : NeZero 16 := ⟨by decide⟩

/-- `add_round_key`. -/
def addRoundKey (w : RoundKeys) (round : ℕ) (state : Block) : Block :=
  Vector.ofFn fun i => state.get i ^^^ w.getD (round * kNb * 4 + i) 0

/-- `sub_bytes`. -/
def subBytes (box : Table) (state : Block) : Block := state.map box

/-- A state whose byte `i` comes from the index `p i`. -/
def permute (p : Fin 16 → Fin 16) (state : Block) : Block := Vector.ofFn fun i => state.get (p i)

/-- `shift_rows`: row `r` of column `c` comes from column `c + r`. -/
def shiftRows (state : Block) : Block :=
  permute (fun i => Fin.ofNat 16 ((i.val / 4 + i.val % 4) % 4 * 4 + i.val % 4)) state

/-- `inv_shift_rows`: row `r` of column `c` goes to column `c + r`, so it comes from
column `c - r`. -/
def invShiftRows (state : Block) : Block :=
  permute (fun i => Fin.ofNat 16 ((i.val / 4 + 4 - i.val % 4) % 4 * 4 + i.val % 4)) state

/-- The row of a column in `mix_columns`. -/
def mixByte (a₀ a₁ a₂ a₃ : UInt8) : ℕ → UInt8
  | 0 => gfMul a₀ 2 ^^^ gfMul a₁ 3 ^^^ a₂ ^^^ a₃
  | 1 => a₀ ^^^ gfMul a₁ 2 ^^^ gfMul a₂ 3 ^^^ a₃
  | 2 => a₀ ^^^ a₁ ^^^ gfMul a₂ 2 ^^^ gfMul a₃ 3
  | _ => gfMul a₀ 3 ^^^ a₁ ^^^ a₂ ^^^ gfMul a₃ 2

/-- The row of a column in `inv_mix_columns`. -/
def invMixByte (a₀ a₁ a₂ a₃ : UInt8) : ℕ → UInt8
  | 0 => gfMul a₀ 0x0e ^^^ gfMul a₁ 0x0b ^^^ gfMul a₂ 0x0d ^^^ gfMul a₃ 0x09
  | 1 => gfMul a₀ 0x09 ^^^ gfMul a₁ 0x0e ^^^ gfMul a₂ 0x0b ^^^ gfMul a₃ 0x0d
  | 2 => gfMul a₀ 0x0d ^^^ gfMul a₁ 0x09 ^^^ gfMul a₂ 0x0e ^^^ gfMul a₃ 0x0b
  | _ => gfMul a₀ 0x0b ^^^ gfMul a₁ 0x0d ^^^ gfMul a₂ 0x09 ^^^ gfMul a₃ 0x0e

/-- A map of the columns, row by row. -/
def onColumns (row : UInt8 → UInt8 → UInt8 → UInt8 → ℕ → UInt8) (state : Block) : Block :=
  Vector.ofFn fun i =>
    let byte := fun r : ℕ => state.get (Fin.ofNat 16 (i.val / 4 * 4 + r))
    row (byte 0) (byte 1) (byte 2) (byte 3) (i.val % 4)

/-- `mix_columns`. -/
def mixColumns (state : Block) : Block := onColumns mixByte state

/-- `inv_mix_columns`. -/
def invMixColumns (state : Block) : Block := onColumns invMixByte state

/-! ### One block -/

/-- A round of `aes128_encrypt_block` before its last one. -/
def encryptRound (w : RoundKeys) (round : ℕ) (state : Block) : Block :=
  addRoundKey w round (mixColumns (shiftRows (subBytes sbox state)))

/-- A round of `aes128_decrypt_block` after its first one. -/
def decryptRound (w : RoundKeys) (round : ℕ) (state : Block) : Block :=
  invMixColumns (addRoundKey w round (subBytes invSbox (invShiftRows state)))

/-- `aes128_encrypt_block`. -/
def aes128EncryptBlock (key plaintext : Block) : Block :=
  let w := expandKey key
  let state := BlockModes.rounds (encryptRound w) (kNr - 1) (addRoundKey w 0 plaintext)
  addRoundKey w kNr (shiftRows (subBytes sbox state))

/-- `aes128_decrypt_block`. -/
def aes128DecryptBlock (key ciphertext : Block) : Block :=
  let w := expandKey key
  let state := BlockModes.unrounds (decryptRound w) (kNr - 1) (addRoundKey w kNr ciphertext)
  addRoundKey w 0 (subBytes invSbox (invShiftRows state))

/-! ### Every step is undone -/

@[simp] theorem get_ofFn (f : Fin 16 → UInt8) (i : Fin 16) : (Vector.ofFn f).get i = f i :=
  Vector.getElem_ofFn i.isLt

theorem block_ext {s t : Block} (h : ∀ i : Fin 16, s.get i = t.get i) : s = t :=
  Vector.ext fun i hi => h ⟨i, hi⟩

theorem addRoundKey_addRoundKey (w : RoundKeys) (round : ℕ) (state : Block) :
    addRoundKey w round (addRoundKey w round state) = state := by
  refine block_ext fun i => ?_
  rw [addRoundKey, addRoundKey, get_ofFn, get_ofFn, UInt8.xor_assoc, UInt8.xor_self,
    UInt8.xor_zero]

theorem subBytes_subBytes {box box' : Table} (h : ∀ x, box' (box x) = x) (state : Block) :
    subBytes box' (subBytes box state) = state := by
  ext i hi
  simp [subBytes, h]

theorem permute_permute {p q : Fin 16 → Fin 16} (h : ∀ i, p (q i) = i) (state : Block) :
    permute q (permute p state) = state := by
  refine block_ext fun i => ?_
  rw [permute, permute, get_ofFn, get_ofFn, h]

theorem invShiftRows_shiftRows (state : Block) : invShiftRows (shiftRows state) = state :=
  permute_permute (by decide) state

theorem shiftRows_invShiftRows (state : Block) : shiftRows (invShiftRows state) = state :=
  permute_permute (by decide) state

/-! ### The two column matrices

Each row of a matrix is its first row turned, so that one row of the product is
enough.  The eight facts about single bytes are its entries. -/

/-- The first row of `mix_columns`. -/
def mixRow (a b c d : UInt8) : UInt8 := gfMul a 2 ^^^ gfMul b 3 ^^^ c ^^^ d

/-- The first row of `inv_mix_columns`. -/
def invMixRow (a b c d : UInt8) : UInt8 :=
  gfMul a 0x0e ^^^ gfMul b 0x0b ^^^ gfMul c 0x0d ^^^ gfMul d 0x09

/-- A matrix whose rows are one row turned. -/
def turned (row : UInt8 → UInt8 → UInt8 → UInt8 → UInt8) (a b c d : UInt8) : ℕ → UInt8
  | 0 => row a b c d
  | 1 => row b c d a
  | 2 => row c d a b
  | _ => row d a b c

theorem mixByte_eq : mixByte = turned mixRow := by
  funext a b c d r
  rcases r with _ | _ | _ | r <;> simp only [mixByte, turned, mixRow] <;> ac_rfl

theorem invMixByte_eq : invMixByte = turned invMixRow := by
  funext a b c d r
  rcases r with _ | _ | _ | r <;> simp only [invMixByte, turned, invMixRow] <;> ac_rfl

/-- The byte `r` of the column of a byte. -/
def byteAt (state : Block) (i : Fin 16) (r : ℕ) : UInt8 :=
  state.get (Fin.ofNat 16 (i.val / 4 * 4 + r))

theorem get_onColumns (row : UInt8 → UInt8 → UInt8 → UInt8 → ℕ → UInt8) (state : Block)
    (i : Fin 16) {r : ℕ} (hr : r < 4) :
    (onColumns row state).get (Fin.ofNat 16 (i.val / 4 * 4 + r)) =
      row (byteAt state i 0) (byteAt state i 1) (byteAt state i 2) (byteAt state i 3) r := by
  have hval : (Fin.ofNat 16 (i.val / 4 * 4 + r)).val = i.val / 4 * 4 + r :=
    Nat.mod_eq_of_lt (by omega)
  have hcolumn : (i.val / 4 * 4 + r) / 4 = i.val / 4 := by omega
  have hrow : (i.val / 4 * 4 + r) % 4 = r := by omega
  rw [onColumns, get_ofFn]
  dsimp only
  rw [hval, hcolumn, hrow]
  rfl

theorem onColumns_onColumns {row row' : UInt8 → UInt8 → UInt8 → UInt8 → UInt8}
    (h : ∀ a b c d, row' (row a b c d) (row b c d a) (row c d a b) (row d a b c) = a)
    (state : Block) : onColumns (turned row') (onColumns (turned row) state) = state := by
  refine block_ext fun i => ?_
  rw [onColumns, get_ofFn]
  dsimp only
  rw [get_onColumns _ _ _ (by decide), get_onColumns _ _ _ (by decide),
    get_onColumns _ _ _ (by decide), get_onColumns _ _ _ (by decide)]
  have hrow : turned row' (turned row (byteAt state i 0) (byteAt state i 1) (byteAt state i 2)
      (byteAt state i 3) 0) (turned row (byteAt state i 0) (byteAt state i 1) (byteAt state i 2)
      (byteAt state i 3) 1) (turned row (byteAt state i 0) (byteAt state i 1) (byteAt state i 2)
      (byteAt state i 3) 2) (turned row (byteAt state i 0) (byteAt state i 1) (byteAt state i 2)
      (byteAt state i 3) 3) (i.val % 4) = byteAt state i (i.val % 4) := by
    have hlt := Nat.mod_lt i.val (show 0 < 4 by decide)
    interval_cases i.val % 4 <;> exact h _ _ _ _
  rw [hrow, byteAt, Nat.div_add_mod', Fin.ofNat_val_eq_self]

theorem xor_columns (a a' b b' c c' d d' : UInt8) :
    a ^^^ a' ^^^ (b ^^^ b') ^^^ (c ^^^ c') ^^^ (d ^^^ d') =
      a ^^^ b ^^^ c ^^^ d ^^^ (a' ^^^ b' ^^^ c' ^^^ d') := by
  ac_rfl

theorem invMix_mix_entries : ∀ a : UInt8,
    gfMul (gfMul a 2) 0x0e ^^^ gfMul a 0x0b ^^^ gfMul a 0x0d ^^^ gfMul (gfMul a 3) 0x09 = a ∧
    gfMul (gfMul a 3) 0x0e ^^^ gfMul (gfMul a 2) 0x0b ^^^ gfMul a 0x0d ^^^ gfMul a 0x09 = 0 ∧
    gfMul a 0x0e ^^^ gfMul (gfMul a 3) 0x0b ^^^ gfMul (gfMul a 2) 0x0d ^^^ gfMul a 0x09 = 0 ∧
    gfMul a 0x0e ^^^ gfMul a 0x0b ^^^ gfMul (gfMul a 3) 0x0d ^^^ gfMul (gfMul a 2) 0x09 = 0 :=
  xor_induction (fun a b ha hb => by
    obtain ⟨ha0, ha1, ha2, ha3⟩ := ha
    obtain ⟨hb0, hb1, hb2, hb3⟩ := hb
    simp only [gfMul_xor, xor_columns, ha0, ha1, ha2, ha3, hb0, hb1, hb2, hb3, UInt8.xor_self,
      and_self]) (by decide) (by decide)

theorem mix_invMix_entries : ∀ a : UInt8,
    gfMul (gfMul a 0x0e) 2 ^^^ gfMul (gfMul a 0x09) 3 ^^^ gfMul a 0x0d ^^^ gfMul a 0x0b = a ∧
    gfMul (gfMul a 0x0b) 2 ^^^ gfMul (gfMul a 0x0e) 3 ^^^ gfMul a 0x09 ^^^ gfMul a 0x0d = 0 ∧
    gfMul (gfMul a 0x0d) 2 ^^^ gfMul (gfMul a 0x0b) 3 ^^^ gfMul a 0x0e ^^^ gfMul a 0x09 = 0 ∧
    gfMul (gfMul a 0x09) 2 ^^^ gfMul (gfMul a 0x0d) 3 ^^^ gfMul a 0x0b ^^^ gfMul a 0x0e = 0 :=
  xor_induction (fun a b ha hb => by
    obtain ⟨ha0, ha1, ha2, ha3⟩ := ha
    obtain ⟨hb0, hb1, hb2, hb3⟩ := hb
    simp only [gfMul_xor, xor_columns, ha0, ha1, ha2, ha3, hb0, hb1, hb2, hb3, UInt8.xor_self,
      and_self]) (by decide) (by decide)

theorem invMixRow_mixRow (a b c d : UInt8) :
    invMixRow (mixRow a b c d) (mixRow b c d a) (mixRow c d a b) (mixRow d a b c) = a := by
  obtain ⟨ha, -, -, -⟩ := invMix_mix_entries a
  obtain ⟨-, hb, -, -⟩ := invMix_mix_entries b
  obtain ⟨-, -, hc, -⟩ := invMix_mix_entries c
  obtain ⟨-, -, -, hd⟩ := invMix_mix_entries d
  calc invMixRow (mixRow a b c d) (mixRow b c d a) (mixRow c d a b) (mixRow d a b c)
      = (gfMul (gfMul a 2) 0x0e ^^^ gfMul a 0x0b ^^^ gfMul a 0x0d ^^^ gfMul (gfMul a 3) 0x09) ^^^
        (gfMul (gfMul b 3) 0x0e ^^^ gfMul (gfMul b 2) 0x0b ^^^ gfMul b 0x0d ^^^ gfMul b 0x09) ^^^
        (gfMul c 0x0e ^^^ gfMul (gfMul c 3) 0x0b ^^^ gfMul (gfMul c 2) 0x0d ^^^ gfMul c 0x09) ^^^
        (gfMul d 0x0e ^^^ gfMul d 0x0b ^^^ gfMul (gfMul d 3) 0x0d ^^^ gfMul (gfMul d 2) 0x09) := by
        simp only [invMixRow, mixRow, gfMul_xor]
        ac_rfl
    _ = a := by rw [ha, hb, hc, hd, UInt8.xor_zero, UInt8.xor_zero, UInt8.xor_zero]

theorem mixRow_invMixRow (a b c d : UInt8) :
    mixRow (invMixRow a b c d) (invMixRow b c d a) (invMixRow c d a b) (invMixRow d a b c) = a := by
  obtain ⟨ha, -, -, -⟩ := mix_invMix_entries a
  obtain ⟨-, hb, -, -⟩ := mix_invMix_entries b
  obtain ⟨-, -, hc, -⟩ := mix_invMix_entries c
  obtain ⟨-, -, -, hd⟩ := mix_invMix_entries d
  calc mixRow (invMixRow a b c d) (invMixRow b c d a) (invMixRow c d a b) (invMixRow d a b c)
      = (gfMul (gfMul a 0x0e) 2 ^^^ gfMul (gfMul a 0x09) 3 ^^^ gfMul a 0x0d ^^^ gfMul a 0x0b) ^^^
        (gfMul (gfMul b 0x0b) 2 ^^^ gfMul (gfMul b 0x0e) 3 ^^^ gfMul b 0x09 ^^^ gfMul b 0x0d) ^^^
        (gfMul (gfMul c 0x0d) 2 ^^^ gfMul (gfMul c 0x0b) 3 ^^^ gfMul c 0x0e ^^^ gfMul c 0x09) ^^^
        (gfMul (gfMul d 0x09) 2 ^^^ gfMul (gfMul d 0x0d) 3 ^^^ gfMul d 0x0b ^^^ gfMul d 0x0e) := by
        simp only [invMixRow, mixRow, gfMul_xor]
        ac_rfl
    _ = a := by rw [ha, hb, hc, hd, UInt8.xor_zero, UInt8.xor_zero, UInt8.xor_zero]

theorem invMixColumns_mixColumns (state : Block) : invMixColumns (mixColumns state) = state := by
  rw [invMixColumns, mixColumns, mixByte_eq, invMixByte_eq]
  exact onColumns_onColumns invMixRow_mixRow state

theorem mixColumns_invMixColumns (state : Block) : mixColumns (invMixColumns state) = state := by
  rw [invMixColumns, mixColumns, mixByte_eq, invMixByte_eq]
  exact onColumns_onColumns mixRow_invMixRow state

/-! ### The block is undone -/

/-- A round before the last one is undone from the bytes that the next one mixes. -/
theorem decryptRound_encryptRound (w : RoundKeys) (round : ℕ) (state : Block) :
    decryptRound w round (shiftRows (subBytes sbox (encryptRound w round state))) =
      shiftRows (subBytes sbox state) := by
  rw [decryptRound, encryptRound, invShiftRows_shiftRows, subBytes_subBytes invSbox_sbox,
    addRoundKey_addRoundKey, invMixColumns_mixColumns]

theorem encryptRound_decryptRound (w : RoundKeys) (round : ℕ) (state : Block) :
    encryptRound w round (subBytes invSbox (invShiftRows (decryptRound w round state))) =
      subBytes invSbox (invShiftRows state) := by
  rw [decryptRound, encryptRound, subBytes_subBytes sbox_invSbox, shiftRows_invShiftRows,
    mixColumns_invMixColumns, addRoundKey_addRoundKey]

/-- **Decrypting a block undoes encrypting it.** -/
theorem aes128DecryptBlock_aes128EncryptBlock (key block : Block) :
    aes128DecryptBlock key (aes128EncryptBlock key block) = block := by
  have hrounds := BlockModes.unrounds_rounds
    (fun state => shiftRows (subBytes sbox state))
    (decryptRound_encryptRound (expandKey key)) (kNr - 1) (addRoundKey (expandKey key) 0 block)
  dsimp only [aes128DecryptBlock, aes128EncryptBlock] at hrounds ⊢
  rw [addRoundKey_addRoundKey, hrounds, invShiftRows_shiftRows, subBytes_subBytes invSbox_sbox,
    addRoundKey_addRoundKey]

/-- **Encrypting a block undoes decrypting it.** -/
theorem aes128EncryptBlock_aes128DecryptBlock (key block : Block) :
    aes128EncryptBlock key (aes128DecryptBlock key block) = block := by
  have hrounds := BlockModes.rounds_unrounds
    (fun state => subBytes invSbox (invShiftRows state))
    (encryptRound_decryptRound (expandKey key)) (kNr - 1) (addRoundKey (expandKey key) kNr block)
  dsimp only [aes128DecryptBlock, aes128EncryptBlock] at hrounds ⊢
  rw [addRoundKey_addRoundKey, hrounds, subBytes_subBytes sbox_invSbox, shiftRows_invShiftRows,
    addRoundKey_addRoundKey]

end Crypto
end Xex
end XenonRecomp
