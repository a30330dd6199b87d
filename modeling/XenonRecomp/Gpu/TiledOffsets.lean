/-
# Tiled offsets

`tiled_combine`, `tiled_offset_2d` and `tiled_offset_3d` of
`src/graphics/xenos/texture.cpp`.  A tile has 32 × 32 blocks, or 32 × 16 × 4 of them; the
number of the tile and some of the bits of the coordinates are the blocks of a row of the
offset, the other bits are its bank, its pipe and its lowest line.  As a number an offset
is a sum of digits (`combine`), from which the coordinates can be read again.
-/

import Mathlib.Algebra.Order.Ring.Int
import Mathlib.Data.BitVec
import Mathlib.Data.Finset.Prod
import Mathlib.Data.Nat.Bitwise
import Mathlib.Tactic.Ring

namespace XenonRecomp
namespace Gpu

/-- `tiled_combine`. -/
def tiledCombine (outerInner : BitVec 64) (bank pipe yLsb : BitVec 32) : BitVec 64 :=
  (yLsb.setWidth 64 <<< 4) ||| (pipe.setWidth 64 <<< 6) ||| (bank.setWidth 64 <<< 11) |||
    (outerInner &&& 0xF#64) ||| (((outerInner >>> 4) &&& 1#64) <<< 5) |||
    (((outerInner >>> 5) &&& 7#64) <<< 8) ||| ((outerInner >>> 8) <<< 12)

/-- `std::has_single_bit`. -/
def hasSingleBit (n : BitVec 32) : Prop := n ≠ 0 ∧ n &&& (n - 1) = 0

instance (n : BitVec 32) : Decidable (hasSingleBit n) := inferInstanceAs (Decidable (_ ∧ _))

/-- `tiled_offset_2d`. -/
def tiledOffset2d (x y pitch bytesPerBlock : BitVec 32) : BitVec 64 :=
  if bytesPerBlock = 0 ∨ ¬ hasSingleBit bytesPerBlock then 0
  else
    let log2Bpb := bytesPerBlock.ctz.toNat
    let outer := (((y >>> 5) * (pitch >>> 5) + (x >>> 5)) <<< 6).setWidth 64
    let inner := ((((y >>> 1) &&& 7#32) <<< 3) ||| (x &&& 7#32)).setWidth 64
    let bank := (y >>> 4) &&& 1#32
    let pipe := ((x >>> 3) &&& 3#32) ^^^ (((y >>> 3) &&& 1#32) <<< 1)
    tiledCombine ((outer ||| inner) <<< log2Bpb) bank pipe (y &&& 1#32)

/-- `tiled_offset_3d`. -/
def tiledOffset3d (x y z pitch height bytesPerBlock : BitVec 32) : BitVec 64 :=
  if bytesPerBlock = 0 ∨ ¬ hasSingleBit bytesPerBlock then 0
  else
    let log2Bpb := bytesPerBlock.ctz.toNat
    let outer :=
      ((((z >>> 2) * (height >>> 4) + (y >>> 4)) * (pitch >>> 5) + (x >>> 5)) <<< 7).setWidth 64
    let inner :=
      (((z &&& 3#32) <<< 5) ||| (((y >>> 1) &&& 3#32) <<< 3) ||| (x &&& 7#32)).setWidth 64
    let bank := ((y >>> 3) ^^^ (z >>> 2)) &&& 1#32
    let pipe := ((x >>> 3) &&& 3#32) ^^^ (bank <<< 1)
    tiledCombine ((outer ||| inner) <<< log2Bpb) bank pipe (y &&& 1#32)

/-! ### Offsets as numbers -/

/-- `tiled_combine` as a number. -/
def combine (outerInner bank pipe yLsb : ℕ) : ℕ :=
  outerInner / 256 * 4096 + (bank * 2048 + (outerInner / 32 % 8 * 256 + (pipe * 64 +
    (outerInner / 16 % 2 * 32 + (yLsb * 16 + outerInner % 16)))))

theorem or_eq_add {a b : ℕ} (k : ℕ) (h : b < 2 ^ k) : a * 2 ^ k ||| b = a * 2 ^ k + b := by
  rw [← Nat.shiftLeft_eq, Nat.shiftLeft_add_eq_or_of_lt h]

theorem toNat_tiledCombine {outerInner : BitVec 64} {bank pipe yLsb : BitVec 32}
    (houter : outerInner.toNat < 2 ^ 52) (hbank : bank.toNat < 2) (hpipe : pipe.toNat < 4)
    (hy : yLsb.toNat < 2) :
    (tiledCombine outerInner bank pipe yLsb).toNat =
      combine outerInner.toNat bank.toNat pipe.toNat yLsb.toNat := by
  have hmask15 : ∀ n : ℕ, n &&& 15 = n % 16 := fun n => Nat.and_two_pow_sub_one_eq_mod n 4
  have hmask7 : ∀ n : ℕ, n &&& 7 = n % 8 := fun n => Nat.and_two_pow_sub_one_eq_mod n 3
  have hfields : (tiledCombine outerInner bank pipe yLsb).toNat =
      yLsb.toNat * 2 ^ 4 ||| pipe.toNat * 2 ^ 6 ||| bank.toNat * 2 ^ 11 |||
        outerInner.toNat % 16 ||| outerInner.toNat / 16 % 2 * 2 ^ 5 |||
        outerInner.toNat / 32 % 8 * 2 ^ 8 ||| outerInner.toNat / 256 * 2 ^ 12 := by
    simp only [tiledCombine, BitVec.toNat_or, BitVec.toNat_and, BitVec.toNat_shiftLeft,
      BitVec.toNat_ushiftRight, BitVec.toNat_setWidth, Nat.shiftLeft_eq,
      Nat.shiftRight_eq_div_pow]
    have h15 : (0xF#64).toNat = 15 := rfl
    have h1 : (1#64).toNat = 1 := rfl
    have h7 : (7#64).toNat = 7 := rfl
    rw [h15, h1, h7, hmask15, hmask7, Nat.and_one_is_mod]
    have hy64 : yLsb.toNat % 2 ^ 64 * 2 ^ 4 % 2 ^ 64 = yLsb.toNat * 2 ^ 4 := by omega
    have hpipe64 : pipe.toNat % 2 ^ 64 * 2 ^ 6 % 2 ^ 64 = pipe.toNat * 2 ^ 6 := by omega
    have hbank64 : bank.toNat % 2 ^ 64 * 2 ^ 11 % 2 ^ 64 = bank.toNat * 2 ^ 11 := by omega
    have h4 : outerInner.toNat / 2 ^ 4 % 2 * 2 ^ 5 % 2 ^ 64 = outerInner.toNat / 16 % 2 * 2 ^ 5 :=
      Nat.mod_eq_of_lt (by omega)
    have h5 : outerInner.toNat / 2 ^ 5 % 8 * 2 ^ 8 % 2 ^ 64 = outerInner.toNat / 32 % 8 * 2 ^ 8 :=
      Nat.mod_eq_of_lt (by omega)
    have h8 : outerInner.toNat / 2 ^ 8 * 2 ^ 12 % 2 ^ 64 = outerInner.toNat / 256 * 2 ^ 12 :=
      Nat.mod_eq_of_lt (by omega)
    rw [hy64, hpipe64, hbank64, h4, h5, h8]
  rw [hfields]
  generalize outerInner.toNat = n at houter ⊢
  generalize bank.toNat = b at hbank ⊢
  generalize pipe.toNat = p at hpipe ⊢
  generalize yLsb.toNat = y at hy ⊢
  have horder : y * 2 ^ 4 ||| p * 2 ^ 6 ||| b * 2 ^ 11 ||| n % 16 ||| n / 16 % 2 * 2 ^ 5 |||
      n / 32 % 8 * 2 ^ 8 ||| n / 256 * 2 ^ 12 =
      n / 256 * 2 ^ 12 ||| (b * 2 ^ 11 ||| (n / 32 % 8 * 2 ^ 8 ||| (p * 2 ^ 6 |||
        (n / 16 % 2 * 2 ^ 5 ||| (y * 2 ^ 4 ||| n % 16))))) := by
    ac_rfl
  rw [horder, or_eq_add 4 (by omega), or_eq_add 5 (by omega), or_eq_add 6 (by omega),
    or_eq_add 8 (by omega), or_eq_add 11 (by omega), or_eq_add 12 (by omega)]
  rfl

/-- The digits of an offset. -/
theorem combine_digits {oi b p y : ℕ} (hb : b < 2) (hp : p < 4) (hy : y < 2) :
    combine oi b p y % 16 = oi % 16 ∧ combine oi b p y / 16 % 2 = y ∧
      combine oi b p y / 32 % 2 = oi / 16 % 2 ∧ combine oi b p y / 64 % 4 = p ∧
      combine oi b p y / 256 % 8 = oi / 32 % 8 ∧ combine oi b p y / 2048 % 2 = b ∧
      combine oi b p y / 4096 = oi / 256 := by
  rw [combine]
  generalize oi / 256 = top
  have h5 : oi / 16 % 2 < 2 := Nat.mod_lt _ (by decide)
  have h8 : oi / 32 % 8 < 8 := Nat.mod_lt _ (by decide)
  have h0 : oi % 16 < 16 := Nat.mod_lt _ (by decide)
  generalize oi / 16 % 2 = d5 at h5 ⊢
  generalize oi / 32 % 8 = d8 at h8 ⊢
  generalize oi % 16 = d0 at h0 ⊢
  refine ⟨?_, ?_, ?_, ?_, ?_, ?_, ?_⟩ <;> omega

/-- The parts of an offset can be read from it. -/
theorem combine_inj {oi oi' b b' p p' y y' : ℕ} (hb : b < 2) (hb' : b' < 2) (hp : p < 4)
    (hp' : p' < 4) (hy : y < 2) (hy' : y' < 2) (h : combine oi b p y = combine oi' b' p' y') :
    oi = oi' ∧ b = b' ∧ p = p' ∧ y = y' := by
  have hdigits := @combine_digits oi b p y hb hp hy
  rw [h] at hdigits
  obtain ⟨h0, hlow, h5, hpipe, h8, hbank, htop⟩ := hdigits
  obtain ⟨h0', hlow', h5', hpipe', h8', hbank', htop'⟩ := @combine_digits oi' b' p' y' hb' hp' hy'
  refine ⟨?_, hbank.symm.trans hbank', hpipe.symm.trans hpipe', hlow.symm.trans hlow'⟩
  have e0 := h0.symm.trans h0'
  have e5 := h5.symm.trans h5'
  have e8 := h8.symm.trans h8'
  have etop := htop.symm.trans htop'
  clear h0 hlow h5 hpipe h8 hbank htop h0' hlow' h5' hpipe' h8' hbank' htop' h
  omega

/-- An offset is a multiple of the size of a block. -/
theorem dvd_combine {bytes : ℕ} (hbytes : bytes ∈ [1, 2, 4, 8, 16]) (n b p y : ℕ) :
    bytes ∣ combine (n * bytes) b p y := by
  simp only [List.mem_cons, List.not_mem_nil, or_false] at hbytes
  rcases hbytes with rfl | rfl | rfl | rfl | rfl <;> rw [combine] <;> omega

/-- An offset is inside the pages of the blocks. -/
theorem combine_lt {n blocks bytes b p y : ℕ} (hn : n < blocks) (hbytes : 0 < bytes) (hb : b < 2)
    (hp : p < 4) (hy : y < 2) :
    combine (n * bytes) b p y < (16 * (blocks * bytes) + 4095) / 4096 * 4096 := by
  have hlt : n * bytes < blocks * bytes := Nat.mul_lt_mul_of_pos_right hn hbytes
  rw [combine]
  omega

/-! ### The blocks of a tile -/

/-- The block of a row of the offset, in two dimensions. -/
def block2d (x y pitch : ℕ) : ℕ := (y / 32 * (pitch / 32) + x / 32) * 64 + (y / 2 % 8 * 8 + x % 8)

/-- The pipe in two dimensions. -/
def pipe2d (x y : ℕ) : ℕ := (x / 8 % 4) ^^^ (y / 8 % 2 * 2)

/-- The block of a row of the offset, in three dimensions. -/
def block3d (x y z pitch height : ℕ) : ℕ :=
  ((z / 4 * (height / 16) + y / 16) * (pitch / 32) + x / 32) * 128 +
    (z % 4 * 32 + (y / 2 % 4 * 8 + x % 8))

/-- The bank in three dimensions. -/
def bank3d (y z : ℕ) : ℕ := (y / 8 + z / 4) % 2

/-- The pipe in three dimensions. -/
def pipe3d (x y z : ℕ) : ℕ := (x / 8 % 4) ^^^ (bank3d y z * 2)

theorem pipe2d_lt (x y : ℕ) : pipe2d x y < 4 :=
  Nat.xor_lt_two_pow (n := 2) (by omega) (by omega)

theorem pipe3d_lt (x y z : ℕ) : pipe3d x y z < 4 :=
  Nat.xor_lt_two_pow (n := 2) (by omega) (by rw [bank3d]; omega)

theorem xor_right_cancel {a b c : ℕ} (h : a ^^^ c = b ^^^ c) : a = b := by
  rw [← Nat.xor_xor_cancel_right a c, h, Nat.xor_xor_cancel_right]

/-- A row and a column of a table are read from the number of the cell. -/
theorem cell_inj {columns r r' c c' : ℕ} (hc : c < columns) (hc' : c' < columns)
    (h : r * columns + c = r' * columns + c') : r = r' ∧ c = c' := by
  have hpos : 0 < columns := Nat.zero_lt_of_lt hc
  have hrow : ∀ r c, c < columns → (r * columns + c) / columns = r := fun r c hc => by
    rw [Nat.mul_comm, Nat.mul_add_div hpos, Nat.div_eq_of_lt hc, Nat.add_zero]
  have hr : r = r' := by rw [← hrow r c hc, h, hrow r' c' hc']
  rw [hr] at h
  exact ⟨hr, Nat.add_left_cancel h⟩

theorem cell_lt {rows columns r c : ℕ} (hr : r < rows) (hc : c < columns) :
    r * columns + c < rows * columns := by
  calc r * columns + c < (r + 1) * columns := by rw [Nat.succ_mul]; omega
    _ ≤ rows * columns := Nat.mul_le_mul_right _ hr

/-- The coordinates of a block are read from its place, in two dimensions. -/
theorem block2d_inj {x x' y y' pitch : ℕ} (hpitch : pitch % 32 = 0) (hx : x < pitch)
    (hx' : x' < pitch) (hblock : block2d x y pitch = block2d x' y' pitch)
    (hbank : y / 16 % 2 = y' / 16 % 2) (hpipe : pipe2d x y = pipe2d x' y')
    (hlow : y % 2 = y' % 2) : x = x' ∧ y = y' := by
  have hparts : y / 32 * (pitch / 32) + x / 32 = y' / 32 * (pitch / 32) + x' / 32 ∧
      y / 2 % 8 = y' / 2 % 8 ∧ x % 8 = x' % 8 := by
    rw [block2d, block2d] at hblock
    omega
  obtain ⟨htile, hline, hcolumn⟩ := hparts
  obtain ⟨hrow, htile⟩ := cell_inj (by omega) (by omega) htile
  have hy : y = y' := by omega
  rw [hy, pipe2d, pipe2d] at hpipe
  have hcolumns := xor_right_cancel hpipe
  exact ⟨by omega, hy⟩

theorem block3d_inj {x x' y y' z z' pitch height : ℕ} (hpitch : pitch % 32 = 0)
    (hheight : height % 32 = 0) (hx : x < pitch) (hx' : x' < pitch) (hy : y < height)
    (hy' : y' < height) (hblock : block3d x y z pitch height = block3d x' y' z' pitch height)
    (hbank : bank3d y z = bank3d y' z') (hpipe : pipe3d x y z = pipe3d x' y' z')
    (hlow : y % 2 = y' % 2) : x = x' ∧ y = y' ∧ z = z' := by
  have hparts : (z / 4 * (height / 16) + y / 16) * (pitch / 32) + x / 32 =
      (z' / 4 * (height / 16) + y' / 16) * (pitch / 32) + x' / 32 ∧
      z % 4 = z' % 4 ∧ y / 2 % 4 = y' / 2 % 4 ∧ x % 8 = x' % 8 := by
    rw [block3d, block3d] at hblock
    omega
  obtain ⟨htile, hslice, hline, hcolumn⟩ := hparts
  obtain ⟨hrow, htile⟩ := cell_inj (by omega) (by omega) htile
  obtain ⟨hslab, hrow⟩ := cell_inj (by omega) (by omega) hrow
  have hz : z = z' := by omega
  rw [pipe3d, pipe3d, hbank] at hpipe
  have hcolumns := xor_right_cancel hpipe
  rw [bank3d, bank3d, hz] at hbank
  exact ⟨by omega, by omega, hz⟩

theorem block2d_lt {x y pitch height : ℕ} (hpitch : pitch % 32 = 0) (hheight : height % 32 = 0)
    (hx : x < pitch) (hy : y < height) :
    block2d x y pitch < height / 32 * (pitch / 32) * 64 := by
  have htile := cell_lt (show y / 32 < height / 32 by omega) (show x / 32 < pitch / 32 by omega)
  rw [block2d]
  omega

theorem block3d_lt {x y z pitch height slabs : ℕ} (hpitch : pitch % 32 = 0)
    (hheight : height % 32 = 0) (hx : x < pitch) (hy : y < height) (hz : z < 4 * slabs) :
    block3d x y z pitch height < slabs * (height / 16) * (pitch / 32) * 128 := by
  have hrow := cell_lt (show z / 4 < slabs by omega) (show y / 16 < height / 16 by omega)
  have htile := cell_lt hrow (show x / 32 < pitch / 32 by omega)
  rw [block3d]
  omega

/-! ### The offsets of the code -/

/-- The sizes of a block. -/
theorem log2_block {bytes : BitVec 32} (h : bytes ∈ [1, 2, 4, 8, 16]) :
    ¬ (bytes = 0 ∨ ¬ hasSingleBit bytes) ∧ bytes.toNat = 2 ^ bytes.ctz.toNat ∧
      bytes.toNat ∈ [1, 2, 4, 8, 16] := by
  simp only [List.mem_cons, List.not_mem_nil, or_false] at h
  rcases h with rfl | rfl | rfl | rfl | rfl <;> decide +kernel

theorem toNat_mask (n : BitVec 32) (k m : ℕ) (hm : m < 32) :
    ((n >>> k) &&& BitVec.ofNat 32 (2 ^ m - 1)).toNat = n.toNat / 2 ^ k % 2 ^ m := by
  have hpow : 2 ^ m < 2 ^ 32 := Nat.pow_lt_pow_right Nat.one_lt_two hm
  have hlt : 2 ^ m - 1 < 2 ^ 32 := lt_of_le_of_lt (Nat.sub_le _ _) hpow
  rw [BitVec.toNat_and, BitVec.toNat_ushiftRight, BitVec.toNat_ofNat, Nat.shiftRight_eq_div_pow,
    Nat.mod_eq_of_lt hlt, Nat.and_two_pow_sub_one_eq_mod]

theorem toNat_low (n : BitVec 32) (m : ℕ) (hm : m < 32) :
    (n &&& BitVec.ofNat 32 (2 ^ m - 1)).toNat = n.toNat % 2 ^ m := by
  have hmask := toNat_mask n 0 m hm
  rwa [BitVec.ushiftRight_zero, Nat.pow_zero, Nat.div_one] at hmask

variable {x y z pitch height bytes : BitVec 32}

/-- The combined parts, for a block that lies at a place below 2²⁸. -/
theorem toNat_combined (block : ℕ) {outer inner : BitVec 32} {k : ℕ}
    (hbytes : bytes ∈ [1, 2, 4, 8, 16]) (houter : outer.toNat = block / 2 ^ k * 2 ^ k) (hinner : inner.toNat = block % 2 ^ k)
    {bank pipe yLsb : BitVec 32} (hbank : bank.toNat < 2) (hpipe : pipe.toNat < 4)
    (hy : yLsb.toNat < 2) :
    (tiledCombine ((outer.setWidth 64 ||| inner.setWidth 64) <<< bytes.ctz.toNat) bank pipe
      yLsb).toNat = combine (block * bytes.toNat) bank.toNat pipe.toNat yLsb.toNat := by
  obtain ⟨-, hsize, hmem⟩ := log2_block hbytes
  have hsmall : bytes.toNat ≤ 16 := by
    simp only [List.mem_cons, List.not_mem_nil, or_false] at hmem
    omega
  have hor : (outer.setWidth 64 ||| inner.setWidth 64).toNat = block := by
    rw [BitVec.toNat_or, BitVec.toNat_setWidth_of_le (by decide),
      BitVec.toNat_setWidth_of_le (by decide), houter, hinner,
      or_eq_add k (Nat.mod_lt _ (Nat.two_pow_pos k)), Nat.div_add_mod']
  have hblock : block < 2 ^ 33 := by
    have hdiv := Nat.div_add_mod' block (2 ^ k)
    have h1 := outer.isLt
    have h2 := inner.isLt
    omega
  have hlt : block * bytes.toNat < 2 ^ 52 := by
    calc block * bytes.toNat ≤ block * 16 := Nat.mul_le_mul_left _ hsmall
      _ < 2 ^ 52 := by omega
  have hvalue : ((outer.setWidth 64 ||| inner.setWidth 64) <<< bytes.ctz.toNat).toNat =
      block * bytes.toNat := by
    rw [BitVec.toNat_shiftLeft, hor, Nat.shiftLeft_eq, ← hsize,
      Nat.mod_eq_of_lt (hlt.trans (by decide))]
  rw [toNat_tiledCombine (hvalue ▸ hlt) hbank hpipe hy, hvalue]

/-- The 32-bit operations on the number of a tile that do not wrap. -/
theorem toNat_outer (rows columns column : BitVec 32) {k : ℕ}
    (hfits : (rows.toNat * columns.toNat + column.toNat) * 2 ^ k < 2 ^ 32) :
    ((rows * columns + column) <<< k).toNat =
      (rows.toNat * columns.toNat + column.toNat) * 2 ^ k := by
  have hsum : rows.toNat * columns.toNat + column.toNat < 2 ^ 32 :=
    lt_of_le_of_lt (Nat.le_mul_of_pos_right _ (Nat.two_pow_pos k)) hfits
  have hproduct : rows.toNat * columns.toNat < 2 ^ 32 := lt_of_le_of_lt (Nat.le_add_right _ _) hsum
  rw [BitVec.toNat_shiftLeft, BitVec.toNat_add, BitVec.toNat_mul, Nat.mod_eq_of_lt hproduct,
    Nat.mod_eq_of_lt hsum, Nat.shiftLeft_eq, Nat.mod_eq_of_lt hfits]

theorem toNat_shift (n : BitVec 32) (k : ℕ) : (n >>> k).toNat = n.toNat / 2 ^ k := by
  rw [BitVec.toNat_ushiftRight, Nat.shiftRight_eq_div_pow]

/-- The offset in two dimensions as a number. -/
theorem toNat_tiledOffset2d (hbytes : bytes ∈ [1, 2, 4, 8, 16])
    (hfits : (y.toNat / 32 * (pitch.toNat / 32) + x.toNat / 32) * 64 < 2 ^ 32) :
    (tiledOffset2d x y pitch bytes).toNat =
      combine (block2d x.toNat y.toNat pitch.toNat * bytes.toNat) (y.toNat / 16 % 2)
        (pipe2d x.toNat y.toNat) (y.toNat % 2) := by
  have hbank : ((y >>> 4) &&& 1#32).toNat = y.toNat / 16 % 2 := toNat_mask y 4 1 (by decide)
  have hpipe : (((x >>> 3) &&& 3#32) ^^^ (((y >>> 3) &&& 1#32) <<< 1)).toNat =
      pipe2d x.toNat y.toNat := by
    have hx : ((x >>> 3) &&& 3#32).toNat = x.toNat / 8 % 4 := toNat_mask x 3 2 (by decide)
    have hy : ((y >>> 3) &&& 1#32).toNat = y.toNat / 8 % 2 := toNat_mask y 3 1 (by decide)
    have hsmall : y.toNat / 8 % 2 * 2 ^ 1 < 2 ^ 32 :=
      lt_of_le_of_lt (Nat.mul_le_mul_right _ (Nat.mod_lt _ (by decide)).le) (by decide)
    rw [BitVec.toNat_xor, BitVec.toNat_shiftLeft, hx, hy, Nat.shiftLeft_eq,
      Nat.mod_eq_of_lt hsmall]
    rfl
  have hlow : (y &&& 1#32).toNat = y.toNat % 2 := toNat_low y 1 (by decide)
  have houter : (((y >>> 5) * (pitch >>> 5) + (x >>> 5)) <<< 6).toNat =
      (y.toNat / 32 * (pitch.toNat / 32) + x.toNat / 32) * 64 := by
    have hy : (y >>> 5).toNat = y.toNat / 32 := toNat_shift y 5
    have hpitch : (pitch >>> 5).toNat = pitch.toNat / 32 := toNat_shift pitch 5
    have hx : (x >>> 5).toNat = x.toNat / 32 := toNat_shift x 5
    rw [toNat_outer _ _ _ (by rwa [hy, hpitch, hx]), hy, hpitch, hx]
    rfl
  have hinner : ((((y >>> 1) &&& 7#32) <<< 3) ||| (x &&& 7#32)).toNat =
      y.toNat / 2 % 8 * 8 + x.toNat % 8 := by
    have hy : ((y >>> 1) &&& 7#32).toNat = y.toNat / 2 % 8 := toNat_mask y 1 3 (by decide)
    have hx : (x &&& 7#32).toNat = x.toNat % 8 := toNat_low x 3 (by decide)
    have hsmall : y.toNat / 2 % 8 * 2 ^ 3 < 2 ^ 32 :=
      lt_of_le_of_lt (Nat.mul_le_mul_right _ (Nat.mod_lt _ (by decide)).le) (by decide)
    rw [BitVec.toNat_or, BitVec.toNat_shiftLeft, hx, hy, Nat.shiftLeft_eq,
      Nat.mod_eq_of_lt hsmall]
    exact or_eq_add 3 (Nat.mod_lt _ (by decide))
  rw [tiledOffset2d, if_neg (log2_block hbytes).1]
  dsimp only
  rw [toNat_combined (block2d x.toNat y.toNat pitch.toNat) (k := 6) hbytes
    (by rw [houter, block2d]; omega) (by rw [hinner, block2d]; omega) (by rw [hbank]; omega)
    (by rw [hpipe]; exact pipe2d_lt _ _) (by rw [hlow]; omega), hbank, hpipe, hlow]

/-- The offset in three dimensions as a number. -/
theorem toNat_tiledOffset3d (hbytes : bytes ∈ [1, 2, 4, 8, 16])
    (hrows : z.toNat / 4 * (height.toNat / 16) + y.toNat / 16 < 2 ^ 32)
    (hfits : ((z.toNat / 4 * (height.toNat / 16) + y.toNat / 16) * (pitch.toNat / 32) +
      x.toNat / 32) * 128 < 2 ^ 32) :
    (tiledOffset3d x y z pitch height bytes).toNat =
      combine (block3d x.toNat y.toNat z.toNat pitch.toNat height.toNat * bytes.toNat)
        (bank3d y.toNat z.toNat) (pipe3d x.toNat y.toNat z.toNat) (y.toNat % 2) := by
  have hbank : (((y >>> 3) ^^^ (z >>> 2)) &&& 1#32).toNat = bank3d y.toNat z.toNat := by
    rw [BitVec.toNat_and, BitVec.toNat_xor, toNat_shift, toNat_shift]
    exact (Nat.and_one_is_mod _).trans Nat.xor_mod_two_eq
  have hpipe : (((x >>> 3) &&& 3#32) ^^^ ((((y >>> 3) ^^^ (z >>> 2)) &&& 1#32) <<< 1)).toNat =
      pipe3d x.toNat y.toNat z.toNat := by
    have hx : ((x >>> 3) &&& 3#32).toNat = x.toNat / 8 % 4 := toNat_mask x 3 2 (by decide)
    have hsmall : bank3d y.toNat z.toNat * 2 ^ 1 < 2 ^ 32 :=
      lt_of_le_of_lt (Nat.mul_le_mul_right _ (Nat.mod_lt _ (by decide)).le) (by decide)
    rw [BitVec.toNat_xor, BitVec.toNat_shiftLeft, hx, hbank, Nat.shiftLeft_eq,
      Nat.mod_eq_of_lt hsmall]
    rfl
  have hlow : (y &&& 1#32).toNat = y.toNat % 2 := toNat_low y 1 (by decide)
  have houter :
      ((((z >>> 2) * (height >>> 4) + (y >>> 4)) * (pitch >>> 5) + (x >>> 5)) <<< 7).toNat =
      ((z.toNat / 4 * (height.toNat / 16) + y.toNat / 16) * (pitch.toNat / 32) +
        x.toNat / 32) * 128 := by
    have hz : (z >>> 2).toNat = z.toNat / 4 := toNat_shift z 2
    have hheight : (height >>> 4).toNat = height.toNat / 16 := toNat_shift height 4
    have hy : (y >>> 4).toNat = y.toNat / 16 := toNat_shift y 4
    have hpitch : (pitch >>> 5).toNat = pitch.toNat / 32 := toNat_shift pitch 5
    have hx : (x >>> 5).toNat = x.toNat / 32 := toNat_shift x 5
    have hrow := toNat_outer (z >>> 2) (height >>> 4) (y >>> 4) (k := 0)
      (by rwa [hz, hheight, hy, Nat.pow_zero, Nat.mul_one])
    rw [BitVec.shiftLeft_zero, Nat.pow_zero, Nat.mul_one, hz, hheight, hy] at hrow
    rw [toNat_outer _ _ _ (by rwa [hrow, hpitch, hx]), hrow, hpitch, hx]
    rfl
  have hinner : (((z &&& 3#32) <<< 5) ||| (((y >>> 1) &&& 3#32) <<< 3) ||| (x &&& 7#32)).toNat =
      z.toNat % 4 * 32 + (y.toNat / 2 % 4 * 8 + x.toNat % 8) := by
    have hz : (z &&& 3#32).toNat = z.toNat % 4 := toNat_low z 2 (by decide)
    have hy : ((y >>> 1) &&& 3#32).toNat = y.toNat / 2 % 4 := toNat_mask y 1 2 (by decide)
    have hx : (x &&& 7#32).toNat = x.toNat % 8 := toNat_low x 3 (by decide)
    have hz32 : z.toNat % 4 * 2 ^ 5 < 2 ^ 32 :=
      lt_of_le_of_lt (Nat.mul_le_mul_right _ (Nat.mod_lt _ (by decide)).le) (by decide)
    have hy32 : y.toNat / 2 % 4 * 2 ^ 3 < 2 ^ 32 :=
      lt_of_le_of_lt (Nat.mul_le_mul_right _ (Nat.mod_lt _ (by decide)).le) (by decide)
    have hyx : y.toNat / 2 % 4 * 2 ^ 3 ||| x.toNat % 8 = y.toNat / 2 % 4 * 8 + x.toNat % 8 :=
      or_eq_add 3 (Nat.mod_lt _ (by decide))
    rw [BitVec.toNat_or, BitVec.toNat_or, BitVec.toNat_shiftLeft, BitVec.toNat_shiftLeft, hx, hy,
      hz, Nat.shiftLeft_eq, Nat.shiftLeft_eq, Nat.mod_eq_of_lt hz32, Nat.mod_eq_of_lt hy32,
      Nat.or_assoc, hyx]
    exact or_eq_add 5 (by omega)
  rw [tiledOffset3d, if_neg (log2_block hbytes).1]
  dsimp only
  rw [toNat_combined (block3d x.toNat y.toNat z.toNat pitch.toNat height.toNat) (k := 7) hbytes
    (by rw [houter, block3d]; omega) (by rw [hinner, block3d]; omega)
    (by rw [hbank, bank3d]; omega) (by rw [hpipe]; exact pipe3d_lt _ _ _) (by rw [hlow]; omega),
    hbank, hpipe, hlow]

/-! ### All the offsets of a storage -/

/-- Different multiples of a size that are as many as there are below a bound are all of them. -/
theorem exists_of_card {α : Type} {s : Finset α} {f : α → ℕ} {bytes : ℕ}
    (hinj : Set.InjOn f s) (hdvd : ∀ c ∈ s, bytes ∣ f c) (hlt : ∀ c ∈ s, f c < s.card * bytes)
    {o : ℕ} (ho : bytes ∣ o) (holt : o < s.card * bytes) : ∃ c ∈ s, f c = o := by
  have hinjective : Set.InjOn (fun c => f c / bytes) s := fun c hc c' hc' h =>
    hinj hc hc' (Nat.div_left_inj (hdvd c hc) (hdvd c' hc') |>.mp h)
  have hrange : s.image (fun c => f c / bytes) = Finset.range s.card := by
    refine Finset.eq_of_subset_of_card_le (fun n hn => ?_) ?_
    · obtain ⟨c, hc, rfl⟩ := Finset.mem_image.mp hn
      exact Finset.mem_range.mpr (Nat.div_lt_of_lt_mul (Nat.mul_comm _ _ ▸ hlt c hc))
    · rw [Finset.card_image_of_injOn hinjective, Finset.card_range]
  have hmem : o / bytes ∈ Finset.range s.card :=
    Finset.mem_range.mpr (Nat.div_lt_of_lt_mul (Nat.mul_comm _ _ ▸ holt))
  rw [← hrange] at hmem
  obtain ⟨c, hc, hdiv⟩ := Finset.mem_image.mp hmem
  exact ⟨c, hc, (Nat.div_left_inj (hdvd c hc) ho).mp hdiv⟩

/-- The offset in two dimensions, as a number of numbers. -/
def offset2d (x y pitch bytes : ℕ) : ℕ :=
  combine (block2d x y pitch * bytes) (y / 16 % 2) (pipe2d x y) (y % 2)

/-- The offset in three dimensions, as a number of numbers. -/
def offset3d (x y z pitch height bytes : ℕ) : ℕ :=
  combine (block3d x y z pitch height * bytes) (bank3d y z) (pipe3d x y z) (y % 2)

section numbers

variable {x x' y y' z z' pitch height bytes : ℕ}

theorem offset2d_inj (hbytes : 0 < bytes) (hpitch : pitch % 32 = 0) (hx : x < pitch)
    (hx' : x' < pitch) (h : offset2d x y pitch bytes = offset2d x' y' pitch bytes) :
    x = x' ∧ y = y' := by
  obtain ⟨hblock, hbank, hpipe, hlow⟩ := combine_inj (Nat.mod_lt _ (by decide))
    (Nat.mod_lt _ (by decide)) (pipe2d_lt _ _) (pipe2d_lt _ _) (Nat.mod_lt _ (by decide))
    (Nat.mod_lt _ (by decide)) h
  exact block2d_inj hpitch hx hx' (Nat.eq_of_mul_eq_mul_right hbytes hblock) hbank hpipe hlow

theorem offset3d_inj (hbytes : 0 < bytes) (hpitch : pitch % 32 = 0) (hheight : height % 32 = 0)
    (hx : x < pitch) (hx' : x' < pitch) (hy : y < height) (hy' : y' < height)
    (h : offset3d x y z pitch height bytes = offset3d x' y' z' pitch height bytes) :
    x = x' ∧ y = y' ∧ z = z' := by
  obtain ⟨hblock, hbank, hpipe, hlow⟩ := combine_inj (Nat.mod_lt _ (by decide))
    (Nat.mod_lt _ (by decide)) (pipe3d_lt _ _ _) (pipe3d_lt _ _ _) (Nat.mod_lt _ (by decide))
    (Nat.mod_lt _ (by decide)) h
  exact block3d_inj hpitch hheight hx hx' hy hy' (Nat.eq_of_mul_eq_mul_right hbytes hblock) hbank
    hpipe hlow

theorem offset2d_lt (hbytes : 0 < bytes) (hpitch : pitch % 32 = 0) (hheight : height % 32 = 0)
    (hx : x < pitch) (hy : y < height) :
    offset2d x y pitch bytes < (pitch * height * bytes + 4095) / 4096 * 4096 := by
  have hlt := combine_lt (block2d_lt hpitch hheight hx hy) hbytes (b := y / 16 % 2)
    (Nat.mod_lt _ (by decide)) (pipe2d_lt x y) (Nat.mod_lt y (show 0 < 2 by decide))
  obtain ⟨p, rfl⟩ := Nat.dvd_of_mod_eq_zero hpitch
  obtain ⟨h, rfl⟩ := Nat.dvd_of_mod_eq_zero hheight
  rw [Nat.mul_div_cancel_left _ (by decide), Nat.mul_div_cancel_left _ (by decide)] at hlt
  rwa [show 32 * p * (32 * h) * bytes = 16 * (h * p * 64 * bytes) by ring]

theorem offset3d_lt {slabs : ℕ} (hbytes : 0 < bytes) (hpitch : pitch % 32 = 0)
    (hheight : height % 32 = 0) (hx : x < pitch) (hy : y < height) (hz : z < 4 * slabs) :
    offset3d x y z pitch height bytes <
      (pitch * height * bytes * (4 * slabs) + 4095) / 4096 * 4096 := by
  have hlt := combine_lt (block3d_lt hpitch hheight hx hy hz) hbytes (b := bank3d y z)
    (Nat.mod_lt _ (by decide)) (pipe3d_lt x y z) (Nat.mod_lt y (show 0 < 2 by decide))
  obtain ⟨p, rfl⟩ := Nat.dvd_of_mod_eq_zero hpitch
  obtain ⟨h, rfl⟩ := Nat.dvd_of_mod_eq_zero hheight
  rw [Nat.mul_div_cancel_left _ (by decide), show 32 * h / 16 = 2 * h by omega] at hlt
  rwa [show 32 * p * (32 * h) * bytes * (4 * slabs) = 16 * (slabs * (2 * h) * p * 128 * bytes) by
    ring]

/-- The operations on the number of a tile stay inside 32 bits. -/
def Fits2d (x y pitch : ℕ) : Prop :=
  y / 32 * (pitch / 32) < 2 ^ 32 ∧ y / 32 * (pitch / 32) + x / 32 < 2 ^ 32 ∧
    (y / 32 * (pitch / 32) + x / 32) * 64 < 2 ^ 32

def Fits3d (x y z pitch height : ℕ) : Prop :=
  z / 4 * (height / 16) < 2 ^ 32 ∧ z / 4 * (height / 16) + y / 16 < 2 ^ 32 ∧
    (z / 4 * (height / 16) + y / 16) * (pitch / 32) < 2 ^ 32 ∧
    (z / 4 * (height / 16) + y / 16) * (pitch / 32) + x / 32 < 2 ^ 32 ∧
    ((z / 4 * (height / 16) + y / 16) * (pitch / 32) + x / 32) * 128 < 2 ^ 32

theorem fits2d (hpitch : pitch ≤ 8192) (hheight : height ≤ 8192) (hx : x < pitch)
    (hy : y < height) : Fits2d x y pitch := by
  have hproduct : y / 32 * (pitch / 32) ≤ 255 * 256 := Nat.mul_le_mul (by omega) (by omega)
  refine ⟨?_, ?_, ?_⟩ <;> omega

theorem fits3d (hpitch : pitch ≤ 2048) (hheight : height ≤ 2048) (hx : x < pitch) (hy : y < height)
    (hz : z < 1024) : Fits3d x y z pitch height := by
  have hslab : z / 4 * (height / 16) ≤ 255 * 128 := Nat.mul_le_mul (by omega) (by omega)
  have hproduct : (z / 4 * (height / 16) + y / 16) * (pitch / 32) ≤ (255 * 128 + 127) * 64 :=
    Nat.mul_le_mul (by omega) (by omega)
  refine ⟨?_, ?_, ?_, ?_, ?_⟩ <;> omega

end numbers

/-- Different coordinates in range have different offsets, multiples of the size of a block
inside the pages of the storage. -/
structure StoresBlocks {α : Type} (offset : α → BitVec 64) (inRange : Set α) (bytes storage : ℕ) :
    Prop where
  injective : Set.InjOn offset inRange
  multiple : ∀ c ∈ inRange, bytes ∣ (offset c).toNat
  below : ∀ c ∈ inRange, (offset c).toNat < (storage + 4095) / 4096 * 4096

/-- The multiples of the size of a block that lie in the storage. -/
def Blocks (bytes storage : ℕ) : Set ℕ := {o | bytes ∣ o ∧ o < storage}

/-- Coordinates of a surface. -/
abbrev Coordinate2d : Type := BitVec 32 × BitVec 32

/-- Coordinates of a volume. -/
abbrev Coordinate3d : Type := BitVec 32 × BitVec 32 × BitVec 32

def InRange2d (pitch height : ℕ) : Set Coordinate2d :=
  {c | c.1.toNat < pitch ∧ c.2.toNat < height}

def InRange3d (pitch height depth : ℕ) : Set Coordinate3d :=
  {c | c.1.toNat < pitch ∧ c.2.1.toNat < height ∧ c.2.2.toNat < depth}

section storage

variable {pitch height bytes : BitVec 32}

theorem bytes_pos (hbytes : bytes ∈ [1, 2, 4, 8, 16]) : 0 < bytes.toNat := by
  rw [(log2_block hbytes).2.1]
  exact Nat.two_pow_pos _

theorem surface_eq (hbytes : bytes ∈ [1, 2, 4, 8, 16]) (hpitch : pitch.toNat ≤ 8192)
    (hheight : height.toNat ≤ 8192) {c : Coordinate2d}
    (hc : c ∈ InRange2d pitch.toNat height.toNat) :
    (tiledOffset2d c.1 c.2 pitch bytes).toNat =
      offset2d c.1.toNat c.2.toNat pitch.toNat bytes.toNat :=
  toNat_tiledOffset2d hbytes (fits2d hpitch hheight hc.1 hc.2).2.2

theorem volume_eq (hbytes : bytes ∈ [1, 2, 4, 8, 16]) (hpitch : pitch.toNat ≤ 2048)
    (hheight : height.toNat ≤ 2048) {depth : ℕ} (hdepth : depth ≤ 1024) {c : Coordinate3d}
    (hc : c ∈ InRange3d pitch.toNat height.toNat depth) :
    (tiledOffset3d c.1 c.2.1 c.2.2 pitch height bytes).toNat =
      offset3d c.1.toNat c.2.1.toNat c.2.2.toNat pitch.toNat height.toNat bytes.toNat := by
  have hfits := fits3d hpitch hheight hc.1 hc.2.1 (lt_of_lt_of_le hc.2.2 hdepth)
  exact toNat_tiledOffset3d hbytes hfits.2.1 hfits.2.2.2.2

theorem surface_stored (hbytes : bytes ∈ [1, 2, 4, 8, 16]) (hpitch : pitch.toNat ≤ 8192)
    (hheight : height.toNat ≤ 8192) (hpitch32 : pitch.toNat % 32 = 0)
    (hheight32 : height.toNat % 32 = 0) :
    StoresBlocks (fun c : Coordinate2d => tiledOffset2d c.1 c.2 pitch bytes)
      (InRange2d pitch.toNat height.toNat) bytes.toNat
      (pitch.toNat * height.toNat * bytes.toNat) where
  injective c hc c' hc' h := by
    have hnumber := congrArg BitVec.toNat h
    dsimp only at hnumber
    rw [surface_eq hbytes hpitch hheight hc, surface_eq hbytes hpitch hheight hc'] at hnumber
    obtain ⟨hx, hy⟩ := offset2d_inj (bytes_pos hbytes) hpitch32 hc.1 hc'.1 hnumber
    exact Prod.ext (BitVec.eq_of_toNat_eq hx) (BitVec.eq_of_toNat_eq hy)
  multiple c hc := by
    rw [surface_eq hbytes hpitch hheight hc]
    exact dvd_combine (log2_block hbytes).2.2 _ _ _ _
  below c hc := by
    rw [surface_eq hbytes hpitch hheight hc]
    exact offset2d_lt (bytes_pos hbytes) hpitch32 hheight32 hc.1 hc.2

theorem volume_stored (hbytes : bytes ∈ [1, 2, 4, 8, 16]) (hpitch : pitch.toNat ≤ 2048)
    (hheight : height.toNat ≤ 2048) (hpitch32 : pitch.toNat % 32 = 0)
    (hheight32 : height.toNat % 32 = 0) {depth slabs : ℕ} (hdepth : depth ≤ 1024)
    (hslabs : depth ≤ 4 * slabs) :
    StoresBlocks (fun c : Coordinate3d => tiledOffset3d c.1 c.2.1 c.2.2 pitch height bytes)
      (InRange3d pitch.toNat height.toNat depth) bytes.toNat
      (pitch.toNat * height.toNat * bytes.toNat * (4 * slabs)) where
  injective c hc c' hc' h := by
    have hnumber := congrArg BitVec.toNat h
    dsimp only at hnumber
    rw [volume_eq hbytes hpitch hheight hdepth hc, volume_eq hbytes hpitch hheight hdepth hc']
      at hnumber
    obtain ⟨hx, hy, hz⟩ := offset3d_inj (bytes_pos hbytes) hpitch32 hheight32 hc.1 hc'.1 hc.2.1
      hc'.2.1 hnumber
    exact Prod.ext (BitVec.eq_of_toNat_eq hx)
      (Prod.ext (BitVec.eq_of_toNat_eq hy) (BitVec.eq_of_toNat_eq hz))
  multiple c hc := by
    rw [volume_eq hbytes hpitch hheight hdepth hc]
    exact dvd_combine (log2_block hbytes).2.2 _ _ _ _
  below c hc := by
    rw [volume_eq hbytes hpitch hheight hdepth hc]
    exact offset3d_lt (bytes_pos hbytes) hpitch32 hheight32 hc.1 hc.2.1
      (lt_of_lt_of_le hc.2.2 hslabs)

/-- The offsets of all the blocks of a range fill its storage. -/
theorem image_eq {α β : Type} {offset : α → BitVec 64} {inRange : Set α} {bytes storage : ℕ}
    (hstored : StoresBlocks offset inRange bytes storage) (hpages : 4096 ∣ storage)
    {s : Finset β} {c : β → α} (hc : ∀ n ∈ s, c n ∈ inRange) (hinj : Set.InjOn c s)
    (hstorage : storage = s.card * bytes) :
    (fun c => (offset c).toNat) '' inRange = Blocks bytes storage := by
  have hround : (storage + 4095) / 4096 * 4096 = storage := by omega
  ext o
  constructor
  · rintro ⟨c, hc, rfl⟩
    exact ⟨hstored.multiple c hc, hround ▸ hstored.below c hc⟩
  · rintro ⟨hdvd, hlt⟩
    obtain ⟨n, hn, ho⟩ := exists_of_card (s := s) (f := fun n => (offset (c n)).toNat)
      (fun a ha b hb h => hinj ha hb (hstored.injective (hc a ha) (hc b hb)
        (BitVec.eq_of_toNat_eq h)))
      (fun n hn => hstored.multiple _ (hc n hn))
      (fun n hn => by rw [← hstorage, ← hround]; exact hstored.below _ (hc n hn)) hdvd
      (by rwa [← hstorage])
    exact ⟨c n, hc n hn, ho⟩

theorem surface_filled (hbytes : bytes ∈ [1, 2, 4, 8, 16]) (hpitch : pitch.toNat ≤ 8192)
    (hheight : height.toNat ≤ 8192) (hpitch32 : pitch.toNat % 32 = 0)
    (hheight32 : height.toNat % 32 = 0)
    (hpages : 4096 ∣ pitch.toNat * height.toNat * bytes.toNat) :
    (fun c : Coordinate2d => (tiledOffset2d c.1 c.2 pitch bytes).toNat) ''
        InRange2d pitch.toNat height.toNat =
      Blocks bytes.toNat (pitch.toNat * height.toNat * bytes.toNat) := by
  have hsmall : ∀ n, n < 8192 → (BitVec.ofNat 32 n).toNat = n := fun n hn =>
    (BitVec.toNat_ofNat n 32).trans (Nat.mod_eq_of_lt (lt_trans hn (by decide)))
  refine image_eq (surface_stored hbytes hpitch hheight hpitch32 hheight32) hpages
    (s := Finset.range pitch.toNat ×ˢ Finset.range height.toNat)
    (c := fun p => (BitVec.ofNat 32 p.1, BitVec.ofNat 32 p.2)) (fun p hp => ?_)
    (fun p hp q hq h => ?_) ?_
  · obtain ⟨hx, hy⟩ := Finset.mem_product.mp hp
    rw [Finset.mem_range] at hx hy
    rw [InRange2d, Set.mem_ofPred_eq, hsmall _ (by omega), hsmall _ (by omega)]
    exact ⟨hx, hy⟩
  · obtain ⟨hx, hy⟩ := Finset.mem_product.mp hp
    obtain ⟨hx', hy'⟩ := Finset.mem_product.mp hq
    rw [Finset.mem_range] at hx hy hx' hy'
    obtain ⟨h1, h2⟩ := Prod.mk.inj h
    have h1 := congrArg BitVec.toNat h1
    have h2 := congrArg BitVec.toNat h2
    rw [hsmall _ (by omega), hsmall _ (by omega)] at h1 h2
    exact Prod.ext h1 h2
  · rw [Finset.card_product, Finset.card_range, Finset.card_range]

theorem volume_filled (hbytes : bytes ∈ [1, 2, 4, 8, 16]) (hpitch : pitch.toNat ≤ 2048)
    (hheight : height.toNat ≤ 2048) (hpitch32 : pitch.toNat % 32 = 0)
    (hheight32 : height.toNat % 32 = 0) {slabs : ℕ} (hdepth : 4 * slabs ≤ 1024)
    (hpages : 4096 ∣ pitch.toNat * height.toNat * bytes.toNat * (4 * slabs)) :
    (fun c : Coordinate3d => (tiledOffset3d c.1 c.2.1 c.2.2 pitch height bytes).toNat) ''
        InRange3d pitch.toNat height.toNat (4 * slabs) =
      Blocks bytes.toNat (pitch.toNat * height.toNat * bytes.toNat * (4 * slabs)) := by
  have hsmall : ∀ n, n < 2048 → (BitVec.ofNat 32 n).toNat = n := fun n hn =>
    (BitVec.toNat_ofNat n 32).trans (Nat.mod_eq_of_lt (lt_trans hn (by decide)))
  refine image_eq (volume_stored hbytes hpitch hheight hpitch32 hheight32 hdepth le_rfl) hpages
    (s := Finset.range pitch.toNat ×ˢ (Finset.range height.toNat ×ˢ Finset.range (4 * slabs)))
    (c := fun p => (BitVec.ofNat 32 p.1, BitVec.ofNat 32 p.2.1, BitVec.ofNat 32 p.2.2))
    (fun p hp => ?_) (fun p hp q hq h => ?_) ?_
  · obtain ⟨hx, hyz⟩ := Finset.mem_product.mp hp
    obtain ⟨hy, hz⟩ := Finset.mem_product.mp hyz
    rw [Finset.mem_range] at hx hy hz
    rw [InRange3d, Set.mem_ofPred_eq, hsmall _ (by omega), hsmall _ (by omega),
      hsmall _ (by omega)]
    exact ⟨hx, hy, hz⟩
  · obtain ⟨hx, hyz⟩ := Finset.mem_product.mp hp
    obtain ⟨hy, hz⟩ := Finset.mem_product.mp hyz
    obtain ⟨hx', hyz'⟩ := Finset.mem_product.mp hq
    obtain ⟨hy', hz'⟩ := Finset.mem_product.mp hyz'
    rw [Finset.mem_range] at hx hy hz hx' hy' hz'
    obtain ⟨h1, h23⟩ := Prod.mk.inj h
    obtain ⟨h2, h3⟩ := Prod.mk.inj h23
    have h1 := congrArg BitVec.toNat h1
    have h2 := congrArg BitVec.toNat h2
    have h3 := congrArg BitVec.toNat h3
    rw [hsmall _ (by omega), hsmall _ (by omega)] at h1 h2 h3
    exact Prod.ext h1 (Prod.ext h2 h3)
  · rw [Finset.card_product, Finset.card_product, Finset.card_range, Finset.card_range,
      Finset.card_range]
    ring

/-- **Tiling.**  The blocks of a surface of whole tiles, and those of a volume, lie at
different multiples of their size inside the pages of the storage, and no 32-bit operation
wraps; where the storage is whole pages they fill it, those of a volume up to the depth that
is a multiple of 4. -/
theorem tiled_offsets_bijective (hbytes : bytes ∈ [1, 2, 4, 8, 16])
    (hpitch32 : pitch.toNat % 32 = 0) (hheight32 : height.toNat % 32 = 0) :
    (pitch.toNat ≤ 8192 → height.toNat ≤ 8192 →
      StoresBlocks (fun c : Coordinate2d => tiledOffset2d c.1 c.2 pitch bytes)
        (InRange2d pitch.toNat height.toNat) bytes.toNat
        (pitch.toNat * height.toNat * bytes.toNat) ∧
      (∀ c ∈ InRange2d pitch.toNat height.toNat, Fits2d c.1.toNat c.2.toNat pitch.toNat) ∧
      (4096 ∣ pitch.toNat * height.toNat * bytes.toNat →
        (fun c : Coordinate2d => (tiledOffset2d c.1 c.2 pitch bytes).toNat) ''
            InRange2d pitch.toNat height.toNat =
          Blocks bytes.toNat (pitch.toNat * height.toNat * bytes.toNat))) ∧
    (pitch.toNat ≤ 2048 → height.toNat ≤ 2048 → ∀ depth ≤ 1024,
      StoresBlocks (fun c : Coordinate3d => tiledOffset3d c.1 c.2.1 c.2.2 pitch height bytes)
        (InRange3d pitch.toNat height.toNat depth) bytes.toNat
        (pitch.toNat * height.toNat * bytes.toNat * (4 * ((depth + 3) / 4))) ∧
      (∀ c ∈ InRange3d pitch.toNat height.toNat depth,
        Fits3d c.1.toNat c.2.1.toNat c.2.2.toNat pitch.toNat height.toNat) ∧
      (4096 ∣ pitch.toNat * height.toNat * bytes.toNat * (4 * ((depth + 3) / 4)) →
        (fun c : Coordinate3d => (tiledOffset3d c.1 c.2.1 c.2.2 pitch height bytes).toNat) ''
            InRange3d pitch.toNat height.toNat (4 * ((depth + 3) / 4)) =
          Blocks bytes.toNat
            (pitch.toNat * height.toNat * bytes.toNat * (4 * ((depth + 3) / 4))))) := by
  constructor
  · intro hpitch hheight
    exact ⟨surface_stored hbytes hpitch hheight hpitch32 hheight32,
      fun c hc => fits2d hpitch hheight hc.1 hc.2,
      surface_filled hbytes hpitch hheight hpitch32 hheight32⟩
  · intro hpitch hheight depth hdepth
    exact ⟨volume_stored hbytes hpitch hheight hpitch32 hheight32 hdepth (by omega),
      fun c hc => fits3d hpitch hheight hc.1 hc.2.1 (lt_of_lt_of_le hc.2.2 hdepth),
      volume_filled hbytes hpitch hheight hpitch32 hheight32 (by omega)⟩

/-- A texture of one tile of colours, and one of four slices. -/
theorem tiled_offsets_one_tile :
    (fun c : Coordinate2d => (tiledOffset2d c.1 c.2 32 4).toNat) '' InRange2d 32 32 =
        Blocks 4 4096 ∧
      (fun c : Coordinate3d => (tiledOffset3d c.1 c.2.1 c.2.2 32 32 4).toNat) ''
        InRange3d 32 32 4 = Blocks 4 16384 := by
  have hall := @tiled_offsets_bijective 32 32 4 (by decide) rfl rfl
  exact ⟨(hall.1 (by decide) (by decide)).2.2 (by decide),
    (hall.2 (by decide) (by decide) 4 (by decide)).2.2 (by decide)⟩

end storage

/-- A place in the first slice has no bit of weight 32 or 64. -/
theorem block3d_slice {x y : ℕ} (hx : x < 32) (hy : y < 32) :
    block3d x y 0 32 32 < 32 ∨ 128 ≤ block3d x y 0 32 32 ∧ block3d x y 0 32 32 < 160 := by
  have hline : y / 2 % 4 ≤ 3 := Nat.le_of_lt_succ (Nat.mod_lt _ (by decide))
  have hcolumn : x % 8 ≤ 7 := Nat.le_of_lt_succ (Nat.mod_lt _ (by decide))
  have hplace : block3d x y 0 32 32 = y / 16 * 128 + (y / 2 % 4 * 8 + x % 8) := by
    rw [block3d, Nat.div_eq_of_lt hx, Nat.zero_div, Nat.zero_mod, Nat.zero_mul,
      Nat.zero_add, Nat.zero_add, Nat.add_zero, Nat.div_self (by decide : 0 < 32), Nat.mul_one]
  have hrow : y / 16 = 0 ∨ y / 16 = 1 := by omega
  rw [hplace]
  rcases hrow with h | h <;> rw [h] <;> omega

/-- The slice of a volume of depth 1 does not fill the storage, which has four. -/
theorem one_slice_leaves_gaps :
    (fun c : Coordinate3d => (tiledOffset3d c.1 c.2.1 c.2.2 32 32 1).toNat) '' InRange3d 32 32 1 ≠
      Blocks 1 (32 * 32 * 1 * 4) := by
  intro h
  have hmem : 256 ∈ Blocks 1 (32 * 32 * 1 * 4) := ⟨one_dvd _, by decide⟩
  rw [← h] at hmem
  obtain ⟨c, hc, ho⟩ := hmem
  have hz : c.2.2.toNat = 0 := Nat.lt_one_iff.mp hc.2.2
  have hnumber := @volume_eq 32 32 1 (by decide) (by decide) (by decide) 1 (by decide) c hc
  have hplace := block3d_slice hc.1 hc.2.1
  have hpitch : (32 : BitVec 32).toNat = 32 := rfl
  have hbytes : (1 : BitVec 32).toNat = 1 := rfl
  dsimp only at ho
  rw [ho, hz, hpitch, hbytes, offset3d, Nat.mul_one] at hnumber
  obtain ⟨place, hplaceEq⟩ : ∃ place, place = block3d c.1.toNat c.2.1.toNat 0 32 32 := ⟨_, rfl⟩
  have hbank : bank3d c.2.1.toNat 0 < 2 := Nat.mod_lt _ (by decide)
  obtain ⟨-, -, -, -, hdigit, -, htop⟩ := @combine_digits place _ _ _ hbank
    (pipe3d_lt c.1.toNat c.2.1.toNat 0) (Nat.mod_lt c.2.1.toNat (show 0 < 2 by decide))
  rw [hplaceEq, ← hnumber, ← hplaceEq] at hdigit htop
  rw [← hplaceEq] at hplace
  clear ho hc h hnumber hplaceEq
  omega

end Gpu
end XenonRecomp
