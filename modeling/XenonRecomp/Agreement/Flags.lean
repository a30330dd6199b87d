/-
# Flags and masks computed two ways

Compiled code computes the flags of integer instructions from comparisons, sign
bits and sticky bits; the interpreter calls helpers.  The masks of the rotates
are built by loops on both sides.
-/

import XenonRecomp.Agreement.Basic
import XenonRecomp.Fallback.Integer
import XenonRecomp.Library.Bits

namespace XenonRecomp
namespace Agreement

open Cpu Machine Emission Lifter

section masks

variable {w mb me : ℕ}

/-- The lifter's loop, as a walk over the bits it sets. -/
theorem archMask_eq_foldl :
    archMask w mb me = ((List.range w).filter fun p =>
      decide (if mb ≤ me then mb ≤ p ∧ p ≤ me else mb ≤ p ∨ p ≤ me)).foldl
        Fallback.setArchBit 0 := by
  rw [List.foldl_filter, archMask]
  simp only [decide_eq_true_eq]
  rfl

/-- Both loops set the same bits. -/
theorem archMask_eq (hmb : mb < w) (hme : me < w) :
    archMask w mb me = Fallback.maskLoop w mb me := by
  refine BitVec.eq_of_getLsbD_eq fun j hj => ?_
  rw [archMask_eq_foldl, Fallback.maskLoop]
  unfold Fallback.setArchBit
  split_ifs with hle
  · rw [Bits.getLsbD_foldl_or _ _ hj, Bits.getLsbD_foldl_or _ _ hj]
    congr 2
    refine propext (exists_congr fun p => and_congr_left fun _ => ?_)
    simp only [List.mem_filter, List.mem_range, List.mem_range'_1, decide_eq_true_eq]
    omega
  · rw [Bits.getLsbD_foldl_or _ _ hj, Bits.getLsbD_foldl_or _ _ hj, Bits.getLsbD_foldl_or _ _ hj,
      Bool.or_assoc, ← Bool.decide_or]
    congr 2
    rw [← propext exists_or]
    refine propext (exists_congr fun p => ?_)
    simp only [List.mem_filter, List.mem_range, List.mem_range'_1, decide_eq_true_eq,
      ← or_and_right]
    refine and_congr_left fun _ => ?_
    omega

theorem mask64_eq (mb me : ℕ) : mask64 mb me = Fallback.mask64 mb me :=
  archMask_eq (Nat.mod_lt _ (by decide)) (Nat.mod_lt _ (by decide))

theorem mask32_eq (mb me : ℕ) : mask32 mb me = Fallback.mask32 mb me :=
  archMask_eq (Nat.mod_lt _ (by decide)) (Nat.mod_lt _ (by decide))

/-- The inverted mask of `rlwimix`, cut to a word. -/
theorem inverse_mask (mask : BitVec 32) :
    (~~~(mask.setWidth 64) &&& 0xFFFFFFFF#64).setWidth 32 = ~~~mask := by
  refine BitVec.eq_of_getLsbD_eq fun j hj => ?_
  have hones : (0xFFFFFFFF#64).getLsbD j = true := by
    have : ∀ j < 32, (0xFFFFFFFF#64).getLsbD j = true := by decide
    exact this j hj
  rw [BitVec.getLsbD_setWidth, BitVec.getLsbD_and, BitVec.getLsbD_not, BitVec.getLsbD_setWidth,
    BitVec.getLsbD_not, hones]
  simp [hj, show j < 64 by omega]

end masks

section rotates

/-- A rotate by a field of at most 32 bits. -/
theorem rotateLeft32_field (v : BitVec 32) {k : ℕ} (x : BitVec k) (hk : k ≤ 32) :
    rotateLeft32 v (x.setWidth 32) = v.rotateLeft x.toNat := by
  rw [rotateLeft32, BitVec.toNat_setWidth_of_le hk, BitVec.rotateLeft_mod_eq_rotateLeft]

theorem rotateLeft64_field (v : BitVec 64) {k : ℕ} (x : BitVec k) (hk : k ≤ 32) :
    rotateLeft64 v (x.setWidth 32) = v.rotateLeft x.toNat := by
  rw [rotateLeft64, BitVec.toNat_setWidth_of_le hk, BitVec.rotateLeft_mod_eq_rotateLeft]

/-- A rotate by the low bits of a register. -/
theorem rotateLeft32_register (v : BitVec 32) (x : BitVec 64) :
    rotateLeft32 v (x.setWidth 32) = v.rotateLeft (x &&& 31#64).toNat := by
  have hx : (x &&& 31#64).toNat = x.toNat % 2 ^ 5 := by
    rw [BitVec.toNat_and]
    exact Nat.and_two_pow_sub_one_eq_mod x.toNat 5
  rw [rotateLeft32, hx, BitVec.toNat_setWidth]
  congr 1
  omega

theorem rotateLeft64_register (v : BitVec 64) (x : BitVec 64) :
    rotateLeft64 v ((x &&& 63#64).setWidth 32) = v.rotateLeft (x &&& 63#64).toNat := by
  have hx : (x &&& 63#64).toNat = x.toNat % 2 ^ 6 := by
    rw [BitVec.toNat_and]
    exact Nat.and_two_pow_sub_one_eq_mod x.toNat 6
  rw [rotateLeft64, BitVec.toNat_setWidth, hx]
  congr 1
  omega

end rotates

section flags

variable (s : CpuState)

theorem xerSO_eq : xerSO = BitVec.twoPow 32 31 := by decide

theorem xerOV_eq : xerOV = BitVec.twoPow 32 30 := by decide

theorem xerCA_eq : xerCA = BitVec.twoPow 32 29 := by decide

theorem xerSo_eq : s.xerSo = s.xer.getLsbD 31 := by
  rw [CpuState.xerSo, xerSO_eq, Bits.and_twoPow_bne_zero _ (by decide)]

theorem xerOv_eq : s.xerOv = s.xer.getLsbD 30 := by
  rw [CpuState.xerOv, xerOV_eq, Bits.and_twoPow_bne_zero _ (by decide)]

/-- The sticky SO that compiled code computes from the old one. -/
theorem setXerOverflow_sticky (p : Bool) :
    (s.setXerOv p).setXerSo (s.xerSo || p) = s.setXerOverflow p := by
  cases p with
  | true => simp [CpuState.setXerOverflow]
  | false =>
    simp only [Bool.or_false, CpuState.setXerOverflow, Bool.false_eq_true, if_false]
    have hbit : (s.setXerOv false).xer.getLsbD 31 = s.xerSo := by
      rw [xerSo_eq]
      simp [CpuState.setXerOv, xerOV_eq]
    have hxer : ((s.setXerOv false).setXerSo s.xerSo).xer = (s.setXerOv false).xer := by
      rw [← hbit]
      cases hso : (s.setXerOv false).xer.getLsbD 31 with
      | true => exact Bits.or_twoPow_of_getLsbD hso
      | false => exact Bits.and_not_twoPow_of_getLsbD hso
    exact congrArg (fun x => ({ s.setXerOv false with xer := x } : CpuState)) hxer

/-- Recording an overflow changes nothing exactly when OV already has it and SO
is set if it is one. -/
theorem setXerOverflow_eq_self_iff (p : Bool) :
    s.setXerOverflow p = s ↔ p = s.xerOv ∧ (p = true → s.xerSo = true) := by
  constructor
  · intro h
    have hov : (s.setXerOverflow p).xerOv = p := by
      cases p <;> simp [xerOv_eq, CpuState.setXerOverflow, CpuState.setXerOv, CpuState.setXerSo,
        xerOV_eq, xerSO_eq]
    have hso : p = true → (s.setXerOverflow p).xerSo = true := by
      rintro rfl
      simp [xerSo_eq, CpuState.setXerOverflow, CpuState.setXerSo, xerSO_eq]
    rw [h] at hov hso
    exact ⟨hov.symm, hso⟩
  · rintro ⟨rfl, hso⟩
    cases hov : s.xerOv with
    | false =>
      rw [xerOv_eq] at hov
      have hxer : s.xer &&& ~~~xerOV = s.xer := Bits.and_not_twoPow_of_getLsbD hov
      simp [CpuState.setXerOverflow, CpuState.setXerOv, hxer]
    | true =>
      have hso' := hso hov
      rw [xerOv_eq] at hov
      rw [xerSo_eq] at hso'
      have hxer : s.xer ||| xerOV = s.xer := Bits.or_twoPow_of_getLsbD hov
      have hxer' : s.xer ||| xerSO = s.xer := Bits.or_twoPow_of_getLsbD hso'
      simp [CpuState.setXerOverflow, CpuState.setXerOv, CpuState.setXerSo, hxer, hxer']

/-- The carry written is read back. -/
theorem xerCa_setXerCa (p : Bool) : (s.setXerCa p).xerCa = p := by
  rw [CpuState.xerCa, xerCA_eq, Bits.and_twoPow_bne_zero _ (by decide)]
  cases p <;> simp [CpuState.setXerCa, xerCA_eq]

/-- A comparison has three outcomes. -/
theorem compareNibble_of_eq {lt gt eq : Bool} (so : Bool)
    (heq : lt = false → gt = false → eq = true) :
    compareNibble lt gt eq so = (if lt then 0x8 else if gt then 0x4 else 0x2) |||
      (if so then 1 else 0) := by
  cases lt <;> cases gt <;> simp [compareNibble, heq]

theorem eq_of_not_slt {w : ℕ} {x y : BitVec w} (hlt : x.slt y = false) (hgt : y.slt x = false) :
    x = y := by
  rw [BitVec.slt_eq_decide, decide_eq_false_iff_not] at hlt hgt
  exact BitVec.eq_of_toInt_eq (by omega)

theorem eq_of_not_ult {w : ℕ} {x y : BitVec w} (hlt : x.ult y = false) (hgt : y.ult x = false) :
    x = y := by
  rw [BitVec.ult, decide_eq_false_iff_not] at hlt hgt
  exact BitVec.eq_of_toNat_eq (by omega)

/-- Words compare as they do when widened. -/
theorem ult_setWidth (x y : BitVec 32) : (x.setWidth 64).ult (y.setWidth 64) = x.ult y := by
  rw [BitVec.ult, BitVec.ult, BitVec.toNat_setWidth_of_le (by decide),
    BitVec.toNat_setWidth_of_le (by decide)]

/-- A comparison with zero as a record of CR0. -/
theorem setCrField_compare (x : BitVec 64) :
    s.setCrField 0 (compareNibble (x.slt 0) (BitVec.slt 0 x) (x == 0) s.xerSo) =
      s.updateCr0Signed x := by
  rw [compareNibble_of_eq _ fun hlt hgt => beq_iff_eq.2 (eq_of_not_slt hlt hgt)]
  rfl

end flags

section overflow

/-- The sign bit tested by a mask. -/
theorem sign_bne_zero (x : BitVec 64) : (x &&& 0x8000000000000000 != 0) = x.getLsbD 63 :=
  Bits.and_twoPow_bne_zero (w := 64) x (k := 63) (by decide)

theorem addCarry_false (a b : BitVec 64) : Aot.addCarry a b false = a + b := by
  simp [Aot.addCarry]

theorem addCarry_not_true (a b : BitVec 64) : Aot.addCarry a (~~~b) true = a - b := by
  have h1 : (BitVec.ofBool true).setWidth 64 = 1#64 := by decide
  rw [Aot.addCarry, h1, BitVec.sub_eq_add_neg, BitVec.neg_eq_not_add, BitVec.add_assoc]

theorem carryOut_false (a b : BitVec 64) : Aot.carryOut a b false = (a + b).ult a := by
  simp [Aot.carryOut, BitVec.ult]

theorem signedAddOverflow_eq (a b : BitVec 64) (carry : Bool) :
    Aot.signedAddOverflow a b carry =
      ((a ^^^ Aot.addCarry a b carry) &&& (b ^^^ Aot.addCarry a b carry)).getLsbD 63 :=
  sign_bne_zero _

/-- The overflow of a sum, from the signs of the operands. -/
theorem overflow_add (a c : BitVec 64) :
    ((a ^^^ (a + c)) &&& (c ^^^ (a + c)) &&& 0x8000000000000000#64 != 0#64) =
      Aot.signedAddOverflow a c false := by
  rw [signedAddOverflow_eq, addCarry_false]
  exact sign_bne_zero _

/-- The overflow of a difference, from the signs of the operands. -/
theorem overflow_sub (a c : BitVec 64) :
    ((a ^^^ c) &&& (a ^^^ (a - c)) &&& 0x8000000000000000#64 != 0#64) =
      Aot.signedAddOverflow a (~~~c) true := by
  rw [signedAddOverflow_eq, addCarry_not_true]
  refine (sign_bne_zero _).trans ?_
  simp only [BitVec.getLsbD_and, BitVec.getLsbD_xor, BitVec.getLsbD_not]
  cases a.getLsbD 63 <;> cases c.getLsbD 63 <;> cases (a - c).getLsbD 63 <;> rfl

/-- No borrow, as a comparison or an equality. -/
theorem ult_or_eq (a c : BitVec 64) : (c.ult a || a == c) = c.ule a := by
  rw [Bool.eq_iff_iff]
  simp only [BitVec.ult, BitVec.ule, Bool.or_eq_true, decide_eq_true_eq, beq_iff_eq]
  constructor
  · rintro (h | rfl)
    · omega
    · exact le_refl _
  · intro h
    rcases Nat.lt_or_eq_of_le h with h | h
    · exact .inl h
    · exact .inr (BitVec.eq_of_toNat_eq h.symm)

end overflow

end Agreement
end XenonRecomp
