/-
# The carry, overflow, multiply and divide helpers are exact

Each helper of `include/xenon/cpu/aot_semantics.hpp` against the integers: the low word and
the carry of a sum, a signed sum or product that leaves its range, the high half of a
product, and a quotient; and the sequences of `src/cpu/ppc/lifter/integer.cpp` that compute
CA and OV without a helper.
-/

import Mathlib.Tactic.Ring
import XenonRecomp.Agreement.Integer

namespace XenonRecomp
namespace Agreement

open Cpu Ir Machine Run Emission Lifter

/-- A signed integer that a word of this width does not hold. -/
def OutOfRange (w : ℕ) (n : ℤ) : Prop := n < -2 ^ (w - 1) ∨ 2 ^ (w - 1) ≤ n

section sums

variable (a b : BitVec 64) (carry : Bool)

theorem toNat_carry : ((BitVec.ofBool carry).setWidth 64).toNat = carry.toNat := by
  cases carry <;> rfl

/-- **The low word and the carry of the sum.** -/
theorem addCarry_carryOut :
    (Aot.addCarry a b carry).toNat + 2 ^ 64 * (Aot.carryOut a b carry).toNat =
      a.toNat + b.toNat + carry.toNat := by
  have ha := a.isLt
  have hb := b.isLt
  have hcarry := Bool.toNat_le carry
  have hab : (a + b).toNat = (a.toNat + b.toNat) % 2 ^ 64 := BitVec.toNat_add a b
  have hsum : (Aot.addCarry a b carry).toNat = ((a + b).toNat + carry.toNat) % 2 ^ 64 := by
    rw [Aot.addCarry, BitVec.toNat_add, toNat_carry]
  have hout : Aot.carryOut a b carry = decide ((a + b).toNat < a.toNat ∨
      (Aot.addCarry a b carry).toNat < (a + b).toNat) := by
    rw [Bool.decide_or]
    rfl
  by_cases h : (a + b).toNat < a.toNat ∨ (Aot.addCarry a b carry).toNat < (a + b).toNat
  · rw [hout, decide_eq_true h, Bool.toNat_true]
    omega
  · rw [hout, decide_eq_false h, Bool.toNat_false]
    omega

/-- **A signed sum overflows** when the exact sum is out of range. -/
theorem signedAddOverflow_iff :
    Aot.signedAddOverflow a b carry = true ↔ OutOfRange 64 (a.toInt + b.toInt + carry.toNat) := by
  have ha := a.isLt
  have hb := b.isLt
  have hcarry := Bool.toNat_le carry
  have hr : (Aot.addCarry a b carry).toNat = (a.toNat + b.toNat + carry.toNat) % 2 ^ 64 := by
    rw [Aot.addCarry, BitVec.toNat_add, BitVec.toNat_add, toNat_carry, Nat.mod_add_mod]
  have hsign : ∀ x : BitVec 64, x.getLsbD 63 = decide (2 ^ 63 ≤ x.toNat) := fun x => by
    rw [← BitVec.msb_eq_getLsbD_last (x := x), BitVec.msb_eq_decide]
  rw [signedAddOverflow_eq, BitVec.getLsbD_and, BitVec.getLsbD_xor, BitVec.getLsbD_xor, hsign,
    hsign, hsign, OutOfRange, BitVec.toInt_eq_toNat_cond, BitVec.toInt_eq_toNat_cond]
  simp only [Bool.and_eq_true, bne_iff_ne, ne_eq, decide_eq_decide]
  split <;> split <;> omega

end sums

section products

variable (a b : BitVec 64)

/-- A product of halves is one of words. -/
theorem half_mul_half {x y : ℕ} (hx : x < 2 ^ 32) (hy : y < 2 ^ 32) :
    x * y ≤ (2 ^ 32 - 1) * (2 ^ 32 - 1) :=
  Nat.mul_le_mul (by omega) (by omega)

/-- **The high half of an unsigned product.** -/
theorem toNat_mulHiUnsigned :
    (Aot.mulHiUnsigned a b).toNat = a.toNat * b.toNat / 2 ^ 64 := by
  have ha := a.isLt
  have hb := b.isLt
  obtain ⟨a0, ha0⟩ : ∃ a0, a0 = a.toNat % 2 ^ 32 := ⟨_, rfl⟩
  obtain ⟨a1, ha1⟩ : ∃ a1, a1 = a.toNat / 2 ^ 32 := ⟨_, rfl⟩
  obtain ⟨b0, hb0⟩ : ∃ b0, b0 = b.toNat % 2 ^ 32 := ⟨_, rfl⟩
  obtain ⟨b1, hb1⟩ : ∃ b1, b1 = b.toNat / 2 ^ 32 := ⟨_, rfl⟩
  have hlow : ∀ x : BitVec 64, ((x.setWidth 32).setWidth 64).toNat = x.toNat % 2 ^ 32 := by
    intro x
    rw [BitVec.toNat_setWidth, BitVec.toNat_setWidth]
    omega
  have hhigh : ∀ x : BitVec 64, (x >>> 32).toNat = x.toNat / 2 ^ 32 := fun x => by
    rw [BitVec.toNat_ushiftRight, Nat.shiftRight_eq_div_pow]
  have h00 := half_mul_half (x := a0) (y := b0) (by omega) (by omega)
  have h01 := half_mul_half (x := a0) (y := b1) (by omega) (by omega)
  have h10 := half_mul_half (x := a1) (y := b0) (by omega) (by omega)
  have h11 := half_mul_half (x := a1) (y := b1) (by omega) (by omega)
  have hproduct : a.toNat * b.toNat =
      a1 * b1 * 2 ^ 64 + (a0 * b1 + a1 * b0) * 2 ^ 32 + a0 * b0 := by
    have hab : a.toNat = a1 * 2 ^ 32 + a0 := by omega
    have hbb : b.toNat = b1 * 2 ^ 32 + b0 := by omega
    rw [hab, hbb]
    ring
  rw [hproduct]
  simp only [Aot.mulHiUnsigned, BitVec.toNat_add, BitVec.toNat_mul, hlow, hhigh, ← ha0, ← ha1,
    ← hb0, ← hb1]
  generalize a0 * b0 = p00 at *
  generalize a0 * b1 = p01 at *
  generalize a1 * b0 = p10 at *
  generalize a1 * b1 = p11 at *
  omega

/-- The signed value of a word, from its unsigned one. -/
theorem toInt_eq_sub (x : BitVec 64) : x.toInt = x.toNat - 2 ^ 64 * ((x.slt 0).toNat : ℤ) := by
  have hx := x.isLt
  have hzero : (0 : BitVec 64).toInt = 0 := rfl
  rw [BitVec.slt, hzero]
  rw [BitVec.toInt_eq_toNat_cond]
  split
  · rw [decide_eq_false (by omega), Bool.toNat_false]
    omega
  · rw [decide_eq_true (by omega), Bool.toNat_true]
    omega

/-- A signed product needs two bits less than the words together. -/
theorem mul_bounds {w : ℕ} (x y : BitVec (w + 1)) :
    -2 ^ (2 * w) ≤ x.toInt * y.toInt ∧ x.toInt * y.toInt ≤ 2 ^ (2 * w) := by
  have hle : ∀ z : BitVec (w + 1), z.toInt.natAbs ≤ 2 ^ w := by
    intro z
    have hlow := BitVec.le_toInt z
    have hhigh := BitVec.toInt_lt (x := z)
    rw [Nat.add_sub_cancel] at hlow hhigh
    have hpow : ((2 ^ w : ℕ) : ℤ) = 2 ^ w := by
      rw [Nat.cast_pow]
      rfl
    omega
  have hmul : (x.toInt * y.toInt).natAbs ≤ 2 ^ (2 * w) := by
    rw [Int.natAbs_mul, Nat.two_mul, Nat.pow_add]
    exact Nat.mul_le_mul (hle x) (hle y)
  have hpow : ((2 ^ (2 * w) : ℕ) : ℤ) = 2 ^ (2 * w) := by
    rw [Nat.cast_pow]
    rfl
  omega

/-- A signed value in the range is determined by the word. -/
theorem toInt_eq_of_emod {x : BitVec 64} {n : ℤ} (hlow : -2 ^ 63 ≤ n) (hhigh : n < 2 ^ 63)
    (h : (x.toNat : ℤ) % 2 ^ 64 = n % 2 ^ 64) : x.toInt = n := by
  have hx := x.isLt
  rw [BitVec.toInt_eq_toNat_cond]
  split <;> omega

/-- **The high half of a signed product.** -/
theorem toInt_mulHiSigned : (Aot.mulHiSigned a b).toInt = a.toInt * b.toInt / 2 ^ 64 := by
  have ha := a.isLt
  have hb := b.isLt
  obtain ⟨hi, hhi⟩ : ∃ hi, hi = Aot.mulHiUnsigned a b := ⟨_, rfl⟩
  have hlt := hi.isLt
  have hunsigned : (hi.toNat : ℤ) = (a.toNat : ℤ) * b.toNat / 2 ^ 64 := by
    rw [hhi, toNat_mulHiUnsigned]
    push_cast
    rfl
  have hbounds := mul_bounds (w := 63) a b
  obtain ⟨high, hhigh⟩ : ∃ high, high = a.toInt * b.toInt / 2 ^ 64 := ⟨_, rfl⟩
  have hrange : -2 ^ 63 ≤ high ∧ high < 2 ^ 63 := by omega
  -- The corrections for the signs, as in the source.
  have hexact : high = hi.toNat - ((a.slt 0).toNat * b.toNat + (b.slt 0).toNat * a.toNat) +
      2 ^ 64 * ((a.slt 0).toNat * (b.slt 0).toNat) := by
    have hproduct : a.toInt * b.toInt = (a.toNat : ℤ) * b.toNat +
        (-((a.slt 0).toNat * b.toNat + (b.slt 0).toNat * a.toNat) +
          2 ^ 64 * ((a.slt 0).toNat * (b.slt 0).toNat)) * 2 ^ 64 := by
      rw [toInt_eq_sub a, toInt_eq_sub b]
      ring
    rw [hhigh, hproduct, Int.add_mul_ediv_right _ _ (by decide), hunsigned]
    ring
  rw [← hhigh]
  have hcode : Aot.mulHiSigned a b =
      (if b.slt 0 then (if a.slt 0 then hi - b else hi) - a
        else if a.slt 0 then hi - b else hi) := by
    rw [hhi]
    rfl
  rw [hcode]
  refine toInt_eq_of_emod hrange.1 hrange.2 ?_
  have hsub : ∀ x y : BitVec 64, (x - y).toNat = (2 ^ 64 - y.toNat + x.toNat) % 2 ^ 64 :=
    fun x y => BitVec.toNat_sub x y
  cases hsa : a.slt 0 <;> cases hsb : b.slt 0 <;> rw [hsa, hsb] at hexact
  case false.false =>
    change (hi.toNat : ℤ) % _ = _
    rw [hexact, Bool.toNat_false]
    omega
  case true.false =>
    change ((hi - b).toNat : ℤ) % _ = _
    rw [hsub, hexact, Bool.toNat_false, Bool.toNat_true]
    omega
  case false.true =>
    change ((hi - a).toNat : ℤ) % _ = _
    rw [hsub, hexact, Bool.toNat_false, Bool.toNat_true]
    omega
  case true.true =>
    change ((hi - b - a).toNat : ℤ) % _ = _
    rw [hsub, hsub, hexact, Bool.toNat_true]
    omega

end products

section overflow

variable (a b : BitVec 64)

/-- A product of positive factors is above a bound when one factor is above the quotient. -/
theorem mul_gt_iff {x y n : ℤ} (hy : 0 < y) (hn : 0 ≤ n) : n < x * y ↔ n.tdiv y < x := by
  rw [Int.tdiv_eq_ediv_of_nonneg hn, Int.ediv_lt_iff_lt_mul hy]

/-- A product with a positive factor is below a bound when the other is below the quotient. -/
theorem mul_lt_iff {x y n : ℤ} (hy : 0 < y) (hn : n ≤ 0) : x * y < n ↔ x < n.tdiv y := by
  have hneg : n.tdiv y = -((-n).tdiv y) := by rw [Int.neg_tdiv, neg_neg]
  have hgt := mul_gt_iff (x := -x) hy (neg_nonneg.mpr hn)
  rw [hneg, lt_neg, ← hgt, neg_mul, neg_lt_neg_iff]

/-- **A signed product overflows** when the exact product is out of range. -/
theorem mulOverflowSigned_iff :
    Aot.mulOverflowSigned a b false = true ↔ OutOfRange 64 (a.toInt * b.toInt) := by
  have ha := BitVec.le_toInt a
  have ha' := BitVec.toInt_lt (x := a)
  have hb := BitVec.le_toInt b
  have hb' := BitVec.toInt_lt (x := b)
  rw [OutOfRange, Aot.mulOverflowSigned, if_neg Bool.false_ne_true]
  generalize a.toInt = x at *
  generalize b.toInt = y at *
  have hhi : (2 ^ (64 - 1) : ℤ) ≤ x * y ↔ (2 ^ 63 - 1 : ℤ) < x * y := by omega
  dsimp only
  rw [hhi]
  by_cases hzero : x = 0 ∨ y = 0
  · have hproduct : x * y = 0 := mul_eq_zero.mpr hzero
    rw [if_pos hzero, hproduct]
    decide
  rw [if_neg hzero]
  rw [not_or] at hzero
  by_cases hx1 : x = -1
  · rw [if_pos hx1, hx1, decide_eq_true_eq]
    omega
  rw [if_neg hx1]
  by_cases hy1 : y = -1
  · rw [if_pos hy1, hy1, decide_eq_true_eq]
    omega
  rw [if_neg hy1]
  have hlow : (-2 ^ (64 - 1) : ℤ) ≤ 0 := by decide
  have hhigh : (0 : ℤ) ≤ 2 ^ 63 - 1 := by decide
  -- The product has a sign, so it can leave the range at one end only.
  rcases lt_or_gt_of_ne hzero.1 with hx | hx
  · rw [if_neg (not_lt.mpr hx.le)]
    rcases lt_or_gt_of_ne hzero.2 with hy | hy
    · have hpos : 0 < x * y := mul_pos_of_neg_of_neg hx hy
      have hgt := mul_gt_iff (x := -y) (neg_pos.mpr hx) hhigh
      rw [Int.tdiv_neg, neg_mul_neg, neg_lt_neg_iff, mul_comm y x] at hgt
      rw [if_neg (not_lt.mpr hy.le), decide_eq_true_eq, hgt]
      exact (or_iff_right (by omega)).symm
    · have hneg : x * y < 0 := mul_neg_of_neg_of_pos hx hy
      rw [if_pos hy, decide_eq_true_eq, ← mul_lt_iff hy hlow]
      exact (or_iff_left (by omega)).symm
  · rw [if_pos hx]
    rcases lt_or_gt_of_ne hzero.2 with hy | hy
    · have hneg : x * y < 0 := mul_neg_of_pos_of_neg hx hy
      rw [if_neg (not_lt.mpr hy.le), decide_eq_true_eq, ← mul_lt_iff hx hlow, mul_comm y x]
      exact (or_iff_left (by omega)).symm
    · have hpos : 0 < x * y := mul_pos hx hy
      rw [if_pos hy, decide_eq_true_eq, gt_iff_lt, ← mul_gt_iff hy hhigh]
      exact (or_iff_right (by omega)).symm

theorem mulOverflowSigned_word_iff :
    Aot.mulOverflowSigned a b true = true ↔
      OutOfRange 32 ((a.setWidth 32).toInt * (b.setWidth 32).toInt) := by
  rw [OutOfRange, Aot.mulOverflowSigned, if_pos rfl]
  simp only [Bool.or_eq_true, decide_eq_true_eq]
  omega

end overflow

section quotients

/-- There is no signed quotient: the divisor is zero, or the quotient is out of range. -/
def NoQuotient {w : ℕ} (x y : BitVec w) : Prop := y = 0 ∨ OutOfRange w (x.toInt.tdiv y.toInt)

theorem noQuotient_iff {w : ℕ} (hw : 1 < w) (x y : BitVec w) :
    NoQuotient x y ↔ y = 0 ∨ x = BitVec.intMin w ∧ y = -1 := by
  refine or_congr_right ⟨fun hout => ?_, ?_⟩
  · by_contra hne
    rw [not_and_or] at hne
    have hquotient := BitVec.toInt_sdiv_of_ne_or_ne x y hne
    have hlow := BitVec.le_toInt (x.sdiv y)
    have hhigh := BitVec.toInt_lt (x := x.sdiv y)
    rw [hquotient] at hlow hhigh
    rcases hout with hout | hout
    · exact absurd hout (not_lt.mpr hlow)
    · exact absurd hhigh (not_lt.mpr hout)
  · rintro ⟨rfl, rfl⟩
    have hmin : (BitVec.intMin w).toInt = -2 ^ (w - 1) := BitVec.toInt_intMin_of_pos (by omega)
    have hone : (-1 : BitVec w).toInt = -1 := by
      change (-1#w).toInt = -1
      rw [BitVec.neg_one_eq_allOnes, BitVec.toInt_allOnes, if_pos (by omega)]
    rw [hmin, hone, Int.tdiv_neg, Int.neg_tdiv, neg_neg, Int.tdiv_one]
    exact .inr le_rfl

/-- A quotient at one width: zero where there is none, and exact where there is one. -/
theorem divSignedAt_spec {w : ℕ} (hw : 1 < w) (x y : BitVec w) :
    (NoQuotient x y → Aot.divSignedAt x y = 0) ∧
      (¬ NoQuotient x y → (Aot.divSignedAt x y).toInt = x.toInt.tdiv y.toInt) := by
  rw [noQuotient_iff hw, Aot.divSignedAt]
  refine ⟨fun h => if_pos h, fun h => ?_⟩
  rw [if_neg h]
  rw [not_or, not_and_or] at h
  exact BitVec.toInt_sdiv_of_ne_or_ne x y h.2

variable (a b : BitVec 64)

theorem divOverflow_signed_iff :
    Aot.divOverflow a b false false = true ↔ NoQuotient a b := by
  rw [noQuotient_iff (by decide)]
  simp [Aot.divOverflow]

theorem divOverflow_signed_word_iff :
    Aot.divOverflow a b true false = true ↔ NoQuotient (a.setWidth 32) (b.setWidth 32) := by
  rw [noQuotient_iff (by decide)]
  simp [Aot.divOverflow]

theorem toNat_divUnsigned : (Aot.divUnsigned a b false).toNat = a.toNat / b.toNat :=
  BitVec.toNat_udiv

theorem toNat_divUnsigned_word :
    (Aot.divUnsigned a b true).toNat = (a.setWidth 32).toNat / (b.setWidth 32).toNat := by
  rw [Aot.divUnsigned, if_pos rfl, BitVec.toNat_setWidth_of_le (by decide), BitVec.toNat_udiv]

end quotients

section sequences

variable {σ : Type} (h : Host σ) {g : DecodedInstruction} {n : ValueId} {env : Env}
  {a c r : ValueId} {x y : BitVec 64}

theorem perform_setXerOverflow {p : Bool} (ha : a < n) (hp : env a = some (.i1 p)) :
    perform h (setXerOverflow a) g n env = modifyCpu (·.setXerOverflow p) := by
  funext m
  rw [perform, denote_setXerOverflow h ha hp]
  rfl

/-- `emit_ca_from_add` stores the carry of the sum. -/
theorem perform_emitCaFromAdd (hx : env a = some (.i64 x))
    (hsum : env r = some (.i64 (x + y))) :
    perform h (emitCaFromAdd a r) g n env =
      modifyCpu (·.setXerCa (Aot.carryOut x y false)) := by
  funext m
  simp [emitCaFromAdd, perform, hx, hsum, carryOut_false]

/-- The sign of a conjunction is stored as overflow. -/
theorem perform_emitOverflowSign {p q : BitVec 64} (hp : env a = some (.i64 p))
    (hq : env c = some (.i64 q)) :
    perform h (emitOverflowSign a c) g n env =
      modifyCpu (·.setXerOverflow (p &&& q &&& 0x8000000000000000#64 != 0#64)) := by
  funext m
  have hlast : n + 1 + 1 + 1 + 1 < n + 1 + 1 + 1 + 1 + 1 := Nat.lt_succ_self _
  simp [emitOverflowSign, emitBinary, hp, hq, perform_setXerOverflow h hlast]

/-- `emit_overflow_add` stores the overflow of the sum. -/
theorem perform_emitOverflowAdd (hc : c < n) (hr : r < n) (hx : env a = some (.i64 x))
    (hy : env c = some (.i64 y)) (hsum : env r = some (.i64 (x + y))) :
    perform h (emitOverflowAdd a c r) g n env =
      modifyCpu (·.setXerOverflow (Aot.signedAddOverflow x y false)) := by
  have hne : ∀ v < n, v ≠ n := fun v hv => Nat.ne_of_lt hv
  funext m
  simp [emitOverflowAdd, emitBinary, hx, hy, hsum, hne c hc, hne r hr,
    perform_emitOverflowSign h, overflow_add]

/-- `emit_overflow_sub` stores the overflow of the difference. -/
theorem perform_emitOverflowSub (ha : a < n) (hr : r < n) (hx : env a = some (.i64 x))
    (hy : env c = some (.i64 y)) (hdifference : env r = some (.i64 (x - y))) :
    perform h (emitOverflowSub a c r) g n env =
      modifyCpu (·.setXerOverflow (Aot.signedAddOverflow x (~~~y) true)) := by
  have hne : ∀ v < n, v ≠ n := fun v hv => Nat.ne_of_lt hv
  funext m
  simp [emitOverflowSub, emitBinary, hx, hy, hdifference, hne a ha, hne r hr,
    perform_emitOverflowSign h, overflow_sub]

end sequences

/-- **The helpers are exact**, and the emitted sequences compute what they do. -/
theorem helpers_exact (a b : BitVec 64) (carry : Bool) :
    ((Aot.addCarry a b carry).toNat + 2 ^ 64 * (Aot.carryOut a b carry).toNat =
      a.toNat + b.toNat + carry.toNat) ∧
    (Aot.signedAddOverflow a b carry = true ↔
      OutOfRange 64 (a.toInt + b.toInt + carry.toNat)) ∧
    (Aot.mulHiUnsigned a b).toNat = a.toNat * b.toNat / 2 ^ 64 ∧
    (Aot.mulHiSigned a b).toInt = a.toInt * b.toInt / 2 ^ 64 ∧
    (Aot.mulOverflowSigned a b false = true ↔ OutOfRange 64 (a.toInt * b.toInt)) ∧
    (Aot.mulOverflowSigned a b true = true ↔
      OutOfRange 32 ((a.setWidth 32).toInt * (b.setWidth 32).toInt)) ∧
    ((Aot.divOverflow a b false false = true ↔ NoQuotient a b) ∧
      (NoQuotient a b → Aot.divSigned a b false = 0) ∧
      (¬ NoQuotient a b → (Aot.divSigned a b false).toInt = a.toInt.tdiv b.toInt)) ∧
    ((Aot.divOverflow a b true false = true ↔ NoQuotient (a.setWidth 32) (b.setWidth 32)) ∧
      (NoQuotient (a.setWidth 32) (b.setWidth 32) → Aot.divSigned a b true = 0) ∧
      (¬ NoQuotient (a.setWidth 32) (b.setWidth 32) →
        ∃ q : BitVec 32, Aot.divSigned a b true = q.setWidth 64 ∧
          q.toInt = (a.setWidth 32).toInt.tdiv (b.setWidth 32).toInt)) ∧
    ((Aot.divOverflow a b false true = true ↔ b = 0) ∧
      (b = 0 → Aot.divUnsigned a b false = 0) ∧
      (Aot.divUnsigned a b false).toNat = a.toNat / b.toNat) ∧
    ((Aot.divOverflow a b true true = true ↔ b.setWidth 32 = 0) ∧
      (b.setWidth 32 = 0 → Aot.divUnsigned a b true = 0) ∧
      (Aot.divUnsigned a b true).toNat = (a.setWidth 32).toNat / (b.setWidth 32).toNat) ∧
    (∀ (σ : Type) (h : Host σ) (g : DecodedInstruction) (n : ValueId) (env : Env) (x y r : ValueId),
      x < n → y < n → r < n → env x = some (.i64 a) → env y = some (.i64 b) →
      (env r = some (.i64 (a + b)) →
        perform h (emitCaFromAdd x r) g n env =
            modifyCpu (·.setXerCa (Aot.carryOut a b false)) ∧
          perform h (emitOverflowAdd x y r) g n env =
            modifyCpu (·.setXerOverflow (Aot.signedAddOverflow a b false))) ∧
      (env r = some (.i64 (a - b)) →
        perform h (emitOverflowSub x y r) g n env =
          modifyCpu (·.setXerOverflow (Aot.signedAddOverflow a (~~~b) true)))) := by
  have hword := divSignedAt_spec (by decide) (a.setWidth 32) (b.setWidth 32)
  refine ⟨addCarry_carryOut a b carry, signedAddOverflow_iff a b carry, toNat_mulHiUnsigned a b,
    toInt_mulHiSigned a b, mulOverflowSigned_iff a b, mulOverflowSigned_word_iff a b,
    ⟨divOverflow_signed_iff a b, divSignedAt_spec (by decide) a b⟩,
    ⟨divOverflow_signed_word_iff a b, fun hno => ?_, fun hquotient => ⟨_, rfl, hword.2 hquotient⟩⟩,
    ⟨beq_iff_eq, fun hb => ?_, toNat_divUnsigned a b⟩,
    ⟨beq_iff_eq, fun hb => ?_, toNat_divUnsigned_word a b⟩,
    fun σ h g n env x y r hx hy hr ha hb => ⟨fun hsum => ?_, fun hdifference => ?_⟩⟩
  · rw [Aot.divSigned, if_pos rfl, hword.1 hno]
    rfl
  · rw [hb]
    exact BitVec.udiv_zero
  · rw [Aot.divUnsigned, if_pos rfl, hb]
    exact congrArg (BitVec.setWidth 64) BitVec.udiv_zero
  · exact ⟨perform_emitCaFromAdd h ha hsum, perform_emitOverflowAdd h hy hr ha hb hsum⟩
  · exact perform_emitOverflowSub h hx hr ha hb hdifference

/-- **At the ends of the range**: the least word minus one overflows. -/
theorem helpers_exact_least {σ : Type} (h : Host σ) (g : DecodedInstruction) :
    perform h (emitOverflowSub 0 1 2) g 3
        (((Env.empty.set 0 (.i64 (BitVec.intMin 64))).set 1 (.i64 1)).set 2
          (.i64 (BitVec.intMin 64 - 1))) =
      modifyCpu (·.setXerOverflow true) :=
  (helpers_exact (BitVec.intMin 64) 1 false).2.2.2.2.2.2.2.2.2.2 σ h g 3 _ 0 1 2 (by decide)
    (by decide) (by decide) rfl rfl |>.2 rfl

end Agreement
end XenonRecomp
