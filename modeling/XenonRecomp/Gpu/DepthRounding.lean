/-
# Rounding of depth to `20e4`

Between two codes the values of a code, cut in eight, run evenly
(`codeMagnitude_succ`), and `rebias` gives the eighth that a float lies in.  In
the range of normal codes the float is the lower end of its eighth; below it the
shift has dropped what the float has beyond it (`rebias_bracket`).
-/

import Mathlib.Tactic.IntervalCases
import Mathlib.Tactic.Ring
import XenonRecomp.Gpu.DepthFormat
import XenonRecomp.Library.CodeRounding

namespace XenonRecomp
namespace Gpu

open Library.CodeRounding

/-- The distance of a code's value to the next, in units of `2 ^ -34`. -/
def codeStep (code : ℕ) : ℕ := 2 ^ (code / 2 ^ 20 - 1)

theorem codeStep_pos (code : ℕ) : 0 < codeStep code :=
  Nat.two_pow_pos _

/-- The values of consecutive codes are a step apart, also where the exponent changes. -/
theorem codeMagnitude_succ (code : ℕ) :
    codeMagnitude (code + 1) = codeMagnitude code + codeStep code := by
  unfold codeMagnitude codeStep
  by_cases hlast : code % 2 ^ 20 = 2 ^ 20 - 1
  · have hdiv : (code + 1) / 2 ^ 20 = code / 2 ^ 20 + 1 := by omega
    have hmod : (code + 1) % 2 ^ 20 = 0 := by omega
    rw [hdiv, hmod, hlast]
    by_cases hzero : code / 2 ^ 20 = 0
    · rw [hzero, if_neg (by omega), if_pos rfl]
      omega
    · obtain ⟨e, he⟩ := Nat.exists_eq_add_of_lt (Nat.pos_of_ne_zero hzero)
      rw [if_neg (by omega), if_neg hzero, he]
      simp only [Nat.zero_add, Nat.add_sub_cancel, Nat.pow_succ]
      ring
  · have hdiv : (code + 1) / 2 ^ 20 = code / 2 ^ 20 := by omega
    have hmod : (code + 1) % 2 ^ 20 = code % 2 ^ 20 + 1 := by omega
    rw [hdiv, hmod]
    by_cases hzero : code / 2 ^ 20 = 0
    · rw [if_pos hzero, if_pos hzero, hzero]
      rfl
    · rw [if_neg hzero, if_neg hzero]
      ring

/-- The values of the codes increase. -/
theorem strictMono_codeValue : StrictMono codeValue := by
  refine strictMono_nat_of_lt_succ fun code => ?_
  have hlt : codeMagnitude code < codeMagnitude (code + 1) := by
    rw [codeMagnitude_succ]
    have := codeStep_pos code
    omega
  unfold codeValue
  rw [div_lt_div_iff_of_pos_right (by positivity)]
  exact_mod_cast hlt

/-- The significand of a normal float: its mantissa with the implicit bit. -/
theorem toNat_significand (value : BitVec 32) :
    ((0x00800000 : BitVec 32) ||| (value &&& 0x007FFFFF)).toNat =
      2 ^ 23 + Float32.fraction value := by
  have hadd := Nat.two_pow_add_eq_or_of_lt (Nat.mod_lt value.toNat (Nat.two_pow_pos 23)) 1
  rw [BitVec.toNat_or, BitVec.toNat_and]
  change 2 ^ 23 * 1 ||| (value.toNat &&& (2 ^ 23 - 1)) = _
  rw [Nat.and_two_pow_sub_one_eq_mod, ← hadd]
  rfl

/-- What `rebias` computes below the normal codes. -/
theorem toNat_rebias_low {value : BitVec 32} (h : value < 0x38800000) :
    (rebias value).toNat =
      (2 ^ 23 + Float32.fraction value) / 2 ^ min (113 - value.toNat / 2 ^ 23) 24 := by
  rw [rebias, if_pos h]
  dsimp only
  rw [BitVec.toNat_ushiftRight, toNat_significand, Nat.shiftRight_eq_div_pow,
    BitVec.toNat_ushiftRight, Nat.shiftRight_eq_div_pow]

/-- What `rebias` computes from the normal codes on. -/
theorem toNat_rebias_high {value : BitVec 32} (h : ¬ value < 0x38800000) :
    (rebias value).toNat = value.toNat - 0x38000000 := by
  rw [rebias, if_neg h]
  bv_omega

/-- The float lies below the normal codes, the eighth that it falls in is the middle
one after an even code, and the shift has dropped a bit of it. -/
def TieBitsDropped (value : BitVec 32) : Prop :=
  value < 0x38800000 ∧
    (2 ^ 23 + Float32.fraction value) / 2 ^ (113 - Float32.exponent value) % 16 = 4 ∧
    (2 ^ 23 + Float32.fraction value) % 2 ^ (113 - Float32.exponent value) ≠ 0

instance (value : BitVec 32) : Decidable (TieBitsDropped value) :=
  inferInstanceAs (Decidable (_ ∧ _))

/-- The lower end of an eighth between two codes, in units of `2 ^ -37`. -/
def eighthMagnitude (eighth : ℕ) : ℕ :=
  8 * codeMagnitude (eighth / 8) + eighth % 8 * codeStep (eighth / 8)

/-- The eighths follow each other. -/
theorem eighthMagnitude_succ (eighth : ℕ) :
    eighthMagnitude (eighth + 1) = eighthMagnitude eighth + codeStep (eighth / 8) := by
  unfold eighthMagnitude
  by_cases hlast : eighth % 8 = 7
  · have hdiv : (eighth + 1) / 8 = eighth / 8 + 1 := by omega
    have hmod : (eighth + 1) % 8 = 0 := by omega
    rw [hdiv, hmod, hlast, codeMagnitude_succ]
    omega
  · have hdiv : (eighth + 1) / 8 = eighth / 8 := by omega
    have hmod : (eighth + 1) % 8 = eighth % 8 + 1 := by omega
    rw [hdiv, hmod, Nat.add_mul, Nat.one_mul, Nat.add_assoc]

/-- The eighths increase. -/
theorem strictMono_eighthMagnitude : StrictMono eighthMagnitude := by
  refine strictMono_nat_of_lt_succ fun eighth => ?_
  rw [eighthMagnitude_succ]
  exact Nat.lt_add_of_pos_right (codeStep_pos _)

/-- Where a float lies: in an eighth between two codes, at a remainder beyond its
lower end. -/
structure Bracketed (value : BitVec 32) (remainder : ℕ) : Prop where
  lt : remainder < codeStep ((rebias value).toNat / 8) * 2 ^ 112
  magnitude : Float32.magnitude value =
    eighthMagnitude (rebias value).toNat * 2 ^ 112 + remainder
  dropped : TieBitsDropped value ↔ (rebias value).toNat % 16 = 4 ∧ remainder ≠ 0

/-- Below the denormal codes' resolution nothing is left of a float. -/
theorem bracketed_tiny {value : BitVec 32} (h : Float32.exponent value < 90)
    (hlow : value < 0x38800000) : Bracketed value (Float32.magnitude value) := by
  have he : value.toNat / 2 ^ 23 = Float32.exponent value := by
    unfold Float32.exponent
    bv_omega
  have hfraction : Float32.fraction value < 2 ^ 23 := Nat.mod_lt _ (Nat.two_pow_pos 23)
  have hshift : min (113 - Float32.exponent value) 24 = 24 := by omega
  have hzero : (rebias value).toNat = 0 := by
    rw [toNat_rebias_low hlow, he, hshift]
    omega
  have hpow : 2 ^ (Float32.exponent value - 1) ≤ 2 ^ 88 :=
    Nat.pow_le_pow_right (by decide) (by omega)
  have hlt : Float32.magnitude value < 2 ^ 112 := by
    unfold Float32.magnitude
    split
    · omega
    · calc (2 ^ 23 + Float32.fraction value) * 2 ^ (Float32.exponent value - 1)
          ≤ (2 ^ 23 + Float32.fraction value) * 2 ^ 88 := Nat.mul_le_mul_left _ hpow
        _ < 2 ^ 112 := by omega
  refine ⟨?_, ?_, ?_⟩
  · rw [hzero]
    simpa [codeStep] using hlt
  · rw [hzero]
    simp [eighthMagnitude, codeMagnitude]
  · rw [hzero]
    refine iff_of_false ?_ (by simp)
    rintro ⟨-, hfour, -⟩
    have hbig : 2 ^ 24 ≤ 2 ^ (113 - Float32.exponent value) :=
      Nat.pow_le_pow_right (by decide) (by omega)
    rw [Nat.div_eq_of_lt (by omega)] at hfour
    exact absurd hfour (by decide)

/-- In the range of the denormal codes the shift leaves the eighth of a float and
drops the rest. -/
theorem bracketed_denormal {value : BitVec 32} (h : 90 ≤ Float32.exponent value)
    (hlow : value < 0x38800000) :
    Bracketed value ((2 ^ 23 + Float32.fraction value) % 2 ^ (113 - Float32.exponent value) *
      2 ^ (Float32.exponent value - 1)) := by
  have he : value.toNat / 2 ^ 23 = Float32.exponent value := by
    unfold Float32.exponent
    bv_omega
  have hlt : Float32.exponent value < 113 := by
    rw [← he]
    bv_omega
  have hfraction : Float32.fraction value < 2 ^ 23 := Nat.mod_lt _ (Nat.two_pow_pos 23)
  have hfine : (rebias value).toNat =
      (2 ^ 23 + Float32.fraction value) / 2 ^ (113 - Float32.exponent value) := by
    rw [toNat_rebias_low hlow, he, min_eq_left (by omega)]
  obtain ⟨shift, hshift⟩ : ∃ shift, 113 - Float32.exponent value = shift + 1 :=
    ⟨112 - Float32.exponent value, by omega⟩
  have hexp : Float32.exponent value - 1 = 111 - shift := by omega
  have hsum : 2 ^ (shift + 1) * 2 ^ (111 - shift) = 2 ^ 112 := by
    rw [← Nat.pow_add]
    congr 1
    omega
  have hmagnitude : Float32.magnitude value =
      (2 ^ 23 + Float32.fraction value) * 2 ^ (111 - shift) := by
    rw [Float32.magnitude, if_neg (by omega), hexp]
  rw [hshift] at hfine
  rw [hshift, hexp]
  generalize hsig : 2 ^ 23 + Float32.fraction value = significand at *
  have hsmall : significand / 2 ^ (shift + 1) < 2 ^ 23 := by
    have hhalf : significand / 2 ^ (shift + 1) ≤ significand / 2 := by
      refine Nat.div_le_div_left ?_ (by decide)
      calc 2 = 2 ^ 1 := rfl
        _ ≤ 2 ^ (shift + 1) := Nat.pow_le_pow_right (by decide) (by omega)
    omega
  have hcode : (rebias value).toNat / 8 / 2 ^ 20 = 0 := by omega
  have hstep : codeStep ((rebias value).toNat / 8) = 1 := by
    rw [codeStep, hcode]
    rfl
  refine ⟨?_, ?_, ?_⟩
  · rw [hstep, Nat.one_mul, ← hsum]
    exact Nat.mul_lt_mul_of_pos_right (Nat.mod_lt _ (Nat.two_pow_pos _)) (Nat.two_pow_pos _)
  · have hdiv : 8 * ((rebias value).toNat / 8) + (rebias value).toNat % 8 =
        significand / 2 ^ (shift + 1) := by omega
    rw [eighthMagnitude, hstep, codeMagnitude, if_pos hcode, Nat.mul_one, hdiv, ← hsum, ← Nat.mul_assoc,
      ← Nat.add_mul, Nat.div_add_mod', hmagnitude]
  · rw [hfine]
    unfold TieBitsDropped
    rw [hsig, hshift]
    have hpos := Nat.two_pow_pos (111 - shift)
    constructor
    · rintro ⟨-, hfour, hne⟩
      exact ⟨hfour, Nat.mul_ne_zero hne hpos.ne'⟩
    · rintro ⟨hfour, hne⟩
      exact ⟨hlow, hfour, fun hzero => hne (by rw [hzero, Nat.zero_mul])⟩

/-- In the range of the normal codes nothing is dropped. -/
theorem bracketed_normal {value : BitVec 32} (hlow : ¬ value < 0x38800000)
    (hhigh : value < 0x3FFFFFF8) : Bracketed value 0 := by
  have he : value.toNat / 2 ^ 23 = Float32.exponent value := by
    unfold Float32.exponent
    bv_omega
  have hfine := toNat_rebias_high hlow
  have hge : 113 ≤ Float32.exponent value := by
    rw [← he]
    bv_omega
  have hcode : (rebias value).toNat / 8 / 2 ^ 20 = Float32.exponent value - 112 := by
    rw [hfine, ← he]
    bv_omega
  have hmod : 8 * ((rebias value).toNat / 8 % 2 ^ 20) + (rebias value).toNat % 8 =
      Float32.fraction value := by
    rw [hfine]
    unfold Float32.fraction
    bv_omega
  obtain ⟨e, hexp⟩ := Nat.exists_eq_add_of_le hge
  have hone : Float32.exponent value - 112 = e + 1 := by omega
  refine ⟨?_, ?_, ?_⟩
  · exact Nat.mul_pos (codeStep_pos _) (Nat.two_pow_pos _)
  · rw [eighthMagnitude, codeMagnitude, codeStep, if_neg (by omega), hcode, hone, Float32.magnitude,
      if_neg (by omega), ← hmod, hexp]
    have hpow : 113 + e - 1 = e + 112 := by omega
    rw [hpow, Nat.pow_add, Nat.add_sub_cancel]
    ring
  · refine iff_of_false (fun h => hlow h.1) ?_
    simp

/-- **Where a float lies between the codes.** -/
theorem exists_bracketed {value : BitVec 32} (hhigh : value < 0x3FFFFFF8) :
    ∃ remainder, Bracketed value remainder := by
  by_cases hlow : value < 0x38800000
  · by_cases h : Float32.exponent value < 90
    · exact ⟨_, bracketed_tiny h hlow⟩
    · exact ⟨_, bracketed_denormal (not_lt.1 h) hlow⟩
  · exact ⟨_, bracketed_normal hlow hhigh⟩

/-- The largest code. -/
abbrev topCode : ℕ := kFloat20e4Mask.toNat

/-- The code's value in the unit of the floats. -/
theorem codeValue_eq (code : ℕ) :
    codeValue code = (8 * codeMagnitude code * 2 ^ 112 : ℕ) / (2 ^ 149 : ℕ) := by
  rw [codeValue, div_eq_div_iff (by positivity) (by positivity)]
  push_cast
  ring

/-- Values are compared as multiples of the floats' unit. -/
theorem ratio_lt_iff {m n : ℕ} :
    (m : ℚ) / (2 ^ 149 : ℕ) < (n : ℚ) / (2 ^ 149 : ℕ) ↔ m < n := by
  rw [div_lt_div_iff_of_pos_right (by positivity), Nat.cast_lt]

theorem ratio_le_iff {m n : ℕ} :
    (m : ℚ) / (2 ^ 149 : ℕ) ≤ (n : ℚ) / (2 ^ 149 : ℕ) ↔ m ≤ n := by
  rw [div_le_div_iff_of_pos_right (by positivity), Nat.cast_le]

theorem ratio_add (m n : ℕ) :
    (m : ℚ) / (2 ^ 149 : ℕ) + (n : ℚ) / (2 ^ 149 : ℕ) = ((m + n : ℕ) : ℚ) / (2 ^ 149 : ℕ) := by
  rw [← add_div, Nat.cast_add]

namespace Bracketed

variable {value : BitVec 32} {remainder : ℕ}

/-- The two codes around the float and the float on one scale. -/
theorem exists_scale (h : Bracketed value remainder) :
    ∃ base step, 0 < step ∧ remainder < step ∧
      8 * codeMagnitude ((rebias value).toNat / 8) * 2 ^ 112 = base ∧
      8 * codeMagnitude ((rebias value).toNat / 8 + 1) * 2 ^ 112 = base + 8 * step ∧
      Float32.magnitude value = base + (rebias value).toNat % 8 * step + remainder := by
  refine ⟨_, codeStep ((rebias value).toNat / 8) * 2 ^ 112,
    Nat.mul_pos (codeStep_pos _) (Nat.two_pow_pos _), h.lt, rfl, ?_, ?_⟩
  · rw [codeMagnitude_succ, Nat.mul_add, Nat.add_mul, Nat.mul_assoc 8 (codeStep _)]
  · rw [h.magnitude, eighthMagnitude, Nat.add_mul, Nat.mul_assoc ((rebias value).toNat % 8)]

/-- The float is not below the code of its eighth. -/
theorem codeValue_le (h : Bracketed value remainder) :
    codeValue ((rebias value).toNat / 8) ≤ Float32.value value := by
  obtain ⟨base, step, -, -, hbase, -, hmagnitude⟩ := h.exists_scale
  rw [codeValue_eq, Float32.value, ratio_le_iff, hbase, hmagnitude, Nat.add_assoc]
  exact Nat.le_add_right _ _

/-- The float is below the next code. -/
theorem lt_codeValue (h : Bracketed value remainder) :
    Float32.value value < codeValue ((rebias value).toNat / 8 + 1) := by
  obtain ⟨base, step, -, hlt, -, hnext, hmagnitude⟩ := h.exists_scale
  have hk : (rebias value).toNat % 8 * step ≤ 7 * step := Nat.mul_le_mul_right _ (by omega)
  rw [codeValue_eq, Float32.value, ratio_lt_iff, hnext, hmagnitude]
  omega

/-- Where the float lies from the middle of the two codes around it. -/
theorem compare_middle (h : Bracketed value remainder) :
    (Float32.value value + Float32.value value <
        codeValue ((rebias value).toNat / 8) + codeValue ((rebias value).toNat / 8 + 1) ↔
      (rebias value).toNat % 8 < 4) ∧
    (codeValue ((rebias value).toNat / 8) + codeValue ((rebias value).toNat / 8 + 1) <
        Float32.value value + Float32.value value ↔
      4 < (rebias value).toNat % 8 ∨ (rebias value).toNat % 8 = 4 ∧ remainder ≠ 0) := by
  obtain ⟨base, step, hpos, hlt, hbase, hnext, hmagnitude⟩ := h.exists_scale
  rw [codeValue_eq, codeValue_eq, Float32.value, ratio_add, ratio_add, ratio_lt_iff,
    ratio_lt_iff, hbase, hnext, hmagnitude]
  have hk : (rebias value).toNat % 8 < 8 := Nat.mod_lt _ (by decide)
  generalize (rebias value).toNat % 8 = k at *
  interval_cases k <;> constructor <;> constructor <;> intro h <;> omega

end Bracketed

/-- The float of the largest code, and every float above it, is not below the
largest code's value. -/
theorem codeValue_top_le {value : BitVec 32} (hsaturated : 0x3FFFFFF8 ≤ value)
    (hfinite : value < 0x7F800000) : codeValue topCode ≤ Float32.value value := by
  have htop : 8 * codeMagnitude topCode * 2 ^ 112 = (2 ^ 24 - 8) * 2 ^ 126 := by decide
  rw [codeValue_eq, Float32.value, ratio_le_iff, htop]
  have hge : 127 ≤ Float32.exponent value := by
    unfold Float32.exponent
    bv_omega
  rw [Float32.magnitude, if_neg (by omega)]
  rcases Nat.eq_or_lt_of_le hge with heq | hgt
  · have hfraction : 2 ^ 23 - 8 ≤ Float32.fraction value := by
      unfold Float32.exponent at heq
      unfold Float32.fraction
      bv_omega
    rw [← heq]
    exact Nat.mul_le_mul_right _ (by omega)
  · calc (2 ^ 24 - 8) * 2 ^ 126 ≤ 2 ^ 23 * 2 ^ 127 := by decide
      _ ≤ (2 ^ 23 + Float32.fraction value) * 2 ^ (Float32.exponent value - 1) :=
        Nat.mul_le_mul (Nat.le_add_right _ _) (Nat.pow_le_pow_right (by decide) (by omega))

/-- The eighths end below the largest code's. -/
theorem toNat_rebias_lt {value : BitVec 32} (hhigh : value < 0x3FFFFFF8) :
    (rebias value).toNat < 0x7FFFFF8 := by
  by_cases hlow : value < 0x38800000
  · have hfraction : Float32.fraction value < 2 ^ 23 := Nat.mod_lt _ (Nat.two_pow_pos 23)
    have hdiv := Nat.div_le_self (2 ^ 23 + Float32.fraction value)
      (2 ^ min (113 - value.toNat / 2 ^ 23) 24)
    rw [toNat_rebias_low hlow]
    omega
  · rw [toNat_rebias_high hlow]
    bv_omega

/-- The code's bits of an eighth. -/
theorem toNat_reduce {bits : BitVec 32} (h : bits.toNat < 0x8000000) :
    ((bits >>> 3) &&& kFloat20e4Mask).toNat = bits.toNat / 8 := by
  rw [BitVec.toNat_and, BitVec.toNat_ushiftRight, Nat.shiftRight_eq_div_pow]
  change bits.toNat / 2 ^ 3 &&& (2 ^ 24 - 1) = _
  rw [Nat.and_two_pow_sub_one_eq_mod]
  omega

/-- The code of a float that is not saturated, without rounding. -/
theorem toNat_truncate {value : BitVec 32} (hpos : Float32.positive value = true)
    (hhigh : value < 0x3FFFFFF8) :
    (float32To20e4 value .truncate).toNat = (rebias value).toNat / 8 := by
  have hlt := toNat_rebias_lt hhigh
  rw [float32To20e4, hpos, if_neg (by decide), if_neg (by bv_omega)]
  have hbits : (rebias value).toNat < 0x8000000 := by omega
  exact toNat_reduce hbits

/-- The code of a float that is not saturated, with rounding. -/
theorem toNat_nearestEven {value : BitVec 32} (hpos : Float32.positive value = true)
    (hhigh : value < 0x3FFFFFF8) :
    (float32To20e4 value .nearestEven).toNat =
      ((rebias value).toNat + (3 + (rebias value).toNat / 8 % 2)) / 8 := by
  have hlt := toNat_rebias_lt hhigh
  have hbit : ((rebias value >>> 3) &&& 1).toNat = (rebias value).toNat / 8 % 2 := by
    rw [BitVec.toNat_and, BitVec.toNat_ushiftRight, Nat.shiftRight_eq_div_pow]
    exact Nat.and_two_pow_sub_one_eq_mod _ 1
  have hsum : (rebias value + ((3 : BitVec 32) + ((rebias value >>> 3) &&& 1))).toNat =
      (rebias value).toNat + (3 + (rebias value).toNat / 8 % 2) := by
    rw [BitVec.toNat_add, BitVec.toNat_add, hbit]
    change ((rebias value).toNat + (3 + _) % 2 ^ 32) % 2 ^ 32 = _
    omega
  rw [float32To20e4, hpos, if_neg (by decide), if_neg (by bv_omega)]
  dsimp only
  rw [toNat_reduce (by omega), hsum]

/-- A positive finite float passes the test for a positive float. -/
theorem positive_of_positiveFinite {value : BitVec 32} (h : Float32.PositiveFinite value) :
    Float32.positive value = true := by
  obtain ⟨hpos, hlt⟩ := h
  rw [Float32.positive, Bool.and_eq_true, decide_eq_true_iff, decide_eq_true_iff]
  exact ⟨hpos, by bv_omega⟩

/-- The code of a saturated float. -/
theorem float32To20e4_saturated {value : BitVec 32} (hpos : Float32.positive value = true)
    (hsaturated : 0x3FFFFFF8 ≤ value) (rounding : Float20e4Rounding) :
    float32To20e4 value rounding = kFloat20e4Mask := by
  rw [float32To20e4, hpos, if_neg (by decide), if_pos hsaturated]

/-- A saturated float has no eighth that drops a tie. -/
theorem not_tieBitsDropped_saturated {value : BitVec 32} (hsaturated : 0x3FFFFFF8 ≤ value) :
    ¬ TieBitsDropped value := by
  rintro ⟨hlow, -⟩
  bv_omega

/-- The code after an eighth that is not saturated is a code still. -/
theorem succ_le_topCode {value : BitVec 32} (hhigh : value < 0x3FFFFFF8) :
    (rebias value).toNat / 8 + 1 ≤ topCode := by
  have hlt := toNat_rebias_lt hhigh
  change _ ≤ 0xFFFFFF
  omega

/-- **Truncation rounds down.** -/
theorem roundsDown_float32To20e4 {value : BitVec 32} (h : Float32.PositiveFinite value) :
    RoundsDown codeValue topCode (Float32.value value)
      (float32To20e4 value .truncate).toNat := by
  have hpos := positive_of_positiveFinite h
  by_cases hhigh : value < 0x3FFFFFF8
  · obtain ⟨remainder, hb⟩ := exists_bracketed hhigh
    rw [toNat_truncate hpos hhigh]
    exact roundsDown_of_bracket strictMono_codeValue
      (Nat.le_of_succ_le (succ_le_topCode hhigh)) hb.codeValue_le hb.lt_codeValue
  · have hsaturated : (0x3FFFFFF8 : BitVec 32) ≤ value := by bv_omega
    rw [float32To20e4_saturated hpos hsaturated]
    exact roundsDown_top (codeValue_top_le hsaturated h.2)

/-- **When rounding finds the nearest code.**  It does unless the shift to a denormal
mantissa has made the float look like a tie. -/
theorem roundsToEven_float32To20e4_iff {value : BitVec 32} (h : Float32.PositiveFinite value) :
    RoundsToEven codeValue topCode (Float32.value value)
        (float32To20e4 value .nearestEven).toNat ↔ ¬ TieBitsDropped value := by
  have hpos := positive_of_positiveFinite h
  by_cases hhigh : value < 0x3FFFFFF8
  · obtain ⟨remainder, hb⟩ := exists_bracketed hhigh
    obtain ⟨hbelow, habove⟩ := hb.compare_middle
    have htop := succ_le_topCode hhigh
    have hl := hb.codeValue_le
    have hu := hb.lt_codeValue.le
    rw [toNat_nearestEven hpos hhigh, hb.dropped]
    by_cases hup : 8 ≤ (rebias value).toNat % 8 + 3 + (rebias value).toNat / 8 % 2
    · have hcode : ((rebias value).toNat + (3 + (rebias value).toNat / 8 % 2)) / 8 =
          (rebias value).toNat / 8 + 1 := by omega
      rw [hcode, nearest_succ_iff_of_bracket strictMono_codeValue htop hl hu]
      refine iff_of_true ?_ (by omega)
      by_cases hgt : 4 < (rebias value).toNat % 8 ∨
          (rebias value).toNat % 8 = 4 ∧ remainder ≠ 0
      · exact Or.inl (habove.2 hgt)
      · refine Or.inr ⟨?_, Nat.even_iff.2 (by omega)⟩
        refine le_antisymm (not_lt.1 fun hlt => hgt (habove.1 hlt)) (not_lt.1 fun hlt => ?_)
        have := hbelow.1 hlt
        omega
    · have hcode : ((rebias value).toNat + (3 + (rebias value).toNat / 8 % 2)) / 8 =
          (rebias value).toNat / 8 := by omega
      rw [hcode, nearest_iff_of_bracket strictMono_codeValue htop hl hu]
      constructor
      · rintro (hlt | ⟨heq, -⟩) ⟨hfour, hne⟩
        · have := hbelow.1 hlt
          omega
        · exact absurd heq (habove.2 (Or.inr ⟨by omega, hne⟩)).ne'
      · intro hkept
        by_cases hlt : (rebias value).toNat % 8 < 4
        · exact Or.inl (hbelow.2 hlt)
        · refine Or.inr ⟨?_, Nat.even_iff.2 (by omega)⟩
          refine le_antisymm (not_lt.1 fun hgt => ?_) (not_lt.1 fun h => hlt (hbelow.1 h))
          have := habove.1 hgt
          omega
  · have hsaturated : (0x3FFFFFF8 : BitVec 32) ≤ value := by bv_omega
    rw [float32To20e4_saturated hpos hsaturated]
    exact iff_of_true (roundsToEven_top strictMono_codeValue (codeValue_top_le hsaturated h.2))
      (not_tieBitsDropped_saturated hsaturated)

/-- A larger float lies in no lower eighth. -/
theorem Bracketed.rebias_mono {x y : BitVec 32} {r s : ℕ} (hx : Bracketed x r)
    (hy : Bracketed y s) (hxy : Float32.value x ≤ Float32.value y) :
    (rebias x).toNat ≤ (rebias y).toNat := by
  rw [Float32.value, Float32.value, ratio_le_iff] at hxy
  have hlt : eighthMagnitude (rebias x).toNat * 2 ^ 112 <
      eighthMagnitude ((rebias y).toNat + 1) * 2 ^ 112 := by
    calc eighthMagnitude (rebias x).toNat * 2 ^ 112
        ≤ Float32.magnitude x := hx.magnitude ▸ Nat.le_add_right _ _
      _ ≤ Float32.magnitude y := hxy
      _ = eighthMagnitude (rebias y).toNat * 2 ^ 112 + s := hy.magnitude
      _ < eighthMagnitude (rebias y).toNat * 2 ^ 112 +
          codeStep ((rebias y).toNat / 8) * 2 ^ 112 := Nat.add_lt_add_left hy.lt _
      _ = eighthMagnitude ((rebias y).toNat + 1) * 2 ^ 112 := by
        rw [eighthMagnitude_succ, Nat.add_mul]
  have := strictMono_eighthMagnitude.lt_iff_lt.1 (Nat.lt_of_mul_lt_mul_right hlt)
  omega

/-- A float that is not saturated is below a saturated one. -/
theorem lt_saturated_of_le {x y : BitVec 32} (hx : Float32.PositiveFinite x)
    (hy : y < 0x3FFFFFF8) (hxy : Float32.value x ≤ Float32.value y) : x < 0x3FFFFFF8 := by
  by_contra hsaturated
  obtain ⟨remainder, hb⟩ := exists_bracketed hy
  have hle : codeValue topCode ≤ Float32.value y :=
    (codeValue_top_le (by bv_omega) hx.2).trans hxy
  have hlt : topCode < (rebias y).toNat / 8 + 1 :=
    strictMono_codeValue.lt_iff_lt.1 (hle.trans_lt hb.lt_codeValue)
  have := succ_le_topCode hy
  omega

/-- **Either conversion keeps the order.** -/
theorem float32To20e4_mono {x y : BitVec 32} (hx : Float32.PositiveFinite x)
    (hy : Float32.PositiveFinite y) (hxy : Float32.value x ≤ Float32.value y)
    (rounding : Float20e4Rounding) : float32To20e4 x rounding ≤ float32To20e4 y rounding := by
  rw [BitVec.le_def]
  cases rounding with
  | truncate =>
    exact (roundsDown_float32To20e4 hx).mono (roundsDown_float32To20e4 hy) hxy
  | nearestEven =>
    have hpos := positive_of_positiveFinite hx
    by_cases hhigh : y < 0x3FFFFFF8
    · have hlow := lt_saturated_of_le hx hhigh hxy
      obtain ⟨r, hr⟩ := exists_bracketed hlow
      obtain ⟨s, hs⟩ := exists_bracketed hhigh
      have hle := hr.rebias_mono hs hxy
      rw [toNat_nearestEven hpos hlow, toNat_nearestEven (positive_of_positiveFinite hy) hhigh]
      rcases Nat.eq_or_lt_of_le (Nat.div_le_div_right hle : (rebias x).toNat / 8 ≤ (rebias y).toNat / 8) with heq | hlt
      · rw [heq]
        omega
      · omega
    · rw [float32To20e4_saturated (positive_of_positiveFinite hy) (by bv_omega)]
      by_cases hlow : x < 0x3FFFFFF8
      · have hlt := toNat_rebias_lt hlow
        rw [toNat_nearestEven hpos hlow]
        change _ ≤ 0xFFFFFF
        omega
      · rw [float32To20e4_saturated hpos (by bv_omega)]

end Gpu
end XenonRecomp
