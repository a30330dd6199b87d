/-
# Single bits of machine words

Tests, updates and masks of a word, one bit at a time.  A test of a word against
a power of two looks at one bit, and a mask that is built by setting bits in any
order is determined by which bits were set.
-/

import Mathlib.Algebra.Order.Ring.Int
import Mathlib.Data.BitVec

namespace XenonRecomp
namespace Bits

variable {w : ℕ}

/-- A test against a power of two is a bit. -/
theorem and_twoPow_bne_zero (x : BitVec w) {k : ℕ} (hk : k < w) :
    (x &&& BitVec.twoPow w k != 0) = x.getLsbD k := by
  rw [BitVec.and_twoPow]
  cases hx : x.getLsbD k with
  | false => simp
  | true =>
    have hne : BitVec.twoPow w k ≠ 0#w := by
      intro h0
      have hbit := congrArg (BitVec.getLsbD · k) h0
      simp [hk] at hbit
    simpa using hne

/-- Setting a bit that is set changes nothing. -/
theorem or_twoPow_of_getLsbD {x : BitVec w} {k : ℕ} (hx : x.getLsbD k = true) :
    x ||| BitVec.twoPow w k = x := by
  refine BitVec.eq_of_getLsbD_eq fun j hj => ?_
  rw [BitVec.getLsbD_or, BitVec.getLsbD_twoPow]
  by_cases hjk : k = j
  · subst hjk
    simp [hx]
  · simp [hjk]

/-- Clearing a bit that is clear changes nothing. -/
theorem and_not_twoPow_of_getLsbD {x : BitVec w} {k : ℕ} (hx : x.getLsbD k = false) :
    x &&& ~~~BitVec.twoPow w k = x := by
  refine BitVec.eq_of_getLsbD_eq fun j hj => ?_
  rw [BitVec.getLsbD_and, BitVec.getLsbD_not, BitVec.getLsbD_twoPow]
  by_cases hjk : k = j
  · subst hjk
    simp [hx]
  · simp [hjk, hj]

/-- The bits of a mask built by setting bits one after another. -/
theorem getLsbD_foldl_or (bits : List ℕ) (mask : BitVec w) {j : ℕ} (hj : j < w) :
    (bits.foldl (fun m b => m ||| 1#w <<< (w - 1 - b)) mask).getLsbD j =
      (mask.getLsbD j || decide (∃ b ∈ bits, w - 1 - b = j)) := by
  induction bits generalizing mask with
  | nil => simp
  | cons b bits ih =>
    have hbit : (1#w <<< (w - 1 - b)).getLsbD j = decide (w - 1 - b = j) := by
      rw [← BitVec.twoPow_eq, BitVec.getLsbD_twoPow]
      have hlt : w - 1 - b < w := by omega
      simp [hlt]
    rw [List.foldl_cons, ih, BitVec.getLsbD_or, hbit, Bool.or_assoc]
    congr 1
    simp [← Bool.decide_or]

/-- A test against a mask of single bits is a test of one of them. -/
theorem and_mask_bne_zero (x : BitVec w) {bits : List ℕ} (hbits : ∀ b ∈ bits, b < w) :
    (x &&& bits.foldr (fun b mask => BitVec.twoPow w b ||| mask) 0#w != 0) =
      bits.any x.getLsbD := by
  induction bits with
  | nil => simp
  | cons b bits ih =>
    have hsplit (y z : BitVec w) : (y ||| z != 0) = ((y != 0) || (z != 0)) := by
      rw [Bool.eq_iff_iff]
      simp only [bne_iff_ne, Bool.or_eq_true, ne_eq]
      exact (not_congr BitVec.or_eq_zero_iff).trans not_and_or
    have hrest : ∀ b ∈ bits, b < w := fun b hb => hbits b (List.mem_cons_of_mem _ hb)
    rw [List.foldr_cons, BitVec.and_or_distrib_left, hsplit, ih hrest,
      and_twoPow_bne_zero x (hbits b List.mem_cons_self), List.any_cons]

/-- Setting or clearing one bit. -/
theorem getLsbD_assign (x : BitVec w) (value : Bool) {k j : ℕ} (hj : j < w) :
    (if value then x ||| BitVec.twoPow w k else x &&& ~~~BitVec.twoPow w k).getLsbD j =
      if j = k then value else x.getLsbD j := by
  by_cases hjk : j = k
  · subst hjk
    cases value <;> simp [hj]
  · cases value <;> simp [hjk, hj]

end Bits
end XenonRecomp
