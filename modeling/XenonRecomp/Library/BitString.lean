/-
# Bits of a string of bytes

The bits of bytes, the high bit of each first: `bitAt` reads one, `orBit` sets one, and
`number` is the number that bits are, the first of them the highest.
-/

import Mathlib.Algebra.Order.Ring.Int
import Mathlib.Data.BitVec
import Mathlib.Data.List.GetD

namespace Library
namespace BitString

/-- The bit at a place. -/
def bitAt (data : List (BitVec 8)) (place : ℕ) : Bool :=
  (data.getD (place / 8) 0).getLsbD (7 - place % 8)

/-- The bytes with a bit set at a place. -/
def orBit (data : List (BitVec 8)) (place : ℕ) (bit : Bool) : List (BitVec 8) :=
  if bit then data.modify (place / 8) (· ||| 1#8 <<< (7 - place % 8)) else data

/-- The number that bits are. -/
def number (bits : List Bool) : ℕ := bits.foldl (fun value bit => 2 * value + bit.toNat) 0

variable {data other : List (BitVec 8)} {place : ℕ}

@[simp] theorem length_orBit (data : List (BitVec 8)) (place : ℕ) (bit : Bool) :
    (orBit data place bit).length = data.length := by
  rw [orBit]
  split
  · exact List.length_modify _ _ _
  · rfl

theorem getLsbD_or_shift (x : BitVec 8) {i : ℕ} (hi : i < 8) (j : ℕ) :
    (x ||| 1#8 <<< i).getLsbD j = (x.getLsbD j || decide (j = i)) := by
  rw [BitVec.getLsbD_or, ← BitVec.twoPow_eq, BitVec.getLsbD_twoPow]
  congr 1
  rw [decide_eq_true hi, Bool.true_and, decide_eq_decide]
  exact eq_comm

/-- Setting a bit changes that bit only. -/
theorem bitAt_orBit (hplace : place < 8 * data.length) (bit : Bool) (j : ℕ) :
    bitAt (orBit data place bit) j = (bitAt data j || (decide (j = place) && bit)) := by
  cases bit with
  | false => rw [orBit, if_neg Bool.false_ne_true, Bool.and_false, Bool.or_false]
  | true =>
    rw [orBit, if_pos rfl, Bool.and_true, bitAt, bitAt, List.getD_eq_getElem?_getD,
      List.getD_eq_getElem?_getD, List.getElem?_modify]
    by_cases hbyte : place / 8 = j / 8
    · have hlt : j / 8 < data.length := by omega
      rw [List.getElem?_eq_getElem hlt]
      change (if place / 8 = j / 8 then data[j / 8] ||| 1#8 <<< (7 - place % 8)
        else data[j / 8]).getLsbD (7 - j % 8) = (data[j / 8].getLsbD _ || _)
      rw [if_pos hbyte, getLsbD_or_shift _ (by omega) _]
      congr 1
      rw [decide_eq_decide]
      omega
    · have hne : ¬ j = place := fun heq => hbyte (by rw [heq])
      rw [decide_eq_false hne, Bool.or_false]
      simp only [if_neg hbyte]
      cases data[j / 8]? <;> rfl

theorem bitAt_append_left (h : place < 8 * data.length) :
    bitAt (data ++ other) place = bitAt data place := by
  rw [bitAt, bitAt, List.getD_append _ _ _ _ (by omega)]

theorem bitAt_append_right (place : ℕ) :
    bitAt (data ++ other) (8 * data.length + place) = bitAt other place := by
  rw [bitAt, bitAt, List.getD_append_right _ _ _ _ (by omega)]
  congr 2 <;> omega

theorem bitAt_replicate_zero (n place : ℕ) : bitAt (List.replicate n 0) place = false := by
  have hbyte : (List.replicate n (0 : BitVec 8)).getD (place / 8) 0 = 0 := by
    rcases lt_or_ge (place / 8) n with hlt | hge
    · rw [List.getD_replicate _ hlt]
    · rw [List.getD_eq_default _ _ (by rwa [List.length_replicate])]
  rw [bitAt, hbyte]
  exact BitVec.getLsbD_zero

theorem number_concat (bits : List Bool) (bit : Bool) :
    number (bits ++ [bit]) = number bits <<< 1 ||| bit.toNat := by
  have hbit : bit.toNat < 2 ^ 1 := Bool.toNat_lt bit
  rw [number, List.foldl_append, ← Nat.shiftLeft_add_eq_or_of_lt hbit, Nat.shiftLeft_eq,
    Nat.mul_comm]
  rfl

end BitString
end Library
