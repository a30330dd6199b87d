/-
# Fixed-width integer arithmetic of C++

The integer types from 8 to 64 bits, and values that carry their type.  An
operator brings its operands to their common type (the integer promotions, then
the usual arithmetic conversions), computes, and reduces the result to that type;
signed overflow is taken to wrap around, as unsigned overflow does.  The lemmas
say when an operator computes the integer that it stands for, and that a
conversion to a narrower type only sees the lower bits.
-/

import Mathlib.Algebra.BigOperators.Group.List.Basic
import Mathlib.Tactic.NormNum

namespace Library
namespace MachineInts

/-- An integer type. -/
inductive IntType where
  | u8 | s8 | u16 | s16 | u32 | s32 | u64 | s64
deriving DecidableEq, Repr

namespace IntType

/-- The width of a type. -/
def bits : IntType → ℕ
  | .u8 | .s8 => 8
  | .u16 | .s16 => 16
  | .u32 | .s32 => 32
  | .u64 | .s64 => 64

/-- The type is signed. -/
def signed : IntType → Bool
  | .u8 | .u16 | .u32 | .u64 => false
  | .s8 | .s16 | .s32 | .s64 => true

/-- The least value of a type. -/
def lo (t : IntType) : ℤ := if t.signed then -2 ^ (t.bits - 1) else 0

/-- The greatest value of a type. -/
def hi (t : IntType) : ℤ := if t.signed then 2 ^ (t.bits - 1) - 1 else 2 ^ t.bits - 1

/-- The value of a type that an integer is converted to. -/
def wrap (t : IntType) (z : ℤ) : ℤ :=
  if t.signed then z.bmod (2 ^ t.bits) else z % 2 ^ t.bits

/-- The integer promotions. -/
def promote (t : IntType) : IntType := if t.bits < 32 then .s32 else t

/-- The usual arithmetic conversions. -/
def common (t u : IntType) : IntType :=
  let t := t.promote
  let u := u.promote
  if t.bits < u.bits then u
  else if u.bits < t.bits then t
  else if t.signed then u else t

/-- The integer is a value of the type. -/
def Holds (t : IntType) (z : ℤ) : Prop := t.lo ≤ z ∧ z ≤ t.hi

instance (t : IntType) (z : ℤ) : Decidable (t.Holds z) :=
  inferInstanceAs (Decidable (_ ∧ _))

/-- Every value of the first type is one of the second. -/
def Within (t u : IntType) : Prop := u.lo ≤ t.lo ∧ t.hi ≤ u.hi

instance (t u : IntType) : Decidable (t.Within u) :=
  inferInstanceAs (Decidable (_ ∧ _))

theorem Holds.mono {t u : IntType} {z : ℤ} (h : t.Holds z) (hw : t.Within u) : u.Holds z :=
  ⟨hw.1.trans h.1, h.2.trans hw.2⟩

theorem lo_nonpos (t : IntType) : t.lo ≤ 0 := by
  cases t <;> decide

theorem within_promote (t : IntType) : t.Within t.promote := by
  cases t <;> decide

@[simp] theorem common_self (t : IntType) : t.common t = t.promote := by
  cases t <;> rfl

@[simp] theorem common_int (t : IntType) : t.common .s32 = t.promote := by
  cases t <;> rfl

@[simp] theorem promote_promote (t : IntType) : t.promote.promote = t.promote := by
  cases t <;> rfl

/-- A value of the type stays what it is. -/
theorem wrap_of_holds {t : IntType} {z : ℤ} (h : t.Holds z) : t.wrap z = z := by
  obtain ⟨hlo, hhi⟩ := h
  have hunsigned : t.signed = false → t.wrap z = z := by
    intro hs
    simp only [lo, hi, hs, Bool.false_eq_true, if_false] at hlo hhi
    simp only [wrap, hs, Bool.false_eq_true, if_false]
    exact Int.emod_eq_of_lt hlo (by omega)
  have hsigned : t.signed = true → t.wrap z = z := by
    intro hs
    have htwice : (2 : ℤ) * 2 ^ (t.bits - 1) = 2 ^ t.bits := by
      rw [← pow_succ']
      congr 1
      cases t <;> rfl
    simp only [lo, hi, hs, if_true] at hlo hhi
    simp only [wrap, hs, if_true]
    refine Int.bmod_eq_of_le_mul_two ?_ ?_
    · push_cast
      omega
    · push_cast
      omega
  cases hs : t.signed with
  | false => exact hunsigned hs
  | true => exact hsigned hs

/-- What a conversion gives is a value of the type. -/
theorem holds_wrap (t : IntType) (z : ℤ) : t.Holds (t.wrap z) := by
  cases t <;> simp only [Holds, lo, hi, wrap, signed, bits, Bool.false_eq_true, if_false, if_true,
    Int.bmod_def] <;> norm_num <;> omega

/-- A conversion to a type that is not wider only sees the lower bits. -/
theorem wrap_wrap {t u : IntType} (h : t.bits ≤ u.bits) (z : ℤ) :
    t.wrap (u.wrap z) = t.wrap z := by
  have hdvd : 2 ^ t.bits ∣ 2 ^ u.bits := pow_dvd_pow 2 h
  have hemod : u.wrap z % 2 ^ t.bits = z % 2 ^ t.bits := by
    have hz : (u.wrap z) % (2 ^ u.bits) = z % 2 ^ u.bits := by
      unfold wrap
      split
      · have := Int.bmod_emod (x := z) (m := 2 ^ u.bits)
        push_cast at this
        exact this
      · exact Int.emod_emod_of_dvd z (dvd_refl _)
    have hd : (2 : ℤ) ^ t.bits ∣ 2 ^ u.bits := pow_dvd_pow 2 h
    rw [← Int.emod_emod_of_dvd (u.wrap z) hd, hz, Int.emod_emod_of_dvd z hd]
  have hbmod : (u.wrap z).bmod (2 ^ t.bits) = z.bmod (2 ^ t.bits) := by
    have h1 := hemod
    unfold Int.bmod
    push_cast
    rw [h1]
  unfold wrap at hbmod hemod ⊢
  split
  · exact hbmod
  · exact hemod

end IntType

/-- A value with its type. -/
structure Value where
  type : IntType
  val : ℤ
deriving DecidableEq, Repr

namespace Value

/-- `static_cast`, and every implicit conversion. -/
def cast (v : Value) (t : IntType) : Value := ⟨t, t.wrap v.val⟩

/-- A binary operator, at the common type of its operands. -/
def binary (f : ℤ → ℤ → ℤ) (v w : Value) : Value :=
  let t := v.type.common w.type
  ⟨t, t.wrap (f (t.wrap v.val) (t.wrap w.val))⟩

/-- `v + w`. -/
def add : Value → Value → Value := binary (· + ·)

/-- `v - w`. -/
def sub : Value → Value → Value := binary (· - ·)

/-- `v * w`. -/
def mul : Value → Value → Value := binary (· * ·)

/-- `v / w`, rounded towards zero. -/
def div : Value → Value → Value := binary Int.tdiv

/-- `v < w`. -/
def lt (v w : Value) : Bool :=
  let t := v.type.common w.type
  decide (t.wrap v.val < t.wrap w.val)

/-- `v >> n`: of a negative value too it rounds down. -/
def shiftRight (v : Value) (n : ℕ) : Value :=
  let t := v.type.promote
  ⟨t, t.wrap (t.wrap v.val / 2 ^ n)⟩

/-- `v & 1` is not zero. -/
def odd (v : Value) : Bool := decide (v.val % 2 = 1)

/-- `v += w`. -/
def addAssign (v w : Value) : Value := (v.add w).cast v.type

/-- `z += x` for every term. -/
def accumulate (z : Value) (terms : List Value) : Value := terms.foldl addAssign z

/-- An `int` literal. -/
def int (z : ℤ) : Value := ⟨.s32, z⟩

/-- A conversion to a type that has the value. -/
theorem cast_val {v : Value} {t : IntType} (h : t.Holds v.val) : (v.cast t).val = v.val :=
  IntType.wrap_of_holds h

theorem cast_eq {t u : IntType} {z : ℤ} (h : u.Holds z) : cast ⟨t, z⟩ u = ⟨u, z⟩ := by
  simp only [cast, IntType.wrap_of_holds h]

/-- An operator whose operands and result are values of the common type computes exactly. -/
theorem binary_eq {f : ℤ → ℤ → ℤ} {t : IntType} {v w : Value} (ht : v.type.common w.type = t)
    (hv : t.Holds v.val) (hw : t.Holds w.val) (h : t.Holds (f v.val w.val)) :
    binary f v w = ⟨t, f v.val w.val⟩ := by
  subst ht
  simp only [binary, IntType.wrap_of_holds hv, IntType.wrap_of_holds hw, IntType.wrap_of_holds h]

/-- A shift of a value computes exactly. -/
theorem shiftRight_eq {t : IntType} {z : ℤ} {n : ℕ} (hz : t.promote.Holds z)
    (h : t.promote.Holds (z / 2 ^ n)) : shiftRight ⟨t, z⟩ n = ⟨t.promote, z / 2 ^ n⟩ := by
  simp only [shiftRight, IntType.wrap_of_holds hz, IntType.wrap_of_holds h]

/-- A comparison whose operands are values of the common type. -/
theorem lt_val {v w : Value} (hv : (v.type.common w.type).Holds v.val)
    (hw : (v.type.common w.type).Holds w.val) : v.lt w = decide (v.val < w.val) := by
  simp only [lt, IntType.wrap_of_holds hv, IntType.wrap_of_holds hw]

/-- An operator on two values of one type, the result reduced to the promoted type. -/
theorem binary_self {f : ℤ → ℤ → ℤ} {t : IntType} {x y : ℤ} (hx : t.Holds x) (hy : t.Holds y) :
    binary f ⟨t, x⟩ ⟨t, y⟩ = ⟨t.promote, t.promote.wrap (f x y)⟩ := by
  have hx' := hx.mono t.within_promote
  have hy' := hy.mono t.within_promote
  simp only [binary, IntType.common_self, IntType.wrap_of_holds hx', IntType.wrap_of_holds hy']

/-- An operator on a value and a literal. -/
theorem binary_int {f : ℤ → ℤ → ℤ} {t : IntType} {x k : ℤ} (hx : t.promote.Holds x)
    (hk : t.promote.Holds k) :
    binary f ⟨t, x⟩ (int k) = ⟨t.promote, t.promote.wrap (f x k)⟩ := by
  have ht : t.common (int k).type = t.promote := IntType.common_int t
  simp only [binary, ht, IntType.wrap_of_holds hx]
  rw [show (int k).val = k from rfl, IntType.wrap_of_holds hk]

/-- A value and zero are compared exactly. -/
theorem lt_zero {t : IntType} {x : ℤ} (hx : t.promote.Holds x) :
    (mk t x).lt (int 0) = decide (x < 0) := by
  have ht : t.common (int 0).type = t.promote := IntType.common_int t
  refine lt_val ?_ ?_
  · rw [ht]
    exact hx
  · rw [ht]
    cases t <;> decide

/-- `z += x` where the sum is a value of the type of `z`, which is the common type. -/
theorem addAssign_eq {t : IntType} {z : ℤ} {x : Value} (ht : t.common x.type = t)
    (hz : t.Holds z) (hx : t.Holds x.val) (hsum : t.Holds (z + x.val)) :
    addAssign ⟨t, z⟩ x = ⟨t, z + x.val⟩ := by
  have hadd : add ⟨t, z⟩ x = ⟨t, z + x.val⟩ := binary_eq (v := ⟨t, z⟩) ht hz hx hsum
  rw [addAssign, hadd, cast_eq hsum]

/-- A sum of terms between two bounds is exact while the bounds stay within the type. -/
theorem accumulate_val {t : IntType} {l h : ℤ} (hl : l ≤ 0) (hh : 0 ≤ h)
    (hterm : t.lo ≤ l ∧ h ≤ t.hi) (terms : List Value) (z : ℤ)
    (hterms : ∀ x ∈ terms, t.common x.type = t ∧ l ≤ x.val ∧ x.val ≤ h)
    (hlo : t.lo ≤ z + terms.length * l) (hhi : z + terms.length * h ≤ t.hi) :
    (accumulate ⟨t, z⟩ terms).val = z + (terms.map val).sum := by
  induction terms generalizing z with
  | nil => simp [accumulate]
  | cons x terms ih =>
      obtain ⟨ht, hxl, hxh⟩ := hterms x (by simp)
      have hnl : (terms.length : ℤ) * l ≤ 0 := mul_nonpos_of_nonneg_of_nonpos (by simp) hl
      have hnh : 0 ≤ (terms.length : ℤ) * h := mul_nonneg (by simp) hh
      simp only [List.length_cons, Nat.cast_add, Nat.cast_one, add_mul, one_mul] at hlo hhi
      have hsum := addAssign_eq ht (z := z) ⟨by omega, by omega⟩ ⟨by omega, by omega⟩
        ⟨by omega, by omega⟩
      have hrest := ih (z + x.val) (fun y hy => hterms y (by simp [hy])) (by omega) (by omega)
      rw [accumulate, List.foldl_cons, hsum]
      rw [accumulate] at hrest
      rw [hrest, List.map_cons, List.sum_cons, add_assoc]

end Value

end MachineInts
end Library
