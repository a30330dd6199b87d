/-
# Lane arithmetic in the types of the source

The integer cases of `aot::execute_vector` that compute on lanes
(`src/cpu/codegen/aot/aot_semantics.cpp`), with the type of every intermediate
value: the `Wide` parameter of the lane templates, the casts, and the common type
of the operands of each operator.  `Aot.Vector` states the same cases over the
integers; `executeVector_eq` says that the two agree, so no intermediate type of
these cases is too narrow, but for the two sums whose wrapping `Aot.Vector` keeps.
-/

import Mathlib.Algebra.Order.Ring.Abs
import XenonRecomp.Aot.Vector
import XenonRecomp.Library.MachineInts

namespace XenonRecomp
namespace Aot

open Cpu Machine Library.MachineInts

namespace Lane

/-- The type of the elements. -/
def intType : Lane → IntType
  | .u8 => .u8
  | .s8 => .s8
  | .u16 => .u16
  | .s16 => .s16
  | .u32 => .u32
  | .s32 => .s32

/-- `read_be<T>`, with its type. -/
def get (t : Lane) (v : Vector128) (i : ℕ) : Value := ⟨t.intType, t.read v i⟩

/-- `std::numeric_limits<T>::min()`, with its type. -/
def minValue (t : Lane) : Value := ⟨t.intType, t.lo⟩

/-- `std::numeric_limits<T>::max()`, with its type. -/
def maxValue (t : Lane) : Value := ⟨t.intType, t.hi⟩

end Lane

namespace Typed

/-- `lane_binary<T, Wide>`. -/
def laneBinary (t : Lane) (wide : IntType) (op : Value → Value → Value) (a b : Vector128) :
    Vector128 :=
  t.write fun i => ((op ((t.get a i).cast wide) ((t.get b i).cast wide)).cast t.intType).val

/-- The two tests of `add_sat` and `sub_sat`, and whether one of them set saturation. -/
def saturate (t : Lane) (wide : IntType) (z : Value) : Value × Bool :=
  let lo := t.minValue.cast wide
  let hi := t.maxValue.cast wide
  let (z, low) := if z.lt lo then (lo, true) else (z, false)
  let (z, high) := if hi.lt z then (hi, true) else (z, false)
  (z.cast t.intType, low || high)

/-- `add_sat<T, Wide>` and `sub_sat<T, Wide>`. -/
def opSat (t : Lane) (wide : IntType) (op : Value → Value → Value) (a b : Vector128) :
    Vector128 × Bool :=
  let lane (i : ℕ) : Value × Bool :=
    saturate t wide ((op ((t.get a i).cast wide) ((t.get b i).cast wide)).cast wide)
  (t.write fun i => (lane i).1.val, (List.range t.count).any fun i => (lane i).2)

/-- `avg_round<T, Wide>`. -/
def avgRound (t : Lane) (wide : IntType) (a b : Vector128) : Vector128 :=
  t.write fun i =>
    let z := ((((t.get a i).cast wide).add ((t.get b i).cast wide)).add (.int 1)).cast wide
    let z :=
      if wide.signed then
        if z.lt (.int 0) then
          ((z.div (.int 2)).sub (.int (if z.odd then 1 else 0))).cast wide
        else (z.div (.int 2)).cast wide
      else (z.div (.int 2)).cast wide
    (z.cast t.intType).val

/-- Products of the even or odd lanes, the left factor cast first. -/
def multiplyLanes (src dst : Lane) (left : IntType) (off : ℕ) (a b : Vector128) : Vector128 :=
  dst.write fun i =>
    ((((src.get a (2 * i + off)).cast left).mul (src.get b (2 * i + off))).cast dst.intType).val

/-- `vmhaddshs` and `vmhraddshs`, before the saturating cast. -/
def multiplyHighAdd (round : Bool) (a b c : Vector128) (i : ℕ) : Value :=
  let p := (((Lane.s16.get a i).cast .s32).mul (Lane.s16.get b i)).cast .s32
  let p := if round then p.addAssign (.int 0x4000) else p
  ((p.shiftRight 15).add (Lane.s16.get c i)).cast .s32

/-- The products of `vmsummbm`: both factors are promoted to `int`. -/
def sumMixedBytes (a b c : Vector128) (i : ℕ) : Value :=
  Value.accumulate ((Lane.s32.get c i).cast .s64)
    ((List.range 4).map fun j => (Lane.s8.get a (4 * i + j)).mul (Lane.u8.get b (4 * i + j)))

/-- `vmsumubm`, before the cast. -/
def sumBytes (a b c : Vector128) (i : ℕ) : Value :=
  Value.accumulate ((Lane.u32.get c i).cast .u64) ((List.range 4).map fun j =>
    ((Lane.u8.get a (4 * i + j)).cast .u64).mul (Lane.u8.get b (4 * i + j)))

/-- The sum of `vmsumuhm`, `vmsumuhs`, `vmsumshm` and `vmsumshs`. -/
def sumHalfwords (word half : Lane) (wide : IntType) (a b c : Vector128) (i : ℕ) : Value :=
  let product (k : ℕ) : Value := ((half.get a k).cast wide).mul (half.get b k)
  (((word.get c i).add (product (2 * i))).add (product (2 * i + 1))).cast wide

/-- The integer cases of `execute_vector` that compute on lanes. -/
def integerVector (m : Mnemonic) (a b c : Vector128) : Option (Vector128 × Bool) :=
  match m with
  | .vaddubm => some (laneBinary .u8 .u16 .add a b, false)
  | .vadduhm => some (laneBinary .u16 .u32 .add a b, false)
  | .vadduwm => some (laneBinary .u32 .u64 .add a b, false)
  | .vsububm => some (laneBinary .u8 .u16 .sub a b, false)
  | .vsubuhm => some (laneBinary .u16 .u32 .sub a b, false)
  | .vsubuwm => some (laneBinary .u32 .u64 .sub a b, false)
  | .vaddsbs => some (opSat .s8 .s16 .add a b)
  | .vaddshs => some (opSat .s16 .s32 .add a b)
  | .vaddsws => some (opSat .s32 .s64 .add a b)
  | .vaddubs => some (opSat .u8 .u16 .add a b)
  | .vadduhs => some (opSat .u16 .u32 .add a b)
  | .vadduws => some (opSat .u32 .u64 .add a b)
  | .vsubsbs => some (opSat .s8 .s16 .sub a b)
  | .vsubshs => some (opSat .s16 .s32 .sub a b)
  | .vsubsws => some (opSat .s32 .s64 .sub a b)
  | .vsububs => some (opSat .u8 .s16 .sub a b)
  | .vsubuhs => some (opSat .u16 .s32 .sub a b)
  | .vsubuws => some (opSat .u32 .s64 .sub a b)
  | .vavgsb => some (avgRound .s8 .s16 a b, false)
  | .vavgsh => some (avgRound .s16 .s32 a b, false)
  | .vavgsw => some (avgRound .s32 .s64 a b, false)
  | .vavgub => some (avgRound .u8 .u16 a b, false)
  | .vavguh => some (avgRound .u16 .u32 a b, false)
  | .vavguw => some (avgRound .u32 .u64 a b, false)
  | .vaddcuw => some <|
      (Lane.u32.write fun i =>
        if (Value.mk .u64 0xFFFFFFFF).lt (((Lane.u32.get a i).cast .u64).add (Lane.u32.get b i))
        then 1 else 0, false)
  | .vmladduhm => some <|
      (Lane.u16.write fun i => (((((Lane.u16.get a i).cast .u32).mul (Lane.u16.get b i)).add
        (Lane.u16.get c i)).cast .u16).val, false)
  | .vmhaddshs => some (laneSat .s16 fun i => (multiplyHighAdd false a b c i).val)
  | .vmhraddshs => some (laneSat .s16 fun i => (multiplyHighAdd true a b c i).val)
  | .vmuleub => some (multiplyLanes .u8 .u16 .u16 0 a b, false)
  | .vmuloub => some (multiplyLanes .u8 .u16 .u16 1 a b, false)
  | .vmulesb => some (multiplyLanes .s8 .s16 .s16 0 a b, false)
  | .vmulosb => some (multiplyLanes .s8 .s16 .s16 1 a b, false)
  | .vmuleuh => some (multiplyLanes .u16 .u32 .u32 0 a b, false)
  | .vmulouh => some (multiplyLanes .u16 .u32 .u32 1 a b, false)
  | .vmulesh => some (multiplyLanes .s16 .s32 .s32 0 a b, false)
  | .vmulosh => some (multiplyLanes .s16 .s32 .s32 1 a b, false)
  | .vsum4ubs => some <|
      laneSat .u32 fun i => (Value.accumulate ((Lane.u32.get b i).cast .u64)
        ((List.range 4).map fun j => Lane.u8.get a (i * 4 + j))).val
  | .vsum4sbs => some <|
      laneSat .s32 fun i => (Value.accumulate ((Lane.s32.get b i).cast .s64)
        ((List.range 4).map fun j => Lane.s8.get a (i * 4 + j))).val
  | .vsum4shs => some <|
      laneSat .s32 fun i => ((((Lane.s32.get b i).add (Lane.s16.get a (2 * i))).add
        (Lane.s16.get a (2 * i + 1))).cast .s64).val
  | .vsum2sws => some <|
      laneSat .s32 fun i => if i % 2 = 0 then 0
        else ((((Lane.s32.get b i).add (Lane.s32.get a (i - 1))).add
          (Lane.s32.get a i)).cast .s64).val
  | .vsumsws => some <|
      laneSat .s32 fun i => if i ≠ 3 then 0
        else (Value.accumulate ((Lane.s32.get b 3).cast .s64)
          ((List.range 4).map fun j => Lane.s32.get a j)).val
  | .vmsummbm => some (Lane.s32.write fun i => ((sumMixedBytes a b c i).cast .s32).val, false)
  | .vmsumubm => some (Lane.u32.write fun i => ((sumBytes a b c i).cast .u32).val, false)
  | .vmsumuhm => some <|
      (Lane.u32.write fun i => ((sumHalfwords .u32 .u16 .u64 a b c i).cast .u32).val, false)
  | .vmsumuhs => some (laneSat .u32 fun i => (sumHalfwords .u32 .u16 .u64 a b c i).val)
  | .vmsumshm => some <|
      (Lane.s32.write fun i => ((sumHalfwords .s32 .s16 .s64 a b c i).cast .s32).val, false)
  | .vmsumshs => some (laneSat .s32 fun i => (sumHalfwords .s32 .s16 .s64 a b c i).val)
  | _ => none

/-- `execute_vector`: the other integer cases (comparisons, packs, unpacks and so on) convert
between lane types and compute nothing. -/
def executeVector (fl : FloatOps) (m : Mnemonic) (w vscr : BitVec 32) (a b c : Vector128) :
    Vector128 × Bool :=
  (integerVector m a b c).getD (Aot.executeVector fl m w vscr a b c)

/-- `execute_vector` on the state: the result, and VSCR with saturation set. -/
def executeVectorState (fl : FloatOps) (m : Mnemonic) (w : BitVec 32) (s : CpuState)
    (a b c : Vector128) : Vector128 × CpuState :=
  let (r, saturated) := executeVector fl m w s.vscr a b c
  (r, if saturated then s.setVectorSaturated else s)

end Typed

namespace Lane

theorem intType_lo (t : Lane) : t.intType.lo = t.lo := by
  cases t <;> rfl

theorem intType_hi (t : Lane) : t.intType.hi = t.hi := by
  cases t <;> rfl

/-- What a lane reads is a value of its type. -/
theorem holds_read (t : Lane) (v : Vector128) (i : ℕ) : t.intType.Holds (t.read v i) := by
  have hu8 := (v.u8 i).isLt
  have hu16 := (v.u16Be i).isLt
  have hu32 := (v.u32Be i).isLt
  have hs8 := And.intro (BitVec.le_toInt (v.u8 i)) (BitVec.toInt_lt (x := v.u8 i))
  have hs16 := And.intro (BitVec.le_toInt (v.u16Be i)) (BitVec.toInt_lt (x := v.u16Be i))
  have hs32 := And.intro (BitVec.le_toInt (v.u32Be i)) (BitVec.toInt_lt (x := v.u32Be i))
  cases t <;> simp only [IntType.Holds, intType_lo, intType_hi, lo, hi, read] <;> norm_num at * <;>
    omega

/-- Writing only sees the lane type. -/
theorem write_wrap (t : Lane) (f : ℕ → ℤ) : (t.write fun i => t.intType.wrap (f i)) = t.write f := by
  have hofInt : ∀ (n : ℕ) (z : ℤ), BitVec.ofInt n (z % 2 ^ n) = BitVec.ofInt n z ∧
      BitVec.ofInt n (z.bmod (2 ^ n)) = BitVec.ofInt n z := by
    intro n z
    have hemod : (z % 2 ^ n).bmod (2 ^ n) = z.bmod (2 ^ n) := by
      have := Int.emod_bmod z (2 ^ n)
      push_cast at this
      exact this
    constructor <;> apply BitVec.eq_of_toInt_eq <;> simp [BitVec.toInt_ofInt, hemod]
  cases t <;> simp only [write, intType, IntType.wrap, IntType.signed, IntType.bits,
    Bool.false_eq_true, if_false, if_true, hofInt]

theorem write_congr {t : Lane} {f g : ℕ → ℤ}
    (h : ∀ i, t.intType.wrap (f i) = t.intType.wrap (g i)) : t.write f = t.write g := by
  rw [← write_wrap t f, ← write_wrap t g]
  exact congrArg t.write (funext h)

/-- A lane in a type that has its elements. -/
theorem get_cast {t : Lane} {u : IntType} (h : t.intType.Within u) (v : Vector128) (i : ℕ) :
    (t.get v i).cast u = ⟨u, t.read v i⟩ := by
  simp only [get, Value.cast, IntType.wrap_of_holds ((t.holds_read v i).mono h)]

end Lane

namespace Typed

/-- Modular lanes: an operator that is an operation on integers, reduced. -/
theorem laneBinary_eq {t : Lane} {wide : IntType} (hw : t.intType.Within wide)
    (hbits : t.intType.bits ≤ wide.promote.bits) (f : ℤ → ℤ → ℤ) (a b : Vector128) :
    laneBinary t wide (Value.binary f) a b = Aot.laneBinary t f a b := by
  refine Lane.write_congr fun i => ?_
  rw [Lane.get_cast hw, Lane.get_cast hw]
  simp only [Value.cast, Value.binary_self ((t.holds_read a i).mono hw) ((t.holds_read b i).mono hw)]
  rw [IntType.wrap_wrap le_rfl, IntType.wrap_wrap hbits]

/-- The two tests are the clamp to the lane type. -/
theorem saturate_eq {t : Lane} {wide : IntType} (hw : t.intType.Within wide) {z : ℤ}
    (hz : wide.Holds z) :
    (saturate t wide ⟨wide, z⟩).1.val = t.clamp z ∧ (saturate t wide ⟨wide, z⟩).2 = t.saturates z := by
  have hlohi : t.lo ≤ t.hi := by cases t <;> decide
  have hlo : t.intType.Holds t.lo := by
    rw [IntType.Holds, Lane.intType_lo, Lane.intType_hi]
    exact ⟨le_rfl, hlohi⟩
  have hhi : t.intType.Holds t.hi := by
    rw [IntType.Holds, Lane.intType_lo, Lane.intType_hi]
    exact ⟨hlohi, le_rfl⟩
  have hmin : t.minValue.cast wide = ⟨wide, t.lo⟩ := by
    simp only [Lane.minValue, Value.cast, IntType.wrap_of_holds (hlo.mono hw)]
  have hmax : t.maxValue.cast wide = ⟨wide, t.hi⟩ := by
    simp only [Lane.maxValue, Value.cast, IntType.wrap_of_holds (hhi.mono hw)]
  have hlt : ∀ {x y : ℤ}, wide.Holds x → wide.Holds y →
      (Value.mk wide x).lt ⟨wide, y⟩ = decide (x < y) := by
    intro x y hx hy
    refine Value.lt_val ?_ ?_
    · rw [IntType.common_self]
      exact hx.mono wide.within_promote
    · rw [IntType.common_self]
      exact hy.mono wide.within_promote
  have hcast : ∀ {x : ℤ}, t.intType.Holds x → ((Value.mk wide x).cast t.intType).val = x :=
    fun hx => Value.cast_val hx
  simp only [saturate, hmin, hmax, hlt hz (hlo.mono hw)]
  by_cases hlow : z < t.lo
  · have hnot : ¬t.hi < t.lo := not_lt.mpr hlohi
    simp only [hlow, decide_true, if_true, hlt (hhi.mono hw) (hlo.mono hw), hnot, decide_false,
      Bool.false_eq_true, if_false, hcast hlo, Lane.clamp, Lane.saturates, Bool.true_or, and_true]
    omega
  · simp only [hlow, decide_false, Bool.false_eq_true, if_false, hlt (hhi.mono hw) hz]
    by_cases hhigh : t.hi < z
    · simp only [hhigh, decide_true, if_true, hcast hhi, Lane.clamp, Lane.saturates, hlow,
        decide_false, and_true]
      omega
    · have hin : t.intType.Holds z := by
        rw [IntType.Holds, Lane.intType_lo, Lane.intType_hi]
        omega
      simp only [hhigh, decide_false, Bool.false_eq_true, if_false, hcast hin, Lane.clamp,
        Lane.saturates, hlow, and_true]
      omega

/-- Saturating lanes: the result of the operation is a value of the wide type. -/
theorem opSat_eq {t : Lane} {wide : IntType} (hw : t.intType.Within wide) (f : ℤ → ℤ → ℤ)
    (hf : ∀ x y, t.intType.Holds x → t.intType.Holds y → wide.Holds (f x y)) (a b : Vector128) :
    opSat t wide (Value.binary f) a b = laneSat t fun i => f (t.read a i) (t.read b i) := by
  have hlane : ∀ i, (((Value.binary f ((t.get a i).cast wide) ((t.get b i).cast wide)).cast wide) :
      Value) = ⟨wide, f (t.read a i) (t.read b i)⟩ := by
    intro i
    have hx := t.holds_read a i
    have hy := t.holds_read b i
    have hfxy := hf _ _ hx hy
    rw [Lane.get_cast hw, Lane.get_cast hw]
    simp only [Value.cast, Value.binary_self (hx.mono hw) (hy.mono hw),
      IntType.wrap_of_holds (hfxy.mono wide.within_promote), IntType.wrap_of_holds hfxy]
  have hsat := fun i => saturate_eq hw (hf _ _ (t.holds_read a i) (t.holds_read b i))
  simp only [opSat, laneSat, hlane, hsat]

theorem addSat_eq {t : Lane} {wide : IntType} (hw : t.intType.Within wide)
    (hlo : wide.lo ≤ 2 * t.intType.lo) (hhi : 2 * t.intType.hi ≤ wide.hi) (a b : Vector128) :
    opSat t wide .add a b = addSat t a b := by
  refine opSat_eq hw (· + ·) (fun x y hx hy => ?_) a b
  obtain ⟨hx1, hx2⟩ := hx
  obtain ⟨hy1, hy2⟩ := hy
  exact ⟨by omega, by omega⟩

theorem subSat_eq {t : Lane} {wide : IntType} (hw : t.intType.Within wide)
    (hlo : wide.lo ≤ t.intType.lo - t.intType.hi) (hhi : t.intType.hi - t.intType.lo ≤ wide.hi)
    (a b : Vector128) : opSat t wide .sub a b = subSat t a b := by
  refine opSat_eq hw (· - ·) (fun x y hx hy => ?_) a b
  obtain ⟨hx1, hx2⟩ := hx
  obtain ⟨hy1, hy2⟩ := hy
  exact ⟨by omega, by omega⟩

/-- Products of lanes: the common type of the factors is as wide as the result. -/
theorem multiplyLanes_eq {src dst : Lane} {left : IntType} (hl : src.intType.Within left)
    (hleft : left.Within (left.common src.intType))
    (hsrc : src.intType.Within (left.common src.intType))
    (hbits : dst.intType.bits ≤ (left.common src.intType).bits) (off : ℕ) (a b : Vector128) :
    multiplyLanes src dst left off a b = Aot.multiplyLanes src dst off a b := by
  refine Lane.write_congr fun i => ?_
  have hx := ((src.holds_read a (2 * i + off)).mono hl).mono hleft
  have hy := (src.holds_read b (2 * i + off)).mono hsrc
  rw [Lane.get_cast hl]
  simp only [Value.cast, Value.mul, Value.binary, Lane.get, IntType.wrap_of_holds hx,
    IntType.wrap_of_holds hy]
  rw [IntType.wrap_wrap le_rfl, IntType.wrap_wrap hbits]

/-- Halving by way of a division towards zero rounds down. -/
theorem tdiv_sub_odd {z : ℤ} (hz : z < 0) : z.tdiv 2 - (if z % 2 = 1 then 1 else 0) = z / 2 := by
  have hdvd : (2 : ℤ) ∣ z ↔ z % 2 = 0 := Int.dvd_iff_emod_eq_zero
  rw [Int.tdiv_eq_ediv]
  simp only [hdvd, not_le.mpr hz, false_or]
  have hsign : Int.sign 2 = 1 := rfl
  rcases Int.emod_two_eq_zero_or_one z with h | h <;> simp [h, hsign]

/-- The average rounded upward: the sum of two lanes and one is a value of the wide type. -/
theorem avgRound_eq {t : Lane} {wide : IntType} (hw : t.intType.Within wide)
    (hlo : wide.lo ≤ 2 * t.intType.lo) (hhi : 2 * t.intType.hi + 1 ≤ wide.hi)
    (hsigned : wide.signed = false → t.intType.lo = 0) (a b : Vector128) :
    avgRound t wide a b = Aot.avgRound t a b := by
  have hsmall : ∀ k : ℤ, 0 ≤ k → k ≤ 2 → wide.promote.Holds k := by
    intro k h0 h2
    have hbounds : wide.promote.lo ≤ 0 ∧ 2 ≤ wide.promote.hi := by
      cases wide <;> decide
    exact ⟨hbounds.1.trans h0, h2.trans hbounds.2⟩
  refine congrArg t.write (funext fun i => ?_)
  have hx := t.holds_read a i
  have hy := t.holds_read b i
  have hsum : wide.Holds (t.read a i + t.read b i) := by
    obtain ⟨hx1, hx2⟩ := hx
    obtain ⟨hy1, hy2⟩ := hy
    exact ⟨by omega, by omega⟩
  have hz : wide.Holds (t.read a i + t.read b i + 1) := by
    obtain ⟨hx1, hx2⟩ := hx
    obtain ⟨hy1, hy2⟩ := hy
    exact ⟨by omega, by omega⟩
  have hround : ((((t.get a i).cast wide).add ((t.get b i).cast wide)).add (.int 1)).cast wide =
      ⟨wide, t.read a i + t.read b i + 1⟩ := by
    have hsum' := hsum.mono wide.within_promote
    have hz' := hz.mono wide.within_promote
    rw [Lane.get_cast hw, Lane.get_cast hw, Value.add,
      Value.binary_self (hx.mono hw) (hy.mono hw), IntType.wrap_of_holds hsum',
      Value.binary_int (by rw [IntType.promote_promote]; exact hsum')
        (by rw [IntType.promote_promote]; exact hsmall 1 (by omega) (by omega)),
      IntType.promote_promote, IntType.wrap_of_holds hz', Value.cast, IntType.wrap_of_holds hz]
  simp only [hround]
  have hhalf : t.intType.Holds ((t.read a i + t.read b i + 1) / 2) := by
    obtain ⟨hx1, hx2⟩ := hx
    obtain ⟨hy1, hy2⟩ := hy
    exact ⟨by omega, by omega⟩
  have hnonneg : wide.signed = false → 0 ≤ t.read a i + t.read b i + 1 := by
    intro hs
    have hx1 := hx.1
    have hy1 := hy.1
    rw [hsigned hs] at hx1 hy1
    omega
  generalize t.read a i + t.read b i + 1 = z at *
  have hz' := hz.mono wide.within_promote
  have hhalf' : wide.promote.Holds (z / 2) := (hhalf.mono hw).mono wide.within_promote
  have htype : t.intType.wrap (wide.wrap (z / 2)) = z / 2 := by
    rw [IntType.wrap_of_holds (hhalf.mono hw), IntType.wrap_of_holds hhalf]
  have hdiv : 0 ≤ z → ((Value.mk wide z).div (.int 2)).cast wide = ⟨wide, wide.wrap (z / 2)⟩ := by
    intro h0
    rw [Value.div, Value.binary_int hz' (hsmall 2 (by omega) le_rfl),
      Int.tdiv_eq_ediv_of_nonneg h0, IntType.wrap_of_holds hhalf', Value.cast]
  have hneg : z < 0 → ((((Value.mk wide z).div (.int 2)).sub
      (.int (if (Value.mk wide z).odd then 1 else 0))).cast wide) = ⟨wide, wide.wrap (z / 2)⟩ := by
    intro h0
    have htdiv := tdiv_sub_odd h0
    have hle : z / 2 ≤ z.tdiv 2 ∧ z.tdiv 2 ≤ z / 2 + 1 := by
      split at htdiv <;> omega
    have hquot : wide.promote.Holds (z.tdiv 2) :=
      ⟨hhalf'.1.trans hle.1, hle.2.trans (by have := (hsmall 0 le_rfl (by omega)).2; omega)⟩
    rw [Value.div, Value.binary_int hz' (hsmall 2 (by omega) le_rfl), IntType.wrap_of_holds hquot,
      Value.sub, Value.binary_int (by rw [IntType.promote_promote]; exact hquot)
        (by rw [IntType.promote_promote]; split <;> exact hsmall _ (by omega) (by omega)),
      IntType.promote_promote, Value.odd]
    simp only [decide_eq_true_eq]
    rw [htdiv, IntType.wrap_of_holds hhalf', Value.cast]
  cases hs : wide.signed with
  | false =>
      simp only [Bool.false_eq_true, if_false, hdiv (hnonneg hs)]
      exact htype
  | true =>
      simp only [if_true, Value.lt_zero hz']
      by_cases h0 : z < 0
      · simp only [h0, decide_true, if_true, hneg h0]
        exact htype
      · simp only [h0, decide_false, Bool.false_eq_true, if_false, hdiv (not_lt.mp h0)]
        exact htype

/-- A product of lanes is bounded by the product of the bounds. -/
theorem abs_mul_le {x y m n : ℤ} (hx : |x| ≤ m) (hy : |y| ≤ n) : |x * y| ≤ m * n := by
  rw [abs_mul]
  exact mul_le_mul hx hy (abs_nonneg y) ((abs_nonneg x).trans hx)

theorem abs_read_le (t : Lane) (v : Vector128) (i : ℕ) :
    |t.read v i| ≤ max (-t.intType.lo) t.intType.hi := by
  obtain ⟨hlo, hhi⟩ := t.holds_read v i
  rw [abs_le]
  omega

/-- The carry of a sum of words. -/
theorem carry_eq (a b : Vector128) (i : ℕ) :
    (Value.mk .u64 0xFFFFFFFF).lt (((Lane.u32.get a i).cast .u64).add (Lane.u32.get b i)) =
      decide ((a.u32Be i).toNat + (b.u32Be i).toNat ≥ 2 ^ 32) := by
  have hx := (a.u32Be i).isLt
  have hy := (b.u32Be i).isLt
  have hholds : ∀ z : ℤ, 0 ≤ z → z < 2 ^ 33 → IntType.u64.Holds z := fun z h0 h1 =>
    ⟨h0, by simp only [IntType.hi, IntType.signed, IntType.bits]; norm_num; omega⟩
  have hadd : Value.add ⟨.u64, Lane.u32.read a i⟩ (Lane.u32.get b i) =
      ⟨.u64, Lane.u32.read a i + Lane.u32.read b i⟩ := by
    refine Value.binary_eq rfl (hholds _ ?_ ?_) (hholds _ ?_ ?_) (hholds _ ?_ ?_) <;>
      simp only [Lane.get, Lane.read] <;> omega
  have hlt : (Value.mk .u64 0xFFFFFFFF).lt ⟨.u64, Lane.u32.read a i + Lane.u32.read b i⟩ =
      decide (0xFFFFFFFF < Lane.u32.read a i + Lane.u32.read b i) := by
    refine Value.lt_val (hholds 0xFFFFFFFF (by norm_num) (by norm_num)) (hholds _ ?_ ?_) <;> simp only [Lane.read] <;> omega
  rw [Lane.get_cast (by decide), hadd, hlt]
  refine decide_eq_decide.mpr ?_
  simp only [Lane.read]
  omega

theorem carryLanes_eq (a b : Vector128) :
    (Lane.u32.write fun i =>
      if (Value.mk .u64 0xFFFFFFFF).lt (((Lane.u32.get a i).cast .u64).add (Lane.u32.get b i))
      then 1 else 0) =
    .ofLanes32 fun i => if (a.u32Be i).toNat + (b.u32Be i).toNat ≥ 2 ^ 32 then 1 else 0 := by
  simp only [Lane.write]
  refine congrArg Vector128.ofLanes32 (funext fun i => ?_)
  rw [carry_eq]
  simp only [decide_eq_true_eq]
  split <;> rfl

/-- The products and sums of halfwords stay within `int`. -/
theorem multiplyHighAdd_val (round : Bool) (a b c : Vector128) (i : ℕ) :
    (multiplyHighAdd round a b c i).val =
      (Lane.s16.read a i * Lane.s16.read b i + if round then 0x4000 else 0) / 2 ^ 15 +
        Lane.s16.read c i := by
  have hxy := abs_le.mp (abs_mul_le (abs_read_le .s16 a i) (abs_read_le .s16 b i))
  have hy := abs_le.mp (abs_read_le .s16 b i)
  have hz := abs_le.mp (abs_read_le .s16 c i)
  have hmax : max (-Lane.s16.intType.lo) Lane.s16.intType.hi = 32768 := by decide
  rw [hmax] at hxy hy hz
  have hint : ∀ z : ℤ, -2000000000 ≤ z → z ≤ 2000000000 → IntType.s32.Holds z := fun z h0 h1 => by
    simp only [IntType.Holds, IntType.lo, IntType.hi, IntType.signed, IntType.bits]
    norm_num
    omega
  have hmul : Value.mul ⟨.s32, Lane.s16.read a i⟩ (Lane.s16.get b i) =
      ⟨.s32, Lane.s16.read a i * Lane.s16.read b i⟩ := by
    refine Value.binary_eq rfl ((Lane.s16.holds_read a i).mono (by decide)) (hint _ ?_ ?_)
      (hint _ ?_ ?_) <;> simp only [Lane.get] <;> omega
  have hadd : ∀ p : ℤ, -2000000000 ≤ p → p ≤ 1500000000 →
      ((((Value.mk .s32 p).shiftRight 15).add (Lane.s16.get c i)).cast .s32).val =
        p / 2 ^ 15 + Lane.s16.read c i := by
    intro p h0 h1
    have hsum : Value.add ⟨.s32, p / 2 ^ 15⟩ (Lane.s16.get c i) =
        ⟨.s32, p / 2 ^ 15 + Lane.s16.read c i⟩ := by
      refine Value.binary_eq rfl (hint _ ?_ ?_) (hint _ ?_ ?_) (hint _ ?_ ?_) <;>
        simp only [Lane.get] <;> omega
    have hshift : (Value.mk .s32 p).shiftRight 15 = ⟨.s32, p / 2 ^ 15⟩ :=
      Value.shiftRight_eq (t := .s32) (hint _ (by omega) (by omega))
        (hint _ (by omega) (by omega))
    rw [hshift, hsum]
    exact Value.cast_val (hint (p / 2 ^ 15 + Lane.s16.read c i) (by omega) (by omega))
  have hp : (((Lane.s16.get a i).cast .s32).mul (Lane.s16.get b i)).cast .s32 =
      ⟨.s32, Lane.s16.read a i * Lane.s16.read b i⟩ := by
    rw [Lane.get_cast (by decide), hmul]
    exact Value.cast_eq (hint _ (by omega) (by omega))
  simp only [multiplyHighAdd, hp]
  cases round with
  | false =>
      have := hadd (Lane.s16.read a i * Lane.s16.read b i) (by omega) (by omega)
      simpa using this
  | true =>
      have hround : (Value.mk .s32 (Lane.s16.read a i * Lane.s16.read b i)).addAssign
          (.int 0x4000) = ⟨.s32, Lane.s16.read a i * Lane.s16.read b i + 0x4000⟩ :=
        Value.addAssign_eq rfl (hint _ (by omega) (by omega)) (hint 0x4000 (by decide) (by decide))
          (show IntType.s32.Holds (_ + 0x4000) from hint _ (by omega) (by omega))
      simp only [if_true, hround]
      exact hadd _ (by omega) (by omega)

/-- The greatest absolute value of a product of lanes. -/
def maxProduct (ta tb : Lane) : ℤ :=
  max (-ta.intType.lo) ta.intType.hi * max (-tb.intType.lo) tb.intType.hi

/-- Bounds of the products of two lane types. -/
def ProductBounds (ta tb : Lane) (l h : ℤ) : Prop :=
  (ta.intType.lo = 0 ∧ tb.intType.lo = 0 ∧ l ≤ 0 ∨ l ≤ -maxProduct ta tb) ∧ maxProduct ta tb ≤ h

instance (ta tb : Lane) (l h : ℤ) : Decidable (ProductBounds ta tb l h) :=
  inferInstanceAs (Decidable (_ ∧ _))

theorem ProductBounds.mul {ta tb : Lane} {l h : ℤ} (hb : ProductBounds ta tb l h)
    (a b : Vector128) (k : ℕ) :
    l ≤ ta.read a k * tb.read b k ∧ ta.read a k * tb.read b k ≤ h := by
  have habs := abs_le.mp (abs_mul_le (abs_read_le ta a k) (abs_read_le tb b k))
  rcases hb with ⟨⟨ha0, hb0, hl⟩ | hl, hh⟩
  · have hx := (ta.holds_read a k).1
    have hy := (tb.holds_read b k).1
    rw [ha0] at hx
    rw [hb0] at hy
    exact ⟨hl.trans (mul_nonneg hx hy), habs.2.trans hh⟩
  · exact ⟨hl.trans habs.1, habs.2.trans hh⟩

/-- A product of lanes in a type that has both factors and the product. -/
theorem product_eq {ta tb : Lane} {v : Value} {t : IntType} {l h : ℤ} {a b : Vector128} {k : ℕ}
    (hv : v.val = ta.read a k) (ht : v.type.common tb.intType = t)
    (hwa : ta.intType.Within t) (hwb : tb.intType.Within t) (hb : ProductBounds ta tb l h)
    (hfit : t.lo ≤ l ∧ h ≤ t.hi) :
    v.mul (tb.get b k) = ⟨t, ta.read a k * tb.read b k⟩ := by
  obtain ⟨hlo, hhi⟩ := hb.mul a b k
  have hprod : t.Holds (ta.read a k * tb.read b k) := ⟨hfit.1.trans hlo, hhi.trans hfit.2⟩
  have hmul : v.mul (tb.get b k) = ⟨t, v.val * tb.read b k⟩ := by
    refine Value.binary_eq (f := (· * ·)) (w := tb.get b k) ht ?_ ((tb.holds_read b k).mono hwb) ?_
    · rw [hv]
      exact (ta.holds_read a k).mono hwa
    · rw [hv]
      exact hprod
  rw [hmul, hv]

/-- An accumulator over the products of four bytes. -/
theorem accumulate_products {ta tb word : Lane} {t u : IntType} {l h : ℤ} {a b c : Vector128}
    {i : ℕ} (product : ℕ → Value)
    (hproduct : ∀ k, product k = ⟨u, ta.read a k * tb.read b k⟩) (ht : t.common u = t)
    (hb : ProductBounds ta tb l h) (hsign : l ≤ 0 ∧ 0 ≤ h)
    (hlo : t.lo ≤ word.intType.lo + 4 * l) (hhi : word.intType.hi + 4 * h ≤ t.hi)
    (hterm : t.lo ≤ l ∧ h ≤ t.hi) :
    (Value.accumulate ⟨t, word.read c i⟩ ((List.range 4).map fun j => product (4 * i + j))).val =
      word.read c i + sumProducts ta tb 4 a b i := by
  obtain ⟨hc1, hc2⟩ := word.holds_read c i
  rw [Value.accumulate_val hsign.1 hsign.2 hterm]
  · simp only [sumProducts, List.map_map, Function.comp_def, hproduct]
  · intro x hx
    obtain ⟨j, -, rfl⟩ := List.mem_map.mp hx
    rw [hproduct]
    exact ⟨ht, hb.mul a b _⟩
  iterate 2
    · simp only [List.length_map, List.length_range]
      push_cast
      omega

theorem sumMixedBytes_val (a b c : Vector128) (i : ℕ) :
    (sumMixedBytes a b c i).val = Lane.s32.read c i + sumProducts .s8 .u8 4 a b i := by
  have hb : ProductBounds .s8 .u8 (-32640) 32640 := by decide
  rw [sumMixedBytes, Lane.get_cast (by decide)]
  exact accumulate_products (fun k => (Lane.s8.get a k).mul (Lane.u8.get b k))
    (fun k => product_eq (t := .s32) rfl rfl (by decide) (by decide) hb (by decide)) rfl hb
    (by decide) (by decide) (by decide) (by decide)

theorem sumBytes_val (a b c : Vector128) (i : ℕ) :
    (sumBytes a b c i).val = Lane.u32.read c i + sumProducts .u8 .u8 4 a b i := by
  have hb : ProductBounds .u8 .u8 0 65025 := by decide
  rw [sumBytes, Lane.get_cast (by decide)]
  refine accumulate_products
    (fun k => ((Lane.u8.get a k).cast .u64).mul (Lane.u8.get b k))
    (fun k => product_eq (t := .u64) ?_ rfl (by decide) (by decide) hb (by decide)) rfl hb
    (by decide) (by decide) (by decide) (by decide)
  rw [Lane.get_cast (by decide)]

/-- The sum of a word and two products of halfwords, in a type that has it. -/
theorem sumHalfwords_val {word half : Lane} {wide : IntType} {l h : ℤ}
    (hb : ProductBounds half half l h) (hhalf : half.intType.Within wide)
    (hword : word.intType.Within wide)
    (hcommon : wide.common half.intType = wide ∧ word.intType.common wide = wide ∧
      wide.common wide = wide)
    (hsign : l ≤ 0 ∧ 0 ≤ h) (hlo : wide.lo ≤ word.intType.lo + 2 * l)
    (hhi : word.intType.hi + 2 * h ≤ wide.hi) (hfit : wide.lo ≤ l ∧ h ≤ wide.hi)
    (a b c : Vector128) (i : ℕ) :
    (sumHalfwords word half wide a b c i).val = word.read c i + sumProducts half half 2 a b i := by
  obtain ⟨hc1, hc2⟩ := word.holds_read c i
  have hprod : ∀ k, ((half.get a k).cast wide).mul (half.get b k) =
      ⟨wide, half.read a k * half.read b k⟩ := fun k =>
    product_eq (by rw [Lane.get_cast hhalf]) hcommon.1 hhalf hhalf hb hfit
  have hholds : ∀ k, wide.Holds (half.read a k * half.read b k) := fun k =>
    ⟨hfit.1.trans (hb.mul a b k).1, (hb.mul a b k).2.trans hfit.2⟩
  have h0 := hb.mul a b (2 * i)
  have h1 := hb.mul a b (2 * i + 1)
  have hone : wide.Holds (word.read c i + half.read a (2 * i) * half.read b (2 * i)) :=
    ⟨by omega, by omega⟩
  have htwo : wide.Holds (word.read c i + half.read a (2 * i) * half.read b (2 * i) +
      half.read a (2 * i + 1) * half.read b (2 * i + 1)) := ⟨by omega, by omega⟩
  have hfirst : (word.get c i).add ⟨wide, half.read a (2 * i) * half.read b (2 * i)⟩ =
      ⟨wide, word.read c i + half.read a (2 * i) * half.read b (2 * i)⟩ :=
    Value.binary_eq (f := (· + ·)) (v := word.get c i) hcommon.2.1
      ((word.holds_read c i).mono hword) (hholds _) hone
  have hsecond : (Value.mk wide (word.read c i + half.read a (2 * i) * half.read b (2 * i))).add
      ⟨wide, half.read a (2 * i + 1) * half.read b (2 * i + 1)⟩ =
      ⟨wide, word.read c i + half.read a (2 * i) * half.read b (2 * i) +
        half.read a (2 * i + 1) * half.read b (2 * i + 1)⟩ :=
    Value.binary_eq hcommon.2.2 hone (hholds _) htwo
  simp only [sumHalfwords, hprod, hfirst, hsecond]
  rw [Value.cast_eq htwo]
  simp [sumProducts, List.range_succ, add_assoc]

/-- A sum of a word and two more signed lanes is computed in `int`, and wraps. -/
theorem intSum_val {t : Lane} (ht : IntType.s32.common t.intType = .s32)
    (hw : t.intType.Within .s32) (a b : Vector128) (i j k : ℕ) :
    ((((Lane.s32.get b i).add (t.get a j)).add (t.get a k)).cast .s64).val =
      (BitVec.ofInt 32 (Lane.s32.read b i + t.read a j + t.read a k)).toInt := by
  have hj := (t.holds_read a j).mono hw
  have hk := (t.holds_read a k).mono hw
  have hfirst : (Lane.s32.get b i).add (t.get a j) =
      ⟨.s32, IntType.s32.wrap (Lane.s32.read b i + t.read a j)⟩ := by
    have hi : IntType.s32.Holds (Lane.s32.read b i) := Lane.s32.holds_read b i
    simp only [Value.add, Value.binary, Lane.get, show Lane.s32.intType = IntType.s32 from rfl, ht,
      IntType.wrap_of_holds hi, IntType.wrap_of_holds hj]
  have hsecond : (Value.mk .s32 (IntType.s32.wrap (Lane.s32.read b i + t.read a j))).add
      (t.get a k) = ⟨.s32, IntType.s32.wrap (Lane.s32.read b i + t.read a j + t.read a k)⟩ := by
    simp only [Value.add, Value.binary, Lane.get, ht, IntType.wrap_of_holds (IntType.holds_wrap _ _),
      IntType.wrap_of_holds hk]
    refine congrArg (Value.mk .s32) ?_
    simp only [IntType.wrap, IntType.signed, IntType.bits, if_true, Int.bmod_add_bmod]
  rw [hfirst, hsecond, BitVec.toInt_ofInt]
  exact Value.cast_val ((IntType.holds_wrap .s32 _).mono (by decide))

/-- An accumulator over four lanes. -/
theorem accumulate_lanes {lane word : Lane} {t : IntType} (ht : t.common lane.intType = t)
    (hlane : lane.intType.Within t) (hlo : t.lo ≤ word.intType.lo + 4 * lane.intType.lo)
    (hhi : word.intType.hi + 4 * lane.intType.hi ≤ t.hi) (a b : Vector128) (i : ℕ) (k : ℕ → ℕ) :
    (Value.accumulate ⟨t, word.read b i⟩ ((List.range 4).map fun j => lane.get a (k j))).val =
      word.read b i + ((List.range 4).map fun j => lane.read a (k j)).sum := by
  obtain ⟨hc1, hc2⟩ := word.holds_read b i
  rw [Value.accumulate_val (l := lane.intType.lo) (h := lane.intType.hi) lane.intType.lo_nonpos
    (by cases lane <;> decide) hlane]
  · simp only [List.map_map, Function.comp_def, Lane.get]
  · intro x hx
    obtain ⟨j, -, rfl⟩ := List.mem_map.mp hx
    exact ⟨ht, lane.holds_read a (k j)⟩
  iterate 2
    · simp only [List.length_map, List.length_range]
      push_cast
      omega

/-- A product of halfwords and a third halfword stay within a word. -/
theorem multiplyAdd_val (a b c : Vector128) (i : ℕ) :
    ((((Lane.u16.get a i).cast .u32).mul (Lane.u16.get b i)).add (Lane.u16.get c i)).val =
      Lane.u16.read a i * Lane.u16.read b i + Lane.u16.read c i := by
  have hb : ProductBounds .u16 .u16 0 4294836225 := by decide
  have hxy := hb.mul a b i
  have hz := Lane.u16.holds_read c i
  have hmul : ((Lane.u16.get a i).cast .u32).mul (Lane.u16.get b i) =
      ⟨.u32, Lane.u16.read a i * Lane.u16.read b i⟩ :=
    product_eq (t := .u32) (by rw [Lane.get_cast (by decide)]) rfl (by decide) (by decide) hb
      (by decide)
  have hhi : Lane.u16.intType.hi = 65535 := by decide
  have hword : IntType.u32.lo = 0 ∧ IntType.u32.hi = 4294967295 := by decide
  have hadd : (Value.mk .u32 (Lane.u16.read a i * Lane.u16.read b i)).add (Lane.u16.get c i) =
      ⟨.u32, Lane.u16.read a i * Lane.u16.read b i + Lane.u16.read c i⟩ := by
    obtain ⟨hz1, hz2⟩ := hz
    have hz0 : Lane.u16.intType.lo = 0 := by decide
    exact Value.binary_eq (f := (· + ·)) (w := Lane.u16.get c i) rfl
      (show IntType.u32.Holds (_ * _) from ⟨by omega, by omega⟩)
      ((Lane.u16.holds_read c i).mono (by decide))
      (show IntType.u32.Holds (Lane.u16.read a i * Lane.u16.read b i + Lane.u16.read c i) from
        ⟨by omega, by omega⟩)
  rw [hmul, hadd]

/-- The typed integer cases give what `Aot.executeVector` gives. -/
theorem integerVector_eq (fl : FloatOps) {m : Mnemonic} (w vscr : BitVec 32) {a b c : Vector128}
    {r : Vector128 × Bool} (h : integerVector m a b c = some r) :
    Aot.executeVector fl m w vscr a b c = r := by
  have hunsigned : ∀ i, (sumHalfwords .u32 .u16 .u64 a b c i).val =
      Lane.u32.read c i + sumProducts .u16 .u16 2 a b i :=
    sumHalfwords_val (l := 0) (h := 4294836225) (by decide) (by decide) (by decide) (by decide)
      (by decide) (by decide) (by decide) (by decide) a b c
  have hsigned : ∀ i, (sumHalfwords .s32 .s16 .s64 a b c i).val =
      Lane.s32.read c i + sumProducts .s16 .s16 2 a b i :=
    sumHalfwords_val (l := -1073741824) (h := 1073741824) (by decide) (by decide) (by decide)
      (by decide) (by decide) (by decide) (by decide) (by decide) a b c
  unfold integerVector at h
  split at h <;> first | obtain rfl := Option.some.inj h | cases h
  iterate 6
    · exact congrArg (·, false) (laneBinary_eq (by decide) (by decide) _ a b).symm
  iterate 6
    · exact (addSat_eq (by decide) (by decide) (by decide) a b).symm
  iterate 6
    · exact (subSat_eq (by decide) (by decide) (by decide) a b).symm
  iterate 6
    · exact congrArg (·, false)
        (avgRound_eq (by decide) (by decide) (by decide) (by decide) a b).symm
  · exact congrArg (·, false) (carryLanes_eq a b).symm
  · refine congrArg (·, false) (Lane.write_congr (t := .u16) fun i => ?_)
    rw [Value.cast, multiplyAdd_val]
    exact (IntType.wrap_wrap le_rfl _).symm
  iterate 2
    · refine congrArg (laneSat .s16) (funext fun i => ?_)
      rw [multiplyHighAdd_val]
      simp
  iterate 8
    · exact congrArg (·, false)
        (multiplyLanes_eq (by decide) (by decide) (by decide) (by decide) _ a b).symm
  · refine congrArg (laneSat .u32) (funext fun i => ?_)
    rw [Lane.get_cast (by decide), accumulate_lanes rfl (by decide) (by decide) (by decide)]
  · refine congrArg (laneSat .s32) (funext fun i => ?_)
    rw [Lane.get_cast (by decide), accumulate_lanes rfl (by decide) (by decide) (by decide)]
  iterate 2
    · refine congrArg (laneSat .s32) (funext fun i => ?_)
      rw [intSum_val rfl (by decide)]
  · refine congrArg (laneSat .s32) (funext fun i => ?_)
    rw [Lane.get_cast (by decide),
      accumulate_lanes rfl (by decide) (by decide) (by decide) a b 3 fun j => j]
  · refine congrArg (·, false) (Lane.write_congr (t := .s32) fun i => ?_)
    rw [Value.cast, sumMixedBytes_val]
    exact (IntType.wrap_wrap le_rfl _).symm
  · refine congrArg (·, false) (Lane.write_congr (t := .u32) fun i => ?_)
    rw [Value.cast, sumBytes_val]
    exact (IntType.wrap_wrap le_rfl _).symm
  · refine congrArg (·, false) (Lane.write_congr (t := .u32) fun i => ?_)
    rw [Value.cast, hunsigned]
    exact (IntType.wrap_wrap le_rfl _).symm
  · exact congrArg (laneSat .u32) (funext fun i => (hunsigned i).symm)
  · refine congrArg (·, false) (Lane.write_congr (t := .s32) fun i => ?_)
    rw [Value.cast, hsigned]
    exact (IntType.wrap_wrap le_rfl _).symm
  · exact congrArg (laneSat .s32) (funext fun i => (hsigned i).symm)

/-- **The types of the intermediate values change no result.**  `execute_vector` with every
intermediate value in its C++ type is `execute_vector` over the integers. -/
theorem executeVector_eq (fl : FloatOps) (m : Mnemonic) (w vscr : BitVec 32) (a b c : Vector128) :
    executeVector fl m w vscr a b c = Aot.executeVector fl m w vscr a b c := by
  unfold executeVector
  cases h : integerVector m a b c with
  | none => rfl
  | some r => exact (integerVector_eq fl w vscr h).symm

end Typed

end Aot
end XenonRecomp
