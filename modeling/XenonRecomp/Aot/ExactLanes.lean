/-
# Integer vector operations over the integers

What each integer vector operation computes: one integer expression per lane of
the result, over the unbounded integers, and whether the operation is modular or
saturating.  The lanes of the result are the expressions, reduced modulo the lane
or clamped to it, and VSCR[SAT] is set where a lane was clamped.  The pixel forms
move bit fields and are modular.

`execute_vector` does this for every operation but five.  `vsum4shs` and
`vsum2sws` add in `int`, where their siblings use a 64-bit accumulator, and wrap
instead of clamping; `vpkpx`, `vupkhpx` and `vupklpx` put fields in other places.
`executeVectorState_exact_iff` gives the operands for which each is exact.
-/

import Mathlib.Tactic.IntervalCases
import Mathlib.Tactic.Ring
import XenonRecomp.Aot.TypedLanes

namespace XenonRecomp
namespace Aot

open Cpu Machine Library.MachineInts

/-- What an operation computes in the lanes of its result. -/
structure LaneExpression where
  lane : Lane
  value : ℕ → ℤ
  saturating : Bool

namespace LaneExpression

/-- The lane of the result. -/
def result (e : LaneExpression) (i : ℕ) : ℤ :=
  if e.saturating then e.lane.clamp (e.value i) else e.lane.intType.wrap (e.value i)

/-- Some lane is clamped. -/
def clamped (e : LaneExpression) : Bool :=
  e.saturating && (List.range e.lane.count).any fun i => e.lane.saturates (e.value i)

end LaneExpression

/-- Modular lanes. -/
def modular (t : Lane) (f : ℕ → ℤ) : LaneExpression := ⟨t, f, false⟩

/-- Saturating lanes. -/
def saturating (t : Lane) (f : ℕ → ℤ) : LaneExpression := ⟨t, f, true⟩

/-- Lane `i` of the concatenation of two vectors. -/
def pairLane (t : Lane) (a b : Vector128) (i : ℕ) : ℤ :=
  if i < t.count then t.read a i else t.read b (i - t.count)

/-- The pixel of a word: the low bit of its first byte and the five high bits of the others. -/
def pixelOf (x : ℤ) : ℤ :=
  x / 2 ^ 24 % 2 * 2 ^ 15 + x / 2 ^ 19 % 2 ^ 5 * 2 ^ 10 + x / 2 ^ 11 % 2 ^ 5 * 2 ^ 5 +
    x / 2 ^ 3 % 2 ^ 5

/-- The word of a pixel: its first bit in all of a byte, and three channels in a byte each. -/
def wordOf (h : ℤ) : ℤ :=
  h / 2 ^ 15 * 255 * 2 ^ 24 + h / 2 ^ 10 % 2 ^ 5 * 2 ^ 16 + h / 2 ^ 5 % 2 ^ 5 * 2 ^ 8 + h % 2 ^ 5

/-- The sum of four lanes. -/
def sumLanes (t : Lane) (v : Vector128) (k : ℕ → ℕ) : ℤ :=
  ((List.range 4).map fun j => t.read v (k j)).sum

/-- Sums, differences, carries and averages. -/
def additiveExpression (m : Mnemonic) (a b : Vector128) : Option LaneExpression :=
  let add (t : Lane) (i : ℕ) : ℤ := t.read a i + t.read b i
  let sub (t : Lane) (i : ℕ) : ℤ := t.read a i - t.read b i
  let average (t : Lane) (i : ℕ) : ℤ := (t.read a i + t.read b i + 1) / 2
  match m with
  | .vaddubm => some (modular .u8 (add .u8))
  | .vadduhm => some (modular .u16 (add .u16))
  | .vadduwm => some (modular .u32 (add .u32))
  | .vsububm => some (modular .u8 (sub .u8))
  | .vsubuhm => some (modular .u16 (sub .u16))
  | .vsubuwm => some (modular .u32 (sub .u32))
  | .vaddsbs => some (saturating .s8 (add .s8))
  | .vaddshs => some (saturating .s16 (add .s16))
  | .vaddsws => some (saturating .s32 (add .s32))
  | .vaddubs => some (saturating .u8 (add .u8))
  | .vadduhs => some (saturating .u16 (add .u16))
  | .vadduws => some (saturating .u32 (add .u32))
  | .vsubsbs => some (saturating .s8 (sub .s8))
  | .vsubshs => some (saturating .s16 (sub .s16))
  | .vsubsws => some (saturating .s32 (sub .s32))
  | .vsububs => some (saturating .u8 (sub .u8))
  | .vsubuhs => some (saturating .u16 (sub .u16))
  | .vsubuws => some (saturating .u32 (sub .u32))
  | .vaddcuw => some (modular .u32 fun i => add .u32 i / 2 ^ 32)
  | .vsubcuw => some (modular .u32 fun i => sub .u32 i / 2 ^ 32 + 1)
  | .vavgsb => some (modular .s8 (average .s8))
  | .vavgsh => some (modular .s16 (average .s16))
  | .vavgsw => some (modular .s32 (average .s32))
  | .vavgub => some (modular .u8 (average .u8))
  | .vavguh => some (modular .u16 (average .u16))
  | .vavguw => some (modular .u32 (average .u32))
  | _ => none

/-- Maxima, minima and comparisons. -/
def orderExpression (m : Mnemonic) (a b : Vector128) : Option LaneExpression :=
  let maximum (t : Lane) (i : ℕ) : ℤ := max (t.read a i) (t.read b i)
  let minimum (t : Lane) (i : ℕ) : ℤ := min (t.read a i) (t.read b i)
  let equal (t : Lane) (i : ℕ) : ℤ := if t.read a i = t.read b i then -1 else 0
  let greater (t : Lane) (i : ℕ) : ℤ := if t.read b i < t.read a i then -1 else 0
  match m with
  | .vmaxsb => some (modular .s8 (maximum .s8))
  | .vmaxsh => some (modular .s16 (maximum .s16))
  | .vmaxsw => some (modular .s32 (maximum .s32))
  | .vmaxub => some (modular .u8 (maximum .u8))
  | .vmaxuh => some (modular .u16 (maximum .u16))
  | .vmaxuw => some (modular .u32 (maximum .u32))
  | .vminsb => some (modular .s8 (minimum .s8))
  | .vminsh => some (modular .s16 (minimum .s16))
  | .vminsw => some (modular .s32 (minimum .s32))
  | .vminub => some (modular .u8 (minimum .u8))
  | .vminuh => some (modular .u16 (minimum .u16))
  | .vminuw => some (modular .u32 (minimum .u32))
  | .vcmpequb => some (modular .u8 (equal .u8))
  | .vcmpequh => some (modular .u16 (equal .u16))
  | .vcmpequw | .vcmpequw128 => some (modular .u32 (equal .u32))
  | .vcmpgtsb => some (modular .s8 (greater .s8))
  | .vcmpgtsh => some (modular .s16 (greater .s16))
  | .vcmpgtsw => some (modular .s32 (greater .s32))
  | .vcmpgtub => some (modular .u8 (greater .u8))
  | .vcmpgtuh => some (modular .u16 (greater .u16))
  | .vcmpgtuw => some (modular .u32 (greater .u32))
  | _ => none

/-- Products, products with an addend, and sums of products. -/
def productExpression (m : Mnemonic) (a b c : Vector128) : Option LaneExpression :=
  let product (t : Lane) (off i : ℕ) : ℤ := t.read a (2 * i + off) * t.read b (2 * i + off)
  match m with
  | .vmuleub => some (modular .u16 (product .u8 0))
  | .vmuloub => some (modular .u16 (product .u8 1))
  | .vmulesb => some (modular .s16 (product .s8 0))
  | .vmulosb => some (modular .s16 (product .s8 1))
  | .vmuleuh => some (modular .u32 (product .u16 0))
  | .vmulouh => some (modular .u32 (product .u16 1))
  | .vmulesh => some (modular .s32 (product .s16 0))
  | .vmulosh => some (modular .s32 (product .s16 1))
  | .vmladduhm => some <|
      modular .u16 fun i => Lane.u16.read a i * Lane.u16.read b i + Lane.u16.read c i
  | .vmhaddshs => some <|
      saturating .s16 fun i => Lane.s16.read a i * Lane.s16.read b i / 2 ^ 15 + Lane.s16.read c i
  | .vmhraddshs => some <|
      saturating .s16 fun i =>
        (Lane.s16.read a i * Lane.s16.read b i + 2 ^ 14) / 2 ^ 15 + Lane.s16.read c i
  | .vmsummbm => some <|
      modular .s32 fun i => Lane.s32.read c i + sumProducts .s8 .u8 4 a b i
  | .vmsumubm => some <|
      modular .u32 fun i => Lane.u32.read c i + sumProducts .u8 .u8 4 a b i
  | .vmsumuhm => some <|
      modular .u32 fun i => Lane.u32.read c i + sumProducts .u16 .u16 2 a b i
  | .vmsumuhs => some <|
      saturating .u32 fun i => Lane.u32.read c i + sumProducts .u16 .u16 2 a b i
  | .vmsumshm => some <|
      modular .s32 fun i => Lane.s32.read c i + sumProducts .s16 .s16 2 a b i
  | .vmsumshs => some <|
      saturating .s32 fun i => Lane.s32.read c i + sumProducts .s16 .s16 2 a b i
  | _ => none

/-- Packs. -/
def packExpression (m : Mnemonic) (a b : Vector128) : Option LaneExpression :=
  match m with
  | .vpkuhum | .vpkuhum128 => some (modular .u8 (pairLane .u16 a b))
  | .vpkuhus | .vpkuhus128 => some (saturating .u8 (pairLane .u16 a b))
  | .vpkshss | .vpkshss128 => some (saturating .s8 (pairLane .s16 a b))
  | .vpkshus | .vpkshus128 => some (saturating .u8 (pairLane .s16 a b))
  | .vpkuwum | .vpkuwum128 => some (modular .u16 (pairLane .u32 a b))
  | .vpkuwus | .vpkuwus128 => some (saturating .u16 (pairLane .u32 a b))
  | .vpkswss | .vpkswss128 => some (saturating .s16 (pairLane .s32 a b))
  | .vpkswus | .vpkswus128 => some (saturating .u16 (pairLane .s32 a b))
  | .vpkpx => some (modular .u16 fun i => pixelOf (pairLane .u32 a b i))
  | _ => none

/-- Unpacks. -/
def unpackExpression (m : Mnemonic) (a : Vector128) : Option LaneExpression :=
  match m with
  | .vupkhsb | .vupkhsb128 => some (modular .s16 fun i => Lane.s8.read a i)
  | .vupklsb | .vupklsb128 => some (modular .s16 fun i => Lane.s8.read a (8 + i))
  | .vupkhsh => some (modular .s32 fun i => Lane.s16.read a i)
  | .vupklsh => some (modular .s32 fun i => Lane.s16.read a (4 + i))
  | .vupkhpx => some (modular .u32 fun i => wordOf (Lane.u16.read a i))
  | .vupklpx => some (modular .u32 fun i => wordOf (Lane.u16.read a (4 + i)))
  | _ => none

/-- Sums across lanes. -/
def acrossExpression (m : Mnemonic) (a b : Vector128) : Option LaneExpression :=
  match m with
  | .vsum4ubs => some <|
      saturating .u32 fun i => Lane.u32.read b i + sumLanes .u8 a fun j => i * 4 + j
  | .vsum4sbs => some <|
      saturating .s32 fun i => Lane.s32.read b i + sumLanes .s8 a fun j => i * 4 + j
  | .vsum4shs => some <|
      saturating .s32 fun i =>
        Lane.s32.read b i + Lane.s16.read a (2 * i) + Lane.s16.read a (2 * i + 1)
  | .vsum2sws => some <|
      saturating .s32 fun i => if i % 2 = 0 then 0
        else Lane.s32.read b i + Lane.s32.read a (i - 1) + Lane.s32.read a i
  | .vsumsws => some <|
      saturating .s32 fun i => if i ≠ 3 then 0
        else Lane.s32.read b 3 + sumLanes .s32 a fun j => j
  | _ => none

/-- What the integer vector operations compute. -/
def laneExpression (m : Mnemonic) (a b c : Vector128) : Option LaneExpression :=
  (additiveExpression m a b).or <| (orderExpression m a b).or <|
    (productExpression m a b c).or <| (packExpression m a b).or <|
      (unpackExpression m a).or (acrossExpression m a b)

/-- VSCR[SAT]. -/
def saturated (s : CpuState) : Bool := s.vscr &&& vscrSAT != 0

/-- The outcome of an operation is its lane expression, and SAT its old value or a clamped lane. -/
def Exact (e : LaneExpression) (s : CpuState) (r : Vector128 × CpuState) : Prop :=
  (∀ i < e.lane.count, e.lane.read r.1 i = e.result i) ∧
    saturated r.2 = (saturated s || e.clamped)

instance (e : LaneExpression) (s : CpuState) (r : Vector128 × CpuState) : Decidable (Exact e s r) :=
  inferInstanceAs (Decidable (_ ∧ _))

/-- The operands for which an operation is exact: for the sums in `int`, no sum leaves the lane,
or it wraps around to the bound it should be clamped to while SAT is already set; for the pixel
forms, the fields that are moved to another place agree. -/
def exactOperands (m : Mnemonic) (s : CpuState) (a b : Vector128) : Prop :=
  match m with
  | .vsum4shs => ∀ i < 4, Lane.s32.saturates
      (Lane.s32.read b i + Lane.s16.read a (2 * i) + Lane.s16.read a (2 * i + 1)) = false
  | .vsum2sws => ∀ i < 2, Lane.s32.saturates (Lane.s32.read b (2 * i + 1) +
        Lane.s32.read a (2 * i) + Lane.s32.read a (2 * i + 1)) = false ∨
      saturated s = true ∧ Lane.s32.read b (2 * i + 1) = -2 ^ 31 ∧
        Lane.s32.read a (2 * i) = -2 ^ 31 ∧ Lane.s32.read a (2 * i + 1) = -2 ^ 31
  | .vpkpx => ∀ i < 8, pairLane .u32 a b i / 2 ^ 24 % 2 = pairLane .u32 a b i / 2 ^ 31
  | .vupkhpx => ∀ i < 4, Lane.u16.read a i = 0
  | .vupklpx => ∀ i < 4, Lane.u16.read a (4 + i) = 0
  | _ => True

/-! ## Lanes that were written -/

section Written

variable {i : ℕ}

theorem u8_ofBytes (f : ℕ → BitVec 8) (hi : i < 16) : (Vector128.ofBytes f).u8 i = f i := by
  simp only [Vector128.u8, Vector128.ofBytes, Fin.ofNat, Nat.mod_eq_of_lt hi]

theorem u16Be_ofLanes16 (f : ℕ → BitVec 16) (hi : i < 8) :
    (Vector128.ofLanes16 f).u16Be i = f i := by
  have hbyte : ∀ j, j < 2 → (Vector128.ofLanes16 f).u8 (i % 8 * 2 + j) =
      (f i).extractLsb' (8 * (1 - j)) 8 := by
    intro j hj
    simp only [Vector128.u8, Vector128.ofLanes16, Fin.ofNat]
    rw [show (i % 8 * 2 + j) % 16 / 2 = i by omega, show (i % 8 * 2 + j) % 16 % 2 = j by omega]
  have hzero := hbyte 0 (by omega)
  rw [Nat.add_zero] at hzero
  rw [Vector128.u16Be, hzero, hbyte 1 (by omega)]
  exact BitVec.extractLsb'_append_extractLsb'

theorem u32Be_ofLanes32 (f : ℕ → BitVec 32) (hi : i < 4) :
    (Vector128.ofLanes32 f).u32Be i = f i := by
  have hbyte : ∀ j, j < 4 → (Vector128.ofLanes32 f).u8 (i % 4 * 4 + j) =
      (f i).extractLsb' (8 * (3 - j)) 8 := by
    intro j hj
    simp only [Vector128.u8, Vector128.ofLanes32, Fin.ofNat]
    rw [show (i % 4 * 4 + j) % 16 / 4 = i by omega, show (i % 4 * 4 + j) % 16 % 4 = j by omega]
  have hzero := hbyte 0 (by omega)
  rw [Nat.add_zero] at hzero
  rw [Vector128.u32Be, hzero, hbyte 1 (by omega), hbyte 2 (by omega), hbyte 3 (by omega)]
  rw [BitVec.extractLsb'_append_extractLsb'_eq_extractLsb' (by omega),
    BitVec.extractLsb'_append_extractLsb'_eq_extractLsb' (by omega),
    BitVec.extractLsb'_append_extractLsb'_eq_extractLsb' (by omega)]
  exact BitVec.extractLsb'_eq_self

/-- A lane that was written is the integer, reduced to the lane type. -/
theorem read_write (t : Lane) (f : ℕ → ℤ) (hi : i < t.count) :
    t.read (t.write f) i = t.intType.wrap (f i) := by
  have hunsigned : ∀ (n : ℕ) (z : ℤ), ((BitVec.ofInt n z).toNat : ℤ) = z % 2 ^ n := by
    intro n z
    have hpos : (0 : ℤ) < 2 ^ n := by positivity
    rw [BitVec.toNat_ofInt]
    push_cast
    exact Int.toNat_of_nonneg (Int.emod_nonneg z hpos.ne')
  cases t with
  | u8 =>
      simp only [Lane.read, Lane.write, u8_ofBytes _ hi, hunsigned]
      rfl
  | s8 =>
      simp only [Lane.read, Lane.write, u8_ofBytes _ hi, BitVec.toInt_ofInt]
      rfl
  | u16 =>
      simp only [Lane.read, Lane.write, u16Be_ofLanes16 _ hi, hunsigned]
      rfl
  | s16 =>
      simp only [Lane.read, Lane.write, u16Be_ofLanes16 _ hi, BitVec.toInt_ofInt]
      rfl
  | u32 =>
      simp only [Lane.read, Lane.write, u32Be_ofLanes32 _ hi, hunsigned]
      rfl
  | s32 =>
      simp only [Lane.read, Lane.write, u32Be_ofLanes32 _ hi, BitVec.toInt_ofInt]
      rfl

end Written

/-! ## The operations -/

section Operations

variable {fl : FloatOps} {m : Mnemonic} {w : BitVec 32} {s : CpuState} {a b c : Vector128} {t : Lane}
variable {f g : ℕ → ℤ}

theorem saturated_setVectorSaturated (s : CpuState) : saturated s.setVectorSaturated = true := by
  have hbit : (s.setVectorSaturated.vscr &&& vscrSAT) = vscrSAT := by
    simp only [CpuState.setVectorSaturated]
    ext i hi
    simp only [BitVec.getElem_and, BitVec.getElem_or]
    cases vscrSAT[i] <;> simp
  rw [saturated, hbit]
  rfl

/-- The state after a vector operation, from its result over the integers. -/
theorem executeVectorState_eq (r : Vector128) (p : Bool)
    (h : Aot.executeVector fl m w s.vscr a b c = (r, p)) :
    Typed.executeVectorState fl m w s a b c = (r, if p then s.setVectorSaturated else s) := by
  simp only [Typed.executeVectorState, Typed.executeVector_eq, h]

/-- A modular operation is exact if and only if its lanes agree with the expression. -/
theorem exact_modular_iff (h : Aot.executeVector fl m w s.vscr a b c = (t.write g, false)) :
    Exact (modular t f) s (Typed.executeVectorState fl m w s a b c) ↔
      ∀ i < t.count, t.intType.wrap (g i) = t.intType.wrap (f i) := by
  rw [executeVectorState_eq _ _ h]
  have hsat : saturated s = (saturated s || (modular t f).clamped) := by
    simp [modular, LaneExpression.clamped]
  constructor
  · rintro ⟨hlanes, -⟩ i hi
    have := hlanes i hi
    rw [show (modular t f).lane = t from rfl, read_write t g hi] at this
    exact this
  · intro hlanes
    refine ⟨fun i hi => ?_, hsat⟩
    have := read_write t g hi
    exact this.trans (hlanes i hi)

theorem exact_modular (h : Aot.executeVector fl m w s.vscr a b c = (t.write g, false))
    (hg : ∀ i, g i = f i) (hop : exactOperands m s a b) :
    Exact (modular t f) s (Typed.executeVectorState fl m w s a b c) ↔ exactOperands m s a b :=
  iff_of_true ((exact_modular_iff h).mpr fun i _ => by rw [hg i]) hop

/-- What a clamp leaves is a value of the lane. -/
theorem wrap_clamp (t : Lane) (z : ℤ) : t.intType.wrap (t.clamp z) = t.clamp z := by
  have hlohi : t.lo ≤ t.hi := by cases t <;> decide
  refine IntType.wrap_of_holds ?_
  rw [IntType.Holds, Lane.intType_lo, Lane.intType_hi, Lane.clamp]
  omega

theorem exact_saturating (h : Aot.executeVector fl m w s.vscr a b c = laneSat t f)
    (hop : exactOperands m s a b) :
    Exact (saturating t f) s (Typed.executeVectorState fl m w s a b c) ↔ exactOperands m s a b := by
  refine iff_of_true ?_ hop
  rw [executeVectorState_eq _ _ h]
  refine ⟨fun i hi => (read_write t _ hi).trans (wrap_clamp t (f i)), ?_⟩
  have hclamped : (saturating t f).clamped =
      (List.range t.count).any fun i => t.saturates (f i) := by
    simp [saturating, LaneExpression.clamped]
  rw [hclamped]
  cases hany : (List.range t.count).any fun i => t.saturates (f i) with
  | false => simp
  | true => simp [saturated_setVectorSaturated]

theorem minmax_max (t : Lane) (a b : Vector128) :
    minmax t true a b = t.write fun i => max (t.read a i) (t.read b i) := by
  refine congrArg t.write (funext fun i => ?_)
  simp only [if_true]
  split <;> omega

theorem minmax_min (t : Lane) (a b : Vector128) :
    minmax t false a b = t.write fun i => min (t.read a i) (t.read b i) := by
  refine congrArg t.write (funext fun i => ?_)
  simp only [Bool.false_eq_true, if_false]
  split <;> omega

theorem compareLanes_eq (t : Lane) (a b : Vector128) :
    compareLanes t (· == ·) a b =
      t.write fun i => if t.read a i = t.read b i then -1 else 0 := by
  simp only [compareLanes, beq_iff_eq]

theorem compareLanes_gt (t : Lane) (a b : Vector128) :
    compareLanes t (fun x y => decide (x > y)) a b =
      t.write fun i => if t.read b i < t.read a i then -1 else 0 := by
  simp only [compareLanes, decide_eq_true_eq, gt_iff_lt]

/-- Word lanes of zeros and ones. -/
theorem ofLanes32_ite (p : ℕ → Prop) [DecidablePred p] :
    (Vector128.ofLanes32 fun i => if p i then 1 else 0) =
      Lane.u32.write fun i => if p i then 1 else 0 := by
  simp only [Lane.write]
  refine congrArg Vector128.ofLanes32 (funext fun i => ?_)
  split <;> rfl

theorem carry_lanes (a b : Vector128) :
    (Vector128.ofLanes32 fun i => if (a.u32Be i).toNat + (b.u32Be i).toNat ≥ 2 ^ 32 then 1 else 0) =
      Lane.u32.write fun i => (Lane.u32.read a i + Lane.u32.read b i) / 2 ^ 32 := by
  rw [ofLanes32_ite]
  refine congrArg (Lane.write .u32) (funext fun i => ?_)
  have hx := (a.u32Be i).isLt
  have hy := (b.u32Be i).isLt
  simp only [Lane.read]
  split <;> omega

theorem borrow_lanes (a b : Vector128) :
    (Vector128.ofLanes32 fun i => if (b.u32Be i).toNat ≤ (a.u32Be i).toNat then 1 else 0) =
      Lane.u32.write fun i => (Lane.u32.read a i - Lane.u32.read b i) / 2 ^ 32 + 1 := by
  rw [ofLanes32_ite]
  refine congrArg (Lane.write .u32) (funext fun i => ?_)
  have hx := (a.u32Be i).isLt
  have hy := (b.u32Be i).isLt
  simp only [Lane.read]
  split <;> omega

theorem additive_exact {e : LaneExpression} (he : additiveExpression m a b = some e) :
    Exact e s (Typed.executeVectorState fl m w s a b c) ↔ exactOperands m s a b := by
  unfold additiveExpression at he
  split at he <;> first | obtain rfl := Option.some.inj he | cases he
  iterate 6
    · exact exact_modular rfl (fun _ => rfl) trivial
  iterate 12
    · exact exact_saturating rfl trivial
  · exact exact_modular (congrArg (·, false) (carry_lanes a b)) (fun _ => rfl) trivial
  · exact exact_modular (congrArg (·, false) (borrow_lanes a b)) (fun _ => rfl) trivial
  iterate 6
    · exact exact_modular rfl (fun _ => rfl) trivial

theorem order_exact {e : LaneExpression} (he : orderExpression m a b = some e) :
    Exact e s (Typed.executeVectorState fl m w s a b c) ↔ exactOperands m s a b := by
  unfold orderExpression at he
  split at he <;> first | obtain rfl := Option.some.inj he | cases he
  iterate 6
    · exact exact_modular (congrArg (·, false) (minmax_max _ a b)) (fun _ => rfl) trivial
  iterate 6
    · exact exact_modular (congrArg (·, false) (minmax_min _ a b)) (fun _ => rfl) trivial
  iterate 4
    · exact exact_modular (congrArg (·, false) (compareLanes_eq _ a b)) (fun _ => rfl) trivial
  iterate 6
    · exact exact_modular (congrArg (·, false) (compareLanes_gt _ a b)) (fun _ => rfl) trivial

theorem product_exact {e : LaneExpression} (he : productExpression m a b c = some e) :
    Exact e s (Typed.executeVectorState fl m w s a b c) ↔ exactOperands m s a b := by
  unfold productExpression at he
  split at he <;> first | obtain rfl := Option.some.inj he | cases he
  iterate 9
    · exact exact_modular rfl (fun _ => rfl) trivial
  iterate 2
    · exact exact_saturating rfl trivial
  iterate 3
    · exact exact_modular rfl (fun _ => rfl) trivial
  · exact exact_saturating rfl trivial
  · exact exact_modular rfl (fun _ => rfl) trivial
  · exact exact_saturating rfl trivial

theorem toNat_append_add {n k : ℕ} (x : BitVec n) (y : BitVec k) :
    (x ++ y).toNat = x.toNat * 2 ^ k + y.toNat := by
  rw [BitVec.toNat_append, ← Nat.shiftLeft_add_eq_or_of_lt y.isLt, Nat.shiftLeft_eq]

/-- The fields that `vpkpx` packs. -/
theorem packPixel_eq (x : BitVec 32) : packPixel x =
    x.extractLsb' 31 1 ++ x.extractLsb' 19 5 ++ x.extractLsb' 11 5 ++ x.extractLsb' 3 5 := by
  apply BitVec.eq_of_getLsbD_eq
  intro i hi
  rw [BitVec.getLsbD_append, BitVec.getLsbD_append, BitVec.getLsbD_append]
  simp only [BitVec.getLsbD_extractLsb', packPixel]
  interval_cases i <;> simp

/-- The fields that `vupkhpx` and `vupklpx` unpack. -/
theorem unpackPixel_eq (h : BitVec 16) : unpackPixel h =
    h.extractLsb' 15 1 ++ 0#7 ++ h.extractLsb' 10 5 ++ 0#3 ++ h.extractLsb' 5 5 ++ 0#3 ++
      h.extractLsb' 0 5 ++ 0#3 := by
  apply BitVec.eq_of_getLsbD_eq
  intro i hi
  rw [BitVec.getLsbD_append, BitVec.getLsbD_append, BitVec.getLsbD_append, BitVec.getLsbD_append,
    BitVec.getLsbD_append, BitVec.getLsbD_append, BitVec.getLsbD_append]
  simp only [BitVec.getLsbD_extractLsb', unpackPixel]
  interval_cases i <;> simp

/-- The pixel of a word, as a number. -/
theorem packPixel_toNat (x : BitVec 32) : (packPixel x).toNat =
    x.toNat / 2 ^ 31 % 2 * 2 ^ 15 + x.toNat / 2 ^ 19 % 2 ^ 5 * 2 ^ 10 +
      x.toNat / 2 ^ 11 % 2 ^ 5 * 2 ^ 5 + x.toNat / 2 ^ 3 % 2 ^ 5 := by
  simp only [packPixel_eq, toNat_append_add, BitVec.extractLsb'_toNat, Nat.shiftRight_eq_div_pow]
  ring

/-- The word of a pixel that the code builds, as a number. -/
theorem unpackPixel_toNat (h : BitVec 16) : (unpackPixel h).toNat =
    h.toNat / 2 ^ 15 % 2 * 2 ^ 31 + h.toNat / 2 ^ 10 % 2 ^ 5 * 2 ^ 19 +
      h.toNat / 2 ^ 5 % 2 ^ 5 * 2 ^ 11 + h.toNat % 2 ^ 5 * 2 ^ 3 := by
  simp only [unpackPixel_eq, toNat_append_add, BitVec.extractLsb'_toNat, Nat.shiftRight_eq_div_pow,
    BitVec.toNat_ofNat, Nat.zero_mod, pow_zero, Nat.div_one]
  ring

/-- `vpkpx` packs a word as it should if the bit it takes first agrees with the one it should. -/
theorem packPixel_wrap_iff (x : BitVec 32) :
    IntType.u16.wrap (packPixel x).toNat = IntType.u16.wrap (pixelOf x.toNat) ↔
      (x.toNat : ℤ) / 2 ^ 24 % 2 = (x.toNat : ℤ) / 2 ^ 31 := by
  have hfields : ∀ p q r s t : ℤ, 0 ≤ p ∧ p < 2 → 0 ≤ q ∧ q < 2 → 0 ≤ r ∧ r < 2 ^ 5 →
      0 ≤ s ∧ s < 2 ^ 5 → 0 ≤ t ∧ t < 2 ^ 5 →
      ((p * 2 ^ 15 + r * 2 ^ 10 + s * 2 ^ 5 + t) % 2 ^ 16 =
        (q * 2 ^ 15 + r * 2 ^ 10 + s * 2 ^ 5 + t) % 2 ^ 16 ↔ q = p) := by
    intro p q r s t hp hq hr hs ht
    omega
  have hmod : ∀ z k : ℤ, 0 < k → 0 ≤ z % k ∧ z % k < k := fun z k hk =>
    ⟨Int.emod_nonneg z hk.ne', Int.emod_lt_of_pos z hk⟩
  have htop : (x.toNat : ℤ) / 2 ^ 31 = (x.toNat : ℤ) / 2 ^ 31 % 2 := by
    have hx := x.isLt
    omega
  rw [packPixel_toNat, htop]
  simp only [IntType.wrap, IntType.signed, IntType.bits, Bool.false_eq_true, if_false, pixelOf]
  push_cast
  exact hfields _ _ _ _ _ (hmod _ _ (by norm_num)) (hmod _ _ (by norm_num))
    (hmod _ _ (by norm_num)) (hmod _ _ (by norm_num)) (hmod _ _ (by norm_num))

/-- The code unpacks a pixel as it should if all of its bits are zero. -/
theorem unpackPixel_wrap_iff (h : BitVec 16) :
    IntType.u32.wrap (unpackPixel h).toNat = IntType.u32.wrap (wordOf h.toNat) ↔
      (h.toNat : ℤ) = 0 := by
  have hfields : ∀ p r s t : ℤ, 0 ≤ p ∧ p < 2 → 0 ≤ r ∧ r < 2 ^ 5 → 0 ≤ s ∧ s < 2 ^ 5 →
      0 ≤ t ∧ t < 2 ^ 5 →
      ((p * 2 ^ 31 + r * 2 ^ 19 + s * 2 ^ 11 + t * 2 ^ 3) % 2 ^ 32 =
        (p * 255 * 2 ^ 24 + r * 2 ^ 16 + s * 2 ^ 8 + t) % 2 ^ 32 ↔
          p = 0 ∧ r = 0 ∧ s = 0 ∧ t = 0) := by
    intro p r s t hp hr hs ht
    omega
  have hmod : ∀ z k : ℤ, 0 < k → 0 ≤ z % k ∧ z % k < k := fun z k hk =>
    ⟨Int.emod_nonneg z hk.ne', Int.emod_lt_of_pos z hk⟩
  have hh := h.isLt
  have htop : (h.toNat : ℤ) / 2 ^ 15 = (h.toNat : ℤ) / 2 ^ 15 % 2 := by omega
  have hzero : (h.toNat : ℤ) / 2 ^ 15 % 2 = 0 ∧ (h.toNat : ℤ) / 2 ^ 10 % 2 ^ 5 = 0 ∧
      (h.toNat : ℤ) / 2 ^ 5 % 2 ^ 5 = 0 ∧ (h.toNat : ℤ) % 2 ^ 5 = 0 ↔ (h.toNat : ℤ) = 0 := by
    omega
  have hword : wordOf h.toNat = (h.toNat : ℤ) / 2 ^ 15 % 2 * 255 * 2 ^ 24 +
      (h.toNat : ℤ) / 2 ^ 10 % 2 ^ 5 * 2 ^ 16 + (h.toNat : ℤ) / 2 ^ 5 % 2 ^ 5 * 2 ^ 8 +
      (h.toNat : ℤ) % 2 ^ 5 := by
    rw [← htop, wordOf]
  rw [unpackPixel_toNat, ← hzero, hword]
  simp only [IntType.wrap, IntType.signed, IntType.bits, Bool.false_eq_true, if_false]
  push_cast
  exact hfields _ _ _ _ (hmod _ _ (by norm_num)) (hmod _ _ (by norm_num))
    (hmod _ _ (by norm_num)) (hmod _ _ (by norm_num))

theorem pixel_exact {x : ℕ → BitVec 32} (h : Aot.executeVector fl m w s.vscr a b c =
      (.ofLanes16 fun i => packPixel (x i), false)) :
    Exact (modular .u16 fun i => pixelOf (x i).toNat) s
      (Typed.executeVectorState fl m w s a b c) ↔
      ∀ i < 8, ((x i).toNat : ℤ) / 2 ^ 24 % 2 = ((x i).toNat : ℤ) / 2 ^ 31 := by
  have hlanes : Aot.executeVector fl m w s.vscr a b c =
      (Lane.u16.write fun i => ((packPixel (x i)).toNat : ℤ), false) := by
    rw [h]
    simp only [Lane.write, BitVec.ofInt_natCast, BitVec.ofNat_toNat, BitVec.setWidth_eq]
  rw [exact_modular_iff hlanes]
  exact forall₂_congr fun i _ => packPixel_wrap_iff (x i)

theorem unpackPixel_exact {x : ℕ → BitVec 16} (h : Aot.executeVector fl m w s.vscr a b c =
      (.ofLanes32 fun i => unpackPixel (x i), false)) :
    Exact (modular .u32 fun i => wordOf (x i).toNat) s
      (Typed.executeVectorState fl m w s a b c) ↔ ∀ i < 4, ((x i).toNat : ℤ) = 0 := by
  have hlanes : Aot.executeVector fl m w s.vscr a b c =
      (Lane.u32.write fun i => ((unpackPixel (x i)).toNat : ℤ), false) := by
    rw [h]
    simp only [Lane.write, BitVec.ofInt_natCast, BitVec.ofNat_toNat, BitVec.setWidth_eq]
  rw [exact_modular_iff hlanes]
  exact forall₂_congr fun i _ => unpackPixel_wrap_iff (x i)

theorem pack_exact {e : LaneExpression} (he : packExpression m a b = some e) :
    Exact e s (Typed.executeVectorState fl m w s a b c) ↔ exactOperands m s a b := by
  unfold packExpression at he
  split at he <;> first | obtain rfl := Option.some.inj he | cases he
  iterate 2
    · exact exact_modular rfl (fun _ => rfl) trivial
  iterate 6
    · exact exact_saturating rfl trivial
  iterate 2
    · exact exact_modular rfl (fun _ => rfl) trivial
  iterate 6
    · exact exact_saturating rfl trivial
  · have hpair : pairLane .u32 a b = fun i =>
        ((if i < 4 then a.u32Be i else b.u32Be (i - 4)).toNat : ℤ) := by
      funext i
      by_cases hi : i < 4
      · rw [if_pos hi]
        exact if_pos hi
      · rw [if_neg hi]
        exact if_neg hi
    have hlanes : Aot.executeVector fl .vpkpx w s.vscr a b c =
        (.ofLanes16 fun i => packPixel (if i < 4 then a.u32Be i else b.u32Be (i - 4)), false) := rfl
    have hoperands : exactOperands .vpkpx s a b =
      ∀ i < 8, pairLane .u32 a b i / 2 ^ 24 % 2 = pairLane .u32 a b i / 2 ^ 31 := rfl
    rw [hoperands, hpair]
    exact pixel_exact hlanes

theorem unpack_exact {e : LaneExpression} (he : unpackExpression m a = some e) :
    Exact e s (Typed.executeVectorState fl m w s a b c) ↔ exactOperands m s a b := by
  unfold unpackExpression at he
  split at he <;> first | obtain rfl := Option.some.inj he | cases he
  iterate 6
    · exact exact_modular rfl (fun _ => rfl) trivial
  · have hlanes : Aot.executeVector fl .vupkhpx w s.vscr a b c =
        (.ofLanes32 fun i => unpackPixel (a.u16Be i), false) := rfl
    exact unpackPixel_exact hlanes
  · have hlanes : Aot.executeVector fl .vupklpx w s.vscr a b c =
        (.ofLanes32 fun i => unpackPixel (a.u16Be (4 + i)), false) := rfl
    exact unpackPixel_exact hlanes

/-- A saturating operation whose lanes wrap around before they are clamped. -/
theorem exact_wrapping_iff (h : Aot.executeVector fl m w s.vscr a b c =
      laneSat .s32 fun i => (BitVec.ofInt 32 (f i)).toInt) :
    Exact (saturating .s32 f) s (Typed.executeVectorState fl m w s a b c) ↔
      ∀ i < 4, Lane.s32.saturates (f i) = false ∨
        saturated s = true ∧ IntType.s32.wrap (f i) = Lane.s32.clamp (f i) := by
  have hwrap : ∀ i, (BitVec.ofInt 32 (f i)).toInt = IntType.s32.wrap (f i) := fun i =>
    BitVec.toInt_ofInt (f i)
  have hholds : ∀ i, Lane.s32.lo ≤ IntType.s32.wrap (f i) ∧ IntType.s32.wrap (f i) ≤ Lane.s32.hi :=
    fun i => IntType.holds_wrap .s32 (f i)
  have hresult : laneSat .s32 (fun i => (BitVec.ofInt 32 (f i)).toInt) =
      (Lane.s32.write fun i => IntType.s32.wrap (f i), false) := by
    have hclamp : ∀ i, Lane.s32.clamp (IntType.s32.wrap (f i)) = IntType.s32.wrap (f i) := by
      intro i
      have := hholds i
      rw [Lane.clamp]
      omega
    have hnot : ∀ i, Lane.s32.saturates (IntType.s32.wrap (f i)) = false := by
      intro i
      have := hholds i
      simp only [Lane.saturates, Bool.or_eq_false_iff, decide_eq_false_iff_not]
      omega
    have hany : ((List.range Lane.s32.count).any fun _ => false) = false := by simp
    simp only [laneSat, hwrap, hclamp, hnot, hany]
  rw [executeVectorState_eq _ _ (h.trans hresult)]
  have hlane : ∀ i < 4, Lane.s32.read (Lane.s32.write fun i => IntType.s32.wrap (f i)) i =
      IntType.s32.wrap (f i) := by
    intro i hi
    rw [read_write _ _ (show i < Lane.s32.count from hi)]
    exact IntType.wrap_of_holds (hholds i)
  have hclamped : (saturating .s32 f).clamped = true ↔
      ∃ i, i < 4 ∧ Lane.s32.saturates (f i) = true := by
    simp [saturating, LaneExpression.clamped, Lane.count]
  constructor
  · rintro ⟨hlanes, hsat⟩ i hi
    have hsat' : saturated s = (saturated s || (saturating .s32 f).clamped) := hsat
    have heq : IntType.s32.wrap (f i) = Lane.s32.clamp (f i) := (hlane i hi).symm.trans (hlanes i hi)
    cases hf : Lane.s32.saturates (f i) with
    | false => exact .inl rfl
    | true =>
        rw [hclamped.mpr ⟨i, hi, hf⟩, Bool.or_true] at hsat'
        exact .inr ⟨hsat', heq⟩
  · intro hlanes
    refine ⟨fun i hi => (hlane i hi).trans ?_, ?_⟩
    · rcases hlanes i hi with hin | ⟨-, heq⟩
      · simp only [Lane.saturates, Bool.or_eq_false_iff, decide_eq_false_iff_not, not_lt,
          gt_iff_lt] at hin
        have hfit : IntType.s32.wrap (f i) = f i := IntType.wrap_of_holds hin
        have hclamp : Lane.s32.clamp (f i) = f i := by
          rw [Lane.clamp]
          omega
        exact hfit.trans hclamp.symm
      · exact heq
    · cases hc : (saturating .s32 f).clamped with
      | false => simp
      | true =>
          obtain ⟨i, hi, hf⟩ := hclamped.mp hc
          rcases hlanes i hi with hin | ⟨hset, -⟩
          · rw [hf] at hin
            cases hin
          · simp [hset]

/-- A sum of three words that leaves the lane wraps to its bound only from thrice the least
word. -/
theorem wrap_eq_clamp_iff {z : ℤ} (hlo : -3 * 2 ^ 31 ≤ z) (hhi : z ≤ 3 * (2 ^ 31 - 1))
    (hz : Lane.s32.saturates z = true) :
    IntType.s32.wrap z = Lane.s32.clamp z ↔ z = -3 * 2 ^ 31 := by
  simp only [Lane.saturates, Lane.lo, Lane.hi, Bool.or_eq_true, decide_eq_true_eq, gt_iff_lt] at hz
  simp only [IntType.wrap, IntType.signed, IntType.bits, if_true, Int.bmod_def, Lane.clamp, Lane.lo,
    Lane.hi]
  norm_num at *
  split <;> omega

/-- A word and two halfwords wrap to no bound. -/
theorem sum4shs_wrap (a b : Vector128) (i j k : ℕ) (p : Prop) :
    Lane.s32.saturates (Lane.s32.read b i + Lane.s16.read a j + Lane.s16.read a k) = false ∨
      p ∧ IntType.s32.wrap (Lane.s32.read b i + Lane.s16.read a j + Lane.s16.read a k) =
        Lane.s32.clamp (Lane.s32.read b i + Lane.s16.read a j + Lane.s16.read a k) ↔
    Lane.s32.saturates (Lane.s32.read b i + Lane.s16.read a j + Lane.s16.read a k) = false := by
  have hx := Lane.s32.holds_read b i
  have hy := Lane.s16.holds_read a j
  have hz := Lane.s16.holds_read a k
  simp only [Lane.intType, IntType.Holds, IntType.lo, IntType.hi, IntType.signed, IntType.bits,
    if_true] at hx hy hz
  refine ⟨fun h => ?_, .inl⟩
  rcases h with h | ⟨-, h⟩
  · exact h
  · by_contra hsat
    rw [Bool.not_eq_false] at hsat
    have := (wrap_eq_clamp_iff (by omega) (by omega) hsat).mp h
    omega

/-- Three words wrap to a bound if all are the least word. -/
theorem sum2sws_wrap (a b : Vector128) (i j k : ℕ) (p : Prop) :
    Lane.s32.saturates (Lane.s32.read b i + Lane.s32.read a j + Lane.s32.read a k) = false ∨
      p ∧ IntType.s32.wrap (Lane.s32.read b i + Lane.s32.read a j + Lane.s32.read a k) =
        Lane.s32.clamp (Lane.s32.read b i + Lane.s32.read a j + Lane.s32.read a k) ↔
    Lane.s32.saturates (Lane.s32.read b i + Lane.s32.read a j + Lane.s32.read a k) = false ∨
      p ∧ Lane.s32.read b i = -2 ^ 31 ∧ Lane.s32.read a j = -2 ^ 31 ∧
        Lane.s32.read a k = -2 ^ 31 := by
  have hx := Lane.s32.holds_read b i
  have hy := Lane.s32.holds_read a j
  have hz := Lane.s32.holds_read a k
  simp only [Lane.intType, IntType.Holds, IntType.lo, IntType.hi, IntType.signed, IntType.bits,
    if_true] at hx hy hz
  cases hsat : Lane.s32.saturates
      (Lane.s32.read b i + Lane.s32.read a j + Lane.s32.read a k) with
  | false => simp
  | true =>
      rw [wrap_eq_clamp_iff (by omega) (by omega) hsat]
      refine or_congr_right (and_congr_right fun _ => ?_)
      omega

theorem across_exact {e : LaneExpression} (he : acrossExpression m a b = some e) :
    Exact e s (Typed.executeVectorState fl m w s a b c) ↔ exactOperands m s a b := by
  unfold acrossExpression at he
  split at he <;> first | obtain rfl := Option.some.inj he | cases he
  iterate 2
    · exact exact_saturating rfl trivial
  · rw [exact_wrapping_iff rfl]
    exact forall₂_congr fun i _ => sum4shs_wrap a b i _ _ _
  · have hlanes : Aot.executeVector fl .vsum2sws w s.vscr a b c = laneSat .s32 fun i =>
        (BitVec.ofInt 32 (if i % 2 = 0 then 0
          else Lane.s32.read b i + Lane.s32.read a (i - 1) + Lane.s32.read a i)).toInt := by
      refine congrArg (laneSat .s32) (funext fun i => ?_)
      split <;> rfl
    rw [exact_wrapping_iff hlanes]
    constructor
    · intro h i hi
      have := h (2 * i + 1) (by omega)
      rw [if_neg (by omega), Nat.add_sub_cancel] at this
      exact (sum2sws_wrap a b _ _ _ _).mp this
    · intro h i hi
      by_cases heven : i % 2 = 0
      · rw [if_pos heven]
        exact .inl (by decide)
      · have := h (i / 2) (by omega)
        rw [show 2 * (i / 2) + 1 = i by omega, show 2 * (i / 2) = i - 1 by omega] at this
        rw [if_neg heven]
        exact (sum2sws_wrap a b _ _ _ _).mpr this
  · exact exact_saturating rfl trivial

end Operations

/-- **Integer VMX arithmetic.**  For every integer vector operation and all operands the outcome of
`execute_vector` is the exact one if and only if the operands are among those for which the
operation is exact. -/
theorem executeVectorState_exact_iff (fl : FloatOps) {m : Mnemonic} (w : BitVec 32) (s : CpuState)
    {a b c : Vector128} {e : LaneExpression} (he : laneExpression m a b c = some e) :
    Exact e s (Typed.executeVectorState fl m w s a b c) ↔ exactOperands m s a b := by
  simp only [laneExpression, Option.or_eq_some_iff] at he
  rcases he with he | ⟨-, he | ⟨-, he | ⟨-, he | ⟨-, he | ⟨-, he⟩⟩⟩⟩⟩
  · exact additive_exact he
  · exact order_exact he
  · exact product_exact he
  · exact pack_exact he
  · exact unpack_exact he
  · exact across_exact he

/-- A vector of equal words. -/
def words (x : BitVec 32) : Vector128 := .ofLanes32 fun _ => x

/-- The saturating sum of words that leave the lane. -/
theorem executeVectorState_exact_vaddsws :
    Exact (saturating .s32 fun i => Lane.s32.read (words 0x7FFFFFFF) i + Lane.s32.read (words 1) i)
      .zero (Typed.executeVectorState default .vaddsws 0 .zero (words 0x7FFFFFFF) (words 1) .zero) :=
  (executeVectorState_exact_iff default 0 .zero (m := .vaddsws) (a := words 0x7FFFFFFF)
    (b := words 1) (c := .zero) rfl).mpr trivial

/-- `vsum4shs` of the greatest word and ones: the sum wraps and SAT stays clear. -/
theorem vsum4shs_inexact :
    ∃ e, laneExpression .vsum4shs (words 0x00010001) (words 0x7FFFFFFF) .zero = some e ∧
      ¬Exact e .zero (Typed.executeVectorState default .vsum4shs 0 .zero (words 0x00010001)
        (words 0x7FFFFFFF) .zero) :=
  ⟨_, rfl, by decide⟩

end Aot
end XenonRecomp
