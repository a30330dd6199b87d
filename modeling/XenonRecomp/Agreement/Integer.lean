/-
# Agreement on integer instructions

`execute_integer` against the code of `lift_integer`.  Results and carries agree
everywhere but at two places: the interpreter does not look at OE in the
multiplies, divides and the negation, and its arithmetic right shifts compute the
carry after the result has been written, so from the result when RA is a source.
-/

import Mathlib.Tactic.FinCases
import XenonRecomp.Agreement.Flags

namespace XenonRecomp
namespace Agreement

open Cpu Ir Machine Run Emission Lifter

variable {σ : Type} (h : Host σ)

section pieces

variable {g : DecodedInstruction} {n : ValueId} {env : Env} {a b c : ValueId}
  {x y : BitVec 64} {p : Bool}

theorem ne_next (n : ValueId) : n ≠ n + 1 + 1 :=
  Nat.ne_of_lt (Nat.lt_succ_of_lt (Nat.lt_succ_self n))

/-- A variable declared before is not one of the next ones. -/
theorem ne_of_declared (h : a < n) (k : ℕ) : a ≠ n + k :=
  Nat.ne_of_lt (Nat.lt_add_right k h)

/-- A record of CR0 at the end of an instruction. -/
@[simp] theorem perform_emitCr0If (record : Bool) (hlt : a < n) (ha : env a = some (.i64 x)) :
    perform h (emitCr0If record a) g n env = modifyCpu (Fallback.recordCr0 record x) := by
  cases record with
  | false => rfl
  | true =>
    have h0 : a ≠ n := ne_of_declared hlt 0
    have h1 : a ≠ n + 1 := ne_of_declared hlt 1
    have h2 : a ≠ n + 1 + 1 := ne_of_declared hlt 2
    funext m
    simp [emitCr0If, emitCr0, perform, ha, h0, h1, h2, ne_next, Fallback.recordCr0,
      ← setCrField_compare]

/-- Overflow with the sticky SO. -/
@[simp] theorem denote_setXerOverflow (hlt : a < n) (ha : env a = some (.i1 p)) :
    denote h (setXerOverflow a) g n env =
      getCpu >>= fun s => modifyCpu (·.setXerOverflow p) >>= fun _ =>
        pure ((), n + 1 + 1, (env.set n (.i1 s.xerSo)).set (n + 1) (.i1 (s.xerSo || p))) := by
  have h0 : a ≠ n := ne_of_declared hlt 0
  have h1 : a ≠ n + 1 := ne_of_declared hlt 1
  funext m
  simp [setXerOverflow, ha, h0, h1, setXerOverflow_sticky]

end pieces

section families

variable (i : DecodedInstruction) (m : State σ)

theorem perform_addImmediate (shifted : Bool) :
    perform h (liftAddImmediate i shifted) i 0 Env.empty m =
      (.ok (), { m with cpu := Fallback.addImmediate i m.cpu shifted }) := by
  by_cases hr : i.ra = 0#5 <;>
    simp [liftAddImmediate, emitBinary, Fallback.addImmediate, hr]

theorem perform_addCarryImmediate (record : Bool) :
    perform h (liftAddCarryImmediate i record) i 0 Env.empty m =
      (.ok (), { m with cpu := Fallback.addCarryImmediate i m.cpu record }) := by
  simp [liftAddCarryImmediate, emitBinary, emitCaFromAdd, Fallback.addCarryImmediate]

theorem perform_addx :
    perform h (liftAdd i false) i 0 Env.empty m =
      (.ok (), { m with cpu := Fallback.addSubtract i m.cpu false }) := by
  cases hoe : i.oe <;>
    simp [liftAdd, emitBinary, emitOverflowAdd, emitOverflowSign, hoe, overflow_add,
      Fallback.addSubtract, Fallback.recordOverflow]

theorem perform_addcx :
    perform h (liftAdd i true) i 0 Env.empty m =
      (.ok (), { m with cpu := Fallback.addExtended i m.cpu .addcx }) := by
  cases hoe : i.oe <;>
    simp [liftAdd, emitBinary, emitCaFromAdd, emitOverflowAdd, emitOverflowSign, hoe, overflow_add,
      Fallback.addExtended, Fallback.addCarrying, Fallback.recordOverflow, addCarry_false,
      carryOut_false]

theorem perform_subfx :
    perform h (liftSubtract i false) i 0 Env.empty m =
      (.ok (), { m with cpu := Fallback.addSubtract i m.cpu true }) := by
  cases hoe : i.oe <;>
    simp [liftSubtract, emitBinary, emitOverflowSub, emitOverflowSign, hoe, overflow_sub,
      Fallback.addSubtract, Fallback.recordOverflow]

theorem perform_subfcx :
    perform h (liftSubtract i true) i 0 Env.empty m =
      (.ok (), { m with cpu := Fallback.subtractCarrying i m.cpu }) := by
  cases hoe : i.oe <;>
    simp [liftSubtract, emitBinary, setCaNoBorrow, emitOverflowSub, emitOverflowSign, hoe,
      overflow_sub, ult_or_eq, Fallback.subtractCarrying, Fallback.recordOverflow]

theorem perform_addExtended {k : Mnemonic} (hk : k ∈ [Mnemonic.addex, .addmex, .addzex]) :
    perform h (liftAddExtended i k) i 0 Env.empty m =
      (.ok (), { m with cpu := Fallback.addExtended i m.cpu k }) := by
  fin_cases hk <;> cases hoe : i.oe <;>
    simp [liftAddExtended, setCa3, setOv3, hoe, Fallback.addExtended, Fallback.addCarrying,
      Fallback.recordOverflow]

theorem perform_subtractExtended {k : Mnemonic} (hk : k ∈ [Mnemonic.subfex, .subfmex, .subfzex]) :
    perform h (liftSubtractExtended i k) i 0 Env.empty m =
      (.ok (), { m with cpu := Fallback.subtractExtended i m.cpu k }) := by
  fin_cases hk <;> cases hoe : i.oe <;>
    simp [liftSubtractExtended, setCa3, setOv3, hoe, Fallback.subtractExtended,
      Fallback.addCarrying, Fallback.recordOverflow]

theorem perform_subtractImmediate :
    perform h (liftSubtractImmediate i) i 0 Env.empty m =
      (.ok (), { m with cpu := Fallback.subtractImmediate i m.cpu }) := by
  simp [liftSubtractImmediate, emitBinary, setCaNoBorrow, perform, ult_or_eq,
    Fallback.subtractImmediate]

theorem perform_multiplyImmediate :
    perform h (liftMultiplyImmediate i) i 0 Env.empty m =
      (.ok (), { m with cpu := Fallback.multiplyImmediate i m.cpu }) := by
  simp [liftMultiplyImmediate, emitBinary, Fallback.multiplyImmediate]

theorem perform_logical {k : Mnemonic}
    (hk : k ∈ [Mnemonic.andx, .andcx, .orx, .orcx, .xorx, .eqvx, .nandx, .norx]) :
    perform h (liftLogical i k) i 0 Env.empty m =
      (.ok (), { m with cpu := Fallback.logical i m.cpu k }) := by
  fin_cases hk <;>
    simp [liftLogical, emitLogical, emitBinary, Fallback.logical, Fallback.logicalResult]

theorem perform_logicalImmediate (shifted record : Bool) :
    perform h (liftLogicalImmediate i .or shifted record) i 0 Env.empty m =
        (.ok (), { m with cpu := Fallback.logicalImmediate i m.cpu (· ||| ·) shifted record }) ∧
    perform h (liftLogicalImmediate i .xor shifted record) i 0 Env.empty m =
        (.ok (), { m with cpu := Fallback.logicalImmediate i m.cpu (· ^^^ ·) shifted record }) ∧
    perform h (liftLogicalImmediate i .and shifted record) i 0 Env.empty m =
        (.ok (), { m with cpu := Fallback.logicalImmediate i m.cpu (· &&& ·) shifted record }) := by
  simp [liftLogicalImmediate, emitBinary, Fallback.logicalImmediate]

theorem perform_extend :
    perform h (liftExtend i .i8) i 0 Env.empty m =
        (.ok (), { m with cpu := Fallback.extend i m.cpu 8 }) ∧
    perform h (liftExtend i .i16) i 0 Env.empty m =
        (.ok (), { m with cpu := Fallback.extend i m.cpu 16 }) ∧
    perform h (liftExtend i .i32) i 0 Env.empty m =
        (.ok (), { m with cpu := Fallback.extend i m.cpu 32 }) := by
  simp [liftExtend, Fallback.extend]

theorem perform_countLeadingZeros (word : Bool) :
    perform h (liftCountLeadingZeros i word) i 0 Env.empty m =
      (.ok (), { m with cpu := Fallback.countLeadingZeros i m.cpu word }) := by
  cases word <;> simp [liftCountLeadingZeros, narrow, widen, Fallback.countLeadingZeros]

theorem perform_multiplyHigh (word uns : Bool) :
    perform h (liftMultiplyHigh i word uns) i 0 Env.empty m =
      (.ok (), { m with cpu := Fallback.multiplyHigh i m.cpu word uns }) := by
  cases word <;> cases uns <;>
    simp [liftMultiplyHigh, narrow, widen, Fallback.multiplyHigh, Fallback.wordResult,
      Aot.mulHiSignedWidth, Aot.mulHiUnsignedWidth]

/-- What a compare does with its two operands. -/
def compareOperands (logical word : Bool) (a c : ValueId) : Build Unit := do
  let a ← narrow word a
  let c ← narrow word c
  let lt ← emit (if logical then .compareUlt else .compareSlt) .i1 [a, c]
  let gt ← emit (if logical then .compareUgt else .compareSgt) .i1 [a, c]
  let eq ← emit .compareEq .i1 [a, c]
  let so ← emit .readXerSO .i1 []
  emitVoid .writeCRCompare [lt, gt, eq, so] (i.crfd.setWidth 64)

theorem perform_compareOperands (logical word : Bool) {env : Env} {x y : BitVec 64}
    (h0 : env 0 = some (.i64 x)) (h1 : env 1 = some (.i64 y)) :
    perform h (compareOperands i logical word 0 1) i 2 env m =
      (.ok (), { m with cpu := Fallback.writeCompare m.cpu i.crfd.toNat x y logical word }) := by
  cases word <;> cases logical <;>
    simp [compareOperands, narrow, perform, h0, h1, Fallback.writeCompare, ult_setWidth,
      -BitVec.toNat_setWidth, BitVec.toNat_setWidth_of_le]
  · rw [compareNibble_of_eq _ fun hlt hgt => beq_iff_eq.2 (eq_of_not_slt hlt hgt)]; rfl
  · rw [compareNibble_of_eq _ fun hlt hgt => beq_iff_eq.2 (eq_of_not_ult hlt hgt)]; rfl
  · rw [compareNibble_of_eq _ fun hlt hgt => by rw [eq_of_not_slt hlt hgt, beq_self_eq_true]]; rfl
  · rw [compareNibble_of_eq _ fun hlt hgt => by rw [eq_of_not_ult hlt hgt, beq_self_eq_true]]; rfl

theorem perform_compare (logical immediate : Bool) :
    perform h (liftCompare i logical immediate) i 0 Env.empty m =
      (.ok (), { m with cpu := Fallback.compare i m.cpu logical immediate }) := by
  have hl : liftCompare i logical immediate = (do
      let a ← readGpr i.ra
      let c ← if immediate then
          constantI64 (if logical then i.uimm16.setWidth 64 else i.simm16.signExtend 64)
        else readGpr i.rb
      compareOperands i logical (!i.word.getLsbD 21) a c) := rfl
  rw [hl]
  cases immediate
  · simp [perform_compareOperands]
    rfl
  · simp [perform_compareOperands]
    rfl

theorem perform_rotateWord {k : Mnemonic} (hk : k ∈ [Mnemonic.rlwinmx, .rlwimix, .rlwnmx]) :
    perform h (liftRotateWord i k) i 0 Env.empty m =
      (.ok (), { m with cpu := Fallback.rotateWord i m.cpu k }) := by
  have hfield := rotateLeft32_field ((m.cpu.gpr i.rs).setWidth 32) i.sh32 (by decide)
  fin_cases hk <;>
    simp [liftRotateWord, Fallback.rotateWord, mask32_eq, inverse_mask, rotateLeft32_register,
      hfield, -BitVec.setWidth_and, -BitVec.setWidth_or]

theorem perform_rotateDoubleRegister :
    perform h (liftRotateDoubleRegister i true) i 0 Env.empty m =
        (.ok (), { m with cpu := Fallback.rotateDouble i m.cpu .rldclx }) ∧
    perform h (liftRotateDoubleRegister i false) i 0 Env.empty m =
        (.ok (), { m with cpu := Fallback.rotateDouble i m.cpu .rldcrx }) := by
  simp [liftRotateDoubleRegister, Fallback.rotateDouble, mask64_eq, rotateLeft64_register,
    -BitVec.setWidth_and, -BitVec.toNat_and]

theorem perform_rotateDouble {k : Mnemonic}
    (hk : k ∈ [Mnemonic.rldiclx, .rldicrx, .rldicx, .rldimix]) :
    perform h (liftRotateDouble i k) i 0 Env.empty m =
      (.ok (), { m with cpu := Fallback.rotateDouble i m.cpu k }) := by
  have hfield := rotateLeft64_field (m.cpu.gpr i.rs) i.sh64Md (by decide)
  fin_cases hk <;>
    simp [liftRotateDouble, rotateDoubleMask, Fallback.rotateDouble, mask64_eq, hfield]

end families

section overflow

variable (i : DecodedInstruction) (m : State σ)

/-- A result with the overflow that the interpreter does not record. -/
def withOverflow (overflow : Bool) (value : BitVec 64) (s : CpuState) : CpuState :=
  Fallback.recordCr0 i.rc value (Fallback.recordOverflow i.oe overflow (s.setGpr i.rt value))

theorem perform_multiply (word : Bool) :
    ∃ value, Fallback.multiply i m.cpu word =
        Fallback.recordCr0 i.rc value (m.cpu.setGpr i.rt value) ∧
      perform h (liftMultiply i word) i 0 Env.empty m =
        (.ok (), ⟨withOverflow i
          (Aot.mulOverflowSigned (m.cpu.gpr i.ra) (m.cpu.gpr i.rb) word) value m.cpu, m.host⟩) := by
  refine ⟨_, rfl, ?_⟩
  cases word <;> cases hoe : i.oe <;>
    simp [liftMultiply, narrow, withOverflow, Fallback.recordOverflow, hoe,
      Aot.mulOverflowSigned, BitVec.setWidth_mul]

theorem perform_divide (word uns : Bool) :
    ∃ value, Fallback.divide i m.cpu word uns =
        Fallback.recordCr0 i.rc value (m.cpu.setGpr i.rt value) ∧
      perform h (liftDivide i word uns) i 0 Env.empty m =
        (.ok (), ⟨withOverflow i
          (Aot.divOverflow (m.cpu.gpr i.ra) (m.cpu.gpr i.rb) word uns) value m.cpu, m.host⟩) := by
  refine ⟨_, rfl, ?_⟩
  cases word <;> cases uns <;> cases hoe : i.oe <;>
    simp [liftDivide, narrow, widen, withOverflow, Fallback.recordOverflow, hoe,
      Fallback.wordResult, Aot.divOverflow, Aot.divSigned, Aot.divUnsigned]

theorem perform_negate :
    ∃ value, Fallback.negate i m.cpu =
        Fallback.recordCr0 i.rc value (m.cpu.setGpr i.rt value) ∧
      perform h (liftNegate i) i 0 Env.empty m =
        (.ok (), ⟨withOverflow i
          (m.cpu.gpr i.ra == BitVec.intMin 64) value m.cpu, m.host⟩) := by
  refine ⟨_, rfl, ?_⟩
  have hmin : BitVec.intMin 64 = 0x8000000000000000#64 := by decide
  cases hoe : i.oe <;> simp [liftNegate, withOverflow, Fallback.recordOverflow, hoe, hmin]

end overflow

section shifts

variable (i : DecodedInstruction) (m : State σ)

/-- The amount of a shift. -/
def shiftAmount (s : CpuState) : BitVec 64 :=
  match i.mnemonic with
  | .srawix => i.sh32.setWidth 64
  | .sradix => i.sh64Md.setWidth 64
  | _ => s.gpr i.rb

/-- The carry of an arithmetic right shift, from its operands. -/
def shiftCarry (s : CpuState) : Bool :=
  Aot.ppcShiftCarry i.mnemonic (s.gpr i.rs) (shiftAmount i s)

/-- The state once the result of a shift is written. -/
def shifted (s : CpuState) : CpuState :=
  s.setGpr i.ra (Aot.ppcShift i.mnemonic (s.gpr i.rs) (shiftAmount i s))

/-- The shifts that set XER.CA. -/
def carryingShifts : List Mnemonic := [.srawx, .sradx, .srawix, .sradix]

/-- The state after a compiled shift: the carry is that of the operands. -/
theorem perform_shift (hk : i.mnemonic ∈ [Mnemonic.slwx, .srwx, .sldx, .srdx] ++ carryingShifts) :
    perform h (liftShift i i.mnemonic) i 0 Env.empty m =
      (.ok (), ⟨Fallback.recordCr0 i.rc
        (Aot.ppcShift i.mnemonic (m.cpu.gpr i.rs) (shiftAmount i m.cpu))
        (if i.mnemonic ∈ carryingShifts then (shifted i m.cpu).setXerCa (shiftCarry i m.cpu)
          else shifted i m.cpu), m.host⟩) := by
  have hs : i.mnemonic.startsWith "sra" = decide (i.mnemonic ∈ carryingShifts) := by
    generalize i.mnemonic = k at hk
    revert k
    decide
  have hrb : i.rb = i.sh32 := rfl
  by_cases hi : i.mnemonic = .srawix
  · rw [hi] at hs
    simp [liftShift, hs, hi, hrb, carryingShifts, shifted, shiftCarry, shiftAmount]
  · by_cases hi' : i.mnemonic = .sradix
    · rw [hi'] at hs
      simp [liftShift, hs, hi', carryingShifts, shifted, shiftCarry, shiftAmount]
    · by_cases hc : i.mnemonic ∈ carryingShifts <;>
        simp [liftShift, hs, hi, hi', hc, shifted, shiftCarry, shiftAmount]

/-- The interpreter's shift: the carry is that of the registers after the write. -/
theorem shift_eq (s : CpuState) (hi : i.mnemonic ≠ .srawix) (hi' : i.mnemonic ≠ .sradix) :
    Fallback.shift i s i.mnemonic = Fallback.recordCr0 i.rc
      (Aot.ppcShift i.mnemonic (s.gpr i.rs) (shiftAmount i s))
      (if i.mnemonic ∈ carryingShifts then (shifted i s).setXerCa (shiftCarry i (shifted i s))
        else shifted i s) := by
  simp [Fallback.shift, carryingShifts, hi, hi', shifted, shiftCarry, shiftAmount]

end shifts

/-- The integer mnemonics of which both compute the same everywhere. -/
def plainMnemonics : List Mnemonic :=
  [.addi, .addis, .addic, .addicx, .ori, .oris, .xori, .xoris, .andix, .andisx, .addx, .subfx,
    .addcx, .addex, .addmex, .addzex, .subfcx, .subfex, .subfmex, .subfzex, .subficx, .andx,
    .andcx, .orx, .orcx, .xorx, .eqvx, .nandx, .norx, .mulli, .mulhdx, .mulhdux, .mulhwx,
    .mulhwux, .extsbx, .extshx, .extswx, .cmp, .cmpl, .cmpi, .cmpli, .rlwinmx, .rlwimix, .rlwnmx,
    .rldiclx, .rldicrx, .rldicx, .rldimix, .rldclx, .rldcrx, .slwx, .srwx, .sldx, .srdx, .cntlzwx,
    .cntlzdx]

/-- Those whose overflow the interpreter leaves. -/
def overflowMnemonics : List Mnemonic :=
  [.negx, .mulldx, .mullwx, .divdx, .divdux, .divwx, .divwux]

/-- The integer mnemonics that the interpreter accepts. -/
def integerMnemonics : List Mnemonic := plainMnemonics ++ overflowMnemonics ++ carryingShifts

theorem mem_integerMnemonics {i : DecodedInstruction} {s : CpuState}
    (ha : (Fallback.integerState i s).isSome) : i.mnemonic ∈ integerMnemonics := by
  obtain ⟨address, word, ⟨pattern, mnemonic, format, group⟩⟩ := i
  cases mnemonic
  all_goals first
    | exact absurd ha Bool.false_ne_true
    | exact List.mem_of_elem_eq_true rfl

/-- They are integer instructions in the catalogue. -/
theorem catalog_integer : ∀ op ∈ opcodeCatalog,
    op.mnemonic ∈ integerMnemonics → op.group = .Integer := by
  set_option maxRecDepth 40000 in decide

/-- The overflow that compiled code records and the interpreter leaves. -/
def unrecordedOverflow (i : DecodedInstruction) (s : CpuState) : Option Bool :=
  let a := s.gpr i.ra
  let b := s.gpr i.rb
  match i.mnemonic with
  | .negx => some (a == BitVec.intMin 64)
  | .mulldx => some (Aot.mulOverflowSigned a b false)
  | .mullwx => some (Aot.mulOverflowSigned a b true)
  | .divdx => some (Aot.divOverflow a b false false)
  | .divdux => some (Aot.divOverflow a b false true)
  | .divwx => some (Aot.divOverflow a b true false)
  | .divwux => some (Aot.divOverflow a b true true)
  | _ => none

theorem unrecordedOverflow_eq_none {i : DecodedInstruction} (s : CpuState)
    (hm : i.mnemonic ∉ overflowMnemonics) : unrecordedOverflow i s = none := by
  unfold unrecordedOverflow
  split <;> simp_all [overflowMnemonics]

/-- An instruction with OE whose overflow XER does not already show. -/
def LosesOverflow (i : DecodedInstruction) (s : CpuState) : Prop :=
  i.oe ∧ ∃ p ∈ unrecordedOverflow i s, ¬(p = s.xerOv ∧ (p = true → s.xerSo = true))

/-- An arithmetic right shift whose carry changes when it is computed from the
registers after the result has been written. -/
def StaleCarry (i : DecodedInstruction) (s : CpuState) : Prop :=
  i.mnemonic ∈ carryingShifts ∧ shiftCarry i (shifted i s) ≠ shiftCarry i s

/-- What agreement comes down to: the two states. -/
theorem executeInteger_iff {i : DecodedInstruction} {a : Build Unit} {x y : CpuState} (m : State σ)
    (hl : liftGroup i = (a >>= fun _ => pure true))
    (hx : Fallback.integerState i m.cpu = some x)
    (hy : perform h a i 0 Env.empty m = (.ok (), { m with cpu := y })) :
    Fallback.executeInteger i m = (runLifted h i >>= fun _ => pure true) m ↔ x = y := by
  have he : Fallback.executeInteger i m = (.ok true, { m with cpu := x }) := by
    simp [Fallback.executeInteger, hx]
  have hr : (runLifted h i >>= fun _ => pure true) m = (.ok true, { m with cpu := y }) := by
    rw [runLifted_eq h hl]
    exact bind_of_ok hy
  rw [he, hr]
  simp

theorem recordCr0_xer (record : Bool) (value : BitVec 64) (s : CpuState) :
    (Fallback.recordCr0 record value s).xer = s.xer := by
  cases record <;> rfl

/-- Losing an overflow shows unless XER already has it. -/
theorem withOverflow_iff (i : DecodedInstruction) (p : Bool) (value : BitVec 64) (s : CpuState) :
    Fallback.recordCr0 i.rc value (s.setGpr i.rt value) = withOverflow i p value s ↔
      (i.oe = true → p = s.xerOv ∧ (p = true → s.xerSo = true)) := by
  cases hoe : i.oe with
  | false => simp [withOverflow, Fallback.recordOverflow, hoe]
  | true =>
    simp only [withOverflow, Fallback.recordOverflow, hoe, if_true, forall_const]
    rw [← setXerOverflow_eq_self_iff]
    constructor
    · intro he
      have hxer := congrArg CpuState.xer he
      rw [recordCr0_xer, recordCr0_xer] at hxer
      have hself : (s.setXerOverflow p).xer = s.xer := by
        cases p <;> exact hxer.symm
      cases p <;> exact congrArg (fun x => ({ s with xer := x } : CpuState)) hself
    · intro he
      have hself : (s.setGpr i.rt value).setXerOverflow p = (s.setXerOverflow p).setGpr i.rt value := by
        cases p <;> rfl
      rw [hself, he]

/-- A stale carry shows. -/
theorem staleCarry_iff (i : DecodedInstruction) (value : BitVec 64) (s : CpuState) (p q : Bool) :
    Fallback.recordCr0 i.rc value (s.setXerCa p) = Fallback.recordCr0 i.rc value (s.setXerCa q) ↔
      p = q := by
  refine ⟨fun he => ?_, fun he => by rw [he]⟩
  have hxer := congrArg CpuState.xer he
  rw [recordCr0_xer, recordCr0_xer] at hxer
  have hca : (s.setXerCa p).xerCa = (s.setXerCa q).xerCa := by
    rw [CpuState.xerCa, hxer]
    rfl
  rwa [xerCa_setXerCa, xerCa_setXerCa] at hca

/-- Equal states, so agreement. -/
theorem integer_agrees {i : DecodedInstruction} {a : Build Unit} {x : CpuState} (m : State σ)
    (hl : liftGroup i = (a >>= fun _ => pure true))
    (hx : Fallback.integerState i m.cpu = some x)
    (hy : perform h a i 0 Env.empty m = (.ok (), { m with cpu := x })) :
    Fallback.executeInteger i m = (runLifted h i >>= fun _ => pure true) m :=
  (executeInteger_iff h m hl hx hy).2 rfl

/-- The instructions without OE trouble or a carry of a shift agree. -/
theorem plain_agrees {i : DecodedInstruction} (hg : liftGroup i = liftInteger i)
    (hm : i.mnemonic ∈ plainMnemonics) (m : State σ) :
    Fallback.executeInteger i m = (runLifted h i >>= fun _ => pure true) m := by
  obtain ⟨address, word, ⟨pattern, mnemonic, format, group⟩⟩ := i
  simp only [DecodedInstruction.mnemonic, plainMnemonics, List.mem_cons, List.not_mem_nil,
    or_false] at hm
  rcases hm with rfl | rfl | rfl | rfl | rfl | rfl | rfl | rfl | rfl | rfl | rfl | rfl | rfl |
    rfl | rfl | rfl | rfl | rfl | rfl | rfl | rfl | rfl | rfl | rfl | rfl | rfl | rfl | rfl |
    rfl | rfl | rfl | rfl | rfl | rfl | rfl | rfl | rfl | rfl | rfl | rfl | rfl | rfl | rfl |
    rfl | rfl | rfl | rfl | rfl | rfl | rfl | rfl | rfl | rfl | rfl | rfl | rfl
  · exact integer_agrees h m hg rfl (perform_addImmediate h _ m false)
  · exact integer_agrees h m hg rfl (perform_addImmediate h _ m true)
  · exact integer_agrees h m hg rfl (perform_addCarryImmediate h _ m false)
  · exact integer_agrees h m hg rfl (perform_addCarryImmediate h _ m true)
  · exact integer_agrees h m hg rfl (perform_logicalImmediate h _ m false false).1
  · exact integer_agrees h m hg rfl (perform_logicalImmediate h _ m true false).1
  · exact integer_agrees h m hg rfl (perform_logicalImmediate h _ m false false).2.1
  · exact integer_agrees h m hg rfl (perform_logicalImmediate h _ m true false).2.1
  · exact integer_agrees h m hg rfl (perform_logicalImmediate h _ m false true).2.2
  · exact integer_agrees h m hg rfl (perform_logicalImmediate h _ m true true).2.2
  · exact integer_agrees h m hg rfl (perform_addx h _ m)
  · exact integer_agrees h m hg rfl (perform_subfx h _ m)
  · exact integer_agrees h m hg rfl (perform_addcx h _ m)
  iterate 3 exact integer_agrees h m hg rfl (perform_addExtended h _ m (by simp [DecodedInstruction.mnemonic]))
  · exact integer_agrees h m hg rfl (perform_subfcx h _ m)
  iterate 3
    exact integer_agrees h m hg rfl (perform_subtractExtended h _ m (by simp [DecodedInstruction.mnemonic]))
  · exact integer_agrees h m hg rfl (perform_subtractImmediate h _ m)
  iterate 8 exact integer_agrees h m hg rfl (perform_logical h _ m (by simp [DecodedInstruction.mnemonic]))
  · exact integer_agrees h m hg rfl (perform_multiplyImmediate h _ m)
  · exact integer_agrees h m hg rfl (perform_multiplyHigh h _ m false false)
  · exact integer_agrees h m hg rfl (perform_multiplyHigh h _ m false true)
  · exact integer_agrees h m hg rfl (perform_multiplyHigh h _ m true false)
  · exact integer_agrees h m hg rfl (perform_multiplyHigh h _ m true true)
  · exact integer_agrees h m hg rfl (perform_extend h _ m).1
  · exact integer_agrees h m hg rfl (perform_extend h _ m).2.1
  · exact integer_agrees h m hg rfl (perform_extend h _ m).2.2
  · exact integer_agrees h m hg rfl (perform_compare h _ m false false)
  · exact integer_agrees h m hg rfl (perform_compare h _ m true false)
  · exact integer_agrees h m hg rfl (perform_compare h _ m false true)
  · exact integer_agrees h m hg rfl (perform_compare h _ m true true)
  iterate 3 exact integer_agrees h m hg rfl (perform_rotateWord h _ m (by simp [DecodedInstruction.mnemonic]))
  iterate 4 exact integer_agrees h m hg rfl (perform_rotateDouble h _ m (by simp [DecodedInstruction.mnemonic]))
  · exact integer_agrees h m hg rfl (perform_rotateDoubleRegister h _ m).1
  · exact integer_agrees h m hg rfl (perform_rotateDoubleRegister h _ m).2
  iterate 4
    refine (executeInteger_iff h m hg rfl
      (perform_shift h _ m (List.mem_of_elem_eq_true rfl))).2 ?_
    exact shift_eq _ _ (by rintro ⟨⟩) (by rintro ⟨⟩)
  · exact integer_agrees h m hg rfl (perform_countLeadingZeros h _ m true)
  · exact integer_agrees h m hg rfl (perform_countLeadingZeros h _ m false)

/-- The instructions whose overflow the interpreter leaves. -/
theorem overflow_iff {i : DecodedInstruction} (hg : liftGroup i = liftInteger i)
    (hm : i.mnemonic ∈ overflowMnemonics) (m : State σ) :
    Fallback.executeInteger i m = (runLifted h i >>= fun _ => pure true) m ↔
      ¬LosesOverflow i m.cpu := by
  -- each is a result with an overflow of its own
  have key {a : Build Unit} {x : CpuState} {p : Bool} {value : BitVec 64}
      (hl : liftGroup i = (a >>= fun _ => pure true)) (hx : Fallback.integerState i m.cpu = some x)
      (hp : unrecordedOverflow i m.cpu = some p)
      (hv : x = Fallback.recordCr0 i.rc value (m.cpu.setGpr i.rt value))
      (hy : perform h a i 0 Env.empty m = (.ok (), ⟨withOverflow i p value m.cpu, m.host⟩)) :
      Fallback.executeInteger i m = (runLifted h i >>= fun _ => pure true) m ↔
        ¬LosesOverflow i m.cpu := by
    rw [executeInteger_iff h m hl hx hy, hv, withOverflow_iff]
    simp [LosesOverflow, hp]
  obtain ⟨address, word, ⟨pattern, mnemonic, format, group⟩⟩ := i
  simp only [DecodedInstruction.mnemonic, overflowMnemonics, List.mem_cons, List.not_mem_nil,
    or_false] at hm
  rcases hm with rfl | rfl | rfl | rfl | rfl | rfl | rfl
  · obtain ⟨value, hv, hy⟩ := perform_negate h _ m
    exact key hg rfl rfl hv hy
  · obtain ⟨value, hv, hy⟩ := perform_multiply h _ m false
    exact key hg rfl rfl hv hy
  · obtain ⟨value, hv, hy⟩ := perform_multiply h _ m true
    exact key hg rfl rfl hv hy
  · obtain ⟨value, hv, hy⟩ := perform_divide h _ m false false
    exact key hg rfl rfl hv hy
  · obtain ⟨value, hv, hy⟩ := perform_divide h _ m false true
    exact key hg rfl rfl hv hy
  · obtain ⟨value, hv, hy⟩ := perform_divide h _ m true false
    exact key hg rfl rfl hv hy
  · obtain ⟨value, hv, hy⟩ := perform_divide h _ m true true
    exact key hg rfl rfl hv hy

/-- The arithmetic right shifts. -/
theorem carry_iff {i : DecodedInstruction} (hg : liftGroup i = liftInteger i)
    (hm : i.mnemonic ∈ carryingShifts) (m : State σ) :
    Fallback.executeInteger i m = (runLifted h i >>= fun _ => pure true) m ↔
      shiftCarry i (shifted i m.cpu) = shiftCarry i m.cpu := by
  have hy := perform_shift h i m (List.mem_append_right _ hm)
  rw [if_pos hm] at hy
  have hl : liftGroup i = (liftShift i i.mnemonic >>= fun _ => pure true) := by
    rw [hg]
    obtain ⟨address, word, ⟨pattern, mnemonic, format, group⟩⟩ := i
    simp only [DecodedInstruction.mnemonic, carryingShifts, List.mem_cons, List.not_mem_nil,
      or_false] at hm
    rcases hm with rfl | rfl | rfl | rfl <;> rfl
  have hx : Fallback.integerState i m.cpu = some (Fallback.recordCr0 i.rc
      (Aot.ppcShift i.mnemonic (m.cpu.gpr i.rs) (shiftAmount i m.cpu))
      ((shifted i m.cpu).setXerCa (shiftCarry i (shifted i m.cpu)))) := by
    obtain ⟨address, word, ⟨pattern, mnemonic, format, group⟩⟩ := i
    simp only [DecodedInstruction.mnemonic, carryingShifts, List.mem_cons, List.not_mem_nil,
      or_false] at hm
    rcases hm with rfl | rfl | rfl | rfl <;> rfl
  rw [executeInteger_iff h m hl hx hy, staleCarry_iff]

/-- **The interpreter and compiled code agree on an integer instruction exactly
when no overflow is lost and no carry is stale.**  An overflow is lost by a
multiply, divide or negation with OE whose overflow XER does not already show; a
carry is stale when an arithmetic right shift overwrites one of its sources and
the carry of the new value differs. -/
theorem integer_agreement {address : GuestAddress} {word : BitVec 32} {i : DecodedInstruction}
    (hd : Decoder.decode address word = some i) (m : State σ)
    (ha : (Fallback.integerState i m.cpu).isSome) :
    Fallback.executeInteger i m = (runLifted h i >>= fun _ => pure true) m ↔
      ¬LosesOverflow i m.cpu ∧ ¬StaleCarry i m.cpu := by
  obtain ⟨-, -, hmem, -⟩ := Decoder.decode_mem hd
  have hm := mem_integerMnemonics ha
  have hg : liftGroup i = liftInteger i := by
    have hgroup : i.info.group = .Integer := catalog_integer _ hmem hm
    simp only [liftGroup, hgroup]
  have noOverflow (hn : i.mnemonic ∉ overflowMnemonics) : ¬LosesOverflow i m.cpu := by
    rintro ⟨-, p, hp, -⟩
    rw [unrecordedOverflow_eq_none m.cpu hn] at hp
    exact Option.not_mem_none _ hp
  have disjoint : ∀ k ∈ plainMnemonics, k ∉ overflowMnemonics ∧ k ∉ carryingShifts := by decide
  have disjoint' : ∀ k ∈ carryingShifts, k ∉ overflowMnemonics := by decide
  simp only [integerMnemonics, List.mem_append] at hm
  rcases hm with (hm | hm) | hm
  · obtain ⟨hn, hc⟩ := disjoint _ hm
    exact iff_of_true (plain_agrees h hg hm m) ⟨noOverflow hn, fun hs => hc hs.1⟩
  · have hc : i.mnemonic ∉ carryingShifts := fun hc => disjoint' _ hc hm
    rw [overflow_iff h hg hm m, and_iff_left fun hs => hc hs.1]
  · rw [carry_iff h hg hm m, and_iff_right (noOverflow (disjoint' _ hm)), StaleCarry,
      not_and_not_right, imp_iff_right hm]

/-- `mullwo. r3,r4,r5` agrees at a state where the product of zeros sets no
overflow and XER shows none. -/
theorem integer_agreement_mullwo :
    Fallback.executeInteger ⟨0, 0x7C642DD7, ⟨0x7c0001d6, .mullwx, .XO, .Integer⟩⟩
        (⟨CpuState.zero, ()⟩ : State Unit) =
      (runLifted quietHost ⟨0, 0x7C642DD7, ⟨0x7c0001d6, .mullwx, .XO, .Integer⟩⟩ >>=
        fun _ => pure true) ⟨CpuState.zero, ()⟩ := by
  have hd : Decoder.decode 0 0x7C642DD7 =
      some ⟨0, 0x7C642DD7, ⟨0x7c0001d6, .mullwx, .XO, .Integer⟩⟩ := by
    set_option maxRecDepth 40000 in decide
  refine (integer_agreement quietHost hd ⟨CpuState.zero, ()⟩ rfl).2 ⟨?_, ?_⟩
  · rintro ⟨-, p, hp, hn⟩
    obtain rfl := Option.mem_some_iff.1 hp
    exact hn (by decide)
  · exact fun hs => absurd hs.1 (by decide)

/-- `srawi r3,r3,1` of 0xFFFFFFFD shifts a one out of a negative word; the
interpreter looks for it in the result, 0xFFFFFFFE. -/
theorem srawi_alias_disagrees :
    Decoder.decode 0 0x7C630E70 = some ⟨0, 0x7C630E70, ⟨0x7c000670, .srawix, .X, .Integer⟩⟩ ∧
    (Fallback.executeInteger ⟨0, 0x7C630E70, ⟨0x7c000670, .srawix, .X, .Integer⟩⟩
      (⟨CpuState.zero.setGpr 3 0xFFFFFFFD, ()⟩ : State Unit)).2.cpu.xerCa = false ∧
    ((runLifted quietHost ⟨0, 0x7C630E70, ⟨0x7c000670, .srawix, .X, .Integer⟩⟩ >>=
      fun _ => pure true) ⟨CpuState.zero.setGpr 3 0xFFFFFFFD, ()⟩).2.cpu.xerCa = true := by
  set_option maxRecDepth 40000 in decide

end Agreement
end XenonRecomp
