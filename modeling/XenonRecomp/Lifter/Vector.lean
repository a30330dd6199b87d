/-
# Lifting vector instructions

`Lifter::lift_vector` of `src/cpu/ppc/lifter/vector.cpp`.  The lifter picks an
IR operation and the operand fields by the prefix of the mnemonic and by the
format, in the order of the source; `vectorForm` is this choice, a function of
the opcode alone, and `liftVector` emits the code of the form chosen.
-/

import XenonRecomp.Ir.Builder

namespace XenonRecomp
namespace Lifter

open Cpu Ir

/-- `extended`: the formats with seven-bit destination fields. -/
def extended : InstructionFormat → Bool
  | .VX128 | .VX128_1 | .VX128_2 | .VX128_3 | .VX128_4 | .VX128_5 | .VX128_R | .VX128_P => true
  | _ => false

/-- `vd`. -/
def vd (i : DecodedInstruction) : BitVec 7 :=
  if extended i.info.format then i.vx128Vd else i.rt.setWidth 7

/-- `va`. -/
def va (i : DecodedInstruction) : BitVec 7 :=
  match i.info.format with
  | .VX128 | .VX128_2 | .VX128_5 | .VX128_R => i.vx128Va
  | _ => i.ra.setWidth 7

/-- `vb`. -/
def vb (i : DecodedInstruction) : BitVec 7 :=
  match i.info.format with
  | .VX128 | .VX128_2 | .VX128_3 | .VX128_4 | .VX128_5 | .VX128_R | .VX128_P => i.vx128Vb
  | _ => i.rb.setWidth 7

/-- `vc`. -/
def vc (i : DecodedInstruction) : BitVec 7 :=
  if i.info.format = .VX128_2 then (i.word.extractLsb' 8 3).setWidth 7 else i.frc.setWidth 7

/-- A register field of a vector instruction. -/
inductive VectorField where
  | vd | va | vb | vc
deriving DecidableEq, Repr

/-- The register number in a field. -/
def VectorField.reg (i : DecodedInstruction) : VectorField → BitVec 7
  | .vd => Lifter.vd i
  | .va => Lifter.va i
  | .vb => Lifter.vb i
  | .vc => Lifter.vc i

/-- How a vector instruction is lowered: an operation over some of its register
fields (`word` says that `imm1` holds the instruction word), a compare, or a
permutation vector made from an address. -/
inductive VectorForm where
  | op (op : Op) (fields : List VectorField) (word : Bool)
  | compare
  | loadShift (left : Bool)
deriving DecidableEq, Repr

/-- The operands of a three-operand form: three fields in the VA form, the old
destination first in the VMX128 forms. -/
def threeOperands (format : InstructionFormat) : List VectorField :=
  if format = .VA then [.va, .vb, .vc] else [.vd, .va, .vb]

/-- The choice that `lift_vector` makes. -/
def vectorForm (m : Mnemonic) (format : InstructionFormat) : Option VectorForm :=
  let starts (p : String) : Bool := m.startsWith p
  if m = .lvsl ∨ m = .lvsl128 ∨ m = .lvsr ∨ m = .lvsr128 then some (.loadShift (starts "lvsl"))
  else if starts "vaddfp" || starts "vsubfp" || starts "vmulfp128" then
    some (.op (if starts "vadd" then .vAdd else if starts "vsub" then .vSub else .vMul)
      [.va, .vb] false)
  else if starts "vmaddfp" || starts "vmaddcfp" || starts "vnmsubfp" then
    some (.op .vMadd (threeOperands format) false)
  else if starts "vmax" || starts "vmin" then
    some (.op (if starts "vmax" then .vMax else .vMin) [.va, .vb] false)
  else if starts "vrefp" || starts "vrsqrtefp" || starts "vexptefp" || starts "vlogefp" then
    some (.op .vEstimate [.vb] false)
  else if starts "vrfi" then some (.op .vConvert [.vb] false)
  else if starts "vmsum3fp" || starts "vmsum4fp" then some (.op .vDot [.vd, .va, .vb] false)
  else if starts "vandc" then some (.op .vAndNot [.va, .vb] false)
  else if starts "vand" then some (.op .vAnd [.va, .vb] false)
  else if starts "vor" then some (.op .vOr [.va, .vb] false)
  else if starts "vxor" then some (.op .vXor [.va, .vb] false)
  else if starts "vnor" then some (.op .vNot [.va, .vb] false)
  else if starts "vsel" then some (.op .vSelect (threeOperands format) false)
  else if starts "vcmp" then some .compare
  else if starts "vadd" || starts "vsub" then
    some (.op (if starts "vadd" then .vAdd else .vSub) [.va, .vb] false)
  else if starts "vavg" then some (.op .vAvg [.va, .vb] false)
  else if starts "vmhadd" || starts "vmhradd" || starts "vmladd" then
    some (.op .vMadd [.va, .vb, .vc] false)
  else if starts "vmule" || starts "vmulo" then some (.op .vMultiplyEvenOdd [.va, .vb] false)
  else if starts "vmul" then some (.op .vMul [.va, .vb] false)
  else if starts "vsum" || starts "vmsum" then
    some (.op .vSum (if format = .VA then [.va, .vb, .vc] else [.va, .vb]) false)
  else if starts "vcfs" || starts "vcfu" || starts "vcts" || starts "vctu" || starts "vcfps" ||
      starts "vcfpu" || starts "vcsx" || starts "vcux" then
    some (.op .vConvert [.vb] false)
  else if starts "vmrgh" || starts "vmrgl" then some (.op .vMerge [.va, .vb] false)
  else if starts "vpermwi" then some (.op .vPermute [.vb] false)
  else if starts "vperm" then
    some (.op .vPermute
      (if format = .VA ∨ format = .VX128_2 then [.va, .vb, .vc] else [.vb]) false)
  else if starts "vpk" then some (.op .vPack [.va, .vb] false)
  else if starts "vupk" then some (.op .vUnpack [.vb] false)
  else if starts "vsplt" then some (.op .vSplat [.vb] false)
  else if starts "vrlimi" then some (.op .vRotateInsert [.vd, .vb] true)
  else if starts "vrl" then some (.op .vRotate [.va, .vb] false)
  else if starts "vsl" || starts "vsr" then
    if starts "vsldoi" then some (.op .vShiftDouble [.va, .vb] true)
    else some (.op .vShift [.va, .vb] false)
  else none

/-- `vector_tag`: a hash of the mnemonic. -/
def vectorTag (m : Mnemonic) : BitVec 64 :=
  m.text.toList.foldl (fun h c => (h ^^^ BitVec.ofNat 64 c.toNat) * 1099511628211)
    1469598103934665603

/-- `unary`, `binary`, `ternary`: read the registers, apply the operation. -/
def vectorOp (op : Op) (i : DecodedInstruction) (fields : List VectorField) (imm1 : BitVec 64) :
    Build ValueId := do
  let args ← fields.mapM fun f => readVector (f.reg i)
  emit op .v128 args (vectorTag i.mnemonic) imm1

/-- Apply the operation and write `vD`. -/
def liftVectorOp (op : Op) (i : DecodedInstruction) (fields : List VectorField) (word : Bool) :
    Build Unit := do
  let r ← vectorOp op i fields (if word then i.word.setWidth 64 else 0)
  writeVector (vd i) r

/-- The compares, which record into CR field 6. -/
def liftVectorCompare (i : DecodedInstruction) : Build Unit := do
  let r ← vectorOp .vCompare i [.va, .vb] 0
  writeVector (vd i) r
  if i.rc then emitVoid .vUpdateCR6 [r] (vectorTag i.mnemonic)

/-- The `lvsl`, `lvsr` family. -/
def liftLoadShift (i : DecodedInstruction) (left : Bool) : Build Unit := do
  let base ← if i.ra ≠ 0 then readGpr i.ra else constantI64 0
  let idx ← readGpr i.rb
  let v ← emit (if left then .vMakeLoadShiftLeft else .vMakeLoadShiftRight) .v128 [base, idx]
    (vectorTag i.mnemonic)
  writeVector (vd i) v

/-- `lift_vector`. -/
def liftVector (i : DecodedInstruction) : Build Bool := do
  match vectorForm i.mnemonic i.info.format with
  | some (.op op fields word) => liftVectorOp op i fields word
  | some .compare => liftVectorCompare i
  | some (.loadShift left) => liftLoadShift i left
  | none => return false
  return true

end Lifter
end XenonRecomp
