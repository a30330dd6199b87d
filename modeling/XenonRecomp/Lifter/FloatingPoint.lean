/-
# Lifting floating-point instructions

`Lifter::lift_fpu` of `src/cpu/ppc/lifter/floating_point.cpp`.
-/

import XenonRecomp.Lifter.Control

namespace XenonRecomp
namespace Lifter

open Cpu Ir

/-- `f64`: a floating-point register as a double. -/
def f64 (reg : BitVec 5) : Build ValueId := do
  let bits ← readFprBits reg
  emit .bitcast .f64 [bits]

/-- `store_f64`. -/
def storeF64 (reg : BitVec 5) (v : ValueId) : Build Unit := do
  let bits ← emit .bitcast .i64 [v]
  writeFprBits reg bits

/-- `update_status`. -/
def updateStatus (i : DecodedInstruction) (result : ValueId) : Build Unit := do
  emitVoid .fUpdateStatus [result] 0 (if i.rc then 1 else 0)
  recordCr1 i

/-- `maybe_single`: the final rounding of the single-precision forms. -/
def maybeSingle (single : Bool) (v : ValueId) : Build ValueId :=
  if single then emit .fRoundSingle .f64 [v] else pure v

/-- The arithmetic families: operands, operation, rounding, status. -/
def liftArithmetic (i : DecodedInstruction) (op : Op) (operands : List (BitVec 5))
    (imm0 imm1 : BitVec 64) (single : Bool) : Build Unit := do
  let args ← operands.mapM f64
  let r ← emit op .f64 args imm0 imm1
  let r ← maybeSingle single r
  storeF64 i.frt r
  updateStatus i r

/-- The flags of a fused multiply-add: subtract the addend, negate, single. -/
def fmaFlags (m : Mnemonic) (single : Bool) : BitVec 64 :=
  (if m.startsWith "fmsub" || m.startsWith "fnmsub" then 1 else 0) |||
    (if m.startsWith "fnm" then 2 else 0) ||| (if single then 4 else 0)

/-- `fselx`. -/
def liftFloatSelect (i : DecodedInstruction) : Build Unit := do
  let a ← f64 i.ra
  let yes ← f64 i.frc
  let no ← f64 i.rb
  let r ← emit .fSelect .f64 [a, yes, no]
  storeF64 i.frt r
  recordCr1 i

/-- The `fabsx`, `fnegx`, `fnabsx`, `fmrx` family. -/
def liftFloatMove (i : DecodedInstruction) (abs neg : Bool) : Build Unit := do
  let r ← f64 i.rb
  let r ← if abs then emit .fAbs .f64 [r] else pure r
  let r ← if neg then emit .fNeg .f64 [r] else pure r
  storeF64 i.frt r
  recordCr1 i

/-- `fcfidx`. -/
def liftConvertFromInteger (i : DecodedInstruction) : Build Unit := do
  let raw ← readFprBits i.rb
  let r ← emit .fConvertFromI64 .f64 [raw] 1 64
  storeF64 i.frt r
  updateStatus i r

/-- The `fctidx`, `fctidzx`, `fctiwx`, `fctiwzx` family. -/
def liftConvertToInteger (i : DecodedInstruction) (toZero : Bool) (width : BitVec 64) :
    Build Unit := do
  let a ← f64 i.rb
  let raw ← emit .fConvertToI64 .i64 [a] (if toZero then 1 else 0) width
  writeFprBits i.frt raw
  emitVoid .fUpdateStatus [a] (0x100 ||| width) (if toZero then 1 else 0)
  recordCr1 i

/-- The `fcmpu`, `fcmpo` family. -/
def liftFloatCompare (i : DecodedInstruction) (ordered : Bool) : Build Unit := do
  let a ← f64 i.ra
  let c ← f64 i.rb
  let field ← emit .fCompare .i8 [a, c] (if ordered then 1 else 0)
  emitVoid .writeCRField [field] (i.crfd.setWidth 64)
  emitVoid .fUpdateStatus [a, c] (if ordered then 0x201 else 0x200)

/-- `mffsx` as the floating-point lifter has it; the catalogue routes it to
`lift_control`. -/
def liftReadFpscr (i : DecodedInstruction) : Build Unit := do
  let fps ← emit .readFPSCR .i32 []
  let raw ← emit .zeroExtend .i64 [fps]
  writeFprBits i.frt raw
  recordCr1 i

/-- `lift_fpu`. -/
def liftFpu (i : DecodedInstruction) : Build Bool := do
  let m := i.mnemonic
  let single := m.endsWith "sx"
  let flag : BitVec 64 := if single then 1 else 0
  match m with
  | .faddx | .faddsx => liftArithmetic i .fAdd [i.ra, i.rb] flag 0 single
  | .fsubx | .fsubsx => liftArithmetic i .fSub [i.ra, i.rb] flag 0 single
  | .fdivx | .fdivsx => liftArithmetic i .fDiv [i.ra, i.rb] flag 0 single
  | .fmulx | .fmulsx => liftArithmetic i .fMul [i.ra, i.frc] flag 0 single
  | .fmaddx | .fmaddsx | .fmsubx | .fmsubsx | .fnmaddx | .fnmaddsx | .fnmsubx | .fnmsubsx =>
      liftArithmetic i .fFma [i.ra, i.frc, i.rb] (fmaFlags m single) 0 single
  | .fsqrtx | .fsqrtsx => liftArithmetic i .fSqrt [i.rb] flag 0 single
  | .fresx => liftArithmetic i .fReciprocalEstimate [i.rb] 0 0 false
  | .frsqrtex => liftArithmetic i .fReciprocalSqrtEstimate [i.rb] 0 0 false
  | .fselx => liftFloatSelect i
  | .fabsx => liftFloatMove i true false
  | .fnegx => liftFloatMove i false true
  | .fnabsx => liftFloatMove i true true
  | .fmrx => liftFloatMove i false false
  | .frspx => liftArithmetic i .fRoundSingle [i.rb] 0 0 false
  | .fcfidx => liftConvertFromInteger i
  | .fctidx => liftConvertToInteger i false 64
  | .fctidzx => liftConvertToInteger i true 64
  | .fctiwx => liftConvertToInteger i false 32
  | .fctiwzx => liftConvertToInteger i true 32
  | .fcmpu => liftFloatCompare i false
  | .fcmpo => liftFloatCompare i true
  | .mffsx => liftReadFpscr i
  | _ => return false
  return true

end Lifter
end XenonRecomp
