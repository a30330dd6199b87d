/-
# Lifting branches and system instructions

`Lifter::lift_control` of `src/cpu/ppc/lifter/control_flow.cpp`: branches,
condition-register operations, moves to and from special registers, traps and
the FPSCR and VSCR transfers.
-/

import XenonRecomp.Ir.Builder

namespace XenonRecomp
namespace Lifter

open Cpu Ir

/-- `logical_not`. -/
def logicalNot (v : ValueId) : Build ValueId := emit .not .i1 [v]

/-- `branch_condition`: decrement and test CTR unless `BO[2]`, test the condition
bit unless `BO[0]`. -/
def branchCondition (i : DecodedInstruction) (useCtr : Bool) : Build ValueId := do
  let ctrOk ← if useCtr ∧ !i.bo.getLsbD 2 then do
      let ctr ← readCtr
      let one ← constantI64 1
      let ctr ← emit .sub .i64 [ctr, one]
      writeCtr ctr
      let z ← constantI64 0
      let ok ← emit (if i.bo.getLsbD 1 then .compareEq else .compareNe) .i1 [ctr, z]
      pure (some ok)
    else pure none
  let condOk ← if !i.bo.getLsbD 4 then do
      let cr ← emit .readCRBit .i1 [] (i.bi.setWidth 64)
      let ok ← if i.bo.getLsbD 3 then pure cr else logicalNot cr
      pure (some ok)
    else pure none
  match ctrOk, condOk with
  | some ctrOk, some condOk => emit .and .i1 [ctrOk, condOk]
  | some ctrOk, none => pure ctrOk
  | none, some condOk => pure condOk
  | none, none => constantI1 true

/-- LR receives the address after the branch. -/
def writeLink (i : DecodedInstruction) : Build Unit :=
  if i.lk then do
    let next ← constantI64 ((i.address + 4).setWidth 64)
    writeLr next
  else pure ()

/-- `bx`. -/
def liftBranch (i : DecodedInstruction) : Build Unit := do
  let target ← constantI64 (i.directBranchTarget.setWidth 64)
  writeLink i
  emitVoid (if i.lk then .call else .branch) [target]

/-- `bcx`. -/
def liftBranchConditional (i : DecodedInstruction) : Build Unit := do
  let cond ← branchCondition i true
  let target ← constantI64 (i.directBranchTarget.setWidth 64)
  writeLink i
  emitVoid .branchIf [cond, target] (if i.lk then 1 else 0)

/-- `bclrx`: the target is LR before the link. -/
def liftBranchLr (i : DecodedInstruction) : Build Unit := do
  let target ← readLr
  let cond ← branchCondition i true
  writeLink i
  emitVoid .branchIndirect [cond, target] (if i.lk then 1 else 0) 1

/-- `bcctrx`. -/
def liftBranchCtr (i : DecodedInstruction) : Build Unit := do
  let target ← readCtr
  let cond ← branchCondition i false
  writeLink i
  emitVoid .branchIndirect [cond, target] (if i.lk then 1 else 0) 2

/-- The value of a condition-register operation. -/
def emitCrLogical (m : Mnemonic) (va vb : ValueId) : Build ValueId := do
  match m with
  | .crand => emit .and .i1 [va, vb]
  | .crandc =>
      let nb ← logicalNot vb
      emit .and .i1 [va, nb]
  | .creqv =>
      let x ← emit .xor .i1 [va, vb]
      logicalNot x
  | .crnand =>
      let x ← emit .and .i1 [va, vb]
      logicalNot x
  | .crnor =>
      let x ← emit .or .i1 [va, vb]
      logicalNot x
  | .cror => emit .or .i1 [va, vb]
  | .crorc =>
      let nb ← logicalNot vb
      emit .or .i1 [va, nb]
  | _ => emit .xor .i1 [va, vb]

/-- The condition-register family. -/
def liftCrLogical (i : DecodedInstruction) (m : Mnemonic) : Build Unit := do
  let va ← emit .readCRBit .i1 [] (i.ra.setWidth 64)
  let vb ← emit .readCRBit .i1 [] (i.rb.setWidth 64)
  let r ← emitCrLogical m va vb
  emitVoid .writeCRBit [r] (i.rt.setWidth 64)

/-- `mcrf`. -/
def liftMoveCrField (i : DecodedInstruction) : Build Unit := do
  let v ← emit .readCRField .i8 [] (i.crfs.setWidth 64)
  emitVoid .writeCRField [v] (i.crfd.setWidth 64)

/-- `mfcr`. -/
def liftMoveFromCr (i : DecodedInstruction) : Build Unit := do
  let v ← emit .readCR .i32 []
  let wide ← emit .zeroExtend .i64 [v]
  writeGpr i.rt wide

/-- `mtcrf`. -/
def liftMoveToCrFields (i : DecodedInstruction) : Build Unit := do
  let src ← readGpr i.rs
  emitVoid .moveCRFields [src] ((i.word.extractLsb' 12 8).setWidth 64)

/-- The time base, or its upper half. -/
def emitTimeBase (upper : Bool) : Build ValueId := do
  let tb ← emit .readTimeBase .i64 []
  if upper then
    let sh ← constantI64 32
    emit .shrLogical .i64 [tb, sh]
  else pure tb

/-- A 32-bit register widened. -/
def emitWide (op : Op) : Build ValueId := do
  let v ← emit op .i32 []
  emit .zeroExtend .i64 [v]

/-- The value `mfspr` reads. -/
def emitReadSpr (i : DecodedInstruction) : Build ValueId :=
  if i.spr = 1 then emitWide .readXER
  else if i.spr = 8 then readLr
  else if i.spr = 9 then readCtr
  else if i.spr = 256 then emitWide .readVRSAVE
  else if i.spr = 268 then emitTimeBase false
  else if i.spr = 269 then emitTimeBase true
  else if i.spr = 287 then emitWide .readPVR
  else emit .readSPR .i64 [] (i.spr.setWidth 64)

/-- `mfspr`. -/
def liftMoveFromSpr (i : DecodedInstruction) : Build Unit := do
  let v ← emitReadSpr i
  writeGpr i.rt v

/-- `mtspr`. -/
def liftMoveToSpr (i : DecodedInstruction) : Build Unit := do
  let v ← readGpr i.rs
  if i.spr = 1 then
    let n ← emit .truncate .i32 [v]
    emitVoid .writeXER [n]
  else if i.spr = 8 then writeLr v
  else if i.spr = 9 then writeCtr v
  else if i.spr = 256 then
    let n ← emit .truncate .i32 [v]
    emitVoid .writeVRSAVE [n]
  else emitVoid .writeSPR [v] (i.spr.setWidth 64)

/-- `mftb`. -/
def liftMoveFromTimeBase (i : DecodedInstruction) : Build Unit := do
  let tb ← emitTimeBase (i.spr = 269)
  writeGpr i.rt tb

/-- `mfmsr`. -/
def liftMoveFromMsr (i : DecodedInstruction) : Build Unit := do
  let v ← emit .readMSR .i64 []
  writeGpr i.rt v

/-- The `mtmsr`, `mtmsrd` family. -/
def liftMoveToMsr (i : DecodedInstruction) (doubleword : Bool) : Build Unit := do
  let v ← readGpr i.rs
  emitVoid .writeMSR [v] (if i.word.getLsbD 16 then 1 else 0) (if doubleword then 1 else 0)

/-- CR field 1 from FPSCR under the record bit. -/
def recordCr1 (i : DecodedInstruction) : Build Unit :=
  if i.rc then emitVoid .updateCR1FromFPSCR [] else pure ()

/-- `mffsx`. -/
def liftMoveFromFpscr (i : DecodedInstruction) : Build Unit := do
  let fps ← emit .readFPSCR .i32 []
  let raw ← emit .zeroExtend .i64 [fps]
  let out ← emit .moveFPSCRToFPRBits .i64 [raw]
  writeFprBits i.frt out
  recordCr1 i

/-- The `mtfsb0x`, `mtfsb1x` family. -/
def liftSetFpscrBit (i : DecodedInstruction) (value : Bool) : Build Unit := do
  emitVoid .setFPSCRBit [] (i.rt.setWidth 64) (if value then 1 else 0)
  recordCr1 i

/-- `mtfsfix`. -/
def liftMoveToFpscrFieldImmediate (i : DecodedInstruction) : Build Unit := do
  emitVoid .writeFPSCRFieldImmediate [] (i.crfd.setWidth 64)
    ((i.word.extractLsb' 12 4).setWidth 64)
  recordCr1 i

/-- `mtfsfx`. -/
def liftMoveToFpscrFields (i : DecodedInstruction) : Build Unit := do
  let src ← readFprBits i.rb
  emitVoid .writeFPSCRFields [src] ((i.word.extractLsb' 17 8).setWidth 64)
  recordCr1 i

/-- `mfvscr`. -/
def liftMoveFromVscr (i : DecodedInstruction) : Build Unit := do
  let v ← emit .moveVSCRToVector .v128 []
  writeVector (i.rt.setWidth 7) v

/-- `mtvscr`. -/
def liftMoveToVscr (i : DecodedInstruction) : Build Unit := do
  let v ← readVector (i.rb.setWidth 7)
  emitVoid .moveVectorToVSCR [v]

/-- `lift_control`. -/
def liftControl (i : DecodedInstruction) : Build Bool := do
  let m := i.mnemonic
  match m with
  | .bx => liftBranch i
  | .bcx => liftBranchConditional i
  | .bclrx => liftBranchLr i
  | .bcctrx => liftBranchCtr i
  | .crand | .crandc | .creqv | .crnand | .crnor | .cror | .crorc | .crxor => liftCrLogical i m
  | .mcrf => liftMoveCrField i
  | .mfcr => liftMoveFromCr i
  | .mtcrf => liftMoveToCrFields i
  | .mcrxr => emitVoid .moveXERToCR [] (i.crfd.setWidth 64)
  | .mfspr => liftMoveFromSpr i
  | .mtspr => liftMoveToSpr i
  | .mftb => liftMoveFromTimeBase i
  | .mfmsr => liftMoveFromMsr i
  | .mtmsr | .mtmsrd => liftMoveToMsr i (m = .mtmsrd)
  | .sc => emitVoid .syscall [] ((i.word.extractLsb' 5 7).setWidth 64)
  | .td | .tdi | .tw | .twi => emitVoid .trap [] (i.rt.setWidth 64) (i.word.setWidth 64)
  | .mffsx => liftMoveFromFpscr i
  | .mcrfs => emitVoid .moveFPSCRFieldToCR [] (i.crfd.setWidth 64) (i.crfs.setWidth 64)
  | .mtfsb0x | .mtfsb1x => liftSetFpscrBit i (m = .mtfsb1x)
  | .mtfsfix => liftMoveToFpscrFieldImmediate i
  | .mtfsfx => liftMoveToFpscrFields i
  | .mfvscr => liftMoveFromVscr i
  | .mtvscr => liftMoveToVscr i
  | _ => return false
  return true

end Lifter
end XenonRecomp
