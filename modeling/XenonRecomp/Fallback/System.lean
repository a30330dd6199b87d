/-
# The interpreter: branch conditions and system instructions

`branch_condition` of `src/cpu/codegen/fallback/fallback_interpreter.hpp` and
`execute_system` of `src/cpu/codegen/fallback/interpreter/system.cpp`.  Each
instruction class answers `false` for a mnemonic that is not its own.
-/

import XenonRecomp.Machine.Run
import XenonRecomp.Cpu.Instruction
import XenonRecomp.Aot.Scalar

namespace XenonRecomp
namespace Fallback

open Cpu Machine Run

variable {σ : Type} (h : Host σ)

/-- `branch_condition`: decrement and test CTR, then test the condition bit. -/
def branchCondition (i : DecodedInstruction) (useCtr : Bool) : Run σ Bool := do
  let bo := i.bo
  let ctrOk ← if useCtr ∧ !bo.getLsbD 2 then do
      modifyCpu fun s => { s with ctr := s.ctr - 1 }
      let s ← getCpu
      pure (if bo.getLsbD 1 then s.ctr == 0 else s.ctr != 0)
    else pure true
  let condOk ← if !bo.getLsbD 4 then do
      let s ← getCpu
      pure (s.crBit i.bi.toNat == bo.getLsbD 3)
    else pure true
  pure (ctrOk && condOk)

/-- LR receives the address after a linking branch. -/
def linkBranch (i : DecodedInstruction) : Run σ Unit :=
  if i.lk then modifyCpu fun s => { s with lr := (i.address + 4).setWidth 64 } else pure ()

/-- What `DynamicFallbackExecutor::run` does at a conditional branch before the
transfer: the target, the condition with its CTR decrement, the link. -/
def branchDecision (i : DecodedInstruction) : Run σ (Bool × GuestAddress) := do
  let s ← getCpu
  let target := match i.mnemonic with
    | .bclrx => (s.lr &&& ~~~3).setWidth 32
    | .bcctrx => (s.ctr &&& ~~~3).setWidth 32
    | _ => i.directBranchTarget &&& ~~~3
  let taken ← branchCondition i (i.mnemonic ≠ .bcctrx)
  linkBranch i
  pure (taken, target)

/-- The result of a condition-register operation. -/
def crResult (m : Mnemonic) (a b : Bool) : Bool :=
  match m with
  | .crand => a && b
  | .crandc => a && !b
  | .creqv => a == b
  | .crnand => !(a && b)
  | .crnor => !(a || b)
  | .cror => a || b
  | .crorc => a || !b
  | _ => a != b

/-- The condition-register operations. -/
def crLogical (i : DecodedInstruction) (s : CpuState) : CpuState :=
  s.setCrBit i.rt.toNat (crResult i.mnemonic (s.crBit i.ra.toNat) (s.crBit i.rb.toNat))

/-- `mcrxr`. -/
def moveXerToCr (i : DecodedInstruction) (s : CpuState) : CpuState :=
  let field : BitVec 8 :=
    (if s.xerSo then 8 else 0) ||| (if s.xerOv then 4 else 0) ||| (if s.xerCa then 2 else 0)
  let s' := s.setCrField i.crfd.toNat field
  { s' with xer := s'.xer &&& ~~~(xerSO ||| xerOV ||| xerCA) }

/-- `mtcrf`: the selected nibbles of the source, one field at a time. -/
def moveToCrFields (i : DecodedInstruction) (s : CpuState) : CpuState :=
  let fxm := i.word.extractLsb' 12 8
  let source := (s.gpr i.rs).setWidth 32
  (List.range 8).foldl
    (fun (s : CpuState) field =>
      if fxm &&& (0x80#8 >>> field) = 0 then s
      else
        let shift := (7 - field) * 4
        { s with cr := (s.cr &&& ~~~(0xF#32 <<< shift)) ||| (source &&& (0xF#32 <<< shift)) }) s

/-- The value that `mfspr` and `mftb` read. -/
def readSpr (spr : BitVec 10) : Run σ (BitVec 64) := do
  let s ← getCpu
  if spr = 1 then pure (s.xer.setWidth 64)
  else if spr = 8 then pure s.lr
  else if spr = 9 then pure s.ctr
  else if spr = 256 then pure (s.vrsave.setWidth 64)
  else if spr = 268 then
    let tb : BitVec 64 ← ask h (.readTimeBase s)
    pure tb
  else if spr = 269 then
    let tb : BitVec 64 ← ask h (.readTimeBase s)
    pure (tb >>> 32)
  else if spr = 287 then pure (s.pvr.setWidth 64)
  else
    let x : BitVec 64 ← ask h (.readSpr (spr.setWidth 64) s)
    pure x

/-- `mtspr`. -/
def writeSpr (spr : BitVec 10) (value : BitVec 64) : Run σ Unit := do
  let s ← getCpu
  if spr = 1 then setCpu { s with xer := value.setWidth 32 }
  else if spr = 8 then setCpu { s with lr := value }
  else if spr = 9 then setCpu { s with ctr := value }
  else if spr = 256 then setCpu { s with vrsave := value.setWidth 32 }
  else
    let s' : CpuState ← ask h (.writeSpr (spr.setWidth 64) value s)
    setCpu s'

/-- The address of the cache instructions. -/
def cacheAddress (i : DecodedInstruction) (s : CpuState) : GuestAddress :=
  ((if i.ra ≠ 0 then s.gpr i.ra else 0) + s.gpr i.rb).setWidth 32

/-- `execute_system`. -/
def executeSystem (i : DecodedInstruction) : Run σ Bool := do
  let s ← getCpu
  match i.mnemonic with
  | .mfmsr => setCpu (s.setGpr i.rt s.msr)
  | .mtmsr | .mtmsrd =>
      setCpu (Aot.writeMsr s (s.gpr i.rs) (i.word.getLsbD 16) (i.mnemonic = .mtmsrd))
  | .crand | .crandc | .creqv | .crnand | .crnor | .cror | .crorc | .crxor =>
      setCpu (crLogical i s)
  | .mcrf => setCpu (s.setCrField i.crfd.toNat (s.crField i.crfs.toNat))
  | .mcrxr => setCpu (moveXerToCr i s)
  | .mfcr => setCpu (s.setGpr i.rt (s.cr.setWidth 64))
  | .mtcrf => setCpu (moveToCrFields i s)
  | .mfspr | .mftb =>
      let value ← readSpr h i.spr
      modifyCpu fun s => s.setGpr i.rt value
  | .mtspr => writeSpr h i.spr (s.gpr i.rs)
  | .sync => ask h (.barrier .sync)
  | .eieio => ask h (.barrier .eieio)
  | .isync => ask h (.barrier .instructionSync)
  | .dcbz | .dcbz128 =>
      ask h (.zeroCacheBlock (cacheAddress i s) (if i.mnemonic = .dcbz128 then 128 else 32))
  | .icbi => ask h (.instructionCacheInvalidate (cacheAddress i s))
  | .dcbf | .dcbi | .dcbst | .dcbt | .dcbtst => pure ()
  | _ => return false
  return true

end Fallback
end XenonRecomp
