/-
# Xenon IR

`include/xenon/cpu/ir.hpp` and `src/cpu/ir/ir.cpp`.  A block is a list of
typed operations in static single assignment form: an operation of a non-void
type names its result by the next value number of the block, and operands are
value numbers.  `kNoValue` is `none`.  Value numbers are natural numbers, so
the counter does not wrap.

Every operation carries the guest instruction it came from: its address, its
word and its opcode, for which the mnemonic stands.
-/

import XenonRecomp.Cpu.Instruction

namespace XenonRecomp
namespace Ir

open Cpu

/-- `ValueId`. -/
abbrev ValueId := ℕ

/-- `ir::Type`. -/
inductive IrType where
  | void | i1 | i8 | i16 | i32 | i64 | f32 | f64 | v128
deriving DecidableEq, Repr

/-- `Endian`. -/
inductive Endian where
  | big | little | raw
deriving DecidableEq, Repr

/-- The number of an `Endian`, as stored in `imm0` of memory operations. -/
def Endian.code : Endian → BitVec 64
  | .big => 0 | .little => 1 | .raw => 2

/-- The number of an `ir::Type`, as stored in `imm1` of stores. -/
def IrType.code : IrType → BitVec 64
  | .void => 0 | .i1 => 1 | .i8 => 2 | .i16 => 3 | .i32 => 4 | .i64 => 5 | .f32 => 6
  | .f64 => 7 | .v128 => 8

/-- The type with a given number, `void` for any other number. -/
def IrType.ofCode (c : BitVec 64) : IrType :=
  if c = 1 then .i1 else if c = 2 then .i8 else if c = 3 then .i16 else if c = 4 then .i32
  else if c = 5 then .i64 else if c = 6 then .f32 else if c = 7 then .f64
  else if c = 8 then .v128 else .void

@[simp] theorem IrType.ofCode_code (t : IrType) : IrType.ofCode t.code = t := by
  cases t <;> rfl

/-- `ir::Op`. -/
inductive Op where
  | constant | readGpr | writeGpr | readFprBits | writeFprBits | readVector | writeVector
  | readCR | writeCR | readCRBit | writeCRBit | readCRField | writeCRField | writeCRCompare
  | writeCR0StoreConditional | updateCR0Signed | moveCRFields | moveXERToCR | readXER
  | writeXER | readXerCA | readXerOV | readXerSO | setXerCA | setXerOV | setXerSO
  | setXerOverflowSticky | readFPSCR | writeFPSCR | updateCR1FromFPSCR | moveFPSCRFieldToCR
  | moveFPSCRToFPRBits | setFPSCRBit | writeFPSCRFieldImmediate | writeFPSCRFields | readVSCR
  | writeVSCR | setVSCRSaturation | moveVSCRToVector | moveVectorToVSCR | readLR | writeLR
  | readCTR | writeCTR | readMSR | writeMSR | readTimeBase | readVRSAVE | writeVRSAVE | readPVR
  | readSPR | writeSPR | add | addImmediate | addCarry | sub | mul | mulHighSigned
  | mulHighUnsigned | divSigned | divUnsigned | neg | countLeadingZeros | carryOut
  | signedOverflow | mulOverflowSigned | divOverflow | ppcShift | ppcShiftCarry | and | or
  | xor | not | shl | shrLogical | shrArithmetic | rotl | signExtend | zeroExtend | truncate
  | bitcast | fPromote | fTruncate | compareEq | compareNe | compareSlt | compareSgt
  | compareUlt | compareUgt | select | fAdd | fSub | fMul | fDiv | fFma | fSqrt | fAbs | fNeg
  | fCompare | fSelect | fRoundSingle | fConvertFromI64 | fConvertToI64 | fReciprocalEstimate
  | fReciprocalSqrtEstimate | fUpdateStatus | vAdd | vSub | vMul | vMadd | vMin | vMax | vAvg
  | vAnd | vAndNot | vOr | vXor | vNot | vCompare | vUpdateCR6 | vShuffle | vPermute | vPack
  | vUnpack | vConvert | vShift | vShiftDouble | vRotate | vRotateInsert | vSplat | vMerge
  | vSum | vEstimate | vDot | vSelect | vMultiplyEvenOdd | vLoadElement | vStoreElement
  | vLoadLeft | vLoadRight | vStoreLeft | vStoreRight | vMakeLoadShiftLeft
  | vMakeLoadShiftRight | load | store | reserveLoad | storeConditional | stringLoad
  | stringStore | barrier | cacheZero | iCacheInvalidate | cacheHint | branch | branchIf
  | branchIndirect | call | callIndirect | ret | trap | syscall
deriving DecidableEq, Repr

/-- `ir::Instruction`. -/
structure Instruction where
  op : Op
  type : IrType
  result : Option ValueId
  args : List ValueId
  imm0 : BitVec 64
  imm1 : BitVec 64
  guestAddress : GuestAddress
  guestWord : BitVec 32
  guestMnemonic : Mnemonic
deriving DecidableEq, Repr

/-- `EdgeKind`. -/
inductive EdgeKind where
  | fallthrough | branch | call
deriving DecidableEq, Repr

/-- `ControlFlowEdge`. -/
structure ControlFlowEdge where
  target : GuestAddress
  kind : EdgeKind
  isLocal : Bool
deriving DecidableEq, Repr

/-- `ir::Block`.  `end_address` is exclusive and wraps at the top of the space. -/
structure Block where
  guestAddress : GuestAddress
  instructions : List Instruction
  endAddress : GuestAddress
  successors : List ControlFlowEdge
  predecessors : List GuestAddress
  hasExternalExit : Bool
  hasIndirectExit : Bool
  hasIndirectCall : Bool
deriving DecidableEq, Repr

/-- `ir::Function`. -/
structure Function where
  guestAddress : GuestAddress
  blocks : List Block
deriving DecidableEq, Repr

end Ir
end XenonRecomp
