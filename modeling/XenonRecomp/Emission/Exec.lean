/-
# Running emitted code

`emit_one` of `src/cpu/codegen/emission/instruction_emission.cpp`, operation by
operation: the operations on values alone are in `Emission.Value`; here are
those that read or write the processor state, compute on vectors, or reach the
host.  `runCode` runs the statements of a block one after another; the values
declared so far are its environment.

A statement whose operands were not declared, or have types the C++ expression
does not accept, is stuck.
-/

import XenonRecomp.Emission.Value
import XenonRecomp.Aot.Memory
import XenonRecomp.Aot.Vector

namespace XenonRecomp
namespace Emission

open Cpu Ir Machine Run

/-- How an operation is emitted: as an expression of its operands, a read of the
processor state, a write of it, a vector computation, or a call of the host. -/
inductive OpClass where
  | value | read | write | vector | host
deriving DecidableEq, Repr

/-- The class of an operation. -/
def opClass : Op → OpClass
  | .readGpr | .readFprBits | .readVector | .readCR | .readCRBit | .readCRField | .readXER
  | .readXerCA | .readXerOV | .readXerSO | .readFPSCR | .readVSCR | .moveVSCRToVector | .readLR
  | .readCTR | .readMSR | .readVRSAVE | .readPVR => .read
  | .writeGpr | .writeFprBits | .writeVector | .writeCR | .writeCRBit | .writeCRField
  | .writeCRCompare | .writeCR0StoreConditional | .updateCR0Signed | .moveCRFields | .moveXERToCR
  | .writeXER | .setXerCA | .setXerOV | .setXerSO | .setXerOverflowSticky | .writeFPSCR
  | .updateCR1FromFPSCR | .moveFPSCRFieldToCR | .setFPSCRBit | .writeFPSCRFieldImmediate
  | .writeFPSCRFields | .writeVSCR | .setVSCRSaturation | .moveVectorToVSCR | .writeLR | .writeCTR
  | .writeMSR | .writeVRSAVE | .vUpdateCR6 | .cacheHint => .write
  | .vAdd | .vSub | .vMul | .vMadd | .vMin | .vMax | .vAvg | .vAnd | .vAndNot | .vOr | .vXor
  | .vNot | .vCompare | .vShuffle | .vPermute | .vPack | .vUnpack | .vConvert | .vShift
  | .vShiftDouble | .vRotate | .vRotateInsert | .vSplat | .vMerge | .vSum | .vEstimate | .vDot
  | .vSelect | .vMultiplyEvenOdd => .vector
  | .readTimeBase | .readSPR | .writeSPR | .fAdd | .fSub | .fMul | .fDiv | .fFma | .fSqrt
  | .fRoundSingle | .fConvertFromI64 | .fConvertToI64 | .fReciprocalEstimate
  | .fReciprocalSqrtEstimate | .fUpdateStatus | .vLoadElement | .vStoreElement | .vLoadLeft
  | .vLoadRight | .vStoreLeft | .vStoreRight | .load | .store | .reserveLoad | .storeConditional
  | .stringLoad | .stringStore | .barrier | .cacheZero | .iCacheInvalidate | .branch | .branchIf
  | .branchIndirect | .call | .callIndirect | .ret | .trap | .syscall => .host
  | _ => .value

/-- The value a state read declares. -/
def readState (i : Instruction) (s : CpuState) : Option Value :=
  let t := i.type
  match i.op with
  | .readGpr => Value.cast t (s.gpr (i.imm0.setWidth 5))
  | .readFprBits => Value.cast t (s.fprBits (i.imm0.setWidth 5))
  | .readVector => some (.v128 (s.vr (i.imm0.setWidth 7)))
  | .readCR => Value.cast t s.cr
  | .readCRBit => Value.castBool t (s.crBit i.imm0.toNat)
  | .readCRField => Value.cast t (s.crField i.imm0.toNat)
  | .readXER => Value.cast t s.xer
  | .readXerCA => Value.castBool t s.xerCa
  | .readXerOV => Value.castBool t s.xerOv
  | .readXerSO => Value.castBool t s.xerSo
  | .readFPSCR => Value.cast t s.fpscr
  | .readVSCR => Value.cast t s.vscr
  | .moveVSCRToVector => some (.v128 (Vector128.zero.setU32Be 3 s.vscr))
  | .readLR => Value.cast t s.lr
  | .readCTR => Value.cast t s.ctr
  | .readMSR => Value.cast t s.msr
  | .readVRSAVE => Value.cast t s.vrsave
  | .readPVR => Value.cast t s.pvr
  | _ => none

/-- The nibble of `WriteCRCompare`. -/
def compareNibble (lt gt eq so : Bool) : BitVec 8 :=
  (if lt then 0x8 else if gt then 0x4 else if eq then 0x2 else 0) ||| (if so then 1 else 0)

/-- `MoveCRFields`: the selected fields of the source, in order. -/
def moveCrFields (s : CpuState) (mask : BitVec 64) (source : BitVec 32) : CpuState :=
  (List.range 8).foldl
    (fun s f =>
      if mask &&& (0x80#64 >>> f) != 0 then
        s.setCrField f ((source >>> ((7 - f) * 4) &&& 0xF).setWidth 8)
      else s) s

/-- `MoveXERToCR`: SO, OV and CA into a field, then cleared. -/
def moveXerToCr (s : CpuState) (field : ℕ) : CpuState :=
  let nibble : BitVec 8 := (if s.xerSo then 8 else 0) ||| (if s.xerOv then 4 else 0) |||
    (if s.xerCa then 2 else 0)
  let s' := s.setCrField field nibble
  { s' with xer := s'.xer &&& ~~~(xerSO ||| xerOV ||| xerCA) }

/-- The state after a state write. -/
def writeState (i : Instruction) (vals : List Value) (s : CpuState) : Option CpuState :=
  match i.op, vals with
  | .writeGpr, [a] => a.u64?.map (s.setGpr (i.imm0.setWidth 5))
  | .writeFprBits, [a] => a.u64?.map (s.setFprBits (i.imm0.setWidth 5))
  | .writeVector, [a] => a.v128?.map (s.setVr (i.imm0.setWidth 7))
  | .writeCR, [a] => a.u64?.map fun x => { s with cr := x.setWidth 32 }
  | .writeCRBit, [a] => a.bool?.map (s.setCrBit i.imm0.toNat)
  | .writeCRField, [a] => a.u64?.map fun x => s.setCrField i.imm0.toNat (x.setWidth 8)
  | .writeCRCompare, [a, b, c, d] => do
      let lt ← a.bool?
      let gt ← b.bool?
      let eq ← c.bool?
      let so ← d.bool?
      some (s.setCrField i.imm0.toNat (compareNibble lt gt eq so))
  | .writeCR0StoreConditional, [a, b] => do
      let stored ← a.bool?
      let xer ← b.u64?
      some (s.setCrField 0 ((if stored then 2 else 0) |||
        (if xer &&& xerSO.setWidth 64 != 0 then 1 else 0)))
  | .updateCR0Signed, [a] => a.u64?.map s.updateCr0Signed
  | .moveCRFields, [a] => a.u64?.map fun x => moveCrFields s i.imm0 (x.setWidth 32)
  | .moveXERToCR, [] => some (moveXerToCr s i.imm0.toNat)
  | .writeXER, [a] => a.u64?.map fun x => { s with xer := x.setWidth 32 }
  | .setXerCA, [a] => a.bool?.map s.setXerCa
  | .setXerOV, [a] => a.bool?.map s.setXerOv
  | .setXerSO, [a] => a.bool?.map s.setXerSo
  | .setXerOverflowSticky, [a] => a.bool?.map s.setXerOverflow
  | .writeFPSCR, [a] => a.u64?.map fun x => { s with fpscr := x.setWidth 32 }
  | .updateCR1FromFPSCR, [] => some s.updateCr1FromFpscr
  | .moveFPSCRFieldToCR, [] => some (Aot.moveFpscrFieldToCr s i.imm0.toNat i.imm1.toNat)
  | .setFPSCRBit, [] => some (Aot.setFpscrBit s i.imm0.toNat (i.imm1 != 0))
  | .writeFPSCRFieldImmediate, [] => some (Aot.writeFpscrField s i.imm0.toNat (i.imm1.setWidth 8))
  | .writeFPSCRFields, [a] =>
      a.u64?.map fun x => Aot.writeFpscrFields s (i.imm0.setWidth 8) (x.setWidth 32)
  | .writeVSCR, [a] => a.u64?.map fun x => { s with vscr := x.setWidth 32 }
  | .setVSCRSaturation, [a] => a.bool?.map fun p => if p then s.setVectorSaturated else s
  | .moveVectorToVSCR, [a] => a.v128?.map fun v => { s with vscr := v.u32Be 3 }
  | .writeLR, [a] => a.u64?.map fun x => { s with lr := x }
  | .writeCTR, [a] => a.u64?.map fun x => { s with ctr := x }
  | .writeMSR, [a] => a.u64?.map fun x => Aot.writeMsr s x (i.imm0 != 0) (i.imm1 != 0)
  | .writeVRSAVE, [a] => a.u64?.map fun x => { s with vrsave := x.setWidth 32 }
  | .vUpdateCR6, [a] => a.v128?.map (Aot.updateCr6FromVectorCompare s)
  | .cacheHint, [_] => some s
  | _, _ => none

/-- The logic operation of a mnemonic, the template argument of `vector_logic`. -/
def logicOf : Mnemonic → Option (BitVec 8 → BitVec 8 → BitVec 8)
  | .vand | .vand128 => some fun x y => x &&& y
  | .vandc | .vandc128 => some fun x y => x &&& ~~~y
  | .vor | .vor128 => some fun x y => x ||| y
  | .vxor | .vxor128 => some fun x y => x ^^^ y
  | .vnor | .vnor128 => some fun x y => ~~~(x ||| y)
  | _ => none

/-- The native splats, chosen by the prefix of the mnemonic. -/
def splatOf (m : Mnemonic) (w : BitVec 32) (a : Vector128) : Option Vector128 :=
  let field := w.extractLsb' 16 5
  if m.startsWith "vspltb" then some (Aot.vectorSplatByte a field.toNat)
  else if m.startsWith "vsplth" then some (Aot.vectorSplatHalfword a field.toNat)
  else if m.startsWith "vspltw" then some (Aot.vectorSplatWord a field.toNat)
  else if m.startsWith "vspltisb" then some (Aot.vectorSplatImmediateByte field)
  else if m.startsWith "vspltish" then some (Aot.vectorSplatImmediateHalfword field)
  else if m.startsWith "vspltisw" then some (Aot.vectorSplatImmediateWord field)
  else none

/-- The native modular arithmetic. -/
def modularOf (m : Mnemonic) (a b : Vector128) : Option Vector128 :=
  match m with
  | .vaddubm => some (Aot.vectorModular8 (· + ·) a b)
  | .vadduhm => some (Aot.vectorModular16 (· + ·) a b)
  | .vadduwm => some (Aot.vectorModular32 (· + ·) a b)
  | .vsububm => some (Aot.vectorModular8 (· - ·) a b)
  | .vsubuhm => some (Aot.vectorModular16 (· - ·) a b)
  | .vsubuwm => some (Aot.vectorModular32 (· - ·) a b)
  | _ => none

/-- The operation that `emit_one` replaces by a template, where it does. -/
def nativeVector (i : Instruction) (a b c : Vector128) : Option Vector128 :=
  match i.op with
  | .vSelect => some (Aot.vectorSelect a b c)
  | .vAnd | .vAndNot | .vOr | .vXor | .vNot =>
      (logicOf i.guestMnemonic).map fun f => Aot.vectorLogic f a b
  | .vSplat => splatOf i.guestMnemonic i.guestWord a
  | .vAdd | .vSub => modularOf i.guestMnemonic a b
  | _ => none

/-- The value of a vector computation and the state after it.  An operand that
is not there is `{}`. -/
def vectorResult (float : FloatOps) (i : Instruction) (vals : List Value) (s : CpuState) :
    Option (Value × CpuState) := do
  let vs ← vals.mapM Value.v128?
  let a := vs.getD 0 .zero
  let b := vs.getD 1 .zero
  let c := vs.getD 2 .zero
  match nativeVector i a b c with
  | some v => some (.v128 v, s)
  | none =>
      let (v, s') := Aot.executeVectorState float i.guestMnemonic i.guestWord s a b c
      some (.v128 v, s')

variable {σ : Type} (h : Host σ)

/-- An operand as a guest address. -/
def address (v : Value) : Run σ GuestAddress :=
  ofOption (v.u64?.map (·.setWidth 32))

/-- Adopt the state that a callee left, and return its result. -/
def adopt (r : ExecutionResult × CpuState) : Run σ ExecutionResult := do
  setCpu r.2
  pure r.1

/-- `fallback.handled ? fallback.result : runtime.call(...)`. -/
def fallbackOrRuntime (target runtimeTarget : GuestAddress) : Run σ ExecutionResult := do
  let s ← getCpu
  let fallback : Option (ExecutionResult × CpuState) ← ask h (.dynamicFallback target .call s)
  match fallback with
  | some r => adopt r
  | none => do
      let r : ExecutionResult × CpuState ← ask h (.runtimeCall runtimeTarget s)
      adopt r

/-- `context.follow_tail_branches`. -/
def followTailBranches (rr : ExecutionResult) : Run σ ExecutionResult := do
  let s ← getCpu
  let r : ExecutionResult × CpuState ← ask h (.followTailBranches rr s)
  adopt r

/-- A direct call: compiled code, else the fallback, else the runtime. -/
def callDirect (target : GuestAddress) : Run σ Unit := do
  let s ← getCpu
  let native : Option (ExecutionResult × CpuState) ← ask h (.runCompiled target .call s)
  let rr ← match native with
    | some r => adopt r
    | none => fallbackOrRuntime h target target
  if rr.terminal then exit (.flow rr)

/-- An indirect call; it continues only when the callee came back to the address
that `expected` names after the call. -/
def callIndirect (raw : GuestAddress) (expected : CpuState → GuestAddress) : Run σ Unit := do
  let target := raw &&& ~~~3
  let s ← getCpu
  let native : Option (ExecutionResult × CpuState) ← ask h (.runCompiled target .call s)
  match native with
  | some r => do
      let r ← adopt r
      let rr ← followTailBranches h r
      let s ← getCpu
      if rr.reason ≠ .return ∨ rr.nextAddress ≠ expected s then exit (.flow rr)
  | none => do
      let r ← fallbackOrRuntime h target raw
      let rr ← followTailBranches h r
      let s ← getCpu
      if rr.reason = .return then
        if rr.nextAddress ≠ expected s then exit (.flow rr)
      else if rr.reason ≠ .fallthrough then exit (.flow rr)

/-- Leave for a target: NIA is set to it. -/
def leave {α : Type} (reason : FlowReason) (target : GuestAddress) : Run σ α := do
  modifyCpu fun s => { s with nia := target }
  exit (.flow ⟨reason, target, 0⟩)

/-- A taken `BranchIndirect` that does not link: LR is a return, CTR a jump. -/
def branchIndirect (viaLr : Bool) (raw : BitVec 64) : Run σ Unit := do
  let target := (raw &&& ~~~3).setWidth 32
  if viaLr then leave .return target
  else
    let s ← getCpu
    let native : Option (ExecutionResult × CpuState) ← ask h (.runCompiled target .branch s)
    match native with
    | some r => do
        let rr ← adopt r
        exit (.flow rr)
    | none => do
        let fallback : Option (ExecutionResult × CpuState) ←
          ask h (.dynamicFallback target .branch s)
        match fallback with
        | some r => do
            let rr ← adopt r
            exit (.flow rr)
        | none => leave .branch target

/-- `Load`. -/
def load (t : IrType) (little : Bool) (ea : GuestAddress) : Run σ Value :=
  match t with
  | .i8 => do
      let x : BitVec 8 ← ask h (.read8 ea)
      pure (.i8 x)
  | .i16 => do
      let x : BitVec 16 ← ask h (.read16 little ea)
      pure (.i16 x)
  | .i32 => do
      let x : BitVec 32 ← ask h (.read32 little ea)
      pure (.i32 x)
  | .i64 => do
      let x : BitVec 64 ← ask h (.read64 little ea)
      pure (.i64 x)
  | .v128 => do
      let x : Vector128 ← ask h (.read128 ea)
      pure (.v128 x)
  | _ => exit .stuck

/-- `Store`. -/
def store (t : IrType) (little : Bool) (ea : GuestAddress) (v : Value) : Run σ Unit :=
  match t with
  | .i8 => do
      let x ← ofOption v.u64?
      ask h (.write8 ea (x.setWidth 8))
  | .i16 => do
      let x ← ofOption v.u64?
      ask h (.write16 little ea (x.setWidth 16))
  | .i32 => do
      let x ← ofOption v.u64?
      ask h (.write32 little ea (x.setWidth 32))
  | .i64 => do
      let x ← ofOption v.u64?
      ask h (.write64 little ea x)
  | .v128 => do
      let x ← ofOption v.v128?
      ask h (.write128 ea x)
  | _ => exit .stuck

/-- Drop the reservation held, if any. -/
def cancelHeld : Run σ Unit := do
  let s ← getCpu
  if s.reservation.valid then ask h (.cancelReservation s.reservation.token)

/-- The reservation after `reserve32` or `reserve64`. -/
def reserved (token : BitVec 64) (width : BitVec 8) (ea : GuestAddress) (value : BitVec 64) :
    ReservationState := ⟨token != 0, width, ea, value, token⟩

/-- `ReserveLoad`. -/
def reserveLoad (t : IrType) (ea : GuestAddress) : Run σ Value := do
  cancelHeld h
  if t = .i32 then
    let r : BitVec 64 × BitVec 32 ← ask h (.reserve32 ea)
    modifyCpu fun s => { s with reservation := reserved r.1 4 ea (r.2.setWidth 64) }
    pure (.i32 r.2)
  else
    let r : BitVec 64 × BitVec 64 ← ask h (.reserve64 ea)
    modifyCpu fun s => { s with reservation := reserved r.1 8 ea r.2 }
    ofOption (Value.cast t r.2)

/-- `StoreConditional`: it clears the reservation, whatever the outcome. -/
def storeConditional (word : Bool) (ea : GuestAddress) (value : BitVec 64) : Run σ Bool := do
  let s ← getCpu
  let token := s.reservation.token
  let stored ←
    if s.reservation.valid then
      if s.reservation.width = (if word then 4 else 8) then
        if word then
          let b : Bool ← ask h (.storeConditional32 ea token (value.setWidth 32))
          pure b
        else
          let b : Bool ← ask h (.storeConditional64 ea token value)
          pure b
      else do
        ask h (.cancelReservation token)
        pure false
    else pure false
  modifyCpu fun s => { s with reservation := .none }
  pure stored

/-- `Barrier`; `isync` leaves the translation at the next instruction. -/
def barrier (kind : BitVec 64) (guestAddress : GuestAddress) : Run σ Unit := do
  ask h (.barrier (if kind = 1 then .sync else if kind = 2 then .lightweightSync
    else if kind = 3 then .eieio else .instructionSync))
  if kind = 4 then leave .branch (guestAddress + 4)

/-- `Trap`: the operands are read from the state by the fields of the word. -/
def trap (i : Instruction) : Run σ Unit := do
  let s ← getCpu
  let m := i.guestMnemonic
  let word := m = .tw ∨ m = .twi
  let a := s.gpr (i.guestWord.extractLsb' 16 5)
  let b := if m = .tdi ∨ m = .twi then (i.guestWord.extractLsb' 0 16).signExtend 64
    else s.gpr (i.guestWord.extractLsb' 11 5)
  if Aot.trapCondition i.imm0 a b word then
    let r : ExecutionResult × CpuState ← ask h (.trap i.imm0 s)
    let rr ← adopt r
    exit (.flow rr)

/-- `Syscall`. -/
def syscall (level : BitVec 64) : Run σ Unit := do
  let s ← getCpu
  let r : ExecutionResult × CpuState ← ask h (.syscall level s)
  let rr ← adopt r
  exit (.flow rr)

/-- A scalar floating-point helper on its operands. -/
def floatHelper (f : FloatHelper) (operands : List (BitVec 64)) : Run σ (BitVec 64) := do
  let s ← getCpu
  let x : BitVec 64 ← ask h (.float f s.fpscr operands)
  pure x

/-- A helper that updates FPSCR. -/
def floatStatus (f : StatusHelper) (operands : List (BitVec 64)) : Run σ Unit := do
  let s ← getCpu
  let x : BitVec 32 ← ask h (.floatStatus f s.fpscr operands)
  modifyCpu fun s => { s with fpscr := x }

/-- `FFma`, with its operand and its result negated as `imm0` says. -/
def fma (imm0 : BitVec 64) (a b c : BitVec 64) : Run σ (BitVec 64) := do
  let c := if imm0.getLsbD 0 then Aot.fpNegBits c else c
  let x ← floatHelper h .fpFma [a, b, c]
  pure (if imm0.getLsbD 1 then Aot.fpNegBits x else x)

/-- `FUpdateStatus`: a compare, a conversion or a result. -/
def updateStatus (i : Instruction) (vals : List Value) : Run σ Unit :=
  match vals with
  | .f64 a :: .f64 b :: _ => floatStatus h (.updateFpCompareStatus (i.imm0 == 0x201)) [a, b]
  | vals =>
      if i.imm0 &&& 0x100 != 0 then floatStatus h .updateFpConversionStatus []
      else match vals with
        | [.f64 a] => floatStatus h .updateFpscr [a]
        | [.f32 a] => floatStatus h .updateFpscr [h.float.promote a]
        | [] => pure ()
        | _ => exit .stuck

/-- Endianness of a memory operation. -/
def isLittle (i : Instruction) : Bool := i.imm0 = Endian.little.code

/-- The operations that call the host. -/
def execHost (i : Instruction) (vals : List Value) : Run σ (Option Value) :=
  match i.op, vals with
  | .readTimeBase, [] => do
      let s ← getCpu
      let x : BitVec 64 ← ask h (.readTimeBase s)
      some <$> ofOption (Value.cast i.type x)
  | .readSPR, [] => do
      let s ← getCpu
      let x : BitVec 64 ← ask h (.readSpr i.imm0 s)
      some <$> ofOption (Value.cast i.type x)
  | .writeSPR, [a] => do
      let x ← ofOption a.u64?
      let s ← getCpu
      let s' : CpuState ← ask h (.writeSpr i.imm0 x s)
      setCpu s'
      pure none
  | .fAdd, [.f64 a, .f64 b] => (some ∘ .f64) <$> floatHelper h .fpAdd [a, b]
  | .fSub, [.f64 a, .f64 b] => (some ∘ .f64) <$> floatHelper h .fpSub [a, b]
  | .fMul, [.f64 a, .f64 b] => (some ∘ .f64) <$> floatHelper h .fpMul [a, b]
  | .fDiv, [.f64 a, .f64 b] => (some ∘ .f64) <$> floatHelper h .fpDiv [a, b]
  | .fFma, [.f64 a, .f64 b, .f64 c] => (some ∘ .f64) <$> fma h i.imm0 a b c
  | .fSqrt, [.f64 a] => (some ∘ .f64) <$> floatHelper h .fpSqrt [a]
  | .fRoundSingle, [.f64 a] => (some ∘ .f64) <$> floatHelper h .fpRoundSingle [a]
  | .fReciprocalEstimate, [.f64 a] => (some ∘ .f64) <$> floatHelper h .fpReciprocal [a]
  | .fReciprocalSqrtEstimate, [.f64 a] => (some ∘ .f64) <$> floatHelper h .fpRsqrt [a]
  | .fConvertFromI64, [a] => do
      let x ← ofOption a.u64?
      (some ∘ .f64) <$> floatHelper h .fpFromI64 [x]
  | .fConvertToI64, [.f64 a] =>
      (some ∘ .i64) <$> floatHelper h (.fpToIntegerBits i.imm1 (i.imm0 != 0)) [a]
  | .fUpdateStatus, vals => do
      updateStatus h i vals
      pure none
  | .vLoadElement, [.v128 old, a] => do
      let ea ← address a
      (some ∘ .v128) <$> Aot.vectorLoadElement h old ea i.imm0
  | .vStoreElement, [.v128 v, a] => do
      let ea ← address a
      Aot.vectorStoreElement h v ea i.imm0
      pure none
  | .vLoadLeft, [.v128 _, a] => do
      let ea ← address a
      (some ∘ .v128) <$> Aot.vectorLoadLeft h ea
  | .vLoadRight, [.v128 _, a] => do
      let ea ← address a
      (some ∘ .v128) <$> Aot.vectorLoadRight h ea
  | .vStoreLeft, [.v128 v, a] => do
      let ea ← address a
      Aot.vectorStoreLeft h v ea
      pure none
  | .vStoreRight, [.v128 v, a] => do
      let ea ← address a
      Aot.vectorStoreRight h v ea
      pure none
  | .load, [a] => do
      let ea ← address a
      some <$> load h i.type (isLittle i) ea
  | .store, [a, v] => do
      let ea ← address a
      store h (.ofCode i.imm1) (isLittle i) ea v
      pure none
  | .reserveLoad, [a] => do
      let ea ← address a
      some <$> reserveLoad h i.type ea
  | .storeConditional, [a, v] => do
      let ea ← address a
      let x ← ofOption v.u64?
      let stored ← storeConditional h (IrType.ofCode i.imm1 = .i32) ea x
      some <$> ofOption (Value.castBool i.type stored)
  | .stringLoad, [a, n] => do
      let ea ← address a
      let count ← ofOption n.u64?
      Aot.stringLoad h ea (count.setWidth 32) (i.imm0.setWidth 5)
      pure none
  | .stringStore, [a, n] => do
      let ea ← address a
      let count ← ofOption n.u64?
      Aot.stringStore h ea (count.setWidth 32) (i.imm0.setWidth 5)
      pure none
  | .barrier, [] => do
      barrier h i.imm0 i.guestAddress
      pure none
  | .cacheZero, [a] => do
      let ea ← address a
      ask h (.zeroCacheBlock ea i.imm0)
      pure none
  | .iCacheInvalidate, [a] => do
      let ea ← address a
      ask h (.instructionCacheInvalidate ea)
      pure none
  | .branch, [a] => do
      let target ← address a
      leave .branch target
  | .call, [a] => do
      let target ← address a
      callDirect h target
      pure none
  | .branchIf, [c, a] => do
      let taken ← ofOption c.bool?
      let target ← address a
      if taken then (if i.imm0 != 0 then callDirect h target else leave .branch target)
      pure none
  | .branchIndirect, [c, a] => do
      let taken ← ofOption c.bool?
      let raw ← ofOption a.u64?
      if taken then
        if i.imm0 != 0 then callIndirect h (raw.setWidth 32) fun _ => i.guestAddress + 4
        else branchIndirect h (i.imm1 == 1) raw
      pure none
  | .callIndirect, [a] => do
      let raw ← address a
      callIndirect h raw fun s => (s.lr &&& ~~~3).setWidth 32
      pure none
  | .ret, [] => do
      let s ← getCpu
      leave .return ((s.lr &&& ~~~3).setWidth 32)
  | .syscall, [] => do
      syscall h i.imm0
      pure none
  | .trap, [] => do
      trap h i
      pure none
  | _, _ => exit .stuck

/-- The value an operation declares, if any. -/
def exec (i : Instruction) (vals : List Value) : Run σ (Option Value) :=
  match opClass i.op with
  | .value => some <$> ofOption (evalPure h.float i vals)
  | .read => do
      let s ← getCpu
      some <$> ofOption (readState i s)
  | .write => do
      let s ← getCpu
      let s' ← ofOption (writeState i vals s)
      setCpu s'
      pure none
  | .vector => do
      let s ← getCpu
      let r ← ofOption (vectorResult h.float i vals s)
      setCpu r.2
      pure (some r.1)
  | .host => execHost h i vals

/-- The variables declared so far. -/
abbrev Env := ValueId → Option Value

/-- No variable. -/
def Env.empty : Env := fun _ => none

/-- A variable declared with its value. -/
def Env.set (env : Env) (id : ValueId) (v : Value) : Env := Function.update env id (some v)

@[simp] theorem Env.set_self (env : Env) (id : ValueId) (v : Value) :
    env.set id v id = some v := Function.update_self ..

@[simp] theorem Env.set_of_ne (env : Env) {id j : ValueId} (v : Value) (hj : j ≠ id) :
    env.set id v j = env j := Function.update_of_ne hj ..

/-- One statement. -/
def runOne (i : Instruction) (env : Env) : Run σ Env := do
  let vals ← ofOption (i.args.mapM env)
  let v ← exec h i vals
  match i.result, v with
  | none, _ => pure env
  | some id, some v =>
      if v.type = i.type then pure (env.set id v) else exit .stuck
  | some _, none => exit .stuck

/-- The statements of a block in order. -/
def runCode : List Instruction → Env → Run σ Env
  | [], env => pure env
  | i :: rest, env => do
      let env ← runOne h i env
      runCode rest env

theorem runCode_append (xs ys : List Instruction) (env : Env) :
    runCode h (xs ++ ys) env = runCode h xs env >>= runCode h ys := by
  induction xs generalizing env with
  | nil => rfl
  | cons i xs ih =>
    have step : runCode h (i :: (xs ++ ys)) env
        = runOne h i env >>= fun env => runCode h (xs ++ ys) env := rfl
    rw [List.cons_append, step]
    simp only [ih]
    rw [← bind_assoc]
    rfl

end Emission
end XenonRecomp
