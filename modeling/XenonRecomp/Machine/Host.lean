/-
# The host behind guest code

What compiled and interpreted guest code reaches outside the processor state:
`MemoryAccessContext` (`include/xenon/cpu/memory_port.hpp`), `RuntimeServices`
and the control transfers of `ExecutionContext` (`include/xenon/cpu/runtime.hpp`),
and the floating-point helpers of `include/xenon/cpu/aot_semantics.hpp`.

Each such call is a `Request` with the arguments it is given, and a host is any
state machine that answers requests, with a value or with a fault.  Two programs
that behave alike for every host make the same calls with the same arguments in
the same order, because a host may record what it is asked.

The scalar floating-point helpers depend on FPSCR and on thread-local status of
their own, so they are requests; what they do besides is left open.  The
arithmetic on single floating-point lanes has no state: it is the record
`FloatOps` of functions on bit patterns, equally left open.
-/

import XenonRecomp.Cpu.State

namespace XenonRecomp
namespace Machine

open Cpu

/-- `FlowReason`. -/
inductive FlowReason where
  | fallthrough | branch | return | trap | syscall | halt | longJump
deriving DecidableEq, Repr

/-- `ExecutionResult`. -/
structure ExecutionResult where
  reason : FlowReason
  nextAddress : GuestAddress
  detail : BitVec 32
deriving DecidableEq, Repr

/-- `ExecutionResult::terminal`. -/
def ExecutionResult.terminal (r : ExecutionResult) : Bool :=
  r.reason = .trap || r.reason = .halt

/-- `CompiledLookupKind`: is the target entered by a branch or by a call? -/
inductive LookupKind where
  | branch | call
deriving DecidableEq, Repr

/-- `BarrierKind`. -/
inductive BarrierKind where
  | sync | lightweightSync | eieio | instructionSync
deriving DecidableEq, Repr

/-- The scalar floating-point helpers that compute a result under FPSCR. -/
inductive FloatHelper where
  | fpAdd | fpSub | fpMul | fpDiv | fpFma | fpSqrt | fpRoundSingle | fpFromI64
  | fpToIntegerBits (width : BitVec 64) (towardZero : Bool)
  | fpReciprocal | fpRsqrt
deriving DecidableEq, Repr

/-- The helpers that update FPSCR from the status of the last operation. -/
inductive StatusHelper where
  | updateFpscr | updateFpConversionStatus | updateFpCompareStatus (ordered : Bool)
deriving DecidableEq, Repr

/-- A call out of guest code, with its arguments. -/
inductive Request where
  | read8 (address : GuestAddress)
  | read16 (little : Bool) (address : GuestAddress)
  | read32 (little : Bool) (address : GuestAddress)
  | read64 (little : Bool) (address : GuestAddress)
  | read128 (address : GuestAddress)
  | readBytes (address : GuestAddress) (count : ℕ)
  | write8 (address : GuestAddress) (value : BitVec 8)
  | write16 (little : Bool) (address : GuestAddress) (value : BitVec 16)
  | write32 (little : Bool) (address : GuestAddress) (value : BitVec 32)
  | write64 (little : Bool) (address : GuestAddress) (value : BitVec 64)
  | write128 (address : GuestAddress) (value : Vector128)
  | writeBytes (address : GuestAddress) (bytes : List (BitVec 8))
  | reserve32 (address : GuestAddress)
  | reserve64 (address : GuestAddress)
  | storeConditional32 (address : GuestAddress) (token : BitVec 64) (value : BitVec 32)
  | storeConditional64 (address : GuestAddress) (token : BitVec 64) (value : BitVec 64)
  | cancelReservation (token : BitVec 64)
  | barrier (kind : BarrierKind)
  | zeroCacheBlock (address : GuestAddress) (size : BitVec 64)
  | instructionCacheInvalidate (address : GuestAddress)
  | readTimeBase (state : CpuState)
  | readSpr (spr : BitVec 64) (state : CpuState)
  | writeSpr (spr : BitVec 64) (value : BitVec 64) (state : CpuState)
  | syscall (level : BitVec 64) (state : CpuState)
  | trap (code : BitVec 64) (state : CpuState)
  | runCompiled (target : GuestAddress) (kind : LookupKind) (state : CpuState)
  | dynamicFallback (target : GuestAddress) (kind : LookupKind) (state : CpuState)
  | runtimeCall (target : GuestAddress) (state : CpuState)
  | followTailBranches (result : ExecutionResult) (state : CpuState)
  | float (helper : FloatHelper) (fpscr : BitVec 32) (operands : List (BitVec 64))
  | floatStatus (helper : StatusHelper) (fpscr : BitVec 32) (operands : List (BitVec 64))

/-- What a request is answered with when it does not fault. -/
abbrev Request.Reply : Request → Type
  | .read8 _ => BitVec 8
  | .read16 _ _ => BitVec 16
  | .read32 _ _ => BitVec 32
  | .read64 _ _ => BitVec 64
  | .read128 _ => Vector128
  | .readBytes _ _ => ℕ → BitVec 8
  | .reserve32 _ => BitVec 64 × BitVec 32
  | .reserve64 _ => BitVec 64 × BitVec 64
  | .storeConditional32 _ _ _ | .storeConditional64 _ _ _ => Bool
  | .readTimeBase _ | .readSpr _ _ => BitVec 64
  | .writeSpr _ _ _ => CpuState
  | .syscall _ _ | .trap _ _ | .runtimeCall _ _ | .followTailBranches _ _ =>
      ExecutionResult × CpuState
  | .runCompiled _ _ _ | .dynamicFallback _ _ _ => Option (ExecutionResult × CpuState)
  | .float _ _ _ => BitVec 64
  | .floatStatus _ _ _ => BitVec 32
  | _ => Unit

/-- An exception thrown through guest code. -/
structure Fault where
  detail : BitVec 64
deriving DecidableEq, Repr

/-- Arithmetic on single floating-point values, as functions of bit patterns. -/
structure FloatOps where
  promote : BitVec 32 → BitVec 64
  truncate : BitVec 64 → BitVec 32
  compareField : BitVec 64 → BitVec 64 → BitVec 8
  add : BitVec 32 → BitVec 32 → BitVec 32
  sub : BitVec 32 → BitVec 32 → BitVec 32
  mul : BitVec 32 → BitVec 32 → BitVec 32
  max : BitVec 32 → BitVec 32 → BitVec 32
  min : BitVec 32 → BitVec 32 → BitVec 32
  fma : BitVec 32 → BitVec 32 → BitVec 32 → BitVec 32
  neg : BitVec 32 → BitVec 32
  recip : BitVec 32 → BitVec 32
  rsqrt : BitVec 32 → BitVec 32
  exp2 : BitVec 32 → BitVec 32
  log2 : BitVec 32 → BitVec 32
  floor : BitVec 32 → BitVec 32
  nearest : BitVec 32 → BitVec 32
  ceil : BitVec 32 → BitVec 32
  trunc : BitVec 32 → BitVec 32
  eq : BitVec 32 → BitVec 32 → Bool
  ge : BitVec 32 → BitVec 32 → Bool
  gt : BitVec 32 → BitVec 32 → Bool
  isNan : BitVec 32 → Bool
  fromSigned : BitVec 32 → ℕ → BitVec 32
  fromUnsigned : BitVec 32 → ℕ → BitVec 32
  toSigned : BitVec 32 → ℕ → BitVec 32 × Bool
  toUnsigned : BitVec 32 → ℕ → BitVec 32 × Bool
  colorToByte : BitVec 32 → BitVec 32
  byteToColor : BitVec 32 → BitVec 32
deriving Inhabited

/-- A host: its answer to each request, and its floating-point arithmetic. -/
structure Host (σ : Type) where
  answer : (r : Request) → σ → Except Fault r.Reply × σ
  float : FloatOps

/-- The answer of zeros to a request. -/
def Request.zeroReply : (r : Request) → r.Reply
  | .read8 _ | .read16 _ _ | .read32 _ _ | .read64 _ _ => 0#_
  | .read128 _ => .zero
  | .readBytes _ _ => fun _ => 0
  | .reserve32 _ | .reserve64 _ => (0, 0)
  | .storeConditional32 _ _ _ | .storeConditional64 _ _ _ => false
  | .readTimeBase _ | .readSpr _ _ | .float _ _ _ => 0#64
  | .floatStatus _ _ _ => 0#32
  | .writeSpr _ _ s => s
  | .syscall _ s | .trap _ s | .runtimeCall _ s | .followTailBranches _ s =>
      (⟨.halt, 0, 0⟩, s)
  | .runCompiled _ _ _ | .dynamicFallback _ _ _ => none
  | .write8 _ _ | .write16 _ _ _ | .write32 _ _ _ | .write64 _ _ _ | .write128 _ _
  | .writeBytes _ _ | .cancelReservation _ | .barrier _ | .zeroCacheBlock _ _
  | .instructionCacheInvalidate _ => ()

/-- A host of empty memory that answers everything with zeros. -/
def quietHost : Host Unit where
  answer r s := (.ok r.zeroReply, s)
  float := default

end Machine
end XenonRecomp
