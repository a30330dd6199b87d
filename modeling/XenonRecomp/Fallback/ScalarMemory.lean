/-
# The interpreter: scalar loads and stores

`load_access`, `store_access`, `effective_address`, `load_scalar` and
`store_scalar` of `src/cpu/codegen/fallback/fallback_interpreter.hpp`, and
`execute_scalar_memory` of
`src/cpu/codegen/fallback/interpreter/scalar_memory.cpp`.  The effective address
is cut to 32 bits as soon as it is formed.
-/

import XenonRecomp.Cpu.Instruction
import XenonRecomp.Aot.Memory

namespace XenonRecomp
namespace Fallback

open Cpu Machine Run

/-- `ScalarAccess`. -/
structure ScalarAccess where
  bytes : ℕ
  sign : Bool
  update : Bool
  indexed : Bool
  littleEndian : Bool
deriving DecidableEq, Repr

/-- `load_access`. -/
def loadAccess : Mnemonic → Option ScalarAccess
  | .lbz => some ⟨1, false, false, false, false⟩
  | .lbzu => some ⟨1, false, true, false, false⟩
  | .lbzx => some ⟨1, false, false, true, false⟩
  | .lbzux => some ⟨1, false, true, true, false⟩
  | .lha => some ⟨2, true, false, false, false⟩
  | .lhau => some ⟨2, true, true, false, false⟩
  | .lhax => some ⟨2, true, false, true, false⟩
  | .lhaux => some ⟨2, true, true, true, false⟩
  | .lhz => some ⟨2, false, false, false, false⟩
  | .lhzu => some ⟨2, false, true, false, false⟩
  | .lhzx => some ⟨2, false, false, true, false⟩
  | .lhzux => some ⟨2, false, true, true, false⟩
  | .lwa => some ⟨4, true, false, false, false⟩
  | .lwax => some ⟨4, true, false, true, false⟩
  | .lwaux => some ⟨4, true, true, true, false⟩
  | .lwz => some ⟨4, false, false, false, false⟩
  | .lwzu => some ⟨4, false, true, false, false⟩
  | .lwzx => some ⟨4, false, false, true, false⟩
  | .lwzux => some ⟨4, false, true, true, false⟩
  | .ld => some ⟨8, false, false, false, false⟩
  | .ldu => some ⟨8, false, true, false, false⟩
  | .ldx => some ⟨8, false, false, true, false⟩
  | .ldux => some ⟨8, false, true, true, false⟩
  | .lhbrx => some ⟨2, false, false, true, true⟩
  | .lwbrx => some ⟨4, false, false, true, true⟩
  | .ldbrx => some ⟨8, false, false, true, true⟩
  | _ => none

/-- `store_access`. -/
def storeAccess : Mnemonic → Option ScalarAccess
  | .stb => some ⟨1, false, false, false, false⟩
  | .stbu => some ⟨1, false, true, false, false⟩
  | .stbx => some ⟨1, false, false, true, false⟩
  | .stbux => some ⟨1, false, true, true, false⟩
  | .sth => some ⟨2, false, false, false, false⟩
  | .sthu => some ⟨2, false, true, false, false⟩
  | .sthx => some ⟨2, false, false, true, false⟩
  | .sthux => some ⟨2, false, true, true, false⟩
  | .stw => some ⟨4, false, false, false, false⟩
  | .stwu => some ⟨4, false, true, false, false⟩
  | .stwx => some ⟨4, false, false, true, false⟩
  | .stwux => some ⟨4, false, true, true, false⟩
  | .std => some ⟨8, false, false, false, false⟩
  | .stdu => some ⟨8, false, true, false, false⟩
  | .stdx => some ⟨8, false, false, true, false⟩
  | .stdux => some ⟨8, false, true, true, false⟩
  | .sthbrx => some ⟨2, false, false, true, true⟩
  | .stwbrx => some ⟨4, false, false, true, true⟩
  | .stdbrx => some ⟨8, false, false, true, true⟩
  | _ => none

/-- The base of an effective address: RA, or zero for `r0`. -/
def baseOrZero (i : DecodedInstruction) (s : CpuState) : BitVec 64 :=
  if i.ra ≠ 0 then s.gpr i.ra else 0

/-- `effective_address` before it is cut: an update form reads `r0` as a register. -/
def effectiveAddress64 (i : DecodedInstruction) (s : CpuState) (access : ScalarAccess) :
    BitVec 64 :=
  let base := if access.update ∨ i.ra ≠ 0 then s.gpr i.ra else 0
  if access.indexed then base + s.gpr i.rb
  else base + (if i.info.format = .DS then i.dsDisplacement else i.simm16.signExtend 64)

/-- `effective_address`. -/
def effectiveAddress (i : DecodedInstruction) (s : CpuState) (access : ScalarAccess) :
    GuestAddress := (effectiveAddress64 i s access).setWidth 32

variable {σ : Type} (h : Host σ)

/-- `load_scalar`. -/
def loadScalar (address : GuestAddress) (access : ScalarAccess) : Run σ (BitVec 64) := do
  let value : BitVec 64 ← match access.bytes with
    | 1 => do
        let x : BitVec 8 ← ask h (.read8 address)
        pure (x.setWidth 64)
    | 2 => do
        let x : BitVec 16 ← ask h (.read16 access.littleEndian address)
        pure (x.setWidth 64)
    | 4 => do
        let x : BitVec 32 ← ask h (.read32 access.littleEndian address)
        pure (x.setWidth 64)
    | 8 => do
        let x : BitVec 64 ← ask h (.read64 access.littleEndian address)
        pure x
    | _ => pure 0
  pure (if !access.sign then value
    else if access.bytes = 2 then (value.setWidth 16).signExtend 64
    else if access.bytes = 4 then (value.setWidth 32).signExtend 64
    else value)

/-- `store_scalar`. -/
def storeScalar (address : GuestAddress) (access : ScalarAccess) (value : BitVec 64) :
    Run σ Unit :=
  match access.bytes with
  | 1 => ask h (.write8 address (value.setWidth 8))
  | 2 => ask h (.write16 access.littleEndian address (value.setWidth 16))
  | 4 => ask h (.write32 access.littleEndian address (value.setWidth 32))
  | 8 => ask h (.write64 access.littleEndian address value)
  | _ => pure ()

/-- A scalar load. -/
def executeLoad (i : DecodedInstruction) (access : ScalarAccess) : Run σ Unit := do
  let s ← getCpu
  let ea := effectiveAddress i s access
  let value ← loadScalar h ea access
  modifyCpu fun s => s.setGpr i.rt value
  if access.update then modifyCpu fun s => s.setGpr i.ra (ea.setWidth 64)

/-- A scalar store. -/
def executeStore (i : DecodedInstruction) (access : ScalarAccess) : Run σ Unit := do
  let s ← getCpu
  let ea := effectiveAddress i s access
  storeScalar h ea access (s.gpr i.rs)
  if access.update then modifyCpu fun s => s.setGpr i.ra (ea.setWidth 64)

/-- The address of an indexed form without update. -/
def indexedAddress (i : DecodedInstruction) (s : CpuState) : GuestAddress :=
  (baseOrZero i s + s.gpr i.rb).setWidth 32

/-- `lwarx`, `ldarx`. -/
def loadReserve (i : DecodedInstruction) (word : Bool) : Run σ Unit := do
  let s ← getCpu
  let ea := indexedAddress i s
  if s.reservation.valid then ask h (.cancelReservation s.reservation.token)
  let reserved : BitVec 64 × BitVec 64 ←
    if word then do
      let r : BitVec 64 × BitVec 32 ← ask h (.reserve32 ea)
      pure (r.1, r.2.setWidth 64)
    else do
      let r : BitVec 64 × BitVec 64 ← ask h (.reserve64 ea)
      pure r
  modifyCpu fun s =>
    { s with reservation := ⟨reserved.1 != 0, if word then 4 else 8, ea, reserved.2, reserved.1⟩ }
  modifyCpu fun s => s.setGpr i.rt reserved.2

/-- `stwcx`, `stdcx`. -/
def storeConditional (i : DecodedInstruction) (word : Bool) : Run σ Unit := do
  let s ← getCpu
  let ea := indexedAddress i s
  let stored : Bool ←
    if s.reservation.valid then
      if s.reservation.width = (if word then 4 else 8) then
        if word then do
          let b : Bool ← ask h (.storeConditional32 ea s.reservation.token
            ((s.gpr i.rs).setWidth 32))
          pure b
        else do
          let b : Bool ← ask h (.storeConditional64 ea s.reservation.token (s.gpr i.rs))
          pure b
      else do
        ask h (.cancelReservation s.reservation.token)
        pure false
    else pure false
  modifyCpu fun s => { s with reservation := .none }
  modifyCpu fun s => s.setCrField 0 ((if stored then 2 else 0) ||| (if s.xerSo then 1 else 0))

/-- One register of `lmw`, `stmw`. -/
def multipleOne (i : DecodedInstruction) (isLoad : Bool) (base : BitVec 64) (r : ℕ) :
    Run σ Unit := do
  let ea := (base + i.simm16.signExtend 64 + BitVec.ofNat 64 ((r - i.rt.toNat) * 4)).setWidth 32
  if isLoad then
    let x : BitVec 32 ← ask h (.read32 false ea)
    modifyCpu fun s => s.setGpr (BitVec.ofNat 5 r) (x.setWidth 64)
  else
    let s ← getCpu
    ask h (.write32 false ea ((s.gpr (BitVec.ofNat 5 r)).setWidth 32))

/-- `lmw`, `stmw`: registers RT to 31. -/
def multiple (i : DecodedInstruction) (isLoad : Bool) : Run σ Unit := do
  let s ← getCpu
  (List.range' i.rt.toNat (32 - i.rt.toNat)).forM (multipleOne h i isLoad (baseOrZero i s))

/-- The string moves. -/
def string (i : DecodedInstruction) (isLoad indexed : Bool) : Run σ Unit := do
  let s ← getCpu
  let ea := if indexed then indexedAddress i s else (baseOrZero i s).setWidth 32
  let count : BitVec 32 := if indexed then s.xer &&& 0x7F
    else if i.rb = 0 then 32 else i.rb.setWidth 32
  if isLoad then Aot.stringLoad h ea count i.rt else Aot.stringStore h ea count i.rt

/-- The forms of `execute_scalar_memory` after the scalar tables. -/
def executeOther (i : DecodedInstruction) : Run σ Bool := do
  match i.mnemonic with
  | .lwarx => loadReserve h i true
  | .ldarx => loadReserve h i false
  | .stwcx => storeConditional h i true
  | .stdcx => storeConditional h i false
  | .lmw => multiple h i true
  | .stmw => multiple h i false
  | .lswi => string h i true false
  | .lswx => string h i true true
  | .stswi => string h i false false
  | .stswx => string h i false true
  | _ => return false
  return true

/-- `execute_scalar_memory`. -/
def executeScalarMemory (i : DecodedInstruction) : Run σ Bool := do
  match loadAccess i.mnemonic, storeAccess i.mnemonic with
  | some access, _ =>
      executeLoad h i access
      return true
  | none, some access =>
      executeStore h i access
      return true
  | none, none => executeOther h i

end Fallback
end XenonRecomp
