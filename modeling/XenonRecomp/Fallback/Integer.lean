/-
# The interpreter: integer instructions

`write_compare`, `mask64` and `mask32` of
`src/cpu/codegen/fallback/fallback_interpreter.hpp` and `execute_integer` of
`src/cpu/codegen/fallback/interpreter/integer.cpp`.  Integer instructions call
nothing, so each family is a function of the processor state; assignments stand
in the order of the source.
-/

import XenonRecomp.Machine.Run
import XenonRecomp.Cpu.Instruction
import XenonRecomp.Aot.Scalar

namespace XenonRecomp
namespace Fallback

open Cpu Machine Run

section helpers

/-- `set_arch_bit` of the mask loops. -/
def setArchBit {w : ℕ} (mask : BitVec w) (bit : ℕ) : BitVec w := mask ||| 1#w <<< (w - 1 - bit)

/-- The loops of `mask64` and `mask32`: bits `mb` to `me`, or around the end. -/
def maskLoop (w mb me : ℕ) : BitVec w :=
  if mb ≤ me then (List.range' mb (me + 1 - mb)).foldl setArchBit 0
  else (List.range (me + 1)).foldl setArchBit ((List.range' mb (w - mb)).foldl setArchBit 0)

/-- `mask64`. -/
def mask64 (mb me : ℕ) : BitVec 64 := maskLoop 64 (mb % 64) (me % 64)

/-- `mask32`. -/
def mask32 (mb me : ℕ) : BitVec 32 := maskLoop 32 (mb % 32) (me % 32)

/-- `write_compare`. -/
def writeCompare (s : CpuState) (field : ℕ) (lhs rhs : BitVec 64) (logical word : Bool) :
    CpuState :=
  let lt := if word then
      (if logical then (lhs.setWidth 32).ult (rhs.setWidth 32)
        else (lhs.setWidth 32).slt (rhs.setWidth 32))
    else if logical then lhs.ult rhs else lhs.slt rhs
  let gt := if word then
      (if logical then (rhs.setWidth 32).ult (lhs.setWidth 32)
        else (rhs.setWidth 32).slt (lhs.setWidth 32))
    else if logical then rhs.ult lhs else rhs.slt lhs
  s.setCrField field ((if lt then 0x8 else if gt then 0x4 else 0x2) |||
    (if s.xerSo then 1 else 0))

/-- `if (rc) state.update_cr0_signed(value)`. -/
def recordCr0 (record : Bool) (value : BitVec 64) (s : CpuState) : CpuState :=
  if record then s.updateCr0Signed value else s

/-- `if (oe) state.set_xer_overflow(overflow)`. -/
def recordOverflow (oe overflow : Bool) (s : CpuState) : CpuState :=
  if oe then s.setXerOverflow overflow else s

end helpers

section families

variable (i : DecodedInstruction) (s : CpuState)

/-- `addi`, `addis`. -/
def addImmediate (shifted : Bool) : CpuState :=
  let base := if i.ra ≠ 0 then s.gpr i.ra else 0
  let imm := if shifted then i.simm16.signExtend 64 <<< 16 else i.simm16.signExtend 64
  s.setGpr i.rt (base + imm)

/-- `addic`, `addicx`. -/
def addCarryImmediate (record : Bool) : CpuState :=
  let a := s.gpr i.ra
  let value := a + i.simm16.signExtend 64
  recordCr0 record value ((s.setGpr i.rt value).setXerCa (value.ult a))

/-- The immediate logical forms. -/
def logicalImmediate (f : BitVec 64 → BitVec 64 → BitVec 64) (shifted record : Bool) : CpuState :=
  let imm := if shifted then i.uimm16.setWidth 64 <<< 16 else i.uimm16.setWidth 64
  let value := f (s.gpr i.rs) imm
  recordCr0 record value (s.setGpr i.ra value)

/-- `addx`, `subfx`. -/
def addSubtract (subtract : Bool) : CpuState :=
  let a := s.gpr i.ra
  let b := s.gpr i.rb
  let value := if subtract then b - a else a + b
  let overflow := if subtract then Aot.signedAddOverflow b (~~~a) true
    else Aot.signedAddOverflow a b false
  recordCr0 i.rc value (recordOverflow i.oe overflow (s.setGpr i.rt value))

/-- The carry arithmetic `addcx`, `addex`, `addmex`, `addzex`, `subfex`,
`subfmex`, `subfzex`, by its addends and the carry in. -/
def addCarrying (a b : BitVec 64) (carry : Bool) : CpuState :=
  let value := Aot.addCarry a b carry
  recordCr0 i.rc value (recordOverflow i.oe (Aot.signedAddOverflow a b carry)
    ((s.setGpr i.rt value).setXerCa (Aot.carryOut a b carry)))

/-- `addcx`, `addex`, `addmex`, `addzex`. -/
def addExtended (m : Mnemonic) : CpuState :=
  let b := if m = .addcx ∨ m = .addex then s.gpr i.rb else if m = .addmex then ~~~0 else 0
  addCarrying i s (s.gpr i.ra) b (m ≠ .addcx && s.xerCa)

/-- `subfcx`. -/
def subtractCarrying : CpuState :=
  let ra := s.gpr i.ra
  let rb := s.gpr i.rb
  let value := rb - ra
  recordCr0 i.rc value (recordOverflow i.oe (Aot.signedAddOverflow rb (~~~ra) true)
    ((s.setGpr i.rt value).setXerCa (ra.ule rb)))

/-- `subfex`, `subfmex`, `subfzex`. -/
def subtractExtended (m : Mnemonic) : CpuState :=
  let lhs := if m = .subfex then s.gpr i.rb else if m = .subfmex then ~~~0 else 0
  addCarrying i s lhs (~~~s.gpr i.ra) s.xerCa

/-- `subficx`. -/
def subtractImmediate : CpuState :=
  let imm := i.simm16.signExtend 64
  let ra := s.gpr i.ra
  (s.setGpr i.rt (imm - ra)).setXerCa (ra.ule imm)

/-- The register logical operations. -/
def logicalResult (m : Mnemonic) (a b : BitVec 64) : BitVec 64 :=
  match m with
  | .andx => a &&& b
  | .andcx => a &&& ~~~b
  | .orx => a ||| b
  | .orcx => a ||| ~~~b
  | .xorx => a ^^^ b
  | .eqvx => ~~~(a ^^^ b)
  | .nandx => ~~~(a &&& b)
  | _ => ~~~(a ||| b)

/-- The register logical forms. -/
def logical (m : Mnemonic) : CpuState :=
  let value := logicalResult m (s.gpr i.rs) (s.gpr i.rb)
  recordCr0 i.rc value (s.setGpr i.ra value)

/-- `negx`; OE is not looked at. -/
def negate : CpuState :=
  let value := 0 - s.gpr i.ra
  recordCr0 i.rc value (s.setGpr i.rt value)

/-- `mulli`. -/
def multiplyImmediate : CpuState := s.setGpr i.rt (s.gpr i.ra * i.simm16.signExtend 64)

/-- `mulldx`, `mullwx`; OE is not looked at. -/
def multiply (word : Bool) : CpuState :=
  let cut (x : BitVec 64) : BitVec 64 := if word then (x.setWidth 32).setWidth 64 else x
  let product := cut (s.gpr i.ra) * cut (s.gpr i.rb)
  let value := if word then (product.setWidth 32).signExtend 64 else product
  recordCr0 i.rc value (s.setGpr i.rt value)

/-- A result of 32 bits in a register. -/
def wordResult (word uns : Bool) (value : BitVec 64) : BitVec 64 :=
  if word then (if uns then (value.setWidth 32).setWidth 64 else (value.setWidth 32).signExtend 64)
  else value

/-- `mulhdx`, `mulhdux`, `mulhwx`, `mulhwux`. -/
def multiplyHigh (word uns : Bool) : CpuState :=
  let a := s.gpr i.ra
  let c := s.gpr i.rb
  let value := wordResult word uns
    (if uns then Aot.mulHiUnsignedWidth a c word else Aot.mulHiSignedWidth a c word)
  recordCr0 i.rc value (s.setGpr i.rt value)

/-- `divdx`, `divdux`, `divwx`, `divwux`; OE is not looked at. -/
def divide (word uns : Bool) : CpuState :=
  let a := s.gpr i.ra
  let c := s.gpr i.rb
  let value := wordResult word uns
    (if uns then Aot.divUnsigned a c word else Aot.divSigned a c word)
  recordCr0 i.rc value (s.setGpr i.rt value)

/-- `extsbx`, `extshx`, `extswx`, by the width. -/
def extend (w : ℕ) : CpuState :=
  let value := ((s.gpr i.rs).setWidth w).signExtend 64
  recordCr0 i.rc value (s.setGpr i.ra value)

/-- `cmp`, `cmpl`, `cmpi`, `cmpli`. -/
def compare (logical immediate : Bool) : CpuState :=
  let word := !i.word.getLsbD 21
  let rhs := if immediate then
      (if logical then i.uimm16.setWidth 64 else i.simm16.signExtend 64)
    else s.gpr i.rb
  writeCompare s i.crfd.toNat (s.gpr i.ra) rhs logical word

/-- `rlwinmx`, `rlwimix`, `rlwnmx`. -/
def rotateWord (m : Mnemonic) : CpuState :=
  let src := (s.gpr i.rs).setWidth 32
  let shift := if m = .rlwnmx then (s.gpr i.rb &&& 31).toNat else i.sh32.toNat
  let mask := mask32 i.mb32.toNat i.me32.toNat
  let result := src.rotateLeft shift &&& mask
  let result := if m = .rlwimix then ((s.gpr i.ra).setWidth 32 &&& ~~~mask) ||| result else result
  recordCr0 i.rc (result.setWidth 64) (s.setGpr i.ra (result.setWidth 64))

/-- The doubleword rotates. -/
def rotateDouble (m : Mnemonic) : CpuState :=
  let byRegister := m = .rldclx ∨ m = .rldcrx
  let shift := if byRegister then (s.gpr i.rb &&& 63).toNat else i.sh64Md.toNat
  let field := i.mb64Md.toNat
  let mb := if m = .rldicrx ∨ m = .rldcrx then 0 else field
  let me := if m = .rldicrx ∨ m = .rldcrx then field
    else if m = .rldicx ∨ m = .rldimix then 63 - shift else 63
  let mask := mask64 mb me
  let result := (s.gpr i.rs).rotateLeft shift &&& mask
  let result := if m = .rldimix then (s.gpr i.ra &&& ~~~mask) ||| result else result
  recordCr0 i.rc result (s.setGpr i.ra result)

/-- The shifts by a register.  The carry is computed from the registers after RA
has been written. -/
def shift (m : Mnemonic) : CpuState :=
  let value := Aot.ppcShift m (s.gpr i.rs) (s.gpr i.rb)
  let s := s.setGpr i.ra value
  let s := if m = .srawx ∨ m = .sradx then
      s.setXerCa (Aot.ppcShiftCarry m (s.gpr i.rs) (s.gpr i.rb)) else s
  recordCr0 i.rc value s

/-- `srawix`, `sradix`.  The carry is computed from RS after RA has been written. -/
def shiftImmediate (m : Mnemonic) : CpuState :=
  let amount : BitVec 64 := if m = .srawix then i.sh32.setWidth 64 else i.sh64Md.setWidth 64
  let value := Aot.ppcShift m (s.gpr i.rs) amount
  let s := s.setGpr i.ra value
  let s := s.setXerCa (Aot.ppcShiftCarry m (s.gpr i.rs) amount)
  recordCr0 i.rc value s

/-- `cntlzwx`, `cntlzdx`. -/
def countLeadingZeros (word : Bool) : CpuState :=
  let src := s.gpr i.rs
  let value := if word then ((src.setWidth 32).clz).setWidth 64 else src.clz
  recordCr0 i.rc value (s.setGpr i.ra value)

/-- The state after an integer instruction, if it is one. -/
def integerState : Option CpuState :=
  let m := i.mnemonic
  match m with
  | .addi | .addis => some (addImmediate i s (m = .addis))
  | .addic | .addicx => some (addCarryImmediate i s (m = .addicx))
  | .ori => some (logicalImmediate i s (· ||| ·) false false)
  | .oris => some (logicalImmediate i s (· ||| ·) true false)
  | .xori => some (logicalImmediate i s (· ^^^ ·) false false)
  | .xoris => some (logicalImmediate i s (· ^^^ ·) true false)
  | .andix => some (logicalImmediate i s (· &&& ·) false true)
  | .andisx => some (logicalImmediate i s (· &&& ·) true true)
  | .addx | .subfx => some (addSubtract i s (m = .subfx))
  | .addcx | .addex | .addmex | .addzex => some (addExtended i s m)
  | .subfcx => some (subtractCarrying i s)
  | .subfex | .subfmex | .subfzex => some (subtractExtended i s m)
  | .subficx => some (subtractImmediate i s)
  | .andx | .andcx | .orx | .orcx | .xorx | .eqvx | .nandx | .norx => some (logical i s m)
  | .negx => some (negate i s)
  | .mulli => some (multiplyImmediate i s)
  | .mulldx | .mullwx => some (multiply i s (m = .mullwx))
  | .mulhdx => some (multiplyHigh i s false false)
  | .mulhdux => some (multiplyHigh i s false true)
  | .mulhwx => some (multiplyHigh i s true false)
  | .mulhwux => some (multiplyHigh i s true true)
  | .divdx => some (divide i s false false)
  | .divdux => some (divide i s false true)
  | .divwx => some (divide i s true false)
  | .divwux => some (divide i s true true)
  | .extsbx => some (extend i s 8)
  | .extshx => some (extend i s 16)
  | .extswx => some (extend i s 32)
  | .cmp => some (compare i s false false)
  | .cmpl => some (compare i s true false)
  | .cmpi => some (compare i s false true)
  | .cmpli => some (compare i s true true)
  | .rlwinmx | .rlwimix | .rlwnmx => some (rotateWord i s m)
  | .rldiclx | .rldicrx | .rldicx | .rldimix | .rldclx | .rldcrx => some (rotateDouble i s m)
  | .slwx | .srwx | .srawx | .sldx | .srdx | .sradx => some (shift i s m)
  | .srawix | .sradix => some (shiftImmediate i s m)
  | .cntlzwx | .cntlzdx => some (countLeadingZeros i s (m = .cntlzwx))
  | _ => none

end families

/-- `execute_integer`. -/
def executeInteger {σ : Type} (i : DecodedInstruction) : Run σ Bool := do
  let s ← getCpu
  match integerState i s with
  | some s' =>
      setCpu s'
      return true
  | none => return false

end Fallback
end XenonRecomp
