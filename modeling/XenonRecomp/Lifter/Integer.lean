/-
# Lifting integer instructions

`Lifter::lift_integer` of `src/cpu/ppc/lifter/integer.cpp`.  Each family of
mnemonics is one definition; `liftInteger` picks the family.  An action returns
whether the instruction was lowered.
-/

import XenonRecomp.Ir.Builder

namespace XenonRecomp
namespace Lifter

open Cpu Ir

/-- `mask64`, `mask32`: ones from architectural bit `mb` (the top bit is `0`)
through `me`, around the end when `mb > me`. -/
def archMask (w : ℕ) (mb me : ℕ) : BitVec w :=
  (List.range w).foldl
    (fun mask p =>
      if if mb ≤ me then mb ≤ p ∧ p ≤ me else mb ≤ p ∨ p ≤ me then
        mask ||| 1#w <<< (w - 1 - p)
      else mask) 0

/-- `mask64`. -/
def mask64 (mb me : ℕ) : BitVec 64 := archMask 64 (mb % 64) (me % 64)

/-- `mask32`. -/
def mask32 (mb me : ℕ) : BitVec 32 := archMask 32 (mb % 32) (me % 32)

/-- `emit_binary`. -/
def emitBinary (op : Op) (a c : ValueId) (t : IrType := .i64) : Build ValueId := emit op t [a, c]

/-- `emit_cr0`: field 0 from the sign of a value and XER.SO. -/
def emitCr0 (v : ValueId) : Build Unit := do
  let z ← constantI64 0
  let lt ← emit .compareSlt .i1 [v, z]
  let gt ← emit .compareSgt .i1 [v, z]
  let eq ← emit .compareEq .i1 [v, z]
  let so ← emit .readXerSO .i1 []
  emitVoid .writeCRCompare [lt, gt, eq, so] 0

/-- `emit_cr0` under the record bit. -/
def emitCr0If (record : Bool) (v : ValueId) : Build Unit :=
  if record then emitCr0 v else pure ()

/-- `set_xer_overflow`: OV follows the operation, SO is sticky. -/
def setXerOverflow (overflow : ValueId) : Build Unit := do
  let oldSo ← emit .readXerSO .i1 []
  let newSo ← emit .or .i1 [oldSo, overflow]
  emitVoid .setXerOV [overflow]
  emitVoid .setXerSO [newSo]

/-- `emit_ca_from_add`: the carry of a two-input addition. -/
def emitCaFromAdd (a sum : ValueId) : Build Unit := do
  let carry ← emit .compareUlt .i1 [sum, a]
  emitVoid .setXerCA [carry]

/-- The sign bit of the conjunction of two values, as an overflow. -/
def emitOverflowSign (x y : ValueId) : Build Unit := do
  let both ← emitBinary .and x y
  let sign ← constantI64 0x8000000000000000
  let masked ← emitBinary .and both sign
  let z ← constantI64 0
  let ov ← emit .compareNe .i1 [masked, z]
  setXerOverflow ov

/-- `emit_overflow_add`. -/
def emitOverflowAdd (a c sum : ValueId) : Build Unit := do
  let axr ← emitBinary .xor a sum
  let bxr ← emitBinary .xor c sum
  emitOverflowSign axr bxr

/-- `emit_overflow_sub`: the overflow of `a - c`. -/
def emitOverflowSub (a c result : ValueId) : Build Unit := do
  let axc ← emitBinary .xor a c
  let axr ← emitBinary .xor a result
  emitOverflowSign axc axr

/-- `set_ca3`. -/
def setCa3 (a c carry : ValueId) : Build Unit := do
  let out ← emit .carryOut .i1 [a, c, carry] 64
  emitVoid .setXerCA [out]

/-- `set_ov3`. -/
def setOv3 (a c carry : ValueId) (variant : BitVec 64) : Build Unit := do
  let out ← emit .signedOverflow .i1 [a, c, carry] 64 variant
  setXerOverflow out

/-- `a ≥ c` unsigned, as the carry of `a - c`. -/
def setCaNoBorrow (a c : ValueId) : Build Unit := do
  let gt ← emit .compareUgt .i1 [a, c]
  let eq ← emit .compareEq .i1 [a, c]
  let ca ← emit .or .i1 [gt, eq]
  emitVoid .setXerCA [ca]

/-- A value narrowed to 32 bits when `word`. -/
def narrow (word : Bool) (v : ValueId) : Build ValueId :=
  if word then emit .truncate .i32 [v] else pure v

/-- The `addi`, `addis` family. -/
def liftAddImmediate (i : DecodedInstruction) (shifted : Bool) : Build Unit := do
  let a ← if i.ra ≠ 0 then readGpr i.ra else constantI64 0
  let c ← constantI64 (if shifted then i.simm16.signExtend 64 <<< 16 else i.simm16.signExtend 64)
  let r ← emitBinary .add a c
  writeGpr i.rt r

/-- The `addx`, `addcx` family. -/
def liftAdd (i : DecodedInstruction) (carrying : Bool) : Build Unit := do
  let a ← readGpr i.ra
  let c ← readGpr i.rb
  let r ← emitBinary .add a c
  writeGpr i.rt r
  if carrying then emitCaFromAdd a r
  if i.oe then emitOverflowAdd a c r
  emitCr0If i.rc r

/-- The `addic`, `addicx` family. -/
def liftAddCarryImmediate (i : DecodedInstruction) (record : Bool) : Build Unit := do
  let a ← readGpr i.ra
  let c ← constantI64 (i.simm16.signExtend 64)
  let r ← emitBinary .add a c
  writeGpr i.rt r
  emitCaFromAdd a r
  emitCr0If record r

/-- The `addex`, `addmex`, `addzex` family: the second addend is RB, minus one
or zero. -/
def liftAddExtended (i : DecodedInstruction) (m : Mnemonic) : Build Unit := do
  let a ← readGpr i.ra
  let ca ← emit .readXerCA .i1 []
  let c ← if m = .addex then readGpr i.rb
    else if m = .addmex then constantI64 (-1) else constantI64 0
  let r ← emit .addCarry .i64 [a, c, ca]
  writeGpr i.rt r
  setCa3 a c ca
  if i.oe then setOv3 a c ca 0
  emitCr0If i.rc r

/-- The `subfex`, `subfmex`, `subfzex` family. -/
def liftSubtractExtended (i : DecodedInstruction) (m : Mnemonic) : Build Unit := do
  let ra ← readGpr i.ra
  let nra ← emit .not .i64 [ra]
  let ca ← emit .readXerCA .i1 []
  let lhs ← if m = .subfex then readGpr i.rb
    else if m = .subfmex then constantI64 (-1) else constantI64 0
  let r ← emit .addCarry .i64 [lhs, nra, ca]
  writeGpr i.rt r
  setCa3 lhs nra ca
  if i.oe then setOv3 lhs nra ca 1
  emitCr0If i.rc r

/-- The `subfx`, `subfcx` family: RB minus RA. -/
def liftSubtract (i : DecodedInstruction) (carrying : Bool) : Build Unit := do
  let a ← readGpr i.rb
  let c ← readGpr i.ra
  let r ← emitBinary .sub a c
  writeGpr i.rt r
  if carrying then setCaNoBorrow a c
  if i.oe then emitOverflowSub a c r
  emitCr0If i.rc r

/-- `subficx`. -/
def liftSubtractImmediate (i : DecodedInstruction) : Build Unit := do
  let a ← constantI64 (i.simm16.signExtend 64)
  let c ← readGpr i.ra
  let r ← emitBinary .sub a c
  writeGpr i.rt r
  setCaNoBorrow a c

/-- `mulli`. -/
def liftMultiplyImmediate (i : DecodedInstruction) : Build Unit := do
  let a ← readGpr i.ra
  let c ← constantI64 (i.simm16.signExtend 64)
  let r ← emitBinary .mul a c
  writeGpr i.rt r

/-- The `mulldx`, `mullwx` family. -/
def liftMultiply (i : DecodedInstruction) (word : Bool) : Build Unit := do
  let a ← readGpr i.ra
  let c ← readGpr i.rb
  let a ← narrow word a
  let c ← narrow word c
  let r ← emit .mul (if word then .i32 else .i64) [a, c]
  let r ← if word then emit .signExtend .i64 [r] else pure r
  writeGpr i.rt r
  if i.oe then
    let ov ← emit .mulOverflowSigned .i1 [a, c] (if word then 32 else 64)
    setXerOverflow ov
  emitCr0If i.rc r

/-- The result of a 32-bit operation widened to 64 bits. -/
def widen (word uns : Bool) (r : ValueId) : Build ValueId :=
  if word then emit (if uns then .zeroExtend else .signExtend) .i64 [r] else pure r

/-- The `mulhdx`, `mulhdux`, `mulhwx`, `mulhwux` family. -/
def liftMultiplyHigh (i : DecodedInstruction) (word uns : Bool) : Build Unit := do
  let a ← readGpr i.ra
  let c ← readGpr i.rb
  let a ← narrow word a
  let c ← narrow word c
  let r ← emit (if uns then .mulHighUnsigned else .mulHighSigned)
    (if word then .i32 else .i64) [a, c]
  let r ← widen word uns r
  writeGpr i.rt r
  emitCr0If i.rc r

/-- The `divdx`, `divdux`, `divwx`, `divwux` family. -/
def liftDivide (i : DecodedInstruction) (word uns : Bool) : Build Unit := do
  let a ← readGpr i.ra
  let c ← readGpr i.rb
  let a ← narrow word a
  let c ← narrow word c
  let r ← emit (if uns then .divUnsigned else .divSigned) (if word then .i32 else .i64) [a, c]
    (if word then 32 else 64) (if i.oe then 1 else 0)
  let r ← widen word uns r
  writeGpr i.rt r
  if i.oe then
    let ov ← emit .divOverflow .i1 [a, c] (if word then 32 else 64) (if uns then 1 else 0)
    setXerOverflow ov
  emitCr0If i.rc r

/-- `negx`. -/
def liftNegate (i : DecodedInstruction) : Build Unit := do
  let a ← readGpr i.ra
  let r ← emit .neg .i64 [a]
  writeGpr i.rt r
  if i.oe then
    let minv ← constantI64 0x8000000000000000
    let ov ← emit .compareEq .i1 [a, minv]
    setXerOverflow ov
  emitCr0If i.rc r

/-- The value of a register-register logical operation. -/
def emitLogical (m : Mnemonic) (a c : ValueId) : Build ValueId := do
  match m with
  | .andx => emitBinary .and a c
  | .andcx =>
      let nc ← emit .not .i64 [c]
      emitBinary .and a nc
  | .orx => emitBinary .or a c
  | .orcx =>
      let nc ← emit .not .i64 [c]
      emitBinary .or a nc
  | .xorx => emitBinary .xor a c
  | .eqvx =>
      let x ← emitBinary .xor a c
      emit .not .i64 [x]
  | .nandx =>
      let x ← emitBinary .and a c
      emit .not .i64 [x]
  | _ =>
      let x ← emitBinary .or a c
      emit .not .i64 [x]

/-- The register-register logical family. -/
def liftLogical (i : DecodedInstruction) (m : Mnemonic) : Build Unit := do
  let a ← readGpr i.rs
  let c ← readGpr i.rb
  let r ← emitLogical m a c
  writeGpr i.ra r
  emitCr0If i.rc r

/-- The register-immediate logical family. -/
def liftLogicalImmediate (i : DecodedInstruction) (op : Op) (shifted record : Bool) :
    Build Unit := do
  let a ← readGpr i.rs
  let c ← constantI64 (if shifted then i.uimm16.setWidth 64 <<< 16 else i.uimm16.setWidth 64)
  let r ← emitBinary op a c
  writeGpr i.ra r
  emitCr0If record r

/-- The `extsbx`, `extshx`, `extswx` family. -/
def liftExtend (i : DecodedInstruction) (t : IrType) : Build Unit := do
  let a ← readGpr i.rs
  let narrowed ← emit .truncate t [a]
  let r ← emit .signExtend .i64 [narrowed]
  writeGpr i.ra r
  emitCr0If i.rc r

/-- The `cntlzdx`, `cntlzwx` family. -/
def liftCountLeadingZeros (i : DecodedInstruction) (word : Bool) : Build Unit := do
  let src ← readGpr i.rs
  let src ← narrow word src
  let r ← emit .countLeadingZeros (if word then .i32 else .i64) [src]
  let r ← widen word true r
  writeGpr i.ra r
  emitCr0If i.rc r

/-- The `cmp`, `cmpl`, `cmpi`, `cmpli` family; bit 21 of the word selects
doublewords. -/
def liftCompare (i : DecodedInstruction) (logical immediate : Bool) : Build Unit := do
  let word := !i.word.getLsbD 21
  let a ← readGpr i.ra
  let c ← if immediate then
      constantI64 (if logical then i.uimm16.setWidth 64 else i.simm16.signExtend 64)
    else readGpr i.rb
  let a ← narrow word a
  let c ← narrow word c
  let lt ← emit (if logical then .compareUlt else .compareSlt) .i1 [a, c]
  let gt ← emit (if logical then .compareUgt else .compareSgt) .i1 [a, c]
  let eq ← emit .compareEq .i1 [a, c]
  let so ← emit .readXerSO .i1 []
  emitVoid .writeCRCompare [lt, gt, eq, so] (i.crfd.setWidth 64)

/-- The `rlwinmx`, `rlwimix`, `rlwnmx` family. -/
def liftRotateWord (i : DecodedInstruction) (m : Mnemonic) : Build Unit := do
  let src64 ← readGpr i.rs
  let src ← emit .truncate .i32 [src64]
  let shift ← if m = .rlwnmx then do
      let rb ← readGpr i.rb
      emit .truncate .i32 [rb]
    else constantI64 (i.sh32.setWidth 64)
  let rot ← emit .rotl .i32 [src, shift]
  let mask ← constantI64 ((mask32 i.mb32.toNat i.me32.toNat).setWidth 64)
  let selected ← emit .and .i32 [rot, mask]
  let result ← if m = .rlwimix then do
      let old64 ← readGpr i.ra
      let old ← emit .truncate .i32 [old64]
      let invmask ← constantI64
        (~~~((mask32 i.mb32.toNat i.me32.toNat).setWidth 64) &&& 0xFFFFFFFF)
      let kept ← emit .and .i32 [old, invmask]
      emit .or .i32 [kept, selected]
    else pure selected
  let wide ← emit .zeroExtend .i64 [result]
  writeGpr i.ra wide
  emitCr0If i.rc wide

/-- The `rldclx`, `rldcrx` family: the count is the low six bits of RB. -/
def liftRotateDoubleRegister (i : DecodedInstruction) (left : Bool) : Build Unit := do
  let src ← readGpr i.rs
  let rb ← readGpr i.rb
  let sixty3 ← constantI64 63
  let sh ← emit .and .i64 [rb, sixty3]
  let rot ← emit .rotl .i64 [src, sh]
  let mask ← constantI64 (if left then mask64 i.mb64Md.toNat 63 else mask64 0 i.mb64Md.toNat)
  let r ← emit .and .i64 [rot, mask]
  writeGpr i.ra r
  emitCr0If i.rc r

/-- The mask of an immediate doubleword rotate. -/
def rotateDoubleMask (i : DecodedInstruction) (m : Mnemonic) : BitVec 64 :=
  let field := i.mb64Md.toNat
  if m = .rldicrx then mask64 0 field
  else if m = .rldicx ∨ m = .rldimix then mask64 field (63 - i.sh64Md.toNat)
  else mask64 field 63

/-- The `rldiclx`, `rldicrx`, `rldicx`, `rldimix` family. -/
def liftRotateDouble (i : DecodedInstruction) (m : Mnemonic) : Build Unit := do
  let src ← readGpr i.rs
  let sh ← constantI64 (i.sh64Md.setWidth 64)
  let rot ← emit .rotl .i64 [src, sh]
  let mask ← constantI64 (rotateDoubleMask i m)
  let selected ← emit .and .i64 [rot, mask]
  let result ← if m = .rldimix then do
      let old ← readGpr i.ra
      let inv ← constantI64 (~~~rotateDoubleMask i m)
      let kept ← emit .and .i64 [old, inv]
      emit .or .i64 [kept, selected]
    else pure selected
  writeGpr i.ra result
  emitCr0If i.rc result

/-- The `sync`, `eieio`, `isync` family. -/
def liftBarrier (i : DecodedInstruction) (m : Mnemonic) : Build Unit := do
  let l : BitVec 64 := (i.word.extractLsb' 21 2).setWidth 64
  let kind : BitVec 64 := if m = .sync then (if l = 1 then 2 else 1)
    else if m = .eieio then 3 else 4
  emitVoid .barrier [] kind l

/-- The shift family.  The arithmetic right shifts also set XER.CA. -/
def liftShift (i : DecodedInstruction) (m : Mnemonic) : Build Unit := do
  let src ← readGpr i.rs
  let sh ← if m = .srawix then constantI64 (i.rb.setWidth 64)
    else if m = .sradix then constantI64 (i.sh64Md.setWidth 64)
    else readGpr i.rb
  let r ← emit .ppcShift .i64 [src, sh] (i.info.pattern.setWidth 64) (i.word.setWidth 64)
  writeGpr i.ra r
  if m.startsWith "sra" then
    let ca ← emit .ppcShiftCarry .i1 [src, sh] (i.info.pattern.setWidth 64) (i.word.setWidth 64)
    emitVoid .setXerCA [ca]
  emitCr0If i.rc r

/-- `lift_integer`. -/
def liftInteger (i : DecodedInstruction) : Build Bool := do
  let m := i.mnemonic
  match m with
  | .addi | .addis => liftAddImmediate i (m = .addis)
  | .addx | .addcx => liftAdd i (m = .addcx)
  | .addic | .addicx => liftAddCarryImmediate i (m = .addicx)
  | .addex | .addmex | .addzex => liftAddExtended i m
  | .subfex | .subfmex | .subfzex => liftSubtractExtended i m
  | .subfx | .subfcx => liftSubtract i (m = .subfcx)
  | .subficx => liftSubtractImmediate i
  | .mulli => liftMultiplyImmediate i
  | .mulldx | .mullwx => liftMultiply i (m = .mullwx)
  | .mulhdx => liftMultiplyHigh i false false
  | .mulhdux => liftMultiplyHigh i false true
  | .mulhwx => liftMultiplyHigh i true false
  | .mulhwux => liftMultiplyHigh i true true
  | .divdx => liftDivide i false false
  | .divdux => liftDivide i false true
  | .divwx => liftDivide i true false
  | .divwux => liftDivide i true true
  | .negx => liftNegate i
  | .andx | .andcx | .orx | .orcx | .xorx | .eqvx | .nandx | .norx => liftLogical i m
  | .ori => liftLogicalImmediate i .or false false
  | .oris => liftLogicalImmediate i .or true false
  | .xori => liftLogicalImmediate i .xor false false
  | .xoris => liftLogicalImmediate i .xor true false
  | .andix => liftLogicalImmediate i .and false true
  | .andisx => liftLogicalImmediate i .and true true
  | .extsbx => liftExtend i .i8
  | .extshx => liftExtend i .i16
  | .extswx => liftExtend i .i32
  | .cntlzdx | .cntlzwx => liftCountLeadingZeros i (m = .cntlzwx)
  | .cmp => liftCompare i false false
  | .cmpl => liftCompare i true false
  | .cmpi => liftCompare i false true
  | .cmpli => liftCompare i true true
  | .rlwinmx | .rlwimix | .rlwnmx => liftRotateWord i m
  | .rldclx | .rldcrx => liftRotateDoubleRegister i (m = .rldclx)
  | .rldiclx | .rldicrx | .rldicx | .rldimix => liftRotateDouble i m
  | .sync | .eieio | .isync => liftBarrier i m
  | .slwx | .srwx | .srawx | .srawix | .sldx | .srdx | .sradx | .sradix => liftShift i m
  | _ => return false
  return true

end Lifter
end XenonRecomp
