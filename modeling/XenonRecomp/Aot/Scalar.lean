/-
# Scalar helpers of compiled code

The integer, FPSCR and MSR helpers of `include/xenon/cpu/aot_semantics.hpp`.
Compiled code and the interpreter call the same helpers, so each is defined
once.  A helper that the source gives a `width` of 32 or 64 takes `word` here.
-/

import XenonRecomp.Cpu.Mnemonic
import XenonRecomp.Cpu.State

namespace XenonRecomp
namespace Aot

open Cpu

/-- `add_carry`. -/
def addCarry (a b : BitVec 64) (carry : Bool) : BitVec 64 :=
  a + b + (BitVec.ofBool carry).setWidth 64

/-- `carry_out`. -/
def carryOut (a b : BitVec 64) (carry : Bool) : Bool :=
  (a + b).ult a || (a + b + (BitVec.ofBool carry).setWidth 64).ult (a + b)

/-- `signed_add_overflow`. -/
def signedAddOverflow (a b : BitVec 64) (carry : Bool) : Bool :=
  let r := addCarry a b carry
  (a ^^^ r) &&& (b ^^^ r) &&& (1#64 <<< 63) != 0

/-- `mul_hi_unsigned`: the high half from four partial products. -/
def mulHiUnsigned (a b : BitVec 64) : BitVec 64 :=
  let low (x : BitVec 64) : BitVec 64 := (x.setWidth 32).setWidth 64
  let p00 := low a * low b
  let p01 := low a * (b >>> 32)
  let p10 := (a >>> 32) * low b
  let p11 := (a >>> 32) * (b >>> 32)
  let middle := (p00 >>> 32) + low p01 + low p10
  p11 + (p01 >>> 32) + (p10 >>> 32) + (middle >>> 32)

/-- `mul_hi_signed`. -/
def mulHiSigned (a b : BitVec 64) : BitVec 64 :=
  let hi := mulHiUnsigned a b
  let hi := if a.slt 0 then hi - b else hi
  if b.slt 0 then hi - a else hi

/-- `mul_hi_signed_width`. -/
def mulHiSignedWidth (a b : BitVec 64) (word : Bool) : BitVec 64 :=
  if word then
    let p := (a.setWidth 32).signExtend 64 * (b.setWidth 32).signExtend 64
    ((p >>> 32).setWidth 32).setWidth 64
  else mulHiSigned a b

/-- `mul_hi_unsigned_width`. -/
def mulHiUnsignedWidth (a b : BitVec 64) (word : Bool) : BitVec 64 :=
  if word then
    let p := (a.setWidth 32).setWidth 64 * (b.setWidth 32).setWidth 64
    ((p >>> 32).setWidth 32).setWidth 64
  else mulHiUnsigned a b

/-- `mul_overflow_signed`: the product leaves the signed range.  For doublewords
the source divides the bounds by one factor; the quotients of the bounds, cut
toward zero, decide. -/
def mulOverflowSigned (a b : BitVec 64) (word : Bool) : Bool :=
  if word then
    let p := (a.setWidth 32).toInt * (b.setWidth 32).toInt
    decide (p > 2 ^ 31 - 1) || decide (p < -2 ^ 31)
  else
    let x := a.toInt
    let y := b.toInt
    let hi : ℤ := 2 ^ 63 - 1
    let lo : ℤ := -2 ^ 63
    if x = 0 ∨ y = 0 then false
    else if x = -1 then decide (y = lo)
    else if y = -1 then decide (x = lo)
    else if x > 0 then
      if y > 0 then decide (x > hi.tdiv y) else decide (y < lo.tdiv x)
    else if y > 0 then decide (x < lo.tdiv y)
    else decide (y < hi.tdiv x)

/-- Signed division at one width; zero where it is undefined. -/
def divSignedAt {w : ℕ} (x y : BitVec w) : BitVec w :=
  if y = 0 ∨ (x = BitVec.intMin w ∧ y = -1) then 0 else x.sdiv y

/-- `div_signed`. -/
def divSigned (a b : BitVec 64) (word : Bool) : BitVec 64 :=
  if word then (divSignedAt (a.setWidth 32) (b.setWidth 32)).setWidth 64 else divSignedAt a b

/-- `div_unsigned`; zero for a zero divisor. -/
def divUnsigned (a b : BitVec 64) (word : Bool) : BitVec 64 :=
  if word then (a.setWidth 32 / b.setWidth 32).setWidth 64 else a / b

/-- `div_overflow`. -/
def divOverflow (a b : BitVec 64) (word uns : Bool) : Bool :=
  if uns then (if word then b.setWidth 32 == 0 else b == 0)
  else if word then
    b.setWidth 32 == 0 || (a.setWidth 32 == BitVec.intMin 32 && b.setWidth 32 == -1)
  else b == 0 || (a == BitVec.intMin 64 && b == -1)

/-- `ppc_shift`: the shift amount has one bit more than the width needs. -/
def ppcShift (m : Mnemonic) (value shift : BitVec 64) : BitVec 64 :=
  let sh6 := (shift &&& 0x3F).toNat
  let sh7 := (shift &&& 0x7F).toNat
  match m with
  | .slwx => if sh6 ≥ 32 then 0 else (value.setWidth 32 <<< sh6).setWidth 64
  | .srwx => if sh6 ≥ 32 then 0 else (value.setWidth 32 >>> sh6).setWidth 64
  | .srawx | .srawix =>
      let v := value.setWidth 32
      let r := if sh6 ≥ 32 then (if v.slt 0 then -1 else 0) else v.sshiftRight sh6
      r.signExtend 64
  | .sldx => if sh7 ≥ 64 then 0 else value <<< sh7
  | .srdx => if sh7 ≥ 64 then 0 else value >>> sh7
  | .sradx | .sradix =>
      if sh7 ≥ 64 then (if value.slt 0 then -1 else 0) else value.sshiftRight sh7
  | _ => value

/-- `ppc_shift_carry`: a one was shifted out of a negative value. -/
def ppcShiftCarry (m : Mnemonic) (value shift : BitVec 64) : Bool :=
  let sh6 := (shift &&& 0x3F).toNat
  let sh7 := (shift &&& 0x7F).toNat
  match m with
  | .srawx | .srawix =>
      if !(value.setWidth 32).slt 0 || sh6 == 0 then false
      else if sh6 ≥ 32 then true
      else value.setWidth 32 &&& ((1#32 <<< sh6) - 1) != 0
  | .sradx | .sradix =>
      if !value.slt 0 || sh7 == 0 then false
      else if sh7 ≥ 64 then true
      else value &&& ((1#64 <<< sh7) - 1) != 0
  | _ => false

/-- `update_cr6_from_vector_compare`. -/
def updateCr6FromVectorCompare (s : CpuState) (v : Vector128) : CpuState :=
  s.setCrField 6
    ((if (List.finRange 16).all fun i => v.bytes i == 0xFF then 0x8#8 else 0) |||
      (if (List.finRange 16).all fun i => v.bytes i == 0 then 0x2#8 else 0))

/-- `trap_condition`. -/
def trapCondition (options a b : BitVec 64) (word : Bool) : Bool :=
  let a := if word then (a.setWidth 32).setWidth 64 else a
  let b := if word then (b.setWidth 32).setWidth 64 else b
  let sa := if word then (a.setWidth 32).signExtend 64 else a
  let sb := if word then (b.setWidth 32).signExtend 64 else b
  (options.getLsbD 4 && sa.slt sb) || (options.getLsbD 3 && sb.slt sa) ||
    (options.getLsbD 2 && a == b) || (options.getLsbD 1 && a.ult b) ||
    (options.getLsbD 0 && b.ult a)

/-- `fp_abs_bits`. -/
def fpAbsBits (v : BitVec 64) : BitVec 64 := v &&& 0x7FFFFFFFFFFFFFFF

/-- `fp_neg_bits`. -/
def fpNegBits (v : BitVec 64) : BitVec 64 := v ^^^ 0x8000000000000000

/-- `fp_select`. -/
def fpSelect (condition nonnegative negativeOrNan : BitVec 64) : BitVec 64 :=
  let mag := condition &&& 0x7FFFFFFFFFFFFFFF
  let nan := mag &&& 0x7FF0000000000000 == 0x7FF0000000000000 &&
    mag &&& 0x000FFFFFFFFFFFFF != 0
  if nan then negativeOrNan
  else if mag = 0 then nonnegative
  else if condition >>> 63 = 0 then nonnegative else negativeOrNan

/-- `recompute_fpscr_summaries`: VX and FEX follow from the other bits. -/
def recomputeFpscrSummaries (fpscr : BitVec 32) : BitVec 32 :=
  let f := if fpscr &&& 0x01F80700 != 0 then fpscr ||| 0x20000000 else fpscr &&& ~~~0x20000000
  let pair (status enable : BitVec 32) : Bool := f &&& status != 0 && f &&& enable != 0
  if pair 0x20000000 0x80 || pair 0x10000000 0x40 || pair 0x08000000 0x20 ||
      pair 0x04000000 0x10 || pair 0x02000000 0x08 then
    f ||| 0x40000000
  else f &&& ~~~0x40000000

/-- `set_fpscr_bit`; the summaries are not writable. -/
def setFpscrBit (s : CpuState) (bit : ℕ) (value : Bool) : CpuState :=
  let mask := 0x80000000#32 >>> (bit % 32)
  if mask = 0x40000000 ∨ mask = 0x20000000 then s
  else
    let fpscr := if value then s.fpscr ||| mask else s.fpscr &&& ~~~mask
    { s with fpscr := recomputeFpscrSummaries fpscr }

/-- `write_fpscr_field`. -/
def writeFpscrField (s : CpuState) (field : ℕ) (value : BitVec 8) : CpuState :=
  let shift := (7 - field % 8) * 4
  let writable := (0xF#32 <<< shift) &&& ~~~0x60000000
  let incoming := (value.setWidth 32 &&& 0xF) <<< shift
  let fpscr := (s.fpscr &&& ~~~writable) ||| (incoming &&& writable)
  { s with fpscr := recomputeFpscrSummaries fpscr }

/-- `write_fpscr_fields`: the selected fields, in order. -/
def writeFpscrFields (s : CpuState) (fieldMask : BitVec 8) (source : BitVec 32) : CpuState :=
  (List.range 8).foldl
    (fun s field =>
      if fieldMask &&& (0x80#8 >>> field) != 0 then
        writeFpscrField s field ((source >>> ((7 - field) * 4) &&& 0xF).setWidth 8)
      else s) s

/-- `move_fpscr_field_to_cr`: `mcrfs` clears the status bits it copied. -/
def moveFpscrFieldToCr (s : CpuState) (crField fpscrField : ℕ) : CpuState :=
  let field := fpscrField % 8
  let s' := s.setCrField crField ((s.fpscr >>> ((7 - field) * 4) &&& 0xF).setWidth 8)
  let clear (mask : BitVec 32) : CpuState :=
    { s' with fpscr := recomputeFpscrSummaries (s'.fpscr &&& ~~~mask) }
  match field with
  | 0 => clear 0x90000000
  | 1 => clear 0x0F000000
  | 2 => clear 0x00F00000
  | 3 => clear 0x00080000
  | _ => s'

/-- `msr_arch_range`. -/
def msrArchRange (first last : ℕ) : BitVec 64 :=
  (List.range' first (last + 1 - first)).foldl (fun mask n => mask ||| 1#64 <<< (63 - n)) 0

/-- `write_msr`: which bits of MSR `mtmsr` and `mtmsrd` replace. -/
def writeMsr (s : CpuState) (source : BitVec 64) (limited doubleword : Bool) : CpuState :=
  let bit (n : ℕ) : BitVec 64 := 1#64 <<< (63 - n)
  if limited then
    let mask := bit 48 ||| bit 62
    { s with msr := (s.msr &&& ~~~mask) ||| (source &&& mask) }
  else
    let copy := if doubleword then
        msrArchRange 1 2 ||| msrArchRange 4 47 ||| msrArchRange 49 50 ||| msrArchRange 52 57 |||
          msrArchRange 60 63
      else msrArchRange 32 47 ||| msrArchRange 49 50 ||| msrArchRange 52 57 ||| msrArchRange 60 63
    let msr := (s.msr &&& ~~~copy) ||| (source &&& copy)
    let msr := if doubleword then
        (if source &&& (bit 0 ||| bit 1) != 0 then msr ||| bit 0 else msr &&& ~~~bit 0)
      else msr
    let pr := source &&& bit 49 != 0
    let force (msr : BitVec 64) (n : ℕ) : BitVec 64 :=
      if source &&& bit n != 0 || pr then msr ||| bit n else msr &&& ~~~bit n
    { s with msr := force (force (force msr 48) 58) 59 }

end Aot
end XenonRecomp
