/-
# Decoded instructions and their fields

`include/xenon/cpu/instruction.hpp`.  `Decoder::decode` returns the address,
the word and a pointer into the catalogue; the pointer is never null in the
instructions the CPU front end works on, so `DecodedInstruction` holds the
catalogue row itself and `Decoder.decode` returns an `Option`.

A field `(word >> p) & (2^w - 1)` is the `w`-bit slice at `p`.  Register
numbers keep their width (5 bits for GPRs and FPRs, 7 for the VMX128 file), so
they index the register arrays without a bound to prove.
-/

import XenonRecomp.Cpu.Catalog
import XenonRecomp.Cpu.Types

namespace XenonRecomp
namespace Cpu

/-- `DecodedInstruction` with a non-null `info`. -/
structure DecodedInstruction where
  address : GuestAddress
  word : BitVec 32
  info : OpcodeInfo
deriving DecidableEq, Repr

namespace DecodedInstruction

variable (i : DecodedInstruction)

/-- The mnemonic of the catalogue row. -/
def mnemonic : Mnemonic := i.info.mnemonic

/-- `rt`, `rs`, `rd`, `frt`, `frs`, `vd5`: bits 21 to 25. -/
def rt : BitVec 5 := i.word.extractLsb' 21 5

/-- `ra`, `va5`: bits 16 to 20. -/
def ra : BitVec 5 := i.word.extractLsb' 16 5

/-- `rb`, `vb5`: bits 11 to 15. -/
def rb : BitVec 5 := i.word.extractLsb' 11 5

/-- `frc`, `vc5`: bits 6 to 10. -/
def frc : BitVec 5 := i.word.extractLsb' 6 5

/-- `rs`: the source register field shares its bits with `rt`. -/
abbrev rs : BitVec 5 := i.rt

/-- `frt`: the floating-point destination shares its bits with `rt`. -/
abbrev frt : BitVec 5 := i.rt

/-- `frs`: the floating-point source shares its bits with `rt`. -/
abbrev frs : BitVec 5 := i.rt

/-- `simm16`: the low halfword, to be sign-extended. -/
def simm16 : BitVec 16 := i.word.extractLsb' 0 16

/-- `uimm16`: the low halfword, to be zero-extended. -/
def uimm16 : BitVec 16 := i.word.extractLsb' 0 16

/-- `rc`: the record bit, whose place depends on the format. -/
def rc : Bool :=
  match i.info.format with
  | .VC => i.word.getLsbD 10
  | .VX128_R => i.word.getLsbD 6
  | _ => i.word.getLsbD 0

/-- `oe`: the overflow-enable bit of the XO form. -/
def oe : Bool := i.word.getLsbD 10

/-- `crfd`: the destination condition field. -/
def crfd : BitVec 3 := i.word.extractLsb' 23 3

/-- `crfs`: the source condition field. -/
def crfs : BitVec 3 := i.word.extractLsb' 18 3

/-- `bo`: the branch options. -/
def bo : BitVec 5 := i.word.extractLsb' 21 5

/-- `bi`: the condition-register bit a branch tests. -/
def bi : BitVec 5 := i.word.extractLsb' 16 5

/-- `aa`: absolute address. -/
def aa : Bool := i.word.getLsbD 1

/-- `lk`: link. -/
def lk : Bool := i.word.getLsbD 0

/-- `branch_i_displacement`: the 26-bit displacement of `b`. -/
def branchIDisplacement : BitVec 32 := ((i.word &&& 0x03FFFFFC#32).setWidth 26).signExtend 32

/-- `branch_b_displacement`: the 16-bit displacement of `bc`. -/
def branchBDisplacement : BitVec 32 := ((i.word &&& 0x0000FFFC#32).setWidth 16).signExtend 32

/-- `ds_displacement`, widened to 64 bits as every user of it does. -/
def dsDisplacement : BitVec 64 := ((i.word &&& 0x0000FFFC#32).setWidth 16).signExtend 64

/-- `spr`: the special-register number, its two halves swapped. -/
def spr : BitVec 10 := i.word.extractLsb' 11 5 ++ i.word.extractLsb' 16 5

/-- `sh32`. -/
def sh32 : BitVec 5 := i.word.extractLsb' 11 5

/-- `mb32`. -/
def mb32 : BitVec 5 := i.word.extractLsb' 6 5

/-- `me32`. -/
def me32 : BitVec 5 := i.word.extractLsb' 1 5

/-- `sh64_md`: five bits at 11 and the sixth at 1. -/
def sh64Md : BitVec 6 := i.word.extractLsb' 1 1 ++ i.word.extractLsb' 11 5

/-- `mb64_md`: five bits at 6 and the sixth at 5. -/
def mb64Md : BitVec 6 := i.word.extractLsb' 5 1 ++ i.word.extractLsb' 6 5

/-- `vx128_vd`: five bits at 21, two more at 2. -/
def vx128Vd : BitVec 7 := i.word.extractLsb' 2 2 ++ i.word.extractLsb' 21 5

/-- `vx128_va`: five bits at 16, one at 5, one at 10. -/
def vx128Va : BitVec 7 :=
  i.word.extractLsb' 10 1 ++ (i.word.extractLsb' 5 1 ++ i.word.extractLsb' 16 5 : BitVec 6)

/-- `vx128_vb`: five bits at 11, two more at 0. -/
def vx128Vb : BitVec 7 := i.word.extractLsb' 0 2 ++ i.word.extractLsb' 11 5

/-- `direct_branch_target`: the target of `b` and `bc`, `0` for any other format. -/
def directBranchTarget : GuestAddress :=
  match i.info.format with
  | .I => if i.aa then i.branchIDisplacement else i.address + i.branchIDisplacement
  | .B => if i.aa then i.branchBDisplacement else i.address + i.branchBDisplacement
  | _ => 0

end DecodedInstruction

/-- `mask_for_format`: the bits of a word that a format fixes. -/
def maskForFormat : InstructionFormat → BitVec 32
  | .D | .B | .I | .M => 0xFC000000
  | .DS => 0xFC000003
  | .X | .XL | .XFX | .XFL => 0xFC0007FE
  | .XS => 0xFC0007FC
  | .XO => 0xFC0003FE
  | .A => 0xFC00003E
  | .MD => 0xFC00001C
  | .MDS => 0xFC00001E
  | .DCBZ => 0xFC2007FE
  | .VX => 0xFC0007FF
  | .VC => 0xFC0003FF
  | .VA => 0xFC00003F
  | .VX128 => 0xFC0003D0
  | .VX128_1 => 0xFC0007F3
  | .VX128_2 => 0xFC000210
  | .VX128_3 => 0xFC0007F0
  | .VX128_4 => 0xFC000730
  | .VX128_5 => 0xFC000010
  | .VX128_R => 0xFC000390
  | .VX128_P => 0xFC000630
  | .SC => 0xFC000003

end Cpu
end XenonRecomp
