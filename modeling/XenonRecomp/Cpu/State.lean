/-
# Architectural state

`include/xenon/cpu/state.hpp` and `src/cpu/ppc/state/state.cpp`.  A register
file is a function of its register number, so a register index that the source
masks (`& 31`, `& 127`) is a `BitVec 5` or a `BitVec 7` here.  The condition
register is one 32-bit word whose field `0` is its top nibble.
-/

import XenonRecomp.Cpu.Types

namespace XenonRecomp
namespace Cpu

/-- `ReservationState`: the load-reserve in progress. -/
structure ReservationState where
  valid : Bool
  width : BitVec 8
  address : GuestAddress
  observedValue : BitVec 64
  token : BitVec 64
deriving DecidableEq

/-- `ReservationState{}`, which `clear` restores. -/
def ReservationState.none : ReservationState := ⟨false, 0, 0, 0, 0⟩

/-- `CpuState`. -/
structure CpuState where
  gpr : BitVec 5 → BitVec 64
  fprBits : BitVec 5 → BitVec 64
  vr : BitVec 7 → Vector128
  lr : BitVec 64
  ctr : BitVec 64
  cr : BitVec 32
  xer : BitVec 32
  fpscr : BitVec 32
  vscr : BitVec 32
  msr : BitVec 64
  vrsave : BitVec 32
  pvr : BitVec 32
  timeBase : BitVec 64
  cia : GuestAddress
  nia : GuestAddress
  reservation : ReservationState

/-- A state with every register zero, as `CpuState{}` starts. -/
def CpuState.zero : CpuState :=
  { gpr := fun _ => 0, fprBits := fun _ => 0, vr := fun _ => .zero, lr := 0, ctr := 0, cr := 0,
    xer := 0, fpscr := 0, vscr := 0, msr := 0, vrsave := 0, pvr := 0x710700, timeBase := 0,
    cia := 0, nia := 0, reservation := .none }

/-- `xer_bits::SO`. -/
def xerSO : BitVec 32 := 0x80000000#32
/-- `xer_bits::OV`. -/
def xerOV : BitVec 32 := 0x40000000#32
/-- `xer_bits::CA`. -/
def xerCA : BitVec 32 := 0x20000000#32
/-- `vscr_bits::NJ`. -/
def vscrNJ : BitVec 32 := 0x00010000#32
/-- `vscr_bits::SAT`. -/
def vscrSAT : BitVec 32 := 0x00000001#32

namespace CpuState

variable (s : CpuState)

/-- `state.gpr[reg] = value`. -/
def setGpr (reg : BitVec 5) (value : BitVec 64) : CpuState :=
  { s with gpr := Function.update s.gpr reg value }

/-- `state.fpr_bits[reg] = value`. -/
def setFprBits (reg : BitVec 5) (value : BitVec 64) : CpuState :=
  { s with fprBits := Function.update s.fprBits reg value }

/-- `state.vr[reg] = value`. -/
def setVr (reg : BitVec 7) (value : Vector128) : CpuState :=
  { s with vr := Function.update s.vr reg value }

/-- The shift of a condition field: `(7 - (field & 7)) * 4`. -/
def crShift (field : ℕ) : ℕ := (7 - field % 8) * 4

/-- `cr_field`: one nibble of CR. -/
def crField (field : ℕ) : BitVec 8 :=
  ((s.cr >>> crShift field) &&& 0xF#32).setWidth 8

/-- `set_cr_field`: overwrite one nibble of CR. -/
def setCrField (field : ℕ) (value : BitVec 8) : CpuState :=
  { s with cr := (s.cr &&& ~~~(0xF#32 <<< crShift field)) |||
      ((value.setWidth 32 &&& 0xF#32) <<< crShift field) }

/-- `cr_bit`: bit `bit & 31` of CR, the top bit first. -/
def crBit (bit : ℕ) : Bool := (s.cr &&& (0x80000000#32 >>> (bit % 32))) != 0

/-- `set_cr_bit`. -/
def setCrBit (bit : ℕ) (value : Bool) : CpuState :=
  { s with cr := if value then s.cr ||| (0x80000000#32 >>> (bit % 32))
      else s.cr &&& ~~~(0x80000000#32 >>> (bit % 32)) }

/-- `xer_ca`. -/
def xerCa : Bool := (s.xer &&& xerCA) != 0
/-- `xer_ov`. -/
def xerOv : Bool := (s.xer &&& xerOV) != 0
/-- `xer_so`. -/
def xerSo : Bool := (s.xer &&& xerSO) != 0

/-- `set_xer_ca`. -/
def setXerCa (v : Bool) : CpuState :=
  { s with xer := if v then s.xer ||| xerCA else s.xer &&& ~~~xerCA }
/-- `set_xer_ov`. -/
def setXerOv (v : Bool) : CpuState :=
  { s with xer := if v then s.xer ||| xerOV else s.xer &&& ~~~xerOV }
/-- `set_xer_so`. -/
def setXerSo (v : Bool) : CpuState :=
  { s with xer := if v then s.xer ||| xerSO else s.xer &&& ~~~xerSO }

/-- `set_xer_overflow`: OV follows the operation, SO is sticky. -/
def setXerOverflow (overflow : Bool) : CpuState :=
  if overflow then (s.setXerOv overflow).setXerSo true else s.setXerOv overflow

/-- `set_vector_saturated`. -/
def setVectorSaturated : CpuState := { s with vscr := s.vscr ||| vscrSAT }

/-- `update_cr0_signed`: field 0 from the sign of a result and XER.SO. -/
def updateCr0Signed (result : BitVec 64) : CpuState :=
  s.setCrField 0 ((if result.slt 0 then 0x8#8 else if (0#64).slt result then 0x4#8 else 0x2#8) |||
    (if s.xerSo then 1 else 0))

/-- `update_cr1_from_fpscr`: field 1 from FX, FEX, VX and OX. -/
def updateCr1FromFpscr : CpuState :=
  s.setCrField 1
    ((if s.fpscr &&& 0x80000000#32 != 0 then 8#8 else 0) |||
      (if s.fpscr &&& 0x40000000#32 != 0 then 4#8 else 0) |||
      (if s.fpscr &&& 0x20000000#32 != 0 then 2#8 else 0) |||
      (if s.fpscr &&& 0x10000000#32 != 0 then 1#8 else 0))

end CpuState

end Cpu
end XenonRecomp
