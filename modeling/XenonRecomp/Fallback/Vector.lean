/-
# The interpreter: vector instructions

`execute_vector` of `src/cpu/codegen/fallback/interpreter/vector.cpp` and the
field extraction of `fallback_interpreter.hpp`.  The source tests mnemonics one
after another; `vectorAction` is the outcome of these tests, a function of the
opcode alone, and `executeVector` does what was chosen.

The extraction of the register fields and the choice of the operands repeat
those of the lifter in the source; they are written out again here.
-/

import XenonRecomp.Aot.Scalar
import XenonRecomp.Aot.Vector
import XenonRecomp.Fallback.ScalarMemory
import XenonRecomp.Lifter.Vector

namespace XenonRecomp
namespace Fallback

open Cpu Machine Run
open Lifter (VectorField)

section fields

variable (i : DecodedInstruction)

/-- `vector_extended_format`. -/
def vectorExtendedFormat : InstructionFormat → Bool
  | .VX128 | .VX128_1 | .VX128_2 | .VX128_3 | .VX128_4 | .VX128_5 | .VX128_R | .VX128_P => true
  | _ => false

/-- `vector_vd`. -/
def vectorVd : BitVec 7 :=
  if vectorExtendedFormat i.info.format then i.vx128Vd else i.rt.setWidth 7

/-- `vector_va`. -/
def vectorVa : BitVec 7 :=
  match i.info.format with
  | .VX128 | .VX128_2 | .VX128_5 | .VX128_R => i.vx128Va
  | _ => i.ra.setWidth 7

/-- `vector_vb`. -/
def vectorVb : BitVec 7 :=
  match i.info.format with
  | .VX128 | .VX128_2 | .VX128_3 | .VX128_4 | .VX128_5 | .VX128_R | .VX128_P => i.vx128Vb
  | _ => i.rb.setWidth 7

/-- `vector_vc`. -/
def vectorVc : BitVec 7 :=
  if i.info.format = .VX128_2 then (i.word.extractLsb' 8 3).setWidth 7 else i.frc.setWidth 7

/-- The register number in a field. -/
def vectorField : VectorField → BitVec 7
  | .vd => vectorVd i
  | .va => vectorVa i
  | .vb => vectorVb i
  | .vc => vectorVc i

end fields

/-- The table of `vector_semantic_for`. -/
def vectorSemantics : List Mnemonic :=
  [.vaddcuw, .vaddfp, .vaddfp128, .vaddsbs, .vaddshs, .vaddsws, .vaddubm, .vaddubs, .vadduhm,
   .vadduhs, .vadduwm, .vadduws, .vand, .vand128, .vandc, .vandc128, .vavgsb, .vavgsh, .vavgsw,
   .vavgub, .vavguh, .vavguw, .vcfpsxws128, .vcfpuxws128, .vcfsx, .vcfux, .vcmpbfp, .vcmpbfp128,
   .vcmpeqfp, .vcmpeqfp128, .vcmpequb, .vcmpequh, .vcmpequw, .vcmpequw128, .vcmpgefp,
   .vcmpgefp128, .vcmpgtfp, .vcmpgtfp128, .vcmpgtsb, .vcmpgtsh, .vcmpgtsw, .vcmpgtub, .vcmpgtuh,
   .vcmpgtuw, .vcsxwfp128, .vctsxs, .vctuxs, .vcuxwfp128, .vexptefp, .vexptefp128, .vlogefp,
   .vlogefp128, .vmaddcfp128, .vmaddfp, .vmaddfp128, .vmaxfp, .vmaxfp128, .vmaxsb, .vmaxsh,
   .vmaxsw, .vmaxub, .vmaxuh, .vmaxuw, .vmhaddshs, .vmhraddshs, .vminfp, .vminfp128, .vminsb,
   .vminsh, .vminsw, .vminub, .vminuh, .vminuw, .vmladduhm, .vmrghb, .vmrghh, .vmrghw, .vmrghw128,
   .vmrglb, .vmrglh, .vmrglw, .vmrglw128, .vmsum3fp128, .vmsum4fp128, .vmsummbm, .vmsumshm,
   .vmsumshs, .vmsumubm, .vmsumuhm, .vmsumuhs, .vmulesb, .vmulesh, .vmuleub, .vmuleuh, .vmulfp128,
   .vmulosb, .vmulosh, .vmuloub, .vmulouh, .vnmsubfp, .vnmsubfp128, .vnor, .vnor128, .vor,
   .vor128, .vperm, .vperm128, .vpermwi128, .vpkd3d128, .vpkpx, .vpkshss, .vpkshss128, .vpkshus,
   .vpkshus128, .vpkswss, .vpkswss128, .vpkswus, .vpkswus128, .vpkuhum, .vpkuhum128, .vpkuhus,
   .vpkuhus128, .vpkuwum, .vpkuwum128, .vpkuwus, .vpkuwus128, .vrefp, .vrefp128, .vrfim,
   .vrfim128, .vrfin, .vrfin128, .vrfip, .vrfip128, .vrfiz, .vrfiz128, .vrlb, .vrlh, .vrlimi128,
   .vrlw, .vrlw128, .vrsqrtefp, .vrsqrtefp128, .vsel, .vsel128, .vsl, .vslb, .vsldoi, .vsldoi128,
   .vslh, .vslo, .vslo128, .vslw, .vslw128, .vspltb, .vsplth, .vspltisb, .vspltish, .vspltisw,
   .vspltisw128, .vspltw, .vspltw128, .vsr, .vsrab, .vsrah, .vsraw, .vsraw128, .vsrb, .vsrh,
   .vsro, .vsro128, .vsrw, .vsrw128, .vsubcuw, .vsubfp, .vsubfp128, .vsubsbs, .vsubshs, .vsubsws,
   .vsububm, .vsububs, .vsubuhm, .vsubuhs, .vsubuwm, .vsubuws, .vsum2sws, .vsum4sbs, .vsum4shs,
   .vsum4ubs, .vsumsws, .vupkd3d128, .vupkhpx, .vupkhsb, .vupkhsb128, .vupkhsh, .vupklpx,
   .vupklsb, .vupklsb128, .vupklsh, .vxor, .vxor128]
/-- What `execute_vector` does with an opcode: a memory access, a permutation
vector from an address, a move of VSCR, or the shared semantic function on some
of the register fields; `recording` compares update CR field 6 under Rc. -/
inductive VectorAction where
  | loadAligned | storeAligned
  | loadElement (width : BitVec 64) | storeElement (width : BitVec 64)
  | loadLeft | loadRight | storeLeft | storeRight
  | loadShift (left : Bool)
  | fromVscr | toVscr
  | semantic (fields : List VectorField) (recording : Bool)
deriving DecidableEq, Repr

/-- `vector_semantic_for`, and the action when there is a semantic function. -/
def semanticAction (m : Mnemonic) (fields : List VectorField) (recording : Bool) :
    Option VectorAction :=
  if m ∈ vectorSemantics then some (.semantic fields recording) else none

/-- The tests of `execute_vector`, in order. -/
def vectorAction (m : Mnemonic) (format : InstructionFormat) : Option VectorAction :=
  let starts (p : String) : Bool := m.startsWith p
  if m = .lvx ∨ m = .lvxl ∨ m = .lvx128 ∨ m = .lvxl128 then some .loadAligned
  else if m = .stvx ∨ m = .stvxl ∨ m = .stvx128 ∨ m = .stvxl128 then some .storeAligned
  else if m = .lvebx ∨ m = .lvehx ∨ m = .lvewx ∨ m = .lvewx128 then
    some (.loadElement (if m = .lvebx then 1 else if m = .lvehx then 2 else 4))
  else if m = .stvebx ∨ m = .stvehx ∨ m = .stvewx ∨ m = .stvewx128 then
    some (.storeElement (if m = .stvebx then 1 else if m = .stvehx then 2 else 4))
  else if starts "lvlx" then some .loadLeft
  else if starts "lvrx" then some .loadRight
  else if starts "stvlx" then some .storeLeft
  else if starts "stvrx" then some .storeRight
  else if m = .lvsl ∨ m = .lvsl128 ∨ m = .lvsr ∨ m = .lvsr128 then
    some (.loadShift (starts "lvsl"))
  else if m = .mfvscr then some .fromVscr
  else if m = .mtvscr then some .toVscr
  else if starts "vmaddfp" || starts "vmaddcfp" || starts "vnmsubfp" then
    semanticAction m (if format = .VA then [.va, .vb, .vc] else [.vd, .va, .vb]) false
  else if starts "vsel" then
    semanticAction m (if format = .VA then [.va, .vb, .vc] else [.vd, .va, .vb]) false
  else if starts "vmsum3fp" || starts "vmsum4fp" then semanticAction m [.vd, .va, .vb] false
  else if starts "vsum" || starts "vmsum" then
    semanticAction m (if format = .VA then [.va, .vb, .vc] else [.va, .vb]) false
  else if starts "vpermwi" then semanticAction m [.vb] false
  else if starts "vperm" then
    semanticAction m (if format = .VA ∨ format = .VX128_2 then [.va, .vb, .vc] else [.vb]) false
  else if starts "vrlimi" then semanticAction m [.vd, .vb] false
  else if starts "vsplt" || starts "vupk" || starts "vcfs" || starts "vcfu" || starts "vcts" ||
      starts "vctu" || starts "vcfps" || starts "vcfpu" || starts "vcsx" || starts "vcux" ||
      starts "vrfi" || starts "vrefp" || starts "vrsqrtefp" || starts "vexptefp" ||
      starts "vlogefp" then
    semanticAction m [.vb] false
  else semanticAction m [.va, .vb, .vc] (starts "vcmp")

/-- The operand vectors of an instruction; an operand that is not there is
`Vector128{}`. -/
def operandVector (i : DecodedInstruction) (fields : List VectorField) (s : CpuState) (k : ℕ) :
    Vector128 :=
  (fields.map fun f => s.vr (vectorField i f)).getD k .zero

/-- `aot::execute_vector` on the operands, its result in `vD`, and CR field 6. -/
def semanticStep (float : FloatOps) (i : DecodedInstruction) (fields : List VectorField)
    (recording : Bool) (s : CpuState) : CpuState :=
  let (result, s') := Aot.executeVectorState float i.mnemonic i.word s
    (operandVector i fields s 0) (operandVector i fields s 1) (operandVector i fields s 2)
  let s' := s'.setVr (vectorVd i) result
  if recording ∧ i.rc then Aot.updateCr6FromVectorCompare s' result else s'

variable {σ : Type} (h : Host σ)

/-- The register-indexed address of the vector accesses. -/
def vectorAddress (i : DecodedInstruction) (s : CpuState) : BitVec 64 :=
  baseOrZero i s + s.gpr i.rb

/-- The chosen action. -/
def vectorStep (i : DecodedInstruction) : VectorAction → Run σ Unit
  | .loadAligned => do
      let s ← getCpu
      let v : Vector128 ← ask h (.read128 ((vectorAddress i s &&& ~~~0xF).setWidth 32))
      modifyCpu (·.setVr (vectorVd i) v)
  | .storeAligned => do
      let s ← getCpu
      ask h (.write128 ((vectorAddress i s &&& ~~~0xF).setWidth 32) (s.vr (vectorVd i)))
  | .loadElement width => do
      let s ← getCpu
      let v ← Aot.vectorLoadElement h (s.vr (vectorVd i)) ((vectorAddress i s).setWidth 32) width
      modifyCpu (·.setVr (vectorVd i) v)
  | .storeElement width => do
      let s ← getCpu
      Aot.vectorStoreElement h (s.vr (vectorVd i)) ((vectorAddress i s).setWidth 32) width
  | .loadLeft => do
      let s ← getCpu
      let v ← Aot.vectorLoadLeft h ((vectorAddress i s).setWidth 32)
      modifyCpu (·.setVr (vectorVd i) v)
  | .loadRight => do
      let s ← getCpu
      let v ← Aot.vectorLoadRight h ((vectorAddress i s).setWidth 32)
      modifyCpu (·.setVr (vectorVd i) v)
  | .storeLeft => do
      let s ← getCpu
      Aot.vectorStoreLeft h (s.vr (vectorVd i)) ((vectorAddress i s).setWidth 32)
  | .storeRight => do
      let s ← getCpu
      Aot.vectorStoreRight h (s.vr (vectorVd i)) ((vectorAddress i s).setWidth 32)
  | .loadShift left =>
      modifyCpu fun s => s.setVr (vectorVd i)
        (if left then Aot.vectorLoadShiftLeft (vectorAddress i s)
          else Aot.vectorLoadShiftRight (vectorAddress i s))
  | .fromVscr =>
      modifyCpu fun s => s.setVr (i.rt.setWidth 7) (Vector128.zero.setU32Be 3 s.vscr)
  | .toVscr => modifyCpu fun s => { s with vscr := (s.vr (i.rb.setWidth 7)).u32Be 3 }
  | .semantic fields recording => modifyCpu (semanticStep h.float i fields recording)

/-- `execute_vector`. -/
def executeVector (i : DecodedInstruction) : Run σ Bool :=
  match vectorAction i.mnemonic i.info.format with
  | some action => do
      vectorStep h i action
      pure true
  | none => pure false

end Fallback
end XenonRecomp
