/-
# Immediates in the place of a vector register

Some vector formats hold an immediate in the bits of `vA`.  What lifted code
writes to `vD` should then depend on `vB` alone, on `vD` where the instruction
reads it, and on VSCR.  It does, but for `vpkd3d128`: the pack is lowered with
the two operands of the ordinary packs, so that it packs the register that the
immediate happens to name.
-/

import XenonRecomp.Agreement.Vector
import Mathlib.Tactic.IntervalCases

namespace XenonRecomp
namespace Agreement

open Cpu Ir Machine Run Emission Lifter

/-- The opcodes with an immediate in the place of `vA`: the splats, the
conversions to and from fixed point, and three formats of VMX128. -/
def ImmediateVa (op : OpcodeInfo) : Prop :=
  op.format ∈ [.VX128_3, .VX128_4, .VX128_P] ∨
    op.mnemonic ∈ [.vspltb, .vsplth, .vspltw, .vspltisb, .vspltish, .vspltisw,
      .vcfsx, .vcfux, .vctsxs, .vctuxs]

instance (op : OpcodeInfo) : Decidable (ImmediateVa op) := inferInstanceAs (Decidable (_ ∨ _))

/-- The register fields of such an instruction: `vB`, and `vD` for the insert. -/
def genuineFields (m : Mnemonic) : List VectorField :=
  if m = .vrlimi128 then [.vd, .vb] else [.vb]

/-- Two states agree on what the instruction names. -/
structure SameOperands (i : DecodedInstruction) (s t : CpuState) : Prop where
  fields : ∀ f ∈ genuineFields i.mnemonic, s.vr (f.reg i) = t.vr (f.reg i)
  vscr : s.vscr = t.vscr

section lifted

variable {σ : Type} (h : Host σ) {i : DecodedInstruction}

/-- An operation of the vector lifter leaves what the semantic function does. -/
theorem runLifted_vectorOp {op : Op} {fields : List VectorField} {word : Bool}
    (hmem : i.info ∈ opcodeCatalog) (hg : i.info.group = .Vector)
    (hf : vectorForm i.mnemonic i.info.format = some (.op op fields word)) (m : State σ) :
    runLifted h i m =
      (.ok (), ⟨Fallback.semanticStep h.float i fields false m.cpu, m.host⟩) := by
  obtain ⟨action, form, -, hform, hw⟩ := wired_of_check (catalog_vector _ hmem hg)
  obtain rfl : form = .op op fields word := Option.some.inj (hform.symm.trans hf)
  have hl : liftGroup i = liftVectorOp op i fields word >>= fun _ => pure true := by
    rw [liftGroup, hg]
    simp only [liftVector, hf]
  rw [runLifted_eq h hl]
  cases hw with
  | same _ _ hop hsel hspl => exact (vectorOp_agrees h i m hop hsel hspl fields word).symm
  | third f f' _ hm hop hsel hspl =>
    exact (vectorOp_agrees h i m hop (absurd · hsel) (absurd · hspl) [f, f'] word).symm

/-- What it writes to `vD`. -/
theorem semanticStep_vd (fl : FloatOps) (fields : List VectorField) (s : CpuState) :
    (Fallback.semanticStep fl i fields false s).vr (vd i) =
      (Aot.executeVector fl i.mnemonic i.word s.vscr (Fallback.operandVector i fields s 0)
        (Fallback.operandVector i fields s 1) (Fallback.operandVector i fields s 2)).1 := by
  simp only [Fallback.semanticStep, Bool.false_eq_true, false_and, if_false, CpuState.setVr]
  exact Function.update_self ..

/-- It depends on the registers of the fields and on VSCR only. -/
theorem semanticStep_congr (fl : FloatOps) {fields : List VectorField} {s t : CpuState}
    (hs : ∀ f ∈ fields, s.vr (f.reg i) = t.vr (f.reg i)) (hv : s.vscr = t.vscr) :
    (Fallback.semanticStep fl i fields false s).vr (vd i) =
      (Fallback.semanticStep fl i fields false t).vr (vd i) := by
  have hmap : (fields.map fun f => s.vr (Fallback.vectorField i f)) =
      fields.map fun f => t.vr (Fallback.vectorField i f) := by
    refine List.map_congr_left fun f hf => ?_
    rw [vectorField_eq, hs f hf]
  simp only [semanticStep_vd, Fallback.operandVector, hmap, hv]

end lifted

section catalogue

/-- The form of an immediate opcode: all but one read genuine fields only. -/
def immediateForm (op : OpcodeInfo) : Bool :=
  match vectorForm op.mnemonic op.format with
  | some (.op _ fields _) =>
      if op.mnemonic = .vpkd3d128 then fields = [.va, .vb]
      else ∀ f ∈ fields, f ∈ genuineFields op.mnemonic
  | _ => false

theorem catalog_immediate : ∀ op ∈ opcodeCatalog, ImmediateVa op →
    op.group = .Vector ∧ immediateForm op = true := by
  set_option maxRecDepth 40000 in decide

end catalogue

section pack

variable (fl : FloatOps) (w : BitVec 32)

/-- The colour conversion at the ends of its range: `0.0f` is the byte 0, `1.0f`
the byte 255. -/
structure ColorRange (fl : FloatOps) : Prop where
  black : fl.colorToByte 0#32 = 0#32
  white : fl.colorToByte 0x3F800000#32 = 255#32

/-- The size of a packed value depends on the pack type only. -/
theorem d3dPacked_size (t : ℕ) (v v' : Vector128) :
    (Aot.d3dPacked fl t v).2 = (Aot.d3dPacked fl t v').2 := by
  unfold Aot.d3dPacked
  split <;> rfl

theorem d3dPacked_size_le (t : ℕ) (v : Vector128) :
    1 ≤ (Aot.d3dPacked fl t v).2 ∧ (Aot.d3dPacked fl t v).2 ≤ 16 := by
  unfold Aot.d3dPacked
  split <;> simp

/-- The low byte of the packed value is a byte of the result. -/
theorem d3dPack_low {v v' : Vector128} (he : Aot.d3dPack fl w v = Aot.d3dPack fl w v') :
    (Aot.d3dPacked fl (Aot.vxImm5 w / 4) v).1.extractLsb' 0 8 =
      (Aot.d3dPacked fl (Aot.vxImm5 w / 4) v').1.extractLsb' 0 8 := by
  have hsize := d3dPacked_size fl (Aot.vxImm5 w / 4) v v'
  obtain ⟨hlo, hhi⟩ := d3dPacked_size_le fl (Aot.vxImm5 w / 4) v
  generalize hp : Aot.d3dPacked fl (Aot.vxImm5 w / 4) v = p at hsize hlo hhi ⊢
  generalize hp' : Aot.d3dPacked fl (Aot.vxImm5 w / 4) v' = p' at hsize ⊢
  obtain ⟨x, bytes⟩ := p
  obtain ⟨x', bytes'⟩ := p'
  obtain rfl : bytes = bytes' := hsize
  simp only at hlo hhi
  have hpos : min (Aot.vx128Z4 w * 4) (16 - bytes) + bytes - 1 < 16 := by omega
  have hb := congrArg (fun r => r.bytes ⟨_, hpos⟩) he
  have hin : min (Aot.vx128Z4 w * 4) (16 - bytes) ≤
        min (Aot.vx128Z4 w * 4) (16 - bytes) + bytes - 1 ∧
      min (Aot.vx128Z4 w * 4) (16 - bytes) + bytes - 1 <
        min (Aot.vx128Z4 w * 4) (16 - bytes) + bytes := by omega
  have hlast : bytes - 1 - (min (Aot.vx128Z4 w * 4) (16 - bytes) + bytes - 1 -
      min (Aot.vx128Z4 w * 4) (16 - bytes)) = 0 := by omega
  simpa only [Aot.d3dPack, hp, hp', Vector128.ofBytes, hin, and_self, if_true, hlast,
    Nat.mul_zero] using hb

/-- A vector that every pack type but the seventh, which packs nothing, tells
from the zero vector. -/
def packProbe (t : ℕ) : Vector128 :=
  Aot.splat32 (if t = 0 then 0x3F800000#32 else 0x3F802001#32)

theorem zero_lanes (k : ℕ) (hk : k < 4) :
    Vector128.zero.u32Be k = 0#32 ∧ Vector128.zero.u16Be k = 0#16 := by
  interval_cases k <;> exact ⟨rfl, rfl⟩

theorem packProbe_lanes {t : ℕ} (ht : t ≠ 0) (k : ℕ) (hk : k < 4) :
    (packProbe t).u32Be k = 0x3F802001#32 ∧
      (packProbe t).u16Be k = if k % 2 = 0 then 0x3F80#16 else 0x2001#16 := by
  rw [packProbe, if_neg ht]
  interval_cases k <;> exact ⟨rfl, rfl⟩

theorem d3dPacked_probe (hc : ColorRange fl) {t : ℕ} (ht : t < 7) :
    (Aot.d3dPacked fl t (packProbe t)).1.extractLsb' 0 8 ≠
      (Aot.d3dPacked fl t .zero).1.extractLsb' 0 8 := by
  have hz32 (k : ℕ) (hk : k < 4) := (zero_lanes k hk).1
  have hz16 (k : ℕ) (hk : k < 4) := (zero_lanes k hk).2
  obtain rfl | hpos := Nat.eq_zero_or_pos t
  · have hw (k : ℕ) (hk : k < 4) : (packProbe 0).u32Be k = 0x3F800000#32 := by
      interval_cases k <;> rfl
    simp [Aot.d3dPacked, List.range_succ, hw, hz32, hc.black, hc.white]
  · have hp32 (k : ℕ) (hk : k < 4) := (packProbe_lanes (Nat.ne_of_gt hpos) k hk).1
    have hp16 (k : ℕ) (hk : k < 4) := (packProbe_lanes (Nat.ne_of_gt hpos) k hk).2
    have hhalf : Aot.floatToHalf 0x3F802001#32 = 0x3C01#16 := by decide
    have hhalf0 : Aot.floatToHalf 0#32 = 0#16 := by decide
    interval_cases t <;> simp [Aot.d3dPacked, hz32, hz16, hp32, hp16, hhalf, hhalf0]

theorem d3dPack_seven (hw : Aot.vxImm5 w / 4 = 7) (v v' : Vector128) :
    Aot.d3dPack fl w v = Aot.d3dPack fl w v' := by
  have hp (v : Vector128) : Aot.d3dPacked fl 7 v = (0, 4) := rfl
  simp only [Aot.d3dPack, hw, hp]

end pack

section main

variable {σ : Type} (h : Host σ)

/-- States that agree on the operands of a lifted instruction give the same `vD`. -/
def OperandsDecide (i : DecodedInstruction) (host₁ host₂ : σ) : Prop :=
  ∀ s t, SameOperands i s t →
    (runLifted h i ⟨s, host₁⟩).2.cpu.vr (vd i) = (runLifted h i ⟨t, host₂⟩).2.cpu.vr (vd i)

/-- The pack packs the register that its immediate names. -/
theorem pack_vd {i : DecodedInstruction} (fl : FloatOps) (hm : i.mnemonic = .vpkd3d128)
    (s : CpuState) :
    (Fallback.semanticStep fl i [.va, .vb] false s).vr (vd i) =
      Aot.d3dPack fl i.word (s.vr (va i)) := by
  rw [semanticStep_vd, hm]
  rfl

/-- **What a vector instruction with an immediate in the place of `vA` writes to
`vD` is decided by its register operands and VSCR, except for `vpkd3d128` with a
pack type below 7 and an immediate that is not the number of `vB`.** -/
theorem immediate_independence {address : GuestAddress} {word : BitVec 32}
    {i : DecodedInstruction} (hd : Decoder.decode address word = some i)
    (hi : ImmediateVa i.info) (hc : ColorRange h.float) (host₁ host₂ : σ) :
    OperandsDecide h i host₁ host₂ ↔
      (i.mnemonic = .vpkd3d128 → Aot.vxImm5 i.word / 4 = 7 ∨ va i = vb i) := by
  obtain ⟨-, -, hmem, -⟩ := Decoder.decode_mem hd
  obtain ⟨hg, hform⟩ := catalog_immediate _ hmem hi
  unfold immediateForm at hform
  split at hform
  case h_2 => cases hform
  case h_1 op fields word hf =>
    have hrun := runLifted_vectorOp h hmem hg hf
    unfold OperandsDecide
    simp only [hrun]
    by_cases hm : i.mnemonic = .vpkd3d128
    · obtain rfl : fields = [.va, .vb] := by
        simpa [show i.info.mnemonic = .vpkd3d128 from hm] using hform
      simp only [pack_vd h.float hm, hm, true_imp_iff]
      constructor
      · intro hall
        by_contra hne
        obtain ⟨h7, hab⟩ := not_or.1 hne
        -- the immediate names a register that the instruction does not
        have hsame : SameOperands i CpuState.zero
            (CpuState.zero.setVr (va i) (packProbe (Aot.vxImm5 i.word / 4))) := by
          refine ⟨fun f hf => ?_, rfl⟩
          obtain rfl : f = .vb := by simpa [genuineFields, hm] using hf
          exact (Function.update_of_ne (Ne.symm hab) ..).symm
        have hlow := d3dPack_low h.float i.word (hall _ _ hsame)
        have hlt : Aot.vxImm5 i.word / 4 < 7 := by
          have := (i.word.extractLsb' 16 5).isLt
          simp only [Aot.vxImm5] at h7 ⊢
          omega
        refine d3dPacked_probe h.float hc hlt (Eq.trans ?_ hlow.symm)
        simp only [CpuState.setVr, Function.update_self]
      · rintro (h7 | hab) s t hst
        · exact d3dPack_seven h.float i.word h7 _ _
        · rw [hab, show s.vr (vb i) = t.vr (vb i) from
            hst.fields .vb (by simp [genuineFields, hm])]
    · have hgen : ∀ f ∈ fields, f ∈ genuineFields i.mnemonic := by
        rw [if_neg (show ¬i.info.mnemonic = .vpkd3d128 from hm)] at hform
        exact of_decide_eq_true hform
      exact ⟨fun _ hm' => absurd hm' hm, fun _ s t hst =>
        semanticStep_congr h.float (fun f hf => hst.fields f (hgen f hf)) hst.vscr⟩

/-- A host whose colour conversion knows the two ends of its range. -/
def colorHost : Host Unit :=
  ⟨quietHost.answer, { quietHost.float with
    colorToByte := fun x => if x = 0x3F800000#32 then 255#32 else 0#32 }⟩

/-- `vspltw v1,v2,3` depends on `v2` only. -/
theorem immediate_independence_vspltw :
    OperandsDecide colorHost ⟨0, 0x1023128c, ⟨0x1000028c, .vspltw, .VX, .Vector⟩⟩ () () :=
  have hd : Decoder.decode 0 0x1023128c =
      some ⟨0, 0x1023128c, ⟨0x1000028c, .vspltw, .VX, .Vector⟩⟩ := by
    set_option maxRecDepth 40000 in decide
  (immediate_independence colorHost hd (by decide) ⟨rfl, rfl⟩ () ()).2 (by decide)

/-- `vpkd3d128 v1,v2,1,..` with the bits of `vA` at 4: two states that agree on
`v2` and on VSCR and differ in `v4` give different results. -/
theorem vpkd3d128_reads_immediate :
    Decoder.decode 0 0x18241610 =
        some ⟨0, 0x18241610, ⟨0x18000610, .vpkd3d128, .VX128_4, .Vector⟩⟩ ∧
      ImmediateVa ⟨0x18000610, .vpkd3d128, .VX128_4, .Vector⟩ ∧
      ¬OperandsDecide colorHost
        ⟨0, 0x18241610, ⟨0x18000610, .vpkd3d128, .VX128_4, .Vector⟩⟩ () () := by
  refine ⟨by set_option maxRecDepth 40000 in decide, by decide, fun hall => ?_⟩
  have hsame : SameOperands ⟨0, 0x18241610, ⟨0x18000610, .vpkd3d128, .VX128_4, .Vector⟩⟩
      CpuState.zero (CpuState.zero.setVr 4 (packProbe 1)) :=
    ⟨fun f hf => by
      obtain rfl : f = .vb := by simpa [genuineFields, DecodedInstruction.mnemonic] using hf
      rfl, rfl⟩
  exact absurd (hall _ _ hsame) (by decide)

end main

end Agreement
end XenonRecomp
