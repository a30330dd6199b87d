/-
# The interpreter and compiled code agree on system instructions

For the condition-register, XER, MSR and special-register instructions,
`Fallback.executeSystem` and the code of `Lifter.liftControl` make the same calls
of the host and leave the same state, except for `mftb` with a special-register
number that names no time base.  For the conditional branches they reach the same
decision, with the same CTR and LR.
-/

import XenonRecomp.Agreement.Basic
import XenonRecomp.Fallback.System
import Mathlib.Tactic.IntervalCases

namespace XenonRecomp
namespace Agreement

open Cpu Ir Machine Run Emission Lifter

variable {σ : Type} (h : Host σ)

section nibbles

theorem getLsbD_fifteen (k : ℕ) : (0xF#32).getLsbD k = decide (k < 4) := by
  rcases Nat.lt_or_ge k 32 with hk | hk
  · interval_cases k <;> rfl
  · rw [BitVec.getLsbD_of_ge _ _ hk]
    simp only [Bool.false_eq, decide_eq_false_iff_not]
    omega

/-- A nibble passes through a byte unchanged. -/
theorem nibble_byte (x : BitVec 32) :
    ((x &&& 0xF#32).setWidth 8).setWidth 32 &&& 0xF#32 = x &&& 0xF#32 := by
  apply BitVec.eq_of_getLsbD_eq
  intro j hj
  simp only [BitVec.getLsbD_and, BitVec.getLsbD_setWidth, getLsbD_fifteen]
  by_cases h4 : j < 4
  · simp only [h4, decide_true, Bool.and_true, hj, Bool.true_and]
    simp only [show j < 8 by omega, decide_true, Bool.true_and]
  · simp [h4]

/-- A nibble cut out and put back is a mask. -/
theorem nibble_shift (x : BitVec 32) (s : ℕ) :
    (x >>> s &&& 0xF#32) <<< s = x &&& (0xF#32 <<< s) := by
  apply BitVec.eq_of_getLsbD_eq
  intro j hj
  simp only [BitVec.getLsbD_and, BitVec.getLsbD_shiftLeft, BitVec.getLsbD_ushiftRight]
  by_cases hs : j < s
  · simp [hs]
  · simp [hs, hj, show s + (j - s) = j by omega]

/-- The field mask of `mtcrf` at 8 and at 64 bits. -/
theorem fieldMask (fxm : BitVec 8) (f : ℕ) :
    fxm.setWidth 64 &&& (0x80#64 >>> f) = (fxm &&& (0x80#8 >>> f)).setWidth 64 := by
  rw [BitVec.setWidth_and]
  congr 1

theorem byte_eq_zero {x : BitVec 8} (hx : x.setWidth 64 = 0) : x = 0 := by
  have h8 : (x.setWidth 64).setWidth 8 = x := by simp
  rw [← h8, hx]
  rfl

/-- One field of `mtcrf`. -/
theorem setCrField_nibble (s : CpuState) (source : BitVec 32) {f : ℕ} (hf : f < 8) :
    s.setCrField f ((source >>> ((7 - f) * 4) &&& 0xF).setWidth 8) =
      { s with cr := (s.cr &&& ~~~(0xF#32 <<< ((7 - f) * 4))) |||
          (source &&& (0xF#32 <<< ((7 - f) * 4))) } := by
  simp only [CpuState.setCrField, CpuState.crShift, Nat.mod_eq_of_lt hf, BitVec.ofNat_eq_ofNat,
    nibble_byte, nibble_shift]

end nibbles

section families

variable (i : DecodedInstruction) (m : State σ)

/-- The condition-register operations. -/
def crLogicalMnemonics : List Mnemonic :=
  [.crand, .crandc, .creqv, .crnand, .crnor, .cror, .crorc, .crxor]

theorem crLogical_agrees (hm : i.mnemonic ∈ crLogicalMnemonics) :
    (getCpu >>= fun s => setCpu (Fallback.crLogical i s)) m =
      (denote h (liftCrLogical i i.mnemonic) i 0 Env.empty >>= fun _ => pure ()) m := by
  simp only [crLogicalMnemonics, List.mem_cons, List.not_mem_nil, or_false] at hm
  rcases hm with hm | hm | hm | hm | hm | hm | hm | hm <;>
    simp [hm, liftCrLogical, emitCrLogical, Fallback.crLogical, Fallback.crResult, logicalNot, bne,
      BitVec.toNat_setWidth_of_le, -BitVec.toNat_setWidth, -Bool.not_eq_eq_eq_not]

theorem moveFromMsr_agrees :
    (getCpu >>= fun s => setCpu (s.setGpr i.rt s.msr)) m =
      (denote h (liftMoveFromMsr i) i 0 Env.empty >>= fun _ => pure ()) m := by
  simp [liftMoveFromMsr]

theorem moveToMsr_agrees (doubleword : Bool) :
    (getCpu >>= fun s =>
      setCpu (Aot.writeMsr s (s.gpr i.rs) (i.word.getLsbD 16) doubleword)) m =
      (denote h (liftMoveToMsr i doubleword) i 0 Env.empty >>= fun _ => pure ()) m := by
  simp [liftMoveToMsr, flag_ne_zero]

theorem moveCrField_agrees :
    (getCpu >>= fun s => setCpu (s.setCrField i.crfd.toNat (s.crField i.crfs.toNat))) m =
      (denote h (liftMoveCrField i) i 0 Env.empty >>= fun _ => pure ()) m := by
  simp [liftMoveCrField, BitVec.toNat_setWidth_of_le, -BitVec.toNat_setWidth]

theorem moveXerToCr_agrees :
    (getCpu >>= fun s => setCpu (Fallback.moveXerToCr i s)) m =
      (denote h (emitVoid .moveXERToCR [] (i.crfd.setWidth 64)) i 0 Env.empty >>=
        fun _ => pure ()) m := by
  simp [moveXerToCr, Fallback.moveXerToCr, BitVec.toNat_setWidth_of_le, -BitVec.toNat_setWidth]

theorem moveFromCr_agrees :
    (getCpu >>= fun s => setCpu (s.setGpr i.rt (s.cr.setWidth 64))) m =
      (denote h (liftMoveFromCr i) i 0 Env.empty >>= fun _ => pure ()) m := by
  simp [liftMoveFromCr]

theorem moveToCrFields_eq (s : CpuState) :
    Fallback.moveToCrFields i s =
      moveCrFields s ((i.word.extractLsb' 12 8).setWidth 64) ((s.gpr i.rs).setWidth 32) := by
  refine List.foldl_ext _ _ _ fun t f hf => ?_
  have hf : f < 8 := by simpa using hf
  by_cases hz : i.word.extractLsb' 12 8 &&& (0x80#8 >>> f) = 0
  · simp [fieldMask, hz]
  · have hne : (i.word.extractLsb' 12 8 &&& (0x80#8 >>> f)).setWidth 64 ≠ 0 :=
      fun h0 => hz (byte_eq_zero h0)
    simp only [setCrField_nibble _ _ hf, fieldMask, hz, if_false, bne_iff_ne, ne_eq, hne,
      not_false_eq_true, if_true]

theorem moveToCrFields_agrees :
    (getCpu >>= fun s => setCpu (Fallback.moveToCrFields i s)) m =
      (denote h (liftMoveToCrFields i) i 0 Env.empty >>= fun _ => pure ()) m := by
  simp [liftMoveToCrFields, moveToCrFields_eq]

theorem moveFromSpr_agrees :
    (Fallback.readSpr h i.spr >>= fun v => modifyCpu (·.setGpr i.rt v)) m =
      (denote h (liftMoveFromSpr i) i 0 Env.empty >>= fun _ => pure ()) m := by
  simp only [liftMoveFromSpr, emitReadSpr, emitWide, emitTimeBase, Fallback.readSpr]
  split_ifs <;> first | contradiction | simp

theorem moveToSpr_agrees :
    (getCpu >>= fun s => Fallback.writeSpr h i.spr (s.gpr i.rs)) m =
      (denote h (liftMoveToSpr i) i 0 Env.empty >>= fun _ => pure ()) m := by
  simp only [liftMoveToSpr, Fallback.writeSpr]
  split_ifs <;> simp

theorem moveFromTimeBase_agrees (hspr : i.spr = 268 ∨ i.spr = 269) :
    (Fallback.readSpr h i.spr >>= fun v => modifyCpu (·.setGpr i.rt v)) m =
      (denote h (liftMoveFromTimeBase i) i 0 Env.empty >>= fun _ => pure ()) m := by
  simp only [liftMoveFromTimeBase, emitTimeBase, Fallback.readSpr]
  rcases hspr with hspr | hspr <;> simp [hspr]

end families

section branches

variable (i : DecodedInstruction)

/-- The part of `bcx` before the transfer. -/
def decideConditional : Build (ValueId × ValueId) := do
  let cond ← branchCondition i true
  let target ← constantI64 (i.directBranchTarget.setWidth 64)
  writeLink i
  pure (cond, target)

/-- The part of `bclrx` and `bcctrx` before the transfer. -/
def decideIndirect (viaLr : Bool) : Build (ValueId × ValueId) := do
  let target ← if viaLr then readLr else readCtr
  let cond ← branchCondition i viaLr
  writeLink i
  pure (cond, target)

theorem liftBranchConditional_eq :
    (liftBranchConditional i >>= fun _ => pure true) =
      decideConditional i >>= fun r =>
        emitVoid .branchIf [r.1, r.2] (if i.lk then 1 else 0) >>= fun _ => pure true := by
  simp only [liftBranchConditional, decideConditional, bind_assoc, pure_bind]

theorem liftBranchLr_eq :
    (liftBranchLr i >>= fun _ => pure true) =
      decideIndirect i true >>= fun r =>
        emitVoid .branchIndirect [r.1, r.2] (if i.lk then 1 else 0) 1 >>= fun _ => pure true := by
  simp only [liftBranchLr, decideIndirect, if_true, bind_assoc, pure_bind]

theorem liftBranchCtr_eq :
    (liftBranchCtr i >>= fun _ => pure true) =
      decideIndirect i false >>= fun r =>
        emitVoid .branchIndirect [r.1, r.2] (if i.lk then 1 else 0) 2 >>= fun _ => pure true := by
  simp only [liftBranchCtr, decideIndirect, Bool.false_eq_true, if_false, bind_assoc, pure_bind]

/-- A pair of BO bits: the first says that the second is not looked at. -/
theorem bitPair_cases (p q : Bool) :
    p = true ∨ (p = false ∧ q = true) ∨ (p = false ∧ q = false) := by
  cases p <;> cases q <;> simp

theorem transferOperands_eq {env : Env} {c t : ValueId} {p : Bool} {x : BitVec 64}
    (hc : (env c).bind Value.bool? = some p) (ht : (env t).bind Value.u64? = some x) :
    (transferOperands env c t : Run σ _) = pure (p, x.setWidth 32 &&& ~~~3) := by
  simp [transferOperands, hc, ht]

/-- The link writes LR; what was declared before it stays. -/
theorem denote_writeLink (g : DecodedInstruction) (n : ValueId) (env : Env) {c t : ValueId}
    (hc : c ≠ n) (ht : t ≠ n) :
    (denote h (writeLink i) g n env >>= fun r => transferOperands r.2.2 c t) =
      (Fallback.linkBranch i >>= fun _ => transferOperands env c t : Run σ _) := by
  cases hk : i.lk <;>
    simp [writeLink, Fallback.linkBranch, hk, transferOperands, Env.set_of_ne, hc, ht]

theorem decideConditional_agrees (m : State σ) (hm : i.mnemonic = .bcx) :
    (denote h (decideConditional i) i 0 Env.empty >>=
      fun r => transferOperands r.2.2 r.1.1 r.1.2) m = Fallback.branchDecision i m := by
  simp only [decideConditional, branchCondition, Fallback.branchDecision,
    Fallback.branchCondition, hm, logicalNot, denote_bind, bind_assoc, denote_pure, pure_bind]
  rcases bitPair_cases (i.bo.getLsbD 2) (i.bo.getLsbD 1) with h2 | ⟨h2, h1⟩ | ⟨h2, h1⟩ <;>
    rcases bitPair_cases (i.bo.getLsbD 4) (i.bo.getLsbD 3) with h4 | ⟨h4, h3⟩ | ⟨h4, h3⟩ <;>
    simp only [*] <;>
    simp [denote_writeLink, transferOperands_eq, -Bool.not_eq_eq_eq_not,
      BitVec.toNat_setWidth_of_le, -BitVec.toNat_setWidth]

theorem decideIndirect_agrees (m : State σ) (viaLr : Bool)
    (hm : i.mnemonic = if viaLr then .bclrx else .bcctrx) :
    (denote h (decideIndirect i viaLr) i 0 Env.empty >>=
      fun r => transferOperands r.2.2 r.1.1 r.1.2) m = Fallback.branchDecision i m := by
  simp only [decideIndirect, branchCondition, Fallback.branchDecision,
    Fallback.branchCondition, hm, logicalNot, pure_bind]
  cases viaLr
  · rcases bitPair_cases (i.bo.getLsbD 4) (i.bo.getLsbD 3) with h4 | ⟨h4, h3⟩ | ⟨h4, h3⟩ <;>
      simp only [*] <;>
      simp [denote_writeLink, transferOperands_eq, -Bool.not_eq_eq_eq_not,
        BitVec.toNat_setWidth_of_le, -BitVec.toNat_setWidth, BitVec.setWidth_and]
  · rcases bitPair_cases (i.bo.getLsbD 2) (i.bo.getLsbD 1) with h2 | ⟨h2, h1⟩ | ⟨h2, h1⟩ <;>
      rcases bitPair_cases (i.bo.getLsbD 4) (i.bo.getLsbD 3) with h4 | ⟨h4, h3⟩ | ⟨h4, h3⟩ <;>
      simp only [*] <;>
      simp [denote_writeLink, transferOperands_eq, -Bool.not_eq_eq_eq_not,
        BitVec.toNat_setWidth_of_le, -BitVec.toNat_setWidth, BitVec.setWidth_and]

end branches

/-- The instructions of `execute_system` that `lift_control` lowers. -/
def systemMnemonics : List Mnemonic :=
  crLogicalMnemonics ++
    [.mfmsr, .mtmsr, .mtmsrd, .mcrf, .mcrxr, .mfcr, .mtcrf, .mfspr, .mftb, .mtspr]

/-- The conditional branches. -/
def branchMnemonics : List Mnemonic := [.bcx, .bclrx, .bcctrx]

/-- They are control and branch instructions in the catalogue. -/
theorem catalog_control : ∀ op ∈ opcodeCatalog,
    op.mnemonic ∈ systemMnemonics ++ branchMnemonics → op.group = .Control ∨ op.group = .Branch := by
  set_option maxRecDepth 40000 in decide

/-- `mftb` of a special register that is not a time base. -/
def StrayTimeBase (i : DecodedInstruction) : Prop :=
  i.mnemonic = .mftb ∧ i.spr ≠ 268 ∧ i.spr ≠ 269

/-- A control instruction is lifted by `lift_control`. -/
theorem liftGroup_control {i : DecodedInstruction}
    (hg : i.info.group = .Control ∨ i.info.group = .Branch) : liftGroup i = liftControl i := by
  rcases hg with hg | hg <;> simp only [liftGroup, hg]

/-- The system instructions agree, the stray `mftb` aside. -/
theorem executeSystem_eq {i : DecodedInstruction} (hg : liftGroup i = liftControl i)
    (hm : i.mnemonic ∈ systemMnemonics) (hs : ¬StrayTimeBase i) :
    Fallback.executeSystem h i = runLifted h i >>= fun _ => pure true := by
  obtain ⟨address, word, ⟨pattern, mnemonic, format, group⟩⟩ := i
  simp only [DecodedInstruction.mnemonic, systemMnemonics, crLogicalMnemonics, List.cons_append,
    List.nil_append, List.mem_cons, List.not_mem_nil, or_false] at hm
  rcases hm with rfl | rfl | rfl | rfl | rfl | rfl | rfl | rfl | rfl | rfl | rfl | rfl | rfl |
    rfl | rfl | rfl | rfl | rfl
  iterate 8 exact agrees_of h rfl hg fun m => crLogical_agrees h _ m (by
    simp [crLogicalMnemonics, DecodedInstruction.mnemonic])
  case _ => exact agrees_of h rfl hg (moveFromMsr_agrees h _)
  case _ => exact agrees_of h rfl hg fun m => moveToMsr_agrees h _ m false
  case _ => exact agrees_of h rfl hg fun m => moveToMsr_agrees h _ m true
  case _ => exact agrees_of h rfl hg (moveCrField_agrees h _)
  case _ => exact agrees_of h rfl hg (moveXerToCr_agrees h _)
  case _ => exact agrees_of h rfl hg (moveFromCr_agrees h _)
  case _ => exact agrees_of h rfl hg (moveToCrFields_agrees h _)
  case _ => exact agrees_of h (by rw [bind_assoc]; rfl) hg (moveFromSpr_agrees h _)
  case _ =>
    refine agrees_of h (by rw [bind_assoc]; rfl) hg fun m => moveFromTimeBase_agrees h _ m ?_
    by_contra hn
    exact hs ⟨rfl, fun h1 => hn (.inl h1), fun h1 => hn (.inr h1)⟩
  case _ => exact agrees_of h rfl hg (moveToSpr_agrees h _)

/-- Lifted `mftb` asks for the time base, whatever the special register. -/
theorem calls_moveFromTimeBase {i : DecodedInstruction} (hg : liftGroup i = liftControl i)
    (hm : i.mnemonic = .mftb) (m : State σ) :
    calls (runLifted h.logged i >>= fun _ => pure true) m = [.readTimeBase m.cpu] := by
  obtain ⟨address, word, ⟨pattern, mnemonic, format, group⟩⟩ := i
  obtain rfl : mnemonic = .mftb := hm
  rw [runLifted_eq h.logged (a := liftMoveFromTimeBase _) hg]
  simp only [calls, liftMoveFromTimeBase, emitTimeBase]
  split_ifs <;> simp only [denote_bind, denote_readTimeBase, denote_constantI64, bind_assoc,
    getCpu_bind, pure_bind] <;> exact calls_ask h fun a s => by simp

/-- Interpreted `mftb` of a stray special register does not. -/
theorem calls_executeSystem {i : DecodedInstruction} (hs : StrayTimeBase i) (m : State σ) :
    calls (Fallback.executeSystem h.logged i) m ≠ [.readTimeBase m.cpu] := by
  obtain ⟨address, word, ⟨pattern, mnemonic, format, group⟩⟩ := i
  obtain ⟨hm, h8, h9⟩ := hs
  obtain rfl : mnemonic = .mftb := hm
  generalize hi : (⟨address, word, ⟨pattern, .mftb, format, group⟩⟩ : DecodedInstruction) = i
    at h8 h9
  have he : Fallback.executeSystem h.logged i =
      (Fallback.readSpr h.logged i.spr >>= fun v =>
        modifyCpu (·.setGpr i.rt v) >>= fun _ => pure true) := by rw [← hi]; rfl
  rw [calls, he]
  simp only [Fallback.readSpr, h8, h9, if_false, bind_assoc, getCpu_bind]
  split_ifs
  case neg =>
    rw [calls_ask h fun a s => by simp]
    simp
  all_goals simp [State.logged]

/-- The conditional branches reach the interpreter's decision. -/
theorem emittedDecision_agrees {i : DecodedInstruction} (hg : liftGroup i = liftControl i)
    (hm : i.mnemonic ∈ branchMnemonics) : emittedDecision h i = Fallback.branchDecision i := by
  obtain ⟨address, word, ⟨pattern, mnemonic, format, group⟩⟩ := i
  simp only [DecodedInstruction.mnemonic, branchMnemonics, List.mem_cons, List.not_mem_nil,
    or_false] at hm
  funext m
  rcases hm with rfl | rfl | rfl
  · rw [emittedDecision_eq h (hg.trans (liftBranchConditional_eq _))]
    exact decideConditional_agrees h _ m rfl
  · rw [emittedDecision_eq h (hg.trans (liftBranchLr_eq _))]
    exact decideIndirect_agrees h _ m true rfl
  · rw [emittedDecision_eq h (hg.trans (liftBranchCtr_eq _))]
    exact decideIndirect_agrees h _ m false rfl

/-- **The interpreter and compiled code agree on a system instruction exactly when
it is not an `mftb` of a special register other than the time base; on a
conditional branch they always reach the same decision.**  Agreement at a state
is the same calls of the host, the same state and the same way of ending. -/
theorem system_agreement {address : GuestAddress} {word : BitVec 32} {i : DecodedInstruction}
    (hd : Decoder.decode address word = some i) (m : State σ) :
    (i.mnemonic ∈ systemMnemonics →
      (Fallback.executeSystem h.logged i m.logged =
          (runLifted h.logged i >>= fun _ => pure true) m.logged ↔
        ¬(i.mnemonic = .mftb ∧ i.spr ≠ 268 ∧ i.spr ≠ 269))) ∧
    (i.mnemonic ∈ branchMnemonics →
      emittedDecision h.logged i m.logged = Fallback.branchDecision i m.logged) := by
  obtain ⟨-, -, hmem, -⟩ := Decoder.decode_mem hd
  have hcontrol (hm : i.mnemonic ∈ systemMnemonics ++ branchMnemonics) :
      liftGroup i = liftControl i := liftGroup_control (catalog_control _ hmem hm)
  refine ⟨fun hm => ⟨fun heq hs => ?_, fun hs => ?_⟩, fun hm => ?_⟩
  · have hg := hcontrol (List.mem_append_left _ hm)
    have hcalls := calls_moveFromTimeBase h hg hs.1 m
    rw [calls, ← heq] at hcalls
    exact calls_executeSystem h hs m hcalls
  · rw [executeSystem_eq h.logged (hcontrol (List.mem_append_left _ hm)) hm hs]
  · rw [emittedDecision_agrees h.logged (hcontrol (List.mem_append_right _ hm)) hm]

/-- `mfspr r3,1` agrees, at a state where XER is set. -/
theorem system_agreement_mfspr :
    Fallback.executeSystem quietHost.logged ⟨0, 0x7C6102A6, ⟨0x7c0002a6, .mfspr, .XFX, .Control⟩⟩
        (State.logged ⟨{ CpuState.zero with xer := xerCA }, ()⟩) =
      (runLifted quietHost.logged ⟨0, 0x7C6102A6, ⟨0x7c0002a6, .mfspr, .XFX, .Control⟩⟩ >>=
        fun _ => pure true) (State.logged ⟨{ CpuState.zero with xer := xerCA }, ()⟩) :=
  have hd : Decoder.decode 0 0x7C6102A6 =
      some ⟨0, 0x7C6102A6, ⟨0x7c0002a6, .mfspr, .XFX, .Control⟩⟩ := by
    set_option maxRecDepth 40000 in decide
  ((system_agreement quietHost hd _).1 (by decide)).2 (by decide)

/-- `mftb r3,1`: the interpreter reads XER, compiled code the time base. -/
theorem mftb_xer_disagrees :
    Decoder.decode 0 0x7C6102E6 = some ⟨0, 0x7C6102E6, ⟨0x7c0002e6, .mftb, .XFX, .Control⟩⟩ ∧
    (Fallback.executeSystem quietHost ⟨0, 0x7C6102E6, ⟨0x7c0002e6, .mftb, .XFX, .Control⟩⟩
      ⟨{ CpuState.zero with xer := xerCA }, ()⟩).2.cpu.gpr 3 = 0x20000000 ∧
    ((runLifted quietHost ⟨0, 0x7C6102E6, ⟨0x7c0002e6, .mftb, .XFX, .Control⟩⟩ >>=
      fun _ => pure true) ⟨{ CpuState.zero with xer := xerCA }, ()⟩).2.cpu.gpr 3 = 0 := by
  set_option maxRecDepth 40000 in decide

end Agreement
end XenonRecomp
