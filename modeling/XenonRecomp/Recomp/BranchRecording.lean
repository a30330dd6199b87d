/-
# What the scanners record of a branch

`is_terminal` and `is_conditional_control_transfer`
(`analysis/discovery/instruction_classification.cpp`), and what the three scanners of
`analysis/control_flow/` (the primary scan, the function chunks and the local control
flow closure) write down for one decoded instruction.  The targets that a scanner found
for an indirect transfer, from a hint, from the values of registers or from a jump
table, are part of the site.
-/

import XenonRecomp.Cpu.Decoder
import XenonRecomp.Recomp.Discovery

namespace XenonRecomp
namespace Recomp

open Cpu

/-- `is_terminal`. -/
def isTerminal (instruction : DecodedInstruction) : Bool :=
  if instruction.info.group ≠ .Branch ∨ instruction.lk = true then false
  else if instruction.info.format = .I then true
  else if instruction.mnemonic = .bx then true
  else if instruction.mnemonic = .bcx ∨ instruction.mnemonic = .bclrx ∨
      instruction.mnemonic = .bcctrx then
    instruction.bo &&& 0x14 == 0x14
  else false

/-- `is_conditional_control_transfer`. -/
def isConditionalControlTransfer (instruction : DecodedInstruction) : Bool :=
  if instruction.info.group ≠ .Branch then false
  else if instruction.info.format = .I then false
  else if instruction.info.format = .B ∨ instruction.info.format = .XL then
    instruction.bo &&& 0x14 != 0x14
  else false

/-- A decoded instruction, and the targets that were found for it when it is an indirect
transfer. -/
structure Site where
  instruction : DecodedInstruction
  targets : List GuestAddress
  decoded : Decoder.decode instruction.address instruction.word = some instruction

namespace Site

variable (site : Site)

/-- The instruction is a `bclrx` without a link: it goes to the address in LR. -/
def returns : Bool :=
  site.instruction.mnemonic == .bclrx && !site.instruction.lk

/-- The instruction names its target itself. -/
def isDirect : Bool :=
  site.instruction.info.format == .I || site.instruction.info.format == .B

/-- The instruction takes its target from a register, and does not return. -/
def isIndirect : Bool :=
  site.instruction.info.format == .XL && !site.returns

/-- The branch that is recorded for a target. -/
def branchTo (indirect : Bool) (target : GuestAddress) : BranchReference :=
  if site.instruction.lk then
    { site := site.instruction.address
      target := target
      terminal := false
      indirect := indirect
      linked := true
      conditional := indirect && isConditionalControlTransfer site.instruction
      isFallthrough := true }
  else
    { site := site.instruction.address
      target := target
      terminal := isTerminal site.instruction
      indirect := indirect
      linked := false
      conditional := isConditionalControlTransfer site.instruction
      isFallthrough := !isTerminal site.instruction }

/-- The targets for which a scanner records a branch. -/
def recordedTargets : List GuestAddress :=
  if site.instruction.info.group ≠ .Branch then []
  else if site.isDirect then [site.instruction.directBranchTarget]
  else if site.isIndirect then site.targets
  else []

/-- The branches that a scanner records for an instruction. -/
def branches : List BranchReference :=
  site.recordedTargets.map (site.branchTo !site.isDirect)

/-- The instruction sets `has_explicit_return`. -/
def returnsExplicitly : Bool :=
  site.returns && isTerminal site.instruction

/-- The targets of the instruction, when it is a branch without a link that does not
return. -/
def exitTargets : List GuestAddress :=
  if site.instruction.lk then [] else site.recordedTargets

/-- The instruction leaves to an address that is not known. -/
def leavesUnknown : Bool :=
  site.instruction.info.group == .Branch && !site.instruction.lk && site.isIndirect &&
    site.targets.isEmpty

/-- The row of the catalogue of a branch that is no trap is one of four. -/
theorem branch_mnemonic (hgroup : site.instruction.info.group = .Branch)
    (hformat : site.instruction.info.format = .I ∨ site.instruction.info.format = .B ∨
      site.instruction.info.format = .XL) :
    site.instruction.info.format = .I ∨ site.instruction.mnemonic = .bcx ∨
      site.instruction.mnemonic = .bclrx ∨ site.instruction.mnemonic = .bcctrx := by
  have hrow : ∀ op ∈ opcodeCatalog, op.group = .Branch →
      (op.format = .I ∨ op.format = .B ∨ op.format = .XL) →
        op.format = .I ∨ op.mnemonic = .bcx ∨ op.mnemonic = .bclrx ∨ op.mnemonic = .bcctrx := by
    set_option maxRecDepth 40000 in decide
  exact hrow _ (Decoder.decode_mem site.decoded).2.2.1 hgroup hformat

/-- The row of the catalogue of a return. -/
theorem returns_row (h : site.returns = true) :
    site.instruction.info.group = .Branch ∧ site.instruction.info.format = .XL ∧
      site.instruction.lk = false := by
  rw [returns, Bool.and_eq_true, beq_iff_eq, Bool.not_eq_true'] at h
  have hrow : ∀ op ∈ opcodeCatalog, op.mnemonic = .bclrx →
      op.group = .Branch ∧ op.format = .XL := by
    set_option maxRecDepth 40000 in decide
  obtain ⟨hgroup, hformat⟩ := hrow _ (Decoder.decode_mem site.decoded).2.2.1 h.1
  exact ⟨hgroup, hformat, h.2⟩

/-- A branch without a link and without a condition ends its block. -/
theorem isTerminal_of_unconditional (hgroup : site.instruction.info.group = .Branch)
    (hformat : site.instruction.info.format = .I ∨ site.instruction.info.format = .B ∨
      site.instruction.info.format = .XL)
    (hlk : site.instruction.lk = false)
    (hconditional : isConditionalControlTransfer site.instruction = false) :
    isTerminal site.instruction = true := by
  rw [isTerminal, if_neg (by simp [hgroup, hlk])]
  split
  · rfl
  · next hI =>
    split
    · rfl
    · rw [if_pos ((site.branch_mnemonic hgroup hformat).resolve_left hI)]
      rw [isConditionalControlTransfer, if_neg (by simp [hgroup]), if_neg hI,
        if_pos (hformat.resolve_left hI)] at hconditional
      simpa using hconditional

/-- An unconditional return is seen as one. -/
theorem conditional_of_returns (h : site.returns = true)
    (hexplicit : site.returnsExplicitly = false) :
    isConditionalControlTransfer site.instruction = true := by
  obtain ⟨hgroup, hformat, hlk⟩ := site.returns_row h
  rw [returnsExplicitly, h, Bool.true_and] at hexplicit
  by_contra hconditional
  rw [site.isTerminal_of_unconditional hgroup (Or.inr (Or.inr hformat)) hlk
    (Bool.eq_false_iff.2 hconditional)] at hexplicit
  exact absurd hexplicit (by decide)

/-- A branch is recorded for a branch of the catalogue that is no trap. -/
theorem row_of_mem_recordedTargets {target : GuestAddress} (h : target ∈ site.recordedTargets) :
    site.instruction.info.group = .Branch ∧
      (site.instruction.info.format = .I ∨ site.instruction.info.format = .B ∨
        site.instruction.info.format = .XL) := by
  unfold recordedTargets at h
  split at h
  · exact absurd h List.not_mem_nil
  · next hgroup =>
    refine ⟨not_not.1 hgroup, ?_⟩
    split at h
    · next hdirect =>
      rw [isDirect, Bool.or_eq_true, beq_iff_eq, beq_iff_eq] at hdirect
      exact hdirect.imp_right Or.inl
    · split at h
      · next hindirect =>
        rw [isIndirect, Bool.and_eq_true, beq_iff_eq] at hindirect
        exact Or.inr (Or.inr hindirect.1)
      · exact absurd h List.not_mem_nil

/-- **The branches that end a block without a link or a condition are the unconditional
exits.** -/
theorem exists_branch_iff {target : GuestAddress} :
    (∃ branch ∈ site.branches, branch.linked = false ∧ branch.terminal = true ∧
      branch.conditional = false ∧ branch.target = target) ↔
    isConditionalControlTransfer site.instruction = false ∧ target ∈ site.exitTargets := by
  unfold branches exitTargets
  constructor
  · rintro ⟨branch, hmem, hlinked, -, hconditional, rfl⟩
    obtain ⟨t, ht, rfl⟩ := List.mem_map.1 hmem
    unfold branchTo at hlinked hconditional ⊢
    by_cases hlk : site.instruction.lk = true
    · rw [if_pos hlk] at hlinked
      exact absurd hlinked Bool.noConfusion
    · rw [if_neg hlk] at hconditional ⊢
      rw [if_neg hlk]
      exact ⟨hconditional, ht⟩
  · rintro ⟨hconditional, htarget⟩
    by_cases hlk : site.instruction.lk = true
    · rw [if_pos hlk] at htarget
      exact absurd htarget List.not_mem_nil
    · rw [if_neg hlk] at htarget
      obtain ⟨hgroup, hformat⟩ := site.row_of_mem_recordedTargets htarget
      refine ⟨_, List.mem_map.2 ⟨target, htarget, rfl⟩, ?_⟩
      rw [branchTo, if_neg hlk]
      exact ⟨rfl, site.isTerminal_of_unconditional hgroup hformat (Bool.eq_false_iff.2 hlk)
        hconditional, hconditional, rfl⟩

end Site

end Recomp
end XenonRecomp
