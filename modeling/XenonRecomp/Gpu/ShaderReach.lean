/-
# What a decoded shader contains

The scan of `ShaderDecoder::decode` goes up to the first EXEC_END and decodes
each address for the first clause that names it, while execution may jump past
that instruction, and may reach one address from clauses that differ about it.
`decode_covers_iff` says which complete shaders are completely decoded.
-/

import XenonRecomp.Gpu.ShaderDecoder

namespace XenonRecomp
namespace Gpu
namespace Microcode

open Library.SortedTable

/-! ### Execution -/

/-- Opcodes that may go on at their target. -/
def ControlFlowOpcode.jumps : ControlFlowOpcode → Bool
  | .condCall | .condJump | .loopStart | .loopEnd => true
  | _ => false

/-- One instruction of a clause. -/
structure Slot where
  address : ℕ
  fetch : Bool
  serialize : Bool
deriving DecidableEq, Repr

namespace ControlFlowInstruction

/-- The instructions of a clause. -/
def slots (raw : ControlFlowInstruction) : List Slot :=
  if raw.isExec then
    (List.range raw.execCount).map fun i =>
      ⟨raw.execAddress + i, raw.execSequence / 2 ^ (i * 2) % 2 ≠ 0,
        raw.execSequence / 2 ^ (i * 2 + 1) % 2 ≠ 0⟩
  else []

/-- The boolean that an instruction tests. -/
def testedBool (raw : ControlFlowInstruction) : Option ℕ :=
  if raw.opcode.testsBool ||
      ((raw.opcode = .condCall || raw.opcode = .condJump) &&
        !bit raw.word0 13 && !bit raw.word0 14) then
    some (bits raw.word1 2 8)
  else none

/-- The loop constant that an instruction reads. -/
def loopConstant (raw : ControlFlowInstruction) : Option ℕ :=
  if raw.opcode = .loopStart ∨ raw.opcode = .loopEnd then some (bits raw.word0 16 5) else none

end ControlFlowInstruction

namespace ShaderProgram

variable (program : ShaderProgram)

/-- The control-flow instruction at an index, if there is one. -/
def controlFlowAt (index : ℕ) : Option ControlFlowInstruction :=
  if index / 2 < program.instructionCount then
    if index % 2 = 0 then some (program.controlFlowPair (index / 2)).1
    else some (program.controlFlowPair (index / 2)).2
  else none

/-- The indices that execution may reach: behind every instruction but an
unconditional EXEC_END, and at the targets of jumps, calls and loops. -/
inductive Reachable : ℕ → Prop
  | start : Reachable 0
  | next {index raw} : Reachable index → program.controlFlowAt index = some raw →
      raw.opcode ≠ .execEnd → Reachable (index + 1)
  | jump {index raw} : Reachable index → program.controlFlowAt index = some raw →
      raw.opcode.jumps = true → Reachable raw.jumpTarget

/-- The instruction at an address, decoded for a clause. -/
def decodeSlot (slot : Slot) : DecodedInstruction :=
  let raw := program.instruction slot.address
  if slot.fetch then (decodeFetch raw slot.address slot.serialize {}).1
  else
    { kind := .alu
      serialize := slot.serialize
      alu := (decodeAlu raw slot.address program.stage {}).1 }

end ShaderProgram

/-- The constants and exports of an instruction are in a reflection. -/
def DecodedInstruction.Reflected (instruction : DecodedInstruction)
    (vertices vertexFetches textures exports : List ℕ) : Prop :=
  match instruction.kind with
  | .alu => instruction.alu.exportData = true → instruction.alu.vectorDestination ∈ exports
  | .vertexFetch => instruction.vertexFetch.fetchConstant ∈ vertices ∧
      instruction.vertexFetch.fetchConstant * 3 + instruction.vertexFetch.fetchConstantSelect ∈
        vertexFetches
  | .textureFetch => instruction.textureFetch.fetchConstant ∈ textures

/-- All that execution may reach is decoded: the control flow, every instruction of
every clause as the clause takes it, and what they use. -/
structure CompletelyDecoded (program : ShaderProgram) (result : DecodedShader) : Prop where
  listed : ∀ index raw, program.Reachable index → program.controlFlowAt index = some raw →
    (decodeCf raw index {}).1 ∈ result.controlFlow
  present : ∀ index raw, program.Reachable index → program.controlFlowAt index = some raw →
    ∀ slot ∈ raw.slots, ∃ serialize,
      program.decodeSlot { slot with serialize } ∈ result.instructions
  constants : ∀ index raw, program.Reachable index → program.controlFlowAt index = some raw →
    (∀ constant ∈ raw.testedBool, constant ∈ result.reflection.boolConstants) ∧
      ∀ constant ∈ raw.loopConstant, constant ∈ result.reflection.loopConstants
  reflected : ∀ index raw, program.Reachable index → program.controlFlowAt index = some raw →
    ∀ slot ∈ raw.slots, (program.decodeSlot slot).Reflected
      result.reflection.vertexFetchConstants result.reflection.vertexFetches
      result.reflection.textureFetchConstants result.reflection.exports

/-! ### Where the scan suffices -/

namespace ShaderProgram

variable (program : ShaderProgram)

/-- No EXEC_END stands before an index. -/
def BeforeEnd (index : ℕ) : Prop :=
  ∀ j < index, ∀ raw, program.controlFlowAt j = some raw → raw.opcode ≠ .execEnd

/-- The control-flow instructions of a group. -/
def halves (group : ℕ) : List (ℕ × ControlFlowInstruction) :=
  [(group * 2, (program.controlFlowPair group).1),
    (group * 2 + 1, (program.controlFlowPair group).2)]

/-- The list up to the first EXEC_END. -/
def upToEnd : List (ℕ × ControlFlowInstruction) → List (ℕ × ControlFlowInstruction)
  | [] => []
  | first :: rest => if first.2.opcode = .execEnd then [first] else first :: upToEnd rest

/-- The control-flow instructions up to the first EXEC_END. -/
def scanned : List (ℕ × ControlFlowInstruction) :=
  upToEnd ((List.range program.instructionCount).flatMap program.halves)

/-- The instructions of the clauses up to the first EXEC_END, in order. -/
def scannedSlots : List Slot :=
  program.scanned.flatMap fun entry => entry.2.slots

/-- Execution stays at or before the first EXEC_END, and each of its clauses takes an
address as a fetch just when the first clause that names the address does. -/
structure ScanSuffices : Prop where
  before : ∀ index raw, program.Reachable index → program.controlFlowAt index = some raw →
    program.BeforeEnd index
  agree : ∀ index raw, program.Reachable index → program.controlFlowAt index = some raw →
    ∀ slot ∈ raw.slots, ∀ first,
      (program.scannedSlots.find? fun s => s.address = slot.address) = some first →
      first.fetch = slot.fetch

end ShaderProgram

/-! ### The sets only grow -/

/-- The sets of the first are in those of the second. -/
structure Usage.Within (u u' : Usage) : Prop where
  bools : u.bools ⊆ u'.bools
  loops : u.loops ⊆ u'.loops
  vertices : u.vertices ⊆ u'.vertices
  vertexFetches : u.vertexFetches ⊆ u'.vertexFetches
  textures : u.textures ⊆ u'.textures
  exports : u.exports ⊆ u'.exports

namespace Usage.Within

theorem refl (u : Usage) : u.Within u :=
  ⟨fun _ h => h, fun _ h => h, fun _ h => h, fun _ h => h, fun _ h => h, fun _ h => h⟩

theorem trans {u u' u'' : Usage} (h : u.Within u') (h' : u'.Within u'') : u.Within u'' :=
  ⟨fun _ hx => h'.bools (h.bools hx), fun _ hx => h'.loops (h.loops hx),
    fun _ hx => h'.vertices (h.vertices hx), fun _ hx => h'.vertexFetches (h.vertexFetches hx),
    fun _ hx => h'.textures (h.textures hx), fun _ hx => h'.exports (h.exports hx)⟩

end Usage.Within

/-- What an instruction uses is in the sets. -/
def DecodedInstruction.In (instruction : DecodedInstruction) (u : Usage) : Prop :=
  instruction.Reflected u.vertices u.vertexFetches u.textures u.exports

theorem DecodedInstruction.In.mono {instruction : DecodedInstruction} {u u' : Usage}
    (h : instruction.In u) (hwithin : u.Within u') : instruction.In u' := by
  unfold DecodedInstruction.In DecodedInstruction.Reflected at *
  cases hkind : instruction.kind <;> rw [hkind] at h
  · exact fun hexport => hwithin.exports (h hexport)
  · exact ⟨hwithin.vertices h.1, hwithin.vertexFetches h.2⟩
  · exact hwithin.textures h

/-- What a control-flow instruction uses is in the sets. -/
structure ControlFlowInstruction.In (raw : ControlFlowInstruction) (u : Usage) : Prop where
  bools : ∀ constant ∈ raw.testedBool, constant ∈ u.bools
  loops : ∀ constant ∈ raw.loopConstant, constant ∈ u.loops

theorem ControlFlowInstruction.In.mono {raw : ControlFlowInstruction} {u u' : Usage}
    (h : raw.In u) (hwithin : u.Within u') : raw.In u' :=
  ⟨fun constant hc => hwithin.bools (h.bools constant hc),
    fun constant hc => hwithin.loops (h.loops constant hc)⟩

/-- The record of a control-flow instruction does not depend on what was collected. -/
theorem decodeCf_fst (raw : ControlFlowInstruction) (index : ℕ) (tally : Tally) :
    (decodeCf raw index tally).1 = (decodeCf raw index {}).1 := by
  unfold decodeCf
  dsimp only
  split_ifs <;> rfl

/-- The clause of a control-flow instruction. -/
theorem decodeCf_exec {raw : ControlFlowInstruction} (hexec : raw.isExec = true) (index : ℕ)
    (tally : Tally) :
    (decodeCf raw index tally).1.target = raw.execAddress ∧
      (decodeCf raw index tally).1.count = raw.execCount ∧
      (decodeCf raw index tally).1.sequence = raw.execSequence := by
  unfold decodeCf
  dsimp only
  rw [if_pos hexec]
  split_ifs <;> exact ⟨rfl, rfl, rfl⟩

theorem Tally.within_useBool (tally : Tally) (constant : ℕ) :
    tally.usage.Within (tally.useBool constant).usage :=
  { Usage.Within.refl tally.usage with
    bools := fun _ h => mem_insertKey.mpr (.inr h) }

theorem Tally.within_useLoop (tally : Tally) (constant : ℕ) :
    tally.usage.Within (tally.useLoop constant).usage :=
  { Usage.Within.refl tally.usage with
    loops := fun _ h => mem_insertKey.mpr (.inr h) }

theorem decodeCf_within (raw : ControlFlowInstruction) (index : ℕ) (tally : Tally) :
    tally.usage.Within (decodeCf raw index tally).2.usage := by
  unfold decodeCf
  dsimp only
  split_ifs <;>
    first
    | exact .refl _
    | exact tally.within_useBool _
    | exact tally.within_useLoop _

/-- A control-flow instruction notes what it uses. -/
theorem decodeCf_in (raw : ControlFlowInstruction) (index : ℕ) (tally : Tally) :
    raw.In (decodeCf raw index tally).2.usage := by
  refine ⟨fun constant hconstant => ?_, fun constant hconstant => ?_⟩
  · unfold ControlFlowInstruction.testedBool at hconstant
    split_ifs at hconstant with htests
    swap
    · exact absurd hconstant (Option.not_mem_none constant)
    cases hconstant
    unfold decodeCf
    dsimp only
    by_cases hbool : raw.opcode.testsBool = true
    · have hexec : raw.isExec = true := by
        unfold ControlFlowInstruction.isExec
        cases hop : raw.opcode <;> rw [hop] at hbool <;> first | rfl | cases hbool
      rw [if_pos hexec, if_pos hbool]
      exact mem_insertKey.mpr (.inl rfl)
    · simp only [hbool, Bool.false_or, Bool.and_eq_true, Bool.or_eq_true, decide_eq_true_iff,
        Bool.not_eq_true'] at htests
      obtain ⟨⟨hop, hconditional⟩, hpredicate⟩ := htests
      have hexec : ¬raw.isExec = true := by
        unfold ControlFlowInstruction.isExec
        rcases hop with hop | hop <;> rw [hop] <;> exact Bool.false_ne_true
      have hloop : ¬(raw.opcode = .loopStart ∨ raw.opcode = .loopEnd) := by
        rcases hop with hop | hop <;> rw [hop] <;> decide
      rw [if_neg hexec, if_neg hloop, if_pos hop, hconditional, hpredicate]
      exact mem_insertKey.mpr (.inl rfl)
  · unfold ControlFlowInstruction.loopConstant at hconstant
    split_ifs at hconstant with hloop
    swap
    · exact absurd hconstant (Option.not_mem_none constant)
    cases hconstant
    have hexec : ¬raw.isExec = true := by
      unfold ControlFlowInstruction.isExec
      rcases hloop with hop | hop <;> rw [hop] <;> exact Bool.false_ne_true
    unfold decodeCf
    dsimp only
    rw [if_neg hexec, if_pos hloop]
    exact mem_insertKey.mpr (.inl rfl)

/-! ### Instructions -/

theorem useSource_usage (source : AluSource) (tally : Tally) :
    ∃ floats, (useSource source tally).usage = { tally.usage with floats } := by
  unfold useSource
  split_ifs
  · exact ⟨tally.usage.floats, rfl⟩
  · exact ⟨_, rfl⟩

theorem useExport_usage (out : AluInstruction) (stage : ShaderStage) (tally : Tally) :
    ∃ memexportStreamConstants, (useExport out stage tally).usage =
      { tally.usage with
        exports := insertKey out.vectorDestination tally.usage.exports
        memexportStreamConstants } := by
  unfold useExport
  dsimp only
  split_ifs <;> exact ⟨_, rfl⟩

/-- An ALU instruction notes its export, and of the other sets constants only. -/
theorem noteAlu_usage (out : AluInstruction) (stage : ShaderStage) (tally : Tally) :
    ∃ floats memexportStreamConstants, (noteAlu out stage tally).usage =
      { tally.usage with
        floats
        memexportStreamConstants
        exports :=
          if out.exportData then insertKey out.vectorDestination tally.usage.exports
          else tally.usage.exports } := by
  unfold noteAlu
  dsimp only
  generalize hstart : (if scalarConstantOperation out.scalarOpcode then
      tally.noteRegisters (out.scalarConstantTemporary + 1) else tally) = start
  have husage : start.usage = tally.usage := by
    rw [← hstart]
    split_ifs <;> rfl
  rw [← husage]
  obtain ⟨f₀, h₀⟩ := useSource_usage out.source0 start
  obtain ⟨f₁, h₁⟩ := useSource_usage out.source1 (useSource out.source0 start)
  obtain ⟨f₂, h₂⟩ := useSource_usage out.source2
    (useSource out.source1 (useSource out.source0 start))
  rw [h₁, h₀] at h₂
  split_ifs with hexport
  · obtain ⟨m, hm⟩ := useExport_usage out stage ((useSource out.source2 (useSource out.source1
      (useSource out.source0 start))).notePredication out.predicate.enabled)
    have hpredicated : ∀ t : Tally, (t.notePredication out.predicate.enabled).usage = t.usage :=
      fun _ => rfl
    rw [hpredicated, h₂] at hm
    exact ⟨f₂, m, hm⟩
  · exact ⟨f₂, _, h₂⟩

theorem noteAlu_within (out : AluInstruction) (stage : ShaderStage) (tally : Tally) :
    tally.usage.Within (noteAlu out stage tally).usage := by
  obtain ⟨floats, memexport, h⟩ := noteAlu_usage out stage tally
  rw [h]
  refine { Usage.Within.refl tally.usage with exports := fun x hx => ?_ }
  dsimp only
  split_ifs
  · exact mem_insertKey.mpr (.inr hx)
  · exact hx

theorem decodeFetch_within (raw : ShaderInstruction) (address : ℕ) (serialize : Bool)
    (tally : Tally) :
    tally.usage.Within (decodeFetch raw address serialize tally).2.usage := by
  unfold decodeFetch
  split_ifs
  · exact { Usage.Within.refl tally.usage with
      vertices := fun _ hx => mem_insertKey.mpr (.inr hx)
      vertexFetches := fun _ hx => mem_insertKey.mpr (.inr hx) }
  · exact { Usage.Within.refl tally.usage with
      textures := fun _ hx => mem_insertKey.mpr (.inr hx) }

theorem decodeFetch_fst (raw : ShaderInstruction) (address : ℕ) (serialize : Bool)
    (tally : Tally) :
    (decodeFetch raw address serialize tally).1 = (decodeFetch raw address serialize {}).1 := by
  unfold decodeFetch
  split_ifs <;> rfl

theorem decodeFetch_in (raw : ShaderInstruction) (address : ℕ) (serialize : Bool)
    (tally : Tally) :
    (decodeFetch raw address serialize {}).1.In
      (decodeFetch raw address serialize tally).2.usage := by
  unfold decodeFetch
  split_ifs
  · exact ⟨mem_insertKey.mpr (.inl rfl), mem_insertKey.mpr (.inl rfl)⟩
  · exact mem_insertKey.mpr (.inl rfl)

/-- What a slot decodes to tells its address and whether it was a fetch. -/
def DecodedInstruction.address (instruction : DecodedInstruction) : ℕ :=
  match instruction.kind with
  | .alu => instruction.alu.address
  | .vertexFetch => instruction.vertexFetch.address
  | .textureFetch => instruction.textureFetch.address

theorem decodeFetch_address (raw : ShaderInstruction) (address : ℕ) (serialize : Bool)
    (tally : Tally) :
    (decodeFetch raw address serialize tally).1.address = address ∧
      (decodeFetch raw address serialize tally).1.kind ≠ .alu := by
  unfold decodeFetch
  split_ifs
  · exact ⟨rfl, ShaderInstructionKind.noConfusion⟩
  · exact ⟨rfl, ShaderInstructionKind.noConfusion⟩

namespace ShaderProgram

variable (program : ShaderProgram)

theorem decodeSlot_spec (slot : Slot) : (program.decodeSlot slot).address = slot.address ∧
    ((program.decodeSlot slot).kind = .alu ↔ slot.fetch = false) := by
  unfold decodeSlot
  cases slot.fetch with
  | true =>
    obtain ⟨haddress, hkind⟩ := decodeFetch_address (program.instruction slot.address)
      slot.address slot.serialize {}
    exact ⟨haddress, iff_of_false hkind (Ne.symm Bool.false_ne_true)⟩
  | false => exact ⟨rfl, iff_of_true rfl rfl⟩

/-! ### The scan of one clause -/

/-- What the scan has done after these slots. -/
structure Did (slots : List Slot) (scan : Scan) : Prop where
  addresses : ∀ address, address ∈ scan.decodedAddresses ↔
    address < program.instructionCount ∧ ∃ slot ∈ slots, slot.address = address
  found : ∀ address slot, address < program.instructionCount →
    (slots.find? fun s => s.address = address) = some slot →
    program.decodeSlot slot ∈ scan.instructions
  only : ∀ instruction ∈ scan.instructions, ∃ slot,
    (slots.find? fun s => s.address = instruction.address) = some slot ∧
      instruction = program.decodeSlot slot
  noted : ∀ instruction ∈ scan.instructions, instruction.In scan.tally.usage
  clean : scan.diagnostics = [] → ∀ slot ∈ slots, slot.address < program.instructionCount

variable {program} {slots : List Slot} {scan scan' : Scan} {slot : Slot}

theorem find_append (address : ℕ) :
    ((slots ++ [slot]).find? fun s => s.address = address) =
      (slots.find? fun s => s.address = address).or
        (if slot.address = address then some slot else none) := by
  rw [List.find?_append, List.find?_singleton]
  by_cases h : slot.address = address <;> simp [h]

/-- An earlier slot is found before a later one. -/
theorem find_append_of_some {address : ℕ} {first : Slot}
    (h : (slots.find? fun s => s.address = address) = some first) :
    ((slots ++ [slot]).find? fun s => s.address = address) = some first := by
  rw [find_append, h, Option.some_or]

/-- A slot out of range, or whose address was decoded before, adds nothing. -/
theorem Did.skip (h : program.Did slots scan)
    (hslot : slot.address < program.instructionCount → ∃ s ∈ slots, s.address = slot.address)
    (haddresses : scan'.decodedAddresses = scan.decodedAddresses)
    (hinstructions : scan'.instructions = scan.instructions) (htally : scan'.tally = scan.tally)
    (hdiagnostics : scan'.diagnostics = [] →
      scan.diagnostics = [] ∧ slot.address < program.instructionCount) :
    program.Did (slots ++ [slot]) scan' where
  addresses := by
    intro address
    rw [haddresses, h.addresses]
    refine and_congr_right fun hlt => ?_
    constructor
    · rintro ⟨s, hs, heq⟩
      exact ⟨s, List.mem_append_left _ hs, heq⟩
    · rintro ⟨s, hs, rfl⟩
      rcases List.mem_append.mp hs with hs | hs
      · exact ⟨s, hs, rfl⟩
      · obtain rfl := List.mem_singleton.mp hs
        exact hslot hlt
  found := by
    intro address first hlt hfind
    rw [hinstructions]
    refine h.found address first hlt ?_
    rw [find_append] at hfind
    cases hearlier : slots.find? fun s => s.address = address with
    | some earlier =>
      rw [hearlier, Option.some_or] at hfind
      exact hfind
    | none =>
      rw [hearlier, Option.none_or] at hfind
      split_ifs at hfind with heq
      subst heq
      obtain ⟨s, hs, heq⟩ := hslot hlt
      exact absurd (decide_eq_true heq) (List.find?_eq_none.mp hearlier s hs)
  only := by
    intro instruction hmem
    rw [hinstructions] at hmem
    obtain ⟨first, hfind, heq⟩ := h.only instruction hmem
    exact ⟨first, find_append_of_some hfind, heq⟩
  noted := by
    rw [hinstructions, htally]
    exact h.noted
  clean := by
    intro hnil s hs
    obtain ⟨hnil, hlt⟩ := hdiagnostics hnil
    rcases List.mem_append.mp hs with hs | hs
    · exact h.clean hnil s hs
    · rw [List.mem_singleton.mp hs]
      exact hlt

/-- A slot with a new address is decoded. -/
theorem Did.add (h : program.Did slots scan) (hlt : slot.address < program.instructionCount)
    (hnew : slot.address ∉ scan.decodedAddresses)
    (haddresses : scan'.decodedAddresses = insertKey slot.address scan.decodedAddresses)
    (hinstructions : scan'.instructions = scan.instructions ++ [program.decodeSlot slot])
    (hwithin : scan.tally.usage.Within scan'.tally.usage)
    (hnoted : (program.decodeSlot slot).In scan'.tally.usage)
    (hdiagnostics : scan'.diagnostics = scan.diagnostics) :
    program.Did (slots ++ [slot]) scan' := by
  have hfirst : (slots.find? fun s => s.address = slot.address) = none := by
    refine List.find?_eq_none.mpr fun s hs hdecide => hnew ?_
    exact (h.addresses slot.address).mpr ⟨hlt, s, hs, of_decide_eq_true hdecide⟩
  have hself : ((slots ++ [slot]).find? fun s => s.address = slot.address) = some slot := by
    rw [find_append, hfirst, Option.none_or, if_pos rfl]
  refine ⟨fun address => ?_, fun address first hltaddress hfind => ?_, fun instruction hmem => ?_,
    fun instruction hmem => ?_, fun hnil s hs => ?_⟩
  · rw [haddresses, mem_insertKey, h.addresses]
    constructor
    · rintro (rfl | ⟨hltaddress, s, hs, heq⟩)
      · exact ⟨hlt, slot, List.mem_append_right _ List.mem_cons_self, rfl⟩
      · exact ⟨hltaddress, s, List.mem_append_left _ hs, heq⟩
    · rintro ⟨hltaddress, s, hs, rfl⟩
      rcases List.mem_append.mp hs with hs | hs
      · exact .inr ⟨hltaddress, s, hs, rfl⟩
      · exact .inl (congrArg Slot.address (List.mem_singleton.mp hs))
  · rw [hinstructions]
    rw [find_append] at hfind
    cases hearlier : slots.find? fun s => s.address = address with
    | some earlier =>
      rw [hearlier, Option.some_or] at hfind
      exact List.mem_append_left _ (h.found address first hltaddress (hearlier.trans hfind))
    | none =>
      rw [hearlier, Option.none_or] at hfind
      split_ifs at hfind
      cases hfind
      exact List.mem_append_right _ List.mem_cons_self
  · rw [hinstructions] at hmem
    rcases List.mem_append.mp hmem with hmem | hmem
    · obtain ⟨first, hfind, heq⟩ := h.only instruction hmem
      exact ⟨first, find_append_of_some hfind, heq⟩
    · obtain rfl := List.mem_singleton.mp hmem
      refine ⟨slot, ?_, rfl⟩
      rw [(program.decodeSlot_spec slot).1]
      exact hself
  · rw [hinstructions] at hmem
    rcases List.mem_append.mp hmem with hmem | hmem
    · exact (h.noted instruction hmem).mono hwithin
    · obtain rfl := List.mem_singleton.mp hmem
      exact hnoted
  · rw [hdiagnostics] at hnil
    rcases List.mem_append.mp hs with hs | hs
    · exact h.clean hnil s hs
    · rw [List.mem_singleton.mp hs]
      exact hlt

/-- The slot of a turn of the loop over a clause. -/
def slotAt (decoded : DecodedControlFlow) (i : ℕ) : Slot :=
  ⟨decoded.target + i, decoded.sequence / 2 ^ (i * 2) % 2 ≠ 0,
    decoded.sequence / 2 ^ (i * 2 + 1) % 2 ≠ 0⟩

/-- One turn of the loop over a clause. -/
theorem Did.scanSlot (h : program.Did slots scan) (decoded : DecodedControlFlow) (i : ℕ) :
    program.Did (slots ++ [slotAt decoded i]) (program.scanSlot decoded scan i) ∧
      scan.tally.usage.Within (program.scanSlot decoded scan i).tally.usage ∧
      (program.scanSlot decoded scan i).controlFlow = scan.controlFlow := by
  rw [ShaderProgram.scanSlot]
  by_cases hrange : program.instructionCount ≤ decoded.target + i
  · rw [if_pos hrange]
    have hout : ¬(slotAt decoded i).address < program.instructionCount := not_lt.mpr hrange
    exact ⟨h.skip (fun hlt => absurd hlt hout) rfl rfl rfl
      fun hnil => absurd hnil (List.append_ne_nil_of_right_ne_nil _ (List.cons_ne_nil _ _)),
      .refl _, rfl⟩
  · rw [if_neg hrange]
    have hlt : (slotAt decoded i).address < program.instructionCount := not_le.mp hrange
    by_cases hold : decoded.target + i ∈ scan.decodedAddresses
    · rw [if_pos hold]
      exact ⟨h.skip (fun _ => ((h.addresses _).mp hold).2) rfl rfl rfl fun hnil => ⟨hnil, hlt⟩,
        .refl _, rfl⟩
    · rw [if_neg hold]
      dsimp only
      by_cases hfetch : decoded.sequence / 2 ^ (i * 2) % 2 ≠ 0
      · have hdecoded : program.decodeSlot (slotAt decoded i) =
            (decodeFetch (program.instruction (decoded.target + i)) (decoded.target + i)
              (slotAt decoded i).serialize scan.tally).1 := by
          rw [decodeFetch_fst, decodeSlot, if_pos (show (slotAt decoded i).fetch = true from
            decide_eq_true hfetch)]
          rfl
        rw [if_pos (decide_eq_true hfetch)]
        refine ⟨h.add hlt hold rfl ?_ (decodeFetch_within ..) ?_ rfl, decodeFetch_within .., rfl⟩
        · rw [hdecoded]
          rfl
        · rw [hdecoded, decodeFetch_fst]
          exact decodeFetch_in ..
      · have hdecoded : program.decodeSlot (slotAt decoded i) =
            { kind := .alu
              serialize := (slotAt decoded i).serialize
              alu := aluInstruction (program.instruction (decoded.target + i))
                (decoded.target + i) } := by
          rw [decodeSlot, if_neg (show ¬(slotAt decoded i).fetch = true from fun hbit =>
            hfetch (of_decide_eq_true hbit))]
          rfl
        rw [if_neg fun hbit => hfetch (of_decide_eq_true hbit)]
        refine ⟨h.add hlt hold rfl ?_ (noteAlu_within ..) ?_ rfl, noteAlu_within .., rfl⟩
        · rw [hdecoded]
          rfl
        · rw [hdecoded]
          intro hexport
          obtain ⟨floats, memexport, husage⟩ := noteAlu_usage
            (aluInstruction (program.instruction (decoded.target + i)) (decoded.target + i))
            program.stage scan.tally
          have hexports := congrArg Usage.exports husage
          rw [if_pos hexport] at hexports
          exact hexports ▸ mem_insertKey.mpr (.inl rfl)

/-! ### The scan of the control flow -/

/-- What the scan has done after these control-flow instructions. -/
structure Scanned (program : ShaderProgram) (entries : List (ℕ × ControlFlowInstruction))
    (scan : Scan) : Prop where
  did : program.Did (entries.flatMap fun entry => entry.2.slots) scan
  controlFlow : scan.controlFlow = entries.map fun entry => (decodeCf entry.2 entry.1 {}).1
  noted : ∀ entry ∈ entries, entry.2.In scan.tally.usage

/-- The loop over a clause. -/
theorem Did.scanClause (h : program.Did slots scan) (decoded : DecodedControlFlow)
    (turns : List ℕ) :
    program.Did (slots ++ turns.map (slotAt decoded))
        (turns.foldl (program.scanSlot decoded) scan) ∧
      scan.tally.usage.Within (turns.foldl (program.scanSlot decoded) scan).tally.usage ∧
      (turns.foldl (program.scanSlot decoded) scan).controlFlow = scan.controlFlow := by
  induction turns generalizing slots scan with
  | nil => exact ⟨by rwa [List.map_nil, List.append_nil], .refl _, rfl⟩
  | cons i turns ih =>
    obtain ⟨hdid, hwithin, hflow⟩ := h.scanSlot decoded i
    obtain ⟨hdid', hwithin', hflow'⟩ := ih hdid
    rw [List.append_assoc] at hdid'
    exact ⟨hdid', hwithin.trans hwithin', hflow'.trans hflow⟩

/-- One control-flow instruction. -/
theorem Scanned.scanHalf {entries : List (ℕ × ControlFlowInstruction)}
    (h : program.Scanned entries scan) (index : ℕ) (raw : ControlFlowInstruction) :
    program.Scanned (entries ++ [(index, raw)]) (program.scanHalf scan index raw) := by
  have hwithin := decodeCf_within raw index scan.tally
  -- The record and the sets, before the clause is scanned.
  have hdid : program.Did (entries.flatMap fun entry => entry.2.slots)
      { scan with
        tally := (decodeCf raw index scan.tally).2
        controlFlow := scan.controlFlow ++ [(decodeCf raw index scan.tally).1] } :=
    ⟨h.did.addresses, h.did.found, h.did.only,
      fun instruction hmem => (h.did.noted instruction hmem).mono hwithin, h.did.clean⟩
  have hflow : scan.controlFlow ++ [(decodeCf raw index scan.tally).1] =
      (entries ++ [(index, raw)]).map fun entry => (decodeCf entry.2 entry.1 {}).1 := by
    rw [h.controlFlow, decodeCf_fst, List.map_append]
    rfl
  have hnoted : ∀ entry ∈ entries ++ [(index, raw)],
      entry.2.In (decodeCf raw index scan.tally).2.usage := by
    intro entry hentry
    rcases List.mem_append.mp hentry with hentry | hentry
    · exact (h.noted entry hentry).mono hwithin
    · rw [List.mem_singleton.mp hentry]
      exact decodeCf_in raw index scan.tally
  have hslots : (entries ++ [(index, raw)]).flatMap (fun entry => entry.2.slots) =
      (entries.flatMap fun entry => entry.2.slots) ++ raw.slots := by
    rw [List.flatMap_append]
    simp
  rw [ShaderProgram.scanHalf]
  dsimp only
  by_cases hexec : raw.isExec = true
  · obtain ⟨htarget, hcount, hsequence⟩ := decodeCf_exec hexec index scan.tally
    have hturns : raw.slots = (List.range (decodeCf raw index scan.tally).1.count).map
        (slotAt (decodeCf raw index scan.tally).1) := by
      rw [ControlFlowInstruction.slots, if_pos hexec, hcount]
      unfold slotAt
      rw [htarget, hsequence]
    rw [if_pos hexec]
    obtain ⟨hdid', hwithin', hflow'⟩ := hdid.scanClause (decodeCf raw index scan.tally).1
      (List.range (decodeCf raw index scan.tally).1.count)
    refine ⟨?_, hflow'.trans hflow, fun entry hentry => (hnoted entry hentry).mono hwithin'⟩
    rw [hslots, hturns]
    exact hdid'
  · have hnone : raw.slots = [] := if_neg hexec
    rw [if_neg hexec]
    refine ⟨?_, hflow, hnoted⟩
    rw [hslots, hnone, List.append_nil]
    exact hdid

/-- The loops over groups and halves. -/
theorem Scanned.scanGroups {entries : List (ℕ × ControlFlowInstruction)}
    (h : program.Scanned entries scan) (groups : List ℕ) :
    program.Scanned (entries ++ upToEnd (groups.flatMap program.halves))
      (program.scanGroups groups scan).1 := by
  induction groups generalizing entries scan with
  | nil =>
    rw [List.flatMap_nil, upToEnd, List.append_nil]
    exact h
  | cons group groups ih =>
    have hfirst := h.scanHalf (group * 2) (program.controlFlowPair group).1
    have hsecond := hfirst.scanHalf (group * 2 + 1) (program.controlFlowPair group).2
    rw [List.flatMap_cons, halves, List.cons_append, List.cons_append, List.nil_append, upToEnd,
      upToEnd, ShaderProgram.scanGroups]
    dsimp only
    by_cases hend : (program.controlFlowPair group).1.opcode = .execEnd
    · rw [if_pos hend, if_pos hend]
      exact hfirst
    · rw [if_neg hend, if_neg hend]
      by_cases hend' : (program.controlFlowPair group).2.opcode = .execEnd
      · rw [if_pos hend', if_pos hend']
        rw [List.append_assoc] at hsecond
        exact hsecond
      · rw [if_neg hend', if_neg hend']
        have hrest := ih hsecond
        rw [List.append_assoc, List.append_assoc] at hrest
        exact hrest

variable (program)

theorem scanned_decode :
    program.Scanned program.scanned
      (program.scanGroups (List.range program.instructionCount) {}).1 := by
  have hempty : program.Scanned [] ({} : Scan) := by
    refine ⟨⟨fun address => ?_, fun address slot _ hfind => ?_, fun instruction hmem => ?_,
      fun instruction hmem => ?_, fun _ slot hslot => absurd hslot List.not_mem_nil⟩, rfl,
      fun entry hentry => absurd hentry List.not_mem_nil⟩
    · refine iff_of_false List.not_mem_nil ?_
      rintro ⟨-, slot, hslot, -⟩
      exact List.not_mem_nil hslot
    · cases hfind
    · exact absurd hmem List.not_mem_nil
    · exact absurd hmem List.not_mem_nil
  exact hempty.scanGroups (List.range program.instructionCount)

/-! ### Indices -/

/-- The control-flow instruction at an index of the program. -/
def half (index : ℕ) : ControlFlowInstruction :=
  if index % 2 = 0 then (program.controlFlowPair (index / 2)).1
  else (program.controlFlowPair (index / 2)).2

theorem controlFlowAt_eq_some {index : ℕ} {raw : ControlFlowInstruction} :
    program.controlFlowAt index = some raw ↔
      index < program.instructionCount * 2 ∧ raw = program.half index := by
  unfold controlFlowAt half
  have hlt : index / 2 < program.instructionCount ↔ index < program.instructionCount * 2 :=
    Nat.div_lt_iff_lt_mul Nat.two_pos
  by_cases hrange : index < program.instructionCount * 2
  · rw [if_pos (hlt.mpr hrange)]
    split_ifs <;> simp [hrange, eq_comm]
  · rw [if_neg fun h => hrange (hlt.mp h)]
    simp [hrange]

theorem flatMap_halves (count : ℕ) : (List.range count).flatMap program.halves =
    (List.range (count * 2)).map fun index => (index, program.half index) := by
  induction count with
  | zero => rfl
  | succ count ih =>
    have heven : program.half (count * 2) = (program.controlFlowPair count).1 := by
      rw [half, if_pos (Nat.mul_mod_left count 2), Nat.mul_div_cancel count Nat.two_pos]
    have hodd : program.half (count * 2 + 1) = (program.controlFlowPair count).2 := by
      rw [half, if_neg (by omega), show (count * 2 + 1) / 2 = count by omega]
    have hdouble : (count + 1) * 2 = count * 2 + 1 + 1 := by omega
    rw [List.range_succ, List.flatMap_append, ih, hdouble, List.range_succ, List.range_succ,
      List.map_append, List.map_append, List.flatMap_singleton, halves, List.append_assoc,
      List.map_singleton, List.map_singleton, heven, hodd]
    rfl

/-- An instruction is in the list up to the first EXEC_END when none stands before. -/
theorem mem_upToEnd {index : ℕ} {raw : ControlFlowInstruction} (first count : ℕ) :
    (index, raw) ∈ upToEnd ((List.range' first count).map fun i => (i, program.half i)) ↔
      (first ≤ index ∧ index < first + count ∧ raw = program.half index) ∧
        ∀ j, first ≤ j → j < index → (program.half j).opcode ≠ .execEnd := by
  induction count generalizing first with
  | zero =>
    refine iff_of_false List.not_mem_nil ?_
    rintro ⟨⟨hle, hlt, -⟩, -⟩
    omega
  | succ count ih =>
    rw [List.range'_succ, List.map_cons, upToEnd]
    dsimp only
    by_cases hend : (program.half first).opcode = .execEnd
    · rw [if_pos hend, List.mem_singleton, Prod.mk.injEq]
      constructor
      · rintro ⟨rfl, rfl⟩
        exact ⟨⟨le_rfl, by omega, rfl⟩, fun j hle hlt => absurd hlt (not_lt.mpr hle)⟩
      · rintro ⟨⟨hle, -, heq⟩, hbefore⟩
        have hfirst : index = first := by
          by_contra hne
          exact hbefore first le_rfl (by omega) hend
        exact ⟨hfirst, hfirst ▸ heq⟩
    · rw [if_neg hend, List.mem_cons, ih (first + 1), Prod.mk.injEq]
      constructor
      · rintro (⟨rfl, rfl⟩ | ⟨⟨hle, hlt, heq⟩, hbefore⟩)
        · exact ⟨⟨le_rfl, by omega, rfl⟩, fun j hle hlt => absurd hlt (not_lt.mpr hle)⟩
        · refine ⟨⟨by omega, by omega, heq⟩, fun j hj hlt' => ?_⟩
          rcases eq_or_ne j first with rfl | hne
          · exact hend
          · exact hbefore j (by omega) hlt'
      · rintro ⟨⟨hle, hlt, heq⟩, hbefore⟩
        rcases eq_or_ne index first with rfl | hne
        · exact .inl ⟨rfl, heq⟩
        · exact .inr ⟨⟨by omega, by omega, heq⟩, fun j hj => hbefore j (by omega)⟩

theorem mem_scanned {index : ℕ} {raw : ControlFlowInstruction} :
    (index, raw) ∈ program.scanned ↔
      program.controlFlowAt index = some raw ∧ program.BeforeEnd index := by
  rw [scanned, flatMap_halves, List.range_eq_range', mem_upToEnd, controlFlowAt_eq_some]
  unfold BeforeEnd
  constructor
  · rintro ⟨⟨-, hlt, heq⟩, hbefore⟩
    refine ⟨⟨by omega, heq⟩, fun j hj raw' hraw' => ?_⟩
    rw [(program.controlFlowAt_eq_some.mp hraw').2]
    exact hbefore j (Nat.zero_le j) hj
  · rintro ⟨⟨hlt, heq⟩, hbefore⟩
    exact ⟨⟨Nat.zero_le _, by omega, heq⟩, fun j _ hj =>
      hbefore j hj _ (program.controlFlowAt_eq_some.mpr ⟨by omega, rfl⟩)⟩

/-! ### The reflection at the end -/

theorem finishReflection_lists (tally : Tally) :
    (program.finishReflection tally).boolConstants = tally.usage.bools ∧
      (program.finishReflection tally).loopConstants = tally.usage.loops ∧
      (program.finishReflection tally).vertexFetchConstants = tally.usage.vertices ∧
      (program.finishReflection tally).vertexFetches = tally.usage.vertexFetches ∧
      (program.finishReflection tally).textureFetchConstants = tally.usage.textures ∧
      (program.finishReflection tally).exports = tally.usage.exports := by
  have hkeeps : ∀ (indices : List ℕ) (r : ShaderReflection),
      (indices.foldl program.countExport r).boolConstants = r.boolConstants ∧
        (indices.foldl program.countExport r).loopConstants = r.loopConstants ∧
        (indices.foldl program.countExport r).vertexFetchConstants = r.vertexFetchConstants ∧
        (indices.foldl program.countExport r).vertexFetches = r.vertexFetches ∧
        (indices.foldl program.countExport r).textureFetchConstants = r.textureFetchConstants ∧
        (indices.foldl program.countExport r).exports = r.exports := by
    intro indices
    induction indices with
    | nil => exact fun r => ⟨rfl, rfl, rfl, rfl, rfl, rfl⟩
    | cons index indices ih =>
      intro r
      obtain ⟨h₁, h₂, h₃, h₄, h₅, h₆⟩ := ih (program.countExport r index)
      have hone : (program.countExport r index).boolConstants = r.boolConstants ∧
          (program.countExport r index).loopConstants = r.loopConstants ∧
          (program.countExport r index).vertexFetchConstants = r.vertexFetchConstants ∧
          (program.countExport r index).vertexFetches = r.vertexFetches ∧
          (program.countExport r index).textureFetchConstants = r.textureFetchConstants ∧
          (program.countExport r index).exports = r.exports := by
        unfold countExport
        dsimp only
        split_ifs <;> exact ⟨rfl, rfl, rfl, rfl, rfl, rfl⟩
      exact ⟨h₁.trans hone.1, h₂.trans hone.2.1, h₃.trans hone.2.2.1, h₄.trans hone.2.2.2.1,
        h₅.trans hone.2.2.2.2.1, h₆.trans hone.2.2.2.2.2⟩
  exact hkeeps _ _

/-- What a complete shader consists of. -/
theorem decode_of_complete (hcomplete : program.decode.complete = true) :
    ∃ scan, program.Scanned program.scanned scan ∧
      (∀ slot ∈ program.scannedSlots, slot.address < program.instructionCount) ∧
      program.decode.controlFlow = scan.controlFlow ∧
      program.decode.instructions = scan.instructions ∧
      program.decode.reflection = program.finishReflection scan.tally := by
  unfold decode at hcomplete ⊢
  by_cases hwhole : program.completeInstructionStream = false
  · rw [if_pos hwhole] at hcomplete
    cases hcomplete
  · rw [if_neg hwhole] at hcomplete ⊢
    obtain ⟨-, hclean⟩ := Bool.and_eq_true_iff.mp hcomplete
    have hscanned := program.scanned_decode
    exact ⟨_, hscanned, hscanned.did.clean (List.isEmpty_iff.mp hclean), rfl, rfl, rfl⟩

/-- Whether an instruction is reflected does not depend on its serialize bit. -/
theorem decodeSlot_reflected {slot : Slot} {serialize : Bool}
    {vertices vertexFetches textures exports : List ℕ}
    (h : (program.decodeSlot { slot with serialize }).Reflected vertices vertexFetches textures
      exports) :
    (program.decodeSlot slot).Reflected vertices vertexFetches textures exports := by
  unfold decodeSlot at h ⊢
  dsimp only at h ⊢
  split_ifs at h ⊢
  · unfold decodeFetch at h ⊢
    split_ifs at h ⊢ <;> exact h
  · exact h

theorem decodeCf_index (raw : ControlFlowInstruction) (index : ℕ) :
    (decodeCf raw index {}).1.index = index := by
  unfold decodeCf
  dsimp only
  split_ifs <;> rfl

/-- **When a complete shader is completely decoded.**  The result holds all that
execution may reach just when execution stays at or before the first EXEC_END, and
every clause that it reaches takes each address as the first clause that names the
address does. -/
theorem decode_covers_iff (hcomplete : program.decode.complete = true) :
    CompletelyDecoded program program.decode ↔ program.ScanSuffices := by
  obtain ⟨scan, hscanned, hclean, hflow, hinstructions, hreflection⟩ :=
    program.decode_of_complete hcomplete
  obtain ⟨hbools, hloops, hvertices, hvertexFetches, htextures, hexports⟩ :=
    program.finishReflection_lists scan.tally
  constructor
  · intro hall
    refine ⟨fun index raw hreach hat => ?_, fun index raw hreach hat slot hslot first hfind => ?_⟩
    · have hmem := hall.listed index raw hreach hat
      rw [hflow, hscanned.controlFlow] at hmem
      obtain ⟨⟨index', raw'⟩, hentry, heq⟩ := List.mem_map.mp hmem
      have hindex := congrArg DecodedControlFlow.index heq
      rw [decodeCf_index, decodeCf_index] at hindex
      exact hindex ▸ (program.mem_scanned.mp hentry).2
    · obtain ⟨serialize, hmem⟩ := hall.present index raw hreach hat slot hslot
      rw [hinstructions] at hmem
      obtain ⟨found, hfound, heq⟩ := hscanned.did.only _ hmem
      obtain ⟨haddress, hkind⟩ := program.decodeSlot_spec { slot with serialize }
      rw [haddress] at hfound
      obtain rfl : first = found := Option.some.inj (hfind.symm.trans hfound)
      have hkind' := (program.decodeSlot_spec first).2
      rw [← heq, hkind] at hkind'
      dsimp only at hkind'
      cases hfirst : first.fetch with
      | false => exact (hkind'.mpr hfirst).symm
      | true =>
        refine (Bool.eq_true_of_not_eq_false fun hself => ?_).symm
        exact Bool.false_ne_true ((hkind'.mp hself).symm.trans hfirst)
  · intro hsuffices
    have hentry : ∀ index raw, program.Reachable index →
        program.controlFlowAt index = some raw → (index, raw) ∈ program.scanned :=
      fun index raw hreach hat =>
        program.mem_scanned.mpr ⟨hat, hsuffices.before index raw hreach hat⟩
    -- The slot that stands for a slot of a clause that is reached.
    have hfirst : ∀ index raw, program.Reachable index →
        program.controlFlowAt index = some raw → ∀ slot ∈ raw.slots,
        ∃ serialize, program.decodeSlot { slot with serialize } ∈ scan.instructions := by
      intro index raw hreach hat slot hslot
      have hmem : slot ∈ program.scannedSlots :=
        List.mem_flatMap.mpr ⟨_, hentry index raw hreach hat, hslot⟩
      have hsome : (program.scannedSlots.find? fun s => s.address = slot.address).isSome :=
        List.find?_isSome.mpr ⟨slot, hmem, decide_eq_true rfl⟩
      obtain ⟨first, hfind⟩ := Option.isSome_iff_exists.mp hsome
      have hfetch := hsuffices.agree index raw hreach hat slot hslot first hfind
      have haddress : first.address = slot.address :=
        of_decide_eq_true (List.find?_some hfind :)
      refine ⟨first.serialize, ?_⟩
      have heq : { slot with serialize := first.serialize } = first := by
        rw [← haddress, ← hfetch]
      rw [heq]
      exact hscanned.did.found slot.address first (hclean slot hmem) hfind
    refine ⟨fun index raw hreach hat => ?_, fun index raw hreach hat slot hslot => ?_,
      fun index raw hreach hat => ?_, fun index raw hreach hat slot hslot => ?_⟩
    · rw [hflow, hscanned.controlFlow]
      exact List.mem_map.mpr ⟨(index, raw), hentry index raw hreach hat, rfl⟩
    · rw [hinstructions]
      exact hfirst index raw hreach hat slot hslot
    · rw [hreflection, hbools, hloops]
      have hnoted := hscanned.noted _ (hentry index raw hreach hat)
      exact ⟨hnoted.bools, hnoted.loops⟩
    · obtain ⟨serialize, hmem⟩ := hfirst index raw hreach hat slot hslot
      rw [hreflection, hvertices, hvertexFetches, htextures, hexports]
      exact program.decodeSlot_reflected (hscanned.did.noted _ hmem)

/-- A pixel shader of one clause with one texture fetch. -/
def oneFetch : ShaderProgram :=
  ofWords .pixel [0x00011001, 0x00002000, 0, 0x00100001, 0, 0] 0

/-- The condition holds of a shader with one clause. -/
theorem decode_covers_oneFetch :
    CompletelyDecoded oneFetch oneFetch.decode ↔ oneFetch.ScanSuffices :=
  decode_covers_iff oneFetch (by decide)

/-- A pixel shader that jumps over the first EXEC_END to a clause with a texture
fetch. -/
def jumpOverEnd : ShaderProgram :=
  ofWords .pixel
    [0x00002002, 0x0000B000, 0x20000000, 0x00011002, 0x00002000, 0, 0x00100001, 0, 0] 0

/-- **A jump over the first EXEC_END is not followed.**  The shader counts as
complete, and neither the clause that the jump leads to nor its texture fetch is in
the result. -/
theorem decode_misses_jump : jumpOverEnd.decode.complete = true ∧
    jumpOverEnd.decode.reflection.textureFetchConstants = [] ∧
    ¬CompletelyDecoded jumpOverEnd jumpOverEnd.decode := by
  refine ⟨by decide, by decide, fun hall => ?_⟩
  have hstart : jumpOverEnd.controlFlowAt 0 = some ⟨0x00002002, 0xB000, .condJump⟩ := by
    decide
  have hclause : jumpOverEnd.controlFlowAt 2 = some ⟨0x00011002, 0x2000, .execEnd⟩ := by
    decide
  have hreach : jumpOverEnd.Reachable 2 := .jump .start hstart rfl
  have hlisted := hall.listed 2 _ hreach hclause
  revert hlisted
  decide

end ShaderProgram

end Microcode
end Gpu
end XenonRecomp
