/-
# Analysis hint sets

`include/xenon/recomp/analysis_schema.hpp` and `src/recomp/hints/analysis_schema.cpp`:
what a module may declare about an executable, and `validate_hint_set`, which returns the
errors it finds.  The fields that the validator and the chunk scanner do not read (names,
flags, symbols, patches and hooks, the known targets of indirect sites) are left out.
-/

import Mathlib.Data.List.Pairwise
import XenonRecomp.Recomp.Discovery

namespace XenonRecomp
namespace Recomp

open Cpu

/-- `kAnalysisSchemaVersion`. -/
def kAnalysisSchemaVersion : ℤ := 2

/-- `FunctionHint`. -/
structure FunctionHint where
  address : GuestAddress
  stop : Option GuestAddress := none
  size : Option (BitVec 32) := none
  parentFunction : Option GuestAddress := none
deriving DecidableEq, Repr

/-- `FunctionChunk`. -/
structure FunctionChunk where
  start : GuestAddress
  stop : GuestAddress
  parentFunction : GuestAddress
deriving DecidableEq, Repr

/-- `SwitchTableHint`. -/
structure SwitchTableHint where
  site : GuestAddress
  tableAddress : Option GuestAddress := none
  entryCount : Option (BitVec 32) := none
  explicitTargets : List GuestAddress := []
deriving DecidableEq, Repr

/-- `RuntimeHelperKind`. -/
inductive RuntimeHelperKind where
  | setJmp | longJmp | saveGprLr | restoreGprLr | saveFpr | restoreFpr | saveVmx | restoreVmx
  | saveVmx128 | restoreVmx128
deriving DecidableEq, Repr

namespace RuntimeHelperKind

/-- `runtime_helper_kind_is_register_range`. -/
def isRegisterRange : RuntimeHelperKind → Bool
  | .setJmp | .longJmp => false
  | _ => true

/-- `runtime_helper_register_limit`. -/
def registerLimit : RuntimeHelperKind → ℕ
  | .saveVmx128 | .restoreVmx128 => 128
  | _ => 32

/-- `runtime_helper_register_family_base`. -/
def registerFamilyBase : RuntimeHelperKind → ℕ
  | .saveVmx128 | .restoreVmx128 => 64
  | _ => 14

/-- `runtime_helper_register_stride`. -/
def registerStride : RuntimeHelperKind → ℕ
  | .saveVmx | .restoreVmx | .saveVmx128 | .restoreVmx128 => 8
  | _ => 4

end RuntimeHelperKind

/-- `RuntimeHelper`. -/
structure RuntimeHelper where
  address : GuestAddress
  kind : RuntimeHelperKind
  registerStart : Option (BitVec 32) := none
deriving DecidableEq, Repr

/-- `expand_runtime_helpers`. -/
def expandRuntimeHelpers (helpers : List RuntimeHelper) : List RuntimeHelper :=
  helpers.flatMap fun helper =>
    if !helper.kind.isRegisterRange then [helper]
    else
      let start := (helper.registerStart.map BitVec.toNat).getD helper.kind.registerFamilyBase
      (List.range (helper.kind.registerLimit - start)).map fun k =>
        { address := helper.address + BitVec.ofNat 32 (k * helper.kind.registerStride)
          kind := helper.kind
          registerStart := some (BitVec.ofNat 32 (start + k)) }

/-- `RegionKind`. -/
inductive RegionKind where
  | data | ignored | invalidInstruction | codeOverride
deriving DecidableEq, Repr

/-- `RegionHint`. -/
structure RegionHint where
  start : GuestAddress
  stop : GuestAddress
  kind : RegionKind
deriving DecidableEq, Repr

/-- `InstructionPatternHint`. -/
structure InstructionPatternHint where
  value : BitVec 32
  mask : BitVec 32 := 0xFFFFFFFF
  skipBytes : BitVec 32 := 4
  reason : String := ""
  scopeStart : Option GuestAddress := none
  scopeStop : Option GuestAddress := none
deriving DecidableEq, Repr

/-- `AnalysisHintSetV2`. -/
structure AnalysisHintSetV2 where
  schemaVersion : ℤ := kAnalysisSchemaVersion
  functions : List FunctionHint := []
  chunks : List FunctionChunk := []
  switches : List SwitchTableHint := []
  runtimeHelpers : List RuntimeHelper := []
  instructionPatterns : List InstructionPatternHint := []
  regions : List RegionHint := []
deriving DecidableEq, Repr

/-- `hex_address`. -/
def hexAddress (address : GuestAddress) : String := "0x" ++ hexString address

/-! ### The checks of the validator -/

/-- `functions_by_address`: the first hint with an address. -/
def functionAt (functions : List FunctionHint) (address : GuestAddress) : Option FunctionHint :=
  functions.find? fun function => function.address == address

/-- The checks of one function on its own, behind the hints before it. -/
def functionErrors (before : List FunctionHint) (function : FunctionHint) : List String :=
  if (functionAt before function.address).isSome then
    ["duplicate function hint at " ++ hexAddress function.address]
  else
    (match function.stop with
      | some stop =>
        if stop ≤ function.address then
          ["function at " ++ hexAddress function.address ++ " has end <= address (" ++
            hexAddress stop ++ ")"]
        else []
      | none => []) ++
    if function.size = some 0 then
      ["function at " ++ hexAddress function.address ++ " declares size 0"]
    else []

/-- The errors of all functions on their own, behind the hints before them. -/
def allFunctionErrors (before : List FunctionHint) : List FunctionHint → List String
  | [] => []
  | function :: functions =>
    functionErrors before function ++ allFunctionErrors (before ++ [function]) functions

/-- The check of the parent that a function names. -/
def parentErrors (functions : List FunctionHint) (function : FunctionHint) : List String :=
  match function.parentFunction with
  | none => []
  | some parent =>
    if parent = function.address then
      ["function at " ++ hexAddress function.address ++ " declares itself as its own parent"]
    else if (functionAt functions parent).isNone then
      ["function at " ++ hexAddress function.address ++ " declares parent " ++
        hexAddress parent ++ " which is not itself a function hint in this set"]
    else []

/-- Walks the chain of parents, of `fuel` more rounds.  Every round but the last visits one
more of the addresses with a hint, so as many rounds as hints are enough. -/
def parentWalk (functions : List FunctionHint) :
    ℕ → List GuestAddress → FunctionHint → List String
  | 0, _, _ => []
  | fuel + 1, visited, node =>
    match node.parentFunction with
    | none => []
    | some parent =>
      if visited.contains parent then
        ["parent-function cycle detected involving " ++ hexAddress parent]
      else
        match functionAt functions parent with
        | none => []
        | some next => parentWalk functions fuel (parent :: visited) next

/-- The range of a chunk, as the errors name it. -/
def FunctionChunk.text (chunk : FunctionChunk) : String :=
  "[" ++ hexAddress chunk.start ++ ", " ++ hexAddress chunk.stop ++ ")"

/-- The checks of one chunk on its own. -/
def chunkErrors (functions : List FunctionHint) (chunk : FunctionChunk) : List String :=
  (if chunk.stop ≤ chunk.start then
    ["function chunk " ++ chunk.text ++ " has end <= start"] else []) ++
  if (functionAt functions chunk.parentFunction).isNone then
    ["function chunk " ++ chunk.text ++ " declares parent " ++ hexAddress chunk.parentFunction ++
      " which is not a function hint in this set"]
  else []

/-- The chunks overlap. -/
def FunctionChunk.overlaps (a b : FunctionChunk) : Bool :=
  decide (a.start < b.stop ∧ b.start < a.stop)

/-- The check of two chunks. -/
def chunkPairErrors (a b : FunctionChunk) : List String :=
  if a.overlaps b && a.parentFunction != b.parentFunction then
    ["function chunks " ++ a.text ++ " and " ++ b.text ++
      " overlap but declare different parent functions"]
  else []

/-- A check of all pairs, each in the order of the list. -/
def pairErrors {α : Type} (check : α → α → List String) : List α → List String
  | [] => []
  | a :: rest => rest.flatMap (check a) ++ pairErrors check rest

/-- The range of a region, as the errors name it. -/
def RegionHint.text (region : RegionHint) : String :=
  "[" ++ hexAddress region.start ++ ", " ++ hexAddress region.stop ++ ")"

/-- The check of one region. -/
def regionErrors (region : RegionHint) : List String :=
  if region.stop ≤ region.start then ["region " ++ region.text ++ " has end <= start"] else []

/-- The check of two regions. -/
def regionPairErrors (a b : RegionHint) : List String :=
  if a.start < b.stop ∧ b.start < a.stop ∧ a.kind ≠ b.kind then
    ["regions " ++ a.text ++ " and " ++ b.text ++ " overlap with contradictory classifications"]
  else []

/-- The checks of a switch table. -/
def switchErrors (table : SwitchTableHint) : List String :=
  let hasTableShape := table.tableAddress.isSome || table.entryCount.isSome
  (if hasTableShape && !(table.tableAddress.isSome && table.entryCount.isSome) &&
      table.explicitTargets.isEmpty then
    ["switch table hint at " ++ hexAddress table.site ++
      " gives only one of table_address/entry_count and no explicit_targets"] else []) ++
  if !hasTableShape && table.explicitTargets.isEmpty then
    ["switch table hint at " ++ hexAddress table.site ++
      " gives neither a decodable table shape nor explicit_targets"]
  else []

/-- The check of the first register of a helper. -/
def registerStartErrors (helper : RuntimeHelper) : List String :=
  if helper.kind.isRegisterRange then
    let base := helper.kind.registerFamilyBase
    let limit := helper.kind.registerLimit
    if helper.registerStart.all fun start => decide (start.toNat < base ∨ limit ≤ start.toNat) then
      ["RuntimeHelper at " ++ hexAddress helper.address ++ " needs register_start in [" ++
        toString base ++ ", " ++ toString limit ++ ")"]
    else []
  else if helper.registerStart.isSome then
    ["RuntimeHelper at " ++ hexAddress helper.address ++
      " declares register_start but its kind (SetJmp/LongJmp) does not use one"]
  else []

/-- The checks of the helpers, behind helpers of the kinds seen. -/
def helperErrors : List RuntimeHelperKind → List RuntimeHelper → List String
  | _, [] => []
  | seen, helper :: helpers =>
    (if seen.contains helper.kind then
      ["more than one RuntimeHelper of the same kind declared (kind index " ++
        toString helper.kind.ctorIdx ++ ")"] else []) ++
    registerStartErrors helper ++ helperErrors (helper.kind :: seen) helpers

/-- The addresses that an expanded helper has in common with one before it. -/
def collisionErrors : List GuestAddress → List RuntimeHelper → List String
  | _, [] => []
  | seen, helper :: helpers =>
    (if seen.contains helper.address then
      ["RuntimeHelper address collision at " ++ hexAddress helper.address] else []) ++
    collisionErrors (helper.address :: seen) helpers

/-- The checks of an instruction pattern. -/
def patternErrors (pattern : InstructionPatternHint) : List String :=
  (if pattern.skipBytes < 4 ∨ pattern.skipBytes.toNat % 4 ≠ 0 then
    ["instruction pattern " ++ hexAddress pattern.value ++
      " has skip_bytes that is not a positive multiple of 4"] else []) ++
  (if pattern.mask = 0 then
    ["instruction pattern " ++ hexAddress pattern.value ++
      " has an all-zero mask (matches every instruction word)"] else []) ++
  match pattern.scopeStart, pattern.scopeStop with
  | some start, some stop =>
    if stop ≤ start then
      ["instruction pattern " ++ hexAddress pattern.value ++ " has scope_end <= scope_start"]
    else []
  | _, _ => []

/-- `validate_hint_set`: the errors; the set is accepted if there are none. -/
def validateHintSet (hints : AnalysisHintSetV2) : List String :=
  if hints.schemaVersion ≠ kAnalysisSchemaVersion then
    ["unsupported analysis schema version " ++ toString hints.schemaVersion ++
      " (this build understands version " ++ toString kAnalysisSchemaVersion ++ ")"]
  else
    allFunctionErrors [] hints.functions ++
    hints.functions.flatMap (parentErrors hints.functions) ++
    (hints.functions.flatMap fun function =>
      parentWalk hints.functions (hints.functions.length + 1) [function.address] function) ++
    hints.chunks.flatMap (chunkErrors hints.functions) ++
    pairErrors chunkPairErrors hints.chunks ++
    hints.regions.flatMap regionErrors ++
    pairErrors regionPairErrors hints.regions ++
    hints.switches.flatMap switchErrors ++
    helperErrors [] hints.runtimeHelpers ++
    collisionErrors [] (expandRuntimeHelpers hints.runtimeHelpers) ++
    hints.instructionPatterns.flatMap patternErrors

/-! ### What an accepted set satisfies -/

theorem pairErrors_eq_nil {α : Type} {check : α → α → List String} {xs : List α}
    (h : pairErrors check xs = []) : xs.Pairwise fun a b => check a b = [] := by
  induction xs with
  | nil => exact List.Pairwise.nil
  | cons x xs ih =>
    obtain ⟨hx, hrest⟩ := List.append_eq_nil_iff.mp h
    exact List.pairwise_cons.mpr ⟨List.flatMap_eq_nil_iff.mp hx, ih hrest⟩

/-- **Chunks of an accepted set that have an address in common have one parent.** -/
theorem parent_eq_of_common {hints : AnalysisHintSetV2} (h : validateHintSet hints = [])
    {a b : FunctionChunk} (ha : a ∈ hints.chunks) (hb : b ∈ hints.chunks)
    {address : GuestAddress} (haddress : a.start ≤ address ∧ address < a.stop)
    (hbddress : b.start ≤ address ∧ address < b.stop) : a.parentFunction = b.parentFunction := by
  unfold validateHintSet at h
  split at h
  · exact absurd h (List.cons_ne_nil _ _)
  · simp only [List.append_eq_nil_iff] at h
    have hpairs := pairErrors_eq_nil h.1.1.1.1.1.1.2
    have hsymm : Std.Symm fun a b : FunctionChunk =>
        a.overlaps b = true → a.parentFunction = b.parentFunction := by
      refine ⟨fun a b hab hover => (hab ?_).symm⟩
      simp only [FunctionChunk.overlaps, decide_eq_true_eq] at hover ⊢
      exact hover.symm
    have hagree : hints.chunks.Pairwise fun a b =>
        a.overlaps b = true → a.parentFunction = b.parentFunction := by
      refine hpairs.imp fun {a b} hnone hover => ?_
      by_contra hne
      rw [chunkPairErrors, hover, Bool.true_and, if_pos (bne_iff_ne.mpr hne)] at hnone
      exact List.cons_ne_nil _ _ hnone
    by_cases heq : a = b
    · rw [heq]
    · refine hagree.forall ha hb heq ?_
      simp only [FunctionChunk.overlaps, decide_eq_true_eq, BitVec.lt_def]
      simp only [BitVec.le_def, BitVec.lt_def] at haddress hbddress
      omega

end Recomp
end XenonRecomp
