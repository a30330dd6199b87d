/-
# The ownership passes

`src/recomp/analysis/ownership/`: duplicate records are merged, weak functions
that begin at a block of a stronger one are absorbed into it, the map of guest
entries is built from the functions that remain, and the branches that end at
no entry are reported.  The passes run one after the other on the functions
that discovery left (`src/recomp/driver/analysis_pipeline.cpp`); what happens
between them there changes no field they read.
-/

import XenonRecomp.Library.Folds
import XenonRecomp.Recomp.Discovery

namespace XenonRecomp
namespace Recomp

open Cpu Library.Folds

/-! ### Duplicates -/

/-- One turn of `deduplicate_functions_by_address`, on the functions kept so
far, the last of them first: a record of the same start is merged, a compiled
one replacing one that is not. -/
def mergeDuplicate (state : List DiscoveredFunction × List String)
    (function : DiscoveredFunction) : List DiscoveredFunction × List String :=
  match state.1 with
  | [] => ([function], state.2)
  | kept :: rest =>
    if kept.guestStart = function.guestStart then
      let warnings := state.2 ++ ["duplicate canonical function record for guest address 0x" ++
        hexString function.guestStart ++ " ('" ++ kept.name ++ "' vs '" ++ function.name ++
        "') merged into one canonical record"]
      let kept := { kept with sources := function.sources.foldl addSource kept.sources }
      (if !kept.compiled && function.compiled then function :: rest else kept :: rest, warnings)
    else (function :: kept :: rest, state.2)

/-- `deduplicate_functions_by_address`, of functions in the order of their
starts. -/
def deduplicateFunctionsByAddress (functions : List DiscoveredFunction)
    (warnings : List String) : List DiscoveredFunction × List String :=
  let (kept, warnings) := functions.foldl mergeDuplicate ([], warnings)
  (kept.reverse, warnings)

/-! ### Absorption -/

/-- The numbers of the functions with a block of their own at an address:
`block_starts`. -/
def blockStarts (functions : List DiscoveredFunction) (address : GuestAddress) : List ℕ :=
  (functions.zipIdx.filter fun (f, _) =>
    f.isOwner && (f.hasBlockEntry address && f.ownsAddress address)).map Prod.snd

/-- `is_root`: no other function has a block at the start of this one. -/
def isRoot (functions : List DiscoveredFunction) (candidate : DiscoveredFunction × ℕ) : Bool :=
  candidate.1.isOwner &&
    (blockStarts functions candidate.1.guestStart).all fun k => k == candidate.2

/-- The function can be absorbed. -/
def isWeak (function : DiscoveredFunction) : Bool :=
  function.isOwner && !function.hasSemanticBoundaryEvidence

/-- A function can absorb another one: it is not absorbed itself, has a block
of its own at the start of the other, and is one this pass never removes. -/
def canAbsorb (functions : List DiscoveredFunction) (absorbed : List ℕ)
    (victim owner : DiscoveredFunction × ℕ) : Bool :=
  !(victim.2 == owner.2) && !absorbed.contains owner.2 &&
    (owner.1.isOwner && owner.1.ownsAddress victim.1.guestStart &&
      owner.1.hasBlockEntry victim.1.guestStart) &&
    (owner.1.hasSemanticBoundaryEvidence || isRoot functions owner)

/-- The entry an absorbed function leaves. -/
def absorbedEntry (victim owner : DiscoveredFunction) : GuestEntryPoint where
  address := victim.guestStart
  ownerFunction := owner.guestStart
  block := victim.guestStart
  kind := .alternateBlock
  sources := victim.sources
  confidence := victim.confidence

/-- The variables of `absorb_weak_functions`. -/
structure Absorption where
  absorbed : List ℕ := []
  entries : List GuestEntryPoint := []
  warnings : List String := []

/-- One turn of the loop of `absorb_weak_functions`. -/
def absorbStep (functions : List DiscoveredFunction) (state : Absorption)
    (victim : DiscoveredFunction × ℕ) : Absorption :=
  if isWeak victim.1 then
    match strongest (fun a b => a.1.stronger b.1)
        (functions.zipIdx.filter fun owner => canAbsorb functions state.absorbed victim owner) with
    | none => state
    | some owner =>
      { absorbed := victim.2 :: state.absorbed
        entries := state.entries ++ [absorbedEntry victim.1 owner.1]
        warnings := state.warnings ++ ["absorbed weak function candidate 0x" ++
          hexString victim.1.guestStart ++ " into canonical function 0x" ++
          hexString owner.1.guestStart ++ " as an alternate compiled entry"] }
  else state

/-- The loop of `absorb_weak_functions`. -/
def absorption (functions : List DiscoveredFunction) : Absorption :=
  functions.zipIdx.foldl (absorbStep functions) {}

/-- `absorb_weak_functions`: the report without the absorbed functions, and the
entries they leave. -/
def absorbWeakFunctions (report : AnalysisReport) : AnalysisReport × List GuestEntryPoint :=
  let state := absorption report.functions
  ({ report with
      functions := (report.functions.zipIdx.filter fun f => !state.absorbed.contains f.2).map
        Prod.fst
      warnings := report.warnings ++ state.warnings }, state.entries)

/-! ### The entry map -/

/-- `find_strongest_owner`. -/
def findStrongestOwner (functions : List DiscoveredFunction) (target : GuestAddress) :
    Option DiscoveredFunction :=
  strongest DiscoveredFunction.stronger
    (functions.filter fun candidate => candidate.isOwner && candidate.ownsAddress target)

/-- An entry whose address is published already adds its evidence, and takes
the entry over if its kind outranks it. -/
def mergeEntry (existing entry : GuestEntryPoint) : GuestEntryPoint :=
  let merged := { existing with
    sources := entry.sources.foldl addSource existing.sources
    confidence := max existing.confidence entry.confidence }
  if existing.kind.rank < entry.kind.rank then
    { merged with
      kind := entry.kind, ownerFunction := entry.ownerFunction, block := entry.block }
  else merged

/-- `add_entry`. -/
def addEntry (entries : List GuestEntryPoint) (entry : GuestEntryPoint) : List GuestEntryPoint :=
  upsert GuestEntryPoint.address mergeEntry entries entry

/-- The entry of a function at its own start, unless it is neither compiled nor
an import thunk. -/
def startEntry (function : DiscoveredFunction) : Option GuestEntryPoint :=
  let entry (kind : GuestEntryKind) : GuestEntryPoint :=
    { address := function.guestStart
      ownerFunction := function.guestStart
      block := function.guestStart
      kind
      sources := function.sources
      confidence := function.confidence }
  if function.importThunk then some (entry .importThunk)
  else if function.compiled then
    some (entry (if function.nativeReplacement then .nativeReplacement else .function))
  else none

/-- An entry at a block of a function. -/
def blockEntry (owner : DiscoveredFunction) (address : GuestAddress)
    (sources : List DiscoverySource) (confidence : ℕ) : GuestEntryPoint where
  address
  ownerFunction := owner.guestStart
  block := address
  kind := .alternateBlock
  sources
  confidence

/-- The entry of a branch into the interior of another function. -/
def branchEntry (functions : List DiscoveredFunction) (source : DiscoveredFunction)
    (branch : BranchReference) : Option GuestEntryPoint :=
  if branch.linked then none
  else
    match findStrongestOwner functions branch.target with
    | none => none
    | some owner =>
      if branch.target = owner.guestStart ∨ source.guestStart = owner.guestStart ∨
          owner.hasBlockEntry branch.target = false then none
      else
        let sources : List DiscoverySource :=
          [if branch.indirect then .resolvedIndirectBranch else .directBranch]
        some (blockEntry owner branch.target sources (confidenceForSources sources))

/-- `AdaptiveObservation`, its address and the owner it names. -/
structure AdaptiveObservation where
  address : GuestAddress
  ownerHint : Option GuestAddress
deriving DecidableEq, Repr

/-- The owner of an observed address: the one named, if it has a block there. -/
def observedOwner (functions : List DiscoveredFunction) (observation : AdaptiveObservation) :
    Option DiscoveredFunction :=
  (observation.ownerHint.bind fun hint => functions.find? fun fn =>
    fn.guestStart == hint && fn.ownsAddress observation.address &&
      fn.hasBlockEntry observation.address).or
    (findStrongestOwner functions observation.address)

/-- The entry of a runtime observation. -/
def observationEntry (functions : List DiscoveredFunction) (observation : AdaptiveObservation) :
    Option GuestEntryPoint :=
  match observedOwner functions observation with
  | none => none
  | some owner =>
    if observation.address = owner.guestStart ∨
        owner.hasBlockEntry observation.address = false then none
    else some (blockEntry owner observation.address [.runtimeObservation]
      DiscoverySource.runtimeObservation.baseConfidence)

/-- The entry of a runtime helper. -/
def helperEntry (address : GuestAddress) : GuestEntryPoint where
  address
  ownerFunction := address
  block := address
  kind := .runtimeHelper
  sources := [.moduleHint]
  confidence := 100

/-- The entries `build_guest_entry_map` adds, in this order. -/
def entrySources (functions : List DiscoveredFunction) (absorbedEntries : List GuestEntryPoint)
    (observations : List AdaptiveObservation) (helpers : List GuestAddress) :
    List GuestEntryPoint :=
  functions.filterMap startEntry ++ absorbedEntries ++
    functions.flatMap (fun source => source.branches.filterMap (branchEntry functions source)) ++
    observations.filterMap (observationEntry functions) ++ helpers.map helperEntry

/-- `build_guest_entry_map`; of the runtime helpers it reads the addresses. -/
def buildGuestEntryMap (report : AnalysisReport) (absorbedEntries : List GuestEntryPoint)
    (observations : List AdaptiveObservation) (helpers : List GuestAddress) : AnalysisReport :=
  { report with
    entries := ((entrySources report.functions absorbedEntries observations helpers).foldl
      addEntry []).insertionSort fun a b => a.address ≤ b.address }

/-! ### Diagnosis -/

/-- The warning about the first other function a function overlaps. -/
def overlapWarning (functions : List DiscoveredFunction) (function : DiscoveredFunction × ℕ) :
    Option String :=
  (functions.zipIdx.find? fun other => !(function.2 == other.2) &&
    decide (function.1.guestStart < other.1.guestEnd ∧
      other.1.guestStart < function.1.guestEnd)).map fun other =>
    "overlapping strong functions at 0x" ++ hexString function.1.guestStart ++ " and 0x" ++
      hexString other.1.guestStart

/-- What is wrong with the target of a branch, if anything. -/
def diagnoseBranch (report : AnalysisReport) (index : ExecutableRangeIndex)
    (function : DiscoveredFunction) (branch : BranchReference) : Option UnresolvedReference :=
  if branch.linked then none
  else if index.executableSection branch.target = none then
    some ⟨branch.site, branch.target, "branch-target", "target is not executable"⟩
  else
    match findStrongestOwner report.functions branch.target with
    | none =>
      some ⟨branch.site, branch.target, "branch-into-unknown-code",
        "executable target has no discovered function/chunk owner"⟩
    | some owner =>
      if owner.guestStart = function.guestStart ∨ branch.target = owner.guestStart then none
      else if report.entries.any fun entry =>
          entry.address == branch.target && entry.ownerFunction == owner.guestStart then none
      else
        some ⟨branch.site, branch.target, "branch-into-nonentry-block",
          "target is owned by function 0x" ++ hexString owner.guestStart ++
            " but is not a materialized alternate entry block"⟩

/-- `diagnose_function_ownership`. -/
def diagnoseFunctionOwnership (report : AnalysisReport) (index : ExecutableRangeIndex) :
    AnalysisReport :=
  { report with
    warnings := report.warnings ++
      report.functions.zipIdx.filterMap (overlapWarning report.functions)
    unresolved := report.unresolved ++
      report.functions.flatMap fun function =>
        function.branches.filterMap (diagnoseBranch report index function) }

/-- Absorption, the entry map and the diagnosis. -/
def reconcileOwnership (report : AnalysisReport) (observations : List AdaptiveObservation)
    (helpers : List GuestAddress) (index : ExecutableRangeIndex) : AnalysisReport :=
  let (report, absorbedEntries) := absorbWeakFunctions report
  diagnoseFunctionOwnership (buildGuestEntryMap report absorbedEntries observations helpers) index

end Recomp
end XenonRecomp
