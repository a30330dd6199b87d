/-
# Discovered functions and the analysis report

The data of `include/xenon/recomp/function_analysis.hpp` and
`analysis_report.hpp` that the ownership passes work on: the discovered
functions with their ranges, their evidence and their intermediate code, the
dispatchable guest entries, and the unresolved references.  A function is kept
without the fields no pass of this group reads (its calls and callers, its
hashes, its return behaviour).
-/

import XenonRecomp.Ir.Basic

namespace XenonRecomp
namespace Recomp

open Cpu

/-- `DiscoverySource`. -/
inductive DiscoverySource where
  | entryPoint
  | export
  | directCall
  | directBranch
  | unwindMetadata
  | moduleHint
  | tlsCallback
  | resolvedIndirect
  | resolvedIndirectCall
  | resolvedIndirectBranch
  | controlFlowHint
  | validatedTailCall
  | prologueHeuristic
  | pointerTable
  | runtimeObservation
  | gapRecovery
  | knowledgeMatch
deriving DecidableEq, Repr

/-- `discovery_source_base_confidence`. -/
def DiscoverySource.baseConfidence : DiscoverySource → ℕ
  | .entryPoint => 100
  | .moduleHint => 100
  | .unwindMetadata => 95
  | .tlsCallback => 95
  | .export => 90
  | .directCall => 85
  | .resolvedIndirect => 72
  | .resolvedIndirectCall => 88
  | .resolvedIndirectBranch => 72
  | .controlFlowHint => 85
  | .validatedTailCall => 65
  | .directBranch => 60
  | .pointerTable => 72
  | .runtimeObservation => 88
  | .gapRecovery => 55
  | .knowledgeMatch => 58
  | .prologueHeuristic => 40

/-- `source_is_semantic_boundary`. -/
def DiscoverySource.isSemanticBoundary : DiscoverySource → Bool
  | .entryPoint | .export | .directCall | .unwindMetadata | .moduleHint | .tlsCallback
  | .resolvedIndirectCall => true
  | _ => false

/-- `confidence_for_sources`. -/
def confidenceForSources (sources : List DiscoverySource) : ℕ :=
  if sources = [] then 50
  else
    let best := sources.foldl (fun best source => max best source.baseConfidence) 0
    if 2 ≤ sources.length then min 100 (best + 5) else best

/-- `add_source`. -/
def addSource (sources : List DiscoverySource) (source : DiscoverySource) :
    List DiscoverySource :=
  if source ∈ sources then sources else sources ++ [source]

/-- `FunctionAuthority`. -/
inductive FunctionAuthority where
  | gapRecovery
  | inferredBranch
  | pointerTable
  | runtimeObservation
  | resolvedIndirect
  | directCall
  | metadata
  | moduleHint
  | entryPoint
deriving DecidableEq, Repr

/-- The number of an authority, by which authorities are compared. -/
def FunctionAuthority.code : FunctionAuthority → ℕ
  | .gapRecovery => 0
  | .inferredBranch => 1
  | .pointerTable => 2
  | .runtimeObservation => 3
  | .resolvedIndirect => 4
  | .directCall => 5
  | .metadata => 6
  | .moduleHint => 7
  | .entryPoint => 8

/-- `GuestEntryKind`. -/
inductive GuestEntryKind where
  | function
  | alternateBlock
  | runtimeHelper
  | nativeReplacement
  | importThunk
deriving DecidableEq, Repr

/-- `entry_kind_rank`. -/
def GuestEntryKind.rank : GuestEntryKind → ℕ
  | .nativeReplacement => 4
  | .function => 3
  | .runtimeHelper => 2
  | .importThunk => 2
  | .alternateBlock => 1

/-- `BranchReference`. -/
structure BranchReference where
  site : GuestAddress
  target : GuestAddress
  terminal : Bool := false
  indirect : Bool := false
  linked : Bool := false
  conditional : Bool := false
  isFallthrough : Bool := false
deriving DecidableEq, Repr

/-- `GuestEntryPoint`. -/
structure GuestEntryPoint where
  address : GuestAddress
  ownerFunction : GuestAddress
  block : GuestAddress
  kind : GuestEntryKind
  sources : List DiscoverySource
  confidence : ℕ
deriving DecidableEq, Repr

/-- `UnresolvedReference`. -/
structure UnresolvedReference where
  address : GuestAddress
  target : GuestAddress
  kind : String
  detail : String
deriving DecidableEq, Repr

/-- `DiscoveredFunction`.  Of `native_replacement` and `import_thunk` only
whether they are set matters here. -/
structure DiscoveredFunction where
  guestStart : GuestAddress
  guestEnd : GuestAddress
  ranges : List GuestAddress
  name : String
  sources : List DiscoverySource
  branches : List BranchReference
  authority : FunctionAuthority
  confidence : ℕ
  compiled : Bool
  ir : Ir.Function
  nativeReplacement : Bool
  importThunk : Bool
deriving DecidableEq, Repr

/-- `AnalysisReport`, its functions, entries, unresolved references and
warnings. -/
structure AnalysisReport where
  functions : List DiscoveredFunction
  entries : List GuestEntryPoint
  unresolved : List UnresolvedReference
  warnings : List String
deriving DecidableEq, Repr

namespace DiscoveredFunction

/-- The address lies in one of the ranges, which are start and end in turn. -/
def inRanges (address : GuestAddress) : List GuestAddress → Bool
  | start :: stop :: ranges =>
    decide (start ≤ address ∧ address < stop) || inRanges address ranges
  | _ => false

/-- `owns_address`. -/
def ownsAddress (function : DiscoveredFunction) (address : GuestAddress) : Bool :=
  if function.ranges ≠ [] then inRanges address function.ranges
  else decide (function.guestStart ≤ address ∧ address < function.guestEnd)

/-- `has_block_entry`. -/
def hasBlockEntry (function : DiscoveredFunction) (address : GuestAddress) : Bool :=
  function.ir.blocks.any fun block => block.guestAddress == address

/-- `has_semantic_boundary_evidence`. -/
def hasSemanticBoundaryEvidence (function : DiscoveredFunction) : Bool :=
  function.sources.any DiscoverySource.isSemanticBoundary

/-- The function has code of its own that was compiled. -/
def isOwner (function : DiscoveredFunction) : Bool :=
  function.compiled && !function.nativeReplacement

/-- More authority, or as much and more confidence. -/
def stronger (a b : DiscoveredFunction) : Bool :=
  decide (b.authority.code < a.authority.code) ||
    (a.authority == b.authority && decide (b.confidence < a.confidence))

end DiscoveredFunction

/-- `hex_string`. -/
def hexString (value : GuestAddress) : String :=
  String.ofList (Nat.toDigits 16 value.toNat)

/-- An entry of `ExecutableRangeIndex`, whose section is kept as whether it is
executable. -/
structure RangeEntry where
  first : GuestAddress
  stop : GuestAddress
  executable : Bool
deriving DecidableEq, Repr

/-- `ExecutableRangeIndex`: its entries in the order of their first addresses. -/
structure ExecutableRangeIndex where
  entries : List RangeEntry
  sorted : entries.Pairwise fun a b => a.first ≤ b.first

namespace ExecutableRangeIndex

/-- `containing_section`: the last entry that starts at or before the address,
if it reaches it. -/
def containingSection (index : ExecutableRangeIndex) (address : GuestAddress) :
    Option RangeEntry :=
  (index.entries.takeWhile fun e => decide (e.first ≤ address)).getLast?.filter
    fun e => decide (e.first ≤ address ∧ address < e.stop)

/-- `executable_section`. -/
def executableSection (index : ExecutableRangeIndex) (address : GuestAddress) :
    Option RangeEntry :=
  (index.containingSection address).filter RangeEntry.executable

end ExecutableRangeIndex

end Recomp
end XenonRecomp
