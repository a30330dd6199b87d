/-
# Learned facts about functions and targets

The records of `xenon/recomp/knowledge_base.hpp` and of
`xenon/recomp/adaptive_observations.hpp`, and what `knowledge_base_fingerprint`
(`knowledge/knowledge_base.cpp`) and `adaptive_observation_fingerprint`
(`knowledge/adaptive_observations.cpp`) feed to their hash.  Both sort with `std::sort`,
which may leave records that compare equal in any order, so a feed is a relation.  The
tuples that the sorts compare are lists of numbers and strings here, compared in the
lexicographic order.
-/

import Mathlib.Data.List.Lex
import XenonRecomp.Library.CanonicalList
import XenonRecomp.Library.PrefixCode

namespace XenonRecomp
namespace Recomp
namespace Knowledge

open Library.CanonicalList Library.PrefixCode

/-- A `std::string`. -/
abbrev Text := List Byte

/-- The order of `std::string` is that of the values of the bytes. -/
def Text.order (text : Text) : List ℕ := text.map BitVec.toNat

/-! ### The hash -/

/-- `kFnvOffset`. -/
def kFnvOffset : BitVec 64 := 1469598103934665603

/-- `kFnvPrime`. -/
def kFnvPrime : BitVec 64 := 1099511628211

/-- `mix_byte`. -/
def mixByte (hash : BitVec 64) (value : Byte) : BitVec 64 :=
  (hash ^^^ value.setWidth 64) * kFnvPrime

/-- The hash of the bytes that were mixed in one after the other. -/
def hashOf (bytes : List Byte) : BitVec 64 := bytes.foldl mixByte kFnvOffset

/-- The bytes that `mix_value` mixes in for an unsigned value. -/
def valueBytes {w : ℕ} (value : BitVec w) : List Byte := littleEndian (w / 8) value.toNat

/-- The bytes that `mix_string` mixes in. -/
def stringBytes (text : Text) : List Byte := counted 4 text

/-! ### Knowledge records -/

/-- `KnowledgeKind`. -/
inductive KnowledgeKind where
  | function | compilerHelper | crt | runtimeHelper | middleware | engine
deriving DecidableEq, Repr

/-- The value of a kind as a `std::uint8_t`. -/
def KnowledgeKind.value : KnowledgeKind → BitVec 8
  | .function => 0
  | .compilerHelper => 1
  | .crt => 2
  | .runtimeHelper => 3
  | .middleware => 4
  | .engine => 5

/-- `FunctionFingerprint::kVersion`. -/
def FunctionFingerprint.kVersion : BitVec 32 := 1

/-- `FunctionFingerprint`. -/
structure FunctionFingerprint where
  version : BitVec 32 := FunctionFingerprint.kVersion
  instructionShapeHash : BitVec 64 := 0
  entryAnchorHash : BitVec 64 := 0
  cfgShapeHash : BitVec 64 := 0
  constantShapeHash : BitVec 64 := 0
  callNeighborhoodHash : BitVec 64 := 0
  instructionCount : BitVec 32 := 0
  entryAnchorInstructions : BitVec 32 := 0
  blockCount : BitVec 32 := 0
  externalCallCount : BitVec 32 := 0
  byteSize : BitVec 32 := 0
deriving DecidableEq

/-- `FunctionFingerprint::valid`. -/
def FunctionFingerprint.valid (fp : FunctionFingerprint) : Bool :=
  fp.version == FunctionFingerprint.kVersion && fp.instructionShapeHash != 0 &&
    fp.entryAnchorHash != 0 && fp.instructionCount != 0

/-- `KnowledgeRecord`. -/
structure KnowledgeRecord where
  id : Text := []
  kind : KnowledgeKind := .function
  family : Text := []
  label : Text := []
  fingerprint : FunctionFingerprint := {}
  sourceImageHash : Text := []
  sourceAddress : BitVec 32 := 0
  observations : BitVec 32 := 1
  confidence : BitVec 32 := 50
  curated : Bool := false
deriving DecidableEq

/-- The record that `knowledge_base_fingerprint` keeps of a knowledge record. -/
structure Canonical where
  kind : KnowledgeKind
  family : Text
  label : Text
  fp : FunctionFingerprint
  confidence : BitVec 32
  curated : Bool
deriving DecidableEq

/-- The canonical record of a knowledge record. -/
def KnowledgeRecord.canonical (record : KnowledgeRecord) : Canonical where
  kind := record.kind
  family := record.family
  label := record.label
  fp := record.fingerprint
  confidence := record.confidence
  curated := record.curated

/-- The canonical records, those of records without a valid fingerprint left out. -/
def canonicalRecords (records : List KnowledgeRecord) : List Canonical :=
  (records.filter fun record => record.fingerprint.valid).map KnowledgeRecord.canonical

/-- The tuple that canonical records are sorted by. -/
def Canonical.key (r : Canonical) : List (List ℕ) :=
  [[r.kind.value.toNat], r.family.order, r.label.order,
    [r.fp.instructionShapeHash.toNat], [r.fp.entryAnchorHash.toNat],
    [r.fp.cfgShapeHash.toNat], [r.fp.constantShapeHash.toNat],
    [r.fp.callNeighborhoodHash.toNat], [r.confidence.toNat], [r.curated.toNat]]

/-- The bytes that are mixed in for a canonical record. -/
def Canonical.bytes (record : Canonical) : List Byte :=
  valueBytes record.kind.value ++
  (stringBytes record.family ++
  (stringBytes record.label ++
  (valueBytes record.fp.instructionShapeHash ++
  (valueBytes record.fp.entryAnchorHash ++
  (valueBytes record.fp.cfgShapeHash ++
  (valueBytes record.fp.constantShapeHash ++
  (valueBytes record.fp.callNeighborhoodHash ++
  (valueBytes record.fp.instructionCount ++
  (valueBytes record.fp.entryAnchorInstructions ++
  (valueBytes record.fp.blockCount ++
  (valueBytes record.fp.externalCallCount ++
  (valueBytes record.confidence ++
  valueBytes (BitVec.ofBool record.curated |>.setWidth 8)))))))))))))

/-- What is fed to the hash once the canonical records are sorted; nothing is for no
record, where the result is zero. -/
def canonicalFeed (sorted : List Canonical) : Option (List Byte) :=
  let canonical := unique Canonical.key sorted
  if canonical.isEmpty then none
  else some (valueBytes FunctionFingerprint.kVersion ++
    (littleEndian 8 canonical.length ++ canonical.flatMap Canonical.bytes))

/-- `knowledge_base_fingerprint` may feed these bytes to its hash. -/
def KnowledgeFeed (records : List KnowledgeRecord) (feed : Option (List Byte)) : Prop :=
  ∃ sorted, Sorts Canonical.key (canonicalRecords records) sorted ∧
    canonicalFeed sorted = feed

/-! ### Adaptive observations -/

/-- `AdaptiveObservationKind`. -/
inductive AdaptiveObservationKind where
  | executedEntry | indirectCallTarget | indirectBranchTarget
deriving DecidableEq, Repr

/-- The value of a kind as a `std::uint8_t`. -/
def AdaptiveObservationKind.value : AdaptiveObservationKind → BitVec 8
  | .executedEntry => 0
  | .indirectCallTarget => 1
  | .indirectBranchTarget => 2

/-- `AdaptiveObservation`. -/
structure AdaptiveObservation where
  address : BitVec 32 := 0
  site : BitVec 32 := 0
  kind : AdaptiveObservationKind := .executedEntry
  hits : BitVec 32 := 1
  ownerHint : Option (BitVec 32) := none
  imageHash : Text := []
deriving DecidableEq

/-- The `Fact` of an observation. -/
structure Fact where
  address : BitVec 32
  site : BitVec 32
  kind : AdaptiveObservationKind
  ownerHint : Option (BitVec 32)
  imageHash : Text
deriving DecidableEq

/-- The fact that an observation states. -/
def AdaptiveObservation.fact (observation : AdaptiveObservation) : Fact where
  address := observation.address
  site := observation.site
  kind := observation.kind
  ownerHint := observation.ownerHint
  imageHash := observation.imageHash

/-- The fields that facts are sorted by; an owner is behind none. -/
def Fact.key (fact : Fact) : List (List ℕ) :=
  [[fact.address.toNat], [fact.site.toNat], [fact.kind.value.toNat],
    (fact.ownerHint.map BitVec.toNat).toList, fact.imageHash.order]

/-- The bytes that are mixed in for a fact. -/
def Fact.bytes (fact : Fact) : List Byte :=
  valueBytes fact.address ++
  (valueBytes fact.site ++
  (valueBytes fact.kind.value ++
  (flagged valueBytes fact.ownerHint ++
  (fact.imageHash ++ [0]))))

/-- What is fed to the hash once the facts are sorted. -/
def factFeed (sorted : List Fact) : List Byte :=
  let facts := unique Fact.key sorted
  littleEndian 8 facts.length ++ facts.flatMap Fact.bytes

/-- `adaptive_observation_fingerprint` may feed these bytes to its hash. -/
def AdaptiveFeed (observations : List AdaptiveObservation) (feed : Option (List Byte)) : Prop :=
  if observations.isEmpty then feed = none
  else ∃ sorted, Sorts Fact.key (observations.map AdaptiveObservation.fact) sorted ∧
    some (factFeed sorted) = feed

end Knowledge
end Recomp
end XenonRecomp
