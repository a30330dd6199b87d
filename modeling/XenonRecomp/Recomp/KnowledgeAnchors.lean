/-
# First-block anchors

`knowledge/knowledge_base.cpp`: the words of an image, the tokens instructions are
normalized to, the anchor of an address (`compute_anchor`, `fingerprint_entry_anchor`),
and the scanner that looks for the anchors of all the records in one pass over the
executable sections (`find_knowledge_seed_candidates`).
-/

import XenonRecomp.Cpu.Decoder
import XenonRecomp.Recomp.KnowledgeBase

namespace XenonRecomp
namespace Recomp
namespace Knowledge

open Cpu Library.CanonicalList Library.PrefixCode

/-! ### The image -/

/-- `XexSection`, as far as the scanner reads it. -/
structure XexSection where
  virtualAddress : GuestAddress
  executable : Bool
  bytes : List Byte

/-- The first address behind the bytes of a section. -/
def XexSection.end (section_ : XexSection) : ℕ :=
  section_.virtualAddress.toNat + section_.bytes.length

/-- `XexImage`, its sections. -/
structure XexImage where
  sections : List XexSection

/-- The bytes at an offset, the first one most significant. -/
def wordAt (bytes : List Byte) (offset : ℕ) : BitVec 32 :=
  (bytes.getD offset 0).setWidth 32 <<< 24 ||| (bytes.getD (offset + 1) 0).setWidth 32 <<< 16 |||
    (bytes.getD (offset + 2) 0).setWidth 32 <<< 8 ||| (bytes.getD (offset + 3) 0).setWidth 32

/-- `section_for`. -/
def sectionFor (image : XexImage) (address : GuestAddress) : Option XexSection :=
  image.sections.find? fun s =>
    decide (s.virtualAddress.toNat ≤ address.toNat ∧ address.toNat + 4 ≤ s.end)

/-- `read_word`. -/
def readWord (image : XexImage) (address : GuestAddress) : Option (BitVec 32) :=
  match sectionFor image address with
  | none => none
  | some s =>
    if address.toNat < s.virtualAddress.toNat then none
    else
      let offset := (address - s.virtualAddress).toNat
      if s.bytes.length < offset + 4 then none else some (wordAt s.bytes offset)

/-! ### Normalized instructions -/

/-- `mix_value`. -/
def mixValue {w : ℕ} (hash : BitVec 64) (value : BitVec w) : BitVec 64 :=
  (valueBytes value).foldl mixByte hash

/-- `mix_value` of a `bool`. -/
def mixBool (hash : BitVec 64) (value : Bool) : BitVec 64 :=
  mixValue hash ((BitVec.ofBool value).setWidth 8)

/-- A field of an instruction, which the accessors return as a `std::uint32_t`. -/
def mixField {w : ℕ} (hash : BitVec 64) (value : BitVec w) : BitVec 64 :=
  mixValue hash (value.setWidth 32)

/-- `opcode_id_for`. -/
def opcodeIdFor (mnemonic : Mnemonic) : BitVec 32 :=
  let hash := mnemonic.text.toList.foldl
    (fun hash c => (hash ^^^ BitVec.ofNat 32 c.toNat) * 16777619) 2166136261
  if hash = 0 then 1 else hash

/-- The value of a format as a `std::uint8_t`. -/
def formatValue (format : InstructionFormat) : BitVec 8 := BitVec.ofNat 8 format.ctorIdx

/-- The value of a group as a `std::uint8_t`. -/
def groupValue (group : InstructionGroup) : BitVec 8 := BitVec.ofNat 8 group.ctorIdx

/-- `NormalizedToken`. -/
structure NormalizedToken where
  instruction : BitVec 64 := 0
  constant : BitVec 64 := 0
  terminator : Bool := false
  linkedBranch : Bool := false
  indirectBranch : Bool := false

/-- The shape and the constants behind those that all instructions mix in. -/
def mixOperands (instruction : DecodedInstruction) (shape constants : BitVec 64) :
    BitVec 64 × BitVec 64 :=
  match instruction.info.format with
  | .D | .DS =>
    (mixField (mixField shape instruction.rt) instruction.ra,
      mixValue constants instruction.uimm16)
  | .B =>
    (mixBool (mixBool (mixField (mixField shape instruction.bo) instruction.bi) instruction.aa)
      instruction.lk, constants)
  | .I => (mixBool (mixBool shape instruction.aa) instruction.lk, constants)
  | .M =>
    (mixBool (mixField (mixField shape instruction.rs) instruction.ra) instruction.rc,
      mixField (mixField (mixField constants instruction.sh32) instruction.mb32)
        instruction.me32)
  | .MD | .MDS =>
    (mixBool (mixField (mixField (mixField shape instruction.rs) instruction.ra) instruction.rb)
      instruction.rc,
      mixField (mixField constants instruction.sh64Md) instruction.mb64Md)
  | .VX128 | .VX128_1 | .VX128_2 | .VX128_3 | .VX128_4 | .VX128_5 | .VX128_R | .VX128_P =>
    (mixBool (mixField (mixField (mixField shape instruction.vx128Vd) instruction.vx128Va)
      instruction.vx128Vb) instruction.rc, constants)
  | format =>
    (mixBool (mixBool (mixField (mixField (mixField (mixField shape instruction.rt)
      instruction.ra) instruction.rb) instruction.frc) instruction.rc) instruction.oe,
      if format = .XFX then mixField constants instruction.spr else constants)

/-- The bits that a format leaves to operands go to the constants, unless the operands of
the format are mixed in one by one. -/
def mixRest (instruction : DecodedInstruction) (constants : BitVec 64) : BitVec 64 :=
  match instruction.info.format with
  | .D | .DS | .B | .I | .M | .MD | .MDS | .XFX => constants
  | format => mixValue constants (instruction.word &&& ~~~maskForFormat format)

/-- `normalize_instruction`; `none` is an instruction that is not valid. -/
def normalizeInstruction (word : BitVec 32) : Option DecodedInstruction → NormalizedToken
  | none =>
    { instruction := mixField (mixValue kFnvOffset 0xFFFFFFFF#32) (word.extractLsb' 26 6)
      constant := mixValue kFnvOffset word }
  | some instruction =>
    let info := instruction.info
    let shape := mixValue (mixValue (mixValue kFnvOffset (opcodeIdFor info.mnemonic))
      (formatValue info.format)) (groupValue info.group)
    let (shape, constants) := mixOperands instruction shape kFnvOffset
    { instruction := shape
      constant := mixRest instruction constants
      terminator := info.group == .Branch ||
        ["sc", "tw", "twi", "td", "tdi"].contains info.mnemonic.text
      linkedBranch := info.group == .Branch && instruction.lk
      indirectBranch := info.group == .Branch &&
        ["bctr", "bcctr", "bclr", "blr", "bcctrl", "bclrl"].contains info.mnemonic.text }

/-- The token of the word at an address, and whether an anchor ends with it. -/
def anchorToken (address : ℕ) (word : BitVec 32) : BitVec 64 × Bool :=
  let instruction := Decoder.decode (BitVec.ofNat 32 address) word
  let token := normalizeInstruction word instruction
  (token.instruction, instruction.isNone || token.terminator)

/-! ### The anchor of an address -/

/-- The loop of `compute_anchor`, of `remaining` more rounds: the hash and the number of
the instructions in it. -/
def anchorLoop (image : XexImage) (address : GuestAddress) :
    ℕ → ℕ → BitVec 64 → ℕ → BitVec 64 × ℕ
  | 0, _, hash, count => (hash, count)
  | remaining + 1, index, hash, count =>
    let pc64 := address.toNat + index * 4
    if 0xFFFFFFFF < pc64 then (hash, count)
    else
      match readWord image (BitVec.ofNat 32 pc64) with
      | none => (hash, count)
      | some word =>
        let (token, stop) := anchorToken pc64 word
        let hash := mixValue hash token
        let count := count + 1
        if stop then (hash, count) else anchorLoop image address remaining (index + 1) hash count

/-- `compute_anchor`. -/
def computeAnchor (image : XexImage) (address : GuestAddress) (maxInstructions : BitVec 32) :
    BitVec 64 × BitVec 32 :=
  let maxInstructions := max 1 (min 32 maxInstructions.toNat)
  let (hash, count) := anchorLoop image address maxInstructions 0 kFnvOffset 0
  let count := BitVec.ofNat 32 count
  let hash := mixValue hash count
  (if count = 0 then 0 else hash, count)

/-- `fingerprint_entry_anchor`. -/
def fingerprintEntryAnchor (image : XexImage) (address : GuestAddress)
    (maxInstructions : BitVec 32) : FunctionFingerprint :=
  let (anchor, count) := computeAnchor image address maxInstructions
  { entryAnchorHash := anchor
    entryAnchorInstructions := count
    instructionShapeHash := anchor
    instructionCount := count
    byteSize := count * 4 }

/-! ### The scanner -/

/-- The record takes part in the scan. -/
def takesPart (minimumRecordConfidence : BitVec 32) (record : KnowledgeRecord) : Bool :=
  let fp := record.fingerprint
  !(!fp.valid || record.confidence < minimumRecordConfidence ||
    fp.entryAnchorInstructions < 4 || 8 < fp.entryAnchorInstructions)

/-- `anchors_by_length`, at a length. -/
def anchorsByLength (records : List KnowledgeRecord) (minimumRecordConfidence : BitVec 32)
    (length : ℕ) : List (BitVec 64) :=
  (records.filter fun record => takesPart minimumRecordConfidence record &&
    record.fingerprint.entryAnchorInstructions.toNat == length).map
      fun record => record.fingerprint.entryAnchorHash

/-- `maximum_length`. -/
def maximumLength (records : List KnowledgeRecord) (minimumRecordConfidence : BitVec 32) : ℕ :=
  (records.filter (takesPart minimumRecordConfidence)).foldl
    (fun length record => max length record.fingerprint.entryAnchorInstructions.toNat) 0

/-- The inner loop of the scanner, of `remaining` more rounds: `matched`. -/
def matchLoop (anchors : ℕ → List (BitVec 64)) (s : XexSection) (offset address64 : ℕ) :
    ℕ → ℕ → BitVec 64 → ℕ → Bool
  | 0, _, _, _ => false
  | remaining + 1, index, running, count =>
    let wordOffset := offset + index * 4
    if s.bytes.length < wordOffset + 4 then false
    else
      let word := wordAt s.bytes wordOffset
      let pc64 := address64 + index * 4
      if 0xFFFFFFFF < pc64 then false
      else
        let (token, stop) := anchorToken pc64 word
        let running := mixValue running token
        let count := count + 1
        if !(anchors count).isEmpty &&
            (anchors count).contains (mixValue running (BitVec.ofNat 32 count)) then true
        else if stop then false
        else matchLoop anchors s offset address64 remaining (index + 1) running count

/-- The candidates of one section, in the order of their addresses. -/
def sectionCandidates (anchors : ℕ → List (BitVec 64)) (maximumLength : ℕ) (s : XexSection) :
    List GuestAddress :=
  if !s.executable || s.bytes.length < 16 then []
  else
    let offsets := ((List.range s.bytes.length).map (· * 4)).takeWhile fun offset =>
      decide (offset + 16 ≤ s.bytes.length ∧ s.virtualAddress.toNat + offset ≤ 0xFFFFFFFF)
    (offsets.filter fun offset =>
      matchLoop anchors s offset (s.virtualAddress.toNat + offset) maximumLength 0
        kFnvOffset 0).map fun offset => BitVec.ofNat 32 (s.virtualAddress.toNat + offset)

/-- `find_knowledge_seed_candidates`. -/
def findKnowledgeSeedCandidates (image : XexImage) (records : List KnowledgeRecord)
    (minimumRecordConfidence : BitVec 32) : List GuestAddress :=
  let anchors := anchorsByLength records minimumRecordConfidence
  let maximumLength := maximumLength records minimumRecordConfidence
  if maximumLength = 0 then []
  else
    let candidates := image.sections.flatMap (sectionCandidates anchors maximumLength)
    unique BitVec.toNat (candidates.mergeSort fun a b => decide (a.toNat ≤ b.toNat))

end Knowledge
end Recomp
end XenonRecomp
