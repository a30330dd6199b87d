/-
# Decoding shaders

`ShaderDecoder::decode` of shader_decoder.cpp.  The control-flow instructions of a
program are decoded one after the other up to the first unconditional EXEC_END,
and with each clause the instructions of its range, each address once.  What the
instructions use is collected on the way in sets, which end up in the reflection.
-/

import XenonRecomp.Gpu.Microcode
import XenonRecomp.Library.SortedTable

namespace XenonRecomp
namespace Gpu
namespace Microcode

open Library.SortedTable

/-- `Usage`: sets as ascending lists. -/
structure Usage where
  floats : List ℕ := []
  bools : List ℕ := []
  loops : List ℕ := []
  vertices : List ℕ := []
  vertexFetches : List ℕ := []
  textures : List ℕ := []
  exports : List ℕ := []
  memexportStreamConstants : List ℕ := []
deriving DecidableEq, Repr

/-- What decoding has collected: the sets and the reflection. -/
structure Tally where
  usage : Usage := {}
  reflection : ShaderReflection := {}
deriving DecidableEq, Repr

namespace Tally

variable (tally : Tally)

def useBool (constant : ℕ) : Tally :=
  { tally with usage.bools := insertKey constant tally.usage.bools }

def useLoop (constant : ℕ) : Tally :=
  { tally with usage.loops := insertKey constant tally.usage.loops }

/-- `uses_predication |= …`. -/
def notePredication (predicated : Bool) : Tally :=
  { tally with
    reflection.usesPredication := tally.reflection.usesPredication || predicated }

/-- `uses_dynamic_addressing |= …`. -/
def noteDynamicAddressing (dynamic : Bool) : Tally :=
  { tally with
    reflection.usesDynamicAddressing := tally.reflection.usesDynamicAddressing || dynamic }

/-- `temporary_register_count` is at least this. -/
def noteRegisters (count : ℕ) : Tally :=
  { tally with
    reflection.temporaryRegisterCount := max tally.reflection.temporaryRegisterCount count }

end Tally

/-! ### Control flow -/

/-- The opcodes 3, 4, 13 and 14. -/
def ControlFlowOpcode.testsBool : ControlFlowOpcode → Bool
  | .condExec | .condExecEnd | .condExecPredClean | .condExecPredCleanEnd => true
  | _ => false

/-- The opcodes 5 and 6. -/
def ControlFlowOpcode.testsPredicate : ControlFlowOpcode → Bool
  | .condExecPred | .condExecPredEnd => true
  | _ => false

/-- `decode_cf`. -/
def decodeCf (raw : ControlFlowInstruction) (index : ℕ) (tally : Tally) :
    DecodedControlFlow × Tally :=
  let addressing : AddressingMode := if raw.absoluteAddressing then .absolute else .loopRelative
  let result : DecodedControlFlow := { index, opcode := raw.opcode, addressing }
  let (result, tally) :=
    if raw.isExec then
      let result := { result with
        target := raw.execAddress
        count := raw.execCount
        sequence := raw.execSequence
        yield := raw.execYield }
      if raw.opcode.testsBool then
        let boolConstant := bits raw.word1 2 8
        ({ result with boolConstant, condition := bit raw.word1 10 }, tally.useBool boolConstant)
      else if raw.opcode.testsPredicate then
        ({ result with predicate := ⟨true, bit raw.word1 10, bit raw.word1 9⟩ },
          tally.notePredication true)
      else (result, tally)
    else if raw.opcode = .loopStart ∨ raw.opcode = .loopEnd then
      let loopConstant := bits raw.word0 16 5
      let predicate : Predicate :=
        ⟨raw.opcode = .loopEnd && bit raw.word0 21, bit raw.word1 10, false⟩
      let tally := tally.useLoop loopConstant
      let tally := { tally with reflection.usesLoops := true }
      ({ result with
        target := raw.jumpTarget
        loopConstant
        «repeat» := raw.opcode = .loopStart && bit raw.word0 13
        predicate }, tally.notePredication predicate.enabled)
    else if raw.opcode = .condCall ∨ raw.opcode = .condJump then
      let unconditional := bit raw.word0 13
      let condition := bit raw.word1 10
      let predicate : Predicate := ⟨bit raw.word0 14, condition, false⟩
      let boolConstant := bits raw.word1 2 8
      let tally :=
        if !unconditional && !predicate.enabled then tally.useBool boolConstant else tally
      ({ result with target := raw.jumpTarget, unconditional, condition, predicate, boolConstant },
        tally.notePredication predicate.enabled)
    else if raw.opcode = .alloc then
      ({ result with
        allocationSize := bits raw.word0 0 3
        allocation := .ofBits (bits raw.word1 9 2) }, tally)
    else (result, tally)
  (result, tally.noteDynamicAddressing (result.addressing = .absolute))

/-! ### ALU instructions -/

/-- The swizzle of a source with the microcode's component-relative fields. -/
def decodeSwizzle (relativeSwizzle : ℕ) : ℕ :=
  (List.range 4).foldl
    (fun swizzle c =>
      swizzle ||| (((relativeSwizzle / 2 ^ (2 * c)) + c) % 4) * 2 ^ (2 * c)) 0

/-- Whether the source `i` is a temporary; the third may have to be a constant. -/
def sourceTemporary (raw : ShaderInstruction) (readsConstant : Bool) (i : ℕ) : Bool :=
  bit raw.word2 (29 + (2 - i)) && !(i = 2 && readsConstant)

/-- The source `i`; the third one may be a constant of the scalar operation. -/
def decodeSource (raw : ShaderInstruction) (readsConstant absoluteConstants : Bool) (i : ℕ) :
    AluSource :=
  let reverse := 2 - i
  let temporary := sourceTemporary raw readsConstant
  let index := bits raw.word2 (reverse * 8) 8
  let swizzle := decodeSwizzle (bits raw.word1 (reverse * 8) 8)
  let negate := bit raw.word1 (24 + reverse)
  let earlierConstant := (1 ≤ i && !temporary 0) || (i = 2 && !temporary 1)
  if temporary i then
    { index := index % 64, swizzle, temporary := true, relative := bit raw.word2 (reverse * 8 + 6),
      absoluteValue := bit raw.word2 (reverse * 8 + 7), negate }
  else
    { index, swizzle, temporary := false,
      relative := if earlierConstant then bit raw.word1 30 else bit raw.word1 31,
      absoluteValue := absoluteConstants, negate }

/-- What one source uses. -/
def useSource (source : AluSource) (tally : Tally) : Tally :=
  let tally :=
    if source.temporary then tally.noteRegisters (source.index + 1)
    else { tally with usage.floats := insertKey source.index tally.usage.floats }
  tally.noteDynamicAddressing source.relative

/-- The part of `decode_alu` about exports. -/
def useExport (out : AluInstruction) (stage : ShaderStage) (tally : Tally) : Tally :=
  let tally := { tally with
    usage.exports := insertKey out.vectorDestination tally.usage.exports }
  let tally :=
    if out.vectorDestination = 32 then
      let tally := { tally with reflection.writesExportAddress := true }
      let streamSource := out.source2
      -- `mad eA, r#, const0100, c#`, as far as it is unambiguous
      let conventionalStreamAddress :=
        out.vectorOpcode = 11 && out.vectorWriteMask = 0xF && !out.vectorClamp &&
          !out.absoluteConstants && !streamSource.temporary && !streamSource.relative &&
          streamSource.swizzle = 0xE4 && !streamSource.negate && !streamSource.absoluteValue
      if conventionalStreamAddress then
        { tally with
          usage.memexportStreamConstants :=
            insertKey streamSource.index tally.usage.memexportStreamConstants }
      else { tally with reflection.requiresDynamicMemexportAddress := true }
    else if 33 ≤ out.vectorDestination ∧ out.vectorDestination ≤ 37 then
      { tally with
        reflection.memoryExportMask :=
          tally.reflection.memoryExportMask ||| (1 <<< (out.vectorDestination - 33)) }
    else tally
  if stage = .pixel ∧ out.vectorDestination = 61 then
    { tally with reflection.writesDepth := true }
  else tally

/-- mulsc, addsc and subsc read a constant as the third source. -/
def scalarConstantOperation (scalarOpcode : ℕ) : Bool :=
  42 ≤ scalarOpcode && scalarOpcode ≤ 47

/-- The record that `decode_alu` returns. -/
def aluInstruction (raw : ShaderInstruction) (address : ℕ) : AluInstruction :=
  let scalarOpcode := bits raw.word0 26 6
  let absoluteConstants := bit raw.word0 7
  let source := decodeSource raw (scalarConstantOperation scalarOpcode) absoluteConstants
  { address
    vectorOpcode := bits raw.word2 24 5
    scalarOpcode
    vectorDestination := bits raw.word0 0 6
    scalarDestination := bits raw.word0 8 6
    vectorWriteMask := bits raw.word0 16 4
    scalarWriteMask := bits raw.word0 20 4
    exportData := bit raw.word0 15
    vectorDestinationRelative := bit raw.word0 6
    scalarDestinationRelative := bit raw.word0 14
    vectorClamp := bit raw.word0 24
    scalarClamp := bit raw.word0 25
    absoluteConstants
    constantAddressRegisterRelative := bit raw.word1 29
    predicate := ⟨bit raw.word1 28, bit raw.word1 27, false⟩
    source0 := source 0
    source1 := source 1
    source2 := source 2
    scalarConstantTemporary :=
      if scalarConstantOperation scalarOpcode then
        (scalarOpcode % 2) ||| (bits raw.word2 29 1 * 2) ||| (bits raw.word1 0 8 &&& 0x3C)
      else 0 }

/-- What `decode_alu` notes about its record. -/
def noteAlu (out : AluInstruction) (stage : ShaderStage) (tally : Tally) : Tally :=
  let tally :=
    if scalarConstantOperation out.scalarOpcode then
      tally.noteRegisters (out.scalarConstantTemporary + 1)
    else tally
  let tally := useSource out.source2 (useSource out.source1 (useSource out.source0 tally))
  let tally := tally.notePredication out.predicate.enabled
  let tally :=
    if out.exportData then useExport out stage tally
    else tally.noteRegisters (max out.vectorDestination out.scalarDestination + 1)
  let kills := tally.reflection.killsPixels || (24 ≤ out.vectorOpcode && out.vectorOpcode ≤ 27)
  { tally with reflection.killsPixels := kills }

/-- `decode_alu`. -/
def decodeAlu (raw : ShaderInstruction) (address : ℕ) (stage : ShaderStage) (tally : Tally) :
    AluInstruction × Tally :=
  let out := aluInstruction raw address
  (out, noteAlu out stage tally)

/-! ### Fetch instructions -/

/-- The branch of `decode_fetch` for vertices. -/
def decodeVertexFetch (raw : ShaderInstruction) (address : ℕ) : VertexFetchInstruction where
  address := address
  sourceRegister := bits raw.word0 5 6
  sourceSwizzle := bits raw.word0 30 2
  destinationRegister := bits raw.word0 12 6
  destinationSwizzle := bits raw.word1 0 12
  fetchConstant := bits raw.word0 20 5
  fetchConstantSelect := bits raw.word0 25 2
  prefetchCount := bits raw.word0 27 3 + 1
  dataFormat := bits raw.word1 16 6
  strideDwords := bits raw.word2 0 8
  offsetDwords := signedBits raw.word2 8 23
  exponentAdjust := signedBits raw.word1 24 6
  sourceRelative := bit raw.word0 11
  destinationRelative := bit raw.word0 18
  miniFetch := bit raw.word1 30
  signedData := bit raw.word1 12
  normalized := !bit raw.word1 13
  indexRounded := bit raw.word1 15
  predicate := ⟨bit raw.word1 31, bit raw.word2 31, false⟩

/-- The branch of `decode_fetch` for textures. -/
def decodeTextureFetch (raw : ShaderInstruction) (address : ℕ) : TextureFetchInstruction where
  address := address
  opcode := bits raw.word0 0 5
  sourceRegister := bits raw.word0 5 6
  sourceSwizzle := bits raw.word0 26 6
  destinationRegister := bits raw.word0 12 6
  destinationSwizzle := bits raw.word1 0 12
  fetchConstant := bits raw.word0 20 5
  dimension := bits raw.word2 14 2
  lodBiasSixteenths := signedBits raw.word2 2 7
  offsetsHalfTexels :=
    (signedBits raw.word2 16 5, signedBits raw.word2 21 5, signedBits raw.word2 26 5)
  sourceRelative := bit raw.word0 11
  destinationRelative := bit raw.word0 18
  unnormalizedCoordinates := bit raw.word0 25
  fetchValidOnly := bit raw.word0 19
  useComputedLod := bit raw.word1 28
  useRegisterLod := bit raw.word1 29
  useRegisterGradients := bit raw.word2 0
  predicate := ⟨bit raw.word1 31, bit raw.word2 31, false⟩

/-- `decode_fetch`. -/
def decodeFetch (raw : ShaderInstruction) (address : ℕ) (serialize : Bool) (tally : Tally) :
    DecodedInstruction × Tally :=
  if bits raw.word0 0 5 = 0 then
    let out := decodeVertexFetch raw address
    let tally := { tally with
      usage.vertices := insertKey out.fetchConstant tally.usage.vertices
      usage.vertexFetches :=
        insertKey (out.fetchConstant * 3 + out.fetchConstantSelect) tally.usage.vertexFetches }
    let tally := tally.noteDynamicAddressing (out.sourceRelative || out.destinationRelative)
    ({ kind := .vertexFetch, serialize, vertexFetch := out },
      tally.notePredication out.predicate.enabled)
  else
    let out := decodeTextureFetch raw address
    let tally := { tally with
      usage.textures := insertKey out.fetchConstant tally.usage.textures }
    let tally := tally.noteDynamicAddressing (out.sourceRelative || out.destinationRelative)
    ({ kind := .textureFetch, serialize, textureFetch := out },
      tally.notePredication out.predicate.enabled)

/-! ### The scan -/

/-- The state of the loops of `decode`. -/
structure Scan where
  tally : Tally := {}
  decodedAddresses : List ℕ := []
  controlFlow : List DecodedControlFlow := []
  instructions : List DecodedInstruction := []
  diagnostics : List String := []
deriving DecidableEq, Repr

namespace ShaderProgram

variable (program : ShaderProgram)

/-- The body of the loop over the instructions of a clause. -/
def scanSlot (decoded : DecodedControlFlow) (scan : Scan) (i : ℕ) : Scan :=
  let address := decoded.target + i
  if program.instructionCount ≤ address then
    { scan with diagnostics := scan.diagnostics ++ ["exec range exceeds shader microcode"] }
  else if address ∈ scan.decodedAddresses then scan
  else
    let scan := { scan with decodedAddresses := insertKey address scan.decodedAddresses }
    let fetch : Bool := decoded.sequence / 2 ^ (i * 2) % 2 ≠ 0
    let serialize : Bool := decoded.sequence / 2 ^ (i * 2 + 1) % 2 ≠ 0
    if fetch then
      let (instruction, tally) :=
        decodeFetch (program.instruction address) address serialize scan.tally
      { scan with tally, instructions := scan.instructions ++ [instruction] }
    else
      let (alu, tally) :=
        decodeAlu (program.instruction address) address program.stage scan.tally
      { scan with tally, instructions := scan.instructions ++ [{ kind := .alu, serialize, alu }] }

/-- The body of the loop over the two halves of a group. -/
def scanHalf (scan : Scan) (index : ℕ) (raw : ControlFlowInstruction) : Scan :=
  let (decoded, tally) := decodeCf raw index scan.tally
  let scan := { scan with tally, controlFlow := scan.controlFlow ++ [decoded] }
  if raw.isExec then (List.range decoded.count).foldl (program.scanSlot decoded) scan else scan

/-- The loops over groups and halves, and whether an EXEC_END was found. -/
def scanGroups : List ℕ → Scan → Scan × Bool
  | [], scan => (scan, false)
  | group :: groups, scan =>
    let (first, second) := program.controlFlowPair group
    let scan := program.scanHalf scan (group * 2) first
    if first.opcode = .execEnd then (scan, true)
    else
      let scan := program.scanHalf scan (group * 2 + 1) second
      if second.opcode = .execEnd then (scan, true) else scanGroups groups scan

/-- The body of the loop that counts exports. -/
def countExport (reflection : ShaderReflection) (index : ℕ) : ShaderReflection :=
  let reflection :=
    if 33 ≤ index ∧ index ≤ 37 then
      { reflection with memoryExports := reflection.memoryExports + 1 }
    else reflection
  if program.stage = .vertex then
    let reflection :=
      if index ≤ 15 then
        { reflection with interpolatorExports := reflection.interpolatorExports + 1 }
      else reflection
    if index = 62 then { reflection with positionExports := reflection.positionExports + 1 }
    else reflection
  else
    let reflection :=
      if index ≤ 3 then { reflection with colorExports := reflection.colorExports + 1 }
      else reflection
    if index = 61 then { reflection with writesDepth := true } else reflection

/-- The reflection at the end: the sets as lists, and the counts of exports. -/
def finishReflection (tally : Tally) : ShaderReflection :=
  let reflection := { tally.reflection with
    floatConstants := tally.usage.floats
    boolConstants := tally.usage.bools
    loopConstants := tally.usage.loops
    vertexFetchConstants := tally.usage.vertices
    vertexFetches := tally.usage.vertexFetches
    textureFetchConstants := tally.usage.textures
    exports := tally.usage.exports
    memexportStreamConstants := tally.usage.memexportStreamConstants }
  reflection.exports.foldl program.countExport reflection

/-- `ShaderDecoder::decode`. -/
def decode : DecodedShader :=
  let result : DecodedShader :=
    { stage := program.stage, sourceHash := program.hash, startSlot := program.startSlot }
  if program.completeInstructionStream = false then
    { result with
      diagnostics := ["shader bytecode is not a whole number of 96-bit groups"] }
  else
    let (scan, ended) := program.scanGroups (List.range program.instructionCount) {}
    { result with
      controlFlow := scan.controlFlow
      instructions := scan.instructions
      reflection := program.finishReflection scan.tally
      complete := ended && scan.diagnostics.isEmpty
      diagnostics :=
        if ended then scan.diagnostics
        else scan.diagnostics ++ ["shader has no terminating control-flow instruction"] }

end ShaderProgram

end Microcode
end Gpu
end XenonRecomp
