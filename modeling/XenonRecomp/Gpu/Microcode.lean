/-
# Shader microcode

`ShaderProgram` of shader.hpp and shader.cpp, and the records that
`ShaderDecoder` (shader_ir.hpp) makes of it.  A program is a list of words; three
of them are a group, which is either one ALU or fetch instruction or two
control-flow instructions of 48 bits.

An `enum class` of the source that is read from data keeps its byte, since the
type holds values without a name too.
-/

import XenonRecomp.Gpu.CommandProcessor

namespace XenonRecomp
namespace Gpu
namespace Microcode

/-- `bits`: the `count` bits from `first` on. -/
def bits {w : ℕ} (value : BitVec w) (first count : ℕ) : ℕ :=
  value.toNat / 2 ^ first % 2 ^ count

/-- One bit. -/
def bit {w : ℕ} (value : BitVec w) (index : ℕ) : Bool :=
  bits value index 1 ≠ 0

/-- `signed_bits`. -/
def signedBits {w : ℕ} (value : BitVec w) (first count : ℕ) : ℤ :=
  let raw := bits value first count
  if raw < 2 ^ (count - 1) then raw else (raw : ℤ) - 2 ^ count

/-- `ShaderStage`. -/
structure ShaderStage where
  value : BitVec 8
deriving DecidableEq, Repr

namespace ShaderStage

def vertex : ShaderStage := ⟨0⟩

def pixel : ShaderStage := ⟨1⟩

end ShaderStage

/-- `calculate_hash`. -/
def calculateHash (stage : ShaderStage) (startSlot : BitVec 32) (dwords : List (BitVec 32)) :
    BitVec 64 :=
  (startSlot :: dwords).foldl hashWord (hashByte 14695981039346656037 stage.value)

/-- `ShaderProgram`: one built from words, with their hash, or a default one. -/
structure ShaderProgram where
  stage : ShaderStage
  startSlot : BitVec 32
  dwords : List (BitVec 32)
  hash : BitVec 64
  built : hash = calculateHash stage startSlot dwords ∨
    stage = .vertex ∧ startSlot = 0 ∧ dwords = [] ∧ hash = 0
deriving DecidableEq, Repr

/-- `ControlFlowOpcode`. -/
inductive ControlFlowOpcode where
  | nop | exec | execEnd | condExec | condExecEnd | condExecPred | condExecPredEnd
  | loopStart | loopEnd | condCall | return | condJump | alloc
  | condExecPredClean | condExecPredCleanEnd | markVsFetchDone
deriving DecidableEq, Repr

/-- The opcode of a number of four bits. -/
def ControlFlowOpcode.ofBits : ℕ → ControlFlowOpcode
  | 0 => .nop
  | 1 => .exec
  | 2 => .execEnd
  | 3 => .condExec
  | 4 => .condExecEnd
  | 5 => .condExecPred
  | 6 => .condExecPredEnd
  | 7 => .loopStart
  | 8 => .loopEnd
  | 9 => .condCall
  | 10 => .return
  | 11 => .condJump
  | 12 => .alloc
  | 13 => .condExecPredClean
  | 14 => .condExecPredCleanEnd
  | _ => .markVsFetchDone

/-- `ControlFlowInstruction48`. -/
structure ControlFlowInstruction where
  word0 : BitVec 32
  word1 : BitVec 16
  opcode : ControlFlowOpcode
deriving DecidableEq, Repr

namespace ControlFlowInstruction

variable (instruction : ControlFlowInstruction)

/-- `is_exec`. -/
def isExec : Bool :=
  match instruction.opcode with
  | .exec | .execEnd | .condExec | .condExecEnd | .condExecPred | .condExecPredEnd
  | .condExecPredClean | .condExecPredCleanEnd => true
  | _ => false

/-- `exec_address`. -/
def execAddress : ℕ := bits instruction.word0 0 12

/-- `exec_count`. -/
def execCount : ℕ := bits instruction.word0 12 3

/-- `exec_yield`. -/
def execYield : Bool := bit instruction.word0 15

/-- `exec_sequence`. -/
def execSequence : ℕ := bits instruction.word0 16 12

/-- `absolute_addressing`. -/
def absoluteAddressing : Bool := bit instruction.word1 11

/-- The target of jumps, calls and loops. -/
def jumpTarget : ℕ := bits instruction.word0 0 13

end ControlFlowInstruction

/-- `ShaderInstruction96`. -/
structure ShaderInstruction where
  word0 : BitVec 32
  word1 : BitVec 32
  word2 : BitVec 32
deriving DecidableEq, Repr

namespace ShaderProgram

/-- The constructor. -/
def ofWords (stage : ShaderStage) (dwords : List (BitVec 32)) (startSlot : BitVec 32) :
    ShaderProgram :=
  ⟨stage, startSlot, dwords, calculateHash stage startSlot dwords, .inl rfl⟩

/-- A program that was not built. -/
def default : ShaderProgram :=
  ⟨.vertex, 0, [], 0, .inr ⟨rfl, rfl, rfl, rfl⟩⟩

variable (program : ShaderProgram)

/-- `complete_instruction_stream`. -/
def completeInstructionStream : Bool :=
  program.dwords.length % 3 = 0

/-- `instruction_count`. -/
def instructionCount : ℕ :=
  program.dwords.length / 3

/-- `instruction`; the source asks for groups of the program only. -/
def instruction (index : ℕ) : ShaderInstruction where
  word0 := program.dwords.getD (index * 3) 0
  word1 := program.dwords.getD (index * 3 + 1) 0
  word2 := program.dwords.getD (index * 3 + 2) 0

/-- `control_flow_pair`. -/
def controlFlowPair (index : ℕ) : ControlFlowInstruction × ControlFlowInstruction :=
  let group := program.instruction index
  let opcode (word1 : BitVec 16) := ControlFlowOpcode.ofBits (bits word1 12 4)
  let first : BitVec 16 := group.word1.setWidth 16
  let second : BitVec 16 := (group.word2 >>> 16).setWidth 16
  (⟨group.word0, first, opcode first⟩,
    ⟨(group.word1 >>> 16) ||| (group.word2 <<< 16), second, opcode second⟩)

end ShaderProgram

/-! ### Decoded records -/

/-- `AddressingMode`. -/
inductive AddressingMode where
  | loopRelative | absolute
deriving DecidableEq, Repr

/-- `AllocationType`. -/
inductive AllocationType where
  | none | position | interpolatorsOrColors | memory
deriving DecidableEq, Repr

/-- The type of a number of two bits. -/
def AllocationType.ofBits : ℕ → AllocationType
  | 0 => .none
  | 1 => .position
  | 2 => .interpolatorsOrColors
  | _ => .memory

structure Predicate where
  enabled : Bool := false
  condition : Bool := false
  clean : Bool := false
deriving DecidableEq, Repr

structure DecodedControlFlow where
  index : ℕ := 0
  opcode : ControlFlowOpcode := .nop
  target : ℕ := 0
  count : ℕ := 0
  sequence : ℕ := 0
  boolConstant : ℕ := 0
  loopConstant : ℕ := 0
  addressing : AddressingMode := .loopRelative
  predicate : Predicate := {}
  condition : Bool := false
  unconditional : Bool := false
  «repeat» : Bool := false
  yield : Bool := false
  allocation : AllocationType := .none
  allocationSize : ℕ := 0
deriving DecidableEq, Repr

structure AluSource where
  index : ℕ := 0
  swizzle : ℕ := 0
  temporary : Bool := false
  relative : Bool := false
  absoluteValue : Bool := false
  negate : Bool := false
deriving DecidableEq, Repr

/-- `AluInstruction`; the sources are three. -/
structure AluInstruction where
  address : ℕ := 0
  vectorOpcode : ℕ := 0
  scalarOpcode : ℕ := 0
  vectorDestination : ℕ := 0
  scalarDestination : ℕ := 0
  vectorWriteMask : ℕ := 0
  scalarWriteMask : ℕ := 0
  exportData : Bool := false
  vectorDestinationRelative : Bool := false
  scalarDestinationRelative : Bool := false
  vectorClamp : Bool := false
  scalarClamp : Bool := false
  absoluteConstants : Bool := false
  constantAddressRegisterRelative : Bool := false
  predicate : Predicate := {}
  source0 : AluSource := {}
  source1 : AluSource := {}
  source2 : AluSource := {}
  scalarConstantTemporary : ℕ := 0
deriving DecidableEq, Repr

structure VertexFetchInstruction where
  address : ℕ := 0
  sourceRegister : ℕ := 0
  sourceSwizzle : ℕ := 0
  destinationRegister : ℕ := 0
  destinationSwizzle : ℕ := 0
  fetchConstant : ℕ := 0
  fetchConstantSelect : ℕ := 0
  prefetchCount : ℕ := 0
  dataFormat : ℕ := 0
  strideDwords : ℕ := 0
  offsetDwords : ℤ := 0
  exponentAdjust : ℤ := 0
  sourceRelative : Bool := false
  destinationRelative : Bool := false
  miniFetch : Bool := false
  signedData : Bool := false
  normalized : Bool := false
  indexRounded : Bool := false
  predicate : Predicate := {}
deriving DecidableEq, Repr

structure TextureFetchInstruction where
  address : ℕ := 0
  opcode : ℕ := 0
  sourceRegister : ℕ := 0
  sourceSwizzle : ℕ := 0
  destinationRegister : ℕ := 0
  destinationSwizzle : ℕ := 0
  fetchConstant : ℕ := 0
  dimension : ℕ := 0
  lodBiasSixteenths : ℤ := 0
  offsetsHalfTexels : ℤ × ℤ × ℤ := (0, 0, 0)
  sourceRelative : Bool := false
  destinationRelative : Bool := false
  unnormalizedCoordinates : Bool := false
  fetchValidOnly : Bool := false
  useComputedLod : Bool := false
  useRegisterLod : Bool := false
  useRegisterGradients : Bool := false
  predicate : Predicate := {}
deriving DecidableEq, Repr

/-- `ShaderInstructionKind`. -/
inductive ShaderInstructionKind where
  | alu | vertexFetch | textureFetch
deriving DecidableEq, Repr

structure DecodedInstruction where
  kind : ShaderInstructionKind := .alu
  serialize : Bool := false
  alu : AluInstruction := {}
  vertexFetch : VertexFetchInstruction := {}
  textureFetch : TextureFetchInstruction := {}
deriving DecidableEq, Repr

/-- `ShaderReflection`. -/
structure ShaderReflection where
  floatConstants : List ℕ := []
  boolConstants : List ℕ := []
  loopConstants : List ℕ := []
  vertexFetchConstants : List ℕ := []
  vertexFetches : List ℕ := []
  textureFetchConstants : List ℕ := []
  exports : List ℕ := []
  memexportStreamConstants : List ℕ := []
  temporaryRegisterCount : ℕ := 0
  positionExports : ℕ := 0
  interpolatorExports : ℕ := 0
  colorExports : ℕ := 0
  memoryExports : ℕ := 0
  memoryExportMask : BitVec 8 := 0
  writesExportAddress : Bool := false
  requiresDynamicMemexportAddress : Bool := false
  usesPredication : Bool := false
  usesLoops : Bool := false
  usesDynamicAddressing : Bool := false
  killsPixels : Bool := false
  writesDepth : Bool := false
deriving DecidableEq, Repr

structure DecodedShader where
  stage : ShaderStage := .vertex
  sourceHash : BitVec 64 := 0
  startSlot : BitVec 32 := 0
  controlFlow : List DecodedControlFlow := []
  instructions : List DecodedInstruction := []
  reflection : ShaderReflection := {}
  diagnostics : List String := []
  complete : Bool := false
deriving DecidableEq, Repr

end Microcode
end Gpu
end XenonRecomp
