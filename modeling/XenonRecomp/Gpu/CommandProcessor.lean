/-
# The command processor

The packets of `CommandProcessor`
(`src/graphics/xenos/command_processor.cpp`), one definition for each handler,
up to the one that executes one packet.  A handler is a program over the state of
the processor; what it does in order stands in its log: commands of the stream,
writes to guest memory, interrupts, calls of the guest-visible barrier, conditions
evaluated, and dwords fetched.

What a wait sees is a list of values that other processors may have put there
between two polls, so each packet is given the values its polls read; otherwise
guest memory changes only through the command processor.  An
indirect buffer is a request that the packet returns.  Of the statistics only the
number of draws is here, which the barrier of `submit_ring` reads.
-/

import XenonRecomp.Gpu.PacketFormat
import XenonRecomp.Library.LoggedPrograms

namespace XenonRecomp
namespace Gpu

open Library

/-! ### Commands of the stream -/

/-- `ShaderStage`, as far as packets name it. -/
inductive ShaderStage where
  | vertex | pixel
deriving DecidableEq, Repr

/-- `ShaderProgram`; its hash is a function of the rest. -/
structure ShaderProgram where
  stage : ShaderStage
  dwords : List (BitVec 32)
  startSlot : ℕ
deriving DecidableEq, Repr

/-- One byte of `ShaderProgram::calculate_hash`. -/
def hashByte (hash : BitVec 64) (value : BitVec 8) : BitVec 64 :=
  (hash ^^^ value.setWidth 64) * 1099511628211

/-- One word, low byte first. -/
def hashWord (hash : BitVec 64) (word : BitVec 32) : BitVec 64 :=
  (encodeLe32 word).foldl hashByte hash

/-- `ShaderProgram::calculate_hash`. -/
def ShaderProgram.hash (program : ShaderProgram) : BitVec 64 :=
  let stage : BitVec 8 := match program.stage with
    | .vertex => 0
    | .pixel => 1
  (BitVec.ofNat 32 program.startSlot :: program.dwords).foldl hashWord
    (hashByte 14695981039346656037 stage)

structure ShaderReference where
  valid : Bool
  hash : BitVec 64
  startSlot : ℕ
deriving DecidableEq, Repr

/-- No shader. -/
def ShaderReference.none : ShaderReference :=
  ⟨false, 0, 0⟩

/-- `DrawSource`. -/
inductive DrawSource where
  | dma | immediate | autoIndex | reserved
deriving DecidableEq, Repr

/-- `IndexFormat`. -/
inductive IndexFormat where
  | uint16 | uint32
deriving DecidableEq, Repr

/-- `index_size_bytes`. -/
def IndexFormat.sizeBytes : IndexFormat → ℕ
  | .uint16 => 2
  | .uint32 => 4

structure IndexBufferReference where
  physicalAddress : ℕ
  lengthBytes : ℕ
  indexCount : ℕ
  format : IndexFormat
  endian : Endian
deriving DecidableEq, Repr

structure BinningReference where
  base : BitVec 32
  size : BitVec 32
  baseOffset : BitVec 32
  effectiveBase : BitVec 32
  mask : BitVec 64
  select : BitVec 64
deriving DecidableEq, Repr

/-- `DrawPacket`; primitive type and major mode are their numbers. -/
structure DrawPacket where
  opcode : Type3Opcode
  predicate : Bool
  registerGeneration : BitVec 64
  primitiveType : ℕ
  source : DrawSource
  majorMode : ℕ
  explicitMajorMode : Bool
  indexFormat : IndexFormat
  notEop : Bool
  binned : Bool
  indexCount : ℕ
  vizQueryCondition : BitVec 32
  indexBuffer : Option IndexBufferReference
  binning : Option BinningReference
  vertexShader : ShaderReference
  pixelShader : ShaderReference
  immediateIndexDwords : List (BitVec 32)
  rawPayload : List (BitVec 32)
deriving DecidableEq, Repr

/-- `ir::Command`; the decoded form of a loaded shader is a function of the program. -/
inductive Command where
  | registerWrite (index : ℕ) (value : BitVec 32)
  | physicalMemoryWrite (address : ℕ) (value : BitVec 32) (endian : Endian)
  | indirectBuffer (address : BitVec 32) (dwordCount : ℕ) (prefetch : Bool)
  | draw (packet : DrawPacket)
  | shaderLoad (opcode : Type3Opcode) (immediate : Bool) (address : ℕ) (program : ShaderProgram)
      (rawPayload : List (BitVec 32))
  | shaderPacket (opcode : Type3Opcode) (payload : List (BitVec 32))
  | synchronizationPacket (opcode : Type3Opcode) (payload : List (BitVec 32))
  | eventPacket (opcode : Type3Opcode) (payload : List (BitVec 32))
  | statePacket (opcode : Type3Opcode) (payload : List (BitVec 32))
  | type3Packet (opcode : Type3Opcode) (predicate : Bool) (payload : List (BitVec 32))
deriving DecidableEq, Repr

/-! ### State and effects -/

/-- `RegisterFile::kRegisterCount`. -/
abbrev registerCount : ℕ := 0x5003

/-- `kPhysicalMemorySize`. -/
abbrev physicalMemorySize : ℕ := 0x20000000

/-- What the command processor does. -/
inductive Effect where
  /-- `stream_.emit`. -/
  | emit (command : Command)
  /-- Bytes go to guest memory. -/
  | write (address : ℕ) (bytes : List (BitVec 8))
  | interrupt (cpu : ℕ)
  /-- `before_guest_visible_effect`. -/
  | barrier
  /-- A condition read from memory or a register is evaluated. -/
  | test
  /-- A dword of the command stream is read. -/
  | fetch (address : ℕ)
  /-- A type-3 packet that is not suppressed begins. -/
  | start (opcode : Type3Opcode)
deriving DecidableEq, Repr

/-- The state that packets read and change. -/
structure Processor where
  registers : ℕ → BitVec 32
  generation : BitVec 64
  memory : ℕ → BitVec 8
  activeVertexShader : ShaderReference
  activePixelShader : ShaderReference
  activeVertexProgram : Option ShaderProgram
  activePixelProgram : Option ShaderProgram
  binBaseOffset : BitVec 32
  binMask : BitVec 64
  binSelect : BitVec 64
  activeVizQueries : BitVec 64
  vizQueryDraws : BitVec 64
  swapCounter : BitVec 32
  draws : ℕ
  /-- An interrupt callback is installed. -/
  interruptCallback : Bool

/-- Programs of the command processor; they fail with the text of an exception. -/
abbrev Processing (α : Type) : Type := Logged Processor String Effect α

/-- Throws an exception with this text. -/
def raise {α : Type} (what : String) : Processing α :=
  Logged.fail what

/-- Throws unless the condition holds. -/
def require (condition : Prop) [Decidable condition] (what : String) : Processing Unit :=
  if condition then pure () else raise what

/-- `stream_.emit`. -/
def emit (command : Command) : Processing Unit :=
  Logged.log (.emit command)

/-- `before_guest_visible_effect`: the call of the barrier. -/
def beforeGuestVisibleEffect : Processing Unit :=
  Logged.log .barrier

/-- Bytes over the memory. -/
def overwrite (memory : ℕ → BitVec 8) (address : ℕ) (bytes : List (BitVec 8)) : ℕ → BitVec 8 :=
  fun x => if address ≤ x then (bytes[x - address]?).getD (memory x) else memory x

/-- `AddressSpace::write_physical`, with the text of its caller if it fails. -/
def writePhysical (address : ℕ) (bytes : List (BitVec 8)) (what : String) : Processing Unit := fun s =>
  if address + bytes.length ≤ physicalMemorySize then
    (.ok (), { s with memory := overwrite s.memory address bytes }, [.write address bytes])
  else (.error what, s, [])

/-- `load_be32` of the bytes at this address. -/
def loadBe32 (memory : ℕ → BitVec 8) (address : ℕ) : BitVec 32 :=
  memory address ++ memory (address + 1) ++ memory (address + 2) ++ memory (address + 3)

/-- `load_le32` of the bytes at this address. -/
def loadLe32 (memory : ℕ → BitVec 8) (address : ℕ) : BitVec 32 :=
  memory (address + 3) ++ memory (address + 2) ++ memory (address + 1) ++ memory address

/-- Dwords of physical memory from this address. -/
def loadDwords (memory : ℕ → BitVec 8) (address count : ℕ) : List (BitVec 32) :=
  (List.range count).map fun i => loadBe32 memory (address + i * 4)

/-! ### The reader -/

/-- `CommandProcessor::Reader`. -/
structure Reader where
  base : ℕ
  capacity : ℕ
  index : ℕ
  remaining : ℕ
deriving DecidableEq, Repr

namespace Reader

/-- The constructor. -/
def make (base : BitVec 32) (capacity startIndex available : ℕ) : Except String Reader :=
  if capacity = 0 then .error "zero-sized GPU command buffer"
  else if cpuToGpuAddress base + capacity * 4 > physicalMemorySize then
    .error "GPU command buffer outside physical RAM"
  else .ok ⟨cpuToGpuAddress base, capacity, startIndex % capacity, available⟩

/-- The reader behind the next dword. -/
def next (reader : Reader) : Reader :=
  { reader with index := (reader.index + 1) % reader.capacity, remaining := reader.remaining - 1 }

/-- `Reader::read`. -/
def read (reader : Reader) : Processing (BitVec 32 × Reader) := fun s =>
  if reader.remaining = 0 then (.error "truncated GPU command packet", s, [])
  else
    let address := reader.base + reader.index * 4
    if address + 4 > physicalMemorySize then
      (.error "GPU command read from invalid physical RAM", s, [])
    else (.ok (loadBe32 s.memory address, reader.next), s, [.fetch address])

/-- `Reader::skip`. -/
def skip (reader : Reader) (dwords : ℕ) : Processing Reader := do
  require (dwords ≤ reader.remaining) "truncated PM4 conditional execution block"
  pure { reader with
    index := (reader.index + dwords) % reader.capacity
    remaining := reader.remaining - dwords }

/-- The loop of `read_payload`. -/
def readWords : ℕ → Reader → Processing (List (BitVec 32) × Reader)
  | 0, reader => pure ([], reader)
  | count + 1, reader => do
      let (word, reader) ← reader.read
      let (words, reader) ← readWords count reader
      pure (word :: words, reader)

/-- `read_payload`. -/
def readPayload (reader : Reader) (count : ℕ) : Processing (List (BitVec 32) × Reader) := do
  require (count ≤ reader.remaining) "truncated Xenos type-3 packet"
  readWords count reader

end Reader

/-! ### Registers and memory -/

/-- `kCoherStatusHostRegister` and `kCoherStatusPending`. -/
abbrev coherStatusHostRegister : ℕ := 0x0A31

abbrev coherStatusPending : BitVec 32 := 0x80000000

/-- `kScratchUmskRegister` to `kScratchRegisterLast`. -/
abbrev scratchUmskRegister : ℕ := 0x01DC

abbrev scratchAddrRegister : ℕ := 0x01DD

abbrev scratchRegisterFirst : ℕ := 0x0578

abbrev scratchRegisterLast : ℕ := 0x057F

abbrev vgtDmaBase : ℕ := 0x21FA

abbrev vgtDmaSize : ℕ := 0x21FB

abbrev vgtDrawInitiator : ℕ := 0x21FC

abbrev vgtEventInitiator : ℕ := 0x21F9

abbrev paScVizQueryStatus0 : ℕ := 0x0C44

abbrev paScVizQueryStatus1 : ℕ := 0x0C45

/-- `RegisterFile::read`. -/
def Processor.register (s : Processor) (index : ℕ) : BitVec 32 :=
  if index < registerCount then s.registers index else 0

/-- `RegisterFile::write` of a register that is there. -/
def Processor.setRegister (s : Processor) (index : ℕ) (value : BitVec 32) : Processor :=
  { s with
    registers := Function.update s.registers index value
    generation := s.generation + 1 }

/-- The write-back of a scratch register. -/
def scratchWriteback (index : ℕ) (value : BitVec 32) : Processing Unit := do
  let s ← Logged.get
  let scratch := index - scratchRegisterFirst
  Logged.onlyIf ((s.register scratchUmskRegister).getLsbD scratch = true) do
    let destination :=
      cpuToGpuAddress (s.register scratchAddrRegister + BitVec.ofNat 32 (scratch * 4))
    require (destination + 4 ≤ physicalMemorySize)
      "Xenos scratch register write-back outside RAM"
    beforeGuestVisibleEffect
    writePhysical destination (encodeBe32 value) "Xenos scratch register write-back has no backing"

/-- `emit_register_write`. -/
def emitRegisterWrite (index : ℕ) (value : BitVec 32) : Processing Unit := do
  require (index < registerCount) "Xenos register index outside register file"
  Logged.modify (·.setRegister index value)
  Logged.onlyIf (scratchRegisterFirst ≤ index ∧ index ≤ scratchRegisterLast)
    (scratchWriteback index value)
  Logged.onlyIf (index = coherStatusHostRegister)
    (Logged.modify (·.setRegister index (value ||| coherStatusPending)))
  emit (.registerWrite index value)

/-- Register writes to consecutive registers. -/
def emitRegisterWrites (index : ℕ) (values : List (BitVec 32)) : Processing Unit :=
  Logged.each values.zipIdx fun (value, i) => emitRegisterWrite (index + i) value

/-- `write_physical_dword`. -/
def writePhysicalDword (addressWithEndian logicalValue : BitVec 32) : Processing Unit := do
  let endian := Endian.ofWord addressWithEndian
  let address := gpuDwordAddress addressWithEndian
  require (address + 4 ≤ physicalMemorySize) "Xenos physical write outside RAM"
  beforeGuestVisibleEffect
  writePhysical address (encodeLe32 (gpuSwap logicalValue endian))
    "Xenos physical write has no backing"
  emit (.physicalMemoryWrite address logicalValue endian)

/-- `read_physical_dword`. -/
def readPhysicalDword (addressWithEndian : BitVec 32) : Processing (BitVec 32) := do
  let address := gpuDwordAddress addressWithEndian
  require (address + 4 ≤ physicalMemorySize) "Xenos physical read outside RAM"
  let s ← Logged.get
  pure (gpuSwap (loadLe32 s.memory address) (.ofWord addressWithEndian))

/-- `wait_condition_matches`. -/
def waitConditionMatches (waitInfo value reference mask : BitVec 32) : Bool :=
  let masked := value &&& mask
  match (waitInfo &&& 7).toNat with
  | 0 => false
  | 1 => masked < reference
  | 2 => masked ≤ reference
  | 3 => masked = reference
  | 4 => masked ≠ reference
  | 5 => reference ≤ masked
  | 6 => reference < masked
  | _ => true

/-- `constant_register_base`. -/
def constantRegisterBase : ℕ → Processing ℕ
  | 0 => pure 0x4000
  | 1 => pure 0x4800
  | 2 => pure 0x4900
  | 3 => pure 0x4908
  | 4 => pure 0x2000
  | _ => raise "unsupported Xenos SET_CONSTANT block type"

/-- The first register that a constant selector names. -/
def constantRegister (selector : BitVec 32) : Processing ℕ := do
  let base ← constantRegisterBase ((selector >>> 16) &&& 0xFF).toNat
  pure ((selector &&& 0x7FF).toNat + base)

/-! ### Packets that move registers and memory -/

/-- One operand of `execute_reg_rmw`: a register or the dword itself. -/
def rmwOperand (isRegister : Bool) (word : BitVec 32) (what : String) : Processing (BitVec 32) := do
  if isRegister then
    let source := (word &&& 0x1FFF).toNat
    require (source < registerCount) what
    let s ← Logged.get
    pure (s.register source)
  else pure word

/-- `execute_reg_rmw`. -/
def executeRegRmw : List (BitVec 32) → Processing Unit
  | [rmwInfo, andWord, orWord] => do
      let target := (rmwInfo &&& 0x1FFF).toNat
      require (target < registerCount) "PM4_REG_RMW target register outside register file"
      let s ← Logged.get
      let value := s.register target
      let andValue ← rmwOperand (rmwInfo.getLsbD 31) andWord
        "PM4_REG_RMW AND register outside register file"
      let orValue ← rmwOperand (rmwInfo.getLsbD 30) orWord
        "PM4_REG_RMW OR register outside register file"
      emitRegisterWrite target ((value &&& andValue) ||| orValue)
  | _ => raise "PM4_REG_RMW requires exactly 3 dwords"

/-- `execute_reg_to_mem`. -/
def executeRegToMem : List (BitVec 32) → Processing Unit
  | [sourceInfo, target] => do
      require (sourceInfo &&& 0xC0000000 = 0)
        "PM4_REG_TO_MEM 64B/ACCUMULATE mode is not supported yet"
      let firstRegister := (sourceInfo &&& 0x3FFFF).toNat
      let transferCount := max 1 ((sourceInfo >>> 18) &&& 0xFFF).toNat
      require (firstRegister < registerCount ∧ firstRegister + transferCount ≤ registerCount)
        "PM4_REG_TO_MEM source range outside register file"
      let endianBits := target &&& 3
      let destination := target &&& ~~~3
      require (cpuToGpuAddress destination + transferCount * 4 ≤ physicalMemorySize)
        "PM4_REG_TO_MEM destination outside physical RAM"
      Logged.each (List.range transferCount) fun i => do
        let s ← Logged.get
        writePhysicalDword ((destination + BitVec.ofNat 32 (i * 4)) ||| endianBits)
          (s.register (firstRegister + i))
  | _ => raise "PM4_REG_TO_MEM requires exactly 2 dwords"

/-- The dword address in `execute_cond_exec`. -/
def decodeDwordAddress (encoded : BitVec 32) : Processing (BitVec 32) := do
  require (encoded.toNat * 4 < 2 ^ 32) "PM4_COND_EXEC address overflow"
  pure (BitVec.ofNat 32 (cpuToGpuAddress (encoded <<< 2)))

/-- `execute_cond_exec`. -/
def executeCondExec (reader : Reader) : List (BitVec 32) → Processing Reader
  | [encoded0, encoded1, reference, count] => do
      let address0 ← decodeDwordAddress encoded0
      let address1 ← decodeDwordAddress encoded1
      let value0 ← readPhysicalDword address0
      let value1 ← readPhysicalDword address1
      Logged.log .test
      if value0 ≠ 0 ∧ value1.toInt < reference.toInt then pure reader
      else reader.skip count.toNat
  | _ => raise "PM4_COND_EXEC requires exactly 4 dwords"

/-- What `execute_cond_write` compares: a dword of memory or a register. -/
def condWriteValue (waitInfo source : BitVec 32) : Processing (BitVec 32) :=
  if waitInfo.getLsbD 4 then readPhysicalDword source
  else do
    require (source.toNat < registerCount) "PM4_COND_WRITE poll register outside register file"
    let s ← Logged.get
    pure (s.register source.toNat)

/-- `execute_cond_write`. -/
def executeCondWrite : List (BitVec 32) → Processing Unit
  | [waitInfo, source, reference, mask, target, data] => do
      let value ← condWriteValue waitInfo source
      Logged.log .test
      if waitConditionMatches waitInfo value reference mask then
        if waitInfo.getLsbD 8 then writePhysicalDword target data
        else emitRegisterWrite target.toNat data
      else pure ()
  | _ => raise "PM4_COND_WRITE requires exactly 6 dwords"

/-! ### Waits -/

/-- How a wait ends that is not satisfied: the drain of a ring is suspended, another
submission fails after its last poll. -/
structure WaitLimit where
  stalls : Bool
  polls : ℕ
deriving DecidableEq, Repr

/-- `kStallableWaitPollIterations`, while `execute_ring` runs. -/
def WaitLimit.ring : WaitLimit := ⟨true, 256⟩

/-- `kMaximumWaitPollIterations`, in `execute_buffer`. -/
def WaitLimit.buffer : WaitLimit := ⟨false, 2 ^ 20⟩

/-- The polls of a wait, each with a value of its own. -/
def pollUntil (satisfied : BitVec 32 → Bool) (polls : ℕ → BitVec 32) :
    ℕ → ℕ → Processing Bool
  | 0, _ => pure false
  | left + 1, poll => do
      Logged.log .test
      if satisfied (polls poll) then pure true else pollUntil satisfied polls left (poll + 1)

/-- A wait, once what it polls is known to be there; `false` is `WaitStalled`. -/
def waitFor (limit : WaitLimit) (polls : ℕ → BitVec 32) (satisfied : BitVec 32 → Bool)
    (what : String) : Processing Bool := do
  let done ← pollUntil satisfied polls limit.polls 0
  if done then pure true
  else if limit.stalls then pure false
  else raise what

/-- `execute_wait_reg_mem`; `false` is `WaitStalled`. -/
def executeWaitRegMem (limit : WaitLimit) (polls : ℕ → BitVec 32) :
    List (BitVec 32) → Processing Bool
  | [waitInfo, source, reference, mask, _] => do
      let memorySource := waitInfo.getLsbD 4
      require (memorySource = true ∨ source.toNat < registerCount)
        "PM4_WAIT_REG_MEM poll register outside register file"
      beforeGuestVisibleEffect
      if memorySource = false ∧ source.toNat = coherStatusHostRegister then
        let s ← Logged.get
        Logged.onlyIf (s.register coherStatusHostRegister &&& coherStatusPending ≠ 0)
          (Logged.modify (·.setRegister coherStatusHostRegister 0))
        pure true
      else
        require (memorySource = false ∨ gpuDwordAddress source + 4 ≤ physicalMemorySize)
          "Xenos physical read outside RAM"
        waitFor limit polls (waitConditionMatches waitInfo · reference mask)
          "PM4_WAIT_REG_MEM exceeded host safety poll limit"
  | _ => raise "PM4_WAIT_REG_MEM requires exactly 5 dwords"

/-- `execute_wait_register`; `false` is `WaitStalled`. -/
def executeWaitRegister (limit : WaitLimit) (polls : ℕ → BitVec 32) (greaterOrEqual : Bool) :
    List (BitVec 32) → Processing Bool
  | [registerIndex, reference, mask, _] => do
      beforeGuestVisibleEffect
      require (registerIndex.toNat < registerCount)
        "PM4 compact wait register outside register file"
      waitFor limit polls
        (fun value =>
          if greaterOrEqual then reference ≤ value &&& mask else value &&& mask = reference)
        "PM4_WAIT_REG_EQ/GTE exceeded host safety poll limit"
  | _ => raise "PM4_WAIT_REG_EQ/GTE requires exactly 4 dwords"

/-! ### Shaders -/

/-- The selector of a constant load, then the words from memory: `execute_load_alu_constant`
and the branch for `PM4_LOAD_CONSTANT_CONTEXT`. -/
def loadConstants (addressWord selector sizeWord : BitVec 32) (what : String) : Processing Unit := do
  let address := cpuToGpuAddress (addressWord &&& 0x3FFFFFFF)
  let index ← constantRegister selector
  let size := (sizeWord &&& 0xFFF).toNat
  require (address + size * 4 ≤ physicalMemorySize) what
  let s ← Logged.get
  emitRegisterWrites index (loadDwords s.memory address size)

/-- `execute_load_alu_constant`. -/
def executeLoadAluConstant : List (BitVec 32) → Processing Unit
  | [address, selector, size] =>
      loadConstants address selector size "PM4_LOAD_ALU_CONSTANT outside physical RAM"
  | _ => raise "PM4_LOAD_ALU_CONSTANT requires exactly 3 dwords"

/-- `PM4_LOAD_CONSTANT_CONTEXT`. -/
def executeLoadConstantContext : List (BitVec 32) → Processing Unit
  | address :: selector :: size :: _ =>
      loadConstants address selector size "PM4_LOAD_CONSTANT_CONTEXT outside physical RAM"
  | _ => raise "PM4_LOAD_CONSTANT_CONTEXT requires 3 dwords"

/-- `execute_set_shader_bases`. -/
def executeSetShaderBases : List (BitVec 32) → Processing Unit
  | [_] => pure ()
  | _ => raise "PM4_SET_SHADER_BASES requires exactly 1 dword"

/-- The stage that two bits name. -/
def stageOf (bits : ℕ) : Option ShaderStage :=
  match bits with
  | 0 => some .vertex
  | 1 => some .pixel
  | _ => none

/-- The program of a stage. -/
def Processor.activeProgram (s : Processor) : ShaderStage → Option ShaderProgram
  | .vertex => s.activeVertexProgram
  | .pixel => s.activePixelProgram

/-- A program becomes the active one of its stage. -/
def Processor.activate (s : Processor) (program : ShaderProgram) : Processor :=
  match program.stage with
  | .vertex =>
      { s with
        activeVertexShader := ⟨true, program.hash, program.startSlot⟩
        activeVertexProgram := some program }
  | .pixel =>
      { s with
        activePixelShader := ⟨true, program.hash, program.startSlot⟩
        activePixelProgram := some program }

/-- `execute_im_store`: whether the packet was executed. -/
def executeImStore : List (BitVec 32) → Processing Bool
  | [target, metadata] =>
      match stageOf (target &&& 3).toNat with
      | none => pure false
      | some stage => do
          let s ← Logged.get
          match s.activeProgram stage with
          | none => raise "PM4_IM_STORE has no active shader program"
          | some program =>
              require (program.startSlot ≤ 0xFFFF ∧ program.dwords.length ≤ 0xFFFF)
                "PM4_IM_STORE shader metadata overflow"
              let destination := cpuToGpuAddress (target &&& ~~~3)
              require (destination + program.dwords.length * 4 ≤ physicalMemorySize)
                "PM4_IM_STORE destination outside physical RAM"
              beforeGuestVisibleEffect
              Logged.each program.dwords.zipIdx fun (dword, i) =>
                writePhysical (destination + i * 4) (encodeBe32 dword)
                  "PM4_IM_STORE write span overflow"
              let startSize := BitVec.ofNat 32 (program.startSlot * 65536 + program.dwords.length)
              writePhysical (cpuToGpuAddress metadata) (encodeBe32 startSize)
                "PM4_IM_STORE metadata write failed"
              pure true
  | _ => raise "PM4_IM_STORE requires exactly 2 dwords"

/-- `execute_invalidate_state`. -/
def executeInvalidateState : List (BitVec 32) → Processing Unit
  | [mask] => do
      Logged.onlyIf (mask.getLsbD 8 = true)
        (Logged.modify fun s =>
          { s with activeVertexShader := .none, activeVertexProgram := none })
      Logged.onlyIf (mask.getLsbD 9 = true)
        (Logged.modify fun s =>
          { s with activePixelShader := .none, activePixelProgram := none })
  | _ => raise "PM4_INVALIDATE_STATE requires exactly 1 dword"

/-- `PM4_IM_LOAD`. -/
def executeImLoad (payload : List (BitVec 32)) : Processing Unit :=
  match payload with
  | source :: startSize :: _ =>
      match stageOf (source &&& 3).toNat with
      | none => raise "invalid Xenos shader stage"
      | some stage => do
          let address := cpuToGpuAddress (source &&& ~~~3)
          let size := (startSize &&& 0xFFFF).toNat
          require (address + size * 4 ≤ physicalMemorySize)
            "PM4_IM_LOAD shader outside physical RAM"
          let s ← Logged.get
          let program : ShaderProgram :=
            ⟨stage, loadDwords s.memory address size, (startSize >>> 16).toNat⟩
          Logged.modify (·.activate program)
          emit (.shaderLoad .imLoad false address program payload)
  | _ => raise "PM4_IM_LOAD requires address/type and start/size"

/-- `PM4_IM_LOAD_IMMEDIATE`. -/
def executeImLoadImmediate (payload : List (BitVec 32)) : Processing Unit :=
  match payload with
  | stageWord :: startSize :: microcode =>
      match stageOf (stageWord &&& 3).toNat with
      | none => raise "invalid Xenos shader stage"
      | some stage => do
          let size := (startSize &&& 0xFFFF).toNat
          require (size ≤ microcode.length) "truncated PM4_IM_LOAD_IMMEDIATE microcode"
          let program : ShaderProgram := ⟨stage, microcode.take size, (startSize >>> 16).toNat⟩
          Logged.modify (·.activate program)
          emit (.shaderLoad .imLoadImmediate true 0 program payload)
  | _ => raise "PM4_IM_LOAD_IMMEDIATE requires stage and start/size"

/-! ### Events -/

/-- `execute_event_write`. -/
def executeEventWrite : List (BitVec 32) → Processing Unit
  | initiator :: _ => emitRegisterWrite vgtEventInitiator (initiator &&& 0x3F)
  | [] => raise "PM4_EVENT_WRITE missing initiator"

/-- `execute_event_write_shader_done`. -/
def executeEventWriteShaderDone : List (BitVec 32) → Processing Unit
  | [initiator, target, literal] => do
      emitRegisterWrite vgtEventInitiator (initiator &&& 0x3F)
      let s ← Logged.get
      let value := if initiator.getLsbD 31 then s.swapCounter else literal
      Logged.onlyIf (target &&& ~~~3 ≠ 0) (writePhysicalDword target value)
  | _ => raise "PM4_EVENT_WRITE_SHD requires initiator, address and value"

/-- `extents`: the complete range, in the order and units of the packet. -/
def writeExtents : List (BitVec 16) :=
  [0, 8192 >>> 3, 0, 8192 >>> 3, 0, 1]

/-- `execute_event_write_extent`. -/
def executeEventWriteExtent : List (BitVec 32) → Processing Unit
  | [initiator, target] => do
      emitRegisterWrite vgtEventInitiator (initiator &&& 0x3F)
      require (Endian.ofWord target = .swap8In16)
        "PM4_EVENT_WRITE_EXT requires Xenos 8-in-16 destination endian"
      let address := gpuDwordAddress target
      require (address + 12 ≤ physicalMemorySize)
        "PM4_EVENT_WRITE_EXT destination outside RAM"
      beforeGuestVisibleEffect
      writePhysical address (writeExtents.flatMap encodeBe16) "PM4_EVENT_WRITE_EXT write failed"
  | _ => raise "PM4_EVENT_WRITE_EXT requires initiator and address"

/-- `execute_viz_query`. -/
def executeVizQuery : List (BitVec 32) → Processing Unit
  | [word] => do
      let id := (word &&& 0x3F).toNat
      let bit := 1#64 <<< id
      let statusRegister := if id < 32 then paScVizQueryStatus0 else paScVizQueryStatus1
      let statusBit := 1#32 <<< (id % 32)
      if word.getLsbD 8 = false then
        Logged.modify fun s =>
          { s with
            activeVizQueries := s.activeVizQueries ||| bit
            vizQueryDraws := s.vizQueryDraws &&& ~~~bit }
        let s ← Logged.get
        emitRegisterWrite statusRegister (s.register statusRegister &&& ~~~statusBit)
        emitRegisterWrite vgtEventInitiator 7
      else
        Logged.modify fun s => { s with activeVizQueries := s.activeVizQueries &&& ~~~bit }
        emitRegisterWrite vgtEventInitiator 8
        let s ← Logged.get
        Logged.onlyIf (s.vizQueryDraws &&& bit ≠ 0)
          (emitRegisterWrite statusRegister (s.register statusRegister ||| statusBit))
        Logged.modify fun s => { s with vizQueryDraws := s.vizQueryDraws &&& ~~~bit }
  | _ => raise "PM4_VIZ_QUERY requires exactly 1 dword"

/-- `execute_interrupt`. -/
def executeInterrupt : List (BitVec 32) → Processing Unit
  | [mask] => do
      let s ← Logged.get
      Logged.onlyIf (s.interruptCallback = true) do
        beforeGuestVisibleEffect
        Logged.each (List.range 6) fun cpu =>
          Logged.onlyIf (mask.getLsbD cpu = true) (Logged.log (.interrupt cpu))
  | _ => raise "PM4_INTERRUPT requires exactly 1 dword"

/-- `execute_mem_write`. -/
def executeMemWrite : List (BitVec 32) → Processing Unit
  | [] => raise "PM4_MEM_WRITE missing address"
  | [_] => pure ()
  | addressWithEndian :: values => do
      let endian := Endian.ofWord addressWithEndian
      let base := gpuDwordAddress addressWithEndian
      require (base + values.length * 4 ≤ physicalMemorySize) "Xenos physical write outside RAM"
      beforeGuestVisibleEffect
      Logged.each values.zipIdx fun (value, i) => do
        writePhysical (base + i * 4) (encodeLe32 (gpuSwap value endian))
          "Xenos physical write span overflow"
        emit (.physicalMemoryWrite (base + i * 4) value endian)

/-! ### Draws -/

/-- The source of the indices of a draw. -/
def drawSourceOf (bits : ℕ) : DrawSource :=
  match bits with
  | 0 => .dma
  | 1 => .immediate
  | 2 => .autoIndex
  | _ => .reserved

/-- The index data behind the draw initiator: the buffer, and the immediate dwords. -/
def drawIndices (source : DrawSource) (format : IndexFormat) (indexCount : ℕ)
    (tail : List (BitVec 32)) : Processing (Option IndexBufferReference × List (BitVec 32)) :=
  match source with
  | .dma =>
      match tail with
      | rawBase :: dmaSize :: _ => do
          emitRegisterWrite vgtDmaBase rawBase
          emitRegisterWrite vgtDmaSize dmaSize
          let gpuAddress := cpuToGpuAddress rawBase
          let address := gpuAddress - gpuAddress % format.sizeBytes
          let length := (dmaSize &&& 0x00FFFFFF).toNat * format.sizeBytes
          require (address + length ≤ physicalMemorySize)
            "Xenos index buffer outside physical RAM"
          pure (some ⟨address, length, indexCount, format, .ofWord (dmaSize >>> 30)⟩, [])
      | _ => raise "Xenos DMA draw missing VGT_DMA_BASE/VGT_DMA_SIZE"
  | .immediate => pure (none, tail)
  | .autoIndex | .reserved => pure (none, [])

/-- The bin fields of a binned draw, and what follows them. -/
def drawBinning (binned : Bool) (tail : List (BitVec 32)) :
    Processing (Option BinningReference × List (BitVec 32)) :=
  if binned then
    match tail with
    | base :: size :: rest => do
        let s ← Logged.get
        pure (some ⟨base, size, s.binBaseOffset, base + s.binBaseOffset, s.binMask, s.binSelect⟩,
          rest)
    | _ => raise "Xenos binned draw missing BIN_BASE/BIN_SIZE"
  else pure (none, tail)

/-- `execute_draw`. -/
def executeDraw (opcode : Type3Opcode) (predicate : Bool) (payload : List (BitVec 32)) :
    Processing Unit := do
  let hasVizToken := opcode = .drawIndx ∨ opcode = .drawIndxBin
  let binned := opcode = .drawIndxBin ∨ opcode = .drawIndx2Bin
  match payload.drop (if hasVizToken then 1 else 0) with
  | [] => raise "Xenos draw packet missing VGT_DRAW_INITIATOR"
  | initiator :: tail =>
      emitRegisterWrite vgtDrawInitiator initiator
      let primitive := (initiator &&& 0x3F).toNat
      let source := drawSourceOf ((initiator >>> 6) &&& 3).toNat
      let majorMode := ((initiator >>> 8) &&& 3).toNat
      let format : IndexFormat := if initiator.getLsbD 11 then .uint32 else .uint16
      let indexCount := (initiator >>> 16).toNat
      let entry ← Logged.get
      let (binning, tail) ← drawBinning binned tail
      let (indexBuffer, immediate) ← drawIndices source format indexCount tail
      Logged.modify fun s => { s with vizQueryDraws := s.vizQueryDraws ||| s.activeVizQueries }
      let s ← Logged.get
      emit (.draw {
        opcode, predicate
        registerGeneration := s.generation
        primitiveType := primitive
        source, majorMode
        explicitMajorMode := majorMode ≠ 0 ∨ primitive ≥ 0x10
        indexFormat := format
        notEop := initiator.getLsbD 12
        binned, indexCount
        vizQueryCondition := if hasVizToken then payload.headD 0 else 0
        indexBuffer, binning
        vertexShader := entry.activeVertexShader
        pixelShader := entry.activePixelShader
        immediateIndexDwords := immediate
        rawPayload := payload })
      Logged.modify fun s => { s with draws := s.draws + 1 }

/-! ### Packets -/

/-- `predicate_passes`. -/
def Processor.predicatePasses (s : Processor) : Bool :=
  s.binSelect &&& s.binMask ≠ 0

/-- A 64-bit value from one or two dwords. -/
def wideValue : List (BitVec 32) → BitVec 64
  | [] => 0
  | [low] => low.setWidth 64
  | low :: high :: _ => low.setWidth 64 ||| (high.setWidth 64 <<< 32)

/-- `PM4_SET_BIN_MASK`, `PM4_SET_BIN_SELECT` and their halves. -/
def executeSetBin (opcode : Type3Opcode) (payload : List (BitVec 32)) : Processing Unit :=
  match payload with
  | [] =>
      raise
        (if opcode = .setBinMask ∨ opcode = .setBinSelect then
          "64-bit Xenos bin state packet missing value"
        else "Xenos bin state half-write missing value")
  | half :: _ =>
      Logged.modify fun s =>
        let low : BitVec 64 := 0x00000000FFFFFFFF
        let high : BitVec 64 := 0xFFFFFFFF00000000
        match opcode with
        | .setBinMask => { s with binMask := wideValue payload }
        | .setBinSelect => { s with binSelect := wideValue payload }
        | .setBinMaskLow => { s with binMask := (s.binMask &&& high) ||| half.setWidth 64 }
        | .setBinMaskHigh =>
            { s with binMask := (s.binMask &&& low) ||| (half.setWidth 64 <<< 32) }
        | .setBinSelectLow => { s with binSelect := (s.binSelect &&& high) ||| half.setWidth 64 }
        | .setBinSelectHigh =>
            { s with binSelect := (s.binSelect &&& low) ||| (half.setWidth 64 <<< 32) }
        | _ => s

/-- The packets of `execute_type3` that neither move the reader, nor wait, nor enter a
buffer. -/
def executeSimple (opcode : Type3Opcode) (predicate : Bool) (payload : List (BitVec 32)) :
    Processing Unit := do
  match opcode with
  | .nop => emit (.type3Packet opcode predicate payload)
  | .memWrite => executeMemWrite payload
  | .regRmw =>
      executeRegRmw payload
      emit (.statePacket opcode payload)
  | .regToMem => executeRegToMem payload
  | .condWrite =>
      executeCondWrite payload
      emit (.statePacket opcode payload)
  | .setConstant =>
      match payload with
      | [] => raise "PM4_SET_CONSTANT missing selector"
      | selector :: values =>
          let index ← constantRegister selector
          emitRegisterWrites index values
          emit (.statePacket opcode payload)
  | .setConstant2 | .setShaderConstants =>
      match payload with
      | [] => raise "constant packet missing selector"
      | selector :: values =>
          emitRegisterWrites (selector &&& 0xFFFF).toNat values
          if opcode = .setShaderConstants then emit (.shaderPacket opcode payload)
          else emit (.statePacket opcode payload)
  | .setShaderBases =>
      executeSetShaderBases payload
      emit (.shaderPacket opcode payload)
  | .invalidateState =>
      executeInvalidateState payload
      emit (.statePacket opcode payload)
  | .imStore =>
      let executed ← executeImStore payload
      if executed then emit (.shaderPacket opcode payload)
      else emit (.type3Packet opcode predicate payload)
  | .imLoad => executeImLoad payload
  | .imLoadImmediate => executeImLoadImmediate payload
  | .loadConstantContext =>
      executeLoadConstantContext payload
      emit (.statePacket opcode payload)
  | .loadAluConstant =>
      executeLoadAluConstant payload
      emit (.statePacket opcode payload)
  | .vizQuery =>
      executeVizQuery payload
      emit (.eventPacket opcode payload)
  | .eventWrite =>
      executeEventWrite payload
      emit (.eventPacket opcode payload)
  | .eventWriteShaderDone =>
      executeEventWriteShaderDone payload
      emit (.eventPacket opcode payload)
  | .eventWriteExtent =>
      executeEventWriteExtent payload
      emit (.eventPacket opcode payload)
  | .interrupt =>
      executeInterrupt payload
      emit (.eventPacket opcode payload)
  | .setBinBaseOffset =>
      match payload with
      | [] => raise "PM4_SET_BIN_BASE_OFFSET missing value"
      | value :: _ =>
          Logged.modify fun s => { s with binBaseOffset := value }
          emit (.statePacket opcode payload)
  | .setBinMask | .setBinSelect | .setBinMaskLow | .setBinMaskHigh | .setBinSelectLow
  | .setBinSelectHigh =>
      executeSetBin opcode payload
      emit (.statePacket opcode payload)
  | .drawIndx | .drawIndx2 | .drawIndxBin | .drawIndx2Bin => executeDraw opcode predicate payload
  | _ => emit (.type3Packet opcode predicate payload)

/-- What a packet leaves to do: an indirect buffer to enter. -/
structure BufferCall where
  address : BitVec 32
  length : ℕ
  prefetch : Bool
deriving DecidableEq, Repr

/-- How a packet ends: the reader stands behind it, perhaps with a buffer to enter first, or
a wait stalls. -/
inductive PacketResult where
  | next (reader : Reader)
  | enter (reader : Reader) (call : BufferCall)
  | stalled
deriving DecidableEq, Repr

/-- The indirect buffer that a packet names. -/
def indirectBufferOf (prefetch : Bool) : List (BitVec 32) → Processing BufferCall
  | target :: lengthWord :: _ =>
      pure ⟨gpuAddress target, (lengthWord &&& 0xFFFFF).toNat, prefetch⟩
  | _ => raise "PM4_INDIRECT_BUFFER requires address and length"

/-- The end of a wait packet. -/
def finishWait (opcode : Type3Opcode) (payload : List (BitVec 32)) (reader : Reader)
    (satisfied : Bool) : Processing PacketResult :=
  if satisfied then do
    emit (.synchronizationPacket opcode payload)
    pure (.next reader)
  else pure .stalled

/-- `execute_type3` of a packet that is not suppressed. -/
def executeSemantic (limit : WaitLimit) (polls : ℕ → BitVec 32) (opcode : Type3Opcode)
    (predicate : Bool) (payload : List (BitVec 32)) (reader : Reader) :
    Processing PacketResult := do
  match opcode with
  | .indirectBuffer | .indirectBufferPfd =>
      let call ← indirectBufferOf (opcode = .indirectBufferPfd) payload
      pure (.enter reader call)
  | .condExec =>
      let reader ← executeCondExec reader payload
      emit (.statePacket opcode payload)
      pure (.next reader)
  | .waitRegMem =>
      let satisfied ← executeWaitRegMem limit polls payload
      finishWait opcode payload reader satisfied
  | .waitRegEq | .waitRegGte =>
      let satisfied ← executeWaitRegister limit polls (opcode = .waitRegGte) payload
      finishWait opcode payload reader satisfied
  | _ =>
      executeSimple opcode predicate payload
      pure (.next reader)

/-- `execute_type3` behind the payload: a failed predicate suppresses the packet. -/
def executePayload (limit : WaitLimit) (polls : ℕ → BitVec 32) (opcode : Type3Opcode)
    (predicate : Bool) (payload : List (BitVec 32)) (reader : Reader) :
    Processing PacketResult := do
  let s ← Logged.get
  if predicate ∧ s.predicatePasses = false then pure (.next reader)
  else
    Logged.log (.start opcode)
    executeSemantic limit polls opcode predicate payload reader

/-- `execute_type3`. -/
def executeType3 (limit : WaitLimit) (polls : ℕ → BitVec 32) (count : ℕ) (opcode : Type3Opcode)
    (predicate : Bool) (reader : Reader) : Processing PacketResult := do
  let (payload, reader) ← reader.readPayload count
  executePayload limit polls opcode predicate payload reader

/-- The loop of `execute_type0`: `left` dwords from number `i` on. -/
def executeType0 (registerIndex : ℕ) (writeOneRegister : Bool) :
    ℕ → ℕ → Reader → Processing Reader
  | 0, _, reader => pure reader
  | left + 1, i, reader => do
      let index := if writeOneRegister then registerIndex else registerIndex + i
      let (value, reader) ← reader.read
      emitRegisterWrite index value
      executeType0 registerIndex writeOneRegister left (i + 1) reader

/-- `execute_type1`. -/
def executeType1 (registerIndex1 registerIndex2 : ℕ) (reader : Reader) : Processing Reader := do
  let (value1, reader) ← reader.read
  emitRegisterWrite registerIndex1 value1
  let (value2, reader) ← reader.read
  emitRegisterWrite registerIndex2 value2
  pure reader

/-- `execute_packet` behind the header, up to the buffer that it enters. -/
def executeBody (limit : WaitLimit) (polls : ℕ → BitVec 32) (header : PacketHeader)
    (reader : Reader) : Processing PacketResult :=
  match header with
  | .type0 count registerIndex writeOneRegister => do
      let reader ← executeType0 registerIndex writeOneRegister count 0 reader
      pure (.next reader)
  | .type1 registerIndex1 registerIndex2 => do
      let reader ← executeType1 registerIndex1 registerIndex2 reader
      pure (.next reader)
  | .type2 => pure (.next reader)
  | .type3 count opcode predicate => executeType3 limit polls count opcode predicate reader

/-- `execute_packet`, up to the buffer that it enters. -/
def executePacket (limit : WaitLimit) (polls : ℕ → BitVec 32) (reader : Reader) :
    Processing PacketResult := do
  let (word, reader) ← reader.read
  executeBody limit polls (decodePacketHeader word) reader

end Gpu
end XenonRecomp
