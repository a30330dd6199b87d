/-
# Buffers and the ring

`execute_buffer_internal`, `execute_ring` and the drains of `GraphicsSystem` over
the packets of `Gpu.CommandProcessor`.  A wait that is not satisfied unwinds out
of all buffers; each leaves a frame with the position of its packet, and the next
drain of the ring goes back to the wait through these frames.

The frames are pushed on the front of a list here, so that the outermost buffer,
which unwinds last, comes first.
-/

import XenonRecomp.Gpu.CommandProcessor

namespace XenonRecomp
namespace Gpu

open Library

/-- `WaitStalled`, or an exception with its text. -/
inductive Fault where
  | waitStalled
  | error (what : String)
deriving DecidableEq, Repr

/-- `ResumeFrame`. -/
structure ResumeFrame where
  address : BitVec 32
  length : ℕ
  offset : ℕ
deriving DecidableEq, Repr

/-- The command processor with the state of its drains. -/
structure Machine where
  processor : Processor
  submissionDwords : ℕ
  stallFrames : List ResumeFrame
  resumeFrames : List ResumeFrame
  resumeRingIndex : ℕ
  resumeCursor : ℕ
  resumePending : Bool
  resuming : Bool
  /-- The packets executed so far, by which the values of polls are numbered. -/
  packets : ℕ

/-- Programs of the drains. -/
abbrev Driving (α : Type) : Type := Logged Machine Fault Effect α

/-- `kMaximumDwordsPerSubmission`. -/
abbrev maximumDwordsPerSubmission : ℕ := 16 * 1024 * 1024

/-- `kMaximumIndirectDepth`, and the level of the submission itself. -/
abbrev bufferLevels : ℕ := 33

/-- One packet, with the values that its polls read. -/
def packetStep (limit : WaitLimit) (polls : ℕ → ℕ → BitVec 32) (reader : Reader) :
    Driving PacketResult := fun s =>
  let (result, processor, log) := executePacket limit (polls s.packets) reader s.processor
  (result.mapError .error, { s with processor, packets := s.packets + 1 }, log)

/-- Enters an indirect buffer that no frame leads into. -/
def announceBuffer (execute : BitVec 32 → ℕ → ℕ → Driving Unit) (call : BufferCall) :
    Driving Unit := do
  Logged.log (.emit (.indirectBuffer call.address call.length call.prefetch))
  if call.length = 0 then pure () else execute call.address call.length 0

/-- The branch of `execute_type3` for indirect buffers. -/
def enterBuffer (execute : BitVec 32 → ℕ → ℕ → Driving Unit) (call : BufferCall) :
    Driving Unit := do
  let s ← Logged.get
  if s.resuming then
    match s.resumeFrames[s.resumeCursor]? with
    | some frame =>
        if frame.address = call.address ∧ frame.length = call.length then
          Logged.modify fun s =>
            { s with
              resumeCursor := s.resumeCursor + 1
              resuming := s.resumeCursor + 1 ≠ s.resumeFrames.length }
          if call.length = 0 then pure () else execute call.address call.length frame.offset
        else
          Logged.modify fun s => { s with resuming := false }
          announceBuffer execute call
    | none =>
        Logged.modify fun s => { s with resuming := false }
        announceBuffer execute call
  else announceBuffer execute call

/-- `execute_packet`. -/
def drivePacket (limit : WaitLimit) (polls : ℕ → ℕ → BitVec 32)
    (execute : BitVec 32 → ℕ → ℕ → Driving Unit) (reader : Reader) : Driving Reader := do
  let result ← packetStep limit polls reader
  match result with
  | .next reader => pure reader
  | .enter reader call =>
      enterBuffer execute call
      pure reader
  | .stalled => Logged.fail .waitStalled

/-- `catch (const WaitStalled&)`, and `throw` again. -/
def onStall {α : Type} (m : Driving α) (f : Machine → Machine) : Driving α := fun s =>
  match m s with
  | (.error .waitStalled, s', log) => (.error .waitStalled, f s', log)
  | result => result

/-- The loop of `execute_buffer_internal`; the fuel is the number of dwords left. -/
def executePackets (limit : WaitLimit) (polls : ℕ → ℕ → BitVec 32)
    (execute : BitVec 32 → ℕ → ℕ → Driving Unit) (frame : ℕ → ResumeFrame) :
    ℕ → Reader → Driving Unit
  | 0, _ => pure ()
  | fuel + 1, reader =>
      if reader.remaining = 0 then pure ()
      else do
        let next ← onStall (drivePacket limit polls execute reader) fun s =>
          { s with stallFrames := frame reader.index :: s.stallFrames }
        executePackets limit polls execute frame fuel next

/-- `execute_buffer_internal`; the first argument counts the levels that are left. -/
def executeBufferInternal (limit : WaitLimit) (polls : ℕ → ℕ → BitVec 32) :
    ℕ → BitVec 32 → ℕ → ℕ → Driving Unit
  | 0, _, _, _ => Logged.fail (.error "Xenos indirect-buffer recursion limit exceeded")
  | levels + 1, address, count, offset => do
      let s ← Logged.get
      if s.submissionDwords + count > maximumDwordsPerSubmission then
        Logged.fail (.error "Xenos command submission exceeds safety limit")
      else
        Logged.modify fun s => { s with submissionDwords := s.submissionDwords + count }
        let start := min offset count
        match Reader.make address count start (count - start) with
        | .error what => Logged.fail (.error what)
        | .ok reader =>
            executePackets limit polls (executeBufferInternal limit polls levels)
              (fun index => ⟨address, count, index⟩) (count - start) reader

/-- A drain that is over, or stops before an incomplete packet. -/
def Machine.settled (s : Machine) : Machine :=
  { s with resumePending := false, resumeFrames := [], resuming := false }

/-- A drain that is suspended at a wait in the packet that starts here. -/
def Machine.parked (s : Machine) (packetStart : ℕ) : Machine :=
  { s with
    resumeFrames := s.stallFrames
    stallFrames := []
    resumeRingIndex := packetStart
    resumePending := true
    resuming := false }

/-- `Reader::peek`. -/
def Reader.peek (reader : Reader) : Driving (BitVec 32) := fun s =>
  if reader.remaining = 0 then (.error (.error "truncated GPU command packet"), s, [])
  else
    let address := reader.base + reader.index * 4
    if address + 4 > physicalMemorySize then
      (.error (.error "GPU command read from invalid physical RAM"), s, [])
    else (.ok (loadBe32 s.processor.memory address), s, [.fetch address])

/-- A packet of the ring: the reader behind it, or `none` where the wait in it suspends the
drain. -/
def ringPacket (polls : ℕ → ℕ → BitVec 32) (reader : Reader) : Driving (Option Reader) := fun s =>
  match drivePacket .ring polls (executeBufferInternal .ring polls (bufferLevels - 1)) reader s with
  | (.ok next, s', log) => (.ok (some next), s', log)
  | (.error .waitStalled, s', log) => (.ok none, s'.parked reader.index, log)
  | (.error fault, s', log) => (.error fault, s', log)

/-- The loop of `execute_ring`; the fuel is the number of dwords left. -/
def drainRing (polls : ℕ → ℕ → BitVec 32) : ℕ → Reader → Driving ℕ
  | 0, reader => do
      Logged.modify Machine.settled
      pure reader.index
  | fuel + 1, reader =>
      if reader.remaining = 0 then do
        Logged.modify Machine.settled
        pure reader.index
      else do
        let word ← reader.peek
        if reader.remaining < 1 + (decodePacketHeader word).count then
          Logged.modify Machine.settled
          pure reader.index
        else
          let next ← ringPacket polls reader
          match next with
          | none => pure reader.index
          | some next => drainRing polls fuel next

/-- The dwords between the indices of a ring. -/
def ringAvailable (capacity readIndex writeIndex : ℕ) : ℕ :=
  if writeIndex ≥ readIndex then writeIndex - readIndex else capacity - readIndex + writeIndex

/-- What `execute_ring` does before its loop: a suspended wait is resumed only by a drain
that starts at its packet. -/
def Machine.beginRing (s : Machine) (readIndex : ℕ) : Machine :=
  let resuming : Bool := s.resumePending && s.resumeRingIndex == readIndex
  { s with
    submissionDwords := 0
    stallFrames := []
    resuming
    resumeCursor := 0
    resumePending := s.resumePending && resuming
    resumeFrames := if resuming then s.resumeFrames else [] }

/-- `execute_ring`. -/
def executeRing (polls : ℕ → ℕ → BitVec 32) (address : BitVec 32)
    (capacity readIndex writeIndex : ℕ) : Driving ℕ :=
  if capacity = 0 then Logged.fail (.error "zero-sized GPU ring")
  else do
    let readIndex := readIndex % capacity
    let available := ringAvailable capacity readIndex (writeIndex % capacity)
    Logged.modify (·.beginRing readIndex)
    match Reader.make address capacity readIndex available with
    | .error what => Logged.fail (.error what)
    | .ok reader => drainRing polls available reader

/-! ### The graphics system -/

/-- `CommandProcessor::reset`; the callback and guest memory stay. -/
def Processor.reset (s : Processor) : Processor :=
  { s with
    registers := fun _ => 0
    generation := 0
    activeVertexShader := .none
    activePixelShader := .none
    activeVertexProgram := none
    activePixelProgram := none
    binBaseOffset := 0
    binMask := 0
    binSelect := 0
    activeVizQueries := 0
    vizQueryDraws := 0
    swapCounter := 0
    draws := 0 }

/-- `CommandProcessor::reset`, with the state of drains. -/
def Machine.reset (s : Machine) : Machine :=
  { s with
    processor := s.processor.reset
    submissionDwords := 0
    stallFrames := []
    resumeFrames := []
    resumePending := false
    resuming := false }

/-- What the backend has been given, as far as draws go: `draws_at_last_execute_`, the
count of draws, and whether the stream holds a draw. -/
structure Consumption where
  drawsAtLastExecute : ℕ
  draws : ℕ
  unconsumed : Bool
deriving DecidableEq, Repr

namespace Consumption

/-- `execute_ir`. -/
def execute (c : Consumption) : Consumption :=
  { c with drawsAtLastExecute := c.draws, unconsumed := false }

/-- The barrier of `submit_ring`: the stream is executed if the count of draws changed. -/
def atBarrier (c : Consumption) : Consumption :=
  if c.draws ≠ c.drawsAtLastExecute then c.execute else c

/-- What an effect of the command processor changes. -/
def step (c : Consumption) : Effect → Consumption
  | .emit (.draw _) => { c with draws := c.draws + 1, unconsumed := true }
  | .barrier => c.atBarrier
  | _ => c

end Consumption

/-- `GraphicsSystem`. -/
structure GraphicsSystem where
  machine : Machine
  drawsAtLastExecute : ℕ
  unconsumed : Bool

namespace GraphicsSystem

/-- The draws of the system. -/
def consumption (s : GraphicsSystem) : Consumption :=
  ⟨s.drawsAtLastExecute, s.machine.processor.draws, s.unconsumed⟩

/-- `reset`: the count of draws starts again, `draws_at_last_execute_` stays. -/
def reset (s : GraphicsSystem) : GraphicsSystem :=
  { s with machine := s.machine.reset, unconsumed := false }

/-- `submit_ring(Backend&)`. -/
def submitRing (polls : ℕ → ℕ → BitVec 32) (address : BitVec 32)
    (capacity readIndex writeIndex : ℕ) (s : GraphicsSystem) :
    Except Fault ℕ × GraphicsSystem × List Effect :=
  let (result, machine, log) := executeRing polls address capacity readIndex writeIndex s.machine
  let drained := log.foldl Consumption.step s.consumption
  let consumed := match result with
    | .ok _ => drained.execute
    | .error _ => drained
  (result, ⟨machine, consumed.drawsAtLastExecute, consumed.unconsumed⟩, log)

end GraphicsSystem

/-! ### Initial states -/

/-- A processor that was just reset. -/
def Processor.initial (memory : ℕ → BitVec 8) : Processor :=
  ⟨fun _ => 0, 0, memory, .none, .none, none, none, 0, 0, 0, 0, 0, 0, 0, false⟩

/-- A machine that was just reset. -/
def Machine.initial (memory : ℕ → BitVec 8) : Machine :=
  ⟨.initial memory, 0, [], [], 0, 0, false, false, 0⟩

/-- Guest memory with these words, as the CPU stores them, from an address. -/
def memoryWith (address : ℕ) (words : List (BitVec 32)) : ℕ → BitVec 8 :=
  overwrite (fun _ => 0) address (words.flatMap encodeBe32)

end Gpu
end XenonRecomp
