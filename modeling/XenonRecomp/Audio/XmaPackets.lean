/-
# XMA packets and the frames in them

`parse_xma_packet_header` (`src/audio/xma/packet.cpp`) and, from
`src/audio/xma/decode.cpp`, the readers of bits, `gather_frame`,
`next_packet_frame_offset` and the parts of `decode_one` that choose the input, start at a
frame and store where the next one is.  What lies between these parts, the codec and the
output, does not touch the fields that are stored; a pass on which the codec takes the
frame is `InputPass.decoded`.
-/

import XenonRecomp.Audio.XmaContext
import XenonRecomp.Library.BitString

namespace XenonRecomp
namespace Audio

open Library.BitString

/-- The bytes of input. -/
abbrev XmaBytes := List (BitVec 8)

/-- `kXmaPacketBytes`. -/
def kXmaPacketBytes : ℕ := 2048

/-- `kBitsPerPacket`. -/
def kBitsPerPacket : ℕ := kXmaPacketBytes * 8

/-- `kMaxFrameBits`. -/
def kMaxFrameBits : ℕ := 0x7FFF

/-- `XmaPacketHeader`. -/
structure XmaPacketHeader where
  frameCount : BitVec 8
  firstFrameOffsetBits : BitVec 16
  metadata : BitVec 8
  skipCount : BitVec 8
deriving DecidableEq, Repr

/-- `parse_xma_packet_header`. -/
def parseXmaPacketHeader : XmaBytes → XmaPacketHeader
  | b0 :: b1 :: b2 :: b3 :: _ =>
    { frameCount := b0 >>> 2
      firstFrameOffsetBits :=
        ((((b0 &&& 0x3).setWidth 16 <<< 13) ||| (b1.setWidth 16 <<< 5) |||
          (b2 >>> 3).setWidth 16) + 32)
      metadata := b2 &&& 0x7
      skipCount := b3 }
  | _ => ⟨0, 0, 0, 0⟩

/-- `read_bit`. -/
def readBit (data : XmaBytes) (bitOffset : ℕ) : Option Bool :=
  if data.length * 8 ≤ bitOffset then none else some (bitAt data bitOffset)

/-- `read_bits`. -/
def readBits (data : XmaBytes) (bitOffset count : ℕ) : Option ℕ :=
  if 32 < count ∨ data.length * 8 < bitOffset + count then none
  else (List.range count).foldlM (fun out i =>
    (readBit data (bitOffset + i)).map fun bit => out <<< 1 ||| bit.toNat) 0

/-- `append_bit`. -/
def appendBit (data : XmaBytes) (bitOffset : ℕ) (bit : Bool) : XmaBytes :=
  let byteIndex := bitOffset / 8
  let data := if data.length ≤ byteIndex then
      data ++ List.replicate (byteIndex + 1 - data.length) 0 else data
  orBit data bitOffset bit

/-- `GatheredFrame`. -/
structure GatheredFrame where
  packedBits : XmaBytes
  frameBits : ℕ
  finalPacket : ℕ
  finalSourceBit : ℕ
  followsInPacket : Bool
deriving DecidableEq, Repr

/-- The copying of `take` bits in `gather_frame`. -/
def copyBits (input : XmaBytes) (sourceBit copied : ℕ) : ℕ → XmaBytes → Option XmaBytes
  | 0, packed => some packed
  | take + 1, packed =>
    match readBit input sourceBit with
    | none => none
    | some bit =>
      copyBits input (sourceBit + 1) (copied + 1) take (appendBit packed copied bit)

/-- The header of a packet. -/
def headerAt (input : XmaBytes) (packetIndex : ℕ) : XmaPacketHeader :=
  parseXmaPacketHeader ((input.drop (packetIndex * kXmaPacketBytes)).take kXmaPacketBytes)

/-- The packet that a skip count leads to. -/
def linkedPacket (input : XmaBytes) (packetIndex : ℕ) : ℕ :=
  packetIndex + (headerAt input packetIndex).skipCount.toNat + 1

theorem lt_linkedPacket (input : XmaBytes) (packetIndex : ℕ) :
    packetIndex < linkedPacket input packetIndex := by
  rw [linkedPacket]
  omega

/-- The loop of `gather_frame`: the packed bits, the final packet and the final source bit.
It goes from packet to packet, forward and within the input. -/
def gatherLoop (input : XmaBytes) (frameBits sourceBit copied packetIndex : ℕ)
    (packed : XmaBytes) : Option (XmaBytes × ℕ × ℕ) :=
  if input.length < (packetIndex + 1) * kXmaPacketBytes then none
  else
    let packetStart := packetIndex * kBitsPerPacket
    let packetEnd := packetStart + kBitsPerPacket
    let sourceBit := if sourceBit < packetStart + 32 then packetStart + 32 else sourceBit
    let take := min (frameBits - copied) (packetEnd - sourceBit)
    match copyBits input sourceBit copied take packed with
    | none => none
    | some packed =>
      if copied + take = frameBits then some (packed, packetIndex, sourceBit + take)
      else
        let next := linkedPacket input packetIndex
        if input.length < (next + 1) * kXmaPacketBytes then none
        else gatherLoop input frameBits (next * kBitsPerPacket + 32) (copied + take) next packed
termination_by input.length - packetIndex
decreasing_by
  have hlt := lt_linkedPacket input packetIndex
  simp only [kXmaPacketBytes] at *
  omega

/-- `gather_frame`. -/
def gatherFrame (input : XmaBytes) (startBit : ℕ) : Option GatheredFrame :=
  if input.length < kXmaPacketBytes ∨ input.length * 8 ≤ startBit then none
  else
    match readBits input startBit 15 with
    | none => none
    | some frameBits =>
      if frameBits < 16 ∨ kMaxFrameBits ≤ frameBits then none
      else
        match gatherLoop input frameBits startBit 0 (startBit / kBitsPerPacket)
          (List.replicate ((frameBits + 7) / 8) 0) with
        | none => none
        | some (packed, finalPacket, finalSourceBit) =>
          some { packedBits := packed
                 frameBits := frameBits
                 finalPacket := finalPacket
                 finalSourceBit := finalSourceBit
                 followsInPacket := (readBit packed (frameBits - 1)).getD false }

/-- `next_packet_frame_offset`. -/
def nextPacketFrameOffset (input : XmaBytes) (packetIndex : ℕ) : ℕ :=
  if input.length < (packetIndex + 1) * kXmaPacketBytes then input.length * 8
  else
    let offset := (headerAt input packetIndex).firstFrameOffsetBits.toNat
    if kBitsPerPacket ≤ offset then input.length * 8
    else packetIndex * kBitsPerPacket + offset

/-! ### The input of a pass -/

namespace XmaContextData

/-- The valid bit of a buffer. -/
def bufferValid (d : XmaContextData) (buffer : Bool) : Bool :=
  if buffer then d.inputBuffer1Valid else d.inputBuffer0Valid

/-- The address of a buffer. -/
def bufferPtr (d : XmaContextData) (buffer : Bool) : BitVec 32 :=
  if buffer then d.inputBuffer1Ptr else d.inputBuffer0Ptr

/-- The packets of a buffer. -/
def bufferPackets (d : XmaContextData) (buffer : Bool) : BitVec 16 :=
  if buffer then d.inputBuffer1PacketCount else d.inputBuffer0PacketCount

/-- The context with a buffer used up. -/
def invalidate (d : XmaContextData) (buffer : Bool) : XmaContextData :=
  if buffer then { d with inputBuffer1Valid := false } else { d with inputBuffer0Valid := false }

/-- The context at a place in a buffer. -/
def moveTo (d : XmaContextData) (buffer : Bool) (readOffset : BitVec 32) : XmaContextData :=
  { d with
    currentBuffer := buffer
    inputBufferReadOffset := readOffset }

/-- The context with an error. -/
def withError (d : XmaContextData) (status : BitVec 8) : XmaContextData :=
  { d with
    errorStatus := status
    errorSet := true }

end XmaContextData

/-- What a pass does with its input. -/
inductive InputPass where
  /-- There is no input. -/
  | idle (data : XmaContextData)
  /-- The buffer is used up. -/
  | switched (data : XmaContextData)
  /-- An error. -/
  | failed (data : XmaContextData)
  /-- A frame that the codec took. -/
  | decoded (frame : GatheredFrame) (data : XmaContextData)

/-- Guest memory as `copy_physical_range` reads it. -/
abbrev PhysicalReader := BitVec 32 → ℕ → Option XmaBytes

/-- The packets of a buffer, as they are copied. -/
def readBuffer (copy : PhysicalReader) (data : XmaContextData) (buffer : Bool) :
    Option XmaBytes :=
  copy (data.bufferPtr buffer) ((data.bufferPackets buffer).toNat * kXmaPacketBytes)

/-- The next buffer behind the current one, if it is valid; nothing if it cannot be read. -/
def nextInput (copy : PhysicalReader) (data : XmaContextData) (next : Bool) : Option XmaBytes :=
  if data.bufferValid next ∧ data.bufferPtr next ≠ 0 ∧ data.bufferPackets next ≠ 0 then
    readBuffer copy data next
  else some []

/-- Where `decode_one` goes on after a frame. -/
def nextFrameBit (input : XmaBytes) (frame : GatheredFrame) : ℕ :=
  if frame.followsInPacket ∧ frame.finalSourceBit < (frame.finalPacket + 1) * kBitsPerPacket then
    frame.finalSourceBit
  else nextPacketFrameOffset input (linkedPacket input frame.finalPacket)

/-- The loop of a context: back to its start behind its end. -/
def followLoop (data : XmaContextData) (startBit nextBit : ℕ) : ℕ × XmaContextData :=
  let loopStart := max 32 data.loopStart.toNat
  let loopEnd := max 32 data.loopEnd.toNat
  let isLoopEndFrame := data.loopCount ≠ 0 ∧ loopStart < loopEnd ∧ startBit = loopEnd
  if isLoopEndFrame ∨ data.loopCount ≠ 0 ∧ loopStart < loopEnd ∧ loopEnd < nextBit then
    (loopStart, if data.loopCount ≠ 255 then { data with loopCount := data.loopCount - 1 } else data)
  else (nextBit, data)

/-- What `decode_one` stores of the place of the next frame. -/
def storeNext (data : XmaContextData) (current : Bool) (currentBytes inputBytes nextBit : ℕ) :
    XmaContextData :=
  if inputBytes * 8 ≤ nextBit then
    let data := data.invalidate current
    let data := if currentBytes < inputBytes then data.invalidate !current else data
    data.moveTo (!current) 32
  else if currentBytes * 8 ≤ nextBit then
    (data.invalidate current).moveTo (!current)
      (BitVec.ofNat 32 (nextBit - currentBytes * 8) &&& 0x03FFFFFF)
  else { data with inputBufferReadOffset := BitVec.ofNat 32 nextBit &&& 0x03FFFFFF }

/-- The frame at the start of the input, and what is stored behind it. -/
def decodeInput (data : XmaContextData) (current : Bool) (currentBytes : ℕ) (input : XmaBytes) :
    InputPass :=
  let startBit := max 32 data.inputBufferReadOffset.toNat
  let startBit := if startBit % kBitsPerPacket = 0 then
      nextPacketFrameOffset input (startBit / kBitsPerPacket) else startBit
  if input.length * 8 ≤ startBit then
    .switched ((data.invalidate current).moveTo (!current) 32)
  else
    let data := { data with
      packetMetadata := (headerAt input (startBit / kBitsPerPacket)).metadata }
    match gatherFrame input startBit with
    | none =>
      .failed { data with
        parserErrorStatus := 1
        parserErrorSet := true }
    | some frame =>
      let (nextBit, data) := followLoop data startBit (nextFrameBit input frame)
      .decoded frame (storeNext data current currentBytes input.length nextBit)

/-- `decode_one` from the choice of the buffer to the place of the next frame. -/
def inputPass (copy : PhysicalReader) (data : XmaContextData) : InputPass :=
  if !data.inputBuffer0Valid && !data.inputBuffer1Valid then
    .idle { data with outputBufferValid := false }
  else
    let data := if data.bufferValid data.currentBuffer then data
      else data.moveTo (!data.currentBuffer) 32
    let current := data.currentBuffer
    if !data.bufferValid current then .idle { data with outputBufferValid := false }
    else if data.bufferPtr current = 0 ∨ data.bufferPackets current = 0 then
      .switched ((data.invalidate current).moveTo (!current) 32)
    else
      match readBuffer copy data current with
      | none => .failed (data.withError 1)
      | some currentInput =>
        match nextInput copy data (!current) with
        | none => .failed (data.withError 1)
        | some next => decodeInput data current currentInput.length (currentInput ++ next)

end Audio
end XenonRecomp
