/-
# The hardware context of the XMA engine

`XmaContextData` with its `decode` and `encode` (`src/audio/xma/packet.cpp`), and
`read_context`, `write_context` and `merge_hardware_progress`
(`src/audio/xma/decoder.cpp`), by which a pass of the engine reads the 64 bytes of a
context and writes them back.  Guest memory is a function of the physical address.
Whether an access succeeds (the context is allocated and its memory is mapped at
that moment) is given to it.
-/

import Mathlib.Algebra.Order.Ring.Int

namespace XenonRecomp
namespace Audio

/-- Guest memory, by physical address. -/
abbrev GuestBytes : Type := ℕ → BitVec 8

/-- `load_be32`. -/
def loadBe32 (p : GuestBytes) (at' : ℕ) : BitVec 32 :=
  ((p at').setWidth 32 <<< 24) ||| ((p (at' + 1)).setWidth 32 <<< 16) |||
    ((p (at' + 2)).setWidth 32 <<< 8) ||| (p (at' + 3)).setWidth 32

/-- `store_be32`: the byte at a place of a stored word. -/
def storeBe32 (v : BitVec 32) : ℕ → BitVec 8
  | 0 => (v >>> 24).setWidth 8
  | 1 => (v >>> 16).setWidth 8
  | 2 => (v >>> 8).setWidth 8
  | _ => v.setWidth 8

/-- `kXmaContextBytes`. -/
def kXmaContextBytes : ℕ := 64

/-- `XmaContextData`. -/
structure XmaContextData where
  inputBuffer0PacketCount : BitVec 16
  loopCount : BitVec 8
  inputBuffer0Valid : Bool
  inputBuffer1Valid : Bool
  outputBufferBlockCount : BitVec 8
  outputBufferWriteOffset : BitVec 8
  inputBuffer1PacketCount : BitVec 16
  loopSubframeEnd : BitVec 8
  reservedDword1A : BitVec 8
  loopSubframeSkip : BitVec 8
  subframeDecodeCount : BitVec 8
  outputBufferPadding : BitVec 8
  sampleRate : BitVec 8
  isStereo : Bool
  outputBufferValid : Bool
  inputBufferReadOffset : BitVec 32
  errorStatus : BitVec 8
  errorSet : Bool
  loopStart : BitVec 32
  parserErrorStatus : BitVec 8
  parserErrorSet : Bool
  loopEnd : BitVec 32
  packetMetadata : BitVec 8
  currentBuffer : Bool
  inputBuffer0Ptr : BitVec 32
  inputBuffer1Ptr : BitVec 32
  outputBufferPtr : BitVec 32
  workBufferPtr : BitVec 32
  outputBufferReadOffset : BitVec 8
  stopWhenDone : Bool
  interruptWhenDone : Bool
  /-- The `i`th of the six reserved words. -/
  reserved : ℕ → BitVec 32

namespace XmaContextData

/-- `XmaContextData::decode`, of the bytes from an address on. -/
def decode (bytes : GuestBytes) (base : ℕ) : XmaContextData :=
  let w (i : ℕ) : BitVec 32 := loadBe32 bytes (base + 4 * i)
  { inputBuffer0PacketCount := (w 0 &&& 0xFFF).setWidth 16
    loopCount := ((w 0 >>> 12) &&& 0xFF).setWidth 8
    inputBuffer0Valid := ((w 0 >>> 20) &&& 1) != 0
    inputBuffer1Valid := ((w 0 >>> 21) &&& 1) != 0
    outputBufferBlockCount := ((w 0 >>> 22) &&& 0x1F).setWidth 8
    outputBufferWriteOffset := ((w 0 >>> 27) &&& 0x1F).setWidth 8
    inputBuffer1PacketCount := (w 1 &&& 0xFFF).setWidth 16
    loopSubframeEnd := ((w 1 >>> 12) &&& 0x3).setWidth 8
    reservedDword1A := ((w 1 >>> 14) &&& 0x7).setWidth 8
    loopSubframeSkip := ((w 1 >>> 17) &&& 0x7).setWidth 8
    subframeDecodeCount := ((w 1 >>> 20) &&& 0xF).setWidth 8
    outputBufferPadding := ((w 1 >>> 24) &&& 0x7).setWidth 8
    sampleRate := ((w 1 >>> 27) &&& 0x3).setWidth 8
    isStereo := ((w 1 >>> 29) &&& 1) != 0
    outputBufferValid := ((w 1 >>> 31) &&& 1) != 0
    inputBufferReadOffset := w 2 &&& 0x03FFFFFF
    errorStatus := ((w 2 >>> 26) &&& 0x1F).setWidth 8
    errorSet := ((w 2 >>> 31) &&& 1) != 0
    loopStart := w 3 &&& 0x03FFFFFF
    parserErrorStatus := ((w 3 >>> 26) &&& 0x1F).setWidth 8
    parserErrorSet := ((w 3 >>> 31) &&& 1) != 0
    loopEnd := w 4 &&& 0x03FFFFFF
    packetMetadata := ((w 4 >>> 26) &&& 0x1F).setWidth 8
    currentBuffer := ((w 4 >>> 31) &&& 1) != 0
    inputBuffer0Ptr := w 5
    inputBuffer1Ptr := w 6
    outputBufferPtr := w 7
    workBufferPtr := w 8
    outputBufferReadOffset := (w 9 &&& 0x1F).setWidth 8
    stopWhenDone := ((w 9 >>> 30) &&& 1) != 0
    interruptWhenDone := ((w 9 >>> 31) &&& 1) != 0
    reserved := fun i => w (10 + i) }

/-- A `bool` as a 32-bit number. -/
def flag (b : Bool) : BitVec 32 := if b then 1 else 0

/-- The words that `XmaContextData::encode` makes. -/
def words (d : XmaContextData) : ℕ → BitVec 32
  | 0 =>
    (d.inputBuffer0PacketCount.setWidth 32 &&& 0xFFF) ||| (d.loopCount.setWidth 32 <<< 12) |||
      (flag d.inputBuffer0Valid <<< 20) ||| (flag d.inputBuffer1Valid <<< 21) |||
      ((d.outputBufferBlockCount.setWidth 32 &&& 0x1F) <<< 22) |||
      ((d.outputBufferWriteOffset.setWidth 32 &&& 0x1F) <<< 27)
  | 1 =>
    (d.inputBuffer1PacketCount.setWidth 32 &&& 0xFFF) |||
      ((d.loopSubframeEnd.setWidth 32 &&& 0x3) <<< 12) |||
      ((d.reservedDword1A.setWidth 32 &&& 0x7) <<< 14) |||
      ((d.loopSubframeSkip.setWidth 32 &&& 0x7) <<< 17) |||
      ((d.subframeDecodeCount.setWidth 32 &&& 0xF) <<< 20) |||
      ((d.outputBufferPadding.setWidth 32 &&& 0x7) <<< 24) |||
      ((d.sampleRate.setWidth 32 &&& 0x3) <<< 27) ||| (flag d.isStereo <<< 29) |||
      (flag d.outputBufferValid <<< 31)
  | 2 =>
    (d.inputBufferReadOffset &&& 0x03FFFFFF) |||
      ((d.errorStatus.setWidth 32 &&& 0x1F) <<< 26) ||| (flag d.errorSet <<< 31)
  | 3 =>
    (d.loopStart &&& 0x03FFFFFF) |||
      ((d.parserErrorStatus.setWidth 32 &&& 0x1F) <<< 26) ||| (flag d.parserErrorSet <<< 31)
  | 4 =>
    (d.loopEnd &&& 0x03FFFFFF) |||
      ((d.packetMetadata.setWidth 32 &&& 0x1F) <<< 26) ||| (flag d.currentBuffer <<< 31)
  | 5 => d.inputBuffer0Ptr
  | 6 => d.inputBuffer1Ptr
  | 7 => d.outputBufferPtr
  | 8 => d.workBufferPtr
  | 9 =>
    (d.outputBufferReadOffset.setWidth 32 &&& 0x1F) ||| (flag d.stopWhenDone <<< 30) |||
      (flag d.interruptWhenDone <<< 31)
  | i + 10 => d.reserved i

/-- `XmaContextData::encode`: the byte at a place of the 64. -/
def encode (d : XmaContextData) (place : ℕ) : BitVec 8 :=
  storeBe32 (d.words (place / 4)) (place % 4)

end XmaContextData

/-- Bytes are written at an address. -/
def writeBytes (base size : ℕ) (bytes : ℕ → BitVec 8) (memory : GuestBytes) : GuestBytes :=
  fun address =>
    if base ≤ address ∧ address < base + size then bytes (address - base) else memory address

/-- `read_context`. -/
def readContext (readable : Bool) (base : ℕ) (memory : GuestBytes) : Option XmaContextData :=
  if readable then some (.decode memory base) else none

/-- `write_context` of the engine. -/
def writeContext (writable : Bool) (base : ℕ) (data : XmaContextData) (memory : GuestBytes) :
    Bool × GuestBytes :=
  if writable then (true, writeBytes base kXmaContextBytes data.encode memory)
  else (false, memory)

/-- A byte that the guest stores. -/
structure GuestStore where
  address : ℕ
  value : BitVec 8
deriving DecidableEq, Repr

/-- Guest memory after stores of the guest. -/
def storeAll (stores : List GuestStore) (memory : GuestBytes) : GuestBytes :=
  stores.foldl (fun memory store address =>
    if address = store.address then store.value else memory address) memory

/-- `decode_errors_` and `parser_errors_`. -/
structure XmaErrorCounts where
  decodeErrors : BitVec 4 → BitVec 64
  parserErrors : BitVec 64

/-- The counting of `merge_hardware_progress`: a state of the error fields that the
engine enters, not one that was there. -/
def XmaErrorCounts.count (counts : XmaErrorCounts) (initial progressed : XmaContextData) :
    XmaErrorCounts :=
  let counts : XmaErrorCounts :=
    if progressed.errorSet &&
        !(initial.errorSet && initial.errorStatus == progressed.errorStatus) then
      let entered := progressed.errorStatus.setWidth 4
      { counts with
        decodeErrors := fun status =>
          if status = entered then counts.decodeErrors status + 1
          else counts.decodeErrors status }
    else counts
  if progressed.parserErrorSet && !initial.parserErrorSet then
    { counts with parserErrors := counts.parserErrors + 1 }
  else counts

/-- The fields that `merge_hardware_progress` publishes. -/
def publish (initial progressed fresh : XmaContextData) : XmaContextData :=
  { fresh with
    loopCount := progressed.loopCount
    outputBufferWriteOffset := progressed.outputBufferWriteOffset
    inputBufferReadOffset := progressed.inputBufferReadOffset
    packetMetadata := progressed.packetMetadata
    currentBuffer := progressed.currentBuffer
    errorStatus := progressed.errorStatus
    errorSet := progressed.errorSet
    parserErrorStatus := progressed.parserErrorStatus
    parserErrorSet := progressed.parserErrorSet
    inputBuffer0Valid :=
      if initial.inputBuffer0Valid && !progressed.inputBuffer0Valid then false
      else fresh.inputBuffer0Valid
    inputBuffer1Valid :=
      if initial.inputBuffer1Valid && !progressed.inputBuffer1Valid then false
      else fresh.inputBuffer1Valid
    outputBufferValid :=
      if initial.outputBufferValid && !progressed.outputBufferValid then false
      else fresh.outputBufferValid }

/-- `merge_hardware_progress`, with the guest's stores between its two accesses: the
result, the counts and memory. -/
def mergeHardwareProgress (readable writable : Bool) (base : ℕ)
    (initial progressed : XmaContextData) (between : List GuestStore) (counts : XmaErrorCounts)
    (memory : GuestBytes) : Bool × XmaErrorCounts × GuestBytes :=
  let counts := counts.count initial progressed
  match readContext readable base memory with
  | none => (false, counts, storeAll between memory)
  | some fresh =>
    let (written, memory) :=
      writeContext writable base (publish initial progressed fresh) (storeAll between memory)
    (written, counts, memory)

/-- What a pass of the engine meets: whether its accesses succeed, and the guest's
stores before the first and between the three. -/
structure PassEnvironment where
  readable : Bool
  rereadable : Bool
  writable : Bool
  before : List GuestStore
  decoding : List GuestStore
  merging : List GuestStore

/-- What a pass read first, and what `progress`, its decoding, made of it; nothing when
the read fails or the pass has nothing to do. -/
def published (environment : PassEnvironment) (base : ℕ)
    (progress : XmaContextData → Option XmaContextData) (memory : GuestBytes) :
    Option (XmaContextData × XmaContextData) :=
  (readContext environment.readable base (storeAll environment.before memory)).bind fun initial =>
    (progress initial).map (Prod.mk initial)

/-- The memory accesses of a pass to the context: the read on which it decodes, and the
merge of what the decoding made of it. -/
def decodePass (environment : PassEnvironment) (base : ℕ)
    (progress : XmaContextData → Option XmaContextData) (counts : XmaErrorCounts)
    (memory : GuestBytes) : GuestBytes :=
  let reread := storeAll environment.decoding (storeAll environment.before memory)
  match published environment base progress memory with
  | none => storeAll environment.merging reread
  | some (initial, progressed) =>
    (mergeHardwareProgress environment.rereadable environment.writable base initial progressed
      environment.merging counts reread).2.2

end Audio
end XenonRecomp
