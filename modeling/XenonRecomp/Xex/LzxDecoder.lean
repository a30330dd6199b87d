/-
# The LZX decoder

`decode` fills an output buffer from a stream of blocks.  A block is copied as
it is, or gives literals and matches of Huffman codes whose lengths are kept
from block to block.  A match copies bytes of the reference that precedes the
output, or of the output before it.  After every 32 KiB of output the stream is
realigned to its 16-bit words.
-/

import XenonRecomp.Xex.LzxReader

namespace XenonRecomp
namespace Xex
namespace Lzx

open Library.Loop

def validWindowBits (windowBits : ℕ) : Bool :=
  decide (kMinWindowBits ≤ windowBits) && decide (windowBits ≤ kMaxWindowBits)

/-- What `decode` keeps from block to block. -/
structure Decoder where
  reader : BitReader
  mainTreeSize : ℕ
  mainLengths : List ℕ
  lengthLengths : List ℕ
  repeatedOffsets : ℕ × ℕ × ℕ := (1, 1, 1)
  output : List UInt8
  outPos : ℕ := 0
  nextChunkBoundary : ℕ := kChunkSize
deriving DecidableEq, Repr

/-- Copy to `position` and the bytes behind it what is `distance` bytes before,
in the reference or in the output that has been written. -/
def copyMatch (reference : List UInt8) (distance : ℕ) :
    ℕ → ℕ → List UInt8 → Option (List UInt8)
  | 0, _, output => some output
  | length + 1, position, output =>
    let absolute := reference.length + position
    if absolute < distance then none
    else
      let source := absolute - distance
      if source < reference.length then
        if position ≥ output.length then none
        else copyMatch reference distance length (position + 1)
          (output.set position (reference.getD source 0))
      else if source - reference.length ≥ position then none
      else if position ≥ output.length then none
      else copyMatch reference distance length (position + 1)
        (output.set position (output.getD (source - reference.length) 0))

/-- The output has passed a boundary that lies in it. -/
def Decoder.pastBoundary (s : Decoder) : Bool :=
  decide (s.outPos ≥ s.nextChunkBoundary) && decide (s.nextChunkBoundary ≤ s.output.length)

/-- One round of the realignment. -/
def Decoder.alignChunk (s : Decoder) : Decoder :=
  { s with
    reader := s.reader.align16
    nextChunkBoundary := s.nextChunkBoundary + kChunkSize }

/-- Realign after the output has passed the end of a chunk. -/
def Decoder.realign (s : Decoder) : Decoder :=
  whileDo Decoder.pastBoundary Decoder.alignChunk s.outPos s

/-! ### Huffman blocks -/

/-- The trees of a block; the one of the aligned offsets only where the block
has it. -/
structure BlockTrees where
  aligned : Option HuffmanTable
  main : HuffmanTable
  length : HuffmanTable

/-- A match, and the repeated offsets after it. -/
structure Match where
  length : ℕ
  distance : ℕ
  repeatedOffsets : ℕ × ℕ × ℕ
deriving DecidableEq, Repr

/-- The length of a match. -/
def readLength (trees : BlockTrees) (lengthHeader : ℕ) : DecodeM ℕ :=
  if lengthHeader = 7 then do
    let lengthSymbol ← trees.length.decode "LZX length-tree symbol decode failed."
    pure (kMinMatchLength + 7 + lengthSymbol)
  else pure (kMinMatchLength + lengthHeader)

/-- The bits of a distance behind its slot. -/
def readExtra (trees : BlockTrees) (footerBits : ℕ) : DecodeM ℕ :=
  match trees.aligned with
  | some alignedTree =>
    if footerBits ≥ 3 then do
      let extra ← read (footerBits - 3)
      let alignedSymbol ← alignedTree.decode "LZX aligned-offset symbol decode failed."
      pure (extra <<< 3 ||| alignedSymbol)
    else read footerBits
  | none => read footerBits

/-- The distance of a match, and the repeated offsets after it. -/
def readDistance (trees : BlockTrees) (offsets : ℕ × ℕ × ℕ) (slot : ℕ) :
    DecodeM (ℕ × ℕ × ℕ × ℕ) :=
  match offsets with
  | (r0, r1, r2) =>
    if slot = 0 then pure (r0, r0, r1, r2)
    else if slot = 1 then pure (r1, r1, r0, r2)
    else if slot = 2 then pure (r2, r2, r1, r0)
    else if slot ≥ kMaxSlots then throw "LZX position slot out of range."
    else do
      let extra ← readExtra trees (footerBits slot)
      let distance := positionBase slot + extra - 2
      pure (distance, distance, r0, r1)

/-- The rest of a match whose symbol has been read. -/
def readMatch (trees : BlockTrees) (offsets : ℕ × ℕ × ℕ) (symbol : ℕ) : DecodeM Match := do
  let matchSymbol := symbol - kNumChars
  let length ← readLength trees (matchSymbol % 8)
  let (distance, repeatedOffsets) ← readDistance trees offsets (matchSymbol / 8)
  if ← outOfData then throw "LZX stream truncated decoding a match."
  pure { length, distance, repeatedOffsets }

/-- What a symbol of the main tree stands for. -/
inductive Token
  | literal (symbol : ℕ)
  | copy (m : Match)
deriving DecidableEq, Repr

/-- The next literal or match. -/
def readToken (trees : BlockTrees) (offsets : ℕ × ℕ × ℕ) : DecodeM Token := do
  let symbol ← trees.main.decode "LZX main-tree symbol decode failed (truncated/corrupt stream)."
  if symbol < kNumChars then pure (.literal symbol)
  else do
    let m ← readMatch trees offsets symbol
    pure (.copy m)

/-- Write what has been read. -/
def Decoder.write (reference : List UInt8) (s : Decoder) : Token → Except String Decoder
  | .literal symbol =>
    if s.outPos ≥ s.output.length then throw "LZX literal overruns the output buffer."
    else pure { s with
      output := s.output.set s.outPos symbol.toUInt8
      outPos := s.outPos + 1 }
  | .copy m =>
    if s.outPos + m.length > s.output.length then
      throw "LZX match references data before available history."
    else
      match copyMatch reference m.distance m.length s.outPos s.output with
      | none => throw "LZX match references data before available history."
      | some output => pure { s with
          repeatedOffsets := m.repeatedOffsets
          output
          outPos := s.outPos + m.length }

/-- One round of the loop over the symbols of a block. -/
def decodeSymbol (reference : List UInt8) (trees : BlockTrees) (s : Decoder) :
    Except String Decoder := do
  let (token, reader) ← readToken trees s.repeatedOffsets s.reader
  let s ← { s with reader }.write reference token
  pure s.realign

/-- The tree of the aligned offsets. -/
def readAlignedTree (aligned : Bool) : DecodeM (Option HuffmanTable) :=
  if aligned then do
    let lengths ← readMany 3 kAlignedTreeSize
    let tree ← buildTable "LZX aligned-offset tree is invalid." lengths
    pure (some tree)
  else pure none

/-- The trees of a block, and the lengths that the next block starts from. -/
def readTrees (aligned : Bool) (mainTreeSize : ℕ) (mainLengths lengthLengths : List ℕ) :
    DecodeM (BlockTrees × List ℕ × List ℕ) := do
  let alignedTree ← readAlignedTree aligned
  let malformed := "LZX tree transmission is malformed."
  let invalid := "LZX main/length tree has an invalid code-length set."
  let literals ← readPretreeAndLengths malformed mainLengths 0 kNumChars
  let mainLengths ← readPretreeAndLengths malformed literals kNumChars mainTreeSize
  let lengthLengths ← readPretreeAndLengths malformed lengthLengths 0 kLengthTreeSize
  let mainTree ← buildTable invalid mainLengths
  let lengthTree ← buildTable invalid lengthLengths
  pure (⟨alignedTree, mainTree, lengthTree⟩, mainLengths, lengthLengths)

/-- The trees of a block, and the decoder at its first symbol. -/
def startHuffman (aligned : Bool) (s : Decoder) : Except String (BlockTrees × Decoder) := do
  let ((trees, mainLengths, lengthLengths), reader) ←
    readTrees aligned s.mainTreeSize s.mainLengths s.lengthLengths s.reader
  pure (trees, { s with reader, mainLengths, lengthLengths })

/-- The loop over the symbols of a block. -/
def decodeSymbols (reference : List UInt8) (trees : BlockTrees) (blockEnd blockSize : ℕ)
    (s : Decoder) : Except String Decoder :=
  whileM (fun s => decide (s.outPos < blockEnd)) (decodeSymbol reference trees) blockSize s

/-- A verbatim or an aligned block. -/
def decodeHuffman (reference : List UInt8) (aligned : Bool) (blockSize : ℕ) (s : Decoder) :
    Except String Decoder := do
  let (trees, start) ← startHuffman aligned s
  decodeSymbols reference trees (s.outPos + blockSize) blockSize start

/-! ### Blocks -/

/-- A word of four bytes, the lowest first. -/
def le32 (bytes : List UInt8) : ℕ :=
  (bytes.getD 0 0).toNat ||| (bytes.getD 1 0).toNat <<< 8 ||| (bytes.getD 2 0).toNat <<< 16 |||
    (bytes.getD 3 0).toNat <<< 24

/-- The repeated offsets and the bytes of an uncompressed block. -/
def readUncompressed (blockSize : ℕ) : DecodeM ((ℕ × ℕ × ℕ) × List UInt8) := do
  flushToByteBoundary
  let truncated := "LZX uncompressed block header is truncated."
  let r0 ← readRaw truncated 4
  let r1 ← readRaw truncated 4
  let r2 ← readRaw truncated 4
  let payload ← readRaw "LZX uncompressed block payload is truncated." blockSize
  pure ((le32 r0, le32 r1, le32 r2), payload)

/-- An uncompressed block; its padding byte may be absent at the end. -/
def decodeUncompressed (blockSize : ℕ) (s : Decoder) : Except String Decoder := do
  let ((repeatedOffsets, payload), reader) ← readUncompressed blockSize s.reader
  pure { s with
    reader := if blockSize % 2 ≠ 0 then (reader.readRawBytes 1).2 else reader
    repeatedOffsets
    output := s.output.take s.outPos ++ payload ++ s.output.drop (s.outPos + blockSize)
    outPos := s.outPos + blockSize }

/-- The type and the declared size of a block. -/
def readBlockHeader : DecodeM (ℕ × ℕ) := do
  let blockType ← read 3
  if ← outOfData then throw "LZX stream truncated reading block header."
  let high ← read 8
  let low ← read 16
  pure (blockType, high <<< 16 ||| low)

/-- What follows the header of a block. -/
def decodeBody (reference : List UInt8) (blockType blockSize : ℕ) (s : Decoder) :
    Except String Decoder :=
  if blockSize = 0 ∨ s.outPos + blockSize > s.output.length then
    throw "LZX block size is invalid or overruns the output buffer."
  else if blockType = 3 then decodeUncompressed blockSize s
  else if blockType = 1 ∨ blockType = 2 then
    decodeHuffman reference (decide (blockType = 2)) blockSize s
  else throw "LZX block type is invalid."

/-- One round of the loop over the blocks. -/
def decodeBlock (reference : List UInt8) (s : Decoder) : Except String Decoder := do
  let ((blockType, blockSize), reader) ← readBlockHeader s.reader
  let s ← decodeBody reference blockType blockSize { s with reader }
  pure s.realign

/-- The decoder before the first block. -/
def Decoder.init (compressed : List UInt8) (windowBits : ℕ) (output : List UInt8) : Decoder :=
  let mainTreeSize := kNumChars + numPositionSlotsForWindow windowBits * 8
  { reader := { data := compressed }
    mainTreeSize
    mainLengths := List.replicate mainTreeSize 0
    lengthLengths := List.replicate kLengthTreeSize 0
    output }

/-- The loop over the blocks. -/
def decodeBlocks (reference : List UInt8) (s : Decoder) : Except String Decoder :=
  whileM (fun s => decide (s.outPos < s.output.length)) (decodeBlock reference) s.output.length s

/-- The decoder after the last block. -/
def decodeRun (compressed : List UInt8) (windowBits : ℕ) (reference output : List UInt8) :
    Except String Decoder :=
  if !validWindowBits windowBits then throw "LZX window_bits out of range."
  else decodeBlocks reference (.init compressed windowBits output)

/-- Decode into the output buffer. -/
def decode (compressed : List UInt8) (windowBits : ℕ) (reference output : List UInt8) :
    Except String (List UInt8) :=
  (decodeRun compressed windowBits reference output).map Decoder.output

end Lzx
end Xex
end XenonRecomp
