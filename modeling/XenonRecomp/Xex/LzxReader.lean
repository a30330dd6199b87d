/-
# The bit reader and the Huffman tables of LZX

An LZX stream is a sequence of 16-bit little-endian words, read from the most
significant bit down.  `BitReader` shifts word after word into a 64-bit buffer;
past the end of the stream it goes on with zero words and raises a flag that
stays up.  A Huffman table is built from the lengths of its codes, and a symbol
is decoded one bit at a time.
-/

import XenonRecomp.Library.WhileLoop

namespace XenonRecomp
namespace Xex
namespace Lzx

open Library.Loop

/-! ### Constants -/

def kMinWindowBits : ℕ := 15
def kMaxWindowBits : ℕ := 21

/-- The output bytes after which the stream is realigned. -/
def kChunkSize : ℕ := 0x8000

/-- The literals of the main tree. -/
def kNumChars : ℕ := 256
def kNumPretreeSymbols : ℕ := 20
def kLengthTreeSize : ℕ := 249
def kAlignedTreeSize : ℕ := 8
def kMaxCodeLength : ℕ := 16
def kMinMatchLength : ℕ := 2

/-! ### The bit reader -/

structure BitReader where
  data : List UInt8
  bytePos : ℕ := 0
  /-- The unread bits are the lowest `bitCount` bits of this 64-bit word. -/
  buffer : ℕ := 0
  bitCount : ℕ := 0
  outOfData : Bool := false
deriving DecidableEq, Repr

/-- What reads from the stream, or stops with the error of the caller. -/
abbrev DecodeM := StateT BitReader (Except String)

namespace BitReader

/-- The next word of the stream: its last byte makes a word alone, and past the
end there are zero words. -/
def nextWord (r : BitReader) : ℕ :=
  if r.bytePos + 2 ≤ r.data.length then
    (r.data.getD r.bytePos 0).toNat ||| (r.data.getD (r.bytePos + 1) 0).toNat <<< 8
  else if r.bytePos < r.data.length then (r.data.getD r.bytePos 0).toNat
  else 0

/-- One round of `ensure`. -/
def pullWord (r : BitReader) : BitReader :=
  { r with
    bytePos := r.bytePos + 2
    buffer := (r.buffer <<< 16) % 2 ^ 64 ||| r.nextWord
    bitCount := r.bitCount + 16
    outOfData := r.outOfData || decide (r.data.length ≤ r.bytePos) }

def ensure (n : ℕ) (r : BitReader) : BitReader :=
  whileDo (fun r => decide (r.bitCount < n)) pullWord n r

/-- The reader and the bits it would give. -/
def peek (n : ℕ) (r : BitReader) : ℕ × BitReader :=
  if n = 0 then (0, r)
  else
    let r := r.ensure n
    ((r.buffer >>> (r.bitCount - n)) &&& (1 <<< n - 1), r)

def consume (n : ℕ) (r : BitReader) : BitReader :=
  { r with bitCount := r.bitCount - n }

def align16 (r : BitReader) : BitReader :=
  { r with bitCount := r.bitCount - r.bitCount % 16 }

def flushToByteBoundary (r : BitReader) : BitReader :=
  let r := r.align16
  { r with bytePos := r.bytePos - r.bitCount / 16 * 2, bitCount := 0, buffer := 0 }

/-- The next `n` bytes, unless the stream has fewer. -/
def readRawBytes (n : ℕ) (r : BitReader) : Option (List UInt8) × BitReader :=
  if r.bytePos + n > r.data.length then (none, { r with outOfData := true })
  else (some ((r.data.drop r.bytePos).take n), { r with bytePos := r.bytePos + n })

end BitReader

def read (n : ℕ) : DecodeM ℕ := fun r =>
  let (value, r) := r.peek n
  pure (value, r.consume n)

def outOfData : DecodeM Bool := fun r => pure (r.outOfData, r)

def flushToByteBoundary : DecodeM Unit := fun r => pure ((), r.flushToByteBoundary)

/-- `readRawBytes`, for a caller that stops with `error` where it fails. -/
def readRaw (error : String) (n : ℕ) : DecodeM (List UInt8) := fun r =>
  match r.readRawBytes n with
  | (some bytes, r) => pure (bytes, r)
  | (none, _) => throw error

/-- Values of `width` bits that follow each other. -/
def readMany (width : ℕ) : ℕ → DecodeM (List ℕ)
  | 0 => pure []
  | count + 1 => do
    let value ← read width
    let rest ← readMany width count
    pure (value :: rest)

/-! ### Huffman tables -/

/-- The arrays are indexed by the length of a code. -/
structure HuffmanTable where
  symbolsByLength : List ℕ
  firstCode : List ℕ
  countByLength : List ℕ
  firstSymbolIndex : List ℕ
deriving DecidableEq, Repr

namespace HuffmanTable

/-- How many symbols have a code of each length; unused symbols do not count. -/
def countLengths (lengths : List ℕ) : List ℕ :=
  lengths.foldl (fun count length => if 0 < length then count.modify length (· + 1) else count)
    (List.replicate (kMaxCodeLength + 1) 0)

/-- The first code of each length, and the one of the greatest length. -/
def firstCodes (count : List ℕ) : List ℕ × ℕ :=
  (List.range' 1 kMaxCodeLength).foldl
    (fun (firstCode, code) length =>
      let code := (code + count.getD (length - 1) 0) <<< 1
      (firstCode.set length code, code))
    (List.replicate (kMaxCodeLength + 1) 0, 0)

/-- Where the symbols of each length start. -/
def firstIndices (count : List ℕ) : List ℕ × ℕ :=
  (List.range' 1 kMaxCodeLength).foldl
    (fun (firstIndex, running) length =>
      (firstIndex.set length running, running + count.getD length 0))
    (List.replicate (kMaxCodeLength + 1) 0, 0)

/-- Put the symbols into the order of their lengths. -/
def orderSymbols (lengths cursor : List ℕ) : List ℕ × List ℕ :=
  lengths.zipIdx.foldl
    (fun (symbols, cursor) (length, symbol) =>
      if length = 0 then (symbols, cursor)
      else (symbols.set (cursor.getD length 0) symbol, cursor.modify length (· + 1)))
    (List.replicate lengths.length 0, cursor)

/-- The table of the lengths, unless one of them is too great or the codes do
not fit. -/
def build (lengths : List ℕ) : Option HuffmanTable :=
  if lengths.any (fun length => decide (kMaxCodeLength < length)) then none
  else
    let count := countLengths lengths
    let (firstCode, code) := firstCodes count
    if code + count.getD kMaxCodeLength 0 > 1 <<< kMaxCodeLength then none
    else
      let firstIndex := (firstIndices count).1
      some
        { symbolsByLength := (orderSymbols lengths firstIndex).1
          firstCode
          countByLength := count
          firstSymbolIndex := firstIndex }

/-- Decode from codes of `length` on, of which `code` is the prefix. -/
def decodeFrom (t : HuffmanTable) (error : String) : ℕ → ℕ → ℕ → DecodeM ℕ
  | 0, _, _ => throw error
  | lengths + 1, length, code => do
    let bit ← read 1
    let code := code <<< 1 ||| bit
    let count := t.countByLength.getD length 0
    let base := t.firstCode.getD length 0
    if count ≠ 0 ∧ base ≤ code ∧ code - base < count then
      return t.symbolsByLength.getD (t.firstSymbolIndex.getD length 0 + (code - base)) 0
    if ← outOfData then throw error
    decodeFrom t error lengths (length + 1) code

/-- The next symbol; the caller stops with `error` where there is none. -/
def decode (t : HuffmanTable) (error : String) : DecodeM ℕ :=
  t.decodeFrom error kMaxCodeLength 1 0

end HuffmanTable

/-- The table of the lengths; the caller stops with `error` where there is
none. -/
def buildTable (error : String) (lengths : List ℕ) : DecodeM HuffmanTable :=
  match HuffmanTable.build lengths with
  | some table => pure table
  | none => throw error

/-! ### Position slots -/

def footerBits (slot : ℕ) : ℕ := if slot < 2 then 0 else min 17 (slot / 2 - 1)

def positionBase : ℕ → ℕ
  | 0 => 0
  | 1 => 1
  | slot + 2 => positionBase (slot + 1) + 1 <<< footerBits (slot + 1)

def kMaxSlots : ℕ := 51

def numPositionSlotsForWindow (windowBits : ℕ) : ℕ :=
  ((List.range kMaxSlots).find? fun slot => decide (1 <<< windowBits ≤ positionBase slot)).getD
    (kMaxSlots - 1)

/-! ### The lengths of a tree -/

/-- The length a symbol of the pretree makes of the previous one. -/
def applyDelta (delta previous : ℕ) : ℕ :=
  let newLength := ((previous : ℤ) - delta + 17).tmod 17
  (if newLength < 0 then newLength + 17 else newLength).toNat

/-- Change `run` lengths from `i` on, up to `stop`, and go on behind them. -/
def changeRun (change : ℕ → ℕ) (stop run : ℕ) (i : ℕ) (lengths : List ℕ) : ℕ × List ℕ :=
  let next := min (i + run) stop
  (next, lengths.take i ++ ((lengths.take next).drop i).map change ++ lengths.drop next)

/-- What a symbol of the pretree does to the lengths from `i` on. -/
def applySymbol (pretree : HuffmanTable) (error : String) (stop symbol i : ℕ)
    (lengths : List ℕ) : DecodeM (ℕ × List ℕ) :=
  if symbol = 17 then do
    let extra ← read 4
    pure (changeRun (fun _ => 0) stop (4 + extra) i lengths)
  else if symbol = 18 then do
    let extra ← read 5
    pure (changeRun (fun _ => 0) stop (20 + extra) i lengths)
  else if symbol = 19 then do
    let extra ← read 1
    let second ← pretree.decode error
    pure (changeRun (applyDelta second) stop (4 + extra) i lengths)
  else pure (i + 1, lengths.modify i (applyDelta symbol))

/-- One round of the loop over the lengths. -/
def readLengths (pretree : HuffmanTable) (error : String) (stop : ℕ) (p : ℕ × List ℕ) :
    DecodeM (ℕ × List ℕ) := do
  let symbol ← pretree.decode error
  let next ← applySymbol pretree error stop symbol p.1 p.2
  if ← outOfData then throw error
  pure next

/-- Read a pretree, and with it the lengths from `start` up to `stop`. -/
def readPretreeAndLengths (error : String) (lengths : List ℕ) (start stop : ℕ) :
    DecodeM (List ℕ) := do
  let pretreeLengths ← readMany 4 kNumPretreeSymbols
  let pretree ← buildTable error pretreeLengths
  let (_, lengths) ← whileM (fun p => decide (p.1 < stop)) (readLengths pretree error stop)
    (stop - start) (start, lengths)
  pure lengths

end Lzx
end Xex
end XenonRecomp
