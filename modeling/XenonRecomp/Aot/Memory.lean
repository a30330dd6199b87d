/-
# Helpers that reach memory

The string and the partial vector accesses of
`src/cpu/codegen/aot/aot_semantics.cpp`.  A string moves through a buffer of
128 bytes; a fault leaves the registers of the chunks before it updated.
-/

import XenonRecomp.Machine.Run

namespace XenonRecomp
namespace Aot

open Cpu Machine Run

variable {σ : Type} (h : Host σ)

/-- One byte of `string_load`: byte `n` goes to register `first + n / 4`, which
its first byte clears. -/
def loadStringByte (first : BitVec 5) (s : CpuState) (n : ℕ) (byte : BitVec 8) : CpuState :=
  let reg := first + BitVec.ofNat 5 (n / 4)
  let old := if n % 4 = 0 then 0 else s.gpr reg
  s.setGpr reg (old ||| byte.setWidth 64 <<< (24 - 8 * (n % 4)))

/-- The size of the next chunk of a string. -/
def stringChunk (count offset : ℕ) : ℕ := min (count - offset) 128

/-- The loop of `string_load`; `fuel` bounds the number of chunks. -/
def stringLoadLoop (ea : GuestAddress) (count : ℕ) (first : BitVec 5) : ℕ → ℕ → Run σ Unit
  | 0, _ => pure ()
  | fuel + 1, offset =>
      if offset < count then do
        let chunk := stringChunk count offset
        let bytes : ℕ → BitVec 8 ← ask h (.readBytes (ea + BitVec.ofNat 32 offset) chunk)
        modifyCpu fun s => (List.range chunk).foldl
          (fun s k => loadStringByte first s (offset + k) (bytes k)) s
        stringLoadLoop ea count first fuel (offset + chunk)
      else pure ()

/-- `string_load`. -/
def stringLoad (ea : GuestAddress) (count : BitVec 32) (first : BitVec 5) : Run σ Unit :=
  stringLoadLoop h ea count.toNat first count.toNat 0

/-- One byte of `string_store`. -/
def storeStringByte (first : BitVec 5) (s : CpuState) (n : ℕ) : BitVec 8 :=
  (s.gpr (first + BitVec.ofNat 5 (n / 4)) >>> (24 - 8 * (n % 4))).setWidth 8

/-- The loop of `string_store`. -/
def stringStoreLoop (ea : GuestAddress) (count : ℕ) (first : BitVec 5) : ℕ → ℕ → Run σ Unit
  | 0, _ => pure ()
  | fuel + 1, offset =>
      if offset < count then do
        let s ← getCpu
        let chunk := stringChunk count offset
        let bytes := (List.range chunk).map fun k => storeStringByte first s (offset + k)
        let _ ← ask h (.writeBytes (ea + BitVec.ofNat 32 offset) bytes)
        stringStoreLoop ea count first fuel (offset + chunk)
      else pure ()

/-- `string_store`. -/
def stringStore (ea : GuestAddress) (count : BitVec 32) (first : BitVec 5) : Run σ Unit :=
  stringStoreLoop h ea count.toNat first count.toNat 0

/-- The offset of an address in its 16-byte line. -/
def lineOffset (ea : GuestAddress) : ℕ := (ea &&& 15).toNat

/-- `vector_load_element`. -/
def vectorLoadElement (old : Vector128) (ea : GuestAddress) (width : BitVec 64) :
    Run σ Vector128 := do
  let p := lineOffset ea
  if width = 1 then
    let x : BitVec 8 ← ask h (.read8 ea)
    pure (old.setU8 p x)
  else if width = 2 then
    let x : BitVec 16 ← ask h (.read16 false (ea &&& ~~~1))
    pure (old.setU16Be (p / 2) x)
  else
    let x : BitVec 32 ← ask h (.read32 false (ea &&& ~~~3))
    pure (old.setU32Be (p / 4) x)

/-- `vector_store_element`. -/
def vectorStoreElement (v : Vector128) (ea : GuestAddress) (width : BitVec 64) : Run σ Unit :=
  let p := lineOffset ea
  if width = 1 then ask h (.write8 ea (v.u8 p))
  else if width = 2 then ask h (.write16 false (ea &&& ~~~1) (v.u16Be (p / 2)))
  else ask h (.write32 false (ea &&& ~~~3) (v.u32Be (p / 4)))

/-- `vector_load_left`: the bytes to the end of the line, zeros after them. -/
def vectorLoadLeft (ea : GuestAddress) : Run σ Vector128 := do
  let n := lineOffset ea
  let bytes : ℕ → BitVec 8 ← ask h (.readBytes ea (16 - n))
  pure (.ofBytes fun k => if k < 16 - n then bytes k else 0)

/-- `vector_load_right`: the bytes from the start of the line, at the end of the
vector; a line-aligned address reads nothing. -/
def vectorLoadRight (ea : GuestAddress) : Run σ Vector128 := do
  let n := lineOffset ea
  if n = 0 then pure .zero
  else
    let bytes : ℕ → BitVec 8 ← ask h (.readBytes (ea &&& ~~~15) n)
    pure (.ofBytes fun k => if k < 16 - n then 0 else bytes (k - (16 - n)))

/-- `vector_store_left`. -/
def vectorStoreLeft (v : Vector128) (ea : GuestAddress) : Run σ Unit :=
  ask h (.writeBytes ea ((List.range (16 - lineOffset ea)).map v.u8))

/-- `vector_store_right`. -/
def vectorStoreRight (v : Vector128) (ea : GuestAddress) : Run σ Unit :=
  let n := lineOffset ea
  if n = 0 then pure ()
  else ask h (.writeBytes (ea &&& ~~~15) ((List.range n).map fun k => v.u8 (16 - n + k)))

end Aot
end XenonRecomp
