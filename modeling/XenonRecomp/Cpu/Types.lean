/-
# Guest words and vectors

`include/xenon/cpu/types.hpp`.  Guest addresses are 32-bit words and registers
are 64-bit words; both are `BitVec`s here, so wrapping arithmetic is the
arithmetic of the C++ unsigned types.

A `Vector128` is its sixteen bytes in architectural order: byte `0` is VMX byte
element `0`, and the halfword and word lanes are read big-endian
(`u16_be`, `u32_be`).  The lane index is taken modulo the number of lanes, as
the masks `lane & 7` and `lane & 3` of the source do.  A loop of the source
that starts from `Vector128 r{}` and writes every lane is `ofBytes`,
`ofLanes16` or `ofLanes32` of the function it computes per lane.
-/

import Mathlib.Algebra.Order.Ring.Int
import Mathlib.Data.BitVec

namespace XenonRecomp
namespace Cpu

/-- `GuestAddress`: a guest virtual address. -/
abbrev GuestAddress := BitVec 32

/-- `Vector128`: sixteen bytes, byte element `0` first. -/
structure Vector128 where
  bytes : Fin 16 → BitVec 8
deriving DecidableEq

namespace Vector128

/-- `Vector128{}`: all bytes zero. -/
def zero : Vector128 := ⟨fun _ => 0⟩

instance : Inhabited Vector128 := ⟨zero⟩

@[ext] theorem ext {v w : Vector128} (h : ∀ i, v.bytes i = w.bytes i) : v = w := by
  cases v; cases w; congr; funext i; exact h i

/-- `u8`: byte `i & 15`. -/
def u8 (v : Vector128) (i : ℕ) : BitVec 8 := v.bytes (Fin.ofNat 16 i)

/-- `u16_be`: halfword lane `lane & 7`, high byte first. -/
def u16Be (v : Vector128) (lane : ℕ) : BitVec 16 :=
  v.u8 (lane % 8 * 2) ++ v.u8 (lane % 8 * 2 + 1)

/-- `u32_be`: word lane `lane & 3`, high byte first. -/
def u32Be (v : Vector128) (lane : ℕ) : BitVec 32 :=
  v.u8 (lane % 4 * 4) ++ v.u8 (lane % 4 * 4 + 1) ++
    v.u8 (lane % 4 * 4 + 2) ++ v.u8 (lane % 4 * 4 + 3)

/-- `set_u32_be`: overwrite word lane `lane & 3`. -/
def setU32Be (v : Vector128) (lane : ℕ) (x : BitVec 32) : Vector128 :=
  ⟨fun i => if i.val / 4 = lane % 4 then x.extractLsb' (8 * (3 - i.val % 4)) 8 else v.bytes i⟩

/-- `set_u16_be`: overwrite halfword lane `lane & 7`. -/
def setU16Be (v : Vector128) (lane : ℕ) (x : BitVec 16) : Vector128 :=
  ⟨fun i => if i.val / 2 = lane % 8 then x.extractLsb' (8 * (1 - i.val % 2)) 8 else v.bytes i⟩

/-- `set_u8`: overwrite byte `i & 15`. -/
def setU8 (v : Vector128) (i : ℕ) (x : BitVec 8) : Vector128 :=
  ⟨Function.update v.bytes (Fin.ofNat 16 i) x⟩

/-- Every byte written: `for (i < 16) r.bytes[i] = f(i)`. -/
def ofBytes (f : ℕ → BitVec 8) : Vector128 := ⟨fun i => f i.val⟩

/-- Every halfword lane written: `for (i < 8) r.set_u16_be(i, f(i))`. -/
def ofLanes16 (f : ℕ → BitVec 16) : Vector128 :=
  ⟨fun i => (f (i.val / 2)).extractLsb' (8 * (1 - i.val % 2)) 8⟩

/-- Every word lane written: `for (i < 4) r.set_u32_be(i, f(i))`. -/
def ofLanes32 (f : ℕ → BitVec 32) : Vector128 :=
  ⟨fun i => (f (i.val / 4)).extractLsb' (8 * (3 - i.val % 4)) 8⟩

end Vector128

/-- `rotate_left64`: rotate by the low six bits of the count. -/
def rotateLeft64 (v : BitVec 64) (s : BitVec 32) : BitVec 64 := v.rotateLeft (s.toNat % 64)

/-- `rotate_left32`: rotate by the low five bits of the count. -/
def rotateLeft32 (v : BitVec 32) (s : BitVec 32) : BitVec 32 := v.rotateLeft (s.toNat % 32)

end Cpu
end XenonRecomp
