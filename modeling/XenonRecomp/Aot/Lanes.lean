/-
# Lanes of vectors

The lane templates of `src/cpu/codegen/aot/aot_semantics.cpp`.  A lane type of
the source (`std::int8_t` to `std::uint32_t`) is a `Lane`; its elements are
integers, and a result is written back modulo the lane's width.  A saturating
operation says beside its result whether any lane saturated.
-/

import XenonRecomp.Machine.Host

namespace XenonRecomp
namespace Aot

open Cpu Machine

/-- A lane type: its width in bytes, one, two or four, and its signedness. -/
inductive Lane where
  | u8 | s8 | u16 | s16 | u32 | s32
deriving DecidableEq, Repr

namespace Lane

/-- Lanes per vector. -/
def count : Lane → ℕ
  | .u8 | .s8 => 16
  | .u16 | .s16 => 8
  | .u32 | .s32 => 4

/-- `read_be`: one lane as an integer. -/
def read (t : Lane) (v : Vector128) (i : ℕ) : ℤ :=
  match t with
  | .u8 => (v.u8 i).toNat
  | .s8 => (v.u8 i).toInt
  | .u16 => (v.u16Be i).toNat
  | .s16 => (v.u16Be i).toInt
  | .u32 => (v.u32Be i).toNat
  | .s32 => (v.u32Be i).toInt

/-- `write_be` of every lane. -/
def write (t : Lane) (f : ℕ → ℤ) : Vector128 :=
  match t with
  | .u8 | .s8 => .ofBytes fun i => BitVec.ofInt 8 (f i)
  | .u16 | .s16 => .ofLanes16 fun i => BitVec.ofInt 16 (f i)
  | .u32 | .s32 => .ofLanes32 fun i => BitVec.ofInt 32 (f i)

/-- `std::numeric_limits<T>::min()`. -/
def lo : Lane → ℤ
  | .u8 | .u16 | .u32 => 0
  | .s8 => -2 ^ 7
  | .s16 => -2 ^ 15
  | .s32 => -2 ^ 31

/-- `std::numeric_limits<T>::max()`. -/
def hi : Lane → ℤ
  | .u8 => 2 ^ 8 - 1
  | .s8 => 2 ^ 7 - 1
  | .u16 => 2 ^ 16 - 1
  | .s16 => 2 ^ 15 - 1
  | .u32 => 2 ^ 32 - 1
  | .s32 => 2 ^ 31 - 1

/-- `sat_cast`: the nearest value of the lane type. -/
def clamp (t : Lane) (z : ℤ) : ℤ := max t.lo (min t.hi z)

/-- The value leaves the lane type. -/
def saturates (t : Lane) (z : ℤ) : Bool := decide (z < t.lo) || decide (z > t.hi)

end Lane

/-- `lane_binary`: modular lane arithmetic. -/
def laneBinary (t : Lane) (f : ℤ → ℤ → ℤ) (a b : Vector128) : Vector128 :=
  t.write fun i => f (t.read a i) (t.read b i)

/-- Saturating lanes: `f` per lane, clamped to the lane type. -/
def laneSat (t : Lane) (f : ℕ → ℤ) : Vector128 × Bool :=
  (t.write fun i => t.clamp (f i), (List.range t.count).any fun i => t.saturates (f i))

/-- `add_sat`. -/
def addSat (t : Lane) (a b : Vector128) : Vector128 × Bool :=
  laneSat t fun i => t.read a i + t.read b i

/-- `sub_sat`. -/
def subSat (t : Lane) (a b : Vector128) : Vector128 × Bool :=
  laneSat t fun i => t.read a i - t.read b i

/-- `avg_round`: the average rounded upward. -/
def avgRound (t : Lane) (a b : Vector128) : Vector128 :=
  laneBinary t (fun x y => (x + y + 1) / 2) a b

/-- `minmax`. -/
def minmax (t : Lane) (isMax : Bool) (a b : Vector128) : Vector128 :=
  laneBinary t (fun x y => if isMax then (if x > y then x else y) else (if x < y then x else y)) a b

/-- `compare_lanes`: all ones where the predicate holds. -/
def compareLanes (t : Lane) (p : ℤ → ℤ → Bool) (a b : Vector128) : Vector128 :=
  t.write fun i => if p (t.read a i) (t.read b i) then -1 else 0

/-- The bits of a vector, byte element `0` on top. -/
def toBits (v : Vector128) : BitVec 128 :=
  (List.finRange 16).foldl (fun acc i => acc <<< 8 ||| (v.bytes i).setWidth 128) 0

/-- A vector from its bits. -/
def ofBits (x : BitVec 128) : Vector128 :=
  .ofBytes fun i => x.extractLsb' (8 * (15 - i)) 8

/-- `whole_shift`: the vector as one 128-bit number. -/
def wholeShift (a : Vector128) (bits : ℕ) (left : Bool) : Vector128 :=
  ofBits (if left then toBits a <<< bits else toBits a >>> bits)

/-- Byte `i` of the concatenation of two vectors. -/
def bytePair (a b : Vector128) (i : ℕ) : BitVec 8 := if i < 16 then a.u8 i else b.u8 (i - 16)

/-- `permute_bytes`. -/
def permuteBytes (a b control : Vector128) : Vector128 :=
  .ofBytes fun i => bytePair a b ((control.u8 i).toNat % 32)

/-- `shift_double`. -/
def shiftDouble (a b : Vector128) (sh : ℕ) : Vector128 :=
  .ofBytes fun i => bytePair a b (i + sh % 16)

/-- `vector_logic`: a bitwise operation on the two halves. -/
def vectorLogic (f : BitVec 8 → BitVec 8 → BitVec 8) (a b : Vector128) : Vector128 :=
  ⟨fun i => f (a.bytes i) (b.bytes i)⟩

/-- `vector_select`. -/
def vectorSelect (a b mask : Vector128) : Vector128 :=
  ⟨fun i => (a.bytes i &&& ~~~mask.bytes i) ||| (b.bytes i &&& mask.bytes i)⟩

/-- `vmx_flush_subnormal`: in non-Java mode a subnormal becomes a signed zero. -/
def vmxFlushSubnormal (nonJava : Bool) (x : BitVec 32) : BitVec 32 :=
  if nonJava && (x &&& 0x7F800000 == 0 && x &&& 0x007FFFFF != 0) then x &&& 0x80000000 else x

/-- `float_to_half`. -/
def floatToHalf (x : BitVec 32) : BitVec 16 :=
  let sign := x >>> 16 &&& 0x8000
  let field := (x >>> 23 &&& 0xFF).toNat
  let mant := (x &&& 0x7FFFFF).toNat
  let exp : ℤ := (field : ℤ) - 127 + 15
  let result : BitVec 32 :=
    if field = 0xFF then sign ||| (if mant ≠ 0 then 0x7E00 else 0x7C00)
    else if exp ≤ 0 then
      if exp < -10 then sign
      else
        let s := (14 - exp).toNat
        sign ||| BitVec.ofNat 32 ((mant + 0x800000 + 2 ^ (s - 1)) / 2 ^ s)
    else if exp ≥ 31 then sign ||| 0x7C00
    else
      let rounded := mant + 0x1000
      if rounded ≥ 0x800000 then
        if exp + 1 ≥ 31 then sign ||| 0x7C00
        else sign ||| BitVec.ofNat 32 ((exp + 1).toNat * 1024)
      else sign ||| BitVec.ofNat 32 (exp.toNat * 1024) ||| BitVec.ofNat 32 (rounded / 2 ^ 13)
  result.setWidth 16

/-- The normalisation loop of `half_to_float`, for at most ten steps. -/
def normalizeHalf : ℕ → ℕ → ℤ → ℕ × ℤ
  | 0, mant, e => (mant, e)
  | fuel + 1, mant, e =>
      if mant.testBit 10 then (mant, e) else normalizeHalf fuel (mant * 2) (e - 1)

/-- `half_to_float`. -/
def halfToFloat (h : BitVec 16) : BitVec 32 :=
  let sign := (h.setWidth 32 &&& 0x8000) <<< 16
  let exp := (h >>> 10 &&& 31).toNat
  let mant := (h &&& 0x3FF).toNat
  if exp = 0 then
    if mant = 0 then sign
    else
      let (m, e) := normalizeHalf 10 mant (-14)
      sign ||| BitVec.ofInt 32 (e + 127) <<< 23 ||| BitVec.ofNat 32 (m % 1024) <<< 13
  else if exp = 31 then sign ||| 0x7F800000 ||| BitVec.ofNat 32 mant <<< 13
  else sign ||| BitVec.ofNat 32 (exp + 112) <<< 23 ||| BitVec.ofNat 32 mant <<< 13

/-- The splat of a byte. -/
def splat8 (x : BitVec 8) : Vector128 := .ofBytes fun _ => x

/-- The splat of a halfword. -/
def splat16 (x : BitVec 16) : Vector128 := .ofLanes16 fun _ => x

/-- The splat of a word. -/
def splat32 (x : BitVec 32) : Vector128 := .ofLanes32 fun _ => x

/-- `vector_load_shift_left`. -/
def vectorLoadShiftLeft (ea : BitVec 64) : Vector128 :=
  .ofBytes fun i => BitVec.ofNat 8 (((ea &&& 15).toNat + i) % 32)

/-- `vector_load_shift_right`. -/
def vectorLoadShiftRight (ea : BitVec 64) : Vector128 :=
  .ofBytes fun i => BitVec.ofNat 8 ((16 - (ea &&& 15).toNat + i) % 32)

/-- `vector_splat_byte`. -/
def vectorSplatByte (src : Vector128) (imm : ℕ) : Vector128 := splat8 (src.u8 (imm % 16))

/-- `vector_splat_halfword`. -/
def vectorSplatHalfword (src : Vector128) (imm : ℕ) : Vector128 := splat16 (src.u16Be (imm % 8))

/-- `vector_splat_word`. -/
def vectorSplatWord (src : Vector128) (imm : ℕ) : Vector128 := splat32 (src.u32Be (imm % 4))

/-- `vector_splat_immediate_byte`: the sign comes from shifting up and back. -/
def vectorSplatImmediateByte (imm : BitVec 5) : Vector128 :=
  splat8 ((imm.setWidth 8 <<< 3).sshiftRight 3)

/-- `vector_splat_immediate_halfword`. -/
def vectorSplatImmediateHalfword (imm : BitVec 5) : Vector128 :=
  splat16 ((imm.setWidth 16 <<< 11).sshiftRight 11)

/-- `vector_splat_immediate_word`. -/
def vectorSplatImmediateWord (imm : BitVec 5) : Vector128 :=
  splat32 ((imm.setWidth 32 <<< 27).sshiftRight 27)

/-- `vector_add_modular<std::uint8_t>` and its subtraction. -/
def vectorModular8 (f : BitVec 8 → BitVec 8 → BitVec 8) (a b : Vector128) : Vector128 :=
  .ofBytes fun i => f (a.u8 i) (b.u8 i)

/-- `vector_add_modular<std::uint16_t>` and its subtraction. -/
def vectorModular16 (f : BitVec 16 → BitVec 16 → BitVec 16) (a b : Vector128) : Vector128 :=
  .ofLanes16 fun i => f (a.u16Be i) (b.u16Be i)

/-- `vector_add_modular<std::uint32_t>` and its subtraction. -/
def vectorModular32 (f : BitVec 32 → BitVec 32 → BitVec 32) (a b : Vector128) : Vector128 :=
  .ofLanes32 fun i => f (a.u32Be i) (b.u32Be i)

end Aot
end XenonRecomp
