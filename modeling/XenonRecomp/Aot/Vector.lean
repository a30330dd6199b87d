/-
# The semantic function of vector operations

`aot::execute_vector` of `src/cpu/codegen/aot/aot_semantics.cpp`.  The semantic
enumeration of the source has one member per vector mnemonic, so the mnemonic
stands for it.  The function reads VSCR (the non-Java mode of floating-point
lanes) and may set its saturation bit; the result says whether it does.  Signed
`int` sums of the source wrap at 32 bits.  Floating-point lanes go through
`FloatOps`.
-/

import XenonRecomp.Cpu.Mnemonic
import XenonRecomp.Aot.Lanes

namespace XenonRecomp
namespace Aot

open Cpu Machine

section

variable (w : BitVec 32)

/-- `vx_imm5`, `vx128_imm3`, `vx128_imm4`: the five bits in the place of `vA`. -/
def vxImm5 : ℕ := (w.extractLsb' 16 5).toNat

/-- `vx128_z4`. -/
def vx128Z4 : ℕ := (w.extractLsb' 6 2).toNat

/-- `vx128_sh5`, `va_sh4`. -/
def vaSh4 : ℕ := (w.extractLsb' 6 4).toNat

/-- `vx128_perm`. -/
def vx128Perm : BitVec 8 := w.extractLsb' 6 3 ++ w.extractLsb' 16 5

/-- `sext5` of the immediate. -/
def sext5 : BitVec 32 := (w.extractLsb' 16 5).signExtend 32

end

/-- `pack_standard` to bytes: the lanes of `a`, then those of `b`. -/
def packBytes (src dst : Lane) (saturate : Bool) (a b : Vector128) : Vector128 × Bool :=
  let lane (i : ℕ) : ℤ := if i < 8 then src.read a i else src.read b (i - 8)
  if saturate then laneSat dst lane else (dst.write lane, false)

/-- `pack_standard` to halfwords. -/
def packHalfwords (src dst : Lane) (saturate : Bool) (a b : Vector128) : Vector128 × Bool :=
  let lane (i : ℕ) : ℤ := if i < 4 then src.read a i else src.read b (i - 4)
  if saturate then laneSat dst lane else (dst.write lane, false)

/-- The packed value of `d3d_pack` and its size in bytes. -/
def d3dPacked (fl : FloatOps) (type : ℕ) (src : Vector128) : BitVec 64 × ℕ :=
  let half (i : ℕ) : BitVec 64 := (floatToHalf (src.u32Be i)).setWidth 64
  let h16 (i : ℕ) : BitVec 64 := (src.u16Be i).setWidth 64
  let w32 (i : ℕ) : BitVec 64 := (src.u32Be i).setWidth 64
  match type with
  | 0 =>
      ((List.range 4).foldl
        (fun (x : BitVec 32) i => x <<< 8 ||| fl.colorToByte (src.u32Be i)) 0 |>.setWidth 64, 4)
  | 1 => (h16 0 <<< 16 ||| h16 1, 4)
  | 2 => (w32 0 &&& 0x3FF ||| (w32 1 &&& 0x3FF) <<< 10 ||| (w32 2 &&& 0x3FF) <<< 20 |||
      (w32 3 &&& 3) <<< 30, 4)
  | 3 => (half 0 <<< 16 ||| half 1, 4)
  | 4 => (h16 0 <<< 48 ||| h16 1 <<< 32 ||| h16 2 <<< 16 ||| h16 3, 8)
  | 5 => (half 0 <<< 48 ||| half 1 <<< 32 ||| half 2 <<< 16 ||| half 3, 8)
  | 6 => (w32 0 &&& 0xFFFFF ||| (w32 1 &&& 0xFFFFF) <<< 20 ||| (w32 2 &&& 0xFFFFF) <<< 40 |||
      (w32 3 &&& 0xF) <<< 60, 8)
  | _ => (0, 4)

/-- `d3d_pack`: the packed value at the word position that `z` selects. -/
def d3dPack (fl : FloatOps) (w : BitVec 32) (src : Vector128) : Vector128 :=
  let (packed, bytes) := d3dPacked fl (vxImm5 w / 4) src
  let pos := min (vx128Z4 w * 4) (16 - bytes)
  .ofBytes fun i =>
    if pos ≤ i ∧ i < pos + bytes then packed.extractLsb' (8 * (bytes - 1 - (i - pos))) 8 else 0

/-- `d3d_unpack`. -/
def d3dUnpack (fl : FloatOps) (w : BitVec 32) (src : Vector128) : Vector128 :=
  match vxImm5 w / 4 with
  | 0 => .ofLanes32 fun i => fl.byteToColor (src.u32Be 3 >>> (24 - 8 * i) &&& 0xFF)
  | 1 => .ofLanes32 fun i => if i < 2 then (src.u16Be (6 + i)).signExtend 32 else 0
  | 3 => .ofLanes32 fun i => if i < 2 then halfToFloat (src.u16Be (6 + i)) else 0
  | 5 => .ofLanes32 fun i => halfToFloat (src.u16Be (4 + i))
  | _ => .zero

/-- The five-bit channels of `vpkpx`. -/
def packPixel (x : BitVec 32) : BitVec 16 :=
  ((x >>> 16 &&& 0x8000) ||| (x >>> 9 &&& 0x7C00) ||| (x >>> 6 &&& 0x03E0) |||
    (x >>> 3 &&& 0x001F)).setWidth 16

/-- The channels of `vupkhpx`, `vupklpx`. -/
def unpackPixel (h : BitVec 16) : BitVec 32 :=
  let x := h.setWidth 32
  (x &&& 0x8000) <<< 16 ||| (x &&& 0x7C00) <<< 9 ||| (x &&& 0x03E0) <<< 6 ||| (x &&& 0x001F) <<< 3

/-- Products of the even (`off = 0`) or odd lanes. -/
def multiplyLanes (src dst : Lane) (off : ℕ) (a b : Vector128) : Vector128 :=
  dst.write fun i => src.read a (2 * i + off) * src.read b (2 * i + off)

/-- The halves of two vectors, interleaved. -/
def mergeLanes (t : Lane) (base : ℕ) (a b : Vector128) : Vector128 :=
  t.write fun i => t.read (if i % 2 = 0 then a else b) (base + i / 2)

/-- A word lane as a floating-point operand. -/
def floatLane (nonJava : Bool) (v : Vector128) (i : ℕ) : BitVec 32 :=
  vmxFlushSubnormal nonJava (v.u32Be i)

/-- Word lanes from the floating-point helpers. -/
def floatLanes (nonJava : Bool) (f : ℕ → BitVec 32) : Vector128 :=
  .ofLanes32 fun i => vmxFlushSubnormal nonJava (f i)

/-- A floating-point comparison per lane. -/
def floatCompare (nonJava : Bool) (p : BitVec 32 → BitVec 32 → BitVec 32) (a b : Vector128) :
    Vector128 :=
  .ofLanes32 fun i => p (floatLane nonJava a i) (floatLane nonJava b i)

/-- Conversion of word lanes to integers, with saturation. -/
def floatToInt (nonJava : Bool) (f : BitVec 32 → BitVec 32 × Bool) (a : Vector128) :
    Vector128 × Bool :=
  let lane (i : ℕ) : BitVec 32 × Bool := f (floatLane nonJava a i)
  (.ofLanes32 fun i => (lane i).1, (List.range 4).any fun i => (lane i).2)

/-- The dot product over the first `n` lanes of `b` and `c`. -/
def dotProduct (fl : FloatOps) (n : ℕ) (b c : ℕ → BitVec 32) : BitVec 32 :=
  (List.range n).foldl (fun z i => fl.add z (fl.mul (b i) (c i))) 0

/-- The sum of the products of the `n` sublanes of word lane `i`. -/
def sumProducts (ta tb : Lane) (n : ℕ) (a b : Vector128) (i : ℕ) : ℤ :=
  ((List.range n).map fun j => ta.read a (n * i + j) * tb.read b (n * i + j)).sum

/-- All ones for true. -/
def mask32Of (p : Bool) : BitVec 32 := if p then -1 else 0

/-- The cases of `execute_vector` that read one operand. -/
def executeVector1 (fl : FloatOps) (m : Mnemonic) (w vscr : BitVec 32) (a : Vector128) :
    Option (Vector128 × Bool) :=
  let nj := vscr &&& vscrNJ != 0
  let float1 (f : BitVec 32 → BitVec 32) : Vector128 × Bool :=
    (floatLanes nj fun i => f (floatLane nj a i), false)
  match m with
  | .vrefp | .vrefp128 => some (float1 fl.recip)
  | .vrsqrtefp | .vrsqrtefp128 => some (float1 fl.rsqrt)
  | .vexptefp | .vexptefp128 => some (float1 fl.exp2)
  | .vlogefp | .vlogefp128 => some (float1 fl.log2)
  | .vrfim | .vrfim128 => some (float1 fl.floor)
  | .vrfin | .vrfin128 => some (float1 fl.nearest)
  | .vrfip | .vrfip128 => some (float1 fl.ceil)
  | .vrfiz | .vrfiz128 => some (float1 fl.trunc)
  | .vcfsx | .vcsxwfp128 => some <|
      (.ofLanes32 fun i => vmxFlushSubnormal nj (fl.fromSigned (a.u32Be i) (vxImm5 w)), false)
  | .vcfux | .vcuxwfp128 => some <|
      (.ofLanes32 fun i => vmxFlushSubnormal nj (fl.fromUnsigned (a.u32Be i) (vxImm5 w)), false)
  | .vctsxs | .vcfpsxws128 => some (floatToInt nj (fl.toSigned · (vxImm5 w)) a)
  | .vctuxs | .vcfpuxws128 => some (floatToInt nj (fl.toUnsigned · (vxImm5 w)) a)
  | .vpermwi128 => some <|
      (.ofLanes32 fun i => a.u32Be (vx128Perm w >>> (6 - 2 * i) &&& 3).toNat, false)
  | .vspltb => some (splat8 (a.u8 (vxImm5 w % 16)), false)
  | .vsplth => some (splat16 (a.u16Be (vxImm5 w % 8)), false)
  | .vspltw | .vspltw128 => some (splat32 (a.u32Be (vxImm5 w % 4)), false)
  | .vspltisb => some (splat8 ((sext5 w).setWidth 8), false)
  | .vspltish => some (splat16 ((sext5 w).setWidth 16), false)
  | .vspltisw | .vspltisw128 => some (splat32 (sext5 w), false)
  | .vupkhsb | .vupkhsb128 => some (Lane.s16.write fun i => Lane.s8.read a i, false)
  | .vupklsb | .vupklsb128 => some (Lane.s16.write fun i => Lane.s8.read a (8 + i), false)
  | .vupkhsh => some (Lane.s32.write fun i => Lane.s16.read a i, false)
  | .vupklsh => some (Lane.s32.write fun i => Lane.s16.read a (4 + i), false)
  | .vpkd3d128 => some (d3dPack fl w a, false)
  | .vupkd3d128 => some (d3dUnpack fl w a, false)
  | .vupkhpx => some (.ofLanes32 fun i => unpackPixel (a.u16Be i), false)
  | .vupklpx => some (.ofLanes32 fun i => unpackPixel (a.u16Be (4 + i)), false)
  | .lvsl | .lvsl128 | .lvsr | .lvsr128 => some (a, false)
  | _ => none

/-- The cases of `execute_vector` that read two operands. -/
def executeVector2 (fl : FloatOps) (m : Mnemonic) (w vscr : BitVec 32) (a b : Vector128) :
    Option (Vector128 × Bool) :=
  let nj := vscr &&& vscrNJ != 0
  let float2 (f : BitVec 32 → BitVec 32 → BitVec 32) : Vector128 × Bool :=
    (floatLanes nj fun i => f (floatLane nj a i) (floatLane nj b i), false)
  let words (f : BitVec 32 → BitVec 32 → BitVec 32) : Vector128 × Bool :=
    (.ofLanes32 fun i => f (a.u32Be i) (b.u32Be i), false)
  let halves (f : BitVec 16 → BitVec 16 → BitVec 16) : Vector128 × Bool :=
    (.ofLanes16 fun i => f (a.u16Be i) (b.u16Be i), false)
  let bytes (f : BitVec 8 → BitVec 8 → BitVec 8) : Vector128 × Bool :=
    (.ofBytes fun i => f (a.u8 i) (b.u8 i), false)
  match m with
  | .vaddfp | .vaddfp128 => some (float2 fl.add)
  | .vsubfp | .vsubfp128 => some (float2 fl.sub)
  | .vmulfp128 => some (float2 fl.mul)
  | .vmaxfp | .vmaxfp128 => some (float2 fl.max)
  | .vminfp | .vminfp128 => some (float2 fl.min)
  | .vand | .vand128 => some (vectorLogic (· &&& ·) a b, false)
  | .vandc | .vandc128 => some (vectorLogic (fun x y => x &&& ~~~y) a b, false)
  | .vor | .vor128 => some (vectorLogic (· ||| ·) a b, false)
  | .vxor | .vxor128 => some (vectorLogic (· ^^^ ·) a b, false)
  | .vnor | .vnor128 => some (vectorLogic (fun x y => ~~~(x ||| y)) a b, false)
  | .vaddubm => some (laneBinary .u8 (· + ·) a b, false)
  | .vadduhm => some (laneBinary .u16 (· + ·) a b, false)
  | .vadduwm => some (laneBinary .u32 (· + ·) a b, false)
  | .vsububm => some (laneBinary .u8 (· - ·) a b, false)
  | .vsubuhm => some (laneBinary .u16 (· - ·) a b, false)
  | .vsubuwm => some (laneBinary .u32 (· - ·) a b, false)
  | .vaddsbs => some (addSat .s8 a b)
  | .vaddshs => some (addSat .s16 a b)
  | .vaddsws => some (addSat .s32 a b)
  | .vaddubs => some (addSat .u8 a b)
  | .vadduhs => some (addSat .u16 a b)
  | .vadduws => some (addSat .u32 a b)
  | .vsubsbs => some (subSat .s8 a b)
  | .vsubshs => some (subSat .s16 a b)
  | .vsubsws => some (subSat .s32 a b)
  | .vsububs => some (subSat .u8 a b)
  | .vsubuhs => some (subSat .u16 a b)
  | .vsubuws => some (subSat .u32 a b)
  | .vaddcuw => some (words fun x y => if x.toNat + y.toNat ≥ 2 ^ 32 then 1 else 0)
  | .vsubcuw => some (words fun x y => if y.toNat ≤ x.toNat then 1 else 0)
  | .vavgsb => some (avgRound .s8 a b, false)
  | .vavgsh => some (avgRound .s16 a b, false)
  | .vavgsw => some (avgRound .s32 a b, false)
  | .vavgub => some (avgRound .u8 a b, false)
  | .vavguh => some (avgRound .u16 a b, false)
  | .vavguw => some (avgRound .u32 a b, false)
  | .vmaxsb => some (minmax .s8 true a b, false)
  | .vmaxsh => some (minmax .s16 true a b, false)
  | .vmaxsw => some (minmax .s32 true a b, false)
  | .vmaxub => some (minmax .u8 true a b, false)
  | .vmaxuh => some (minmax .u16 true a b, false)
  | .vmaxuw => some (minmax .u32 true a b, false)
  | .vminsb => some (minmax .s8 false a b, false)
  | .vminsh => some (minmax .s16 false a b, false)
  | .vminsw => some (minmax .s32 false a b, false)
  | .vminub => some (minmax .u8 false a b, false)
  | .vminuh => some (minmax .u16 false a b, false)
  | .vminuw => some (minmax .u32 false a b, false)
  | .vcmpequb => some (compareLanes .u8 (· == ·) a b, false)
  | .vcmpequh => some (compareLanes .u16 (· == ·) a b, false)
  | .vcmpequw | .vcmpequw128 => some (compareLanes .u32 (· == ·) a b, false)
  | .vcmpgtsb => some (compareLanes .s8 (fun x y => decide (x > y)) a b, false)
  | .vcmpgtsh => some (compareLanes .s16 (fun x y => decide (x > y)) a b, false)
  | .vcmpgtsw => some (compareLanes .s32 (fun x y => decide (x > y)) a b, false)
  | .vcmpgtub => some (compareLanes .u8 (fun x y => decide (x > y)) a b, false)
  | .vcmpgtuh => some (compareLanes .u16 (fun x y => decide (x > y)) a b, false)
  | .vcmpgtuw => some (compareLanes .u32 (fun x y => decide (x > y)) a b, false)
  | .vcmpeqfp | .vcmpeqfp128 => some (floatCompare nj (fun x y => mask32Of (fl.eq x y)) a b, false)
  | .vcmpgefp | .vcmpgefp128 => some (floatCompare nj (fun x y => mask32Of (fl.ge x y)) a b, false)
  | .vcmpgtfp | .vcmpgtfp128 => some (floatCompare nj (fun x y => mask32Of (fl.gt x y)) a b, false)
  | .vcmpbfp | .vcmpbfp128 => some <|
      (floatCompare nj (fun x y =>
        if fl.isNan x || fl.isNan y then 0xC0000000
        else (if fl.gt x y then 0x80000000 else 0) |||
          (if fl.gt (fl.neg y) x then 0x40000000 else 0)) a b, false)
  | .vmuleub => some (multiplyLanes .u8 .u16 0 a b, false)
  | .vmuloub => some (multiplyLanes .u8 .u16 1 a b, false)
  | .vmulesb => some (multiplyLanes .s8 .s16 0 a b, false)
  | .vmulosb => some (multiplyLanes .s8 .s16 1 a b, false)
  | .vmuleuh => some (multiplyLanes .u16 .u32 0 a b, false)
  | .vmulouh => some (multiplyLanes .u16 .u32 1 a b, false)
  | .vmulesh => some (multiplyLanes .s16 .s32 0 a b, false)
  | .vmulosh => some (multiplyLanes .s16 .s32 1 a b, false)
  | .vmrghb => some (mergeLanes .u8 0 a b, false)
  | .vmrglb => some (mergeLanes .u8 8 a b, false)
  | .vmrghh => some (mergeLanes .u16 0 a b, false)
  | .vmrglh => some (mergeLanes .u16 4 a b, false)
  | .vmrghw | .vmrghw128 => some (mergeLanes .u32 0 a b, false)
  | .vmrglw | .vmrglw128 => some (mergeLanes .u32 2 a b, false)
  | .vrlb => some (bytes fun x y => x.rotateLeft (y &&& 7).toNat)
  | .vrlh => some (halves fun x y => x.rotateLeft (y &&& 15).toNat)
  | .vrlw | .vrlw128 => some (words fun x y => x.rotateLeft (y &&& 31).toNat)
  | .vrlimi128 => some <|
      (.ofLanes32 fun i => if (vxImm5 w % 16).testBit (3 - i) then b.u32Be (i + vx128Z4 w)
        else a.u32Be i, false)
  | .vslb => some (bytes fun x y => x <<< (y &&& 7).toNat)
  | .vslh => some (halves fun x y => x <<< (y &&& 15).toNat)
  | .vslw | .vslw128 => some (words fun x y => x <<< (y &&& 31).toNat)
  | .vsrb => some (bytes fun x y => x >>> (y &&& 7).toNat)
  | .vsrh => some (halves fun x y => x >>> (y &&& 15).toNat)
  | .vsrw | .vsrw128 => some (words fun x y => x >>> (y &&& 31).toNat)
  | .vsrab => some (bytes fun x y => x.sshiftRight (y &&& 7).toNat)
  | .vsrah => some (halves fun x y => x.sshiftRight (y &&& 15).toNat)
  | .vsraw | .vsraw128 => some (words fun x y => x.sshiftRight (y &&& 31).toNat)
  | .vsl => some (wholeShift a (b.u8 15 &&& 7).toNat true, false)
  | .vsr => some (wholeShift a (b.u8 15 &&& 7).toNat false, false)
  | .vslo | .vslo128 => some <|
      let n := ((b.u8 15 &&& 0x78) >>> 3).toNat
      (.ofBytes fun i => if i + n < 16 then a.u8 (i + n) else 0, false)
  | .vsro | .vsro128 => some <|
      let n := ((b.u8 15 &&& 0x78) >>> 3).toNat
      (.ofBytes fun i => if i ≥ n then a.u8 (i - n) else 0, false)
  | .vsldoi | .vsldoi128 => some (shiftDouble a b (vaSh4 w), false)
  | .vpkuhum | .vpkuhum128 => some (packBytes .u16 .u8 false a b)
  | .vpkuhus | .vpkuhus128 => some (packBytes .u16 .u8 true a b)
  | .vpkshss | .vpkshss128 => some (packBytes .s16 .s8 true a b)
  | .vpkshus | .vpkshus128 => some (packBytes .s16 .u8 true a b)
  | .vpkuwum | .vpkuwum128 => some (packHalfwords .u32 .u16 false a b)
  | .vpkuwus | .vpkuwus128 => some (packHalfwords .u32 .u16 true a b)
  | .vpkswss | .vpkswss128 => some (packHalfwords .s32 .s16 true a b)
  | .vpkswus | .vpkswus128 => some (packHalfwords .s32 .u16 true a b)
  | .vpkpx => some <|
      (.ofLanes16 fun i => packPixel (if i < 4 then a.u32Be i else b.u32Be (i - 4)), false)
  | .vsum4ubs => some <|
      laneSat .u32 fun i => Lane.u32.read b i +
        ((List.range 4).map fun j => Lane.u8.read a (i * 4 + j)).sum
  | .vsum4sbs => some <|
      laneSat .s32 fun i => Lane.s32.read b i +
        ((List.range 4).map fun j => Lane.s8.read a (i * 4 + j)).sum
  | .vsum4shs => some <|
      laneSat .s32 fun i => (BitVec.ofInt 32 (Lane.s32.read b i + Lane.s16.read a (2 * i) +
        Lane.s16.read a (2 * i + 1))).toInt
  | .vsum2sws => some <|
      laneSat .s32 fun i => if i % 2 = 0 then 0
        else (BitVec.ofInt 32 (Lane.s32.read b i + Lane.s32.read a (i - 1) +
          Lane.s32.read a i)).toInt
  | .vsumsws => some <|
      laneSat .s32 fun i => if i ≠ 3 then 0
        else Lane.s32.read b 3 + ((List.range 4).map fun j => Lane.s32.read a j).sum
  | _ => none

/-- The cases of `execute_vector` that read three operands. -/
def executeVector3 (fl : FloatOps) (m : Mnemonic) (vscr : BitVec 32) (a b c : Vector128) :
    Option (Vector128 × Bool) :=
  let nj := vscr &&& vscrNJ != 0
  let float3 (f : BitVec 32 → BitVec 32 → BitVec 32 → BitVec 32) : Vector128 × Bool :=
    (floatLanes nj fun i => f (floatLane nj a i) (floatLane nj b i) (floatLane nj c i), false)
  match m with
  | .vmaddfp => some (float3 fun x y z => fl.fma x z y)
  | .vmaddfp128 => some (float3 fun x y z => fl.fma y z x)
  | .vmaddcfp128 => some (float3 fun x y z => fl.fma y x z)
  | .vnmsubfp => some (float3 fun x y z => fl.neg (fl.fma x z (fl.neg y)))
  | .vnmsubfp128 => some (float3 fun x y z => fl.neg (fl.fma y z (fl.neg x)))
  | .vmsum3fp128 =>
      some (floatLanes nj fun _ => dotProduct fl 3 (floatLane nj b) (floatLane nj c), false)
  | .vmsum4fp128 =>
      some (floatLanes nj fun _ => dotProduct fl 4 (floatLane nj b) (floatLane nj c), false)
  | .vmladduhm => some <|
      (Lane.u16.write fun i => Lane.u16.read a i * Lane.u16.read b i + Lane.u16.read c i, false)
  | .vmhaddshs => some <|
      laneSat .s16 fun i => (Lane.s16.read a i * Lane.s16.read b i) / 2 ^ 15 + Lane.s16.read c i
  | .vmhraddshs => some <|
      laneSat .s16 fun i =>
        (Lane.s16.read a i * Lane.s16.read b i + 0x4000) / 2 ^ 15 + Lane.s16.read c i
  | .vperm | .vperm128 => some (permuteBytes a b c, false)
  | .vsel | .vsel128 => some (vectorSelect a b c, false)
  | .vmsummbm => some <|
      (Lane.s32.write fun i => Lane.s32.read c i + sumProducts .s8 .u8 4 a b i, false)
  | .vmsumubm => some <|
      (Lane.u32.write fun i => Lane.u32.read c i + sumProducts .u8 .u8 4 a b i, false)
  | .vmsumuhm => some <|
      (Lane.u32.write fun i => Lane.u32.read c i + sumProducts .u16 .u16 2 a b i, false)
  | .vmsumuhs => some (laneSat .u32 fun i => Lane.u32.read c i + sumProducts .u16 .u16 2 a b i)
  | .vmsumshm => some <|
      (Lane.s32.write fun i => Lane.s32.read c i + sumProducts .s16 .s16 2 a b i, false)
  | .vmsumshs => some (laneSat .s32 fun i => Lane.s32.read c i + sumProducts .s16 .s16 2 a b i)
  | _ => none

/-- `execute_vector`: the result and whether saturation was set.  The cases of its
switch stand in three tables, by the number of operands they read. -/
def executeVector (fl : FloatOps) (m : Mnemonic) (w vscr : BitVec 32) (a b c : Vector128) :
    Vector128 × Bool :=
  ((executeVector1 fl m w vscr a).or
    ((executeVector2 fl m w vscr a b).or (executeVector3 fl m vscr a b c))).getD (.zero, false)

/-- `execute_vector` on the state: the result, and VSCR with saturation set. -/
def executeVectorState (fl : FloatOps) (m : Mnemonic) (w : BitVec 32) (s : CpuState)
    (a b c : Vector128) : Vector128 × CpuState :=
  let (r, saturated) := executeVector fl m w s.vscr a b c
  (r, if saturated then s.setVectorSaturated else s)

end Aot
end XenonRecomp
