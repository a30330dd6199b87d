/-
# Depth formats

`depth_format.cpp`: depth as the guest's 24-bit `20e4` float (a four-bit exponent
over a twenty-bit mantissa, never negative) and as a 24-bit fraction, and the
words that hold a depth and a stencil value.

A `float` is its 32 bits.  `magnitude` reads the bits of a finite float as a
multiple of `2 ^ -149`, so a comparison, a product with a power of two and the
conversion of a small integer are exact operations on the bits.
-/

import Mathlib.Algebra.Order.Field.Rat
import Mathlib.Algebra.Order.Ring.Int

namespace XenonRecomp
namespace Gpu

/-- `DepthRenderTargetFormat`. -/
inductive DepthRenderTargetFormat where
  | d24s8
  | d24fs8
deriving DecidableEq, Repr

/-- `Float20e4Rounding`. -/
inductive Float20e4Rounding where
  | truncate
  | nearestEven
deriving DecidableEq, Repr

/-- `kFloat20e4Mask`. -/
def kFloat20e4Mask : BitVec 32 := 0x00FFFFFF

namespace Float32

/-- The exponent field of the bits of a float. -/
def exponent (bits : BitVec 32) : ℕ := bits.toNat / 2 ^ 23 % 2 ^ 8

/-- The mantissa field of the bits of a float. -/
def fraction (bits : BitVec 32) : ℕ := bits.toNat % 2 ^ 23

/-- The absolute value of a finite float, in units of `2 ^ -149`. -/
def magnitude (bits : BitVec 32) : ℕ :=
  if exponent bits = 0 then fraction bits
  else (2 ^ 23 + fraction bits) * 2 ^ (exponent bits - 1)

/-- The value of a finite float without a sign. -/
def value (bits : BitVec 32) : ℚ := (magnitude bits : ℚ) / (2 ^ 149 : ℕ)

/-- `value > 0.0f`: neither a sign, nor zero, nor a NaN. -/
def positive (bits : BitVec 32) : Bool := 0 < bits && bits ≤ 0x7F800000

/-- A float above zero that is not infinite. -/
def PositiveFinite (bits : BitVec 32) : Prop := 0 < bits ∧ bits < 0x7F800000

instance (bits : BitVec 32) : Decidable (PositiveFinite bits) :=
  inferInstanceAs (Decidable (_ ∧ _))

/-- The quotient of two numbers, rounded to the nearest integer and to the even one
of two. -/
def divideToEven (n d : ℕ) : ℕ :=
  if 2 * (n % d) < d ∨ 2 * (n % d) = d ∧ n / d % 2 = 0 then n / d else n / d + 1

/-- The product of a float with `0.5f`. -/
def half (bits : BitVec 32) : BitVec 32 :=
  let sign := bits &&& 0x80000000
  if exponent bits = 255 then if fraction bits = 0 then bits else bits ||| 0x00400000
  else if 1 < exponent bits then bits - 0x00800000
  else sign ||| BitVec.ofNat 32 (divideToEven (magnitude bits) 2)

/-- The product of a float with `2.0f`. -/
def twice (bits : BitVec 32) : BitVec 32 :=
  let sign := bits &&& 0x80000000
  if exponent bits = 255 then if fraction bits = 0 then bits else bits ||| 0x00400000
  else if exponent bits = 254 then sign ||| 0x7F800000
  else if 0 < exponent bits then bits + 0x00800000
  else sign ||| BitVec.ofNat 32 (2 * fraction bits)

/-- `float(number) * (1.0f / float(1u << 24u))`, for a number that a float holds. -/
def ofFraction24 (number : ℕ) : BitVec 32 :=
  if number = 0 then 0
  else
    let exponent := number.log2
    BitVec.ofNat 32 ((103 + exponent) * 2 ^ 23 + (number * 2 ^ 23 / 2 ^ exponent - 2 ^ 23))

end Float32

/-- The float's exponent brought to the range of `20e4`, three mantissa bits
finer than the code: below the first normal code the mantissa with its implicit
bit is shifted, above it the exponent bias changes. -/
def rebias (bits : BitVec 32) : BitVec 32 :=
  if bits < 0x38800000 then
    let shift := min (113 - (bits >>> 23).toNat) 24
    (0x00800000 ||| (bits &&& 0x007FFFFF)) >>> shift
  else bits + 0xC8000000

/-- `float32_to_20e4`. -/
def float32To20e4 (value : BitVec 32) (rounding : Float20e4Rounding) : BitVec 32 :=
  if !Float32.positive value then 0
  else if 0x3FFFFFF8 ≤ value then kFloat20e4Mask
  else
    let bits := rebias value
    let bits : BitVec 32 := match rounding with
      | .nearestEven => bits + ((3 : BitVec 32) + ((bits >>> 3) &&& 1))
      | .truncate => bits
    (bits >>> 3) &&& kFloat20e4Mask

/-- `float20e4_to_float32`. -/
def float20e4ToFloat32 (value : BitVec 32) : BitVec 32 :=
  let value := value &&& kFloat20e4Mask
  if value = 0 then 0
  else
    let mantissa := value &&& 0x000FFFFF
    let exponent : ℤ := (value >>> 20).toNat
    if exponent = 0 then
      let shift := mantissa.clz.toNat - (32 - 21)
      let exponent : ℤ := 1 - shift
      let mantissa := (mantissa <<< shift) &&& 0x000FFFFF
      (BitVec.ofInt 32 (exponent + 112) <<< 23) ||| (mantissa <<< 3)
    else (BitVec.ofInt 32 (exponent + 112) <<< 23) ||| (mantissa <<< 3)

/-- `quantize_float20e4`. -/
def quantizeFloat20e4 (value : BitVec 32) (rounding : Float20e4Rounding) : BitVec 32 :=
  float20e4ToFloat32 (float32To20e4 value rounding)

/-- `std::min(depth, 1.0f)` for a float above zero. -/
def clampToOne (depth : BitVec 32) : BitVec 32 :=
  if 0x3F800000 < depth then 0x3F800000 else depth

/-- `pack_depth_stencil`. -/
def packDepthStencil (format : DepthRenderTargetFormat) (depth : BitVec 32) (stencil : BitVec 8)
    (rounding : Float20e4Rounding) : BitVec 32 :=
  let depthBits : BitVec 32 :=
    if format = .d24fs8 then float32To20e4 depth rounding
    else if Float32.positive depth then
      BitVec.ofNat 32 (Float32.divideToEven (Float32.magnitude (clampToOne depth) * 16777215)
        (2 ^ 149))
    else 0
  depthBits ||| (stencil.setWidth 32 <<< 24)

/-- `DepthStencilSample`. -/
structure DepthStencilSample where
  depth : BitVec 32
  stencil : BitVec 8
deriving DecidableEq, Repr

/-- `unpack_depth_stencil`. -/
def unpackDepthStencil (format : DepthRenderTargetFormat) (packed : BitVec 32) :
    DepthStencilSample :=
  let depthBits := packed &&& 0x00FFFFFF
  let depth :=
    if format = .d24fs8 then float20e4ToFloat32 depthBits
    else Float32.ofFraction24 (depthBits + (depthBits >>> 23)).toNat
  ⟨depth, (packed >>> 24).setWidth 8⟩

/-- `depth_stencil_to_host`. -/
def depthStencilToHost (format : DepthRenderTargetFormat) (packed : BitVec 32) :
    DepthStencilSample :=
  let result := unpackDepthStencil format packed
  if format = .d24fs8 then ⟨Float32.half result.depth, result.stencil⟩ else result

/-- `host_to_depth_stencil`. -/
def hostToDepthStencil (format : DepthRenderTargetFormat) (hostDepth : BitVec 32)
    (stencil : BitVec 8) (rounding : Float20e4Rounding) : BitVec 32 :=
  let hostDepth := if format = .d24fs8 then Float32.twice hostDepth else hostDepth
  packDepthStencil format hostDepth stencil rounding

/-- The value of a code, in units of `2 ^ -34`. -/
def codeMagnitude (code : ℕ) : ℕ :=
  if code / 2 ^ 20 = 0 then code else (2 ^ 20 + code % 2 ^ 20) * 2 ^ (code / 2 ^ 20 - 1)

/-- The value of a `20e4` code. -/
def codeValue (code : ℕ) : ℚ := (codeMagnitude code : ℚ) / (2 ^ 34 : ℕ)

example : float32To20e4 0x3F800000 .nearestEven = 0xF00000 := by decide

example : float20e4ToFloat32 0x000001 = 0x2E800000 := by decide

end Gpu
end XenonRecomp
