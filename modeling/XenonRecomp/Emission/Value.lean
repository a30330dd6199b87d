/-
# The value operations of emitted code

`emit_one` of `src/cpu/codegen/emission/instruction_emission.cpp` turns each IR
operation into a C++ statement.  A `Value` is what the variable declared by such
a statement holds, with its declared type as the tag; `evalPure` computes the
operations that have no effect, which are functions of their operands.

The operands are C++ unsigned integers, so an operator on two of them works at
the wider of the two widths and its result is converted to the declared type.
Operand types that make no sense for an operation have no value.
-/

import XenonRecomp.Ir.Basic
import XenonRecomp.Aot.Scalar
import XenonRecomp.Aot.Lanes

namespace XenonRecomp
namespace Emission

open Cpu Ir Machine

/-- The value of a declared variable; floating-point values are bit patterns. -/
inductive Value where
  | i1 (b : Bool)
  | i8 (v : BitVec 8)
  | i16 (v : BitVec 16)
  | i32 (v : BitVec 32)
  | i64 (v : BitVec 64)
  | f32 (v : BitVec 32)
  | f64 (v : BitVec 64)
  | v128 (v : Vector128)
deriving DecidableEq

namespace Value

/-- The declared type of the variable. -/
def type : Value → IrType
  | .i1 _ => .i1
  | .i8 _ => .i8
  | .i16 _ => .i16
  | .i32 _ => .i32
  | .i64 _ => .i64
  | .f32 _ => .f32
  | .f64 _ => .f64
  | .v128 _ => .v128

/-- An integer converted to `std::uint64_t`. -/
def u64? : Value → Option (BitVec 64)
  | .i1 b => some ((BitVec.ofBool b).setWidth 64)
  | .i8 v => some (v.setWidth 64)
  | .i16 v => some (v.setWidth 64)
  | .i32 v => some (v.setWidth 64)
  | .i64 v => some v
  | _ => none

/-- An integer in a boolean context. -/
def bool? : Value → Option Bool
  | .i1 b => some b
  | v => v.u64?.map (· != 0)

/-- A vector. -/
def v128? : Value → Option Vector128
  | .v128 v => some v
  | _ => none

/-- `static_cast` of an unsigned integer to an integer type. -/
def cast (t : IrType) {w : ℕ} (x : BitVec w) : Option Value :=
  match t with
  | .i1 => some (.i1 (x != 0))
  | .i8 => some (.i8 (x.setWidth 8))
  | .i16 => some (.i16 (x.setWidth 16))
  | .i32 => some (.i32 (x.setWidth 32))
  | .i64 => some (.i64 (x.setWidth 64))
  | _ => none

/-- A `bool` converted to the declared type. -/
def castBool (t : IrType) (b : Bool) : Option Value :=
  if t = .i1 then some (.i1 b) else cast t ((BitVec.ofBool b).setWidth 64)

end Value

/-- `bits`: the width of a type, 64 for the types that are not narrow integers. -/
def bits : IrType → ℕ
  | .i1 => 1
  | .i8 => 8
  | .i16 => 16
  | .i32 => 32
  | _ => 64

/-- An infix operator at the width the usual arithmetic conversions give. -/
def binary (f : (w : ℕ) → BitVec w → BitVec w → BitVec w) (t : IrType) (a b : Value) :
    Option Value :=
  match a, b with
  | .i1 x, .i1 y =>
      Value.cast t (f 32 ((BitVec.ofBool x).setWidth 32) ((BitVec.ofBool y).setWidth 32))
  | .i32 x, .i32 y => Value.cast t (f 32 x y)
  | .i32 x, .i64 y => Value.cast t (f 64 (x.setWidth 64) y)
  | .i64 x, .i32 y => Value.cast t (f 64 x (y.setWidth 64))
  | .i64 x, .i64 y => Value.cast t (f 64 x y)
  | _, _ => none

/-- A helper of two 64-bit operands. -/
def helper2 (f : BitVec 64 → BitVec 64 → BitVec 64) (t : IrType) (a b : Value) : Option Value := do
  let x ← a.u64?
  let y ← b.u64?
  Value.cast t (f x y)

/-- A predicate of two 64-bit operands. -/
def predicate2 (f : BitVec 64 → BitVec 64 → Bool) (t : IrType) (a b : Value) : Option Value := do
  let x ← a.u64?
  let y ← b.u64?
  Value.castBool t (f x y)

/-- A helper of two 64-bit operands and a carry. -/
def helper3 (f : BitVec 64 → BitVec 64 → Bool → Option Value) (a b c : Value) : Option Value := do
  let x ← a.u64?
  let y ← b.u64?
  let z ← c.bool?
  f x y z

/-- `signed_type`: a value read as a signed integer of the width of a type. -/
def signed (t : IrType) (x : BitVec 64) : BitVec 64 :=
  match t with
  | .i8 => (x.setWidth 8).signExtend 64
  | .i16 => (x.setWidth 16).signExtend 64
  | .i32 => (x.setWidth 32).signExtend 64
  | _ => x

/-- A signed comparison, both sides at the type of the first. -/
def compareSigned (f : BitVec 64 → BitVec 64 → Bool) (t : IrType) (a b : Value) : Option Value :=
  predicate2 (fun x y => f (signed a.type x) (signed a.type y)) t a b

/-- A shift: zero, or the sign, when the count reaches the width of the type. -/
def shift (t : IrType) (full : BitVec 64 → BitVec 64) (f : (w : ℕ) → BitVec w → ℕ → BitVec w)
    (a b : Value) : Option Value := do
  let n ← b.u64?
  match a with
  | .i32 x =>
      if n.toNat ≥ bits t then Value.cast t (full (x.setWidth 64))
      else Value.cast t (f 32 x n.toNat)
  | .i64 x => if n.toNat ≥ bits t then Value.cast t (full x) else Value.cast t (f 64 x n.toNat)
  | _ => none

/-- The literal of a `Constant`. -/
def constantValue (t : IrType) (imm0 : BitVec 64) : Option Value :=
  match t with
  | .i1 => some (.i1 (imm0 != 0))
  | .f32 => some (.f32 (imm0.setWidth 32))
  | .f64 => some (.f64 imm0)
  | t => Value.cast t imm0

/-- `std::countl_zero` at the width of the type. -/
def countLeadingZeros (t : IrType) (x : BitVec 64) : BitVec 64 :=
  if bits t = 32 then (x.setWidth 32).clz.setWidth 64 else x.clz

/-- `Rotl` at the width of the type. -/
def rotateLeft (t : IrType) (x n : BitVec 64) : BitVec 64 :=
  if bits t = 32 then (rotateLeft32 (x.setWidth 32) (n.setWidth 32)).setWidth 64
  else rotateLeft64 x (n.setWidth 32)

/-- `Bitcast` between a floating-point type and the integer of its width. -/
def bitcast (t : IrType) (a : Value) : Option Value :=
  match t, a with
  | .f32, a => a.u64?.map fun x => .f32 (x.setWidth 32)
  | .f64, a => a.u64?.map .f64
  | .i32, .f32 x => some (.i32 x)
  | .i64, .f64 x => some (.i64 x)
  | _, _ => none

/-- `Select`; both arms have the declared type. -/
def select (t : IrType) (c a b : Value) : Option Value := do
  let p ← c.bool?
  let r := if p then a else b
  if a.type = t ∧ b.type = t then some r else none

/-- The value of an operation without effects. -/
def evalPure (float : FloatOps) (i : Instruction) (vals : List Value) : Option Value :=
  let t := i.type
  match i.op, vals with
  | .constant, [] => constantValue t i.imm0
  | .add, [a, b] => binary (fun _ x y => x + y) t a b
  | .sub, [a, b] => binary (fun _ x y => x - y) t a b
  | .mul, [a, b] => binary (fun _ x y => x * y) t a b
  | .and, [a, b] => binary (fun _ x y => x &&& y) t a b
  | .or, [a, b] => binary (fun _ x y => x ||| y) t a b
  | .xor, [a, b] => binary (fun _ x y => x ^^^ y) t a b
  | .addImmediate, [a] => a.u64?.bind fun x => Value.cast t (x + i.imm0)
  | .not, [a] =>
      if t = .i1 then a.bool?.map fun x => .i1 (!x)
      else a.u64?.bind fun x => Value.cast t (~~~x)
  | .neg, [a] => a.u64?.bind fun x => Value.cast t (0 - x)
  | .addCarry, [a, b, c] => helper3 (fun x y z => Value.cast t (Aot.addCarry x y z)) a b c
  | .carryOut, [a, b, c] => helper3 (fun x y z => Value.castBool t (Aot.carryOut x y z)) a b c
  | .signedOverflow, [a, b, c] =>
      helper3 (fun x y z => Value.castBool t (Aot.signedAddOverflow x y z)) a b c
  | .mulHighSigned, [a, b] => helper2 (Aot.mulHiSignedWidth · · (bits t == 32)) t a b
  | .mulHighUnsigned, [a, b] => helper2 (Aot.mulHiUnsignedWidth · · (bits t == 32)) t a b
  | .mulOverflowSigned, [a, b] => predicate2 (Aot.mulOverflowSigned · · (i.imm0 == 32)) t a b
  | .divSigned, [a, b] => helper2 (Aot.divSigned · · (i.imm0 == 32)) t a b
  | .divUnsigned, [a, b] => helper2 (Aot.divUnsigned · · (i.imm0 == 32)) t a b
  | .divOverflow, [a, b] =>
      predicate2 (Aot.divOverflow · · (i.imm0 == 32) (i.imm1 != 0)) t a b
  | .countLeadingZeros, [a] => a.u64?.bind fun x => Value.cast t (countLeadingZeros t x)
  | .ppcShift, [a, b] => helper2 (Aot.ppcShift i.guestMnemonic) t a b
  | .ppcShiftCarry, [a, b] => predicate2 (Aot.ppcShiftCarry i.guestMnemonic) t a b
  | .shl, [a, b] => shift t (fun _ => 0) (fun _ x n => x <<< n) a b
  | .shrLogical, [a, b] => shift t (fun _ => 0) (fun _ x n => x >>> n) a b
  | .shrArithmetic, [a, b] =>
      shift t (fun x => if (signed t x).slt 0 then -1 else 0)
        (fun w x n => ((signed t (x.setWidth 64)).sshiftRight n).setWidth w) a b
  | .rotl, [a, b] => helper2 (rotateLeft t) t a b
  | .signExtend, [a] => a.u64?.bind fun x => Value.cast t (signed a.type x)
  | .zeroExtend, [a] => a.u64?.bind fun x => Value.cast t x
  | .truncate, [a] => a.u64?.bind fun x => Value.cast t x
  | .moveFPSCRToFPRBits, [a] => a.u64?.bind fun x => Value.cast t x
  | .bitcast, [a] => bitcast t a
  | .fPromote, [.f32 x] => some (.f64 (float.promote x))
  | .fTruncate, [.f64 x] => some (.f32 (float.truncate x))
  | .compareEq, [a, b] => predicate2 (· == ·) t a b
  | .compareNe, [a, b] => predicate2 (· != ·) t a b
  | .compareSlt, [a, b] => compareSigned (fun x y => x.slt y) t a b
  | .compareSgt, [a, b] => compareSigned (fun x y => y.slt x) t a b
  | .compareUlt, [a, b] => predicate2 (fun x y => x.ult y) t a b
  | .compareUgt, [a, b] => predicate2 (fun x y => y.ult x) t a b
  | .select, [c, a, b] => select t c a b
  | .fAbs, [.f64 x] => some (.f64 (Aot.fpAbsBits x))
  | .fNeg, [.f64 x] => some (.f64 (Aot.fpNegBits x))
  | .fSelect, [.f64 c, .f64 x, .f64 y] => some (.f64 (Aot.fpSelect c x y))
  | .fCompare, [.f64 x, .f64 y] => Value.cast t (float.compareField x y)
  | .vMakeLoadShiftLeft, [a, b] => do
      let x ← a.u64?
      let y ← b.u64?
      some (.v128 (Aot.vectorLoadShiftLeft (x + y)))
  | .vMakeLoadShiftRight, [a, b] => do
      let x ← a.u64?
      let y ← b.u64?
      some (.v128 (Aot.vectorLoadShiftRight (x + y)))
  | _, _ => none

end Emission
end XenonRecomp
