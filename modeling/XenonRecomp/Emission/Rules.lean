/-
# Rules of the operations

One rule for each operation of the integer, system and vector lifters, at the
operand types they give it.  An operation whose helper takes 64-bit integers
accepts an operand of any integer type; its rule reads the operand as a number.
-/

import XenonRecomp.Emission.Lowering

namespace XenonRecomp
namespace Emission

open Cpu Ir Machine Run

@[simp] theorem Value.u64?_i1 (p : Bool) :
    (Value.i1 p).u64? = some ((BitVec.ofBool p).setWidth 64) := rfl
@[simp] theorem Value.u64?_i8 (x : BitVec 8) : (Value.i8 x).u64? = some (x.setWidth 64) := rfl
@[simp] theorem Value.u64?_i16 (x : BitVec 16) : (Value.i16 x).u64? = some (x.setWidth 64) := rfl
@[simp] theorem Value.u64?_i32 (x : BitVec 32) : (Value.i32 x).u64? = some (x.setWidth 64) := rfl
@[simp] theorem Value.u64?_i64 (x : BitVec 64) : (Value.i64 x).u64? = some x := rfl
@[simp] theorem Value.bool?_i1 (p : Bool) : (Value.i1 p).bool? = some p := rfl
@[simp] theorem Value.v128?_v128 (v : Vector128) : (Value.v128 v).v128? = some v := rfl

theorem Value.cast_i64 (x : BitVec 64) : Value.cast .i64 x = some (.i64 x) := by
  simp [Value.cast]

theorem Value.cast_i32 (x : BitVec 32) : Value.cast .i32 x = some (.i32 x) := by
  simp [Value.cast]

theorem Value.cast_i8 (x : BitVec 8) : Value.cast .i8 x = some (.i8 x) := by
  simp [Value.cast]

/-- A flag stored as an immediate. -/
theorem flag_ne_zero (p : Bool) : ((if p then 1#64 else 0#64) != 0#64) = p := by
  cases p <;> rfl

variable {σ : Type} (h : Host σ) {g : DecodedInstruction} {n : ValueId} {env : Env}
  {a b c d : ValueId} {i0 i1 : BitVec 64} {x y : BitVec 64} {p q r s : Bool}

section operands

variable {u v w : Value}

theorem mapM_one (ha : env a = some u) : [a].mapM env = some [u] := by simp [ha]

theorem mapM_two (ha : env a = some u) (hb : env b = some v) :
    [a, b].mapM env = some [u, v] := by simp [ha, hb]

theorem mapM_three (ha : env a = some u) (hb : env b = some v) (hc : env c = some w) :
    [a, b, c].mapM env = some [u, v, w] := by simp [ha, hb, hc]

/-- A numeric operand was declared. -/
theorem numeric (ha : (env a).bind Value.u64? = some x) :
    ∃ u, env a = some u ∧ u.u64? = some x := by
  cases hu : env a with
  | none => simp [hu] at ha
  | some u => exact ⟨u, rfl, by simpa [hu] using ha⟩

end operands

/-- The rule of a predicate of two numbers. -/
theorem denote_predicate2 {op : Op} {f : BitVec 64 → BitVec 64 → Bool} (hc : opClass op = .value)
    (hf : ∀ u v, evalPure h.float (emitted g op .i1 (some n) [a, b] i0 i1) [u, v] =
      predicate2 f .i1 u v)
    (ha : (env a).bind Value.u64? = some x) (hb : (env b).bind Value.u64? = some y) :
    denote h (emit op .i1 [a, b] i0 i1) g n env = pure (n, n + 1, env.set n (.i1 (f x y))) := by
  obtain ⟨u, hu, hux⟩ := numeric ha
  obtain ⟨v, hv, hvy⟩ := numeric hb
  refine denote_value h hc (by decide) (mapM_two hu hv) ?_ rfl
  rw [hf, predicate2, hux, hvy]
  rfl

/-- The rule of a helper of two numbers. -/
theorem denote_helper2 {op : Op} {t : IrType} {f : BitVec 64 → BitVec 64 → BitVec 64} {w : Value}
    (hc : opClass op = .value) (ht : t ≠ .void)
    (hf : ∀ u v, evalPure h.float (emitted g op t (some n) [a, b] i0 i1) [u, v] =
      helper2 f t u v)
    (hw : Value.cast t (f x y) = some w) (hwt : w.type = t)
    (ha : (env a).bind Value.u64? = some x) (hb : (env b).bind Value.u64? = some y) :
    denote h (emit op t [a, b] i0 i1) g n env = pure (n, n + 1, env.set n w) := by
  obtain ⟨u, hu, hux⟩ := numeric ha
  obtain ⟨v, hv, hvy⟩ := numeric hb
  refine denote_value h hc ht (mapM_two hu hv) ?_ hwt
  rw [hf, helper2, hux, hvy]
  exact hw

/-- The rule of a conversion of one number. -/
theorem denote_convert {op : Op} {t : IrType} {f : BitVec 64 → BitVec 64} {w : Value}
    (hc : opClass op = .value) (ht : t ≠ .void)
    (hf : ∀ u, evalPure h.float (emitted g op t (some n) [a] i0 i1) [u] =
      u.u64?.bind fun x => Value.cast t (f x))
    (hw : Value.cast t (f x) = some w) (hwt : w.type = t)
    (ha : (env a).bind Value.u64? = some x) :
    denote h (emit op t [a] i0 i1) g n env = pure (n, n + 1, env.set n w) := by
  obtain ⟨u, hu, hux⟩ := numeric ha
  refine denote_value h hc ht (mapM_one hu) ?_ hwt
  rw [hf, hux]
  exact hw

section constants

@[simp] theorem denote_constantI64 :
    denote h (constantI64 x) g n env = pure (n, n + 1, env.set n (.i64 x)) :=
  denote_value h rfl (by decide) rfl (Value.cast_i64 x) rfl

@[simp] theorem denote_constantI32 (x : BitVec 32) :
    denote h (constantI32 x) g n env = pure (n, n + 1, env.set n (.i32 x)) :=
  denote_value h rfl (by decide) rfl (by
    change Value.cast .i32 (x.setWidth 64) = some (.i32 x)
    simp [Value.cast]) rfl

@[simp] theorem denote_constantI1 :
    denote h (constantI1 p) g n env = pure (n, n + 1, env.set n (.i1 p)) :=
  denote_value h rfl (by decide) rfl (by cases p <;> rfl) rfl

end constants

section arithmetic

variable (ha : env a = some (.i64 x)) (hb : env b = some (.i64 y))
include ha hb

@[simp] theorem denote_add :
    denote h (emit .add .i64 [a, b] i0 i1) g n env = pure (n, n + 1, env.set n (.i64 (x + y))) :=
  denote_value h rfl (by decide) (mapM_two ha hb) (Value.cast_i64 (x + y)) rfl

@[simp] theorem denote_sub :
    denote h (emit .sub .i64 [a, b] i0 i1) g n env = pure (n, n + 1, env.set n (.i64 (x - y))) :=
  denote_value h rfl (by decide) (mapM_two ha hb) (Value.cast_i64 (x - y)) rfl

@[simp] theorem denote_mul :
    denote h (emit .mul .i64 [a, b] i0 i1) g n env = pure (n, n + 1, env.set n (.i64 (x * y))) :=
  denote_value h rfl (by decide) (mapM_two ha hb) (Value.cast_i64 (x * y)) rfl

@[simp] theorem denote_and :
    denote h (emit .and .i64 [a, b] i0 i1) g n env =
      pure (n, n + 1, env.set n (.i64 (x &&& y))) :=
  denote_value h rfl (by decide) (mapM_two ha hb) (Value.cast_i64 (x &&& y)) rfl

@[simp] theorem denote_or :
    denote h (emit .or .i64 [a, b] i0 i1) g n env =
      pure (n, n + 1, env.set n (.i64 (x ||| y))) :=
  denote_value h rfl (by decide) (mapM_two ha hb) (Value.cast_i64 (x ||| y)) rfl

@[simp] theorem denote_xor :
    denote h (emit .xor .i64 [a, b] i0 i1) g n env =
      pure (n, n + 1, env.set n (.i64 (x ^^^ y))) :=
  denote_value h rfl (by decide) (mapM_two ha hb) (Value.cast_i64 (x ^^^ y)) rfl

@[simp] theorem denote_shrLogical :
    denote h (emit .shrLogical .i64 [a, b] i0 i1) g n env =
      pure (n, n + 1, env.set n (.i64 (if y.toNat ≥ 64 then 0 else x >>> y.toNat))) :=
  denote_value h rfl (by decide) (mapM_two ha hb) (by
    change (if y.toNat ≥ 64 then Value.cast .i64 (0 : BitVec 64)
      else Value.cast .i64 (x >>> y.toNat)) = _
    rw [Value.cast_i64, Value.cast_i64]
    split <;> rfl) rfl

@[simp] theorem denote_compareSlt :
    denote h (emit .compareSlt .i1 [a, b] i0 i1) g n env =
      pure (n, n + 1, env.set n (.i1 (x.slt y))) :=
  denote_value h rfl (by decide) (mapM_two ha hb) rfl rfl

@[simp] theorem denote_compareSgt :
    denote h (emit .compareSgt .i1 [a, b] i0 i1) g n env =
      pure (n, n + 1, env.set n (.i1 (y.slt x))) :=
  denote_value h rfl (by decide) (mapM_two ha hb) rfl rfl

@[simp] theorem denote_addCarry (hc : env c = some (.i1 p)) :
    denote h (emit .addCarry .i64 [a, b, c] i0 i1) g n env =
      pure (n, n + 1, env.set n (.i64 (Aot.addCarry x y p))) :=
  denote_value h rfl (by decide) (mapM_three ha hb hc) (Value.cast_i64 (Aot.addCarry x y p)) rfl

@[simp] theorem denote_carryOut (hc : env c = some (.i1 p)) :
    denote h (emit .carryOut .i1 [a, b, c] i0 i1) g n env =
      pure (n, n + 1, env.set n (.i1 (Aot.carryOut x y p))) :=
  denote_value h rfl (by decide) (mapM_three ha hb hc) rfl rfl

@[simp] theorem denote_signedOverflow (hc : env c = some (.i1 p)) :
    denote h (emit .signedOverflow .i1 [a, b, c] i0 i1) g n env =
      pure (n, n + 1, env.set n (.i1 (Aot.signedAddOverflow x y p))) :=
  denote_value h rfl (by decide) (mapM_three ha hb hc) rfl rfl

end arithmetic

section words

variable {x y : BitVec 32}

@[simp] theorem denote_mul32 (ha : env a = some (.i32 x)) (hb : env b = some (.i32 y)) :
    denote h (emit .mul .i32 [a, b] i0 i1) g n env = pure (n, n + 1, env.set n (.i32 (x * y))) :=
  denote_value h rfl (by decide) (mapM_two ha hb) (Value.cast_i32 (x * y)) rfl

@[simp] theorem denote_and32 (ha : env a = some (.i32 x)) (hb : env b = some (.i32 y)) :
    denote h (emit .and .i32 [a, b] i0 i1) g n env =
      pure (n, n + 1, env.set n (.i32 (x &&& y))) :=
  denote_value h rfl (by decide) (mapM_two ha hb) (Value.cast_i32 (x &&& y)) rfl

/-- A word masked with a 64-bit constant. -/
@[simp] theorem denote_and32_wide {y : BitVec 64} (ha : env a = some (.i32 x))
    (hb : env b = some (.i64 y)) :
    denote h (emit .and .i32 [a, b] i0 i1) g n env =
      pure (n, n + 1, env.set n (.i32 (x &&& y.setWidth 32))) :=
  denote_value h rfl (by decide) (mapM_two ha hb) (by
    change Value.cast .i32 (x.setWidth 64 &&& y) = _
    simp [Value.cast, BitVec.setWidth_and]) rfl

@[simp] theorem denote_or32 (ha : env a = some (.i32 x)) (hb : env b = some (.i32 y)) :
    denote h (emit .or .i32 [a, b] i0 i1) g n env =
      pure (n, n + 1, env.set n (.i32 (x ||| y))) :=
  denote_value h rfl (by decide) (mapM_two ha hb) (Value.cast_i32 (x ||| y)) rfl

@[simp] theorem denote_compareSlt32 (ha : env a = some (.i32 x)) (hb : env b = some (.i32 y)) :
    denote h (emit .compareSlt .i1 [a, b] i0 i1) g n env =
      pure (n, n + 1, env.set n (.i1 (x.slt y))) :=
  denote_value h rfl (by decide) (mapM_two ha hb) (by
    change some (Value.i1 (((x.setWidth 64).setWidth 32).signExtend 64 |>.slt _)) = _
    simp [signed, Value.type, BitVec.slt_eq_decide, BitVec.toInt_signExtend_of_le]) rfl

@[simp] theorem denote_compareSgt32 (ha : env a = some (.i32 x)) (hb : env b = some (.i32 y)) :
    denote h (emit .compareSgt .i1 [a, b] i0 i1) g n env =
      pure (n, n + 1, env.set n (.i1 (y.slt x))) :=
  denote_value h rfl (by decide) (mapM_two ha hb) (by
    change some (Value.i1 (((y.setWidth 64).setWidth 32).signExtend 64 |>.slt _)) = _
    simp [signed, Value.type, BitVec.slt_eq_decide, BitVec.toInt_signExtend_of_le]) rfl

end words

section flags

@[simp] theorem denote_and1 (ha : env a = some (.i1 p)) (hb : env b = some (.i1 q)) :
    denote h (emit .and .i1 [a, b] i0 i1) g n env = pure (n, n + 1, env.set n (.i1 (p && q))) :=
  denote_value h rfl (by decide) (mapM_two ha hb) (by cases p <;> cases q <;> rfl) rfl

@[simp] theorem denote_or1 (ha : env a = some (.i1 p)) (hb : env b = some (.i1 q)) :
    denote h (emit .or .i1 [a, b] i0 i1) g n env = pure (n, n + 1, env.set n (.i1 (p || q))) :=
  denote_value h rfl (by decide) (mapM_two ha hb) (by cases p <;> cases q <;> rfl) rfl

@[simp] theorem denote_xor1 (ha : env a = some (.i1 p)) (hb : env b = some (.i1 q)) :
    denote h (emit .xor .i1 [a, b] i0 i1) g n env = pure (n, n + 1, env.set n (.i1 (p != q))) :=
  denote_value h rfl (by decide) (mapM_two ha hb) (by cases p <;> cases q <;> rfl) rfl

@[simp] theorem denote_not1 (ha : env a = some (.i1 p)) :
    denote h (emit .not .i1 [a] i0 i1) g n env = pure (n, n + 1, env.set n (.i1 (!p))) :=
  denote_value h rfl (by decide) (mapM_one ha) rfl rfl

end flags

section conversions

@[simp] theorem denote_not (ha : env a = some (.i64 x)) :
    denote h (emit .not .i64 [a] i0 i1) g n env = pure (n, n + 1, env.set n (.i64 (~~~x))) :=
  denote_value h rfl (by decide) (mapM_one ha) (Value.cast_i64 (~~~x)) rfl

@[simp] theorem denote_neg (ha : env a = some (.i64 x)) :
    denote h (emit .neg .i64 [a] i0 i1) g n env = pure (n, n + 1, env.set n (.i64 (0 - x))) :=
  denote_value h rfl (by decide) (mapM_one ha) (Value.cast_i64 (0 - x)) rfl

@[simp] theorem denote_addImmediate (ha : env a = some (.i64 x)) :
    denote h (emit .addImmediate .i64 [a] i0 i1) g n env =
      pure (n, n + 1, env.set n (.i64 (x + i0))) :=
  denote_value h rfl (by decide) (mapM_one ha) (Value.cast_i64 (x + i0)) rfl

@[simp] theorem denote_truncate32 (ha : (env a).bind Value.u64? = some x) :
    denote h (emit .truncate .i32 [a] i0 i1) g n env =
      pure (n, n + 1, env.set n (.i32 (x.setWidth 32))) :=
  denote_convert h rfl (by decide) (fun _ => rfl) rfl rfl ha

@[simp] theorem denote_truncate16 (ha : (env a).bind Value.u64? = some x) :
    denote h (emit .truncate .i16 [a] i0 i1) g n env =
      pure (n, n + 1, env.set n (.i16 (x.setWidth 16))) :=
  denote_convert h rfl (by decide) (fun _ => rfl) rfl rfl ha

@[simp] theorem denote_truncate8 (ha : (env a).bind Value.u64? = some x) :
    denote h (emit .truncate .i8 [a] i0 i1) g n env =
      pure (n, n + 1, env.set n (.i8 (x.setWidth 8))) :=
  denote_convert h rfl (by decide) (fun _ => rfl) rfl rfl ha

@[simp] theorem denote_zeroExtend (ha : (env a).bind Value.u64? = some x) :
    denote h (emit .zeroExtend .i64 [a] i0 i1) g n env = pure (n, n + 1, env.set n (.i64 x)) :=
  denote_convert h rfl (by decide) (fun _ => rfl) (Value.cast_i64 x) rfl ha

@[simp] theorem denote_signExtend32 {x : BitVec 32} (ha : env a = some (.i32 x)) :
    denote h (emit .signExtend .i64 [a] i0 i1) g n env =
      pure (n, n + 1, env.set n (.i64 (x.signExtend 64))) :=
  denote_value h rfl (by decide) (mapM_one ha) (by
    change Value.cast .i64 (((x.setWidth 64).setWidth 32).signExtend 64) = _
    simp [Value.cast]) rfl

@[simp] theorem denote_signExtend16 {x : BitVec 16} (ha : env a = some (.i16 x)) :
    denote h (emit .signExtend .i64 [a] i0 i1) g n env =
      pure (n, n + 1, env.set n (.i64 (x.signExtend 64))) :=
  denote_value h rfl (by decide) (mapM_one ha) (by
    change Value.cast .i64 (((x.setWidth 64).setWidth 16).signExtend 64) = _
    simp [Value.cast]) rfl

@[simp] theorem denote_signExtend8 {x : BitVec 8} (ha : env a = some (.i8 x)) :
    denote h (emit .signExtend .i64 [a] i0 i1) g n env =
      pure (n, n + 1, env.set n (.i64 (x.signExtend 64))) :=
  denote_value h rfl (by decide) (mapM_one ha) (by
    change Value.cast .i64 (((x.setWidth 64).setWidth 8).signExtend 64) = _
    simp [Value.cast]) rfl

@[simp] theorem denote_countLeadingZeros (ha : (env a).bind Value.u64? = some x) :
    denote h (emit .countLeadingZeros .i64 [a] i0 i1) g n env =
      pure (n, n + 1, env.set n (.i64 x.clz)) :=
  denote_convert h rfl (by decide) (fun _ => rfl) (Value.cast_i64 x.clz) rfl ha

@[simp] theorem denote_countLeadingZeros32 (ha : (env a).bind Value.u64? = some x) :
    denote h (emit .countLeadingZeros .i32 [a] i0 i1) g n env =
      pure (n, n + 1, env.set n (.i32 (x.setWidth 32).clz)) :=
  denote_convert h rfl (by decide) (fun _ => rfl)
    (by
      change Value.cast .i32 ((x.setWidth 32).clz.setWidth 64) = _
      simp [Value.cast]) rfl ha

end conversions

section numbers

variable (ha : (env a).bind Value.u64? = some x) (hb : (env b).bind Value.u64? = some y)
include ha hb

@[simp] theorem denote_compareEq :
    denote h (emit .compareEq .i1 [a, b] i0 i1) g n env =
      pure (n, n + 1, env.set n (.i1 (x == y))) :=
  denote_predicate2 h rfl (fun _ _ => rfl) ha hb

@[simp] theorem denote_compareNe :
    denote h (emit .compareNe .i1 [a, b] i0 i1) g n env =
      pure (n, n + 1, env.set n (.i1 (x != y))) :=
  denote_predicate2 h rfl (fun _ _ => rfl) ha hb

@[simp] theorem denote_compareUlt :
    denote h (emit .compareUlt .i1 [a, b] i0 i1) g n env =
      pure (n, n + 1, env.set n (.i1 (x.ult y))) :=
  denote_predicate2 (f := fun x y => x.ult y) h rfl (fun _ _ => rfl) ha hb

@[simp] theorem denote_compareUgt :
    denote h (emit .compareUgt .i1 [a, b] i0 i1) g n env =
      pure (n, n + 1, env.set n (.i1 (y.ult x))) :=
  denote_predicate2 (f := fun x y => y.ult x) h rfl (fun _ _ => rfl) ha hb

@[simp] theorem denote_mulOverflowSigned :
    denote h (emit .mulOverflowSigned .i1 [a, b] i0 i1) g n env =
      pure (n, n + 1, env.set n (.i1 (Aot.mulOverflowSigned x y (i0 == 32)))) :=
  denote_predicate2 (f := (Aot.mulOverflowSigned · · (i0 == 32))) h rfl (fun _ _ => rfl) ha hb

@[simp] theorem denote_divOverflow :
    denote h (emit .divOverflow .i1 [a, b] i0 i1) g n env =
      pure (n, n + 1, env.set n (.i1 (Aot.divOverflow x y (i0 == 32) (i1 != 0)))) :=
  denote_predicate2 (f := (Aot.divOverflow · · (i0 == 32) (i1 != 0))) h rfl (fun _ _ => rfl)
    ha hb

@[simp] theorem denote_ppcShiftCarry :
    denote h (emit .ppcShiftCarry .i1 [a, b] i0 i1) g n env =
      pure (n, n + 1, env.set n (.i1 (Aot.ppcShiftCarry g.mnemonic x y))) :=
  denote_predicate2 (f := Aot.ppcShiftCarry g.mnemonic) h rfl (fun _ _ => rfl) ha hb

@[simp] theorem denote_ppcShift :
    denote h (emit .ppcShift .i64 [a, b] i0 i1) g n env =
      pure (n, n + 1, env.set n (.i64 (Aot.ppcShift g.mnemonic x y))) :=
  denote_helper2 (f := Aot.ppcShift g.mnemonic) h rfl (by decide) (fun _ _ => rfl)
    (Value.cast_i64 _) rfl ha hb

@[simp] theorem denote_rotl :
    denote h (emit .rotl .i64 [a, b] i0 i1) g n env =
      pure (n, n + 1, env.set n (.i64 (rotateLeft64 x (y.setWidth 32)))) :=
  denote_helper2 (f := rotateLeft .i64) h rfl (by decide) (fun _ _ => rfl)
    (Value.cast_i64 _) rfl ha hb

@[simp] theorem denote_rotl32 :
    denote h (emit .rotl .i32 [a, b] i0 i1) g n env =
      pure (n, n + 1, env.set n (.i32 (rotateLeft32 (x.setWidth 32) (y.setWidth 32)))) :=
  denote_helper2 (f := rotateLeft .i32) h rfl (by decide) (fun _ _ => rfl)
    (by simp [rotateLeft, bits, Value.cast]) rfl ha hb

@[simp] theorem denote_mulHighSigned :
    denote h (emit .mulHighSigned .i64 [a, b] i0 i1) g n env =
      pure (n, n + 1, env.set n (.i64 (Aot.mulHiSignedWidth x y false))) :=
  denote_helper2 (f := (Aot.mulHiSignedWidth · · false)) h rfl (by decide) (fun _ _ => rfl)
    (Value.cast_i64 _) rfl ha hb

@[simp] theorem denote_mulHighUnsigned :
    denote h (emit .mulHighUnsigned .i64 [a, b] i0 i1) g n env =
      pure (n, n + 1, env.set n (.i64 (Aot.mulHiUnsignedWidth x y false))) :=
  denote_helper2 (f := (Aot.mulHiUnsignedWidth · · false)) h rfl (by decide) (fun _ _ => rfl)
    (Value.cast_i64 _) rfl ha hb

@[simp] theorem denote_mulHighSigned32 :
    denote h (emit .mulHighSigned .i32 [a, b] i0 i1) g n env =
      pure (n, n + 1, env.set n (.i32 ((Aot.mulHiSignedWidth x y true).setWidth 32))) :=
  denote_helper2 (f := (Aot.mulHiSignedWidth · · true)) h rfl (by decide) (fun _ _ => rfl)
    rfl rfl ha hb

@[simp] theorem denote_mulHighUnsigned32 :
    denote h (emit .mulHighUnsigned .i32 [a, b] i0 i1) g n env =
      pure (n, n + 1, env.set n (.i32 ((Aot.mulHiUnsignedWidth x y true).setWidth 32))) :=
  denote_helper2 (f := (Aot.mulHiUnsignedWidth · · true)) h rfl (by decide) (fun _ _ => rfl)
    rfl rfl ha hb

@[simp] theorem denote_divSigned :
    denote h (emit .divSigned .i64 [a, b] i0 i1) g n env =
      pure (n, n + 1, env.set n (.i64 (Aot.divSigned x y (i0 == 32)))) :=
  denote_helper2 (f := (Aot.divSigned · · (i0 == 32))) h rfl (by decide) (fun _ _ => rfl)
    (Value.cast_i64 _) rfl ha hb

@[simp] theorem denote_divUnsigned :
    denote h (emit .divUnsigned .i64 [a, b] i0 i1) g n env =
      pure (n, n + 1, env.set n (.i64 (Aot.divUnsigned x y (i0 == 32)))) :=
  denote_helper2 (f := (Aot.divUnsigned · · (i0 == 32))) h rfl (by decide) (fun _ _ => rfl)
    (Value.cast_i64 _) rfl ha hb

@[simp] theorem denote_divSigned32 :
    denote h (emit .divSigned .i32 [a, b] i0 i1) g n env =
      pure (n, n + 1, env.set n (.i32 ((Aot.divSigned x y (i0 == 32)).setWidth 32))) :=
  denote_helper2 (f := (Aot.divSigned · · (i0 == 32))) h rfl (by decide) (fun _ _ => rfl)
    rfl rfl ha hb

@[simp] theorem denote_divUnsigned32 :
    denote h (emit .divUnsigned .i32 [a, b] i0 i1) g n env =
      pure (n, n + 1, env.set n (.i32 ((Aot.divUnsigned x y (i0 == 32)).setWidth 32))) :=
  denote_helper2 (f := (Aot.divUnsigned · · (i0 == 32))) h rfl (by decide) (fun _ _ => rfl)
    rfl rfl ha hb

end numbers

end Emission
end XenonRecomp
