/-
# Rules of the memory operations

The rules of loads, stores, reservations, strings, partial vector accesses and
cache operations, in the form of `Emission.Rules`.
-/

import XenonRecomp.Emission.StateRules

namespace XenonRecomp
namespace Emission

open Cpu Ir Machine Run Lifter

variable {σ : Type} (h : Host σ) {g : DecodedInstruction} {n : ValueId} {env : Env}
  {a b c d : ValueId} {i0 i1 : BitVec 64} {x y : BitVec 64}

/-- The rule of a call of the host that declares the value it returns. -/
theorem denote_hostValue {op : Op} {t : IrType} {args : List ValueId} {vals : List Value}
    {r : Run σ Value} (hc : opClass op = .host) (ht : t ≠ .void) (hargs : args.mapM env = some vals)
    (hr : execHost h (emitted g op t (some n) args i0 i1) vals = some <$> r) :
    denote h (emit op t args i0 i1) g n env =
      r >>= fun v => if v.type = t then pure (n, n + 1, env.set n v) else exit .stuck := by
  rw [denote_emit h ht, hargs, ofOption_some, pure_bind]
  simp only [exec, emitted] at hr ⊢
  rw [hc]
  simp only [hr, map_eq_pure_bind, bind_assoc, pure_bind]

/-- The rule of a call of the host that declares nothing. -/
theorem denote_hostVoid {op : Op} {args : List ValueId} {vals : List Value} {r : Run σ Unit}
    (hc : opClass op = .host) (hargs : args.mapM env = some vals)
    (hr : execHost h (emitted g op .void none args i0 i1) vals = r >>= fun _ => pure none) :
    denote h (emitVoid op args i0 i1) g n env = r >>= fun _ => pure ((), n, env) := by
  rw [denote_emitVoid, hargs, ofOption_some, pure_bind]
  simp only [exec, emitted] at hr ⊢
  rw [hc]
  simp only [hr, bind_assoc, pure_bind]

theorem little_code (e : Endian) : decide (e.code = Endian.little.code) = decide (e = .little) := by
  cases e <;> rfl

section loads

variable (e : Endian) (ha : env a = some (.i64 x))
include ha

theorem denote_loadRaw (t : IrType) (ht : t ≠ .void) :
    denote h (loadRaw a t e) g n env =
      load h t (e = .little) (x.setWidth 32) >>= fun v =>
        if v.type = t then pure (n, n + 1, env.set n v) else exit .stuck := by
  refine denote_hostValue h rfl ht (mapM_one ha) ?_
  change some <$> load h t (decide (e.code = Endian.little.code)) (x.setWidth 32) = _
  rw [little_code]

@[simp] theorem denote_load8 :
    denote h (loadRaw a .i8 e) g n env =
      ask h (.read8 (x.setWidth 32)) >>= fun v => pure (n, n + 1, env.set n (.i8 v)) := by
  simp [denote_loadRaw h e ha, load, Value.type]

@[simp] theorem denote_load16 :
    denote h (loadRaw a .i16 e) g n env =
      ask h (.read16 (e = .little) (x.setWidth 32)) >>= fun v =>
        pure (n, n + 1, env.set n (.i16 v)) := by
  simp [denote_loadRaw h e ha, load, Value.type]

@[simp] theorem denote_load32 :
    denote h (loadRaw a .i32 e) g n env =
      ask h (.read32 (e = .little) (x.setWidth 32)) >>= fun v =>
        pure (n, n + 1, env.set n (.i32 v)) := by
  simp [denote_loadRaw h e ha, load, Value.type]

@[simp] theorem denote_load64 :
    denote h (loadRaw a .i64 e) g n env =
      ask h (.read64 (e = .little) (x.setWidth 32)) >>= fun v =>
        pure (n, n + 1, env.set n (.i64 v)) := by
  simp [denote_loadRaw h e ha, load, Value.type]

@[simp] theorem denote_load128 :
    denote h (emit .load .v128 [a] i0 i1) g n env =
      ask h (.read128 (x.setWidth 32)) >>= fun v => pure (n, n + 1, env.set n (.v128 v)) := by
  rw [denote_hostValue h rfl (by decide) (mapM_one ha)
    (r := load h .v128 (decide (i0 = Endian.little.code)) (x.setWidth 32)) rfl]
  simp [load, Value.type]

end loads

section stores

variable (e : Endian) (ha : env a = some (.i64 x))
include ha

theorem denote_storeRaw (t : IrType) {v : Value} (hb : env b = some v) :
    denote h (storeRaw a b t e) g n env =
      store h t (e = .little) (x.setWidth 32) v >>= fun _ => pure ((), n, env) := by
  refine denote_hostVoid h rfl (mapM_two ha hb) ?_
  change (store h (.ofCode t.code) (decide (e.code = Endian.little.code)) (x.setWidth 32) v >>=
    fun _ => pure none) = _
  rw [little_code, IrType.ofCode_code]

@[simp] theorem denote_store8 {v : BitVec 8} (hb : env b = some (.i8 v)) :
    denote h (storeRaw a b .i8 e) g n env =
      ask h (.write8 (x.setWidth 32) v) >>= fun _ => pure ((), n, env) := by
  have hv : (v.setWidth 64).setWidth 8 = v := by simp
  rw [denote_storeRaw h e ha _ hb]
  simp only [store, Value.u64?_i8, ofOption_some, pure_bind]
  rw [hv]

@[simp] theorem denote_store16 {v : BitVec 16} (hb : env b = some (.i16 v)) :
    denote h (storeRaw a b .i16 e) g n env =
      ask h (.write16 (e = .little) (x.setWidth 32) v) >>= fun _ => pure ((), n, env) := by
  have hv : (v.setWidth 64).setWidth 16 = v := by simp
  rw [denote_storeRaw h e ha _ hb]
  simp only [store, Value.u64?_i16, ofOption_some, pure_bind]
  rw [hv]

@[simp] theorem denote_store32 {v : BitVec 32} (hb : env b = some (.i32 v)) :
    denote h (storeRaw a b .i32 e) g n env =
      ask h (.write32 (e = .little) (x.setWidth 32) v) >>= fun _ => pure ((), n, env) := by
  have hv : (v.setWidth 64).setWidth 32 = v := by simp
  rw [denote_storeRaw h e ha _ hb]
  simp only [store, Value.u64?_i32, ofOption_some, pure_bind]
  rw [hv]

@[simp] theorem denote_store64 {v : BitVec 64} (hb : env b = some (.i64 v)) :
    denote h (storeRaw a b .i64 e) g n env =
      ask h (.write64 (e = .little) (x.setWidth 32) v) >>= fun _ => pure ((), n, env) := by
  rw [denote_storeRaw h e ha _ hb]
  simp only [store, Value.u64?_i64, ofOption_some, pure_bind]

@[simp] theorem denote_store128 {v : Vector128} (hb : env b = some (.v128 v)) :
    denote h (emitVoid .store [a, b] i0 IrType.v128.code) g n env =
      ask h (.write128 (x.setWidth 32) v) >>= fun _ => pure ((), n, env) := by
  rw [denote_hostVoid h rfl (mapM_two ha hb)
    (r := store h .v128 (decide (i0 = Endian.little.code)) (x.setWidth 32) (.v128 v)) rfl]
  simp [store]

end stores

section others

variable (ha : env a = some (.i64 x))
include ha

@[simp] theorem denote_reserveLoad32 :
    denote h (emit .reserveLoad .i32 [a] i0 i1) g n env =
      cancelHeld h >>= fun _ => ask h (.reserve32 (x.setWidth 32)) >>= fun r =>
        modifyCpu (fun s =>
          { s with reservation := reserved r.1 4 (x.setWidth 32) (r.2.setWidth 64) }) >>=
        fun _ => pure (n, n + 1, env.set n (.i32 r.2)) := by
  rw [denote_hostValue h rfl (by decide) (mapM_one ha)
    (r := reserveLoad h .i32 (x.setWidth 32)) rfl]
  simp [reserveLoad, Value.type]

@[simp] theorem denote_reserveLoad64 :
    denote h (emit .reserveLoad .i64 [a] i0 i1) g n env =
      cancelHeld h >>= fun _ => ask h (.reserve64 (x.setWidth 32)) >>= fun r =>
        modifyCpu (fun s =>
          { s with reservation := reserved r.1 8 (x.setWidth 32) r.2 }) >>=
        fun _ => pure (n, n + 1, env.set n (.i64 r.2)) := by
  rw [denote_hostValue h rfl (by decide) (mapM_one ha)
    (r := reserveLoad h .i64 (x.setWidth 32)) rfl]
  simp [reserveLoad, Value.cast_i64, Value.type]

@[simp] theorem denote_storeConditional {t : IrType} (hb : (env b).bind Value.u64? = some y) :
    denote h (emit .storeConditional .i1 [a, b] i0 t.code) g n env =
      storeConditional h (t = .i32) (x.setWidth 32) y >>= fun p =>
        pure (n, n + 1, env.set n (.i1 p)) := by
  obtain ⟨v, hv, hvy⟩ := numeric hb
  rw [denote_hostValue h rfl (by decide) (mapM_two ha hv)
    (r := storeConditional h (t = .i32) (x.setWidth 32) y >>= fun p => pure (.i1 p))]
  · simp [Value.type]
  · change (ofOption v.u64? >>= fun w => storeConditional h (IrType.ofCode t.code = .i32)
      (x.setWidth 32) w >>= fun p => some <$> ofOption (Value.castBool .i1 p)) = _
    rw [hvy, IrType.ofCode_code]
    simp only [pure_bind, map_bind, Value.castBool, if_true, ofOption_some, map_pure]

@[simp] theorem denote_stringLoad (hb : (env b).bind Value.u64? = some y) :
    denote h (emitVoid .stringLoad [a, b] i0 i1) g n env =
      Aot.stringLoad h (x.setWidth 32) (y.setWidth 32) (i0.setWidth 5) >>= fun _ =>
        pure ((), n, env) := by
  obtain ⟨v, hv, hvy⟩ := numeric hb
  refine denote_hostVoid h rfl (mapM_two ha hv) ?_
  change (ofOption v.u64? >>= fun w => Aot.stringLoad h (x.setWidth 32) (w.setWidth 32)
    (i0.setWidth 5) >>= fun _ => pure none) = _
  rw [hvy, ofOption_some, pure_bind]

@[simp] theorem denote_stringStore (hb : (env b).bind Value.u64? = some y) :
    denote h (emitVoid .stringStore [a, b] i0 i1) g n env =
      Aot.stringStore h (x.setWidth 32) (y.setWidth 32) (i0.setWidth 5) >>= fun _ =>
        pure ((), n, env) := by
  obtain ⟨v, hv, hvy⟩ := numeric hb
  refine denote_hostVoid h rfl (mapM_two ha hv) ?_
  change (ofOption v.u64? >>= fun w => Aot.stringStore h (x.setWidth 32) (w.setWidth 32)
    (i0.setWidth 5) >>= fun _ => pure none) = _
  rw [hvy, ofOption_some, pure_bind]

end others

section partials

variable {v : Vector128} (hb : env b = some (.i64 x)) (ha : env a = some (.v128 v))
include ha hb

@[simp] theorem denote_vLoadElement :
    denote h (emit .vLoadElement .v128 [a, b] i0 i1) g n env =
      Aot.vectorLoadElement h v (x.setWidth 32) i0 >>= fun w =>
        pure (n, n + 1, env.set n (.v128 w)) := by
  rw [denote_hostValue h rfl (by decide) (mapM_two ha hb)
    (r := Aot.vectorLoadElement h v (x.setWidth 32) i0 >>= fun w => pure (.v128 w))]
  · simp [Value.type]
  · simp only [map_eq_pure_bind, bind_assoc, pure_bind]
    rfl

@[simp] theorem denote_vLoadLeft :
    denote h (emit .vLoadLeft .v128 [a, b] i0 i1) g n env =
      Aot.vectorLoadLeft h (x.setWidth 32) >>= fun w =>
        pure (n, n + 1, env.set n (.v128 w)) := by
  rw [denote_hostValue h rfl (by decide) (mapM_two ha hb)
    (r := Aot.vectorLoadLeft h (x.setWidth 32) >>= fun w => pure (.v128 w))]
  · simp [Value.type]
  · simp only [map_eq_pure_bind, bind_assoc, pure_bind]
    rfl

@[simp] theorem denote_vLoadRight :
    denote h (emit .vLoadRight .v128 [a, b] i0 i1) g n env =
      Aot.vectorLoadRight h (x.setWidth 32) >>= fun w =>
        pure (n, n + 1, env.set n (.v128 w)) := by
  rw [denote_hostValue h rfl (by decide) (mapM_two ha hb)
    (r := Aot.vectorLoadRight h (x.setWidth 32) >>= fun w => pure (.v128 w))]
  · simp [Value.type]
  · simp only [map_eq_pure_bind, bind_assoc, pure_bind]
    rfl

@[simp] theorem denote_vStoreElement :
    denote h (emitVoid .vStoreElement [a, b] i0 i1) g n env =
      Aot.vectorStoreElement h v (x.setWidth 32) i0 >>= fun _ => pure ((), n, env) :=
  denote_hostVoid h rfl (mapM_two ha hb) rfl

@[simp] theorem denote_vStoreLeft :
    denote h (emitVoid .vStoreLeft [a, b] i0 i1) g n env =
      Aot.vectorStoreLeft h v (x.setWidth 32) >>= fun _ => pure ((), n, env) :=
  denote_hostVoid h rfl (mapM_two ha hb) rfl

@[simp] theorem denote_vStoreRight :
    denote h (emitVoid .vStoreRight [a, b] i0 i1) g n env =
      Aot.vectorStoreRight h v (x.setWidth 32) >>= fun _ => pure ((), n, env) :=
  denote_hostVoid h rfl (mapM_two ha hb) rfl

end partials

end Emission
end XenonRecomp
