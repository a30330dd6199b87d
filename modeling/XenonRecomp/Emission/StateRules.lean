/-
# Rules of the state and host operations

The rules of the operations that read or write the processor state, compute on
vectors or call the host, in the form of `Emission.Rules`.
-/

import XenonRecomp.Emission.Rules

namespace XenonRecomp
namespace Emission

open Cpu Ir Machine Run

variable {σ : Type} (h : Host σ) {g : DecodedInstruction} {n : ValueId} {env : Env}
  {a b c d : ValueId} {i0 i1 : BitVec 64} {x y : BitVec 64} {p q r s : Bool}

section reads

@[simp] theorem denote_readGpr (reg : BitVec 5) :
    denote h (readGpr reg) g n env =
      getCpu >>= fun s => pure (n, n + 1, env.set n (.i64 (s.gpr reg))) :=
  denote_read h rfl (by decide) (fun s => by
    change Value.cast .i64 (s.gpr ((reg.setWidth 64).setWidth 5)) = _
    simp [Value.cast]) fun _ => rfl

@[simp] theorem denote_readVector (reg : BitVec 7) :
    denote h (readVector reg) g n env =
      getCpu >>= fun s => pure (n, n + 1, env.set n (.v128 (s.vr reg))) :=
  denote_read h rfl (by decide) (fun s => by
    change some (Value.v128 (s.vr ((reg.setWidth 64).setWidth 7))) = _
    simp) fun _ => rfl

@[simp] theorem denote_readCR :
    denote h (emit .readCR .i32 [] i0 i1) g n env =
      getCpu >>= fun s => pure (n, n + 1, env.set n (.i32 s.cr)) :=
  denote_read h rfl (by decide) (fun s => Value.cast_i32 s.cr) fun _ => rfl

@[simp] theorem denote_readCRBit :
    denote h (emit .readCRBit .i1 [] i0 i1) g n env =
      getCpu >>= fun s => pure (n, n + 1, env.set n (.i1 (s.crBit i0.toNat))) :=
  denote_read h rfl (by decide) (fun _ => rfl) fun _ => rfl

@[simp] theorem denote_readCRField :
    denote h (emit .readCRField .i8 [] i0 i1) g n env =
      getCpu >>= fun s => pure (n, n + 1, env.set n (.i8 (s.crField i0.toNat))) :=
  denote_read h rfl (by decide) (fun _ => Value.cast_i8 _) fun _ => rfl

@[simp] theorem denote_readXER :
    denote h (emit .readXER .i32 [] i0 i1) g n env =
      getCpu >>= fun s => pure (n, n + 1, env.set n (.i32 s.xer)) :=
  denote_read h rfl (by decide) (fun s => Value.cast_i32 s.xer) fun _ => rfl

@[simp] theorem denote_readXerCA :
    denote h (emit .readXerCA .i1 [] i0 i1) g n env =
      getCpu >>= fun s => pure (n, n + 1, env.set n (.i1 s.xerCa)) :=
  denote_read h rfl (by decide) (fun _ => rfl) fun _ => rfl

@[simp] theorem denote_readXerSO :
    denote h (emit .readXerSO .i1 [] i0 i1) g n env =
      getCpu >>= fun s => pure (n, n + 1, env.set n (.i1 s.xerSo)) :=
  denote_read h rfl (by decide) (fun _ => rfl) fun _ => rfl

@[simp] theorem denote_readLr :
    denote h readLr g n env = getCpu >>= fun s => pure (n, n + 1, env.set n (.i64 s.lr)) :=
  denote_read h rfl (by decide) (fun s => Value.cast_i64 s.lr) fun _ => rfl

@[simp] theorem denote_readCtr :
    denote h readCtr g n env = getCpu >>= fun s => pure (n, n + 1, env.set n (.i64 s.ctr)) :=
  denote_read h rfl (by decide) (fun s => Value.cast_i64 s.ctr) fun _ => rfl

@[simp] theorem denote_readMSR :
    denote h (emit .readMSR .i64 [] i0 i1) g n env =
      getCpu >>= fun s => pure (n, n + 1, env.set n (.i64 s.msr)) :=
  denote_read h rfl (by decide) (fun s => Value.cast_i64 s.msr) fun _ => rfl

@[simp] theorem denote_readVRSAVE :
    denote h (emit .readVRSAVE .i32 [] i0 i1) g n env =
      getCpu >>= fun s => pure (n, n + 1, env.set n (.i32 s.vrsave)) :=
  denote_read h rfl (by decide) (fun s => Value.cast_i32 s.vrsave) fun _ => rfl

@[simp] theorem denote_readPVR :
    denote h (emit .readPVR .i32 [] i0 i1) g n env =
      getCpu >>= fun s => pure (n, n + 1, env.set n (.i32 s.pvr)) :=
  denote_read h rfl (by decide) (fun s => Value.cast_i32 s.pvr) fun _ => rfl

@[simp] theorem denote_moveVSCRToVector :
    denote h (emit .moveVSCRToVector .v128 [] i0 i1) g n env =
      getCpu >>= fun s =>
        pure (n, n + 1, env.set n (.v128 (Vector128.zero.setU32Be 3 s.vscr))) :=
  denote_read h rfl (by decide) (fun _ => rfl) fun _ => rfl

end reads

section writes

@[simp] theorem denote_writeGpr (reg : BitVec 5) (ha : env a = some (.i64 x)) :
    denote h (writeGpr reg a) g n env =
      modifyCpu (·.setGpr reg x) >>= fun _ => pure ((), n, env) :=
  denote_write h rfl (mapM_one ha) fun s => by
    change some (s.setGpr ((reg.setWidth 64).setWidth 5) x) = _
    simp

@[simp] theorem denote_writeVector (reg : BitVec 7) {v : Vector128}
    (ha : env a = some (.v128 v)) :
    denote h (writeVector reg a) g n env =
      modifyCpu (·.setVr reg v) >>= fun _ => pure ((), n, env) :=
  denote_write h rfl (mapM_one ha) fun s => by
    change some (s.setVr ((reg.setWidth 64).setWidth 7) v) = _
    simp

@[simp] theorem denote_writeCRBit (ha : env a = some (.i1 p)) :
    denote h (emitVoid .writeCRBit [a] i0 i1) g n env =
      modifyCpu (·.setCrBit i0.toNat p) >>= fun _ => pure ((), n, env) :=
  denote_write h rfl (mapM_one ha) fun _ => rfl

@[simp] theorem denote_writeCRField {v : BitVec 8} (ha : env a = some (.i8 v)) :
    denote h (emitVoid .writeCRField [a] i0 i1) g n env =
      modifyCpu (·.setCrField i0.toNat v) >>= fun _ => pure ((), n, env) :=
  denote_write h rfl (mapM_one ha) fun s => by
    change some (s.setCrField i0.toNat ((v.setWidth 64).setWidth 8)) = _
    simp

@[simp] theorem denote_writeCRCompare (ha : env a = some (.i1 p)) (hb : env b = some (.i1 q))
    (hc : env c = some (.i1 r)) (hd : env d = some (.i1 s)) :
    denote h (emitVoid .writeCRCompare [a, b, c, d] i0 i1) g n env =
      modifyCpu (·.setCrField i0.toNat (compareNibble p q r s)) >>= fun _ => pure ((), n, env) :=
  have hargs : [a, b, c, d].mapM env = some [.i1 p, .i1 q, .i1 r, .i1 s] := by
    simp [ha, hb, hc, hd]
  denote_write h rfl hargs fun _ => rfl

@[simp] theorem denote_moveCRFields (ha : env a = some (.i64 x)) :
    denote h (emitVoid .moveCRFields [a] i0 i1) g n env =
      modifyCpu (moveCrFields · i0 (x.setWidth 32)) >>= fun _ => pure ((), n, env) :=
  denote_write h rfl (mapM_one ha) fun _ => rfl

@[simp] theorem denote_moveXERToCR :
    denote h (emitVoid .moveXERToCR [] i0 i1) g n env =
      modifyCpu (moveXerToCr · i0.toNat) >>= fun _ => pure ((), n, env) :=
  denote_write h rfl rfl fun _ => rfl

@[simp] theorem denote_writeXER {v : BitVec 32} (ha : env a = some (.i32 v)) :
    denote h (emitVoid .writeXER [a] i0 i1) g n env =
      modifyCpu (fun s => { s with xer := v }) >>= fun _ => pure ((), n, env) :=
  denote_write h rfl (mapM_one ha) fun s => by
    change some { s with xer := (v.setWidth 64).setWidth 32 } = _
    simp

@[simp] theorem denote_writeVRSAVE {v : BitVec 32} (ha : env a = some (.i32 v)) :
    denote h (emitVoid .writeVRSAVE [a] i0 i1) g n env =
      modifyCpu (fun s => { s with vrsave := v }) >>= fun _ => pure ((), n, env) :=
  denote_write h rfl (mapM_one ha) fun s => by
    change some { s with vrsave := (v.setWidth 64).setWidth 32 } = _
    simp

@[simp] theorem denote_setXerCA (ha : env a = some (.i1 p)) :
    denote h (emitVoid .setXerCA [a] i0 i1) g n env =
      modifyCpu (·.setXerCa p) >>= fun _ => pure ((), n, env) :=
  denote_write h rfl (mapM_one ha) fun _ => rfl

@[simp] theorem denote_setXerOV (ha : env a = some (.i1 p)) :
    denote h (emitVoid .setXerOV [a] i0 i1) g n env =
      modifyCpu (·.setXerOv p) >>= fun _ => pure ((), n, env) :=
  denote_write h rfl (mapM_one ha) fun _ => rfl

@[simp] theorem denote_setXerSO (ha : env a = some (.i1 p)) :
    denote h (emitVoid .setXerSO [a] i0 i1) g n env =
      modifyCpu (·.setXerSo p) >>= fun _ => pure ((), n, env) :=
  denote_write h rfl (mapM_one ha) fun _ => rfl

@[simp] theorem denote_writeLr (ha : env a = some (.i64 x)) :
    denote h (writeLr a) g n env =
      modifyCpu (fun s => { s with lr := x }) >>= fun _ => pure ((), n, env) :=
  denote_write h rfl (mapM_one ha) fun _ => rfl

@[simp] theorem denote_writeCtr (ha : env a = some (.i64 x)) :
    denote h (writeCtr a) g n env =
      modifyCpu (fun s => { s with ctr := x }) >>= fun _ => pure ((), n, env) :=
  denote_write h rfl (mapM_one ha) fun _ => rfl

@[simp] theorem denote_writeMSR (ha : env a = some (.i64 x)) :
    denote h (emitVoid .writeMSR [a] i0 i1) g n env =
      modifyCpu (Aot.writeMsr · x (i0 != 0) (i1 != 0)) >>= fun _ => pure ((), n, env) :=
  denote_write h rfl (mapM_one ha) fun _ => rfl

@[simp] theorem denote_moveVectorToVSCR {v : Vector128} (ha : env a = some (.v128 v)) :
    denote h (emitVoid .moveVectorToVSCR [a] i0 i1) g n env =
      modifyCpu (fun s => { s with vscr := v.u32Be 3 }) >>= fun _ => pure ((), n, env) :=
  denote_write h rfl (mapM_one ha) fun _ => rfl

@[simp] theorem denote_vUpdateCR6 {v : Vector128} (ha : env a = some (.v128 v)) :
    denote h (emitVoid .vUpdateCR6 [a] i0 i1) g n env =
      modifyCpu (Aot.updateCr6FromVectorCompare · v) >>= fun _ => pure ((), n, env) :=
  denote_write h rfl (mapM_one ha) fun _ => rfl

end writes

section special

@[simp] theorem denote_readTimeBase :
    denote h (emit .readTimeBase .i64 [] i0 i1) g n env =
      getCpu >>= fun s => ask h (.readTimeBase s) >>= fun x =>
        pure (n, n + 1, env.set n (.i64 x)) := by
  rw [denote_host h rfl (by decide) rfl (x := getCpu >>= fun s => ask h (.readTimeBase s))
    (v := .i64) ?_ fun _ => rfl, bind_assoc]
  change (getCpu >>= fun s => ask h (.readTimeBase s) >>= fun x =>
    some <$> ofOption (Value.cast .i64 x)) = _
  simp only [Value.cast_i64, ofOption_some, Function.comp_def, map_eq_pure_bind, bind_assoc]
  rfl

@[simp] theorem denote_readSPR :
    denote h (emit .readSPR .i64 [] i0 i1) g n env =
      getCpu >>= fun s => ask h (.readSpr i0 s) >>= fun x =>
        pure (n, n + 1, env.set n (.i64 x)) := by
  rw [denote_host h rfl (by decide) rfl (x := getCpu >>= fun s => ask h (.readSpr i0 s))
    (v := .i64) ?_ fun _ => rfl, bind_assoc]
  change (getCpu >>= fun s => ask h (.readSpr i0 s) >>= fun x =>
    some <$> ofOption (Value.cast .i64 x)) = _
  simp only [Value.cast_i64, ofOption_some, Function.comp_def, map_eq_pure_bind, bind_assoc]
  rfl

@[simp] theorem denote_writeSPR (ha : env a = some (.i64 x)) :
    denote h (emitVoid .writeSPR [a] i0 i1) g n env =
      getCpu >>= fun s => ask h (.writeSpr i0 x s) >>= fun s' =>
        setCpu s' >>= fun _ => pure ((), n, env) := by
  rw [denote_emitVoid, mapM_one ha, ofOption_some, pure_bind]
  change ((getCpu >>= fun s => ask h (.writeSpr i0 x s) >>= fun s' =>
    setCpu s' >>= fun _ => pure none) >>= _) = _
  simp only [bind_assoc, pure_bind]

end special

end Emission
end XenonRecomp
