/-
# Agreement on scalar memory instructions

`execute_scalar_memory` against the code of `lift_memory`.  The two make the same
accesses in the same order.  They part at one place only: an update form leaves
its effective address in RA, the interpreter cut to 32 bits and compiled code
whole.
-/

import XenonRecomp.Agreement.Basic
import XenonRecomp.Emission.MemoryRules
import XenonRecomp.Fallback.ScalarMemory

namespace XenonRecomp
namespace Agreement

open Cpu Ir Machine Run Emission Lifter
open Fallback (ScalarAccess loadAccess storeAccess effectiveAddress64 baseOrZero)

variable {σ : Type} (h : Host σ)

section tables

/-- A row of the lifter's tables as a row of the interpreter's. -/
def toAccess (d : ScalarDesc) : ScalarAccess :=
  ⟨d.bytes, d.sign, d.update, d.indexed, d.endian = .little⟩

theorem loadAccess_eq (m : Mnemonic) : loadAccess m = (scalarLoadDesc m).map toAccess := by
  cases m <;> rfl

theorem storeAccess_eq (m : Mnemonic) : storeAccess m = (scalarStoreDesc m).map toAccess := by
  cases m <;> rfl

/-- The widths of the tables, and the widths that are sign extended. -/
structure WellSized (d : ScalarDesc) : Prop where
  bytes : d.bytes = 1 ∨ d.bytes = 2 ∨ d.bytes = 4 ∨ d.bytes = 8
  sign : d.sign = true → d.bytes = 2 ∨ d.bytes = 4

theorem scalarLoadDesc_sized {m : Mnemonic} {d : ScalarDesc} (hd : scalarLoadDesc m = some d) :
    WellSized d := by
  unfold scalarLoadDesc at hd
  split at hd <;> cases hd <;> exact ⟨by simp, by simp⟩

theorem scalarStoreDesc_sized {m : Mnemonic} {d : ScalarDesc} (hd : scalarStoreDesc m = some d) :
    WellSized d := by
  unfold scalarStoreDesc at hd
  split at hd <;> cases hd <;> exact ⟨by simp, by simp⟩

/-- The forms that the tables leave. -/
def otherMnemonics : List Mnemonic :=
  [.lwarx, .ldarx, .stwcx, .stdcx, .lmw, .stmw, .lswi, .lswx, .stswi, .stswx]

/-- The mnemonics of `execute_scalar_memory`. -/
def ScalarMemory (m : Mnemonic) : Prop :=
  (loadAccess m).isSome ∨ (storeAccess m).isSome ∨ m ∈ otherMnemonics

instance (m : Mnemonic) : Decidable (ScalarMemory m) := inferInstanceAs (Decidable (_ ∨ _))

/-- They are memory instructions in the catalogue. -/
theorem catalog_memory : ∀ op ∈ opcodeCatalog, ScalarMemory op.mnemonic → op.group = .Memory := by
  set_option maxRecDepth 40000 in decide

/-- No indexed form has a DS displacement. -/
theorem catalog_indexed : ∀ op ∈ opcodeCatalog, op.format = .DS →
    (∀ d ∈ scalarLoadDesc op.mnemonic, d.indexed = false) ∧
    (∀ d ∈ scalarStoreDesc op.mnemonic, d.indexed = false) := by
  set_option maxRecDepth 40000 in decide

end tables

section addresses

variable (i : DecodedInstruction) {g : DecodedInstruction} {n : ValueId} {env : Env}

/-- An action that declares an address and leaves the machine as it is. -/
def Declares (a : Build ValueId) (g : DecodedInstruction) (n : ValueId) (env : Env) (m : State σ)
    (x : BitVec 64) : Prop :=
  ∃ id n' env', denote h a g n env m = (.ok (id, n', env'), m) ∧
    env' id = some (.i64 x) ∧ id < n'

variable {h}

/-- An immediate is added to a base that stays declared. -/
theorem addImmediate_runs (m : State σ) {base : ValueId} {x : BitVec 64} (hb : base < n)
    (hx : env base = some (.i64 x)) (displacement : BitVec 64) :
    ∃ id n' env', denote h (addImmediate base displacement) g n env m = (.ok (id, n', env'), m) ∧
      env' id = some (.i64 (x + displacement)) ∧ id < n' ∧
      base < n' ∧ env' base = some (.i64 x) := by
  unfold addImmediate
  split_ifs with hz
  · exact ⟨base, n, env, rfl, by rw [hx, hz]; simp, hb, hb, hx⟩
  · refine ⟨n, n + 1, env.set n (.i64 (x + displacement)), ?_, by simp, Nat.lt_succ_self n,
      Nat.lt_succ_of_lt hb, ?_⟩
    · simp [hx]
    · rw [Env.set_of_ne _ _ (Nat.ne_of_lt hb), hx]

variable (h) in
theorem eaDisplacement_declares (m : State σ) (displacement : BitVec 64) (update : Bool) :
    Declares h (eaDisplacement i displacement update) g n env m
      ((if update ∨ i.ra ≠ 0 then m.cpu.gpr i.ra else 0) + displacement) := by
  unfold eaDisplacement
  by_cases hr : (!update) = true ∧ i.ra = 0
  · have hn : ¬(update = true ∨ i.ra ≠ 0) := by simpa using hr
    rw [if_pos hr, if_neg hn]
    exact ⟨n, n + 1, env.set n (.i64 displacement), by simp, by simp, Nat.lt_succ_self n⟩
  · have hn : update = true ∨ i.ra ≠ 0 := by
      by_contra hc
      exact hr (by simpa using hc)
    rw [if_neg hr, if_pos hn]
    obtain ⟨id, n', env', hrun, hid, hlt, -, -⟩ := addImmediate_runs (h := h) (g := g) m
      (Nat.lt_succ_self n) (Env.set_self env n (.i64 (m.cpu.gpr i.ra))) displacement
    refine ⟨id, n', env', ?_, hid, hlt⟩
    rw [denote_bind, ← hrun]
    simp

variable (h) in
theorem eaX_declares (m : State σ) (update : Bool) :
    Declares h (eaX i update) g n env m
      ((if update ∨ i.ra ≠ 0 then m.cpu.gpr i.ra else 0) + m.cpu.gpr i.rb) := by
  unfold eaX
  by_cases hr : (!update) = true ∧ i.ra = 0
  · have hn : ¬(update = true ∨ i.ra ≠ 0) := by simpa using hr
    rw [if_pos hr, if_neg hn]
    exact ⟨n, n + 1, env.set n (.i64 (m.cpu.gpr i.rb)), by simp, by simp, Nat.lt_succ_self n⟩
  · have hn : update = true ∨ i.ra ≠ 0 := by
      by_contra hc
      exact hr (by simpa using hc)
    rw [if_neg hr, if_pos hn]
    exact ⟨n + 1 + 1, n + 1 + 1 + 1, ((env.set n (.i64 (m.cpu.gpr i.ra))).set (n + 1)
      (.i64 (m.cpu.gpr i.rb))).set (n + 1 + 1) (.i64 (m.cpu.gpr i.ra + m.cpu.gpr i.rb)),
      by simp, Env.set_self .., Nat.lt_succ_self _⟩

variable (h) in
/-- The lifter forms the interpreter's effective address, uncut. -/
theorem eaScalar_declares (m : State σ) {d : ScalarDesc}
    (hi : i.info.format = .DS → d.indexed = false) :
    Declares h (eaScalar i d.update d.indexed) g n env m
      (effectiveAddress64 i m.cpu (toAccess d)) := by
  unfold eaScalar effectiveAddress64
  by_cases hf : i.info.format = .DS
  · simp only [hf, if_true, toAccess, hi hf, Bool.false_eq_true, if_false]
    exact eaDisplacement_declares h i m _ _
  · cases hx : d.indexed with
    | true =>
      simp only [hf, if_false, if_true, toAccess, hx]
      exact eaX_declares h i m _
    | false =>
      simp only [hf, if_false, toAccess, hx, Bool.false_eq_true]
      exact eaDisplacement_declares h i m _ _

end addresses

section access

variable (i : DecodedInstruction)

/-- A scalar load that leaves `cut` of its effective address in RA. -/
def loadUpdating (access : ScalarAccess) (cut : BitVec 64 → BitVec 64) : Run σ Unit := do
  let s ← getCpu
  let ea := effectiveAddress64 i s access
  let value ← Fallback.loadScalar h (ea.setWidth 32) access
  modifyCpu fun s => s.setGpr i.rt value
  if access.update then modifyCpu fun s => s.setGpr i.ra (cut ea)

/-- A scalar store that leaves `cut` of its effective address in RA. -/
def storeUpdating (access : ScalarAccess) (cut : BitVec 64 → BitVec 64) : Run σ Unit := do
  let s ← getCpu
  let ea := effectiveAddress64 i s access
  Fallback.storeScalar h (ea.setWidth 32) access (s.gpr i.rs)
  if access.update then modifyCpu fun s => s.setGpr i.ra (cut ea)

/-- What the interpreter leaves in RA. -/
def cutAddress (x : BitVec 64) : BitVec 64 := (x.setWidth 32).setWidth 64

theorem executeLoad_eq (access : ScalarAccess) :
    Fallback.executeLoad h i access = loadUpdating h i access cutAddress := rfl

theorem executeStore_eq (access : ScalarAccess) :
    Fallback.executeStore h i access = storeUpdating h i access cutAddress := rfl

/-- Compiled loads leave the whole address in RA. -/
theorem liftLoad_eq {d : ScalarDesc} (hd : WellSized d)
    (hi : i.info.format = .DS → d.indexed = false) (m : State σ) :
    (denote h (liftLoad i d) i 0 Env.empty >>= fun _ => pure ()) m =
      loadUpdating h i (toAccess d) id m := by
  obtain ⟨bytes, sign, update, indexed, endian⟩ := d
  obtain ⟨ea, n, env, hrun, hea, hlt⟩ :
      Declares h (eaScalar i update indexed) i 0 Env.empty m _ := eaScalar_declares h i m hi
  have h0 : ea ≠ n := Nat.ne_of_lt hlt
  have h1 : ea ≠ n + 1 := Nat.ne_of_lt (Nat.lt_succ_of_lt hlt)
  simp only [liftLoad, denote_bind, bind_assoc, bind_of_ok hrun, loadUpdating, getCpu_bind]
  generalize effectiveAddress64 i m.cpu _ = x at hea
  obtain ⟨hb, hs⟩ := hd
  rcases hb with rfl | rfl | rfl | rfl <;> cases sign <;> cases update <;> simp at hs <;>
    simp [hea, h0, h1, widthType, extend, Fallback.loadScalar, toAccess]

/-- Compiled stores leave the whole address in RA. -/
theorem liftStore_eq {d : ScalarDesc} (hd : WellSized d)
    (hi : i.info.format = .DS → d.indexed = false) (m : State σ) :
    (denote h (liftStore i d) i 0 Env.empty >>= fun _ => pure ()) m =
      storeUpdating h i (toAccess d) id m := by
  obtain ⟨bytes, sign, update, indexed, endian⟩ := d
  obtain ⟨ea, n, env, hrun, hea, hlt⟩ :
      Declares h (eaScalar i update indexed) i 0 Env.empty m _ := eaScalar_declares h i m hi
  have h0 : ea ≠ n := Nat.ne_of_lt hlt
  have h1 : ea ≠ n + 1 := Nat.ne_of_lt (Nat.lt_succ_of_lt hlt)
  simp only [liftStore, denote_bind, bind_assoc, bind_of_ok hrun, storeUpdating, getCpu_bind]
  generalize effectiveAddress64 i m.cpu _ = x at hea
  rcases hd.bytes with rfl | rfl | rfl | rfl <;> cases update <;>
    simp [hea, h0, h1, widthType, Fallback.storeScalar, toAccess]

/-- The access of a scalar load. -/
def loadRequest (access : ScalarAccess) (address : GuestAddress) : Request :=
  match access.bytes with
  | 1 => .read8 address
  | 2 => .read16 access.littleEndian address
  | 4 => .read32 access.littleEndian address
  | _ => .read64 access.littleEndian address

/-- The access of a scalar store. -/
def storeRequest (access : ScalarAccess) (address : GuestAddress) (value : BitVec 64) : Request :=
  match access.bytes with
  | 1 => .write8 address (value.setWidth 8)
  | 2 => .write16 access.littleEndian address (value.setWidth 16)
  | 4 => .write32 access.littleEndian address (value.setWidth 32)
  | _ => .write64 access.littleEndian address value

theorem loadScalar_asks {d : ScalarDesc} (hd : WellSized d) (address : GuestAddress) :
    ∃ f : (loadRequest (toAccess d) address).Reply → BitVec 64,
      Fallback.loadScalar h address (toAccess d) =
        ask h (loadRequest (toAccess d) address) >>= fun a => pure (f a) := by
  obtain ⟨bytes, sign, update, indexed, endian⟩ := d
  rcases hd.bytes with rfl | rfl | rfl | rfl <;>
    exact ⟨_, by simp only [Fallback.loadScalar, toAccess, pure_bind]; rfl⟩

theorem storeScalar_asks {d : ScalarDesc} (hd : WellSized d) (address : GuestAddress)
    (value : BitVec 64) :
    ∃ f : (storeRequest (toAccess d) address value).Reply → Unit,
      Fallback.storeScalar h address (toAccess d) value =
        ask h (storeRequest (toAccess d) address value) >>= fun a => pure (f a) := by
  obtain ⟨bytes, sign, update, indexed, endian⟩ := d
  rcases hd.bytes with rfl | rfl | rfl | rfl <;>
    exact ⟨id, by simp only [Fallback.storeScalar, toAccess]; exact (bind_pure _).symm⟩

/-- Two updates of one register after one call leave the same exactly when they
write the same, or the call faults. -/
theorem ask_update_iff {r : Request} {f : r.Reply → CpuState → CpuState} {reg : BitVec 5}
    {x y : BitVec 64} (m : State σ) :
    (ask h r >>= fun a => modifyCpu fun s => (f a s).setGpr reg x) m =
        (ask h r >>= fun a => modifyCpu fun s => (f a s).setGpr reg y) m ↔
      ((h.answer r m.host).1.isOk → x = y) := by
  rw [ask_bind, ask_bind]
  rcases h.answer r m.host with ⟨_ | a, host⟩
  · simp [Except.isOk, Except.toBool]
  · simp only [modifyCpu_apply, Prod.mk.injEq, true_and, Except.isOk, Except.toBool, forall_const]
    refine ⟨fun he => ?_, fun he => by rw [he]⟩
    have hreg := congrArg (fun s : State σ => s.cpu.gpr reg) he
    simpa [CpuState.setGpr] using hreg

/-- Cutting changes the addresses from 2^32 on. -/
theorem cutAddress_eq_iff (x : BitVec 64) : cutAddress x = x ↔ ¬2 ^ 32 ≤ x.toNat := by
  have hx : (cutAddress x).toNat = x.toNat % 2 ^ 32 := by
    simp only [cutAddress, BitVec.toNat_setWidth]
    exact Nat.mod_eq_of_lt (lt_trans (Nat.mod_lt _ (by decide)) (by decide))
  rw [← BitVec.toNat_inj, hx]
  constructor
  · intro he hle
    have := Nat.mod_lt x.toNat (show 0 < 2 ^ 32 by decide)
    omega
  · intro hle
    exact Nat.mod_eq_of_lt (by omega)

theorem loadUpdating_iff {d : ScalarDesc} (hd : WellSized d) (m : State σ) :
    loadUpdating h i (toAccess d) cutAddress m = loadUpdating h i (toAccess d) id m ↔
      ¬(d.update ∧ 2 ^ 32 ≤ (effectiveAddress64 i m.cpu (toAccess d)).toNat ∧
        (h.answer (loadRequest (toAccess d)
          ((effectiveAddress64 i m.cpu (toAccess d)).setWidth 32)) m.host).1.isOk) := by
  simp only [loadUpdating, getCpu_bind]
  generalize effectiveAddress64 i m.cpu _ = x
  obtain ⟨f, hf⟩ := loadScalar_asks h hd (x.setWidth 32)
  cases hu : d.update with
  | false => simp [toAccess, hu]
  | true =>
    have hupdate : (toAccess d).update = true := hu
    simp only [hupdate, if_true, hf, bind_assoc, pure_bind, id]
    refine (ask_update_iff h (f := fun a s => s.setGpr i.rt (f a)) m).trans ?_
    rw [cutAddress_eq_iff]
    tauto

theorem storeUpdating_iff {d : ScalarDesc} (hd : WellSized d) (m : State σ) :
    storeUpdating h i (toAccess d) cutAddress m = storeUpdating h i (toAccess d) id m ↔
      ¬(d.update ∧ 2 ^ 32 ≤ (effectiveAddress64 i m.cpu (toAccess d)).toNat ∧
        (h.answer (storeRequest (toAccess d)
          ((effectiveAddress64 i m.cpu (toAccess d)).setWidth 32) (m.cpu.gpr i.rs))
          m.host).1.isOk) := by
  simp only [storeUpdating, getCpu_bind]
  generalize effectiveAddress64 i m.cpu _ = x
  obtain ⟨f, hf⟩ := storeScalar_asks h hd (x.setWidth 32) (m.cpu.gpr i.rs)
  cases hu : d.update with
  | false => simp [toAccess, hu]
  | true =>
    have hupdate : (toAccess d).update = true := hu
    simp only [hupdate, if_true, hf, bind_assoc, pure_bind, id]
    refine (ask_update_iff h (f := fun _ s => s) m).trans ?_
    rw [cutAddress_eq_iff]
    tauto

end access

section families

variable (i : DecodedInstruction) (m : State σ)

/-- The address that the forms without update share. -/
theorem indexed_declares {g : DecodedInstruction} {n : ValueId} {env : Env} :
    Declares h (eaX i false) g n env m (baseOrZero i m.cpu + m.cpu.gpr i.rb) := by
  have hea : Declares h (eaX i false) g n env m _ := eaX_declares h i m false
  simpa [baseOrZero] using hea

theorem loadReserve_agrees (word : Bool) :
    Fallback.loadReserve h i word m =
      (denote h (liftLoadReserve i (if word then .i32 else .i64)) i 0 Env.empty >>=
        fun _ => pure ()) m := by
  obtain ⟨ea, n, env, hrun, hea, hlt⟩ : Declares h (eaX i false) i 0 Env.empty m _ :=
    indexed_declares h i m
  simp only [liftLoadReserve, denote_bind, bind_assoc, bind_of_ok hrun, Fallback.loadReserve,
    getCpu_bind, Fallback.indexedAddress]
  cases word <;> cases hv : m.cpu.reservation.valid <;>
    simp [hea, extend, cancelHeld, reserved, hv]

/-- The interpreter's conditional store is the compiled one, and then CR0. -/
theorem storeConditional_eq (word : Bool) :
    Fallback.storeConditional h i word m =
      (storeConditional h word (Fallback.indexedAddress i m.cpu) (m.cpu.gpr i.rs) >>=
        fun stored => modifyCpu fun s =>
          s.setCrField 0 (compareNibble false false stored s.xerSo)) m := by
  have hcr (stored : Bool) (s : CpuState) : compareNibble false false stored s.xerSo =
      (if stored then 2 else 0) ||| (if s.xerSo then 1 else 0) := by
    cases stored <;> cases s.xerSo <;> rfl
  simp only [Fallback.storeConditional, storeConditional, bind_assoc, pure_bind, getCpu_bind, hcr,
    Bool.false_eq_true, if_false]
  split_ifs <;> simp only [bind_assoc, pure_bind, Bool.false_eq_true, if_false]

/-- A conditional store of a word looks at the low word only. -/
theorem storeConditional_word (ea : GuestAddress) (x : BitVec 64) :
    storeConditional h true ea ((x.setWidth 32).setWidth 64) = storeConditional h true ea x := by
  have hx : ((x.setWidth 32).setWidth 64).setWidth 32 = x.setWidth 32 := by simp
  unfold storeConditional
  simp only [if_true]
  rw [hx]

theorem storeConditional_agrees (word : Bool) :
    Fallback.storeConditional h i word m =
      (denote h (liftStoreConditional i (if word then .i32 else .i64)) i 0 Env.empty >>=
        fun _ => pure ()) m := by
  obtain ⟨ea, n, env, hrun, hea, hlt⟩ : Declares h (eaX i false) i 0 Env.empty m _ :=
    indexed_declares h i m
  have h0 : ea ≠ n := Nat.ne_of_lt hlt
  have h1 : ea ≠ n + 1 := Nat.ne_of_lt (Nat.lt_succ_of_lt hlt)
  rw [storeConditional_eq]
  simp only [liftStoreConditional, denote_bind, bind_assoc, bind_of_ok hrun, Fallback.indexedAddress]
  cases word <;> simp [hea, h0, h1, storeConditional_word, getCpu_modifyCpu]

theorem string_agrees (isLoad indexed : Bool) :
    Fallback.string h i isLoad indexed m =
      (denote h (liftString i isLoad indexed) i 0 Env.empty >>= fun _ => pure ()) m := by
  cases indexed with
  | true =>
    obtain ⟨ea, n, env, hrun, hea, hlt⟩ : Declares h (eaX i false) i 0 Env.empty m _ :=
      indexed_declares h i m
    have h0 : ea ≠ n := Nat.ne_of_lt hlt
    have h1 : ea ≠ n + 1 := Nat.ne_of_lt (Nat.lt_succ_of_lt hlt)
    have h2 : ea ≠ n + 1 + 1 := Nat.ne_of_lt (Nat.lt_succ_of_lt (Nat.lt_succ_of_lt hlt))
    simp only [liftString, denote_bind, bind_assoc, if_true, bind_of_ok hrun, Fallback.string,
      getCpu_bind, Fallback.indexedAddress]
    cases isLoad <;> simp [hea, h0, h1, h2]
  | false =>
    by_cases hr : i.ra = 0#5 <;> by_cases hb : i.rb = 0#5 <;> cases isLoad <;>
      simp [liftString, Fallback.string, baseOrZero, hr, hb]

/-- One register of the multiple forms; the base stays declared. -/
theorem multipleOne_agrees (isLoad : Bool) {base n : ValueId} {env : Env} {x : BitVec 64}
    (hbase : base < n) (hx : env base = some (.i64 x)) (r : ℕ) (m : State σ)
    {k : ValueId → Env → Run σ Unit} {y : Run σ Unit}
    (hk : ∀ n' env' m', base < n' → env' base = some (.i64 x) → k n' env' m' = y m') :
    (denote h (liftMultipleOne i isLoad base r) i n env >>= fun t => k t.2.1 t.2.2) m =
      (Fallback.multipleOne h i isLoad x r >>= fun _ => y) m := by
  have hassoc : x + i.simm16.signExtend 64 + BitVec.ofNat 64 ((r - i.rt.toNat) * 4) =
      x + (i.simm16.signExtend 64 + BitVec.ofNat 64 ((r - i.rt.toNat) * 4)) :=
    BitVec.add_assoc ..
  obtain ⟨ea, n, env, hrun, hea, hlt, hbase, hx⟩ := addImmediate_runs (h := h) (g := i) m hbase hx
    (i.simm16.signExtend 64 + BitVec.ofNat 64 ((r - i.rt.toNat) * 4))
  have ha : ea ≠ n := Nat.ne_of_lt hlt
  have ha' : ea ≠ n + 1 := Nat.ne_of_lt (Nat.lt_succ_of_lt hlt)
  have hb : base ≠ n := Nat.ne_of_lt hbase
  have hb' : base ≠ n + 1 := Nat.ne_of_lt (Nat.lt_succ_of_lt hbase)
  have hbase' : base < n + 1 + 1 := Nat.lt_succ_of_lt (Nat.lt_succ_of_lt hbase)
  simp only [liftMultipleOne, denote_bind, bind_assoc, bind_of_ok hrun, Fallback.multipleOne]
  rw [hassoc]
  cases isLoad with
  | true =>
    simp [hea, extend]
    exact ask_bind_congr fun _ _ => hk _ _ _ hbase' (by simp [hx, hb, hb'])
  | false =>
    simp [hea, ha, ha']
    exact ask_bind_congr fun _ _ => hk _ _ _ hbase' (by simp [hx, hb, hb'])

/-- The registers of the multiple forms, in order. -/
theorem multiple_loop (isLoad : Bool) {base : ValueId} {x : BitVec 64} (rs : List ℕ) {n : ValueId}
    {env : Env} (hbase : base < n) (hx : env base = some (.i64 x)) (m : State σ) :
    (denote h (rs.forM (liftMultipleOne i isLoad base)) i n env >>= fun _ => pure ()) m =
      rs.forM (Fallback.multipleOne h i isLoad x) m := by
  induction rs generalizing n env m with
  | nil => rfl
  | cons r rs ih =>
    have hl : (r :: rs).forM (liftMultipleOne i isLoad base) =
      liftMultipleOne i isLoad base r >>= fun _ => rs.forM (liftMultipleOne i isLoad base) := rfl
    rw [hl, denote_bind, bind_assoc]
    exact multipleOne_agrees h i isLoad hbase hx r m fun n' env' m' hn he => ih hn he m'

theorem multiple_agrees (isLoad : Bool) :
    Fallback.multiple h i isLoad m =
      (denote h (liftMultiple i isLoad) i 0 Env.empty >>= fun _ => pure ()) m := by
  simp only [Fallback.multiple, liftMultiple, getCpu_bind, baseOrZero]
  by_cases hr : i.ra = 0
  · have hr' : ¬i.ra ≠ 0 := fun hn => hn hr
    rw [if_neg hr', if_neg hr', denote_bind, denote_constantI64, pure_bind]
    exact (multiple_loop h i isLoad _ Nat.zero_lt_one (Env.set_self ..) m).symm
  · rw [if_pos hr, if_pos hr, denote_bind, denote_readGpr, bind_assoc, bind_assoc, getCpu_bind,
      pure_bind]
    exact (multiple_loop h i isLoad _ Nat.zero_lt_one (Env.set_self ..) m).symm

end families

/-- A memory instruction is lifted by `lift_memory`. -/
theorem liftGroup_memory {i : DecodedInstruction} (hg : i.info.group = .Memory) :
    liftGroup i = liftMemory i := by
  simp only [liftGroup, hg]

/-- The forms outside the tables agree. -/
theorem executeOther_eq {i : DecodedInstruction} (hg : liftGroup i = liftMemory i)
    (hm : i.mnemonic ∈ otherMnemonics) :
    Fallback.executeScalarMemory h i = runLifted h i >>= fun _ => pure true := by
  obtain ⟨address, word, ⟨pattern, mnemonic, format, group⟩⟩ := i
  simp only [DecodedInstruction.mnemonic, otherMnemonics, List.mem_cons, List.not_mem_nil,
    or_false] at hm
  rcases hm with rfl | rfl | rfl | rfl | rfl | rfl | rfl | rfl | rfl | rfl
  · exact agrees_of h rfl hg fun m => loadReserve_agrees h _ m true
  · exact agrees_of h rfl hg fun m => loadReserve_agrees h _ m false
  · exact agrees_of h rfl hg fun m => storeConditional_agrees h _ m true
  · exact agrees_of h rfl hg fun m => storeConditional_agrees h _ m false
  · exact agrees_of h rfl hg fun m => multiple_agrees h _ m true
  · exact agrees_of h rfl hg fun m => multiple_agrees h _ m false
  · exact agrees_of h rfl hg fun m => string_agrees h _ m true false
  · exact agrees_of h rfl hg fun m => string_agrees h _ m true true
  · exact agrees_of h rfl hg fun m => string_agrees h _ m false false
  · exact agrees_of h rfl hg fun m => string_agrees h _ m false true

/-- A scalar load agrees unless it updates RA with a wide address. -/
theorem executeLoad_iff {i : DecodedInstruction} {d : ScalarDesc}
    (hg : liftGroup i = liftMemory i) (hd : scalarLoadDesc i.mnemonic = some d)
    (hi : i.info.format = .DS → d.indexed = false) (m : State σ) :
    Fallback.executeScalarMemory h i m = (runLifted h i >>= fun _ => pure true) m ↔
      loadUpdating h i (toAccess d) cutAddress m = loadUpdating h i (toAccess d) id m := by
  have hl : liftMemory i = liftLoad i d >>= fun _ => pure true := by
    simp only [liftMemory, hd]
  have he : Fallback.executeScalarMemory h i =
      Fallback.executeLoad h i (toAccess d) >>= fun _ => pure true := by
    simp only [Fallback.executeScalarMemory, loadAccess_eq, hd, Option.map_some]
  rw [he, accepted_iff, runLifted_eq h (hg.trans hl),
    liftLoad_eq h i (scalarLoadDesc_sized hd) hi, executeLoad_eq]

/-- A scalar store agrees unless it updates RA with a wide address. -/
theorem executeStore_iff {i : DecodedInstruction} {d : ScalarDesc}
    (hg : liftGroup i = liftMemory i) (hn : scalarLoadDesc i.mnemonic = none)
    (hd : scalarStoreDesc i.mnemonic = some d)
    (hi : i.info.format = .DS → d.indexed = false) (m : State σ) :
    Fallback.executeScalarMemory h i m = (runLifted h i >>= fun _ => pure true) m ↔
      storeUpdating h i (toAccess d) cutAddress m = storeUpdating h i (toAccess d) id m := by
  have hl : liftMemory i = liftStore i d >>= fun _ => pure true := by
    simp only [liftMemory, hn, hd]
  have he : Fallback.executeScalarMemory h i =
      Fallback.executeStore h i (toAccess d) >>= fun _ => pure true := by
    simp only [Fallback.executeScalarMemory, loadAccess_eq, storeAccess_eq, hn, hd,
      Option.map_none, Option.map_some]
  rw [he, accepted_iff, runLifted_eq h (hg.trans hl),
    liftStore_eq h i (scalarStoreDesc_sized hd) hi, executeStore_eq]

/-- The access of a scalar instruction, if it is one: its row of the tables, and
the call it makes of the host. -/
def scalarAccess? (i : DecodedInstruction) (s : CpuState) : Option (ScalarAccess × Request) :=
  match loadAccess i.mnemonic, storeAccess i.mnemonic with
  | some a, _ => some (a, loadRequest a ((effectiveAddress64 i s a).setWidth 32))
  | none, some a =>
      some (a, storeRequest a ((effectiveAddress64 i s a).setWidth 32) (s.gpr i.rs))
  | none, none => none

/-- An update form whose 64-bit effective address does not fit in 32 bits, and
whose access succeeds. -/
def WideUpdate (i : DecodedInstruction) (m : State σ) : Prop :=
  ∃ a ∈ scalarAccess? i m.cpu, a.1.update ∧
    2 ^ 32 ≤ (effectiveAddress64 i m.cpu a.1).toNat ∧ (h.answer a.2 m.host).1.isOk

/-- **The interpreter and compiled code agree on a scalar memory instruction
exactly when it is not an update form whose access succeeds at a 64-bit address
beyond 32 bits.**  Agreement at a state is the same accesses of the host in the
same order, the same state and the same way of ending, a fault included. -/
theorem memory_agreement {address : GuestAddress} {word : BitVec 32} {i : DecodedInstruction}
    (hd : Decoder.decode address word = some i) (hm : ScalarMemory i.mnemonic) (m : State σ) :
    Fallback.executeScalarMemory h.logged i m.logged =
        (runLifted h.logged i >>= fun _ => pure true) m.logged ↔
      ¬WideUpdate h i m := by
  obtain ⟨-, -, hmem, -⟩ := Decoder.decode_mem hd
  have hg : liftGroup i = liftMemory i := liftGroup_memory (catalog_memory _ hmem hm)
  have hi := catalog_indexed _ hmem
  cases hload : scalarLoadDesc i.mnemonic with
  | some d =>
    rw [executeLoad_iff h.logged hg hload (fun hf => (hi hf).1 d hload),
      loadUpdating_iff h.logged i (scalarLoadDesc_sized hload)]
    simp [WideUpdate, scalarAccess?, loadAccess_eq, hload]
    rfl
  | none =>
    cases hstore : scalarStoreDesc i.mnemonic with
    | some d =>
      rw [executeStore_iff h.logged hg hload hstore (fun hf => (hi hf).2 d hstore),
        storeUpdating_iff h.logged i (scalarStoreDesc_sized hstore)]
      simp [WideUpdate, scalarAccess?, loadAccess_eq, storeAccess_eq, hload, hstore]
      rfl
    | none =>
      have hother : i.mnemonic ∈ otherMnemonics := by
        simpa [ScalarMemory, loadAccess_eq, storeAccess_eq, hload, hstore] using hm
      rw [executeOther_eq h.logged hg hother]
      simp [WideUpdate, scalarAccess?, loadAccess_eq, storeAccess_eq, hload, hstore]

/-- `lwzu r3,4(r4)` agrees at a state where `r4` is zero. -/
theorem memory_agreement_lwzu :
    Fallback.executeScalarMemory quietHost.logged
        ⟨0, 0x84640004, ⟨0x84000000, .lwzu, .D, .Memory⟩⟩ (State.logged ⟨CpuState.zero, ()⟩) =
      (runLifted quietHost.logged ⟨0, 0x84640004, ⟨0x84000000, .lwzu, .D, .Memory⟩⟩ >>=
        fun _ => pure true) (State.logged ⟨CpuState.zero, ()⟩) := by
  have hd : Decoder.decode 0 0x84640004 =
      some ⟨0, 0x84640004, ⟨0x84000000, .lwzu, .D, .Memory⟩⟩ := by
    set_option maxRecDepth 40000 in decide
  refine (memory_agreement quietHost hd (by decide) ⟨CpuState.zero, ()⟩).2 ?_
  rintro ⟨a, ha, -, hwide, -⟩
  obtain rfl := Option.mem_some_iff.1 ha
  revert hwide
  decide

/-- `lwzu r3,4(r4)` with `r4` at 2^32: the interpreter leaves 4 in `r4`, compiled
code 2^32 + 4. -/
theorem lwzu_wide_disagrees :
    Decoder.decode 0 0x84640004 = some ⟨0, 0x84640004, ⟨0x84000000, .lwzu, .D, .Memory⟩⟩ ∧
    (Fallback.executeScalarMemory quietHost ⟨0, 0x84640004, ⟨0x84000000, .lwzu, .D, .Memory⟩⟩
      ⟨CpuState.zero.setGpr 4 0x100000000, ()⟩).2.cpu.gpr 4 = 4 ∧
    ((runLifted quietHost ⟨0, 0x84640004, ⟨0x84000000, .lwzu, .D, .Memory⟩⟩ >>=
      fun _ => pure true) ⟨CpuState.zero.setGpr 4 0x100000000, ()⟩).2.cpu.gpr 4 =
        0x100000004 := by
  set_option maxRecDepth 40000 in decide

end Agreement
end XenonRecomp
