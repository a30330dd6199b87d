/-
# Agreement on vector instructions

`execute_vector` of the interpreter against the code of `lift_vector`, of the
vector accesses of `lift_memory` and of the VSCR moves of `lift_control`.

Both sides choose operand fields by the opcode alone, so that the choices are
compared row by row of the catalogue (`catalog_vector`).  What is left is that a
template of the emitter computes what the semantic function does, that the third
operand the interpreter passes to a two-operand function is not read, and that
lifted code reads and writes the registers the interpreter does.
-/

import XenonRecomp.Emission.VectorRules
import XenonRecomp.Fallback.Vector
import XenonRecomp.Agreement.Memory

namespace XenonRecomp
namespace Agreement

open Cpu Ir Machine Run Emission Lifter
open Fallback (VectorAction vectorAction baseOrZero)

section semantics

variable (fl : FloatOps) (w vscr : BitVec 32) (a b c : Vector128)

/-- The mnemonics whose semantic function reads a third operand. -/
def ternaryMnemonics : List Mnemonic :=
  [.vmaddfp, .vmaddfp128, .vmaddcfp128, .vnmsubfp, .vnmsubfp128, .vmsum3fp128, .vmsum4fp128,
   .vmladduhm, .vmhaddshs, .vmhraddshs, .vperm, .vperm128, .vsel, .vsel128, .vmsummbm, .vmsumubm,
   .vmsumuhm, .vmsumuhs, .vmsumshm, .vmsumshs]

theorem executeVector3_none {m : Mnemonic} (hm : m ∉ ternaryMnemonics) :
    Aot.executeVector3 fl m vscr a b c = none := by
  unfold Aot.executeVector3
  split
  all_goals first | rfl | exact absurd (List.mem_of_elem_eq_true rfl) hm

/-- The other semantic functions do not. -/
theorem executeVector_third {m : Mnemonic} (hm : m ∉ ternaryMnemonics) (c' : Vector128) :
    Aot.executeVector fl m w vscr a b c = Aot.executeVector fl m w vscr a b c' := by
  have h1 := executeVector3_none fl vscr a b c hm
  have h2 := executeVector3_none fl vscr a b c' hm
  rw [Aot.executeVector, Aot.executeVector, h1, h2]

/-- The bitwise templates. -/
theorem executeVector_logic {m : Mnemonic} {f : BitVec 8 → BitVec 8 → BitVec 8}
    (hf : logicOf m = some f) :
    Aot.executeVector fl m w vscr a b c = (Aot.vectorLogic f a b, false) := by
  unfold logicOf at hf
  split at hf <;> cases hf <;> rfl

theorem ofInt_add_toNat {k : ℕ} (x y : BitVec k) :
    BitVec.ofInt k (x.toNat + y.toNat : ℤ) = x + y := by
  rw [BitVec.ofInt_add, BitVec.ofInt_natCast, BitVec.ofInt_natCast, BitVec.ofNat_toNat,
    BitVec.ofNat_toNat, BitVec.setWidth_eq, BitVec.setWidth_eq]

theorem ofInt_sub_toNat {k : ℕ} (x y : BitVec k) :
    BitVec.ofInt k (x.toNat - y.toNat : ℤ) = x - y := by
  apply BitVec.eq_of_toInt_eq
  rw [BitVec.toInt_ofInt, BitVec.toInt_sub, BitVec.toInt_eq_toNat_bmod,
    BitVec.toInt_eq_toNat_bmod, Int.sub_bmod_bmod, Int.bmod_sub_bmod]

/-- The modular templates: lanes of integers cut to their width. -/
theorem executeVector_modular {m : Mnemonic} {v : Vector128} (hv : modularOf m a b = some v) :
    Aot.executeVector fl m w vscr a b c = (v, false) := by
  unfold modularOf at hv
  split at hv <;> cases hv
  · change (Aot.laneBinary .u8 (· + ·) a b, false) = _
    simp only [Aot.laneBinary, Aot.Lane.write, Aot.Lane.read, ofInt_add_toNat]
    rfl
  · change (Aot.laneBinary .u16 (· + ·) a b, false) = _
    simp only [Aot.laneBinary, Aot.Lane.write, Aot.Lane.read, ofInt_add_toNat]
    rfl
  · change (Aot.laneBinary .u32 (· + ·) a b, false) = _
    simp only [Aot.laneBinary, Aot.Lane.write, Aot.Lane.read, ofInt_add_toNat]
    rfl
  · change (Aot.laneBinary .u8 (· - ·) a b, false) = _
    simp only [Aot.laneBinary, Aot.Lane.write, Aot.Lane.read, ofInt_sub_toNat]
    rfl
  · change (Aot.laneBinary .u16 (· - ·) a b, false) = _
    simp only [Aot.laneBinary, Aot.Lane.write, Aot.Lane.read, ofInt_sub_toNat]
    rfl
  · change (Aot.laneBinary .u32 (· - ·) a b, false) = _
    simp only [Aot.laneBinary, Aot.Lane.write, Aot.Lane.read, ofInt_sub_toNat]
    rfl

/-- Shifting a five-bit immediate up and back extends its sign. -/
theorem shift_back : ∀ x : BitVec 5,
    (x.setWidth 8 <<< 3).sshiftRight 3 = (x.signExtend 32).setWidth 8 ∧
    (x.setWidth 16 <<< 11).sshiftRight 11 = (x.signExtend 32).setWidth 16 ∧
    (x.setWidth 32 <<< 27).sshiftRight 27 = x.signExtend 32 := by
  decide

/-- The splats of the catalogue. -/
def splatMnemonics : List Mnemonic :=
  [.vspltb, .vsplth, .vspltw, .vspltw128, .vspltisb, .vspltish, .vspltisw, .vspltisw128]

/-- The splat templates. -/
theorem executeVector_splat {m : Mnemonic} (hm : m ∈ splatMnemonics) :
    ∃ v, splatOf m w a = some v ∧ Aot.executeVector fl m w vscr a b c = (v, false) := by
  obtain ⟨h8, h16, h32⟩ := shift_back (w.extractLsb' 16 5)
  simp only [splatMnemonics, List.mem_cons, List.not_mem_nil, or_false] at hm
  rcases hm with rfl | rfl | rfl | rfl | rfl | rfl | rfl | rfl
  iterate 4
    · exact ⟨_, rfl, rfl⟩
  · exact ⟨_, rfl, by rw [Aot.vectorSplatImmediateByte, h8]; rfl⟩
  · exact ⟨_, rfl, by rw [Aot.vectorSplatImmediateHalfword, h16]; rfl⟩
  iterate 2
    · exact ⟨_, rfl, by rw [Aot.vectorSplatImmediateWord, h32]; rfl⟩

/-- A template stands for the semantic function of its mnemonic. -/
theorem executeVector_native {i : Instruction} {v : Vector128}
    (hsel : i.op = .vSelect → i.guestMnemonic ∈ [.vsel, .vsel128])
    (hspl : i.op = .vSplat → i.guestMnemonic ∈ splatMnemonics)
    (hv : nativeVector i a b c = some v) :
    Aot.executeVector fl i.guestMnemonic i.guestWord vscr a b c = (v, false) := by
  unfold nativeVector at hv
  split at hv
  case h_1 hop =>
    obtain rfl := Option.some.inj hv
    rcases List.mem_pair.1 (hsel hop) with hm | hm <;> rw [hm] <;> rfl
  case h_7 hop =>
    obtain ⟨v', hv', he⟩ := executeVector_splat fl i.guestWord vscr a b c (hspl hop)
    rw [he, Option.some.inj (hv'.symm.trans hv)]
  case h_8 | h_9 => exact executeVector_modular fl _ vscr a b c hv
  case h_10 => cases hv
  all_goals
    obtain ⟨f, hf, rfl⟩ := Option.map_eq_some_iff.1 hv
    exact executeVector_logic fl _ vscr a b c hf

/-- What an emitted vector operation leaves is what the semantic function does. -/
theorem vectorOutcome_eq {g : DecodedInstruction} {op : Op} {args : List ValueId} {n : ValueId}
    {i0 i1 : BitVec 64} (hsel : op = .vSelect → g.mnemonic ∈ [.vsel, .vsel128])
    (hspl : op = .vSplat → g.mnemonic ∈ splatMnemonics) (vs : List Vector128) (s : CpuState) :
    vectorOutcome fl (emitted g op .v128 (some n) args i0 i1) vs s =
      Aot.executeVectorState fl g.mnemonic g.word s (vs.getD 0 .zero) (vs.getD 1 .zero)
        (vs.getD 2 .zero) := by
  unfold vectorOutcome
  split
  case h_2 => rfl
  case h_1 v hv =>
    have he := executeVector_native fl s.vscr _ _ _ (i := emitted g op .v128 (some n) args i0 i1)
      hsel hspl hv
    simp only [Aot.executeVectorState]
    rw [show Aot.executeVector fl g.mnemonic g.word s.vscr _ _ _ = (v, false) from he]
    rfl

end semantics

section wiring

/-- The lifter's form of a vector opcode passes the operands that the
interpreter's action does; a third operand beyond the lifter's two is one that
the semantic function does not read. -/
inductive Wired (m : Mnemonic) : VectorAction → VectorForm → Prop where
  | loadShift (left : Bool) : Wired m (.loadShift left) (.loadShift left)
  | same {op : Op} (fields : List VectorField) (word : Bool) (hop : opClass op = .vector)
      (hsel : op = .vSelect → m ∈ [.vsel, .vsel128]) (hspl : op = .vSplat → m ∈ splatMnemonics) :
      Wired m (.semantic fields false) (.op op fields word)
  | third {op : Op} (f f' : VectorField) (word : Bool) (hm : m ∉ ternaryMnemonics)
      (hop : opClass op = .vector) (hsel : op ≠ .vSelect) (hspl : op ≠ .vSplat) :
      Wired m (.semantic [f, f', .vc] false) (.op op [f, f'] word)
  | compare (hm : m ∉ ternaryMnemonics) : Wired m (.semantic [.va, .vb, .vc] true) .compare

/-- The check of `Wired`. -/
def wired (m : Mnemonic) : Option VectorAction → Option VectorForm → Bool
  | some (.loadShift l), some (.loadShift l') => l = l'
  | some (.semantic fields false), some (.op op fields' _) =>
      opClass op = .vector ∧
        ((fields = fields' ∧ (op = .vSelect → m ∈ [.vsel, .vsel128]) ∧
            (op = .vSplat → m ∈ splatMnemonics)) ∨
          (fields'.length = 2 ∧ fields = fields' ++ [.vc] ∧ m ∉ ternaryMnemonics ∧
            op ≠ .vSelect ∧ op ≠ .vSplat))
  | some (.semantic fields true), some .compare =>
      fields = [.va, .vb, .vc] ∧ m ∉ ternaryMnemonics
  | _, _ => false

theorem wired_of_check {m : Mnemonic} {a : Option VectorAction} {f : Option VectorForm}
    (hw : wired m a f = true) : ∃ a' f', a = some a' ∧ f = some f' ∧ Wired m a' f' := by
  unfold wired at hw
  split at hw
  case h_1 l l' =>
    obtain rfl : l = l' := by simpa using hw
    exact ⟨_, _, rfl, rfl, .loadShift l⟩
  case h_2 fields op fields' word =>
    obtain ⟨hop, ⟨rfl, hsel, hspl⟩ | ⟨hlen, rfl, hm, hsel, hspl⟩⟩ := of_decide_eq_true hw
    · exact ⟨_, _, rfl, rfl, .same fields word hop hsel hspl⟩
    · obtain ⟨x, y, rfl⟩ := List.length_eq_two.1 hlen
      exact ⟨_, _, rfl, rfl, .third x y word hm hop hsel hspl⟩
  case h_3 fields =>
    obtain ⟨rfl, hm⟩ := of_decide_eq_true hw
    exact ⟨_, _, rfl, rfl, .compare hm⟩
  case h_4 => cases hw

/-- Every vector row of the catalogue is wired alike on both sides. -/
theorem catalog_vector : ∀ op ∈ opcodeCatalog, op.group = .Vector →
    wired op.mnemonic (vectorAction op.mnemonic op.format) (vectorForm op.mnemonic op.format) =
      true := by
  set_option maxRecDepth 40000 in decide

end wiring

section registers

variable {σ : Type} (h : Host σ) {g : DecodedInstruction}

/-- Values declared one after another. -/
def declare (env : Env) : ValueId → List Value → Env
  | _, [] => env
  | n, v :: vs => declare (env.set n v) (n + 1) vs

theorem declare_below (vs : List Value) {n k : ValueId} (hk : k < n) (env : Env) :
    declare env n vs k = env k := by
  induction vs generalizing n env with
  | nil => rfl
  | cons v vs ih =>
    rw [declare, ih (Nat.lt_succ_of_lt hk), Env.set_of_ne _ _ (Nat.ne_of_lt hk)]

/-- They are read back in order. -/
theorem declare_read (vs : List Value) (n : ValueId) (env : Env) :
    (List.range' n vs.length).mapM (declare env n vs) = some vs := by
  induction vs generalizing n env with
  | nil => rfl
  | cons v vs ih =>
    have hv : declare (env.set n v) (n + 1) vs n = some v := by
      rw [declare_below vs (Nat.lt_succ_self n), Env.set_self]
    simp only [declare, List.length_cons, List.range'_succ, List.mapM_cons, hv, ih]
    rfl

/-- Reading register fields declares the vectors they hold. -/
theorem denote_readFields (i : DecodedInstruction) (fields : List VectorField) (n : ValueId)
    (env : Env) (m : State σ) :
    denote h (fields.mapM fun f => readVector (f.reg i)) g n env m =
      (.ok (List.range' n fields.length, n + fields.length,
        declare env n (fields.map fun f => .v128 (m.cpu.vr (f.reg i)))), m) := by
  induction fields generalizing n env with
  | nil => rfl
  | cons f fields ih =>
    have hlen : n + 1 + fields.length = n + (fields.length + 1) := Nat.succ_add_eq_add_succ ..
    simp only [List.mapM_cons, denote_bind, denote_readVector, bind_assoc, pure_bind, getCpu_bind]
    rw [bind_of_ok (ih _ _)]
    simp only [denote_pure, List.length_cons, List.range'_succ, List.map_cons, declare, hlen]
    rfl

theorem vectorField_eq (i : DecodedInstruction) (f : VectorField) :
    Fallback.vectorField i f = f.reg i := by
  cases f <;> rfl

/-- A lifted vector operation computes the semantic function of its fields. -/
theorem denote_vectorOp {i : DecodedInstruction} {op : Op} (hop : opClass op = .vector)
    (hsel : op = .vSelect → i.mnemonic ∈ [.vsel, .vsel128])
    (hspl : op = .vSplat → i.mnemonic ∈ splatMnemonics) (fields : List VectorField)
    (imm1 : BitVec 64) (n : ValueId) (env : Env) (m : State σ) :
    ∃ id n' env', denote h (vectorOp op i fields imm1) i n env m =
      (.ok (id, n', env'), ⟨(Aot.executeVectorState h.float i.mnemonic i.word m.cpu
        (Fallback.operandVector i fields m.cpu 0) (Fallback.operandVector i fields m.cpu 1)
        (Fallback.operandVector i fields m.cpu 2)).2, m.host⟩) ∧
      env' id = some (.v128 (Aot.executeVectorState h.float i.mnemonic i.word m.cpu
        (Fallback.operandVector i fields m.cpu 0) (Fallback.operandVector i fields m.cpu 1)
        (Fallback.operandVector i fields m.cpu 2)).1) := by
  have hargs := declare_read (fields.map fun f => .v128 (m.cpu.vr (f.reg i))) n env
  rw [List.length_map] at hargs
  have hvs : (fields.map fun f => Value.v128 (m.cpu.vr (f.reg i))) =
      (fields.map fun f => m.cpu.vr (f.reg i)).map Value.v128 := by
    rw [List.map_map]
    rfl
  rw [hvs] at hargs
  refine ⟨n + fields.length, n + fields.length + 1, (declare env n
    ((fields.map fun f => m.cpu.vr (f.reg i)).map Value.v128)).set (n + fields.length) (.v128 _),
    ?_, Env.set_self ..⟩
  · simp only [vectorOp, denote_bind]
    rw [bind_of_ok (denote_readFields h i fields n env m)]
    simp only [hvs]
    rw [denote_vector h hop hargs]
    simp only [vectorOutcome_eq h.float hsel hspl, getCpu_bind, Fallback.operandVector,
      vectorField_eq]
    rfl

end registers

section actions

variable {σ : Type} (h : Host σ) (i : DecodedInstruction) (m : State σ)

theorem vectorOp_agrees {op : Op} (hop : opClass op = .vector)
    (hsel : op = .vSelect → i.mnemonic ∈ [.vsel, .vsel128])
    (hspl : op = .vSplat → i.mnemonic ∈ splatMnemonics) (fields : List VectorField)
    (word : Bool) :
    modifyCpu (Fallback.semanticStep h.float i fields false) m =
      perform h (liftVectorOp op i fields word) i 0 Env.empty m := by
  obtain ⟨id, n, env, hrun, hid⟩ := denote_vectorOp h hop hsel hspl fields
    (if word then i.word.setWidth 64 else 0) 0 Env.empty m
  rw [liftVectorOp, perform_bind, bind_of_ok hrun, perform, denote_writeVector h _ hid]
  simp only [bind_assoc, pure_bind, modifyCpu_bind, pure_apply, modifyCpu_apply]
  rfl

/-- A third field changes nothing where the semantic function does not read it. -/
theorem semanticStep_third (fl : FloatOps) (hm : i.mnemonic ∉ ternaryMnemonics)
    (f f' f'' : VectorField) (recording : Bool) :
    Fallback.semanticStep fl i [f, f', f''] recording =
      Fallback.semanticStep fl i [f, f'] recording := by
  funext s
  have hthird := executeVector_third fl i.word s.vscr (s.vr (Fallback.vectorField i f))
    (s.vr (Fallback.vectorField i f')) (s.vr (Fallback.vectorField i f'')) hm .zero
  simp only [Fallback.semanticStep, Fallback.operandVector, Aot.executeVectorState, List.map_cons,
    List.map_nil, List.getD_cons_zero, List.getD_cons_succ, List.getD_nil, hthird]

theorem vectorCompare_agrees :
    modifyCpu (Fallback.semanticStep h.float i [.va, .vb] true) m =
      perform h (liftVectorCompare i) i 0 Env.empty m := by
  have hop : opClass .vCompare = .vector := rfl
  obtain ⟨id, n, env, hrun, hid⟩ := denote_vectorOp h (i := i) hop
    (by simp) (by simp) [.va, .vb] 0 0 Env.empty m
  rw [liftVectorCompare, perform_bind, bind_of_ok hrun, perform_bind, denote_writeVector h _ hid]
  cases hrc : i.rc with
  | true =>
    simp only [bind_assoc, pure_bind, modifyCpu_bind, if_true, perform, denote_vUpdateCR6 h hid,
      modifyCpu_apply, Fallback.semanticStep, hrc, and_self]
    rfl
  | false =>
    simp only [bind_assoc, pure_bind, modifyCpu_bind, perform_pure, pure_apply, modifyCpu_apply,
      Fallback.semanticStep, hrc, Bool.false_eq_true, and_false, if_false]
    rfl

theorem loadShift_agrees (left : Bool) :
    Fallback.vectorStep h i (.loadShift left) m =
      perform h (liftLoadShift i left) i 0 Env.empty m := by
  by_cases hr : i.ra = 0#5 <;> cases left <;>
    simp [Fallback.vectorStep, Fallback.vectorAddress, baseOrZero, liftLoadShift, perform, hr] <;>
    rfl

/-- The code of an access or of a move of VSCR. -/
def accessCode : VectorAction → Build Unit
  | .loadAligned => liftVectorLoad i
  | .storeAligned => liftVectorStore i
  | .loadElement width => liftVectorLoadPart i .vLoadElement width
  | .storeElement width => liftVectorStorePart i .vStoreElement width
  | .loadLeft => liftVectorLoadPart i .vLoadLeft (lastUse i.mnemonic)
  | .loadRight => liftVectorLoadPart i .vLoadRight (lastUse i.mnemonic)
  | .storeLeft => liftVectorStorePart i .vStoreLeft (lastUse i.mnemonic)
  | .storeRight => liftVectorStorePart i .vStoreRight (lastUse i.mnemonic)
  | .fromVscr => liftMoveFromVscr i
  | .toVscr => liftMoveToVscr i
  | .loadShift left => liftLoadShift i left
  | .semantic _ _ => pure ()

theorem access_agrees (hreg : vectorReg i = Fallback.vectorVd i) {action : VectorAction}
    (ha : ∀ fields recording, action ≠ .semantic fields recording) :
    Fallback.vectorStep h i action m = perform h (accessCode i action) i 0 Env.empty m := by
  obtain ⟨ea, n, env, hrun, hea, hlt⟩ : Declares h (eaX i false) i 0 Env.empty m _ :=
    indexed_declares h i m
  have h0 : ea ≠ n := Nat.ne_of_lt hlt
  cases action with
  | semantic fields recording => exact absurd rfl (ha fields recording)
  | loadShift left => exact loadShift_agrees h i m left
  | fromVscr => simp [Fallback.vectorStep, accessCode, liftMoveFromVscr, perform]
  | toVscr => simp [Fallback.vectorStep, accessCode, liftMoveToVscr, perform]
  | loadAligned | storeAligned =>
    simp [Fallback.vectorStep, Fallback.vectorAddress, accessCode, liftVectorLoad, liftVectorStore,
      eaAligned, perform, bind_of_ok hrun, hea, h0, hreg]
  | loadElement | loadLeft | loadRight =>
    simp [Fallback.vectorStep, Fallback.vectorAddress, accessCode, liftVectorLoadPart, perform,
      bind_of_ok hrun, hea, h0, hreg]
  | storeElement | storeLeft | storeRight =>
    simp [Fallback.vectorStep, Fallback.vectorAddress, accessCode, liftVectorStorePart, perform,
      bind_of_ok hrun, hea, h0, hreg]

end actions

section main

variable {σ : Type} (h : Host σ)

/-- The action of the vector accesses and of the moves of VSCR. -/
def accessAction : Mnemonic → Option VectorAction
  | .lvx | .lvxl | .lvx128 | .lvxl128 => some .loadAligned
  | .stvx | .stvxl | .stvx128 | .stvxl128 => some .storeAligned
  | .lvebx => some (.loadElement 1)
  | .lvehx => some (.loadElement 2)
  | .lvewx | .lvewx128 => some (.loadElement 4)
  | .stvebx => some (.storeElement 1)
  | .stvehx => some (.storeElement 2)
  | .stvewx | .stvewx128 => some (.storeElement 4)
  | .lvlx | .lvlxl | .lvlx128 | .lvlxl128 => some .loadLeft
  | .lvrx | .lvrxl | .lvrx128 | .lvrxl128 => some .loadRight
  | .stvlx | .stvlxl | .stvlx128 | .stvlxl128 => some .storeLeft
  | .stvrx | .stvrxl | .stvrx128 | .stvrxl128 => some .storeRight
  | .mfvscr => some .fromVscr
  | .mtvscr => some .toVscr
  | _ => none

/-- The vector instructions: the vector group of the catalogue, and the vector
accesses and moves of VSCR, which stand in other groups. -/
def VectorInstruction (op : OpcodeInfo) : Prop :=
  op.group = .Vector ∨ (accessAction op.mnemonic).isSome

/-- The rows of the accesses and moves: the interpreter's action, the group, and
a format that has one reading of `vD`. -/
theorem catalog_access : ∀ op ∈ opcodeCatalog, ∀ action ∈ accessAction op.mnemonic,
    vectorAction op.mnemonic op.format = some action ∧
      op.group = (if op.mnemonic ∈ [.mfvscr, .mtvscr] then .Control else .Memory) ∧
      (op.format = .VX128_1 ∨ Fallback.vectorExtendedFormat op.format = false) := by
  set_option maxRecDepth 40000 in decide

theorem liftGroup_access {i : DecodedInstruction} {action : VectorAction}
    (ha : accessAction i.mnemonic = some action)
    (hg : i.info.group = if i.mnemonic ∈ [.mfvscr, .mtvscr] then .Control else .Memory) :
    liftGroup i = accessCode i action >>= fun _ => pure true := by
  rw [liftGroup, hg]
  obtain ⟨address, word, ⟨pattern, mnemonic, format, group⟩⟩ := i
  simp only [DecodedInstruction.mnemonic] at ha
  unfold accessAction at ha
  split at ha <;> cases ha <;> rfl

theorem access_ne_semantic {m : Mnemonic} {action : VectorAction}
    (ha : accessAction m = some action) (fields : List VectorField) (recording : Bool) :
    action ≠ .semantic fields recording := by
  unfold accessAction at ha
  split at ha <;> cases ha <;> exact fun hc => VectorAction.noConfusion hc

/-- A form of the lifter does what the action wired to it does. -/
theorem wired_agrees {i : DecodedInstruction} {action : VectorAction} {form : VectorForm}
    (hw : Wired i.mnemonic action form) (hf : vectorForm i.mnemonic i.info.format = some form) :
    ∃ code : Build Unit, liftVector i = (code >>= fun _ => pure true) ∧
      ∀ m, Fallback.vectorStep h i action m = perform h code i 0 Env.empty m := by
  cases hw with
  | loadShift left =>
    exact ⟨liftLoadShift i left, by simp only [liftVector, hf],
      fun m => loadShift_agrees h i m left⟩
  | same fields word hop hsel hspl =>
    exact ⟨liftVectorOp _ i fields word, by simp only [liftVector, hf],
      fun m => vectorOp_agrees h i m hop hsel hspl fields word⟩
  | @third op f f' word hm hop hsel hspl =>
    refine ⟨liftVectorOp op i [f, f'] word, by simp only [liftVector, hf], fun m => ?_⟩
    rw [Fallback.vectorStep, semanticStep_third i h.float hm]
    exact vectorOp_agrees h i m hop (absurd · hsel) (absurd · hspl) [f, f'] word
  | compare hm =>
    refine ⟨liftVectorCompare i, by simp only [liftVector, hf], fun m => ?_⟩
    rw [Fallback.vectorStep, semanticStep_third i h.float hm]
    exact vectorCompare_agrees h i m

/-- **The interpreter and compiled code agree on every vector instruction**: from
any state they make the same calls of the host in the same order and leave the
same registers, VSCR and CR, whatever the floating-point helpers compute.  A
host may record its calls, as `Host.logged` does. -/
theorem vector_agreement {address : GuestAddress} {word : BitVec 32} {i : DecodedInstruction}
    (hd : Decoder.decode address word = some i) (hv : VectorInstruction i.info) (m : State σ) :
    Fallback.executeVector h i m = (runLifted h i >>= fun _ => pure true) m := by
  obtain ⟨-, -, hmem, -⟩ := Decoder.decode_mem hd
  rcases hv with hg | hacc
  · obtain ⟨action, form, ha, hf, hw⟩ := wired_of_check (catalog_vector _ hmem hg)
    obtain ⟨code, hcode, hstep⟩ := wired_agrees h hw hf
    have hl : liftGroup i = code >>= fun _ => pure true := by
      rw [liftGroup, hg]
      exact hcode
    have he : Fallback.executeVector h i =
        Fallback.vectorStep h i action >>= fun _ => pure true := by
      simp only [Fallback.executeVector, DecodedInstruction.mnemonic, ha]
    rw [agrees_of h he hl hstep]
  · obtain ⟨action, hacc⟩ := Option.isSome_iff_exists.1 hacc
    obtain ⟨ha, hg, hformat⟩ := catalog_access _ hmem action hacc
    have hreg : vectorReg i = Fallback.vectorVd i := by
      rcases hformat with hx | hx
      · simp [vectorReg, Fallback.vectorVd, hx, Fallback.vectorExtendedFormat]
      · have hne : i.info.format ≠ .VX128_1 := by
          rintro hx'
          rw [hx'] at hx
          cases hx
        simp [vectorReg, Fallback.vectorVd, hx, hne]
    have he : Fallback.executeVector h i =
        Fallback.vectorStep h i action >>= fun _ => pure true := by
      simp only [Fallback.executeVector, DecodedInstruction.mnemonic, ha]
    rw [agrees_of h he (liftGroup_access hacc hg)
      fun m => access_agrees h i m hreg (access_ne_semantic hacc)]

/-- `vaddfp v1,v1,v2` agrees at the zero state. -/
theorem vector_agreement_vaddfp :
    Fallback.executeVector quietHost ⟨0, 0x1021100a, ⟨0x1000000a, .vaddfp, .VX, .Vector⟩⟩
        ⟨CpuState.zero, ()⟩ =
      (runLifted quietHost ⟨0, 0x1021100a, ⟨0x1000000a, .vaddfp, .VX, .Vector⟩⟩ >>=
        fun _ => pure true) ⟨CpuState.zero, ()⟩ :=
  have hd : Decoder.decode 0 0x1021100a =
      some ⟨0, 0x1021100a, ⟨0x1000000a, .vaddfp, .VX, .Vector⟩⟩ := by
    set_option maxRecDepth 40000 in decide
  vector_agreement quietHost hd (.inl rfl) _

end main

end Agreement
end XenonRecomp
