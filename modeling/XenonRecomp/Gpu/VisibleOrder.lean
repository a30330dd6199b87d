/-
# Guest-visible effects come after the draws before them

A draw that was decoded is pending until the guest-visible barrier is called.
Every write to guest memory, every interrupt and every condition must find no
draw pending (`Ordered`).  All packets call the barrier first, but two:
`COND_EXEC` and `COND_WRITE` evaluate their conditions without it.  So the
effects of a submission are in order as long as no such packet begins while a
draw is pending (`Unpressed`).

The proof reads the log of each handler with a monitor that gives up where the
condition does not hold.
-/

import XenonRecomp.Gpu.RingExecution

namespace XenonRecomp
namespace Gpu

open Library Library.Logged

/-- The two packets that evaluate a condition without calling the barrier. -/
def Type3Opcode.testsUnguarded : Type3Opcode → Bool
  | .condExec | .condWrite => true
  | _ => false

/-- The guest can observe the effect, or when it happens. -/
def Effect.visible : Effect → Bool
  | .write _ _ | .interrupt _ | .test => true
  | _ => false

/-- Whether a draw is pending behind the effect. -/
def Effect.pending (pending : Bool) : Effect → Bool
  | .barrier => false
  | .emit (.draw _) => true
  | _ => pending

/-- One of the two packets begins. -/
def Effect.beginsUnguarded : Effect → Bool
  | .start opcode => opcode.testsUnguarded
  | _ => false

/-- Every effect that the guest can observe finds no draw pending. -/
def Ordered (pending : Bool) : List Effect → Prop
  | [] => True
  | effect :: log =>
      (effect.visible = true → pending = false) ∧ Ordered (effect.pending pending) log

/-- No `COND_EXEC` or `COND_WRITE` begins while a draw is pending. -/
def Unpressed (pending : Bool) : List Effect → Prop
  | [] => True
  | effect :: log =>
      (effect.beginsUnguarded = true → pending = false) ∧ Unpressed (effect.pending pending) log

instance decidableOrdered : ∀ pending log, Decidable (Ordered pending log)
  | _, [] => .isTrue trivial
  | pending, effect :: log =>
      have := decidableOrdered (effect.pending pending) log
      inferInstanceAs (Decidable ((_ → _) ∧ _))

instance decidableUnpressed : ∀ pending log, Decidable (Unpressed pending log)
  | _, [] => .isTrue trivial
  | pending, effect :: log =>
      have := decidableUnpressed (effect.pending pending) log
      inferInstanceAs (Decidable ((_ → _) ∧ _))

/-- The monitor watches for pending draws, until it is excused. -/
inductive Watch where
  | excused
  | watching (pending : Bool)
deriving DecidableEq, Repr

/-- Refuses a visible effect while a draw is pending; a packet that must not begin then
excuses it. -/
def orderMonitor : Monitor Watch Effect
  | .excused, _ => some .excused
  | .watching _, .barrier => some (.watching false)
  | .watching _, .emit (.draw _) => some (.watching true)
  | .watching pending, .start opcode =>
      if pending ∧ opcode.testsUnguarded then some .excused else some (.watching pending)
  | .watching pending, .write _ _ | .watching pending, .interrupt _ | .watching pending, .test =>
      if pending then none else some (.watching false)
  | watch, _ => some watch

/-- What the monitor accepts is in order, under its excuse. -/
theorem ordered_of_accepted {pending : Bool} {log : List Effect} {watch : Watch}
    (h : orderMonitor.after (.watching pending) log = some watch) (hlog : Unpressed pending log) :
    Ordered pending log := by
  induction log generalizing pending with
  | nil => trivial
  | cons effect log ih =>
      obtain ⟨hbegin, hrest⟩ := hlog
      cases effect with
      | barrier => exact ⟨nofun, ih h hrest⟩
      | fetch => exact ⟨nofun, ih h hrest⟩
      | emit command =>
          refine ⟨nofun, ih ?_ hrest⟩
          cases command <;> exact h
      | start opcode =>
          have hnot : ¬(pending = true ∧ opcode.testsUnguarded = true) := by
            rintro ⟨hpending, hopcode⟩
            exact Bool.false_ne_true ((hbegin hopcode).symm.trans hpending)
          have hstep : orderMonitor (.watching pending) (.start opcode) =
              some (.watching pending) := if_neg hnot
          rw [Monitor.after, hstep] at h
          exact ⟨nofun, ih h hrest⟩
      | write | interrupt | test =>
          cases pending with
          | true => exact absurd h (Option.some_ne_none _).symm
          | false => exact ⟨fun _ => rfl, ih h hrest⟩

/-- No draw is pending. -/
def Quiet (watch : Watch) : Prop :=
  watch ≠ .watching true

/-- From anywhere, all visible effects of the program come behind a barrier. -/
abbrev Guarded {S F α : Type} (m : Logged S F Effect α) : Prop :=
  Accepts orderMonitor (fun _ => True) (fun _ => True) m

/-- Where no draw is pending, none is afterwards. -/
abbrev Calm {S F α : Type} (m : Logged S F Effect α) : Prop :=
  Accepts orderMonitor Quiet Quiet m

/-- Where no draw is pending, the effects of the program are in order. -/
abbrev Settling {S F α : Type} (m : Logged S F Effect α) : Prop :=
  Accepts orderMonitor Quiet (fun _ => True) m

section Rules

variable {S F α β : Type}

theorem Guarded.settling {m : Logged S F Effect α} (h : Guarded m) : Settling m :=
  h.weaken (fun _ _ => trivial) fun _ _ => trivial

theorem Calm.settling {m : Logged S F Effect α} (h : Calm m) : Settling m :=
  h.weaken (fun _ hq => hq) fun _ _ => trivial

theorem Guarded.bind {m : Logged S F Effect α} {f : α → Logged S F Effect β}
    (hm : Guarded m) (hf : ∀ a, Guarded (f a)) : Guarded (m >>= f) :=
  Accepts.bind hm hf fun _ h => h

theorem Calm.bind {m : Logged S F Effect α} {f : α → Logged S F Effect β}
    (hm : Calm m) (hf : ∀ a, Calm (f a)) : Calm (m >>= f) :=
  Accepts.bind hm hf fun _ h => h

theorem Settling.bind {m : Logged S F Effect α} {f : α → Logged S F Effect β}
    (hm : Calm m) (hf : ∀ a, Settling (f a)) : Settling (m >>= f) :=
  Accepts.bind hm hf fun _ _ => trivial

/-- A program that logs nothing. -/
theorem guarded_of_silent {m : Logged S F Effect α} (h : ∀ s, (m s).2.2 = []) : Guarded m :=
  .silent h fun _ h => h

theorem calm_of_silent {m : Logged S F Effect α} (h : ∀ s, (m s).2.2 = []) : Calm m :=
  .silent h fun _ h => h

theorem guarded_pure (a : α) : Guarded (pure a : Logged S F Effect α) :=
  guarded_of_silent fun _ => rfl

theorem calm_pure (a : α) : Calm (pure a : Logged S F Effect α) :=
  calm_of_silent fun _ => rfl

theorem guarded_fail (fault : F) : Guarded (Logged.fail fault : Logged S F Effect α) :=
  guarded_of_silent fun _ => rfl

theorem calm_fail (fault : F) : Calm (Logged.fail fault : Logged S F Effect α) :=
  calm_of_silent fun _ => rfl

theorem guarded_get : Guarded (Logged.get : Logged S F Effect S) :=
  guarded_of_silent fun _ => rfl

theorem calm_get : Calm (Logged.get : Logged S F Effect S) :=
  calm_of_silent fun _ => rfl

theorem guarded_modify (f : S → S) : Guarded (Logged.modify f : Logged S F Effect Unit) :=
  guarded_of_silent fun _ => rfl

theorem calm_modify (f : S → S) : Calm (Logged.modify f : Logged S F Effect Unit) :=
  calm_of_silent fun _ => rfl

end Rules

/-! ### Elementary programs -/

theorem require_silent (condition : Prop) [Decidable condition] (what : String) (s : Processor) :
    (require condition what s).2.2 = [] := by
  unfold require
  split_ifs <;> rfl

theorem guarded_require (condition : Prop) [Decidable condition] (what : String) :
    Guarded (require condition what) :=
  guarded_of_silent (require_silent condition what)

theorem calm_require (condition : Prop) [Decidable condition] (what : String) :
    Calm (require condition what) :=
  calm_of_silent (require_silent condition what)

/-- A draw is the one command that makes a draw pending. -/
def Command.isDraw : Command → Bool
  | .draw _ => true
  | _ => false

theorem orderMonitor_emit {command : Command} (h : command.isDraw = false) (watch : Watch) :
    orderMonitor watch (.emit command) = some watch := by
  cases watch with
  | excused => rfl
  | watching pending => cases command <;> first | rfl | exact absurd h Bool.false_ne_true.symm

theorem guarded_emit (command : Command) : Guarded (emit command) := by
  refine Accepts.log fun watch _ => ?_
  cases watch with
  | excused => exact ⟨_, rfl, trivial⟩
  | watching pending => cases command <;> exact ⟨_, rfl, trivial⟩

theorem calm_emit {command : Command} (h : command.isDraw = false) : Calm (emit command) :=
  Accepts.log fun watch hwatch => ⟨watch, orderMonitor_emit h watch, hwatch⟩

/-- A visible effect where no draw is pending. -/
theorem calm_log {S F : Type} {effect : Effect}
    (h : orderMonitor (.watching false) effect = some (.watching false)) :
    Calm (Logged.log effect : Logged S F Effect Unit) := by
  refine Accepts.log fun watch hwatch => ?_
  cases watch with
  | excused => exact ⟨.excused, rfl, nofun⟩
  | watching pending =>
      cases pending with
      | true => exact absurd rfl hwatch
      | false => exact ⟨_, h, hwatch⟩

theorem calm_writePhysical (address : ℕ) (bytes : List (BitVec 8)) (what : String) :
    Calm (writePhysical address bytes what) := by
  intro s watch hwatch
  unfold writePhysical
  split_ifs
  · cases watch with
    | excused => exact ⟨.excused, rfl, nofun⟩
    | watching pending =>
        cases pending with
        | true => exact absurd rfl hwatch
        | false => exact ⟨.watching false, rfl, nofun⟩
  · exact ⟨watch, rfl, hwatch⟩

/-- **Behind a barrier no draw is pending.** -/
theorem guarded_barrier {β : Type} {f : Unit → Processing β} (hf : Settling (f ())) :
    Guarded (beforeGuestVisibleEffect >>= f) := by
  have hbarrier : Accepts orderMonitor (fun _ => True) Quiet beforeGuestVisibleEffect := by
    refine Accepts.log fun watch _ => ?_
    cases watch with
    | excused => exact ⟨.excused, rfl, nofun⟩
    | watching pending => exact ⟨.watching false, rfl, nofun⟩
  exact Accepts.bind hbarrier (fun _ => hf) fun _ _ => trivial

theorem guarded_read (reader : Reader) : Guarded reader.read := by
  intro s watch _
  unfold Reader.read
  split_ifs
  · exact ⟨watch, rfl, trivial⟩
  · dsimp only
    split_ifs
    · exact ⟨watch, rfl, trivial⟩
    · cases watch <;> exact ⟨_, rfl, trivial⟩

theorem guarded_readWords (count : ℕ) (reader : Reader) : Guarded (reader.readWords count) := by
  induction count generalizing reader with
  | zero => exact guarded_pure _
  | succ count ih =>
      exact (guarded_read reader).bind fun _ => (ih _).bind fun _ => guarded_pure _

theorem guarded_readPayload (count : ℕ) (reader : Reader) : Guarded (reader.readPayload count) :=
  (guarded_require _ _).bind fun _ => guarded_readWords count reader

theorem calm_skip (reader : Reader) (dwords : ℕ) : Calm (reader.skip dwords) :=
  (calm_require _ _).bind fun _ => calm_pure _

/-! ### Handlers -/

theorem guarded_scratchWriteback (index : ℕ) (value : BitVec 32) :
    Guarded (scratchWriteback index value) := by
  exact guarded_get.bind fun _ => Accepts.onlyIf ((guarded_require _ _).bind fun _ =>
    guarded_barrier (calm_writePhysical _ _ _).settling) _

theorem guarded_emitRegisterWrite (index : ℕ) (value : BitVec 32) :
    Guarded (emitRegisterWrite index value) := by
  refine (guarded_require _ _).bind fun _ => (guarded_modify _).bind fun _ =>
    Guarded.bind ?_ fun _ => Guarded.bind ?_ fun _ => guarded_emit _
  · exact Accepts.onlyIf (guarded_scratchWriteback index value) _
  · exact Accepts.onlyIf (guarded_modify _) _

theorem guarded_emitRegisterWrites (index : ℕ) (values : List (BitVec 32)) :
    Guarded (emitRegisterWrites index values) :=
  Accepts.each (fun _ => guarded_emitRegisterWrite _ _) _

theorem guarded_writePhysicalDword (addressWithEndian value : BitVec 32) :
    Guarded (writePhysicalDword addressWithEndian value) :=
  (guarded_require _ _).bind fun _ => guarded_barrier
    ((calm_writePhysical _ _ _).bind fun _ => calm_emit rfl).settling

theorem calm_readPhysicalDword (addressWithEndian : BitVec 32) :
    Calm (readPhysicalDword addressWithEndian) :=
  (calm_require _ _).bind fun _ => calm_get.bind fun _ => calm_pure _

theorem guarded_constantRegister (selector : BitVec 32) : Guarded (constantRegister selector) := by
  refine Guarded.bind ?_ fun _ => guarded_pure _
  unfold constantRegisterBase
  split <;> first | exact guarded_pure _ | exact guarded_fail _

theorem guarded_rmwOperand (isRegister : Bool) (word : BitVec 32) (what : String) :
    Guarded (rmwOperand isRegister word what) := by
  unfold rmwOperand
  cases isRegister with
  | false => exact guarded_pure _
  | true => exact (guarded_require _ _).bind fun _ => guarded_get.bind fun _ => guarded_pure _

theorem guarded_executeRegRmw (payload : List (BitVec 32)) : Guarded (executeRegRmw payload) := by
  unfold executeRegRmw
  split
  · exact (guarded_require _ _).bind fun _ => guarded_get.bind fun _ =>
      (guarded_rmwOperand _ _ _).bind fun _ => (guarded_rmwOperand _ _ _).bind fun _ =>
        guarded_emitRegisterWrite _ _
  · exact guarded_fail _

theorem guarded_executeRegToMem (payload : List (BitVec 32)) :
    Guarded (executeRegToMem payload) := by
  unfold executeRegToMem
  split
  · refine (guarded_require _ _).bind fun _ => (guarded_require _ _).bind fun _ =>
      (guarded_require _ _).bind fun _ => Accepts.each (fun i => ?_) _
    exact guarded_get.bind fun _ => guarded_writePhysicalDword _ _
  · exact guarded_fail _

theorem calm_decodeDwordAddress (encoded : BitVec 32) : Calm (decodeDwordAddress encoded) :=
  (calm_require _ _).bind fun _ => calm_pure _

/-- `COND_EXEC` tests without a barrier: it needs that no draw is pending. -/
theorem calm_executeCondExec (reader : Reader) (payload : List (BitVec 32)) :
    Calm (executeCondExec reader payload) := by
  unfold executeCondExec
  split
  · refine (calm_decodeDwordAddress _).bind fun _ => (calm_decodeDwordAddress _).bind fun _ =>
      (calm_readPhysicalDword _).bind fun _ => (calm_readPhysicalDword _).bind fun _ =>
        (calm_log rfl).bind fun _ => ?_
    split_ifs
    · exact calm_pure _
    · exact calm_skip reader _
  · exact calm_fail _

/-- `COND_WRITE` tests without a barrier: it needs that no draw is pending. -/
theorem settling_executeCondWrite (payload : List (BitVec 32)) :
    Settling (executeCondWrite payload) := by
  unfold executeCondWrite
  split
  · refine Settling.bind ?_ fun _ => Settling.bind (calm_log rfl) fun _ => Guarded.settling ?_
    · unfold condWriteValue
      split_ifs
      · exact calm_readPhysicalDword _
      · exact (calm_require _ _).bind fun _ => calm_get.bind fun _ => calm_pure _
    · split_ifs
      · exact guarded_writePhysicalDword _ _
      · exact guarded_emitRegisterWrite _ _
      · exact guarded_pure _
  · exact (calm_fail _).settling

theorem calm_pollUntil (satisfied : BitVec 32 → Bool) (polls : ℕ → BitVec 32) (left poll : ℕ) :
    Calm (pollUntil satisfied polls left poll) := by
  induction left generalizing poll with
  | zero => exact calm_pure _
  | succ left ih =>
      refine (calm_log rfl).bind fun _ => ?_
      split_ifs
      · exact calm_pure _
      · exact ih (poll + 1)

theorem calm_waitFor (limit : WaitLimit) (polls : ℕ → BitVec 32) (satisfied : BitVec 32 → Bool)
    (what : String) : Calm (waitFor limit polls satisfied what) := by
  refine (calm_pollUntil satisfied polls _ _).bind fun done => ?_
  split_ifs
  · exact calm_pure _
  · exact calm_pure _
  · exact calm_fail _

theorem guarded_executeWaitRegMem (limit : WaitLimit) (polls : ℕ → BitVec 32)
    (payload : List (BitVec 32)) : Guarded (executeWaitRegMem limit polls payload) := by
  unfold executeWaitRegMem
  split
  · refine (guarded_require _ _).bind fun _ => guarded_barrier (Calm.settling ?_)
    split_ifs
    · exact calm_get.bind fun _ => Calm.bind (Accepts.onlyIf (calm_modify _) _) fun _ =>
        calm_pure _
    · exact (calm_require _ _).bind fun _ => calm_waitFor _ _ _ _
  · exact guarded_fail _

theorem guarded_executeWaitRegister (limit : WaitLimit) (polls : ℕ → BitVec 32)
    (greaterOrEqual : Bool) (payload : List (BitVec 32)) :
    Guarded (executeWaitRegister limit polls greaterOrEqual payload) := by
  unfold executeWaitRegister
  split
  · exact guarded_barrier ((calm_require _ _).bind fun _ => calm_waitFor _ _ _ _).settling
  · exact guarded_fail _

theorem guarded_loadConstants (address selector size : BitVec 32) (what : String) :
    Guarded (loadConstants address selector size what) :=
  (guarded_constantRegister _).bind fun _ => (guarded_require _ _).bind fun _ =>
    guarded_get.bind fun _ => guarded_emitRegisterWrites _ _

theorem guarded_executeImStore (payload : List (BitVec 32)) : Guarded (executeImStore payload) := by
  unfold executeImStore
  split
  · split
    · exact guarded_pure _
    · refine guarded_get.bind fun s => ?_
      split
      · exact guarded_fail _
      · refine (guarded_require _ _).bind fun _ => (guarded_require _ _).bind fun _ =>
          guarded_barrier (Calm.settling ?_)
        exact Calm.bind (Accepts.each (fun _ => calm_writePhysical _ _ _) _) fun _ =>
          (calm_writePhysical _ _ _).bind fun _ => calm_pure _
  · exact guarded_fail _

theorem guarded_executeInvalidateState (payload : List (BitVec 32)) :
    Guarded (executeInvalidateState payload) := by
  unfold executeInvalidateState
  split
  · exact Guarded.bind (Accepts.onlyIf (guarded_modify _) _) fun _ =>
      Accepts.onlyIf (guarded_modify _) _
  · exact guarded_fail _

theorem guarded_executeImLoad (payload : List (BitVec 32)) : Guarded (executeImLoad payload) := by
  unfold executeImLoad
  split
  · split
    · exact guarded_fail _
    · exact (guarded_require _ _).bind fun _ => guarded_get.bind fun _ =>
        (guarded_modify _).bind fun _ => guarded_emit _
  · exact guarded_fail _

theorem guarded_executeImLoadImmediate (payload : List (BitVec 32)) :
    Guarded (executeImLoadImmediate payload) := by
  unfold executeImLoadImmediate
  split
  · split
    · exact guarded_fail _
    · exact (guarded_require _ _).bind fun _ => (guarded_modify _).bind fun _ => guarded_emit _
  · exact guarded_fail _

theorem guarded_executeEventWriteShaderDone (payload : List (BitVec 32)) :
    Guarded (executeEventWriteShaderDone payload) := by
  unfold executeEventWriteShaderDone
  split
  · exact (guarded_emitRegisterWrite _ _).bind fun _ => guarded_get.bind fun _ =>
      Accepts.onlyIf (guarded_writePhysicalDword _ _) _
  · exact guarded_fail _

theorem guarded_executeEventWriteExtent (payload : List (BitVec 32)) :
    Guarded (executeEventWriteExtent payload) := by
  unfold executeEventWriteExtent
  split
  · exact (guarded_emitRegisterWrite _ _).bind fun _ => (guarded_require _ _).bind fun _ =>
      (guarded_require _ _).bind fun _ => guarded_barrier (calm_writePhysical _ _ _).settling
  · exact guarded_fail _

theorem guarded_executeVizQuery (payload : List (BitVec 32)) :
    Guarded (executeVizQuery payload) := by
  unfold executeVizQuery
  split
  · extract_lets
    split_ifs
    · exact (guarded_modify _).bind fun _ => guarded_get.bind fun _ =>
        (guarded_emitRegisterWrite _ _).bind fun _ => guarded_emitRegisterWrite _ _
    · exact (guarded_modify _).bind fun _ => (guarded_emitRegisterWrite _ _).bind fun _ =>
        guarded_get.bind fun _ =>
          Guarded.bind (Accepts.onlyIf (guarded_emitRegisterWrite _ _) _) fun _ =>
            guarded_modify _
  · exact guarded_fail _

theorem guarded_executeInterrupt (payload : List (BitVec 32)) :
    Guarded (executeInterrupt payload) := by
  unfold executeInterrupt
  split
  · refine guarded_get.bind fun s => Accepts.onlyIf (guarded_barrier (Calm.settling ?_)) _
    exact Accepts.each (fun cpu => Accepts.onlyIf (calm_log rfl) _) _
  · exact guarded_fail _

theorem guarded_executeMemWrite (payload : List (BitVec 32)) :
    Guarded (executeMemWrite payload) := by
  unfold executeMemWrite
  split
  · exact guarded_fail _
  · exact guarded_pure _
  · exact (guarded_require _ _).bind fun _ => guarded_barrier
      (Calm.settling (Accepts.each (fun _ => (calm_writePhysical _ _ _).bind fun _ =>
        calm_emit rfl) _))

theorem guarded_drawBinning (binned : Bool) (tail : List (BitVec 32)) :
    Guarded (drawBinning binned tail) := by
  unfold drawBinning
  split_ifs
  · split
    · exact guarded_get.bind fun _ => guarded_pure _
    · exact guarded_fail _
  · exact guarded_pure _

theorem guarded_drawIndices (source : DrawSource) (format : IndexFormat) (indexCount : ℕ)
    (tail : List (BitVec 32)) : Guarded (drawIndices source format indexCount tail) := by
  unfold drawIndices
  cases source with
  | dma =>
      dsimp only
      split
      · exact (guarded_emitRegisterWrite _ _).bind fun _ => (guarded_emitRegisterWrite _ _).bind
          fun _ => (guarded_require _ _).bind fun _ => guarded_pure _
      · exact guarded_fail _
  | _ => exact guarded_pure _

theorem guarded_executeDraw (opcode : Type3Opcode) (predicate : Bool)
    (payload : List (BitVec 32)) : Guarded (executeDraw opcode predicate payload) := by
  unfold executeDraw
  dsimp only
  split
  · exact guarded_fail _
  · exact (guarded_emitRegisterWrite _ _).bind fun _ => guarded_get.bind fun _ =>
      (guarded_drawBinning _ _).bind fun _ => (guarded_drawIndices _ _ _ _).bind fun _ =>
        (guarded_modify _).bind fun _ => guarded_get.bind fun _ => (guarded_emit _).bind fun _ =>
          guarded_modify _

theorem guarded_executeSetBin (opcode : Type3Opcode) (payload : List (BitVec 32)) :
    Guarded (executeSetBin opcode payload) := by
  unfold executeSetBin
  split
  · exact guarded_fail _
  · exact guarded_modify _

/-! ### Packets -/

theorem guarded_executeSimple {opcode : Type3Opcode} (hopcode : opcode ≠ .condWrite)
    (predicate : Bool) (payload : List (BitVec 32)) :
    Guarded (executeSimple opcode predicate payload) := by
  cases opcode with
  | condWrite => exact absurd rfl hopcode
  | memWrite => exact guarded_executeMemWrite payload
  | regRmw => exact (guarded_executeRegRmw payload).bind fun _ => guarded_emit _
  | regToMem => exact guarded_executeRegToMem payload
  | setConstant =>
      cases payload with
      | nil => exact guarded_fail _
      | cons selector values =>
          exact (guarded_constantRegister _).bind fun _ =>
            (guarded_emitRegisterWrites _ _).bind fun _ => guarded_emit _
  | setConstant2 | setShaderConstants =>
      cases payload with
      | nil => exact guarded_fail _
      | cons selector values =>
          exact (guarded_emitRegisterWrites _ _).bind fun _ => guarded_emit _
  | setShaderBases =>
      refine Guarded.bind ?_ fun _ => guarded_emit _
      unfold executeSetShaderBases
      split <;> first | exact guarded_pure _ | exact guarded_fail _
  | invalidateState => exact (guarded_executeInvalidateState payload).bind fun _ => guarded_emit _
  | imStore =>
      refine (guarded_executeImStore payload).bind fun executed => ?_
      cases executed <;> exact guarded_emit _
  | imLoad => exact guarded_executeImLoad payload
  | imLoadImmediate => exact guarded_executeImLoadImmediate payload
  | loadConstantContext =>
      refine Guarded.bind ?_ fun _ => guarded_emit _
      unfold executeLoadConstantContext
      split <;> first | exact guarded_loadConstants _ _ _ _ | exact guarded_fail _
  | loadAluConstant =>
      refine Guarded.bind ?_ fun _ => guarded_emit _
      unfold executeLoadAluConstant
      split <;> first | exact guarded_loadConstants _ _ _ _ | exact guarded_fail _
  | vizQuery => exact (guarded_executeVizQuery payload).bind fun _ => guarded_emit _
  | eventWrite =>
      refine Guarded.bind ?_ fun _ => guarded_emit _
      unfold executeEventWrite
      split <;> first | exact guarded_emitRegisterWrite _ _ | exact guarded_fail _
  | eventWriteShaderDone =>
      exact (guarded_executeEventWriteShaderDone payload).bind fun _ => guarded_emit _
  | eventWriteExtent =>
      exact (guarded_executeEventWriteExtent payload).bind fun _ => guarded_emit _
  | interrupt => exact (guarded_executeInterrupt payload).bind fun _ => guarded_emit _
  | setBinBaseOffset =>
      cases payload with
      | nil => exact guarded_fail _
      | cons value values => exact (guarded_modify _).bind fun _ => guarded_emit _
  | setBinMask | setBinSelect | setBinMaskLow | setBinMaskHigh | setBinSelectLow
  | setBinSelectHigh => exact (guarded_executeSetBin _ payload).bind fun _ => guarded_emit _
  | drawIndx | drawIndx2 | drawIndxBin | drawIndx2Bin => exact guarded_executeDraw _ _ _
  | _ => exact guarded_emit _

/-- A packet that is not suppressed, behind its beginning. -/
theorem settling_executeSemantic (limit : WaitLimit) (polls : ℕ → BitVec 32)
    {opcode : Type3Opcode} (hopcode : opcode.testsUnguarded = true) (predicate : Bool)
    (payload : List (BitVec 32)) (reader : Reader) :
    Settling (executeSemantic limit polls opcode predicate payload reader) := by
  cases opcode with
  | condExec =>
      exact Settling.bind (calm_executeCondExec reader payload) fun _ =>
        ((guarded_emit _).bind fun _ => guarded_pure _).settling
  | condWrite =>
      have hwrite : Settling (executeSimple .condWrite predicate payload) :=
        Accepts.bind (settling_executeCondWrite payload) (fun _ => guarded_emit _) fun _ h => h
      exact Accepts.bind hwrite (fun _ => guarded_pure _) fun _ h => h
  | _ => exact absurd hopcode Bool.false_ne_true

theorem guarded_finishWait (opcode : Type3Opcode) (payload : List (BitVec 32)) (reader : Reader)
    (satisfied : Bool) : Guarded (finishWait opcode payload reader satisfied) := by
  unfold finishWait
  split_ifs
  · exact (guarded_emit _).bind fun _ => guarded_pure _
  · exact guarded_pure _

theorem guarded_executeSemantic (limit : WaitLimit) (polls : ℕ → BitVec 32)
    {opcode : Type3Opcode} (hopcode : opcode.testsUnguarded = false) (predicate : Bool)
    (payload : List (BitVec 32)) (reader : Reader) :
    Guarded (executeSemantic limit polls opcode predicate payload reader) := by
  cases opcode with
  | indirectBuffer | indirectBufferPfd =>
      refine Guarded.bind ?_ fun _ => guarded_pure _
      unfold indirectBufferOf
      split <;> first | exact guarded_pure _ | exact guarded_fail _
  | waitRegMem =>
      exact (guarded_executeWaitRegMem limit polls payload).bind fun _ => guarded_finishWait _ _ _ _
  | waitRegEq | waitRegGte =>
      exact (guarded_executeWaitRegister limit polls _ payload).bind fun _ =>
        guarded_finishWait _ _ _ _
  | condExec | condWrite => exact absurd hopcode Bool.false_ne_true.symm
  | _ =>
      exact (guarded_executeSimple (by simp) predicate payload).bind fun _ => guarded_pure _

/-- The beginning of a packet excuses the monitor where the packet must not begin. -/
theorem guarded_start (limit : WaitLimit) (polls : ℕ → BitVec 32) (opcode : Type3Opcode)
    (predicate : Bool) (payload : List (BitVec 32)) (reader : Reader) :
    Guarded (Logged.log (.start opcode) >>= fun _ =>
      executeSemantic limit polls opcode predicate payload reader) := by
  cases hopcode : opcode.testsUnguarded with
  | true =>
      have hstart : Accepts orderMonitor (fun _ => True) Quiet
          (Logged.log (.start opcode) : Processing Unit) := by
        refine Accepts.log fun watch _ => ?_
        cases watch with
        | excused => exact ⟨.excused, rfl, nofun⟩
        | watching pending =>
            cases pending with
            | true => exact ⟨.excused, if_pos ⟨rfl, hopcode⟩, nofun⟩
            | false => exact ⟨.watching false, rfl, nofun⟩
      exact Accepts.bind hstart
        (fun _ => settling_executeSemantic limit polls hopcode predicate payload reader)
        fun _ _ => trivial
  | false =>
      refine Guarded.bind (Accepts.log fun watch _ => ?_)
        fun _ => guarded_executeSemantic limit polls hopcode predicate payload reader
      cases watch with
      | excused => exact ⟨.excused, rfl, trivial⟩
      | watching pending =>
          exact ⟨.watching pending, if_neg (by simp [hopcode]), trivial⟩

theorem guarded_executeType3 (limit : WaitLimit) (polls : ℕ → BitVec 32) (count : ℕ)
    (opcode : Type3Opcode) (predicate : Bool) (reader : Reader) :
    Guarded (executeType3 limit polls count opcode predicate reader) := by
  refine (guarded_readPayload count reader).bind fun (payload, reader) =>
    guarded_get.bind fun s => ?_
  split_ifs
  · exact guarded_pure _
  · exact guarded_start limit polls opcode predicate payload reader

theorem guarded_executeType0 (registerIndex : ℕ) (writeOneRegister : Bool) (left i : ℕ)
    (reader : Reader) : Guarded (executeType0 registerIndex writeOneRegister left i reader) := by
  induction left generalizing i reader with
  | zero => exact guarded_pure _
  | succ left ih =>
      exact (guarded_read reader).bind fun _ => (guarded_emitRegisterWrite _ _).bind fun _ =>
        ih _ _

theorem guarded_executeBody (limit : WaitLimit) (polls : ℕ → BitVec 32) (header : PacketHeader)
    (reader : Reader) : Guarded (executeBody limit polls header reader) := by
  cases header with
  | type0 => exact (guarded_executeType0 _ _ _ _ _).bind fun _ => guarded_pure _
  | type1 =>
      refine Guarded.bind ?_ fun _ => guarded_pure _
      exact (guarded_read _).bind fun _ => (guarded_emitRegisterWrite _ _).bind fun _ =>
        (guarded_read _).bind fun _ => (guarded_emitRegisterWrite _ _).bind fun _ =>
          guarded_pure _
  | type2 => exact guarded_pure _
  | type3 => exact guarded_executeType3 _ _ _ _ _ _

theorem guarded_executePacket (limit : WaitLimit) (polls : ℕ → BitVec 32) (reader : Reader) :
    Guarded (executePacket limit polls reader) :=
  (guarded_read reader).bind fun _ => guarded_executeBody _ _ _ _

/-! ### Buffers and the ring -/

section Drains

variable (limit : WaitLimit) (polls : ℕ → ℕ → BitVec 32)

theorem guarded_packetStep (reader : Reader) : Guarded (packetStep limit polls reader) :=
  fun s => guarded_executePacket limit (polls s.packets) reader s.processor

theorem guarded_announceBuffer {execute : BitVec 32 → ℕ → ℕ → Driving Unit}
    (hexecute : ∀ address count offset, Guarded (execute address count offset))
    (call : BufferCall) : Guarded (announceBuffer execute call) := by
  refine Guarded.bind (Accepts.log fun watch _ => ?_) fun _ => ?_
  · cases watch <;> exact ⟨_, rfl, trivial⟩
  · split_ifs
    · exact guarded_pure _
    · exact hexecute _ _ _

theorem guarded_enterBuffer {execute : BitVec 32 → ℕ → ℕ → Driving Unit}
    (hexecute : ∀ address count offset, Guarded (execute address count offset))
    (call : BufferCall) : Guarded (enterBuffer execute call) := by
  refine guarded_get.bind fun s => ?_
  have hannounce := guarded_announceBuffer hexecute call
  split
  · split
    · split
      · refine (guarded_modify _).bind fun _ => ?_
        split_ifs
        · exact guarded_pure _
        · exact hexecute _ _ _
      · exact (guarded_modify _).bind fun _ => hannounce
    · exact (guarded_modify _).bind fun _ => hannounce
  · exact hannounce

theorem guarded_drivePacket {execute : BitVec 32 → ℕ → ℕ → Driving Unit}
    (hexecute : ∀ address count offset, Guarded (execute address count offset))
    (reader : Reader) : Guarded (drivePacket limit polls execute reader) := by
  refine (guarded_packetStep limit polls reader).bind fun result => ?_
  cases result with
  | next reader => exact guarded_pure _
  | enter reader call => exact (guarded_enterBuffer hexecute call).bind fun _ => guarded_pure _
  | stalled => exact guarded_fail _

theorem guarded_onStall {α : Type} {m : Driving α} (hm : Guarded m) (f : Machine → Machine) :
    Guarded (onStall m f) := by
  intro s watch hwatch
  have h := hm s watch hwatch
  unfold onStall
  split <;> rename_i heq
  · rw [heq] at h
    exact h
  · exact h

theorem guarded_executePackets {execute : BitVec 32 → ℕ → ℕ → Driving Unit}
    (hexecute : ∀ address count offset, Guarded (execute address count offset))
    (frame : ℕ → ResumeFrame) (fuel : ℕ) (reader : Reader) :
    Guarded (executePackets limit polls execute frame fuel reader) := by
  induction fuel generalizing reader with
  | zero => exact guarded_pure _
  | succ fuel ih =>
      rw [executePackets]
      split_ifs
      · exact guarded_pure _
      · exact (guarded_onStall (guarded_drivePacket limit polls hexecute reader) _).bind
          fun next => ih next

theorem guarded_executeBufferInternal (levels : ℕ) (address : BitVec 32) (count offset : ℕ) :
    Guarded (executeBufferInternal limit polls levels address count offset) := by
  induction levels generalizing address count offset with
  | zero => exact guarded_fail _
  | succ levels ih =>
      refine guarded_get.bind fun s => ?_
      split_ifs
      · exact guarded_fail _
      · refine (guarded_modify _).bind fun _ => ?_
        extract_lets start
        split
        · exact guarded_fail _
        · exact guarded_executePackets limit polls ih _ _ _

theorem guarded_peek (reader : Reader) : Guarded reader.peek := by
  intro s watch _
  unfold Reader.peek
  split_ifs
  · exact ⟨watch, rfl, trivial⟩
  · dsimp only
    split_ifs
    · exact ⟨watch, rfl, trivial⟩
    · cases watch <;> exact ⟨_, rfl, trivial⟩

theorem guarded_ringPacket (reader : Reader) : Guarded (ringPacket polls reader) := by
  intro s watch hwatch
  have h := guarded_drivePacket .ring polls
    (guarded_executeBufferInternal .ring polls (bufferLevels - 1)) reader s watch hwatch
  unfold ringPacket
  split <;> rename_i heq <;> rw [heq] at h <;> exact h

theorem guarded_drainRing (fuel : ℕ) (reader : Reader) : Guarded (drainRing polls fuel reader) := by
  induction fuel generalizing reader with
  | zero => exact (guarded_modify _).bind fun _ => guarded_pure _
  | succ fuel ih =>
      rw [drainRing]
      split_ifs
      · exact (guarded_modify _).bind fun _ => guarded_pure _
      · refine (guarded_peek reader).bind fun word => ?_
        split_ifs
        · exact (guarded_modify _).bind fun _ => guarded_pure _
        · refine (guarded_ringPacket polls reader).bind fun next => ?_
          cases next with
          | none => exact guarded_pure _
          | some next => exact ih next

theorem guarded_executeRing (address : BitVec 32) (capacity readIndex writeIndex : ℕ) :
    Guarded (executeRing polls address capacity readIndex writeIndex) := by
  unfold executeRing
  split_ifs
  · exact guarded_fail _
  · extract_lets
    refine (guarded_modify _).bind fun _ => ?_
    split
    · exact guarded_fail _
    · exact guarded_drainRing polls _ _

end Drains

/-- What a program logs is in order, as long as no packet that tests a condition without
a barrier begins while a draw is pending. -/
theorem Guarded.ordered {S F α : Type} {m : Logged S F Effect α} (h : Guarded m) (s : S)
    (pending : Bool) (hlog : Unpressed pending (m s).2.2) : Ordered pending (m s).2.2 := by
  obtain ⟨watch, hafter, -⟩ := h s (.watching pending) trivial
  exact ordered_of_accepted hafter hlog

/-! ### The backend -/

/-- Every effect that the guest can observe finds all draws before it consumed. -/
def Consumed (c : Consumption) : List Effect → Prop
  | [] => True
  | effect :: log => (effect.visible = true → c.unconsumed = false) ∧ Consumed (c.step effect) log

/-- At every barrier with an unconsumed draw, the count of draws differs from
`draws_at_last_execute_`. -/
def Noticed (c : Consumption) : List Effect → Prop
  | [] => True
  | effect :: log =>
      (effect = .barrier → c.unconsumed = true → c.draws ≠ c.drawsAtLastExecute) ∧
        Noticed (c.step effect) log

instance decidableConsumed : ∀ c log, Decidable (Consumed c log)
  | _, [] => .isTrue trivial
  | c, effect :: log =>
      have := decidableConsumed (c.step effect) log
      inferInstanceAs (Decidable ((_ → _) ∧ _))

instance decidableNoticed : ∀ c log, Decidable (Noticed c log)
  | _, [] => .isTrue trivial
  | c, effect :: log =>
      have := decidableNoticed (c.step effect) log
      inferInstanceAs (Decidable ((_ → _ → _) ∧ _))

/-- The barrier consumes every draw that it notices. -/
theorem atBarrier_unconsumed {c : Consumption}
    (h : c.unconsumed = true → c.draws ≠ c.drawsAtLastExecute) :
    c.atBarrier.unconsumed = false := by
  unfold Consumption.atBarrier
  cases hunconsumed : c.unconsumed with
  | true =>
      rw [if_pos (h hunconsumed)]
      rfl
  | false =>
      split_ifs
      · rfl
      · exact hunconsumed

/-- Where the barrier notices every draw, pending draws are the unconsumed ones. -/
theorem consumed_of_ordered {c : Consumption} {log : List Effect}
    (hlog : Ordered c.unconsumed log) (hnoticed : Noticed c log) : Consumed c log := by
  induction log generalizing c with
  | nil => trivial
  | cons effect log ih =>
      obtain ⟨hvisible, hrest⟩ := hlog
      obtain ⟨hcount, hnoticed⟩ := hnoticed
      refine ⟨hvisible, ih ?_ hnoticed⟩
      have hstep : (c.step effect).unconsumed = effect.pending c.unconsumed := by
        cases effect with
        | barrier => exact atBarrier_unconsumed (hcount rfl)
        | emit command => cases command <;> rfl
        | _ => rfl
      rw [hstep]
      exact hrest

/-- **The guest observes no effect before the draws in front of it.**  In a drain of the
ring where no `COND_EXEC` or `COND_WRITE` begins while a draw is pending, all visible
effects come behind the barrier, and in `submit_ring`, as long as the barrier notices the
draws by their count, behind their consumption. -/
theorem visible_effects_follow_draws (polls : ℕ → ℕ → BitVec 32) (address : BitVec 32)
    (capacity readIndex writeIndex : ℕ) :
    (∀ s pending, Unpressed pending (executeRing polls address capacity readIndex writeIndex s).2.2 →
      Ordered pending (executeRing polls address capacity readIndex writeIndex s).2.2) ∧
    (∀ s : GraphicsSystem,
      Unpressed s.unconsumed (s.submitRing polls address capacity readIndex writeIndex).2.2 →
      Noticed s.consumption (s.submitRing polls address capacity readIndex writeIndex).2.2 →
      Consumed s.consumption (s.submitRing polls address capacity readIndex writeIndex).2.2) := by
  have hguarded := guarded_executeRing polls address capacity readIndex writeIndex
  refine ⟨fun s pending hlog => hguarded.ordered s pending hlog, fun s hlog hnoticed => ?_⟩
  exact consumed_of_ordered (c := s.consumption) (hguarded.ordered _ _ hlog) hnoticed

/-- A draw, and then a write to guest memory. -/
def drawThenWrite : List (BitVec 32) :=
  [0xC0003600, 0x00030084, 0xC0013D00, 0x8000, 7]

/-- A draw, and then a `COND_EXEC` that reads guest memory. -/
def drawThenCondExec : List (BitVec 32) :=
  [0xC0003600, 0x00030084, 0xC0034400, 0x100, 0x100, 0, 0]

/-- A system that was just set up. -/
def GraphicsSystem.initial (memory : ℕ → BitVec 8) : GraphicsSystem :=
  ⟨.initial memory, 0, false⟩

theorem visible_effects_follow_draws_write :
    Ordered false (executeRing (fun _ _ => 0) 0x1000 64 0 5
      (Machine.initial (memoryWith 0x1000 drawThenWrite))).2.2 ∧
    Consumed (GraphicsSystem.initial (memoryWith 0x1000 drawThenWrite)).consumption
      ((GraphicsSystem.initial (memoryWith 0x1000 drawThenWrite)).submitRing (fun _ _ => 0) 0x1000
        64 0 5).2.2 :=
  ⟨(visible_effects_follow_draws (fun _ _ => 0) 0x1000 64 0 5).1 _ false (by decide),
    (visible_effects_follow_draws (fun _ _ => 0) 0x1000 64 0 5).2 _ (by decide)
      (by decide)⟩

/-- The condition of a `COND_EXEC` is evaluated while a draw is pending. -/
theorem cond_exec_before_draw :
    ¬∀ polls address capacity readIndex writeIndex s,
      Ordered false (executeRing polls address capacity readIndex writeIndex s).2.2 := by
  intro h
  have hlog := h (fun _ _ => 0) 0x1000 64 0 7
    (Machine.initial (memoryWith 0x1000 drawThenCondExec))
  revert hlog
  decide

/-- After `reset` the barrier of `submit_ring` misses the draw that brings the count back to
where it was. -/
example : ¬Consumed (((GraphicsSystem.initial (memoryWith 0x1000 drawThenWrite)).submitRing
      (fun _ _ => 0) 0x1000 64 0 5).2.1.reset).consumption
    ((((GraphicsSystem.initial (memoryWith 0x1000 drawThenWrite)).submitRing
      (fun _ _ => 0) 0x1000 64 0 5).2.1.reset).submitRing (fun _ _ => 0) 0x1000 64 0 5).2.2 := by
  decide

end Gpu
end XenonRecomp
