/-
# Critical sections exclude and hand over

`excludes_run`: along every run in which no thread enters while the lock count
is at its maximum, the section is owned by at most one thread, its words are
those of the owner and the waiters, and the right to enter is never lost and
never doubled.

The argument follows one token.  It is with the owner, on its way from a leave
to the event, in the event, or with the waiter that consumed the event, and it
exists exactly while the lock count is not -1.  Every step moves the token or
leaves it where it is (`Tokened`).
-/

import XenonRecomp.Kernel.CriticalSection

namespace XenonRecomp
namespace Kernel

open Library.Transition Library.Interleaving

variable {T : Type} [DecidableEq T]

/-! ### One event and its waits -/

namespace CriticalSection

/-- The only object is the auto-reset event, with this state. -/
def EventIs (w : System Unit T) (signaled : Bool) : Prop :=
  ∃ mirror, w.dispatcher.objects () = .event false signaled mirror

/-- The thread is in the wait of its enter, or about to begin it. -/
def InWait (c : WaitCall Unit T) : WaitStep Unit T → Prop
  | .idle => True
  | .register c' | .check c' | .terminating c' _ | .recheck c' _ | .takeAlert c' _
  | .apcPending c' _ | .deadline c' _ | .sleep c' _ => c' = c
  | .unregister c' outcome => c' = c ∧ (outcome = none ∨ outcome = some .terminating)
  | _ => False

theorem canSatisfy_of_eventIs {w : System Unit T} {signaled : Bool} (h : EventIs w signaled)
    (threadId : ℕ) : w.dispatcher.canSatisfy (.object ()) threadId = signaled := by
  obtain ⟨mirror, h⟩ := h
  simp [Dispatcher.canSatisfy, h, KernelObject.canSatisfy]

/-- The wait takes a signalled event and leaves it unsignalled. -/
theorem trySatisfyWait_enterWait {d : Dispatcher Unit T} {signaled : Bool} {mirror : Option ℤ}
    (h : d.objects () = .event false signaled mirror) (threadId : ℕ) (t : T) :
    d.trySatisfyWait [.object ()] false threadId t =
      if signaled then
        some ⟨d.setObject () (.event false false (mirror.map fun _ => 0)), 0, false, [.object ()]⟩
      else none := by
  simp [Dispatcher.trySatisfyWait, Dispatcher.satisfyFirst, Dispatcher.canSatisfy,
    Dispatcher.satisfy, KernelObject.canSatisfy, KernelObject.satisfy, h]

/-- What a step of the wait of thread `t` does: it goes on, it consumes the
event, it returns what it consumed, or it ends without. -/
inductive WaitTurn (c : WaitCall Unit T) (t : T) (w w' : System Unit T) (signaled : Bool) :
    Option WaitResult → Prop
  | goesOn (hevent : EventIs w' signaled) (hplace : InWait c (w'.steps t))
      (hheld : Held w' t ↔ Held w t) : WaitTurn c t w w' signaled none
  | consumes (hsignaled : signaled = true) (hevent : EventIs w' false)
      (hplace : InWait c (w'.steps t)) (hbefore : ¬ Held w t) (hheld : Held w' t) :
      WaitTurn c t w w' signaled none
  | takesNow (result : WaitResult) (hresult : result ≠ .terminating) (hsignaled : signaled = true)
      (hevent : EventIs w' false) (hplace : w'.steps t = .idle) (hbefore : ¬ Held w t) :
      WaitTurn c t w w' signaled (some result)
  | returns (result : WaitResult) (hresult : result ≠ .terminating) (hevent : EventIs w' signaled)
      (hplace : w'.steps t = .idle) (hbefore : Held w t) :
      WaitTurn c t w w' signaled (some result)
  | ends (hevent : EventIs w' signaled) (hplace : w'.steps t = .idle) (hbefore : ¬ Held w t) :
      WaitTurn c t w w' signaled (some .terminating)

/-- A step that only moves the thread inside its wait. -/
theorem waitTurn_move {c : WaitCall Unit T} {t : T} {w w' : System Unit T} {signaled : Bool}
    (hevent : EventIs w signaled) (hobjects : w'.dispatcher.objects = w.dispatcher.objects)
    (hblocks : w'.dispatcher.blocks t = w.dispatcher.blocks t) (hplace : InWait c (w'.steps t))
    (hregistered : (w'.steps t).registered = (w.steps t).registered) :
    WaitTurn c t w w' signaled none := by
  refine .goesOn ?_ hplace ?_
  · obtain ⟨mirror, h⟩ := hevent
    exact ⟨mirror, by rw [hobjects, h]⟩
  · rw [Held, Held, hregistered, hblocks]

/-- One step of the wait of an enter. -/
theorem waitTurn_step {w : System Unit T} (hreg : Registered w) {signaled : Bool}
    (hevent : EventIs w signaled) {t : T} {threadId : ℕ}
    (hplace : InWait (enterWait threadId) (w.steps t)) :
    WaitTurn (enterWait threadId) t w (w.step (t, .wait (enterWait threadId))).1 signaled
      (w.step (t, .wait (enterWait threadId))).2.result := by
  obtain ⟨mirror, hobject⟩ := hevent
  have hinfinite : (enterWait threadId : WaitCall Unit T).infinite = true := by
    simp [WaitCall.infinite, enterWait]
  have halert : ∀ d : Dispatcher Unit T, d.alertPending t false = false := fun d => by
    simp [Dispatcher.alertPending]
  have hapc : ∀ d : Dispatcher Unit T, d.apcPending t false = false := fun d => by
    simp [Dispatcher.apcPending]
  have htry := trySatisfyWait_enterWait hobject threadId t
  unfold System.step
  cases hstep : w.steps t with
  | idle =>
      simp only [hstep, Dispatcher.turn, Dispatcher.begin]
      have haccepted : (enterWait threadId : WaitCall Unit T).accepted w.dispatcher = true := by
        simp [WaitCall.accepted, enterWait, kMaxWaitObjects, Dispatcher.isWaitable, hobject,
          KernelObject.isWaitable]
      rw [haccepted]
      simp only [Bool.not_true, Bool.false_eq_true, if_false]
      split_ifs
      · exact .ends ⟨mirror, hobject⟩ (by simp) (by simp [Held, hstep, WaitStep.registered])
      · exact waitTurn_move ⟨mirror, hobject⟩ rfl rfl (by simp [InWait])
          (by simp [hstep, WaitStep.registered])
  | register c =>
      obtain rfl : c = enterWait threadId := by simpa [InWait, hstep] using hplace
      have hbefore : ¬ Held w t := by simp [Held, hstep, WaitStep.registered]
      simp only [hstep, Dispatcher.turn, Dispatcher.advance, Dispatcher.registerSection,
        Dispatcher.checkAndRegister]
      rw [show (enterWait threadId : WaitCall Unit T).signal = none from rfl,
        show (enterWait threadId : WaitCall Unit T).alertable = false from rfl]
      simp only [hinfinite, halert, hapc, Bool.not_true, Bool.false_and, Bool.false_eq_true,
        if_false]
      cases signaled with
      | true =>
          rw [show w.dispatcher.trySatisfyWait (enterWait threadId : WaitCall Unit T).objects
            (enterWait threadId : WaitCall Unit T).waitAll
            (enterWait threadId : WaitCall Unit T).waitingThreadId t = _ from htry]
          exact .takesNow .success (by simp) rfl
            ⟨mirror.map fun _ => 0, by simp [Dispatcher.setObject]⟩ (by simp) hbefore
      | false =>
          rw [show w.dispatcher.trySatisfyWait (enterWait threadId : WaitCall Unit T).objects
            (enterWait threadId : WaitCall Unit T).waitAll
            (enterWait threadId : WaitCall Unit T).waitingThreadId t = _ from htry]
          refine .goesOn ⟨mirror, hobject⟩ (by simp [InWait]) (iff_of_false ?_ hbefore)
          simp [Held, Dispatcher.setBlock, Dispatcher.addTo, WaitCall.block]
  | check c =>
      obtain rfl : c = enterWait threadId := by simpa [InWait, hstep] using hplace
      simp only [hstep, Dispatcher.turn, Dispatcher.advance]
      split_ifs <;> exact waitTurn_move ⟨mirror, hobject⟩ rfl rfl (by simp [InWait])
        (by simp [hstep, WaitStep.registered])
  | terminating c observed =>
      obtain rfl : c = enterWait threadId := by simpa [InWait, hstep] using hplace
      simp only [hstep, Dispatcher.turn, Dispatcher.advance]
      split_ifs <;> exact waitTurn_move ⟨mirror, hobject⟩ rfl rfl (by simp [InWait])
        (by simp [hstep, WaitStep.registered])
  | recheck c observed =>
      obtain rfl : c = enterWait threadId := by simpa [InWait, hstep] using hplace
      simp only [hstep, Dispatcher.turn, Dispatcher.advance, Dispatcher.recheckSection]
      split_ifs with hgranted
      · exact waitTurn_move ⟨mirror, hobject⟩ rfl rfl (by simp [InWait])
          (by simp [hstep, WaitStep.registered])
      · rw [show w.dispatcher.trySatisfyWait (enterWait threadId : WaitCall Unit T).objects
          (enterWait threadId : WaitCall Unit T).waitAll
          (enterWait threadId : WaitCall Unit T).waitingThreadId t = _ from htry]
        cases signaled with
        | true =>
            refine .consumes rfl ⟨mirror.map fun _ => 0, ?_⟩ (by simp [InWait]) ?_ ?_
            · simp [Dispatcher.grant, Dispatcher.setBlock, Dispatcher.setObject]
            · exact fun hheld => hgranted (Option.isSome_iff_ne_none.mpr hheld.2)
            · simp [Held, WaitStep.registered, Dispatcher.grant, Dispatcher.setBlock]
        | false =>
            exact waitTurn_move ⟨mirror, hobject⟩ rfl rfl (by simp [InWait])
              (by simp [hstep, WaitStep.registered])
  | takeAlert c observed =>
      obtain rfl : c = enterWait threadId := by simpa [InWait, hstep] using hplace
      simp only [hstep, Dispatcher.turn, Dispatcher.advance]
      rw [show (enterWait threadId : WaitCall Unit T).alertable = false from rfl, halert]
      exact waitTurn_move ⟨mirror, hobject⟩ rfl rfl (by simp [InWait])
        (by simp [hstep, WaitStep.registered])
  | apcPending c observed =>
      obtain rfl : c = enterWait threadId := by simpa [InWait, hstep] using hplace
      simp only [hstep, Dispatcher.turn, Dispatcher.advance]
      rw [show (enterWait threadId : WaitCall Unit T).alertable = false from rfl, hapc]
      exact waitTurn_move ⟨mirror, hobject⟩ rfl rfl (by simp [InWait])
        (by simp [hstep, WaitStep.registered])
  | deadline c observed =>
      obtain rfl : c = enterWait threadId := by simpa [InWait, hstep] using hplace
      simp only [hstep, Dispatcher.turn, Dispatcher.advance, hinfinite]
      exact waitTurn_move ⟨mirror, hobject⟩ rfl rfl (by simp [InWait])
        (by simp [hstep, WaitStep.registered])
  | sleep c observed =>
      obtain rfl : c = enterWait threadId := by simpa [InWait, hstep] using hplace
      simp only [hstep, Dispatcher.turn, Dispatcher.advance, hinfinite]
      split_ifs <;> exact waitTurn_move ⟨mirror, hobject⟩ rfl rfl (by simp [InWait])
        (by simp [hstep, WaitStep.registered])
  | unregister c outcome =>
      rw [hstep] at hplace
      obtain ⟨rfl, houtcome⟩ := hplace
      simp only [hstep, Dispatcher.turn, Dispatcher.advance, Dispatcher.unregisterSection]
      cases hgranted : (w.dispatcher.blocks t).granted with
      | some grant =>
          obtain ⟨index, abandoned⟩ := grant
          refine .returns _ ?_ ⟨mirror, hobject⟩ (by simp) ?_
          · cases abandoned <;> simp
          · simp [Held, hstep, WaitStep.registered, hgranted]
      | none =>
          have hheld : ¬ Held w t := fun h => h.2 hgranted
          rcases houtcome with rfl | rfl
          · exact absurd hgranted ((hreg.stands t).granted _ hstep)
          · exact .ends ⟨mirror, hobject⟩ (by simp) hheld
  | _ => simp [InWait, hstep] at hplace

/-- A step that signals nothing grants no wait of another thread. -/
theorem granted_turn_of_ne {d : Dispatcher Unit T} {t u : T} {action : Action Unit T}
    {place : WaitStep Unit T} (hsignalled : place.signalled action = none) (hu : u ≠ t) :
    ((d.turn t action place).1.blocks u).granted = (d.blocks u).granted := by
  cases place with
  | idle =>
      cases action with
      | operate op => simp [WaitStep.signalled] at hsignalled
      | _ =>
          simp only [Dispatcher.turn, Dispatcher.begin, Dispatcher.flag]
          try split_ifs
          all_goals rfl
  | register c =>
      simp only [WaitStep.signalled, Option.map_eq_none_iff] at hsignalled
      simp only [Dispatcher.turn, Dispatcher.advance, Dispatcher.registerSection, hsignalled,
        Dispatcher.checkAndRegister]
      split
      · rename_i r hr
        rw [(Dispatcher.consumes_trySatisfyWait hr).blocks]
      · split_ifs
        · rfl
        · rfl
        · rfl
        · simp [Dispatcher.setBlock, Dispatcher.addTo, Function.update_of_ne hu]
  | recheck c observed =>
      simp only [Dispatcher.turn, Dispatcher.advance, Dispatcher.recheckSection]
      split_ifs
      · rfl
      · split
        · rename_i r hr
          simp [Dispatcher.grant, Dispatcher.setBlock, Function.update_of_ne hu,
            (Dispatcher.consumes_trySatisfyWait hr).blocks]
        · rfl
  | unregister c outcome =>
      simp only [Dispatcher.turn, Dispatcher.advance, Dispatcher.unregisterSection]
      split <;> rfl
  | notifying target =>
      simp only [Dispatcher.turn, Dispatcher.advance, Dispatcher.notifyAlways]
      split_ifs <;> rfl
  | delayAlert delay alertable registered =>
      simp only [Dispatcher.turn, Dispatcher.advance, Dispatcher.endDelay]
      split_ifs <;> rfl
  | delayApc delay alertable registered =>
      simp only [Dispatcher.turn, Dispatcher.advance, Dispatcher.endDelay]
      split_ifs
      all_goals try rfl
      simp [Dispatcher.setBlock, Dispatcher.addTo, Function.update_of_ne hu]
  | _ =>
      simp only [Dispatcher.turn, Dispatcher.advance, Dispatcher.endDelay]
      try split_ifs
      all_goals rfl

/-- Such a step holds and releases nothing of another thread. -/
theorem held_step_of_ne {w : System Unit T} {e : T × Action Unit T} {u : T} (hu : u ≠ e.1)
    (hsignalled : (w.steps e.1).signalled e.2 = none) : Held (w.step e).1 u ↔ Held w u := by
  have hsteps : (w.step e).1.steps u = w.steps u := by
    simp [System.step, Function.update_of_ne hu]
  have hgranted : ((w.step e).1.dispatcher.blocks u).granted = (w.dispatcher.blocks u).granted :=
    granted_turn_of_ne hsignalled hu
  rw [Held, Held, hsteps, hgranted]

/-! ### The set of the event -/

/-- An unsignalled event satisfies nobody. -/
theorem satisfyList_unsignalled {d : Dispatcher Unit T} {mirror : Option ℤ}
    (h : d.objects () = .event false false mirror) (ts : List T)
    (hblocks : ∀ t ∈ ts, (d.blocks t).objects = [.object ()] ∧ (d.blocks t).waitAll = false) :
    d.satisfyList ts = (d, []) := by
  induction ts with
  | nil => rfl
  | cons t ts ih =>
      obtain ⟨hobjects, hall⟩ := hblocks t List.mem_cons_self
      have hturn : d.satisfyWaiter t = (d, []) := by
        unfold Dispatcher.satisfyWaiter
        dsimp only
        rw [hobjects, hall, trySatisfyWait_enterWait h]
        simp
      rw [Dispatcher.satisfyList, hturn]
      dsimp only
      rw [ih fun u hu => hblocks u (List.mem_cons_of_mem t hu)]
      rfl

/-- A signalled event satisfies the oldest wait that is not granted, if any. -/
theorem satisfyList_signalled {d : Dispatcher Unit T} {mirror : Option ℤ}
    (h : d.objects () = .event false true mirror) (ts : List T)
    (hblocks : ∀ t ∈ ts, (d.blocks t).objects = [.object ()] ∧ (d.blocks t).waitAll = false) :
    (d.satisfyList ts).1 = d ∨ ∃ u ∈ ts, (d.blocks u).granted = none ∧
      (d.satisfyList ts).1 =
        (d.setObject () (.event false false (mirror.map fun _ => 0))).grant u 0 false := by
  induction ts with
  | nil => exact .inl rfl
  | cons t ts ih =>
      obtain ⟨hobjects, hall⟩ := hblocks t List.mem_cons_self
      have hrest := ih fun u hu => hblocks u (List.mem_cons_of_mem t hu)
      cases hgranted : (d.blocks t).granted with
      | some grant =>
          have hturn : d.satisfyWaiter t = (d, []) := by
            simp [Dispatcher.satisfyWaiter, hgranted]
          rw [Dispatcher.satisfyList, hturn]
          refine hrest.imp id ?_
          rintro ⟨u, hu, hnone, heq⟩
          exact ⟨u, List.mem_cons_of_mem t hu, hnone, heq⟩
      | none =>
          have hturn : (d.satisfyWaiter t).1 =
              (d.setObject () (.event false false (mirror.map fun _ => 0))).grant t 0 false := by
            unfold Dispatcher.satisfyWaiter
            dsimp only
            rw [hobjects, hall, trySatisfyWait_enterWait h, hgranted]
            simp
          refine .inr ⟨t, List.mem_cons_self, hgranted, ?_⟩
          have hoff : ((d.setObject () (.event false false (mirror.map fun _ => 0))).grant t 0
              false).objects () = .event false false (mirror.map fun _ => 0) := by
            simp [Dispatcher.grant, Dispatcher.setBlock, Dispatcher.setObject]
          rw [Dispatcher.satisfyList]
          dsimp only
          rw [hturn, satisfyList_unsignalled hoff]
          · intro u hu
            obtain ⟨hobjects', hall'⟩ := hblocks u (List.mem_cons_of_mem t hu)
            by_cases hut : u = t
            · subst hut
              simp [Dispatcher.grant, Dispatcher.setBlock, Dispatcher.setObject, hobjects, hall]
            · simp [Dispatcher.grant, Dispatcher.setBlock, Dispatcher.setObject,
                Function.update_of_ne hut, hobjects', hall']

/-- The set of an event that nobody holds signals it or hands it to one waiter. -/
theorem setEvent_step {w : System Unit T} (hreg : Registered w) (hevent : EventIs w false)
    (hwaits : ∀ u c, (w.steps u).registered = some c → ∃ id, c = enterWait id)
    (hheld : ∀ u, ¬ Held w u) {t : T} (ht : w.steps t = .idle) :
    (∀ u, (w.step (t, .operate (.setEvent ()))).1.steps u = w.steps u) ∧
      ((EventIs (w.step (t, .operate (.setEvent ()))).1 true ∧
          ∀ u, ¬ Held (w.step (t, .operate (.setEvent ()))).1 u) ∨
        ∃ v, EventIs (w.step (t, .operate (.setEvent ()))).1 false ∧
          ∀ u, Held (w.step (t, .operate (.setEvent ()))).1 u ↔ u = v) := by
  obtain ⟨mirror, hobject⟩ := hevent
  have hsteps : ∀ u, (w.step (t, .operate (.setEvent ()))).1.steps u = w.steps u := by
    intro u
    simp only [System.step, ht, Dispatcher.turn, Dispatcher.begin]
    by_cases hu : u = t
    · simp [hu, ht]
    · simp [Function.update_of_ne hu]
  refine ⟨hsteps, ?_⟩
  have hlist : ∀ u ∈ w.dispatcher.lists (.object ()),
      (w.dispatcher.blocks u).objects = [.object ()] ∧ (w.dispatcher.blocks u).waitAll = false ∧
        (w.steps u).registered ≠ none := by
    intro u hu
    obtain ⟨c, hc⟩ := (hreg.stands u).registered_of_mem hu
    obtain ⟨hobjects, hall, -⟩ := (hreg.stands u).sameWait c hc
    obtain ⟨id, rfl⟩ := hwaits u c hc
    exact ⟨hobjects, hall, by simp [hc]⟩
  have hon : (w.dispatcher.setObject () (.event false true mirror)).objects () =
      .event false true mirror := by simp [Dispatcher.setObject]
  have hwalk := satisfyList_signalled hon (w.dispatcher.lists (.object ()))
    (fun u hu => ⟨(hlist u hu).1, (hlist u hu).2.1⟩)
  have hafter : (w.step (t, .operate (.setEvent ()))).1.dispatcher =
      ((w.dispatcher.setObject () (.event false true mirror)).satisfyList
        (w.dispatcher.lists (.object ()))).1.modifyObject () .storeState := by
    simp [System.step, ht, Dispatcher.turn, Dispatcher.begin, Dispatcher.operate, hobject,
      Dispatcher.setEvent, Dispatcher.signal_eq]
  rcases hwalk with hnobody | ⟨v, hv, -, hone⟩
  · rw [hnobody] at hafter
    refine .inl ⟨⟨mirror.map fun _ => 1, ?_⟩, fun u hu => hheld u ⟨?_, ?_⟩⟩
    · simp [hafter, Dispatcher.modifyObject, Dispatcher.setObject, KernelObject.storeState]
    · rw [← hsteps u]
      exact hu.1
    · have hgranted := hu.2
      rw [hafter] at hgranted
      exact hgranted
  · rw [hone] at hafter
    refine .inr ⟨v, ⟨mirror.map fun _ => 0, ?_⟩, fun u => ⟨fun hu => ?_, fun huv => ?_⟩⟩
    · simp [hafter, Dispatcher.modifyObject, Dispatcher.setObject, Dispatcher.grant,
        Dispatcher.setBlock, KernelObject.storeState, Function.comp_def]
    · by_contra hne
      refine hheld u ⟨by rw [← hsteps u]; exact hu.1, ?_⟩
      have hgranted := hu.2
      rw [hafter] at hgranted
      simpa [Dispatcher.modifyObject, Dispatcher.setObject, Dispatcher.grant,
        Dispatcher.setBlock, Function.update_of_ne hne] using hgranted
    · subst huv
      refine ⟨by rw [hsteps u]; exact (hlist u hv).2.2, ?_⟩
      rw [hafter]
      simp [Dispatcher.modifyObject, Dispatcher.setObject, Dispatcher.grant, Dispatcher.setBlock]

/-! ### Words -/

theorem toInt_add_one {x : BitVec 32} (h : x ≠ 0x7FFFFFFF) : (x + 1).toInt = x.toInt + 1 := by
  have hne : x.toNat ≠ 2 ^ 31 - 1 := fun hx => h (BitVec.eq_of_toNat_eq (by simpa using hx))
  have hlt := x.isLt
  have hadd : (x + 1).toNat = (x.toNat + 1) % 2 ^ 32 := by simp [BitVec.toNat_add]
  rw [BitVec.toInt_eq_toNat_cond, BitVec.toInt_eq_toNat_cond, hadd]
  split_ifs <;> omega

theorem toInt_sub_one {x : BitVec 32} (h : 0 ≤ x.toInt) : (x - 1).toInt = x.toInt - 1 := by
  have hlt := x.isLt
  have hsub : (x - 1).toNat = (2 ^ 32 - 1 + x.toNat) % 2 ^ 32 := by simp [BitVec.toNat_sub]
  rw [BitVec.toInt_eq_toNat_cond] at h
  rw [BitVec.toInt_eq_toNat_cond, BitVec.toInt_eq_toNat_cond, hsub]
  split_ifs at h ⊢ <;> omega

theorem eq_neg_one_iff {x : BitVec 32} : x = -1 ↔ x.toInt = -1 := by
  rw [← BitVec.toInt_inj]
  have : (-1 : BitVec 32).toInt = -1 := by decide
  rw [this]

/-! ### The token -/

/-- Where the right to enter is. -/
inductive Token (T : Type) where
  | owner (t : T)
  | setting (t : T)
  | event
  | waiter (t : T)
deriving DecidableEq, Repr

/-- The token is not with the thread. -/
def Away (k : Option (Token T)) (t : T) : Prop :=
  k ≠ some (.owner t) ∧ k ≠ some (.setting t) ∧ k ≠ some (.waiter t)

/-- The thread is in no wait. -/
def Calm (place : WaitStep Unit T) : Prop := place = .idle ∨ ∃ u, place = .notifying u

variable {marker : T → BitVec 32} {threadId : T → ℕ}

/-- What holds of a thread at its place, with the token at `k`. -/
def PlaceOk (marker : T → BitVec 32) (threadId : T → ℕ) (s : CriticalSection T)
    (k : Option (Token T)) (t : T) : SectionPlace → Prop
  | .outside => Calm (s.waits.steps t) ∧ Away k t
  | .inside depth => Calm (s.waits.steps t) ∧ k = some (.owner t) ∧ 0 < depth ∧
      s.recursionCount.toNat = depth ∧ s.owningThread = marker t
  | .waiting => InWait (enterWait (threadId t)) (s.waits.steps t) ∧
      (Held s.waits t ↔ k = some (.waiter t)) ∧ k ≠ some (.owner t) ∧ k ≠ some (.setting t)
  | .woken => s.waits.steps t = .idle ∧ k = some (.waiter t)
  | .setting => s.waits.steps t = .idle ∧ k = some (.setting t)
  | .ended => s.waits.steps t = .idle ∧ Away k t

/-- A thread that does not move keeps its place when its wait, its part of the
token and, if it is the owner, the words are as they were. -/
theorem PlaceOk.frame {s s' : CriticalSection T} {k k' : Option (Token T)} {t : T}
    {place : SectionPlace} (h : PlaceOk marker threadId s k t place)
    (hsteps : s'.waits.steps t = s.waits.steps t) (hheld : Held s'.waits t ↔ Held s.waits t)
    (howner : k' = some (.owner t) ↔ k = some (.owner t))
    (hsetting : k' = some (.setting t) ↔ k = some (.setting t))
    (hwaiter : k' = some (.waiter t) ↔ k = some (.waiter t))
    (hwords : k = some (.owner t) →
      s'.recursionCount = s.recursionCount ∧ s'.owningThread = s.owningThread) :
    PlaceOk marker threadId s' k' t place := by
  cases place with
  | outside => simpa [PlaceOk, Away, hsteps, howner, hsetting, hwaiter] using h
  | inside depth =>
      obtain ⟨hcalm, hk, hdepth, hrec, hown⟩ := h
      obtain ⟨hrec', hown'⟩ := hwords hk
      exact ⟨hsteps ▸ hcalm, howner.mpr hk, hdepth, by rw [hrec', hrec], by rw [hown', hown]⟩
  | waiting => simpa [PlaceOk, hsteps, hheld, howner, hsetting, hwaiter] using h
  | woken => simpa [PlaceOk, hsteps, hwaiter] using h
  | setting => simpa [PlaceOk, hsteps, hsetting] using h
  | ended => simpa [PlaceOk, Away, hsteps, howner, hsetting, hwaiter] using h

/-- The registration of a thread at its place is for the wait of an enter. -/
theorem PlaceOk.enterWait {s : CriticalSection T} {k : Option (Token T)} {t : T}
    {place : SectionPlace} (h : PlaceOk marker threadId s k t place) {c : WaitCall Unit T}
    (hc : (s.waits.steps t).registered = some c) :
    place = .waiting ∧ c = Kernel.enterWait (threadId t) := by
  have hcalm : ∀ {p : WaitStep Unit T}, Calm p → p.registered = none := by
    rintro p (rfl | ⟨u, rfl⟩) <;> rfl
  have hidle : ∀ {p : WaitStep Unit T}, p = .idle → p.registered = none := by
    rintro p rfl
    rfl
  cases place with
  | waiting =>
      refine ⟨rfl, ?_⟩
      have hplace := h.1
      cases hstep : s.waits.steps t with
      | unregister c' outcome =>
          rw [hstep] at hplace hc
          obtain rfl : c' = c := Option.some.inj hc
          exact hplace.1
      | _ => simp_all [InWait, WaitStep.registered]
  | outside => simp [hcalm h.1] at hc
  | inside depth => simp [hcalm h.1] at hc
  | woken => simp [hidle h.1] at hc
  | setting => simp [hidle h.1] at hc
  | ended => simp [hidle h.1] at hc

variable [Fintype T]

/-- **The invariant**, with the token at `k`. -/
structure Tokened (marker : T → BitVec 32) (threadId : T → ℕ) (s : CriticalSection T)
    (k : Option (Token T)) : Prop where
  registered : Registered s.waits
  event : EventIs s.waits (decide (k = some .event))
  places : ∀ t, PlaceOk marker threadId s k t (s.places t)
  unowned : (∀ t, k ≠ some (.owner t)) → s.owningThread = 0 ∧ s.recursionCount = 0
  counted : s.lockCount.toInt + 1 =
    s.recursionCount.toNat + count SectionPlace.isWaiter s.places
  free : k = none ↔ s.lockCount = -1

variable {s : CriticalSection T} {k : Option (Token T)} {t : T}

theorem Tokened.inside_of_owner (h : Tokened marker threadId s k) (hk : k = some (.owner t)) :
    ∃ depth, s.places t = .inside depth := by
  have hplace := h.places t
  cases hp : s.places t with
  | inside depth => exact ⟨depth, rfl⟩
  | _ =>
      rw [hp] at hplace
      simp [PlaceOk, Away, hk] at hplace

/-- The owner word tells who has the token. -/
theorem Tokened.owner_of_word (h : Tokened marker threadId s k) (hinj : Function.Injective marker)
    (hzero : ∀ u, marker u ≠ 0) (hword : s.owningThread = marker t) : k = some (.owner t) := by
  by_cases hk : ∃ u, k = some (.owner u)
  · obtain ⟨u, rfl⟩ := hk
    obtain ⟨depth, hplace⟩ := h.inside_of_owner rfl
    have hok := h.places u
    rw [hplace] at hok
    obtain rfl : u = t := hinj (hok.2.2.2.2.symm.trans hword)
    rfl
  · have hfree := (h.unowned fun u hu => hk ⟨u, hu⟩).1
    exact absurd (hword.symm.trans hfree) (hzero t)

/-- A thread that moves keeps its part of the count. -/
theorem count_goTo (places : T → SectionPlace) (t : T) (place : SectionPlace) :
    count SectionPlace.isWaiter (Function.update places t place) + (places t).isWaiter.toNat =
      count SectionPlace.isWaiter places + place.isWaiter.toNat :=
  count_update _ places t place

/-- The owner goes one layer deeper. -/
theorem Tokened.deepen (h : Tokened marker threadId s k) (hk : k = some (.owner t))
    (hroom : s.lockCount ≠ 0x7FFFFFFF) :
    Tokened marker threadId
      ({ s with
        lockCount := s.lockCount + 1
        recursionCount := s.recursionCount + 1 }.goTo t (deeper (s.places t))) k := by
  obtain ⟨depth, hplace⟩ := h.inside_of_owner hk
  have hok := h.places t
  rw [hplace] at hok
  obtain ⟨hcalm, -, hdepth, hrec, hown⟩ := hok
  have hcount := count_goTo s.places t (.inside (depth + 1))
  have hsum := h.counted
  have hmax : s.lockCount.toInt < 2 ^ 31 := by
    have := BitVec.toInt_lt (x := s.lockCount)
    simpa using this
  have hrec' : (s.recursionCount + 1).toNat = depth + 1 := by
    rw [BitVec.toNat_add, hrec]
    refine Nat.mod_eq_of_lt ?_
    simp
    omega
  have hlock := toInt_add_one hroom
  rw [hplace] at hcount ⊢
  simp only [SectionPlace.isWaiter, Bool.toNat_false, Nat.add_zero] at hcount
  refine ⟨h.registered, h.event, forall_update (Q := fun u p => PlaceOk _ _ _ k u p) ?_ ?_,
    fun hno => absurd hk (hno t), ?_, ?_⟩
  · exact ⟨hcalm, hk, Nat.succ_pos depth, hrec', hown⟩
  · intro u hu
    refine (h.places u).frame rfl .rfl .rfl .rfl .rfl fun hku => ?_
    rw [hk] at hku
    exact absurd (Token.owner.inj (Option.some.inj hku)).symm hu
  · simp only [goTo, deeper, hlock, hrec', hcount]
    omega
  · simp only [goTo]
    rw [hk, eq_neg_one_iff, hlock]
    simp only [reduceCtorEq, false_iff]
    omega

/-- A free section is taken. -/
theorem Tokened.acquire (h : Tokened marker threadId s k) (hfree : s.lockCount = -1)
    (hcalm : Calm (s.waits.steps t)) (hplace : (s.places t).isWaiter = false) :
    Tokened marker threadId
      ({ s with
        lockCount := 0
        owningThread := marker t
        recursionCount := 1 }.goTo t (.inside 1)) (some (.owner t)) := by
  obtain rfl : k = none := h.free.mpr hfree
  have hcount := count_goTo s.places t (.inside 1)
  rw [hplace] at hcount
  simp only [SectionPlace.isWaiter, Bool.toNat_false, Nat.add_zero] at hcount
  have hsum := h.counted
  rw [eq_neg_one_iff.mp hfree] at hsum
  refine ⟨h.registered, ?_, forall_update (Q := fun u p => PlaceOk _ _ _ _ u p) ?_ ?_,
    fun hno => absurd rfl (hno t), ?_, ?_⟩
  · simpa [goTo] using h.event
  · exact ⟨hcalm, rfl, Nat.one_pos, rfl, rfl⟩
  · intro u hu
    refine (h.places u).frame rfl .rfl ?_ (by simp) (by simp) (by simp)
    simpa using fun htu : t = u => hu htu.symm
  · have hzero : (0 : BitVec 32).toInt = 0 := by decide
    have hone : (1 : BitVec 32).toNat = 1 := by decide
    simp only [goTo, hcount, hzero, hone]
    omega
  · simp [goTo]

/-- A contended enter registers its thread. -/
theorem Tokened.contend (h : Tokened marker threadId s k) (hbusy : s.lockCount ≠ -1)
    (hroom : s.lockCount ≠ 0x7FFFFFFF) (hidle : s.waits.steps t = .idle)
    (hplace : s.places t = .outside) :
    Tokened marker threadId ({ s with lockCount := s.lockCount + 1 }.goTo t .waiting) k := by
  have hok := h.places t
  rw [hplace] at hok
  obtain ⟨-, howner, hsetting, hwaiter⟩ := hok
  have hcount := count_goTo s.places t .waiting
  rw [hplace] at hcount
  simp only [SectionPlace.isWaiter, Bool.toNat_false, Bool.toNat_true, Nat.add_zero] at hcount
  have hlock := toInt_add_one hroom
  have hsum := h.counted
  have hbusy' : s.lockCount.toInt ≠ -1 := fun hx => hbusy (eq_neg_one_iff.mpr hx)
  refine ⟨h.registered, h.event, forall_update (Q := fun u p => PlaceOk _ _ _ k u p) ?_ ?_,
    h.unowned, ?_, ?_⟩
  · refine ⟨by simp [goTo, hidle, InWait], iff_of_false ?_ hwaiter, howner, hsetting⟩
    simp [Held, goTo, hidle, WaitStep.registered]
  · exact fun u hu => (h.places u).frame rfl .rfl .rfl .rfl .rfl fun _ => ⟨rfl, rfl⟩
  · simp only [goTo, hcount, hlock]
    push_cast
    omega
  · simp only [goTo]
    rw [h.free, eq_neg_one_iff, eq_neg_one_iff, hlock]
    omega

/-- A woken waiter takes over. -/
theorem Tokened.takeOver (h : Tokened marker threadId s k) (hplace : s.places t = .woken) :
    Tokened marker threadId (s.takeOver marker t) (some (.owner t)) := by
  have hok := h.places t
  rw [hplace] at hok
  obtain ⟨hidle, rfl⟩ := hok
  have hcount := count_goTo s.places t (.inside 1)
  rw [hplace] at hcount
  simp only [SectionPlace.isWaiter, Bool.toNat_false, Bool.toNat_true, Nat.add_zero] at hcount
  obtain ⟨-, hrec⟩ := h.unowned (by simp)
  have hsum := h.counted
  have hone : (1 : BitVec 32).toNat = 1 := by decide
  refine ⟨h.registered, ?_, forall_update (Q := fun u p => PlaceOk _ _ _ _ u p) ?_ ?_,
    fun hno => absurd rfl (hno t), ?_, ?_⟩
  · simpa [CriticalSection.takeOver, goTo] using h.event
  · exact ⟨.inl hidle, rfl, Nat.one_pos, rfl, rfl⟩
  · intro u hu
    refine (h.places u).frame rfl .rfl ?_ (by simp) ?_ (by simp)
    · simpa using fun htu : t = u => hu htu.symm
    · simpa using fun htu : t = u => hu htu.symm
  · rw [hrec] at hsum
    have hzero : (0 : BitVec 32).toNat = 0 := by decide
    simp only [CriticalSection.takeOver, goTo, hone]
    rw [hzero] at hsum
    omega
  · simpa [CriticalSection.takeOver, goTo] using h.free

/-- The owner leaves one layer, the section to nobody, or the section to the
event. -/
theorem Tokened.leave (h : Tokened marker threadId s k) {depth : ℕ}
    (hplace : s.places t = .inside depth) (hidle : s.waits.steps t = .idle) :
    ∃ k', Tokened marker threadId (s.leave t depth) k' := by
  have hok := h.places t
  rw [hplace] at hok
  obtain ⟨hcalm, rfl, hdepth, hrec, hown⟩ := hok
  have hsum := h.counted
  have hne : s.recursionCount ≠ 0 := fun hz => by
    rw [hz] at hrec
    simp at hrec
    omega
  have hrec' : (s.recursionCount - 1).toNat = depth - 1 := by
    have hlt := s.recursionCount.isLt
    have hone : (1 : BitVec 32).toNat = 1 := by decide
    rw [BitVec.toNat_sub, hrec, hone]
    omega
  have hlock := toInt_sub_one (x := s.lockCount) (by omega)
  have hothers : ∀ (s' : CriticalSection T) (k' : Option (Token T)), s'.waits = s.waits →
      (∀ u, u ≠ t → k' ≠ some (.owner u) ∧ k' ≠ some (.setting u) ∧ k' ≠ some (.waiter u)) →
      ∀ u, u ≠ t → PlaceOk marker threadId s' k' u (s.places u) := by
    intro s' k' hwaits hk' u hu
    obtain ⟨ho, hs, hw⟩ := hk' u hu
    refine (h.places u).frame (by rw [hwaits]) (by rw [hwaits]) (iff_of_false ho ?_)
      (iff_of_false hs (by simp)) (iff_of_false hw (by simp)) ?_
    · simpa using fun htu : t = u => hu htu.symm
    · intro hku
      exact absurd (Token.owner.inj (Option.some.inj hku)).symm hu
  unfold CriticalSection.leave
  rw [if_neg hne]
  dsimp only
  split_ifs with hnested hwake
  · -- Still inside, one layer less.
    have hcount := count_goTo s.places t (.inside (depth - 1))
    rw [hplace] at hcount
    simp only [SectionPlace.isWaiter, Bool.toNat_false, Nat.add_zero] at hcount
    have hdeep : depth - 1 ≠ 0 := fun hz =>
      hnested (BitVec.eq_of_toNat_eq (by rw [hrec', hz]; rfl))
    refine ⟨some (.owner t), h.registered, h.event,
      forall_update (Q := fun u p => PlaceOk _ _ _ _ u p) ?_
        (hothers _ _ rfl fun u hu => by simpa using fun htu : t = u => hu htu.symm),
      fun hno => absurd rfl (hno t), ?_, ?_⟩
    · exact ⟨hcalm, rfl, by omega, hrec', hown⟩
    · simp only [goTo, hcount, hlock, hrec']
      omega
    · simp only [goTo]
      rw [eq_neg_one_iff, hlock]
      simp only [reduceCtorEq, false_iff]
      omega
  · -- To a registered waiter, through the event.
    have hcount := count_goTo s.places t .setting
    rw [hplace] at hcount
    simp only [SectionPlace.isWaiter, Bool.toNat_false, Nat.add_zero] at hcount
    have hone : depth - 1 = 0 := by
      rw [← hrec', not_not.mp hnested]
      rfl
    refine ⟨some (.setting t), h.registered, by simpa [goTo] using h.event,
      forall_update (Q := fun u p => PlaceOk _ _ _ _ u p) ?_
        (hothers _ _ rfl fun u hu => by simpa using fun htu : t = u => hu htu.symm),
      fun _ => ⟨rfl, not_not.mp hnested⟩, ?_, ?_⟩
    · exact ⟨hidle, rfl⟩
    · simp only [goTo, hcount, hlock, hrec']
      omega
    · simpa [goTo] using hwake
  · have hcount := count_goTo s.places t .outside
    rw [hplace] at hcount
    simp only [SectionPlace.isWaiter, Bool.toNat_false, Nat.add_zero] at hcount
    have hone : depth - 1 = 0 := by
      rw [← hrec', not_not.mp hnested]
      rfl
    refine ⟨none, h.registered, by simpa [goTo] using h.event,
      forall_update (Q := fun u p => PlaceOk _ _ _ _ u p) ?_
        (hothers _ _ rfl fun u hu => by simp),
      fun _ => ⟨rfl, not_not.mp hnested⟩, ?_, ?_⟩
    · exact ⟨hcalm, by simp [Away]⟩
    · simp only [goTo, hcount, hlock, hrec']
      omega
    · simpa [goTo] using hwake

/-- A step of thread `t` inside the dispatcher that signals nothing: the other
threads stay as they are, if the token does not come to them or leave them. -/
theorem Tokened.others_of_step (h : Tokened marker threadId s k) {action : Action Unit T}
    (hsignalled : (s.waits.steps t).signalled action = none) (s' : CriticalSection T)
    {k' : Option (Token T)} (hwaits : s'.waits = (s.waits.step (t, action)).1)
    (hwords : s'.recursionCount = s.recursionCount ∧ s'.owningThread = s.owningThread)
    (hk : ∀ u, u ≠ t → (k' = some (.owner u) ↔ k = some (.owner u)) ∧
      (k' = some (.setting u) ↔ k = some (.setting u)) ∧
      (k' = some (.waiter u) ↔ k = some (.waiter u))) :
    ∀ u, u ≠ t → PlaceOk marker threadId s' k' u (s.places u) := by
  intro u hu
  obtain ⟨howner, hsetting, hwaiter⟩ := hk u hu
  refine (h.places u).frame ?_ ?_ howner hsetting hwaiter fun _ => hwords
  · rw [hwaits]
    simp [System.step, Function.update_of_ne hu]
  · rw [hwaits]
    exact held_step_of_ne hu hsignalled

/-- A call that only goes into the dispatcher, such as a termination. -/
theorem Tokened.kernelCall (h : Tokened marker threadId s k) {action : Action Unit T}
    (hplace : s.places t = .outside ∨ ∃ depth, s.places t = .inside depth)
    (hsignalled : (s.waits.steps t).signalled action = none)
    (hobjects : (s.waits.step (t, action)).1.dispatcher.objects = s.waits.dispatcher.objects)
    (hafter : Calm ((s.waits.step (t, action)).1.steps t)) :
    Tokened marker threadId { s with waits := (s.waits.step (t, action)).1 } k := by
  refine ⟨h.registered.step _, ?_, fun u => ?_, h.unowned, h.counted, h.free⟩
  · obtain ⟨mirror, hobject⟩ := h.event
    exact ⟨mirror, by rw [hobjects, hobject]⟩
  · by_cases hu : u = t
    · subst hu
      have hok := h.places u
      rcases hplace with hp | ⟨depth, hp⟩
      · simp only [hp] at hok ⊢
        exact ⟨hafter, hok.2⟩
      · simp only [hp] at hok ⊢
        exact ⟨hafter, hok.2⟩
    · exact h.others_of_step hsignalled { s with waits := (s.waits.step (t, action)).1 } rfl
        ⟨rfl, rfl⟩ (fun _ _ => ⟨.rfl, .rfl, .rfl⟩) u hu

/-- One step of the wait of a contended enter. -/
theorem Tokened.wait (h : Tokened marker threadId s k) (hplace : s.places t = .waiting) :
    ∃ k', Tokened marker threadId (s.waitStep threadId t) k' := by
  have hok := h.places t
  rw [hplace] at hok
  obtain ⟨hinwait, hheld, howner, hsetting⟩ := hok
  have hsignalled : (s.waits.steps t).signalled (.wait (enterWait (threadId t))) = none := by
    cases hstep : s.waits.steps t with
    | register c =>
        obtain rfl : c = enterWait (threadId t) := by simpa [InWait, hstep] using hinwait
        rfl
    | _ => rfl
  have hturn := waitTurn_step h.registered h.event hinwait
  have hreg := h.registered.step (t, .wait (enterWait (threadId t)))
  have hcount : ∀ place : SectionPlace, place.isWaiter = true →
      count SectionPlace.isWaiter (Function.update s.places t place) =
        count SectionPlace.isWaiter s.places := fun place hp =>
    count_update_of_eq (by rw [hp, hplace]; rfl)
  let waited : CriticalSection T :=
    { s with waits := (s.waits.step (t, .wait (enterWait (threadId t)))).1 }
  unfold waitStep
  dsimp only
  generalize hr : (s.waits.step (t, .wait (enterWait (threadId t)))).2.result = result at hturn ⊢
  cases hturn with
  | goesOn hevent hinwait' hheld' =>
      refine ⟨k, hreg, hevent, fun u => ?_, h.unowned, h.counted, h.free⟩
      by_cases hu : u = t
      · subst hu
        simp only [hplace]
        exact ⟨hinwait', hheld'.trans hheld, howner, hsetting⟩
      · exact h.others_of_step hsignalled waited rfl ⟨rfl, rfl⟩
          (fun _ _ => ⟨.rfl, .rfl, .rfl⟩) u hu
  | consumes hsignaled hevent hinwait' hbefore hheld' =>
      obtain rfl : k = some .event := of_decide_eq_true hsignaled
      refine ⟨some (.waiter t), hreg, by simpa using hevent, fun u => ?_, fun _ => h.unowned (by simp),
        h.counted, by simpa using h.free⟩
      by_cases hu : u = t
      · subst hu
        simp only [hplace]
        exact ⟨hinwait', iff_of_true hheld' rfl, by simp, by simp⟩
      · refine h.others_of_step hsignalled waited rfl ⟨rfl, rfl⟩ (fun v hv => ?_) u hu
        simpa using fun htv : t = v => hv htv.symm
  | takesNow result hresult hsignaled hevent hidle hbefore =>
      obtain rfl : k = some .event := of_decide_eq_true hsignaled
      have hwoken : ∃ k', Tokened marker threadId ({ s with waits :=
          (s.waits.step (t, .wait (enterWait (threadId t)))).1 }.goTo t .woken) k' := by
        refine ⟨some (.waiter t), hreg, by simpa [goTo] using hevent,
          forall_update (Q := fun u p => PlaceOk _ _ _ _ u p) ⟨hidle, rfl⟩ ?_,
          fun _ => h.unowned (by simp), ?_, by simpa [goTo] using h.free⟩
        · refine h.others_of_step hsignalled _ rfl ⟨rfl, rfl⟩ fun v hv => ?_
          simpa using fun htv : t = v => hv htv.symm
        · simpa [goTo, hcount .woken rfl] using h.counted
      cases result <;> first | exact hwoken | exact absurd rfl hresult
  | returns result hresult hevent hidle hbefore =>
      obtain rfl : k = some (.waiter t) := hheld.mp hbefore
      have hwoken : ∃ k', Tokened marker threadId ({ s with waits :=
          (s.waits.step (t, .wait (enterWait (threadId t)))).1 }.goTo t .woken) k' := by
        refine ⟨some (.waiter t), hreg, hevent,
          forall_update (Q := fun u p => PlaceOk _ _ _ _ u p) ⟨hidle, rfl⟩ ?_, h.unowned, ?_,
          h.free⟩
        · exact h.others_of_step hsignalled _ rfl ⟨rfl, rfl⟩ fun _ _ => ⟨.rfl, .rfl, .rfl⟩
        · simpa [goTo, hcount .woken rfl] using h.counted
      cases result <;> first | exact hwoken | exact absurd rfl hresult
  | ends hevent hidle hbefore =>
      refine ⟨k, hreg, hevent, forall_update (Q := fun u p => PlaceOk _ _ _ _ u p)
        ⟨hidle, howner, hsetting, fun hk => hbefore (hheld.mpr hk)⟩ ?_, h.unowned, ?_, h.free⟩
      · exact h.others_of_step hsignalled _ rfl ⟨rfl, rfl⟩ fun _ _ => ⟨.rfl, .rfl, .rfl⟩
      · simpa [goTo, hcount .ended rfl] using h.counted

/-- Nobody holds a grant but the waiter with the token. -/
theorem Tokened.not_held (h : Tokened marker threadId s k) (hk : ∀ u, k ≠ some (.waiter u))
    (u : T) : ¬ Held s.waits u := by
  intro hheld
  have hok := h.places u
  cases hc : (s.waits.steps u).registered with
  | none => exact hheld.1 hc
  | some c =>
      obtain ⟨hplace, -⟩ := hok.enterWait hc
      rw [hplace] at hok
      exact hk u (hok.2.1.mp hheld)

/-- The set of the event by a leave. -/
theorem Tokened.set (h : Tokened marker threadId s k) (hplace : s.places t = .setting) :
    ∃ k', Tokened marker threadId
      ({ s with waits := (s.waits.step (t, .operate (.setEvent ()))).1 }.goTo t .outside) k' := by
  have hok := h.places t
  rw [hplace] at hok
  obtain ⟨hidle, rfl⟩ := hok
  have hevent : EventIs s.waits false := by simpa using h.event
  have hreg := h.registered.step (t, .operate (.setEvent ()))
  obtain ⟨hsteps, hset⟩ := setEvent_step h.registered hevent
    (fun u c hc => ⟨_, ((h.places u).enterWait hc).2⟩) (h.not_held (by simp)) hidle
  have hcount : count SectionPlace.isWaiter (Function.update s.places t .outside) =
      count SectionPlace.isWaiter s.places := count_update_of_eq (by rw [hplace]; rfl)
  have hcalm : Calm ((s.waits.step (t, .operate (.setEvent ()))).1.steps t) :=
    .inl (by rw [hsteps t, hidle])
  rcases hset with ⟨hon, hnobody⟩ | ⟨v, hoff, hone⟩
  · -- No waiter is registered: the token goes to the event.
    refine ⟨some .event, hreg, by simpa [goTo] using hon,
      forall_update (Q := fun u p => PlaceOk _ _ _ _ u p) ⟨hcalm, by simp [Away]⟩ fun u hu => ?_,
      fun _ => h.unowned (by simp), by simpa [goTo, hcount] using h.counted,
      by simpa [goTo] using h.free⟩
    refine (h.places u).frame (hsteps u) (iff_of_false (hnobody u) (h.not_held (by simp) u))
      (by simp) ?_ (by simp) (by simp)
    simpa using fun htu : t = u => hu htu.symm
  · -- The oldest waiter gets it.
    have hv : s.places v = .waiting := by
      obtain ⟨c, hc⟩ := Option.ne_none_iff_exists'.mp ((hone v).mpr rfl).1
      rw [hsteps v] at hc
      exact ((h.places v).enterWait hc).1
    have hvt : v ≠ t := fun hvt => by
      rw [hvt, hplace] at hv
      simp at hv
    refine ⟨some (.waiter v), hreg, by simpa [goTo] using hoff,
      forall_update (Q := fun u p => PlaceOk _ _ _ _ u p) ⟨hcalm, by simpa [Away] using hvt⟩
        fun u hu => ?_,
      fun _ => h.unowned (by simp), by simpa [goTo, hcount] using h.counted,
      by simpa [goTo] using h.free⟩
    by_cases huv : u = v
    · subst huv
      have hok := h.places u
      rw [hv] at hok ⊢
      obtain ⟨hinwait, -, -, -⟩ := hok
      exact ⟨by simpa [goTo, hsteps u] using hinwait, iff_of_true ((hone u).mpr rfl) rfl, by simp,
        by simp⟩
    · refine (h.places u).frame (hsteps u)
        (iff_of_false (fun hheld => huv ((hone u).mp hheld)) (h.not_held (by simp) u))
        (by simp) ?_ ?_ (by simp)
      · simpa using fun htu : t = u => hu htu.symm
      · simpa using fun hvu : v = u => huv hvu.symm

/-! ### Whole runs -/

/-- The step is no enter while the lock count is at its maximum. -/
def Room (s : CriticalSection T) (e : T × SectionCall T) : Prop :=
  s.lockCount = 0x7FFFFFFF → e.2 ≠ .enter ∧ e.2 ≠ .tryEnter

theorem objects_terminate (w : System Unit T) (t u : T) (ht : w.steps t = .idle) :
    (w.step (t, .terminate u)).1.dispatcher.objects = w.dispatcher.objects ∧
      Calm ((w.step (t, .terminate u)).1.steps t) := by
  simp only [System.step, ht, Dispatcher.turn, Dispatcher.begin, Dispatcher.flag,
    Function.update_self]
  split_ifs
  · exact ⟨rfl, .inl rfl⟩
  · exact ⟨rfl, .inr ⟨u, rfl⟩⟩
  · exact ⟨rfl, .inl rfl⟩

theorem Tokened.call (h : Tokened marker threadId s k) (hinj : Function.Injective marker)
    (hzero : ∀ u, marker u ≠ 0)
    (hplace : s.places t = .outside ∨ ∃ depth, s.places t = .inside depth)
    {a : SectionCall T} (hroom : Room s (t, a)) :
    ∃ k', Tokened marker threadId (s.call marker t a) k' := by
  have hcalm : Calm (s.waits.steps t) := by
    have hok := h.places t
    rcases hplace with hp | ⟨depth, hp⟩ <;> (rw [hp] at hok; exact hok.1)
  have hwaiter : (s.places t).isWaiter = false := by
    rcases hplace with hp | ⟨depth, hp⟩ <;> rw [hp] <;> rfl
  unfold CriticalSection.call
  rcases hcalm with hidle | ⟨u, hnotify⟩
  · have hfull : a = .enter ∨ a = .tryEnter → s.lockCount ≠ 0x7FFFFFFF := by
      intro ha hfull
      obtain ⟨henter, htry⟩ := hroom hfull
      exact ha.elim henter htry
    rw [hidle]
    cases a with
    | enter =>
        dsimp only
        unfold CriticalSection.enter
        dsimp only
        split_ifs with hself hfree
        · exact ⟨k, h.deepen (h.owner_of_word hinj hzero hself) (hfull (.inl rfl))⟩
        · rw [hfree]
          exact ⟨_, h.acquire hfree (.inl hidle) hwaiter⟩
        · refine ⟨k, h.contend hfree (hfull (.inl rfl)) hidle (hplace.resolve_right ?_)⟩
          rintro ⟨depth, hp⟩
          have hok := h.places t
          rw [hp] at hok
          exact hself hok.2.2.2.2
    | tryEnter =>
        dsimp only
        unfold CriticalSection.tryEnter
        split_ifs with hfree hself
        · exact ⟨_, h.acquire hfree.2 (.inl hidle) hwaiter⟩
        · exact ⟨k, h.deepen (h.owner_of_word hinj hzero hself) (hfull (.inr rfl))⟩
        · exact ⟨k, h⟩
    | leave =>
        rcases hplace with hp | ⟨depth, hp⟩
        · simp only [hp]
          exact ⟨k, h⟩
        · simp only [hp]
          exact h.leave hp hidle
    | terminate target =>
        obtain ⟨hobjects, hafter⟩ := objects_terminate s.waits t target hidle
        exact ⟨k, h.kernelCall hplace (by rw [hidle]; rfl) hobjects hafter⟩
  · rw [hnotify]
    have hsignalled : (s.waits.steps t).signalled (.advance false) = none := by
      rw [hnotify]
      rfl
    refine ⟨k, h.kernelCall hplace hsignalled ?_ (.inl ?_)⟩
    · simp [System.step, hnotify, Dispatcher.turn, Dispatcher.advance, Dispatcher.notifyAlways]
    · simp [System.step, hnotify, Dispatcher.turn, Dispatcher.advance]

/-- Every step moves the token or leaves it where it is. -/
theorem Tokened.step (h : Tokened marker threadId s k) (hinj : Function.Injective marker)
    (hzero : ∀ u, marker u ≠ 0) {e : T × SectionCall T} (hroom : Room s e) :
    ∃ k', Tokened marker threadId (s.step marker threadId e).1 k' := by
  unfold CriticalSection.step
  cases hplace : s.places e.1 with
  | outside => exact h.call hinj hzero (.inl hplace) hroom
  | inside depth => exact h.call hinj hzero (.inr ⟨depth, hplace⟩) hroom
  | waiting => exact h.wait hplace
  | woken => exact ⟨_, h.takeOver hplace⟩
  | setting => exact h.set hplace
  | ended => exact ⟨k, h⟩

theorem tokened_initial (hs : s.Initial) : Tokened marker threadId s none := by
  obtain ⟨hlock, hrec, hown, hwaits, hevent, hplaces⟩ := hs
  refine ⟨registered_initial hwaits, by simpa [EventIs] using hevent, fun t => ?_,
    fun _ => ⟨hown, hrec⟩, ?_, iff_of_true rfl hlock⟩
  · rw [hplaces t]
    exact ⟨.inl (hwaits.1 t), by simp [Away]⟩
  · have hcount : count SectionPlace.isWaiter s.places = 0 :=
      count_eq_zero_iff.mpr fun t => by rw [hplaces t]; rfl
    rw [hcount, hrec, eq_neg_one_iff.mp hlock]
    decide

theorem Tokened.owned_iff (h : Tokened marker threadId s k) :
    s.Owned ↔ ∃ t, k = some (.owner t) := by
  refine ⟨fun ⟨t, depth, hplace⟩ => ⟨t, ?_⟩, fun ⟨t, hk⟩ => ⟨t, h.inside_of_owner hk⟩⟩
  have hok := h.places t
  rw [hplace] at hok
  exact hok.2.1

theorem Tokened.consumed_iff (h : Tokened marker threadId s k) :
    s.Consumed ↔ ∃ t, k = some (.waiter t) := by
  constructor
  · rintro ⟨t, hplace | ⟨hplace, hheld⟩⟩
    · have hok := h.places t
      rw [hplace] at hok
      exact ⟨t, hok.2⟩
    · have hok := h.places t
      rw [hplace] at hok
      exact ⟨t, hok.2.1.mp hheld⟩
  · rintro ⟨t, hk⟩
    have hok := h.places t
    cases hplace : s.places t with
    | woken => exact ⟨t, .inl hplace⟩
    | waiting =>
        rw [hplace] at hok
        exact ⟨t, .inr ⟨hplace, hok.2.1.mpr hk⟩⟩
    | _ =>
        rw [hplace] at hok
        simp [PlaceOk, Away, hk] at hok

theorem Tokened.signalled_iff (h : Tokened marker threadId s k) :
    s.Signalled ↔ k = some .event := by
  have hcan := canSatisfy_of_eventIs h.event 0
  rw [Signalled, show (s.waits.dispatcher.objects ()).canSatisfy 0 = _ from hcan]
  exact decide_eq_true_iff

theorem Tokened.setting_iff (h : Tokened marker threadId s k) :
    s.Setting ↔ ∃ t, k = some (.setting t) := by
  refine ⟨fun ⟨t, hplace⟩ => ⟨t, ?_⟩, fun ⟨t, hk⟩ => ⟨t, ?_⟩⟩
  · have hok := h.places t
    rw [hplace] at hok
    exact hok.2
  · have hok := h.places t
    cases hplace : s.places t with
    | setting => rfl
    | _ =>
        rw [hplace] at hok
        simp [PlaceOk, Away, hk] at hok

/-- One token gives everything that is to hold. -/
theorem Tokened.excludes (h : Tokened marker threadId s k) : s.Excludes marker where
  one t u depth depth' ht hu := by
    have hok := h.places t
    have hok' := h.places u
    rw [ht] at hok
    rw [hu] at hok'
    exact Token.owner.inj (Option.some.inj (hok.2.1.symm.trans hok'.2.1))
  named t depth ht := by
    have hok := h.places t
    rw [ht] at hok
    exact ⟨hok.2.2.2.2, hok.2.2.2.1⟩
  unowned hno := h.unowned fun t hk => hno (h.owned_iff.mpr ⟨t, hk⟩)
  counted := h.counted
  handed hbusy := by
    rw [h.owned_iff, h.consumed_iff, h.signalled_iff, h.setting_iff]
    cases hk : k with
    | none => exact absurd (h.free.mp hk) hbusy
    | some token => cases token <;> simp
  free hfree := by
    rw [h.owned_iff, h.consumed_iff, h.signalled_iff, h.setting_iff, h.free.mpr hfree]
    simp
  awake hsignalled t ht := by
    obtain rfl := h.signalled_iff.mp hsignalled
    by_contra hsome
    obtain ⟨c, hc⟩ := Option.ne_none_iff_exists'.mp hsome
    obtain ⟨-, rfl⟩ := (h.places t).enterWait hc
    have hnone : (s.waits.dispatcher.blocks t).granted = none := by
      by_contra hgranted
      exact h.not_held (by simp) t ⟨hsome, hgranted⟩
    have hmissed := h.registered.noneMissed t _ hc (by simp [enterWait]) hnone
    obtain ⟨mirror, hobject⟩ := h.event
    have htry := trySatisfyWait_enterWait hobject (threadId t) t
    rw [show s.waits.dispatcher.trySatisfyWait [.object ()] false (threadId t) t = none from
      hmissed] at htry
    simp at htry

/-- **Critical sections exclude and never strand a waiter.**  For threads with
distinct non-zero markers, in any interleaving of enters, tries, leaves by the
owner and terminations in which no enter or try is called with the lock count
at its maximum. -/
theorem excludes_run (hinj : Function.Injective marker) (hzero : ∀ u, marker u ≠ 0)
    {s : CriticalSection T} (hs : s.Initial) (es : List (T × SectionCall T))
    (hroom : Along (CriticalSection.step marker threadId) Room s es) :
    (run (CriticalSection.step marker threadId) s es).Excludes marker := by
  obtain ⟨k, hk⟩ := invariant_along (I := fun s => ∃ k, Tokened marker threadId s k)
    (fun s e ⟨k, hk⟩ hr => hk.step hinj hzero hr) s es ⟨none, tokened_initial hs⟩ hroom
  exact hk.excludes

instance decidableRoom (s : CriticalSection T) (e : T × SectionCall T) : Decidable (Room s e) :=
  inferInstanceAs (Decidable (_ → _ ∧ _))

/-- A section after its initialisation, for threads that are not terminated. -/
def fresh (T : Type) : CriticalSection T where
  lockCount := -1
  recursionCount := 0
  owningThread := 0
  waits :=
    { dispatcher :=
        { objects := fun _ => .event false false none
          threads := fun _ => ⟨true, false, false, []⟩
          lists := fun _ => []
          blocks := fun _ => delayBlock }
      steps := fun _ => .idle }
  places := fun _ => .outside

omit [DecidableEq T] [Fintype T] in
theorem fresh_initial : (fresh T).Initial :=
  ⟨rfl, rfl, rfl, ⟨fun _ => rfl, fun _ => rfl⟩, ⟨none, rfl⟩, fun _ => rfl⟩

/-- Two threads: one enters twice, the other waits, is handed the section by the
last leave and takes over. -/
theorem excludes_run_handover :
    let marker : Bool → BitVec 32 := fun t => if t then 2 else 1
    let es : List (Bool × SectionCall Bool) :=
      [(false, .enter), (false, .tryEnter), (true, .enter), (true, .enter), (true, .enter),
        (false, .leave), (false, .leave), (false, .leave), (true, .enter), (true, .enter),
        (true, .enter)]
    (run (CriticalSection.step marker fun _ => 0) (fresh Bool) es).Excludes marker :=
  excludes_run (by decide) (by decide) fresh_initial _ (by decide)

/-- The words after some nested enters of one thread. -/
theorem nested_enters (n : ℕ) :
    let s := run (CriticalSection.step (fun _ : Unit => 1) fun _ => 0) (fresh Unit)
      (List.replicate (n + 1) ((), .enter))
    s.lockCount = BitVec.ofNat 32 n ∧ s.recursionCount = BitVec.ofNat 32 (n + 1) ∧
      s.owningThread = 1 ∧ s.waits = (fresh Unit).waits ∧ s.places () = .inside (n + 1) := by
  induction n with
  | zero => exact ⟨rfl, rfl, rfl, rfl, rfl⟩
  | succ n ih =>
      obtain ⟨hlock, hrec, hown, hwaits, hplace⟩ := ih
      have hidle : ((fresh Unit).waits.steps ()) = .idle := rfl
      rw [List.replicate_succ' (n := n + 1), run_append]
      generalize run (CriticalSection.step (fun _ : Unit => 1) fun _ => 0) (fresh Unit)
        (List.replicate (n + 1) ((), .enter)) = s at *
      have hlock' : BitVec.ofNat 32 n + 1 = BitVec.ofNat 32 (n + 1) := (BitVec.ofNat_add n 1).symm
      have hrec' : BitVec.ofNat 32 (n + 1) + 1 = BitVec.ofNat 32 (n + 1 + 1) :=
        (BitVec.ofNat_add (n + 1) 1).symm
      simp only [run, CriticalSection.step, hplace, CriticalSection.call, hwaits, hidle,
        CriticalSection.enter, hown, if_true, goTo, deeper, hlock, hlock', hrec, hrec',
        Function.update_self, and_self]

/-- The lock count has 31 bits for what it counts: with one more enter than
that outstanding it is no longer the number of enters less one. -/
theorem lockCount_overflows :
    ¬ (run (CriticalSection.step (fun _ : Unit => 1) fun _ => 0) (fresh Unit)
      (List.replicate (2 ^ 31 + 1) ((), .enter))).Excludes fun _ => 1 := by
  intro hexcludes
  obtain ⟨hlock, hrec, -⟩ := nested_enters (2 ^ 31)
  have hcounted := hexcludes.counted
  rw [hlock, hrec] at hcounted
  have hint : (BitVec.ofNat 32 (2 ^ 31)).toInt = -2 ^ 31 := by decide
  rw [hint] at hcounted
  omega

end CriticalSection

end Kernel
end XenonRecomp
