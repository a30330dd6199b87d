/-
# Alerts and alertable waits

An alert that an alertable wait or delay takes is reported by it:
`wait_for_objects_after` and `delay_current_thread` call `take_alert()`, which
clears the alert, and then return `Alerted`.  A wait that has left its loop
this way still has to unregister, though, and its last section prefers what a
signaller recorded in the block: `take_alert()` runs outside the dispatcher
lock, so a signal can satisfy the wait before the alert is taken, after the
wait looked at its block, or between the two steps.  The wait then returns
`Success` or `Abandoned`, and the alert is gone.

`alertsHonoured_iff` gives the runs in which no alert is lost: those in which
no thread that took an alert comes to its last section with its block granted.
-/

import XenonRecomp.Kernel.Waits

namespace XenonRecomp
namespace Kernel

open Library.Transition

variable {O T : Type} [DecidableEq O] [DecidableEq T]

/-! ### The property -/

/-- Follows the calls of thread `t` along a trace; `held` says that the call it
is in has cleared an alert.  The call that cleared one returns at its next step
and returns `alerted`, so a call that returns anything else has cleared none. -/
def HonouredFor (t : T) (held : Bool) : List ((T × Action O T) × Report O T) → Prop
  | [] => True
  | (e, r) :: rest =>
      if e.1 = t then
        (held = true → r.result = some .alerted) ∧
          (r.clearedAlert = true → r.result = none ∨ r.result = some .alerted) ∧
          HonouredFor t (r.clearedAlert && r.result.isNone) rest
      else HonouredFor t held rest

instance decidableHonouredFor (t : T) : ∀ (held : Bool)
    (tr : List ((T × Action O T) × Report O T)), Decidable (HonouredFor t held tr)
  | _, [] => .isTrue trivial
  | held, (e, r) :: rest =>
      have := decidableHonouredFor t (r.clearedAlert && r.result.isNone) rest
      have := decidableHonouredFor t held rest
      inferInstanceAs (Decidable (if e.1 = t then _ else _))

/-- **No alert is swallowed** along the trace of a run in which every thread
starts outside a call. -/
def AlertsHonoured (tr : List ((T × Action O T) × Report O T)) : Prop :=
  ∀ t : T, HonouredFor t false tr

/-- The step is not the last section of a wait that took an alert, with a block
that a signaller has granted. -/
def AlertKept (s : System O T) (e : T × Action O T) : Prop :=
  ∀ c, s.steps e.1 = .unregister c (some .alerted) → (s.dispatcher.blocks e.1).granted = none

/-! ### One step -/

/-- Whether the call a thread is in has cleared an alert. -/
def WaitStep.holdsAlert : WaitStep O T → Bool
  | unregister _ (some .alerted) => true
  | _ => false

omit [DecidableEq O] [DecidableEq T] in
theorem WaitStep.holdsAlert_iff {place : WaitStep O T} :
    place.holdsAlert = true ↔ ∃ c, place = .unregister c (some .alerted) := by
  unfold WaitStep.holdsAlert
  split <;> simp_all

instance decidableAlertKept (s : System O T) (e : T × Action O T) : Decidable (AlertKept s e) :=
  decidable_of_iff
    ((s.steps e.1).holdsAlert = true → (s.dispatcher.blocks e.1).granted = none)
    (by simp [AlertKept, WaitStep.holdsAlert_iff])

/-- What a step of thread `t` has to report for the alert: a call that holds one
returns `alerted`, and one that clears one returns it or still holds it. -/
def ReportsAlert (held : Bool) (after : WaitStep O T) (r : Report O T) : Prop :=
  (held = true → r.result = some .alerted) ∧
    (r.clearedAlert = true → r.result = none ∨ r.result = some .alerted) ∧
    after.holdsAlert = (r.clearedAlert && r.result.isNone)

/-- The first section of a wait that neither holds nor leaves an alert. -/
theorem reportsAlert_checkAndRegister (d : Dispatcher O T) (t : T) (c : WaitCall O T) :
    ReportsAlert false (d.checkAndRegister t c).2.1 (d.checkAndRegister t c).2.2 := by
  unfold Dispatcher.checkAndRegister
  split
  · simp [ReportsAlert, WaitStep.holdsAlert, WaitCall.succeeded]
  · split_ifs <;> simp [ReportsAlert, WaitStep.holdsAlert]

theorem reportsAlert_registerSection (d : Dispatcher O T) (t : T) (c : WaitCall O T) :
    ReportsAlert false (d.registerSection t c).2.1 (d.registerSection t c).2.2 := by
  unfold Dispatcher.registerSection
  split
  · exact reportsAlert_checkAndRegister d t c
  · rename_i signal _
    dsimp only
    split_ifs
    · exact reportsAlert_checkAndRegister (d.operate t signal.operation).1 t c
    · simp [ReportsAlert, WaitStep.holdsAlert]

theorem reportsAlert_recheckSection (d : Dispatcher O T) (t : T) (c : WaitCall O T)
    (observed : ℕ) :
    ReportsAlert false (d.recheckSection t c observed).2.1
      (d.recheckSection t c observed).2.2 := by
  unfold Dispatcher.recheckSection
  split_ifs
  · simp [ReportsAlert, WaitStep.holdsAlert]
  · split <;> simp [ReportsAlert, WaitStep.holdsAlert]

/-- The last section of a wait reports the alert it took if no signaller granted
the block. -/
theorem reportsAlert_unregisterSection (d : Dispatcher O T) (t : T) (c : WaitCall O T)
    (outcome : Option WaitResult)
    (hkept : outcome = some .alerted → (d.blocks t).granted = none) :
    ReportsAlert (WaitStep.unregister c outcome).holdsAlert
      (d.unregisterSection t c outcome).2.1 (d.unregisterSection t c outcome).2.2 := by
  have hheld : (WaitStep.unregister c outcome).holdsAlert = true → outcome = some .alerted := by
    simp only [WaitStep.holdsAlert]
    split <;> simp_all
  cases hgranted : (d.blocks t).granted with
  | some grant =>
      have houtcome : outcome ≠ some .alerted := fun h => by simp [hkept h] at hgranted
      have hfree : (WaitStep.unregister c outcome).holdsAlert = false :=
        Bool.eq_false_iff.mpr fun h => houtcome (hheld h)
      rw [hfree]
      simp [ReportsAlert, Dispatcher.unregisterSection, hgranted, WaitStep.holdsAlert,
        WaitCall.succeeded]
  | none =>
      simpa [ReportsAlert, Dispatcher.unregisterSection, hgranted, WaitStep.holdsAlert] using hheld

/-- The last section of a wait that was granted returns no alert. -/
theorem unregisterSection_result_ne (d : Dispatcher O T) (t : T) (c : WaitCall O T)
    (outcome : Option WaitResult) (hgranted : (d.blocks t).granted ≠ none) :
    (d.unregisterSection t c outcome).2.2.result ≠ some .alerted := by
  obtain ⟨grant, hgrant⟩ := Option.ne_none_iff_exists'.mp hgranted
  simp only [Dispatcher.unregisterSection, hgrant, WaitCall.succeeded]
  split <;> simp

/-- A step inside a call reports the alert, unless it is the last section of a
wait that took an alert and was granted. -/
theorem reportsAlert_advance (d : Dispatcher O T) (t : T) (timedOut : Bool)
    (place : WaitStep O T)
    (hkept : ∀ c, place = .unregister c (some .alerted) → (d.blocks t).granted = none) :
    ReportsAlert place.holdsAlert (d.advance t timedOut place).2.1
      (d.advance t timedOut place).2.2 := by
  cases place with
  | register c => exact reportsAlert_registerSection d t c
  | recheck c observed => exact reportsAlert_recheckSection d t c observed
  | unregister c outcome =>
      exact reportsAlert_unregisterSection d t c outcome fun h => hkept c (by rw [h])
  | _ =>
      simp only [Dispatcher.advance, Dispatcher.endDelay]
      try split_ifs
      all_goals simp [ReportsAlert, WaitStep.holdsAlert]

/-- The first step of a call clears no alert. -/
theorem reportsAlert_begin (d : Dispatcher O T) (t : T) (action : Action O T) :
    ReportsAlert false (d.begin t action).2.1 (d.begin t action).2.2 := by
  cases action with
  | _ =>
      simp only [Dispatcher.begin, Dispatcher.flag]
      try split_ifs
      all_goals simp [ReportsAlert, WaitStep.holdsAlert]

/-- A step of a thread reports the alert, unless it is the last section of a wait
that took an alert and was granted. -/
theorem reportsAlert_turn (d : Dispatcher O T) (t : T) (action : Action O T)
    (place : WaitStep O T)
    (hkept : ∀ c, place = .unregister c (some .alerted) → (d.blocks t).granted = none) :
    ReportsAlert place.holdsAlert (d.turn t action place).2.1 (d.turn t action place).2.2 := by
  cases place with
  | idle => exact reportsAlert_begin d t action
  | _ => exact reportsAlert_advance d t action.timedOut _ hkept

/-- A step of the system that keeps the alert reports it. -/
theorem reportsAlert_step {s : System O T} {e : T × Action O T} (hkept : AlertKept s e) :
    ReportsAlert (s.steps e.1).holdsAlert ((s.step e).1.steps e.1) (s.step e).2 := by
  simp only [System.step, Function.update_self]
  exact reportsAlert_turn s.dispatcher e.1 e.2 (s.steps e.1) hkept

/-- A step that does not keep the alert belongs to a call that holds one, and
returns something else. -/
theorem swallows_of_not_alertKept {s : System O T} {e : T × Action O T} (h : ¬ AlertKept s e) :
    (s.steps e.1).holdsAlert = true ∧ (s.step e).2.result ≠ some .alerted := by
  unfold AlertKept at h
  push Not at h
  obtain ⟨c, hplace, hgranted⟩ := h
  refine ⟨by rw [hplace]; rfl, ?_⟩
  simp only [System.step, hplace, Dispatcher.turn, Dispatcher.advance]
  exact unregisterSection_result_ne s.dispatcher e.1 c _ hgranted

/-- The other threads stay where they are. -/
theorem step_steps_of_ne (s : System O T) (e : T × Action O T) {t : T} (ht : e.1 ≠ t) :
    (s.step e).1.steps t = s.steps t := by
  simp [System.step, Function.update_of_ne (Ne.symm ht)]

/-! ### Whole runs -/

/-- A step that keeps the alert leaves the rest of the trace to be honoured, for
every thread. -/
theorem honouredFor_cons {s : System O T} {e : T × Action O T} (hkept : AlertKept s e) (t : T)
    (rest : List ((T × Action O T) × Report O T)) :
    HonouredFor t (s.steps t).holdsAlert ((e, (s.step e).2) :: rest) ↔
      HonouredFor t ((s.step e).1.steps t).holdsAlert rest := by
  by_cases ht : e.1 = t
  · subst ht
    obtain ⟨hreturns, hclears, hafter⟩ := reportsAlert_step hkept
    rw [HonouredFor, if_pos rfl, hafter]
    exact ⟨fun h => h.2.2, fun h => ⟨hreturns, hclears, h⟩⟩
  · rw [HonouredFor, if_neg ht, step_steps_of_ne s e ht]

/-- Along a run from any state, the alerts held in it included. -/
theorem honouredFor_iff (s : System O T) (es : List (T × Action O T)) :
    (∀ t, HonouredFor t (s.steps t).holdsAlert (trace System.step s es)) ↔
      Along System.step AlertKept s es := by
  induction es generalizing s with
  | nil => simp [trace, HonouredFor, Along]
  | cons e es ih =>
      rw [trace, Along]
      by_cases hkept : AlertKept s e
      · rw [← ih (s.step e).1]
        simp only [hkept, true_and]
        exact forall_congr' fun t => honouredFor_cons hkept t _
      · obtain ⟨hheld, hresult⟩ := swallows_of_not_alertKept hkept
        refine ⟨fun h => ?_, fun h => absurd h.1 hkept⟩
        have hown := h e.1
        rw [HonouredFor, if_pos rfl] at hown
        exact absurd (hown.1 hheld) hresult

/-- **Alerts are honoured exactly in the runs that keep them.**  Along a run of
any number of threads and any interleaving, from a state in which no thread is
in a call, every wait or delay that clears an alert returns `alerted` (and every
one that returns anything else has cleared none) if and only if no wait that
took an alert comes to its last section with its block granted. -/
theorem alertsHonoured_iff {s : System O T} (hidle : ∀ t, s.steps t = .idle)
    (es : List (T × Action O T)) :
    AlertsHonoured (trace System.step s es) ↔ Along System.step AlertKept s es := by
  rw [← honouredFor_iff]
  refine forall_congr' fun t => ?_
  rw [hidle t]
  rfl

/-- One auto-reset event, and two threads outside any call. -/
def oneEvent : System Unit Bool where
  dispatcher :=
    { objects := fun _ => .event false false none
      threads := fun _ => ⟨true, false, false, []⟩
      lists := fun _ => []
      blocks := fun _ => delayBlock }
  steps := fun _ => .idle

/-- An alertable wait on the event, without a timeout. -/
def alertableWait : WaitCall Unit Bool := ⟨none, [.object ()], false, -1, 1, true⟩

/-- The first thread registers its wait, finds nothing to take and is alerted by
the second; its next step takes the alert. -/
def upToTheAlert : List (Bool × Action Unit Bool) :=
  [(false, .wait alertableWait), (false, .advance false), (false, .advance false),
    (false, .advance false), (false, .advance false), (true, .alert false),
    (true, .advance false), (false, .advance false)]

/-- Without a signal the wait returns the alert it took. -/
theorem alertsHonoured_unsignalled :
    AlertsHonoured (trace System.step oneEvent (upToTheAlert ++ [(false, .advance false)])) :=
  (alertsHonoured_iff (fun _ => rfl) _).mpr (by decide)

/-- The second thread sets the event after the alert was taken and before the
wait unregisters: the wait returns `success`, and the alert is lost. -/
theorem alert_swallowed_by_signal :
    ¬ AlertsHonoured (trace System.step oneEvent
      (upToTheAlert ++ [(true, .operate (.setEvent ())), (false, .advance false)])) := by
  unfold AlertsHonoured
  decide

end Kernel
end XenonRecomp
