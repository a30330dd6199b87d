/-
# The timer manager

`KernelTimer` and `TimerManager` of `src/kernel/synchronization`.  Any thread
may set, cancel, schedule and unschedule timers, the dispatch thread scans and
fires the pending ones, and the callback of a timer may again do all of this,
on the thread that runs it: the dispatch thread for `fire`, the caller for a
`set` with due time zero.

`set`, `cancel`, `next_due_time` and `fire` are each one section under the
dispatcher lock, `schedule` and `unschedule` one under the mutex of the manager,
which the dispatch loop holds except while it waits, callbacks included.  A
thread other than the dispatch thread that needs the mutex is not enabled while
the loop holds it.  The clock is read by every step that needs it and may say
anything.  A timer's signal state is part of `XenonRecomp.Kernel.Dispatcher`.
-/

import XenonRecomp.Library.Transition
import Mathlib.Data.List.Count

namespace XenonRecomp
namespace Kernel

open Library.Transition

/-! ### The system -/

/-- `KernelTimer`.  The last three fields are read by no step: they number the
calls of `set` and remember what the latest of them was. -/
structure TimerState where
  active : Bool
  dueTime : ℤ
  period : Option ℤ
  callback : Bool
  /-- How often the timer was set. -/
  generation : ℕ
  /-- The latest `set` had due time zero. -/
  immediate : Bool
  /-- The timer was scheduled after its latest `set`, and not unscheduled since. -/
  scheduled : Bool
deriving DecidableEq, Repr

/-- A timer that was never set. -/
def TimerState.initial : TimerState :=
  ⟨false, 0, none, false, 0, false, false⟩

/-- `next_due_time`. -/
def TimerState.nextDueTime (timer : TimerState) : Option ℤ :=
  if timer.active then some timer.dueTime else none

/-- The section of `KernelTimer::fire`: the timer, whether it rearmed, and whether it
fired. -/
def TimerState.fire (timer : TimerState) (now : ℤ) : TimerState × Bool × Bool :=
  if timer.active then
    match timer.period with
    | some period => ({ timer with dueTime := now + period }, true, true)
    | none => ({ timer with active := false }, false, true)
  else (timer, false, false)

/-- Where the dispatch thread stands. -/
inductive DispatchPlace (K : Type) where
  /-- Without the mutex: before the loop, or waiting for a timer to be pending. -/
  | idle
  /-- Without the mutex, until the earliest due time or a notification. -/
  | waiting
  /-- At the head of the loop. -/
  | head
  /-- Looking for the earliest due time, with the timers not yet looked at. -/
  | scan (rest : List K) (earliest : Option ℤ)
  /-- At the head of the loop over the due timers, with the iterator. -/
  | sweep (now : ℤ) (position : ℕ)
  /-- Before the section of `fire`. -/
  | fire (now : ℤ) (position : ℕ)
  /-- Inside the callback that `fire` runs. -/
  | callback (now : ℤ) (position : ℕ) (rearmed : Bool)
  /-- Back from `fire`. -/
  | fired (now : ℤ) (position : ℕ) (rearmed : Bool)
  /-- Locking the mutex that it holds. -/
  | relocking
  /-- Out of the loop. -/
  | ended
deriving DecidableEq, Repr

/-- The dispatch thread holds the mutex of the manager. -/
def DispatchPlace.locked {K : Type} : DispatchPlace K → Bool
  | idle | waiting | ended => false
  | _ => true

/-- The timers and the manager. -/
structure TimerManager (K : Type) where
  timers : K → TimerState
  pending : List K
  shuttingDown : Bool
  place : DispatchPlace K

/-- The calls that threads and callbacks make. -/
inductive TimerCall (K : Type) where
  /-- `set`, with the time it reads. -/
  | set (timer : K) (dueTime : ℤ) (period : Option ℤ) (callback : Bool) (now : ℤ)
  | cancel (timer : K)
  | schedule (timer : K)
  | unschedule (timer : K)
deriving DecidableEq, Repr

/-- The steps of the system. -/
inductive TimerAction (K : Type) where
  /-- A thread other than the dispatch thread makes a call. -/
  | call (call : TimerCall K)
  /-- The callback that the dispatch thread runs makes a call. -/
  | callbackCall (call : TimerCall K)
  /-- The next step of the dispatch loop.  It reads the time, and a wait says
  whether it timed out; inside a callback, the callback returns. -/
  | dispatch (now : ℤ) (timeout : Bool)
  /-- The destructor sets `shutting_down_`. -/
  | shutDown
deriving DecidableEq, Repr

/-- What a step shows. -/
inductive TimerReply (K : Type) where
  | silent
  /-- The timer fires for its `set` of this number, which is of a one-shot timer or
  not. -/
  | fires (timer : K) (generation : ℕ) (oneShot : Bool)
  /-- The dispatch thread tries to lock the mutex that it holds. -/
  | relocks
deriving DecidableEq, Repr

namespace TimerManager

variable {K : Type} [DecidableEq K]

def init : TimerManager K :=
  ⟨fun _ => .initial, [], false, .idle⟩

/-- A timer becomes another state. -/
def update (s : TimerManager K) (timer : K) (state : TimerState) : TimerManager K :=
  { s with timers := Function.update s.timers timer state }

@[simp] theorem update_timers_self (s : TimerManager K) (timer : K) (state : TimerState) :
    (s.update timer state).timers timer = state :=
  Function.update_self ..

@[simp] theorem update_timers_of_ne (s : TimerManager K) {timer t : K} (h : t ≠ timer)
    (state : TimerState) : (s.update timer state).timers t = s.timers t :=
  Function.update_of_ne h ..

/-- `KernelTimer::set`. -/
def set (s : TimerManager K) (timer : K) (dueTime : ℤ) (period : Option ℤ) (callback : Bool)
    (now : ℤ) : TimerManager K × TimerReply K :=
  let generation := (s.timers timer).generation + 1
  (s.update timer
      ⟨true, now + dueTime, period, callback, generation, dueTime = 0, false⟩,
    if dueTime = 0 then .fires timer generation period.isNone else .silent)

/-- `KernelTimer::cancel`. -/
def cancel (s : TimerManager K) (timer : K) : TimerManager K :=
  if (s.timers timer).active then s.update timer { s.timers timer with active := false } else s

/-- The section of `schedule`. -/
def schedule (s : TimerManager K) (timer : K) : TimerManager K :=
  { s.update timer { s.timers timer with scheduled := true } with
    pending := if timer ∈ s.pending then s.pending else s.pending ++ [timer] }

/-- The section of `unschedule`. -/
def unschedule (s : TimerManager K) (timer : K) : TimerManager K :=
  { s.update timer { s.timers timer with scheduled := false } with
    pending := s.pending.filter (· ≠ timer) }

/-- A call of a thread that does not hold the mutex; one that needs it waits. -/
def call (s : TimerManager K) : TimerCall K → TimerManager K × TimerReply K
  | .set timer dueTime period callback now => s.set timer dueTime period callback now
  | .cancel timer => (s.cancel timer, .silent)
  | .schedule timer => (if s.place.locked then s else s.schedule timer, .silent)
  | .unschedule timer => (if s.place.locked then s else s.unschedule timer, .silent)

/-- A call of a callback on the dispatch thread, which holds the mutex. -/
def callbackCall (s : TimerManager K) : TimerCall K → TimerManager K × TimerReply K
  | .set timer dueTime period callback now => s.set timer dueTime period callback now
  | .cancel timer => (s.cancel timer, .silent)
  | .schedule _ | .unschedule _ => ({ s with place := .relocking }, .relocks)

/-- The next step of `dispatch_loop`. -/
def dispatch (s : TimerManager K) (now : ℤ) (timeout : Bool) : TimerManager K × TimerReply K :=
  match s.place with
  | .idle => ({ s with place := .head }, .silent)
  | .waiting =>
      if s.shuttingDown then ({ s with place := .ended }, .silent)
      else if timeout then ({ s with place := .sweep now 0 }, .silent)
      else ({ s with place := .head }, .silent)
  | .head =>
      if s.shuttingDown then ({ s with place := .ended }, .silent)
      else if s.pending = [] then ({ s with place := .idle }, .silent)
      else ({ s with place := .scan s.pending none }, .silent)
  | .scan [] none => ({ s with pending := [], place := .head }, .silent)
  | .scan [] (some _) => ({ s with place := .waiting }, .silent)
  | .scan (timer :: rest) earliest =>
      let earliest := match (s.timers timer).nextDueTime, earliest with
        | none, earliest => earliest
        | some due, none => some due
        | some due, some earliest => some (min due earliest)
      ({ s with place := .scan rest earliest }, .silent)
  | .sweep started position =>
      match s.pending[position]? with
      | none => ({ s with place := .head }, .silent)
      | some timer =>
          if (s.timers timer).nextDueTime.any (· ≤ started) then
            ({ s with place := .fire started position }, .silent)
          else ({ s with place := .sweep started (position + 1) }, .silent)
  | .fire started position =>
      match s.pending[position]? with
      | none => (s, .silent)
      | some timer =>
          let old := s.timers timer
          let (state, rearmed, fired) := old.fire now
          ({ s.update timer state with
              place := if fired ∧ old.callback then .callback started position rearmed
                else .fired started position rearmed },
            if fired then .fires timer old.generation old.period.isNone else .silent)
  | .callback started position rearmed =>
      ({ s with place := .fired started position rearmed }, .silent)
  | .fired started position rearmed =>
      if rearmed then ({ s with place := .sweep started (position + 1) }, .silent)
      else ({ s with pending := s.pending.eraseIdx position, place := .sweep started position },
        .silent)
  | .relocking => (s, .silent)
  | .ended => (s, .silent)

/-- One step of the system.  A callback makes calls only while it runs. -/
def step (s : TimerManager K) : TimerAction K → TimerManager K × TimerReply K
  | .call call => s.call call
  | .callbackCall call =>
      match s.place with
      | .callback _ _ _ => s.callbackCall call
      | _ => (s, .silent)
  | .dispatch now timeout => s.dispatch now timeout
  | .shutDown => (if s.place.locked then s else { s with shuttingDown := true }, .silent)

end TimerManager

/-! ### The contract -/

/-- While the mutex is free, every active timer that was scheduled after its latest
`set`, and not unscheduled since, is pending. -/
def TimerManager.Remembers {K : Type} (s : TimerManager K) : Prop :=
  s.place.locked = false → ∀ timer, (s.timers timer).active = true →
    (s.timers timer).scheduled = true → timer ∈ s.pending

/-- The dispatch thread never locks the mutex it holds, and one `set` of a one-shot
timer fires it at most once. -/
def FiresInOrder {K : Type} [DecidableEq K] (replies : List (TimerReply K)) : Prop :=
  .relocks ∉ replies ∧ ∀ timer generation, replies.count (.fires timer generation true) ≤ 1

end Kernel
end XenonRecomp
