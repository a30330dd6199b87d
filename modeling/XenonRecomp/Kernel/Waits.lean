/-
# Waits and delays

`wait_for_objects_after` and `delay_current_thread` of
`src/kernel/synchronization/wait.cpp` as programs of a thread, over the
dispatcher, next to the calls of other threads: operations on objects, `alert`,
`queue_user_apc`, `remove_user_apc` and `terminate` of
`src/kernel/threading/thread.cpp`.  A section under the dispatcher lock is one
step; between the sections every access to a flag of a thread or to a block is
a step of its own, so that a signaller, an alert or a termination can come
between any two of them.  Whether a deadline has passed is a choice of the
schedule.

A step reports the waits it satisfied, whether it is a `take_alert()` of a wait
or delay that cleared a pending alert, and the result a wait or delay returned.
-/

import XenonRecomp.Kernel.Dispatcher
import XenonRecomp.Library.Transition

namespace XenonRecomp
namespace Kernel

open Library.Transition

/-! ### The calls -/

/-- The object that `NtSignalAndWaitForSingleObjectEx` signals. -/
inductive Signal (O : Type) where
  | event (o : O)
  | semaphore (o : O)
  | mutant (o : O) (threadId : ℕ)
deriving DecidableEq, Repr

/-- The operation that the signal makes. -/
def Signal.operation {O : Type} : Signal O → Operation O
  | event o => .setEvent o
  | semaphore o => .releaseSemaphore o 1
  | mutant o threadId => .releaseMutant o threadId

/-- The arguments of `wait_for_objects_after`. -/
structure WaitCall (O T : Type) where
  signal : Option (Signal O)
  objects : List (Key O T)
  waitAll : Bool
  timeout : ℤ
  waitingThreadId : ℕ
  alertable : Bool
deriving DecidableEq, Repr

/-- `kMaxWaitObjects`. -/
def kMaxWaitObjects : ℕ := 64

/-- Where a thread stands in a call. -/
inductive WaitStep (O T : Type) where
  | idle
  /-- Before the section that checks and registers the wait. -/
  | register (c : WaitCall O T)
  /-- At the top of the loop. -/
  | check (c : WaitCall O T)
  | terminating (c : WaitCall O T) (observed : ℕ)
  /-- Before the section that checks the wait again. -/
  | recheck (c : WaitCall O T) (observed : ℕ)
  | takeAlert (c : WaitCall O T) (observed : ℕ)
  | apcPending (c : WaitCall O T) (observed : ℕ)
  | deadline (c : WaitCall O T) (observed : ℕ)
  | sleep (c : WaitCall O T) (observed : ℕ)
  /-- Before the last section. -/
  | unregister (c : WaitCall O T) (outcome : Option WaitResult)
  /-- `take_alert()` of a delay, before or after its sleep. -/
  | delayAlert (delay : ℤ) (alertable registered : Bool)
  | delayApc (delay : ℤ) (alertable registered : Bool)
  | delaySleep (alertable : Bool)
  | delayWoken (alertable : Bool)
  /-- Before the `notify_always()` of `alert`, `queue_user_apc` or `terminate`. -/
  | notifying (target : T)
deriving DecidableEq, Repr

/-- What a thread does next: begins a call, or goes on with the one it is in. -/
inductive Action (O T : Type) where
  | wait (c : WaitCall O T)
  | delay (delay : ℤ) (alertable : Bool)
  | operate (op : Operation O)
  | alert (target : T)
  | queueUserApc (target : T) (apc : UserApc)
  | removeUserApc (target : T) (guestApc : BitVec 32)
  | takeUserApcs
  /-- `KeTestAlertThread`. -/
  | testAlert
  | terminate (target : T)
  | advance (timedOut : Bool)
deriving DecidableEq, Repr

/-- Whether the schedule lets the deadline pass. -/
def Action.timedOut {O T : Type} : Action O T → Bool
  | advance timedOut => timedOut
  | _ => false

/-- What a step reports; `wait` is the wait it is a step of. -/
structure Report (O T : Type) where
  wait : Option (WaitCall O T) := none
  takes : List (Take O T) := []
  clearedAlert : Bool := false
  result : Option WaitResult := none
  signaledIndex : Option ℕ := none

/-- The wait that a thread is in, or begins with its next action. -/
def WaitStep.wait {O T : Type} : WaitStep O T → Action O T → Option (WaitCall O T)
  | idle, .wait c => some c
  | register c, _ | check c, _ | terminating c _, _ | recheck c _, _ | takeAlert c _, _
  | apcPending c _, _ | deadline c _, _ | sleep c _, _ | unregister c _, _ => some c
  | _, _ => none

/-- The dispatcher, and where every thread stands. -/
structure System (O T : Type) where
  dispatcher : Dispatcher O T
  steps : T → WaitStep O T

variable {O T : Type} [DecidableEq O] [DecidableEq T]

namespace WaitCall

/-- `infinite`. -/
def infinite (c : WaitCall O T) : Bool := decide (c.timeout < 0 ∨ c.timeout ≥ 0xFFFFFFFF)

/-- The block of the wait, before it is registered. -/
def block (c : WaitCall O T) : MultiWaitBlock O T where
  wakeups := 0
  objects := c.objects
  waitAll := c.waitAll
  threadId := c.waitingThreadId
  granted := none

/-- The lists the block is registered on. -/
def keys (c : WaitCall O T) (d : Dispatcher O T) (t : T) : List (Key O T) :=
  c.objects.dedup ++
    (if (d.threads t).kernelThread = true ∧ .thread t ∉ c.objects then [.thread t] else [])

/-- Whether the arguments are accepted. -/
def accepted (c : WaitCall O T) (d : Dispatcher O T) : Bool :=
  !c.objects.isEmpty && decide (c.objects.length ≤ kMaxWaitObjects) && c.objects.all d.isWaitable

/-- `succeeded`. -/
def succeeded (c : WaitCall O T) (index : ℕ) (abandoned : Bool) : Report O T where
  result := some (if abandoned then .abandoned else .success)
  signaledIndex := if !c.waitAll || abandoned then some index else none

end WaitCall

/-- The block of a delay. -/
def delayBlock : MultiWaitBlock O T where
  wakeups := 0
  objects := []
  waitAll := false
  threadId := 0
  granted := none

namespace Dispatcher

/-- Whether a `take_alert()` of the thread would clear an alert. -/
def alertPending (d : Dispatcher O T) (t : T) (alertable : Bool) : Bool :=
  alertable && (d.threads t).kernelThread && (d.threads t).alerted

/-- `apc_pending`. -/
def apcPending (d : Dispatcher O T) (t : T) (alertable : Bool) : Bool :=
  alertable && (d.threads t).kernelThread && !(d.threads t).userApcs.isEmpty

/-- `terminating`. -/
def terminating (d : Dispatcher O T) (t : T) : Bool :=
  (d.threads t).kernelThread && (d.threads t).terminated

/-- Clears the alert of a thread. -/
def clearAlert (d : Dispatcher O T) (t : T) : Dispatcher O T :=
  d.setThread t { d.threads t with alerted := false }

/-! ### The sections -/

/-- The first section of a wait, after the optional signal. -/
def checkAndRegister (d : Dispatcher O T) (t : T) (c : WaitCall O T) :
    Dispatcher O T × WaitStep O T × Report O T :=
  match d.trySatisfyWait c.objects c.waitAll c.waitingThreadId t with
  | some r =>
      (r.dispatcher, .idle, { c.succeeded r.index r.abandoned with takes := [⟨t, d, r.taken, r.dispatcher⟩] })
  | none =>
      if d.alertPending t c.alertable then
        (d.clearAlert t, .idle, { clearedAlert := true, result := some .alerted })
      else if d.apcPending t c.alertable then (d, .idle, { result := some .userApc })
      else if !c.infinite && decide (c.timeout = 0) then (d, .idle, { result := some .timeout })
      else ((d.setBlock t c.block).addTo t (c.keys d t), .check c, {})

/-- The first section of a wait. -/
def registerSection (d : Dispatcher O T) (t : T) (c : WaitCall O T) :
    Dispatcher O T × WaitStep O T × Report O T :=
  match c.signal with
  | none => d.checkAndRegister t c
  | some signal =>
      let r := d.operate t signal.operation
      if r.2.1 then
        let rest := r.1.checkAndRegister t c
        (rest.1, rest.2.1, { rest.2.2 with takes := r.2.2 ++ rest.2.2.takes })
      else (r.1, .idle, { takes := r.2.2, result := some .failed })

/-- The section inside the loop. -/
def recheckSection (d : Dispatcher O T) (t : T) (c : WaitCall O T) (observed : ℕ) :
    Dispatcher O T × WaitStep O T × Report O T :=
  if (d.blocks t).granted.isSome then (d, .takeAlert c observed, {})
  else
    match d.trySatisfyWait c.objects c.waitAll c.waitingThreadId t with
    | some r =>
        (r.dispatcher.grant t r.index r.abandoned, .unregister c none,
          { takes := [⟨t, d, r.taken, r.dispatcher⟩] })
    | none => (d, .takeAlert c observed, {})

/-- The last section of a wait.  The outcome is given wherever the block is not
granted. -/
def unregisterSection (d : Dispatcher O T) (t : T) (c : WaitCall O T)
    (outcome : Option WaitResult) : Dispatcher O T × WaitStep O T × Report O T :=
  let left := d.removeFrom t (c.keys d t)
  match (d.blocks t).granted with
  | some (index, abandoned) => (left, .idle, c.succeeded index abandoned)
  | none => (left, .idle, { result := outcome })

/-! ### The steps -/

/-- The return of a delay, with the destructor that unregisters its block. -/
def endDelay (d : Dispatcher O T) (t : T) (registered : Bool) (result : WaitResult) :
    Dispatcher O T × WaitStep O T × Report O T :=
  (if registered then d.removeFrom t [.thread t] else d, .idle, { result := some result })

/-- The next step of the call a thread is in; a step that is not possible
changes nothing. -/
def advance (d : Dispatcher O T) (t : T) (timedOut : Bool) :
    WaitStep O T → Dispatcher O T × WaitStep O T × Report O T
  | .idle => (d, .idle, {})
  | .register c => d.registerSection t c
  | .check c =>
      if (d.blocks t).granted.isSome then (d, .unregister c none, {})
      else (d, .terminating c (d.blocks t).wakeups, {})
  | .terminating c observed =>
      if d.terminating t then (d, .unregister c (some .terminating), {})
      else (d, .recheck c observed, {})
  | .recheck c observed => d.recheckSection t c observed
  | .takeAlert c observed =>
      if d.alertPending t c.alertable then
        (d.clearAlert t, .unregister c (some .alerted), { clearedAlert := true })
      else (d, .apcPending c observed, {})
  | .apcPending c observed =>
      if d.apcPending t c.alertable then (d, .unregister c (some .userApc), {})
      else (d, .deadline c observed, {})
  | .deadline c observed =>
      if !c.infinite && timedOut then (d, .unregister c (some .timeout), {})
      else (d, .sleep c observed, {})
  | .sleep c observed =>
      if (d.blocks t).wakeups ≠ observed ∨ (!c.infinite && timedOut) = true then
        (d, .check c, {})
      else (d, .sleep c observed, {})
  | .unregister c outcome => d.unregisterSection t c outcome
  | .delayAlert delay alertable registered =>
      if d.alertPending t alertable then
        let r := (d.clearAlert t).endDelay t registered .alerted
        (r.1, r.2.1, { r.2.2 with clearedAlert := true })
      else (d, .delayApc delay alertable registered, {})
  | .delayApc delay alertable registered =>
      if d.apcPending t alertable then d.endDelay t registered .userApc
      else if registered then d.endDelay t registered .success
      else if delay ≤ 0 then d.endDelay t registered .success
      else ((d.setBlock t delayBlock).addTo t [.thread t], .delaySleep alertable, {})
  | .delaySleep alertable =>
      if d.terminating t || d.apcPending t alertable || d.alertPending t alertable || timedOut then
        (d, .delayWoken alertable, {})
      else (d, .delaySleep alertable, {})
  | .delayWoken alertable =>
      if d.terminating t then d.endDelay t true .terminating
      else (d, .delayAlert 0 alertable true, {})
  | .notifying target => (d.notifyAlways target, .idle, {})

/-- Changes the flags of a `KernelThread`, with the waiters on it still to be
notified. -/
def flag (d : Dispatcher O T) (target : T) (f : ThreadFlags → ThreadFlags) :
    Dispatcher O T × WaitStep O T × Report O T :=
  if (d.threads target).kernelThread then
    (d.setThread target (f (d.threads target)), .notifying target, {})
  else (d, .idle, {})

/-- The first step of a call of a thread that is in none. -/
def begin (d : Dispatcher O T) (t : T) :
    Action O T → Dispatcher O T × WaitStep O T × Report O T
  | .wait c =>
      if !c.accepted d then (d, .idle, { result := some .failed })
      else if d.terminating t then (d, .idle, { result := some .terminating })
      else (d, .register c, {})
  | .delay delay alertable =>
      if !(d.threads t).kernelThread then (d, .idle, { result := some .success })
      else if d.terminating t then (d, .idle, { result := some .terminating })
      else (d, .delayAlert delay alertable false, {})
  | .operate op =>
      let r := d.operate t op
      (r.1, .idle, { takes := r.2.2 })
  | .alert target => d.flag target fun f => { f with alerted := true }
  | .queueUserApc target apc => d.flag target fun f => { f with userApcs := f.userApcs ++ [apc] }
  | .terminate target =>
      if (d.threads target).terminated then (d, .idle, {})
      else d.flag target fun f => { f with terminated := true }
  | .removeUserApc target guestApc =>
      (d.setThread target { d.threads target with
        userApcs := (d.threads target).userApcs.eraseP fun apc => apc.guestApc == guestApc },
        .idle, {})
  | .takeUserApcs => (d.setThread t { d.threads t with userApcs := [] }, .idle, {})
  | .testAlert => (d.clearAlert t, .idle, {})
  | .advance _ => (d, .idle, {})

/-- One step of a thread: in a call it goes on with it, whatever the action, and
in none it begins one. -/
def turn (d : Dispatcher O T) (t : T) (action : Action O T) :
    WaitStep O T → Dispatcher O T × WaitStep O T × Report O T
  | .idle => d.begin t action
  | place => d.advance t action.timedOut place

end Dispatcher

namespace System

/-- One step of thread `e.1`. -/
def step (s : System O T) (e : T × Action O T) : System O T × Report O T :=
  let r := s.dispatcher.turn e.1 e.2 (s.steps e.1)
  (⟨r.1, Function.update s.steps e.1 r.2.1⟩, { r.2.2 with wait := (s.steps e.1).wait e.2 })

/-- No thread is in a call and nothing is registered; the objects and the flags
of the threads are any. -/
def Initial (s : System O T) : Prop :=
  (∀ t, s.steps t = .idle) ∧ (∀ key, s.dispatcher.lists key = [])

end System

end Kernel
end XenonRecomp
