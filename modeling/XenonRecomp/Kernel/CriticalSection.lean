/-
# Guest critical sections

`RtlEnterCriticalSection`, `RtlTryEnterCriticalSection` and
`RtlLeaveCriticalSection` of
`src/xbox/exports/xboxkrnl_rtl_critical_section_exports.cpp` on one critical
section: the three guest words, changed in sections under
`critical_section_mutex`, and the auto-reset event of the header, on which a
contended enter waits.  The wait is the one of `Waits`, step by step, and the
event is the only object of its dispatcher; the header resolves to it, and the
guest does not write the header.

A thread that was terminated while it waited returns without ownership and
makes no more calls; its registration in `LockCount` stays.  A leave is only
called by the owner.
-/

import XenonRecomp.Kernel.SignalConservation

namespace XenonRecomp
namespace Kernel

open Library.Transition Library.Interleaving

/-! ### The model -/

/-- Where a thread stands with respect to the section. -/
inductive SectionPlace where
  | outside
  /-- The thread has entered, this many times more than it has left. -/
  | inside (depth : ℕ)
  /-- In the wait of a contended enter. -/
  | waiting
  /-- The wait has returned; before the section that takes over. -/
  | woken
  /-- In a leave, before the set of the event. -/
  | setting
  /-- The wait has returned `Terminating`. -/
  | ended
deriving DecidableEq, Repr

/-- The guest words, the dispatcher with the event of the header, and the
threads. -/
structure CriticalSection (T : Type) where
  lockCount : BitVec 32
  recursionCount : BitVec 32
  owningThread : BitVec 32
  waits : System Unit T
  places : T → SectionPlace

/-- A call of a thread that is in none; `terminate` stands for anybody's call on
the target. -/
inductive SectionCall (T : Type) where
  | enter
  | tryEnter
  | leave
  | terminate (target : T)
deriving DecidableEq, Repr

/-- The infinite wait of `RtlEnterCriticalSection`. -/
def enterWait {T : Type} (threadId : ℕ) : WaitCall Unit T :=
  ⟨none, [.object ()], false, -1, threadId, false⟩

variable {T : Type} [DecidableEq T]

namespace CriticalSection

variable (marker : T → BitVec 32) (threadId : T → ℕ)

/-- Moves one thread. -/
def goTo (s : CriticalSection T) (t : T) (place : SectionPlace) : CriticalSection T :=
  { s with places := Function.update s.places t place }

/-- One layer deeper. -/
def deeper : SectionPlace → SectionPlace
  | .inside depth => .inside (depth + 1)
  | _ => .inside 1

/-- The first section of `rtl_enter_critical_section_export`. -/
def enter (s : CriticalSection T) (t : T) : CriticalSection T :=
  let counted := { s with lockCount := s.lockCount + 1 }
  if s.owningThread = marker t then
    { counted with recursionCount := s.recursionCount + 1 }.goTo t (deeper (s.places t))
  else if s.lockCount = -1 then
    { counted with owningThread := marker t, recursionCount := 1 }.goTo t (.inside 1)
  else counted.goTo t .waiting

/-- The section that takes over after the wait. -/
def takeOver (s : CriticalSection T) (t : T) : CriticalSection T :=
  { s with owningThread := marker t, recursionCount := 1 }.goTo t (.inside 1)

/-- `rtl_try_enter_critical_section_export`. -/
def tryEnter (s : CriticalSection T) (t : T) : CriticalSection T :=
  if s.owningThread = 0 ∧ s.lockCount = -1 then
    { s with owningThread := marker t, recursionCount := 1, lockCount := 0 }.goTo t (.inside 1)
  else if s.owningThread = marker t then
    { s with
      recursionCount := s.recursionCount + 1
      lockCount := s.lockCount + 1 }.goTo t (deeper (s.places t))
  else s

/-- The section of `rtl_leave_critical_section_export`, by a thread inside at
this depth. -/
def leave (s : CriticalSection T) (t : T) (depth : ℕ) : CriticalSection T :=
  if s.recursionCount = 0 then s
  else
    let left := { s with
      recursionCount := s.recursionCount - 1
      lockCount := s.lockCount - 1 }
    if s.recursionCount - 1 ≠ 0 then left.goTo t (.inside (depth - 1))
    else
      { left with owningThread := 0 }.goTo t
        (if s.lockCount - 1 ≠ -1 then .setting else .outside)

/-- One step of the wait of a contended enter. -/
def waitStep (s : CriticalSection T) (t : T) : CriticalSection T :=
  let r := s.waits.step (t, .wait (enterWait (threadId t)))
  let waited := { s with waits := r.1 }
  match r.2.result with
  | none => waited
  | some .terminating => waited.goTo t .ended
  | some _ => waited.goTo t .woken

/-- A call of the thread begins, unless it is still notifying the waiters of a
thread it terminated. -/
def call (s : CriticalSection T) (t : T) (a : SectionCall T) : CriticalSection T :=
  match s.waits.steps t, a, s.places t with
  | .idle, .enter, _ => s.enter marker t
  | .idle, .tryEnter, _ => s.tryEnter marker t
  | .idle, .leave, .inside depth => s.leave t depth
  | .idle, .leave, _ => s
  | .idle, .terminate target, _ => { s with waits := (s.waits.step (t, .terminate target)).1 }
  | _, _, _ => { s with waits := (s.waits.step (t, .advance false)).1 }

/-- One step of thread `e.1`. -/
def step (s : CriticalSection T) (e : T × SectionCall T) : CriticalSection T × Unit :=
  match s.places e.1 with
  | .outside => (s.call marker e.1 e.2, ())
  | .inside _ => (s.call marker e.1 e.2, ())
  | .waiting => (s.waitStep threadId e.1, ())
  | .woken => (s.takeOver marker e.1, ())
  | .setting =>
      ({ s with waits := (s.waits.step (e.1, .operate (.setEvent ()))).1 }.goTo e.1 .outside, ())
  | .ended => (s, ())

/-- After `RtlInitializeCriticalSection`, with no thread in a call; whatever the
flags of the threads are. -/
def Initial (s : CriticalSection T) : Prop :=
  s.lockCount = -1 ∧ s.recursionCount = 0 ∧ s.owningThread = 0 ∧ s.waits.Initial ∧
    (∃ mirror, s.waits.dispatcher.objects () = .event false false mirror) ∧
    ∀ t, s.places t = .outside

end CriticalSection

/-! ### What is to hold -/

namespace SectionPlace

/-- Whether the thread is registered as a waiter and has not taken over. -/
def isWaiter : SectionPlace → Bool
  | waiting | woken | ended => true
  | _ => false

end SectionPlace

namespace CriticalSection

/-- The thread's wait has been granted and has not returned. -/
def Held (w : System Unit T) (t : T) : Prop :=
  (w.steps t).registered ≠ none ∧ (w.dispatcher.blocks t).granted ≠ none

/-- Some thread owns the section. -/
def Owned (s : CriticalSection T) : Prop := ∃ t depth, s.places t = .inside depth

/-- Some waiter has consumed the event and not yet taken over. -/
def Consumed (s : CriticalSection T) : Prop :=
  ∃ t, s.places t = .woken ∨ (s.places t = .waiting ∧ Held s.waits t)

/-- The event is signalled. -/
def Signalled (s : CriticalSection T) : Prop :=
  (s.waits.dispatcher.objects ()).canSatisfy 0 = true

/-- Some leave has yet to set the event. -/
def Setting (s : CriticalSection T) : Prop := ∃ t, s.places t = .setting

variable [Fintype T]

/-- **The section excludes and strands nobody.** -/
structure Excludes (marker : T → BitVec 32) (s : CriticalSection T) : Prop where
  /-- At most one thread is inside, -/
  one : ∀ t u depth depth', s.places t = .inside depth → s.places u = .inside depth' → t = u
  /-- the owner word names it, and the recursion word is its depth. -/
  named : ∀ t depth, s.places t = .inside depth →
    s.owningThread = marker t ∧ s.recursionCount.toNat = depth
  unowned : ¬ s.Owned → s.owningThread = 0 ∧ s.recursionCount = 0
  /-- The lock count is the depth and the waiters. -/
  counted : s.lockCount.toInt + 1 =
    s.recursionCount.toNat + count SectionPlace.isWaiter s.places
  /-- While the section is not free, exactly one of these holds; -/
  handed : s.lockCount ≠ -1 →
    (s.Owned ∧ ¬ s.Consumed ∧ ¬ s.Signalled ∧ ¬ s.Setting) ∨
    (¬ s.Owned ∧ s.Consumed ∧ ¬ s.Signalled ∧ ¬ s.Setting) ∨
    (¬ s.Owned ∧ ¬ s.Consumed ∧ s.Signalled ∧ ¬ s.Setting) ∨
    (¬ s.Owned ∧ ¬ s.Consumed ∧ ¬ s.Signalled ∧ s.Setting)
  /-- while it is free, none does. -/
  free : s.lockCount = -1 → ¬ s.Owned ∧ ¬ s.Consumed ∧ ¬ s.Signalled ∧ ¬ s.Setting
  /-- No thread sleeps on the event while it is signalled. -/
  awake : s.Signalled → ∀ t, s.places t = .waiting → (s.waits.steps t).registered = none

end CriticalSection

end Kernel
end XenonRecomp
