/-
# The dispatcher

The waitable objects of the kernel and the sections that run with the
dispatcher lock held: `src/kernel/synchronization/wait.cpp` (`WaitAccess`,
`try_satisfy_wait`, `grant`, `MultiWaitList`), `event.cpp`, `semaphore.cpp`,
`mutant.cpp` and `timer.cpp`.

A wait in progress is a `MultiWaitBlock` on the stack of the thread that waits,
so the thread names it.  Every object has the list of the blocks registered on
it, oldest first; the list of a `KernelThread` also holds the waits and delays
of that thread, to be woken.  A section that can make an object satisfiable
walks the object's list once and satisfies, for their waiters, the waits it
can.  What a section satisfied is reported as a list of `Take`s, in order.

The distinct objects of a wait stand in the order of their addresses in the
source; satisfying distinct objects commutes, and the model keeps them in the
order of the list.  Counters are unbounded.
-/

import Mathlib.Algebra.Order.Ring.Int
import Mathlib.Data.List.Dedup

namespace XenonRecomp
namespace Kernel

/-! ### Objects -/

/-- `WaitResult`. -/
inductive WaitResult where
  | success
  | timeout
  | abandoned
  | terminating
  | userApc
  | alerted
  | failed
deriving DecidableEq, Repr

/-- What a wait can name: an object of the kernel, or the `KernelThread` of a
thread. -/
inductive Key (O T : Type) where
  | object (o : O)
  | thread (t : T)
deriving DecidableEq, Repr

instance [DecidableEq O] [DecidableEq T] : LawfulBEq (Key O T) := inferInstance

/-- The state of an object that is not a thread.  The mirror of an event or a
semaphore is the `SignalState` word of its guest header, if it has one. -/
inductive KernelObject (T : Type) where
  /-- `KernelEvent`. -/
  | event (manualReset signaled : Bool) (mirror : Option ℤ)
  /-- `KernelSemaphore`. -/
  | semaphore (count maximumCount : ℤ) (mirror : Option ℤ)
  /-- `KernelMutant`. -/
  | mutant (ownerThreadId : ℕ) (ownerHostThread : Option T) (recursionCount : ℕ) (abandoned : Bool)
  /-- `KernelTimer`. -/
  | timer (synchronization signaled active periodic : Bool)
  /-- An object of a type no wait can name. -/
  | other
deriving DecidableEq, Repr

namespace KernelObject

variable {T : Type}

/-- `is_waitable_object`. -/
def isWaitable : KernelObject T → Bool
  | other => false
  | _ => true

/-- `can_satisfy_locked` of every class. -/
def canSatisfy : KernelObject T → ℕ → Bool
  | event _ signaled _, _ => signaled
  | semaphore count _ _, _ => decide (0 < count)
  | mutant owner _ recursion _, threadId => recursion == 0 || owner == threadId
  | timer _ signaled _ _, _ => signaled
  | other, _ => false

/-- `satisfy_locked` of every class, and whether it took over an abandoned
mutant. -/
def satisfy : KernelObject T → ℕ → T → KernelObject T × Bool
  | event manualReset signaled mirror, _, _ =>
      if manualReset then (event manualReset signaled mirror, false)
      else (event manualReset false (mirror.map fun _ => 0), false)
  | semaphore count maximum mirror, _, _ =>
      (semaphore (count - 1) maximum (mirror.map fun _ => count - 1), false)
  | mutant owner hostThread recursion abandoned, threadId, host =>
      if 0 < recursion then (mutant owner hostThread (recursion + 1) abandoned, false)
      else (mutant threadId (some host) 1 false, abandoned)
  | timer synchronization signaled active periodic, _, _ =>
      (timer synchronization (if synchronization then false else signaled) active periodic, false)
  | other, _, _ => (other, false)

/-- `store_state_locked` of an event; the store of the count of a semaphore. -/
def storeState : KernelObject T → KernelObject T
  | event manualReset signaled mirror =>
      event manualReset signaled (mirror.map fun _ => if signaled then 1 else 0)
  | semaphore count maximum mirror => semaphore count maximum (mirror.map fun _ => count)
  | object => object

/-- `signaled_ = false` of an event. -/
def unsignal : KernelObject T → KernelObject T
  | event manualReset _ mirror => event manualReset false mirror
  | object => object

/-- The store of an event that reconciled to signalled, made if a wait took the
signal. -/
def storeIfUnsignaled : KernelObject T → KernelObject T
  | event manualReset false mirror => storeState (event manualReset false mirror)
  | object => object

/-- `active_ = false` of a timer that fired and has no period. -/
def disarm : KernelObject T → KernelObject T
  | timer synchronization signaled _ false => timer synchronization signaled false false
  | object => object

end KernelObject

/-! ### Blocks and lists -/

/-- `KernelThread::UserApc`. -/
structure UserApc where
  routine : BitVec 32
  context : BitVec 32
  arg1 : BitVec 32
  arg2 : BitVec 32
  guestApc : BitVec 32
deriving DecidableEq, Repr

/-- What the wait code reads of a thread: whether it is a `KernelThread`, and
then its flags and its queued APCs. -/
structure ThreadFlags where
  kernelThread : Bool
  terminated : Bool
  alerted : Bool
  userApcs : List UserApc
deriving DecidableEq, Repr

/-- `MultiWaitBlock`; `granted` holds the index and the abandonment that a
signaller recorded.  A delay registers a block without objects. -/
structure MultiWaitBlock (O T : Type) where
  wakeups : ℕ
  objects : List (Key O T)
  waitAll : Bool
  threadId : ℕ
  granted : Option (ℕ × Bool)
deriving DecidableEq, Repr

/-- The objects, the threads, the list of every object and the block of every
thread. -/
structure Dispatcher (O T : Type) where
  objects : O → KernelObject T
  threads : T → ThreadFlags
  lists : Key O T → List T
  blocks : T → MultiWaitBlock O T

/-- One wait that was satisfied: who waited, the state that was found, the
objects that were taken and the state that was left. -/
structure Take (O T : Type) where
  waiter : T
  found : Dispatcher O T
  taken : List (Key O T)
  left : Dispatcher O T

/-- What `try_satisfy_wait` returns through its references when it succeeds. -/
structure Satisfied (O T : Type) where
  dispatcher : Dispatcher O T
  index : ℕ
  abandoned : Bool
  taken : List (Key O T)

namespace Dispatcher

variable {O T : Type} [DecidableEq O] [DecidableEq T]

/-- `WaitAccess::can_satisfy`. -/
def canSatisfy (d : Dispatcher O T) : Key O T → ℕ → Bool
  | .object o, threadId => (d.objects o).canSatisfy threadId
  | .thread t, _ => (d.threads t).terminated

/-- Whether a wait can name the object. -/
def isWaitable (d : Dispatcher O T) : Key O T → Bool
  | .object o => (d.objects o).isWaitable
  | .thread t => (d.threads t).kernelThread

/-- Replaces one object. -/
def setObject (d : Dispatcher O T) (o : O) (x : KernelObject T) : Dispatcher O T :=
  { d with objects := Function.update d.objects o x }

/-- Replaces the flags of one thread. -/
def setThread (d : Dispatcher O T) (t : T) (f : ThreadFlags) : Dispatcher O T :=
  { d with threads := Function.update d.threads t f }

/-- Replaces the block of one thread. -/
def setBlock (d : Dispatcher O T) (t : T) (b : MultiWaitBlock O T) : Dispatcher O T :=
  { d with blocks := Function.update d.blocks t b }

/-- `WaitAccess::satisfy`. -/
def satisfy (d : Dispatcher O T) (key : Key O T) (threadId : ℕ) (host : T) :
    Dispatcher O T × Bool :=
  match key with
  | .object o =>
      let r := (d.objects o).satisfy threadId host
      (d.setObject o r.1, r.2)
  | .thread _ => (d, false)

/-- The second loop of a `WaitAll`. -/
def satisfyAll (d : Dispatcher O T) (threadId : ℕ) (host : T) :
    List (Key O T) → Dispatcher O T × Bool
  | [] => (d, false)
  | key :: keys =>
      let r := d.satisfy key threadId host
      let rest := satisfyAll r.1 threadId host keys
      (rest.1, r.2 || rest.2)

/-- The loop of a `WaitAny`, from index `i` on. -/
def satisfyFirst (d : Dispatcher O T) (threadId : ℕ) (host : T) :
    List (Key O T) → ℕ → Option (Satisfied O T)
  | [], _ => none
  | key :: keys, i =>
      if d.canSatisfy key threadId then
        let r := d.satisfy key threadId host
        some ⟨r.1, i, r.2, [key]⟩
      else satisfyFirst d threadId host keys (i + 1)

/-- `try_satisfy_wait`. -/
def trySatisfyWait (d : Dispatcher O T) (objects : List (Key O T)) (waitAll : Bool)
    (threadId : ℕ) (host : T) : Option (Satisfied O T) :=
  if waitAll then
    if objects.dedup.all (d.canSatisfy · threadId) then
      let r := d.satisfyAll threadId host objects.dedup
      some ⟨r.1, 0, r.2, objects.dedup⟩
    else none
  else d.satisfyFirst threadId host objects 0

/-- `grant`. -/
def grant (d : Dispatcher O T) (t : T) (index : ℕ) (abandoned : Bool) : Dispatcher O T :=
  d.setBlock t { d.blocks t with
    granted := some (index, abandoned)
    wakeups := (d.blocks t).wakeups + 1 }

/-- One turn of the loop of `satisfy_waiters_locked`. -/
def satisfyWaiter (d : Dispatcher O T) (t : T) : Dispatcher O T × List (Take O T) :=
  let b := d.blocks t
  if b.granted.isSome || b.objects.isEmpty then (d, [])
  else
    match d.trySatisfyWait b.objects b.waitAll b.threadId t with
    | none => (d, [])
    | some r => (r.dispatcher.grant t r.index r.abandoned, [⟨t, d, r.taken, r.dispatcher⟩])

/-- The loop of `satisfy_waiters_locked`. -/
def satisfyList (d : Dispatcher O T) : List T → Dispatcher O T × List (Take O T)
  | [] => (d, [])
  | t :: ts =>
      let r := d.satisfyWaiter t
      let rest := satisfyList r.1 ts
      (rest.1, r.2 ++ rest.2)

/-- `MultiWaitList::satisfy_waiters_locked` of the list of an object. -/
def satisfyWaiters (d : Dispatcher O T) (o : O) : Dispatcher O T × List (Take O T) :=
  d.satisfyList (d.lists (.object o))

/-- `MultiWaitList::notify_always` of the list of a thread. -/
def notifyAlways (d : Dispatcher O T) (t : T) : Dispatcher O T :=
  { d with blocks := fun u =>
      if u ∈ d.lists (.thread t) then { d.blocks u with wakeups := (d.blocks u).wakeups + 1 }
      else d.blocks u }

/-- `MultiWaitList::add` on each of the lists. -/
def addTo (d : Dispatcher O T) (t : T) (keys : List (Key O T)) : Dispatcher O T :=
  { d with lists := fun key => if key ∈ keys then d.lists key ++ [t] else d.lists key }

/-- `MultiWaitList::remove` on each of the lists. -/
def removeFrom (d : Dispatcher O T) (t : T) (keys : List (Key O T)) : Dispatcher O T :=
  { d with lists := fun key => if key ∈ keys then (d.lists key).erase t else d.lists key }

/-! ### The operations on objects -/

/-- Gives an object a state that can be satisfiable and satisfies the waits
registered on it. -/
def signal (d : Dispatcher O T) (o : O) (x : KernelObject T) :
    Dispatcher O T × List (Take O T) :=
  (d.setObject o x).satisfyWaiters o

/-- Applies a function to one object. -/
def modifyObject (d : Dispatcher O T) (o : O) (f : KernelObject T → KernelObject T) :
    Dispatcher O T :=
  d.setObject o (f (d.objects o))

end Dispatcher

/-- The operations on the objects that run with the dispatcher lock held, and
the store of the guest to a `SignalState` word. -/
inductive Operation (O : Type) where
  | setEvent (o : O)
  | pulseEvent (o : O)
  | resetEvent (o : O)
  | releaseSemaphore (o : O) (releaseCount : ℤ)
  | releaseMutant (o : O) (threadId : ℕ)
  | abandonMutant (o : O)
  /-- One mutant as `abandon_mutants_owned_by_this_thread` comes to it. -/
  | abandonOwned (o : O)
  | setTimer (o : O) (dueTime : ℤ) (periodic : Bool)
  | fireTimer (o : O)
  | cancelTimer (o : O)
  | reconcileWithGuestState (o : O)
  | guestStore (o : O) (value : ℤ)
deriving DecidableEq, Repr

/-- The object of an operation. -/
def Operation.object {O : Type} : Operation O → O
  | setEvent o | pulseEvent o | resetEvent o | releaseSemaphore o _ | releaseMutant o _
  | abandonMutant o | abandonOwned o | setTimer o _ _ | fireTimer o | cancelTimer o
  | reconcileWithGuestState o | guestStore o _ => o

namespace Dispatcher

variable {O T : Type} [DecidableEq O] [DecidableEq T]

/-- `KernelEvent::set_locked`. -/
def setEvent (d : Dispatcher O T) (o : O) (manualReset : Bool) (mirror : Option ℤ) :
    Dispatcher O T × List (Take O T) :=
  let r := d.signal o (.event manualReset true mirror)
  (r.1.modifyObject o .storeState, r.2)

/-- `KernelEvent::pulse`. -/
def pulseEvent (d : Dispatcher O T) (o : O) (manualReset : Bool) (mirror : Option ℤ) :
    Dispatcher O T × List (Take O T) :=
  let r := d.signal o (.event manualReset true mirror)
  (r.1.modifyObject o fun x => x.unsignal.storeState, r.2)

/-- `KernelSemaphore::release_locked`. -/
def releaseSemaphore (d : Dispatcher O T) (o : O) (count maximum : ℤ) (mirror : Option ℤ)
    (releaseCount : ℤ) : Dispatcher O T × Bool × List (Take O T) :=
  if releaseCount ≤ 0 then (d, false, [])
  else if releaseCount > maximum - count then (d, false, [])
  else
    let r := d.signal o (.semaphore (count + releaseCount) maximum mirror)
    (r.1.modifyObject o .storeState, true, r.2)

/-- `KernelMutant::release_locked`. -/
def releaseMutant (d : Dispatcher O T) (o : O) (owner : ℕ) (hostThread : Option T)
    (recursion : ℕ) (abandoned : Bool) (threadId : ℕ) :
    Dispatcher O T × Bool × List (Take O T) :=
  if owner ≠ threadId ∨ recursion = 0 then (d, false, [])
  else if recursion = 1 then
    let r := d.signal o (.mutant 0 none 0 abandoned)
    (r.1, true, r.2)
  else (d.setObject o (.mutant owner hostThread (recursion - 1) abandoned), true, [])

/-- `KernelMutant::abandon_locked`. -/
def abandonMutant (d : Dispatcher O T) (o : O) : Dispatcher O T × List (Take O T) :=
  d.signal o (.mutant 0 none 0 true)

/-- The section of `KernelTimer::set`. -/
def setTimer (d : Dispatcher O T) (o : O) (synchronization : Bool) (dueTime : ℤ)
    (periodic : Bool) : Dispatcher O T × List (Take O T) :=
  if dueTime = 0 then d.signal o (.timer synchronization true true periodic)
  else (d.setObject o (.timer synchronization false true periodic), [])

/-- The section of `KernelTimer::fire`. -/
def fireTimer (d : Dispatcher O T) (o : O) (synchronization active periodic : Bool) :
    Dispatcher O T × Bool × List (Take O T) :=
  if active then
    let r := d.signal o (.timer synchronization true active periodic)
    (r.1.modifyObject o .disarm, periodic, r.2)
  else (d, false, [])

/-- `KernelEvent::reconcile_with_guest_state` of an event with a mirror. -/
def reconcileEvent (d : Dispatcher O T) (o : O) (manualReset signaled : Bool) (guest : ℤ) :
    Dispatcher O T × List (Take O T) :=
  let guestSignaled := decide (guest ≠ 0)
  if guestSignaled = signaled then (d, [])
  else if guestSignaled then
    let r := d.signal o (.event manualReset true (some guest))
    (r.1.modifyObject o .storeIfUnsignaled, r.2)
  else (d.setObject o (.event manualReset false (some guest)), [])

/-- `KernelSemaphore::reconcile_with_guest_state` of a semaphore with a mirror. -/
def reconcileSemaphore (d : Dispatcher O T) (o : O) (count maximum guest : ℤ) :
    Dispatcher O T × List (Take O T) :=
  if guest = count then (d, [])
  else if guest < 0 ∨ guest > maximum then (d, [])
  else
    let r := d.signal o (.semaphore guest maximum (some guest))
    (r.1.modifyObject o .storeState, r.2)

/-- An operation made by thread `t`: the state it leaves, the value it returns
(`true` where it returns none) and the waits it satisfied.  An operation on an
object of another class does not exist and changes nothing. -/
def operate (d : Dispatcher O T) (t : T) (op : Operation O) :
    Dispatcher O T × Bool × List (Take O T) :=
  match op with
  | .setEvent o =>
      match d.objects o with
      | .event manualReset _ mirror => let r := d.setEvent o manualReset mirror; (r.1, true, r.2)
      | _ => (d, false, [])
  | .pulseEvent o =>
      match d.objects o with
      | .event manualReset _ mirror => let r := d.pulseEvent o manualReset mirror; (r.1, true, r.2)
      | _ => (d, false, [])
  | .resetEvent o =>
      match d.objects o with
      | .event .. => (d.modifyObject o fun x => x.unsignal.storeState, true, [])
      | _ => (d, false, [])
  | .releaseSemaphore o releaseCount =>
      match d.objects o with
      | .semaphore count maximum mirror => d.releaseSemaphore o count maximum mirror releaseCount
      | _ => (d, false, [])
  | .releaseMutant o threadId =>
      match d.objects o with
      | .mutant owner hostThread recursion abandoned =>
          d.releaseMutant o owner hostThread recursion abandoned threadId
      | _ => (d, false, [])
  | .abandonMutant o =>
      match d.objects o with
      | .mutant .. => let r := d.abandonMutant o; (r.1, true, r.2)
      | _ => (d, false, [])
  | .abandonOwned o =>
      match d.objects o with
      | .mutant _ hostThread recursion _ =>
          if 0 < recursion ∧ hostThread = some t then let r := d.abandonMutant o; (r.1, true, r.2)
          else (d, true, [])
      | _ => (d, false, [])
  | .setTimer o dueTime periodic =>
      match d.objects o with
      | .timer synchronization .. =>
          let r := d.setTimer o synchronization dueTime periodic; (r.1, true, r.2)
      | _ => (d, false, [])
  | .fireTimer o =>
      match d.objects o with
      | .timer synchronization _ active periodic => d.fireTimer o synchronization active periodic
      | _ => (d, false, [])
  | .cancelTimer o =>
      match d.objects o with
      | .timer synchronization _ true periodic =>
          (d.setObject o (.timer synchronization false false periodic), true, [])
      | _ => (d, false, [])
  | .reconcileWithGuestState o =>
      match d.objects o with
      | .event manualReset signaled (some guest) =>
          let r := d.reconcileEvent o manualReset signaled guest; (r.1, true, r.2)
      | .semaphore count maximum (some guest) =>
          let r := d.reconcileSemaphore o count maximum guest; (r.1, true, r.2)
      | _ => (d, true, [])
  | .guestStore o value =>
      match d.objects o with
      | .event manualReset signaled (some _) =>
          (d.setObject o (.event manualReset signaled (some value)), true, [])
      | .semaphore count maximum (some _) =>
          (d.setObject o (.semaphore count maximum (some value)), true, [])
      | _ => (d, false, [])

end Dispatcher
end Kernel
end XenonRecomp
