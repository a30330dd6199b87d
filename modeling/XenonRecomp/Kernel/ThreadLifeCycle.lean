/-
# The life cycle of a kernel thread

`KernelThread` of `src/kernel/threading/thread.cpp`: `start`, `suspend`,
`resume` and `terminate` may be called by anybody at any moment, each as one
section under the thread's mutex, while the host thread that `start` spawned
runs `thread_main`.  A schedule is a list of these sections and of steps of
`thread_main`, in any order.

The suspend counter, the state word and the decision to run the entry function
are kept consistent (`LifeCycle`) by every schedule that avoids three moments
(`Meets`): the counter leaving or reaching zero before the thread was started,
which takes the state word away from `Initialized` so that `start` refuses the
thread for ever; the switch to `Running` after a suspension that fell between
the parking check of `thread_main` and the switch; and the 2^32-th nested
suspension, which wraps the counter.  A schedule that meets one of them breaks
the life cycle there (`lifeCycle_iff`).
-/

import XenonRecomp.Library.Transition
import Mathlib.Data.List.Count

namespace XenonRecomp
namespace Kernel

open Library.Transition

/-! ### The thread -/

/-- `ThreadState`. -/
inductive ThreadState where
  | initialized
  | ready
  | running
  | suspended
  | terminated
deriving DecidableEq, Repr

/-- Where the host thread stands in `thread_main`. -/
inductive MainStep where
  /-- No host thread was spawned. -/
  | notSpawned
  /-- Before the load of `suspend_count_` that lets `wait_while_suspended` return
  at once. -/
  | parking
  /-- Inside `suspend_condition_.wait`. -/
  | waiting
  /-- Before the section that switches to `Running`. -/
  | deciding
  /-- Past it, with the value of `should_run_entry`. -/
  | decided (shouldRunEntry : Bool)
  /-- Inside `entry_`. -/
  | inEntry
  /-- Before the last section, with the value of `result`. -/
  | rundown (result : BitVec 32)
  /-- Past the last section. -/
  | finished
deriving DecidableEq, Repr

/-- What a thread is created with. -/
structure ThreadParams where
  createSuspended : Bool
  hasEntry : Bool
deriving DecidableEq, Repr

/-- The state of a thread object. -/
structure Thread where
  params : ThreadParams
  state : ThreadState
  suspendCount : ℕ
  exitCode : BitVec 32
  main : MainStep
deriving DecidableEq, Repr

/-- The constructor. -/
def Thread.create (p : ThreadParams) : Thread where
  params := p
  state := .initialized
  suspendCount := if p.createSuspended then 1 else 0
  exitCode := 0
  main := .notSpawned

/-- A section of a call, or a step of `thread_main`; spawning the host thread
can fail, and `result` is what `entry_` returns if the step is its return. -/
inductive ThreadEvent where
  | start (spawns : Bool)
  | suspend
  | resume
  | terminate (exitCode : BitVec 32)
  | main (result : BitVec 32)
deriving DecidableEq, Repr

/-- What a step shows: the value a call returns, the decision of `thread_main`,
the call of `entry_`, or nothing. -/
inductive ThreadReply where
  | returned (value : Bool)
  | decided (shouldRunEntry : Bool)
  | entryCalled
  | silent
deriving DecidableEq, Repr

namespace Thread

/-- `start`. -/
def start (t : Thread) (spawns : Bool) : Thread × ThreadReply :=
  if t.state ≠ .initialized then (t, .returned false)
  else if spawns then
    ({ t with
        state := if t.params.createSuspended then .suspended else .ready
        main := .parking }, .returned true)
  else (t, .returned false)

/-- `suspend`. -/
def suspend (t : Thread) : Thread × ThreadReply :=
  if t.state = .terminated then (t, .returned false)
  else
    ({ t with
        suspendCount := (t.suspendCount + 1) % 2 ^ 32
        state := if t.suspendCount = 0 then .suspended else t.state }, .returned true)

/-- `resume`. -/
def resume (t : Thread) : Thread × ThreadReply :=
  if t.state = .terminated then (t, .returned false)
  else if t.suspendCount = 0 then (t, .returned false)
  else
    ({ t with
        suspendCount := t.suspendCount - 1
        state := if t.suspendCount = 1 then .ready else t.state }, .returned true)

/-- `terminate`. -/
def terminate (t : Thread) (exitCode : BitVec 32) : Thread × ThreadReply :=
  if t.state = .terminated then (t, .returned false)
  else ({ t with exitCode, state := .terminated }, .returned true)

/-- One step of `thread_main`, `wait_while_suspended` included; a step that is
not possible changes nothing. -/
def mainStep (t : Thread) (result : BitVec 32) : Thread × ThreadReply :=
  match t.main with
  | .notSpawned => (t, .silent)
  | .parking =>
    ({ t with main := if t.suspendCount = 0 then .deciding else .waiting }, .silent)
  | .waiting =>
    if t.suspendCount = 0 ∨ t.state = .terminated then ({ t with main := .deciding }, .silent)
    else (t, .silent)
  | .deciding =>
    if t.state ≠ .terminated then
      ({ t with state := .running, main := .decided true }, .decided true)
    else ({ t with main := .decided false }, .decided false)
  | .decided shouldRunEntry =>
    if shouldRunEntry && t.params.hasEntry then ({ t with main := .inEntry }, .entryCalled)
    else ({ t with main := .rundown 0 }, .silent)
  | .inEntry => ({ t with main := .rundown result }, .silent)
  | .rundown result =>
    if t.state ≠ .terminated then
      ({ t with exitCode := result, state := .terminated, main := .finished }, .silent)
    else ({ t with main := .finished }, .silent)
  | .finished => (t, .silent)

/-- One step of a schedule. -/
def step (t : Thread) : ThreadEvent → Thread × ThreadReply
  | .start spawns => t.start spawns
  | .suspend => t.suspend
  | .resume => t.resume
  | .terminate exitCode => t.terminate exitCode
  | .main result => t.mainStep result

end Thread

/-! ### The life cycle -/

/-- The thread after a schedule. -/
def after (p : ThreadParams) (es : List ThreadEvent) : Thread :=
  run Thread.step (Thread.create p) es

/-- What a schedule showed. -/
def shown (p : ThreadParams) (es : List ThreadEvent) : List (ThreadEvent × ThreadReply) :=
  trace Thread.step (Thread.create p) es

/-- A call of `start` succeeded. -/
def Started (h : List (ThreadEvent × ThreadReply)) : Prop :=
  (.start true, .returned true) ∈ h

instance (h : List (ThreadEvent × ThreadReply)) : Decidable (Started h) :=
  inferInstanceAs (Decidable (_ ∈ _))

/-- A call of `terminate` succeeded. -/
def TerminateCalled (h : List (ThreadEvent × ThreadReply)) : Prop :=
  ∃ exitCode, (.terminate exitCode, .returned true) ∈ h

/-- The successful calls of `suspend`. -/
def suspends (h : List (ThreadEvent × ThreadReply)) : ℕ :=
  h.count (.suspend, .returned true)

/-- The successful calls of `resume`. -/
def resumes (h : List (ThreadEvent × ThreadReply)) : ℕ :=
  h.count (.resume, .returned true)

/-- The calls of `entry_`. -/
def entryCalls (h : List (ThreadEvent × ThreadReply)) : ℕ :=
  h.countP fun r => decide (r.2 = .entryCalled)

/-- The life cycle is consistent at the end of a schedule. -/
structure LifeCycle (p : ThreadParams) (es : List ThreadEvent) : Prop where
  /-- `Terminated` is final, and so is the exit code then. -/
  final : ∀ a b, es = a ++ b → (after p a).state = .terminated →
    (after p es).state = .terminated ∧ (after p es).exitCode = (after p a).exitCode
  /-- A live thread reports `Suspended` exactly while it is suspended. -/
  suspended_iff : Started (shown p es) → (after p es).state ≠ .terminated →
    ((after p es).state = .suspended ↔ 0 < (after p es).suspendCount)
  /-- The entry function is called at most once, and only after a start. -/
  entry_once : entryCalls (shown p es) ≤ 1
  entry_started : 0 < entryCalls (shown p es) → Started (shown p es)
  /-- The entry is never decided on while the thread is suspended or terminated. -/
  decision : ∀ a e b, es = a ++ e :: b → ((after p a).step e).2 = .decided true →
    (after p a).suspendCount = 0 ∧ (after p a).state ≠ .terminated
  /-- A thread that was neither started nor terminated can be started. -/
  startable : ¬Started (shown p es) → ¬TerminateCalled (shown p es) →
    ((after p es).step (.start true)).2 = .returned true
  /-- The counter counts. -/
  count_eq : (after p es).suspendCount + resumes (shown p es) =
    (Thread.create p).suspendCount + suspends (shown p es)

/-- The steps that keep the life cycle: before the start the counter neither
leaves nor reaches zero, it never wraps, and no suspension is pending at the
switch to `Running`. -/
def Meets (t : Thread) : ThreadEvent → Prop
  | .suspend => t.state = .terminated ∨
      (t.suspendCount + 1 < 2 ^ 32 ∧ ¬(t.state = .initialized ∧ t.suspendCount = 0))
  | .resume => ¬(t.state = .initialized ∧ t.suspendCount = 1)
  | .main _ => t.main = .deciding → t.state = .terminated ∨ t.suspendCount = 0
  | _ => True

/-! ### What every step keeps -/

/-- `Terminated` and the exit code then are kept by every step. -/
theorem Thread.step_terminated {t : Thread} (h : t.state = .terminated) (e : ThreadEvent) :
    (t.step e).1.state = .terminated ∧ (t.step e).1.exitCode = t.exitCode := by
  cases e with
  | start spawns => simp [Thread.step, Thread.start, h]
  | suspend => simp [Thread.step, Thread.suspend, h]
  | resume => simp [Thread.step, Thread.resume, h]
  | terminate exitCode => simp [Thread.step, Thread.terminate, h]
  | main result =>
    simp only [Thread.step, Thread.mainStep]
    split <;> simp [h]
    split_ifs <;> simp

/-- `Terminated` is final along every schedule. -/
theorem Thread.run_terminated {t : Thread} (h : t.state = .terminated) (es : List ThreadEvent) :
    (run Thread.step t es).state = .terminated ∧
      (run Thread.step t es).exitCode = t.exitCode := by
  induction es generalizing t with
  | nil => exact ⟨h, rfl⟩
  | cons e es ih =>
    obtain ⟨hstate, hcode⟩ := Thread.step_terminated h e
    obtain ⟨hrun, hrun'⟩ := ih hstate
    exact ⟨hrun, hrun'.trans hcode⟩

/-- `start` accepts exactly an `Initialized` thread. -/
theorem Thread.start_returned {t : Thread} :
    (t.step (.start true)).2 = .returned true ↔ t.state = .initialized := by
  simp only [Thread.step, Thread.start]
  split_ifs with h <;> simp_all

/-- The history of a thread agrees with its state. -/
structure Chronicle (p : ThreadParams) (h : List (ThreadEvent × ThreadReply))
    (t : Thread) : Prop where
  params : t.params = p
  count_eq : t.suspendCount + resumes h = (Thread.create p).suspendCount + suspends h
  count_lt : t.suspendCount < 2 ^ 32
  started_iff : Started h ↔ t.main ≠ .notSpawned
  initialized_iff : t.state = .initialized ↔ t.main = .notSpawned ∧ ¬TerminateCalled h
  fresh : t.state = .initialized → (0 < t.suspendCount ↔ p.createSuspended = true)
  suspended_iff : t.main ≠ .notSpawned → t.state ≠ .terminated →
    (t.state = .suspended ↔ 0 < t.suspendCount)
  entries : entryCalls h = 0 ∨ (entryCalls h = 1 ∧
    (t.main = .inEntry ∨ (∃ result, t.main = .rundown result) ∨ t.main = .finished))

theorem chronicle_create (p : ThreadParams) : Chronicle p [] (Thread.create p) where
  params := rfl
  count_eq := rfl
  count_lt := by
    unfold Thread.create
    dsimp only
    split_ifs <;> omega
  started_iff := by simp [Started, Thread.create]
  initialized_iff := by simp [TerminateCalled, Thread.create]
  fresh _ := by
    unfold Thread.create
    dsimp only
    split_ifs with h <;> simp [h]
  suspended_iff h := absurd rfl h
  entries := .inl rfl

section history

variable {h : List (ThreadEvent × ThreadReply)} {e : ThreadEvent} {r : ThreadReply}

theorem started_append : Started (h ++ [(e, r)]) ↔
    Started h ∨ (e = .start true ∧ r = .returned true) := by
  simp only [Started, List.mem_append, List.mem_singleton, Prod.mk.injEq]
  exact or_congr_right ⟨fun h => ⟨h.1.symm, h.2.symm⟩, fun h => ⟨h.1.symm, h.2.symm⟩⟩

theorem terminateCalled_append : TerminateCalled (h ++ [(e, r)]) ↔
    TerminateCalled h ∨ ∃ code, e = .terminate code ∧ r = .returned true := by
  simp only [TerminateCalled, List.mem_append, List.mem_singleton, Prod.mk.injEq, exists_or]
  refine or_congr_right (exists_congr fun c => ?_)
  exact ⟨fun h => ⟨h.1.symm, h.2.symm⟩, fun h => ⟨h.1.symm, h.2.symm⟩⟩

theorem suspends_append : suspends (h ++ [(e, r)]) =
    suspends h + if (e, r) = (.suspend, .returned true) then 1 else 0 := by
  simp [suspends, List.count_append, List.count_singleton]

theorem resumes_append : resumes (h ++ [(e, r)]) =
    resumes h + if (e, r) = (.resume, .returned true) then 1 else 0 := by
  simp [resumes, List.count_append, List.count_singleton]

theorem entryCalls_append : entryCalls (h ++ [(e, r)]) =
    entryCalls h + if r = .entryCalled then 1 else 0 := by
  simp [entryCalls, List.countP_append, List.countP_singleton]

end history

/-- A step that shows nothing new and changes at most where `thread_main`
stands. -/
theorem Chronicle.quiet {p : ThreadParams} {h : List (ThreadEvent × ThreadReply)} {t : Thread}
    (hc : Chronicle p h t) {e : ThreadEvent} {r : ThreadReply} {next : MainStep}
    (hr : r ≠ .returned true) (hr' : r ≠ .entryCalled)
    (hspawned : next = .notSpawned ↔ t.main = .notSpawned)
    (hentered : (t.main = .inEntry ∨ (∃ result, t.main = .rundown result) ∨
      t.main = .finished) → (next = .inEntry ∨ (∃ result, next = .rundown result) ∨
      next = .finished)) :
    Chronicle p (h ++ [(e, r)]) { t with main := next } where
  params := hc.params
  count_eq := by
    rw [suspends_append, resumes_append, if_neg (by simp [hr]), if_neg (by simp [hr])]
    exact hc.count_eq
  count_lt := hc.count_lt
  started_iff := by
    rw [started_append, hc.started_iff]
    simp [hr, hspawned]
  initialized_iff := by
    rw [terminateCalled_append]
    simp only [hr, and_false, exists_false, or_false, hspawned]
    exact hc.initialized_iff
  fresh := hc.fresh
  suspended_iff hne := hc.suspended_iff (hspawned.not.mp hne)
  entries := by
    rw [entryCalls_append, if_neg hr']
    rcases hc.entries with h₀ | ⟨h₁, hin⟩
    · exact .inl h₀
    · exact .inr ⟨h₁, hentered hin⟩

theorem Chronicle.start {p : ThreadParams} {h : List (ThreadEvent × ThreadReply)} {t : Thread}
    (hc : Chronicle p h t) (spawns : Bool) :
    Chronicle p (h ++ [(.start spawns, (t.start spawns).2)]) (t.start spawns).1 := by
  by_cases hi : t.state ≠ .initialized
  · rw [Thread.start, if_pos hi]
    exact hc.quiet (by simp) (by simp) Iff.rfl id
  rw [Thread.start, if_neg hi]
  cases spawns with
  | false => exact hc.quiet (by simp) (by simp) Iff.rfl id
  | true =>
    rw [if_pos rfl]
    have hinit : t.state = .initialized := by simpa using hi
    obtain ⟨hnot, hnoterm⟩ := hc.initialized_iff.mp hinit
    have hfresh := hc.fresh hinit
    exact
      { params := hc.params
        count_eq := by
          rw [suspends_append, resumes_append]
          simpa using hc.count_eq
        count_lt := hc.count_lt
        started_iff := by
          rw [started_append]
          simp
        initialized_iff := by
          dsimp only
          split_ifs <;> simp
        fresh := fun hcontra => by
          dsimp only at hcontra
          split_ifs at hcontra
        suspended_iff := fun _ _ => by
          dsimp only
          rw [hfresh, hc.params]
          split_ifs with hcs <;> simp [hcs]
        entries := by
          rw [entryCalls_append]
          rcases hc.entries with h₀ | ⟨-, hin⟩
          · exact .inl (by simpa using h₀)
          · rw [hnot] at hin
            simp at hin }

theorem Chronicle.suspend {p : ThreadParams} {h : List (ThreadEvent × ThreadReply)} {t : Thread}
    (hc : Chronicle p h t) (hm : Meets t .suspend) :
    Chronicle p (h ++ [(.suspend, t.suspend.2)]) t.suspend.1 := by
  by_cases ht : t.state = .terminated
  · rw [Thread.suspend, if_pos ht]
    exact hc.quiet (by simp) (by simp) Iff.rfl id
  · rw [Thread.suspend, if_neg ht]
    obtain ⟨hlt, hnot⟩ := hm.resolve_left ht
    have hmod : (t.suspendCount + 1) % 2 ^ 32 = t.suspendCount + 1 := Nat.mod_eq_of_lt hlt
    rw [hmod]
    exact
      { params := hc.params
        count_eq := by
          have := hc.count_eq
          rw [suspends_append, resumes_append]
          simp only [if_true, Prod.mk.injEq, reduceCtorEq, false_and, if_false]
          omega
        count_lt := hlt
        started_iff := by
          rw [started_append, hc.started_iff]
          simp
        initialized_iff := by
          rw [terminateCalled_append]
          simp only [reduceCtorEq, false_and, exists_false, or_false]
          rw [← hc.initialized_iff]
          split_ifs with hz
          · constructor
            · simp
            · exact fun hi => absurd ⟨hi, hz⟩ hnot
          · rfl
        fresh := fun hi => by
          dsimp only at hi
          split_ifs at hi with hz
          have := (hc.fresh hi).mp (by omega)
          simp [this]
        suspended_iff := fun hne _ => by
          dsimp only
          split_ifs with hz
          · simp
          · have := (hc.suspended_iff hne ht).mpr (by omega)
            simp [this]
        entries := by
          rw [entryCalls_append]
          simpa using hc.entries }

theorem Chronicle.resume {p : ThreadParams} {h : List (ThreadEvent × ThreadReply)} {t : Thread}
    (hc : Chronicle p h t) (hm : Meets t .resume) :
    Chronicle p (h ++ [(.resume, t.resume.2)]) t.resume.1 := by
  by_cases ht : t.state = .terminated
  · rw [Thread.resume, if_pos ht]
    exact hc.quiet (by simp) (by simp) Iff.rfl id
  by_cases hz : t.suspendCount = 0
  · rw [Thread.resume, if_neg ht, if_pos hz]
    exact hc.quiet (by simp) (by simp) Iff.rfl id
  · rw [Thread.resume, if_neg ht, if_neg hz]
    exact
      { params := hc.params
        count_eq := by
          have := hc.count_eq
          rw [suspends_append, resumes_append]
          simp only [if_true, Prod.mk.injEq, reduceCtorEq, false_and, if_false]
          omega
        count_lt := by
          have := hc.count_lt
          dsimp only
          omega
        started_iff := by
          rw [started_append, hc.started_iff]
          simp
        initialized_iff := by
          rw [terminateCalled_append]
          simp only [reduceCtorEq, false_and, exists_false, or_false]
          rw [← hc.initialized_iff]
          split_ifs with hone
          · constructor
            · simp
            · exact fun hi => absurd ⟨hi, hone⟩ hm
          · rfl
        fresh := fun hi => by
          dsimp only at hi ⊢
          split_ifs at hi with hone
          have := (hc.fresh hi).mp (by omega)
          simp [this]
          omega
        suspended_iff := fun hne _ => by
          dsimp only
          split_ifs with hone
          · simp [hone]
          · have := (hc.suspended_iff hne ht).mpr (by omega)
            simp [this]
            omega
        entries := by
          rw [entryCalls_append]
          simpa using hc.entries }

theorem Chronicle.terminate {p : ThreadParams} {h : List (ThreadEvent × ThreadReply)}
    {t : Thread} (hc : Chronicle p h t) (exitCode : BitVec 32) :
    Chronicle p (h ++ [(.terminate exitCode, (t.terminate exitCode).2)])
      (t.terminate exitCode).1 := by
  unfold Thread.terminate
  split_ifs with ht
  · exact hc.quiet (by simp) (by simp) Iff.rfl id
  · exact
      { params := hc.params
        count_eq := by
          rw [suspends_append, resumes_append]
          simpa using hc.count_eq
        count_lt := hc.count_lt
        started_iff := by
          rw [started_append, hc.started_iff]
          simp
        initialized_iff := by
          rw [terminateCalled_append]
          simp
        fresh := by simp
        suspended_iff := fun _ hne => absurd rfl hne
        entries := by
          rw [entryCalls_append]
          simpa using hc.entries }

/-- The two sections of `thread_main` that change the state word. -/
theorem Chronicle.switch {p : ThreadParams} {h : List (ThreadEvent × ThreadReply)} {t : Thread}
    (hc : Chronicle p h t) {e : ThreadEvent} {r : ThreadReply} {next : MainStep}
    {state : ThreadState} {exitCode : BitVec 32} (hr : r ≠ .returned true)
    (hr' : r ≠ .entryCalled) (hspawned : t.main ≠ .notSpawned) (hnext : next ≠ .notSpawned)
    (hstate : state = .terminated ∨ (state = .running ∧ t.suspendCount = 0))
    (hentered : (t.main = .inEntry ∨ (∃ result, t.main = .rundown result) ∨
      t.main = .finished) → next = .finished) :
    Chronicle p (h ++ [(e, r)]) { t with main := next, state, exitCode } where
  params := hc.params
  count_eq := by
    rw [suspends_append, resumes_append, if_neg (by simp [hr]), if_neg (by simp [hr])]
    exact hc.count_eq
  count_lt := hc.count_lt
  started_iff := by
    rw [started_append, hc.started_iff]
    simp [hr, hspawned, hnext]
  initialized_iff := by
    rcases hstate with rfl | ⟨rfl, -⟩ <;> simp [hnext]
  fresh hi := by rcases hstate with rfl | ⟨rfl, -⟩ <;> simp at hi
  suspended_iff _ hne := by
    rcases hstate with rfl | ⟨rfl, hzero⟩
    · exact absurd rfl hne
    · simp [hzero]
  entries := by
    rw [entryCalls_append, if_neg hr']
    rcases hc.entries with h₀ | ⟨h₁, hin⟩
    · exact .inl h₀
    · exact .inr ⟨h₁, .inr (.inr (hentered hin))⟩

theorem Chronicle.mainStep {p : ThreadParams} {h : List (ThreadEvent × ThreadReply)}
    {t : Thread} (hc : Chronicle p h t) (result : BitVec 32) (hm : Meets t (.main result)) :
    Chronicle p (h ++ [(.main result, (t.mainStep result).2)]) (t.mainStep result).1 := by
  unfold Thread.mainStep
  split
  · exact hc.quiet (by simp) (by simp) Iff.rfl id
  · next hmain =>
    refine hc.quiet (by simp) (by simp) ?_ ?_
    · split_ifs <;> simp [hmain]
    · simp [hmain]
  · next hmain =>
    split_ifs
    · exact hc.quiet (by simp) (by simp) (by simp [hmain]) (by simp [hmain])
    · exact hc.quiet (by simp) (by simp) Iff.rfl id
  · next hmain =>
    split_ifs with ht
    · have hzero := (hm hmain).resolve_left ht
      exact hc.switch (by simp) (by simp) (by simp [hmain]) (by simp) (.inr ⟨rfl, hzero⟩)
        (by simp [hmain])
    · exact hc.quiet (by simp) (by simp) (by simp [hmain]) (by simp [hmain])
  · next shouldRunEntry hmain =>
    split_ifs with hrun
    · -- The one call of `entry_`.
      exact
        { params := hc.params
          count_eq := by
            rw [suspends_append, resumes_append]
            simpa using hc.count_eq
          count_lt := hc.count_lt
          started_iff := by
            rw [started_append, hc.started_iff]
            simp [hmain]
          initialized_iff := by
            rw [terminateCalled_append]
            have := hc.initialized_iff
            simpa [hmain] using this
          fresh := hc.fresh
          suspended_iff := fun _ => hc.suspended_iff (by simp [hmain])
          entries := by
            rw [entryCalls_append]
            rcases hc.entries with h₀ | ⟨-, hin⟩
            · exact .inr ⟨by simp [h₀], .inl rfl⟩
            · rw [hmain] at hin
              simp at hin }
    · exact hc.quiet (by simp) (by simp) (by simp [hmain]) (by simp [hmain])
  · next hmain =>
    exact hc.quiet (by simp) (by simp) (by simp [hmain]) (by simp)
  · next result' hmain =>
    split_ifs with ht
    · exact hc.switch (by simp) (by simp) (by simp [hmain]) (by simp) (.inl rfl) (by simp)
    · exact hc.quiet (by simp) (by simp) (by simp [hmain]) (by simp)
  · exact hc.quiet (by simp) (by simp) Iff.rfl id

/-- **Every step that meets the condition keeps the history in agreement with
the state.** -/
theorem Chronicle.step {p : ThreadParams} {h : List (ThreadEvent × ThreadReply)} {t : Thread}
    (hc : Chronicle p h t) (e : ThreadEvent) (hm : Meets t e) :
    Chronicle p (h ++ [(e, (t.step e).2)]) (t.step e).1 := by
  cases e with
  | start spawns => exact hc.start spawns
  | suspend => exact hc.suspend hm
  | resume => exact hc.resume hm
  | terminate exitCode => exact hc.terminate exitCode
  | main result => exact hc.mainStep result hm

/-! ### Schedules -/

/-- The history of a schedule whose steps all meet the condition. -/
theorem chronicle_of_along {p : ThreadParams} {es : List ThreadEvent}
    (h : Along Thread.step Meets (Thread.create p) es) :
    Chronicle p (shown p es) (after p es) := by
  have := history_invariant (I := Chronicle p) (fun _ _ e hc hm => hc.step e hm) []
    (Thread.create p) es (chronicle_create p) h
  simpa [shown, after] using this

theorem after_append (p : ThreadParams) (a b : List ThreadEvent) :
    after p (a ++ b) = run Thread.step (after p a) b :=
  run_append _ a b

theorem shown_concat (p : ThreadParams) (a : List ThreadEvent) (e : ThreadEvent) :
    shown p (a ++ [e]) = shown p a ++ [(e, ((after p a).step e).2)] := by
  unfold shown after
  generalize Thread.create p = t
  induction a generalizing t with
  | nil => rfl
  | cons b a ih => simp [trace, run, ih]

/-- A decision to run the entry is the switch to `Running`. -/
theorem Thread.decided_true {t : Thread} {e : ThreadEvent}
    (h : (t.step e).2 = .decided true) :
    (∃ result, e = .main result) ∧ t.main = .deciding ∧ t.state ≠ .terminated := by
  cases e with
  | start spawns =>
    simp only [Thread.step, Thread.start] at h
    split_ifs at h
  | suspend =>
    simp only [Thread.step, Thread.suspend] at h
    split_ifs at h
  | resume =>
    simp only [Thread.step, Thread.resume] at h
    split_ifs at h
  | terminate exitCode =>
    simp only [Thread.step, Thread.terminate] at h
    split_ifs at h
  | main result =>
    simp only [Thread.step, Thread.mainStep] at h
    refine ⟨⟨result, rfl⟩, ?_⟩
    split at h
    case h_4 hmain =>
      split_ifs at h with ht
      · exact ⟨hmain, ht⟩
      · simp at h
    all_goals first | split_ifs at h | simp at h

/-- The life cycle holds at the end of a schedule whose steps all meet the
condition. -/
theorem lifeCycle_of_along {p : ThreadParams} {es : List ThreadEvent}
    (h : Along Thread.step Meets (Thread.create p) es) : LifeCycle p es := by
  have hc := chronicle_of_along h
  exact
    { final := fun a b hes ht => by
        rw [hes, after_append]
        exact Thread.run_terminated ht b
      suspended_iff := fun hs => hc.suspended_iff (hc.started_iff.mp hs)
      entry_once := by rcases hc.entries with h₀ | ⟨h₁, -⟩ <;> omega
      entry_started := fun hpos => by
        rcases hc.entries with h₀ | ⟨-, hin⟩
        · omega
        · rw [hc.started_iff]
          rcases hin with hin | ⟨_, hin⟩ | hin <;> simp [hin]
      decision := fun a e b hes hd => by
        obtain ⟨⟨result, rfl⟩, hmain, hstate⟩ := Thread.decided_true hd
        rw [hes] at h
        have hm : Meets (after p a) (.main result) := ((along_append _ _ _).mp h).2.1
        exact ⟨(hm hmain).resolve_left hstate, hstate⟩
      startable := fun hs ht => by
        have hnot : (after p es).main = .notSpawned := by
          by_contra hne
          exact hs (hc.started_iff.mpr hne)
        have hinit := hc.initialized_iff.mpr ⟨hnot, ht⟩
        exact Thread.start_returned.mpr hinit
      count_eq := hc.count_eq }

/-- A step from a consistent history that does not meet the condition breaks the
life cycle. -/
theorem meets_of_lifeCycle {p : ThreadParams} {a : List ThreadEvent} {e : ThreadEvent}
    (hc : Chronicle p (shown p a) (after p a)) (h : LifeCycle p (a ++ [e])) :
    Meets (after p a) e := by
  have hafter : after p (a ++ [e]) = ((after p a).step e).1 := after_append p a [e]
  -- Before the start a changed state word is one that `start` refuses.
  have hrefused : ∀ r, shown p (a ++ [e]) = shown p a ++ [(e, r)] →
      (after p a).state = .initialized → e ≠ .start true → (∀ code, e ≠ .terminate code) →
      ((after p a).step e).1.state = .initialized := by
    intro r hr hinit hs hte
    obtain ⟨hnot, hnoterm⟩ := hc.initialized_iff.mp hinit
    have hstart := h.startable
      (by rw [hr, started_append, hc.started_iff]; simp [hnot, hs])
      (by rw [hr, terminateCalled_append]; simp [hnoterm, hte])
    rw [hafter] at hstart
    exact Thread.start_returned.mp hstart
  have hshown := shown_concat p a e
  cases e with
  | start spawns => trivial
  | terminate exitCode => trivial
  | suspend =>
    by_cases ht : (after p a).state = .terminated
    · exact .inl ht
    refine .inr ⟨?_, fun ⟨hinit, hz⟩ => ?_⟩
    · have hcount := h.count_eq
      have hbefore := hc.count_eq
      have hlt := hc.count_lt
      rw [hafter, hshown, suspends_append, resumes_append] at hcount
      simp only [Thread.step, Thread.suspend, ht, if_false, if_true, Prod.mk.injEq,
        reduceCtorEq, false_and] at hcount
      by_contra hge
      have : (after p a).suspendCount + 1 = 2 ^ 32 := by omega
      rw [this, Nat.mod_self] at hcount
      omega
    · have := hrefused _ hshown hinit (by simp) (by simp)
      simp [Thread.step, Thread.suspend, hinit, hz] at this
  | resume =>
    rintro ⟨hinit, hone⟩
    have := hrefused _ hshown hinit (by simp) (by simp)
    simp [Thread.step, Thread.resume, hinit, hone] at this
  | main result =>
    intro hmain
    by_cases ht : (after p a).state = .terminated
    · exact .inl ht
    · refine .inr (h.decision a (.main result) [] rfl ?_).1
      simp [Thread.step, Thread.mainStep, hmain, ht]

/-- **The life cycle of a thread.**  For every thread, created suspended or not,
and every schedule, the life cycle is consistent at every moment of the schedule
exactly when every step of it meets the condition. -/
theorem lifeCycle_iff (p : ThreadParams) (es : List ThreadEvent) :
    (∀ pre, pre <+: es → LifeCycle p pre) ↔ Along Thread.step Meets (Thread.create p) es := by
  constructor
  · intro h
    induction es using List.reverseRecOn with
    | nil => trivial
    | append_singleton a e ih =>
      have ha := ih fun pre hpre => h pre (hpre.trans (List.prefix_append a [e]))
      have hm := meets_of_lifeCycle (chronicle_of_along ha) (h _ (List.prefix_refl _))
      exact (along_append _ _ _).mpr ⟨ha, hm, trivial⟩
  · rintro h pre ⟨rest, rfl⟩
    exact lifeCycle_of_along ((along_append _ _ _).mp h).1

/-- A suspension before the start, after which the thread cannot be started; and
one between the parking check and the switch to `Running`, after which the
thread runs with a suspension pending. -/
theorem suspension_breaks_lifeCycle :
    ¬LifeCycle ⟨false, true⟩ [.suspend] ∧
      ¬LifeCycle ⟨false, true⟩ [.start true, .main 0, .suspend, .main 0] := by
  constructor
  · intro h
    have hstart := h.startable (by decide) (by
      rintro ⟨code, hcode⟩
      simp [shown, trace] at hcode)
    exact absurd hstart (by decide)
  · intro h
    have hdecision := h.decision [.start true, .main 0, .suspend] (.main 0) [] rfl (by decide)
    exact absurd hdecision.1 (by decide)

end Kernel
end XenonRecomp
