/-
# Kicks and stops of an XMA context

The flags of `XmaDecoder::Runtime` (`src/audio/xma/xma_internal.hpp`) under
`enable_context`, `disable_context`, `clear_context` and `release_context`
(`src/audio/xma/decoder.cpp`) and the passes of `decode_one`
(`src/audio/xma/decode.cpp`), each critical section on the mutex of the context and
each access of a pass to guest memory one step.  What a pass decides (that it has
nothing to do, which error it meets, whether it goes on) is the scheduler's choice.

A pass takes `enabled` when it begins and assigns it when it ends.  A kick between
its last read of the context and its end is overwritten, unless the pass goes on;
and a kick inside of a stopping call is lost or undone with it.  In all other runs
no kick is lost and a stopped context stays stopped (`kicks_reach_a_pass`).

The last three fields of the state are kept for the statements and read by no step.
-/

import XenonRecomp.Library.Interleaving

namespace XenonRecomp
namespace Audio

open Library.Transition Library.Interleaving

/-- The flags of a context. -/
structure XmaRuntime where
  allocated : Bool
  enabled : Bool
  busy : Bool
  disableRequested : Bool
  completionNotified : Bool
  /-- There was a kick that was not revoked and that no pass has read the context after. -/
  unread : Bool
  /-- A stopping call returned, and no kick came since. -/
  stopped : Bool
  /-- A pass wrote the context or the output ring of a stopped context. -/
  wroteStopped : Bool
deriving DecidableEq, Repr

/-- A context that was just allocated. -/
def XmaRuntime.init : XmaRuntime :=
  ⟨true, false, false, false, false, false, false, false⟩

/-- `reset_stream`, as far as flags go. -/
def XmaRuntime.resetStream (s : XmaRuntime) : XmaRuntime :=
  { s with enabled := false, disableRequested := false, completionNotified := false }

/-- The request with which every stopping call begins. -/
def XmaRuntime.requestStop (s : XmaRuntime) : XmaRuntime :=
  { s with enabled := false, disableRequested := true, unread := false }

/-- A pass writes guest memory. -/
def XmaRuntime.passWrites (s : XmaRuntime) : XmaRuntime :=
  { s with wroteStopped := s.wroteStopped || s.stopped }

/-- Where a thread stands. -/
inductive XmaThread where
  | idle
  /-- `decode_one`: the claim, the reads and writes of the context, the output, the end. -/
  | claim
  | readContext
  | decode
  | writeOutput
  | readFresh
  | writeBack
  | finish (continueWork completed : Bool)
  | enable
  | disable (wait : Bool)
  | disableWait
  | clear
  | clearWait
  | clearContext
  | release
  | releaseWait
  | releaseZero
  | releaseReset
  | releaseFree
deriving DecidableEq, Repr

/-- What a pass decides. -/
inductive PassDecision where
  | idle
  | output
  | merge
  | done (continueWork completed : Bool)
deriving DecidableEq, Repr

/-- The calls of a thread, and its next step. -/
inductive XmaChoice where
  | decodeOne
  | enableContext
  | disableContext (wait : Bool)
  | clearContext
  | releaseContext
  | next (decision : PassDecision)
deriving DecidableEq, Repr

/-- A call begins with a look at `allocated_`. -/
def beginCall (s : XmaRuntime) (l l' : XmaThread) : Option (XmaRuntime × XmaThread) :=
  match l with
  | .idle => some (s, if s.allocated then l' else .idle)
  | _ => none

/-- The next step of a pass or a call. -/
def xmaStep (s : XmaRuntime) (decision : PassDecision) :
    XmaThread → Option (XmaRuntime × XmaThread)
  | .idle => none
  | .claim =>
      if s.enabled = false ∨ s.busy = true then some (s, .idle)
      else some ({ s with enabled := false, busy := true }, .readContext)
  | .readContext =>
      if s.allocated then some ({ s with unread := false }, .decode)
      else some (s, .finish false false)
  | .decode =>
      match decision with
      | .idle => some (s, .finish false false)
      | .output => some (s, .writeOutput)
      | .merge | .done _ _ => some (s, .readFresh)
  | .writeOutput =>
      match decision with
      | .output => some (s.passWrites, .writeOutput)
      | _ => some (s.passWrites, .readFresh)
  | .readFresh =>
      if s.allocated then some ({ s with unread := false }, .writeBack)
      else some (s, .finish false false)
  | .writeBack =>
      if s.allocated then
        match decision with
        | .done continueWork completed => some (s.passWrites, .finish continueWork completed)
        | _ => some (s.passWrites, .finish false false)
      else some (s, .finish false false)
  | .finish continueWork completed =>
      some ({ s with
        enabled := continueWork && !s.disableRequested
        busy := false
        completionNotified := s.completionNotified || completed }, .idle)
  | .enable =>
      some ({ s with
        disableRequested := false
        completionNotified := false
        enabled := true
        unread := s.allocated
        stopped := false }, .idle)
  | .disable wait =>
      if s.busy = false then some ({ s.requestStop with stopped := true }, .idle)
      else some (s.requestStop, if wait then .disableWait else .idle)
  | .disableWait => if s.busy then none else some ({ s with stopped := true }, .idle)
  | .clear =>
      if s.busy then some (s.requestStop, .clearWait)
      else some (s.requestStop.resetStream, .clearContext)
  | .clearWait =>
      if s.busy then none else some (s.resetStream, .clearContext)
  | .clearContext => some (if s.allocated then { s with stopped := true } else s, .idle)
  | .release => some (s.requestStop, if s.busy then .releaseWait else .releaseZero)
  | .releaseWait => if s.busy then none else some (s, .releaseZero)
  | .releaseZero => some (s, .releaseReset)
  | .releaseReset => some ({ s.resetStream with busy := false }, .releaseFree)
  | .releaseFree => some ({ s with allocated := false, stopped := true }, .idle)

/-- One step of a thread. -/
def xmaProgram (s : XmaRuntime) (l : XmaThread) : XmaChoice → Option (XmaRuntime × XmaThread)
  | .decodeOne => beginCall s l .claim
  | .enableContext => beginCall s l .enable
  | .disableContext wait => beginCall s l (.disable wait)
  | .clearContext => beginCall s l .clear
  | .releaseContext => beginCall s l .release
  | .next decision => xmaStep s decision l

/-- The context with all threads idle. -/
def launchXma (T : Type) : Config XmaRuntime XmaThread T :=
  ⟨.init, fun _ => .idle⟩

namespace XmaThread

/-- The thread is in a pass. -/
def passing : XmaThread → Bool
  | .readContext | .decode | .writeOutput | .readFresh | .writeBack | .finish _ _ => true
  | _ => false

/-- The thread is in a pass that is still to read the context. -/
def willRead : XmaThread → Bool
  | .readContext | .writeOutput | .readFresh => true
  | _ => false

/-- The thread is in a stopping call, between its request and its return. -/
def stopping : XmaThread → Bool
  | .disableWait | .clearWait | .clearContext | .releaseWait | .releaseZero | .releaseReset
  | .releaseFree => true
  | _ => false

/-- The thread is in a stopping call that has waited for the pass. -/
def waited : XmaThread → Bool
  | .clearContext | .releaseZero | .releaseReset | .releaseFree => true
  | _ => false

theorem not_willRead {l : XmaThread} (h : l.stopping = true) : ¬l.willRead = true := by
  cases l <;> simp [stopping, willRead] at h ⊢

theorem stopping_of_waited {l : XmaThread} (h : l.waited = true) : l.stopping = true := by
  cases l <;> first | rfl | cases h

end XmaThread

section Threads

variable {T : Type} [DecidableEq T]

/-- The condition on a step: a pass ends without going on only if it or another pass has read
the context since the last kick, and no kick comes inside of a stopping call. -/
def Timely (c : Config XmaRuntime XmaThread T) (e : T × XmaChoice) : Prop :=
  match c.threads e.1, e.2 with
  | .finish false _, .next _ => c.shared.unread = false
  | .enable, .next _ => ∀ u, (c.threads u).stopping = false
  | _, _ => True

instance decidableTimely [Fintype T] (c : Config XmaRuntime XmaThread T) (e : T × XmaChoice) :
    Decidable (Timely c e) := by
  unfold Timely
  split <;> infer_instance

/-- What the flags say of one thread. -/
structure Accounts (s : XmaRuntime) (l : XmaThread) : Prop where
  busy : l.passing = true → s.busy = true
  halted : l.stopping = true →
    s.enabled = false ∧ s.unread = false ∧ (s.disableRequested = true ∨ s.busy = false)
  waited : l.waited = true → s.busy = false

/-- What every run keeps. -/
structure XmaKept (c : Config XmaRuntime XmaThread T) : Prop where
  accounts : ∀ u, Accounts c.shared (c.threads u)
  apart : ∀ u v, (c.threads u).passing = true → (c.threads v).passing = true → u = v
  kick : c.shared.unread = true → c.shared.allocated = true ∧ c.shared.disableRequested = false ∧
    (c.shared.enabled = true ∨ ∃ u, (c.threads u).willRead = true)
  stopped : c.shared.stopped = true → c.shared.enabled = false ∧ c.shared.busy = false
  silent : c.shared.wroteStopped = false

omit [DecidableEq T] in
theorem xmaKept_launch : XmaKept (launchXma T) where
  accounts := fun _ => ⟨nofun, nofun, nofun⟩
  apart := nofun
  kick := nofun
  stopped := nofun
  silent := rfl

section Steps

variable {c : Config XmaRuntime XmaThread T} {t : T} {s' : XmaRuntime} {l' : XmaThread}

/-- What is to show of a step of one thread. -/
theorem kept_update (hI : XmaKept c) (hown : Accounts s' l')
    (hothers : ∀ u, u ≠ t → Accounts s' (c.threads u))
    (hpass : l'.passing = true → ∀ u, u ≠ t → (c.threads u).passing = false)
    (hkick : s'.unread = true → s'.allocated = true ∧ s'.disableRequested = false ∧
      (s'.enabled = true ∨ l'.willRead = true ∨ ∃ u, u ≠ t ∧ (c.threads u).willRead = true))
    (hstopped : s'.stopped = true → s'.enabled = false ∧ s'.busy = false)
    (hsilent : s'.wroteStopped = false) : XmaKept ⟨s', Function.update c.threads t l'⟩ where
  accounts := forall_update (Q := fun _ l => Accounts s' l) hown hothers
  apart := by
    intro u v hu hv
    rcases of_update (Q := fun (l : XmaThread) => l.passing = true) hu with ⟨hut, hl⟩ | ⟨hut, hu⟩
    · rcases of_update (Q := fun (l : XmaThread) => l.passing = true) hv with ⟨hvt, -⟩ | ⟨hvt, hv⟩
      · exact hut.trans hvt.symm
      · rw [hpass hl v hvt] at hv
        cases hv
    · rcases of_update (Q := fun (l : XmaThread) => l.passing = true) hv with ⟨hvt, hl⟩ | ⟨-, hv⟩
      · rw [hpass hl u hut] at hu
        cases hu
      · exact hI.apart u v hu hv
  kick := by
    intro hunread
    obtain ⟨hallocated, hrequested, henabled | hread | ⟨u, hut, hread⟩⟩ := hkick hunread
    · exact ⟨hallocated, hrequested, .inl henabled⟩
    · refine ⟨hallocated, hrequested, .inr ⟨t, ?_⟩⟩
      dsimp only
      rw [Function.update_self]
      exact hread
    · refine ⟨hallocated, hrequested, .inr ⟨u, ?_⟩⟩
      dsimp only
      rw [Function.update_of_ne hut]
      exact hread
  stopped := hstopped
  silent := hsilent

omit [DecidableEq T] in
/-- While a thread is in a pass, no other thread is. -/
theorem passing_alone (hI : XmaKept c) (h : (c.threads t).passing = true) (u : T) (hut : u ≠ t) :
    (c.threads u).passing = false := by
  cases hu : (c.threads u).passing with
  | false => rfl
  | true => exact absurd (hI.apart u t hu h) hut

/-- A step that leaves the flags alone. -/
theorem kept_move (hI : XmaKept c) (hpassing : l'.passing = true → (c.threads t).passing = true)
    (hread : (c.threads t).willRead = true → l'.willRead = true ∨ c.shared.allocated = false)
    (hstopping : l'.stopping = true → (c.threads t).stopping = true)
    (hwaited : l'.waited = true → c.shared.busy = false) :
    XmaKept ⟨c.shared, Function.update c.threads t l'⟩ := by
  have hown := hI.accounts t
  refine kept_update hI ⟨fun h => hown.busy (hpassing h), fun h => hown.halted (hstopping h), hwaited⟩
    (fun u _ => hI.accounts u) (fun h => passing_alone hI (hpassing h)) ?_ hI.stopped hI.silent
  intro hunread
  obtain ⟨hallocated, hrequested, hkick⟩ := hI.kick hunread
  refine ⟨hallocated, hrequested, ?_⟩
  rcases hkick with henabled | ⟨u, hu⟩
  · exact .inl henabled
  · by_cases hut : u = t
    · subst hut
      rcases hread hu with hread | hfreed
      · exact .inr (.inl hread)
      · rw [hallocated] at hfreed
        cases hfreed
    · exact .inr (.inr ⟨u, hut, hu⟩)

/-- A step of a pass that reads the context. -/
theorem kept_read (hI : XmaKept c) (hpassing : (c.threads t).passing = true)
    (hstopping : l'.stopping = false) (hwaited : l'.waited = false) :
    XmaKept ⟨{ c.shared with unread := false }, Function.update c.threads t l'⟩ := by
  have hbusy := (hI.accounts t).busy hpassing
  refine kept_update hI ⟨fun _ => hbusy, ?_, ?_⟩ (fun u _ => ?_)
    (fun _ => passing_alone hI hpassing) nofun hI.stopped hI.silent
  · rw [hstopping]
    nofun
  · rw [hwaited]
    nofun
  · have hu := hI.accounts u
    exact ⟨hu.busy, fun h => ⟨(hu.halted h).1, rfl, (hu.halted h).2.2⟩, hu.waited⟩

omit [DecidableEq T] in
/-- While a pass is active, no context is stopped. -/
theorem not_stopped (hI : XmaKept c) (hpassing : (c.threads t).passing = true) :
    c.shared.stopped = false := by
  have hbusy := (hI.accounts t).busy hpassing
  cases hstopped : c.shared.stopped with
  | false => rfl
  | true => exact absurd hbusy (by simp [(hI.stopped hstopped).2])

omit [DecidableEq T] in
/-- A step of a pass that writes: the context is not stopped. -/
theorem passWrites_eq (hI : XmaKept c) (hpassing : (c.threads t).passing = true) :
    c.shared.passWrites = c.shared := by
  have hgoing := not_stopped hI hpassing
  have hwrote : (c.shared.wroteStopped || c.shared.stopped) = c.shared.wroteStopped := by
    rw [hgoing, Bool.or_false]
  unfold XmaRuntime.passWrites
  rw [hwrote]

/-- The request of a stopping call; where no pass is active it may reset the stream and
return at once. -/
theorem kept_request (hI : XmaKept c) (hpassing : l'.passing = false)
    (hwaited : l'.waited = true → c.shared.busy = false) (hs' : s' = c.shared.requestStop ∨
      c.shared.busy = false ∧ (s' = { c.shared.requestStop with stopped := true } ∨
        s' = c.shared.requestStop.resetStream)) :
    XmaKept ⟨s', Function.update c.threads t l'⟩ := by
  have hflags : s'.enabled = false ∧ s'.unread = false ∧ s'.busy = c.shared.busy ∧
      s'.wroteStopped = c.shared.wroteStopped ∧
      (s'.disableRequested = true ∨ s'.busy = false) ∧
      (s'.stopped = true → c.shared.stopped = true ∨ c.shared.busy = false) := by
    rcases hs' with rfl | ⟨hbusy, rfl | rfl⟩
    · exact ⟨rfl, rfl, rfl, rfl, .inl rfl, .inl⟩
    · exact ⟨rfl, rfl, rfl, rfl, .inl rfl, fun _ => .inr hbusy⟩
    · exact ⟨rfl, rfl, rfl, rfl, .inr hbusy, .inl⟩
  obtain ⟨henabled, hunread, hbusy, hwrote, hhalted, hstopped⟩ := hflags
  refine kept_update hI ⟨?_, fun _ => ⟨henabled, hunread, hhalted⟩, fun h => ?_⟩ (fun u _ => ?_) ?_ ?_
    (fun h => ⟨henabled, ?_⟩) (hwrote.trans hI.silent)
  · rw [hpassing]
    nofun
  · rw [hbusy, hwaited h]
  · have hu := hI.accounts u
    exact ⟨fun h => hbusy.trans (hu.busy h), fun _ => ⟨henabled, hunread, hhalted⟩,
      fun h => hbusy.trans (hu.waited h)⟩
  · rw [hpassing]
    nofun
  · rw [hunread]
    nofun
  · rw [hbusy]
    rcases hstopped h with h | h
    · exact (hI.stopped h).2
    · exact h

/-- A pass begins. -/
theorem kept_claim (hI : XmaKept c) (henabled : c.shared.enabled = true)
    (hbusy : c.shared.busy = false) :
    XmaKept ⟨{ c.shared with enabled := false, busy := true },
      Function.update c.threads t .readContext⟩ := by
  have hgoing : ∀ u, (c.threads u).stopping = false := by
    intro u
    cases hu : (c.threads u).stopping with
    | false => rfl
    | true => exact absurd henabled (by simp [((hI.accounts u).halted hu).1])
  refine kept_update hI ⟨fun _ => rfl, nofun, nofun⟩ (fun u _ => ⟨fun _ => rfl, fun h => ?_, fun h => ?_⟩)
    (fun _ u _ => ?_) (fun h => ?_) (fun h => ?_) hI.silent
  · rw [hgoing u] at h
    cases h
  · have := XmaThread.stopping_of_waited h
    rw [hgoing u] at this
    cases this
  · cases hu : (c.threads u).passing with
    | false => rfl
    | true => exact absurd ((hI.accounts u).busy hu) (by simp [hbusy])
  · obtain ⟨hallocated, hrequested, -⟩ := hI.kick h
    exact ⟨hallocated, hrequested, .inr (.inl rfl)⟩
  · have := (hI.stopped h).1
    rw [henabled] at this
    cases this

/-- A pass ends, in time. -/
theorem kept_finish (hI : XmaKept c) {continueWork completed : Bool}
    (hl : (c.threads t).passing = true) (hread : continueWork = false → c.shared.unread = false) :
    XmaKept ⟨{ c.shared with
      enabled := continueWork && !c.shared.disableRequested
      busy := false
      completionNotified := c.shared.completionNotified || completed },
      Function.update c.threads t .idle⟩ := by
  have hbusy := (hI.accounts t).busy hl
  have hgoing := not_stopped hI hl
  refine kept_update hI ⟨nofun, nofun, nofun⟩ (fun u hut => ⟨fun h => ?_, fun h => ?_, fun _ => rfl⟩)
    nofun (fun h => ?_) (fun h => ?_) hI.silent
  · rw [passing_alone hI hl u hut] at h
    cases h
  · obtain ⟨-, hunread, hrequested | hfree⟩ := (hI.accounts u).halted h
    · exact ⟨by simp [hrequested], hunread, .inl hrequested⟩
    · rw [hbusy] at hfree
      cases hfree
  · obtain ⟨hallocated, hrequested, -⟩ := hI.kick h
    cases continueWork with
    | false => exact absurd (h : c.shared.unread = true) (by simp [hread rfl])
    | true => exact ⟨hallocated, hrequested, .inl (by simp [hrequested])⟩
  · exact absurd (h : c.shared.stopped = true) (by simp [hgoing])

/-- A kick outside of the stopping calls. -/
theorem kept_enable (hI : XmaKept c) (hgoing : ∀ u, (c.threads u).stopping = false) :
    XmaKept ⟨{ c.shared with
      disableRequested := false
      completionNotified := false
      enabled := true
      unread := c.shared.allocated
      stopped := false }, Function.update c.threads t .idle⟩ := by
  refine kept_update hI ⟨nofun, nofun, nofun⟩
    (fun u _ => ⟨(hI.accounts u).busy, fun h => ?_, (hI.accounts u).waited⟩)
    nofun (fun h => ⟨h, rfl, .inl rfl⟩) nofun hI.silent
  rw [hgoing u] at h
  cases h

/-- A stopping call that has waited resets the stream. -/
theorem kept_reset (hI : XmaKept c) (hl : (c.threads t).stopping = true)
    (hbusy : c.shared.busy = false) (hpassing : l'.passing = false) :
    XmaKept ⟨{ c.shared.resetStream with busy := false }, Function.update c.threads t l'⟩ := by
  have hunread := ((hI.accounts t).halted hl).2.1
  refine kept_update hI ⟨?_, fun _ => ⟨rfl, hunread, .inr rfl⟩, fun _ => rfl⟩
    (fun u _ => ⟨fun h => ?_, fun _ => ⟨rfl, hunread, .inr rfl⟩, fun _ => rfl⟩) ?_ (fun h => ?_)
    (fun _ => ⟨rfl, rfl⟩) hI.silent
  · rw [hpassing]
    nofun
  · exact absurd ((hI.accounts u).busy h) (by simp [hbusy])
  · rw [hpassing]
    nofun
  · have hset : c.shared.unread = true := h
    rw [hunread] at hset
    cases hset

/-- A stopping call returns, and may free the context. -/
theorem kept_return (hI : XmaKept c) (hl : (c.threads t).stopping = true)
    (hbusy : c.shared.busy = false) (allocated : Bool) :
    XmaKept ⟨{ c.shared with allocated := allocated, stopped := true },
      Function.update c.threads t .idle⟩ := by
  obtain ⟨henabled, hunread, -⟩ := (hI.accounts t).halted hl
  refine kept_update hI ⟨nofun, nofun, nofun⟩
    (fun u _ => ⟨(hI.accounts u).busy, (hI.accounts u).halted, (hI.accounts u).waited⟩) nofun
    (fun h => ?_) (fun _ => ⟨henabled, hbusy⟩) hI.silent
  exact absurd (h : c.shared.unread = true) (by simp [hunread])

/-- The begin of a call. -/
theorem kept_beginCall (hI : XmaKept c) {l : XmaThread} (hpassing : l.passing = false)
    (hstopping : l.stopping = false) (hstep : beginCall c.shared (c.threads t) l = some (s', l')) :
    XmaKept ⟨s', Function.update c.threads t l'⟩ := by
  have hl : c.threads t = .idle := by
    cases hl : c.threads t <;> rw [hl] at hstep <;> first | rfl | cases hstep
  rw [hl] at hstep
  cases hstep
  have hquiet : (if c.shared.allocated then l else XmaThread.idle).passing = false ∧
      (if c.shared.allocated then l else XmaThread.idle).stopping = false := by
    split
    · exact ⟨hpassing, hstopping⟩
    · exact ⟨rfl, rfl⟩
  refine kept_move hI ?_ ?_ ?_ ?_
  · rw [hquiet.1]
    nofun
  · rw [hl]
    nofun
  · rw [hquiet.2]
    nofun
  · intro h
    have := XmaThread.stopping_of_waited h
    rw [hquiet.2] at this
    cases this

/-- Every step of a pass. -/
theorem kept_passStep (hI : XmaKept c) (decision : PassDecision)
    (htimely : Timely c (t, .next decision)) (hpassing : (c.threads t).passing = true)
    (hstep : xmaStep c.shared decision (c.threads t) = some (s', l')) :
    XmaKept ⟨s', Function.update c.threads t l'⟩ := by
  have hfreed : c.shared.allocated = false → ∀ {l : XmaThread}, l.stopping = false →
      l.waited = false → XmaKept ⟨c.shared, Function.update c.threads t l⟩ :=
    fun hfreed l hstopping hwaited => kept_move hI (fun _ => hpassing) (fun _ => .inr hfreed)
      (by rw [hstopping]; nofun) (by rw [hwaited]; nofun)
  cases hl : c.threads t <;> rw [hl] at hstep <;>
    try exact absurd hpassing (by rw [hl]; exact Bool.false_ne_true)
  case readContext =>
    simp only [xmaStep] at hstep
    split at hstep <;> cases hstep
    · exact kept_read hI hpassing rfl rfl
    · exact hfreed (by simpa using ‹¬c.shared.allocated = true›) rfl rfl
  case decode =>
    have hread : (c.threads t).willRead = true → l'.willRead = true ∨ c.shared.allocated = false := by
      rw [hl]
      nofun
    cases decision <;> cases hstep <;> exact kept_move hI (fun _ => hpassing) hread nofun nofun
  case writeOutput =>
    simp only [xmaStep, passWrites_eq hI hpassing] at hstep
    cases decision <;> cases hstep <;>
      exact kept_move hI (fun _ => hpassing) (fun _ => .inl rfl) nofun nofun
  case readFresh =>
    simp only [xmaStep] at hstep
    split at hstep <;> cases hstep
    · exact kept_read hI hpassing rfl rfl
    · exact hfreed (by simpa using ‹¬c.shared.allocated = true›) rfl rfl
  case writeBack =>
    have hread : (c.threads t).willRead = true → l'.willRead = true ∨ c.shared.allocated = false := by
      rw [hl]
      nofun
    simp only [xmaStep, passWrites_eq hI hpassing] at hstep
    split at hstep
    · cases decision <;> cases hstep <;> exact kept_move hI (fun _ => hpassing) hread nofun nofun
    · cases hstep
      exact kept_move hI (fun _ => hpassing) hread nofun nofun
  case finish continueWork completed =>
    cases hstep
    refine kept_finish hI hpassing ?_
    rintro rfl
    simpa [Timely, hl] using htimely

/-- Every step of a stopping call after its request. -/
theorem kept_stopStep (hI : XmaKept c) (decision : PassDecision)
    (hstopping : (c.threads t).stopping = true)
    (hstep : xmaStep c.shared decision (c.threads t) = some (s', l')) :
    XmaKept ⟨s', Function.update c.threads t l'⟩ := by
  have hown := hI.accounts t
  have hmove : ∀ {l : XmaThread}, l.passing = false → c.shared.busy = false →
      XmaKept ⟨c.shared, Function.update c.threads t l⟩ :=
    fun hpassing hbusy => kept_move hI (by rw [hpassing]; nofun)
      (fun h => absurd h (XmaThread.not_willRead hstopping)) (fun _ => hstopping) (fun _ => hbusy)
  cases hl : c.threads t <;> rw [hl] at hstep <;>
    try exact absurd hstopping (by rw [hl]; exact Bool.false_ne_true)
  case disableWait =>
    simp only [xmaStep] at hstep
    split at hstep <;> cases hstep
    exact kept_return hI hstopping (by simpa using ‹¬c.shared.busy = true›) _
  case clearWait =>
    simp only [xmaStep] at hstep
    split at hstep <;> cases hstep
    have hbusy : c.shared.busy = false := by simpa using ‹¬c.shared.busy = true›
    have hfree : ({ c.shared.resetStream with busy := false } : XmaRuntime) =
        c.shared.resetStream := by
      simp only [XmaRuntime.resetStream, hbusy]
    rw [← hfree]
    exact kept_reset hI hstopping hbusy rfl
  case clearContext =>
    have hbusy : c.shared.busy = false := hown.waited (by rw [hl]; rfl)
    simp only [xmaStep] at hstep
    split at hstep <;> cases hstep
    · exact kept_return hI hstopping hbusy _
    · exact hmove rfl hbusy
  case releaseWait =>
    simp only [xmaStep] at hstep
    split at hstep <;> cases hstep
    exact hmove rfl (by simpa using ‹¬c.shared.busy = true›)
  case releaseZero =>
    cases hstep
    exact hmove rfl (hown.waited (by rw [hl]; rfl))
  case releaseReset =>
    cases hstep
    exact kept_reset hI hstopping (hown.waited (by rw [hl]; rfl)) rfl
  case releaseFree =>
    cases hstep
    exact kept_return hI hstopping (hown.waited (by rw [hl]; rfl)) false

/-- Every step within a pass or a call. -/
theorem kept_xmaStep (hI : XmaKept c) (decision : PassDecision)
    (htimely : Timely c (t, .next decision))
    (hstep : xmaStep c.shared decision (c.threads t) = some (s', l')) :
    XmaKept ⟨s', Function.update c.threads t l'⟩ := by
  cases hl : c.threads t
  case idle =>
    rw [hl] at hstep
    cases hstep
  case claim =>
    rw [hl] at hstep
    simp only [xmaStep] at hstep
    split at hstep <;> cases hstep
    · exact kept_move hI nofun (by rw [hl]; nofun) nofun nofun
    · rename_i hfree
      rw [not_or] at hfree
      exact kept_claim hI (by simpa using hfree.1) (by simpa using hfree.2)
  case enable =>
    rw [hl] at hstep
    cases hstep
    exact kept_enable hI (by simpa [Timely, hl] using htimely)
  case disable wait =>
    rw [hl] at hstep
    simp only [xmaStep] at hstep
    split at hstep <;> cases hstep
    · exact kept_request hI rfl nofun (.inr ⟨‹_›, .inl rfl⟩)
    · exact kept_request hI (by cases wait <;> rfl) (by cases wait <;> nofun) (.inl rfl)
  case clear =>
    rw [hl] at hstep
    simp only [xmaStep] at hstep
    split at hstep <;> cases hstep
    · exact kept_request hI rfl nofun (.inl rfl)
    · have hbusy : c.shared.busy = false := by simpa using ‹¬c.shared.busy = true›
      exact kept_request hI rfl (fun _ => hbusy) (.inr ⟨hbusy, .inr rfl⟩)
  case release =>
    rw [hl] at hstep
    cases hstep
    refine kept_request hI ?_ ?_ (.inl rfl)
    · split <;> rfl
    · split
      · nofun
      · exact fun _ => by simpa using ‹¬c.shared.busy = true›
  all_goals first
    | exact kept_passStep hI decision htimely (by rw [hl]; rfl) hstep
    | exact kept_stopStep hI decision (by rw [hl]; rfl) hstep

/-- Every step in time keeps the invariant. -/
theorem kept_xmaProgram (hI : XmaKept c) {a : XmaChoice} (htimely : Timely c (t, a))
    (hstep : xmaProgram c.shared (c.threads t) a = some (s', l')) :
    XmaKept ⟨s', Function.update c.threads t l'⟩ := by
  cases a with
  | decodeOne => exact kept_beginCall hI rfl rfl hstep
  | enableContext => exact kept_beginCall hI rfl rfl hstep
  | disableContext wait => exact kept_beginCall hI rfl rfl hstep
  | clearContext => exact kept_beginCall hI rfl rfl hstep
  | releaseContext => exact kept_beginCall hI rfl rfl hstep
  | next decision => exact kept_xmaStep hI decision htimely hstep

end Steps

/-- **No kick is lost and a stopped context stays stopped.**  In every run with any number of
threads, all of whose steps are in time: a kick that was not revoked and that no pass has read
the context after finds the context enabled or a pass that is still to read it; at most one pass
is active; and no pass wrote the context or the output ring of a stopped context. -/
theorem kicks_reach_a_pass (es : List (T × XmaChoice))
    (h : Along (step xmaProgram) Timely (launchXma T) es) :
    ((run (step xmaProgram) (launchXma T) es).shared.unread = true →
      (run (step xmaProgram) (launchXma T) es).shared.enabled = true ∨
        ∃ u, ((run (step xmaProgram) (launchXma T) es).threads u).willRead = true) ∧
    (∀ u v, ((run (step xmaProgram) (launchXma T) es).threads u).passing = true →
      ((run (step xmaProgram) (launchXma T) es).threads v).passing = true → u = v) ∧
    (run (step xmaProgram) (launchXma T) es).shared.wroteStopped = false := by
  have hkept := run_invariant (I := XmaKept) (P := Timely)
    (fun c t a s l hI htimely hstep => kept_xmaProgram hI htimely hstep) _ es xmaKept_launch h
  exact ⟨fun hunread => (hkept.kick hunread).2.2, hkept.apart, hkept.silent⟩

end Threads

/-- A kick, a pass that writes the context back and goes on, and a stop during the pass. -/
def disabledRun : List (Fin 2 × XmaChoice) :=
  [(0, .enableContext), (0, .next .idle), (1, .decodeOne), (1, .next .idle), (1, .next .idle),
    (0, .disableContext true), (0, .next .idle), (1, .next .merge), (1, .next .idle),
    (1, .next (.done true false)), (1, .next .idle), (0, .next .idle)]

/-- The run is in time, and its last step is the return of the stopping call. -/
theorem kicks_reach_a_pass_disable :
    (run (step xmaProgram) (launchXma (Fin 2)) disabledRun).shared.stopped = true ∧
      (run (step xmaProgram) (launchXma (Fin 2)) disabledRun).shared.wroteStopped = false :=
  ⟨by decide, (kicks_reach_a_pass disabledRun (by decide)).2.2⟩

/-- A pass claims the context, reads it and finds it has nothing to do; the guest kicks; the pass
ends and takes the kick with it. -/
theorem late_kick_lost :
    let c := run (step xmaProgram) (launchXma (Fin 2)) [(0, .enableContext), (0, .next .idle),
      (1, .decodeOne), (1, .next .idle), (1, .next .idle), (1, .next .idle),
      (0, .enableContext), (0, .next .idle), (1, .next .idle)]
    c.shared.unread = true ∧ c.shared.enabled = false ∧ ∀ u, (c.threads u).willRead = false := by
  decide

end Audio
end XenonRecomp
