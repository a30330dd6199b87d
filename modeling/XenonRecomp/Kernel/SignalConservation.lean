/-
# No signal is lost or duplicated

Over every run of the waits of `Waits`, of any number of threads and objects:
no registered wait stays ungranted while it could be satisfied, every wait
takes nothing or exactly what it is entitled to, which it does exactly when it
returns `success` or `abandoned`, and a signal passes over no older wait.

The invariant is one assertion for each thread (`Stands`): the thread is on
exactly the lists of its place, its block is that of its wait, and the wait is
granted or cannot be satisfied.  A wait that names a thread is left out of the
last part, because the termination of a thread is read and not signalled.
-/

import XenonRecomp.Kernel.Satisfaction
import XenonRecomp.Kernel.Waits
import XenonRecomp.Library.Interleaving

namespace XenonRecomp
namespace Kernel

open Library.Transition Library.Interleaving

variable {O T : Type}

/-! ### Places -/

namespace WaitStep

/-- The wait that the thread is registered for. -/
def registered : WaitStep O T → Option (WaitCall O T)
  | check c | terminating c _ | recheck c _ | takeAlert c _ | apcPending c _ | deadline c _
  | sleep c _ | unregister c _ => some c
  | _ => none

/-- Whether the thread is registered for a delay. -/
def delaying : WaitStep O T → Bool
  | delayAlert _ _ registered | delayApc _ _ registered => registered
  | delaySleep _ | delayWoken _ => true
  | _ => false

/-- The loop of a wait does not end with the outcome of a satisfied wait. -/
def plain : WaitStep O T → Bool
  | unregister _ (some .success) | unregister _ (some .abandoned) => false
  | _ => true

/-- The object that the next step of the thread signals. -/
def signalled : WaitStep O T → Action O T → Option O
  | idle, .operate op => some op.object
  | register c, _ => c.signal.map fun signal => signal.operation.object
  | _, _ => none

variable [DecidableEq O] [DecidableEq T]

/-- The lists that the thread is on. -/
def enrolled (place : WaitStep O T) (d : Dispatcher O T) (t : T) : List (Key O T) :=
  match place.registered with
  | some c => c.keys d t
  | none => if place.delaying then [.thread t] else []

end WaitStep

variable [DecidableEq O] [DecidableEq T]

/-! ### The properties -/

/-- No registered wait that names no thread is ungranted and satisfiable. -/
def NoneMissed (s : System O T) : Prop :=
  ∀ t c, (s.steps t).registered = some c → (∀ u, .thread u ∉ c.objects) →
    (s.dispatcher.blocks t).granted = none →
    s.dispatcher.trySatisfyWait c.objects c.waitAll c.waitingThreadId t = none

/-- What a call has taken when it returns: a wait that returns `success` or
`abandoned` has been satisfied once, with what it is entitled to, and every
other call not at all. -/
def Outcome (wait : Option (WaitCall O T)) (result : WaitResult) (taken : List (Take O T)) : Prop :=
  match wait with
  | none => taken = []
  | some c =>
      if result = .success ∨ result = .abandoned then
        ∃ k, taken = [k] ∧ Entitled c.objects c.waitAll c.waitingThreadId k
      else taken = []

/-- Follows the calls of thread `t` along a trace, with what the call it is in
has taken so far. -/
def ConservedFor (t : T) (taken : List (Take O T)) : List ((T × Action O T) × Report O T) → Prop
  | [] => True
  | (e, r) :: rest =>
      (taken ++ takesOf t r.takes).length ≤ 1 ∧
        if e.1 = t then
          match r.result with
          | some result =>
              Outcome r.wait result (taken ++ takesOf t r.takes) ∧ ConservedFor t [] rest
          | none => ConservedFor t (taken ++ takesOf t r.takes) rest
        else ConservedFor t (taken ++ takesOf t r.takes) rest

/-- A step that signals an object satisfies waits registered on it in the order
of their registration, and when it satisfies one, every older wait is granted
or cannot be satisfied; no other wait than the own is satisfied beside. -/
def OldestFirst (s : System O T) (e : T × Action O T) : Prop :=
  match (s.steps e.1).signalled e.2 with
  | none => ∀ k ∈ (s.step e).2.takes, k.waiter = e.1
  | some o =>
      (((s.step e).2.takes.filter fun k => k.waiter ≠ e.1).map Take.waiter).Sublist
          (s.dispatcher.lists (.object o)) ∧
        ∀ k ∈ (s.step e).2.takes, k.waiter ≠ e.1 → ∀ older younger,
          s.dispatcher.lists (.object o) = older ++ k.waiter :: younger →
          ∀ u ∈ older, k.found.Quiet u

/-! ### The invariant -/

/-- What holds of a thread at its place. -/
structure Stands (d : Dispatcher O T) (t : T) (place : WaitStep O T) : Prop where
  lists : ∀ key, t ∈ d.lists key ↔ key ∈ place.enrolled d t
  sameWait : ∀ c, place.registered = some c → c.block.SameWait (d.blocks t)
  accepted : ∀ c, place.registered = some c ∨ place = .register c → c.objects ≠ []
  granted : ∀ c, place = .unregister c none → (d.blocks t).granted ≠ none
  plain : place.plain = true
  quiet : ∀ c, place.registered = some c → (∀ u, .thread u ∉ c.objects) → d.Quiet t

theorem enrolled_congr {d d' : Dispatcher O T} {t : T} {place : WaitStep O T}
    (h : (d'.threads t).kernelThread = (d.threads t).kernelThread) :
    place.enrolled d' t = place.enrolled d t := by
  simp [WaitStep.enrolled, WaitCall.keys, h]

/-- What a registered wait names is what its thread is on the list of. -/
theorem Stands.mem_lists {d : Dispatcher O T} {t : T} {place : WaitStep O T} {c : WaitCall O T}
    (h : Stands d t place) (hc : place.registered = some c) {key : Key O T}
    (hkey : key ∈ (d.blocks t).objects) : t ∈ d.lists key := by
  rw [(h.sameWait c hc).1] at hkey
  refine (h.lists key).mpr ?_
  rw [WaitStep.enrolled, hc]
  exact List.mem_append_left _ (List.mem_dedup.mpr hkey)

/-- The block of a registered wait names objects. -/
theorem Stands.objects_ne_nil {d : Dispatcher O T} {t : T} {place : WaitStep O T}
    {c : WaitCall O T} (h : Stands d t place) (hc : place.registered = some c) :
    (d.blocks t).objects ≠ [] := by
  rw [(h.sameWait c hc).1]
  exact h.accepted c (.inl hc)

/-- A thread on the list of an object is registered for a wait. -/
theorem Stands.registered_of_mem {d : Dispatcher O T} {t : T} {place : WaitStep O T}
    (h : Stands d t place) {o : O} (ho : t ∈ d.lists (.object o)) :
    ∃ c, place.registered = some c := by
  have hmem := (h.lists (.object o)).mp ho
  rw [WaitStep.enrolled] at hmem
  cases hc : place.registered with
  | some c => exact ⟨c, rfl⟩
  | none =>
      rw [hc] at hmem
      split_ifs at hmem <;> simp at hmem

/-- The rule for everything that leaves the registration of a thread as it is. -/
theorem Stands.frame {d d' : Dispatcher O T} {t : T} {place : WaitStep O T}
    (h : Stands d t place)
    (hkernel : (d'.threads t).kernelThread = (d.threads t).kernelThread)
    (hlists : ∀ key, t ∈ d'.lists key ↔ t ∈ d.lists key)
    (hsame : (d.blocks t).SameWait (d'.blocks t))
    (hgranted : (d.blocks t).granted ≠ none → (d'.blocks t).granted ≠ none)
    (hquiet : (∃ c, place.registered = some c) → (∀ u, .thread u ∉ (d.blocks t).objects) →
      d.Quiet t → d'.Quiet t) : Stands d' t place where
  lists key := by rw [hlists, h.lists, enrolled_congr hkernel]
  sameWait c hc := by
    obtain ⟨hobjects, hall, hid⟩ := h.sameWait c hc
    exact ⟨hsame.1.trans hobjects, hsame.2.1.trans hall, hsame.2.2.trans hid⟩
  accepted := h.accepted
  granted c hc := hgranted (h.granted c hc)
  plain := h.plain
  quiet c hc hthread := by
    refine hquiet ⟨c, hc⟩ ?_ (h.quiet c hc hthread)
    rw [(h.sameWait c hc).1]
    exact hthread

/-- A thread that goes on to a place with the same registration. -/
theorem Stands.move {d : Dispatcher O T} {t : T} {place place' : WaitStep O T}
    (h : Stands d t place) (hregistered : place'.registered = place.registered)
    (hdelaying : place'.delaying = place.delaying) (hplain : place'.plain = true)
    (haccepted : ∀ c, place' = .register c → c.objects ≠ [])
    (hgranted : ∀ c, place' = .unregister c none → (d.blocks t).granted ≠ none) :
    Stands d t place' where
  lists key := by
    rw [h.lists, WaitStep.enrolled, WaitStep.enrolled, hregistered, hdelaying]
  sameWait c hc := h.sameWait c (hregistered ▸ hc)
  accepted c hc := hc.elim (fun hc => h.accepted c (.inl (hregistered ▸ hc))) (haccepted c)
  granted := hgranted
  plain := hplain
  quiet c hc := h.quiet c (hregistered ▸ hc)

/-! ### What the sections do to a thread that does not move -/

/-- A change of flags that leaves the `KernelThread` one. -/
theorem Stands.setThread {d : Dispatcher O T} {t u : T} {place : WaitStep O T} {f : ThreadFlags}
    (h : Stands d t place) (hf : f.kernelThread = (d.threads u).kernelThread) :
    Stands (d.setThread u f) t place := by
  refine h.frame ?_ (fun _ => .rfl) ⟨rfl, rfl, rfl⟩ id fun _ hthread hquiet hnone hsat => ?_
  · by_cases hu : t = u
    · subst hu
      simpa [Dispatcher.setThread] using hf
    · simp [Dispatcher.setThread, Function.update_of_ne hu]
  · refine hquiet hnone (hsat.mono fun key hkey hcan => ?_)
    cases key with
    | object o => exact hcan
    | thread v => exact absurd hkey (hthread v)

theorem Stands.notifyAlways {d : Dispatcher O T} {t u : T} {place : WaitStep O T}
    (h : Stands d t place) : Stands (d.notifyAlways u) t place := by
  have hblock : (d.blocks t).SameWait ((d.notifyAlways u).blocks t) ∧
      ((d.notifyAlways u).blocks t).granted = (d.blocks t).granted := by
    simp only [Dispatcher.notifyAlways]
    split_ifs <;> exact ⟨⟨rfl, rfl, rfl⟩, rfl⟩
  refine h.frame rfl (fun _ => .rfl) hblock.1 (fun hne => hblock.2 ▸ hne) ?_
  intro _ _ hquiet hnone hsat
  obtain ⟨hobjects, hall, hid⟩ := hblock.1
  rw [hobjects, hall, hid] at hsat
  refine hquiet (hblock.2 ▸ hnone) (hsat.mono fun key _ hcan => ?_)
  cases key <;> exact hcan

/-- A grant is never taken back. -/
theorem Accounts.granted_ne_none {b b' : MultiWaitBlock O T} {takes : List (Take O T)}
    (h : Accounts b b' takes) (hb : b.granted ≠ none) : b'.granted ≠ none := by
  rcases h with ⟨-, hsame⟩ | ⟨k, -, -, hsome, -⟩
  · exact hsame ▸ hb
  · exact hsome

theorem Stands.grants {d d' : Dispatcher O T} {takes : List (Take O T)} {t : T}
    {place : WaitStep O T} (h : Stands d t place) (hg : d.Grants d' takes) : Stands d' t place :=
  h.frame (by rw [hg.threads]) (fun _ => by rw [hg.lists]) (hg.sameWait t)
    (hg.accounts t).granted_ne_none fun _ _ => hg.quiet

theorem Stands.effect {d d' : Dispatcher O T} {o : O} {takes : List (Take O T)} {t : T}
    {place : WaitStep O T} (h : Stands d t place) (he : d.Effect o d' takes) :
    Stands d' t place := by
  have hserves := he.serves
  refine h.frame (by rw [hserves.threads]) (fun _ => by rw [hserves.lists]) (hserves.sameWait t)
    (hserves.accounts t).granted_ne_none ?_
  rintro ⟨c, hc⟩ _ hquiet
  exact he.quiet (fun hnil => absurd hnil (h.objects_ne_nil hc)) (h.mem_lists hc) hquiet

/-- Another thread registers. -/
theorem Stands.add {d : Dispatcher O T} {t u : T} {place : WaitStep O T} (h : Stands d t place)
    (hu : t ≠ u) (b : MultiWaitBlock O T) (keys : List (Key O T)) :
    Stands ((d.setBlock u b).addTo u keys) t place := by
  have hblock : ((d.setBlock u b).addTo u keys).blocks t = d.blocks t := by
    simp [Dispatcher.setBlock, Dispatcher.addTo, Function.update_of_ne hu]
  refine h.frame rfl (fun key => ?_) (by rw [hblock]; exact ⟨rfl, rfl, rfl⟩)
    (by rw [hblock]; exact id) fun _ _ hquiet => ?_
  · simp only [Dispatcher.setBlock, Dispatcher.addTo]
    split_ifs <;> simp [hu]
  · intro hnone hsat
    rw [hblock] at hnone hsat
    refine hquiet hnone (hsat.mono fun key _ hcan => ?_)
    cases key <;> exact hcan

/-- Another thread unregisters. -/
theorem Stands.remove {d : Dispatcher O T} {t u : T} {place : WaitStep O T}
    (h : Stands d t place) (hu : t ≠ u) (keys : List (Key O T)) :
    Stands (d.removeFrom u keys) t place := by
  refine h.frame rfl (fun key => ?_) ⟨rfl, rfl, rfl⟩ id fun _ _ hquiet hnone hsat => ?_
  · simp only [Dispatcher.removeFrom]
    split_ifs
    · exact List.mem_erase_of_ne hu
    · exact .rfl
  · refine hquiet hnone (hsat.mono fun key _ hcan => ?_)
    cases key <;> exact hcan

/-! ### What a step does -/

/-- What holds after a step of thread `t`. -/
structure Turned (d : Dispatcher O T) (t : T) (d' : Dispatcher O T) (place : WaitStep O T) :
    Prop where
  others : ∀ u p, u ≠ t → Stands d u p → Stands d' u p
  own : Stands d' t place
  nodup : ∀ key, (d'.lists key).Nodup

/-- A step that leaves every registration as it is. -/
theorem Turned.keep {d d' : Dispatcher O T} {t : T} {place place' : WaitStep O T}
    (hall : ∀ u p, Stands d u p → Stands d' u p) (hlists : d'.lists = d.lists)
    (hnodup : ∀ key, (d.lists key).Nodup) (hown : Stands d t place)
    (hregistered : place'.registered = place.registered)
    (hdelaying : place'.delaying = place.delaying) (hplain : place'.plain = true)
    (haccepted : ∀ c, place' = .register c → c.objects ≠ [])
    (hgranted : ∀ c, place' = .unregister c none → (d'.blocks t).granted ≠ none) :
    Turned d t d' place' where
  others u p _ := hall u p
  own := (hall t place hown).move hregistered hdelaying hplain haccepted hgranted
  nodup key := by rw [hlists]; exact hnodup key

/-- The registration of a thread that is on no list. -/
theorem Turned.register {d : Dispatcher O T} {t : T} {place place' : WaitStep O T}
    {b : MultiWaitBlock O T} {keys : List (Key O T)} (hnodup : ∀ key, (d.lists key).Nodup)
    (hown : Stands d t place) (hfree : place.enrolled d t = [])
    (hkeys : place'.enrolled ((d.setBlock t b).addTo t keys) t = keys)
    (hsame : ∀ c, place'.registered = some c → c.block = b) (hplain : place'.plain = true)
    (haccepted : ∀ c, place'.registered = some c ∨ place' = .register c → c.objects ≠ [])
    (hgranted : ∀ c, place' ≠ .unregister c none)
    (hquiet : ∀ c, place'.registered = some c → ¬ d.Satisfiable c.objects c.waitAll c.waitingThreadId) :
    Turned d t ((d.setBlock t b).addTo t keys) place' := by
  have hout : ∀ key, t ∉ d.lists key := fun key hmem => by
    have := (hown.lists key).mp hmem
    rw [hfree] at this
    simp at this
  have hblock : ((d.setBlock t b).addTo t keys).blocks t = b := by
    simp [Dispatcher.setBlock, Dispatcher.addTo]
  refine ⟨fun u p hu h => h.add hu b keys, ⟨fun key => ?_, fun c hc => ?_, haccepted,
    fun c hc => absurd hc (hgranted c), hplain, fun c hc _ _ hsat => ?_⟩, fun key => ?_⟩
  · rw [hkeys]
    simp only [Dispatcher.setBlock, Dispatcher.addTo]
    split_ifs with hkey
    · simp [hkey]
    · simp [hkey, hout key]
  · rw [hblock, hsame c hc]
    exact ⟨rfl, rfl, rfl⟩
  · rw [hblock, ← hsame c hc] at hsat
    refine hquiet c hc (hsat.mono fun key _ hcan => ?_)
    cases key <;> exact hcan
  · simp only [Dispatcher.setBlock, Dispatcher.addTo]
    split_ifs
    · exact List.Nodup.append (hnodup key) (List.nodup_singleton t) (by simpa using hout key)
    · exact hnodup key

/-- A thread that leaves the lists it is on. -/
theorem Turned.unregister {d : Dispatcher O T} {t : T} {place : WaitStep O T}
    {keys : List (Key O T)} (hnodup : ∀ key, (d.lists key).Nodup) (hown : Stands d t place)
    (hkeys : place.enrolled d t = keys) : Turned d t (d.removeFrom t keys) .idle := by
  refine ⟨fun u p hu h => h.remove hu keys, ⟨fun key => ?_, by simp [WaitStep.registered],
    by simp [WaitStep.registered], by simp, rfl, by simp [WaitStep.registered]⟩, fun key => ?_⟩
  · refine iff_of_false (fun hmem => ?_) List.not_mem_nil
    simp only [Dispatcher.removeFrom] at hmem
    split_ifs at hmem with hkey
    · exact (List.Nodup.mem_erase_iff (hnodup key)).mp hmem |>.1 rfl
    · exact hkey (hkeys ▸ (hown.lists key).mp hmem)
  · simp only [Dispatcher.removeFrom]
    split_ifs
    · exact (hnodup key).erase t
    · exact hnodup key

theorem Turned.trans {d d' d'' : Dispatcher O T} {t : T} {place place' : WaitStep O T}
    (h : Turned d t d' place) (h' : Turned d' t d'' place') : Turned d t d'' place' where
  others u p hu hs := h'.others u p hu (h.others u p hu hs)
  own := h'.own
  nodup := h'.nodup

/-- A thread that is on no list stays where the registration does not matter. -/
theorem Turned.idle {d d' : Dispatcher O T} {t : T} {place place' : WaitStep O T}
    (hall : ∀ u p, Stands d u p → Stands d' u p) (hlists : d'.lists = d.lists)
    (hnodup : ∀ key, (d.lists key).Nodup) (hown : Stands d t place)
    (hregistered : place.registered = none) (hdelaying : place.delaying = false)
    (hregistered' : place'.registered = none) (hdelaying' : place'.delaying = false)
    (hplain : place'.plain = true)
    (haccepted : ∀ c, place' = .register c → c.objects ≠ []) : Turned d t d' place' :=
  .keep hall hlists hnodup hown (hregistered'.trans hregistered.symm)
    (hdelaying'.trans hdelaying.symm) hplain haccepted fun c hc => by
      subst hc
      simp [WaitStep.registered] at hregistered'

/-- The first step of a call. -/
theorem turned_begin {d : Dispatcher O T} {t : T} (hnodup : ∀ key, (d.lists key).Nodup)
    (hown : Stands d t .idle) (action : Action O T) :
    Turned d t (d.begin t action).1 (d.begin t action).2.1 := by
  have hsame : ∀ place' : WaitStep O T, place'.registered = none → place'.delaying = false →
      place'.plain = true → (∀ c, place' = .register c → c.objects ≠ []) → Turned d t d place' :=
    fun place' => Turned.idle (fun _ _ => id) rfl hnodup hown rfl rfl
  have hflags : ∀ (u : T) (f : ThreadFlags) (place' : WaitStep O T),
      f.kernelThread = (d.threads u).kernelThread → place'.registered = none →
      place'.delaying = false → place'.plain = true → (∀ c, place' ≠ .register c) →
      Turned d t (d.setThread u f) place' := fun u f place' hf hr hd hp hc =>
    Turned.idle (fun _ _ h => h.setThread hf) rfl hnodup hown rfl rfl hr hd hp
      fun c h => absurd h (hc c)
  cases action with
  | wait c =>
      simp only [Dispatcher.begin]
      split_ifs with haccepted hterminating
      · exact hsame _ rfl rfl rfl (fun _ h => nomatch h)
      · exact hsame _ rfl rfl rfl (fun _ h => nomatch h)
      · refine hsame _ rfl rfl rfl fun c' hc' => ?_
        obtain rfl : c = c' := by injection hc'
        intro hnil
        simp [WaitCall.accepted, hnil] at haccepted
  | delay delay alertable =>
      simp only [Dispatcher.begin]
      split_ifs <;> exact hsame _ rfl rfl rfl (fun _ h => nomatch h)
  | operate op =>
      exact Turned.idle (fun _ _ h => h.effect (Dispatcher.effect_operate d t op))
        (Dispatcher.effect_operate d t op).serves.lists hnodup hown rfl rfl rfl rfl rfl (fun _ h => nomatch h)
  | alert target =>
      simp only [Dispatcher.begin, Dispatcher.flag]
      split_ifs
      · exact hflags _ _ _ rfl rfl rfl rfl (fun _ h => nomatch h)
      · exact hsame _ rfl rfl rfl (fun _ h => nomatch h)
  | queueUserApc target apc =>
      simp only [Dispatcher.begin, Dispatcher.flag]
      split_ifs
      · exact hflags _ _ _ rfl rfl rfl rfl (fun _ h => nomatch h)
      · exact hsame _ rfl rfl rfl (fun _ h => nomatch h)
  | terminate target =>
      simp only [Dispatcher.begin, Dispatcher.flag]
      split_ifs
      · exact hsame _ rfl rfl rfl (fun _ h => nomatch h)
      · exact hflags _ _ _ rfl rfl rfl rfl (fun _ h => nomatch h)
      · exact hsame _ rfl rfl rfl (fun _ h => nomatch h)
  | removeUserApc target guestApc => exact hflags _ _ _ rfl rfl rfl rfl (fun _ h => nomatch h)
  | takeUserApcs => exact hflags _ _ _ rfl rfl rfl rfl (fun _ h => nomatch h)
  | testAlert => exact hflags _ _ _ rfl rfl rfl rfl (fun _ h => nomatch h)
  | advance timedOut => exact hsame _ rfl rfl rfl (fun _ h => nomatch h)

theorem turned_checkAndRegister {d : Dispatcher O T} {t : T} {c : WaitCall O T}
    (hnodup : ∀ key, (d.lists key).Nodup) (hown : Stands d t (.register c)) :
    Turned d t (d.checkAndRegister t c).1 (d.checkAndRegister t c).2.1 := by
  unfold Dispatcher.checkAndRegister
  split
  · rename_i r hr
    have hg := (Dispatcher.consumes_trySatisfyWait hr).grants
    exact Turned.idle (fun _ _ h => h.grants hg) hg.lists hnodup hown rfl rfl rfl rfl rfl
      (fun _ h => nomatch h)
  · rename_i hr
    split_ifs
    · exact Turned.idle (fun _ _ h => h.setThread rfl) rfl hnodup hown rfl rfl rfl rfl rfl
        (fun _ h => nomatch h)
    · exact Turned.idle (fun _ _ h => h) rfl hnodup hown rfl rfl rfl rfl rfl (fun _ h => nomatch h)
    · exact Turned.idle (fun _ _ h => h) rfl hnodup hown rfl rfl rfl rfl rfl (fun _ h => nomatch h)
    · have hthis : ∀ c', (WaitStep.check c).registered = some c' → c' = c := fun c' h =>
        (Option.some.inj h).symm
      refine Turned.register hnodup hown rfl (enrolled_congr rfl) (fun c' h => by rw [hthis c' h]) rfl
        (fun c' h => ?_) (fun _ h => nomatch h) fun c' h => ?_
      · rw [hthis c' (h.resolve_right fun h => nomatch h)]
        exact hown.accepted c (.inr rfl)
      · rw [hthis c' h]
        exact (Dispatcher.trySatisfyWait_eq_none_iff d _ _ _ t).mp hr

theorem turned_registerSection {d : Dispatcher O T} {t : T} {c : WaitCall O T}
    (hnodup : ∀ key, (d.lists key).Nodup) (hown : Stands d t (.register c)) :
    Turned d t (d.registerSection t c).1 (d.registerSection t c).2.1 := by
  unfold Dispatcher.registerSection
  split
  · exact turned_checkAndRegister hnodup hown
  · rename_i signal _
    have heffect := Dispatcher.effect_operate d t signal.operation
    have hsignal : Turned d t (d.operate t signal.operation).1 (.register c) :=
      Turned.idle (fun _ _ h => h.effect heffect) heffect.serves.lists hnodup hown rfl rfl rfl rfl rfl
        fun c' h => hown.accepted c' (.inr h)
    dsimp only
    split_ifs
    · exact hsignal.trans (turned_checkAndRegister hsignal.nodup hsignal.own)
    · exact hsignal.trans (Turned.idle (fun _ _ h => h) rfl hsignal.nodup hsignal.own
        rfl rfl rfl rfl rfl (fun _ h => nomatch h))

theorem turned_recheckSection {d : Dispatcher O T} {t : T} {c : WaitCall O T} {observed : ℕ}
    (hnodup : ∀ key, (d.lists key).Nodup) (hown : Stands d t (.recheck c observed)) :
    Turned d t (d.recheckSection t c observed).1 (d.recheckSection t c observed).2.1 := by
  unfold Dispatcher.recheckSection
  split_ifs with hgranted
  · exact Turned.keep (fun _ _ h => h) rfl hnodup hown rfl rfl rfl (fun _ h => nomatch h)
      (fun _ h => nomatch h)
  · split
    · rename_i r hr
      obtain ⟨hobjects, hall, hid⟩ := hown.sameWait c rfl
      have hentitled := Dispatcher.entitled_of_trySatisfyWait hr
      have hg := Dispatcher.grants_grant r.index r.abandoned (by simpa using hgranted)
        (by rw [hobjects, hall, hid]; exact hentitled) (Dispatcher.consumes_trySatisfyWait hr)
      refine Turned.keep (fun _ _ h => h.grants hg) hg.lists hnodup hown rfl rfl rfl
        (fun _ h => nomatch h) fun _ _ => ?_
      simp [Dispatcher.grant, Dispatcher.setBlock]
    · exact Turned.keep (fun _ _ h => h) rfl hnodup hown rfl rfl rfl (fun _ h => nomatch h)
        (fun _ h => nomatch h)

/-- A step inside a call. -/
theorem turned_advance {d : Dispatcher O T} {t : T} {place : WaitStep O T} (timedOut : Bool)
    (hnodup : ∀ key, (d.lists key).Nodup) (hown : Stands d t place) :
    Turned d t (d.advance t timedOut place).1 (d.advance t timedOut place).2.1 := by
  -- A step that only goes on to a place with the same registration.
  have hsame : ∀ place' : WaitStep O T, place'.registered = place.registered →
      place'.delaying = place.delaying → place'.plain = true → (∀ c, place' ≠ .register c) →
      (∀ c, place' = .unregister c none → (d.blocks t).granted ≠ none) → Turned d t d place' :=
    fun place' hr hd hp hc hg =>
      Turned.keep (fun _ _ h => h) rfl hnodup hown hr hd hp (fun c h => absurd h (hc c)) hg
  have hleave : ∀ registered, place.enrolled d t = (if registered then [.thread t] else []) →
      place.registered = none → place.delaying = registered →
      ∀ result, Turned d t (d.endDelay t registered result).1
        (d.endDelay t registered result).2.1 := by
    intro registered hkeys hr hd result
    cases registered with
    | true => exact Turned.unregister hnodup hown hkeys
    | false => exact hsame .idle hr.symm hd.symm rfl (fun _ h => nomatch h) (fun _ h => nomatch h)
  cases place with
  | idle => exact hsame _ rfl rfl rfl (fun _ h => nomatch h) (fun _ h => nomatch h)
  | register c => exact turned_registerSection hnodup hown
  | check c =>
      simp only [Dispatcher.advance]
      split_ifs with hgranted
      · exact hsame _ rfl rfl rfl (fun _ h => nomatch h) fun _ _ =>
          Option.isSome_iff_ne_none.mp hgranted
      · exact hsame _ rfl rfl rfl (fun _ h => nomatch h) (fun _ h => nomatch h)
  | recheck c observed => exact turned_recheckSection hnodup hown
  | takeAlert c observed =>
      simp only [Dispatcher.advance]
      split_ifs
      · exact Turned.keep (fun _ _ h => h.setThread rfl) rfl hnodup hown rfl rfl rfl
          (fun _ h => nomatch h) (fun _ h => nomatch h)
      · exact hsame _ rfl rfl rfl (fun _ h => nomatch h) (fun _ h => nomatch h)
  | unregister c outcome =>
      have hturn := Turned.unregister hnodup hown rfl
      simp only [Dispatcher.advance, Dispatcher.unregisterSection]
      split <;> exact hturn
  | delayAlert delay alertable registered =>
      simp only [Dispatcher.advance]
      split_ifs
      · have hclear : Turned d t (d.clearAlert t) (.delayAlert delay alertable registered) :=
          Turned.keep (fun _ _ h => h.setThread rfl) rfl hnodup hown rfl rfl rfl
            (fun _ h => nomatch h) (fun _ h => nomatch h)
        refine hclear.trans ?_
        cases registered with
        | true => exact Turned.unregister hclear.nodup hclear.own rfl
        | false =>
            exact Turned.keep (fun _ _ h => h) rfl hclear.nodup hclear.own rfl rfl rfl
              (fun _ h => nomatch h) (fun _ h => nomatch h)
      · exact hsame _ rfl rfl rfl (fun _ h => nomatch h) (fun _ h => nomatch h)
  | delayApc delay alertable registered =>
      simp only [Dispatcher.advance]
      split_ifs with hapc hregistered hdelay
      · exact hleave registered rfl rfl rfl .userApc
      · exact hleave registered rfl rfl rfl .success
      · exact hleave registered rfl rfl rfl .success
      · refine Turned.register hnodup hown ?_ rfl (fun _ h => nomatch h) rfl ?_
          (fun _ h => nomatch h)           (fun _ h => nomatch h)
        · simp [WaitStep.enrolled, WaitStep.registered, WaitStep.delaying, hregistered]
        · simp [WaitStep.registered]
  | delayWoken alertable =>
      simp only [Dispatcher.advance]
      split_ifs
      · exact hleave true rfl rfl rfl .terminating
      · exact hsame _ rfl rfl rfl (fun _ h => nomatch h) (fun _ h => nomatch h)
  | notifying target =>
      exact Turned.keep (fun _ _ h => h.notifyAlways) rfl hnodup hown rfl rfl rfl
        (fun _ h => nomatch h) (fun _ h => nomatch h)
  | _ =>
      simp only [Dispatcher.advance]
      split_ifs <;> exact hsame _ rfl rfl rfl (fun _ h => nomatch h) (fun _ h => nomatch h)

/-- A step of a thread. -/
theorem turned_turn {d : Dispatcher O T} {t : T} {place : WaitStep O T} (action : Action O T)
    (hnodup : ∀ key, (d.lists key).Nodup) (hown : Stands d t place) :
    Turned d t (d.turn t action place).1 (d.turn t action place).2.1 := by
  cases place with
  | idle => exact turned_begin hnodup hown action
  | _ => exact turned_advance action.timedOut hnodup hown

/-- **The invariant of the waits.** -/
structure Registered (s : System O T) : Prop where
  nodup : ∀ key, (s.dispatcher.lists key).Nodup
  stands : ∀ t, Stands s.dispatcher t (s.steps t)

theorem registered_initial {s : System O T} (hs : s.Initial) : Registered s where
  nodup key := by simp [hs.2 key]
  stands t := by
    rw [hs.1 t]
    exact ⟨fun key => by simp [hs.2 key, WaitStep.enrolled, WaitStep.registered, WaitStep.delaying],
      (fun _ h => nomatch h), (fun _ h => by simp [WaitStep.registered] at h),
      (fun _ h => nomatch h), rfl, (fun _ h => nomatch h)⟩

theorem Registered.step {s : System O T} (h : Registered s) (e : T × Action O T) :
    Registered (s.step e).1 := by
  have hturn := turned_turn e.2 h.nodup (h.stands e.1)
  exact ⟨hturn.nodup, forall_update (Q := fun u p => Stands _ u p) hturn.own fun u hu =>
    hturn.others u _ hu (h.stands u)⟩

theorem Registered.run {s : System O T} (h : Registered s) (es : List (T × Action O T)) :
    Registered (run System.step s es) := by
  exact invariant_along (P := fun _ _ => True) (fun s e hs _ => hs.step e) s es h
    (along_of_forall (fun _ _ => trivial) s es)

/-- No registered wait is missed. -/
theorem Registered.noneMissed {s : System O T} (h : Registered s) : NoneMissed s := by
  intro t c hc hthread hnone
  obtain ⟨hobjects, hall, hid⟩ := (h.stands t).sameWait c hc
  have hquiet := (h.stands t).quiet c hc hthread hnone
  rw [hobjects, hall, hid] at hquiet
  exact (Dispatcher.trySatisfyWait_eq_none_iff _ _ _ _ t).mpr hquiet

/-! ### What the waits have taken -/

/-- What the call of a thread has taken so far: for a registered wait as its
block says, and otherwise nothing. -/
def Books (d : Dispatcher O T) (t : T) (place : WaitStep O T) (taken : List (Take O T)) : Prop :=
  match place.registered with
  | some c => Accounts c.block (d.blocks t) taken
  | none => taken = []

theorem Books.length_le_one {d : Dispatcher O T} {t : T} {place : WaitStep O T}
    {taken : List (Take O T)} (h : Books d t place taken) : taken.length ≤ 1 := by
  unfold Books at h
  split at h
  · rcases h with ⟨rfl, -⟩ | ⟨k, rfl, -, -, -⟩ <;> simp
  · simp [h]

theorem takesOf_own (t u : T) (hu : u ≠ t) (found left : Dispatcher O T) (taken : List (Key O T)) :
    takesOf u [⟨t, found, taken, left⟩] = [] := by
  simp [takesOf, Ne.symm hu]

theorem takesOf_eq_nil {t : T} {takes : List (Take O T)} {ts : List T}
    (hsub : (takes.map Take.waiter).Sublist ts) (ht : t ∉ ts) : takesOf t takes = [] := by
  refine List.filter_eq_nil_iff.mpr fun k hk => ?_
  have hmem : k.waiter ∈ ts := hsub.subset (List.mem_map_of_mem hk)
  simpa using fun h : k.waiter = t => ht (h ▸ hmem)

/-- A thread that is not registered for a wait takes nothing in an operation. -/
theorem Stands.takesOf_effect {d d' : Dispatcher O T} {o : O} {takes : List (Take O T)} {t : T}
    {place : WaitStep O T} (h : Stands d t place) (he : d.Effect o d' takes)
    (hfree : place.registered = none) : takesOf t takes = [] := by
  refine takesOf_eq_nil he.waiters fun hmem => ?_
  obtain ⟨c, hc⟩ := h.registered_of_mem hmem
  simp [hc] at hfree

/-- The books of a thread that does not move. -/
theorem Books.frame {d d' : Dispatcher O T} {t : T} {place : WaitStep O T}
    {taken takes : List (Take O T)} (hstands : Stands d t place) (h : Books d t place taken)
    (haccounts : Accounts (d.blocks t) (d'.blocks t) takes)
    (hfree : place.registered = none → takes = []) : Books d' t place (taken ++ takes) := by
  unfold Books at h ⊢
  split at h
  · rename_i c hc
    exact h.trans (hstands.sameWait c hc) haccounts
  · rename_i hc
    rw [h, hfree hc, List.append_nil]

/-- What a step of thread `t` does to the blocks of the others. -/
def Booked (d : Dispatcher O T) (t : T) (d' : Dispatcher O T) (takes : List (Take O T)) : Prop :=
  ∀ u place, u ≠ t → Stands d u place → Accounts (d.blocks u) (d'.blocks u) (takesOf u takes) ∧
    (place.registered = none → takesOf u takes = [])

theorem Booked.of_granted {d d' : Dispatcher O T} {t : T} {takes : List (Take O T)}
    (hgranted : ∀ u, u ≠ t → (d'.blocks u).granted = (d.blocks u).granted)
    (hown : ∀ u, u ≠ t → takesOf u takes = []) : Booked d t d' takes :=
  fun u _ hu _ => ⟨.inl ⟨hown u hu, hgranted u hu⟩, fun _ => hown u hu⟩

/-- A step that satisfies nothing and changes no block of another thread. -/
theorem Booked.of_blocks {d d' : Dispatcher O T} {t : T}
    (hblocks : ∀ u, u ≠ t → d'.blocks u = d.blocks u) : Booked d t d' [] :=
  .of_granted (fun u hu => by rw [hblocks u hu]) fun _ _ => rfl

theorem Booked.effect {d d' : Dispatcher O T} {o : O} {takes : List (Take O T)} (t : T)
    (he : d.Effect o d' takes) : Booked d t d' takes :=
  fun u _ _ hstands => ⟨he.serves.accounts u, fun hfree => hstands.takesOf_effect he hfree⟩

theorem Booked.trans {d d' d'' : Dispatcher O T} {t : T} {ks ks' : List (Take O T)}
    (h : Booked d t d' ks) (hsame : ∀ u, (d.blocks u).SameWait (d'.blocks u))
    (hstands : ∀ u p, u ≠ t → Stands d u p → Stands d' u p) (h' : Booked d' t d'' ks') :
    Booked d t d'' (ks ++ ks') := by
  intro u place hu hplace
  obtain ⟨hfirst, hfree⟩ := h u place hu hplace
  obtain ⟨hsecond, hfree'⟩ := h' u place hu (hstands u place hu hplace)
  rw [takesOf, List.filter_append]
  exact ⟨hfirst.trans (hsame u) hsecond, fun hp => by
    rw [← takesOf, ← takesOf, hfree hp, hfree' hp, List.append_nil]⟩

/-- What a step does to the books: those of the thread that moves go on, or are
closed with the result it returns. -/
structure Settles (d : Dispatcher O T) (t : T) (wait : Option (WaitCall O T))
    (taken : List (Take O T)) (r : Dispatcher O T × WaitStep O T × Report O T) : Prop where
  others : Booked d t r.1 r.2.2.takes
  goes_on : r.2.2.result = none → Books r.1 t r.2.1 (taken ++ takesOf t r.2.2.takes)
  closes : ∀ result, r.2.2.result = some result →
    Outcome wait result (taken ++ takesOf t r.2.2.takes) ∧ r.2.1.registered = none

/-- A step that satisfies nothing, of a thread that has taken nothing and is
registered for no wait afterwards. -/
theorem Settles.nothing {d d' : Dispatcher O T} {t : T} {wait : Option (WaitCall O T)}
    {place : WaitStep O T} {report : Report O T}
    (hblocks : ∀ u, u ≠ t → (d'.blocks u).granted = (d.blocks u).granted)
    (htakes : report.takes = []) (hfree : place.registered = none)
    (hresult : wait.isSome → report.result ≠ some .success ∧ report.result ≠ some .abandoned) :
    Settles d t wait [] (d', place, report) where
  others := by
    rw [htakes]
    exact .of_granted hblocks fun _ _ => rfl
  goes_on _ := by
    simp only [htakes, takesOf, List.filter_nil, List.append_nil, Books, hfree]
  closes result hr := by
    refine ⟨?_, hfree⟩
    simp only [htakes, takesOf, List.filter_nil, List.append_nil]
    cases wait with
    | none => rfl
    | some c =>
        obtain ⟨hsuccess, habandoned⟩ := hresult rfl
        simp only at hr
        have hne : ¬ (result = .success ∨ result = .abandoned) := by
          rintro (rfl | rfl)
          · exact hsuccess hr
          · exact habandoned hr
        simp only [Outcome, if_neg hne]

/-- A step of a registered wait that satisfies nothing and returns nothing. -/
theorem Settles.registered {d d' : Dispatcher O T} {t : T} {wait : Option (WaitCall O T)}
    {c : WaitCall O T} {place : WaitStep O T} {taken : List (Take O T)} {report : Report O T}
    (hblocks : d'.blocks = d.blocks) (h : Accounts c.block (d.blocks t) taken)
    (htakes : report.takes = []) (hresult : report.result = none)
    (hc : place.registered = some c) : Settles d t wait taken (d', place, report) where
  others := by
    rw [htakes]
    exact .of_blocks fun u _ => by rw [hblocks]
  goes_on _ := by
    simp only [htakes, takesOf, List.filter_nil, List.append_nil, Books, hc, hblocks]
    exact h
  closes result hr := by simp [hresult] at hr

theorem settles_begin {d : Dispatcher O T} {t : T} (hown : Stands d t .idle)
    (action : Action O T) :
    Settles d t (WaitStep.idle.wait action) [] (d.begin t action) := by
  cases action with
  | wait c =>
      simp only [Dispatcher.begin]
      split_ifs <;> exact .nothing (fun _ _ => rfl) rfl rfl fun _ => by simp
  | delay delay alertable =>
      simp only [Dispatcher.begin]
      split_ifs <;> exact .nothing (fun _ _ => rfl) rfl rfl fun h => by simp [WaitStep.wait] at h
  | operate op =>
      have heffect := Dispatcher.effect_operate d t op
      have hnone := hown.takesOf_effect heffect rfl
      exact ⟨.effect t heffect, fun _ => hnone, fun _ hr => nomatch hr⟩
  | alert target =>
      simp only [Dispatcher.begin, Dispatcher.flag]
      split_ifs <;> exact .nothing (fun _ _ => rfl) rfl rfl fun h => by simp [WaitStep.wait] at h
  | queueUserApc target apc =>
      simp only [Dispatcher.begin, Dispatcher.flag]
      split_ifs <;> exact .nothing (fun _ _ => rfl) rfl rfl fun h => by simp [WaitStep.wait] at h
  | terminate target =>
      simp only [Dispatcher.begin, Dispatcher.flag]
      split_ifs <;> exact .nothing (fun _ _ => rfl) rfl rfl fun h => by simp [WaitStep.wait] at h
  | _ => exact .nothing (fun _ _ => rfl) rfl rfl fun h => by simp [WaitStep.wait] at h

theorem succeeded_takes (c : WaitCall O T) (index : ℕ) (abandoned : Bool) :
    ∃ result, (c.succeeded index abandoned).result = some result ∧
      (result = .success ∨ result = .abandoned) := by
  cases abandoned
  · exact ⟨.success, rfl, .inl rfl⟩
  · exact ⟨.abandoned, rfl, .inr rfl⟩

theorem settles_checkAndRegister {d : Dispatcher O T} {t : T} {c : WaitCall O T} :
    Settles d t (some c) [] (d.checkAndRegister t c) := by
  unfold Dispatcher.checkAndRegister
  split
  · rename_i r hr
    have hconsumes := Dispatcher.consumes_trySatisfyWait hr
    obtain ⟨result, hresult, hsatisfied⟩ := succeeded_takes c r.index r.abandoned
    refine ⟨.of_granted (fun u _ => by rw [hconsumes.blocks]) fun u hu => takesOf_own t u hu _ _ _,
      fun h => ?_, fun result' h => ⟨?_, rfl⟩⟩
    · simp only [hresult] at h
      cases h
    · simp only [hresult, Option.some.injEq] at h
      subst h
      simp only [Outcome, if_pos hsatisfied]
      exact ⟨⟨t, d, r.taken, r.dispatcher⟩, by simp [takesOf],
        Dispatcher.entitled_of_trySatisfyWait hr⟩
  · split_ifs
    iterate 3
      · exact .nothing (fun _ _ => rfl) rfl rfl fun _ => by simp
    · refine ⟨.of_blocks fun u hu => ?_, fun _ => ?_, fun _ h => by cases h⟩
      · simp [Dispatcher.setBlock, Dispatcher.addTo, Function.update_of_ne hu]
      · exact .inl ⟨rfl, by simp [Dispatcher.setBlock, Dispatcher.addTo]⟩

theorem settles_registerSection {d : Dispatcher O T} {t : T} {c : WaitCall O T}
    (hown : Stands d t (.register c)) : Settles d t (some c) [] (d.registerSection t c) := by
  unfold Dispatcher.registerSection
  split
  · exact settles_checkAndRegister
  · rename_i signal _
    have heffect := Dispatcher.effect_operate d t signal.operation
    have hnone := hown.takesOf_effect heffect rfl
    have hbooked : Booked d t (d.operate t signal.operation).1
        (d.operate t signal.operation).2.2 := .effect t heffect
    dsimp only
    split_ifs
    · -- The signal satisfies other waits only; then the wait itself is checked.
      have hrest : Settles (d.operate t signal.operation).1 t (some c) []
          ((d.operate t signal.operation).1.checkAndRegister t c) := settles_checkAndRegister
      have hsplit : ∀ ks, takesOf t ((d.operate t signal.operation).2.2 ++ ks) = takesOf t ks := by
        intro ks
        rw [takesOf, List.filter_append, ← takesOf, ← takesOf, hnone, List.nil_append]
      refine ⟨hbooked.trans heffect.serves.sameWait (fun _ _ _ h => h.effect heffect) hrest.others,
        fun hr => ?_, fun result hr => ?_⟩
      · rw [hsplit]
        exact hrest.goes_on hr
      · rw [hsplit]
        exact hrest.closes result hr
    · refine ⟨hbooked, (fun hr => by cases hr), fun result hr => ⟨?_, rfl⟩⟩
      obtain rfl : WaitResult.failed = result := by injection hr
      rw [hnone]
      rfl

theorem settles_recheckSection {d : Dispatcher O T} {t : T} {c : WaitCall O T} {observed : ℕ}
    {taken : List (Take O T)} (hown : Stands d t (.recheck c observed))
    (hbooks : Accounts c.block (d.blocks t) taken) :
    Settles d t (some c) taken (d.recheckSection t c observed) := by
  unfold Dispatcher.recheckSection
  split_ifs with hgranted
  · exact .registered rfl hbooks rfl rfl rfl
  · split
    · rename_i r hr
      obtain ⟨hobjects, hall, hid⟩ := hown.sameWait c rfl
      have hentitled := Dispatcher.entitled_of_trySatisfyWait hr
      have hg := Dispatcher.grants_grant r.index r.abandoned (by simpa using hgranted)
        (by rw [hobjects, hall, hid]; exact hentitled) (Dispatcher.consumes_trySatisfyWait hr)
      refine ⟨.of_granted (fun u hu => ?_) fun u hu => takesOf_own t u hu _ _ _,
        fun _ => hbooks.trans (hown.sameWait c rfl) (hg.accounts t), fun _ h => nomatch h⟩
      rw [← (Dispatcher.consumes_trySatisfyWait hr).blocks]
      simp [Dispatcher.grant, Dispatcher.setBlock, Function.update_of_ne hu]
    · exact .registered rfl hbooks rfl rfl rfl

theorem settles_unregisterSection {d : Dispatcher O T} {t : T} {c : WaitCall O T}
    {outcome : Option WaitResult} {taken : List (Take O T)}
    (hown : Stands d t (.unregister c outcome))
    (hbooks : Accounts c.block (d.blocks t) taken) :
    Settles d t (some c) taken (d.unregisterSection t c outcome) := by
  have hothers : Booked d t (d.removeFrom t (c.keys d t)) [] := .of_blocks fun _ _ => rfl
  unfold Dispatcher.unregisterSection
  dsimp only
  split
  · rename_i index abandoned hgranted
    obtain ⟨result, hresult, hsatisfied⟩ := succeeded_takes c index abandoned
    have htakes : (c.succeeded index abandoned).takes = [] := rfl
    refine ⟨hothers, fun hr => ?_, fun result' hr => ⟨?_, rfl⟩⟩
    · simp only [hresult] at hr
      exact nomatch hr
    · simp only [hresult, Option.some.injEq] at hr
      subst hr
      simp only [htakes, takesOf, List.filter_nil, List.append_nil, Outcome, if_pos hsatisfied]
      rcases hbooks with ⟨-, hnone⟩ | ⟨k, htaken, -, -, hentitled⟩
      · simp [hnone, WaitCall.block] at hgranted
      · exact ⟨k, htaken, hentitled⟩
  · rename_i hgranted
    have htaken : taken = [] := by
      rcases hbooks with ⟨htaken, -⟩ | ⟨k, -, -, hsome, -⟩
      · exact htaken
      · exact absurd hgranted hsome
    subst htaken
    refine .nothing (fun _ _ => rfl) rfl rfl fun _ => ?_
    have hplain := hown.plain
    constructor
    · rintro ⟨⟩
      simp [WaitStep.plain] at hplain
    · rintro ⟨⟩
      simp [WaitStep.plain] at hplain

theorem settles_advance {d : Dispatcher O T} {t : T} {place : WaitStep O T} (timedOut : Bool)
    (action : Action O T) {taken : List (Take O T)} (hown : Stands d t place)
    (hplace : place ≠ .idle) (hbooks : Books d t place taken) :
    Settles d t (place.wait action) taken (d.advance t timedOut place) := by
  cases place with
  | idle => exact absurd rfl hplace
  | register c =>
      obtain rfl : taken = [] := hbooks
      exact settles_registerSection hown
  | check c =>
      simp only [Dispatcher.advance]
      split_ifs <;> exact .registered rfl hbooks rfl rfl rfl
  | terminating c observed =>
      simp only [Dispatcher.advance]
      split_ifs <;> exact .registered rfl hbooks rfl rfl rfl
  | recheck c observed => exact settles_recheckSection hown hbooks
  | takeAlert c observed =>
      simp only [Dispatcher.advance]
      split_ifs <;> exact .registered rfl hbooks rfl rfl rfl
  | apcPending c observed =>
      simp only [Dispatcher.advance]
      split_ifs <;> exact .registered rfl hbooks rfl rfl rfl
  | deadline c observed =>
      simp only [Dispatcher.advance]
      split_ifs <;> exact .registered rfl hbooks rfl rfl rfl
  | sleep c observed =>
      simp only [Dispatcher.advance]
      split_ifs <;> exact .registered rfl hbooks rfl rfl rfl
  | unregister c outcome => exact settles_unregisterSection hown hbooks
  | delayAlert delay alertable registered =>
      obtain rfl : taken = [] := hbooks
      simp only [Dispatcher.advance]
      split_ifs
      · exact .nothing (fun _ _ => by cases registered <;> rfl) rfl rfl
          fun h => by simp [WaitStep.wait] at h
      · exact .nothing (fun _ _ => rfl) rfl rfl fun h => by simp [WaitStep.wait] at h
  | delayApc delay alertable registered =>
      obtain rfl : taken = [] := hbooks
      simp only [Dispatcher.advance]
      split_ifs
      iterate 3
        · exact .nothing (fun _ _ => by cases registered <;> rfl) rfl rfl
            fun h => by simp [WaitStep.wait] at h
      · exact .nothing
          (fun u hu => by simp [Dispatcher.setBlock, Dispatcher.addTo, Function.update_of_ne hu])
          rfl rfl fun h => by simp [WaitStep.wait] at h
  | delaySleep alertable =>
      obtain rfl : taken = [] := hbooks
      simp only [Dispatcher.advance]
      split_ifs <;> exact .nothing (fun _ _ => rfl) rfl rfl fun h => by simp [WaitStep.wait] at h
  | delayWoken alertable =>
      obtain rfl : taken = [] := hbooks
      simp only [Dispatcher.advance]
      split_ifs <;> exact .nothing (fun _ _ => rfl) rfl rfl fun h => by simp [WaitStep.wait] at h
  | notifying target =>
      obtain rfl : taken = [] := hbooks
      refine .nothing (fun u _ => ?_) rfl rfl fun h => by simp [WaitStep.wait] at h
      simp only [Dispatcher.notifyAlways]
      split_ifs <;> rfl

theorem settles_turn {d : Dispatcher O T} {t : T} {place : WaitStep O T} (action : Action O T)
    {taken : List (Take O T)} (hown : Stands d t place) (hbooks : Books d t place taken) :
    Settles d t (place.wait action) taken (d.turn t action place) := by
  cases place with
  | idle =>
      obtain rfl : taken = [] := hbooks
      exact settles_begin hown action
  | _ => exact settles_advance action.timedOut action hown (by simp) hbooks

theorem Outcome.length_le_one {wait : Option (WaitCall O T)} {result : WaitResult}
    {taken : List (Take O T)} (h : Outcome wait result taken) : taken.length ≤ 1 := by
  unfold Outcome at h
  split at h
  · simp [h]
  · split_ifs at h
    · obtain ⟨k, rfl, -⟩ := h
      simp
    · simp [h]

/-- What every call has taken after a step. -/
def takenAfter (taken : T → List (Take O T)) (e : T × Action O T) (r : Report O T) (t : T) :
    List (Take O T) :=
  if e.1 = t ∧ r.result.isSome then [] else taken t ++ takesOf t r.takes

/-- A step keeps the books of every thread. -/
theorem books_step {s : System O T} (h : Registered s) {taken : T → List (Take O T)}
    (hbooks : ∀ t, Books s.dispatcher t (s.steps t) (taken t)) (e : T × Action O T) (t : T) :
    Books (s.step e).1.dispatcher t ((s.step e).1.steps t)
      (takenAfter taken e (s.step e).2 t) := by
  have hturn := settles_turn e.2 (h.stands e.1) (hbooks e.1)
  by_cases ht : e.1 = t
  · subst ht
    have hplace : (s.step e).1.steps e.1 = (s.dispatcher.turn e.1 e.2 (s.steps e.1)).2.1 := by
      simp [System.step]
    rw [hplace]
    cases hr : (s.step e).2.result with
    | none =>
        rw [takenAfter, if_neg (by simp [hr])]
        exact hturn.goes_on hr
    | some result =>
        rw [takenAfter, if_pos (by simp [hr]), Books, (hturn.closes result hr).2]
  · have hplace : (s.step e).1.steps t = s.steps t := by
      simp [System.step, Function.update_of_ne (Ne.symm ht)]
    obtain ⟨haccounts, hfree⟩ := hturn.others t _ (Ne.symm ht) (h.stands t)
    rw [hplace, takenAfter, if_neg fun hand => ht hand.1]
    exact (hbooks t).frame (h.stands t) haccounts hfree

/-- Along a run, the books of every thread included. -/
theorem conservedFor_trace {s : System O T} (h : Registered s) (taken : T → List (Take O T))
    (hbooks : ∀ t, Books s.dispatcher t (s.steps t) (taken t)) (es : List (T × Action O T))
    (t : T) : ConservedFor t (taken t) (trace System.step s es) := by
  induction es generalizing s taken with
  | nil => trivial
  | cons e es ih =>
      have hnext := ih (h.step e) (takenAfter taken e (s.step e).2) (books_step h hbooks e)
      have hstep := books_step h hbooks e t
      rw [trace, ConservedFor]
      by_cases ht : e.1 = t
      · subst ht
        rw [if_pos rfl]
        cases hr : (s.step e).2.result with
        | none =>
            have hgoes : takenAfter taken e (s.step e).2 e.1 =
                taken e.1 ++ takesOf e.1 (s.step e).2.takes := if_neg (by simp [hr])
            rw [hgoes] at hnext hstep
            exact ⟨hstep.length_le_one, hnext⟩
        | some result =>
            have hcloses : takenAfter taken e (s.step e).2 e.1 = [] := if_pos (by simp [hr])
            rw [hcloses] at hnext
            have houtcome :=
              ((settles_turn e.2 (h.stands e.1) (hbooks e.1)).closes result hr).1
            exact ⟨houtcome.length_le_one, houtcome, hnext⟩
      · have hgoes : takenAfter taken e (s.step e).2 t =
            taken t ++ takesOf t (s.step e).2.takes := if_neg fun hand => ht hand.1
        rw [hgoes] at hnext hstep
        rw [if_neg ht]
        exact ⟨hstep.length_le_one, hnext⟩

/-! ### The order of the waits -/

theorem waiter_checkAndRegister {d : Dispatcher O T} {t : T} {c : WaitCall O T} {k : Take O T}
    (hk : k ∈ (d.checkAndRegister t c).2.2.takes) : k.waiter = t := by
  unfold Dispatcher.checkAndRegister at hk
  split at hk
  · obtain rfl := List.mem_singleton.mp hk
    rfl
  · split_ifs at hk <;> simp at hk

theorem waiter_recheckSection {d : Dispatcher O T} {t : T} {c : WaitCall O T} {observed : ℕ}
    {k : Take O T} (hk : k ∈ (d.recheckSection t c observed).2.2.takes) : k.waiter = t := by
  unfold Dispatcher.recheckSection at hk
  split_ifs at hk
  · simp at hk
  · split at hk
    · obtain rfl := List.mem_singleton.mp hk
      rfl
    · simp at hk

/-- A step that signals nothing satisfies at most the wait of its thread. -/
theorem waiter_turn {d : Dispatcher O T} {t : T} {action : Action O T} {place : WaitStep O T}
    (hsignalled : place.signalled action = none) {k : Take O T}
    (hk : k ∈ (d.turn t action place).2.2.takes) : k.waiter = t := by
  cases place with
  | idle =>
      cases action with
      | operate op => simp [WaitStep.signalled] at hsignalled
      | _ =>
          simp only [Dispatcher.turn, Dispatcher.begin, Dispatcher.flag] at hk
          try split_ifs at hk
          all_goals simp at hk
  | register c =>
      simp only [WaitStep.signalled, Option.map_eq_none_iff] at hsignalled
      simp only [Dispatcher.turn, Dispatcher.advance, Dispatcher.registerSection, hsignalled] at hk
      exact waiter_checkAndRegister hk
  | recheck c observed => exact waiter_recheckSection hk
  | unregister c outcome =>
      simp only [Dispatcher.turn, Dispatcher.advance, Dispatcher.unregisterSection] at hk
      split at hk <;> simp [WaitCall.succeeded] at hk
  | _ =>
      simp only [Dispatcher.turn, Dispatcher.advance, Dispatcher.endDelay] at hk
      try split_ifs at hk
      all_goals simp at hk

/-- What a step that signals satisfies: what the operation satisfies, and then
at most its own wait. -/
theorem takes_turn {d : Dispatcher O T} {t : T} {action : Action O T} {place : WaitStep O T}
    {o : O} (hsignalled : place.signalled action = some o) :
    ∃ d' takes own, d.Effect o d' takes ∧ (d.turn t action place).2.2.takes = takes ++ own ∧
      ∀ k ∈ own, k.waiter = t := by
  cases place with
  | idle =>
      cases action with
      | operate op =>
          obtain rfl : op.object = o := by simpa [WaitStep.signalled] using hsignalled
          exact ⟨_, _, [], Dispatcher.effect_operate d t op, (List.append_nil _).symm, by simp⟩
      | _ => simp [WaitStep.signalled] at hsignalled
  | register c =>
      cases hsignal : c.signal with
      | none => simp [WaitStep.signalled, hsignal] at hsignalled
      | some signal =>
          obtain rfl : signal.operation.object = o := by
            simpa [WaitStep.signalled, hsignal] using hsignalled
          have heffect := Dispatcher.effect_operate d t signal.operation
          simp only [Dispatcher.turn, Dispatcher.advance, Dispatcher.registerSection, hsignal]
          split_ifs
          · exact ⟨_, _, _, heffect, rfl, fun k hk => waiter_checkAndRegister hk⟩
          · exact ⟨_, _, [], heffect, (List.append_nil _).symm, by simp⟩
  | _ => simp [WaitStep.signalled] at hsignalled

theorem Registered.oldestFirst {s : System O T} (h : Registered s) (e : T × Action O T) :
    OldestFirst s e := by
  unfold OldestFirst
  split
  · rename_i hsignalled
    exact fun k hk => waiter_turn hsignalled hk
  · rename_i o hsignalled
    obtain ⟨d', takes, own, heffect, htakes, hown⟩ :=
      takes_turn (d := s.dispatcher) (t := e.1) hsignalled
    have hreport : (s.step e).2.takes = takes ++ own := htakes
    rw [hreport]
    constructor
    · have hnil : (own.filter fun k => k.waiter ≠ e.1) = [] :=
        List.filter_eq_nil_iff.mpr fun k hk => by simp [hown k hk]
      rw [List.filter_append, hnil, List.append_nil]
      exact (List.filter_sublist.map Take.waiter).trans heffect.waiters
    · intro k hk hother older younger hlist u hu
      have hmem := (List.mem_append.mp hk).resolve_right fun hk => hother (hown k hk)
      obtain ⟨c, hc⟩ := (h.stands u).registered_of_mem (o := o) (by rw [hlist]; simp [hu])
      exact heffect.oldest hmem hlist (h.nodup _) hu fun hnil =>
        absurd hnil ((h.stands u).objects_ne_nil hc)

/-- **No signal is lost or duplicated.**  After every run from a state in which
nothing is registered: no registered, ungranted wait that names no thread is
satisfiable; every call of every thread has taken, when it returned, nothing or
exactly what it is entitled to, the latter exactly when it is a wait that
returned `success` or `abandoned`; and the next step, whatever it is, satisfies
the waits on the object it signals oldest first. -/
theorem signals_conserved {s : System O T} (hs : s.Initial) (es : List (T × Action O T)) :
    NoneMissed (run System.step s es) ∧
      (∀ t, ConservedFor t [] (trace System.step s es)) ∧
      ∀ e, OldestFirst (run System.step s es) e := by
  have hinit := registered_initial hs
  refine ⟨(hinit.run es).noneMissed, fun t => ?_, fun e => (hinit.run es).oldestFirst e⟩
  refine conservedFor_trace hinit (fun _ => []) (fun u => ?_) es t
  rw [hs.1 u]
  rfl

/-- One semaphore without units, and two threads outside any call. -/
def oneSemaphore : System Unit Bool where
  dispatcher :=
    { objects := fun _ => .semaphore 0 1 none
      threads := fun _ => ⟨true, false, false, []⟩
      lists := fun _ => []
      blocks := fun _ => delayBlock }
  steps := fun _ => .idle

/-- One thread waits for the semaphore and the other releases it: the unit goes
to the wait. -/
theorem signals_conserved_release :
    let es : List (Bool × Action Unit Bool) :=
      [(false, .wait ⟨none, [.object ()], false, -1, 1, false⟩), (false, .advance false),
        (true, .operate (.releaseSemaphore () 1)), (false, .advance false),
        (false, .advance false)]
    NoneMissed (run System.step oneSemaphore es) ∧
      (∀ t, ConservedFor t [] (trace System.step oneSemaphore es)) ∧
      ∀ e, OldestFirst (run System.step oneSemaphore es) e :=
  signals_conserved ⟨fun _ => rfl, fun _ => rfl⟩ _

end Kernel
end XenonRecomp
