/-
# Armed timers are not forgotten

In every run of the timer manager, whenever its mutex is free every armed timer
is pending (`remembers_run`): the loop takes a timer off the list only after it
saw it inactive, and a timer that is set again meanwhile is scheduled only when
the loop lets go of the mutex.

Two things go wrong in the loop.  It runs callbacks under the mutex, so a
callback that schedules or unschedules a timer locks it twice; and a one-shot
timer whose `set` fired at once stays active, so the loop fires it again if it
is pending.  Runs without these two, and only they, lock and fire as they
should (`timers_never_forgotten`).
-/

import XenonRecomp.Kernel.TimerManager

namespace XenonRecomp
namespace Kernel

open Library.Transition

variable {K : Type} [DecidableEq K]

/-! ### Armed timers -/

/-- The user of a timer waits for it. -/
def TimerState.Armed (timer : TimerState) : Prop :=
  timer.active = true ∧ timer.scheduled = true

namespace TimerManager

/-- What the place of the dispatch thread knows of the timers: a timer it is about to
drop is not armed. -/
def Drops (s : TimerManager K) : DispatchPlace K → Prop
  | .scan rest none => ∀ timer ∈ s.pending, timer ∈ rest ∨ ¬(s.timers timer).Armed
  | .callback _ position rearmed | .fired _ position rearmed =>
      rearmed = false → ∀ timer, s.pending[position]? = some timer → ¬(s.timers timer).Armed
  | _ => True

/-- Every armed timer is pending, and the loop drops none. -/
structure Tracks (s : TimerManager K) : Prop where
  pending : ∀ timer, (s.timers timer).Armed → timer ∈ s.pending
  drops : s.Drops s.place

omit [DecidableEq K] in
theorem Tracks.remembers {s : TimerManager K} (h : s.Tracks) : s.Remembers :=
  fun _ timer hactive hscheduled => h.pending timer ⟨hactive, hscheduled⟩

omit [DecidableEq K] in
theorem Tracks.init : (TimerManager.init : TimerManager K).Tracks :=
  ⟨fun timer h => absurd h.1 (by simp [TimerManager.init, TimerState.initial]), trivial⟩

/-- A timer that no longer is armed changes nothing. -/
theorem Tracks.update {s : TimerManager K} (h : s.Tracks) (timer : K) {state : TimerState}
    (hstate : state.Armed → (s.timers timer).Armed) : (s.update timer state).Tracks := by
  have harmed : ∀ t, ((s.update timer state).timers t).Armed → (s.timers t).Armed := by
    intro t ht
    by_cases heq : t = timer
    · subst heq
      rw [update_timers_self] at ht
      exact hstate ht
    · rw [update_timers_of_ne s heq] at ht
      exact ht
  refine ⟨fun t ht => h.pending t (harmed t ht), ?_⟩
  have hdrops := h.drops
  change (s.update timer state).Drops s.place
  unfold Drops at hdrops ⊢
  split at hdrops
  · exact fun t ht => (hdrops t ht).imp_right fun hn ha => hn (harmed t ha)
  iterate 2
    · exact fun hrearmed t ht ha => hdrops hrearmed t ht (harmed t ha)
  · trivial

theorem Tracks.set {s : TimerManager K} (h : s.Tracks) (timer : K) (dueTime : ℤ)
    (period : Option ℤ) (callback : Bool) (now : ℤ) :
    (s.set timer dueTime period callback now).1.Tracks :=
  h.update timer fun ha => absurd ha.2 Bool.false_ne_true

theorem Tracks.cancel {s : TimerManager K} (h : s.Tracks) (timer : K) : (s.cancel timer).Tracks := by
  rw [TimerManager.cancel]
  split_ifs
  · exact h.update timer fun ha => absurd ha.1 Bool.false_ne_true
  · exact h

omit [DecidableEq K] in
/-- The places in which the mutex is free say nothing. -/
theorem drops_of_unlocked {s s' : TimerManager K} (hplace : s'.place = s.place)
    (hfree : s.place.locked = false) : s'.Drops s'.place := by
  rw [hplace]
  cases hp : s.place with
  | idle => trivial
  | waiting => trivial
  | ended => trivial
  | _ => simp [hp, DispatchPlace.locked] at hfree

theorem Tracks.schedule {s : TimerManager K} (h : s.Tracks) (hfree : s.place.locked = false)
    (timer : K) : (s.schedule timer).Tracks := by
  refine ⟨fun t ht => ?_, drops_of_unlocked rfl hfree⟩
  change t ∈ if timer ∈ s.pending then s.pending else s.pending ++ [timer]
  have hmem : t = timer ∨ t ∈ s.pending := by
    by_cases hne : t = timer
    · exact .inl hne
    · refine .inr (h.pending t ?_)
      change (Function.update s.timers timer _ t).Armed at ht
      rwa [Function.update_of_ne hne] at ht
  split_ifs with htimer
  · rcases hmem with rfl | hmem
    · exact htimer
    · exact hmem
  · rcases hmem with rfl | hmem
    · exact List.mem_append_right _ (List.mem_singleton_self _)
    · exact List.mem_append_left _ hmem

theorem Tracks.unschedule {s : TimerManager K} (h : s.Tracks) (hfree : s.place.locked = false)
    (timer : K) : (s.unschedule timer).Tracks := by
  refine ⟨fun t ht => ?_, drops_of_unlocked rfl hfree⟩
  change (Function.update s.timers timer _ t).Armed at ht
  by_cases hne : t = timer
  · subst hne
    rw [Function.update_self] at ht
    exact absurd ht.2 Bool.false_ne_true
  · rw [Function.update_of_ne hne] at ht
    exact List.mem_filter.mpr ⟨h.pending t ht, decide_eq_true hne⟩

/-- What a `fire` of the loop leaves of a timer. -/
theorem fire_cases (timer : TimerState) (now : ℤ) :
    ((timer.fire now).1.Armed → timer.Armed) ∧
      ((timer.fire now).2.1 = false → ¬(timer.fire now).1.Armed) := by
  rw [TimerState.fire]
  split_ifs with hactive
  · cases hperiod : timer.period with
    | some period => exact ⟨fun h => ⟨hactive, h.2⟩, nofun⟩
    | none =>
        exact ⟨fun h => absurd h.1 Bool.false_ne_true, fun _ h => absurd h.1 Bool.false_ne_true⟩
  · exact ⟨id, fun _ h => hactive h.1⟩

/-- **A step of the loop drops no armed timer.** -/
theorem Tracks.dispatch {s : TimerManager K} (h : s.Tracks) (now : ℤ) (timeout : Bool) :
    (s.dispatch now timeout).1.Tracks := by
  have hdrops := h.drops
  have hmove : ∀ {place : DispatchPlace K}, s.Drops place →
      ({ s with place } : TimerManager K).Tracks := fun hp => ⟨h.pending, hp⟩
  unfold TimerManager.dispatch
  cases hplace : s.place with
  | idle => exact hmove trivial
  | waiting =>
      dsimp only
      split_ifs
      iterate 3
        · exact hmove trivial
  | head =>
      dsimp only
      split_ifs
      · exact hmove trivial
      · exact hmove trivial
      · exact hmove fun timer ht => .inl ht
  | scan rest earliest =>
      rw [hplace] at hdrops
      cases rest with
      | nil =>
          cases earliest with
          | none =>
              refine ⟨fun timer ht => ?_, trivial⟩
              rcases hdrops timer (h.pending timer ht) with hmem | hnot
              · exact absurd hmem List.not_mem_nil
              · exact absurd ht hnot
          | some due => exact hmove trivial
      | cons timer rest =>
          dsimp only
          cases earliest with
          | some earliest =>
              cases (s.timers timer).nextDueTime with
              | none => exact hmove trivial
              | some due => exact hmove trivial
          | none =>
              cases hdue : (s.timers timer).nextDueTime with
              | some due => exact hmove trivial
              | none =>
                  refine hmove fun t ht => ?_
                  rcases hdrops t ht with hmem | hnot
                  · rcases List.mem_cons.mp hmem with rfl | hmem
                    · refine .inr fun harmed => ?_
                      rw [TimerState.nextDueTime, if_pos harmed.1] at hdue
                      exact absurd hdue (Option.some_ne_none _)
                    · exact .inl hmem
                  · exact .inr hnot
  | sweep started position =>
      dsimp only
      cases s.pending[position]? with
      | none => exact hmove trivial
      | some timer =>
          dsimp only
          split_ifs
          · exact hmove trivial
          · exact hmove trivial
  | fire started position =>
      dsimp only
      cases hposition : s.pending[position]? with
      | none =>
          exact h
      | some timer =>
          obtain ⟨hkeeps, hdropped⟩ := fire_cases (s.timers timer) now
          have hnext := h.update timer hkeeps
          have hlast : (((s.timers timer).fire now).2.1 = false → ∀ t, s.pending[position]? = some t →
              ¬((s.update timer ((s.timers timer).fire now).1).timers t).Armed) := by
            intro hrearmed t ht
            rw [hposition] at ht
            obtain rfl := Option.some.inj ht
            rw [update_timers_self]
            exact hdropped hrearmed
          dsimp only
          split_ifs
          · exact ⟨hnext.pending, hlast⟩
          · exact ⟨hnext.pending, hlast⟩
  | callback started position rearmed =>
      rw [hplace] at hdrops
      exact hmove hdrops
  | fired started position rearmed =>
      rw [hplace] at hdrops
      dsimp only
      split_ifs with hrearmed
      · exact hmove trivial
      · refine ⟨fun timer ht => ?_, trivial⟩
        obtain ⟨i, hi⟩ := List.mem_iff_getElem?.mp (h.pending timer ht)
        refine List.mem_eraseIdx_iff_getElem?.mpr ⟨i, ?_, hi⟩
        rintro rfl
        exact hdrops (Bool.eq_false_iff.mpr hrearmed) timer hi ht
  | relocking =>
      dsimp only
      exact h
  | ended =>
      dsimp only
      exact h

/-- Every step keeps the armed timers pending. -/
theorem Tracks.step {s : TimerManager K} (h : s.Tracks) (action : TimerAction K) :
    (s.step action).1.Tracks := by
  cases action with
  | call call =>
      cases call with
      | set timer dueTime period callback now => exact h.set timer dueTime period callback now
      | cancel timer => exact h.cancel timer
      | schedule timer =>
          rw [TimerManager.step, TimerManager.call]
          split_ifs with hlocked
          · exact h
          · exact h.schedule (Bool.eq_false_iff.mpr hlocked) timer
      | unschedule timer =>
          rw [TimerManager.step, TimerManager.call]
          split_ifs with hlocked
          · exact h
          · exact h.unschedule (Bool.eq_false_iff.mpr hlocked) timer
  | callbackCall call =>
      rw [TimerManager.step]
      cases hplace : s.place with
      | callback started position rearmed =>
          cases call with
          | set timer dueTime period callback now => exact h.set timer dueTime period callback now
          | cancel timer => exact h.cancel timer
          | schedule timer => exact ⟨h.pending, trivial⟩
          | unschedule timer => exact ⟨h.pending, trivial⟩
      | _ => exact h
  | dispatch now timeout => exact h.dispatch now timeout
  | shutDown =>
      rw [TimerManager.step]
      split_ifs with hlocked
      · exact h
      · exact ⟨h.pending, drops_of_unlocked rfl (Bool.eq_false_iff.mpr hlocked)⟩

/-- **No armed timer is forgotten**, in any run. -/
theorem remembers_run (actions : List (TimerAction K)) :
    (run TimerManager.step TimerManager.init actions).Remembers := by
  have htracks := @invariant_along _ _ _ (TimerManager.step (K := K)) Tracks
    (fun _ _ => True) (fun s action h _ => h.step action) TimerManager.init
    actions .init (along_of_forall (fun _ _ => trivial) _ _)
  exact htracks.remembers

/-! ### Locking and firing -/

/-- The next step neither locks the mutex again nor fires a one-shot timer that its
`set` fired. -/
def orderly (s : TimerManager K) : TimerAction K → Bool
  | .callbackCall (.schedule _) | .callbackCall (.unschedule _) =>
      match s.place with
      | .callback _ _ _ => false
      | _ => true
  | .dispatch _ _ =>
      match s.place with
      | .fire _ position => s.pending[position]?.all fun timer =>
          !((s.timers timer).active && (s.timers timer).period.isNone &&
            (s.timers timer).immediate)
      | _ => true
  | _ => true

/-- How often the sets of the timers fired them, so far in order. -/
structure Counts (replies : List (TimerReply K)) (s : TimerManager K) : Prop where
  order : FiresInOrder replies
  fresh : ∀ timer generation, (s.timers timer).generation < generation →
    replies.count (.fires timer generation true) = 0
  current : ∀ timer, (s.timers timer).active = true → (s.timers timer).period = none →
    replies.count (.fires timer (s.timers timer).generation true) =
      if (s.timers timer).immediate then 1 else 0

theorem Counts.init : Counts [] (TimerManager.init : TimerManager K) where
  order := ⟨nofun, fun _ _ => Nat.zero_le _⟩
  fresh _ _ _ := rfl
  current _ h := by simp [TimerManager.init, TimerState.initial] at h

/-- A reply that is no firing of a one-shot timer and no second lock. -/
def Quiet (reply : TimerReply K) : Prop :=
  reply ≠ .relocks ∧ ∀ timer generation, reply ≠ .fires timer generation true

omit [DecidableEq K] in
theorem quiet_silent : Quiet (.silent : TimerReply K) :=
  ⟨nofun, nofun⟩

/-- A step that shows nothing, and sets and arms no timer. -/
theorem Counts.quiet {replies : List (TimerReply K)} {s s' : TimerManager K}
    (h : Counts replies s) {reply : TimerReply K} (hreply : Quiet reply) (hsame : ∀ timer,
      (s'.timers timer).generation = (s.timers timer).generation ∧
      ((s'.timers timer).active = true → (s.timers timer).active = true) ∧
      (s'.timers timer).period = (s.timers timer).period ∧
      (s'.timers timer).immediate = (s.timers timer).immediate) :
    Counts (replies ++ [reply]) s' := by
  have hcount : ∀ timer generation, (replies ++ [reply]).count
      (TimerReply.fires timer generation true) =
        replies.count (TimerReply.fires timer generation true) := by
    intro timer generation
    rw [List.count_append, List.count_singleton, if_neg (by simpa using hreply.2 timer generation),
      Nat.add_zero]
  refine ⟨⟨?_, fun timer generation => ?_⟩, fun timer generation hlt => ?_,
    fun timer hactive hperiod => ?_⟩
  · rw [List.mem_append, List.mem_singleton]
    rintro (hmem | hmem)
    · exact h.order.1 hmem
    · exact hreply.1 hmem.symm
  · rw [hcount]
    exact h.order.2 timer generation
  · rw [hcount]
    exact h.fresh timer generation (by rw [(hsame timer).1] at hlt; exact hlt)
  · obtain ⟨hgeneration, hactive', hperiod', himmediate⟩ := hsame timer
    rw [hcount, hgeneration, himmediate]
    exact h.current timer (hactive' hactive) (hperiod' ▸ hperiod)

/-- A step that shows nothing and leaves the timers. -/
theorem Counts.of_timers {replies : List (TimerReply K)} {s s' : TimerManager K}
    (h : Counts replies s) (htimers : s'.timers = s.timers) :
    Counts (replies ++ [.silent]) s' := by
  refine h.quiet quiet_silent fun timer => ?_
  rw [htimers]
  exact ⟨rfl, id, rfl, rfl⟩

/-- A change of one timer that shows nothing, and does not set or arm it. -/
theorem Counts.update {replies : List (TimerReply K)} {s s' : TimerManager K}
    (h : Counts replies s) {reply : TimerReply K} (hreply : Quiet reply) (timer : K)
    (state : TimerState) (hs : s'.timers = (s.update timer state).timers)
    (hgeneration : state.generation = (s.timers timer).generation)
    (hactive : state.active = true → (s.timers timer).active = true)
    (hperiod : state.period = (s.timers timer).period)
    (himmediate : state.immediate = (s.timers timer).immediate) :
    Counts (replies ++ [reply]) s' := by
  refine h.quiet hreply fun t => ?_
  rw [hs]
  by_cases hne : t = timer
  · subst hne
    rw [update_timers_self]
    exact ⟨hgeneration, hactive, hperiod, himmediate⟩
  · rw [update_timers_of_ne s hne]
    exact ⟨rfl, id, rfl, rfl⟩

/-- What one more firing counts. -/
theorem count_fires (replies : List (TimerReply K)) (timer t : K) (generation g : ℕ)
    (oneShot : Bool) :
    (replies ++ [TimerReply.fires timer generation oneShot]).count (TimerReply.fires t g true) =
      replies.count (TimerReply.fires t g true) +
        if timer = t ∧ generation = g ∧ oneShot = true then 1 else 0 := by
  simp [List.count_append, List.count_singleton]

/-- Setting a timer: its new number has not fired before. -/
theorem Counts.set {replies : List (TimerReply K)} {s : TimerManager K} (h : Counts replies s)
    (timer : K) (dueTime : ℤ) (period : Option ℤ) (callback : Bool) (now : ℤ) :
    Counts (replies ++ [(s.set timer dueTime period callback now).2])
      (s.set timer dueTime period callback now).1 := by
  have hcount : ∀ t g, (replies ++ [(s.set timer dueTime period callback now).2]).count
      (TimerReply.fires t g true) = replies.count (TimerReply.fires t g true) +
        if dueTime = 0 ∧ timer = t ∧ (s.timers timer).generation + 1 = g ∧ period.isNone = true
          then 1 else 0 := by
    intro t g
    rw [TimerManager.set]
    by_cases hdue : dueTime = 0
    · simp only [hdue, true_and, if_true]
      exact count_fires replies timer t _ g _
    · simp [hdue, List.count_append]
  refine ⟨⟨?_, fun t g => ?_⟩, fun t g hlt => ?_, fun t hactive hperiod => ?_⟩
  · intro hmem
    rcases List.mem_append.mp hmem with hmem | hmem
    · exact h.order.1 hmem
    · rw [TimerManager.set] at hmem
      split_ifs at hmem <;> simp at hmem
  · rw [hcount]
    split_ifs with hnew
    · obtain ⟨-, rfl, rfl, -⟩ := hnew
      rw [h.fresh _ _ (Nat.lt_succ_self _)]
    · exact h.order.2 t g
  · rw [hcount]
    have hlt' : (s.timers t).generation < g ∧ ¬(timer = t ∧ (s.timers timer).generation + 1 = g) := by
      by_cases hne : t = timer
      · subst hne
        rw [TimerManager.set, update_timers_self] at hlt
        exact ⟨by simp only at hlt; omega, by simp only at hlt; omega⟩
      · rw [TimerManager.set, update_timers_of_ne s hne] at hlt
        exact ⟨hlt, fun hcontra => hne hcontra.1.symm⟩
    rw [h.fresh t g hlt'.1, if_neg fun hnew => hlt'.2 ⟨hnew.2.1, hnew.2.2.1⟩]
  · rw [hcount]
    by_cases hne : t = timer
    · subst hne
      rw [TimerManager.set, update_timers_self] at hperiod ⊢
      simp only at hperiod
      simp only [hperiod, Option.isNone_none, and_true]
      rw [h.fresh _ _ (Nat.lt_succ_self _)]
      by_cases hdue : dueTime = 0 <;> simp [hdue]
    · rw [TimerManager.set, update_timers_of_ne s hne] at hactive hperiod ⊢
      have hnew : ¬(dueTime = 0 ∧ timer = t ∧ (s.timers timer).generation + 1 =
          (s.timers t).generation ∧ period.isNone = true) := fun hnew => hne hnew.2.1.symm
      rw [h.current t hactive hperiod, if_neg hnew, Nat.add_zero]

/-- The first firing of a one-shot timer disarms it. -/
theorem Counts.fire {replies : List (TimerReply K)} {s s' : TimerManager K} (h : Counts replies s)
    {timer : K} (hactive : (s.timers timer).active = true)
    (hperiod : (s.timers timer).period = none) (himmediate : (s.timers timer).immediate = false)
    (hs : s'.timers = (s.update timer { s.timers timer with active := false }).timers) :
    Counts (replies ++ [.fires timer (s.timers timer).generation true]) s' := by
  have hzero := h.current timer hactive hperiod
  rw [himmediate, if_neg Bool.false_ne_true] at hzero
  have hgeneration : ∀ t, (s'.timers t).generation = (s.timers t).generation := by
    intro t
    rw [hs]
    by_cases hne : t = timer
    · rw [hne, update_timers_self]
    · rw [update_timers_of_ne s hne]
  refine ⟨⟨?_, fun t g => ?_⟩, fun t g hlt => ?_, fun t hactive' hperiod' => ?_⟩
  · simpa using h.order.1
  · rw [count_fires]
    split_ifs with hsame
    · obtain ⟨rfl, rfl, -⟩ := hsame
      rw [hzero]
    · exact h.order.2 t g
  · rw [hgeneration] at hlt
    rw [count_fires, h.fresh t g hlt, if_neg]
    rintro ⟨rfl, rfl, -⟩
    exact lt_irrefl _ hlt
  · rw [hgeneration, count_fires]
    by_cases hne : t = timer
    · subst hne
      rw [hs, update_timers_self] at hactive'
      exact absurd hactive' Bool.false_ne_true
    · rw [hs, update_timers_of_ne s hne] at hactive' hperiod' ⊢
      have hother : ¬(timer = t ∧ (s.timers timer).generation = (s.timers t).generation ∧
          true = true) := fun hsame => hne hsame.1.symm
      rw [h.current t hactive' hperiod', if_neg hother, Nat.add_zero]

/-- Outside `fire` the loop shows nothing and leaves the timers. -/
theorem dispatch_quiet (s : TimerManager K) (now : ℤ) (timeout : Bool)
    (hplace : ∀ started position, s.place ≠ .fire started position) :
    (s.dispatch now timeout).2 = .silent ∧ (s.dispatch now timeout).1.timers = s.timers := by
  unfold TimerManager.dispatch
  cases hp : s.place with
  | idle => exact ⟨rfl, rfl⟩
  | waiting => dsimp only; split_ifs <;> exact ⟨rfl, rfl⟩
  | head => dsimp only; split_ifs <;> exact ⟨rfl, rfl⟩
  | scan rest earliest =>
      cases rest with
      | nil => cases earliest <;> exact ⟨rfl, rfl⟩
      | cons timer rest => exact ⟨rfl, rfl⟩
  | sweep started position =>
      dsimp only
      cases s.pending[position]? with
      | none => exact ⟨rfl, rfl⟩
      | some timer => dsimp only; split_ifs <;> exact ⟨rfl, rfl⟩
  | fire started position => exact absurd hp (hplace started position)
  | callback started position rearmed => exact ⟨rfl, rfl⟩
  | fired started position rearmed => dsimp only; split_ifs <;> exact ⟨rfl, rfl⟩
  | relocking => exact ⟨rfl, rfl⟩
  | ended => exact ⟨rfl, rfl⟩

/-- The step of `fire` counts on in order exactly if it is not the second firing. -/
theorem Counts.dispatch_fire {replies : List (TimerReply K)} {s : TimerManager K}
    (h : Counts replies s) {now started : ℤ} {position : ℕ} (timeout : Bool)
    (hplace : s.place = .fire started position) :
    (s.orderly (.dispatch now timeout) = true →
        Counts (replies ++ [(s.dispatch now timeout).2]) (s.dispatch now timeout).1) ∧
      (s.orderly (.dispatch now timeout) = false →
        ¬FiresInOrder (replies ++ [(s.dispatch now timeout).2])) := by
  simp only [orderly, hplace, TimerManager.dispatch]
  cases hposition : s.pending[position]? with
  | none => exact ⟨fun _ => h.of_timers rfl, nofun⟩
  | some timer =>
      simp only [Option.all_some]
      by_cases hactive : (s.timers timer).active = true
      · cases hperiod : (s.timers timer).period with
        | some period =>
            simp only [TimerState.fire, hactive, hperiod, if_true, true_and, Option.isNone_some]
            refine ⟨fun _ => ?_, by simp⟩
            exact h.update ⟨nofun, nofun⟩ timer _ rfl rfl (fun _ => hactive) hperiod.symm rfl
        | none =>
            simp only [TimerState.fire, hactive, hperiod, if_true, true_and, Option.isNone_none]
            refine ⟨fun himmediate => ?_, fun himmediate horder => ?_⟩
            · exact h.fire hactive hperiod (by simpa using himmediate) (by simp [hperiod])
            · have htwice := horder.2 timer (s.timers timer).generation
              rw [count_fires, h.current timer hactive hperiod, if_pos (by simpa using himmediate),
                if_pos ⟨rfl, rfl, rfl⟩] at htwice
              exact absurd htwice (by decide)
      · simp only [TimerState.fire, hactive, Bool.false_eq_true, if_false, false_and]
        refine ⟨fun _ => ?_, by simp⟩
        exact h.update quiet_silent timer _ rfl rfl id rfl rfl

/-- **One step counts on in order exactly if it is orderly.** -/
theorem Counts.step {replies : List (TimerReply K)} {s : TimerManager K} (h : Counts replies s)
    (action : TimerAction K) :
    (s.orderly action = true → Counts (replies ++ [(s.step action).2]) (s.step action).1) ∧
      (s.orderly action = false → ¬FiresInOrder (replies ++ [(s.step action).2])) := by
  have hcancel : ∀ timer, Counts (replies ++ [.silent]) (s.cancel timer) := by
    intro timer
    rw [TimerManager.cancel]
    split_ifs with hactive
    · exact h.update quiet_silent timer _ rfl rfl nofun rfl rfl
    · exact h.of_timers rfl
  have hrelocks : ¬FiresInOrder (replies ++ [TimerReply.relocks]) :=
    fun horder => horder.1 (List.mem_append_right _ (List.mem_singleton_self _))
  cases action with
  | call call =>
      refine ⟨fun _ => ?_, nofun⟩
      cases call with
      | set timer dueTime period callback now => exact h.set timer dueTime period callback now
      | cancel timer => exact hcancel timer
      | schedule timer =>
          rw [TimerManager.step, TimerManager.call]
          split_ifs
          · exact h.of_timers rfl
          · exact h.update quiet_silent timer _ rfl rfl id rfl rfl
      | unschedule timer =>
          rw [TimerManager.step, TimerManager.call]
          split_ifs
          · exact h.of_timers rfl
          · exact h.update quiet_silent timer _ rfl rfl id rfl rfl
  | callbackCall call =>
      rw [TimerManager.step]
      cases hplace : s.place with
      | callback started position rearmed =>
          cases call with
          | set timer dueTime period callback now =>
              exact ⟨fun _ => h.set timer dueTime period callback now, nofun⟩
          | cancel timer => exact ⟨fun _ => hcancel timer, nofun⟩
          | schedule timer =>
              refine ⟨fun horderly => ?_, fun _ => hrelocks⟩
              simp [orderly, hplace] at horderly
          | unschedule timer =>
              refine ⟨fun horderly => ?_, fun _ => hrelocks⟩
              simp [orderly, hplace] at horderly
      | _ =>
          refine ⟨fun _ => h.of_timers rfl, fun horderly => ?_⟩
          cases call <;> simp [orderly, hplace] at horderly
  | shutDown =>
      refine ⟨fun _ => ?_, nofun⟩
      rw [TimerManager.step]
      split_ifs
      · exact h.of_timers rfl
      · exact h.of_timers rfl
  | dispatch now timeout =>
      rw [TimerManager.step]
      by_cases hfire : ∃ started position, s.place = .fire started position
      · obtain ⟨started, position, hplace⟩ := hfire
        exact h.dispatch_fire timeout hplace
      · have hplace : ∀ started position, s.place ≠ .fire started position :=
          fun started position hp => hfire ⟨started, position, hp⟩
        obtain ⟨hreply, htimers⟩ := s.dispatch_quiet now timeout hplace
        rw [hreply]
        refine ⟨fun _ => h.of_timers htimers, fun horderly => ?_⟩
        rw [orderly] at horderly
        split at horderly
        · exact absurd ‹_› (hplace _ _)
        · exact absurd horderly (by simp)

omit [DecidableEq K] in
/-- What went out of order stays so. -/
theorem firesInOrder_of_append [DecidableEq K] {replies more : List (TimerReply K)}
    (h : FiresInOrder (replies ++ more)) : FiresInOrder replies := by
  refine ⟨fun hmem => h.1 (List.mem_append_left _ hmem), fun timer generation => ?_⟩
  have hcount := h.2 timer generation
  rw [List.count_append] at hcount
  omega

/-- A run counts on in order exactly if all its steps are orderly. -/
theorem Counts.run_iff {replies : List (TimerReply K)} {s : TimerManager K} (h : Counts replies s)
    (actions : List (TimerAction K)) :
    FiresInOrder (replies ++ (trace TimerManager.step s actions).map Prod.snd) ↔
      Along TimerManager.step (fun s action => s.orderly action = true) s actions := by
  induction actions generalizing replies s with
  | nil => simpa [trace, Along] using h.order
  | cons action actions ih =>
      obtain ⟨hgood, hbad⟩ := h.step action
      rw [trace, List.map_cons, Along, List.append_cons]
      by_cases horderly : s.orderly action = true
      · rw [ih (hgood horderly), and_iff_right horderly]
      · refine iff_of_false (fun horder => ?_) fun hboth => horderly hboth.1
        exact hbad (Bool.eq_false_iff.mpr horderly) (firesInOrder_of_append horder)

/-- **Timers are never forgotten, locked twice or fired twice.**  In every run, armed
timers are pending whenever the mutex is free; and the dispatch thread does not
lock the mutex it holds, and one `set` of a one-shot timer fires it at most
once, exactly if no callback on the dispatch thread schedules or unschedules a
timer, and the loop fires no one-shot timer whose `set` fired at once. -/
theorem timers_never_forgotten (actions : List (TimerAction K)) :
    ((∀ pre, pre <+: actions → (run TimerManager.step TimerManager.init pre).Remembers) ∧
        FiresInOrder ((trace TimerManager.step TimerManager.init actions).map Prod.snd)) ↔
      Along TimerManager.step (fun s action => s.orderly action = true) TimerManager.init
        actions := by
  rw [and_iff_right fun pre _ => remembers_run pre]
  exact Counts.init.run_iff actions

/-- The loop comes to the first timer and fires it. -/
def fireFirst : List (TimerAction Unit) :=
  List.replicate 7 (.dispatch 1 true)

/-- A timer that is set with due time zero and scheduled fires in `set`, and again in
the loop; and a callback of the loop that schedules its timer again locks the
mutex that the loop holds. -/
theorem timer_fires_twice_and_relocks :
    ¬FiresInOrder ((trace TimerManager.step TimerManager.init
        ([.call (.set () 0 none false 0), .call (.schedule ())] ++ fireFirst)).map Prod.snd) ∧
      TimerReply.relocks ∈ (trace TimerManager.step TimerManager.init
        ([.call (.set () 1 none true 0), .call (.schedule ())] ++ fireFirst ++
          [.callbackCall (.set () 1 none true 1), .callbackCall (.schedule ())])).map Prod.snd := by
  refine ⟨fun h => ?_, by decide⟩
  exact absurd (h.2 () 1) (by decide)

end TimerManager

end Kernel
end XenonRecomp
