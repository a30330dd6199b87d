/-
# An epoch boundary and the writers before it

The strict writers of guest memory against `current_epoch`
(`include/xenon/memory/coherency.hpp`).  Ordinary stores and physical write
spans count themselves in `active_writers_` between `enter_write` and
`finish_write`; a physical write window counts each of its writes; `mark_write`
and `mark_all_dirty` count themselves, and with them the conditional stores of
the locked slow path, which publish through `mark_write`; so does the collector.
The conditional stores of the fast path (`store_conditional32` and
`store_conditional64` of `include/xenon/cpu/memory_port.hpp`) publish through
`publish_write_metadata` alone and count themselves nowhere.

So a boundary waits for every writer but one kind.  A conditional store that has
drawn its epoch and not stored it yet is hidden by the boundary
(`boundary_hides_conditional_store`), and when it stores its page epoch later,
the page is not newer than the boundary its consumer moved to.  In every run in
which `current_epoch` never samples the epoch at such a moment, and the 64-bit
epoch does not wrap, a boundary `E` follows all page-epoch stores of the writes
up to `E`, and a page stored after a boundary is newer than it
(`boundary_covers_writes`).
-/

import XenonRecomp.Memory.EpochInvariant
import XenonRecomp.Memory.Writers

namespace XenonRecomp
namespace Memory

open Library Library.Transition Library.Interleaving

/-! ## The invariant -/

section Invariant

variable {T : Type} [Fintype T] [DecidableEq T]

/-- **The condition on a step.**  An epoch is drawn before the counter wraps, and
`current_epoch` samples the epoch while no conditional store of the fast path is
between its draw and its last page epoch. -/
def Unhidden (c : Config CoherencyState Party T) (ev : T × CoherencyChoice) : Prop :=
  ((c.threads ev.1).role.draws = true → c.shared.writeEpoch + 1 < 2 ^ 64) ∧
    ((c.threads ev.1).role.samples = true → ∀ u, (c.threads u).publishesUncounted = false)

instance (c : Config CoherencyState Party T) : DecidablePred (Unhidden c) :=
  fun ev => inferInstanceAs (Decidable (((c.threads ev.1).role.draws = true →
    c.shared.writeEpoch + 1 < 2 ^ 64) ∧ ((c.threads ev.1).role.samples = true →
      ∀ u, (c.threads u).publishesUncounted = false)))

/-- A thread that has pages left is counted, unless it is a conditional store. -/
theorem counted_of_pending {l : Party} {e : ℕ} {r : List ℕ}
    (h : l.role.pending = some (e, r)) (hr : r ≠ []) (hc : l.publishesUncounted = false) :
    l.role.counted = true := by
  obtain ⟨page, rest, rfl⟩ := List.exists_cons_of_ne_nil hr
  cases l with
  | writer w =>
      cases w with
      | storePages kind epoch remaining =>
          cases h
          cases kind with
          | conditional => cases hc
          | _ => rfl
      | _ => cases h
  | consumer k => exact consumer_counted_of_pending h

/-- A step that meets the condition keeps the invariant. -/
theorem epochInvariant_step {c : Config CoherencyState Party T} {t : T} {a : CoherencyChoice}
    {s' : CoherencyState} {l' : Party} (hI : EpochInvariant Party.role c)
    (hP : Unhidden c (t, a)) (h : coherencyProgram c.shared (c.threads t) a = some (s', l')) :
    EpochInvariant Party.role ⟨s', Function.update c.threads t l'⟩ := by
  obtain ⟨heff, hwrap⟩ := coherencyProgram_effect hP.1 (hI.unwrapped t) h
  exact hI.step heff hwrap fun hsamples u e r hu hr =>
    counted_of_pending hu hr (hP.2 hsamples u)

/-- The memory system before any write, with the dirty bits native stores have
set; every thread is idle. -/
def launchCoherency (T : Type) (dirtyWords dirtySummary : ℕ → BitVec 64) :
    Config CoherencyState Party T :=
  ⟨{ CoherencyState.init with dirtyWords := dirtyWords, dirtySummary := dirtySummary },
    fun _ => .writer .idle⟩

omit [DecidableEq T] in
theorem epochInvariant_launch (dirtyWords dirtySummary : ℕ → BitVec 64) :
    EpochInvariant Party.role (launchCoherency T dirtyWords dirtySummary) where
  count := (count_eq_zero_iff.mpr fun _ => rfl).symm
  unwrapped := fun _ => rfl
  assigned_le := nofun
  boundary_le := nofun
  pending_le := nofun
  pending_newer := nofun
  stored := nofun
  sampled_le := nofun
  sampled_counted := nofun
  complete := fun h₁ E h₂ h => by simp [launchCoherency, CoherencyState.init] at h
  newer := fun h₁ E h₂ h => by simp [launchCoherency, CoherencyState.init] at h

/-- **A boundary covers the writes up to it.**  Any number of strict writers and
consumers run in any order; in every run whose steps meet `Unhidden`, when
`current_epoch` returns `E`, every write that was assigned an epoch up to `E` has
stored it to every page it touched, and every page a write stores an epoch to
after that is seen by a consumer that moved to `E`. -/
theorem boundary_covers_writes (dirtyWords dirtySummary : ℕ → BitVec 64)
    (es : List (T × CoherencyChoice))
    (hP : Along (step coherencyProgram) Unhidden (launchCoherency T dirtyWords dirtySummary) es)
    (h₁ h₂ : List EpochEvent) (E : ℕ)
    (hreturned : (run (step coherencyProgram) (launchCoherency T dirtyWords dirtySummary)
      es).shared.history = h₁ ++ .boundary E :: h₂) :
    (∀ e ps, (e, ps) ∈ (run (step coherencyProgram)
        (launchCoherency T dirtyWords dirtySummary) es).shared.assigned →
      e ≤ E → ∀ p ∈ ps, .stored e p ∈ h₁) ∧
    ∀ e p, .stored e p ∈ h₂ → SeenSince (run (step coherencyProgram)
      (launchCoherency T dirtyWords dirtySummary) es).shared.pageEpochs E p := by
  have hI := run_invariant (I := EpochInvariant Party.role) (P := Unhidden)
    (fun c t a s l hI hPe hprog => epochInvariant_step hI hPe hprog) _ es
    (epochInvariant_launch dirtyWords dirtySummary) hP
  exact ⟨hI.complete h₁ E h₂ hreturned,
    fun e p hp => seenSince_of_lt (hI.newer h₁ E h₂ hreturned e p hp)⟩

end Invariant

/-- A call of one thread and all of its steps. -/
def wholeCall {T : Type} (t : T) (c : CoherencyCall) (count : ℕ) : List (T × CoherencyChoice) :=
  (t, .call c) :: List.replicate count (t, .next false)

/-- A store, a boundary and a second store to the page: the page is seen again. -/
theorem boundary_covers_writes_single :
    SeenSince (run (step coherencyProgram) (launchCoherency Unit (fun _ => 0) fun _ => 0)
      (wholeCall () (.store 0x1000 4) 8 ++ wholeCall () .currentEpoch 37 ++
        wholeCall () (.store 0x1000 4) 8)).shared.pageEpochs 1 1 :=
  (boundary_covers_writes (T := Unit) (fun _ => 0) (fun _ => 0)
    (wholeCall () (.store 0x1000 4) 8 ++ wholeCall () .currentEpoch 37 ++
      wholeCall () (.store 0x1000 4) 8)
    (by decide) [.stored 1 1] [.stored 2 1] 1 (by decide)).2 2 1 (by decide)

/-- The thread `false` has drawn the epoch of a conditional store to page one when
the thread `true` asks for a boundary; then it stores the epoch. -/
def hiddenConditionalStore : List (Bool × CoherencyChoice) :=
  wholeCall false (.conditionalStore 0x1000 4) 1 ++ wholeCall true .currentEpoch 36 ++
    [(false, .next false)]

/-- **A boundary hides a conditional store.**  The boundary one is returned before
the conditional store that was assigned epoch one has stored it anywhere, and
once it has, the page does not look changed to a consumer that moved to one. -/
theorem boundary_hides_conditional_store :
    let s := (run (step coherencyProgram) (launchCoherency Bool (fun _ => 0) fun _ => 0)
      hiddenConditionalStore).shared
    s.history = [] ++ .boundary 1 :: [.stored 1 1] ∧ (1, [1]) ∈ s.assigned ∧
      ¬(∀ e ps, (e, ps) ∈ s.assigned → e ≤ 1 → ∀ p ∈ ps, EpochEvent.stored e p ∈ []) ∧
      rangeChangedSince s.pageEpochs 0x1000 4 1 = false := by
  have hassigned : (1, [1]) ∈ (run (step coherencyProgram)
      (launchCoherency Bool (fun _ => 0) fun _ => 0) hiddenConditionalStore).shared.assigned := by
    decide
  refine ⟨by decide, hassigned, fun h => ?_, by decide⟩
  exact absurd (h 1 [1] hassigned le_rfl 1 (by simp)) (by simp)

end Memory
end XenonRecomp
