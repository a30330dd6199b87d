/-
# The invariant of epoch boundaries

Threads of any kind share the coherency state; a map gives each thread its role
(`Role`), and every step has one of the effects of `Effect`.  The invariant says
that the writer count is the number of counted threads, that a write which is
not done is newer than every boundary returned, and that a write up to a sampled
epoch which is not done is counted.  From it follows what a boundary promises:
the writes up to it are done when it is returned, and a page stored after it is
newer than it.
-/

import XenonRecomp.Memory.Coherency

namespace XenonRecomp
namespace Memory

open Library Library.Transition Library.Interleaving

section Invariant

variable {L T : Type} [Fintype T] [DecidableEq T] (role : L → Role)

/-- A boundary in a history that has grown by one event is that event, or stood
in the history before. -/
theorem boundary_of_snoc {h h₁ h₂ : List EpochEvent} {x : EpochEvent} {E : ℕ}
    (hsplit : h ++ [x] = h₁ ++ .boundary E :: h₂) :
    (h₂ = [] ∧ x = .boundary E ∧ h = h₁) ∨
      ∃ h₂', h₂ = h₂' ++ [x] ∧ h = h₁ ++ .boundary E :: h₂' := by
  rcases List.eq_nil_or_concat h₂ with rfl | ⟨h₂', y, rfl⟩
  · obtain ⟨hh, hx⟩ := List.append_inj' hsplit rfl
    exact .inl ⟨rfl, by simpa using hx, hh⟩
  · have hsplit' : h ++ [x] = (h₁ ++ .boundary E :: h₂') ++ [y] := by
      simpa [List.append_assoc] using hsplit
    obtain ⟨hh, hx⟩ := List.append_inj' hsplit' rfl
    cases hx
    exact .inr ⟨h₂', by simp, hh⟩

/-- What holds between the epochs, the boundaries and the threads. -/
structure EpochInvariant (c : Config CoherencyState L T) : Prop where
  count : c.shared.activeWriters = count (fun l => (role l).counted) c.threads
  unwrapped : ∀ t, (role (c.threads t)).wrapping = false
  assigned_le : ∀ e ps, (e, ps) ∈ c.shared.assigned → e ≤ c.shared.writeEpoch
  boundary_le : ∀ E, .boundary E ∈ c.shared.history → E ≤ c.shared.writeEpoch
  pending_le : ∀ t e r, (role (c.threads t)).pending = some (e, r) → e ≤ c.shared.writeEpoch
  /-- A write that is not done is newer than every boundary returned. -/
  pending_newer : ∀ t e r, (role (c.threads t)).pending = some (e, r) → r ≠ [] →
    ∀ E, .boundary E ∈ c.shared.history → E < e
  /-- A write has stored its epoch to a page, or still has to. -/
  stored : ∀ e ps, (e, ps) ∈ c.shared.assigned → ∀ p ∈ ps,
    .stored e p ∈ c.shared.history ∨ ∃ t r, (role (c.threads t)).pending = some (e, r) ∧ p ∈ r
  sampled_le : ∀ t E, (role (c.threads t)).sampled = some E → E ≤ c.shared.writeEpoch
  /-- A write up to a sampled epoch that is not done is counted. -/
  sampled_counted : ∀ t E, (role (c.threads t)).sampled = some E → ∀ u e r,
    (role (c.threads u)).pending = some (e, r) → r ≠ [] → e ≤ E →
      (role (c.threads u)).counted = true
  complete : ∀ h₁ E h₂, c.shared.history = h₁ ++ .boundary E :: h₂ → ∀ e ps,
    (e, ps) ∈ c.shared.assigned → e ≤ E → ∀ p ∈ ps, .stored e p ∈ h₁
  newer : ∀ h₁ E h₂, c.shared.history = h₁ ++ .boundary E :: h₂ → ∀ e p,
    .stored e p ∈ h₂ → E < c.shared.pageEpochs p

namespace EpochInvariant

variable {role} {c : Config CoherencyState L T} {t : T} {s' : CoherencyState} {l' : L}

omit [Fintype T] in
/-- What is left of a write stays with its thread, when the thread that moved had
nothing left. -/
theorem pending_of_ne {threads : T → L}
    (hdone : ∀ e r, (role (threads t)).pending = some (e, r) → r = []) {u : T} {e : ℕ} {r : List ℕ}
    (h : (role (threads u)).pending = some (e, r)) (hr : r ≠ []) :
    (role (Function.update threads t l' u)).pending = some (e, r) := by
  have hu : u ≠ t := by
    rintro rfl
    exact hr (hdone e r h)
  rw [Function.update_of_ne hu]
  exact h

omit [Fintype T] in
/-- A thread with something pending is one of the others, when the thread that
moved has nothing pending. -/
theorem pending_update {threads : T → L} (hl' : (role l').pending = none) {u : T} {e : ℕ}
    {r : List ℕ} (h : (role (Function.update threads t l' u)).pending = some (e, r)) :
    u ≠ t ∧ (role (threads u)).pending = some (e, r) := by
  rcases of_update (Q := fun l => (role l).pending = some (e, r)) h with ⟨-, hp⟩ | hother
  · rw [hl'] at hp
    cases hp
  · exact hother

omit [Fintype T] in
/-- A thread with a sampled epoch is one of the others, when the thread that moved
has none. -/
theorem sampled_update {threads : T → L} (hl' : (role l').sampled = none) {u : T} {E : ℕ}
    (h : (role (Function.update threads t l' u)).sampled = some E) :
    (role (threads u)).sampled = some E := by
  rcases of_update (Q := fun l => (role l).sampled = some E) h with ⟨-, hp⟩ | ⟨-, hp⟩
  · rw [hl'] at hp
    cases hp
  · exact hp

/-- A step that touches no epoch. -/
theorem frame (hI : EpochInvariant role c)
    (hs : s'.writeEpoch = c.shared.writeEpoch ∧ s'.pageEpochs = c.shared.pageEpochs ∧
      s'.assigned = c.shared.assigned ∧ s'.history = c.shared.history)
    (hcount : s'.activeWriters =
      Interleaving.count (fun l => (role l).counted) (Function.update c.threads t l'))
    (hwrap : (role l').wrapping = false)
    (hdone : ∀ e r, (role (c.threads t)).pending = some (e, r) → r = [])
    (hpending : (role l').pending = none)
    (hsampled : ∀ E, (role l').sampled = some E → E ≤ c.shared.writeEpoch ∧ ∀ u e r,
      (role (c.threads u)).pending = some (e, r) → r ≠ [] → (role (c.threads u)).counted = true) :
    EpochInvariant role ⟨s', Function.update c.threads t l'⟩ where
  count := hcount
  unwrapped := forall_update (Q := fun _ l => (role l).wrapping = false) hwrap fun u _ =>
    hI.unwrapped u
  assigned_le := by
    rw [hs.1, hs.2.2.1]
    exact hI.assigned_le
  boundary_le := by
    rw [hs.1, hs.2.2.2]
    exact hI.boundary_le
  pending_le := fun u e r h => by
    rw [hs.1]
    exact hI.pending_le u e r (pending_update hpending h).2
  pending_newer := fun u e r h hr => by
    rw [hs.2.2.2]
    exact hI.pending_newer u e r (pending_update hpending h).2 hr
  stored := fun e ps h p hp => by
    rw [hs.2.2.1] at h
    rw [hs.2.2.2]
    rcases hI.stored e ps h p hp with hst | ⟨u, r, hu, hpr⟩
    · exact .inl hst
    · exact .inr ⟨u, r, pending_of_ne hdone hu (List.ne_nil_of_mem hpr), hpr⟩
  sampled_le := fun u E h => by
    rw [hs.1]
    rcases of_update (Q := fun l => (role l).sampled = some E) h with ⟨-, hl⟩ | ⟨-, hu⟩
    · exact (hsampled E hl).1
    · exact hI.sampled_le u E hu
  sampled_counted := fun u E h v e r hv hr hle => by
    obtain ⟨hne, hv⟩ := pending_update hpending hv
    refine (congrArg (fun l => (role l).counted) (Function.update_of_ne hne l' c.threads)).trans ?_
    rcases of_update (Q := fun l => (role l).sampled = some E) h with ⟨-, hl⟩ | ⟨-, hu⟩
    · exact (hsampled E hl).2 v e r hv hr
    · exact hI.sampled_counted u E hu v e r hv hr hle
  complete := by
    rw [hs.2.2.1, hs.2.2.2]
    exact hI.complete
  newer := by
    rw [hs.2.1, hs.2.2.2]
    exact hI.newer

/-- A draw: the new epoch is newer than everything before it. -/
theorem draw (hI : EpochInvariant role c) (pages : List ℕ) (hwrap : (role l').wrapping = false)
    (hnone : (role (c.threads t)).pending = none)
    (hnext : c.shared.nextEpoch = c.shared.writeEpoch + 1)
    (hcount : (role l').counted = (role (c.threads t)).counted)
    (hpending : (role l').pending = some (c.shared.writeEpoch + 1, pages))
    (hsampled : (role l').sampled = none) :
    EpochInvariant role ⟨c.shared.draw pages, Function.update c.threads t l'⟩ := by
  have hassigned : (c.shared.draw pages).assigned =
      (c.shared.writeEpoch + 1, pages) :: c.shared.assigned := by
    simp [CoherencyState.draw, hnext]
  have hepoch : (c.shared.draw pages).writeEpoch = c.shared.writeEpoch + 1 := hnext
  have hpend : ∀ u e r, (role (Function.update c.threads t l' u)).pending = some (e, r) →
      (e = c.shared.writeEpoch + 1 ∧ r = pages) ∨
        u ≠ t ∧ (role (c.threads u)).pending = some (e, r) := by
    intro u e r h
    rcases of_update (Q := fun l => (role l).pending = some (e, r)) h with ⟨-, hp⟩ | hother
    · rw [hpending] at hp
      cases hp
      exact .inl ⟨rfl, rfl⟩
    · exact .inr hother
  refine ⟨?_, ?_, ?_, ?_, ?_, ?_, ?_, ?_, ?_, ?_, hI.newer⟩
  · exact hI.count.trans (count_update_of_eq (p := fun l => (role l).counted) hcount).symm
  · exact forall_update (Q := fun _ l => (role l).wrapping = false) hwrap fun u _ =>
      hI.unwrapped u
  · intro e ps h
    rw [hassigned] at h
    rw [hepoch]
    rcases List.mem_cons.mp h with heq | hold
    · cases heq
      exact le_rfl
    · exact (hI.assigned_le e ps hold).trans (Nat.le_succ _)
  · intro E h
    rw [hepoch]
    exact (hI.boundary_le E h).trans (Nat.le_succ _)
  · intro u e r h
    rw [hepoch]
    rcases hpend u e r h with ⟨rfl, -⟩ | ⟨-, hp⟩
    · exact le_rfl
    · exact (hI.pending_le u e r hp).trans (Nat.le_succ _)
  · intro u e r h hr E hE
    rcases hpend u e r h with ⟨rfl, -⟩ | ⟨-, hp⟩
    · exact Nat.lt_succ_of_le (hI.boundary_le E hE)
    · exact hI.pending_newer u e r hp hr E hE
  · intro e ps h p hp
    rw [hassigned] at h
    rcases List.mem_cons.mp h with heq | hold
    · cases heq
      exact .inr ⟨t, pages, by simpa using hpending, hp⟩
    · rcases hI.stored e ps hold p hp with hst | ⟨u, r, hu, hpr⟩
      · exact .inl hst
      · refine .inr ⟨u, r, pending_of_ne (fun e r h => ?_) hu (List.ne_nil_of_mem hpr), hpr⟩
        rw [hnone] at h
        cases h
  · intro u E h
    rw [hepoch]
    exact (hI.sampled_le u E (sampled_update hsampled h)).trans (Nat.le_succ _)
  · intro u E h v e r hv hr hle
    have hE := hI.sampled_le u E (sampled_update hsampled h)
    rcases hpend v e r hv with ⟨rfl, -⟩ | ⟨hne, hp⟩
    · omega
    · refine (congrArg (fun l => (role l).counted)
        (Function.update_of_ne hne l' c.threads)).trans ?_
      exact hI.sampled_counted u E (sampled_update hsampled h) v e r hp hr hle
  · intro h₁ E h₂ hsplit e ps h hle
    rw [hassigned] at h
    rcases List.mem_cons.mp h with heq | hold
    · cases heq
      have hmem : EpochEvent.boundary E ∈ c.shared.history := by
        rw [show c.shared.history = h₁ ++ .boundary E :: h₂ from hsplit]
        simp
      have := hI.boundary_le E hmem
      omega
    · exact hI.complete h₁ E h₂ hsplit e ps hold hle

/-- A page-epoch store: the page is newer than every boundary, since the write
was not done. -/
theorem store (hI : EpochInvariant role c) (epoch page : ℕ) (remaining : List ℕ)
    (hwrap : (role l').wrapping = false)
    (hbefore : (role (c.threads t)).pending = some (epoch, page :: remaining))
    (hafter : (role l').pending = some (epoch, remaining))
    (hcount : (role l').counted = (role (c.threads t)).counted)
    (hsampled : (role l').sampled = none) :
    EpochInvariant role ⟨c.shared.storePageEpoch epoch page, Function.update c.threads t l'⟩ := by
  have hhistory : ∀ E, EpochEvent.boundary E ∈ (c.shared.storePageEpoch epoch page).history →
      .boundary E ∈ c.shared.history := by
    intro E h
    simpa [CoherencyState.storePageEpoch] using h
  -- A write that is not done after the step was not done before it, with more pages left.
  have hpend : ∀ u e r, (role (Function.update c.threads t l' u)).pending = some (e, r) →
      ∃ r', (role (c.threads u)).pending = some (e, r') ∧ (r ≠ [] → r' ≠ []) := by
    intro u e r h
    rcases of_update (Q := fun l => (role l).pending = some (e, r)) h with ⟨rfl, hp⟩ | ⟨-, hp⟩
    · rw [hafter] at hp
      cases hp
      exact ⟨page :: remaining, hbefore, fun _ => List.cons_ne_nil _ _⟩
    · exact ⟨r, hp, id⟩
  have hcounted : ∀ u, (role (Function.update c.threads t l' u)).counted =
      (role (c.threads u)).counted :=
    forall_update (Q := fun u l => (role l).counted = (role (c.threads u)).counted) hcount
      fun _ _ => rfl
  refine ⟨?_, ?_, hI.assigned_le, ?_, ?_, ?_, ?_, ?_, ?_, ?_, ?_⟩
  · exact hI.count.trans (count_update_of_eq (p := fun l => (role l).counted) hcount).symm
  · exact forall_update (Q := fun _ l => (role l).wrapping = false) hwrap fun u _ =>
      hI.unwrapped u
  · exact fun E h => hI.boundary_le E (hhistory E h)
  · intro u e r h
    obtain ⟨r', hp, -⟩ := hpend u e r h
    exact hI.pending_le u e r' hp
  · intro u e r h hr E hE
    obtain ⟨r', hp, hne⟩ := hpend u e r h
    exact hI.pending_newer u e r' hp (hne hr) E (hhistory E hE)
  · intro e ps h p hp
    rcases hI.stored e ps h p hp with hst | ⟨u, r, hu, hpr⟩
    · exact .inl (List.mem_append_left _ hst)
    · by_cases hut : u = t
      · subst hut
        rw [hbefore] at hu
        cases hu
        rcases List.mem_cons.mp hpr with rfl | hrest
        · exact .inl (List.mem_append_right _ (List.mem_singleton_self _))
        · exact .inr ⟨u, remaining, by simpa using hafter, hrest⟩
      · exact .inr ⟨u, r, (congrArg (fun l => (role l).pending)
          (Function.update_of_ne hut l' c.threads)).trans hu, hpr⟩
  · exact fun u E h => hI.sampled_le u E (sampled_update hsampled h)
  · intro u E h v e r hv hr hle
    obtain ⟨r', hp, hne⟩ := hpend v e r hv
    exact (hcounted v).trans
      (hI.sampled_counted u E (sampled_update hsampled h) v e r' hp (hne hr) hle)
  · intro h₁ E h₂ hsplit e ps h hle
    rcases boundary_of_snoc hsplit with ⟨-, hx, -⟩ | ⟨h₂', rfl, hold⟩
    · cases hx
    · exact hI.complete h₁ E h₂' hold e ps h hle
  · intro h₁ E h₂ hsplit e p hst
    rcases boundary_of_snoc hsplit with ⟨-, hx, -⟩ | ⟨h₂', rfl, hold⟩
    · cases hx
    · have hE : EpochEvent.boundary E ∈ c.shared.history := by
        rw [hold]
        simp
      by_cases hpage : p = page
      · subst hpage
        have := hI.pending_newer t epoch _ hbefore (List.cons_ne_nil _ _) E hE
        simpa [CoherencyState.storePageEpoch] using this
      · have hst' : EpochEvent.stored e p ∈ h₂' := by
          simpa [hpage] using hst
        simpa [CoherencyState.storePageEpoch, Function.update_of_ne hpage] using
          hI.newer h₁ E h₂' hold e p hst'

/-- A boundary is returned while no writer is counted: every write up to it is
done. -/
theorem boundary (hI : EpochInvariant role c) (epoch : ℕ) (hwrap : (role l').wrapping = false)
    (hbefore : (role (c.threads t)).sampled = some epoch) (hquiet : c.shared.activeWriters = 0)
    (hcount : (role l').counted = (role (c.threads t)).counted)
    (hnone : (role (c.threads t)).pending = none)
    (hpending : (role l').pending = none) (hsampled : (role l').sampled = none) :
    EpochInvariant role ⟨c.shared.returnBoundary epoch, Function.update c.threads t l'⟩ := by
  have hnobody : ∀ u, (role (c.threads u)).counted = false :=
    count_eq_zero_iff.mp (hI.count.symm.trans hquiet)
  have hlate : ∀ u e r, (role (c.threads u)).pending = some (e, r) → r ≠ [] → epoch < e := by
    intro u e r hu hr
    by_contra hle
    have := hI.sampled_counted t epoch hbefore u e r hu hr (not_lt.mp hle)
    rw [hnobody u] at this
    cases this
  have hhistory : ∀ E, EpochEvent.boundary E ∈ (c.shared.returnBoundary epoch).history →
      .boundary E ∈ c.shared.history ∨ E = epoch := by
    intro E h
    simpa [CoherencyState.returnBoundary] using h
  refine ⟨?_, ?_, hI.assigned_le, ?_, ?_, ?_, ?_, ?_, ?_, ?_, ?_⟩
  · exact hI.count.trans (count_update_of_eq (p := fun l => (role l).counted) hcount).symm
  · exact forall_update (Q := fun _ l => (role l).wrapping = false) hwrap fun u _ =>
      hI.unwrapped u
  · intro E h
    rcases hhistory E h with hold | rfl
    · exact hI.boundary_le E hold
    · exact hI.sampled_le t E hbefore
  · exact fun u e r h => hI.pending_le u e r (pending_update hpending h).2
  · intro u e r h hr E hE
    have hu := (pending_update hpending h).2
    rcases hhistory E hE with hold | rfl
    · exact hI.pending_newer u e r hu hr E hold
    · exact hlate u e r hu hr
  · intro e ps h p hp
    rcases hI.stored e ps h p hp with hst | ⟨u, r, hu, hpr⟩
    · exact .inl (List.mem_append_left _ hst)
    · refine .inr ⟨u, r, pending_of_ne (fun e r h => ?_) hu (List.ne_nil_of_mem hpr), hpr⟩
      rw [hnone] at h
      cases h
  · exact fun u E h => hI.sampled_le u E (sampled_update hsampled h)
  · intro u E h v e r hv hr hle
    obtain ⟨hne, hv⟩ := pending_update hpending hv
    have := hI.sampled_counted u E (sampled_update hsampled h) v e r hv hr hle
    rw [hnobody v] at this
    cases this
  · intro h₁ E h₂ hsplit e ps h hle p hp
    rcases boundary_of_snoc hsplit with ⟨-, hx, rfl⟩ | ⟨h₂', rfl, hold⟩
    · cases hx
      rcases hI.stored e ps h p hp with hst | ⟨u, r, hu, hpr⟩
      · exact hst
      · exact absurd hle (not_le.mpr (hlate u e r hu (List.ne_nil_of_mem hpr)))
    · exact hI.complete h₁ E h₂' hold e ps h hle p hp
  · intro h₁ E h₂ hsplit e p hst
    rcases boundary_of_snoc hsplit with ⟨rfl, -, -⟩ | ⟨h₂', rfl, hold⟩
    · cases hst
    · exact hI.newer h₁ E h₂' hold e p (by simpa using hst)

/-- **The step lemma.**  A step keeps the invariant, if a thread that samples the
epoch finds every write that is not done counted. -/
theorem step (hI : EpochInvariant role c)
    (heff : Effect c.shared (role (c.threads t)) s' (role l'))
    (hwrap : (role l').wrapping = false)
    (hsample : (role (c.threads t)).samples = true → ∀ u e r,
      (role (c.threads u)).pending = some (e, r) → r ≠ [] →
        (role (c.threads u)).counted = true) :
    EpochInvariant role ⟨s', Function.update c.threads t l'⟩ := by
  have hnothing : ∀ {l : Role}, l.pending = none → ∀ e r, l.pending = some (e, r) → r = [] := by
    intro l hl e r h
    rw [hl] at h
    cases h
  have hnosample : ∀ {Q : ℕ → Prop}, (role l').sampled = none →
      ∀ E, (role l').sampled = some E → Q E := by
    intro Q hl E h
    rw [hl] at h
    cases h
  have hcount := count_update (fun l => (role l).counted) c.threads t l'
  have hbalance := hI.count
  cases heff with
  | quiet hs hc hdone hpending hsampled =>
      refine hI.frame hs.2 ?_ hwrap hdone hpending (hnosample hsampled)
      exact hs.1.trans
        (hbalance.trans (count_update_of_eq (p := fun l => (role l).counted) hc).symm)
  | enter hbefore hafter hnone hpending hsampled =>
      refine hI.frame ⟨rfl, rfl, rfl, rfl⟩ ?_ hwrap (hnothing hnone) hpending (hnosample hsampled)
      rw [hbefore, hafter] at hcount
      simp only [CoherencyState.enter, Bool.toNat_false, Bool.toNat_true] at hcount ⊢
      omega
  | leave hbefore hafter hnone hpending hsampled =>
      refine hI.frame ⟨rfl, rfl, rfl, rfl⟩ ?_ hwrap (hnothing hnone) hpending (hnosample hsampled)
      rw [hbefore, hafter] at hcount
      simp only [CoherencyState.leave, Bool.toNat_false, Bool.toNat_true] at hcount ⊢
      omega
  | draw pages _ hnone hnext hc hpending hsampled =>
      exact hI.draw pages hwrap hnone hnext hc hpending hsampled
  | store epoch page remaining hbefore hafter hc hsampled =>
      exact hI.store epoch page remaining hwrap hbefore hafter hc hsampled
  | sample hsamples hc hnone hpending hsampled =>
      refine hI.frame ⟨rfl, rfl, rfl, rfl⟩ ?_ hwrap (hnothing hnone) hpending fun E hE => ?_
      · exact hbalance.trans (count_update_of_eq (p := fun l => (role l).counted) hc).symm
      · rw [hsampled] at hE
        cases hE
        exact ⟨le_rfl, hsample hsamples⟩
  | boundary epoch hbefore hquiet hc hnone hpending hsampled =>
      exact hI.boundary epoch hwrap hbefore hquiet hc hnone hpending hsampled

end EpochInvariant

end Invariant

end Memory
end XenonRecomp
