/-
# Native stores and the next boundary

A page marked by a native store can be out of sight of the next call of
`current_epoch` in two windows.  A store that made a word nonzero has not set the
summary bit yet, and another store to the word relied on it
(`native_store_missed`); or a collector has taken the page and not counted itself
yet.  In every run in which no call reads a summary word in the first window, and
none passes its first test of the writer count in the second, every store whose
marking was done when a call of `current_epoch` began is covered by the boundary
it returns (`native_store_covered`).
-/

import XenonRecomp.Memory.NativeDirty

namespace XenonRecomp
namespace Memory

open Library Library.Transition Library.Interleaving

/-! ## The invariant -/

section Invariant

variable {T : Type}

/-- **The condition on a step.**  An epoch is drawn before the counter wraps; a
summary word is read while no store is between making a word of it nonzero and
setting the word's bit; and the first test of the writer count is made while no
other call holds pages it has taken without being counted. -/
def Visible (c : Config CoherencyState NativeParty T) (ev : T × NativeChoice) : Prop :=
  ((c.threads ev.1).role.draws = true → c.shared.writeEpoch + 1 < 2 ^ 64) ∧
    (∀ i ∈ (c.threads ev.1).readsSummary, ∀ u, ∀ p ∈ (c.threads u).raises, p / 64 / 64 ≠ i) ∧
    ((c.threads ev.1).testsWriters = true → ∀ u, (c.threads u).holdsUncounted = false)

instance [Fintype T] (c : Config CoherencyState NativeParty T) : DecidablePred (Visible c) :=
  fun ev => inferInstanceAs (Decidable (((c.threads ev.1).role.draws = true →
    c.shared.writeEpoch + 1 < 2 ^ 64) ∧ (∀ i ∈ (c.threads ev.1).readsSummary, ∀ u,
      ∀ p ∈ (c.threads u).raises, p / 64 / 64 ≠ i) ∧ ((c.threads ev.1).testsWriters = true →
        ∀ u, (c.threads u).holdsUncounted = false)))

variable [Fintype T] [DecidableEq T]

/-- What holds between the dirty pages, the marks and the threads. -/
structure DirtyInvariant (c : Config CoherencyState NativeParty T) : Prop where
  epochs : EpochInvariant NativeParty.role c
  marks_lt : ∀ p before, (p, before) ∈ c.shared.marks → p < physicalPageCount
  marks_before : ∀ p before, (p, before) ∈ c.shared.marks →
    ∀ B, .boundary B ∈ before → .boundary B ∈ c.shared.history
  /-- No mark is lost. -/
  covered : ∀ p before, (p, before) ∈ c.shared.marks → Covered c p before
  marking : ∀ u n p last before, c.threads u = .storer n →
    n.marking = some (p, last, before) → p ≤ last ∧ last < physicalPageCount ∧
      ∀ B, .boundary B ∈ before → .boundary B ∈ c.shared.history
  raising : ∀ u p last before, c.threads u = .storer (.orSummary p last before) →
    Covered c p before
  /-- Somebody answers for the summary bit of every word that is not zero. -/
  summary : ∀ w, c.shared.dirtyWords w ≠ 0 → SummaryBit c.shared w ∨
    (∃ u p, (c.threads u).raises = some p ∧ p / 64 = w) ∨ ∃ u, w ∈ (c.threads u).words
  duties : ∀ u, ∀ m ∈ (c.threads u).duties, m ∈ c.shared.marks
  /-- A call that has passed a summary word has left none of its duties there. -/
  passed : ∀ u p before, (p, before) ∈ (c.threads u).duties →
    (c.threads u).passed (p / 64 / 64) → Safe c p before
  ready : ∀ u p before, (p, before) ∈ (c.threads u).duties →
    (c.threads u).role.samples = true → PublishedBy c.shared c.shared.writeEpoch p before
  sampled : ∀ u p before E, (p, before) ∈ (c.threads u).duties →
    ((c.threads u).role.sampled = some E ∨ (c.threads u).result = some E) →
      PublishedBy c.shared E p before

/-- A page in hand is in the hands of a counted writer, or of a call that has not
counted itself. -/
theorem uncounted_or_counted {l : NativeParty} {p : ℕ}
    (h : p ∈ l.taken ∨ (∃ e r, l.role.pending = some (e, r) ∧ p ∈ r) ∨ p ∈ l.words) :
    l.holdsUncounted = true ∨ l.role.counted = true := by
  cases l with
  | storer n =>
      rcases h with h | ⟨e, r, h, -⟩ | h <;> cases h
  | consumer k =>
      obtain ⟨step, wants, duties⟩ := k
      cases step with
      | takeSummary index collected =>
          cases collected with
          | nil => rcases h with h | ⟨e, r, h, -⟩ | h <;> cases h
          | cons page collected => exact .inl rfl
      | takeWord index words collected =>
          cases words with
          | cons word words => exact .inl rfl
          | nil =>
              cases collected with
              | nil => rcases h with h | ⟨e, r, h, -⟩ | h <;> cases h
              | cons page collected => exact .inl rfl
      | countIn collected => exact .inl rfl
      | drawEpoch collected => exact .inr rfl
      | storeWrapped collected => exact .inr rfl
      | storePages epoch remaining => exact .inr rfl
      | _ => rcases h with h | ⟨e, r, h, -⟩ | h <;> cases h

/-- The marks of a step: none, or the page a store has just finished with. -/
theorem nativeProgram_marks {s s' : CoherencyState} {l l' : NativeParty} {a : NativeChoice}
    (h : nativeProgram s l a = some (s', l')) :
    s'.marks = s.marks ∨ ∃ n p last before, l = .storer n ∧ n.marking = some (p, last, before) ∧
      s'.marks = (p, before) :: s.marks ∧ (PageBit s' p ∨ n = .orSummary p last before) := by
  rcases nativeProgram_cases h with ⟨-, rfl, -⟩ | ⟨n, n', rfl, rfl, hstep⟩ |
    ⟨k, k', rfl, rfl, hstep⟩
  · exact .inl rfl
  · rcases nativeStoreStep_marks hstep with hsame | ⟨p, last, before, hm, hmarks, hbit⟩
    · exact .inl hsame
    · exact .inr ⟨n, p, last, before, rfl, hm, hmarks, hbit⟩
  · exact .inl (consumerStep_duties hstep).1

/-- A thread with an epoch drawn is counted. -/
theorem native_counted_of_pending {l : NativeParty} {e : ℕ} {r : List ℕ}
    (h : l.role.pending = some (e, r)) : l.role.counted = true := by
  cases l with
  | storer n => cases h
  | consumer k => exact consumer_counted_of_pending h

/-- A store that is marking a page came from a store's step. -/
theorem nativeProgram_marking {s s' : CoherencyState} {l l' : NativeParty} {a : NativeChoice}
    {n : NativeStore} {m : ℕ × ℕ × List EpochEvent} (h : nativeProgram s l a = some (s', l'))
    (hl' : l' = .storer n) (hm : n.marking = some m) :
    ∃ n₀, l = .storer n₀ ∧ nativeStoreStep s n₀ = some (s', n) := by
  subst hl'
  rcases nativeProgram_cases h with ⟨-, -, ⟨_, _, heq⟩ | heq | heq⟩ |
    ⟨n₀, n', hl, heq, hstep⟩ | ⟨k, k', -, heq, -⟩
  · cases heq
    cases hm
  · cases heq
  · cases heq
  · cases heq
    exact ⟨n₀, hl, hstep⟩
  · rcases ofConsumer_cases k' with hk | ⟨-, hk⟩ <;> rw [hk] at heq <;> cases heq
    cases hm

/-- A duty after a step is one of a call that has just begun, or it was one before
the consumer's step. -/
theorem nativeProgram_duty {s s' : CoherencyState} {l l' : NativeParty} {a : NativeChoice}
    {m : ℕ × List EpochEvent} (h : nativeProgram s l a = some (s', l')) (hm : m ∈ l'.duties) :
    (m ∈ s.marks ∧ s' = s ∧ (∀ i, ¬l'.passed i) ∧ l'.role = Role.none ∧ l'.result = none) ∨
      ∃ k k', l = .consumer k ∧ l' = .ofConsumer k' ∧ consumerStep s k = some (s', k') ∧
        m ∈ k.duties := by
  rcases nativeProgram_cases h with ⟨-, rfl, ⟨_, _, rfl⟩ | rfl | rfl⟩ |
    ⟨n, n', -, rfl, -⟩ | ⟨k, k', rfl, rfl, hstep⟩
  · cases hm
  iterate 2
    · exact .inl ⟨hm, rfl, fun i hi => absurd hi (Nat.not_lt_zero i), rfl, rfl⟩
  · cases hm
  · exact .inr ⟨k, k', rfl, rfl, hstep, (consumerStep_duties hstep).2.1 m hm⟩

namespace DirtyInvariant

variable {c : Config CoherencyState NativeParty T} {t : T} {a : NativeChoice}
  {s' : CoherencyState} {l' : NativeParty}

/-- The marks after a step are pages of guest memory, with boundaries of the
history, and covered. -/
theorem marks_step (hI : DirtyInvariant c) (hprog : Progress c.shared (c.threads t) s' l')
    (h : nativeProgram c.shared (c.threads t) a = some (s', l')) {p : ℕ}
    {before : List EpochEvent} (hm : (p, before) ∈ s'.marks) :
    p < physicalPageCount ∧ (∀ B, .boundary B ∈ before → .boundary B ∈ s'.history) ∧
      Covered ⟨s', Function.update c.threads t l'⟩ p before := by
  have hold : (p, before) ∈ c.shared.marks → p < physicalPageCount ∧
      (∀ B, .boundary B ∈ before → .boundary B ∈ s'.history) ∧
      Covered ⟨s', Function.update c.threads t l'⟩ p before := fun hmem =>
    ⟨hI.marks_lt p before hmem,
      fun B hB => hprog.history _ (hI.marks_before p before hmem B hB),
      (hI.covered p before hmem).step hI.epochs hprog (hI.marks_before p before hmem)⟩
  rcases nativeProgram_marks h with hsame | ⟨n, q, last, b, hl, hmarking, hmarks, hbit⟩
  · exact hold (hsame ▸ hm)
  · rw [hmarks] at hm
    rcases List.mem_cons.mp hm with heq | hmem
    · cases heq
      obtain ⟨hle, hlt, hb⟩ := hI.marking t n p last before hl hmarking
      refine ⟨lt_of_le_of_lt hle hlt, fun B hB => hprog.history _ (hb B hB), ?_⟩
      rcases hbit with hbit | rfl
      · exact .inr hbit
      · exact (hI.raising t p last before hl).step hI.epochs hprog hb
    · exact hold hmem

/-- Somebody still answers for every word that is not zero. -/
theorem summary_step (hI : DirtyInvariant c) (hprog : Progress c.shared (c.threads t) s' l')
    {w : ℕ} (hw : s'.dirtyWords w ≠ 0) :
    SummaryBit s' w ∨ (∃ u p, (Function.update c.threads t l' u).raises = some p ∧ p / 64 = w) ∨
      ∃ u, w ∈ (Function.update c.threads t l' u).words := by
  rcases hprog.summary w hw with ⟨p, hraises, hp⟩ | ⟨hold, hbit, hraised, hwords⟩
  · exact .inr (.inl ⟨t, p, by simpa using hraises, hp⟩)
  · rcases hI.summary w hold with hb | ⟨u, p, hu, hp⟩ | ⟨u, hu⟩
    · rcases hbit hb with hb' | hmem
      · exact .inl hb'
      · exact .inr (.inr ⟨t, by simpa using hmem⟩)
    · by_cases hut : u = t
      · subst hut
        exact .inl (hraised p hu hp)
      · exact .inr (.inl ⟨u, p, by simpa [Function.update_of_ne hut] using hu, hp⟩)
    · by_cases hut : u = t
      · subst hut
        exact .inr (.inr ⟨u, by simpa using hwords hu⟩)
      · exact .inr (.inr ⟨u, by simpa [Function.update_of_ne hut] using hu⟩)

/-- A call that passes a summary word leaves none of its duties behind: the mark's
bit would be in sight. -/
theorem passed_step (hI : DirtyInvariant c) (hP : Visible c (t, a))
    (hprog : Progress c.shared (c.threads t) s' l') {k k' : Consumer}
    (hl : c.threads t = .consumer k) (hl' : l' = .ofConsumer k')
    (hstep : consumerStep c.shared k = some (s', k')) {p : ℕ} {before : List EpochEvent}
    (hduty : (p, before) ∈ k.duties) (hpassed : k'.passed (p / 64 / 64)) :
    Safe ⟨s', Function.update c.threads t l'⟩ p before := by
  have hmark : (p, before) ∈ c.shared.marks := hI.duties t _ (by rw [hl]; exact hduty)
  have hbefore := hI.marks_before p before hmark
  have hindex : p / 64 / 64 < summaryWordCount := by
    have := hI.marks_lt p before hmark
    simp only [physicalPageCount, summaryWordCount] at *
    omega
  have hsafe : Safe c p before → Safe ⟨s', Function.update c.threads t l'⟩ p before := fun h =>
    h.step hI.epochs hprog hbefore
  rcases consumerStep_passed hstep hindex hpassed with hold | ⟨hreads, hseen⟩
  · exact hsafe (hI.passed t p before (by rw [hl]; exact hduty) (by rw [hl]; exact hold))
  · rcases hI.covered p before hmark with hs | hbit
    · exact hsafe hs
    · have hword : c.shared.dirtyWords (p / 64) ≠ 0 := by
        intro hzero
        rw [PageBit, hzero] at hbit
        simp at hbit
      rcases hI.summary (p / 64) hword with hb | ⟨u, q, hu, hq⟩ | ⟨u, hu⟩
      · rcases hseen with hzero | hnamed
        · rw [SummaryBit, hzero] at hb
          simp at hb
        · rcases hprog.bits p hbit with hbit' | htaken
          · refine .inr (.inr ⟨hbit', t, ?_⟩)
            have hmem := hnamed (p / 64) rfl hb
            rcases ofConsumer_cases k' with heq | ⟨hidle, -⟩
            · simpa [hl', heq, NativeParty.words] using hmem
            · rw [Consumer.words, hidle] at hmem
              cases hmem
          · exact .inr (.inl (held_self (.inl htaken)))
      · have hne := hP.2.1 (p / 64 / 64) (by rw [hl]; exact hreads) u q hu
        rw [hq] at hne
        exact absurd rfl hne
      · exact hsafe (.inr (.inr ⟨hbit, u, hu⟩))

omit [DecidableEq T] in
/-- A call that finds no writer counted finds its duties done. -/
theorem ready_step (hI : DirtyInvariant c) (hP : Visible c (t, a)) {k : Consumer}
    (hl : c.threads t = .consumer k) (htest : k.step = .loadWritersBefore)
    (hzero : c.shared.activeWriters = 0) {p : ℕ} {before : List EpochEvent}
    (hduty : (p, before) ∈ k.duties) :
    PublishedBy c.shared c.shared.writeEpoch p before := by
  obtain ⟨step, wants, duties⟩ := k
  subst htest
  have hsafe : Safe c p before :=
    hI.passed t p before (by rw [hl]; exact hduty) (by rw [hl]; exact trivial)
  have hnobody : ∀ u, (c.threads u).role.counted = false :=
    count_eq_zero_iff.mp (hI.epochs.count.symm.trans hzero)
  have huncounted : ∀ u, (c.threads u).holdsUncounted = false := hP.2.2 (by rw [hl]; rfl)
  have hempty : ∀ u q, ¬(q ∈ (c.threads u).taken ∨
      (∃ e r, (c.threads u).role.pending = some (e, r) ∧ q ∈ r) ∨ q ∈ (c.threads u).words) := by
    intro u q hq
    rcases uncounted_or_counted hq with h | h
    · rw [huncounted u] at h
      cases h
    · rw [hnobody u] at h
      cases h
  rcases hsafe with hpub | ⟨u, hu⟩ | ⟨-, u, hu⟩
  · exact hpub
  · exact absurd (hu.imp_right .inl) (hempty u p)
  · exact absurd (.inr (.inr hu)) (hempty u (p / 64))

/-- What a store is marking after a step are pages of guest memory. -/
theorem marking_step (hI : DirtyInvariant c) (hprog : Progress c.shared (c.threads t) s' l')
    (h : nativeProgram c.shared (c.threads t) a = some (s', l')) {u : T} {n : NativeStore}
    {p last : ℕ} {before : List EpochEvent}
    (hu : Function.update c.threads t l' u = .storer n)
    (hm : n.marking = some (p, last, before)) : p ≤ last ∧ last < physicalPageCount ∧
      ∀ B, .boundary B ∈ before → .boundary B ∈ s'.history := by
  rcases of_update (Q := fun l => l = NativeParty.storer n) hu with ⟨rfl, hown⟩ | ⟨-, hother⟩
  · obtain ⟨m, hl, hstep⟩ := nativeProgram_marking h hown hm
    rcases nativeStoreStep_marking hstep hm with ⟨q, hq, hle⟩ | ⟨hle, hlt, rfl⟩
    · obtain ⟨hqle, hlt, hb⟩ := hI.marking u m q last before hl hq
      refine ⟨?_, hlt, fun B hB => hprog.history _ (hb B hB)⟩
      rcases hle with rfl | hle
      · exact hqle
      · exact hle
    · exact ⟨hle, hlt, fun B hB => hprog.history _ hB⟩
  · obtain ⟨hle, hlt, hb⟩ := hI.marking u n p last before hother hm
    exact ⟨hle, hlt, fun B hB => hprog.history _ (hb B hB)⟩

/-- A store that answers for a summary bit has its page covered. -/
theorem raising_step (hI : DirtyInvariant c) (hprog : Progress c.shared (c.threads t) s' l')
    (h : nativeProgram c.shared (c.threads t) a = some (s', l')) {u : T} {p last : ℕ}
    {before : List EpochEvent}
    (hu : Function.update c.threads t l' u = .storer (.orSummary p last before)) :
    Covered ⟨s', Function.update c.threads t l'⟩ p before := by
  rcases of_update (Q := fun l => l = NativeParty.storer (.orSummary p last before)) hu with
    ⟨rfl, hown⟩ | ⟨-, hother⟩
  · obtain ⟨m, -, hstep⟩ := nativeProgram_marking h hown rfl
    exact .inr (nativeStoreStep_raising hstep)
  · obtain ⟨-, -, hb⟩ := hI.marking u _ p last before hother rfl
    exact (hI.raising u p last before hother).step hI.epochs hprog hb

/-- Everybody's duties are marks. -/
theorem duties_step (hI : DirtyInvariant c) (hprog : Progress c.shared (c.threads t) s' l')
    (h : nativeProgram c.shared (c.threads t) a = some (s', l')) {u : T}
    {m : ℕ × List EpochEvent} (hm : m ∈ (Function.update c.threads t l' u).duties) :
    m ∈ s'.marks := by
  rcases of_update (Q := fun l : NativeParty => m ∈ l.duties) hm with ⟨rfl, hown⟩ | ⟨-, hother⟩
  · rcases nativeProgram_duty h hown with ⟨hmark, -⟩ | ⟨k, k', hl, -, -, hk⟩
    · exact hprog.marks m hmark
    · exact hprog.marks m (hI.duties u m (by rw [hl]; exact hk))
  · exact hprog.marks m (hI.duties u m hother)

/-- A duty at a summary word its call has passed is safe. -/
theorem safe_step (hI : DirtyInvariant c) (hP : Visible c (t, a))
    (hprog : Progress c.shared (c.threads t) s' l')
    (h : nativeProgram c.shared (c.threads t) a = some (s', l')) {u : T} {p : ℕ}
    {before : List EpochEvent} (hduty : (p, before) ∈ (Function.update c.threads t l' u).duties)
    (hpassed : (Function.update c.threads t l' u).passed (p / 64 / 64)) :
    Safe ⟨s', Function.update c.threads t l'⟩ p before := by
  rcases of_update (Q := fun l : NativeParty => (p, before) ∈ l.duties ∧ l.passed (p / 64 / 64))
    ⟨hduty, hpassed⟩ with ⟨rfl, hd, hp⟩ | ⟨-, hd, hp⟩
  · rcases nativeProgram_duty h hd with ⟨-, -, hfresh, -⟩ | ⟨k, k', hl, rfl, hstep, hk⟩
    · exact absurd hp (hfresh _)
    · refine hI.passed_step hP hprog hl rfl hstep hk ?_
      rcases ofConsumer_cases k' with heq | ⟨-, heq⟩ <;> rw [heq] at hp
      · exact hp
      · cases hp
  · exact (hI.passed u p before hd hp).step hI.epochs hprog
      (hI.marks_before p before (hI.duties u _ hd))

/-- A call about to sample the epoch has its duties done. -/
theorem samples_step (hI : DirtyInvariant c) (hP : Visible c (t, a))
    (hprog : Progress c.shared (c.threads t) s' l')
    (h : nativeProgram c.shared (c.threads t) a = some (s', l')) {u : T} {p : ℕ}
    {before : List EpochEvent} (hduty : (p, before) ∈ (Function.update c.threads t l' u).duties)
    (hsamples : (Function.update c.threads t l' u).role.samples = true) :
    PublishedBy s' s'.writeEpoch p before := by
  rcases of_update (Q := fun l : NativeParty => (p, before) ∈ l.duties ∧ l.role.samples = true)
    ⟨hduty, hsamples⟩ with ⟨rfl, hd, hp⟩ | ⟨-, hd, hp⟩
  · rcases nativeProgram_duty h hd with ⟨-, -, -, hrole, -⟩ | ⟨k, k', hl, rfl, hstep, hk⟩
    · rw [hrole] at hp
      cases hp
    · rw [native_role_ofConsumer] at hp
      obtain ⟨htest, hzero⟩ := (consumerStep_duties hstep).2.2.1 hp
      exact (hI.ready_step hP hl htest hzero hk).mono hprog.epoch_le hprog.history
  · exact (hI.ready u p before hd hp).mono hprog.epoch_le hprog.history

/-- A call that has sampled an epoch has its duties done by it. -/
theorem sampled_step (hI : DirtyInvariant c) (hprog : Progress c.shared (c.threads t) s' l')
    (h : nativeProgram c.shared (c.threads t) a = some (s', l')) {u : T} {p E : ℕ}
    {before : List EpochEvent} (hduty : (p, before) ∈ (Function.update c.threads t l' u).duties)
    (hE : (Function.update c.threads t l' u).role.sampled = some E ∨
      (Function.update c.threads t l' u).result = some E) :
    PublishedBy s' E p before := by
  rcases of_update (Q := fun l : NativeParty => (p, before) ∈ l.duties ∧
    (l.role.sampled = some E ∨ l.result = some E)) ⟨hduty, hE⟩ with ⟨rfl, hd, hp⟩ | ⟨-, hd, hp⟩
  · rcases nativeProgram_duty h hd with ⟨-, -, -, hrole, hresult⟩ | ⟨k, k', hl, rfl, hstep, hk⟩
    · rw [hrole, hresult] at hp
      rcases hp with hp | hp <;> cases hp
    · obtain ⟨-, -, -, hsampled, hresult⟩ := consumerStep_duties hstep
      have hd' : (p, before) ∈ (c.threads u).duties := by
        rw [hl]
        exact hk
      rcases hp with hp | hp
      · rw [native_role_ofConsumer] at hp
        obtain ⟨hsamples, rfl, rfl⟩ := hsampled E hp
        exact hI.ready u p before hd' (by rw [hl]; exact hsamples)
      · refine (hI.sampled u p before E hd' (.inl ?_)).mono le_rfl hprog.history
        rw [hl]
        exact hresult E hp
  · exact (hI.sampled u p before E hd hp).mono le_rfl hprog.history

/-- **The step lemma.**  A step that meets the condition keeps the invariant. -/
theorem step (hI : DirtyInvariant c) (hP : Visible c (t, a))
    (h : nativeProgram c.shared (c.threads t) a = some (s', l')) :
    DirtyInvariant ⟨s', Function.update c.threads t l'⟩ := by
  obtain ⟨heff, hwrap⟩ := nativeProgram_effect hP.1 (hI.epochs.unwrapped t) h
  have hprog := nativeProgram_progress hP.1 (hI.epochs.unwrapped t) h
  have hcounted : ∀ u e r, (c.threads u).role.pending = some (e, r) → r ≠ [] →
      (c.threads u).role.counted = true := fun u e r hu _ => native_counted_of_pending hu
  exact {
    epochs := hI.epochs.step heff hwrap fun _ => hcounted
    marks_lt := fun p b hm => (hI.marks_step hprog h hm).1
    marks_before := fun p b hm => (hI.marks_step hprog h hm).2.1
    covered := fun p b hm => (hI.marks_step hprog h hm).2.2
    marking := fun u n p last b hu hm => hI.marking_step hprog h hu hm
    raising := fun u p last b hu => hI.raising_step hprog h hu
    summary := fun w hw => hI.summary_step hprog hw
    duties := fun u m hm => hI.duties_step hprog h hm
    passed := fun u p b hd hp => hI.safe_step hP hprog h hd hp
    ready := fun u p b hd hs => hI.samples_step hP hprog h hd hs
    sampled := fun u p b E hd hE => hI.sampled_step hprog h hd hE }

end DirtyInvariant

/-! ## Collections one after the other -/

/-- A step takes the collector's lock while it is free, gives it back, or leaves
the lock alone. -/
theorem nativeProgram_lock {s s' : CoherencyState} {l l' : NativeParty} {a : NativeChoice}
    (h : nativeProgram s l a = some (s', l')) :
    (l'.locked = l.locked ∧ s'.collectLocked = s.collectLocked) ∨
      (s.collectLocked = false ∧ s'.collectLocked = true) ∨
      (l.locked = true ∧ l'.locked = false) := by
  rcases nativeProgram_cases h with ⟨rfl, rfl, ⟨_, _, rfl⟩ | rfl | rfl⟩ |
    ⟨n, n', rfl, rfl, hstep⟩ | ⟨k, k', rfl, rfl, hstep⟩
  iterate 3
    · exact .inl ⟨rfl, rfl⟩
  · exact .inl ⟨rfl, (nativeStoreStep_same hstep).2⟩
  · obtain ⟨step, wants, duties⟩ := k
    cases step with
    | lock =>
        simp only [consumerStep] at hstep
        split at hstep <;> cases hstep
        next hfree => exact .inr (.inl ⟨by simpa using hfree, rfl⟩)
    | unlock =>
        cases hstep
        cases wants <;> exact .inr (.inr ⟨rfl, rfl⟩)
    | scanSummary index =>
        simp only [consumerStep] at hstep
        split at hstep
        · cases hstep
          cases wants <;> exact .inl ⟨rfl, rfl⟩
        · split at hstep <;> cases hstep <;> exact .inl ⟨rfl, rfl⟩
    | _ =>
        simp only [consumerStep] at hstep
        (repeat' split at hstep) <;> cases hstep <;> exact .inl ⟨rfl, rfl⟩

/-- Only the holder of the collector's lock draws and publishes. -/
theorem locked_of_role {l : NativeParty}
    (h : l.role.draws = true ∨ ∃ e r, l.role.pending = some (e, r)) : l.locked = true := by
  cases l with
  | storer n => rcases h with h | ⟨e, r, h⟩ <;> cases h
  | consumer k =>
      obtain ⟨step, wants, duties⟩ := k
      cases step with
      | drawEpoch collected => rfl
      | storePages epoch remaining => rfl
      | _ => rcases h with h | ⟨e, r, h⟩ <;> cases h

omit [Fintype T] in
/-- Collections draw and publish one after the other, so page epochs only grow. -/
structure OrderInvariant (c : Config CoherencyState NativeParty T) : Prop where
  flag : ∀ u, (c.threads u).locked = true → c.shared.collectLocked = true
  unique : ∀ u v, (c.threads u).locked = true → (c.threads v).locked = true → u = v
  now : ∀ u e r, (c.threads u).role.pending = some (e, r) → e = c.shared.writeEpoch
  page_le : ∀ p, c.shared.pageEpochs p ≤ c.shared.writeEpoch
  stored_le : ∀ e p, .stored e p ∈ c.shared.history → e ≤ c.shared.pageEpochs p

namespace OrderInvariant

variable {c : Config CoherencyState NativeParty T} {t : T} {a : NativeChoice}
  {s' : CoherencyState} {l' : NativeParty}

omit [Fintype T] in
/-- The lock after a step. -/
theorem lock_step (hI : OrderInvariant c)
    (h : nativeProgram c.shared (c.threads t) a = some (s', l')) :
    (∀ u, (Function.update c.threads t l' u).locked = true → s'.collectLocked = true) ∧
      ∀ u v, (Function.update c.threads t l' u).locked = true →
        (Function.update c.threads t l' v).locked = true → u = v := by
  have hcases : ∀ u, (Function.update c.threads t l' u).locked = true →
      (u = t ∧ l'.locked = true) ∨ u ≠ t ∧ (c.threads u).locked = true := fun u hu =>
    of_update (Q := fun l : NativeParty => l.locked = true) hu
  rcases nativeProgram_lock h with ⟨hsame, hflag⟩ | ⟨hfree, htaken⟩ | ⟨hheld, hgiven⟩
  · refine ⟨fun u hu => ?_, fun u v hu hv => ?_⟩
    · rw [hflag]
      rcases hcases u hu with ⟨rfl, hl⟩ | ⟨-, hl⟩
      · exact hI.flag u (hsame ▸ hl)
      · exact hI.flag u hl
    · have hold : ∀ {u}, (Function.update c.threads t l' u).locked = true →
          (c.threads u).locked = true := by
        intro u hu
        rcases hcases u hu with ⟨rfl, hl⟩ | ⟨-, hl⟩
        · exact hsame ▸ hl
        · exact hl
      exact hI.unique u v (hold hu) (hold hv)
  · have hnobody : ∀ u, (c.threads u).locked ≠ true := fun u hu => by
      rw [hI.flag u hu] at hfree
      cases hfree
    have hmine : ∀ {u}, (Function.update c.threads t l' u).locked = true → u = t := by
      intro u hu
      rcases hcases u hu with ⟨rfl, -⟩ | ⟨-, hl⟩
      · rfl
      · exact absurd hl (hnobody u)
    exact ⟨fun u _ => htaken, fun u v hu hv => (hmine hu).trans (hmine hv).symm⟩
  · have hnobody : ∀ u, (Function.update c.threads t l' u).locked ≠ true := by
      intro u hu
      rcases hcases u hu with ⟨rfl, hl⟩ | ⟨hne, hl⟩
      · rw [hgiven] at hl
        cases hl
      · exact hne (hI.unique u t hl hheld)
    exact ⟨fun u hu => absurd hu (hnobody u), fun u v hu => absurd hu (hnobody u)⟩

omit [Fintype T] in
/-- A step keeps the order. -/
theorem step (hI : OrderInvariant c)
    (heff : Effect c.shared (c.threads t).role s' l'.role)
    (h : nativeProgram c.shared (c.threads t) a = some (s', l')) :
    OrderInvariant ⟨s', Function.update c.threads t l'⟩ := by
  obtain ⟨hflag, hunique⟩ := hI.lock_step h
  have hpend : ∀ {u e r}, (Function.update c.threads t l' u).role.pending = some (e, r) →
      (u = t ∧ l'.role.pending = some (e, r)) ∨
        u ≠ t ∧ (c.threads u).role.pending = some (e, r) := fun {u e r} hu =>
    of_update (Q := fun l : NativeParty => l.role.pending = some (e, r)) hu
  -- A step that draws nothing and stores nothing keeps the epochs of pages and threads.
  have hframe : s'.writeEpoch = c.shared.writeEpoch → s'.pageEpochs = c.shared.pageEpochs →
      (∀ e p, .stored e p ∈ s'.history → .stored e p ∈ c.shared.history) →
      l'.role.pending = none → OrderInvariant ⟨s', Function.update c.threads t l'⟩ := by
    intro hepoch hpages hhistory hnone
    refine ⟨hflag, hunique, fun u e r hu => ?_, fun p => ?_, fun e p hst => ?_⟩
    · rw [hepoch]
      rcases hpend hu with ⟨-, hp⟩ | ⟨-, hp⟩
      · rw [hnone] at hp
        cases hp
      · exact hI.now u e r hp
    · rw [hepoch, hpages]
      exact hI.page_le p
    · rw [hpages]
      exact hI.stored_le e p (hhistory e p hst)
  cases heff with
  | quiet hs hc hdone hpending hsampled =>
      exact hframe hs.2.1 hs.2.2.1 (fun e p hst => hs.2.2.2.2 ▸ hst) hpending
  | enter _ _ _ hpending _ => exact hframe rfl rfl (fun _ _ hst => hst) hpending
  | leave _ _ _ hpending _ => exact hframe rfl rfl (fun _ _ hst => hst) hpending
  | sample _ _ _ hpending _ => exact hframe rfl rfl (fun _ _ hst => hst) hpending
  | boundary epoch _ _ _ _ hpending _ =>
      exact hframe rfl rfl (fun e p hst => by
        simpa [CoherencyState.returnBoundary] using hst) hpending
  | draw pages hdraws hnone hnext hcount hpending hsampled =>
      refine ⟨hflag, hunique, fun u e r hu => ?_, fun p => ?_, hI.stored_le⟩
      · rcases hpend hu with ⟨-, hp⟩ | ⟨hne, hp⟩
        · rw [hpending] at hp
          cases hp
          exact hnext.symm
        · exact absurd (hI.unique u t (locked_of_role (.inr ⟨e, r, hp⟩))
            (locked_of_role (.inl hdraws))) hne
      · exact (hI.page_le p).trans ((Nat.le_succ _).trans hnext.ge)
  | store epoch page remaining hbefore hafter hcount hsampled =>
      have hepoch : epoch = c.shared.writeEpoch := hI.now t epoch _ hbefore
      refine ⟨hflag, hunique, fun u e r hu => ?_, fun p => ?_, fun e p hst => ?_⟩
      · rcases hpend hu with ⟨-, hp⟩ | ⟨-, hp⟩
        · rw [hafter] at hp
          cases hp
          exact hepoch
        · exact hI.now u e r hp
      · by_cases hp : p = page
        · subst hp
          simpa [CoherencyState.storePageEpoch] using hepoch.le
        · simpa [CoherencyState.storePageEpoch, Function.update_of_ne hp] using hI.page_le p
      · have hcase : .stored e p ∈ c.shared.history ∨ e = epoch ∧ p = page := by
          simpa [CoherencyState.storePageEpoch] using hst
        by_cases hp : p = page
        · subst hp
          have hle : e ≤ epoch := by
            rcases hcase with hold | ⟨rfl, -⟩
            · exact ((hI.stored_le e p hold).trans (hI.page_le p)).trans hepoch.ge
            · exact le_rfl
          simpa [CoherencyState.storePageEpoch] using hle
        · have hold := hcase.resolve_right fun h => hp h.2
          simpa [CoherencyState.storePageEpoch, Function.update_of_ne hp] using
            hI.stored_le e p hold

end OrderInvariant

/-! ## Runs -/

/-- A new memory system in native mode, every thread idle. -/
def launchNative (T : Type) : Config CoherencyState NativeParty T :=
  ⟨CoherencyState.init, fun _ => .storer .idle⟩

omit [DecidableEq T] in
theorem dirtyInvariant_launch : DirtyInvariant (launchNative T) where
  epochs := {
    count := (count_eq_zero_iff.mpr fun _ => rfl).symm
    unwrapped := fun _ => rfl
    assigned_le := nofun
    boundary_le := nofun
    pending_le := nofun
    pending_newer := nofun
    stored := nofun
    sampled_le := nofun
    sampled_counted := nofun
    complete := fun h₁ E h₂ h => by simp [launchNative, CoherencyState.init] at h
    newer := fun h₁ E h₂ h => by simp [launchNative, CoherencyState.init] at h }
  marks_lt := nofun
  marks_before := nofun
  covered := nofun
  marking := fun u n p last before hu hm => by
    cases hu
    cases hm
  raising := nofun
  summary := fun w hw => absurd rfl hw
  duties := nofun
  passed := nofun
  ready := nofun
  sampled := nofun

omit [Fintype T] [DecidableEq T] in
theorem orderInvariant_launch : OrderInvariant (launchNative T) :=
  ⟨nofun, nofun, nofun, fun _ => le_rfl, nofun⟩

/-- **The next boundary covers every native store.**  Any number of native stores
and calls of `current_epoch` and `collect_cpu_dirty_pages` run in any order; in
every run whose steps meet `Visible`, when a call of `current_epoch` returns `E`,
every page whose marking was done when the call began has been given an epoch
`e ≤ E` that is newer than every boundary returned before the store wrote its
bytes, and the page's epoch is not older than that. -/
theorem native_store_covered (es : List (T × NativeChoice))
    (hP : Along (step nativeProgram) Visible (launchNative T) es) (t : T) (E p : ℕ)
    (before : List EpochEvent)
    (hreturned : ((run (step nativeProgram) (launchNative T) es).threads t).result = some E)
    (hmarked : (p, before) ∈ ((run (step nativeProgram) (launchNative T) es).threads t).duties) :
    ∃ e, (∀ B, .boundary B ∈ before → B < e) ∧ e ≤ E ∧
      .stored e p ∈ (run (step nativeProgram) (launchNative T) es).shared.history ∧
      e ≤ (run (step nativeProgram) (launchNative T) es).shared.pageEpochs p := by
  have hI := run_invariant (I := fun c => DirtyInvariant c ∧ OrderInvariant c) (P := Visible)
    (fun c t a s l hI hPe hprog => ?_) _ es ⟨dirtyInvariant_launch, orderInvariant_launch⟩ hP
  · obtain ⟨e, hnew, hle, hst⟩ := hI.1.sampled t p before E hmarked (.inr hreturned)
    exact ⟨e, hnew, hle, hst, hI.2.stored_le e p hst⟩
  · obtain ⟨heff, -⟩ := nativeProgram_effect hPe.1 (hI.1.epochs.unwrapped t) hprog
    exact ⟨hI.1.step hPe hprog, hI.2.step heff hprog⟩

end Invariant

/-- A call of one thread and all of its steps. -/
def wholeNativeCall {T : Type} (t : T) (c : NativeCall) (count : ℕ) : List (T × NativeChoice) :=
  (t, .call c) :: List.replicate count (t, .next)

/-- A store to page one and the boundary after it. -/
theorem native_store_covered_single :
    ∃ e, (∀ B, .boundary B ∈ ([] : List EpochEvent) → B < e) ∧ e ≤ 1 ∧
      .stored e 1 ∈ (run (step nativeProgram) (launchNative Unit)
        (wholeNativeCall () (.store 0x1000 4) 4 ++
          wholeNativeCall () .currentEpoch 77)).shared.history ∧
      e ≤ (run (step nativeProgram) (launchNative Unit)
        (wholeNativeCall () (.store 0x1000 4) 4 ++
          wholeNativeCall () .currentEpoch 77)).shared.pageEpochs 1 := by
  refine native_store_covered (T := Unit)
    (wholeNativeCall () (.store 0x1000 4) 4 ++ wholeNativeCall () .currentEpoch 77) ?_ () 1 1 []
    ?_ ?_
  all_goals set_option maxRecDepth 40000 in decide

/-- Thread zero makes the first dirty word nonzero with page one and is delayed
before the summary; thread one marks page two in the same word and returns; then
thread two asks for a boundary. -/
def missedNativeStore : List (Fin 3 × NativeChoice) :=
  wholeNativeCall 0 (.store 0x1000 4) 3 ++ wholeNativeCall 1 (.store 0x2000 4) 3 ++
    wholeNativeCall 2 .currentEpoch 36

/-- **A boundary misses a native store.**  The store to page two is done when the
call begins, and the boundary zero it returns is older than any epoch: the page
has none. -/
theorem native_store_missed :
    let c := run (step nativeProgram) (launchNative (Fin 3)) missedNativeStore
    (c.threads 2).result = some 0 ∧ (2, []) ∈ (c.threads 2).duties ∧
      c.shared.pageEpochs 2 = 0 ∧ ¬∃ e, .stored e 2 ∈ c.shared.history := by
  have hhistory : (run (step nativeProgram) (launchNative (Fin 3))
      missedNativeStore).shared.history = [.boundary 0] := by
    set_option maxRecDepth 40000 in decide
  refine ⟨?_, ?_, ?_, ?_⟩
  iterate 3 set_option maxRecDepth 40000 in decide
  rintro ⟨e, he⟩
  rw [hhistory] at he
  simp at he

end Memory
end XenonRecomp
