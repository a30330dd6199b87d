/-
# Exact history from the journal

What `collect_exact_dirty_writes` returns when it succeeds.  The reader checks the
epoch word of a slot before and after it loads the range, but a writer of a later
lap replaces range and domain before it touches the epoch word, and the domain is
loaded after the last check.  So the words are those of one write as long as no
writer of another lap is at work in the slot at the moments of the two loads, and
writers of different laps are not in one slot at a time (`Undisturbed`).

`Kept` says what the writers keep: a slot holds the words of the write whose epoch
it shows, but for the words that a writer in the slot has already replaced.
-/

import XenonRecomp.Memory.WriteJournal

namespace XenonRecomp
namespace Memory

open Library Library.Transition Library.Interleaving

/-- The epoch that a writer drew and has not stored, with its entry. -/
def JournalThread.pending : JournalThread → Option (ℕ × JournalEntry)
  | .storeRange _ epoch entry | .storeDomain _ epoch entry | .storeEpoch _ epoch entry =>
      some (epoch, entry)
  | _ => none

/-- The stores to a slot that a writer has made before it stores the epoch. -/
def JournalThread.storesTo (slot : ℕ) : JournalThread → ℕ
  | .storeDomain _ epoch _ => if journalSlot epoch = slot then 1 else 0
  | .storeEpoch _ epoch _ => if journalSlot epoch = slot then 2 else 0
  | _ => 0

/-- A writer that has to store the epoch one after the counter wrapped. -/
def JournalThread.wrapping : JournalThread → Bool
  | .storeWrapped _ _ => true
  | _ => false

section Threads

variable {T : Type} [DecidableEq T]

/-- The condition on a step: the epoch does not run out of 64 bits, a writer enters a slot
that no writer is in, a reader loads a range while no writer is in the slot, and the domain
while the slot still shows its epoch and no writer has replaced the domain. -/
def Undisturbed (c : Config JournalState JournalThread T) (e : T × JournalChoice) : Prop :=
  match c.threads e.1, e.2 with
  | .drawEpoch _ _, .next => c.shared.writeEpoch + 2 < 2 ^ 64
  | .storeRange _ epoch _, .next => ∀ u, (c.threads u).storesTo (journalSlot epoch) = 0
  | .loadRange read, .next => ∀ u, (c.threads u).storesTo (journalSlot read.epoch) = 0
  | .loadDomain read _, .next =>
      c.shared.epochs (journalSlot read.epoch) = read.epoch ∧
        ∀ u, (c.threads u).storesTo (journalSlot read.epoch) ≠ 2
  | _, _ => True

/-- What the writers keep. -/
structure Kept (c : Config JournalState JournalThread T) : Prop where
  bound : c.shared.writeEpoch + 1 < 2 ^ 64
  unwrapped : ∀ t, (c.threads t).wrapping = false
  owned : ∀ e x, (e, x) ∈ c.shared.owners → 0 < e ∧ e ≤ c.shared.writeEpoch
  unique : ∀ e x y, (e, x) ∈ c.shared.owners → (e, y) ∈ c.shared.owners → x = y
  pending_owned : ∀ t e x, (c.threads t).pending = some (e, x) → (e, x) ∈ c.shared.owners
  pending_apart : ∀ t u e x y, (c.threads t).pending = some (e, x) →
    (c.threads u).pending = some (e, y) → t = u
  /-- One writer is in a slot. -/
  apart : ∀ t u slot, (c.threads t).storesTo slot ≠ 0 → (c.threads u).storesTo slot ≠ 0 → t = u
  /-- A writer in a slot finds there what it stored. -/
  stored : ∀ t e x, (c.threads t).pending = some (e, x) →
    ((c.threads t).storesTo (journalSlot e) ≠ 0 → c.shared.ranges (journalSlot e) = x.range) ∧
    ((c.threads t).storesTo (journalSlot e) = 2 → c.shared.domains (journalSlot e) = x.domain)
  /-- A slot holds the words of its write, but for those that a writer has replaced. -/
  slots : ∀ slot, c.shared.epochs slot ≠ 0 →
    journalSlot (c.shared.epochs slot) = slot ∧
    (∀ t x, (c.threads t).pending ≠ some (c.shared.epochs slot, x)) ∧
    ∃ x, (c.shared.epochs slot, x) ∈ c.shared.owners ∧
      ((∀ t, (c.threads t).storesTo slot = 0) → c.shared.ranges slot = x.range) ∧
      ((∀ t, (c.threads t).storesTo slot ≠ 2) → c.shared.domains slot = x.domain)

omit [DecidableEq T] in
theorem kept_launch : Kept (launchJournal T) where
  bound := Nat.lt_of_sub_eq_succ rfl
  unwrapped := fun _ => rfl
  owned := nofun
  unique := nofun
  pending_owned := nofun
  pending_apart := nofun
  apart := fun _ _ _ h => absurd rfl h
  stored := nofun
  slots := fun _ h => absurd rfl h

/-! ### What one step does to the journal -/

/-- What a step does to the words of the journal. -/
inductive JournalEffect (s : JournalState) (l : JournalThread) :
    JournalState → JournalThread → Prop where
  /-- A step that leaves the words alone. -/
  | quiet {s' : JournalState} {l' : JournalThread} (hpending : l.pending = none)
      (hpending' : l'.pending = none) (hwrapping : l'.wrapping = false) (hepochs : s'.epochs = s.epochs)
      (hranges : s'.ranges = s.ranges) (hdomains : s'.domains = s.domains)
      (howners : s'.owners = s.owners) (hmono : s.writeEpoch ≤ s'.writeEpoch)
      (hbound : s'.writeEpoch + 1 < 2 ^ 64) : JournalEffect s l s' l'
  | draw (counted : Bool) (entry : JournalEntry) (hpending : l.pending = none)
      (hbound : s.writeEpoch + 2 < 2 ^ 64) :
      JournalEffect s l
        { s with
          writeEpoch := s.writeEpoch + 1
          owners := (s.writeEpoch + 1, entry) :: s.owners }
        (.storeRange counted (s.writeEpoch + 1) entry)
  | range (counted : Bool) (epoch : ℕ) (entry : JournalEntry)
      (hl : l = .storeRange counted epoch entry) :
      JournalEffect s l
        { s with ranges := Function.update s.ranges (journalSlot epoch) entry.range }
        (.storeDomain counted epoch entry)
  | domain (counted : Bool) (epoch : ℕ) (entry : JournalEntry)
      (hl : l = .storeDomain counted epoch entry) :
      JournalEffect s l
        { s with domains := Function.update s.domains (journalSlot epoch) entry.domain }
        (.storeEpoch counted epoch entry)
  | epoch (counted : Bool) (epoch : ℕ) (entry : JournalEntry)
      (hl : l = .storeEpoch counted epoch entry) :
      JournalEffect s l
        { s with epochs := Function.update s.epochs (journalSlot epoch) epoch }
        (.published counted)

/-- The thread is no writer between its draw and its last store. -/
def JournalThread.Aside (l : JournalThread) : Prop :=
  l.pending = none ∧ l.wrapping = false

theorem aside_published (counted : Bool) : (JournalThread.published counted).Aside := by
  cases counted <;> exact ⟨rfl, rfl⟩

theorem aside_beginCollection (since through : ℕ) :
    (JournalThread.beginCollection since through).Aside := by
  unfold JournalThread.beginCollection
  split_ifs <;> exact ⟨rfl, rfl⟩

theorem aside_continue (read : Collection) (write : CollectedWrite) :
    (read.continue write).Aside := by
  unfold Collection.continue JournalThread.Aside
  dsimp only
  split_ifs <;> exact ⟨rfl, rfl⟩

theorem aside_ite {condition : Prop} [Decidable condition] {l l' : JournalThread} (h : l.Aside)
    (h' : l'.Aside) : (if condition then l else l').Aside := by
  split_ifs
  · exact h
  · exact h'

omit [DecidableEq T] in
/-- The effects of the steps that meet the condition. -/
theorem journalProgram_effect {c : Config JournalState JournalThread T} {t : T}
    {a : JournalChoice} {s' : JournalState} {l' : JournalThread} (hI : Kept c)
    (hP : Undisturbed c (t, a)) (h : journalProgram c.shared (c.threads t) a = some (s', l')) :
    JournalEffect c.shared (c.threads t) s' l' := by
  have hbound := hI.bound
  have hwrapping := hI.unwrapped t
  unfold Undisturbed at hP
  dsimp only at hP
  generalize c.threads t = l at *
  have hquiet : ∀ l', l.pending = none → l'.Aside → JournalEffect c.shared l c.shared l' :=
    fun l' h h' => .quiet h h'.1 h'.2 rfl rfl rfl rfl le_rfl hbound
  cases a with
  | write counted entry =>
      cases l with
      | idle =>
          cases h
          exact hquiet _ rfl (aside_ite ⟨rfl, rfl⟩ ⟨rfl, rfl⟩)
      | _ => cases h
  | collectDirtyPages =>
      cases l with
      | idle =>
          cases h
          exact hquiet _ rfl ⟨rfl, rfl⟩
      | _ => cases h
  | collect since =>
      cases l with
      | idle =>
          cases h
          exact hquiet _ rfl ⟨rfl, rfl⟩
      | _ => cases h
  | next =>
      cases l with
      | idle => cases h
      | storeWrapped => cases hwrapping
      | countIn | countOut =>
          cases h
          exact .quiet rfl rfl rfl rfl rfl rfl rfl le_rfl hbound
      | drawEpoch counted entry =>
          have hlt : c.shared.writeEpoch + 1 < 2 ^ 64 := by omega
          simp only [journalProgram, Nat.mod_eq_of_lt hlt, if_neg (Nat.succ_ne_zero _)] at h
          cases entry with
          | none =>
              cases h
              exact .quiet rfl (aside_published counted).1 (aside_published counted).2 rfl rfl rfl
                rfl (Nat.le_succ _) hP
          | some entry =>
              cases h
              exact .draw counted entry rfl hP
      | storeRange counted epoch entry =>
          cases h
          exact .range counted epoch entry rfl
      | storeDomain counted epoch entry =>
          cases h
          exact .domain counted epoch entry rfl
      | storeEpoch counted epoch entry =>
          cases h
          exact .epoch counted epoch entry rfl
      | readCount | readEpoch | loadEpoch | loadRange | loadEpochAgain | returned =>
          cases h
          first
          | exact hquiet _ rfl ⟨rfl, rfl⟩
          | exact hquiet _ rfl (aside_ite ⟨rfl, rfl⟩ ⟨rfl, rfl⟩)
      | readCountAgain =>
          cases h
          exact hquiet _ rfl (aside_ite (aside_beginCollection _ _) ⟨rfl, rfl⟩)
      | loadDomain =>
          cases h
          exact hquiet _ rfl (aside_continue _ _)

/-! ### The writers keep the journal -/

theorem storesTo_of_pending {l : JournalThread} (h : l.pending = none) (slot : ℕ) :
    l.storesTo slot = 0 := by
  cases l <;> first | rfl | cases h

/-- A thread reads the same before and after a step of a thread that reads the same. -/
theorem view_update {α : Type} (view : JournalThread → α) (threads : T → JournalThread) (t : T)
    (l' : JournalThread) (h : view l' = view (threads t)) (u : T) :
    view (Function.update threads t l' u) = view (threads u) := by
  by_cases hu : u = t
  · subst hu
    rw [Function.update_self, h]
  · rw [Function.update_of_ne hu]

section Steps

variable {c : Config JournalState JournalThread T} {t : T}

theorem unwrapped_update (hI : Kept c) {l : JournalThread} (h : l.wrapping = false) (u : T) :
    (Function.update c.threads t l u).wrapping = false :=
  forall_update (Q := fun _ (l : JournalThread) => l.wrapping = false) h (fun u _ => hI.unwrapped u) u

theorem kept_quiet (hI : Kept c) {s' : JournalState} {l' : JournalThread}
    (hpending : (c.threads t).pending = none) (hpending' : l'.pending = none)
    (hwrapping : l'.wrapping = false) (hepochs : s'.epochs = c.shared.epochs)
    (hranges : s'.ranges = c.shared.ranges) (hdomains : s'.domains = c.shared.domains)
    (howners : s'.owners = c.shared.owners) (hmono : c.shared.writeEpoch ≤ s'.writeEpoch)
    (hbound : s'.writeEpoch + 1 < 2 ^ 64) :
    Kept ⟨s', Function.update c.threads t l'⟩ := by
  have hview := view_update JournalThread.pending c.threads t l' (hpending'.trans hpending.symm)
  have hstores (slot : ℕ) := view_update (JournalThread.storesTo slot) c.threads t l'
    ((storesTo_of_pending hpending' slot).trans (storesTo_of_pending hpending slot).symm)
  have hunwrapped := unwrapped_update (t := t) hI hwrapping
  refine ⟨hbound, hunwrapped, ?_, ?_, ?_, ?_, ?_, ?_, ?_⟩
  all_goals dsimp only
  all_goals simp only [hview, hstores, hepochs, hranges, hdomains, howners]
  · intro e x hmem
    obtain ⟨hpos, hle⟩ := hI.owned e x hmem
    exact ⟨hpos, hle.trans hmono⟩
  · exact hI.unique
  · exact hI.pending_owned
  · exact hI.pending_apart
  · exact hI.apart
  · exact hI.stored
  · exact hI.slots

theorem kept_draw (hI : Kept c) (counted : Bool) (entry : JournalEntry)
    (hpending : (c.threads t).pending = none) (hbound : c.shared.writeEpoch + 2 < 2 ^ 64) :
    Kept ⟨{ c.shared with
      writeEpoch := c.shared.writeEpoch + 1
      owners := (c.shared.writeEpoch + 1, entry) :: c.shared.owners },
      Function.update c.threads t (.storeRange counted (c.shared.writeEpoch + 1) entry)⟩ := by
  have hstores (slot : ℕ) := view_update (JournalThread.storesTo slot) c.threads t
    (.storeRange counted (c.shared.writeEpoch + 1) entry) (storesTo_of_pending hpending slot).symm
  have hunwrapped := unwrapped_update (t := t) hI
    (show (JournalThread.storeRange counted (c.shared.writeEpoch + 1) entry).wrapping = false from rfl)
  -- the new epoch belongs to nobody
  have hnew : ∀ x, (c.shared.writeEpoch + 1, x) ∉ c.shared.owners := by
    intro x hmem
    have := (hI.owned _ x hmem).2
    omega
  refine ⟨hbound, hunwrapped, ?_, ?_, ?_, ?_, ?_, ?_, ?_⟩
  all_goals dsimp only
  · intro e x hmem
    rcases List.mem_cons.mp hmem with heq | hmem
    · cases heq
      omega
    · have := hI.owned e x hmem
      omega
  · intro e x y hx hy
    rcases List.mem_cons.mp hx with heq | hx
    · cases heq
      rcases List.mem_cons.mp hy with heq | hy
      · exact (Prod.mk.inj heq).2.symm
      · exact absurd hy (hnew y)
    · rcases List.mem_cons.mp hy with heq | hy
      · cases heq
        exact absurd hx (hnew x)
      · exact hI.unique e x y hx hy
  · intro u e x hu
    rcases of_update (Q := fun (l : JournalThread) => l.pending = some (e, x)) hu with ⟨-, hu⟩ | ⟨-, hu⟩
    · cases hu
      exact List.mem_cons_self
    · exact List.mem_cons_of_mem _ (hI.pending_owned u e x hu)
  · intro u v e x y hu hv
    rcases of_update (Q := fun (l : JournalThread) => l.pending = some (e, x)) hu with
      ⟨hut, hdrawn⟩ | ⟨-, hold⟩
    · rcases of_update (Q := fun (l : JournalThread) => l.pending = some (e, y)) hv with
        ⟨hvt, -⟩ | ⟨-, hold⟩
      · exact hut.trans hvt.symm
      · cases hdrawn
        exact absurd (hI.pending_owned v _ y hold) (hnew y)
    · rcases of_update (Q := fun (l : JournalThread) => l.pending = some (e, y)) hv with
        ⟨-, hdrawn⟩ | ⟨-, hold'⟩
      · cases hdrawn
        exact absurd (hI.pending_owned u _ x hold) (hnew x)
      · exact hI.pending_apart u v e x y hold hold'
  · simpa only [hstores] using hI.apart
  · intro u e x hu
    rw [hstores]
    rcases of_update (Q := fun (l : JournalThread) => l.pending = some (e, x)) hu with ⟨rfl, -⟩ | ⟨-, hu⟩
    · rw [storesTo_of_pending hpending]
      exact ⟨fun h => absurd rfl h, nofun⟩
    · exact hI.stored u e x hu
  · intro slot hslot
    obtain ⟨hplace, hpublished, x, hx, hranges, hdomains⟩ := hI.slots slot hslot
    simp only [hstores]
    refine ⟨hplace, fun u y hu => ?_, x, List.mem_cons_of_mem _ hx, hranges, hdomains⟩
    rcases of_update (Q := fun (l : JournalThread) => l.pending = some (c.shared.epochs slot, y)) hu with
      ⟨-, hu⟩ | ⟨-, hu⟩
    · have hepoch : c.shared.writeEpoch + 1 = c.shared.epochs slot :=
        (Prod.mk.inj (Option.some.inj hu)).1
      rw [← hepoch] at hx
      exact hnew x hx
    · exact hpublished u y hu

theorem kept_range (hI : Kept c) {counted : Bool} {epoch : ℕ} {entry : JournalEntry}
    (hl : c.threads t = .storeRange counted epoch entry)
    (hP : ∀ u, (c.threads u).storesTo (journalSlot epoch) = 0) :
    Kept ⟨{ c.shared with
      ranges := Function.update c.shared.ranges (journalSlot epoch) entry.range },
      Function.update c.threads t (.storeDomain counted epoch entry)⟩ := by
  have hview := view_update JournalThread.pending c.threads t (.storeDomain counted epoch entry)
    (by rw [hl]; rfl)
  have hunwrapped := unwrapped_update (t := t) hI
    (show (JournalThread.storeDomain counted epoch entry).wrapping = false from rfl)
  have hother {slot : ℕ} (hslot : journalSlot epoch ≠ slot) :=
    view_update (JournalThread.storesTo slot) c.threads t (.storeDomain counted epoch entry)
      (by rw [hl]; exact if_neg hslot)
  have hself : (Function.update c.threads t (.storeDomain counted epoch entry) t).storesTo
      (journalSlot epoch) = 1 := by
    rw [Function.update_self]
    exact if_pos rfl
  -- in the slot of the write, all other threads are outside
  have hown {u : T} (hu : (Function.update c.threads t
      (.storeDomain counted epoch entry) u).storesTo (journalSlot epoch) ≠ 0) : u = t := by
    by_contra hne
    rw [Function.update_of_ne hne] at hu
    exact hu (hP u)
  refine ⟨hI.bound, hunwrapped, hI.owned, hI.unique, ?_, ?_, ?_, ?_, ?_⟩
  all_goals dsimp only
  · simpa only [hview] using hI.pending_owned
  · simpa only [hview] using hI.pending_apart
  · intro u v slot hu hv
    by_cases hslot : journalSlot epoch = slot
    · subst hslot
      exact (hown hu).trans (hown hv).symm
    · rw [hother hslot] at hu hv
      exact hI.apart u v slot hu hv
  · intro u e x hu
    rw [hview] at hu
    by_cases hslot : journalSlot epoch = journalSlot e
    · rw [← hslot]
      by_cases hut : u = t
      · subst hut
        rw [hl] at hu
        cases hu
        rw [hself, Function.update_self]
        exact ⟨fun _ => rfl, nofun⟩
      · rw [Function.update_of_ne hut, hP u]
        exact ⟨fun h => absurd rfl h, nofun⟩
    · rw [hother hslot, Function.update_of_ne (Ne.symm hslot)]
      exact hI.stored u e x hu
  · intro slot hepochs
    obtain ⟨hplace, hpublished, x, hx, hranges, hdomains⟩ := hI.slots slot hepochs
    refine ⟨hplace, by simpa only [hview] using hpublished, x, hx, ?_⟩
    by_cases hslot : journalSlot epoch = slot
    · subst hslot
      refine ⟨fun hall => ?_, fun _ => hdomains fun u => ?_⟩
      · rw [hall t] at hself
        cases hself
      · rw [hP u]
        decide
    · simp only [hother hslot]
      rw [Function.update_of_ne (Ne.symm hslot)]
      exact ⟨hranges, hdomains⟩

theorem kept_domain (hI : Kept c) {counted : Bool} {epoch : ℕ} {entry : JournalEntry}
    (hl : c.threads t = .storeDomain counted epoch entry) :
    Kept ⟨{ c.shared with
      domains := Function.update c.shared.domains (journalSlot epoch) entry.domain },
      Function.update c.threads t (.storeEpoch counted epoch entry)⟩ := by
  have hview := view_update JournalThread.pending c.threads t (.storeEpoch counted epoch entry)
    (by rw [hl]; rfl)
  have hunwrapped := unwrapped_update (t := t) hI
    (show (JournalThread.storeEpoch counted epoch entry).wrapping = false from rfl)
  have hother {slot : ℕ} (hslot : journalSlot epoch ≠ slot) :=
    view_update (JournalThread.storesTo slot) c.threads t (.storeEpoch counted epoch entry)
      (by rw [hl]; simp [JournalThread.storesTo, hslot])
  have hself : (Function.update c.threads t (.storeEpoch counted epoch entry) t).storesTo
      (journalSlot epoch) = 2 := by
    rw [Function.update_self]
    exact if_pos rfl
  have hbefore : (c.threads t).storesTo (journalSlot epoch) = 1 := by
    rw [hl]
    exact if_pos rfl
  have hpending : (c.threads t).pending = some (epoch, entry) := by
    rw [hl]
    rfl
  -- the writer was in its slot before, so nobody else is
  have hout {u : T} (hne : u ≠ t) : (c.threads u).storesTo (journalSlot epoch) = 0 := by
    by_contra hu
    exact hne (hI.apart u t _ hu (by rw [hbefore]; decide))
  refine ⟨hI.bound, hunwrapped, hI.owned, hI.unique, ?_, ?_, ?_, ?_, ?_⟩
  all_goals dsimp only
  · simpa only [hview] using hI.pending_owned
  · simpa only [hview] using hI.pending_apart
  · intro u v slot hu hv
    by_cases hslot : journalSlot epoch = slot
    · subst hslot
      have hown {u : T} (hu : (Function.update c.threads t
          (.storeEpoch counted epoch entry) u).storesTo (journalSlot epoch) ≠ 0) : u = t := by
        by_contra hne
        rw [Function.update_of_ne hne] at hu
        exact hu (hout hne)
      exact (hown hu).trans (hown hv).symm
    · rw [hother hslot] at hu hv
      exact hI.apart u v slot hu hv
  · intro u e x hu
    rw [hview] at hu
    by_cases hslot : journalSlot epoch = journalSlot e
    · rw [← hslot]
      by_cases hut : u = t
      · subst hut
        rw [hpending] at hu
        cases hu
        rw [Function.update_self]
        refine ⟨fun _ => ?_, fun _ => Function.update_self ..⟩
        exact (hI.stored u epoch entry hpending).1 (by rw [hbefore]; decide)
      · rw [Function.update_of_ne hut, hout hut]
        exact ⟨fun h => absurd rfl h, nofun⟩
    · rw [hother hslot, Function.update_of_ne (Ne.symm hslot)]
      exact hI.stored u e x hu
  · intro slot hepochs
    obtain ⟨hplace, hpublished, x, hx, hranges, hdomains⟩ := hI.slots slot hepochs
    refine ⟨hplace, by simpa only [hview] using hpublished, x, hx, ?_⟩
    by_cases hslot : journalSlot epoch = slot
    · subst hslot
      refine ⟨fun hall => ?_, fun hall => absurd hself (hall t)⟩
      rw [hall t] at hself
      cases hself
    · simp only [hother hslot]
      rw [Function.update_of_ne (Ne.symm hslot)]
      exact ⟨hranges, hdomains⟩

theorem kept_epoch (hI : Kept c) {counted : Bool} {epoch : ℕ} {entry : JournalEntry}
    (hl : c.threads t = .storeEpoch counted epoch entry) :
    Kept ⟨{ c.shared with
      epochs := Function.update c.shared.epochs (journalSlot epoch) epoch },
      Function.update c.threads t (.published counted)⟩ := by
  obtain ⟨hnone, hwrapping⟩ := aside_published counted
  have hpending : (c.threads t).pending = some (epoch, entry) := by
    rw [hl]
    rfl
  have hstored : (c.threads t).storesTo (journalSlot epoch) = 2 := by
    rw [hl]
    exact if_pos rfl
  -- the writer leaves, the others stay where they are
  have hpend {u : T} {p : ℕ × JournalEntry}
      (hu : (Function.update c.threads t (.published counted) u).pending = some p) :
      u ≠ t ∧ (c.threads u).pending = some p := by
    rcases of_update (Q := fun (l : JournalThread) => l.pending = some p) hu with ⟨-, hu⟩ | hu
    · rw [hnone] at hu
      cases hu
    · exact hu
  have hstay {u : T} (hne : u ≠ t) (slot : ℕ) :
      (Function.update c.threads t (.published counted) u).storesTo slot =
        (c.threads u).storesTo slot := by
    rw [Function.update_of_ne hne]
  have hleft (slot : ℕ) :
      (Function.update c.threads t (.published counted) t).storesTo slot = 0 := by
    rw [Function.update_self]
    exact storesTo_of_pending hnone slot
  refine ⟨hI.bound, unwrapped_update hI hwrapping, hI.owned, hI.unique, ?_, ?_, ?_, ?_, ?_⟩
  all_goals dsimp only
  · exact fun u e x hu => hI.pending_owned u e x (hpend hu).2
  · exact fun u v e x y hu hv => hI.pending_apart u v e x y (hpend hu).2 (hpend hv).2
  · intro u v slot hu hv
    have hut : u ≠ t := fun h => hu (h ▸ hleft slot)
    have hvt : v ≠ t := fun h => hv (h ▸ hleft slot)
    rw [hstay hut] at hu
    rw [hstay hvt] at hv
    exact hI.apart u v slot hu hv
  · intro u e x hu
    obtain ⟨hut, hu⟩ := hpend hu
    rw [hstay hut]
    exact hI.stored u e x hu
  · intro slot hepochs
    by_cases hslot : journalSlot epoch = slot
    · subst hslot
      rw [Function.update_self]
      refine ⟨rfl, fun u x hu => ?_, entry, hI.pending_owned t epoch entry hpending, ?_⟩
      · obtain ⟨hut, hu⟩ := hpend hu
        exact hut (hI.pending_apart u t epoch x entry hu hpending)
      · obtain ⟨hrange, hdomain⟩ := hI.stored t epoch entry hpending
        exact ⟨fun _ => hrange (by rw [hstored]; decide), fun _ => hdomain hstored⟩
    · rw [Function.update_of_ne (Ne.symm hslot)] at hepochs ⊢
      obtain ⟨hplace, hpublished, x, hx, hranges, hdomains⟩ := hI.slots slot hepochs
      have hbefore : (c.threads t).storesTo slot = 0 := by
        rw [hl]
        exact if_neg hslot
      refine ⟨hplace, fun u y hu => hpublished u y (hpend hu).2, x, hx, fun hall => ?_,
        fun hall => ?_⟩
      · refine hranges fun u => ?_
        by_cases hut : u = t
        · rw [hut, hbefore]
        · rw [← hstay hut]
          exact hall u
      · refine hdomains fun u => ?_
        by_cases hut : u = t
        · rw [hut, hbefore]
          decide
        · rw [← hstay hut]
          exact hall u

/-- A step that meets the condition keeps the journal. -/
theorem kept_step {a : JournalChoice} {s' : JournalState} {l' : JournalThread} (hI : Kept c)
    (hP : Undisturbed c (t, a)) (h : journalProgram c.shared (c.threads t) a = some (s', l')) :
    Kept ⟨s', Function.update c.threads t l'⟩ := by
  have heffect := journalProgram_effect hI hP h
  cases heffect with
  | quiet hpending hpending' hwrapping hepochs hranges hdomains howners hmono hbound =>
      exact kept_quiet hI hpending hpending' hwrapping hepochs hranges hdomains howners hmono hbound
  | draw counted entry hpending hbound => exact kept_draw hI counted entry hpending hbound
  | range counted epoch entry hl =>
      have hnext : a = .next := by
        rw [hl] at h
        cases a <;> first | rfl | cases h
      subst hnext
      unfold Undisturbed at hP
      dsimp only at hP
      rw [hl] at hP
      exact kept_range hI hl hP
  | domain counted epoch entry hl => exact kept_domain hI hl
  | epoch counted epoch entry hl => exact kept_epoch hI hl

end Steps

/-! ### The readers -/

/-- The write that was assigned an epoch. -/
def JournalState.Owns (s : JournalState) (epoch : ℕ) (write : CollectedWrite) : Prop :=
  ∃ x, (epoch, x) ∈ s.owners ∧ write = ⟨epoch, x.address, x.size, x.domain⟩

/-- The writes of `count` epochs after `since`, in the order of their epochs. -/
def JournalState.Lists (s : JournalState) (since count : ℕ) (out : List CollectedWrite) : Prop :=
  List.Forall₂ s.Owns (List.range' (since + 1) count) out

/-- The write of the epoch is done. -/
def Published (c : Config JournalState JournalThread T) (epoch : ℕ) : Prop :=
  (∃ x, (epoch, x) ∈ c.shared.owners) ∧ ∀ t x, (c.threads t).pending ≠ some (epoch, x)

/-- A collection has listed all epochs in front of the one it is at. -/
structure Sound (s : JournalState) (read : Collection) : Prop where
  since_lt : read.since < read.epoch
  le_through : read.epoch ≤ read.through
  through_le : read.through ≤ s.writeEpoch
  lists : s.Lists read.since (read.epoch - read.since - 1) read.out

/-- The range word is that of the write. -/
def JournalState.HasRange (s : JournalState) (epoch : ℕ) (packed : BitVec 64) : Prop :=
  ∃ x, (epoch, x) ∈ s.owners ∧ packed = x.range

/-- What a reader knows. -/
def Knows (c : Config JournalState JournalThread T) : JournalThread → Prop
  | .readCountAgain _ through => through ≤ c.shared.writeEpoch
  | .loadEpoch read => Sound c.shared read
  | .loadRange read => Sound c.shared read ∧ Published c read.epoch
  | .loadEpochAgain read packed => Sound c.shared read ∧ Published c read.epoch ∧
      (c.shared.epochs (journalSlot read.epoch) = read.epoch →
        c.shared.HasRange read.epoch packed)
  | .loadDomain read packed => Sound c.shared read ∧ c.shared.HasRange read.epoch packed
  | .returned since through (some out) => c.shared.Lists since (through - since) out
  | _ => True

/-- What a step does as far as readers know. -/
theorem JournalEffect.grows {s s' : JournalState} {l l' : JournalThread}
    (h : JournalEffect s l s' l') :
    (∀ p ∈ s.owners, p ∈ s'.owners) ∧ s.writeEpoch ≤ s'.writeEpoch ∧
      (∀ p, l'.pending = some p → l.pending = some p ∨ p.1 = s.writeEpoch + 1) ∧
      ∀ slot, s'.epochs slot = s.epochs slot ∨ ∃ x, l.pending = some (s'.epochs slot, x) := by
  cases h with
  | quiet hpending hpending' hwrapping hepochs hranges hdomains howners hmono hbound =>
      refine ⟨fun p hp => howners ▸ hp, hmono, fun p hp => ?_, fun slot => .inl (by rw [hepochs])⟩
      rw [hpending'] at hp
      cases hp
  | draw counted entry hpending hbound =>
      refine ⟨fun p hp => List.mem_cons_of_mem _ hp, Nat.le_succ _, fun p hp => ?_,
        fun slot => .inl rfl⟩
      cases hp
      exact .inr rfl
  | range counted epoch entry hl =>
      subst hl
      exact ⟨fun _ hp => hp, le_rfl, fun _ hp => .inl hp, fun slot => .inl rfl⟩
  | domain counted epoch entry hl =>
      subst hl
      exact ⟨fun _ hp => hp, le_rfl, fun _ hp => .inl hp, fun slot => .inl rfl⟩
  | epoch counted epoch entry hl =>
      subst hl
      refine ⟨fun _ hp => hp, le_rfl, fun p hp => ?_, fun slot => ?_⟩
      · rw [(aside_published counted).1] at hp
        cases hp
      · by_cases hslot : journalSlot epoch = slot
        · subst hslot
          refine .inr ⟨entry, ?_⟩
          dsimp only
          rw [Function.update_self]
          rfl
        · exact .inl (Function.update_of_ne (Ne.symm hslot) ..)

theorem Lists.mono {s s' : JournalState} (h : ∀ p ∈ s.owners, p ∈ s'.owners) {since count : ℕ}
    {out : List CollectedWrite} (hout : s.Lists since count out) : s'.Lists since count out :=
  List.Forall₂.imp (fun _ _ ⟨x, hx, hwrite⟩ => ⟨x, h _ hx, hwrite⟩) hout

section Steps

variable {c : Config JournalState JournalThread T} {t : T} {s' : JournalState}
  {l' : JournalThread}

theorem published_step (hI : Kept c) (heffect : JournalEffect c.shared (c.threads t) s' l')
    {epoch : ℕ} (h : Published c epoch) : Published ⟨s', Function.update c.threads t l'⟩ epoch := by
  obtain ⟨howners, -, hpending, -⟩ := heffect.grows
  obtain ⟨⟨x, hx⟩, hdone⟩ := h
  refine ⟨⟨x, howners _ hx⟩, fun u y hu => ?_⟩
  rcases of_update (Q := fun (l : JournalThread) => l.pending = some (epoch, y)) hu with
    ⟨-, hnow⟩ | ⟨-, hbefore⟩
  · rcases hpending _ hnow with hbefore | hnew
    · exact hdone t y hbefore
    · have hle := (hI.owned epoch x hx).2
      dsimp only at hnew
      omega
  · exact hdone u y hbefore

omit [DecidableEq T] in
theorem sound_step (heffect : JournalEffect c.shared (c.threads t) s' l') {read : Collection}
    (h : Sound c.shared read) : Sound s' read := by
  obtain ⟨howners, hmono, -, -⟩ := heffect.grows
  exact ⟨h.since_lt, h.le_through, h.through_le.trans hmono, Lists.mono howners h.lists⟩

/-- What a reader knows stays true under the steps of others. -/
theorem knows_other (hI : Kept c) (heffect : JournalEffect c.shared (c.threads t) s' l')
    {l : JournalThread} (h : Knows c l) : Knows ⟨s', Function.update c.threads t l'⟩ l := by
  obtain ⟨howners, hmono, -, hepochs⟩ := heffect.grows
  have hrange {epoch : ℕ} {packed : BitVec 64} (h : c.shared.HasRange epoch packed) :
      s'.HasRange epoch packed := by
    obtain ⟨x, hx, hpacked⟩ := h
    exact ⟨x, howners _ hx, hpacked⟩
  cases l with
  | readCountAgain since through => exact le_trans h hmono
  | loadEpoch read => exact sound_step heffect h
  | loadRange read => exact ⟨sound_step heffect h.1, published_step hI heffect h.2⟩
  | loadEpochAgain read packed =>
      obtain ⟨hsound, hpublished, hpacked⟩ := h
      refine ⟨sound_step heffect hsound, published_step hI heffect hpublished, fun hnow => ?_⟩
      -- nobody stores the epoch a second time
      rcases hepochs (journalSlot read.epoch) with hsame | ⟨x, hx⟩
      · exact hrange (hpacked (hsame.symm.trans hnow))
      · rw [hnow] at hx
        exact absurd hx (hpublished.2 t x)
  | loadDomain read packed => exact ⟨sound_step heffect h.1, hrange h.2⟩
  | returned since through out =>
      cases out with
      | none => trivial
      | some out => exact Lists.mono howners h
  | _ => trivial

omit [DecidableEq T] in
/-- What a slot shows of its epoch. -/
theorem slot_shows (hI : Kept c) {epoch : ℕ} (hpos : 0 < epoch)
    (h : c.shared.epochs (journalSlot epoch) = epoch) :
    Published c epoch ∧ ∃ x, (epoch, x) ∈ c.shared.owners ∧
      ((∀ t, (c.threads t).storesTo (journalSlot epoch) = 0) →
        c.shared.ranges (journalSlot epoch) = x.range) ∧
      ((∀ t, (c.threads t).storesTo (journalSlot epoch) ≠ 2) →
        c.shared.domains (journalSlot epoch) = x.domain) := by
  have hslot := hI.slots (journalSlot epoch) (by rw [h]; exact hpos.ne')
  rw [h] at hslot
  obtain ⟨-, hdone, x, hx, hwords⟩ := hslot
  exact ⟨⟨⟨x, hx⟩, hdone⟩, x, hx, hwords⟩

theorem ofWords_range (epoch : ℕ) (x : JournalEntry) :
    CollectedWrite.ofWords epoch x.range x.domain = ⟨epoch, x.address, x.size, x.domain⟩ := by
  have haddress : x.range.extractLsb' 32 32 = x.address := BitVec.extractLsb'_append_eq_left
  have hsize : x.range.extractLsb' 0 32 = x.size := BitVec.extractLsb'_append_eq_right
  rw [CollectedWrite.ofWords, haddress, hsize]

omit [DecidableEq T] in
theorem knows_assign (s : JournalState) (counted : Bool) (epoch : ℕ) (entry : Option JournalEntry) :
    Knows c (s.assign counted epoch entry).2 := by
  cases entry with
  | none => cases counted <;> trivial
  | some entry => trivial

omit [DecidableEq T] in
/-- The collection behind the epoch it is at. -/
theorem knows_continue (hI : Kept c) {read : Collection} (h : Sound c.shared read)
    {x : JournalEntry} (hx : (read.epoch, x) ∈ c.shared.owners) :
    Knows c (read.continue ⟨read.epoch, x.address, x.size, x.domain⟩) := by
  have hlt : read.epoch + 1 < 2 ^ 64 := by
    have := h.le_through
    have := h.through_le
    have := hI.bound
    omega
  have hlists : c.shared.Lists read.since (read.epoch - read.since)
      (read.out ++ [⟨read.epoch, x.address, x.size, x.domain⟩]) := by
    have hsplit : read.epoch - read.since = read.epoch - read.since - 1 + 1 := by
      have := h.since_lt
      omega
    have hlast : read.since + 1 + (read.epoch - read.since - 1) = read.epoch := by
      have := h.since_lt
      omega
    unfold JournalState.Lists
    rw [hsplit, List.range'_1_concat, hlast]
    exact List.rel_append h.lists (.cons ⟨x, hx, rfl⟩ .nil)
  unfold Collection.continue
  dsimp only
  rw [if_neg x.nonempty, Nat.mod_eq_of_lt hlt]
  split_ifs with hmore
  · have hlt' := h.since_lt
    refine ⟨hlt'.trans (Nat.lt_succ_self _), hmore, h.through_le, ?_⟩
    rwa [show read.epoch + 1 - read.since - 1 = read.epoch - read.since by omega]
  · have hend : read.through = read.epoch := by
      have := h.le_through
      omega
    change c.shared.Lists read.since (read.through - read.since) _
    rwa [hend]

/-- A reader learns by its own steps. -/
theorem knows_own {a : JournalChoice} (hI : Kept c) (hP : Undisturbed c (t, a))
    (h : journalProgram c.shared (c.threads t) a = some (s', l')) (hknows : Knows c (c.threads t)) :
    Knows ⟨s', Function.update c.threads t l'⟩ l' := by
  have heffect := journalProgram_effect hI hP h
  suffices hnow : Knows c l' from knows_other hI heffect hnow
  unfold Undisturbed at hP
  dsimp only at hP
  generalize c.threads t = l at *
  cases a with
  | write counted entry =>
      cases l with
      | idle =>
          cases h
          cases counted <;> trivial
      | _ => cases h
  | collectDirtyPages =>
      cases l with
      | idle =>
          cases h
          trivial
      | _ => cases h
  | collect since =>
      cases l with
      | idle =>
          cases h
          trivial
      | _ => cases h
  | next =>
      cases l with
      | idle => cases h
      | drawEpoch counted entry =>
          simp only [journalProgram] at h
          split_ifs at h
          · cases h
            trivial
          · have hassign : Knows c (s', l').2 :=
              Option.some.inj h ▸ knows_assign _ counted _ entry
            exact hassign
      | storeWrapped counted entry =>
          have hassign : Knows c (s', l').2 :=
            Option.some.inj h ▸ knows_assign _ counted 1 entry
          exact hassign
      | storeEpoch counted epoch entry =>
          cases h
          cases counted <;> trivial
      | readCount since =>
          cases h
          split_ifs <;> trivial
      | readEpoch since =>
          cases h
          exact le_refl c.shared.writeEpoch
      | readCountAgain since through =>
          cases h
          split_ifs
          · unfold JournalThread.beginCollection
            split_ifs with hempty hlong
            · change c.shared.Lists since (through - since) []
              rw [Nat.sub_eq_zero_of_le hempty]
              exact .nil
            · trivial
            · refine ⟨Nat.lt_succ_self _, by dsimp only; omega, hknows, ?_⟩
              dsimp only
              rw [Nat.add_sub_cancel_left]
              exact .nil
          · trivial
      | loadEpoch read =>
          cases h
          split_ifs with hepoch
          · exact ⟨hknows, (slot_shows hI (Nat.zero_lt_of_lt hknows.since_lt) hepoch).1⟩
          · trivial
      | loadRange read =>
          cases h
          refine ⟨hknows.1, hknows.2, fun hepoch => ?_⟩
          obtain ⟨-, x, hx, hrange, -⟩ :=
            slot_shows hI (Nat.zero_lt_of_lt hknows.1.since_lt) hepoch
          exact ⟨x, hx, hrange hP⟩
      | loadEpochAgain read packed =>
          cases h
          split_ifs with hepoch
          · exact ⟨hknows.1, hknows.2.2 hepoch⟩
          · trivial
      | loadDomain read packed =>
          cases h
          obtain ⟨hsound, y, hy, hpacked⟩ := hknows
          obtain ⟨-, x, hx, -, hdomain⟩ :=
            slot_shows hI (Nat.zero_lt_of_lt hsound.since_lt) hP.1
          obtain rfl := hI.unique _ x y hx hy
          rw [hdomain hP.2, hpacked, ofWords_range]
          exact knows_continue hI hsound hx
      | _ =>
          cases h
          trivial

end Steps

/-- **A history that is reported exact is exact.**  Any number of writers and readers run
in any order; in every run whose steps meet `Undisturbed`, a collection that succeeds lists
the writes of its interval in the order of their epochs, each with the address, the size and
the domain that the one writer of its epoch published. -/
theorem exact_history (es : List (T × JournalChoice))
    (hP : Along (step journalProgram) Undisturbed (launchJournal T) es) (t : T)
    (since through : ℕ) (out : List CollectedWrite)
    (hreturned : (run (step journalProgram) (launchJournal T) es).threads t =
      .returned since through (some out)) :
    let s := (run (step journalProgram) (launchJournal T) es).shared
    s.Lists since (through - since) out ∧
      ∀ e x y, (e, x) ∈ s.owners → (e, y) ∈ s.owners → x = y := by
  have hI := run_invariant (I := fun c => Kept c ∧ ∀ u, Knows c (c.threads u)) (P := Undisturbed)
    (fun c t a s l hI hPe hprog => by
      have hown := knows_own hI.1 hPe hprog (hI.2 t)
      have heffect := journalProgram_effect hI.1 hPe hprog
      refine ⟨kept_step hI.1 hPe hprog, forall_update (Q := fun _ l' => Knows _ l') hown ?_⟩
      exact fun u _ => knows_other hI.1 heffect (hI.2 u))
    (launchJournal T) es ⟨kept_launch, fun _ => trivial⟩ hP
  have hknows := hI.2 t
  rw [hreturned] at hknows
  exact ⟨hknows, hI.1.unique⟩

end Threads

/-- A write of four bytes, and another one. -/
def firstEntry : JournalEntry := ⟨0x1000, 4, .normal, by decide⟩

def secondEntry : JournalEntry := ⟨0x2000, 8, .device, by decide⟩

/-- A call of one thread and some steps. -/
def journalCall {T : Type} (t : T) (call : JournalChoice) (count : ℕ) : List (T × JournalChoice) :=
  (t, call) :: List.replicate count (t, .next)

theorem exact_history_single :
    (run (step journalProgram) (launchJournal Unit)
      (journalCall () (.write true firstEntry) 6 ++ journalCall () (.collect 0) 7)).shared.Lists
        0 1 [⟨1, 0x1000, 4, .normal⟩] :=
  (exact_history (T := Unit)
    (journalCall () (.write true firstEntry) 6 ++ journalCall () (.collect 0) 7)
    (by
      refine ⟨trivial, trivial, ?_, ?_, trivial, trivial, trivial, trivial, trivial, trivial,
        trivial, trivial, ?_, trivial, ?_, trivial⟩
      · exact show 0 + 2 < 2 ^ 64 by decide
      · exact fun _ => rfl
      · exact fun _ => rfl
      · exact ⟨rfl, fun _ => Nat.zero_ne_add_one 1⟩) () 0 1 [⟨1, 0x1000, 4, .normal⟩] (by decide)).1

/-- One lap of the ring less one epoch, drawn by `collect_cpu_dirty_pages`. -/
def silentLap {T : Type} (t : T) : ℕ → List (T × JournalChoice)
  | 0 => []
  | count + 1 => journalCall t .collectDirtyPages 3 ++ silentLap t count

theorem run_silentLap {T : Type} [DecidableEq T] (t : T) (count : ℕ) (s : JournalState)
    (threads : T → JournalThread) (hidle : threads t = .idle)
    (hbound : s.writeEpoch + count < 2 ^ 64) :
    run (step journalProgram) ⟨s, threads⟩ (silentLap t count) =
      ⟨{ s with writeEpoch := s.writeEpoch + count }, threads⟩ := by
  induction count generalizing s with
  | zero => rfl
  | succ count ih =>
      rw [silentLap, run_append]
      have hround : run (step journalProgram) ⟨s, threads⟩ (journalCall t .collectDirtyPages 3) =
          ⟨{ s with writeEpoch := s.writeEpoch + 1 }, threads⟩ := by
        have hdraw : journalProgram { s with activeWriters := s.activeWriters + 1 }
            (.drawEpoch true none) .next =
            some ({ s with activeWriters := s.activeWriters + 1, writeEpoch := s.writeEpoch + 1 },
              .countOut) := by
          have hmod : (s.writeEpoch + 1) % 2 ^ 64 = s.writeEpoch + 1 :=
            Nat.mod_eq_of_lt (by omega)
          unfold journalProgram
          dsimp only
          rw [hmod, if_neg (Nat.succ_ne_zero _)]
          rfl
        have hrest : Function.update threads t .idle = threads := by
          rw [← hidle, Function.update_eq_self]
        have hcall : step journalProgram ⟨s, threads⟩ (t, .collectDirtyPages) =
            (⟨s, Function.update threads t (.countIn none)⟩, true) :=
          step_of_some (by dsimp only; rw [hidle]; rfl)
        have hin : step journalProgram ⟨s, Function.update threads t (.countIn none)⟩ (t, .next) =
            (⟨{ s with activeWriters := s.activeWriters + 1 },
              Function.update threads t (.drawEpoch true none)⟩, true) := by
          rw [step_of_some (by dsimp only; rw [Function.update_self]; rfl), Function.update_idem]
        have hdrawn : step journalProgram ⟨{ s with activeWriters := s.activeWriters + 1 },
            Function.update threads t (.drawEpoch true none)⟩ (t, .next) =
            (⟨{ s with activeWriters := s.activeWriters + 1, writeEpoch := s.writeEpoch + 1 },
              Function.update threads t .countOut⟩, true) := by
          rw [step_of_some (by dsimp only; rw [Function.update_self]; exact hdraw),
            Function.update_idem]
        have hout : step journalProgram
            ⟨{ s with activeWriters := s.activeWriters + 1, writeEpoch := s.writeEpoch + 1 },
              Function.update threads t .countOut⟩ (t, .next) =
            (⟨{ s with writeEpoch := s.writeEpoch + 1 }, threads⟩, true) := by
          rw [step_of_some (by dsimp only; rw [Function.update_self]; rfl), Function.update_idem,
            hrest]
          rfl
        simp only [journalCall, List.replicate, run, hcall, hin, hdrawn, hout]
      rw [hround, ih _ (by dsimp only; omega)]
      dsimp only
      rw [Nat.add_assoc, Nat.add_comm 1]

/-- A write, and a collection up to its load of the range. -/
def beforeLap : List (Bool × JournalChoice) :=
  journalCall false (.write true firstEntry) 6 ++ journalCall true (.collect 0) 4

/-- The range store of the write that takes the slot, and the rest of the collection. -/
def afterLap : List (Bool × JournalChoice) :=
  journalCall false (.write true secondEntry) 3 ++ List.replicate 3 (true, .next)

/-- What is left of the schedule when the lap is over. -/
theorem run_lapped (count : ℕ) (hcount : count < 2 ^ 63) :
    run (step journalProgram) (launchJournal Bool) (beforeLap ++ (silentLap false count ++ afterLap)) =
      run (step journalProgram)
        ⟨{ (run (step journalProgram) (launchJournal Bool) beforeLap).shared with
          writeEpoch := 1 + count },
          (run (step journalProgram) (launchJournal Bool) beforeLap).threads⟩ afterLap := by
  have hepoch : (run (step journalProgram) (launchJournal Bool) beforeLap).shared.writeEpoch = 1 := by
    decide
  have hidle : (run (step journalProgram) (launchJournal Bool) beforeLap).threads false = .idle := by
    decide
  have hlap := run_silentLap false count _ _ hidle (by rw [hepoch]; omega)
  rw [run_append, run_append]
  generalize run (step journalProgram) (launchJournal Bool) beforeLap = c at hlap hepoch ⊢
  rw [hlap, hepoch]

/-- **A torn entry is reported as exact.**  The reader gets the range of the write of epoch
65537 for epoch one, under the domain of the first write. -/
theorem torn_entry_collected :
    ¬∀ (es : List (Bool × JournalChoice)) (t : Bool) (since through : ℕ)
      (out : List CollectedWrite),
      (run (step journalProgram) (launchJournal Bool) es).threads t =
        .returned since through (some out) →
      (run (step journalProgram) (launchJournal Bool) es).shared.Lists since (through - since)
        out := by
  intro h
  have hrun := run_lapped 65535 (by decide)
  generalize silentLap false 65535 = lap at hrun
  have hlists := h (beforeLap ++ (lap ++ afterLap)) true 0 1 [⟨1, 0x2000, 8, .normal⟩] (by
    rw [hrun]
    decide)
  rw [hrun] at hlists
  -- the only write of epoch one is the first one
  cases hlists with
  | cons howns hrest =>
      obtain ⟨x, hx, hwrite⟩ := howns
      have howners : (run (step journalProgram)
          ⟨{ (run (step journalProgram) (launchJournal Bool) beforeLap).shared with
            writeEpoch := 1 + 65535 },
            (run (step journalProgram) (launchJournal Bool) beforeLap).threads⟩
          afterLap).shared.owners = [(65537, secondEntry), (1, firstEntry)] := by
        decide
      rw [howners] at hx
      have hfirst : x = firstEntry := by simpa using hx
      rw [hfirst] at hwrite
      revert hwrite
      decide

end Memory
end XenonRecomp
