/-
# The strict writers of guest memory

The writers of `include/xenon/cpu/memory_port.hpp`,
`include/xenon/memory/coherency.hpp` and
`src/memory/guest/physical/physical_writes.cpp` as they draw and publish
coherency epochs.  Ordinary stores and physical write spans count themselves in
`active_writers_` between `enter_write` and `finish_write`; a physical write
window raises the coherency gate, waits for the counted writers and counts each
of its writes; `mark_write` and `mark_all_dirty` count themselves, and with them
the conditional stores of the locked slow path, which publish through
`mark_write`.  The conditional stores of the fast path publish through
`publish_write_metadata` alone.

`Effect` says once what a step of a writer or of a consumer can do to the epochs;
every argument about boundaries is made from it.
-/

import XenonRecomp.Memory.Coherency

namespace XenonRecomp
namespace Memory

open Library Library.Transition Library.Interleaving

/-- The ways a writer publishes. -/
inductive WriterKind where
  /-- `enter_write` and `finish_write`: ordinary stores and write spans. -/
  | store
  /-- `write_physical_exclusive`, inside a physical write window. -/
  | window
  /-- `mark_write` and `mark_all_dirty`. -/
  | mark
  /-- `publish_write_metadata` of a conditional store on the fast path. -/
  | conditional
deriving DecidableEq

/-- Where a writer stands. -/
inductive Writer where
  | idle
  | waitGate (address width : ℕ)
  | countIn (address width : ℕ)
  | recheckGate (address width : ℕ)
  | backOut (address width : ℕ)
  | storeBytes (address width : ℕ)
  | raiseWindow
  | drainWindow
  | drainWindowAgain
  | windowOpen
  | windowCountIn (address width : ℕ)
  | markCountIn (pages : List ℕ)
  | drawEpoch (kind : WriterKind) (pages : List ℕ)
  | storeWrapped (kind : WriterKind) (pages : List ℕ)
  | storePages (kind : WriterKind) (epoch : ℕ) (remaining : List ℕ)
  | countOut (kind : WriterKind)
deriving DecidableEq

/-- Where a writer goes after its last page epoch. -/
def Writer.afterPages : WriterKind → Writer
  | .conditional => .idle
  | kind => .countOut kind

/-- Where a writer goes once it is no longer counted. -/
def Writer.afterCount : WriterKind → Writer
  | .window => .windowOpen
  | _ => .idle

/-- The next atomic step of a writer.  `blocked` is the scheduler's answer to the
test of the reservation gate in `enter_write`. -/
def writerStep (s : CoherencyState) (blocked : Bool) :
    Writer → Option (CoherencyState × Writer)
  | .idle => none
  | .waitGate address width =>
      if s.commitGate then none else some (s, .countIn address width)
  | .countIn address width => some (s.enter, .recheckGate address width)
  | .recheckGate address width =>
      if s.commitGate || blocked then some (s, .backOut address width)
      else some (s, .storeBytes address width)
  | .backOut address width => some (s.leave, .waitGate address width)
  | .storeBytes address width => some (s, .drawEpoch .store (touchedPages address width))
  | .raiseWindow =>
      if s.commitGate then none else some ({ s with commitGate := true }, .drainWindow)
  | .drainWindow => if s.activeWriters ≠ 0 then none else some (s, .drainWindowAgain)
  | .drainWindowAgain => if s.activeWriters ≠ 0 then none else some (s, .windowOpen)
  | .windowOpen => some ({ s with commitGate := false }, .idle)
  | .windowCountIn address width =>
      some (s.enter, .drawEpoch .window (touchedPages address width))
  | .markCountIn pages => some (s.enter, .drawEpoch .mark pages)
  | .drawEpoch kind pages =>
      if s.nextEpoch = 0 then some ({ s with writeEpoch := 0 }, .storeWrapped kind pages)
      else some (s.draw pages, .storePages kind s.nextEpoch pages)
  | .storeWrapped kind pages => some (s.drawWrapped pages, .storePages kind 1 pages)
  | .storePages kind epoch remaining =>
      match remaining with
      | [] => some (s, Writer.afterPages kind)
      | page :: remaining => some (s.storePageEpoch epoch page, .storePages kind epoch remaining)
  | .countOut kind => some (s.leave, Writer.afterCount kind)

/-- A thread of the memory system: a writer or a consumer. -/
inductive Party where
  | writer (w : Writer)
  | consumer (k : Consumer)

/-- The calls a thread may begin. -/
inductive CoherencyCall where
  | store (address width : ℕ)
  | conditionalStore (address width : ℕ)
  | markWrite (address width : ℕ)
  | markAllDirty
  | openWindow
  | windowWrite (address width : ℕ)
  | currentEpoch
  | collectCpuDirtyPages

/-- What the scheduler may choose: a call, or the thread's next step with the
answer to a test of the reservation gate. -/
inductive CoherencyChoice where
  | call (c : CoherencyCall)
  | next (blocked : Bool)

/-- A range of guest RAM a write may name. -/
def validWrite (address width : ℕ) : Bool :=
  width != 0 && decide (address + width ≤ physicalMemorySize)

/-- A thread begins a call.  `mark_write` of no bytes, or outside guest RAM, is
`current_epoch`. -/
def beginCall (s : CoherencyState) : Party → CoherencyCall → Option Party
  | .writer .idle, .store address width =>
      if validWrite address width then some (.writer (.waitGate address width)) else none
  | .writer .idle, .conditionalStore address width =>
      if validWrite address width then
        some (.writer (.drawEpoch .conditional (touchedPages address width)))
      else none
  | .writer .idle, .markWrite address width =>
      if width = 0 ∨ physicalMemorySize ≤ address then some (.consumer (callCurrentEpoch s))
      else some (.writer (.markCountIn (touchedPages address width)))
  | .writer .idle, .markAllDirty =>
      some (.writer (.markCountIn (List.range physicalPageCount)))
  | .writer .idle, .openWindow => some (.writer .raiseWindow)
  | .writer .windowOpen, .windowWrite address width =>
      if validWrite address width then some (.writer (.windowCountIn address width)) else none
  | .writer .idle, .currentEpoch => some (.consumer (callCurrentEpoch s))
  | .writer .idle, .collectCpuDirtyPages => some (.consumer (callCollect s))
  | _, _ => none

/-- A consumer that has returned is free for any call. -/
def Party.ofConsumer (k : Consumer) : Party :=
  if k.step = .idle then .writer .idle else .consumer k

/-- One atomic step of a thread. -/
def coherencyProgram (s : CoherencyState) (l : Party) :
    CoherencyChoice → Option (CoherencyState × Party)
  | .call c => (beginCall s l c).map fun l' => (s, l')
  | .next blocked =>
      match l with
      | .writer w => (writerStep s blocked w).map fun r => (r.1, .writer r.2)
      | .consumer k => (consumerStep s k).map fun r => (r.1, .ofConsumer r.2)

/-! ## Reading the page epochs -/

/-- `range_changed_since`. -/
def rangeChangedSince (pageEpochs : ℕ → ℕ) (address width since : ℕ) : Bool :=
  if width = 0 ∨ physicalMemorySize ≤ address then false
  else (touchedPages address width).any fun page => decide (since < pageEpochs page)

/-- The inner loop of `collect_dirty_ranges`: the number of dirty pages from
`page` on, at most `maxPages`. -/
def dirtyRun (pageEpochs : ℕ → ℕ) (since page : ℕ) : ℕ → ℕ
  | 0 => 0
  | maxPages + 1 =>
      if page < physicalPageCount ∧ since < pageEpochs page then
        dirtyRun pageEpochs since (page + 1) maxPages + 1
      else 0

/-- The outer loop of `collect_dirty_ranges`, with a bound on its rounds. -/
def dirtyRanges (pageEpochs : ℕ → ℕ) (since maxPages : ℕ) : ℕ → ℕ → List (ℕ × ℕ)
  | 0, _ => []
  | rounds + 1, page =>
      if physicalPageCount ≤ page then []
      else if since < pageEpochs page then
        let count := dirtyRun pageEpochs since page maxPages
        (page * 0x1000, count * 0x1000) ::
          dirtyRanges pageEpochs since maxPages rounds (page + count)
      else dirtyRanges pageEpochs since maxPages rounds (page + 1)

/-- `collect_dirty_ranges`. -/
def collectDirtyRanges (pageEpochs : ℕ → ℕ) (since through maxRangeBytes : ℕ) :
    List (ℕ × ℕ) :=
  if through ≤ since then []
  else
    let maxPages := if maxRangeBytes = 0 then physicalPageCount else max 1 (maxRangeBytes / 0x1000)
    dirtyRanges pageEpochs since maxPages physicalPageCount 0

/-- **No dirty page is skipped.**  Every page from `page` on that is newer than
`since` lies inside one of the ranges. -/
theorem mem_dirtyRanges {pageEpochs : ℕ → ℕ} {since maxPages : ℕ} (hmax : 0 < maxPages) {p : ℕ}
    (hp : p < physicalPageCount) (hdirty : since < pageEpochs p) :
    ∀ {rounds page : ℕ}, page ≤ p → physicalPageCount ≤ page + rounds →
      ∃ r ∈ dirtyRanges pageEpochs since maxPages rounds page,
        r.1 ≤ p * 0x1000 ∧ p * 0x1000 + 0x1000 ≤ r.1 + r.2
  | 0, page, hpage, hrounds => by omega
  | rounds + 1, page, hpage, hrounds => by
      rw [dirtyRanges, if_neg (by omega)]
      by_cases hd : since < pageEpochs page
      · rw [if_pos hd]
        have hrun : 0 < dirtyRun pageEpochs since page maxPages := by
          obtain ⟨n, rfl⟩ := Nat.exists_eq_succ_of_ne_zero hmax.ne'
          rw [dirtyRun, if_pos ⟨by omega, hd⟩]
          exact Nat.succ_pos _
        by_cases hin : p < page + dirtyRun pageEpochs since page maxPages
        · refine ⟨_, List.mem_cons_self, ?_⟩
          dsimp only
          omega
        · have hrest : physicalPageCount ≤
              page + dirtyRun pageEpochs since page maxPages + rounds := by omega
          obtain ⟨r, hr, hcover⟩ := mem_dirtyRanges hmax hp hdirty (not_lt.mp hin) hrest
          exact ⟨r, List.mem_cons_of_mem _ hr, hcover⟩
      · rw [if_neg hd]
        have hne : page ≠ p := by
          rintro rfl
          exact hd hdirty
        exact mem_dirtyRanges hmax hp hdirty (by omega) (by omega)

/-- A consumer whose last boundary is `since` sees page `p`: any range of guest RAM
that touches it has changed, and every list of dirty ranges up to a later
boundary covers it. -/
def SeenSince (pageEpochs : ℕ → ℕ) (since p : ℕ) : Prop :=
  (∀ address width, validWrite address width = true → p ∈ touchedPages address width →
    rangeChangedSince pageEpochs address width since = true) ∧
  (p < physicalPageCount → ∀ through maxRangeBytes, since < through →
    ∃ r ∈ collectDirtyRanges pageEpochs since through maxRangeBytes,
      r.1 ≤ p * 0x1000 ∧ p * 0x1000 + 0x1000 ≤ r.1 + r.2)

/-- A page newer than the last boundary is seen. -/
theorem seenSince_of_lt {pageEpochs : ℕ → ℕ} {since p : ℕ} (h : since < pageEpochs p) :
    SeenSince pageEpochs since p := by
  refine ⟨fun address width hvalid hp => ?_, fun hp through maxRangeBytes hthrough => ?_⟩
  · simp only [validWrite, Bool.and_eq_true, bne_iff_ne, ne_eq, decide_eq_true_eq] at hvalid
    rw [rangeChangedSince, if_neg (by omega), List.any_eq_true]
    exact ⟨p, hp, by simpa using h⟩
  · rw [collectDirtyRanges, if_neg (by omega)]
    refine mem_dirtyRanges ?_ hp h (Nat.zero_le _) (Nat.le_add_left _ _)
    split
    · decide
    · exact lt_of_lt_of_le Nat.zero_lt_one (le_max_left _ _)

/-! ## What one step does to the epochs -/

/-- The role of a writer: all but the conditional stores of the fast path count
themselves. -/
def Writer.role : Writer → Role
  | .recheckGate _ _ => { Role.none with counted := true }
  | .backOut _ _ => { Role.none with counted := true }
  | .storeBytes _ _ => { Role.none with counted := true }
  | .drawEpoch kind _ => { Role.none with counted := kind ≠ .conditional, draws := true }
  | .storeWrapped kind _ => { Role.none with counted := kind ≠ .conditional, wrapping := true }
  | .storePages kind epoch remaining =>
      { Role.none with counted := kind ≠ .conditional, pending := some (epoch, remaining) }
  | .countOut _ => { Role.none with counted := true }
  | _ => Role.none

/-- The role of a thread. -/
def Party.role : Party → Role
  | .writer w => w.role
  | .consumer k => k.role

/-- A conditional store of the fast path that has drawn its epoch and has page
epochs left to store. -/
def Party.publishesUncounted : Party → Bool
  | .writer (.storePages .conditional _ (_ :: _)) => true
  | _ => false

/-- A consumer that has returned has the role of an idle thread. -/
theorem role_ofConsumer (k : Consumer) : (Party.ofConsumer k).role = k.role := by
  unfold Party.ofConsumer
  split
  · next h => simp [Party.role, Writer.role, Consumer.role, h]
  · rfl

/-- A writer samples nothing. -/
theorem Writer.role_sampled (w : Writer) : w.role.sampled = none := by
  cases w <;> rfl

/-- A writer's step. -/
theorem writerStep_effect {s s' : CoherencyState} {blocked : Bool} {w w' : Writer}
    (hwrap : w.role.draws = true → s.writeEpoch + 1 < 2 ^ 64)
    (hstored : w.role.wrapping = false)
    (h : writerStep s blocked w = some (s', w')) :
    Effect s w.role s' w'.role ∧ w'.role.wrapping = false := by
  have hquiet : ∀ {s' : CoherencyState} {w' : Writer}, SameEpochs s s' →
      w'.role.counted = w.role.counted → (∀ e r, w.role.pending = some (e, r) → r = []) →
      w'.role.pending = none → w'.role.wrapping = false →
      Effect s w.role s' w'.role ∧ w'.role.wrapping = false :=
    fun hs hc hd hp hw => ⟨.quiet hs hc hd hp (Writer.role_sampled _), hw⟩
  have hsame := sameEpochs_refl s
  cases w with
  | idle => cases h
  | waitGate address width =>
      simp only [writerStep] at h
      split at h <;> cases h
      exact hquiet hsame rfl nofun rfl rfl
  | countIn address width =>
      cases h
      exact ⟨.enter rfl rfl rfl rfl rfl, rfl⟩
  | recheckGate address width =>
      simp only [writerStep] at h
      split at h <;> cases h <;> exact hquiet hsame rfl nofun rfl rfl
  | backOut address width =>
      cases h
      exact ⟨.leave rfl rfl rfl rfl rfl, rfl⟩
  | storeBytes address width =>
      cases h
      exact hquiet hsame rfl nofun rfl rfl
  | raiseWindow =>
      simp only [writerStep] at h
      split at h <;> cases h
      exact hquiet ⟨rfl, rfl, rfl, rfl, rfl⟩ rfl nofun rfl rfl
  | drainWindow =>
      simp only [writerStep] at h
      split at h <;> cases h
      exact hquiet hsame rfl nofun rfl rfl
  | drainWindowAgain =>
      simp only [writerStep] at h
      split at h <;> cases h
      exact hquiet hsame rfl nofun rfl rfl
  | windowOpen =>
      cases h
      exact hquiet ⟨rfl, rfl, rfl, rfl, rfl⟩ rfl nofun rfl rfl
  | windowCountIn address width =>
      cases h
      exact ⟨.enter rfl rfl rfl rfl rfl, rfl⟩
  | markCountIn pages =>
      cases h
      exact ⟨.enter rfl rfl rfl rfl rfl, rfl⟩
  | drawEpoch kind pages =>
      have hnext := nextEpoch_of_lt (hwrap rfl)
      simp only [writerStep, hnext, Nat.succ_ne_zero, if_false] at h
      cases h
      exact ⟨.draw pages rfl rfl hnext rfl rfl rfl, rfl⟩
  | storeWrapped kind pages => cases hstored
  | storePages kind epoch remaining =>
      cases remaining with
      | nil =>
          cases h
          cases kind <;>
            exact hquiet hsame rfl (fun e r hp => by cases hp; rfl) rfl rfl
      | cons page remaining =>
          cases h
          exact ⟨.store epoch page remaining rfl rfl rfl rfl, rfl⟩
  | countOut kind =>
      cases h
      cases kind <;> exact ⟨.leave rfl rfl rfl rfl rfl, rfl⟩

/-- The beginning of a call. -/
theorem beginCall_effect {s : CoherencyState} {l l' : Party} {c : CoherencyCall}
    (h : beginCall s l c = some l') : Effect s l.role s l'.role ∧ l'.role.wrapping = false := by
  have hsame := sameEpochs_refl s
  unfold beginCall at h
  split at h
  all_goals first
    | (cases h <;> exact ⟨.quiet hsame rfl nofun rfl rfl, rfl⟩)
    | (split at h <;> cases h <;> exact ⟨.quiet hsame rfl nofun rfl rfl, rfl⟩)

/-- **What a step does to the epochs.** -/
theorem coherencyProgram_effect {s s' : CoherencyState} {l l' : Party} {a : CoherencyChoice}
    (hwrap : l.role.draws = true → s.writeEpoch + 1 < 2 ^ 64) (hstored : l.role.wrapping = false)
    (h : coherencyProgram s l a = some (s', l')) :
    Effect s l.role s' l'.role ∧ l'.role.wrapping = false := by
  cases a with
  | call c =>
      obtain ⟨m, hm, heq⟩ := Option.map_eq_some_iff.mp h
      cases heq
      exact beginCall_effect hm
  | next blocked =>
      cases l with
      | writer w =>
          obtain ⟨r, hr, heq⟩ := Option.map_eq_some_iff.mp h
          cases heq
          exact writerStep_effect hwrap hstored hr
      | consumer k =>
          obtain ⟨r, hr, heq⟩ := Option.map_eq_some_iff.mp h
          cases heq
          rw [role_ofConsumer]
          exact consumerStep_effect hwrap hstored hr

end Memory
end XenonRecomp
