/-
# Coherency epochs

`include/xenon/memory/coherency.hpp` and the writers of
`include/xenon/cpu/memory_port.hpp` and
`src/memory/guest/physical/physical_writes.cpp`, one atomic access at a time.

A writer draws a new epoch from `write_epoch_` and stores it to
`page_epochs_` for every page it touched.  `current_epoch` first collects the
pages that native stores marked dirty (`collect_cpu_dirty_pages`, itself a
writer) and then returns the value of `write_epoch_` it reads between two reads
of `active_writers_` that are both zero.

The model keeps the variables these steps touch: the writer count, the epoch,
the page epochs, the dirty words and their summary, the lock of the collector
and the coherency gate.  Steps on other variables (the guest's bytes, the
reservation slots and their gate, the journal, the executable generations)
touch none of them and are left out; where such a variable decides a branch,
the scheduler chooses.  The 32-bit writer count is a number of threads, so it is
a natural number; the 64-bit epoch wraps as in the source.

Three fields of the state are kept for the statements and read by no step:
`assigned`, the epochs drawn with the pages they are drawn for; `history`, the
page-epoch stores and the returned boundaries in their order; and `marks`, the
native stores whose marking is done.
-/

import XenonRecomp.Library.Interleaving

namespace XenonRecomp
namespace Memory

open Library Library.Transition Library.Interleaving

/-- `GuestMemoryCoherency::kPageCount`: 512 MiB in pages of 4 KiB. -/
def physicalPageCount : ℕ := 0x20000

/-- `kPhysicalMemorySize`. -/
def physicalMemorySize : ℕ := 0x20000000

/-- The words of `cpu_dirty_summary_bits_`. -/
def summaryWordCount : ℕ := 32

/-- The pages of a write, as the loops over `first..last` visit them. -/
def touchedPages (address width : ℕ) : List ℕ :=
  let first := address / 0x1000
  let last := min ((address + width - 1) / 0x1000) (physicalPageCount - 1)
  List.range' first (last + 1 - first)

/-- The set bits of a word, lowest first: `countr_zero` and `words &= words - 1`
until the word is zero. -/
def setBits (word : BitVec 64) : List ℕ :=
  (List.range 64).filter fun i => word.getLsbD i

/-- What consumers of the epochs can tell apart afterwards. -/
inductive EpochEvent where
  | stored (epoch page : ℕ)
  | boundary (epoch : ℕ)
deriving DecidableEq

/-- The coherency state of guest memory. -/
structure CoherencyState where
  activeWriters : ℕ
  writeEpoch : ℕ
  pageEpochs : ℕ → ℕ
  dirtyWords : ℕ → BitVec 64
  dirtySummary : ℕ → BitVec 64
  collectLocked : Bool
  commitGate : Bool
  assigned : List (ℕ × List ℕ)
  history : List EpochEvent
  marks : List (ℕ × List EpochEvent)

/-- A new `GuestMemoryCoherency`. -/
def CoherencyState.init : CoherencyState where
  activeWriters := 0
  writeEpoch := 0
  pageEpochs := fun _ => 0
  dirtyWords := fun _ => 0
  dirtySummary := fun _ => 0
  collectLocked := false
  commitGate := false
  assigned := []
  history := []
  marks := []

namespace CoherencyState

/-- `active_writers_.fetch_add(1)`. -/
def enter (s : CoherencyState) : CoherencyState :=
  { s with activeWriters := s.activeWriters + 1 }

/-- `active_writers_.fetch_sub(1)`. -/
def leave (s : CoherencyState) : CoherencyState :=
  { s with activeWriters := s.activeWriters - 1 }

/-- `write_epoch_.fetch_add(1) + 1`: the epoch drawn, modulo the 64-bit wrap. -/
def nextEpoch (s : CoherencyState) : ℕ :=
  (s.writeEpoch + 1) % 2 ^ 64

/-- A draw by a write that touches `pages`. -/
def draw (s : CoherencyState) (pages : List ℕ) : CoherencyState :=
  { s with
    writeEpoch := s.nextEpoch
    assigned := (s.nextEpoch, pages) :: s.assigned }

/-- The draw that wrapped to zero stores one. -/
def drawWrapped (s : CoherencyState) (pages : List ℕ) : CoherencyState :=
  { s with
    writeEpoch := 1
    assigned := (1, pages) :: s.assigned }

/-- `page_epochs_[page].store(epoch)`. -/
def storePageEpoch (s : CoherencyState) (epoch page : ℕ) : CoherencyState :=
  { s with
    pageEpochs := Function.update s.pageEpochs page epoch
    history := s.history ++ [.stored epoch page] }

/-- A boundary is returned to its caller. -/
def returnBoundary (s : CoherencyState) (epoch : ℕ) : CoherencyState :=
  { s with history := s.history ++ [.boundary epoch] }

end CoherencyState

/-! ## The consumer: current_epoch and collect_cpu_dirty_pages -/

/-- Where a call of `current_epoch` (or of `collect_cpu_dirty_pages` alone)
stands.  `duties` are the marks that were done when the call began. -/
inductive ConsumerStep where
  | idle
  | scanSummary (index : ℕ)
  | lock
  | takeSummary (index : ℕ) (collected : List ℕ)
  | takeWord (index : ℕ) (words : List ℕ) (collected : List ℕ)
  | countIn (collected : List ℕ)
  | drawEpoch (collected : List ℕ)
  | storeWrapped (collected : List ℕ)
  | storePages (epoch : ℕ) (remaining : List ℕ)
  | countOut
  | unlock
  | loadWritersBefore
  | loadEpoch
  | loadWritersAfter (epoch : ℕ)
  | returned (epoch : ℕ)
deriving DecidableEq

/-- A consumer: its next step, whether it wants a boundary, and the marks that
were done when it was called. -/
structure Consumer where
  step : ConsumerStep
  wantsBoundary : Bool
  duties : List (ℕ × List EpochEvent)

/-- A consumer between calls. -/
def Consumer.idle : Consumer :=
  ⟨.idle, false, []⟩

/-- Where a call goes after its collection: `current_epoch` samples the boundary,
`collect_cpu_dirty_pages` returns. -/
def Consumer.afterCollect (k : Consumer) : Consumer :=
  if k.wantsBoundary then { k with step := .loadWritersBefore } else .idle

/-- The next atomic step of a consumer. -/
def consumerStep (s : CoherencyState) (k : Consumer) : Option (CoherencyState × Consumer) :=
  match k.step with
  | .idle => none
  | .scanSummary index =>
      if summaryWordCount ≤ index then some (s, k.afterCollect)
      else if s.dirtySummary index ≠ 0 then some (s, { k with step := .lock })
      else some (s, { k with step := .scanSummary (index + 1) })
  | .lock =>
      if s.collectLocked then none
      else some ({ s with collectLocked := true }, { k with step := .takeSummary 0 [] })
  | .takeSummary index collected =>
      if summaryWordCount ≤ index then
        if collected = [] then some (s, { k with step := .unlock })
        else some (s, { k with step := .countIn collected })
      else
        some ({ s with dirtySummary := Function.update s.dirtySummary index 0 },
          { k with
            step := .takeWord index ((setBits (s.dirtySummary index)).map (index * 64 + ·))
              collected })
  | .takeWord index words collected =>
      match words with
      | [] => some (s, { k with step := .takeSummary (index + 1) collected })
      | word :: words =>
          some ({ s with dirtyWords := Function.update s.dirtyWords word 0 },
            { k with
              step := .takeWord index words
                (collected ++ (setBits (s.dirtyWords word)).map (word * 64 + ·)) })
  | .countIn collected => some (s.enter, { k with step := .drawEpoch collected })
  | .drawEpoch collected =>
      if s.nextEpoch = 0 then
        some ({ s with writeEpoch := 0 }, { k with step := .storeWrapped collected })
      else some (s.draw collected, { k with step := .storePages s.nextEpoch collected })
  | .storeWrapped collected =>
      some (s.drawWrapped collected, { k with step := .storePages 1 collected })
  | .storePages epoch remaining =>
      match remaining with
      | [] => some (s, { k with step := .countOut })
      | page :: remaining =>
          some (s.storePageEpoch epoch page, { k with step := .storePages epoch remaining })
  | .countOut => some (s.leave, { k with step := .unlock })
  | .unlock => some ({ s with collectLocked := false }, k.afterCollect)
  | .loadWritersBefore =>
      if s.activeWriters ≠ 0 then some (s, k) else some (s, { k with step := .loadEpoch })
  | .loadEpoch => some (s, { k with step := .loadWritersAfter s.writeEpoch })
  | .loadWritersAfter epoch =>
      if s.activeWriters ≠ 0 then some (s, { k with step := .loadWritersBefore })
      else some (s.returnBoundary epoch, { k with step := .returned epoch })
  | .returned _ => some (s, .idle)

/-- A call of `current_epoch` begins. -/
def callCurrentEpoch (s : CoherencyState) : Consumer :=
  ⟨.scanSummary 0, true, s.marks⟩

/-- A call of `collect_cpu_dirty_pages` begins. -/
def callCollect (s : CoherencyState) : Consumer :=
  ⟨.scanSummary 0, false, s.marks⟩

/-! ## What one step does to the epochs -/

/-- What the epochs know of a thread: whether it counts in `active_writers_`, the
epoch it has drawn with the pages it has not stored it to yet, the boundary it
has sampled and not returned yet, and whether it is about to sample or to draw,
or has just wrapped the epoch to zero. -/
structure Role where
  counted : Bool
  pending : Option (ℕ × List ℕ)
  sampled : Option ℕ
  samples : Bool
  draws : Bool
  wrapping : Bool

/-- A thread that has nothing to do with the epochs. -/
def Role.none : Role :=
  ⟨false, .none, .none, false, false, false⟩

/-- The role of a consumer. -/
def Consumer.role (k : Consumer) : Role :=
  match k.step with
  | .drawEpoch _ => { Role.none with counted := true, draws := true }
  | .storeWrapped _ => { Role.none with counted := true, wrapping := true }
  | .storePages epoch remaining =>
      { Role.none with counted := true, pending := some (epoch, remaining) }
  | .countOut => { Role.none with counted := true }
  | .loadEpoch => { Role.none with samples := true }
  | .loadWritersAfter epoch => { Role.none with sampled := some epoch }
  | _ => Role.none

/-- A consumer with an epoch drawn is counted. -/
theorem consumer_counted_of_pending {k : Consumer} {e : ℕ} {r : List ℕ}
    (h : k.role.pending = some (e, r)) : k.role.counted = true := by
  obtain ⟨step, wants, duties⟩ := k
  cases step with
  | storePages epoch remaining => rfl
  | _ => cases h

/-- Two states agree on what the boundary argument is about. -/
def SameEpochs (s s' : CoherencyState) : Prop :=
  s'.activeWriters = s.activeWriters ∧ s'.writeEpoch = s.writeEpoch ∧
    s'.pageEpochs = s.pageEpochs ∧ s'.assigned = s.assigned ∧ s'.history = s.history

/-- What a step does to the epochs and to the thread that takes it. -/
inductive Effect (s : CoherencyState) (l : Role) : CoherencyState → Role → Prop
  | quiet {s' l'} (hs : SameEpochs s s') (hcount : l'.counted = l.counted)
      (hdone : ∀ e r, l.pending = some (e, r) → r = []) (hpending : l'.pending = none)
      (hsampled : l'.sampled = none) : Effect s l s' l'
  | enter {l'} (hbefore : l.counted = false) (hafter : l'.counted = true)
      (hnone : l.pending = none) (hpending : l'.pending = none) (hsampled : l'.sampled = none) :
      Effect s l s.enter l'
  | leave {l'} (hbefore : l.counted = true) (hafter : l'.counted = false)
      (hnone : l.pending = none) (hpending : l'.pending = none) (hsampled : l'.sampled = none) :
      Effect s l s.leave l'
  | draw {l'} (pages : List ℕ) (hdraws : l.draws = true) (hnone : l.pending = none)
      (hnext : s.nextEpoch = s.writeEpoch + 1) (hcount : l'.counted = l.counted)
      (hpending : l'.pending = some (s.writeEpoch + 1, pages)) (hsampled : l'.sampled = none) :
      Effect s l (s.draw pages) l'
  | store {l'} (epoch page : ℕ) (remaining : List ℕ)
      (hbefore : l.pending = some (epoch, page :: remaining))
      (hafter : l'.pending = some (epoch, remaining)) (hcount : l'.counted = l.counted)
      (hsampled : l'.sampled = none) :
      Effect s l (s.storePageEpoch epoch page) l'
  | sample {l'} (hsamples : l.samples = true) (hcount : l'.counted = l.counted)
      (hnone : l.pending = none) (hpending : l'.pending = none)
      (hsampled : l'.sampled = some s.writeEpoch) : Effect s l s l'
  | boundary {l'} (epoch : ℕ) (hbefore : l.sampled = some epoch) (hquiet : s.activeWriters = 0)
      (hcount : l'.counted = l.counted) (hnone : l.pending = none)
      (hpending : l'.pending = none) (hsampled : l'.sampled = none) :
      Effect s l (s.returnBoundary epoch) l'

theorem sameEpochs_refl (s : CoherencyState) : SameEpochs s s :=
  ⟨rfl, rfl, rfl, rfl, rfl⟩

/-- A draw that does not wrap yields the next number. -/
theorem nextEpoch_of_lt {s : CoherencyState} (h : s.writeEpoch + 1 < 2 ^ 64) :
    s.nextEpoch = s.writeEpoch + 1 :=
  Nat.mod_eq_of_lt h

/-- A consumer's step. -/
theorem consumerStep_effect {s s' : CoherencyState} {k k' : Consumer}
    (hwrap : k.role.draws = true → s.writeEpoch + 1 < 2 ^ 64)
    (hstored : k.role.wrapping = false)
    (h : consumerStep s k = some (s', k')) :
    Effect s k.role s' k'.role ∧ k'.role.wrapping = false := by
  obtain ⟨step, wants, duties⟩ := k
  have hsame := sameEpochs_refl s
  cases step with
  | idle => cases h
  | scanSummary index =>
      simp only [consumerStep] at h
      split at h
      · cases h
        cases wants <;> exact ⟨.quiet hsame rfl nofun rfl rfl, rfl⟩
      · split at h <;> cases h <;> exact ⟨.quiet hsame rfl nofun rfl rfl, rfl⟩
  | lock =>
      simp only [consumerStep] at h
      split at h <;> cases h
      exact ⟨.quiet ⟨rfl, rfl, rfl, rfl, rfl⟩ rfl nofun rfl rfl, rfl⟩
  | takeSummary index collected =>
      simp only [consumerStep] at h
      split at h
      · split at h <;> cases h <;> exact ⟨.quiet hsame rfl nofun rfl rfl, rfl⟩
      · cases h
        exact ⟨.quiet ⟨rfl, rfl, rfl, rfl, rfl⟩ rfl nofun rfl rfl, rfl⟩
  | takeWord index words collected =>
      cases words with
      | nil =>
          cases h
          exact ⟨.quiet hsame rfl nofun rfl rfl, rfl⟩
      | cons word words =>
          cases h
          exact ⟨.quiet ⟨rfl, rfl, rfl, rfl, rfl⟩ rfl nofun rfl rfl, rfl⟩
  | countIn collected =>
      cases h
      exact ⟨.enter rfl rfl rfl rfl rfl, rfl⟩
  | drawEpoch collected =>
      have hnext := nextEpoch_of_lt (hwrap rfl)
      simp only [consumerStep, hnext, Nat.succ_ne_zero, if_false] at h
      cases h
      exact ⟨.draw collected rfl rfl hnext rfl rfl rfl, rfl⟩
  | storeWrapped collected => cases hstored
  | storePages epoch remaining =>
      cases remaining with
      | nil =>
          cases h
          exact ⟨.quiet hsame rfl (fun e r hp => by cases hp; rfl) rfl rfl, rfl⟩
      | cons page remaining =>
          cases h
          exact ⟨.store epoch page remaining rfl rfl rfl rfl, rfl⟩
  | countOut =>
      cases h
      exact ⟨.leave rfl rfl rfl rfl rfl, rfl⟩
  | unlock =>
      cases h
      cases wants <;>
        exact ⟨.quiet ⟨rfl, rfl, rfl, rfl, rfl⟩ rfl nofun rfl rfl, rfl⟩
  | loadWritersBefore =>
      simp only [consumerStep] at h
      split at h <;> cases h <;> exact ⟨.quiet hsame rfl nofun rfl rfl, rfl⟩
  | loadEpoch =>
      cases h
      exact ⟨.sample rfl rfl rfl rfl rfl, rfl⟩
  | loadWritersAfter epoch =>
      simp only [consumerStep] at h
      split at h
      · cases h
        exact ⟨.quiet hsame rfl nofun rfl rfl, rfl⟩
      · next hzero =>
          cases h
          exact ⟨.boundary epoch rfl (not_not.mp hzero) rfl rfl rfl rfl, rfl⟩
  | returned epoch =>
      cases h
      exact ⟨.quiet hsame rfl nofun rfl rfl, rfl⟩

end Memory
end XenonRecomp
