/-
# Native stores

In native access mode a guest store writes its bytes and then only marks its
pages: `mark_cpu_dirty_pages` (`include/xenon/cpu/memory_port.hpp`) tests the
page's bit, sets it if it was clear, and sets the word's bit in the summary if
the word was zero before.  `collect_cpu_dirty_pages`
(`include/xenon/memory/coherency.hpp`) looks for a nonzero summary word, takes the
lock, exchanges each summary word and then each word it names with zero, counts
itself as a writer, draws an epoch and stores it to the pages it took.

`Progress` says once what a step can do to the dirty pages: a page that is
marked, taken or about to be stored moves on towards its epoch and is never
dropped.  `Safe` and `Covered` say where such a page is.
-/

import XenonRecomp.Memory.EpochInvariant

namespace XenonRecomp
namespace Memory

open Library Library.Transition Library.Interleaving

/-- Where a native store stands.  `before` is the history when it wrote its
bytes. -/
inductive NativeStore where
  | idle
  | writeBytes (address width : ℕ)
  | loadWord (page last : ℕ) (before : List EpochEvent)
  | orWord (page last : ℕ) (before : List EpochEvent)
  | orSummary (page last : ℕ) (before : List EpochEvent)
deriving DecidableEq

/-- The loop of `mark_cpu_dirty_pages` after a page: the next page, or the end. -/
def NativeStore.nextPage (page last : ℕ) (before : List EpochEvent) : NativeStore :=
  if page + 1 ≤ last then .loadWord (page + 1) last before else .idle

/-- The marking of a page is done. -/
def CoherencyState.marked (s : CoherencyState) (page : ℕ) (before : List EpochEvent) :
    CoherencyState :=
  { s with marks := (page, before) :: s.marks }

/-- A word with the bit of a page or word set. -/
def withBit (word : BitVec 64) (index : ℕ) : BitVec 64 :=
  word ||| 1#64 <<< (index % 64)

/-- A bit table with one bit set by `fetch_or`. -/
def orBit (table : ℕ → BitVec 64) (index : ℕ) : ℕ → BitVec 64 :=
  Function.update table (index / 64) (withBit (table (index / 64)) index)

/-- The next atomic step of a native store. -/
def nativeStoreStep (s : CoherencyState) : NativeStore → Option (CoherencyState × NativeStore)
  | .idle => none
  | .writeBytes address width =>
      let first := address / 0x1000
      let last := min ((address + width - 1) / 0x1000) (physicalPageCount - 1)
      if width = 0 ∨ physicalPageCount ≤ first then some (s, .idle)
      else some (s, .loadWord first last s.history)
  | .loadWord page last before =>
      if (s.dirtyWords (page / 64)).getLsbD (page % 64) then
        some (s.marked page before, .nextPage page last before)
      else some (s, .orWord page last before)
  | .orWord page last before =>
      let s' := { s with dirtyWords := orBit s.dirtyWords page }
      if s.dirtyWords (page / 64) = 0 then some (s', .orSummary page last before)
      else some (s'.marked page before, .nextPage page last before)
  | .orSummary page last before =>
      let s' := { s with dirtySummary := orBit s.dirtySummary (page / 64) }
      some (s'.marked page before, .nextPage page last before)

/-- A thread: a native store or a consumer. -/
inductive NativeParty where
  | storer (n : NativeStore)
  | consumer (k : Consumer)

/-- The calls a thread may begin. -/
inductive NativeCall where
  | store (address width : ℕ)
  | currentEpoch
  | collectCpuDirtyPages

/-- What the scheduler may choose. -/
inductive NativeChoice where
  | call (c : NativeCall)
  | next

/-- A consumer that has returned is free for any call. -/
def NativeParty.ofConsumer (k : Consumer) : NativeParty :=
  if k.step = .idle then .storer .idle else .consumer k

/-- One atomic step of a thread. -/
def nativeProgram (s : CoherencyState) (l : NativeParty) :
    NativeChoice → Option (CoherencyState × NativeParty)
  | .call c =>
      match l, c with
      | .storer .idle, .store address width => some (s, .storer (.writeBytes address width))
      | .storer .idle, .currentEpoch => some (s, .consumer (callCurrentEpoch s))
      | .storer .idle, .collectCpuDirtyPages => some (s, .consumer (callCollect s))
      | _, _ => none
  | .next =>
      match l with
      | .storer n => (nativeStoreStep s n).map fun r => (r.1, .storer r.2)
      | .consumer k => (consumerStep s k).map fun r => (r.1, .ofConsumer r.2)

/-! ## What a thread has in hand -/

namespace Consumer

/-- The consumer holds the collector's lock. -/
def locked (k : Consumer) : Bool :=
  match k.step with
  | .takeSummary _ _ => true
  | .takeWord _ _ _ => true
  | .countIn _ => true
  | .drawEpoch _ => true
  | .storeWrapped _ => true
  | .storePages _ _ => true
  | .countOut => true
  | .unlock => true
  | _ => false

/-- The pages taken out of the dirty words and not given an epoch yet. -/
def taken (k : Consumer) : List ℕ :=
  match k.step with
  | .takeSummary _ collected => collected
  | .takeWord _ _ collected => collected
  | .countIn collected => collected
  | .drawEpoch collected => collected
  | .storeWrapped collected => collected
  | _ => []

/-- The words named by the summary word just taken. -/
def words (k : Consumer) : List ℕ :=
  match k.step with
  | .takeWord _ words _ => words
  | _ => []

/-- The consumer has taken something and is not counted as a writer yet. -/
def holdsUncounted (k : Consumer) : Bool :=
  match k.step with
  | .takeSummary _ (_ :: _) => true
  | .takeWord _ (_ :: _) _ => true
  | .takeWord _ _ (_ :: _) => true
  | .countIn _ => true
  | _ => false

/-- The summary word the consumer is about to read. -/
def readsSummary (k : Consumer) : Option ℕ :=
  match k.step with
  | .scanSummary index => if index < summaryWordCount then some index else none
  | .takeSummary index _ => if index < summaryWordCount then some index else none
  | _ => none

/-- The consumer is past the summary word `index`, in its scan or in its
collection. -/
def passed (k : Consumer) (index : ℕ) : Prop :=
  match k.step with
  | .idle => False
  | .scanSummary i => index < i
  | .lock => False
  | .takeSummary i _ => index < i
  | .takeWord i _ _ => index ≤ i
  | _ => True

end Consumer

namespace NativeParty

/-- The role of a thread: native stores have none. -/
def role : NativeParty → Role
  | .storer _ => Role.none
  | .consumer k => k.role

def locked : NativeParty → Bool
  | .storer _ => false
  | .consumer k => k.locked

def taken : NativeParty → List ℕ
  | .storer _ => []
  | .consumer k => k.taken

def words : NativeParty → List ℕ
  | .storer _ => []
  | .consumer k => k.words

def holdsUncounted : NativeParty → Bool
  | .storer _ => false
  | .consumer k => k.holdsUncounted

def readsSummary : NativeParty → Option ℕ
  | .storer _ => none
  | .consumer k => k.readsSummary

def duties : NativeParty → List (ℕ × List EpochEvent)
  | .storer _ => []
  | .consumer k => k.duties

def passed : NativeParty → ℕ → Prop
  | .storer _ => fun _ => False
  | .consumer k => k.passed

/-- The thread is about to make the first test of the writer count. -/
def testsWriters : NativeParty → Bool
  | .consumer ⟨.loadWritersBefore, _, _⟩ => true
  | _ => false

/-- The page of a store that made its word nonzero and has not set the word's bit
in the summary yet. -/
def raises : NativeParty → Option ℕ
  | .storer (.orSummary page _ _) => some page
  | _ => none

/-- The boundary a call of `current_epoch` returns. -/
def result : NativeParty → Option ℕ
  | .consumer ⟨.returned epoch, _, _⟩ => some epoch
  | _ => none

end NativeParty

/-- The bit of a page is set. -/
def PageBit (s : CoherencyState) (page : ℕ) : Prop :=
  (s.dirtyWords (page / 64)).getLsbD (page % 64) = true

/-- The bit of a word is set in the summary. -/
def SummaryBit (s : CoherencyState) (word : ℕ) : Prop :=
  (s.dirtySummary (word / 64)).getLsbD (word % 64) = true

theorem mem_setBits {word : BitVec 64} {i : ℕ} :
    i ∈ setBits word ↔ i < 64 ∧ word.getLsbD i = true := by
  simp [setBits]

/-- A set bit keeps set, and the new bit is set. -/
theorem getLsbD_withBit (word : BitVec 64) (index i : ℕ) (hi : i < 64) :
    (withBit word index).getLsbD i = (word.getLsbD i || decide (i = index % 64)) := by
  unfold withBit
  rw [BitVec.getLsbD_or, BitVec.getLsbD_shiftLeft]
  rcases Nat.lt_trichotomy i (index % 64) with h | h | h
  · simp [h, h.ne]
  · subst h
    simp [hi]
  · have h1 : ¬i < index % 64 := by omega
    have h2 : i - index % 64 ≠ 0 := by omega
    simp [h1, h.ne', hi, BitVec.getLsbD_one, h2]

/-- `fetch_or` sets its bit and keeps the others. -/
theorem getLsbD_orBit (table : ℕ → BitVec 64) (index i : ℕ) :
    (orBit table index (i / 64)).getLsbD (i % 64) = true ↔
      (table (i / 64)).getLsbD (i % 64) = true ∨ i = index := by
  have hlt : i % 64 < 64 := Nat.mod_lt _ (by decide)
  unfold orBit
  by_cases hw : i / 64 = index / 64
  · rw [hw, Function.update_self, getLsbD_withBit _ _ _ hlt, Bool.or_eq_true, decide_eq_true_iff]
    refine or_congr Iff.rfl ⟨fun h => ?_, fun h => by rw [h]⟩
    omega
  · rw [Function.update_of_ne hw]
    refine ⟨.inl, fun h => h.resolve_right ?_⟩
    rintro rfl
    exact hw rfl

/-! ## What a step does to the dirty pages -/

/-- What every step of a thread keeps of the dirty pages: a page that is marked,
taken or about to be stored moves on towards its epoch and is never dropped. -/
structure Progress (s : CoherencyState) (l : NativeParty) (s' : CoherencyState)
    (l' : NativeParty) : Prop where
  epoch_le : s.writeEpoch ≤ s'.writeEpoch
  history : ∀ x ∈ s.history, x ∈ s'.history
  marks : ∀ m ∈ s.marks, m ∈ s'.marks
  bits : ∀ p, PageBit s p → PageBit s' p ∨ p ∈ l'.taken
  taken : ∀ p ∈ l.taken, p ∈ l'.taken ∨ ∃ e r, l'.role.pending = some (e, r) ∧ p ∈ r
  pending : ∀ e r p, l.role.pending = some (e, r) → p ∈ r →
    (∃ r', l'.role.pending = some (e, r') ∧ p ∈ r') ∨ .stored e p ∈ s'.history
  words : ∀ p, p / 64 ∈ l.words → PageBit s p → p / 64 ∈ l'.words ∧ PageBit s' p ∨ p ∈ l'.taken
  /-- A word that is not zero after the step is one the thread has just made so,
  or was not zero before it, and whoever answered for it still does. -/
  summary : ∀ w, s'.dirtyWords w ≠ 0 →
    (∃ p, l'.raises = some p ∧ p / 64 = w) ∨
    (s.dirtyWords w ≠ 0 ∧ (SummaryBit s w → SummaryBit s' w ∨ w ∈ l'.words) ∧
      (∀ p, l.raises = some p → p / 64 = w → SummaryBit s' w) ∧ (w ∈ l.words → w ∈ l'.words))

/-- A step that leaves the dirty words and their summary alone. -/
theorem Progress.of_frame {s s' : CoherencyState} {l l' : NativeParty}
    (hepoch : s.writeEpoch ≤ s'.writeEpoch) (hhistory : ∀ x ∈ s.history, x ∈ s'.history)
    (hmarks : ∀ m ∈ s.marks, m ∈ s'.marks) (hwords : s'.dirtyWords = s.dirtyWords)
    (hsummary : s'.dirtySummary = s.dirtySummary)
    (htaken : ∀ p ∈ l.taken, p ∈ l'.taken ∨ ∃ e r, l'.role.pending = some (e, r) ∧ p ∈ r)
    (hpending : ∀ e r p, l.role.pending = some (e, r) → p ∈ r →
      (∃ r', l'.role.pending = some (e, r') ∧ p ∈ r') ∨ .stored e p ∈ s'.history)
    (hnames : l'.words = l.words) (hraises : l.raises = none) : Progress s l s' l' where
  epoch_le := hepoch
  history := hhistory
  marks := hmarks
  bits := fun p h => .inl (by simpa [PageBit, hwords] using h)
  taken := htaken
  pending := hpending
  words := fun p hw h => .inl ⟨hnames ▸ hw, by simpa [PageBit, hwords] using h⟩
  summary := fun w h => by
    refine .inr ⟨hwords ▸ h, fun hb => .inl ?_, fun p hp => ?_, fun hw => hnames ▸ hw⟩
    · simpa [SummaryBit, hsummary] using hb
    · rw [hraises] at hp
      cases hp

/-- A native store's step. -/
theorem nativeStoreStep_progress {s s' : CoherencyState} {n n' : NativeStore}
    (h : nativeStoreStep s n = some (s', n')) : Progress s (.storer n) s' (.storer n') := by
  cases n with
  | idle => cases h
  | writeBytes address width =>
      simp only [nativeStoreStep] at h
      split at h <;> cases h <;>
        exact .of_frame le_rfl (fun _ h => h) (fun _ h => h) rfl rfl nofun nofun rfl rfl
  | loadWord page last before =>
      simp only [nativeStoreStep] at h
      split at h
      · cases h
        exact .of_frame le_rfl (fun _ h => h) (fun _ h => List.mem_cons_of_mem _ h) rfl rfl
          nofun nofun rfl rfl
      · cases h
        exact .of_frame le_rfl (fun _ h => h) (fun _ h => h) rfl rfl nofun nofun rfl rfl
  | orWord page last before =>
      have hbits : ∀ p, PageBit s p →
          PageBit { s with dirtyWords := orBit s.dirtyWords page } p := fun p hp =>
        (getLsbD_orBit s.dirtyWords page p).mpr (.inl hp)
      have hword : ∀ w, orBit s.dirtyWords page w ≠ 0 →
          w = page / 64 ∨ s.dirtyWords w ≠ 0 := by
        intro w hw
        by_cases hpage : w = page / 64
        · exact .inl hpage
        · rw [orBit, Function.update_of_ne hpage] at hw
          exact .inr hw
      simp only [nativeStoreStep] at h
      split at h
      · cases h
        refine ⟨le_rfl, fun _ h => h, fun _ h => h, fun p hp => .inl (hbits p hp), nofun, nofun,
          nofun, fun w hw => ?_⟩
        rcases hword w hw with rfl | hold
        · exact .inl ⟨page, rfl, rfl⟩
        · exact .inr ⟨hold, fun hb => .inl hb, nofun, nofun⟩
      · next hold =>
          cases h
          refine ⟨le_rfl, fun _ h => h, fun _ h => List.mem_cons_of_mem _ h,
            fun p hp => .inl (hbits p hp), nofun, nofun, nofun, fun w hw => ?_⟩
          refine .inr ⟨?_, fun hb => .inl hb, nofun, nofun⟩
          rcases hword w hw with rfl | hw'
          · exact hold
          · exact hw'
  | orSummary page last before =>
      cases h
      refine ⟨le_rfl, fun _ h => h, fun _ h => List.mem_cons_of_mem _ h, fun p hp => .inl hp,
        nofun, nofun, nofun, fun w hw => .inr ⟨hw, fun hb => .inl ?_, ?_, nofun⟩⟩
      · exact (getLsbD_orBit s.dirtySummary (page / 64) w).mpr (.inl hb)
      · rintro p ⟨⟩ rfl
        exact (getLsbD_orBit s.dirtySummary (page / 64) (page / 64)).mpr (.inr rfl)

/-- A consumer that has returned is an idle thread. -/
theorem ofConsumer_cases (k : Consumer) :
    NativeParty.ofConsumer k = .consumer k ∨
      k.step = .idle ∧ NativeParty.ofConsumer k = .storer .idle := by
  unfold NativeParty.ofConsumer
  split
  · next h => exact .inr ⟨h, rfl⟩
  · exact .inl rfl

/-- An idle thread has as much in hand as a consumer that has returned. -/
theorem Progress.ofConsumer {s s' : CoherencyState} {l : NativeParty} {k : Consumer}
    (h : Progress s l s' (.consumer k)) : Progress s l s' (.ofConsumer k) := by
  rcases ofConsumer_cases k with heq | ⟨hidle, heq⟩
  · rw [heq]
    exact h
  · have htaken : (NativeParty.consumer k).taken = [] := by
      simp [NativeParty.taken, Consumer.taken, hidle]
    have hpending : (NativeParty.consumer k).role.pending = none := by
      simp [NativeParty.role, Consumer.role, hidle, Role.none]
    have hwords : (NativeParty.consumer k).words = [] := by
      simp [NativeParty.words, Consumer.words, hidle]
    obtain ⟨h1, h2, h3, h4, h5, h6, h7, h8⟩ := h
    rw [htaken] at h4 h5 h7
    rw [hpending] at h5 h6
    rw [hwords] at h7 h8
    rw [heq]
    exact ⟨h1, h2, h3, h4, h5, h6, h7, h8⟩

/-- The pages of a word are its set bits. -/
theorem mem_pages_of_word {s : CoherencyState} {p : ℕ} (h : PageBit s p) :
    p ∈ (setBits (s.dirtyWords (p / 64))).map (p / 64 * 64 + ·) := by
  have hlt : p % 64 < 64 := Nat.mod_lt _ (by decide)
  exact List.mem_map.mpr ⟨p % 64, mem_setBits.mpr ⟨hlt, h⟩, Nat.div_add_mod' p 64⟩

/-- A consumer's step. -/
theorem consumerStep_progress {s s' : CoherencyState} {k k' : Consumer}
    (hwrap : k.role.draws = true → s.writeEpoch + 1 < 2 ^ 64)
    (hstored : k.role.wrapping = false) (h : consumerStep s k = some (s', k')) :
    Progress s (.consumer k) s' (.consumer k') := by
  obtain ⟨step, wants, duties⟩ := k
  have hframe : ∀ {l l' : NativeParty}, l.taken = [] → l.role.pending = none →
      l'.words = l.words → l.raises = none → Progress s l s l' := by
    intro l l' ht hp hw hr
    refine .of_frame le_rfl (fun _ h => h) (fun _ h => h) rfl rfl ?_ ?_ hw hr
    · rw [ht]
      exact nofun
    · rw [hp]
      exact nofun
  cases step with
  | idle => cases h
  | scanSummary index =>
      dsimp only [consumerStep] at h
      split at h
      · cases h
        cases wants <;> exact hframe rfl rfl rfl rfl
      · split at h <;> cases h <;> exact hframe rfl rfl rfl rfl
  | lock =>
      dsimp only [consumerStep] at h
      split at h <;> cases h
      exact .of_frame le_rfl (fun _ h => h) (fun _ h => h) rfl rfl nofun nofun rfl rfl
  | takeSummary index collected =>
      dsimp only [consumerStep] at h
      split at h
      · split at h
        · next hnil =>
            cases h
            subst hnil
            exact hframe rfl rfl rfl rfl
        · cases h
          exact .of_frame le_rfl (fun _ h => h) (fun _ h => h) rfl rfl (fun _ h => .inl h)
            nofun rfl rfl
      · cases h
        refine ⟨le_rfl, fun _ h => h, fun _ h => h, fun p hp => .inl hp, fun p hp => .inl hp,
          nofun, nofun, fun w hw => .inr ⟨hw, fun hb => ?_, nofun, nofun⟩⟩
        by_cases hi : w / 64 = index
        · right
          have hlt : w % 64 < 64 := Nat.mod_lt _ (by decide)
          refine List.mem_map.mpr ⟨w % 64, mem_setBits.mpr ⟨hlt, hi ▸ hb⟩, ?_⟩
          rw [← hi]
          exact Nat.div_add_mod' w 64
        · left
          simpa [SummaryBit, Function.update_of_ne hi] using hb
  | takeWord index words collected =>
      cases words with
      | nil =>
          cases h
          exact .of_frame le_rfl (fun _ h => h) (fun _ h => h) rfl rfl (fun _ h => .inl h)
            nofun rfl rfl
      | cons word words =>
          cases h
          have hmove : ∀ p, PageBit s p → p / 64 ≠ word ∧ PageBit
              { s with dirtyWords := Function.update s.dirtyWords word 0 } p ∨
              p ∈ collected ++ (setBits (s.dirtyWords word)).map (word * 64 + ·) := by
            intro p hp
            by_cases hw : p / 64 = word
            · subst hw
              exact .inr (List.mem_append_right _ (mem_pages_of_word hp))
            · left
              exact ⟨hw, by simpa [PageBit, Function.update_of_ne hw] using hp⟩
          refine ⟨le_rfl, fun _ h => h, fun _ h => h, fun p hp => (hmove p hp).imp And.right id,
            fun p hp => .inl (List.mem_append_left _ hp), nofun, fun p hw hp => ?_,
            fun w hw => ?_⟩
          · rcases hmove p hp with ⟨hne, hbit⟩ | htaken
            · exact .inl ⟨(List.mem_cons.mp hw).resolve_left hne, hbit⟩
            · exact .inr htaken
          · have hne : w ≠ word := by
              rintro rfl
              exact hw (Function.update_self _ _ _)
            refine .inr ⟨?_, fun hb => .inl hb, nofun, fun hmem =>
              (List.mem_cons.mp hmem).resolve_left hne⟩
            exact fun hz => hw ((Function.update_of_ne hne _ _).trans hz)
  | countIn collected =>
      cases h
      exact .of_frame le_rfl (fun _ h => h) (fun _ h => h) rfl rfl (fun _ h => .inl h) nofun rfl rfl
  | drawEpoch collected =>
      have hnext := nextEpoch_of_lt (hwrap rfl)
      dsimp only [consumerStep] at h
      simp only [hnext, Nat.succ_ne_zero, if_false] at h
      cases h
      refine .of_frame ?_ (fun _ h => h) (fun _ h => h) rfl rfl
        (fun p hp => .inr ⟨_, _, rfl, hp⟩) nofun rfl rfl
      exact (Nat.le_succ _).trans hnext.ge
  | storeWrapped collected => cases hstored
  | storePages epoch remaining =>
      cases remaining with
      | nil =>
          cases h
          refine .of_frame le_rfl (fun _ h => h) (fun _ h => h) rfl rfl nofun ?_ rfl rfl
          rintro e r p ⟨⟩ hp
          cases hp
      | cons page remaining =>
          cases h
          refine .of_frame le_rfl (fun _ h => List.mem_append_left _ h) (fun _ h => h) rfl rfl
            nofun ?_ rfl rfl
          rintro e r p ⟨⟩ hp
          rcases List.mem_cons.mp hp with rfl | hrest
          · exact .inr (List.mem_append_right _ (List.mem_singleton_self _))
          · exact .inl ⟨remaining, rfl, hrest⟩
  | countOut =>
      cases h
      exact .of_frame le_rfl (fun _ h => h) (fun _ h => h) rfl rfl nofun nofun rfl rfl
  | unlock =>
      cases h
      cases wants <;>
        exact .of_frame le_rfl (fun _ h => h) (fun _ h => h) rfl rfl nofun nofun rfl rfl
  | loadWritersBefore =>
      dsimp only [consumerStep] at h
      split at h <;> cases h <;> exact hframe rfl rfl rfl rfl
  | loadEpoch =>
      cases h
      exact hframe rfl rfl rfl rfl
  | loadWritersAfter epoch =>
      dsimp only [consumerStep] at h
      split at h
      · cases h
        exact hframe rfl rfl rfl rfl
      · cases h
        exact .of_frame le_rfl (fun _ h => List.mem_append_left _ h) (fun _ h => h) rfl rfl
          nofun nofun rfl rfl
  | returned epoch =>
      cases h
      exact hframe rfl rfl rfl rfl

/-- A native store's step leaves the epochs alone. -/
theorem nativeStoreStep_same {s s' : CoherencyState} {n n' : NativeStore}
    (h : nativeStoreStep s n = some (s', n')) :
    SameEpochs s s' ∧ s'.collectLocked = s.collectLocked := by
  cases n <;> simp only [nativeStoreStep] at h <;> (repeat' split at h) <;> cases h <;>
    exact ⟨⟨rfl, rfl, rfl, rfl, rfl⟩, rfl⟩

theorem native_role_ofConsumer (k : Consumer) : (NativeParty.ofConsumer k).role = k.role := by
  rcases ofConsumer_cases k with heq | ⟨hidle, heq⟩
  · rw [heq]
    rfl
  · simp [heq, NativeParty.role, Consumer.role, hidle]

section Program

variable {s s' : CoherencyState} {l l' : NativeParty} {a : NativeChoice}

/-- A call begins at an idle thread and changes nothing shared; or the thread takes
its next step. -/
theorem nativeProgram_cases (h : nativeProgram s l a = some (s', l')) :
    (l = .storer .idle ∧ s' = s ∧ ((∃ address width, l' = .storer (.writeBytes address width)) ∨
      l' = .consumer (callCurrentEpoch s) ∨ l' = .consumer (callCollect s))) ∨
    (∃ n n', l = .storer n ∧ l' = .storer n' ∧ nativeStoreStep s n = some (s', n')) ∨
    ∃ k k', l = .consumer k ∧ l' = .ofConsumer k' ∧ consumerStep s k = some (s', k') := by
  cases a with
  | call c =>
      simp only [nativeProgram] at h
      split at h <;> cases h
      · exact .inl ⟨rfl, rfl, .inl ⟨_, _, rfl⟩⟩
      · exact .inl ⟨rfl, rfl, .inr (.inl rfl)⟩
      · exact .inl ⟨rfl, rfl, .inr (.inr rfl)⟩
  | next =>
      cases l with
      | storer n =>
          obtain ⟨r, hr, heq⟩ := Option.map_eq_some_iff.mp h
          cases heq
          exact .inr (.inl ⟨n, r.2, rfl, rfl, hr⟩)
      | consumer k =>
          obtain ⟨r, hr, heq⟩ := Option.map_eq_some_iff.mp h
          cases heq
          exact .inr (.inr ⟨k, r.2, rfl, rfl, hr⟩)

/-- **What a step does to the epochs.** -/
theorem nativeProgram_effect (hwrap : l.role.draws = true → s.writeEpoch + 1 < 2 ^ 64)
    (hstored : l.role.wrapping = false) (h : nativeProgram s l a = some (s', l')) :
    Effect s l.role s' l'.role ∧ l'.role.wrapping = false := by
  rcases nativeProgram_cases h with ⟨rfl, rfl, ⟨_, _, rfl⟩ | rfl | rfl⟩ |
    ⟨n, n', rfl, rfl, hstep⟩ | ⟨k, k', rfl, rfl, hstep⟩
  iterate 3
    · exact ⟨.quiet (sameEpochs_refl _) rfl nofun rfl rfl, rfl⟩
  · exact ⟨.quiet (nativeStoreStep_same hstep).1 rfl nofun rfl rfl, rfl⟩
  · rw [native_role_ofConsumer]
    exact consumerStep_effect hwrap hstored hstep

/-- **What a step does to the dirty pages.** -/
theorem nativeProgram_progress (hwrap : l.role.draws = true → s.writeEpoch + 1 < 2 ^ 64)
    (hstored : l.role.wrapping = false) (h : nativeProgram s l a = some (s', l')) :
    Progress s l s' l' := by
  rcases nativeProgram_cases h with ⟨rfl, rfl, ⟨_, _, rfl⟩ | rfl | rfl⟩ |
    ⟨n, n', rfl, rfl, hstep⟩ | ⟨k, k', rfl, rfl, hstep⟩
  iterate 3
    · exact .of_frame le_rfl (fun _ h => h) (fun _ h => h) rfl rfl nofun nofun rfl rfl
  · exact nativeStoreStep_progress hstep
  · exact (consumerStep_progress hwrap hstored hstep).ofConsumer

end Program

/-! ## Where a marked page is -/

section Covered

variable {T : Type}

/-- The page has been given an epoch newer than every boundary of `before`, and at
most `limit`. -/
def PublishedBy (s : CoherencyState) (limit p : ℕ) (before : List EpochEvent) : Prop :=
  ∃ e, (∀ B, .boundary B ∈ before → B < e) ∧ e ≤ limit ∧ .stored e p ∈ s.history

/-- A thread has taken the page, or is about to store an epoch to it. -/
def Held (threads : T → NativeParty) (p : ℕ) : Prop :=
  ∃ u, p ∈ (threads u).taken ∨ ∃ e r, (threads u).role.pending = some (e, r) ∧ p ∈ r

/-- The page is marked in a word some thread is about to take. -/
def Claimed (c : Config CoherencyState NativeParty T) (p : ℕ) : Prop :=
  PageBit c.shared p ∧ ∃ u, p / 64 ∈ (c.threads u).words

/-- The page has its epoch, or a thread that collects is bringing it one. -/
def Safe (c : Config CoherencyState NativeParty T) (p : ℕ) (before : List EpochEvent) : Prop :=
  PublishedBy c.shared c.shared.writeEpoch p before ∨ Held c.threads p ∨ Claimed c p

/-- The page is on its way to an epoch, or marked. -/
def Covered (c : Config CoherencyState NativeParty T) (p : ℕ) (before : List EpochEvent) : Prop :=
  Safe c p before ∨ PageBit c.shared p

theorem PublishedBy.mono {s s' : CoherencyState} {limit limit' p : ℕ} {before : List EpochEvent}
    (h : PublishedBy s limit p before) (hlimit : limit ≤ limit')
    (hhistory : ∀ x ∈ s.history, x ∈ s'.history) : PublishedBy s' limit' p before := by
  obtain ⟨e, hnew, hle, hst⟩ := h
  exact ⟨e, hnew, hle.trans hlimit, hhistory _ hst⟩

variable [Fintype T] [DecidableEq T] {c : Config CoherencyState NativeParty T} {t : T}
  {s' : CoherencyState} {l' : NativeParty} {p : ℕ} {before : List EpochEvent}

omit [Fintype T] in
/-- A page in the hands of the thread that moved. -/
theorem held_self (h : p ∈ l'.taken ∨ ∃ e r, l'.role.pending = some (e, r) ∧ p ∈ r) :
    Held (Function.update c.threads t l') p :=
  ⟨t, by simpa using h⟩

/-- **A step drops no page.** -/
theorem Safe.step (hI : EpochInvariant NativeParty.role c)
    (hprog : Progress c.shared (c.threads t) s' l')
    (hbefore : ∀ B, .boundary B ∈ before → .boundary B ∈ c.shared.history)
    (h : Safe c p before) : Safe ⟨s', Function.update c.threads t l'⟩ p before := by
  rcases h with hpub | ⟨u, htaken | ⟨e, r, hpend, hp⟩⟩ | ⟨hbit, u, hword⟩
  · exact .inl (hpub.mono hprog.epoch_le hprog.history)
  · by_cases hu : u = t
    · subst hu
      exact .inr (.inl (held_self (hprog.taken p htaken)))
    · exact .inr (.inl ⟨u, .inl (by simpa [Function.update_of_ne hu] using htaken)⟩)
  · by_cases hu : u = t
    · subst hu
      rcases hprog.pending e r p hpend hp with ⟨r', hr', hp'⟩ | hst
      · exact .inr (.inl (held_self (.inr ⟨e, r', hr', hp'⟩)))
      · refine .inl ⟨e, fun B hB => ?_, (hI.pending_le u e r hpend).trans hprog.epoch_le, hst⟩
        exact hI.pending_newer u e r hpend (List.ne_nil_of_mem hp) B (hbefore B hB)
    · exact .inr (.inl ⟨u, .inr ⟨e, r, by simpa [Function.update_of_ne hu] using hpend, hp⟩⟩)
  · by_cases hu : u = t
    · subst hu
      rcases hprog.words p hword hbit with ⟨hw, hb⟩ | htaken
      · exact .inr (.inr ⟨hb, u, by simpa using hw⟩)
      · exact .inr (.inl (held_self (.inl htaken)))
    · rcases hprog.bits p hbit with hb | htaken
      · exact .inr (.inr ⟨hb, u, by simpa [Function.update_of_ne hu] using hword⟩)
      · exact .inr (.inl (held_self (.inl htaken)))

/-- A step keeps a marked page on its way. -/
theorem Covered.step (hI : EpochInvariant NativeParty.role c)
    (hprog : Progress c.shared (c.threads t) s' l')
    (hbefore : ∀ B, .boundary B ∈ before → .boundary B ∈ c.shared.history)
    (h : Covered c p before) : Covered ⟨s', Function.update c.threads t l'⟩ p before := by
  rcases h with hsafe | hbit
  · exact .inl (hsafe.step hI hprog hbefore)
  · rcases hprog.bits p hbit with hb | htaken
    · exact .inr hb
    · exact .inl (.inr (.inl (held_self (.inl htaken))))

end Covered

/-! ## The steps of a store and of a consumer -/

/-- The page a store is marking, the last page it marks, and the history when it
wrote its bytes. -/
def NativeStore.marking : NativeStore → Option (ℕ × ℕ × List EpochEvent)
  | .loadWord page last before => some (page, last, before)
  | .orWord page last before => some (page, last, before)
  | .orSummary page last before => some (page, last, before)
  | _ => none

/-- The page after a page is at most the last. -/
theorem nextPage_marking {q l p last : ℕ} {b before : List EpochEvent}
    (h : (NativeStore.nextPage q l b).marking = some (p, last, before)) :
    l = last ∧ b = before ∧ p ≤ last := by
  unfold NativeStore.nextPage at h
  split at h
  · simp only [NativeStore.marking, Option.some.injEq, Prod.mk.injEq] at h
    exact ⟨h.2.1, h.2.2, by omega⟩
  · cases h

/-- A store marks pages of guest memory, one after the other. -/
theorem nativeStoreStep_marking {s s' : CoherencyState} {n n' : NativeStore} {p last : ℕ}
    {before : List EpochEvent} (h : nativeStoreStep s n = some (s', n'))
    (hn' : n'.marking = some (p, last, before)) :
    (∃ q, n.marking = some (q, last, before) ∧ (p = q ∨ p ≤ last)) ∨
      (p ≤ last ∧ last < physicalPageCount ∧ before = s.history) := by
  cases n with
  | idle => cases h
  | writeBytes address width =>
      simp only [nativeStoreStep] at h
      split at h
      · cases h
        cases hn'
      · next hok =>
          cases h
          simp only [NativeStore.marking, Option.some.injEq, Prod.mk.injEq] at hn'
          obtain ⟨rfl, rfl, rfl⟩ := hn'
          refine .inr ⟨?_, ?_, rfl⟩
          · have : address / 0x1000 ≤ (address + width - 1) / 0x1000 :=
              Nat.div_le_div_right (by omega)
            omega
          · have : 0 < physicalPageCount := by decide
            omega
  | loadWord page l before' =>
      simp only [nativeStoreStep] at h
      split at h
      · cases h
        obtain ⟨rfl, rfl, hle⟩ := nextPage_marking hn'
        exact .inl ⟨page, rfl, .inr hle⟩
      · cases h
        cases hn'
        exact .inl ⟨_, rfl, .inl rfl⟩
  | orWord page l before' =>
      simp only [nativeStoreStep] at h
      split at h
      · cases h
        cases hn'
        exact .inl ⟨_, rfl, .inl rfl⟩
      · cases h
        obtain ⟨rfl, rfl, hle⟩ := nextPage_marking hn'
        exact .inl ⟨page, rfl, .inr hle⟩
  | orSummary page l before' =>
      cases h
      obtain ⟨rfl, rfl, hle⟩ := nextPage_marking hn'
      exact .inl ⟨page, rfl, .inr hle⟩

/-- A page whose marking ends has its bit set, or the store has just set the
summary bit of its word. -/
theorem nativeStoreStep_marks {s s' : CoherencyState} {n n' : NativeStore}
    (h : nativeStoreStep s n = some (s', n')) :
    s'.marks = s.marks ∨ ∃ p last before, n.marking = some (p, last, before) ∧
      s'.marks = (p, before) :: s.marks ∧ (PageBit s' p ∨ n = .orSummary p last before) := by
  cases n with
  | idle => cases h
  | writeBytes address width =>
      simp only [nativeStoreStep] at h
      split at h <;> cases h <;> exact .inl rfl
  | loadWord page last before =>
      simp only [nativeStoreStep] at h
      split at h
      · next hbit =>
          cases h
          exact .inr ⟨page, last, before, rfl, rfl, .inl hbit⟩
      · cases h
        exact .inl rfl
  | orWord page last before =>
      simp only [nativeStoreStep] at h
      split at h
      · cases h
        exact .inl rfl
      · cases h
        exact .inr ⟨page, last, before, rfl, rfl,
          .inl ((getLsbD_orBit s.dirtyWords page page).mpr (.inr rfl))⟩
  | orSummary page last before =>
      cases h
      exact .inr ⟨page, last, before, rfl, rfl, .inr rfl⟩

/-- A store that comes to answer for a summary bit has set its page's bit. -/
theorem nativeStoreStep_raising {s s' : CoherencyState} {n : NativeStore} {p last : ℕ}
    {before : List EpochEvent}
    (h : nativeStoreStep s n = some (s', .orSummary p last before)) : PageBit s' p := by
  cases n with
  | orWord page l before' =>
      simp only [nativeStoreStep] at h
      split at h
      · cases h
        exact (getLsbD_orBit s.dirtyWords p p).mpr (.inr rfl)
      · simp only [Option.some.injEq, Prod.mk.injEq, NativeStore.nextPage] at h
        obtain ⟨-, h⟩ := h
        split at h <;> cases h
  | writeBytes address width =>
      simp only [nativeStoreStep] at h
      split at h <;> cases h
  | loadWord page l before' =>
      simp only [nativeStoreStep, NativeStore.nextPage] at h
      (repeat' split at h) <;> cases h
  | orSummary page l before' =>
      simp only [nativeStoreStep, NativeStore.nextPage, Option.some.injEq, Prod.mk.injEq] at h
      obtain ⟨-, h⟩ := h
      split at h <;> cases h
  | idle => cases h

/-- A consumer passes a summary word by reading it: it was zero, or the consumer
took all it named. -/
theorem consumerStep_passed {s s' : CoherencyState} {k k' : Consumer} {i : ℕ}
    (h : consumerStep s k = some (s', k')) (hi : i < summaryWordCount) (hp : k'.passed i) :
    k.passed i ∨ k.readsSummary = some i ∧
      (s.dirtySummary i = 0 ∨ ∀ w, w / 64 = i → SummaryBit s w → w ∈ k'.words) := by
  obtain ⟨step, wants, duties⟩ := k
  cases step with
  | idle => cases h
  | scanSummary index =>
      simp only [consumerStep] at h
      split at h
      · next hend => exact .inl (lt_of_lt_of_le hi hend)
      · next hin =>
          split at h
          · cases h
            cases hp
          · next hzero =>
              cases h
              rcases Nat.lt_succ_iff_lt_or_eq.mp hp with hlt | rfl
              · exact .inl hlt
              · exact .inr ⟨by simp [Consumer.readsSummary, hi], .inl (not_not.mp hzero)⟩
  | lock =>
      simp only [consumerStep] at h
      split at h <;> cases h
      cases hp
  | takeSummary index collected =>
      simp only [consumerStep] at h
      split at h
      · next hend => exact .inl (lt_of_lt_of_le hi hend)
      · cases h
        rcases Nat.lt_or_eq_of_le hp with hlt | rfl
        · exact .inl hlt
        · refine .inr ⟨by simp [Consumer.readsSummary, hi], .inr fun w hw hb => ?_⟩
          refine List.mem_map.mpr ⟨w % 64, mem_setBits.mpr ⟨Nat.mod_lt _ (by decide), ?_⟩, ?_⟩
          · exact hw ▸ hb
          · rw [← hw]
            exact Nat.div_add_mod' w 64
  | takeWord index words collected =>
      cases words with
      | nil =>
          cases h
          exact .inl (Nat.lt_succ_iff.mp hp)
      | cons word words =>
          cases h
          exact .inl hp
  | _ => exact .inl trivial

/-- What a consumer's step does besides: it leaves the marks alone, keeps its
duties, comes to sample the epoch only after it found no writer counted, and
returns the epoch it sampled. -/
theorem consumerStep_duties {s s' : CoherencyState} {k k' : Consumer}
    (h : consumerStep s k = some (s', k')) :
    s'.marks = s.marks ∧ (∀ m ∈ (NativeParty.ofConsumer k').duties, m ∈ k.duties) ∧
      (k'.role.samples = true → k.step = .loadWritersBefore ∧ s.activeWriters = 0) ∧
      (∀ E, k'.role.sampled = some E → k.role.samples = true ∧ s'.writeEpoch = E ∧ s' = s) ∧
      ∀ E, (NativeParty.ofConsumer k').result = some E → k.role.sampled = some E := by
  obtain ⟨step, wants, duties⟩ := k
  cases step with
  | idle => cases h
  | scanSummary index =>
      dsimp only [consumerStep] at h
      split at h
      · cases h
        cases wants with
        | false => exact ⟨rfl, nofun, nofun, nofun, nofun⟩
        | true => exact ⟨rfl, fun _ h => h, nofun, nofun, nofun⟩
      · split at h <;> cases h <;> exact ⟨rfl, fun _ h => h, nofun, nofun, nofun⟩
  | lock =>
      dsimp only [consumerStep] at h
      split at h <;> cases h
      exact ⟨rfl, fun _ h => h, nofun, nofun, nofun⟩
  | takeSummary index collected =>
      dsimp only [consumerStep] at h
      split at h
      · split at h <;> cases h <;> exact ⟨rfl, fun _ h => h, nofun, nofun, nofun⟩
      · cases h
        exact ⟨rfl, fun _ h => h, nofun, nofun, nofun⟩
  | takeWord index words collected =>
      cases words <;> cases h <;> exact ⟨rfl, fun _ h => h, nofun, nofun, nofun⟩
  | countIn collected =>
      cases h
      exact ⟨rfl, fun _ h => h, nofun, nofun, nofun⟩
  | drawEpoch collected =>
      dsimp only [consumerStep] at h
      split at h <;> cases h <;> exact ⟨rfl, fun _ h => h, nofun, nofun, nofun⟩
  | storeWrapped collected =>
      cases h
      exact ⟨rfl, fun _ h => h, nofun, nofun, nofun⟩
  | storePages epoch remaining =>
      cases remaining <;> cases h <;> exact ⟨rfl, fun _ h => h, nofun, nofun, nofun⟩
  | countOut =>
      cases h
      exact ⟨rfl, fun _ h => h, nofun, nofun, nofun⟩
  | unlock =>
      cases h
      cases wants with
      | false => exact ⟨rfl, nofun, nofun, nofun, nofun⟩
      | true => exact ⟨rfl, fun _ h => h, nofun, nofun, nofun⟩
  | loadWritersBefore =>
      dsimp only [consumerStep] at h
      split at h
      · cases h
        exact ⟨rfl, fun _ h => h, nofun, nofun, nofun⟩
      · next hzero =>
          cases h
          exact ⟨rfl, fun _ h => h, fun _ => ⟨rfl, not_not.mp hzero⟩, nofun, nofun⟩
  | loadEpoch =>
      cases h
      refine ⟨rfl, fun _ h => h, nofun, fun E hE => ?_, nofun⟩
      cases hE
      exact ⟨rfl, rfl, rfl⟩
  | loadWritersAfter epoch =>
      dsimp only [consumerStep] at h
      split at h
      · cases h
        exact ⟨rfl, fun _ h => h, nofun, nofun, nofun⟩
      · cases h
        refine ⟨rfl, fun _ h => h, nofun, nofun, fun E hE => ?_⟩
        cases hE
        rfl
  | returned epoch =>
      cases h
      exact ⟨rfl, nofun, nofun, nofun, nofun⟩

end Memory
end XenonRecomp
