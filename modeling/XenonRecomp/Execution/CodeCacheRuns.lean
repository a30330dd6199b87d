/-
# Runs of the compiled-code cache

Any sequence of cache operations, interleaved with any change of the memory's
page stamps, from a new cache.  The history of a run says which registration of
an entry is live: the most recent accepted one, if it was a V2 registration and
was not withdrawn since by `clear` or by an `invalidate_guest_range` over its
source.  The cache is right when `lookup_v2` answers from the live registration
only, and the hot slots are what makes that hard: the registry always agrees
with the history, but a slot outlives its registry entry unless every path that
drops or replaces the entry also clears the slot.

Two paths do not.  `register_compiled_v2` of a multi-page source leaves the slot
of an earlier single-page registration, and the legacy `lookup` erases a stale
entry without `clear_hot`.  `Keeps` says that a step takes neither; it is exactly
what keeps the hot slots inside the registry.
-/

import XenonRecomp.Execution.CodeCache
import XenonRecomp.Library.Transition

namespace XenonRecomp
namespace Execution

open Cpu
open Library.Transition

variable {G F : Type}

/-- The cache together with the page stamps of the memory it serves. -/
structure World (G F : Type) where
  memory : PageStamps
  cache : CodeCache G F

/-- One operation on the cache, or a change of the memory's stamps. -/
inductive Op (G F : Type) where
  | registerCompiled (t : CompiledTranslation G)
  | registerCompiledV2 (t : CompiledTranslationV2 F)
  | lookup (entry : GuestAddress)
  | lookupV2 (entry : GuestAddress) (kind : CompiledLookupKind)
  | invalidateGuestRange (base : GuestAddress) (size : BitVec 32)
  | clear
  | remap (memory : PageStamps)

/-- What an operation returns. -/
inductive Reply (G F : Type) where
  | registered (accepted : Bool)
  | legacy (function : Option G)
  | native (function : Option F)
  | done
deriving DecidableEq

/-- One step: the operation against the stamps of now. -/
def step (w : World G F) : Op G F → World G F × Reply G F
  | .registerCompiled t =>
      ({ w with cache := (registerCompiled w.memory w.cache t).1 },
        .registered (registerCompiled w.memory w.cache t).2)
  | .registerCompiledV2 t =>
      ({ w with cache := (registerCompiledV2 w.memory w.cache t).1 },
        .registered (registerCompiledV2 w.memory w.cache t).2)
  | .lookup entry =>
      ({ w with cache := (lookup w.memory w.cache entry).1 },
        .legacy (lookup w.memory w.cache entry).2)
  | .lookupV2 entry kind =>
      ({ w with cache := (lookupV2 w.memory w.cache entry kind).1 },
        .native (lookupV2 w.memory w.cache entry kind).2)
  | .invalidateGuestRange base size =>
      ({ w with cache := invalidateGuestRange w.cache base size }, .done)
  | .clear => ({ w with cache := clear w.cache }, .done)
  | .remap memory => ({ w with memory := memory }, .done)

/-- A new cache over some memory. -/
def World.init (memory : PageStamps) : World G F := ⟨memory, CodeCache.init⟩

/-- What one event does to the live registration of an entry. -/
def track (entry : GuestAddress) (live : Option (CompiledTranslationV2 F)) :
    Op G F × Reply G F → Option (CompiledTranslationV2 F)
  | (.registerCompiled t, .registered true) => if t.entry = entry then none else live
  | (.registerCompiledV2 t, .registered true) => if t.entry = entry then some t else live
  | (.invalidateGuestRange base size, _) =>
      live.filter fun t => !rangesOverlap t.source.base t.source.size base size
  | (.clear, _) => none
  | _ => live

/-- The most recent accepted registration of an entry, when it is a V2 one that
neither `clear` nor an overlapping `invalidate_guest_range` withdrew since. -/
def liveRegistration (history : List (Op G F × Reply G F)) (entry : GuestAddress) :
    Option (CompiledTranslationV2 F) :=
  history.foldl (track entry) none

/-- The hot slot of an entry holds that entry. -/
def HoldsHot (c : CodeCache G F) (entry : GuestAddress) : Prop :=
  (c.hotEntries (hotIndex entry)).guestKey = hotKey entry

/-- The step takes neither path that leaves a hot slot behind: it is not a V2
registration of a multi-page source, and not a legacy lookup of a stale entry,
for an entry that its hot slot holds. -/
def Keeps (w : World G F) : Op G F → Prop
  | .registerCompiledV2 t =>
      acceptsTranslation w.memory t.entry t.function.isSome t.source →
        t.source.pages.length ≠ 1 → ¬HoldsHot w.cache t.entry
  | .lookup entry =>
      ∀ e, find w.cache.entries entry = some e → snapshotMatches w.memory e.source = false →
        ¬HoldsHot w.cache entry
  | _ => True

/-- A hot slot holds what `publish_hot` writes for this entry. -/
def Published (hot : HotEntry F) (e : Entry G F) : Prop :=
  ∃ function stamp, e.functionV2 = some function ∧ e.source.pages = [stamp] ∧
    hot = ⟨hotKey e.entry, some function, encodeStamp stamp, if e.directCallSafe then 1 else 0⟩

/-- **The hot slots are a subset of the registry.** -/
def HotSubset (c : CodeCache G F) : Prop :=
  ∀ i, (c.hotEntries i).guestKey ≠ 0 →
    ∃ e : Entry G F, (e.entry, e) ∈ c.entries ∧ hotIndex e.entry = i ∧
      Published (c.hotEntries i) e

/-- Every registry entry stands under its own address. -/
def Keyed (c : CodeCache G F) : Prop :=
  ∀ p ∈ c.entries, p.2.entry = p.1

/-! ## The hot slots -/

/-- `clear_hot` leaves no slot holding the entry and changes no other slot. -/
theorem clearHot_key {hot : BitVec 8 → HotEntry F} {k : GuestAddress} {i : BitVec 8}
    (h : (clearHot hot k i).guestKey ≠ 0) :
    clearHot hot k i = hot i ∧ ¬(i = hotIndex k ∧ (hot i).guestKey = hotKey k) := by
  unfold clearHot at h ⊢
  by_cases hk : (hot (hotIndex k)).guestKey = hotKey k
  · rw [if_pos hk] at h ⊢
    by_cases hi : i = hotIndex k
    · subst hi
      simp at h
    · exact ⟨Function.update_of_ne hi _ _, fun hc => hi hc.1⟩
  · rw [if_neg hk] at h ⊢
    refine ⟨rfl, ?_⟩
    rintro ⟨rfl, hc⟩
    exact hk hc

/-- `publish_hot` either writes a slot for the entry or changes nothing. -/
theorem publishHot_cases (hot : BitVec 8 → HotEntry F) (e : Entry G F) :
    (∃ slot, Published slot e ∧ publishHot hot e = Function.update hot (hotIndex e.entry) slot) ∨
      (e.functionV2 = none ∨ e.source.pages.length ≠ 1) ∧ publishHot hot e = hot := by
  unfold publishHot
  split
  · next function stamp hf hp => exact .inl ⟨_, ⟨function, stamp, hf, hp, rfl⟩, rfl⟩
  · next hno =>
      refine .inr ⟨?_, rfl⟩
      cases hf : e.functionV2 with
      | none => exact .inl rfl
      | some function =>
          refine .inr fun hlen => ?_
          obtain ⟨stamp, hp⟩ := List.length_eq_one_iff.mp hlen
          exact hno function stamp hf hp

/-- A published slot has its entry's key. -/
theorem Published.key {hot : HotEntry F} {e : Entry G F} (h : Published hot e) :
    hot.guestKey = hotKey e.entry := by
  obtain ⟨_, _, _, _, rfl⟩ := h
  rfl

/-- A subset of the hot slots is still backed by a registry that kept every
entry except those under `k`, if no remaining slot holds `k`. -/
theorem HotSubset.drop {c c' : CodeCache G F} {k : GuestAddress} (h : HotSubset c)
    (hslot : ∀ i, (c'.hotEntries i).guestKey ≠ 0 →
      c'.hotEntries i = c.hotEntries i ∧
        ¬(i = hotIndex k ∧ (c.hotEntries i).guestKey = hotKey k))
    (hmem : ∀ p ∈ c.entries, p.1 ≠ k → p ∈ c'.entries) : HotSubset c' := by
  intro i hi
  obtain ⟨heq, hnot⟩ := hslot i hi
  rw [heq] at hi ⊢
  obtain ⟨e, he, hidx, hpub⟩ := h i hi
  refine ⟨e, hmem _ he fun hk => hnot ⟨?_, ?_⟩, hidx, hpub⟩
  · rw [← hidx, ← hk]
  · rw [hpub.key, ← hk]

/-- Publishing a registry entry keeps the subset. -/
theorem HotSubset.publish {c c' : CodeCache G F} {e : Entry G F} (h : HotSubset c)
    (hhot : c'.hotEntries = publishHot c.hotEntries e) (he : (e.entry, e) ∈ c'.entries)
    (hmem : ∀ p ∈ c.entries, p.1 ≠ e.entry → p ∈ c'.entries)
    (hnot : e.functionV2 = none ∨ e.source.pages.length ≠ 1 →
      ¬HoldsHot c e.entry ∨ (∀ p ∈ c.entries, p ∈ c'.entries)) : HotSubset c' := by
  rcases publishHot_cases c.hotEntries e with ⟨slot, hslot, hpub⟩ | ⟨hno, hpub⟩
  · intro i hi
    rw [hhot, hpub] at hi ⊢
    by_cases hidx : i = hotIndex e.entry
    · subst hidx
      rw [Function.update_self]
      exact ⟨e, he, rfl, hslot⟩
    · rw [Function.update_of_ne hidx] at hi ⊢
      obtain ⟨e', he', hidx', hpub'⟩ := h i hi
      refine ⟨e', hmem _ he' fun hk => hidx ?_, hidx', hpub'⟩
      rw [← hidx', ← hk]
  · rw [hpub] at hhot
    rcases hnot hno with hfree | hall
    · refine h.drop (k := e.entry) (fun i _ => ?_) hmem
      rw [hhot]
      refine ⟨rfl, ?_⟩
      rintro ⟨rfl, hkey⟩
      exact hfree hkey
    · intro i hi
      rw [hhot] at hi ⊢
      obtain ⟨e', he', hidx', hpub'⟩ := h i hi
      exact ⟨e', hall _ he', hidx', hpub'⟩

/-- Clearing slots one after another leaves each slot as it was or empty, and no
slot holding one of the cleared entries. -/
theorem foldl_clearHot_key {l : List (GuestAddress × Entry G F)} {hot : BitVec 8 → HotEntry F}
    {i : BitVec 8} (h : (l.foldl (fun hot p => clearHot hot p.1) hot i).guestKey ≠ 0) :
    l.foldl (fun hot p => clearHot hot p.1) hot i = hot i ∧
      ∀ p ∈ l, ¬(i = hotIndex p.1 ∧ (hot i).guestKey = hotKey p.1) := by
  induction l generalizing hot with
  | nil => exact ⟨rfl, by simp⟩
  | cons p l ih =>
      obtain ⟨heq, hrest⟩ := ih h
      have hne : (clearHot hot p.1 i).guestKey ≠ 0 := by
        intro hzero
        exact h ((congrArg HotEntry.guestKey heq).trans hzero)
      obtain ⟨hsame, hp⟩ := clearHot_key hne
      refine ⟨heq.trans hsame, fun q hq => ?_⟩
      rcases List.mem_cons.mp hq with rfl | hq
      · exact hp
      · exact hsame ▸ hrest q hq

/-! ## What a step does to the hot slots -/

/-- Dropping a registry entry and not its slot breaks the subset exactly when the
slot holds the entry. -/
theorem HotSubset.of_same_hot {c c' : CodeCache G F} {k : GuestAddress} (h : HotSubset c)
    (hhot : c'.hotEntries = c.hotEntries)
    (hmem : ∀ p ∈ c.entries, p.1 ≠ k → p ∈ c'.entries)
    (hgone : ∀ e, (k, e) ∈ c'.entries → e.source.pages.length ≠ 1) :
    HotSubset c' ↔ ¬HoldsHot c k := by
  constructor
  · intro h' hold
    have hkey : (c'.hotEntries (hotIndex k)).guestKey = hotKey k := by
      rw [hhot]
      exact hold
    obtain ⟨e, he, -, hpub⟩ := h' (hotIndex k) (hkey ▸ hotKey_ne_zero k)
    obtain rfl : e.entry = k := hotKey_inj (hpub.key.symm.trans hkey)
    obtain ⟨_, _, _, hpages, _⟩ := hpub
    exact hgone e he (by rw [hpages]; rfl)
  · intro hfree
    refine h.drop (k := k) (fun i _ => ?_) hmem
    rw [hhot]
    refine ⟨rfl, ?_⟩
    rintro ⟨rfl, hkey⟩
    exact hfree hkey

theorem hotSubset_registerCompiled {memory : PageStamps} {c : CodeCache G F}
    (t : CompiledTranslation G) (h : HotSubset c) :
    HotSubset (registerCompiled memory c t).1 := by
  unfold registerCompiled
  split
  · refine h.drop (k := t.entry) (fun i hi => clearHot_key hi) fun p hp hk => ?_
    exact mem_insertOrAssign.mpr (.inr ⟨hp, hk⟩)
  · exact h

theorem hotSubset_registerCompiledV2 {memory : PageStamps} {c : CodeCache G F}
    (t : CompiledTranslationV2 F) (h : HotSubset c) :
    HotSubset (registerCompiledV2 memory c t).1 ↔
      (acceptsTranslation memory t.entry t.function.isSome t.source →
        t.source.pages.length ≠ 1 → ¬HoldsHot c t.entry) := by
  unfold registerCompiledV2
  by_cases hacc : acceptsTranslation memory t.entry t.function.isSome t.source
  · simp only [hacc, if_true, forall_const]
    by_cases hlen : t.source.pages.length = 1
    · refine iff_of_true ?_ fun hne => absurd hlen hne
      refine h.publish rfl (mem_insertOrAssign.mpr (.inl rfl))
        (fun p hp hk => mem_insertOrAssign.mpr (.inr ⟨hp, hk⟩)) fun hno => ?_
      rcases hno with hno | hno
      · simp [acceptsTranslation, show t.function = none from hno] at hacc
      · exact absurd hlen hno
    · simp only [ne_eq, hlen, not_false_eq_true, forall_const]
      refine h.of_same_hot ?_ (fun p hp hk => mem_insertOrAssign.mpr (.inr ⟨hp, hk⟩)) ?_
      · rcases publishHot_cases c.hotEntries
          (⟨t.entry, none, t.function, t.source, t.directCallSafe,
            (takeSerial c.nextSerial).1⟩ : Entry G F) with ⟨_, ⟨_, _, _, hp, _⟩, _⟩ | ⟨_, hpub⟩
        · exact absurd (by rw [show t.source.pages = _ from hp]; rfl) hlen
        · exact hpub
      · intro e he
        rcases mem_insertOrAssign.mp he with heq | ⟨_, hk⟩
        · cases heq
          exact hlen
        · exact absurd rfl hk
  · simp only [hacc, Bool.false_eq_true, if_false, false_implies, iff_true]
    exact h

theorem hotSubset_lookup {memory : PageStamps} {c : CodeCache G F} (entry : GuestAddress)
    (h : HotSubset c) :
    HotSubset (lookup memory c entry).1 ↔
      ∀ e, find c.entries entry = some e → snapshotMatches memory e.source = false →
        ¬HoldsHot c entry := by
  unfold lookup
  cases hfind : find c.entries entry with
  | none => simpa using h
  | some e =>
      simp only [Option.some.injEq, forall_eq']
      by_cases hmatch : snapshotMatches memory e.source
      · simp only [hmatch, if_true, Bool.true_eq_false, false_implies, iff_true]
        exact h
      · simp only [hmatch, Bool.false_eq_true, if_false, forall_const]
        exact h.of_same_hot rfl (fun p hp hk => mem_erase.mpr ⟨hp, hk⟩) fun e he =>
          absurd rfl (mem_erase.mp he).2

theorem hotSubset_lookupV2 {memory : PageStamps} {c : CodeCache G F} (entry : GuestAddress)
    (kind : CompiledLookupKind) (hkeyed : Keyed c) (h : HotSubset c) :
    HotSubset (lookupV2 memory c entry kind).1 := by
  unfold lookupV2
  split
  · exact h
  · split
    · exact h
    · next e hfind =>
        have hentry : e.entry = entry := hkeyed _ (mem_of_find hfind)
        split
        · exact h
        · split
          · refine h.publish rfl ?_ (fun p hp _ => hp) fun _ => .inr fun p hp => hp
            rw [hentry]
            exact mem_of_find hfind
          · exact h.drop (k := entry) (fun i hi => clearHot_key hi) fun p hp hk =>
              mem_erase.mpr ⟨hp, hk⟩

theorem hotSubset_invalidateGuestRange {c : CodeCache G F} (base : GuestAddress)
    (size : BitVec 32) (h : HotSubset c) : HotSubset (invalidateGuestRange c base size) := by
  unfold invalidateGuestRange
  split
  · exact h
  · intro i hi
    obtain ⟨heq, hclear⟩ := foldl_clearHot_key hi
    have hkey : (c.hotEntries i).guestKey ≠ 0 := fun hzero =>
      hi ((congrArg HotEntry.guestKey heq).trans hzero)
    obtain ⟨e, he, hidx, hpub⟩ := h i hkey
    refine ⟨e, List.mem_filter.mpr ⟨he, ?_⟩, hidx, by rw [← heq] at hpub; exact hpub⟩
    by_contra hover
    simp only [Bool.not_eq_true', Bool.not_eq_false] at hover
    exact hclear _ (List.mem_filter.mpr ⟨he, hover⟩) ⟨hidx.symm, hpub.key⟩

theorem hotSubset_clear (c : CodeCache G F) : HotSubset (clear c) :=
  fun _ hi => absurd rfl hi

/-! ## The registry -/

/-- Every operation keeps the registry keyed. -/
theorem keyed_step (w : World G F) (op : Op G F) (h : Keyed w.cache) :
    Keyed (step w op).1.cache := by
  have hinsert : ∀ {k : GuestAddress} {v : Entry G F}, v.entry = k →
      ∀ p ∈ insertOrAssign w.cache.entries k v, p.2.entry = p.1 := by
    intro k v hv p hp
    rcases mem_insertOrAssign.mp hp with rfl | ⟨hp, _⟩
    · exact hv
    · exact h p hp
  have herase : ∀ {k : GuestAddress}, ∀ p ∈ erase w.cache.entries k, p.2.entry = p.1 :=
    fun p hp => h p (mem_erase.mp hp).1
  cases op with
  | registerCompiled t =>
      simp only [step, registerCompiled]
      split
      · exact hinsert rfl
      · exact h
  | registerCompiledV2 t =>
      simp only [step, registerCompiledV2]
      split
      · exact hinsert rfl
      · exact h
  | lookup entry =>
      simp only [step, lookup]
      split
      · exact h
      · split
        · exact h
        · exact herase
  | lookupV2 entry kind =>
      simp only [step, lookupV2]
      repeat' split
      · exact h
      · exact h
      · exact h
      · exact h
      · exact herase
  | invalidateGuestRange base size =>
      simp only [step, invalidateGuestRange]
      split
      · exact h
      · exact fun p hp => h p (List.mem_filter.mp hp).1
  | clear => exact fun p hp => absurd hp (List.not_mem_nil)
  | remap memory => exact h

/-- **A step keeps the hot slots inside the registry exactly when it takes
neither path that leaves a slot behind.** -/
theorem hotSubset_step_iff (w : World G F) (op : Op G F)
    (h : Keyed w.cache ∧ HotSubset w.cache) :
    Keyed (step w op).1.cache ∧ HotSubset (step w op).1.cache ↔ Keeps w op := by
  rw [and_iff_right (keyed_step w op h.1)]
  obtain ⟨hkeyed, hsub⟩ := h
  cases op with
  | registerCompiled t => exact iff_of_true (hotSubset_registerCompiled t hsub) trivial
  | registerCompiledV2 t => exact hotSubset_registerCompiledV2 t hsub
  | lookup entry => exact hotSubset_lookup entry hsub
  | lookupV2 entry kind => exact iff_of_true (hotSubset_lookupV2 entry kind hkeyed hsub) trivial
  | invalidateGuestRange base size =>
      exact iff_of_true (hotSubset_invalidateGuestRange base size hsub) trivial
  | clear => exact iff_of_true (hotSubset_clear w.cache) trivial
  | remap memory => exact iff_of_true hsub trivial

end Execution
end XenonRecomp
