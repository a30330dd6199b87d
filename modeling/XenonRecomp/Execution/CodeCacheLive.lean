/-
# What the compiled-code cache dispatches

The registry agrees with the history of a run whatever the steps are: each V2
entry in it is the live registration of its address (`backed_step`).  A hot hit
proves the whole snapshot, because a published source has one page and the entry
lies in it (`snapshotMatches_of_stamp`).  So the cache dispatches the live
registration as long as the hot slots lie in the registry, and the exact
condition for that is the one of the step theorem (`codeCache_runs`).
-/

import XenonRecomp.Execution.CodeCacheRuns
import Mathlib.Tactic.IntervalCases

namespace XenonRecomp
namespace Execution

open Cpu
open Library.Transition

variable {G F : Type}

/-! ## The registry and the history -/

/-- An entry's source was accepted for its address against some memory. -/
def Accepted (entry : GuestAddress) (source : ExecutableSourceSnapshot) : Prop :=
  ∃ memory, acceptsTranslation memory entry true source

/-- Every V2 entry of the registry is the live registration of its address. -/
def Backed (history : List (Op G F × Reply G F)) (c : CodeCache G F) : Prop :=
  ∀ k e, (k, e) ∈ c.entries → ∀ function, e.functionV2 = some function →
    liveRegistration history k = some ⟨k, some function, e.source, e.directCallSafe⟩ ∧
      Accepted k e.source

theorem liveRegistration_concat (history : List (Op G F × Reply G F)) (ev : Op G F × Reply G F)
    (k : GuestAddress) :
    liveRegistration (history ++ [ev]) k = track k (liveRegistration history k) ev := by
  simp [liveRegistration]

/-- The registry stays backed when an event withdraws nothing and the registry
only loses entries. -/
theorem Backed.of_subset {history : List (Op G F × Reply G F)} {c c' : CodeCache G F}
    {ev : Op G F × Reply G F} (h : Backed history c)
    (htrack : ∀ k live, track k live ev = live)
    (hmem : ∀ p ∈ c'.entries, p ∈ c.entries) : Backed (history ++ [ev]) c' := by
  intro k e he function hf
  rw [liveRegistration_concat, htrack]
  exact h k e (hmem _ he) function hf

theorem backed_registerCompiled {history : List (Op G F × Reply G F)} (w : World G F)
    (t : CompiledTranslation G) (h : Backed history w.cache) :
    Backed (history ++ [(.registerCompiled t, (step w (.registerCompiled t)).2)])
      (step w (.registerCompiled t)).1.cache := by
  simp only [step, registerCompiled]
  split
  · intro k e he function hf
    rw [liveRegistration_concat]
    rcases mem_insertOrAssign.mp he with heq | ⟨he, hk⟩
    · cases heq
      cases hf
    · simpa [track, Ne.symm hk] using h k e he function hf
  · exact h.of_subset (fun _ _ => rfl) fun p hp => hp

theorem backed_registerCompiledV2 {history : List (Op G F × Reply G F)} (w : World G F)
    (t : CompiledTranslationV2 F) (h : Backed history w.cache) :
    Backed (history ++ [(.registerCompiledV2 t, (step w (.registerCompiledV2 t)).2)])
      (step w (.registerCompiledV2 t)).1.cache := by
  simp only [step, registerCompiledV2]
  split
  · next hacc =>
      intro k e he function hf
      rw [liveRegistration_concat]
      rcases mem_insertOrAssign.mp he with heq | ⟨he, hk⟩
      · cases heq
        simp only at hf
        refine ⟨by simp [track, ← hf], w.memory, ?_⟩
        simpa [hf] using hacc
      · simpa [track, Ne.symm hk] using h k e he function hf
  · exact h.of_subset (fun _ _ => rfl) fun p hp => hp

theorem backed_invalidateGuestRange {history : List (Op G F × Reply G F)} (w : World G F)
    (base : GuestAddress) (size : BitVec 32) (h : Backed history w.cache) :
    Backed (history ++ [(.invalidateGuestRange base size, .done)])
      (invalidateGuestRange w.cache base size) := by
  intro k e he function hf
  have hmem : (k, e) ∈ w.cache.entries ∧
      rangesOverlap e.source.base e.source.size base size = false := by
    unfold invalidateGuestRange at he
    split at he
    · next hzero => exact ⟨he, by simp [rangesOverlap, hzero]⟩
    · simpa using he
  obtain ⟨hlive, hacc⟩ := h k e hmem.1 function hf
  rw [liveRegistration_concat, hlive]
  exact ⟨by simp [track, hmem.2], hacc⟩

/-- Every step keeps the registry backed by the history. -/
theorem backed_step (history : List (Op G F × Reply G F)) (w : World G F) (op : Op G F)
    (h : Backed history w.cache) :
    Backed (history ++ [(op, (step w op).2)]) (step w op).1.cache := by
  cases op with
  | registerCompiled t => exact backed_registerCompiled w t h
  | registerCompiledV2 t => exact backed_registerCompiledV2 w t h
  | lookup entry =>
      refine h.of_subset (fun _ _ => rfl) fun p hp => ?_
      simp only [step, lookup] at hp
      repeat' split at hp
      · exact hp
      · exact hp
      · exact (mem_erase.mp hp).1
  | lookupV2 entry kind =>
      refine h.of_subset (fun _ _ => rfl) fun p hp => ?_
      simp only [step, lookupV2] at hp
      repeat' split at hp
      · exact hp
      · exact hp
      · exact hp
      · exact hp
      · exact (mem_erase.mp hp).1
  | invalidateGuestRange base size => exact backed_invalidateGuestRange w base size h
  | clear => exact fun k e he => absurd he List.not_mem_nil
  | remap memory => exact h.of_subset (fun _ _ => rfl) fun p hp => hp

/-! ## What a hot hit proves -/

/-- Masking with the page mask rounds an address down to its page. -/
theorem and_not_pageMask_toNat (a : GuestAddress) :
    (a &&& ~~~guestPageMask).toNat = a.toNat / 4096 * 4096 := by
  have hshift : a &&& ~~~guestPageMask = (a >>> 12) <<< 12 := by
    ext i hi
    simp only [guestPageMask]
    interval_cases i <;> simp
  rw [hshift, BitVec.toNat_shiftLeft, BitVec.toNat_ushiftRight, Nat.shiftLeft_eq,
    Nat.shiftRight_eq_div_pow]
  have := a.isLt
  omega

/-- An address of a one-page source range lies in the page of its base. -/
theorem page_of_pageCount_one {base entry : GuestAddress} {size : BitVec 32}
    (hrange : validRange base size) (hcount : pageCount base size = 1)
    (hlo : base.toNat ≤ entry.toNat) (hhi : entry.toNat < base.toNat + size.toNat) :
    base.toNat / 4096 = entry.toNat / 4096 := by
  have hend : base.toNat + size.toNat ≤ 2 ^ 32 := by
    simp only [validRange, Bool.and_eq_true, decide_eq_true_eq] at hrange
    exact hrange.2
  set last := BitVec.ofNat 32 (base.toNat + size.toNat - 1) with hlast
  have hlastNat : last.toNat = base.toNat + size.toNat - 1 := by
    rw [hlast, BitVec.toNat_ofNat]
    omega
  have hsub : ((last &&& ~~~guestPageMask) - (base &&& ~~~guestPageMask)).toNat =
      last.toNat / 4096 * 4096 - base.toNat / 4096 * 4096 := by
    rw [BitVec.toNat_sub, and_not_pageMask_toNat, and_not_pageMask_toNat]
    omega
  have hdiv : (last.toNat / 4096 * 4096 - base.toNat / 4096 * 4096) / 4096 = 0 := by
    unfold pageCount at hcount
    rw [BitVec.toNat_add, BitVec.toNat_udiv, ← hlast, hsub] at hcount
    simp only [BitVec.toNat_ofNat, Nat.reducePow, Nat.reduceMod] at hcount
    omega
  omega

/-- For an accepted one-page source the stamp of the entry's own page decides
whether the whole snapshot is current. -/
theorem snapshotMatches_of_stamp {memory : PageStamps} {entry : GuestAddress}
    {source : ExecutableSourceSnapshot} {stamp : ExecutablePageStamp}
    (hacc : Accepted entry source) (hpages : source.pages = [stamp])
    (hstamp : executablePageStamp memory entry = stamp) : snapshotMatches memory source := by
  obtain ⟨memory₀, hacc⟩ := hacc
  simp only [acceptsTranslation, Bool.and_eq_true, decide_eq_true_eq] at hacc
  obtain ⟨⟨⟨⟨-, hvalid⟩, hmatch⟩, hlo⟩, hhi⟩ := hacc
  simp only [snapshotMatches, hvalid, hpages, List.length_singleton] at hmatch ⊢
  have hrange : validRange source.base source.size := by
    by_contra hno
    simp [hno] at hmatch
  have hcount : pageCount source.base source.size = 1 := by
    by_contra hno
    simp [hrange, Ne.symm hno] at hmatch
  have hpage : (source.base &&& ~~~guestPageMask).extractLsb' 12 20 =
      entry.extractLsb' 12 20 := by
    apply BitVec.eq_of_toNat_eq
    have hround := and_not_pageMask_toNat source.base
    have hsame := page_of_pageCount_one hrange hcount hlo hhi
    simp only [BitVec.extractLsb'_toNat, hround, Nat.shiftRight_eq_div_pow]
    omega
  simp only [hrange, hcount, executablePageStamp] at hstamp ⊢
  simpa [hpage] using hstamp

/-- **A function that `lookup_v2` returns is the live registration's, and the live
registration's snapshot is current,** whenever the hot slots lie in a registry
that the history backs. -/
theorem lookupV2_live {history : List (Op G F × Reply G F)} {w : World G F}
    {entry : GuestAddress} {kind : CompiledLookupKind} {function : F}
    (hsub : HotSubset w.cache) (hback : Backed history w.cache)
    (hret : (lookupV2 w.memory w.cache entry kind).2 = some function) :
    ∃ t, liveRegistration history entry = some t ∧ t.function = some function ∧
      snapshotMatches w.memory t.source := by
  unfold lookupV2 at hret
  split at hret
  · next found hhot =>
      simp only [Option.some.injEq] at hret
      subst hret
      simp only [hotLookup] at hhot
      split at hhot
      · next hcond =>
          obtain ⟨hkey, -, hstamp⟩ := hcond
          obtain ⟨e, he, -, hpub⟩ := hsub (hotIndex entry) (hkey ▸ hotKey_ne_zero entry)
          obtain rfl : e.entry = entry := hotKey_inj (hpub.key.symm.trans hkey)
          obtain ⟨f, stamp, hf, hpages, hslot⟩ := hpub
          rw [hslot] at hhot hstamp
          obtain rfl : f = found := by simpa using hhot
          obtain ⟨hlive, hacc⟩ := hback _ e he f hf
          refine ⟨_, hlive, rfl, snapshotMatches_of_stamp hacc hpages ?_⟩
          rw [hstamp, decodeStamp_encodeStamp]
      · cases hhot
  · split at hret
    · cases hret
    · next e hfind =>
        split at hret
        · cases hret
        · split at hret
          · next hmatch =>
              have he := mem_of_find hfind
              exact ⟨_, (hback _ e he function hret).1, rfl, hmatch⟩
          · cases hret

/-! ## Whole runs -/

/-- Every `lookup_v2` of the run that returns a function returns that of the live
registration of its entry, whose snapshot equals the stamps of all its pages. -/
def DispatchesLive (memory : PageStamps) (ops : List (Op G F)) : Prop :=
  ∀ pre entry kind post function, ops = pre ++ .lookupV2 entry kind :: post →
    (step (run step (World.init memory) pre) (.lookupV2 entry kind)).2 =
      .native (some function) →
    ∃ t, liveRegistration (trace step (World.init memory) pre) entry = some t ∧
      t.function = some function ∧
      snapshotMatches (run step (World.init memory) pre).memory t.source

/-- The hot slots are a subset of the registry in every state of the run. -/
def HotSubsetAlong (memory : PageStamps) (ops : List (Op G F)) : Prop :=
  ∀ pre, pre <+: ops → HotSubset (run step (World.init memory) pre).cache

theorem keyed_run (memory : PageStamps) (ops : List (Op G F)) :
    Keyed (run step (World.init memory) ops).cache := by
  refine history_invariant (I := fun _ w => Keyed w.cache) (P := fun _ _ => True)
    (fun _ w op h _ => keyed_step w op h) [] (World.init memory) ops
    (fun p hp => absurd hp List.not_mem_nil) ?_
  generalize World.init memory = w
  induction ops generalizing w with
  | nil => trivial
  | cons op ops ih => exact ⟨trivial, ih _⟩

/-- In a run of `Keeps` steps the registry is backed by the history and contains
the hot slots. -/
theorem backed_run (memory : PageStamps) (ops : List (Op G F))
    (h : Along step Keeps (World.init memory) ops) :
    Backed (trace step (World.init memory) ops) (run step (World.init memory) ops).cache := by
  simpa using history_invariant (I := fun history w => Backed history w.cache)
    (fun history w op hI _ => backed_step history w op hI) [] (World.init memory) ops
    (fun k e he => absurd he List.not_mem_nil) h

/-- **The hot slots stay inside the registry exactly in the runs that never
register a multi-page source over a held slot and never evict a held entry
through the legacy lookup; in those runs `lookup_v2` only ever dispatches the
live registration.** -/
theorem codeCache_runs (memory : PageStamps) (ops : List (Op G F)) :
    (HotSubsetAlong memory ops ↔ Along step Keeps (World.init memory) ops) ∧
      (Along step Keeps (World.init memory) ops → DispatchesLive memory ops) := by
  have hinit : Keyed (World.init memory : World G F).cache ∧
      HotSubset (World.init memory : World G F).cache :=
    ⟨fun p hp => absurd hp List.not_mem_nil, fun _ hi => absurd rfl hi⟩
  have hexact := invariant_iff_along (I := fun w : World G F => Keyed w.cache ∧ HotSubset w.cache)
    hotSubset_step_iff (World.init memory) ops hinit
  have hiff : HotSubsetAlong memory ops ↔ Along step Keeps (World.init memory) ops := by
    rw [← hexact]
    exact ⟨fun h pre hpre => ⟨keyed_run memory pre, h pre hpre⟩, fun h pre hpre => (h pre hpre).2⟩
  refine ⟨hiff, fun halong pre entry kind post function hops hret => ?_⟩
  subst hops
  have hpre : Along step Keeps (World.init memory) pre := ((along_append _ _ _).mp halong).1
  have hsub := hiff.mpr halong pre (List.prefix_append _ _)
  exact lookupV2_live hsub (backed_run memory pre hpre) (by simpa [step] using hret)

/-- The stamp of every page in the two runs below. -/
def stampA : ExecutablePageStamp := ⟨5, 1⟩

/-- A V2 registration of `0x1000` with a source of one page. -/
def onePage : CompiledTranslationV2 Bool := ⟨0x1000, some false, ⟨0x1000, 0x10, [stampA]⟩, true⟩

/-- A later registration of the same entry with a source of two pages. -/
def twoPages : CompiledTranslationV2 Bool :=
  ⟨0x1000, some true, ⟨0x1000, 0x1010, [stampA, stampA]⟩, true⟩

/-- Both paths dispatch withdrawn code: the function that a multi-page
registration replaced, and the function that `invalidate_guest_range` withdrew
after a legacy lookup evicted its entry. -/
theorem codeCache_dispatches_withdrawn :
    ¬DispatchesLive (G := Unit) (fun _ => stampA)
        [.registerCompiledV2 onePage, .registerCompiledV2 twoPages, .lookupV2 0x1000 .branch] ∧
      ¬DispatchesLive (G := Unit) (fun _ => stampA)
        [.registerCompiledV2 onePage, .remap fun _ => ⟨5, 2⟩, .lookup 0x1000,
          .invalidateGuestRange 0x1000 0x10, .remap fun _ => stampA, .lookupV2 0x1000 .branch] := by
  constructor
  · intro h
    obtain ⟨t, hlive, hfun, -⟩ := h [.registerCompiledV2 onePage, .registerCompiledV2 twoPages]
      0x1000 .branch [] false rfl (by decide)
    have htwo : t = twoPages := by
      have : liveRegistration (G := Unit) (trace step (World.init fun _ => stampA)
          [.registerCompiledV2 onePage, .registerCompiledV2 twoPages]) 0x1000 = some twoPages := by
        decide
      exact Option.some.inj (hlive.symm.trans this)
    subst htwo
    cases hfun
  · intro h
    obtain ⟨t, hlive, -⟩ := h [.registerCompiledV2 onePage, .remap fun _ => ⟨5, 2⟩, .lookup 0x1000,
      .invalidateGuestRange 0x1000 0x10, .remap fun _ => stampA] 0x1000 .branch [] false rfl
      (by decide)
    have hnone : liveRegistration (G := Unit) (trace step (World.init fun _ => stampA)
        [.registerCompiledV2 onePage, .remap fun _ => ⟨5, 2⟩, .lookup 0x1000,
          .invalidateGuestRange 0x1000 0x10, .remap fun _ => stampA]) 0x1000 = none := by
      decide
    rw [hnone] at hlive
    cases hlive

end Execution
end XenonRecomp
