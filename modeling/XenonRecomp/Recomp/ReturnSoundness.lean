/-
# What an inferred no-return means

The functions that the scanners leave, with the decoded instructions of their ranges.
From a fixed point that no order of visits changes (`settles`), a function that was
decided not to return has no unconditional return, and its unconditional exits, of which
there is one at least, lead to functions that do not return
(`inferReturnBehaviors_sound`).  The inference looks at the ends of blocks only, so a
conditional return or a conditional exit does not hinder it
(`inferReturnBehaviors_ignores_conditional`).
-/

import XenonRecomp.Recomp.ReturnInference

namespace XenonRecomp
namespace Recomp

open Cpu Library.ChaoticIteration

/-- A function as the scanners leave it, with the instructions that they decoded in its
ranges. -/
structure ScannedFunction where
  function : ReturningFunction
  sites : List Site
  branches_eq : function.branches = sites.flatMap Site.branches
  hasExplicitReturn_eq : function.hasExplicitReturn = sites.any Site.returnsExplicitly
  returnBehavior_eq : function.returnBehavior =
    if function.returnBehaviorExplicit then .noReturn
    else if function.hasExplicitReturn then .mayReturn
    else .unknown

namespace ScannedFunction

variable (scanned : ScannedFunction)

/-- The scanners have made the inference's first step. -/
theorem seedReturn_eq : seedReturn scanned.function = scanned.function := by
  have hbehavior := scanned.returnBehavior_eq
  unfold seedReturn
  split
  · rfl
  · split
    · next h =>
      rw [Bool.and_eq_true, Bool.not_eq_true'] at h
      rw [h.1, h.2] at hbehavior
      have hmay : scanned.function.returnBehavior = .mayReturn := hbehavior
      rw [← hmay]
    · rfl

/-- The targets of the exits that a visit looks at are those of the unconditional exits
that leave the function. -/
theorem exists_tailExit_iff {target : GuestAddress} :
    (∃ branch ∈ tailExits scanned.function, branch.target = target) ↔
      ∃ site ∈ scanned.sites, isConditionalControlTransfer site.instruction = false ∧
        target ∈ site.exitTargets ∧ scanned.function.ownsAddress target = false := by
  constructor
  · rintro ⟨branch, hmem, rfl⟩
    obtain ⟨hbranch, hskip⟩ := List.mem_filter.1 hmem
    rw [scanned.branches_eq] at hbranch
    obtain ⟨site, hsite, hbranch⟩ := List.mem_flatMap.1 hbranch
    rw [skipsBranch, Bool.not_eq_true', Bool.or_eq_false_iff, Bool.or_eq_false_iff,
      Bool.or_eq_false_iff, Bool.not_eq_false'] at hskip
    obtain ⟨⟨⟨hlinked, hterminal⟩, hconditional⟩, howned⟩ := hskip
    obtain ⟨hunconditional, htarget⟩ :=
      site.exists_branch_iff.1 ⟨branch, hbranch, hlinked, hterminal, hconditional, rfl⟩
    exact ⟨site, hsite, hunconditional, htarget, howned⟩
  · rintro ⟨site, hsite, hunconditional, htarget, howned⟩
    obtain ⟨branch, hbranch, hlinked, hterminal, hconditional, rfl⟩ :=
      site.exists_branch_iff.2 ⟨hunconditional, htarget⟩
    refine ⟨branch, List.mem_filter.2 ⟨?_, ?_⟩, rfl⟩
    · rw [scanned.branches_eq]
      exact List.mem_flatMap.2 ⟨site, hsite, hbranch⟩
    · rw [skipsBranch, hlinked, hterminal, hconditional, howned]
      rfl

end ScannedFunction

/-- A function that does not return starts at the address. -/
def LeadsNowhere (functions : List ReturningFunction) (address : GuestAddress) : Prop :=
  ∃ g ∈ functions, g.guestStart = address ∧ g.returnBehavior = .noReturn

theorem leadsNowhere_of_behaviorAt {functions : List ReturningFunction} {address : GuestAddress}
    (h : behaviorAt functions address = some .noReturn) : LeadsNowhere functions address := by
  obtain ⟨g, hfind, hbehavior⟩ := Option.map_eq_some_iff.1 h
  unfold findFunction at hfind
  split at hfind
  · next fn hfound =>
    split at hfind
    · next hstart =>
      rw [← Option.some.inj hfind] at hbehavior
      exact ⟨fn, List.mem_of_find?_eq_some hfound, hstart, hbehavior⟩
    · exact absurd hfind (by simp)
  · exact absurd hfind (by simp)

/-- **Any order of visits settles**, within one pass for each function and one more, at
the same functions. -/
theorem settles {orders : ℕ → List ℕ} (functions : List ReturningFunction)
    (horders : ∀ k, (orders k).Perm (List.range functions.length)) :
    Stable visit (settle visit orders (max 1 (functions.length + 1)) 0 functions).1 ∧
      (settle visit orders (max 1 (functions.length + 1)) 0 functions).2 ≤
        functions.length + 1 := by
  have hle : undecided functions ≤ functions.length := List.countP_le_length
  have hcover : ∀ (t : List ReturningFunction) (count i : ℕ), Extends functions t →
      i ∉ orders count → (visit i t).1 = t := by
    intro t count i hst hi
    have hlength : t.length = functions.length := hst.length_eq.symm
    rw [(horders count).mem_iff, List.mem_range, ← hlength, not_lt] at hi
    rw [visit, List.getElem?_eq_none hi]
  obtain ⟨hstable, hcount⟩ := (improving functions).settle_stable undecided_visit
    (max 1 (functions.length + 1)) 0 hcover (by omega)
  exact ⟨hstable, by omega⟩

/-- Before a visit nothing was decided. -/
theorem justified_refl (functions : List ReturningFunction) : Justified functions functions := by
  refine ⟨Extends.refl functions, fun i f g hf hg hunknown hknown => ?_⟩
  rw [hf] at hg
  rw [Option.some.inj hg] at hunknown
  exact absurd hunknown hknown

/-- The functions that the inference leaves. -/
def inferred (scanned : List ScannedFunction) (warnings : List String) :
    List ReturningFunction :=
  (inferReturnBehaviors (scanned.map ScannedFunction.function) warnings).2.1

/-- The first step changes nothing that the scanners left. -/
theorem map_seedReturn (scanned : List ScannedFunction) :
    (scanned.map ScannedFunction.function).map seedReturn =
      scanned.map ScannedFunction.function := by
  rw [List.map_map]
  exact List.map_congr_left fun s _ => s.seedReturn_eq

/-- What the inference leaves is justified. -/
theorem justified_inferred (scanned : List ScannedFunction) (warnings : List String) :
    Justified (scanned.map ScannedFunction.function) (inferred scanned warnings) := by
  unfold inferred inferReturnBehaviors inferReturnBehaviorsIn
  dsimp only
  rw [map_seedReturn]
  exact (improving _).good_settle _ _ 0 (justified_refl _)

/-- The conditions under which the inference decides that a function does not return. -/
structure SoundNoReturn (functions : List ReturningFunction) (scanned : ScannedFunction) :
    Prop where
  noReturn : ∀ site ∈ scanned.sites, site.returns = true →
    isConditionalControlTransfer site.instruction = true
  exits : ∀ site ∈ scanned.sites, isConditionalControlTransfer site.instruction = false →
    ∀ target ∈ site.exitTargets, scanned.function.ownsAddress target = false →
      LeadsNowhere functions target
  leaves : ∃ site ∈ scanned.sites, isConditionalControlTransfer site.instruction = false ∧
    ∃ target ∈ site.exitTargets, scanned.function.ownsAddress target = false

/-- A function that was decided not to return meets them. -/
theorem soundNoReturn_of_inferred {scanned : List ScannedFunction} {warnings : List String}
    {i : ℕ} {s : ScannedFunction} {g : ReturningFunction} (hs : scanned[i]? = some s)
    (hg : (inferred scanned warnings)[i]? = some g)
    (hunknown : s.function.returnBehavior = .unknown) (hno : g.returnBehavior = .noReturn) :
    SoundNoReturn (inferred scanned warnings) s := by
  have hjustified := justified_inferred scanned warnings
  have hf : (scanned.map ScannedFunction.function)[i]? = some s.function := by
    rw [List.getElem?_map, hs]
    rfl
  have hbase : g.toDiscoveredFunction = s.function.toDiscoveredFunction := by
    rcases hjustified.extends'.getElem? i with ⟨hnone, -⟩ | ⟨f', g', hf', hg', hdecides⟩
    · rw [hf] at hnone
      exact absurd hnone (by simp)
    · rw [hf] at hf'
      rw [hg] at hg'
      rw [Option.some.inj hf', Option.some.inj hg']
      exact hdecides.base
  have hjudge : judge (inferred scanned warnings) s.function = .noReturn := by
    rw [← judge_congr _ hbase,
      hjustified.justified i s.function g hf hg hunknown (by rw [hno]; decide), hno]
  obtain ⟨hexit, hall⟩ := judge_eq_noReturn.1 hjudge
  have hbehavior := s.returnBehavior_eq
  rw [hunknown] at hbehavior
  have hreturn : s.function.hasExplicitReturn = false := by
    cases hexplicit : s.function.returnBehaviorExplicit with
    | true =>
      rw [hexplicit] at hbehavior
      exact absurd hbehavior ReturnBehavior.noConfusion
    | false =>
      cases hreturn : s.function.hasExplicitReturn with
      | false => rfl
      | true =>
        rw [hexplicit, hreturn] at hbehavior
        exact absurd hbehavior ReturnBehavior.noConfusion
  refine ⟨fun site hsite hreturns => ?_, fun site hsite hunconditional target htarget howned => ?_,
    ?_⟩
  · rw [s.hasExplicitReturn_eq, List.any_eq_false] at hreturn
    exact site.conditional_of_returns hreturns (Bool.eq_false_iff.2 (hreturn site hsite))
  · obtain ⟨branch, hmem, rfl⟩ :=
      s.exists_tailExit_iff.2 ⟨site, hsite, hunconditional, htarget, howned⟩
    exact leadsNowhere_of_behaviorAt (hall branch hmem)
  · obtain ⟨branch, hmem⟩ := List.exists_mem_of_ne_nil _ hexit
    obtain ⟨site, hsite, hunconditional, htarget, howned⟩ :=
      s.exists_tailExit_iff.1 ⟨branch, hmem, rfl⟩
    exact ⟨site, hsite, hunconditional, _, htarget, howned⟩

/-- **Return inference is sound for the ends of blocks, and free of order.**  A function
that it decides not to return has no unconditional return, and its unconditional exits,
of which it has one, lead to functions that do not return; it changes nothing that
metadata says, and of the rest only what was unknown; it ends at a fixed point within its
bound of passes; and the functions, counts and warnings do not depend on the order of the
visits. -/
theorem inferReturnBehaviors_sound (scanned : List ScannedFunction) (warnings : List String) :
    (∀ (i : ℕ) (s : ScannedFunction) (g : ReturningFunction), scanned[i]? = some s →
      (inferred scanned warnings)[i]? = some g → s.function.returnBehavior = .unknown →
        g.returnBehavior = .noReturn → SoundNoReturn (inferred scanned warnings) s) ∧
    (∀ i : ℕ, (scanned[i]? = none ∧ (inferred scanned warnings)[i]? = none) ∨
      ∃ (s : ScannedFunction) (g : ReturningFunction), scanned[i]? = some s ∧
        (inferred scanned warnings)[i]? = some g ∧ Decides s.function g ∧
          (s.function.returnBehaviorExplicit = true →
            g.returnBehavior = s.function.returnBehavior)) ∧
    (Stable visit (inferred scanned warnings) ∧
      (inferReturnBehaviors (scanned.map ScannedFunction.function) warnings).1.iterations ≤
        scanned.length + 1) ∧
    (∀ orders : ℕ → List ℕ, (∀ k, (orders k).Perm (List.range scanned.length)) →
      (inferReturnBehaviorsIn orders (scanned.map ScannedFunction.function) warnings).2 =
        (inferReturnBehaviors (scanned.map ScannedFunction.function) warnings).2) := by
  have hrange : ∀ k : ℕ, ((fun _ => List.range (scanned.map ScannedFunction.function).length)
      k : List ℕ).Perm (List.range (scanned.map ScannedFunction.function).length) :=
    fun _ => List.Perm.refl _
  refine ⟨fun i s g hs hg hunknown hno => soundNoReturn_of_inferred hs hg hunknown hno,
    fun i => ?_, ?_, fun orders horders => ?_⟩
  · rcases (justified_inferred scanned warnings).extends'.getElem? i with
      ⟨hnone, hnone'⟩ | ⟨f, g, hf, hg, hdecides⟩
    · rw [List.getElem?_map, Option.map_eq_none_iff] at hnone
      exact Or.inl ⟨hnone, hnone'⟩
    · rw [List.getElem?_map] at hf
      obtain ⟨s, hs, rfl⟩ := Option.map_eq_some_iff.1 hf
      refine Or.inr ⟨s, g, hs, hg, hdecides, fun hexplicit => hdecides.of_decided ?_⟩
      rw [s.returnBehavior_eq, hexplicit, if_pos rfl]
      decide
  · unfold inferred inferReturnBehaviors inferReturnBehaviorsIn
    dsimp only
    rw [map_seedReturn]
    have hsettles := settles _ hrange
    rw [List.length_map] at hsettles ⊢
    exact hsettles
  · unfold inferReturnBehaviors inferReturnBehaviorsIn
    dsimp only
    rw [map_seedReturn]
    have horders' : ∀ k, (orders k).Perm
        (List.range (scanned.map ScannedFunction.function).length) := by
      rw [List.length_map]
      exact horders
    rw [(improving _).settle_unique (justified_refl _) (settles _ horders').1
      (settles _ hrange).1]

/-- A decoded return was seen before the first visit. -/
theorem seedReturn_of_decides {f g : ReturningFunction} (h : Decides (seedReturn f) g) :
    seedReturn g = g := by
  have hkept : (seedReturn f).returnBehaviorExplicit = f.returnBehaviorExplicit ∧
      (seedReturn f).hasExplicitReturn = f.hasExplicitReturn := by
    unfold seedReturn
    split_ifs <;> exact ⟨rfl, rfl⟩
  have hsame : g.hasExplicitReturn = true → g.returnBehaviorExplicit = false →
      g.returnBehavior = .mayReturn := by
    intro hreturns hexplicit
    rw [h.returns, hkept.2] at hreturns
    rw [h.explicit, hkept.1] at hexplicit
    have hseed : (seedReturn f).returnBehavior = .mayReturn := by
      simp [seedReturn, hreturns, hexplicit]
    rw [h.of_decided (by rw [hseed]; decide), hseed]
  unfold seedReturn
  split_ifs with _ hsecond
  · rfl
  · rw [Bool.and_eq_true, Bool.not_eq_true'] at hsecond
    have hbehavior := hsame hsecond.1 hsecond.2
    cases g
    subst hbehavior
    rfl
  · rfl

/-- **The inference is idempotent**, whatever the functions: what it leaves is a fixed
point of the decoded returns and of the visits. -/
theorem inferReturnBehaviors_idem (functions : List ReturningFunction)
    (warnings warnings' : List String) :
    (inferReturnBehaviors (inferReturnBehaviors functions warnings).2.1 warnings').2.1 =
      (inferReturnBehaviors functions warnings).2.1 := by
  have hrange : ∀ k : ℕ, ((fun _ => List.range functions.length) k : List ℕ).Perm
      (List.range (functions.map seedReturn).length) := by
    rw [List.length_map]
    exact fun _ => List.Perm.refl _
  have hmore : Extends (functions.map seedReturn) (inferReturnBehaviors functions warnings).2.1 := by
    unfold inferReturnBehaviors inferReturnBehaviorsIn
    exact (improving (functions.map seedReturn)).le_settle _ _ _ _
  have hstable : Stable visit (inferReturnBehaviors functions warnings).2.1 :=
    (settles (functions.map seedReturn) hrange).1
  generalize (inferReturnBehaviors functions warnings).2.1 = settled at hmore hstable
  have hseed : settled.map seedReturn = settled := by
    clear hstable hrange
    induction functions generalizing settled with
    | nil =>
      cases hmore
      rfl
    | cons f functions ih =>
      cases hmore with
      | cons hfg hrest => rw [List.map_cons, seedReturn_of_decides hfg, ih _ hrest]
  unfold inferReturnBehaviors inferReturnBehaviorsIn
  dsimp only
  rw [hseed]
  exact (improving settled).antisymm
    ((improving settled).settle_le_of_stable _ _ _ (Extends.refl settled)
      (justified_refl settled) (justified_refl settled) hstable)
    ((improving settled).le_settle _ _ _ _)

/-- No way out of a function returns: not a conditional return, not an exit to an
unknown address, and not a conditional exit either. -/
structure NeverReturns (functions : List ReturningFunction) (scanned : ScannedFunction) :
    Prop where
  noReturn : ∀ site ∈ scanned.sites, site.returns = false
  known : ∀ site ∈ scanned.sites, site.leavesUnknown = false
  exits : ∀ site ∈ scanned.sites, ∀ target ∈ site.exitTargets,
    scanned.function.ownsAddress target = false → LeadsNowhere functions target

/-- A function of two instructions: `beqlr`, and a branch to another function. -/
def returningOnEqual : ScannedFunction where
  function :=
    { guestStart := 0x1000
      guestEnd := 0x1008
      ranges := [0x1000, 0x1008]
      name := "sub"
      sources := [.directCall]
      branches := [⟨0x1004, 0x2000, true, false, false, false, false⟩]
      authority := .inferredBranch
      confidence := 85
      compiled := true
      ir := ⟨0x1000, []⟩
      nativeReplacement := false
      importThunk := false
      returnBehavior := .unknown
      returnBehaviorExplicit := false
      hasExplicitReturn := false }
  sites :=
    [⟨⟨0x1000, 0x4D820020, ⟨0x4C000020, .bclrx, .XL, .Branch⟩⟩, [],
        by set_option maxRecDepth 40000 in decide⟩,
      ⟨⟨0x1004, 0x48000FFC, ⟨0x48000000, .bx, .I, .Branch⟩⟩, [],
        by set_option maxRecDepth 40000 in decide⟩]
  branches_eq := by decide
  hasExplicitReturn_eq := by decide
  returnBehavior_eq := by decide

/-- A function that metadata declares not to return. -/
def declaredSink : ScannedFunction where
  function :=
    { guestStart := 0x2000
      guestEnd := 0x2004
      ranges := [0x2000, 0x2004]
      name := "abort"
      sources := [.moduleHint]
      branches := []
      authority := .inferredBranch
      confidence := 100
      compiled := true
      ir := ⟨0x2000, []⟩
      nativeReplacement := false
      importThunk := false
      returnBehavior := .noReturn
      returnBehaviorExplicit := true
      hasExplicitReturn := false }
  sites := []
  branches_eq := rfl
  hasExplicitReturn_eq := rfl
  returnBehavior_eq := rfl

/-- **A function that returns when a condition holds is decided not to return**: a
conditional return is recorded nowhere. -/
theorem inferReturnBehaviors_ignores_conditional :
    ¬ ∀ (scanned : List ScannedFunction) (warnings : List String) (i : ℕ) (s : ScannedFunction)
      (g : ReturningFunction), scanned[i]? = some s →
        (inferred scanned warnings)[i]? = some g → s.function.returnBehavior = .unknown →
          g.returnBehavior = .noReturn → NeverReturns (inferred scanned warnings) s := by
  intro h
  have hnever := h [returningOnEqual, declaredSink] [] 0 returningOnEqual
    { returningOnEqual.function with returnBehavior := .noReturn } rfl (by decide) rfl rfl
  exact absurd (hnever.noReturn _ List.mem_cons_self) (by decide)

end Recomp
end XenonRecomp
