/-
# Which functions return

`infer_return_behaviors` (`src/recomp/analysis/control_flow/return_inference.cpp`), on
functions in the order of their starts.  A visit of a function looks at the branches that
leave it at the end of a block, without a link and without a condition, and may decide
whether it returns from what is decided of their targets; passes over all functions go on
until one decides nothing.
-/

import XenonRecomp.Library.ChaoticIteration
import XenonRecomp.Recomp.BranchRecording

namespace XenonRecomp
namespace Recomp

open Cpu Library.ChaoticIteration

/-- `ReturnBehavior`. -/
inductive ReturnBehavior where
  | unknown
  | mayReturn
  | noReturn
deriving DecidableEq, Repr

/-- `DiscoveredFunction` with what is known of its return. -/
structure ReturningFunction extends DiscoveredFunction where
  returnBehavior : ReturnBehavior
  returnBehaviorExplicit : Bool
  hasExplicitReturn : Bool
deriving DecidableEq, Repr

/-- `ReturnInferenceStats`. -/
structure ReturnInferenceStats where
  iterations : ℕ
  noReturn : ℕ
  mayReturn : ℕ
deriving DecidableEq, Repr

/-- `find_function`: `std::lower_bound` in functions in the order of their starts. -/
def findFunction (functions : List ReturningFunction) (address : GuestAddress) :
    Option ReturningFunction :=
  match functions.find? fun fn => !decide (fn.guestStart < address) with
  | some fn => if fn.guestStart = address then some fn else none
  | none => none

/-- The variables of a visit. -/
structure ExitSurvey where
  hasExternalTerminalExit : Bool
  allTargetsResolved : Bool
  allNoReturn : Bool
  anyMayReturn : Bool
deriving DecidableEq, Repr

/-- A visit skips a branch. -/
def skipsBranch (function : ReturningFunction) (branch : BranchReference) : Bool :=
  branch.linked || !branch.terminal || branch.conditional ||
    function.ownsAddress branch.target

/-- What a visit notes of a branch. -/
def surveyBranch (functions : List ReturningFunction) (function : ReturningFunction)
    (survey : ExitSurvey) (branch : BranchReference) : ExitSurvey :=
  if skipsBranch function branch then survey
  else
    match findFunction functions branch.target with
    | none => ⟨true, false, false, survey.anyMayReturn⟩
    | some target =>
      { hasExternalTerminalExit := true
        allTargetsResolved :=
          survey.allTargetsResolved && target.returnBehavior != .unknown
        allNoReturn := survey.allNoReturn && target.returnBehavior == .noReturn
        anyMayReturn := survey.anyMayReturn || target.returnBehavior == .mayReturn }

/-- What a visit decides of a function; `unknown` when it decides nothing. -/
def judge (functions : List ReturningFunction) (function : ReturningFunction) :
    ReturnBehavior :=
  let survey := function.branches.foldl (surveyBranch functions function)
    ⟨false, true, true, false⟩
  if survey.anyMayReturn then .mayReturn
  else if survey.hasExternalTerminalExit && survey.allTargetsResolved && survey.allNoReturn then
    .noReturn
  else .unknown

/-- The visit of the function of a number, and whether it decided something. -/
def visit (i : ℕ) (functions : List ReturningFunction) : List ReturningFunction × Bool :=
  match functions[i]? with
  | none => (functions, false)
  | some function =>
    if function.returnBehavior ≠ .unknown then (functions, false)
    else
      match judge functions function with
      | .unknown => (functions, false)
      | behavior => (functions.set i { function with returnBehavior := behavior }, true)

/-- A decoded return makes a function return, unless metadata says how it behaves. -/
def seedReturn (function : ReturningFunction) : ReturningFunction :=
  if function.returnBehaviorExplicit && function.returnBehavior == .noReturn &&
      function.hasExplicitReturn then function
  else if function.hasExplicitReturn && !function.returnBehaviorExplicit then
    { function with returnBehavior := .mayReturn }
  else function

/-- The warning about metadata that a decoded return contradicts. -/
def seedWarning (function : ReturningFunction) : Option String :=
  if function.returnBehaviorExplicit && function.returnBehavior == .noReturn &&
      function.hasExplicitReturn then
    some ("NoReturn metadata conflicts with an explicit return in function 0x" ++
      hexString function.guestStart ++ "; preserving explicit module metadata")
  else none

/-- `infer_return_behaviors` with the functions visited in the orders of `orders`, one
for each pass. -/
def inferReturnBehaviorsIn (orders : ℕ → List ℕ) (functions : List ReturningFunction)
    (warnings : List String) :
    ReturnInferenceStats × List ReturningFunction × List String :=
  let warnings := warnings ++ functions.filterMap seedWarning
  let functions := functions.map seedReturn
  let maxIterations := max 1 (functions.length + 1)
  let (functions, iterations) := settle visit orders maxIterations 0 functions
  ({ iterations := iterations
     noReturn := functions.countP fun function => function.returnBehavior == .noReturn
     mayReturn := functions.countP fun function => function.returnBehavior == .mayReturn },
    functions, warnings)

/-- `infer_return_behaviors`: every pass visits the functions from the first to the
last. -/
def inferReturnBehaviors (functions : List ReturningFunction) (warnings : List String) :
    ReturnInferenceStats × List ReturningFunction × List String :=
  inferReturnBehaviorsIn (fun _ => List.range functions.length) functions warnings

/-! ### What a visit decides -/

/-- The branches that a visit looks at. -/
def tailExits (function : ReturningFunction) : List BranchReference :=
  function.branches.filter fun branch => !skipsBranch function branch

/-- What is known of the return of the function at an address. -/
def behaviorAt (functions : List ReturningFunction) (address : GuestAddress) :
    Option ReturnBehavior :=
  (findFunction functions address).map ReturningFunction.returnBehavior

theorem foldl_surveyBranch (functions : List ReturningFunction) (function : ReturningFunction)
    (branches : List BranchReference) (survey : ExitSurvey) :
    branches.foldl (surveyBranch functions function) survey =
      let exits := branches.filter fun branch => !skipsBranch function branch
      { hasExternalTerminalExit := survey.hasExternalTerminalExit || !exits.isEmpty
        allTargetsResolved := survey.allTargetsResolved && exits.all fun branch =>
          (behaviorAt functions branch.target).any fun behavior => behavior != .unknown
        allNoReturn := survey.allNoReturn && exits.all fun branch =>
          behaviorAt functions branch.target == some .noReturn
        anyMayReturn := survey.anyMayReturn || exits.any fun branch =>
          behaviorAt functions branch.target == some .mayReturn } := by
  induction branches generalizing survey with
  | nil => simp
  | cons branch branches ih =>
    rw [List.foldl_cons, ih]
    cases hskip : skipsBranch function branch with
    | true => simp [surveyBranch, hskip]
    | false =>
      cases hfind : findFunction functions branch.target with
      | none => simp [surveyBranch, hskip, hfind, behaviorAt]
      | some target =>
        simp [surveyBranch, hskip, hfind, behaviorAt, Bool.and_assoc, Bool.or_assoc]

/-- A visit in terms of the branches that it looks at. -/
theorem judge_eq (functions : List ReturningFunction) (function : ReturningFunction) :
    judge functions function =
      if (tailExits function).any fun branch =>
          behaviorAt functions branch.target == some .mayReturn then .mayReturn
      else if !(tailExits function).isEmpty &&
          ((tailExits function).all fun branch =>
            (behaviorAt functions branch.target).any fun behavior => behavior != .unknown) &&
          ((tailExits function).all fun branch =>
            behaviorAt functions branch.target == some .noReturn) then .noReturn
      else .unknown := by
  rw [judge, foldl_surveyBranch]
  simp only [Bool.false_or, Bool.true_and, tailExits]
  rfl

/-- **When a visit decides that a function returns**: one of its exits does. -/
theorem judge_eq_mayReturn {functions : List ReturningFunction} {function : ReturningFunction} :
    judge functions function = .mayReturn ↔
      ∃ branch ∈ tailExits function, behaviorAt functions branch.target = some .mayReturn := by
  rw [judge_eq]
  split
  · next h =>
    refine iff_of_true rfl ?_
    obtain ⟨branch, hmem, hbranch⟩ := List.any_eq_true.1 h
    exact ⟨branch, hmem, beq_iff_eq.1 hbranch⟩
  · next h =>
    refine iff_of_false (by split <;> exact ReturnBehavior.noConfusion) ?_
    rintro ⟨branch, hmem, hbranch⟩
    exact h (List.any_eq_true.2 ⟨branch, hmem, beq_iff_eq.2 hbranch⟩)

/-- **When a visit decides that a function does not return**: it has an exit, and none
of its exits returns. -/
theorem judge_eq_noReturn {functions : List ReturningFunction} {function : ReturningFunction} :
    judge functions function = .noReturn ↔
      tailExits function ≠ [] ∧
        ∀ branch ∈ tailExits function, behaviorAt functions branch.target = some .noReturn := by
  rw [judge_eq]
  split
  · next h =>
    refine iff_of_false ReturnBehavior.noConfusion ?_
    rintro ⟨-, hall⟩
    obtain ⟨branch, hmem, hbranch⟩ := List.any_eq_true.1 h
    rw [hall branch hmem] at hbranch
    exact absurd hbranch (by decide)
  · split
    · next h =>
      refine iff_of_true rfl ?_
      rw [Bool.and_eq_true, Bool.and_eq_true, List.all_eq_true, List.all_eq_true] at h
      refine ⟨?_, fun branch hmem => beq_iff_eq.1 (h.2 branch hmem)⟩
      intro hnil
      have hexit := h.1.1
      rw [hnil] at hexit
      exact absurd hexit (by decide)
    · next h =>
      refine iff_of_false ReturnBehavior.noConfusion ?_
      rintro ⟨hexit, hall⟩
      refine h ?_
      rw [Bool.and_eq_true, Bool.and_eq_true, List.all_eq_true, List.all_eq_true]
      refine ⟨⟨?_, fun branch hmem => ?_⟩, fun branch hmem => beq_iff_eq.2 (hall branch hmem)⟩
      · rw [Bool.not_eq_true', List.isEmpty_eq_false_iff]
        exact hexit
      · rw [hall branch hmem]
        rfl

/-- A visit looks at nothing of the function but what discovery left. -/
theorem judge_congr (functions : List ReturningFunction) {f g : ReturningFunction}
    (h : f.toDiscoveredFunction = g.toDiscoveredFunction) :
    judge functions f = judge functions g := by
  obtain ⟨base, _, _, _⟩ := f
  obtain ⟨base', _, _, _⟩ := g
  dsimp only at h
  subst h
  rfl

/-! ### The order of what is decided -/

/-- A function of which no less is decided. -/
structure Decides (f g : ReturningFunction) : Prop where
  base : g.toDiscoveredFunction = f.toDiscoveredFunction
  explicit : g.returnBehaviorExplicit = f.returnBehaviorExplicit
  returns : g.hasExplicitReturn = f.hasExplicitReturn
  behavior : f.returnBehavior = .unknown ∨ g.returnBehavior = f.returnBehavior

namespace Decides

variable {f g k : ReturningFunction}

theorem refl (f : ReturningFunction) : Decides f f :=
  ⟨rfl, rfl, rfl, Or.inr rfl⟩

theorem trans (hfg : Decides f g) (hgk : Decides g k) : Decides f k := by
  refine ⟨hgk.base.trans hfg.base, hgk.explicit.trans hfg.explicit,
    hgk.returns.trans hfg.returns, ?_⟩
  rcases hfg.behavior with h | h
  · exact Or.inl h
  · rcases hgk.behavior with h' | h'
    · exact Or.inl (h.symm.trans h')
    · exact Or.inr (h'.trans h)

theorem antisymm (hfg : Decides f g) (hgf : Decides g f) : f = g := by
  obtain ⟨base, behavior, explicit, returns⟩ := f
  obtain ⟨base', behavior', explicit', returns'⟩ := g
  obtain ⟨hbase, hexplicit, hreturns, hbehavior⟩ := hfg
  have hback := hgf.behavior
  dsimp only at hbase hexplicit hreturns hbehavior hback
  have hsame : behavior' = behavior := by
    rcases hbehavior with h | h
    · rcases hback with h' | h'
      · rw [h, h']
      · exact h'.symm
    · exact h
  rw [hbase, hexplicit, hreturns, hsame]

/-- What is decided of a function stays. -/
theorem of_decided (h : Decides f g) (hf : f.returnBehavior ≠ .unknown) :
    g.returnBehavior = f.returnBehavior :=
  h.behavior.resolve_left hf

end Decides

/-- Functions of each of which no less is decided. -/
def Extends (s t : List ReturningFunction) : Prop :=
  List.Forall₂ Decides s t

theorem Extends.refl (s : List ReturningFunction) : Extends s s :=
  List.forall₂_same.2 fun f _ => Decides.refl f

theorem Extends.trans {s t u : List ReturningFunction} (hst : Extends s t) (htu : Extends t u) :
    Extends s u := by
  induction hst generalizing u with
  | nil => exact htu
  | cons hfg _ ih =>
    cases htu with
    | cons hgk hrest => exact List.Forall₂.cons (hfg.trans hgk) (ih hrest)

theorem Extends.antisymm {s t : List ReturningFunction} (hst : Extends s t)
    (hts : Extends t s) : s = t := by
  induction hst with
  | nil => rfl
  | cons hfg _ ih =>
    cases hts with
    | cons hgf hrest => rw [hfg.antisymm hgf, ih hrest]

/-- The functions of one number. -/
theorem Extends.getElem? {s t : List ReturningFunction} (h : Extends s t) (i : ℕ) :
    (s[i]? = none ∧ t[i]? = none) ∨ ∃ f g, s[i]? = some f ∧ t[i]? = some g ∧ Decides f g := by
  induction h generalizing i with
  | nil => exact Or.inl ⟨rfl, rfl⟩
  | @cons f g _ _ hfg _ ih =>
    cases i with
    | zero => exact Or.inr ⟨f, g, rfl, rfl, hfg⟩
    | succ i => exact ih i

/-- One function is replaced. -/
theorem Extends.set {s t : List ReturningFunction} (h : Extends s t) (i : ℕ)
    {f g : ReturningFunction} (hfg : Decides f g) : Extends (s.set i f) (t.set i g) := by
  induction h generalizing i with
  | nil => exact List.Forall₂.nil
  | cons hhead hrest ih =>
    cases i with
    | zero => exact List.Forall₂.cons hfg hrest
    | succ i => exact List.Forall₂.cons hhead (ih i)

/-- What is decided at an address stays. -/
theorem Extends.behaviorAt {s t : List ReturningFunction} (h : Extends s t)
    {address : GuestAddress} {behavior : ReturnBehavior} (hne : behavior ≠ .unknown)
    (hs : Recomp.behaviorAt s address = some behavior) :
    Recomp.behaviorAt t address = some behavior := by
  induction h with
  | nil => exact hs
  | @cons f g s t hfg _ ih =>
    have hstart : g.guestStart = f.guestStart := by rw [hfg.base]
    unfold Recomp.behaviorAt findFunction at hs ih ⊢
    rw [List.find?_cons] at hs ⊢
    rw [hstart]
    cases hlt : !decide (f.guestStart < address) with
    | false =>
      rw [hlt] at hs
      exact ih hs
    | true =>
      rw [hlt] at hs
      dsimp only at hs ⊢
      rw [hstart]
      split at hs
      · next heq =>
        rw [if_pos heq]
        have hf : f.returnBehavior = behavior := Option.some.inj hs
        exact congrArg some ((hfg.of_decided (hf ▸ hne)).trans hf)
      · exact absurd hs (by simp)

/-- **A decision stays right** when more is decided. -/
theorem Extends.judge {s t : List ReturningFunction} (h : Extends s t) {f : ReturningFunction}
    (hne : Recomp.judge s f ≠ .unknown) : Recomp.judge t f = Recomp.judge s f := by
  cases hjudge : Recomp.judge s f with
  | unknown => exact absurd hjudge hne
  | mayReturn =>
    obtain ⟨branch, hmem, hbranch⟩ := judge_eq_mayReturn.1 hjudge
    exact judge_eq_mayReturn.2
      ⟨branch, hmem, h.behaviorAt (by decide) hbranch⟩
  | noReturn =>
    obtain ⟨hexit, hall⟩ := judge_eq_noReturn.1 hjudge
    exact judge_eq_noReturn.2
      ⟨hexit, fun branch hmem => h.behaviorAt (by decide) (hall branch hmem)⟩

/-! ### Visits -/

/-- **What a visit does**: it leaves the functions, or it decides of one that was
unknown. -/
theorem visit_cases (i : ℕ) (functions : List ReturningFunction) :
    (visit i functions = (functions, false) ∧ ∀ f, functions[i]? = some f →
      f.returnBehavior = .unknown → judge functions f = .unknown) ∨
    ∃ f, functions[i]? = some f ∧ f.returnBehavior = .unknown ∧
      judge functions f ≠ .unknown ∧
      visit i functions =
        (functions.set i { f with returnBehavior := judge functions f }, true) := by
  unfold visit
  cases hget : functions[i]? with
  | none => exact Or.inl ⟨rfl, fun f hf => absurd hf (by simp)⟩
  | some f =>
    dsimp only
    by_cases hknown : f.returnBehavior ≠ .unknown
    · rw [if_pos hknown]
      refine Or.inl ⟨rfl, fun g hg hunknown => ?_⟩
      rw [← Option.some.inj hg] at hunknown
      exact absurd hunknown hknown
    · rw [if_neg hknown]
      rw [not_not] at hknown
      cases hjudge : judge functions f with
      | unknown =>
        refine Or.inl ⟨rfl, fun g hg _ => ?_⟩
        rw [← Option.some.inj hg, hjudge]
      | mayReturn =>
        refine Or.inr ⟨f, rfl, hknown, ?_, ?_⟩ <;> rw [hjudge]
        decide
      | noReturn =>
        refine Or.inr ⟨f, rfl, hknown, ?_, ?_⟩ <;> rw [hjudge]
        decide

/-- A function is replaced by one of which more is decided. -/
theorem extends_set {functions : List ReturningFunction} {i : ℕ} {f g : ReturningFunction}
    (hget : functions[i]? = some f) (hfg : Decides f g) :
    Extends functions (functions.set i g) := by
  have hself : functions.set i f = functions := by
    obtain ⟨hlt, hf⟩ := List.getElem?_eq_some_iff.1 hget
    rw [← hf, List.set_getElem_self]
  have hset := (Extends.refl functions).set i hfg
  rwa [hself] at hset

/-- What was decided since the first state is what a visit would decide. -/
structure Justified (first functions : List ReturningFunction) : Prop where
  extends' : Extends first functions
  justified : ∀ (i : ℕ) (f g : ReturningFunction), first[i]? = some f → functions[i]? = some g →
    f.returnBehavior = .unknown → g.returnBehavior ≠ .unknown →
      judge functions g = g.returnBehavior

/-- A visit keeps what is decided justified. -/
theorem Justified.visit {first functions : List ReturningFunction}
    (h : Justified first functions) (i : ℕ) : Justified first (visit i functions).1 := by
  rcases visit_cases i functions with ⟨hvisit, -⟩ | ⟨f, hget, hunknown, hjudge, hvisit⟩
  · rw [hvisit]
    exact h
  · rw [hvisit]
    have hmore : Extends functions
        (functions.set i { f with returnBehavior := judge functions f }) :=
      extends_set hget ⟨rfl, rfl, rfl, Or.inl hunknown⟩
    refine ⟨h.extends'.trans hmore, fun j e g he hg hfirst hknown => ?_⟩
    dsimp only at hg ⊢
    by_cases hij : i = j
    · subst hij
      have hlt : i < functions.length := (List.getElem?_eq_some_iff.1 hget).1
      rw [List.getElem?_set_self hlt] at hg
      have hg := Option.some.inj hg
      subst hg
      have hsame : judge functions { f with returnBehavior := judge functions f } =
          judge functions f := judge_congr functions rfl
      rw [hmore.judge (by rw [hsame]; exact hjudge), hsame]
    · rw [List.getElem?_set_ne hij] at hg
      have hold := h.justified j e g he hg hfirst hknown
      rw [hmore.judge (by rw [hold]; exact hknown), hold]

/-- Visits improve what is decided. -/
theorem improving (first : List ReturningFunction) :
    Improving visit Extends (Justified first) where
  refl := Extends.refl
  trans := Extends.trans
  antisymm := Extends.antisymm
  inflates i s := by
    rcases visit_cases i s with ⟨hvisit, -⟩ | ⟨f, hget, hunknown, -, hvisit⟩
    · rw [hvisit]
      exact Extends.refl s
    · rw [hvisit]
      exact extends_set hget ⟨rfl, rfl, rfl, Or.inl hunknown⟩
  keeps i _ hs := hs.visit i
  below := by
    intro i s t hst hs ht hstable
    rcases visit_cases i s with ⟨hvisit, -⟩ | ⟨f, hget, hunknown, hjudge, hvisit⟩
    · rw [hvisit]
      exact hst
    · rw [hvisit]
      rcases hst.getElem? i with ⟨hnone, -⟩ | ⟨f', g, hf', hg, hfg⟩
      · rw [hget] at hnone
        exact absurd hnone (by simp)
      · rw [hget] at hf'
        have hf' := Option.some.inj hf'
        subst hf'
        -- the stable state decided of the function what this visit decides
        have hright : judge t g = judge s f := by
          rw [← hst.judge hjudge]
          exact judge_congr t hfg.base
        have hknown : g.returnBehavior ≠ .unknown := by
          intro hg'
          rcases visit_cases i t with ⟨-, hnothing⟩ | ⟨g', hget', -, -, hvisit'⟩
          · exact hjudge (hright ▸ hnothing g hg hg')
          · have hsame := hstable i
            rw [hvisit'] at hsame
            have hlt : i < t.length := (List.getElem?_eq_some_iff.1 hg).1
            have hset : t[i]? = some { g' with returnBehavior := judge t g' } := by
              conv_lhs => rw [← hsame]
              exact List.getElem?_set_self hlt
            rw [hg] at hset hget'
            have heq := Option.some.inj hset
            rw [← Option.some.inj hget'] at heq
            have hbehavior : g.returnBehavior = judge t g :=
              congrArg ReturningFunction.returnBehavior heq
            exact hjudge (by rw [← hright, ← hbehavior, hg'])
        have hbehavior : g.returnBehavior = judge s f := by
          rcases hs.extends'.getElem? i with ⟨-, hnone⟩ | ⟨e, f', he, hf', hef⟩
          · rw [hget] at hnone
            exact absurd hnone (by simp)
          · rw [hget] at hf'
            have hf' := Option.some.inj hf'
            subst hf'
            have hfirst : e.returnBehavior = .unknown := by
              rcases hef.behavior with h | h
              · exact h
              · rw [← h, hunknown]
            rw [← ht.justified i e g he hg hfirst hknown, hright]
        have hdecides : Decides { f with returnBehavior := judge s f } g :=
          ⟨hfg.base, hfg.explicit, hfg.returns, Or.inr hbehavior⟩
        have hset := hst.set i hdecides
        have hself : t.set i g = t := by
          obtain ⟨hlt, hg⟩ := List.getElem?_eq_some_iff.1 hg
          rw [← hg, List.set_getElem_self]
        rwa [hself] at hset
  unchanged i s hvisit := by
    rcases visit_cases i s with ⟨h, -⟩ | ⟨f, -, -, -, h⟩
    · rw [h]
    · rw [h] at hvisit
      exact absurd hvisit (by simp)

/-- How many functions are not decided. -/
def undecided (functions : List ReturningFunction) : ℕ :=
  functions.countP fun function => function.returnBehavior == .unknown

/-- A visit that decides leaves one function fewer. -/
theorem undecided_visit (i : ℕ) (functions : List ReturningFunction)
    (h : (visit i functions).2 = true) :
    undecided (visit i functions).1 < undecided functions := by
  rcases visit_cases i functions with ⟨hvisit, -⟩ | ⟨f, hget, hunknown, hjudge, hvisit⟩
  · rw [hvisit] at h
    exact absurd h (by simp)
  · rw [hvisit]
    obtain ⟨hlt, hf⟩ := List.getElem?_eq_some_iff.1 hget
    have hpos : 0 < undecided functions :=
      List.countP_pos_iff.2 ⟨f, List.mem_of_getElem? hget, beq_iff_eq.2 hunknown⟩
    unfold undecided at hpos ⊢
    rw [List.countP_set hlt]
    simp only [hf, hunknown, beq_self_eq_true, if_true, beq_iff_eq, hjudge, if_false]
    omega

end Recomp
end XenonRecomp
