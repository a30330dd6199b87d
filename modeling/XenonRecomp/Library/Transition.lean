/-
# Runs of a deterministic machine

A machine is a step function `S → E → S × R`: a state and an event give the
next state and a reply.  This module names its runs, the trace of replies of a
run, and the predicate that every step of a run meets a condition on the state
it starts from.  The rules at the end are the only induction a safety argument
over runs needs: an invariant tied to the history of replies, an invariant of
the state alone, and an invariant that a step preserves exactly when the step
meets a condition.
-/

import Mathlib.Algebra.Order.Ring.Int
import Mathlib.Data.List.Infix

namespace Library
namespace Transition

variable {S E R : Type*} (step : S → E → S × R)

/-- The state after the events of a list, the first one first. -/
def run (s : S) : List E → S
  | [] => s
  | e :: es => run (step s e).1 es

/-- The events of a run, each with its reply. -/
def trace (s : S) : List E → List (E × R)
  | [] => []
  | e :: es => (e, (step s e).2) :: trace (step s e).1 es

/-- Every step of the run meets `P` in the state it starts from. -/
def Along (P : S → E → Prop) (s : S) : List E → Prop
  | [] => True
  | e :: es => P s e ∧ Along P (step s e).1 es

instance decidableAlong (P : S → E → Prop) [∀ s e, Decidable (P s e)] :
    ∀ (s : S) (es : List E), Decidable (Along step P s es)
  | _, [] => .isTrue trivial
  | s, e :: es =>
      have := decidableAlong P (step s e).1 es
      inferInstanceAs (Decidable (P s e ∧ Along step P (step s e).1 es))

variable {step}

/-- A run over a concatenation is the second run from the end of the first. -/
theorem run_append (s : S) (es fs : List E) :
    run step s (es ++ fs) = run step (run step s es) fs := by
  induction es generalizing s with
  | nil => rfl
  | cons e es ih => exact ih (step s e).1

/-- A condition that every step meets holds along every run. -/
theorem along_of_forall {P : S → E → Prop} (h : ∀ s e, P s e) (s : S) (es : List E) :
    Along step P s es := by
  induction es generalizing s with
  | nil => trivial
  | cons e es ih => exact ⟨h s e, ih (step s e).1⟩

/-- A condition along a concatenation holds along both parts. -/
theorem along_append {P : S → E → Prop} (s : S) (es fs : List E) :
    Along step P s (es ++ fs) ↔ Along step P s es ∧ Along step P (run step s es) fs := by
  induction es generalizing s with
  | nil => simp [Along, run]
  | cons e es ih => simp [Along, run, ih, and_assoc]

/-- **The history rule.**  A relation between the trace so far and the state,
kept by every step that meets `P`, holds at the end of every run all of whose
steps meet `P`. -/
theorem history_invariant {I : List (E × R) → S → Prop} {P : S → E → Prop}
    (hstep : ∀ h s e, I h s → P s e → I (h ++ [(e, (step s e).2)]) (step s e).1)
    (h : List (E × R)) (s : S) (es : List E) (hI : I h s) (hP : Along step P s es) :
    I (h ++ trace step s es) (run step s es) := by
  induction es generalizing h s with
  | nil => simpa [trace, run] using hI
  | cons e es ih =>
      have hnext := ih (h ++ [(e, (step s e).2)]) (step s e).1 (hstep h s e hI hP.1) hP.2
      simpa [trace, run] using hnext

/-- **The invariant rule.**  What every step that meets `P` keeps holds at the
end of every run all of whose steps meet `P`. -/
theorem invariant_along {I : S → Prop} {P : S → E → Prop}
    (hstep : ∀ s e, I s → P s e → I (step s e).1) (s : S) (es : List E) (hI : I s)
    (hP : Along step P s es) : I (run step s es) := by
  induction es generalizing s with
  | nil => exact hI
  | cons e es ih => exact ih (step s e).1 (hstep s e hI hP.1) hP.2

/-- **The exact invariant rule.**  If a step from a state of `I` ends in `I`
exactly when it meets `P`, then a run from `I` stays in `I` exactly when all of
its steps meet `P`. -/
theorem invariant_iff_along {I : S → Prop} {P : S → E → Prop}
    (hstep : ∀ s e, I s → (I (step s e).1 ↔ P s e)) (s : S) (es : List E) (hI : I s) :
    (∀ pre, pre <+: es → I (run step s pre)) ↔ Along step P s es := by
  induction es generalizing s with
  | nil =>
      refine ⟨fun _ => trivial, fun _ pre hpre => ?_⟩
      rw [List.prefix_nil.mp hpre]
      exact hI
  | cons e es ih =>
      constructor
      · intro hall
        have hnext : I (step s e).1 := hall [e] (List.prefix_append [e] es)
        refine ⟨(hstep s e hI).mp hnext, (ih _ hnext).mp fun pre hpre => ?_⟩
        exact hall (e :: pre) ((List.prefix_cons_inj e).mpr hpre)
      · rintro ⟨hP, hrest⟩ pre hpre
        have hnext : I (step s e).1 := (hstep s e hI).mpr hP
        cases pre with
        | nil => exact hI
        | cons f pre =>
            obtain ⟨rfl, htail⟩ := List.cons_prefix_cons.mp hpre
            exact (ih _ hnext).mpr hrest pre htail

end Transition
end Library
