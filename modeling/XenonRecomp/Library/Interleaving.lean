/-
# Interleaved threads

Any number of threads run one program over a shared state, one atomic step at a
time.  The program is a function of the shared state, the thread's own state
(its program counter and locals) and a choice, and is undefined where the
thread is blocked; a run is a list of pairs of a thread and a choice, in any
order.  The rules of this module are what an argument over all interleavings
needs: an invariant that every move keeps holds after every run; an assertion
about the shared state and one about each thread are kept together when every
step keeps its own and does not disturb the others; and the number of threads
inside a region changes only by the thread that moves.
-/

import Mathlib.Data.Fintype.Card
import XenonRecomp.Library.Transition

namespace Library
namespace Interleaving

open Transition

/-- The shared state and the state of every thread. -/
structure Config (S L T : Type*) where
  shared : S
  threads : T → L

variable {S L T A : Type*} [DecidableEq T]

/-- One atomic step of thread `e.1` with the choice `e.2`; a blocked thread
leaves everything as it was, and the reply says whether the thread moved. -/
def step (prog : S → L → A → Option (S × L)) (c : Config S L T) (e : T × A) :
    Config S L T × Bool :=
  match prog c.shared (c.threads e.1) e.2 with
  | none => (c, false)
  | some (s, l) => (⟨s, Function.update c.threads e.1 l⟩, true)

variable {prog : S → L → A → Option (S × L)}

/-- The step of a thread that moves. -/
theorem step_of_some {c : Config S L T} {t : T} {a : A} {s : S} {l : L}
    (h : prog c.shared (c.threads t) a = some (s, l)) :
    step prog c (t, a) = (⟨s, Function.update c.threads t l⟩, true) := by
  simp only [step, h]

/-- A step is blocked or moves one thread. -/
theorem step_cases (c : Config S L T) (t : T) (a : A) :
    (step prog c (t, a)).1 = c ∨ ∃ s l, prog c.shared (c.threads t) a = some (s, l) ∧
      (step prog c (t, a)).1 = ⟨s, Function.update c.threads t l⟩ := by
  unfold step
  cases h : prog c.shared (c.threads t) a with
  | none => exact .inl rfl
  | some r => exact .inr ⟨r.1, r.2, rfl, rfl⟩

/-- **The rule for interleavings.**  What every move of a thread that meets `P`
keeps holds after every run all of whose steps meet `P`. -/
theorem run_invariant {I : Config S L T → Prop} {P : Config S L T → T × A → Prop}
    (hstep : ∀ c t a s l, I c → P c (t, a) → prog c.shared (c.threads t) a = some (s, l) →
      I ⟨s, Function.update c.threads t l⟩)
    (c : Config S L T) (es : List (T × A)) (hI : I c) (hP : Along (step prog) P c es) :
    I (run (step prog) c es) := by
  refine invariant_along (fun c e hI hPe => ?_) c es hI hP
  obtain ⟨t, a⟩ := e
  rcases step_cases c t a with hstay | ⟨s, l, hprog, hmove⟩
  · rw [hstay]
    exact hI
  · rw [hmove]
    exact hstep c t a s l hI hPe hprog

/-- What holds of every thread after one of them moved: it holds of the thread
that moved, and of the others. -/
theorem forall_update {Q : T → L → Prop} {threads : T → L} {t : T} {l : L} (hown : Q t l)
    (hothers : ∀ u, u ≠ t → Q u (threads u)) (u : T) : Q u (Function.update threads t l u) := by
  by_cases hu : u = t
  · subst hu
    simpa using hown
  · simpa [Function.update_of_ne hu] using hothers u hu

/-- What holds of a thread after one of them moved holds of the thread that moved
or of another, unchanged. -/
theorem of_update {Q : L → Prop} {threads : T → L} {t u : T} {l : L}
    (h : Q (Function.update threads t l u)) : u = t ∧ Q l ∨ u ≠ t ∧ Q (threads u) := by
  by_cases hu : u = t
  · subst hu
    exact .inl ⟨rfl, by simpa using h⟩
  · exact .inr ⟨hu, by simpa [Function.update_of_ne hu] using h⟩

/-- **Noninterference.**  An assertion `G` about the shared state and an
assertion `Q` about each thread hold after every run all of whose steps meet
`P`, if a step that meets `P` keeps `G` and its own `Q`, and keeps the `Q` of
every other thread. -/
theorem run_noninterference {G : S → Prop} {Q : T → S → L → Prop}
    {P : Config S L T → T × A → Prop}
    (own : ∀ c t a s l, G c.shared → (∀ u, Q u c.shared (c.threads u)) → P c (t, a) →
      prog c.shared (c.threads t) a = some (s, l) → G s ∧ Q t s l)
    (others : ∀ c t a s l, G c.shared → (∀ u, Q u c.shared (c.threads u)) → P c (t, a) →
      prog c.shared (c.threads t) a = some (s, l) → ∀ u, u ≠ t → Q u s (c.threads u))
    (c : Config S L T) (es : List (T × A)) (hG : G c.shared)
    (hQ : ∀ u, Q u c.shared (c.threads u)) (hP : Along (step prog) P c es) :
    G (run (step prog) c es).shared ∧
      ∀ u, Q u (run (step prog) c es).shared ((run (step prog) c es).threads u) := by
  refine run_invariant (I := fun c => G c.shared ∧ ∀ u, Q u c.shared (c.threads u))
    (fun c t a s l hI hPe hprog => ?_) c es ⟨hG, hQ⟩ hP
  obtain ⟨hGs, hQt⟩ := own c t a s l hI.1 hI.2 hPe hprog
  exact ⟨hGs, forall_update (Q := fun u => Q u s) hQt (others c t a s l hI.1 hI.2 hPe hprog)⟩

/-! ## Counting the threads in a region -/

section Count

variable [Fintype T]

/-- The number of threads inside the region `p`. -/
def count (p : L → Bool) (threads : T → L) : ℕ :=
  (Finset.univ.filter fun t => p (threads t) = true).card

omit [DecidableEq T] in
/-- A region no thread is in counts zero. -/
theorem count_eq_zero_iff {p : L → Bool} {threads : T → L} :
    count p threads = 0 ↔ ∀ t, p (threads t) = false := by
  rw [count, Finset.card_eq_zero, Finset.filter_eq_empty_iff]
  simp

/-- The count follows the thread that moves. -/
theorem count_update (p : L → Bool) (threads : T → L) (t : T) (l : L) :
    count p (Function.update threads t l) + (p (threads t)).toNat =
      count p threads + (p l).toNat := by
  have hother : ∀ u, u ≠ t → Function.update threads t l u = threads u := fun u hu =>
    Function.update_of_ne hu l threads
  have hsplit : ∀ f : T → L, count p f =
      ((Finset.univ.erase t).filter fun u => p (f u) = true).card + (p (f t)).toNat := by
    intro f
    have hins : (Finset.univ : Finset T) = insert t (Finset.univ.erase t) :=
      (Finset.insert_erase (Finset.mem_univ t)).symm
    rw [count, hins, Finset.filter_insert]
    cases hp : p (f t) with
    | true =>
        rw [if_pos rfl, Finset.card_insert_of_notMem (by simp)]
        simp
    | false => simp
  have hrest : ((Finset.univ.erase t).filter fun u => p (Function.update threads t l u) = true) =
      (Finset.univ.erase t).filter fun u => p (threads u) = true := by
    refine Finset.filter_congr fun u hu => ?_
    rw [hother u (Finset.ne_of_mem_erase hu)]
  rw [hsplit (Function.update threads t l), hsplit threads, hrest, Function.update_self]
  omega

/-- A move that stays on its side of the region leaves the count as it was. -/
theorem count_update_of_eq {p : L → Bool} {threads : T → L} {t : T} {l : L}
    (h : p l = p (threads t)) : count p (Function.update threads t l) = count p threads := by
  have := count_update p threads t l
  rw [h] at this
  exact Nat.add_right_cancel this

end Count

end Interleaving
end Library
