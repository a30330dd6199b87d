/-
# Chaotic iteration

A state is improved at one place after another, in passes over the places, until a
pass changes nothing.  When an improvement at a place never goes back and stays below
every good stable state, the state that is reached does not depend on the order of the
visits: it is below every good stable state above the first one
(`settle_le_of_stable`), so two stable states that are reached from one good state are
equal (`settle_unique`).  A measure
that every change lowers bounds the number of passes (`settle_stable`).
-/

import Mathlib.Algebra.Order.Ring.Int

namespace Library
namespace ChaoticIteration

variable {σ ι : Type*}

/-- The visits of one pass, in order; whether one of them changed the state is
collected. -/
def pass (visit : ι → σ → σ × Bool) : List ι → σ × Bool → σ × Bool
  | [], state => state
  | i :: order, (s, changed) =>
    let (t, c) := visit i s
    pass visit order (t, changed || c)

theorem pass_cons (visit : ι → σ → σ × Bool) (i : ι) (order : List ι) (s : σ) (changed : Bool) :
    pass visit (i :: order) (s, changed) =
      pass visit order ((visit i s).1, changed || (visit i s).2) :=
  rfl

/-- Passes until one changes nothing, at most `fuel` of them, and how many there were. -/
def settle (visit : ι → σ → σ × Bool) (orders : ℕ → List ι) : ℕ → ℕ → σ → σ × ℕ
  | 0, count, s => (s, count)
  | fuel + 1, count, s =>
    let (t, changed) := pass visit (orders count) (s, false)
    if changed then settle visit orders fuel (count + 1) t else (t, count + 1)

/-- No visit changes the state. -/
def Stable (visit : ι → σ → σ × Bool) (s : σ) : Prop :=
  ∀ i, (visit i s).1 = s

/-- Visits that never go back, keep what is known of good states, stay below a good
stable state, and say truly whether they changed anything. -/
structure Improving (visit : ι → σ → σ × Bool) (le : σ → σ → Prop) (Good : σ → Prop) :
    Prop where
  refl : ∀ s, le s s
  trans : ∀ {s t u}, le s t → le t u → le s u
  antisymm : ∀ {s t}, le s t → le t s → s = t
  inflates : ∀ i s, le s (visit i s).1
  keeps : ∀ i {s}, Good s → Good (visit i s).1
  below : ∀ i {s t}, le s t → Good s → Good t → Stable visit t → le (visit i s).1 t
  unchanged : ∀ i s, (visit i s).2 = false → (visit i s).1 = s

namespace Improving

variable {visit : ι → σ → σ × Bool} {le : σ → σ → Prop} {Good : σ → Prop}
  (h : Improving visit le Good)
include h

/-- A pass never goes back. -/
theorem le_pass (order : List ι) (s : σ) (changed : Bool) :
    le s (pass visit order (s, changed)).1 := by
  induction order generalizing s changed with
  | nil => exact h.refl s
  | cons i order ih => exact h.trans (h.inflates i s) (ih _ _)

/-- A pass keeps what is known of good states. -/
theorem good_pass (order : List ι) {s : σ} (changed : Bool) (hs : Good s) :
    Good (pass visit order (s, changed)).1 := by
  induction order generalizing s changed with
  | nil => exact hs
  | cons i order ih => exact ih _ (h.keeps i hs)

/-- A pass stays below every good stable state above. -/
theorem pass_le_of_stable (order : List ι) {s t : σ} (changed : Bool) (hle : le s t)
    (hs : Good s) (hgood : Good t) (ht : Stable visit t) :
    le (pass visit order (s, changed)).1 t := by
  induction order generalizing s changed with
  | nil => exact hle
  | cons i order ih => exact ih _ (h.below i hle hs hgood ht) (h.keeps i hs)

/-- A pass that says so has changed nothing, at none of its places. -/
theorem pass_unchanged {order : List ι} {s : σ} {changed : Bool}
    (hpass : (pass visit order (s, changed)).2 = false) :
    changed = false ∧ (pass visit order (s, changed)).1 = s ∧
      ∀ i ∈ order, (visit i s).1 = s := by
  induction order generalizing s changed with
  | nil => exact ⟨hpass, rfl, fun _ hi => absurd hi List.not_mem_nil⟩
  | cons i order ih =>
    obtain ⟨hchanged, hstate, hrest⟩ := ih hpass
    rw [Bool.or_eq_false_iff] at hchanged
    have hfirst := h.unchanged i s hchanged.2
    rw [hfirst] at hrest
    refine ⟨hchanged.1, hstate.trans hfirst, fun j hj => ?_⟩
    rcases List.mem_cons.1 hj with rfl | hj
    · exact hfirst
    · exact hrest j hj

/-- A pass that changes something lowers a measure that every change lowers. -/
theorem rank_pass {rank : σ → ℕ}
    (hrank : ∀ i s, (visit i s).2 = true → rank (visit i s).1 < rank s) (order : List ι)
    (s : σ) (changed : Bool) :
    rank (pass visit order (s, changed)).1 ≤ rank s ∧
      ((pass visit order (s, changed)).2 = true → changed = false →
        rank (pass visit order (s, changed)).1 < rank s) := by
  induction order generalizing s changed with
  | nil => exact ⟨le_rfl, fun htrue hfalse => absurd (htrue.symm.trans hfalse) (by decide)⟩
  | cons i order ih =>
    obtain ⟨hle, hlt⟩ := ih (visit i s).1 (changed || (visit i s).2)
    cases hvisit : (visit i s).2 with
    | true =>
      have hdown := hrank i s hvisit
      exact ⟨hle.trans hdown.le, fun _ _ => hle.trans_lt hdown⟩
    | false =>
      rw [h.unchanged i s hvisit, hvisit, Bool.or_false] at hle hlt
      rw [pass_cons, h.unchanged i s hvisit, hvisit, Bool.or_false]
      exact ⟨hle, hlt⟩

/-- What is reached never goes back. -/
theorem le_settle (orders : ℕ → List ι) (fuel count : ℕ) (s : σ) :
    le s (settle visit orders fuel count s).1 := by
  induction fuel generalizing count s with
  | zero => exact h.refl s
  | succ fuel ih =>
    have hpass := h.le_pass (orders count) s false
    rw [settle]
    dsimp only
    split
    · exact h.trans hpass (ih _ _)
    · exact hpass

/-- What is reached is good. -/
theorem good_settle (orders : ℕ → List ι) (fuel count : ℕ) {s : σ} (hs : Good s) :
    Good (settle visit orders fuel count s).1 := by
  induction fuel generalizing count s with
  | zero => exact hs
  | succ fuel ih =>
    have hpass := h.good_pass (orders count) false hs
    rw [settle]
    dsimp only
    split
    · exact ih _ hpass
    · exact hpass

/-- What is reached stays below every good stable state above. -/
theorem settle_le_of_stable (orders : ℕ → List ι) (fuel count : ℕ) {s t : σ} (hle : le s t)
    (hs : Good s) (hgood : Good t) (ht : Stable visit t) :
    le (settle visit orders fuel count s).1 t := by
  induction fuel generalizing count s with
  | zero => exact hle
  | succ fuel ih =>
    have hpass := h.pass_le_of_stable (orders count) false hle hs hgood ht
    rw [settle]
    dsimp only
    split
    · exact ih _ hpass (h.good_pass (orders count) false hs)
    · exact hpass

/-- **The passes end at a stable state** when there are more of them allowed than the
measure of the first state, each visits every place at which a visit does anything,
and a change lowers the measure. -/
theorem settle_stable {rank : σ → ℕ} {orders : ℕ → List ι}
    (hrank : ∀ i s, (visit i s).2 = true → rank (visit i s).1 < rank s) (fuel count : ℕ)
    {s : σ} (hcover : ∀ t count i, le s t → i ∉ orders count → (visit i t).1 = t)
    (hfuel : rank s < fuel) :
    Stable visit (settle visit orders fuel count s).1 ∧
      (settle visit orders fuel count s).2 ≤ count + rank s + 1 := by
  induction fuel generalizing count s with
  | zero => exact absurd hfuel (Nat.not_lt_zero _)
  | succ fuel ih =>
    rw [settle]
    dsimp only
    split
    · next hchanged =>
      have hlt := (h.rank_pass hrank (orders count) s false).2 hchanged rfl
      have hle := h.le_pass (orders count) s false
      obtain ⟨hstable, hcount⟩ := ih (count + 1)
        (fun t count i hst => hcover t count i (h.trans hle hst)) (by omega)
      exact ⟨hstable, by omega⟩
    · next hunchanged =>
      obtain ⟨-, hstate, hall⟩ := h.pass_unchanged (Bool.eq_false_iff.2 hunchanged)
      refine ⟨fun i => ?_, by omega⟩
      rw [hstate]
      by_cases hi : i ∈ orders count
      · exact hall i hi
      · exact hcover s count i (h.refl s) hi

/-- **Stable states reached from one good state are equal**, whatever the orders. -/
theorem settle_unique {orders orders' : ℕ → List ι} {fuel fuel' count count' : ℕ} {s : σ}
    (hs : Good s) (hstable : Stable visit (settle visit orders fuel count s).1)
    (hstable' : Stable visit (settle visit orders' fuel' count' s).1) :
    (settle visit orders fuel count s).1 = (settle visit orders' fuel' count' s).1 :=
  h.antisymm
    (h.settle_le_of_stable orders fuel count (h.le_settle orders' fuel' count' s) hs
      (h.good_settle orders' fuel' count' hs) hstable')
    (h.settle_le_of_stable orders' fuel' count' (h.le_settle orders fuel count s) hs
      (h.good_settle orders fuel count hs) hstable)

end Improving

end ChaoticIteration
end Library
