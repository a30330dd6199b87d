/-
# Counted loops

A loop `for (i = 0; i < n; ++i)` over a state, and the same loop with a body
that can throw.  Each has the one rule a proof about it needs: an assertion
that the body carries from `i` to `i + 1` is carried from `0` to `n`.
-/

import Mathlib.Algebra.Order.Ring.Int

namespace Library
namespace Loop

universe u

variable {S E : Type*}

/-- Run `body 0`, …, `body (n - 1)` in this order. -/
def loop (body : Nat → S → S) : Nat → S → S
  | 0, s => s
  | n + 1, s => body n (loop body n s)

/-- Run `body 0`, …, `body (n - 1)` in this order, up to the first that
throws. -/
def loopM (body : Nat → S → Except E S) : Nat → S → Except E S
  | 0, s => .ok s
  | n + 1, s => do
    let s ← loopM body n s
    body n s

/-- **The rule for a loop.** -/
theorem loop_induct {body : Nat → S → S} {I : Nat → S → Prop} {n : Nat} {s : S} (h₀ : I 0 s)
    (hstep : ∀ i s, i < n → I i s → I (i + 1) (body i s)) : I n (loop body n s) := by
  suffices ∀ k, k ≤ n → I k (loop body k s) from this n (Nat.le_refl n)
  intro k
  induction k with
  | zero => exact fun _ => h₀
  | succ k ih => exact fun hk => hstep k _ hk (ih (Nat.le_of_succ_le hk))

/-- What a sequence of two parts went through, where neither throws. -/
theorem bind_eq_ok {A B : Type u} {x : Except E A} {f : A → Except E B} {b : B} :
    (x >>= f) = .ok b ↔ ∃ a, x = .ok a ∧ f a = .ok b := by
  cases x with
  | error e =>
    constructor
    · intro h
      cases h
    · rintro ⟨_, h, -⟩
      cases h
  | ok a =>
    constructor
    · exact fun h => ⟨a, rfl, h⟩
    · rintro ⟨_, h, hf⟩
      cases h
      exact hf

/-- **The rule for a run of a loop that did not throw**: what the body keeps
where it does not throw, the loop keeps. -/
theorem loopM_keeps {body : Nat → S → Except E S} {I : S → Prop}
    (hstep : ∀ i s s', I s → body i s = .ok s' → I s') :
    ∀ {n : Nat} {s s' : S}, I s → loopM body n s = .ok s' → I s'
  | 0, _, _, h, hrun => by cases hrun; exact h
  | n + 1, _, _, h, hrun => by
    obtain ⟨s₁, hrun₁, hlast⟩ := bind_eq_ok.mp hrun
    exact hstep n s₁ _ (loopM_keeps hstep h hrun₁) hlast

end Loop
end Library
