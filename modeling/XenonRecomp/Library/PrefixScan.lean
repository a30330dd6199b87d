/-
# One pass for all the lengths

A loop takes a step for every index and stops by itself, before a step or after
one.  `run` is what it has computed after a given number of steps at most;
`scan` tests what has been computed after every step and ends with the first
test that passes.  One scan finds out whether the test passes for any of the
lengths that separate runs would reach.
-/

import Mathlib.Algebra.Order.Ring.Int

namespace Library
namespace PrefixScan

variable {σ : Type*}

/-- A step for every index: `none` stops before it, `true` stops behind it. -/
abbrev Step (σ : Type*) := ℕ → σ → Option (σ × Bool)

/-- The state and the index after `remaining` steps at most. -/
def run (step : Step σ) : ℕ → ℕ → σ → σ × ℕ
  | 0, index, state => (state, index)
  | remaining + 1, index, state =>
    match step index state with
    | none => (state, index)
    | some (state, true) => (state, index + 1)
    | some (state, false) => run step remaining (index + 1) state

/-- A test passes behind one of at most `remaining` steps. -/
def scan (step : Step σ) (test : ℕ → σ → Bool) : ℕ → ℕ → σ → Bool
  | 0, _, _ => false
  | remaining + 1, index, state =>
    match step index state with
    | none => false
    | some (state, stop) =>
      if test (index + 1) state then true
      else if stop then false
      else scan step test remaining (index + 1) state

variable {step other : Step σ} {test : ℕ → σ → Bool}

theorem run_le (remaining index : ℕ) (state : σ) :
    index ≤ (run step remaining index state).2 ∧
      (run step remaining index state).2 ≤ index + remaining := by
  induction remaining generalizing index state with
  | zero => exact ⟨le_rfl, le_rfl⟩
  | succ remaining ih =>
    rw [run]
    split
    · exact ⟨le_rfl, by omega⟩
    · exact ⟨by omega, by omega⟩
    · next next _ =>
      obtain ⟨hlow, hhigh⟩ := ih (index + 1) next
      exact ⟨by omega, by omega⟩

/-- Steps that agree as long as a condition on the index holds lead to the same state. -/
theorem run_congr {P : ℕ → Prop} (hagree : ∀ i, P i → ∀ s, step i s = other i s)
    (hnext : ∀ i s r, P i → step i s = some r → P (i + 1)) (remaining index : ℕ) (state : σ)
    (h : P index) : run step remaining index state = run other remaining index state := by
  induction remaining generalizing index state with
  | zero => rfl
  | succ remaining ih =>
    rw [run, run, ← hagree index h state]
    cases hstep : step index state with
    | none => rfl
    | some r =>
      obtain ⟨next, stop⟩ := r
      cases stop with
      | true => rfl
      | false => exact ih (index + 1) next (hnext index state _ h hstep)

/-- A condition on the index that every step keeps holds where a run ends. -/
theorem run_keeps {P : ℕ → Prop} (hnext : ∀ i s r, P i → step i s = some r → P (i + 1))
    (remaining index : ℕ) (state : σ) (h : P index) : P (run step remaining index state).2 := by
  induction remaining generalizing index state with
  | zero => exact h
  | succ remaining ih =>
    rw [run]
    split
    · exact h
    · next hstep => exact hnext index state _ h hstep
    · next next hstep => exact ih (index + 1) next (hnext index state _ h hstep)

/-- **A scan passes exactly if the test does for a length that a run reaches.** -/
theorem scan_iff (remaining index : ℕ) (state : σ) :
    scan step test remaining index state = true ↔
      ∃ n, 0 < n ∧ n ≤ remaining ∧ (run step n index state).2 = index + n ∧
        test (index + n) (run step n index state).1 = true := by
  induction remaining generalizing index state with
  | zero =>
    simp only [scan, Bool.false_eq_true, false_iff]
    rintro ⟨n, hpos, hle, -⟩
    omega
  | succ remaining ih =>
    rw [scan]
    cases hstep : step index state with
    | none =>
      simp only [Bool.false_eq_true, false_iff]
      rintro ⟨n, hpos, -, hreach, -⟩
      obtain ⟨m, rfl⟩ := Nat.exists_eq_add_of_lt hpos
      rw [Nat.zero_add, run, hstep] at hreach
      simp only at hreach
      omega
    | some r =>
      obtain ⟨next, stop⟩ := r
      -- The first length is that of this step, the others go on behind it.
      have hone : run step 1 index state = (next, index + 1) := by
        rw [run, hstep]
        cases stop <;> rfl
      have hmore : ∀ m, stop = false →
          run step (m + 1) index state = run step m (index + 1) next := by
        rintro m rfl
        rw [run, hstep]
      have hstopped : ∀ m, stop = true → run step (m + 1) index state = (next, index + 1) := by
        rintro m rfl
        rw [run, hstep]
      simp only
      by_cases htest : test (index + 1) next = true
      · simp only [htest, if_true, true_iff]
        exact ⟨1, by omega, by omega, by rw [hone], by rw [hone]; exact htest⟩
      · rw [if_neg htest]
        cases stop with
        | true =>
          simp only [if_true, Bool.false_eq_true, false_iff]
          rintro ⟨n, hpos, -, hreach, hpass⟩
          obtain ⟨m, rfl⟩ : ∃ m, n = m + 1 := ⟨n - 1, by omega⟩
          rw [hstopped m rfl] at hreach hpass
          obtain rfl : m = 0 := by simp only at hreach; omega
          exact htest hpass
        | false =>
          rw [if_neg Bool.false_ne_true, ih]
          constructor
          · rintro ⟨n, hpos, hle, hreach, hpass⟩
            refine ⟨n + 1, by omega, by omega, ?_, ?_⟩
            · rw [hmore n rfl, hreach]
              omega
            · rw [hmore n rfl, show index + (n + 1) = index + 1 + n by omega]
              exact hpass
          · rintro ⟨n, hpos, hle, hreach, hpass⟩
            obtain ⟨m, rfl⟩ : ∃ m, n = m + 1 := ⟨n - 1, by omega⟩
            rw [hmore m rfl] at hreach hpass
            have hm : 0 < m := by
              by_contra hzero
              obtain rfl : m = 0 := by omega
              exact htest hpass
            refine ⟨m, hm, by omega, by omega, ?_⟩
            rw [show index + 1 + m = index + (m + 1) by omega]
            exact hpass

end PrefixScan
end Library
