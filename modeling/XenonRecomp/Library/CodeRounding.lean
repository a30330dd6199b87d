/-
# Rounding to a table of codes

A number format whose codes `0, 1, …, top` stand for increasing values of an
ordered field.  A number is rounded down to the largest code not above it, or to
the code with the nearest value, where of two values that are equally near the
one with the even code is taken.  Either rounding is decided by the two codes
around the number (`nearest_iff_of_bracket`, `nearest_succ_iff_of_bracket`), is
unique, and gives a code's own value back its code.
-/

import Mathlib.Tactic.Linarith

namespace Library
namespace CodeRounding

section Down

variable {α : Type*} [LinearOrder α] {value : ℕ → α} {top c d : ℕ} {x y : α}

/-- The largest code whose value is not above `x`. -/
structure RoundsDown (value : ℕ → α) (top : ℕ) (x : α) (c : ℕ) : Prop where
  le_top : c ≤ top
  le : value c ≤ x
  largest : ∀ d, d ≤ top → value d ≤ x → d ≤ c

/-- A number is rounded down to one code only. -/
theorem RoundsDown.unique (hc : RoundsDown value top x c) (hd : RoundsDown value top x d) :
    c = d :=
  le_antisymm (hd.largest c hc.le_top hc.le) (hc.largest d hd.le_top hd.le)

/-- Rounding down keeps the order. -/
theorem RoundsDown.mono (hc : RoundsDown value top x c) (hd : RoundsDown value top y d)
    (hxy : x ≤ y) : c ≤ d :=
  hd.largest c hc.le_top (hc.le.trans hxy)

/-- The code below a number that the next code is above. -/
theorem roundsDown_of_bracket (hv : StrictMono value) (hc : c ≤ top) (hl : value c ≤ x)
    (hu : x < value (c + 1)) : RoundsDown value top x c := by
  refine ⟨hc, hl, fun d _ hd => ?_⟩
  have hlt : d < c + 1 := hv.lt_iff_lt.1 (hd.trans_lt hu)
  omega

/-- From the largest value on everything is rounded down to the largest code. -/
theorem roundsDown_top (hl : value top ≤ x) : RoundsDown value top x top :=
  ⟨le_rfl, hl, fun _ hd _ => hd⟩

/-- A code's own value is rounded down to the code. -/
theorem roundsDown_value (hv : StrictMono value) (hc : c ≤ top) :
    RoundsDown value top (value c) c :=
  ⟨hc, le_rfl, fun _ _ hd => hv.le_iff_le.1 hd⟩

end Down

section Nearest

variable {α : Type*} [Field α] [LinearOrder α] [IsStrictOrderedRing α]
  {value : ℕ → α} {top c d : ℕ} {x : α}

/-- The code of the nearest value, and the even one of two that are equally near. -/
structure RoundsToEven (value : ℕ → α) (top : ℕ) (x : α) (c : ℕ) : Prop where
  le_top : c ≤ top
  nearest : ∀ d, d ≤ top → |x - value c| ≤ |x - value d|
  even : ∀ d, d ≤ top → d ≠ c → |x - value c| = |x - value d| → Even c

/-- Codes on the far side of the code below are farther away. -/
theorem sub_lt_abs_of_lt (hv : StrictMono value) (hl : value c ≤ x) (hd : d < c) :
    x - value c < |x - value d| := by
  have hlt : value d < value c := hv hd
  rw [abs_of_nonneg (by linarith)]
  linarith

/-- Codes on the far side of the code above are farther away. -/
theorem sub_lt_abs_of_gt (hv : StrictMono value) (hu : x ≤ value c) (hd : c < d) :
    value c - x < |x - value d| := by
  have hlt : value c < value d := hv hd
  rw [abs_of_nonpos (by linarith)]
  linarith

/-- **When the code below is the nearest.**  The number is below the middle of the
two codes around it, or in the middle and the code below is even. -/
theorem nearest_iff_of_bracket (hv : StrictMono value) (hc : c + 1 ≤ top) (hl : value c ≤ x)
    (hu : x ≤ value (c + 1)) :
    RoundsToEven value top x c ↔
      x + x < value c + value (c + 1) ∨ x + x = value c + value (c + 1) ∧ Even c := by
  have hlow : |x - value c| = x - value c := abs_of_nonneg (by linarith)
  have hhigh : |x - value (c + 1)| = value (c + 1) - x := by
    rw [abs_of_nonpos (by linarith), neg_sub]
  constructor
  · intro h
    have hle := h.nearest (c + 1) hc
    rw [hlow, hhigh] at hle
    rcases lt_or_eq_of_le (show x + x ≤ value c + value (c + 1) by linarith) with hlt | heq
    · exact Or.inl hlt
    · refine Or.inr ⟨heq, h.even (c + 1) hc (by omega) ?_⟩
      rw [hlow, hhigh]
      linarith
  · intro h
    have hmid : x + x ≤ value c + value (c + 1) := h.elim le_of_lt fun h => h.1.le
    refine ⟨by omega, fun d _ => ?_, fun d _ hne heq => ?_⟩
    · rw [hlow]
      rcases lt_trichotomy d c with hd | rfl | hd
      · exact (sub_lt_abs_of_lt hv hl hd).le
      · exact hlow.ge
      · rcases eq_or_lt_of_le (show c + 1 ≤ d from hd) with rfl | hd'
        · rw [hhigh]
          linarith
        · have := sub_lt_abs_of_gt hv hu hd'
          linarith
    · rcases h with hlt | ⟨-, heven⟩
      · exfalso
        rw [hlow] at heq
        rcases lt_trichotomy d c with hd | hd | hd
        · have := sub_lt_abs_of_lt hv hl hd
          linarith
        · exact hne hd
        · rcases eq_or_lt_of_le (show c + 1 ≤ d from hd) with rfl | hd'
          · rw [hhigh] at heq
            linarith
          · have := sub_lt_abs_of_gt hv hu hd'
            linarith
      · exact heven

/-- **When the code above is the nearest.** -/
theorem nearest_succ_iff_of_bracket (hv : StrictMono value) (hc : c + 1 ≤ top)
    (hl : value c ≤ x) (hu : x ≤ value (c + 1)) :
    RoundsToEven value top x (c + 1) ↔
      value c + value (c + 1) < x + x ∨ x + x = value c + value (c + 1) ∧ Even (c + 1) := by
  have hlow : |x - value c| = x - value c := abs_of_nonneg (by linarith)
  have hhigh : |x - value (c + 1)| = value (c + 1) - x := by
    rw [abs_of_nonpos (by linarith), neg_sub]
  constructor
  · intro h
    have hle := h.nearest c (by omega)
    rw [hlow, hhigh] at hle
    rcases lt_or_eq_of_le (show value c + value (c + 1) ≤ x + x by linarith) with hlt | heq
    · exact Or.inl hlt
    · refine Or.inr ⟨heq.symm, h.even c (by omega) (by omega) ?_⟩
      rw [hlow, hhigh]
      linarith
  · intro h
    have hmid : value c + value (c + 1) ≤ x + x := h.elim le_of_lt fun h => h.1.ge
    refine ⟨hc, fun d _ => ?_, fun d _ hne heq => ?_⟩
    · rw [hhigh]
      rcases lt_trichotomy d (c + 1) with hd | rfl | hd
      · rcases eq_or_lt_of_le (show d ≤ c by omega) with rfl | hd'
        · rw [hlow]
          linarith
        · have := sub_lt_abs_of_lt hv hl hd'
          linarith
      · exact hhigh.ge
      · exact (sub_lt_abs_of_gt hv hu hd).le
    · rcases h with hlt | ⟨-, heven⟩
      · exfalso
        rw [hhigh] at heq
        rcases lt_trichotomy d (c + 1) with hd | hd | hd
        · rcases eq_or_lt_of_le (show d ≤ c by omega) with rfl | hd'
          · rw [hlow] at heq
            linarith
          · have := sub_lt_abs_of_lt hv hl hd'
            linarith
        · exact hne hd
        · have := sub_lt_abs_of_gt hv hu hd
          linarith
      · exact heven

/-- From the largest value on the largest code is the nearest. -/
theorem roundsToEven_top (hv : StrictMono value) (hl : value top ≤ x) :
    RoundsToEven value top x top := by
  have habs : |x - value top| = x - value top := abs_of_nonneg (by linarith)
  refine ⟨le_rfl, fun d hd => ?_, fun d hd hne heq => ?_⟩
  · rcases eq_or_lt_of_le hd with rfl | hd
    · exact le_rfl
    · rw [habs]
      exact (sub_lt_abs_of_lt hv hl hd).le
  · rw [habs] at heq
    exact absurd heq (sub_lt_abs_of_lt hv hl (lt_of_le_of_ne hd hne)).ne

/-- What is rounded to the nearest code from a code's own value is the code. -/
theorem RoundsToEven.eq_of_value (hv : StrictMono value) (hd : d ≤ top)
    (h : RoundsToEven value top (value d) c) : c = d := by
  have hle := h.nearest d hd
  rw [sub_self, abs_zero] at hle
  exact hv.injective (sub_eq_zero.1 (abs_nonpos_iff.1 hle)).symm

end Nearest

end CodeRounding
end Library
