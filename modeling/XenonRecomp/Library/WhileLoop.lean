/-
# Loops with a condition

A loop `while (condition) body` over a state, with a body that computes and
with a body in a monad.  The number of rounds is bounded by fuel; a measure
that the body lowers shows that the fuel is enough, so that the loop ends
because its condition is false.  For bodies that can throw there is the list of
the states in which the body ran, over which a claim about every round is
stated.
-/

import Mathlib.Data.List.Chain
import XenonRecomp.Library.Loop

namespace Library
namespace Loop

universe u v

/-! ### A body that computes -/

section Pure

variable {S : Type*} {condition : S → Bool} {body : S → S}

/-- Run `body` while `condition` holds, `fuel` rounds at most. -/
def whileDo (condition : S → Bool) (body : S → S) : ℕ → S → S
  | 0, s => s
  | fuel + 1, s => if condition s then whileDo condition body fuel (body s) else s

theorem whileDo_of_not (fuel : ℕ) {s : S} (h : condition s = false) :
    whileDo condition body fuel s = s := by
  cases fuel with
  | zero => rfl
  | succ fuel => simp [whileDo, h]

/-- **The rule for the loop.** -/
theorem whileDo_keeps {I : S → Prop} (hstep : ∀ s, I s → condition s = true → I (body s)) :
    ∀ {fuel : ℕ} {s : S}, I s → I (whileDo condition body fuel s) := by
  intro fuel
  induction fuel with
  | zero => exact fun h => h
  | succ fuel ih =>
    intro s h
    rw [whileDo]
    split
    · next hc => exact ih (hstep s h hc)
    · exact h

/-- **With enough fuel the loop ends because its condition is false.** -/
theorem whileDo_done (measure : S → ℕ) (hpos : ∀ s, condition s = true → 0 < measure s)
    (hstep : ∀ s, condition s = true → measure (body s) < measure s) :
    ∀ {fuel : ℕ} {s : S}, measure s ≤ fuel → condition (whileDo condition body fuel s) = false := by
  intro fuel
  induction fuel with
  | zero =>
    intro s hle
    cases hc : condition s with
    | false => exact hc
    | true =>
      have hlt := hpos s hc
      omega
  | succ fuel ih =>
    intro s hle
    cases hc : condition s with
    | false =>
      rw [whileDo_of_not _ hc]
      exact hc
    | true =>
      have hlt := hstep s hc
      rw [whileDo, if_pos hc]
      exact ih (by omega)

/-- **The rule for two runs of loops side by side.** -/
theorem whileDo_simulates {T : Type*} {condition' : T → Bool} {body' : T → T} {R : S → T → Prop}
    (hcond : ∀ s t, R s t → condition' t = condition s)
    (hstep : ∀ s t, R s t → condition s = true → R (body s) (body' t)) :
    ∀ {fuel : ℕ} {s : S} {t : T}, R s t →
      R (whileDo condition body fuel s) (whileDo condition' body' fuel t) := by
  intro fuel
  induction fuel with
  | zero => exact fun h => h
  | succ fuel ih =>
    intro s t h
    rw [whileDo, whileDo, hcond s t h]
    split
    · next hc => exact ih (hstep s t h hc)
    · exact h

end Pure

/-! ### A body in a monad -/

section Monadic

variable {m : Type u → Type v} [Monad m] {S : Type u} {condition : S → Bool}

/-- Run `body` while `condition` holds, `fuel` rounds at most. -/
def whileM (condition : S → Bool) (body : S → m S) : ℕ → S → m S
  | 0, s => pure s
  | fuel + 1, s => if condition s then body s >>= whileM condition body fuel else pure s

theorem whileM_of_not (body : S → m S) (fuel : ℕ) {s : S} (h : condition s = false) :
    whileM condition body fuel s = pure s := by
  cases fuel with
  | zero => rfl
  | succ fuel => simp [whileM, h]

theorem whileM_succ (body : S → m S) (fuel : ℕ) {s : S} (h : condition s = true) :
    whileM condition body (fuel + 1) s = body s >>= whileM condition body fuel := by
  simp [whileM, h]

end Monadic

/-! ### A body that can throw -/

section Except

variable {E S : Type u} {condition : S → Bool} {body : S → Except E S}

/-- The states in which the body of a loop runs. -/
def rounds (condition : S → Bool) (body : S → Except E S) : ℕ → S → List S
  | 0, _ => []
  | fuel + 1, s =>
    if condition s then
      match body s with
      | .ok s' => s :: rounds condition body fuel s'
      | .error _ => [s]
    else []

/-- **The rule for a run of the loop that did not throw.** -/
theorem whileM_keeps {I : S → Prop}
    (hstep : ∀ s s', I s → condition s = true → body s = .ok s' → I s') :
    ∀ {fuel : ℕ} {s s' : S}, I s → whileM condition body fuel s = .ok s' → I s' := by
  intro fuel
  induction fuel with
  | zero =>
    intro s s' h hrun
    cases hrun
    exact h
  | succ fuel ih =>
    intro s s' h hrun
    cases hc : condition s with
    | false =>
      rw [whileM_of_not body _ hc] at hrun
      cases hrun
      exact h
    | true =>
      rw [whileM_succ body fuel hc] at hrun
      obtain ⟨s₁, hbody, hrest⟩ := bind_eq_ok.mp hrun
      exact ih (hstep s s₁ h hc hbody) hrest

/-- **With enough fuel the loop ends because its condition is false.** -/
theorem whileM_done (measure : S → ℕ) (hpos : ∀ s, condition s = true → 0 < measure s)
    (hstep : ∀ s s', condition s = true → body s = .ok s' → measure s' < measure s) :
    ∀ {fuel : ℕ} {s s' : S}, measure s ≤ fuel → whileM condition body fuel s = .ok s' →
      condition s' = false := by
  intro fuel
  induction fuel with
  | zero =>
    intro s s' hle hrun
    cases hrun
    cases hc : condition s with
    | false => rfl
    | true =>
      have hlt := hpos s hc
      omega
  | succ fuel ih =>
    intro s s' hle hrun
    cases hc : condition s with
    | false =>
      rw [whileM_of_not body _ hc] at hrun
      cases hrun
      exact hc
    | true =>
      rw [whileM_succ body fuel hc] at hrun
      obtain ⟨s₁, hbody, hrest⟩ := bind_eq_ok.mp hrun
      have hlt := hstep s s₁ hc hbody
      exact ih (by omega) hrest

/-- **The rule for two runs of loops side by side**: where the bodies keep the
states related and the first loop does not throw, neither does the second.  What
goes back over a step, `P`, is known of every state of a run that ends with it. -/
theorem whileM_simulates {T : Type u} {condition' : T → Bool} {body' : T → Except E T}
    {I P : S → Prop} {R : S → T → Prop}
    (hkeep : ∀ s s', I s → condition s = true → body s = .ok s' → I s' ∧ (P s' → P s))
    (hcond : ∀ s t, R s t → condition' t = condition s)
    (hstep : ∀ s t s', I s → R s t → condition s = true → body s = .ok s' → P s' →
      ∃ t', body' t = .ok t' ∧ R s' t') :
    ∀ {fuel : ℕ} {s : S} {t : T} {s' : S}, I s → R s t →
      whileM condition body fuel s = .ok s' → P s' →
        ∃ t', whileM condition' body' fuel t = .ok t' ∧ R s' t' := by
  intro fuel
  induction fuel with
  | zero =>
    intro s t s' _ h hrun _
    cases hrun
    exact ⟨t, rfl, h⟩
  | succ fuel ih =>
    intro s t s' hI h hrun hP
    cases hc : condition s with
    | false =>
      rw [whileM_of_not body _ hc] at hrun
      cases hrun
      exact ⟨t, whileM_of_not body' _ ((hcond s t h).trans hc), h⟩
    | true =>
      rw [whileM_succ body fuel hc] at hrun
      obtain ⟨s₁, hbody, hrest⟩ := bind_eq_ok.mp hrun
      have hI₁ := (hkeep s s₁ hI hc hbody).1
      have hback : I s' ∧ (P s' → P s₁) :=
        whileM_keeps (I := fun x => I x ∧ (P x → P s₁)) (fun x x' hx hcx hbodyx =>
          ⟨(hkeep x x' hx.1 hcx hbodyx).1, hx.2 ∘ (hkeep x x' hx.1 hcx hbodyx).2⟩)
          ⟨hI₁, id⟩ hrest
      obtain ⟨t₁, hbody', h₁⟩ := hstep s t s₁ hI h hc hbody (hback.2 hP)
      obtain ⟨t', hrun', h'⟩ := ih hI₁ h₁ hrest hP
      refine ⟨t', ?_, h'⟩
      rw [whileM_succ body' fuel ((hcond s t h).trans hc), hbody']
      exact hrun'

/-! ### The rounds of a run -/

theorem rounds_of_not (body : S → Except E S) (fuel : ℕ) {s : S} (h : condition s = false) :
    rounds condition body fuel s = [] := by
  cases fuel with
  | zero => rfl
  | succ fuel => simp [rounds, h]

theorem rounds_succ {fuel : ℕ} {s s' : S} (hc : condition s = true) (hbody : body s = .ok s') :
    rounds condition body (fuel + 1) s = s :: rounds condition body fuel s' := by
  simp [rounds, hc, hbody]

/-- **The rule for a run and its rounds**: what holds of a run that makes no
round, and passes from the rest of a run to the whole. -/
theorem rounds_induct {s' : S} {Q : S → List S → Prop} (hdone : Q s' [])
    (hstep : ∀ s s₁ rest, condition s = true → body s = .ok s₁ → Q s₁ rest → Q s (s :: rest)) :
    ∀ {fuel : ℕ} {s : S}, whileM condition body fuel s = .ok s' →
      Q s (rounds condition body fuel s) := by
  intro fuel
  induction fuel with
  | zero =>
    intro s hrun
    cases hrun
    exact hdone
  | succ fuel ih =>
    intro s hrun
    cases hc : condition s with
    | false =>
      rw [whileM_of_not body _ hc] at hrun
      cases hrun
      rw [rounds_of_not body _ hc]
      exact hdone
    | true =>
      rw [whileM_succ body fuel hc] at hrun
      obtain ⟨s₁, hbody, hrest⟩ := bind_eq_ok.mp hrun
      rw [rounds_succ hc hbody]
      exact hstep s s₁ _ hc hbody (ih hrest)

/-- **The rule for what links the rounds of a run**: the states in which the body
runs, and the last one, form a chain behind any state linked to the first. -/
theorem rounds_chain {I : S → Prop} {R : S → S → Prop}
    (hstep : ∀ s s', I s → condition s = true → body s = .ok s' → I s' ∧ R s s')
    {fuel : ℕ} {s s' : S} (h : I s) (hrun : whileM condition body fuel s = .ok s') :
    (∀ x, R x s → (x :: (rounds condition body fuel s ++ [s'])).IsChain R) ∧
      ∀ x ∈ rounds condition body fuel s, I x := by
  refine rounds_induct (Q := fun s l => I s →
    (∀ x, R x s → (x :: (l ++ [s'])).IsChain R) ∧ ∀ x ∈ l, I x)
    (fun _ => ⟨fun x hx => .cons_cons hx (.singleton _), by simp⟩)
    (fun s s₁ rest hc hbody hrest h => ?_) hrun h
  obtain ⟨hI, hR⟩ := hstep s s₁ h hc hbody
  obtain ⟨hchain, hall⟩ := hrest hI
  exact ⟨fun x hx => .cons_cons hx (hchain s hR), List.forall_mem_cons.mpr ⟨h, hall⟩⟩

end Except

end Loop
end Library
