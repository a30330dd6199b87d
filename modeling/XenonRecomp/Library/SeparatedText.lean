/-
# Items in white space and with separators between them

A language is a relation between texts and what they stand for.  `Padded` puts an item in
white space, `SepBy` one item after another with a separator between them, and `Via`
follows a language by a relation on what it stands for; the three commute.  `Recognises`
is what a parser of a language does: what it reads is in the language, and it reads what
is in the language as far as a text that ends an item.
-/

import Mathlib.Algebra.Order.Ring.Int
import Mathlib.Data.List.Forall2

namespace Library

variable {T α β : Type}

/-- Items with separators between them, at least one. -/
inductive SepBy (sep : T) (R : List T → α → Prop) : List T → List α → Prop
  | last {t : List T} {a : α} : R t a → SepBy sep R t [a]
  | cons {t u : List T} {a : α} {as : List α} :
    R t a → SepBy sep R u as → SepBy sep R (t ++ sep :: u) (a :: as)

/-- An item with white space around it. -/
inductive Padded (white : T → Bool) (R : List T → α → Prop) : List T → α → Prop
  | mk {v t w : List T} {a : α} : (∀ c ∈ v, white c = true) → R t a →
    (∀ c ∈ w, white c = true) → Padded white R (v ++ (t ++ w)) a

/-- What a text of a language stands for, in a relation. -/
def Via (R : List T → α → Prop) (Q : α → β → Prop) (t : List T) (b : β) : Prop :=
  ∃ a, R t a ∧ Q a b

section

variable {sep : T} {white : T → Bool} {R : List T → α → Prop} {Q : α → β → Prop} {t : List T}

theorem SepBy.length_le {as : List α} (h : SepBy sep R t as) : as.length ≤ t.length + 1 := by
  induction h with
  | last => exact Nat.le_add_left 1 _
  | cons _ _ ih =>
    rw [List.length_cons, List.length_append, List.length_cons]
    omega

theorem sepBy_via {bs : List β} :
    SepBy sep (Via R Q) t bs ↔ Via (SepBy sep R) (List.Forall₂ Q) t bs := by
  constructor
  · intro h
    induction h with
    | last h =>
      obtain ⟨a, hR, hQ⟩ := h
      exact ⟨[a], .last hR, .cons hQ .nil⟩
    | cons h _ ih =>
      obtain ⟨a, hR, hQ⟩ := h
      obtain ⟨as, hRs, hQs⟩ := ih
      exact ⟨a :: as, .cons hR hRs, .cons hQ hQs⟩
  · rintro ⟨as, hR, hQ⟩
    induction hR generalizing bs with
    | last h =>
      obtain ⟨b, bs, hb, hbs, rfl⟩ := List.forall₂_cons_left_iff.mp hQ
      rw [List.forall₂_nil_left_iff.mp hbs]
      exact .last ⟨_, h, hb⟩
    | cons h _ ih =>
      obtain ⟨b, bs, hb, hbs, rfl⟩ := List.forall₂_cons_left_iff.mp hQ
      exact .cons ⟨_, h, hb⟩ (ih hbs)

theorem padded_via {b : β} : Padded white (Via R Q) t b ↔ Via (Padded white R) Q t b := by
  constructor
  · rintro ⟨hv, ⟨a, hR, hQ⟩, hw⟩
    exact ⟨a, .mk hv hR hw, hQ⟩
  · rintro ⟨a, ⟨hv, hR, hw⟩, hQ⟩
    exact .mk hv ⟨a, hR, hQ⟩ hw

/-- The white space in front of the first item can be taken off. -/
theorem SepBy.strip {as : List α} (h : SepBy sep (Padded white R) t as) :
    ∃ v u, t = v ++ u ∧ (∀ c ∈ v, white c = true) ∧ SepBy sep (Padded white R) u as ∧
      ∃ t' a u', R t' a ∧ u = t' ++ u' := by
  cases h with
  | last h =>
    obtain ⟨hv, hR, hw⟩ := h
    exact ⟨_, _, rfl, hv, .last (.mk (v := []) (fun _ h => absurd h List.not_mem_nil) hR hw),
      _, _, _, hR, rfl⟩
  | cons h hs =>
    obtain ⟨hv, hR, hw⟩ := h
    refine ⟨_, _, List.append_assoc _ _ _, hv,
      .cons (.mk (v := []) (fun _ h => absurd h List.not_mem_nil) hR hw) hs, _, _, _, hR,
      List.append_assoc _ _ _⟩

theorem SepBy.mono {S : List T → α → Prop} {as : List α} (h : SepBy sep R t as)
    (hRS : ∀ t a, R t a → S t a) : SepBy sep S t as := by
  induction h with
  | last h => exact .last (hRS _ _ h)
  | cons h _ ih => exact .cons (hRS _ _ h) ih

end

/-! ### Parsers -/

/-- The parser reads the texts of a language behind white space and up to the end of the
whole text or one of the characters that end an item, none of which begins an item. -/
structure Recognises {ε : Type} (white : T → Bool) (ends : List T)
    (p : List T → Except ε (α × List T)) (R : List T → α → Prop) : Prop where
  sound : ∀ {text : List T} {a : α} {rest : List T}, p text = .ok (a, rest) →
    ∃ v t, (∀ c ∈ v, white c = true) ∧ text = v ++ (t ++ rest) ∧ R t a
  complete : ∀ {t : List T} {a : α} {rest : List T}, R t a → (∀ c ∈ rest.head?, c ∈ ends) →
    p (t ++ rest) = .ok (a, rest)
  starts : ∀ {t : List T} {a : α}, R t a → ∃ c u, t = c :: u ∧ c ∉ ends

end Library
