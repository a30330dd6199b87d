/-
# Best elements and keyed lists

Two folds.  `strongest` goes through a list and keeps the element no later one
beats; it is an element of the list, and there is one unless the list is empty.
`upsert` puts an element into a list in which a key occurs once: an element of
the same key is merged with it, any other list grows at its end.
-/

import Mathlib.Algebra.Order.Ring.Int
import Mathlib.Data.List.Nodup

namespace Library
namespace Folds

variable {α K : Type*}

/-! ### The strongest element -/

/-- Keep the element at hand unless the next one is stronger. -/
def keepStronger (stronger : α → α → Bool) (best : Option α) (c : α) : Option α :=
  match best with
  | none => some c
  | some b => if stronger c b then some c else some b

/-- The first element no later one is stronger than. -/
def strongest (stronger : α → α → Bool) (l : List α) : Option α :=
  l.foldl (keepStronger stronger) none

theorem keepStronger_cases {stronger : α → α → Bool} {best : Option α} {c a : α}
    (h : keepStronger stronger best c = some a) : a = c ∨ best = some a := by
  unfold keepStronger at h
  split at h
  · exact .inl (Option.some.inj h).symm
  · split at h
    · exact .inl (Option.some.inj h).symm
    · exact .inr h

/-- **The strongest element is one of the list.** -/
theorem strongest_mem {stronger : α → α → Bool} {l : List α} {a : α}
    (h : strongest stronger l = some a) : a ∈ l := by
  suffices ∀ best : Option α, (∀ b, best = some b → b ∈ l) →
      ∀ l' : List α, (∀ x ∈ l', x ∈ l) → l'.foldl (keepStronger stronger) best = some a → a ∈ l from
    this none nofun l (fun _ hx => hx) h
  intro best hbest l'
  induction l' generalizing best with
  | nil => exact fun _ h => hbest a h
  | cons c l' ih =>
    intro hl h
    refine ih _ (fun b hb => ?_) (fun x hx => hl x (List.mem_cons_of_mem _ hx)) h
    rcases keepStronger_cases hb with rfl | hb
    · exact hl b List.mem_cons_self
    · exact hbest b hb

/-! ### Keyed lists -/

section upsert

variable [DecidableEq K] (key : α → K) (merge : α → α → α)

/-- Put an element into the list, merging it with the first one of its key. -/
def upsert : List α → α → List α
  | [], e => [e]
  | x :: xs, e => if key x = key e then merge x e :: xs else x :: upsert xs e

variable {key merge}

/-- What holds of the elements, and of the merged one, holds after. -/
theorem forall_mem_upsert {P : α → Prop} {e : α} (hnew : P e)
    (hmerge : ∀ x, key x = key e → P x → P (merge x e)) :
    ∀ {l : List α}, (∀ x ∈ l, P x) → ∀ x ∈ upsert key merge l e, P x
  | [], _, x, hx => by
    rw [upsert, List.mem_singleton] at hx
    exact hx ▸ hnew
  | y :: l, hl, x, hx => by
    have hy := hl y List.mem_cons_self
    have hl' : ∀ x ∈ l, P x := fun x hx => hl x (List.mem_cons_of_mem _ hx)
    rw [upsert] at hx
    split at hx
    · next hkey =>
      rcases List.mem_cons.mp hx with rfl | hx
      · exact hmerge y hkey hy
      · exact hl' x hx
    · rcases List.mem_cons.mp hx with rfl | hx
      · exact hy
      · exact forall_mem_upsert hnew hmerge hl' x hx

/-- The keys after: those before, and the new one. -/
theorem mem_keys_upsert (hmerge : ∀ x e, key x = key e → key (merge x e) = key e) {e : α} {k : K} :
    ∀ {l : List α}, k ∈ (upsert key merge l e).map key ↔ k ∈ l.map key ∨ k = key e
  | [] => by simp [upsert]
  | y :: l => by
    rw [upsert]
    split
    · next hkey =>
      rw [List.map_cons, List.mem_cons, List.map_cons, List.mem_cons, hmerge y e hkey, hkey]
      tauto
    · rw [List.map_cons, List.mem_cons, List.map_cons, List.mem_cons, mem_keys_upsert hmerge]
      tauto

/-- **Keys stay unique.** -/
theorem nodup_keys_upsert (hmerge : ∀ x e, key x = key e → key (merge x e) = key e) {e : α} :
    ∀ {l : List α}, (l.map key).Nodup → ((upsert key merge l e).map key).Nodup
  | [], _ => List.nodup_singleton _
  | y :: l, h => by
    rw [List.map_cons, List.nodup_cons] at h
    rw [upsert]
    split
    · next hkey =>
      rw [List.map_cons, List.nodup_cons, hmerge y e hkey, ← hkey]
      exact h
    · next hkey =>
      rw [List.map_cons, List.nodup_cons, mem_keys_upsert hmerge]
      exact ⟨fun hy => hy.elim h.1 hkey, nodup_keys_upsert hmerge h.2⟩

end upsert

end Folds
end Library
