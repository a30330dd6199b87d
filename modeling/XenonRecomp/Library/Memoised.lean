/-
# Memoised recursion

A recursive search that keeps its answers: before a key is evaluated its answer
is looked up, and afterwards it is stored.  The evaluation of a key calls the
search again only for keys of a higher level, up to a bound.  Then the search
returns, its answer is the one the keys have by themselves, and no key is
evaluated twice.  `Yields` is what a part of an evaluation has to satisfy; it
holds of results and passes to sequences.
-/

import Mathlib.Algebra.Order.Ring.Int

namespace Library
namespace Memoised

/-- The answers that are known, and the keys whose evaluation has begun, the last
one first. -/
structure Memo (K A : Type*) where
  known : K → Option A
  visited : List K := []

/-- What a search computes; `none` where the depth did not suffice. -/
abbrev Search (K A : Type) := StateT (Memo K A) Option

section Recursion

variable {K A : Type}

namespace Memo

/-- Nothing is known yet. -/
def empty : Memo K A :=
  { known := fun _ => none }

/-- The evaluation of a key begins. -/
def visit (m : Memo K A) (key : K) : Memo K A :=
  { m with visited := key :: m.visited }

/-- An answer is stored. -/
def store [DecidableEq K] (m : Memo K A) (key : K) (answer : A) : Memo K A :=
  { m with known := Function.update m.known key (some answer) }

theorem store_known_self [DecidableEq K] (m : Memo K A) (key : K) (answer : A) :
    (m.store key answer).known key = some answer :=
  Function.update_self ..

theorem store_known_of_ne [DecidableEq K] (m : Memo K A) {key next : K} (answer : A)
    (hne : next ≠ key) : (m.store key answer).known next = m.known next :=
  Function.update_of_ne hne ..

end Memo

/-- The recursion, `depth` calls deep at most. -/
def memoised [DecidableEq K] (evaluate : (K → Search K A A) → K → Search K A A) :
    ℕ → K → Search K A A
  | 0, _ => fun _ => none
  | depth + 1, key => fun m =>
    match m.known key with
    | some answer => some (answer, m)
    | none =>
      match evaluate (memoised evaluate depth) key (m.visit key) with
      | some (answer, m) => some (answer, m.store key answer)
      | none => none

/-! ### What is kept -/

variable (level : K → ℕ) (allowed : K → Prop) (truth : K → A)

/-- The known answers are right, no key was visited twice, and from level `l` on
the visited keys have answers: the keys in evaluation are below. -/
structure Sound (l : ℕ) (m : Memo K A) : Prop where
  answers : ∀ key answer, m.known key = some answer → truth key = answer
  once : m.visited.Nodup
  answered : ∀ key ∈ m.visited, l ≤ level key → (m.known key).isSome = true
  allowed : ∀ key ∈ m.visited, allowed key

/-- Answers stay, and the keys visited on the way are of level `l` or above. -/
structure Follows (l : ℕ) (m m' : Memo K A) : Prop where
  stays : ∀ key, (m.known key).isSome = true → (m'.known key).isSome = true
  visited : ∀ key ∈ m'.visited, key ∈ m.visited ∨ l ≤ level key

/-- A part of an evaluation that returns `a` and keeps the memo sound. -/
def Yields {α : Type} (l : ℕ) (x : Search K A α) (a : α) : Prop :=
  ∀ m, Sound level allowed truth l m →
    ∃ m', x m = some (a, m') ∧ Sound level allowed truth l m' ∧ Follows level l m m'

variable {level allowed truth}

theorem Sound.empty (l : ℕ) : Sound level allowed truth l (Memo.empty : Memo K A) where
  answers := by
    rintro key answer ⟨⟩
  once := List.nodup_nil
  answered := fun _ hkey => absurd hkey List.not_mem_nil
  allowed := fun _ hkey => absurd hkey List.not_mem_nil

namespace Yields

variable {α β : Type} {l : ℕ}

theorem pure (a : α) : Yields level allowed truth l (Pure.pure a : Search K A α) a :=
  fun m hm => ⟨m, rfl, hm, fun _ h => h, fun _ h => .inl h⟩

theorem bind {x : Search K A α} {f : α → Search K A β} {a : α} {b : β}
    (hx : Yields level allowed truth l x a) (hf : Yields level allowed truth l (f a) b) :
    Yields level allowed truth l (x >>= f) b := by
  intro m hm
  obtain ⟨m₁, hrun, hm₁, hfollows⟩ := hx m hm
  obtain ⟨m₂, hrest, hm₂, hfollows'⟩ := hf m₁ hm₁
  refine ⟨m₂, ?_, hm₂, fun key hkey => hfollows'.stays key (hfollows.stays key hkey),
    fun key hkey => ?_⟩
  · have hbind : (x >>= f) m = (x m).bind fun p => f p.1 p.2 := rfl
    rw [hbind, hrun]
    exact hrest
  · rcases hfollows'.visited key hkey with hkey | hlevel
    · exact hfollows.visited key hkey
    · exact .inr hlevel

end Yields

/-- **The recursion returns the answers the keys have by themselves**, from any
sound memo, when the evaluation of a key does, with calls for keys of higher
levels. -/
theorem memoised_yields [DecidableEq K]
    {evaluate : (K → Search K A A) → K → Search K A A} {bound : ℕ}
    (hlevel : ∀ key, allowed key → level key ≤ bound)
    (hevaluate : ∀ self key, allowed key →
      (∀ next, allowed next → level key < level next →
        Yields level allowed truth (level key + 1) (self next) (truth next)) →
      Yields level allowed truth (level key + 1) (evaluate self key) (truth key)) :
    ∀ (depth : ℕ) (key : K), allowed key → bound < depth + level key →
      ∀ l ≤ level key, Yields level allowed truth l (memoised evaluate depth key) (truth key) := by
  intro depth
  induction depth with
  | zero =>
    intro key hkey hdepth
    have hle := hlevel key hkey
    omega
  | succ depth ih =>
    intro key hkey hdepth l hl m hm
    cases hknown : m.known key with
    | some answer =>
      refine ⟨m, ?_, hm, fun _ h => h, fun _ h => .inl h⟩
      rw [memoised]
      dsimp only
      rw [hknown, hm.answers key answer hknown]
    | none =>
      -- The key is not in evaluation, since those are below its level.
      have hfresh : key ∉ m.visited := fun hmem => by
        have hsome := hm.answered key hmem hl
        rw [hknown] at hsome
        cases hsome
      have hm₁ : Sound level allowed truth (level key + 1) (m.visit key) := by
        refine ⟨hm.answers, List.nodup_cons.mpr ⟨hfresh, hm.once⟩, fun next hnext hle => ?_,
          List.forall_mem_cons.mpr ⟨hkey, hm.allowed⟩⟩
        rcases List.mem_cons.mp hnext with rfl | hnext
        · omega
        · exact hm.answered next hnext (by omega)
      obtain ⟨m₂, hrun, hm₂, hfollows⟩ := hevaluate (memoised evaluate depth) key hkey
        (fun next hnext hlt => ih next hnext (by omega) _ hlt) _ hm₁
      have hstored : ∀ next, (m₂.known next).isSome = true →
          ((m₂.store key (truth key)).known next).isSome = true := by
        intro next hnext
        rcases eq_or_ne next key with rfl | hne
        · rw [Memo.store_known_self]
          rfl
        · rw [Memo.store_known_of_ne _ _ hne]
          exact hnext
      refine ⟨m₂.store key (truth key), ?_, ⟨fun next answer h => ?_, hm₂.once, ?_, hm₂.allowed⟩,
        fun next hnext => hstored next (hfollows.stays next hnext), fun next hnext => ?_⟩
      · rw [memoised]
        dsimp only
        rw [hknown]
        dsimp only
        rw [hrun]
      · rcases eq_or_ne next key with rfl | hne
        · rw [Memo.store_known_self] at h
          exact Option.some.inj h
        · rw [Memo.store_known_of_ne _ _ hne] at h
          exact hm₂.answers next answer h
      · intro next hnext hle
        rcases hfollows.visited next hnext with hmem | hlt
        · rcases List.mem_cons.mp hmem with rfl | hmem
          · rw [Memo.store_known_self]
            rfl
          · exact hstored next (hfollows.stays next (hm.answered next hmem hle))
        · exact hstored next (hm₂.answered next hnext hlt)
      · rcases hfollows.visited next hnext with hmem | hlt
        · rcases List.mem_cons.mp hmem with rfl | hmem
          · exact .inr hl
          · exact .inl hmem
        · exact .inr (by omega)

variable (level) in
/-- **The search from an empty memo**: it returns the right answer, and visits no
key twice, and only allowed ones. -/
theorem memoised_empty [DecidableEq K]
    {evaluate : (K → Search K A A) → K → Search K A A} (bound : ℕ) {depth : ℕ}
    (hlevel : ∀ key, allowed key → level key ≤ bound)
    (hevaluate : ∀ self key, allowed key →
      (∀ next, allowed next → level key < level next →
        Yields level allowed truth (level key + 1) (self next) (truth next)) →
      Yields level allowed truth (level key + 1) (evaluate self key) (truth key))
    {key : K} (hkey : allowed key) (hdepth : bound < depth + level key) :
    ∃ m, memoised evaluate depth key Memo.empty = some (truth key, m) ∧ m.visited.Nodup ∧
      ∀ next ∈ m.visited, allowed next := by
  obtain ⟨m, hrun, hm, -⟩ :=
    memoised_yields hlevel hevaluate depth key hkey hdepth _ le_rfl _ (.empty _)
  exact ⟨m, hrun, hm.once, hm.allowed⟩

end Recursion

end Memoised
end Library
