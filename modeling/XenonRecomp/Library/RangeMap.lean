/-
# Coalesced maps of ranges

A set of numbers kept as the sorted list of its maximal runs, each a first
element and a length.  Two neighbouring runs never touch, so the list of a set
is unique and one look at the run that starts at or before `x` decides whether
`x` is in the set.  The operations are the ones of a free-range allocator: take
a run out of the first or the last range that has room for it
(`RangeMap.allocate`), take out a given run (`RangeMap.claim`), and put a run
back, joined with its neighbours (`RangeMap.insertCoalesced`).  Each one is
described by its effect on the set (`mem_allocate`, `mem_claim`,
`mem_insertCoalesced`).
-/

import Mathlib.Data.List.Pairwise
import XenonRecomp.Library.LabelledRuns

namespace Library

/-- A set of numbers as its maximal runs `(first, count)`, in ascending order:
no run is empty, and a gap of at least one number lies between two runs. -/
structure RangeMap where
  ranges : List (ℕ × ℕ)
  separated : ranges.Pairwise fun r t => r.1 + r.2 < t.1
  positive : ∀ r ∈ ranges, 0 < r.2

namespace RangeMap

/-- A number is in the set when some run holds it. -/
instance : Membership ℕ RangeMap :=
  ⟨fun m x => ∃ r ∈ m.ranges, r.1 ≤ x ∧ x < r.1 + r.2⟩

/-- The empty set. -/
def empty : RangeMap :=
  ⟨[], List.Pairwise.nil, fun _ h => absurd h List.not_mem_nil⟩

/-- The set of the `count` numbers from `first` on. -/
def single (first count : ℕ) : RangeMap :=
  if h : 0 < count then
    ⟨[(first, count)], List.pairwise_singleton _ _, fun r hr => by
      rw [List.mem_singleton.mp hr]
      exact h⟩
  else empty

theorem mem_def {m : RangeMap} {x : ℕ} :
    x ∈ m ↔ ∃ r ∈ m.ranges, r.1 ≤ x ∧ x < r.1 + r.2 :=
  Iff.rfl

@[simp] theorem not_mem_empty (x : ℕ) : x ∉ empty := by
  rintro ⟨r, hr, -⟩
  exact absurd hr List.not_mem_nil

@[simp] theorem mem_single {first count x : ℕ} :
    x ∈ single first count ↔ first ≤ x ∧ x < first + count := by
  unfold single
  split
  · simp [mem_def]
  · simp only [not_mem_empty, false_iff]
    omega

/-- **The list of a set is unique.** -/
theorem eq_of_mem_iff {m m' : RangeMap} (h : ∀ x, x ∈ m ↔ x ∈ m') : m = m' := by
  let toRun (r : ℕ × ℕ) : Run Unit := ⟨r.1, r.2, ()⟩
  have hinj : Function.Injective toRun := fun r t heq =>
    Prod.ext (congrArg Run.start heq) (congrArg Run.size heq)
  have hcanonical : ∀ m : RangeMap, Runs.Canonical (m.ranges.map toRun) := by
    refine fun m => ⟨⟨List.pairwise_map.2 (m.separated.imp fun h => h.le), ?_⟩,
      List.pairwise_map.2 (m.separated.imp fun h heq => absurd heq h.ne)⟩
    exact List.forall_mem_map.2 m.positive
  have hin : ∀ (m : RangeMap) (x : ℕ), Runs.In (m.ranges.map toRun) x ↔ x ∈ m := by
    intro m x
    rw [Runs.In, mem_def]
    simp [toRun, Run.Holds, Run.stop]
  have hranges := List.map_injective_iff.2 hinj
    (Runs.canonical_ext (hcanonical m) (hcanonical m') fun x _ => by
      rw [Runs.at_unit, Runs.at_unit, hin, hin, h])
  cases m
  cases m'
  subst hranges
  rfl

/-! ### The run at or before a number -/

/-- The last run that starts at or before `x`, in ascending order. -/
def predecessor (x : ℕ) : List (ℕ × ℕ) → Option (ℕ × ℕ)
  | [] => none
  | r :: rs => if r.1 ≤ x then (predecessor x rs).or (some r) else none

/-- Whether the `count` numbers from `first` on lie in one run. -/
def contains (m : RangeMap) (first count : ℕ) : Bool :=
  decide (0 < count) &&
    (predecessor first m.ranges).any fun r => decide (first + count ≤ r.1 + r.2)

theorem predecessor_mem {x : ℕ} {r : ℕ × ℕ} :
    ∀ {rs : List (ℕ × ℕ)}, predecessor x rs = some r → r ∈ rs ∧ r.1 ≤ x
  | [], h => by simp [predecessor] at h
  | t :: rs, h => by
      rw [predecessor] at h
      split at h
      · next ht =>
        cases hp : predecessor x rs with
        | none =>
          rw [hp, Option.none_or, Option.some_inj] at h
          subst h
          exact ⟨List.mem_cons_self .., ht⟩
        | some u =>
          rw [hp, Option.some_or, Option.some_inj] at h
          subst h
          obtain ⟨h₁, h₂⟩ := predecessor_mem hp
          exact ⟨List.mem_cons_of_mem _ h₁, h₂⟩
      · exact absurd h (by simp)

theorem predecessor_eq_none {x : ℕ} :
    ∀ {rs : List (ℕ × ℕ)}, (∀ r ∈ rs, x < r.1) → predecessor x rs = none
  | [], _ => rfl
  | r :: rs, h => by
      rw [predecessor, if_neg]
      have := h r (List.mem_cons_self ..)
      omega

/-- A number inside a run finds that run. -/
theorem predecessor_eq {x : ℕ} {r : ℕ × ℕ} :
    ∀ {rs : List (ℕ × ℕ)}, rs.Pairwise (fun r t => r.1 + r.2 < t.1) → r ∈ rs → r.1 ≤ x →
      x < r.1 + r.2 → predecessor x rs = some r
  | [], _, hr, _, _ => absurd hr List.not_mem_nil
  | t :: rs, hs, hr, h₁, h₂ => by
      obtain ⟨ht, hs⟩ := List.pairwise_cons.mp hs
      rw [predecessor]
      rcases List.mem_cons.mp hr with rfl | hr
      · rw [if_pos h₁, predecessor_eq_none fun u hu => by have := ht u hu; omega]
        rfl
      · have := ht r hr
        rw [if_pos (by omega), predecessor_eq hs hr h₁ h₂]
        rfl

theorem contains_iff {m : RangeMap} {first count : ℕ} :
    m.contains first count = true ↔
      0 < count ∧ ∃ r ∈ m.ranges, r.1 ≤ first ∧ first + count ≤ r.1 + r.2 := by
  rw [contains, Bool.and_eq_true, decide_eq_true_iff]
  refine and_congr_right fun hc => ⟨fun h => ?_, fun ⟨r, hr, h₁, h₂⟩ => ?_⟩
  · obtain ⟨r, hr, h⟩ := (Option.any_eq_true ..).mp h
    obtain ⟨hm, h₁⟩ := predecessor_mem hr
    exact ⟨r, hm, h₁, of_decide_eq_true h⟩
  · rw [predecessor_eq m.separated hr h₁ (by omega)]
    simpa using h₂

/-- Numbers that follow each other in the set lie in one run. -/
theorem exists_range_of_forall_mem {m : RangeMap} {first : ℕ} :
    ∀ {count : ℕ}, 0 < count → (∀ x, first ≤ x → x < first + count → x ∈ m) →
      ∃ r ∈ m.ranges, r.1 ≤ first ∧ first + count ≤ r.1 + r.2
  | 0, h, _ => absurd h (Nat.lt_irrefl 0)
  | 1, _, h => by
      obtain ⟨r, hr, h₁, h₂⟩ := h first (Nat.le_refl _) (by omega)
      exact ⟨r, hr, h₁, by omega⟩
  | n + 2, _, h => by
      obtain ⟨r, hr, h₁, h₂⟩ := exists_range_of_forall_mem (Nat.succ_pos n)
        fun x h₁ h₂ => h x h₁ (by omega)
      obtain ⟨t, ht, h₃, h₄⟩ := h (first + (n + 1)) (by omega) (by omega)
      rcases eq_or_ne r t with rfl | hne
      · exact ⟨r, hr, h₁, by omega⟩
      · exfalso
        rcases List.Pairwise.forall_of_forall_of_flip
            (R := fun r t : ℕ × ℕ => r ≠ t → r.1 + r.2 < t.1 ∨ t.1 + t.2 < r.1)
            (fun x _ h => absurd rfl h) (m.separated.imp fun h _ => Or.inl h)
            (m.separated.imp fun h _ => Or.inr h) hr ht hne with h | h <;> omega

/-- **A run is contained exactly when each of its numbers is in the set.** -/
theorem contains_iff_forall_mem {m : RangeMap} {first count : ℕ} :
    m.contains first count = true ↔
      0 < count ∧ ∀ x, first ≤ x → x < first + count → x ∈ m := by
  rw [contains_iff]
  refine and_congr_right fun hc => ⟨fun ⟨r, hr, h₁, h₂⟩ x h₃ h₄ => ?_, fun h => ?_⟩
  · exact ⟨r, hr, by omega, by omega⟩
  · exact exists_range_of_forall_mem hc h

/-! ### Taking a run out -/

/-- What is left of the run `r` without the `count` numbers from `first` on. -/
def pieces (r : ℕ × ℕ) (first count : ℕ) : List (ℕ × ℕ) :=
  (if r.1 < first then [(r.1, first - r.1)] else []) ++
    if first + count < r.1 + r.2 then [(first + count, r.1 + r.2 - (first + count))] else []

theorem mem_pieces {r t : ℕ × ℕ} {first count : ℕ} :
    t ∈ pieces r first count ↔ (r.1 < first ∧ t = (r.1, first - r.1)) ∨
      (first + count < r.1 + r.2 ∧ t = (first + count, r.1 + r.2 - (first + count))) := by
  unfold pieces
  split_ifs <;> simp [*]

/-- The run of `count` numbers from `first` on lies in the range `r`. -/
def Inside (r : ℕ × ℕ) (first count : ℕ) : Prop :=
  0 < count ∧ r.1 ≤ first ∧ first + count ≤ r.1 + r.2

instance (r : ℕ × ℕ) (first count : ℕ) : Decidable (Inside r first count) :=
  inferInstanceAs (Decidable (_ ∧ _))

theorem pairwise_pieces {r : ℕ × ℕ} {first count : ℕ} (h : Inside r first count) :
    (pieces r first count).Pairwise fun r t => r.1 + r.2 < t.1 := by
  obtain ⟨h₁, h₂, h₃⟩ := h
  unfold pieces
  split_ifs <;> simp
  omega

theorem pieces_bounds {r t : ℕ × ℕ} {first count : ℕ} (h : Inside r first count)
    (ht : t ∈ pieces r first count) : 0 < t.2 ∧ r.1 ≤ t.1 ∧ t.1 + t.2 ≤ r.1 + r.2 := by
  obtain ⟨h₁, h₂, h₃⟩ := h
  rcases mem_pieces.mp ht with ⟨h, rfl⟩ | ⟨h, rfl⟩ <;> dsimp only <;> omega

/-- The list with the run of `count` numbers from `first` on taken out of the
range `r`. -/
def consumeList (r : ℕ × ℕ) (first count : ℕ) (rs : List (ℕ × ℕ)) : List (ℕ × ℕ) :=
  rs.flatMap fun t => if t = r then pieces t first count else [t]

theorem consumed_bounds {r t u : ℕ × ℕ} {first count : ℕ} (h : Inside r first count)
    (hu : u ∈ if t = r then pieces t first count else [t]) (ht : 0 < t.2) :
    0 < u.2 ∧ t.1 ≤ u.1 ∧ u.1 + u.2 ≤ t.1 + t.2 := by
  split at hu
  · next heq =>
    subst heq
    exact pieces_bounds h hu
  · rw [List.mem_singleton.mp hu]
    exact ⟨ht, Nat.le_refl _, Nat.le_refl _⟩

theorem pairwise_consumeList {r : ℕ × ℕ} {first count : ℕ} (h : Inside r first count)
    {rs : List (ℕ × ℕ)} (hs : rs.Pairwise fun r t => r.1 + r.2 < t.1)
    (hp : ∀ r ∈ rs, 0 < r.2) :
    (consumeList r first count rs).Pairwise fun r t => r.1 + r.2 < t.1 := by
  rw [consumeList, List.pairwise_flatMap]
  constructor
  · intro t _
    split
    · next heq =>
      subst heq
      exact pairwise_pieces h
    · exact List.pairwise_singleton _ _
  · refine hs.imp_of_mem fun {t u} ht hu htu a ha b hb => ?_
    obtain ⟨-, -, h₁⟩ := consumed_bounds h ha (hp t ht)
    obtain ⟨-, h₂, -⟩ := consumed_bounds h hb (hp u hu)
    omega

/-- The set without the run of `count` numbers from `first` on, which lies in
the range `r`; a run that does not is left where it is. -/
def consume (m : RangeMap) (r : ℕ × ℕ) (first count : ℕ) : RangeMap :=
  if h : Inside r first count then
    ⟨consumeList r first count m.ranges, pairwise_consumeList h m.separated m.positive,
      fun t ht => by
        obtain ⟨u, hu, ht⟩ := List.mem_flatMap.mp ht
        exact (consumed_bounds h ht (m.positive u hu)).1⟩
  else m

/-- Two runs that share a number are one run. -/
theorem eq_of_mem_of_mem {m : RangeMap} {r t : ℕ × ℕ} {x : ℕ} (hr : r ∈ m.ranges)
    (ht : t ∈ m.ranges) (hxr : r.1 ≤ x ∧ x < r.1 + r.2) (hxt : t.1 ≤ x ∧ x < t.1 + t.2) :
    r = t := by
  have h₁ := predecessor_eq m.separated hr hxr.1 hxr.2
  have h₂ := predecessor_eq m.separated ht hxt.1 hxt.2
  exact Option.some.inj (h₁.symm.trans h₂)

theorem mem_consume {m : RangeMap} {r : ℕ × ℕ} {first count x : ℕ} (hr : r ∈ m.ranges)
    (h : Inside r first count) :
    x ∈ m.consume r first count ↔ x ∈ m ∧ ¬(first ≤ x ∧ x < first + count) := by
  obtain ⟨h₁, h₂, h₃⟩ := id h
  rw [consume, dif_pos h, mem_def, mem_def]
  constructor
  · rintro ⟨u, hmem, hx⟩
    obtain ⟨t, ht, hu⟩ := List.mem_flatMap.mp hmem
    split at hu
    · next heq =>
      subst heq
      rcases mem_pieces.mp hu with ⟨h₄, rfl⟩ | ⟨h₄, rfl⟩ <;> dsimp only at hx <;>
        exact ⟨⟨t, ht, by omega⟩, by omega⟩
    · next hne =>
      rw [List.mem_singleton.mp hu] at hx
      refine ⟨⟨t, ht, hx⟩, fun hin => hne ?_⟩
      exact eq_of_mem_of_mem ht hr hx ⟨by omega, by omega⟩
  · rintro ⟨⟨t, ht, hx⟩, hout⟩
    rcases eq_or_ne t r with rfl | hne
    · rcases Nat.lt_or_ge x first with hlt | hge
      · refine ⟨(t.1, first - t.1), List.mem_flatMap.mpr ⟨t, ht, ?_⟩, by dsimp only; omega⟩
        rw [if_pos rfl, mem_pieces]
        exact .inl ⟨by omega, rfl⟩
      · refine ⟨(first + count, t.1 + t.2 - (first + count)),
          List.mem_flatMap.mpr ⟨t, ht, ?_⟩, by dsimp only; omega⟩
        rw [if_pos rfl, mem_pieces]
        exact .inr ⟨by omega, rfl⟩
    · refine ⟨t, List.mem_flatMap.mpr ⟨t, ht, ?_⟩, hx⟩
      rw [if_neg hne]
      exact List.mem_singleton_self t

/-- Take `count` numbers out of the first range, or with `topDown` the last one,
in which `place` finds room, and give their first number. -/
def allocate (m : RangeMap) (place : ℕ × ℕ → Option ℕ) (count : ℕ) (topDown : Bool) :
    Option (ℕ × RangeMap) :=
  let order := if topDown then m.ranges.reverse else m.ranges
  (order.findSome? fun r => (place r).map (r, ·)).map fun (r, first) =>
    (first, m.consume r first count)

/-- **What an allocation does.**  When `place` only answers with runs inside the
range it is asked about, the run it gives was in the set, and the set that is
left lacks that run and nothing else. -/
theorem mem_allocate {m m' : RangeMap} {place : ℕ × ℕ → Option ℕ} {count first : ℕ}
    {topDown : Bool} (hplace : ∀ r c, place r = some c → Inside r c count)
    (h : m.allocate place count topDown = some (first, m')) :
    (∀ x, first ≤ x → x < first + count → x ∈ m) ∧
      ∀ x, x ∈ m' ↔ x ∈ m ∧ ¬(first ≤ x ∧ x < first + count) := by
  rw [allocate, Option.map_eq_some_iff] at h
  obtain ⟨⟨r, c⟩, hfind, heq⟩ := h
  obtain ⟨rfl, rfl⟩ := Prod.mk.inj heq
  obtain ⟨t, ht, hmap⟩ := List.exists_of_findSome?_eq_some hfind
  obtain ⟨c', hc, heq⟩ := Option.map_eq_some_iff.mp hmap
  obtain ⟨rfl, rfl⟩ := Prod.mk.inj heq
  have hmem : t ∈ m.ranges := by
    cases topDown with
    | true => exact List.mem_reverse.mp ht
    | false => exact ht
  have hin := hplace t c' hc
  refine ⟨fun x h₁ h₂ => ⟨t, hmem, ?_⟩, fun x => mem_consume hmem hin⟩
  obtain ⟨h₃, h₄, h₅⟩ := hin
  omega

/-- An allocation fails exactly when no range has room. -/
theorem allocate_eq_none {m : RangeMap} {place : ℕ × ℕ → Option ℕ} {count : ℕ}
    {topDown : Bool} :
    m.allocate place count topDown = none ↔ ∀ r ∈ m.ranges, place r = none := by
  rw [allocate, Option.map_eq_none_iff, List.findSome?_eq_none_iff]
  cases topDown <;> simp

/-- An allocation takes the first range, in the order of the search, that has
room. -/
theorem allocate_eq_some {m m' : RangeMap} {place : ℕ × ℕ → Option ℕ} {count first : ℕ}
    {topDown : Bool} (h : m.allocate place count topDown = some (first, m')) :
    ∃ before r after, (if topDown then m.ranges.reverse else m.ranges) = before ++ r :: after ∧
      place r = some first ∧ ∀ t ∈ before, place t = none := by
  rw [allocate, Option.map_eq_some_iff] at h
  obtain ⟨⟨r, c⟩, hfind, heq⟩ := h
  obtain ⟨rfl, -⟩ := Prod.mk.inj heq
  obtain ⟨before, t, after, horder, hmap, hbefore⟩ := List.findSome?_eq_some_iff.mp hfind
  obtain ⟨c', hc, heq⟩ := Option.map_eq_some_iff.mp hmap
  obtain ⟨rfl, rfl⟩ := Prod.mk.inj heq
  exact ⟨before, t, after, horder, hc, fun u hu => Option.map_eq_none_iff.mp (hbefore u hu)⟩

/-- Take the run of `count` numbers from `first` on out of the set, if it is
there. -/
def claim (m : RangeMap) (first count : ℕ) : Option RangeMap :=
  if m.contains first count then
    (predecessor first m.ranges).map fun r => m.consume r first count
  else none

/-- **A run that is in the set can be claimed**, and then the set lacks that run
and nothing else. -/
theorem mem_claim {m : RangeMap} {first count : ℕ} (hc : 0 < count)
    (h : ∀ x, first ≤ x → x < first + count → x ∈ m) :
    ∃ m', m.claim first count = some m' ∧
      ∀ x, x ∈ m' ↔ x ∈ m ∧ ¬(first ≤ x ∧ x < first + count) := by
  obtain ⟨r, hr, h₁, h₂⟩ := exists_range_of_forall_mem hc h
  refine ⟨m.consume r first count, ?_, fun x => mem_consume hr ⟨hc, h₁, h₂⟩⟩
  rw [claim, if_pos (contains_iff.mpr ⟨hc, r, hr, h₁, h₂⟩),
    predecessor_eq m.separated hr h₁ (by omega)]
  rfl

/-! ### Putting a run back -/

/-- Put `r` in front of the ranges after it, joined with the next one when they
touch; `none` when they overlap. -/
def joinNext (r : ℕ × ℕ) : List (ℕ × ℕ) → Option (List (ℕ × ℕ))
  | [] => some [r]
  | t :: rs =>
    if t.1 < r.1 + r.2 then none
    else if r.1 + r.2 = t.1 then some ((r.1, r.2 + t.2) :: rs)
    else some (r :: t :: rs)

/-- Put the run of `count` numbers from `first` on in its place among the
ranges, joined with the neighbours it touches; `none` when it overlaps one. -/
def insertList (first count : ℕ) : List (ℕ × ℕ) → Option (List (ℕ × ℕ))
  | [] => some [(first, count)]
  | r :: rs =>
    if first ≤ r.1 then joinNext (first, count) (r :: rs)
    else if first < r.1 + r.2 then none
    else if r.1 + r.2 = first then joinNext (r.1, r.2 + count) rs
    else (insertList first count rs).map (r :: ·)

theorem joinNext_bounds {r : ℕ × ℕ} {rs rs' : List (ℕ × ℕ)} {b : ℕ}
    (h : joinNext r rs = some rs') (hr : b < r.1) (hs : ∀ t ∈ rs, b < t.1) :
    ∀ t ∈ rs', b < t.1 := by
  cases rs with
  | nil =>
    obtain rfl := Option.some.inj h
    simpa using hr
  | cons u rs =>
    rw [joinNext] at h
    split_ifs at h with h₁ h₂
    · obtain rfl := Option.some.inj h
      intro t ht
      rcases List.mem_cons.mp ht with rfl | ht
      · exact hr
      · exact hs t (List.mem_cons_of_mem _ ht)
    · obtain rfl := Option.some.inj h
      intro t ht
      rcases List.mem_cons.mp ht with rfl | ht
      · exact hr
      · exact hs t ht

theorem joinNext_wellFormed {r : ℕ × ℕ} {rs rs' : List (ℕ × ℕ)}
    (h : joinNext r rs = some rs') (hr : 0 < r.2)
    (hs : rs.Pairwise fun r t => r.1 + r.2 < t.1) (hp : ∀ t ∈ rs, 0 < t.2) :
    rs'.Pairwise (fun r t => r.1 + r.2 < t.1) ∧ ∀ t ∈ rs', 0 < t.2 := by
  cases rs with
  | nil =>
    obtain rfl := Option.some.inj h
    exact ⟨List.pairwise_singleton _ _, by simpa using hr⟩
  | cons u rs =>
    have hu := hp u (List.mem_cons_self ..)
    rw [joinNext] at h
    split_ifs at h with h₁ h₂
    · obtain rfl := Option.some.inj h
      obtain ⟨hlt, hs⟩ := List.pairwise_cons.mp hs
      refine ⟨List.pairwise_cons.mpr ⟨fun t ht => ?_, hs⟩, fun t ht => ?_⟩
      · have := hlt t ht
        dsimp only
        omega
      · rcases List.mem_cons.mp ht with rfl | ht
        · dsimp only
          omega
        · exact hp t (List.mem_cons_of_mem _ ht)
    · obtain rfl := Option.some.inj h
      refine ⟨List.pairwise_cons.mpr ⟨fun t ht => ?_, hs⟩, fun t ht => ?_⟩
      · rcases List.mem_cons.mp ht with rfl | ht
        · omega
        · have := (List.pairwise_cons.mp hs).1 t ht
          omega
      · rcases List.mem_cons.mp ht with rfl | ht
        · exact hr
        · exact hp t ht

theorem insertList_bounds {first count b : ℕ} :
    ∀ {rs rs' : List (ℕ × ℕ)}, insertList first count rs = some rs' → b < first →
      (∀ t ∈ rs, b < t.1) → ∀ t ∈ rs', b < t.1
  | [], rs', h, hb, _ => by
      obtain rfl := Option.some.inj h
      simpa using hb
  | r :: rs, rs', h, hb, hs => by
      rw [insertList] at h
      split_ifs at h with h₁ h₂ h₃
      · exact joinNext_bounds h hb hs
      · exact joinNext_bounds h (hs r (List.mem_cons_self ..)) fun t ht =>
          hs t (List.mem_cons_of_mem _ ht)
      · obtain ⟨us, hus, rfl⟩ := Option.map_eq_some_iff.mp h
        intro t ht
        rcases List.mem_cons.mp ht with rfl | ht
        · exact hs _ (List.mem_cons_self ..)
        · exact insertList_bounds hus hb (fun t ht => hs t (List.mem_cons_of_mem _ ht)) t ht

theorem insertList_wellFormed {first count : ℕ} (hc : 0 < count) :
    ∀ {rs rs' : List (ℕ × ℕ)}, insertList first count rs = some rs' →
      rs.Pairwise (fun r t => r.1 + r.2 < t.1) → (∀ t ∈ rs, 0 < t.2) →
        rs'.Pairwise (fun r t => r.1 + r.2 < t.1) ∧ ∀ t ∈ rs', 0 < t.2
  | [], rs', h, _, _ => by
      obtain rfl := Option.some.inj h
      exact ⟨List.pairwise_singleton _ _, by simpa using hc⟩
  | r :: rs, rs', h, hs, hp => by
      rw [insertList] at h
      split_ifs at h with h₁ h₂ h₃
      · exact joinNext_wellFormed h hc hs hp
      · exact joinNext_wellFormed h (by dsimp only; omega) (List.pairwise_cons.mp hs).2
          fun t ht => hp t (List.mem_cons_of_mem _ ht)
      · obtain ⟨us, hus, rfl⟩ := Option.map_eq_some_iff.mp h
        obtain ⟨hlt, hs⟩ := List.pairwise_cons.mp hs
        obtain ⟨hs', hp'⟩ := insertList_wellFormed hc hus hs fun t ht =>
          hp t (List.mem_cons_of_mem _ ht)
        refine ⟨List.pairwise_cons.mpr ⟨fun t ht => ?_, hs'⟩, fun t ht => ?_⟩
        · exact insertList_bounds hus (by omega) (fun t ht => hlt t ht) t ht
        · rcases List.mem_cons.mp ht with rfl | ht
          · exact hp _ (List.mem_cons_self ..)
          · exact hp' t ht

theorem covers_joinNext {r : ℕ × ℕ} {rs rs' : List (ℕ × ℕ)} {x : ℕ}
    (h : joinNext r rs = some rs') :
    (∃ t ∈ rs', t.1 ≤ x ∧ x < t.1 + t.2) ↔
      (r.1 ≤ x ∧ x < r.1 + r.2) ∨ ∃ t ∈ rs, t.1 ≤ x ∧ x < t.1 + t.2 := by
  cases rs with
  | nil =>
    obtain rfl := Option.some.inj h
    simp
  | cons u rs =>
    rw [joinNext] at h
    split_ifs at h with h₁ h₂
    · obtain rfl := Option.some.inj h
      simp only [List.mem_cons, exists_eq_or_imp]
      rw [← or_assoc]
      refine or_congr_left ?_
      omega
    · obtain rfl := Option.some.inj h
      simp only [List.mem_cons, exists_eq_or_imp]

theorem covers_insertList {first count x : ℕ} :
    ∀ {rs rs' : List (ℕ × ℕ)}, insertList first count rs = some rs' →
      ((∃ t ∈ rs', t.1 ≤ x ∧ x < t.1 + t.2) ↔
        (first ≤ x ∧ x < first + count) ∨ ∃ t ∈ rs, t.1 ≤ x ∧ x < t.1 + t.2)
  | [], rs', h => by
      obtain rfl := Option.some.inj h
      simp
  | r :: rs, rs', h => by
      rw [insertList] at h
      split_ifs at h with h₁ h₂ h₃
      · exact covers_joinNext h
      · rw [covers_joinNext h]
        simp only [List.mem_cons, exists_eq_or_imp]
        rw [← or_assoc]
        refine or_congr_left ?_
        omega
      · obtain ⟨us, hus, rfl⟩ := Option.map_eq_some_iff.mp h
        simp only [List.mem_cons, exists_eq_or_imp]
        rw [covers_insertList hus, or_left_comm]

theorem joinNext_isSome {r : ℕ × ℕ} {rs : List (ℕ × ℕ)} (h : ∀ t ∈ rs, r.1 + r.2 ≤ t.1) :
    ∃ rs', joinNext r rs = some rs' := by
  cases rs with
  | nil => exact ⟨_, rfl⟩
  | cons t rs =>
    have := h t (List.mem_cons_self ..)
    rw [joinNext, if_neg (by omega)]
    split_ifs <;> exact ⟨_, rfl⟩

theorem insertList_isSome {first count : ℕ} (hc : 0 < count) :
    ∀ {rs : List (ℕ × ℕ)}, rs.Pairwise (fun r t => r.1 + r.2 < t.1) → (∀ t ∈ rs, 0 < t.2) →
      (∀ x, first ≤ x → x < first + count → ∀ t ∈ rs, ¬(t.1 ≤ x ∧ x < t.1 + t.2)) →
        ∃ rs', insertList first count rs = some rs'
  | [], _, _, _ => ⟨_, rfl⟩
  | r :: rs, hs, hp, hx => by
      have hr := hp r (List.mem_cons_self ..)
      have hfree := hx first (Nat.le_refl _) (by omega) r (List.mem_cons_self ..)
      -- A range that starts at or after `first` starts after the run.
      have hafter : ∀ t ∈ r :: rs, first ≤ t.1 → first + count ≤ t.1 := by
        intro t ht hle
        by_contra hlt
        have := hp t ht
        exact hx t.1 hle (by omega) t ht ⟨Nat.le_refl _, by omega⟩
      obtain ⟨hlt, hs⟩ := List.pairwise_cons.mp hs
      rw [insertList]
      split_ifs with h₁ h₂ h₃
      · refine joinNext_isSome fun t ht => ?_
        rcases List.mem_cons.mp ht with rfl | ht'
        · exact hafter _ ht h₁
        · have := hlt t ht'
          exact hafter t ht (by omega)
      · omega
      · refine joinNext_isSome fun t ht => ?_
        have := hlt t ht
        have := hafter t (List.mem_cons_of_mem _ ht) (by omega)
        dsimp only
        omega
      · obtain ⟨rs', h⟩ := insertList_isSome hc hs (fun t ht => hp t (List.mem_cons_of_mem _ ht))
          fun x h₁ h₂ t ht => hx x h₁ h₂ t (List.mem_cons_of_mem _ ht)
        exact ⟨r :: rs', by rw [h]; rfl⟩

/-- Put the run of `count` numbers from `first` on back into the set; refused
when it is empty, reaches past `limit` or overlaps the set. -/
def insertCoalesced (limit : ℕ) (m : RangeMap) (first count : ℕ) : Option RangeMap :=
  if hc : 0 < count then
    if limit < first + count then none
    else
      match h : insertList first count m.ranges with
      | none => none
      | some rs => some ⟨rs, (insertList_wellFormed hc h m.separated m.positive).1,
          (insertList_wellFormed hc h m.separated m.positive).2⟩
  else none

/-- **A run outside the set can be put back**, and then the set has that run and
nothing else besides what it had. -/
theorem mem_insertCoalesced (limit : ℕ) (m : RangeMap) (first : ℕ) {count : ℕ} (hc : 0 < count)
    (hl : first + count ≤ limit) (h : ∀ x, first ≤ x → x < first + count → x ∉ m) :
    ∃ m', insertCoalesced limit m first count = some m' ∧
      ∀ x, x ∈ m' ↔ (first ≤ x ∧ x < first + count) ∨ x ∈ m := by
  obtain ⟨rs, hrs⟩ := insertList_isSome hc m.separated m.positive
    fun x h₁ h₂ t ht hx => h x h₁ h₂ ⟨t, ht, hx⟩
  rw [insertCoalesced, dif_pos hc, if_neg (by omega)]
  split
  · next heq =>
    rw [hrs] at heq
    exact absurd heq (by simp)
  · next us heq =>
    exact ⟨_, rfl, fun x => covers_insertList heq⟩

end RangeMap

end Library
