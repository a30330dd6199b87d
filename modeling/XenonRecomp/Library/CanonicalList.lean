/-
# Sorted lists without repetitions

A list is brought into a canonical form by sorting it by a key and keeping the
first of every run of equal keys.  A sorting algorithm may leave members with
equal keys in any order, so the form is a relation: a `Selection` holds one
member for every key, in ascending order, and every selection is the form some
order of the equal keys leads to.  Whether two lists have the same members can
be read off their selections exactly if no two lists with a common selection
have two members under one key.
-/

import Mathlib.Algebra.Order.Ring.Int
import Mathlib.Data.List.Perm.Subperm
import Mathlib.Data.List.Sort

namespace Library
namespace CanonicalList

variable {α κ : Type*} [LinearOrder κ] (key : α → κ)

/-- Drops the members whose key is that of the member kept last. -/
def uniqueAfter (last : α) : List α → List α
  | [] => []
  | x :: xs => if key last = key x then uniqueAfter last xs else x :: uniqueAfter x xs

/-- Keeps the first member of every run of equal keys. -/
def unique : List α → List α
  | [] => []
  | x :: xs => x :: uniqueAfter key x xs

/-- The list is one a sort of the first may return. -/
def Sorts (xs sorted : List α) : Prop :=
  sorted.Perm xs ∧ sorted.Pairwise fun a b => key a ≤ key b

/-- One member of the list for each of its keys, in ascending order. -/
structure Selection (xs s : List α) : Prop where
  ascending : s.Pairwise fun a b => key a < key b
  subset : ∀ a ∈ s, a ∈ xs
  covers : ∀ a ∈ xs, ∃ b ∈ s, key b = key a

/-- Members with equal keys are equal. -/
def Consistent (xs : List α) : Prop :=
  ∀ a ∈ xs, ∀ b ∈ xs, key a = key b → a = b

/-- The lists have a member in common under every key of either. -/
def Overlap (xs ys : List α) : Prop :=
  ∀ a, a ∈ xs ∨ a ∈ ys → ∃ b, b ∈ xs ∧ b ∈ ys ∧ key b = key a

variable {key} {xs ys s t : List α} {a : α}

/-! ### The runs of a sorted list -/

theorem uniqueAfter_sublist (last : α) (xs : List α) : (uniqueAfter key last xs).Sublist xs := by
  induction xs generalizing last with
  | nil => exact .slnil
  | cons x xs ih =>
    rw [uniqueAfter]
    split
    · exact (ih last).cons x
    · exact (ih x).cons_cons x

theorem uniqueAfter_ascending {last : α} (hlast : ∀ a ∈ xs, key last ≤ key a)
    (h : xs.Pairwise fun a b => key a ≤ key b) :
    (last :: uniqueAfter key last xs).Pairwise fun a b => key a < key b := by
  induction xs generalizing last with
  | nil => exact List.pairwise_singleton _ _
  | cons x xs ih =>
    obtain ⟨hx, hxs⟩ := List.pairwise_cons.mp h
    rw [uniqueAfter]
    split
    · exact ih (fun a ha => hlast a (List.mem_cons_of_mem _ ha)) hxs
    · next hne =>
      have hlt : key last < key x := lt_of_le_of_ne (hlast x List.mem_cons_self) hne
      have hrest := ih hx hxs
      refine List.pairwise_cons.mpr ⟨fun a ha => ?_, hrest⟩
      rcases List.mem_cons.mp ha with rfl | ha
      · exact hlt
      · exact hlt.trans ((List.pairwise_cons.mp hrest).1 a ha)

theorem uniqueAfter_covers {last : α} (ha : a ∈ xs) :
    ∃ b ∈ last :: uniqueAfter key last xs, key b = key a := by
  induction xs generalizing last with
  | nil => exact absurd ha List.not_mem_nil
  | cons x xs ih =>
    rw [uniqueAfter]
    rcases List.mem_cons.mp ha with rfl | ha
    · split
      · next heq => exact ⟨last, List.mem_cons_self, heq⟩
      · exact ⟨a, List.mem_cons_of_mem _ List.mem_cons_self, rfl⟩
    · split
      · exact ih ha
      · obtain ⟨b, hb, hkey⟩ : ∃ b ∈ x :: uniqueAfter key x xs, key b = key a := ih ha
        exact ⟨b, List.mem_cons_of_mem _ hb, hkey⟩

/-- What is left of a sorted list is a selection. -/
theorem Sorts.selection {sorted : List α} (h : Sorts key xs sorted) :
    Selection key xs (unique key sorted) := by
  obtain ⟨hperm, hsorted⟩ := h
  cases sorted with
  | nil => exact ⟨List.Pairwise.nil, fun a ha => absurd ha List.not_mem_nil,
      fun a ha => absurd (hperm.mem_iff.mpr ha) List.not_mem_nil⟩
  | cons x sorted =>
    obtain ⟨hx, hrest⟩ := List.pairwise_cons.mp hsorted
    refine ⟨uniqueAfter_ascending hx hrest, fun a ha => hperm.subset ?_, fun a ha => ?_⟩
    · exact ((uniqueAfter_sublist x sorted).cons_cons x).subset ha
    · rcases List.mem_cons.mp (hperm.mem_iff.mpr ha) with rfl | ha
      · exact ⟨a, List.mem_cons_self, rfl⟩
      · exact uniqueAfter_covers ha

/-! ### Every selection is reached -/

/-- Puts a member behind those with the same key. -/
def insertBehind (key : α → κ) (a : α) (xs : List α) : List α :=
  xs.orderedInsert (fun x y => key x < key y) a

theorem uniqueAfter_insertBehind {last : α} (hlast : ∀ b ∈ xs, key last ≤ key b)
    (h : xs.Pairwise fun a b => key a ≤ key b) (ha : ∃ b ∈ last :: xs, key b = key a) :
    uniqueAfter key last (insertBehind key a xs) = uniqueAfter key last xs := by
  induction xs generalizing last with
  | nil =>
    obtain ⟨b, hb, hkey⟩ := ha
    obtain rfl : b = last := List.mem_singleton.mp hb
    simp only [insertBehind, List.orderedInsert_nil, uniqueAfter, if_pos hkey]
  | cons x xs ih =>
    obtain ⟨hx, hxs⟩ := List.pairwise_cons.mp h
    rw [insertBehind, List.orderedInsert_cons]
    by_cases hlt : key a < key x
    · -- No later key is as small, so the equal key is that of the last member.
      have hkey : key last = key a := by
        obtain ⟨b, hb, hkey⟩ := ha
        rcases List.mem_cons.mp hb with rfl | hb
        · exact hkey
        · rcases List.mem_cons.mp hb with rfl | hb
          · exact absurd hkey hlt.ne'
          · exact absurd hkey (hlt.trans_le (hx b hb)).ne'
      rw [if_pos hlt, uniqueAfter, if_pos hkey]
    · rw [if_neg hlt]
      by_cases hsame : key last = key x
      · have hin : ∃ b ∈ last :: xs, key b = key a := by
          obtain ⟨b, hb, hkey⟩ := ha
          rcases List.mem_cons.mp hb with rfl | hb
          · exact ⟨b, List.mem_cons_self, hkey⟩
          · rcases List.mem_cons.mp hb with rfl | hb
            · exact ⟨last, List.mem_cons_self, hsame.trans hkey⟩
            · exact ⟨b, List.mem_cons_of_mem _ hb, hkey⟩
        rw [uniqueAfter, if_pos hsame, uniqueAfter, if_pos hsame]
        exact ih (fun b hb => hlast b (List.mem_cons_of_mem _ hb)) hxs hin
      · have hin : ∃ b ∈ x :: xs, key b = key a := by
          obtain ⟨b, hb, hkey⟩ := ha
          rcases List.mem_cons.mp hb with rfl | hb
          · have hle := hlast x List.mem_cons_self
            exact absurd (le_antisymm hle (hkey ▸ not_lt.mp hlt)) hsame
          · exact ⟨b, hb, hkey⟩
        rw [uniqueAfter, if_neg hsame, uniqueAfter, if_neg hsame]
        exact congrArg _ (ih hx hxs hin)

theorem insertBehind_sorted (h : xs.Pairwise fun a b => key a ≤ key b) :
    (insertBehind key a xs).Pairwise fun a b => key a ≤ key b := by
  induction xs with
  | nil => exact List.pairwise_singleton _ _
  | cons x xs ih =>
    obtain ⟨hx, hxs⟩ := List.pairwise_cons.mp h
    rw [insertBehind, List.orderedInsert_cons]
    split
    · next hlt =>
      refine List.pairwise_cons.mpr ⟨fun b hb => ?_, h⟩
      rcases List.mem_cons.mp hb with rfl | hb
      · exact hlt.le
      · exact hlt.le.trans (hx b hb)
    · next hge =>
      refine List.pairwise_cons.mpr ⟨fun b hb => ?_, ih hxs⟩
      rcases (List.mem_orderedInsert _).mp hb with rfl | hb
      · exact not_lt.mp hge
      · exact hx b hb

theorem unique_insertBehind (h : xs.Pairwise fun a b => key a ≤ key b)
    (ha : ∃ b ∈ xs, key b = key a) : unique key (insertBehind key a xs) = unique key xs := by
  cases xs with
  | nil =>
    obtain ⟨b, hb, -⟩ := ha
    exact absurd hb List.not_mem_nil
  | cons x xs =>
    obtain ⟨hx, hxs⟩ := List.pairwise_cons.mp h
    have hge : ¬ key a < key x := by
      obtain ⟨b, hb, hkey⟩ := ha
      rcases List.mem_cons.mp hb with rfl | hb
      · exact hkey.symm.not_lt
      · exact not_lt.mpr (hkey ▸ hx b hb)
    rw [insertBehind, List.orderedInsert_cons, if_neg hge, unique, unique]
    exact congrArg _ (uniqueAfter_insertBehind hx hxs ha)

theorem unique_eq_self (h : xs.Pairwise fun a b => key a < key b) : unique key xs = xs := by
  have hafter : ∀ (xs : List α) (last : α), (∀ a ∈ xs, key last < key a) →
      xs.Pairwise (fun a b => key a < key b) → uniqueAfter key last xs = xs := by
    intro xs
    induction xs with
    | nil => exact fun _ _ _ => rfl
    | cons x xs ih =>
      intro last hlast h
      obtain ⟨hx, hxs⟩ := List.pairwise_cons.mp h
      rw [uniqueAfter, if_neg (hlast x List.mem_cons_self).ne, ih x hx hxs]
  cases xs with
  | nil => rfl
  | cons x xs =>
    obtain ⟨hx, hxs⟩ := List.pairwise_cons.mp h
    rw [unique, hafter xs x hx hxs]

/-- **Some order of the equal keys leads to any given selection.** -/
theorem Selection.reached (h : Selection key xs s) :
    ∃ sorted, Sorts key xs sorted ∧ unique key sorted = s := by
  have hnodup : s.Nodup := h.ascending.imp fun hlt heq => absurd (congrArg key heq) hlt.ne
  obtain ⟨l, hl, hsub⟩ := List.subperm_of_subset hnodup h.subset
  obtain ⟨rest, hrest⟩ := hsub.exists_perm_append
  replace hrest : xs.Perm (s ++ rest) := hrest.trans (hl.append_right rest)
  -- The members the selection leaves out go behind the one selected for their key.
  have hbuild : ∀ rest : List α, (∀ a ∈ rest, ∃ b ∈ s, key b = key a) →
      Sorts key (s ++ rest) (rest.foldr (insertBehind key) s) ∧
        unique key (rest.foldr (insertBehind key) s) = s := by
    intro rest
    induction rest with
    | nil =>
      intro _
      exact ⟨⟨by rw [List.append_nil]; exact .refl _, h.ascending.imp le_of_lt⟩,
        unique_eq_self h.ascending⟩
    | cons a rest ih =>
      intro hcover
      obtain ⟨⟨hperm, hsorted⟩, hunique⟩ :=
        ih fun b hb => hcover b (List.mem_cons_of_mem _ hb)
      refine ⟨⟨?_, insertBehind_sorted hsorted⟩, ?_⟩
      · exact (List.perm_orderedInsert _ a _).trans ((hperm.cons a).trans List.perm_middle.symm)
      · obtain ⟨b, hb, hkey⟩ := hcover a List.mem_cons_self
        rw [List.foldr_cons, unique_insertBehind hsorted, hunique]
        exact ⟨b, hperm.mem_iff.mpr (List.mem_append_left _ hb), hkey⟩
  obtain ⟨⟨hperm, hsorted⟩, hunique⟩ := hbuild rest fun a ha =>
    h.covers a (hrest.mem_iff.mpr (List.mem_append_right _ ha))
  exact ⟨_, ⟨hperm.trans hrest.symm, hsorted⟩, hunique⟩

theorem sorts_mergeSort (xs : List α) :
    Sorts key xs (xs.mergeSort fun a b => decide (key a ≤ key b)) := by
  refine ⟨List.mergeSort_perm xs _, ?_⟩
  refine (List.pairwise_mergeSort (fun a b c hab hbc => ?_) (fun a b => ?_) xs).imp of_decide_eq_true
  · exact decide_eq_true ((of_decide_eq_true hab).trans (of_decide_eq_true hbc))
  · rcases le_total (key a) (key b) with h | h
    · rw [decide_eq_true h, Bool.true_or]
    · rw [decide_eq_true h, Bool.or_true]

theorem exists_selection (xs : List α) : ∃ s, Selection key xs s :=
  ⟨_, (sorts_mergeSort xs).selection⟩

/-! ### Lists seen through a function -/

section Map

variable {β : Type*} (f : β → α)

theorem unique_map (xs : List β) :
    unique key (xs.map f) = (unique (fun b => key (f b)) xs).map f := by
  have hafter : ∀ (xs : List β) (last : β),
      uniqueAfter key (f last) (xs.map f) = (uniqueAfter (fun b => key (f b)) last xs).map f := by
    intro xs
    induction xs with
    | nil => exact fun _ => rfl
    | cons x xs ih =>
      intro last
      rw [List.map_cons, uniqueAfter, uniqueAfter]
      split
      · exact ih last
      · rw [ih x, List.map_cons]
  cases xs with
  | nil => rfl
  | cons x xs => rw [List.map_cons, unique, hafter, unique, List.map_cons]

theorem Sorts.map {xs sorted : List β} (h : Sorts (fun b => key (f b)) xs sorted) :
    Sorts key (xs.map f) (sorted.map f) :=
  ⟨h.1.map f, List.pairwise_map.mpr h.2⟩

/-- A permutation of images comes from one of the members. -/
theorem exists_perm_of_map {xs : List β} {ys : List α} (h : ys.Perm (xs.map f)) :
    ∃ zs : List β, zs.Perm xs ∧ zs.map f = ys := by
  induction xs generalizing ys with
  | nil => exact ⟨[], .refl _, (List.perm_nil.mp h).symm⟩
  | cons x xs ih =>
    obtain ⟨front, back, rfl⟩ :=
      List.append_of_mem (h.symm.subset (List.mem_cons_self (a := f x)))
    obtain ⟨zs, hzs, hmap⟩ := ih (List.perm_middle.symm.trans h).cons_inv
    obtain ⟨zf, zb, rfl, rfl, rfl⟩ := List.map_eq_append_iff.mp hmap
    exact ⟨zf ++ x :: zb, List.perm_middle.trans (hzs.cons x), by rw [List.map_append, List.map_cons]⟩

theorem Sorts.of_map {xs : List β} {sorted : List α} (h : Sorts key (xs.map f) sorted) :
    ∃ lifted, Sorts (fun b => key (f b)) xs lifted ∧ lifted.map f = sorted := by
  obtain ⟨lifted, hperm, rfl⟩ := exists_perm_of_map f h.1
  have hsorted := List.pairwise_map.mp h.2
  exact ⟨lifted, ⟨hperm, hsorted⟩, rfl⟩

end Map

/-! ### What selections say about the lists -/

theorem Selection.of_subset (h : Selection key xs s) (hsub : ∀ a ∈ xs, a ∈ ys)
    (hkeys : ∀ a ∈ ys, ∃ b ∈ xs, key b = key a) : Selection key ys s := by
  refine ⟨h.ascending, fun a ha => hsub a (h.subset a ha), fun a ha => ?_⟩
  obtain ⟨b, hb, hkey⟩ := hkeys a ha
  obtain ⟨c, hc, hcb⟩ := h.covers b hb
  exact ⟨c, hc, hcb.trans hkey⟩

/-- A selection may hold any member under its key. -/
theorem exists_selection_mem (ha : a ∈ xs) : ∃ s, Selection key xs s ∧ a ∈ s := by
  classical
  obtain ⟨s, hs⟩ : ∃ s, Selection key (xs.filter fun b => key b = key a → b = a) s :=
    exists_selection _
  have hmem : a ∈ xs.filter fun b => key b = key a → b = a :=
    List.mem_filter.mpr ⟨ha, decide_eq_true fun _ => rfl⟩
  refine ⟨s, hs.of_subset (fun b hb => (List.mem_filter.mp hb).1) fun b hb => ?_, ?_⟩
  · by_cases hkey : key b = key a
    · exact ⟨a, hmem, hkey.symm⟩
    · exact ⟨b, List.mem_filter.mpr ⟨hb, decide_eq_true fun h => absurd h hkey⟩, rfl⟩
  · obtain ⟨b, hb, hkey⟩ := hs.covers a hmem
    have heq := of_decide_eq_true (List.mem_filter.mp (hs.subset b hb)).2
    exact heq hkey ▸ hb

theorem eq_of_ascending {b : α} (h : s.Pairwise fun a b => key a < key b) (ha : a ∈ s)
    (hb : b ∈ s) (hkey : key a = key b) : a = b := by
  induction s with
  | nil => exact absurd ha List.not_mem_nil
  | cons x s ih =>
    obtain ⟨hx, hs⟩ := List.pairwise_cons.mp h
    rcases List.mem_cons.mp ha with ha | ha <;> rcases List.mem_cons.mp hb with hb | hb
    · exact ha.trans hb.symm
    · exact absurd (ha ▸ hkey) (hx b hb).ne
    · exact absurd (hb ▸ hkey) (hx a ha).ne'
    · exact ih hs ha hb

theorem Selection.eq_of_mem_iff (hs : s.Pairwise fun a b => key a < key b)
    (ht : t.Pairwise fun a b => key a < key b) (h : ∀ a, a ∈ s ↔ a ∈ t) : s = t := by
  have hnodup : ∀ u : List α, u.Pairwise (fun a b => key a < key b) → u.Nodup :=
    fun u hu => hu.imp fun hlt heq => absurd (congrArg key heq) hlt.ne
  have hperm : s.Perm t := (List.perm_ext_iff_of_nodup (hnodup s hs) (hnodup t ht)).mpr h
  exact hperm.eq_of_pairwise (fun a b _ _ hab hba => absurd hab hba.asymm) hs ht

theorem Selection.mem_iff (h : Selection key xs s) (hc : Consistent key xs) (a : α) :
    a ∈ s ↔ a ∈ xs := by
  refine ⟨h.subset a, fun ha => ?_⟩
  obtain ⟨b, hb, hkey⟩ := h.covers a ha
  exact hc b (h.subset b hb) a ha hkey ▸ hb

theorem overlap_of_common (hs : Selection key xs s) (ht : Selection key ys s) :
    Overlap key xs ys := by
  intro a ha
  obtain ⟨b, hb, hkey⟩ := ha.elim (hs.covers a) (ht.covers a)
  exact ⟨b, hs.subset b hb, ht.subset b hb, hkey⟩

theorem Overlap.exists_common (h : Overlap key xs ys) :
    ∃ s, Selection key xs s ∧ Selection key ys s := by
  classical
  obtain ⟨s, hs⟩ : ∃ s, Selection key (xs.filter fun a => a ∈ ys) s := exists_selection _
  have hmem : ∀ a, a ∈ xs → a ∈ ys → a ∈ xs.filter fun a => a ∈ ys :=
    fun a hx hy => List.mem_filter.mpr ⟨hx, decide_eq_true hy⟩
  refine ⟨s, hs.of_subset (fun a ha => (List.mem_filter.mp ha).1) fun a ha => ?_,
    hs.of_subset (fun a ha => of_decide_eq_true (List.mem_filter.mp ha).2) fun a ha => ?_⟩
  · obtain ⟨b, hx, hy, hkey⟩ := h a (.inl ha)
    exact ⟨b, hmem b hx hy, hkey⟩
  · obtain ⟨b, hx, hy, hkey⟩ := h a (.inr ha)
    exact ⟨b, hmem b hx hy, hkey⟩

omit [LinearOrder κ] in
theorem Overlap.symm (h : Overlap key xs ys) : Overlap key ys xs := by
  intro a ha
  obtain ⟨b, hx, hy, hkey⟩ := h a ha.symm
  exact ⟨b, hy, hx, hkey⟩

theorem consistent_of_canonical (hover : Overlap key xs ys)
    (h : ∀ s t, Selection key xs s → Selection key ys t → (s = t ↔ ∀ a, a ∈ xs ↔ a ∈ ys)) :
    Consistent key xs := by
  intro a ha b hb hkey
  obtain ⟨t, hsx, hty⟩ := hover.exists_common
  have hsame : ∀ a, a ∈ xs ↔ a ∈ ys := (h t t hsx hty).mp rfl
  have hpick : ∀ c ∈ xs, c ∈ t := by
    intro c hc
    obtain ⟨s, hs, hcs⟩ : ∃ s, Selection key xs s ∧ c ∈ s := exists_selection_mem hc
    exact (h s t hs hty).mpr hsame ▸ hcs
  exact eq_of_ascending hty.ascending (hpick a ha) (hpick b hb) hkey

/-- **Selections tell lists apart exactly if lists with a common selection hold one member
under each key.** -/
theorem canonical_iff :
    (∀ s t, Selection key xs s → Selection key ys t → (s = t ↔ ∀ a, a ∈ xs ↔ a ∈ ys)) ↔
      (Overlap key xs ys → Consistent key xs ∧ Consistent key ys) := by
  refine ⟨fun h hover => ⟨consistent_of_canonical hover h, ?_⟩, fun h s t hs ht => ⟨?_, ?_⟩⟩
  · refine consistent_of_canonical hover.symm fun s t hs ht => ?_
    rw [eq_comm, h t s ht hs]
    exact forall_congr' fun a => iff_comm
  · rintro rfl a
    obtain ⟨hcx, hcy⟩ := h (overlap_of_common hs ht)
    rw [← hs.mem_iff hcx, ← ht.mem_iff hcy]
  · intro hsame
    obtain ⟨hcx, hcy⟩ := h fun a ha =>
      ⟨a, ha.elim id (hsame a).mpr, ha.elim (hsame a).mp id, rfl⟩
    refine Selection.eq_of_mem_iff hs.ascending ht.ascending fun a => ?_
    rw [hs.mem_iff hcx, ht.mem_iff hcy, hsame]

end CanonicalList
end Library
