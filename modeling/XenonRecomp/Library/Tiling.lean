/-
# Tilings of an interval

A list of pieces `(start, size)` tiles an interval when every number of the
interval lies in exactly one of them.  The order of the list does not matter.
Allocators cut pieces and join them: `Tiles.split` and `Tiles.merge` say that
both keep a tiling, and `Tiles.apart` and `Tiles.eq_nil` are what one reads off
it.  At the end stand the facts about finite maps that an allocator needs to
move pieces between its tables.
-/

import Mathlib.Algebra.Order.Ring.Int
import Mathlib.Data.List.AList
import Mathlib.Data.List.Count
import Mathlib.Algebra.BigOperators.Group.List.Basic

namespace Library
namespace Tiling

/-- The piece holds the number. -/
def Holds (piece : ℕ × ℕ) (x : ℕ) : Prop :=
  piece.1 ≤ x ∧ x < piece.1 + piece.2

instance (piece : ℕ × ℕ) (x : ℕ) : Decidable (Holds piece x) :=
  inferInstanceAs (Decidable (_ ∧ _))

/-- Every number from `lo` to `hi` lies in one piece, and the pieces lie there. -/
structure Tiles (pieces : List (ℕ × ℕ)) (lo hi : ℕ) : Prop where
  inside : ∀ piece ∈ pieces, 0 < piece.2 ∧ lo ≤ piece.1 ∧ piece.1 + piece.2 ≤ hi
  once : ∀ x, lo ≤ x → x < hi → pieces.countP (Holds · x) = 1

variable {pieces : List (ℕ × ℕ)} {lo hi : ℕ}

theorem countP_cons (piece : ℕ × ℕ) (x : ℕ) : (piece :: pieces).countP (Holds · x) =
    pieces.countP (Holds · x) + if piece.1 ≤ x ∧ x < piece.1 + piece.2 then 1 else 0 := by
  rw [List.countP_cons]
  by_cases h : Holds piece x
  · have hpair : piece.1 ≤ x ∧ x < piece.1 + piece.2 := h
    rw [if_pos (decide_eq_true h), if_pos hpair]
  · have hpair : ¬(piece.1 ≤ x ∧ x < piece.1 + piece.2) := h
    rw [if_neg fun hcontra => h (of_decide_eq_true hcontra), if_neg hpair]

theorem Tiles.perm {pieces' : List (ℕ × ℕ)} (h : Tiles pieces lo hi)
    (hperm : pieces.Perm pieces') : Tiles pieces' lo hi :=
  ⟨fun piece hp => h.inside piece (hperm.mem_iff.mpr hp),
    fun x hlo hhi => (hperm.countP_eq _).symm.trans (h.once x hlo hhi)⟩

/-- A single piece tiles its own interval. -/
theorem Tiles.single {start size : ℕ} (hsize : 0 < size) :
    Tiles [(start, size)] start (start + size) := by
  refine ⟨fun piece hp => ?_, fun x hlo hhi => ?_⟩
  · obtain rfl := List.mem_singleton.mp hp
    exact ⟨hsize, le_rfl, le_rfl⟩
  · rw [List.countP_singleton, if_pos]
    exact decide_eq_true ⟨hlo, hhi⟩

/-- A piece may be cut. -/
theorem Tiles.split {start size cut : ℕ} (h : Tiles ((start, size) :: pieces) lo hi)
    (hpos : 0 < cut) (hlt : cut < size) :
    Tiles ((start, cut) :: (start + cut, size - cut) :: pieces) lo hi := by
  obtain ⟨-, hlo, hhi⟩ := h.inside _ List.mem_cons_self
  dsimp only at hlo hhi
  refine ⟨fun piece hp => ?_, fun x hx hx' => ?_⟩
  · rcases List.mem_cons.mp hp with rfl | hp
    · exact ⟨hpos, hlo, by dsimp only; omega⟩
    · rcases List.mem_cons.mp hp with rfl | hp
      · exact ⟨by dsimp only; omega, by dsimp only; omega, by dsimp only; omega⟩
      · exact h.inside piece (List.mem_cons_of_mem _ hp)
  · have honce := h.once x hx hx'
    simp only [countP_cons] at honce ⊢
    split_ifs at honce ⊢ <;> omega

/-- Neighbouring pieces may be joined. -/
theorem Tiles.merge {start size size' : ℕ}
    (h : Tiles ((start, size) :: (start + size, size') :: pieces) lo hi) :
    Tiles ((start, size + size') :: pieces) lo hi := by
  obtain ⟨hpos, hlo, -⟩ := h.inside _ List.mem_cons_self
  obtain ⟨hpos', -, hhi⟩ := h.inside _ (List.mem_cons_of_mem _ List.mem_cons_self)
  dsimp only at hpos hlo hpos' hhi
  refine ⟨fun piece hp => ?_, fun x hx hx' => ?_⟩
  · rcases List.mem_cons.mp hp with rfl | hp
    · exact ⟨by dsimp only; omega, hlo, by dsimp only; omega⟩
    · exact h.inside piece (List.mem_cons_of_mem _ (List.mem_cons_of_mem _ hp))
  · have honce := h.once x hx hx'
    simp only [countP_cons] at honce ⊢
    split_ifs at honce ⊢ <;> omega

/-- Two pieces lie apart. -/
theorem Tiles.apart {piece piece' : ℕ × ℕ} (h : Tiles (piece :: piece' :: pieces) lo hi) :
    piece.1 + piece.2 ≤ piece'.1 ∨ piece'.1 + piece'.2 ≤ piece.1 := by
  obtain ⟨hpos, hlo, hhi⟩ := h.inside _ List.mem_cons_self
  obtain ⟨hpos', hlo', hhi'⟩ := h.inside _ (List.mem_cons_of_mem _ List.mem_cons_self)
  by_contra hcontra
  have honce := h.once (max piece.1 piece'.1) (by omega) (by omega)
  simp only [countP_cons] at honce
  split_ifs at honce <;> omega

/-- Two pieces of a tiling are equal or lie apart. -/
theorem Tiles.apart_of_mem {piece piece' : ℕ × ℕ} (h : Tiles pieces lo hi)
    (hpiece : piece ∈ pieces) (hpiece' : piece' ∈ pieces) (hne : piece ≠ piece') :
    piece.1 + piece.2 ≤ piece'.1 ∨ piece'.1 + piece'.2 ≤ piece.1 := by
  have hmem : piece' ∈ pieces.erase piece := (List.mem_erase_of_ne hne.symm).mpr hpiece'
  exact (h.perm ((List.perm_cons_erase hpiece).trans
    ((List.perm_cons_erase hmem).cons piece))).apart

/-- Beside a piece that is the whole interval there is none. -/
theorem Tiles.eq_nil {size : ℕ} (h : Tiles ((lo, size) :: pieces) lo (lo + size)) :
    pieces = [] := by
  cases pieces with
  | nil => rfl
  | cons piece pieces =>
      obtain ⟨hpos, hlo, hhi⟩ := h.inside piece (List.mem_cons_of_mem _ List.mem_cons_self)
      rcases h.apart with hapart | hapart <;> dsimp only at hapart <;> omega

/-! ### Tables of pieces -/

section Tables

variable {α : Type} {m : AList fun _ : ℕ => α} {key : ℕ} {value : α}

/-- An entry stands before the others. -/
theorem perm_of_lookup (h : m.lookup key = some value) :
    m.entries.Perm (⟨key, value⟩ :: (m.erase key).entries) := by
  have hkey : key ∈ m := by
    rw [← AList.lookup_isSome, h]
    rfl
  obtain ⟨value', front, back, hfront, hentries, herase⟩ := List.exists_of_kerase hkey
  have hvalue : value' = value := by
    have hmem : (⟨key, value'⟩ : Sigma fun _ : ℕ => α) ∈ m.entries := by
      rw [hentries]
      exact List.mem_append_right _ List.mem_cons_self
    have hlookup := (AList.mem_lookup_iff (s := m)).mpr hmem
    exact Option.some.inj ((Option.mem_def.mp hlookup).symm.trans h)
  subst hvalue
  change m.entries.Perm (_ :: List.kerase key m.entries)
  rw [herase]
  conv_lhs => rw [hentries]
  exact List.perm_middle

theorem erase_of_lookup_none (h : m.lookup key = none) : (m.erase key).entries = m.entries :=
  List.kerase_of_notMem_keys (AList.lookup_eq_none.mp h)

theorem lookup_insert_eq (k : ℕ) :
    (m.insert key value).lookup k = if k = key then some value else m.lookup k := by
  split_ifs with hk
  · rw [hk, AList.lookup_insert]
  · rw [AList.lookup_insert_ne hk]

theorem lookup_erase_eq (k : ℕ) :
    (m.erase key).lookup k = if k = key then none else m.lookup k := by
  split_ifs with hk
  · rw [hk, AList.lookup_erase]
  · rw [AList.lookup_erase_ne hk]

end Tables

end Tiling
end Library
