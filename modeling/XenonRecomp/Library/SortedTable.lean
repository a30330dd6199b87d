/-
# Tables in ascending order

A table is a list of pairs of a key and a value in the ascending order of its
keys, as an ordered map of a program keeps them.  `emplace` and `erase` are its
updates, `before` and `lowerBound` the places a search stops at.  Updates are
described up to the order of the list, so that counting arguments about the
entries go through, and `Sorted` is kept beside.
-/

import Mathlib.Algebra.Order.Ring.Int
import Mathlib.Data.List.Perm.Basic
import Mathlib.Data.List.Pairwise

namespace Library
namespace SortedTable

variable {α : Type*} {table : List (ℕ × α)} {entry : ℕ × α} {key : ℕ}

/-- The keys ascend. -/
def Sorted (table : List (ℕ × α)) : Prop :=
  table.Pairwise fun e f => e.1 < f.1

/-- Puts an entry in, unless its key is there. -/
def emplace (entry : ℕ × α) : List (ℕ × α) → List (ℕ × α)
  | [] => [entry]
  | first :: rest =>
    if entry.1 < first.1 then entry :: first :: rest
    else if entry.1 = first.1 then first :: rest
    else first :: emplace entry rest

/-- Takes the entry of a key out. -/
def erase (key : ℕ) (table : List (ℕ × α)) : List (ℕ × α) :=
  table.filter fun e => e.1 ≠ key

/-- The last entry with a smaller key. -/
def before (key : ℕ) : List (ℕ × α) → Option (ℕ × α)
  | [] => none
  | first :: rest => if first.1 < key then (before key rest).or (some first) else none

/-- The first entry whose key is not smaller. -/
def lowerBound (key : ℕ) (table : List (ℕ × α)) : Option (ℕ × α) :=
  table.find? fun e => key ≤ e.1

/-! ### Updates -/

theorem perm_emplace (hfresh : ∀ e ∈ table, e.1 ≠ entry.1) :
    (emplace entry table).Perm (entry :: table) := by
  induction table with
  | nil => exact .refl _
  | cons first rest ih =>
    obtain ⟨hne, hrest⟩ := List.forall_mem_cons.mp hfresh
    rw [emplace, if_neg (Ne.symm hne)]
    split_ifs
    · exact .refl _
    · exact ((ih hrest).cons first).trans (.swap ..)

theorem mem_emplace {e : ℕ × α} (h : e ∈ emplace entry table) : e = entry ∨ e ∈ table := by
  induction table with
  | nil => exact .inl (List.mem_singleton.mp h)
  | cons first rest ih =>
    rw [emplace] at h
    split_ifs at h
    · exact List.mem_cons.mp h
    · exact .inr h
    · rcases List.mem_cons.mp h with rfl | h
      · exact .inr List.mem_cons_self
      · exact (ih h).imp_right (List.mem_cons_of_mem _)

theorem Sorted.emplace (h : Sorted table) : Sorted (emplace entry table) := by
  induction table with
  | nil => exact List.pairwise_singleton _ _
  | cons first rest ih =>
    obtain ⟨hfirst, hrest⟩ := List.pairwise_cons.mp h
    rw [SortedTable.emplace]
    split_ifs with hlt heq
    · refine List.pairwise_cons.mpr ⟨fun e he => ?_, h⟩
      rcases List.mem_cons.mp he with rfl | he
      · exact hlt
      · exact hlt.trans (hfirst e he)
    · exact h
    · refine List.pairwise_cons.mpr ⟨fun e he => ?_, ih hrest⟩
      rcases mem_emplace he with rfl | he
      · omega
      · exact hfirst e he

theorem Sorted.erase (h : Sorted table) (key : ℕ) : Sorted (erase key table) :=
  h.filter _

theorem mem_erase {e : ℕ × α} : e ∈ erase key table ↔ e ∈ table ∧ e.1 ≠ key := by
  rw [erase, List.mem_filter, decide_eq_true_iff]

theorem Sorted.eq_of_key (h : Sorted table) {e f : ℕ × α} (he : e ∈ table) (hf : f ∈ table)
    (hkey : e.1 = f.1) : e = f := by
  induction table with
  | nil => exact absurd he List.not_mem_nil
  | cons first rest ih =>
    obtain ⟨hfirst, hrest⟩ := List.pairwise_cons.mp h
    rcases List.mem_cons.mp he with rfl | hmem
    · rcases List.mem_cons.mp hf with rfl | hmem'
      · rfl
      · have hlt := hfirst f hmem'
        omega
    · rcases List.mem_cons.mp hf with rfl | hmem'
      · have hlt := hfirst e hmem
        omega
      · exact ih hrest hmem hmem'

/-- An entry stands before the others. -/
theorem Sorted.perm_erase (h : Sorted table) (hentry : entry ∈ table) :
    table.Perm (entry :: SortedTable.erase entry.1 table) := by
  induction table with
  | nil => exact absurd hentry List.not_mem_nil
  | cons first rest ih =>
    obtain ⟨hfirst, hrest⟩ := List.pairwise_cons.mp h
    by_cases hkey : first.1 = entry.1
    · obtain rfl : first = entry := h.eq_of_key List.mem_cons_self hentry hkey
      have hkeep : SortedTable.erase first.1 (first :: rest) = rest := by
        rw [SortedTable.erase, List.filter_cons_of_neg (by simp), List.filter_eq_self]
        intro e he
        exact decide_eq_true (hfirst e he).ne'
      rw [hkeep]
    · have hmem : entry ∈ rest := (List.mem_cons.mp hentry).resolve_left fun heq => hkey (heq ▸ rfl)
      have hstep : SortedTable.erase entry.1 (first :: rest) =
          first :: SortedTable.erase entry.1 rest :=
        List.filter_cons_of_pos (decide_eq_true hkey)
      rw [hstep]
      exact ((ih hrest hmem).cons first).trans (.swap ..)

/-! ### Searches -/

theorem Sorted.before_some (h : Sorted table) {e : ℕ × α} (hbefore : before key table = some e) :
    e ∈ table ∧ e.1 < key ∧ ∀ f ∈ table, f.1 < key → f.1 ≤ e.1 := by
  induction table with
  | nil => cases hbefore
  | cons first rest ih =>
    obtain ⟨hfirst, hrest⟩ := List.pairwise_cons.mp h
    rw [before] at hbefore
    split_ifs at hbefore with hlt
    cases hnext : before key rest with
    | some next =>
      rw [hnext, Option.some_or, Option.some_inj] at hbefore
      subst hbefore
      obtain ⟨hmem, hkey, hlast⟩ := ih hrest hnext
      refine ⟨List.mem_cons_of_mem _ hmem, hkey, fun f hf hfkey => ?_⟩
      rcases List.mem_cons.mp hf with rfl | hf
      · exact (hfirst next hmem).le
      · exact hlast f hf hfkey
    | none =>
      rw [hnext, Option.none_or, Option.some_inj] at hbefore
      subst hbefore
      refine ⟨List.mem_cons_self, hlt, fun f hf hfkey => ?_⟩
      rcases List.mem_cons.mp hf with rfl | hf
      · exact le_rfl
      · exfalso
        -- The search of the rest stopped at its first entry.
        cases rest with
        | nil => exact List.not_mem_nil hf
        | cons second rest =>
          rw [before] at hnext
          split_ifs at hnext with hsecond
          · cases hor : before key rest <;> rw [hor] at hnext <;> cases hnext
          · rcases List.mem_cons.mp hf with rfl | hf
            · exact hsecond hfkey
            · exact hsecond (((List.pairwise_cons.mp hrest).1 f hf).trans hfkey)

theorem Sorted.before_none (h : Sorted table) (hbefore : before key table = none) :
    ∀ e ∈ table, key ≤ e.1 := by
  cases table with
  | nil => exact fun e he => absurd he List.not_mem_nil
  | cons first rest =>
    rw [before] at hbefore
    split_ifs at hbefore with hlt
    · cases hor : before key rest <;> rw [hor] at hbefore <;> cases hbefore
    · intro e he
      rcases List.mem_cons.mp he with rfl | he
      · exact not_lt.mp hlt
      · exact (not_lt.mp hlt).trans ((List.pairwise_cons.mp h).1 e he).le

theorem lowerBound_mem {e : ℕ × α} (h : lowerBound key table = some e) : e ∈ table :=
  List.mem_of_find?_eq_some h

/-- The entry of a key is found. -/
theorem Sorted.lowerBound_eq (h : Sorted table) (hentry : entry ∈ table) :
    lowerBound entry.1 table = some entry := by
  induction table with
  | nil => exact absurd hentry List.not_mem_nil
  | cons first rest ih =>
    obtain ⟨hfirst, hrest⟩ := List.pairwise_cons.mp h
    rcases List.mem_cons.mp hentry with rfl | hmem
    · exact List.find?_cons_of_pos (decide_eq_true le_rfl)
    · have hlt : ¬entry.1 ≤ first.1 := not_le.mpr (hfirst entry hmem)
      rw [lowerBound, List.find?_cons_of_neg (by simpa using hlt)]
      exact ih hrest hmem

/-! ### Keys alone -/

/-- Puts a key into an ascending list of keys, unless it is there. -/
def insertKey (key : ℕ) : List ℕ → List ℕ
  | [] => [key]
  | first :: rest =>
    if key < first then key :: first :: rest
    else if key = first then first :: rest
    else first :: insertKey key rest

@[simp] theorem mem_insertKey {key x : ℕ} {keys : List ℕ} :
    x ∈ insertKey key keys ↔ x = key ∨ x ∈ keys := by
  induction keys with
  | nil => simp [insertKey]
  | cons first rest ih =>
    rw [insertKey]
    split_ifs with hlt heq
    · exact List.mem_cons
    · subst heq
      simp
    · rw [List.mem_cons, ih, List.mem_cons]
      exact or_left_comm

end SortedTable
end Library
