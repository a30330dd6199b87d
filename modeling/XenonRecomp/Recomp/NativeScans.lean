/-
# What the loops of the native replacements compute

One lemma for every loop: what the readers see of a string, what a fill and a padded
copy leave in memory, which sign a comparison has, and where a search stops.
-/

import XenonRecomp.Recomp.NativeReplacements

namespace XenonRecomp
namespace Recomp
namespace NativeReplacements

open Cpu Machine Library Library.ByteMemory

variable {memory : GuestMemory} {address dst src lhs rhs : GuestAddress}
  {text needle u v : List (BitVec 8)} {c : BitVec 8} {n : ℕ}

/-! ### Reading and filling -/

theorem readGuestCstring_eq (h : memory.IsString address text) (maxLength : ℕ) :
    readGuestCstring memory address maxLength = some (text.take maxLength) := by
  induction maxLength generalizing address text with
  | zero => rw [List.take_zero, readGuestCstring]
  | succ maxLength ih =>
    cases text with
    | nil =>
      obtain ⟨hread, hbyte⟩ := h
      rw [readGuestCstring, read8_eq hread]
      exact if_pos hbyte
    | cons c text =>
      obtain ⟨hread, rfl, hc, h⟩ := h
      rw [readGuestCstring, read8_eq hread]
      refine (if_neg hc).trans ?_
      rw [ih h]
      rfl

theorem fillBytes_eq (h : memory.CanWrite address n) (hn : n ≤ 2 ^ 32) (value : BitVec 8) :
    fillBytes memory address n value = some (memory.put address (List.replicate n value)) := by
  induction n generalizing memory address with
  | zero => rfl
  | succ n ih =>
    obtain ⟨h0, h⟩ := canWrite_succ.mp h
    rw [fillBytes, write8_eq h0]
    exact (ih h.put (by omega)).trans (congrArg some (put_replicate_succ _ _ (by omega)))

/-! ### Comparing -/

/-- Every byte has a partner until the first difference. -/
def Aligned : List (BitVec 8) → List (BitVec 8) → Prop
  | [], [] => True
  | a :: u, b :: v => a ≠ b ∨ Aligned u v
  | _, _ => False

theorem aligned_of_length_eq (h : u.length = v.length) : Aligned u v := by
  induction u generalizing v with
  | nil =>
    rw [List.eq_nil_of_length_eq_zero h.symm]
    exact trivial
  | cons a u ih =>
    cases v with
    | nil => exact absurd h (Nat.succ_ne_zero _)
    | cons b v => exact .inr (ih (Nat.succ.inj h))

theorem aligned_cut (lhs rhs : GuestAddress) (n : ℕ) :
    Aligned (memory.cut lhs n) (memory.cut rhs n) := by
  induction n generalizing lhs rhs with
  | zero => exact trivial
  | succ n ih =>
    rw [cut, cut]
    by_cases heq : memory.byte lhs = memory.byte rhs
    · rw [heq]
      split
      · exact .inr trivial
      · exact .inr (ih _ _)
    · split <;> split
      · next h h' => exact absurd (h.trans h'.symm) heq
      · next h h' => exact .inl fun hzero => h' hzero.symm
      · next h h' => exact .inl h
      · exact .inl heq

theorem compareBytes_nil (v : List (BitVec 8)) : compareBytes [] v = 0 := by
  cases v <;> rfl

theorem compareBytes_cons_nil (c : BitVec 8) (u : List (BitVec 8)) :
    compareBytes (c :: u) [] = 0 := rfl

theorem compareBytes_cons_cons (a b : BitVec 8) (u v : List (BitVec 8)) :
    compareBytes (a :: u) (b :: v) =
      if a ≠ b then (a.toNat : ℤ) - b.toNat else compareBytes u v := rfl

theorem compareBytes_bounds (u v : List (BitVec 8)) :
    -256 < compareBytes u v ∧ compareBytes u v < 256 := by
  induction u generalizing v with
  | nil =>
    rw [compareBytes_nil]
    omega
  | cons a u ih =>
    cases v with
    | nil =>
      rw [compareBytes_cons_nil]
      omega
    | cons b v =>
      have ha := a.isLt
      have hb := b.isLt
      rw [compareBytes_cons_cons]
      split
      · omega
      · exact ih v

theorem textLt_cons {a b : BitVec 8} :
    TextLt (a :: u) (b :: v) ↔ a.toNat < b.toNat ∨ a = b ∧ TextLt u v :=
  List.cons_lex_cons_iff

/-- **The difference of the first bytes that differ has the sign of the comparison.** -/
theorem compareBytes_sign (h : Aligned u v) : HasSign u v (compareBytes u v) := by
  induction u generalizing v with
  | nil =>
    cases v with
    | nil =>
      rw [compareBytes_nil]
      have hirrefl : ¬ TextLt [] [] := List.not_lex_nil
      exact ⟨by simp [hirrefl], by simp, by simp [hirrefl]⟩
    | cons b v => exact h.elim
  | cons a u ih =>
    cases v with
    | nil => exact h.elim
    | cons b v =>
      rw [compareBytes_cons_cons, HasSign, textLt_cons, textLt_cons, List.cons_eq_cons]
      by_cases hab : a = b
      · subst hab
        obtain ⟨hlt, heq, hgt⟩ := ih (h.resolve_left fun hne => hne rfl)
        rw [if_neg (not_not.mpr rfl)]
        simp only [lt_irrefl, false_or, true_and]
        exact ⟨hlt, heq, hgt⟩
      · have hne : a.toNat ≠ b.toNat := fun heq => hab (BitVec.eq_of_toNat_eq heq)
        rw [if_pos hab]
        simp only [hab, Ne.symm hab, false_and, or_false, iff_false]
        omega

/-- A small result in a register is itself as a 32-bit number with a sign. -/
theorem toInt_signedResult {r : ℤ} (hlow : -256 < r) (hhigh : r < 256) :
    ((signedResult r).setWidth 32).toInt = r := by
  rw [signedResult, BitVec.toInt_setWidth, BitVec.toNat_ofInt, Int.toNat_of_nonneg (by omega)]
  rw [Int.bmod_def]
  omega

theorem compareStrings_eq (hlhs : memory.CanRead lhs (memory.cut lhs n).length)
    (hrhs : memory.CanRead rhs (memory.cut rhs n).length) :
    compareStrings memory lhs rhs n =
      some (compareBytes (memory.cut lhs n) (memory.cut rhs n)) := by
  induction n generalizing lhs rhs with
  | zero => rfl
  | succ n ih =>
    obtain ⟨hreadl, hlhs⟩ := canRead_cut_succ hlhs
    obtain ⟨hreadr, hrhs⟩ := canRead_cut_succ hrhs
    rw [compareStrings, read8_eq hreadl, read8_eq hreadr, cut_succ, cut_succ,
      compareBytes_cons_cons]
    by_cases hab : memory.byte lhs = memory.byte rhs
    · have hsame : ¬ memory.byte lhs ≠ memory.byte rhs := not_not.mpr hab
      rw [if_neg hsame]
      refine (if_neg hsame).trans ?_
      by_cases hzero : memory.byte lhs = 0
      · rw [if_pos hzero, if_pos hzero, if_pos (hab.symm.trans hzero)]
        rfl
      · have hzero' : memory.byte rhs ≠ 0 := fun h => hzero (hab.trans h)
        rw [if_neg hzero, if_neg hzero, if_neg hzero']
        exact ih (hlhs hzero) (hrhs hzero')
    · rw [if_pos hab]
      exact if_pos hab

/-! ### Copying a string -/

theorem copyString_ended (h : memory.CanWrite dst n) (hn : n ≤ 2 ^ 32) (src : GuestAddress) :
    copyString memory dst src n true = some (memory.put dst (List.replicate n 0)) := by
  induction n generalizing memory dst src with
  | zero => rfl
  | succ n ih =>
    obtain ⟨h0, h⟩ := canWrite_succ.mp h
    rw [copyString, if_pos rfl]
    change (memory.write8 dst 0).bind _ = _
    rw [write8_eq h0]
    exact (ih h.put (by omega) _).trans (congrArg some (put_replicate_succ _ _ (by omega)))

/-- The string up to its end, and zeros behind it. -/
def padded (memory : GuestMemory) (src : GuestAddress) (n : ℕ) : List (BitVec 8) :=
  memory.cut src n ++ List.replicate (n - (memory.cut src n).length) 0

theorem length_padded (memory : GuestMemory) (src : GuestAddress) (n : ℕ) :
    (padded memory src n).length = n := by
  have hle := length_cut_le (m := memory) src n
  rw [padded, List.length_append, List.length_replicate]
  omega

theorem padded_succ_of_eq (h : memory.byte src = 0) :
    padded memory src (n + 1) = memory.byte src :: List.replicate n 0 := by
  rw [padded, cut_succ, if_pos h]
  rfl

theorem padded_succ_of_ne (h : memory.byte src ≠ 0) :
    padded memory src (n + 1) = memory.byte src :: padded memory (src + 1) n := by
  rw [padded, cut_succ, if_neg h, List.length_cons, Nat.add_sub_add_right]
  rfl

/-- The string that is read and the range that is written have no byte in common. -/
def Apart (memory : GuestMemory) (dst src : GuestAddress) (n : ℕ) : Prop :=
  ∀ i < (memory.cut src n).length, ∀ j < n,
    src + BitVec.ofNat 32 i ≠ dst + BitVec.ofNat 32 j

theorem Apart.cut_put (h : Apart memory dst src (n + 1)) (hne : memory.byte src ≠ 0)
    (value : BitVec 8) :
    (memory.put dst [value]).cut (src + 1) n = memory.cut (src + 1) n := by
  refine ByteMemory.cut_put fun i hi => ?_
  have hi' : i + 1 < (memory.cut src (n + 1)).length := by
    rw [cut_succ, if_neg hne, List.length_cons]
    omega
  have hsep := h (i + 1) hi' 0 (Nat.succ_pos n)
  rwa [add_ofNat_succ, BitVec.add_zero] at hsep

theorem Apart.tail (h : Apart memory dst src (n + 1)) (hne : memory.byte src ≠ 0)
    (value : BitVec 8) : Apart (memory.put dst [value]) (dst + 1) (src + 1) n := by
  intro i hi j hj
  rw [h.cut_put hne] at hi
  rw [← add_ofNat_succ, ← add_ofNat_succ]
  refine h (i + 1) ?_ (j + 1) (by omega)
  rw [cut_succ, if_neg hne, List.length_cons]
  omega

theorem copyString_eq (hread : memory.CanRead src (memory.cut src n).length)
    (hwrite : memory.CanWrite dst n) (hapart : Apart memory dst src n) (hn : n ≤ 2 ^ 32) :
    copyString memory dst src n false = some (memory.put dst (padded memory src n)) := by
  induction n generalizing memory dst src with
  | zero => rfl
  | succ n ih =>
    obtain ⟨hread0, hread⟩ := canRead_cut_succ hread
    obtain ⟨hwrite0, hwrite⟩ := canWrite_succ.mp hwrite
    have hput : ∀ bytes : List (BitVec 8), bytes.length = n →
        (memory.put dst [memory.byte src]).put (dst + 1) bytes =
          memory.put dst (memory.byte src :: bytes) :=
      fun bytes hlen => put_cons dst _ bytes (by omega)
    rw [copyString, if_neg Bool.false_ne_true, read8_eq hread0]
    change (memory.write8 dst (memory.byte src)).bind _ = _
    rw [write8_eq hwrite0]
    change copyString (memory.put dst [memory.byte src]) (dst + 1) (src + 1) n
      (memory.byte src == 0) = _
    by_cases hzero : memory.byte src = 0
    · rw [beq_iff_eq.mpr hzero, copyString_ended hwrite.put (by omega),
        padded_succ_of_eq hzero, hput _ List.length_replicate]
    · have hcut := hapart.cut_put hzero (memory.byte src)
      have hsame : padded (memory.put dst [memory.byte src]) (src + 1) n =
          padded memory (src + 1) n := by
        rw [padded, padded, hcut]
      have hread' : (memory.put dst [memory.byte src]).CanRead (src + 1)
          ((memory.put dst [memory.byte src]).cut (src + 1) n).length := by
        rw [hcut]
        exact (hread hzero).put
      rw [beq_eq_false_iff_ne.mpr hzero,
        ih hread' hwrite.put (hapart.tail hzero _) (by omega), hsame,
        padded_succ_of_ne hzero, hput _ (length_padded memory (src + 1) n)]

/-! ### Searching -/

/-- The address of a place in a string, and 0 for none. -/
def place (str : GuestAddress) : Option ℕ → GuestAddress
  | none => 0
  | some i => str + BitVec.ofNat 32 i

theorem place_map_succ (str : GuestAddress) (r : Option ℕ) :
    place str (r.map (· + 1)) = place (str + 1) r := by
  cases r with
  | none => rfl
  | some i => exact add_ofNat_succ str i

theorem FirstAt.cons {d : BitVec 8} {r : Option ℕ} (h : FirstAt c text r) (hne : d ≠ c) :
    FirstAt c (d :: text) (r.map (· + 1)) := by
  cases r with
  | none => exact List.not_mem_cons_of_ne_of_not_mem hne.symm h
  | some i =>
    refine ⟨h.1, fun j hj => ?_⟩
    cases j with
    | zero => exact fun heq => hne (Option.some.inj heq)
    | succ j => exact h.2 j (Nat.lt_of_succ_lt_succ hj)

/-- The search of a string of guest memory stops at the first place of the byte. -/
theorem searchByte_eq (h : memory.IsString address text) {rounds : ℕ}
    (hrounds : text.length < rounds) (c : BitVec 8) :
    ∃ r, FirstAt c (text ++ [0]) r ∧
      searchByte memory c rounds address = some (place address r) := by
  induction text generalizing address rounds with
  | nil =>
    obtain ⟨hread, hbyte⟩ := h
    obtain ⟨rounds, rfl⟩ := Nat.exists_eq_succ_of_ne_zero (Nat.ne_zero_of_lt hrounds)
    rw [searchByte, read8_eq hread, hbyte]
    by_cases hc : c = 0
    · subst hc
      refine ⟨some 0, ⟨rfl, fun j hj => absurd hj (Nat.not_lt_zero j)⟩, ?_⟩
      rw [place, BitVec.add_zero]
      rfl
    · refine ⟨none, fun hmem => hc (List.mem_singleton.mp hmem), ?_⟩
      exact (if_neg fun heq => hc heq.symm).trans (if_pos rfl)
  | cons d text ih =>
    obtain ⟨hread, hbyte, hd, h⟩ := h
    obtain ⟨rounds, rfl⟩ := Nat.exists_eq_succ_of_ne_zero (Nat.ne_zero_of_lt hrounds)
    rw [searchByte, read8_eq hread, hbyte]
    by_cases hc : d = c
    · refine ⟨some 0, ⟨congrArg some hc, fun j hj => absurd hj (Nat.not_lt_zero j)⟩, ?_⟩
      refine (if_pos hc).trans ?_
      rw [place, BitVec.add_zero]
      rfl
    · obtain ⟨r, hr, heq⟩ := ih h (Nat.lt_of_succ_lt_succ hrounds)
      refine ⟨r.map (· + 1), FirstAt.cons hr hc, ?_⟩
      refine (if_neg hc).trans ((if_neg hd).trans ?_)
      rw [heq, place_map_succ]

/-- `find_last_of` finds the last place. -/
theorem findLastOf_spec (text : List (BitVec 8)) (c : BitVec 8) :
    LastAt c text (findLastOf text c) := by
  cases hr : findLastOf text c with
  | none =>
    intro hmem
    obtain ⟨i, hi, heq⟩ := List.getElem_of_mem hmem
    refine List.find?_eq_none.mp hr i (List.mem_reverse.mpr (List.mem_range.mpr hi)) ?_
    rw [List.getD_eq_getElem _ _ hi, heq]
    exact beq_self_eq_true c
  | some i =>
    obtain ⟨hp, k, hk, hki, hbefore⟩ := List.find?_eq_some_iff_getElem.mp hr
    rw [List.length_reverse, List.length_range] at hk
    rw [List.getElem_reverse, List.getElem_range, List.length_range] at hki
    have hi : i < text.length := by omega
    rw [List.getD_eq_getElem _ _ hi, beq_iff_eq] at hp
    refine ⟨(List.getElem?_eq_getElem hi).trans (congrArg some hp), fun j hj hsome => ?_⟩
    obtain ⟨hjlt, hjc⟩ := List.getElem?_eq_some_iff.mp hsome
    have hnot := hbefore (text.length - 1 - j) (by omega)
    rw [List.getElem_reverse, List.getElem_range, List.length_range,
      show text.length - 1 - (text.length - 1 - j) = j by omega,
      List.getD_eq_getElem _ _ hjlt, hjc, beq_self_eq_true] at hnot
    exact Bool.noConfusion hnot

/-- `find` finds the first occurrence. -/
theorem find_spec (text needle : List (BitVec 8)) :
    FirstOccurrence needle text (find text needle) := by
  cases hr : find text needle with
  | none =>
    intro i hoccurs
    have hnone := fun j hj => List.find?_eq_none.mp hr j (List.mem_range.mpr hj)
    by_cases hi : i < text.length + 1
    · exact hnone i hi (List.isPrefixOf_iff_prefix.mpr hoccurs)
    · -- Behind the end nothing is left, so that the needle is empty and occurs everywhere.
      rw [List.drop_eq_nil_of_le (by omega), List.prefix_nil] at hoccurs
      refine hnone 0 (Nat.succ_pos _) ?_
      rw [hoccurs]
      exact List.isPrefixOf_iff_prefix.mpr (List.nil_prefix)
  | some i =>
    obtain ⟨hp, -, hbefore⟩ := List.find?_range_eq_some.mp hr
    refine ⟨List.isPrefixOf_iff_prefix.mp hp, fun j hj hoccurs => ?_⟩
    have hnot := hbefore j hj
    rw [List.isPrefixOf_iff_prefix.mpr hoccurs] at hnot
    exact Bool.noConfusion hnot

end NativeReplacements
end Recomp
end XenonRecomp
