/-
# The address that `allocate` chooses

The two searches of `AddressSpace::allocate`
(`src/memory/guest/virtual/virtual_allocation.cpp`) are linear over the multiples of the
alignment: upwards from the base of the region, downwards from the last
multiple that leaves room for the size.  Where the rounded size fits in 32 bits,
and downwards in the region, the address found is the lowest or the highest one
whose pages are free, a search that finds none shows that there is none, and no
candidate runs past the page table.
-/

import Mathlib.Tactic.Ring
import XenonRecomp.Memory.MemoryCalls

namespace XenonRecomp
namespace Memory

namespace AddressSpace

variable {s : AddressSpace} {region : Region} {size alignment : ℕ}

/-! ### The assertion -/

/-- A search upwards reaches the assertion of `page_index_in_bounds`. -/
def assertsUp (s : AddressSpace) (region : Region) (size alignment : ℕ) : ℕ → ℕ → Bool
  | 0, _ => false
  | fuel + 1, candidate =>
    if candidate + size = 0 ∨ region.last < candidate + size - 1 then false
    else if pageIndexInBounds candidate size = false then true
    else if s.candidateFree candidate size then false
    else assertsUp s region size alignment fuel (candidate + alignment)

/-- A search downwards reaches the assertion of `page_index_in_bounds`. -/
def assertsDown (s : AddressSpace) (region : Region) (size alignment : ℕ) : ℕ → ℕ → Bool
  | 0, _ => false
  | fuel + 1, candidate =>
    if candidate < region.base then false
    else if pageIndexInBounds candidate size = false then true
    else if s.candidateFree candidate size then false
    else if candidate < region.base + alignment then false
    else assertsDown s region size alignment fuel (candidate - alignment)

/-- The search of `allocate` reaches the assertion. -/
def searchAsserts (s : AddressSpace) (region : Region) (size alignment : ℕ) (topDown : Bool) :
    Bool :=
  if topDown then
    s.assertsDown region size alignment kPageCount (highStart region size alignment)
  else s.assertsUp region size alignment kPageCount (alignUp region.base alignment)

/-- A candidate that ends within the guest's address space has pages in the table. -/
theorem pageIndexInBounds_of_le {candidate size : ℕ} (h : candidate + size ≤ 2 ^ 32) :
    pageIndexInBounds candidate size = true := by
  unfold pageIndexInBounds
  simp only [Bool.or_eq_true, beq_iff_eq, decide_eq_true_eq]
  unfold kBasePageSize kPageCount
  omega

/-! ### Candidates -/

/-- An address the search may choose. -/
structure Candidate (s : AddressSpace) (region : Region) (size alignment address : ℕ) : Prop where
  aligned : alignment ∣ address
  above : region.base ≤ address
  inside : address + size ≤ region.last + 1
  free : s.candidateFree address size = true

/-- The next multiple of the alignment. -/
theorem le_of_dvd_of_lt {a b : ℕ} (ha : alignment ∣ a) (hb : alignment ∣ b) (h : a < b) :
    a + alignment ≤ b := by
  obtain ⟨k, rfl⟩ := ha
  obtain ⟨l, rfl⟩ := hb
  have hkl : k < l := lt_of_mul_lt_mul_left h (Nat.zero_le _)
  calc alignment * k + alignment = alignment * (k + 1) := by ring
    _ ≤ alignment * l := Nat.mul_le_mul_left _ hkl

/-- **The search upwards** finds the first candidate, and reaches no assertion. -/
theorem searchUp_spec (hsize : 0 < size) (halign : 0 < alignment) (hlast : region.last < 2 ^ 32) :
    ∀ (fuel candidate : ℕ), alignment ∣ candidate → region.base ≤ candidate →
      region.last + 1 < candidate + fuel * alignment →
      s.assertsUp region size alignment fuel candidate = false ∧
      (∀ A, s.searchUp region size alignment fuel candidate = some A →
        s.Candidate region size alignment A ∧
          ∀ B, candidate ≤ B → s.Candidate region size alignment B → A ≤ B) ∧
      (s.searchUp region size alignment fuel candidate = none →
        ∀ B, candidate ≤ B → ¬s.Candidate region size alignment B) := by
  intro fuel
  induction fuel with
  | zero =>
    intro candidate _ _ hfuel
    refine ⟨rfl, nofun, fun _ B hB hcand => ?_⟩
    have := hcand.inside
    omega
  | succ fuel ih =>
    intro candidate hdvd hbase hfuel
    by_cases hend : candidate + size = 0 ∨ region.last < candidate + size - 1
    · simp only [assertsUp, searchUp, if_pos hend]
      refine ⟨trivial, nofun, fun _ B hB hcand => ?_⟩
      have := hcand.inside
      omega
    · have hfit : candidate + size ≤ region.last + 1 := by omega
      have hbounds : pageIndexInBounds candidate size = true :=
        pageIndexInBounds_of_le (by omega)
      simp only [assertsUp, searchUp, if_neg hend, hbounds, Bool.true_eq_false, if_false]
      cases hfree : s.candidateFree candidate size with
      | true =>
        simp only [if_true, Option.some.injEq, reduceCtorEq, false_implies, and_true, true_and]
        rintro A rfl
        exact ⟨⟨hdvd, hbase, hfit, hfree⟩, fun B hB _ => hB⟩
      | false =>
        simp only [Bool.false_eq_true, if_false]
        obtain ⟨hno, hsome, hnone⟩ := ih (candidate + alignment)
          (Nat.dvd_add hdvd (Nat.dvd_refl _)) (by omega)
          (by rw [Nat.succ_mul] at hfuel; omega)
        have hnext : ∀ B, candidate ≤ B → s.Candidate region size alignment B →
            candidate + alignment ≤ B := by
          intro B hB hcand
          refine le_of_dvd_of_lt hdvd hcand.aligned (lt_of_le_of_ne hB ?_)
          rintro rfl
          rw [hcand.free] at hfree
          cases hfree
        exact ⟨hno, fun A hA => ⟨(hsome A hA).1, fun B hB hcand =>
          (hsome A hA).2 B (hnext B hB hcand) hcand⟩,
          fun hA B hB hcand => hnone hA B (hnext B hB hcand) hcand⟩

/-- **The search downwards** finds the last candidate, and reaches no assertion. -/
theorem searchDown_spec (halign : 0 < alignment) (hlast : region.last < 2 ^ 32) :
    ∀ (fuel candidate : ℕ), alignment ∣ candidate → candidate + size ≤ region.last + 1 →
      candidate < fuel * alignment →
      s.assertsDown region size alignment fuel candidate = false ∧
      (∀ A, s.searchDown region size alignment fuel candidate = some A →
        s.Candidate region size alignment A ∧
          ∀ B, B ≤ candidate → s.Candidate region size alignment B → B ≤ A) ∧
      (s.searchDown region size alignment fuel candidate = none →
        ∀ B, B ≤ candidate → ¬s.Candidate region size alignment B) := by
  intro fuel
  induction fuel with
  | zero =>
    intro candidate _ _ hfuel
    omega
  | succ fuel ih =>
    intro candidate hdvd hfit hfuel
    by_cases hbase : candidate < region.base
    · simp only [assertsDown, searchDown, if_pos hbase]
      refine ⟨trivial, nofun, fun _ B hB hcand => ?_⟩
      have := hcand.above
      omega
    · have hbounds : pageIndexInBounds candidate size = true :=
        pageIndexInBounds_of_le (by omega)
      simp only [assertsDown, searchDown, if_neg hbase, hbounds, Bool.true_eq_false, if_false]
      cases hfree : s.candidateFree candidate size with
      | true =>
        simp only [if_true, Option.some.injEq, reduceCtorEq, false_implies, and_true, true_and]
        rintro A rfl
        exact ⟨⟨hdvd, not_lt.mp hbase, hfit, hfree⟩, fun B hB _ => hB⟩
      | false =>
        simp only [Bool.false_eq_true, if_false]
        have hnext : ∀ B, B ≤ candidate → s.Candidate region size alignment B →
            B + alignment ≤ candidate := by
          intro B hB hcand
          refine le_of_dvd_of_lt hcand.aligned hdvd (lt_of_le_of_ne hB ?_)
          rintro rfl
          rw [hcand.free] at hfree
          cases hfree
        by_cases hstop : candidate < region.base + alignment
        · simp only [if_pos hstop]
          refine ⟨trivial, nofun, fun _ B hB hcand => ?_⟩
          have := hnext B hB hcand
          have := hcand.above
          omega
        · simp only [if_neg hstop]
          have hstart : candidate - alignment + alignment = candidate := Nat.sub_add_cancel (by omega)
          obtain ⟨hno, hsome, hnone⟩ := ih (candidate - alignment)
            (Nat.dvd_sub hdvd (dvd_refl _)) (by omega) (by rw [Nat.succ_mul] at hfuel; omega)
          refine ⟨hno, fun A hA => ⟨(hsome A hA).1, fun B hB hcand => (hsome A hA).2 B ?_ hcand⟩,
            fun hA B hB hcand => hnone hA B ?_ hcand⟩ <;>
          · have := hnext B hB hcand
            omega

/-! ### The search of a request -/

/-- The size in whole pages of the region. -/
def roundedSize (size pageSize : ℕ) : ℕ :=
  (size + pageSize - 1) / pageSize * pageSize

/-- The alignment a request asks for. -/
def requestedAlignment (alignment pageSize : ℕ) : ℕ :=
  max (if alignment = 0 then pageSize else alignment) pageSize

/-- The region of a request: its page size, and its place in the address space. -/
theorem allocationRegion_cases {pageSize : ℕ} (h : allocationRegion pageSize = some region) :
    region ∈ kRegions ∧ region.kind = .virtual ∧ region.allocationPageSize = pageSize ∧
      (pageSize = kBasePageSize ∧ region.base = 0 ∧ region.last = 0x3FFFFFFF ∨
        pageSize = kLargePageSize ∧ region.base = 0x40000000 ∧ region.last = 0x7EFFFFFF) := by
  have hmem := List.mem_of_find?_eq_some h
  have hkind := List.find?_some h
  simp only [Bool.and_eq_true, beq_iff_eq] at hkind
  obtain ⟨hkind, rfl⟩ := hkind
  refine ⟨hmem, hkind, rfl, ?_⟩
  revert hkind
  revert region
  decide

/-- **The search of a request.**  Where the rounded size fits in 32 bits, and downwards in the
region, no assertion is reached, the address found is the extreme candidate, and if none is
found there is none. -/
theorem searchAllocation_spec {pageSize : ℕ} {topDown : Bool}
    (hregion : allocationRegion pageSize = some region) (hsize : 0 < size)
    (halign : kBasePageSize ≤ alignment) (halign' : alignment ≤ 2 ^ 31)
    (hfit : topDown = true → size ≤ region.last + 1) :
    s.searchAsserts region size alignment topDown = false ∧
    (∀ A, s.searchAllocation region size alignment topDown = some A →
      s.Candidate region size alignment A ∧
        ∀ B, s.Candidate region size alignment B → if topDown then B ≤ A else A ≤ B) ∧
    (s.searchAllocation region size alignment topDown = none →
      ∀ B, ¬s.Candidate region size alignment B) := by
  have hbounds : region.base ≤ 0x40000000 ∧ region.last < 2 ^ 31 := by
    obtain ⟨-, -, -, ⟨-, h₁, h₂⟩ | ⟨-, h₁, h₂⟩⟩ := allocationRegion_cases hregion <;> omega
  have hpos : 0 < alignment := lt_of_lt_of_le (by decide) halign
  have hturns : 2 ^ 32 ≤ kPageCount * alignment :=
    calc 2 ^ 32 = kPageCount * kBasePageSize := by norm_num
      _ ≤ kPageCount * alignment := Nat.mul_le_mul_left _ halign
  unfold searchAsserts searchAllocation
  generalize kPageCount = fuel at hturns ⊢
  cases topDown with
  | false =>
    simp only [Bool.false_eq_true, if_false]
    have hup : alignUp region.base alignment =
        (region.base + alignment - 1) / alignment * alignment := by
      refine Nat.mod_eq_of_lt ?_
      have := Nat.div_mul_le_self (region.base + alignment - 1) alignment
      omega
    have hstart : region.base ≤ alignUp region.base alignment := by
      rw [hup]
      have := Nat.lt_div_mul_add (a := region.base + alignment - 1) hpos
      omega
    have hdvd : alignment ∣ alignUp region.base alignment := by
      rw [hup]
      exact Dvd.intro_left _ rfl
    have hfirst : ∀ B, s.Candidate region size alignment B → alignUp region.base alignment ≤ B := by
      intro B hcand
      by_contra hlt
      have h₁ := le_of_dvd_of_lt hcand.aligned hdvd (not_le.mp hlt)
      have h₂ := hcand.above
      have h₃ := Nat.div_mul_le_self (region.base + alignment - 1) alignment
      rw [hup] at h₁
      omega
    obtain ⟨hno, hsome, hnone⟩ := searchUp_spec (s := s) hsize hpos (by omega) fuel
      (alignUp region.base alignment) hdvd hstart (by omega)
    exact ⟨hno, fun A hA => ⟨(hsome A hA).1, fun B hcand => (hsome A hA).2 B (hfirst B hcand) hcand⟩,
      fun hA B hcand => hnone hA B (hfirst B hcand) hcand⟩
  | true =>
    simp only [if_true]
    have hroom := hfit rfl
    have hhigh : highStart region size alignment =
        region.last + 1 - size - (region.last + 1 - size) % alignment := by
      have hcut : (region.last + 1 + 2 ^ 64 - size) % 2 ^ 64 % 2 ^ 32 = region.last + 1 - size := by
        omega
      rw [highStart, hcut, alignDown]
    have hdvd : alignment ∣ highStart region size alignment := by
      rw [hhigh]
      exact Nat.dvd_sub_mod _
    have hlast : ∀ B, s.Candidate region size alignment B → B ≤ highStart region size alignment := by
      intro B hcand
      by_contra hlt
      have h₁ := le_of_dvd_of_lt hdvd hcand.aligned (not_le.mp hlt)
      have h₂ := hcand.inside
      have h₃ := Nat.mod_lt (region.last + 1 - size) hpos
      rw [hhigh] at h₁
      omega
    obtain ⟨hno, hsome, hnone⟩ := @searchDown_spec s _ size _ hpos
      (by omega : region.last < 2 ^ 32) fuel (highStart region size alignment) hdvd
      (by rw [hhigh]; omega) (by rw [hhigh]; omega)
    exact ⟨hno, fun A hA => ⟨(hsome A hA).1, fun B hcand => (hsome A hA).2 B (hlast B hcand) hcand⟩,
      fun hA B hcand => hnone hA B (hlast B hcand) hcand⟩

end AddressSpace

end Memory
end XenonRecomp
