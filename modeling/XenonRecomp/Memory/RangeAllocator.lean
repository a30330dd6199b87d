/-
# The physical range allocator keeps every page

`PhysicalRangeAllocator` of physical_page_tracking.hpp holds the free and the
retired pages as two coalesced range maps (`Library.RangeMap`).  A page that is
in neither is outstanding: it was allocated or claimed, or taken back with the
retired ranges.  `Ledger` writes that third set down beside the allocator, and
`run_kept` says that the three sets divide the pages of the last reset after
every sequence of calls that gives back only what is outstanding; and that the
allocator's answers are exact in every such state: an allocation succeeds when
there is an aligned run between its bounds, with the lowest or the highest one,
and `contains_free` is the question whether all pages are free.

The answers are exact for runs of at least one page and for bounds inside the
physical memory; the allocator refuses an empty run and a bound beyond it
(`reset_edges`).
-/

import Mathlib.Order.Interval.Finset.Nat
import XenonRecomp.Library.Transition
import XenonRecomp.Memory.AllocationRequest

namespace XenonRecomp
namespace Memory

open Library Library.Transition

/-! ### What one allocation takes -/

theorem le_alignPageUp {value alignment : ℕ} (ha : 0 < alignment)
    (hsum : value + alignment ≤ 2 ^ 32) : value ≤ alignPageUp value alignment := by
  rw [alignPageUp, Nat.mod_eq_of_lt (by omega)]
  have := Nat.lt_div_mul_add ha (a := value + alignment - 1)
  omega

/-- The candidates a placement answers with lie in the range it was asked
about. -/
theorem placeIn_inside {count alignment minimum maximum : ℕ} {topDown : Bool} (hc : 0 < count)
    (ha : 0 < alignment ∧ alignment ≤ 2 ^ 31) (hmax : maximum ≤ kPhysicalPageCount)
    {r : ℕ × ℕ} {c : ℕ}
    (h : placeIn count alignment topDown minimum maximum r = some c) :
    RangeMap.Inside r c count ∧ minimum ≤ c ∧ c + count ≤ maximum := by
  rw [placeIn] at h
  dsimp only at h
  split_ifs at h with h₁ htd h₂ h₃ h₄
  · obtain rfl := Option.some.inj h
    have := alignDown_le (min (r.1 + r.2) maximum - count) alignment
    exact ⟨⟨hc, by omega, by omega⟩, by omega, by omega⟩
  · obtain rfl := Option.some.inj h
    have hle : max r.1 minimum ≤ alignPageUp (max r.1 minimum) alignment :=
      le_alignPageUp ha.1 (by unfold kPhysicalPageCount at hmax; omega)
    exact ⟨⟨hc, by omega, by omega⟩, by omega, by omega⟩

/-- What `allocateQuietly` answers: free frames between the bounds, taken out of
the free ranges. -/
theorem mem_allocateQuietly {free free' : RangeMap} {count alignment minimum maximum first : ℕ}
    {topDown : Bool} (ha : alignment ≤ 2 ^ 31)
    (h : allocateQuietly free count alignment topDown minimum maximum = some (first, free')) :
    0 < count ∧ minimum ≤ first ∧ first + count ≤ maximum ∧ maximum ≤ kPhysicalPageCount ∧
      (∀ x, first ≤ x → x < first + count → x ∈ free) ∧
      ∀ x, x ∈ free' ↔ x ∈ free ∧ ¬(first ≤ x ∧ x < first + count) := by
  rw [allocateQuietly] at h
  split_ifs at h with hbad
  rw [not_or, not_or, not_or, not_or] at hbad
  obtain ⟨h₁, h₂, -, -, h₅⟩ := hbad
  have hplace : ∀ r c, placeIn count alignment topDown minimum maximum r = some c →
      RangeMap.Inside r c count ∧ minimum ≤ c ∧ c + count ≤ maximum := fun r c hc =>
    placeIn_inside (by omega) ⟨by omega, ha⟩ (by omega) hc
  obtain ⟨hin, hmem⟩ := RangeMap.mem_allocate (fun r c hc => (hplace r c hc).1) h
  rw [RangeMap.allocate, Option.map_eq_some_iff] at h
  obtain ⟨⟨r, c⟩, hfind, heq⟩ := h
  obtain ⟨rfl, -⟩ := Prod.mk.inj heq
  obtain ⟨t, -, hmap⟩ := List.exists_of_findSome?_eq_some hfind
  obtain ⟨c', hc, heq⟩ := Option.map_eq_some_iff.mp hmap
  obtain ⟨-, rfl⟩ := Prod.mk.inj heq
  exact ⟨by omega, (hplace t c' hc).2.1, (hplace t c' hc).2.2, by omega, hin, hmem⟩

/-! ### The allocator -/

/-- `PhysicalRangeAllocator`. -/
structure PhysicalRangeAllocator where
  freeRanges : RangeMap := .empty
  retiredRanges : RangeMap := .empty

namespace PhysicalRangeAllocator

/-- `reset`. -/
def reset (firstPage pageCount : ℕ) : PhysicalRangeAllocator :=
  { freeRanges := .single firstPage pageCount }

/-- `allocate`; a failure is also logged. -/
def allocate (a : PhysicalRangeAllocator) (pageCount alignmentPages : ℕ) (topDown : Bool)
    (minimumPage maximumPageExclusive : ℕ) : Option (ℕ × PhysicalRangeAllocator) :=
  (allocateQuietly a.freeRanges pageCount alignmentPages topDown minimumPage
    maximumPageExclusive).map fun (first, freeRanges) => (first, { a with freeRanges })

/-- `contains_free`. -/
def containsFree (a : PhysicalRangeAllocator) (firstPage pageCount : ℕ) : Bool :=
  a.freeRanges.contains firstPage pageCount

/-- `claim`. -/
def claim (a : PhysicalRangeAllocator) (firstPage pageCount : ℕ) :
    Option PhysicalRangeAllocator :=
  (a.freeRanges.claim firstPage pageCount).map fun freeRanges => { a with freeRanges }

/-- `release`. -/
def release (a : PhysicalRangeAllocator) (firstPage pageCount : ℕ) :
    Option PhysicalRangeAllocator :=
  (a.freeRanges.insertCoalesced kPhysicalPageCount firstPage pageCount).map
    fun freeRanges => { a with freeRanges }

/-- `retire`. -/
def retire (a : PhysicalRangeAllocator) (firstPage pageCount : ℕ) :
    Option PhysicalRangeAllocator :=
  (a.retiredRanges.insertCoalesced kPhysicalPageCount firstPage pageCount).map
    fun retiredRanges => { a with retiredRanges }

/-- `take_retired_ranges`. -/
def takeRetiredRanges (a : PhysicalRangeAllocator) :
    List (ℕ × ℕ) × PhysicalRangeAllocator :=
  (a.retiredRanges.ranges, { a with retiredRanges := .empty })

/-! ### Where an allocation goes -/

/-- A run of free pages that an allocation may take: aligned, and between the
bounds. -/
structure Fits (a : PhysicalRangeAllocator) (pageCount alignmentPages minimumPage
    maximumPageExclusive p : ℕ) : Prop where
  aligned : alignmentPages ∣ p
  minimum : minimumPage ≤ p
  maximum : p + pageCount ≤ maximumPageExclusive
  free : ∀ x ∈ Finset.Ico p (p + pageCount), x ∈ a.freeRanges

variable {count alignment minimum maximum c : ℕ} {r : ℕ × ℕ}

/-- A run of one range that an allocation may take. -/
def FitsIn (count alignment minimum maximum : ℕ) (r : ℕ × ℕ) (c : ℕ) : Prop :=
  alignment ∣ c ∧ max r.1 minimum ≤ c ∧ c + count ≤ min (r.1 + r.2) maximum

theorem alignPageUp_of_le {value : ℕ} (ha : 0 < alignment) (hsum : value + alignment ≤ 2 ^ 32) :
    alignment ∣ alignPageUp value alignment ∧
      ∀ c, alignment ∣ c → value ≤ c → alignPageUp value alignment ≤ c := by
  rw [alignPageUp, Nat.mod_eq_of_lt (by omega)]
  refine ⟨Nat.dvd_mul_left .., ?_⟩
  rintro _ ⟨k, rfl⟩ hle
  have hk : (value + alignment - 1) / alignment < k + 1 := by
    rw [Nat.div_lt_iff_lt_mul ha]
    have : (k + 1) * alignment = alignment * k + alignment := by
      rw [Nat.add_mul, Nat.one_mul, Nat.mul_comm]
    omega
  rw [Nat.mul_comm alignment k]
  exact Nat.mul_le_mul_right _ (by omega)

theorem alignDown_spec (value : ℕ) (ha : 0 < alignment) :
    alignment ∣ alignDown value alignment ∧
      ∀ c, alignment ∣ c → c ≤ value → c ≤ alignDown value alignment := by
  unfold alignDown
  refine ⟨Nat.dvd_sub_mod value, ?_⟩
  rintro _ ⟨k, rfl⟩ hle
  have hmod : value - value % alignment = alignment * (value / alignment) := by
    have := Nat.div_add_mod value alignment
    omega
  rw [hmod]
  exact Nat.mul_le_mul_left _ ((Nat.le_div_iff_mul_le ha).mpr (by rwa [Nat.mul_comm]))

/-- **The place in one range.**  A placement fails when no run of the range fits,
and gives the lowest or the highest of those that do. -/
theorem placeIn_spec (hc : 0 < count) (ha : 0 < alignment) (hle : alignment ≤ 2 ^ 31)
    (hmax : maximum ≤ kPhysicalPageCount) (topDown : Bool) :
    (placeIn count alignment topDown minimum maximum r = none →
      ∀ c, ¬FitsIn count alignment minimum maximum r c) ∧
    ∀ p, placeIn count alignment topDown minimum maximum r = some p →
      FitsIn count alignment minimum maximum r p ∧
        ∀ c, FitsIn count alignment minimum maximum r c → if topDown then c ≤ p else p ≤ c := by
  unfold FitsIn
  unfold placeIn
  generalize hfirst : max r.1 minimum = first
  generalize hend : min (r.1 + r.2) maximum = last
  dsimp only
  split
  · exact ⟨fun _ c hfits => by omega, nofun⟩
  next hroom =>
  have hlast : last ≤ kPhysicalPageCount := by omega
  cases topDown with
  | true =>
      simp only [if_true]
      split
      · exact ⟨fun _ c hfits => by omega, nofun⟩
      obtain ⟨hdvd, hbest⟩ := alignDown_spec (last - count) ha
      have hdown := alignDown_le (last - count) alignment
      split
      · next hlow =>
          refine ⟨fun _ c ⟨hd, hf, hl⟩ => ?_, nofun⟩
          have := hbest c hd (by omega)
          omega
      · refine ⟨nofun, fun p hp => ?_⟩
        obtain rfl := Option.some.inj hp
        exact ⟨⟨hdvd, by omega, by omega⟩, fun c ⟨hd, _, hl⟩ => hbest c hd (by omega)⟩
  | false =>
      have hsum : first + alignment ≤ 2 ^ 32 := by
        unfold kPhysicalPageCount at hlast
        omega
      obtain ⟨hdvd, hbest⟩ := alignPageUp_of_le ha hsum
      have hup := le_alignPageUp ha hsum
      simp only [Bool.false_eq_true, if_false]
      split
      · next hhigh =>
          refine ⟨fun _ c ⟨hd, hf, hl⟩ => ?_, nofun⟩
          have := hbest c hd hf
          omega
      · refine ⟨nofun, fun p hp => ?_⟩
        obtain rfl := Option.some.inj hp
        exact ⟨⟨hdvd, hup, by omega⟩, fun c ⟨hd, hf, _⟩ => hbest c hd hf⟩

/-- **Where an allocation goes.**  It succeeds exactly when a run fits, and takes
the lowest or the highest one that does. -/
theorem allocate_spec (a : PhysicalRangeAllocator) (hc : 0 < count)
    (hbit : hasSingleBit alignment = true) (hlt : alignment < 2 ^ 32)
    (hmax : maximum ≤ kPhysicalPageCount) (topDown : Bool) :
    ((∃ p a', a.allocate count alignment topDown minimum maximum = some (p, a')) ↔
      ∃ p, a.Fits count alignment minimum maximum p) ∧
    ∀ p a', a.allocate count alignment topDown minimum maximum = some (p, a') →
      a.Fits count alignment minimum maximum p ∧
        ∀ q, a.Fits count alignment minimum maximum q → if topDown then q ≤ p else p ≤ q := by
  have ha : 0 < alignment := by
    rcases Nat.eq_zero_or_pos alignment with rfl | h
    · simp [hasSingleBit] at hbit
    · exact h
  have hplace := fun r => @placeIn_spec _ _ minimum _ r hc ha
    (AddressSpace.le_of_hasSingleBit hbit hlt) hmax topDown
  -- A run that fits lies in one range.
  have hrange : ∀ q, a.Fits count alignment minimum maximum q →
      ∃ r ∈ a.freeRanges.ranges, FitsIn count alignment minimum maximum r q := by
    intro q hq
    obtain ⟨r, hr, h₁, h₂⟩ := RangeMap.exists_range_of_forall_mem hc
      fun x h₁ h₂ => hq.free x (Finset.mem_Ico.mpr ⟨h₁, h₂⟩)
    have := hq.minimum
    have := hq.maximum
    exact ⟨r, hr, hq.aligned, by omega, by omega⟩
  have hfits : ∀ r ∈ a.freeRanges.ranges, ∀ q, FitsIn count alignment minimum maximum r q →
      a.Fits count alignment minimum maximum q := by
    rintro r hr q ⟨hd, hf, hl⟩
    refine ⟨hd, by omega, by omega, fun x hx => ⟨r, hr, ?_⟩⟩
    have := Finset.mem_Ico.mp hx
    omega
  by_cases hempty : maximum ≤ minimum
  · -- Nothing fits between bounds that cross.
    have hnone : a.allocate count alignment topDown minimum maximum = none := by
      simp [allocate, allocateQuietly, hempty]
    rw [hnone]
    refine ⟨⟨?_, ?_⟩, by rintro p a' ⟨⟩⟩
    · rintro ⟨p, a', h⟩
      cases h
    rintro ⟨p, hp⟩
    have := hp.minimum
    have := hp.maximum
    omega
  have hquiet : a.allocate count alignment topDown minimum maximum =
      (a.freeRanges.allocate (placeIn count alignment topDown minimum maximum) count
        topDown).map fun (first, freeRanges) => (first, { a with freeRanges }) := by
    rw [allocate, allocateQuietly, if_neg]
    rw [not_or, not_or, not_or, not_or]
    exact ⟨hc.ne', ha.ne', by simp [hbit], hempty, by omega⟩
  rw [hquiet]
  constructor
  · constructor
    · rintro ⟨p, a', h⟩
      by_contra hno
      have hfail : a.freeRanges.allocate (placeIn count alignment topDown minimum maximum) count
          topDown = none := by
        refine RangeMap.allocate_eq_none.mpr fun r hr => ?_
        cases hp : placeIn count alignment topDown minimum maximum r with
        | none => rfl
        | some q => exact absurd ⟨q, hfits r hr q ((hplace r).2 q hp).1⟩ hno
      simp [hfail] at h
    · rintro ⟨q, hq⟩
      obtain ⟨r, hr, hin⟩ := hrange q hq
      cases hres : a.freeRanges.allocate (placeIn count alignment topDown minimum maximum) count
          topDown with
      | none => exact absurd hin ((hplace r).1 (RangeMap.allocate_eq_none.mp hres r hr) q)
      | some res => exact ⟨res.1, _, rfl⟩
  · intro p a' h
    obtain ⟨⟨p', free'⟩, hres, heq⟩ := Option.map_eq_some_iff.mp h
    obtain ⟨rfl, -⟩ := Prod.mk.inj heq
    obtain ⟨before, r, after, horder, hp, hbefore⟩ := RangeMap.allocate_eq_some hres
    have hmem : ∀ t, t ∈ (if topDown then a.freeRanges.ranges.reverse else a.freeRanges.ranges) ↔
        t ∈ a.freeRanges.ranges := by
      intro t
      split <;> simp
    have hr : r ∈ a.freeRanges.ranges := by
      rw [← hmem, horder]
      simp
    obtain ⟨hin, hbest⟩ := (hplace r).2 p' hp
    refine ⟨hfits r hr p' hin, fun q hq => ?_⟩
    obtain ⟨t, ht, hqt⟩ := hrange q hq
    rw [← hmem, horder, List.mem_append, List.mem_cons] at ht
    rcases ht with ht | rfl | ht
    · exact absurd hqt ((hplace t).1 (hbefore t ht) q)
    · exact hbest q hqt
    · -- The range of `q` is after the chosen one in the order of the search.
      obtain ⟨-, h₁, h₂⟩ := hin
      obtain ⟨-, h₃, h₄⟩ := hqt
      cases topDown with
      | false =>
          simp only [Bool.false_eq_true, if_false] at horder ⊢
          have hsep := a.freeRanges.separated
          rw [horder] at hsep
          have hlt := List.rel_of_pairwise_cons (List.pairwise_append.mp hsep).2.1 ht
          omega
      | true =>
          simp only [if_true] at horder ⊢
          have hsep := List.pairwise_reverse.mpr a.freeRanges.separated
          rw [horder] at hsep
          have hlt := List.rel_of_pairwise_cons (List.pairwise_append.mp hsep).2.1 ht
          omega

end PhysicalRangeAllocator

/-! ### Sequences of calls -/

/-- A call of the allocator. -/
inductive AllocatorCall
  | reset (firstPage pageCount : ℕ)
  | allocate (pageCount alignmentPages : ℕ) (topDown : Bool)
      (minimumPage maximumPageExclusive : ℕ)
  | claim (firstPage pageCount : ℕ)
  | release (firstPage pageCount : ℕ)
  | retire (firstPage pageCount : ℕ)
  | takeRetiredRanges
deriving DecidableEq, Repr

/-- The answer of a call: the page of an allocation, whether a claim, a release
or a retirement was carried out, or the retired ranges. -/
inductive AllocatorReply
  | done
  | page (first : Option ℕ)
  | carried (ok : Bool)
  | ranges (taken : List (ℕ × ℕ))
deriving DecidableEq, Repr

/-- The allocator, the pages of its last reset, and those of them that its caller
holds. -/
structure Ledger where
  allocator : PhysicalRangeAllocator := {}
  initial : Finset ℕ := ∅
  outstanding : Finset ℕ := ∅

namespace Ledger

/-- The `count` pages from `first` on. -/
def pages (first count : ℕ) : Finset ℕ := Finset.Ico first (first + count)

/-- The pages of a list of ranges. -/
def pagesOf (ranges : List (ℕ × ℕ)) : Finset ℕ :=
  ranges.foldr (fun r s => pages r.1 r.2 ∪ s) ∅

/-- One call. -/
def step (l : Ledger) : AllocatorCall → Ledger × AllocatorReply
  | .reset first count =>
      ({ allocator := .reset first count, initial := pages first count, outstanding := ∅ }, .done)
  | .allocate count alignment topDown minimum maximum =>
      match l.allocator.allocate count alignment topDown minimum maximum with
      | none => (l, .page none)
      | some (first, allocator) =>
          ({ l with allocator, outstanding := l.outstanding ∪ pages first count },
            .page (some first))
  | .claim first count =>
      match l.allocator.claim first count with
      | none => (l, .carried false)
      | some allocator =>
          ({ l with allocator, outstanding := l.outstanding ∪ pages first count }, .carried true)
  | .release first count =>
      match l.allocator.release first count with
      | none => (l, .carried false)
      | some allocator =>
          ({ l with allocator, outstanding := l.outstanding \ pages first count }, .carried true)
  | .retire first count =>
      match l.allocator.retire first count with
      | none => (l, .carried false)
      | some allocator =>
          ({ l with allocator, outstanding := l.outstanding \ pages first count }, .carried true)
  | .takeRetiredRanges =>
      let (taken, allocator) := l.allocator.takeRetiredRanges
      ({ l with allocator, outstanding := l.outstanding ∪ pagesOf taken }, .ranges taken)

/-- The calls of a caller that keeps to the contract: the alignment and the end
of a reset are 32-bit values, and only outstanding pages are given back. -/
def Allowed (l : Ledger) : AllocatorCall → Prop
  | .reset first count => first + count < 2 ^ 32
  | .allocate _ alignment _ _ _ => alignment < 2 ^ 32
  | .release first count | .retire first count => pages first count ⊆ l.outstanding
  | .claim _ _ | .takeRetiredRanges => True

instance (l : Ledger) (call : AllocatorCall) : Decidable (l.Allowed call) := by
  cases call <;> unfold Allowed <;> infer_instance

/-- The allocator is exact: its maps are coalesced, they and the outstanding
pages divide the initial ones, and its answers are those of the set of free
pages. -/
structure Kept (l : Ledger) : Prop where
  free_coalesced : l.allocator.freeRanges.ranges.Pairwise fun r t => r.1 + r.2 < t.1
  retired_coalesced : l.allocator.retiredRanges.ranges.Pairwise fun r t => r.1 + r.2 < t.1
  partition : ∀ x, x ∈ l.initial ↔
    x ∈ l.allocator.freeRanges ∨ x ∈ l.allocator.retiredRanges ∨ x ∈ l.outstanding
  not_both : ∀ x, ¬(x ∈ l.allocator.freeRanges ∧ x ∈ l.allocator.retiredRanges)
  held : ∀ x ∈ l.outstanding, x ∉ l.allocator.freeRanges ∧ x ∉ l.allocator.retiredRanges
  allocate_iff : ∀ count alignment topDown minimum maximum, 0 < count →
    hasSingleBit alignment = true → alignment < 2 ^ 32 → maximum ≤ kPhysicalPageCount →
    ((∃ p a, l.allocator.allocate count alignment topDown minimum maximum = some (p, a)) ↔
      ∃ p, l.allocator.Fits count alignment minimum maximum p)
  allocate_best : ∀ count alignment topDown minimum maximum p a, 0 < count →
    hasSingleBit alignment = true → alignment < 2 ^ 32 → maximum ≤ kPhysicalPageCount →
    l.allocator.allocate count alignment topDown minimum maximum = some (p, a) →
      l.allocator.Fits count alignment minimum maximum p ∧
        ∀ q, l.allocator.Fits count alignment minimum maximum q → if topDown then q ≤ p else p ≤ q
  contains_iff : ∀ first count, 0 < count → (l.allocator.containsFree first count = true ↔
    ∀ x ∈ pages first count, x ∈ l.allocator.freeRanges)

/-- The three sets divide the pages of the last reset. -/
structure Divided (l : Ledger) : Prop where
  partition : ∀ x, x ∈ l.initial ↔
    x ∈ l.allocator.freeRanges ∨ x ∈ l.allocator.retiredRanges ∨ x ∈ l.outstanding
  not_both : ∀ x, ¬(x ∈ l.allocator.freeRanges ∧ x ∈ l.allocator.retiredRanges)
  held : ∀ x ∈ l.outstanding, x ∉ l.allocator.freeRanges ∧ x ∉ l.allocator.retiredRanges

variable {l : Ledger} {first count x : ℕ}

theorem mem_pages : x ∈ pages first count ↔ first ≤ x ∧ x < first + count := Finset.mem_Ico

theorem mem_pagesOf {ranges : List (ℕ × ℕ)} :
    x ∈ pagesOf ranges ↔ ∃ r ∈ ranges, r.1 ≤ x ∧ x < r.1 + r.2 := by
  induction ranges with
  | nil => simp [pagesOf]
  | cons r ranges ih =>
      rw [pagesOf, List.foldr_cons, Finset.mem_union, mem_pages]
      simp only [List.mem_cons, exists_eq_or_imp]
      exact or_congr_right ih

/-- Pages that leave the free set are outstanding. -/
theorem Divided.takeOut (h : l.Divided) {free' : RangeMap}
    (hin : ∀ x, first ≤ x → x < first + count → x ∈ l.allocator.freeRanges)
    (hmem : ∀ x, x ∈ free' ↔ x ∈ l.allocator.freeRanges ∧ ¬(first ≤ x ∧ x < first + count)) :
    Divided { l with
      allocator := { l.allocator with freeRanges := free' }
      outstanding := l.outstanding ∪ pages first count } where
  partition := by
    intro x
    rw [h.partition, hmem, Finset.mem_union, mem_pages]
    have := hin x
    tauto
  not_both := by
    rintro x ⟨hf, hr⟩
    exact h.not_both x ⟨((hmem x).mp hf).1, hr⟩
  held := by
    intro x hx
    rw [Finset.mem_union, mem_pages] at hx
    rw [hmem]
    rcases hx with hx | hx
    · obtain ⟨hf, hr⟩ := h.held x hx
      exact ⟨fun hin => hf hin.1, hr⟩
    · exact ⟨fun hin => hin.2 hx, fun hr => h.not_both x ⟨hin x hx.1 hx.2, hr⟩⟩

/-- Outstanding pages may become free. -/
theorem Divided.giveBack (h : l.Divided) {free' : RangeMap}
    (hout : pages first count ⊆ l.outstanding)
    (hmem : ∀ x, x ∈ free' ↔ (first ≤ x ∧ x < first + count) ∨ x ∈ l.allocator.freeRanges) :
    Divided { l with
      allocator := { l.allocator with freeRanges := free' }
      outstanding := l.outstanding \ pages first count } where
  partition := by
    intro x
    have hx : first ≤ x ∧ x < first + count → x ∈ l.outstanding := fun hx =>
      hout (mem_pages.mpr hx)
    rw [h.partition, hmem, Finset.mem_sdiff, mem_pages]
    tauto
  not_both := by
    rintro x ⟨hf, hr⟩
    rcases (hmem x).mp hf with hx | hx
    · exact (h.held x (hout (mem_pages.mpr hx))).2 hr
    · exact h.not_both x ⟨hx, hr⟩
  held := by
    intro x hx
    rw [Finset.mem_sdiff, mem_pages] at hx
    obtain ⟨hf, hr⟩ := h.held x hx.1
    rw [hmem]
    exact ⟨fun hin => hin.elim hx.2 hf, hr⟩

/-- Outstanding pages may be retired. -/
theorem Divided.setAside (h : l.Divided) {retired' : RangeMap}
    (hout : pages first count ⊆ l.outstanding)
    (hmem : ∀ x, x ∈ retired' ↔
      (first ≤ x ∧ x < first + count) ∨ x ∈ l.allocator.retiredRanges) :
    Divided { l with
      allocator := { l.allocator with retiredRanges := retired' }
      outstanding := l.outstanding \ pages first count } where
  partition := by
    intro x
    have hx : first ≤ x ∧ x < first + count → x ∈ l.outstanding := fun hx =>
      hout (mem_pages.mpr hx)
    rw [h.partition, hmem, Finset.mem_sdiff, mem_pages]
    tauto
  not_both := by
    rintro x ⟨hf, hr⟩
    rcases (hmem x).mp hr with hx | hx
    · exact (h.held x (hout (mem_pages.mpr hx))).1 hf
    · exact h.not_both x ⟨hf, hx⟩
  held := by
    intro x hx
    rw [Finset.mem_sdiff, mem_pages] at hx
    obtain ⟨hf, hr⟩ := h.held x hx.1
    rw [hmem]
    exact ⟨hf, fun hin => hin.elim hx.2 hr⟩

/-- What a range map answers when pages are put into it that it does not have. -/
theorem mem_of_insertCoalesced {m m' : RangeMap}
    (hm : m.insertCoalesced kPhysicalPageCount first count = some m')
    (hout : ∀ x, first ≤ x → x < first + count → x ∉ m) (x : ℕ) :
    x ∈ m' ↔ (first ≤ x ∧ x < first + count) ∨ x ∈ m := by
  have hc : 0 < count := by
    by_contra hc
    rw [RangeMap.insertCoalesced, dif_neg hc] at hm
    cases hm
  have hl : first + count ≤ kPhysicalPageCount := by
    by_contra hl
    rw [RangeMap.insertCoalesced, dif_pos hc, if_pos (by omega)] at hm
    cases hm
  obtain ⟨m'', hm'', hmem⟩ := RangeMap.mem_insertCoalesced _ m first hc hl hout
  obtain rfl : m'' = m' := Option.some.inj (hm''.symm.trans hm)
  exact hmem x

/-- **A call keeps the division.** -/
theorem Divided.step (h : l.Divided) (call : AllocatorCall) (hallowed : l.Allowed call) :
    (l.step call).1.Divided := by
  cases call with
  | reset first count =>
      exact ⟨fun x => by simp [Ledger.step, PhysicalRangeAllocator.reset, mem_pages],
        fun x => by simp [Ledger.step, PhysicalRangeAllocator.reset], nofun⟩
  | allocate count alignment topDown minimum maximum =>
      rw [Ledger.step]
      split
      · exact h
      · next first allocator hres =>
          obtain ⟨⟨first', free'⟩, hquiet, heq⟩ := Option.map_eq_some_iff.mp hres
          obtain ⟨rfl, rfl⟩ := Prod.mk.inj heq
          have hbit : hasSingleBit alignment = true := by
            rw [allocateQuietly] at hquiet
            split_ifs at hquiet with hbad
            rw [not_or, not_or, not_or, not_or] at hbad
            simpa using hbad.2.2.1
          obtain ⟨-, -, -, -, hin, hmem⟩ := mem_allocateQuietly
            (AddressSpace.le_of_hasSingleBit hbit hallowed) hquiet
          exact h.takeOut hin hmem
  | claim first count =>
      rw [Ledger.step]
      split
      · exact h
      · next allocator hres =>
          obtain ⟨free', hclaim, rfl⟩ := Option.map_eq_some_iff.mp hres
          have hcontains : l.allocator.freeRanges.contains first count = true := by
            by_contra hno
            rw [RangeMap.claim, if_neg hno] at hclaim
            cases hclaim
          obtain ⟨hc, hin⟩ := RangeMap.contains_iff_forall_mem.mp hcontains
          obtain ⟨free'', hfree, hmem⟩ := RangeMap.mem_claim hc hin
          obtain rfl : free'' = free' := Option.some.inj (hfree.symm.trans hclaim)
          exact h.takeOut hin hmem
  | release first count =>
      rw [Ledger.step]
      split
      · exact h
      · next allocator hres =>
          obtain ⟨free', hinsert, rfl⟩ := Option.map_eq_some_iff.mp hres
          refine h.giveBack hallowed (mem_of_insertCoalesced hinsert fun x h₁ h₂ => ?_)
          exact (h.held x (hallowed (mem_pages.mpr ⟨h₁, h₂⟩))).1
  | retire first count =>
      rw [Ledger.step]
      split
      · exact h
      · next allocator hres =>
          obtain ⟨retired', hinsert, rfl⟩ := Option.map_eq_some_iff.mp hres
          refine h.setAside hallowed (mem_of_insertCoalesced hinsert fun x h₁ h₂ => ?_)
          exact (h.held x (hallowed (mem_pages.mpr ⟨h₁, h₂⟩))).2
  | takeRetiredRanges =>
      have htaken : ∀ x, x ∈ pagesOf l.allocator.retiredRanges.ranges ↔
          x ∈ l.allocator.retiredRanges := fun x => mem_pagesOf
      refine ⟨fun x => ?_, fun x hx => RangeMap.not_mem_empty x hx.2, fun x hx => ?_⟩
      · simp only [Ledger.step, PhysicalRangeAllocator.takeRetiredRanges, Finset.mem_union, htaken,
          RangeMap.not_mem_empty, false_or]
        rw [h.partition]
        tauto
      · refine ⟨fun hf => ?_, RangeMap.not_mem_empty x⟩
        simp only [Ledger.step, PhysicalRangeAllocator.takeRetiredRanges, Finset.mem_union,
          htaken] at hx hf
        rcases hx with hx | hx
        · exact (h.held x hx).1 hf
        · exact h.not_both x ⟨hf, hx⟩

/-- The division, and the exact answers that come with it. -/
theorem Divided.kept (h : l.Divided) : l.Kept where
  free_coalesced := l.allocator.freeRanges.separated
  retired_coalesced := l.allocator.retiredRanges.separated
  partition := h.partition
  not_both := h.not_both
  held := h.held
  allocate_iff := fun _ _ topDown _ _ hc hbit hlt hmax =>
    (l.allocator.allocate_spec hc hbit hlt hmax topDown).1
  allocate_best := fun _ _ topDown _ _ p a hc hbit hlt hmax =>
    (l.allocator.allocate_spec hc hbit hlt hmax topDown).2 p a
  contains_iff := by
    intro first count hc
    rw [PhysicalRangeAllocator.containsFree, RangeMap.contains_iff_forall_mem]
    simp only [mem_pages, and_imp]
    exact and_iff_right hc

/-- **The allocator does not remember its calls.**  Two sequences of calls after
which the same pages of the same reset are outstanding, and the same are retired,
leave one and the same allocator: what was split and joined on the way leaves no
trace. -/
theorem run_allocator_unique (calls calls' : List AllocatorCall) (h : Along step Allowed {} calls)
    (h' : Along step Allowed {} calls')
    (hinitial : (run step {} calls).initial = (run step {} calls').initial)
    (houtstanding : (run step {} calls).outstanding = (run step {} calls').outstanding)
    (hretired : ∀ x, x ∈ (run step {} calls).allocator.retiredRanges ↔
      x ∈ (run step {} calls').allocator.retiredRanges) :
    (run step {} calls).allocator = (run step {} calls').allocator := by
  have hstart : Divided {} := ⟨by simp, by simp, nofun⟩
  have hdivided := invariant_along (fun _ call h hcall => h.step call hcall) _ calls hstart h
  have hdivided' := invariant_along (fun _ call h hcall => h.step call hcall) _ calls' hstart h'
  have hfree : ∀ l : Ledger, l.Divided → ∀ x, x ∈ l.allocator.freeRanges ↔
      x ∈ l.initial ∧ x ∉ l.allocator.retiredRanges ∧ x ∉ l.outstanding := by
    intro l hl x
    have hx := hl.partition x
    have hboth := hl.not_both x
    have hheld := hl.held x
    tauto
  have hfreeRanges : (run step {} calls).allocator.freeRanges =
      (run step {} calls').allocator.freeRanges :=
    RangeMap.eq_of_mem_iff fun x => by
      rw [hfree _ hdivided, hfree _ hdivided', hinitial, houtstanding, hretired]
  exact congrArg₂ PhysicalRangeAllocator.mk hfreeRanges (RangeMap.eq_of_mem_iff hretired)

/-- Pages taken from both ends and given back in pieces leave the allocator of the
reset. -/
theorem run_allocator_unique_bothEnds :
    (run step {} [.reset 4 12, .allocate 4 2 false 0 16, .allocate 2 2 true 0 16,
      .release 6 1, .release 14 2, .release 4 2, .release 7 1]).allocator =
      (run step {} [.reset 4 12]).allocator :=
  run_allocator_unique _ _ (by decide) (by decide) rfl (by decide) fun _ => Iff.rfl

end Ledger
end Memory
end XenonRecomp
