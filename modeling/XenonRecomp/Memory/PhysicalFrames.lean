/-
# The physical frames and who owns them

The tables of `AddressSpace` that describe physical memory, and the helpers of
`src/memory/guest/physical/physical_allocation.cpp` and
`physical_page_tracking.hpp` that keep them: the owner of every frame, its
mapping count, its allocation record, the free and the retired ranges of the
range allocator, and the reverse map from a frame to the guest pages that show
it.  A helper that meets a state it holds to be impossible throws
`std::logic_error`; it is an `Except` here, with the source's text.

A frame given up by its owner is retired, not freed: a lock-free reader may
still hold its translation.  `reclaimRetiredPhysicalPages` frees the retired
frames once the readers have drained; whether they have is not a matter of
these tables, so it is an argument (`drained`).
-/

import Mathlib.Data.List.Perm.Basic
import XenonRecomp.Library.RangeMap
import XenonRecomp.Memory.GuestLayout

namespace XenonRecomp
namespace Memory

open Library

/-- The owner of a frame: `kPhysicalFree` to `kPhysicalRetired`. -/
inductive Ownership where
  | free
  | system
  | anonymous
  | explicit
  | anonymousPendingFree
  | retired
deriving DecidableEq, Repr

/-- `PhysicalPageMetadata`, with its defaults; `none` is
`kInvalidPhysicalPage`. -/
structure PhysicalPageMetadata where
  allocationBasePage : Option ℕ := none
  allocationPageCount : ℕ := 0
  allocationPageSize : ℕ := kBasePageSize
  allocationProtect : Protect := Protect.readWrite
  currentProtect : Protect := Protect.readWrite
  explicitAllocation : Bool := false
deriving DecidableEq, Repr

/-- The frame tables: `physical_page_used_`, `physical_mapping_refs_`,
`physical_page_metadata_`, the two range maps of `physical_allocator_` and
`physical_reverse_mappings_`. -/
structure Frames where
  owner : ℕ → Ownership
  refs : ℕ → ℕ
  metadata : ℕ → PhysicalPageMetadata
  free : RangeMap
  retired : RangeMap
  reverse : ℕ → List ℕ

/-- Set the `count` entries of a table from `first` on. -/
def fill {α : Type*} (table : ℕ → α) (first count : ℕ) (value : α) : ℕ → α :=
  fun i => if first ≤ i ∧ i < first + count then value else table i

/-! ### Reverse mappings -/

/-- `PhysicalReverseMappings::remove`: the last guest page takes the place of
the removed one. -/
def swapRemove (guests : List ℕ) (guest : ℕ) : List ℕ :=
  match guests with
  | [] => []
  | g :: gs =>
    if g = guest then
      match gs.getLast? with
      | none => []
      | some back => back :: gs.dropLast
    else g :: swapRemove gs guest

/-- `add_physical_mapping_ref`. -/
def addPhysicalMappingRef (fr : Frames) (frame guest : ℕ) : Except String Frames :=
  if kPhysicalPageCount ≤ frame ∨ kPageCount ≤ guest then
    .error "physical mapping reference out of range"
  else if guest ∈ fr.reverse frame then
    .error "duplicate physical reverse mapping"
  else
    .ok { fr with
      reverse := Function.update fr.reverse frame (fr.reverse frame ++ [guest])
      refs := Function.update fr.refs frame (fr.refs frame + 1) }

/-- `free_physical_page`: the owner gives a frame up.  A frame of the first
16 MiB, or one that is not anonymous, is left alone; one that is still mapped
waits for its last mapping. -/
def freePhysicalPage (fr : Frames) (frame : ℕ) : Except String Frames :=
  if kPhysicalPageCount ≤ frame then .ok fr
  else if frame < kHugePageSize / kBasePageSize then .ok fr
  else if fr.owner frame ≠ .anonymous ∧ fr.owner frame ≠ .anonymousPendingFree then .ok fr
  else if fr.refs frame ≠ 0 then
    .ok { fr with owner := Function.update fr.owner frame .anonymousPendingFree }
  else
    match fr.retired.insertCoalesced kPhysicalPageCount frame 1 with
    | none => .error "physical retired-range overlap"
    | some retired =>
      .ok { fr with owner := Function.update fr.owner frame .retired, retired }

/-- `remove_physical_mapping_ref`. -/
def removePhysicalMappingRef (fr : Frames) (frame guest : ℕ) : Except String Frames :=
  if kPhysicalPageCount ≤ frame ∨ kPageCount ≤ guest ∨ fr.refs frame = 0 then
    .error "invalid physical mapping reference removal"
  else if guest ∉ fr.reverse frame then
    .error "missing physical reverse mapping"
  else
    let fr := { fr with
      reverse := Function.update fr.reverse frame (swapRemove (fr.reverse frame) guest)
      refs := Function.update fr.refs frame (fr.refs frame - 1) }
    if fr.refs frame = 0 ∧ fr.owner frame = .anonymousPendingFree then
      freePhysicalPage fr frame
    else .ok fr

/-! ### Allocation and reclamation -/

/-- One retired range becomes free again. -/
def reclaimRange (fr : Frames) (r : ℕ × ℕ) : Except String Frames :=
  if ∃ i < r.2, fr.owner (r.1 + i) ≠ .retired ∨ fr.refs (r.1 + i) ≠ 0 then
    .error "retired physical range ownership mismatch"
  else
    match fr.free.insertCoalesced kPhysicalPageCount r.1 r.2 with
    | none => .error "physical free-range allocator ownership mismatch"
    | some free =>
      .ok { fr with
        owner := fill fr.owner r.1 r.2 .free
        metadata := fill fr.metadata r.1 r.2 {}
        free }

/-- `reclaim_retired_physical_pages`: with the readers drained, every retired
range becomes free. -/
def reclaimRetiredPhysicalPages (fr : Frames) (drained : Bool) : Except String Frames :=
  if fr.retired.ranges = [] then .ok fr
  else if !drained then .ok fr
  else fr.retired.ranges.foldlM reclaimRange { fr with retired := RangeMap.empty }

/-- `align_page_up`: the sum wraps in 32 bits. -/
def alignPageUp (value alignment : ℕ) : ℕ :=
  (value + alignment - 1) % 2 ^ 32 / alignment * alignment

/-- The first page of `count` aligned free pages of the range `r` between
`minimum` and `maximum`, the lowest or the highest one. -/
def placeIn (count alignment : ℕ) (topDown : Bool) (minimum maximum : ℕ) (r : ℕ × ℕ) :
    Option ℕ :=
  let rangeFirst := max r.1 minimum
  let rangeEnd := min (r.1 + r.2) maximum
  if rangeEnd ≤ rangeFirst then none
  else if topDown then
    if rangeEnd - rangeFirst < count then none
    else
      let candidate := alignDown (rangeEnd - count) alignment
      if candidate < rangeFirst then none else some candidate
  else
    let candidate := alignPageUp rangeFirst alignment
    if rangeEnd < candidate + count then none else some candidate

/-- `PhysicalRangeAllocator::allocate_quietly`. -/
def allocateQuietly (free : RangeMap) (count alignment : ℕ) (topDown : Bool)
    (minimum maximum : ℕ) : Option (ℕ × RangeMap) :=
  if count = 0 ∨ alignment = 0 ∨ hasSingleBit alignment = false ∨ maximum ≤ minimum ∨
      kPhysicalPageCount < maximum then none
  else free.allocate (placeIn count alignment topDown minimum maximum) count topDown

/-- The first frame the `0xE…` view cannot show. -/
def firstPageOutside4KView : ℕ :=
  (kPhysical4KAddressableEndInclusive + 1) / kBasePageSize

/-- `allocate_physical_page`: one frame, from beyond the `0xE…` view if there is
one there; `none` when physical memory is exhausted. -/
def allocatePhysicalPage (fr : Frames) (topDown drained : Bool) :
    Except String (Option ℕ × Frames) := do
  let fr ← reclaimRetiredPhysicalPages fr drained
  match (allocateQuietly fr.free 1 1 topDown firstPageOutside4KView allocatableEndPage).or
      (allocateQuietly fr.free 1 1 topDown 0 kPhysicalPageCount) with
  | none => return (none, fr)
  | some (frame, free) =>
    return (some frame, { fr with owner := Function.update fr.owner frame .anonymous, free })

/-- `reserve_physical_run`. -/
def reservePhysicalRun (fr : Frames) (count alignmentPages : ℕ) (topDown : Bool)
    (minimumPage maximumPageExclusive : ℕ) (drained : Bool) :
    Except String (Option ℕ × Frames) := do
  if count = 0 ∨ kPhysicalPageCount < count ∨ alignmentPages = 0 ∨
      hasSingleBit alignmentPages = false ∨ maximumPageExclusive ≤ minimumPage then
    return (none, fr)
  let fr ← reclaimRetiredPhysicalPages fr drained
  match allocateQuietly fr.free count alignmentPages topDown minimumPage
      maximumPageExclusive with
  | none => return (none, fr)
  | some (first, free) =>
    return (some first, { fr with owner := fill fr.owner first count .explicit, free })

end Memory
end XenonRecomp
