/-
# The guest heap

`GuestHeapManager` of `src/kernel/memory/heap.cpp`.  Small blocks are cut out of
segments of 1 MiB, which belong to one heap handle each; the free runs of a
heap stand in two tables, by address and by size.  A block above 256 KiB is an
allocation of its own, and stays one when it shrinks.

Segments and large blocks come from the virtual allocator.  Each call is given
its answers (`Backing`): whether and where it finds a range, and whether the
other operations of the guest memory succeed.  A range that is not fresh counts
as no range, since the allocator hands out fresh ones only.  A table is the list
of its entries; where the code asks for an order, the greatest or least entry
is taken.  Addresses are `uint32_t`, and where a sum can leave them, it wraps.
-/

import XenonRecomp.Library.Tiling
import Mathlib.Data.List.MinMax
import Mathlib.Data.Prod.Lex

namespace XenonRecomp
namespace Kernel

open Library.Tiling

/-- `kHeapZeroMemory`. -/
def heapZeroMemory : BitVec 32 := 0x00000008

/-- `kSegmentSize`. -/
abbrev segmentSize : ℕ := 0x100000

/-- `kLargeThreshold`. -/
abbrev largeThreshold : ℕ := 0x40000

/-- `align_block`: the next multiple of `kBlockAlignment`. -/
def alignBlock (size : ℕ) : ℕ :=
  (size + 15) / 16 * 16

/-- `Allocation`.  A block of its own has segment base 0. -/
structure Allocation where
  heapHandle : ℕ
  requestedSize : ℕ
  blockSize : ℕ
  segmentBase : ℕ
deriving DecidableEq, Repr

structure Segment where
  size : ℕ
  usedBytes : ℕ
deriving DecidableEq, Repr

structure FreeRun where
  size : ℕ
  segmentBase : ℕ
deriving DecidableEq, Repr

/-- A table with addresses as keys. -/
abbrev Table (α : Type) : Type := AList fun _ : ℕ => α

/-- `emplace`: a key that is there stays as it is. -/
def emplace {α : Type} (m : Table α) (key : ℕ) (value : α) : Table α :=
  if (m.lookup key).isSome then m else m.insert key value

/-- A change of the value of a key, through `operator[]`. -/
def modifyAt {α : Type} (m : Table α) (key : ℕ) (default : α) (f : α → α) : Table α :=
  m.insert key (f ((m.lookup key).getD default))

/-- `Heap`; the runs by size are pairs of a size and an address. -/
structure Heap where
  segments : Table Segment
  runsByAddress : Table FreeRun
  runsBySize : List (ℕ × ℕ)

/-- A heap that was just created. -/
def Heap.empty : Heap :=
  ⟨∅, ∅, []⟩

namespace Heap

variable (heap : Heap)

/-- `erase_run_locked`. -/
def eraseRun (address : ℕ) (run : FreeRun) : Heap :=
  { heap with
    runsByAddress := heap.runsByAddress.erase address
    runsBySize := heap.runsBySize.filter (· ≠ (run.size, address)) }

/-- The run with the greatest address below this one. -/
def previousRun (address : ℕ) : Option (Sigma fun _ : ℕ => FreeRun) :=
  (heap.runsByAddress.entries.filter fun entry => entry.1 < address).argmax fun entry => entry.1

/-- The first half of `insert_run_locked`: join with the run before. -/
def joinPrevious (address : ℕ) (run : FreeRun) : Heap × ℕ × FreeRun :=
  match heap.previousRun address with
  | none => (heap, address, run)
  | some ⟨previous, before⟩ =>
      if before.segmentBase = run.segmentBase ∧ previous + before.size = address then
        (heap.eraseRun previous before, previous, { run with size := run.size + before.size })
      else (heap, address, run)

/-- The second half: join with the run after. -/
def joinNext (address : ℕ) (run : FreeRun) : Heap × FreeRun :=
  match heap.runsByAddress.lookup ((address + run.size) % 2 ^ 32) with
  | none => (heap, run)
  | some after =>
      if after.segmentBase = run.segmentBase then
        (heap.eraseRun ((address + run.size) % 2 ^ 32) after,
          { run with size := run.size + after.size })
      else (heap, run)

/-- `insert_run_locked`. -/
def insertRun (address : ℕ) (run : FreeRun) : Heap :=
  let (heap, address, run) := heap.joinPrevious address run
  let (heap, run) := heap.joinNext address run
  { heap with
    runsByAddress := emplace heap.runsByAddress address run
    runsBySize :=
      if (run.size, address) ∈ heap.runsBySize then heap.runsBySize
      else (run.size, address) :: heap.runsBySize }

/-- `runs_by_size.lower_bound({need, 0})`: the smallest run that is large enough. -/
def bestFit (need : ℕ) : Option (ℕ × ℕ) :=
  (heap.runsBySize.filter fun run => need ≤ run.1).argmin fun run => toLex run

/-- Changes the used bytes of a segment. -/
def useBytes (base : ℕ) (f : ℕ → ℕ) : Heap :=
  { heap with
    segments := modifyAt heap.segments base ⟨0, 0⟩ fun segment =>
      { segment with usedBytes := f segment.usedBytes } }

end Heap

/-- The heap manager, with the ranges of the virtual allocator and the bytes of guest
memory. -/
structure GuestHeapManager where
  allocations : Table Allocation
  heaps : ℕ → Heap
  ranges : Table ℕ
  bytes : ℕ → BitVec 8

/-- How the guest memory answers one call. -/
structure Backing where
  /-- The range that `allocate_virtual` finds: its base and size. -/
  range : Option (ℕ × ℕ)
  /-- What a range holds that is not zeroed. -/
  contents : ℕ → BitVec 8
  /-- `query_virtual` knows the new range. -/
  known : Bool
  /-- `free_virtual` takes a range back. -/
  release : ℕ → Bool
  /-- `read_bytes` and `write_bytes` succeed. -/
  copies : Bool

namespace GuestHeapManager

variable (s : GuestHeapManager)

/-- Nothing is allocated. -/
def init : GuestHeapManager :=
  ⟨∅, fun _ => .empty, ∅, fun _ => 0⟩

/-- One heap changes. -/
def setHeap (handle : ℕ) (heap : Heap) : GuestHeapManager :=
  { s with heaps := Function.update s.heaps handle heap }

/-! ### Guest memory -/

/-- A range that `allocate_virtual` may find: of the size asked for, at a multiple of
64 KiB other than 0, within the address space, and apart from all others. -/
def Fresh (size : ℕ) (range : ℕ × ℕ) : Prop :=
  0 < range.1 ∧ 0x10000 ∣ range.1 ∧ size ≤ range.2 ∧ range.1 + range.2 ≤ 2 ^ 32 ∧
    ∀ entry ∈ s.ranges.entries,
      range.1 + range.2 ≤ entry.1 ∨ entry.1 + entry.2 ≤ range.1

instance (size : ℕ) (range : ℕ × ℕ) : Decidable (s.Fresh size range) :=
  inferInstanceAs (Decidable (_ ∧ _ ∧ _ ∧ _ ∧ ∀ entry ∈ s.ranges.entries, _))

/-- `allocate_virtual`. -/
def allocateVirtual (b : Backing) (size : ℕ) (zeroInitialize : Bool) :
    Option (GuestHeapManager × ℕ × ℕ) :=
  match b.range with
  | none => none
  | some range =>
      if s.Fresh size range then
        some ({ s with
          ranges := s.ranges.insert range.1 range.2
          bytes := fun x =>
            if range.1 ≤ x ∧ x < range.1 + range.2 then
              if zeroInitialize then 0 else b.contents x
            else s.bytes x }, range)
      else none

/-- `free_virtual`. -/
def freeVirtual (b : Backing) (base : ℕ) : Option GuestHeapManager :=
  if b.release base then some { s with ranges := s.ranges.erase base } else none

/-- `fill_bytes` with zero. -/
def fillZero (address size : ℕ) : GuestHeapManager :=
  { s with bytes := fun x => if address ≤ x ∧ x < address + size then 0 else s.bytes x }

/-- `read_bytes` of one range and `write_bytes` of them to another. -/
def copyBytes (source destination size : ℕ) : GuestHeapManager :=
  { s with
    bytes := fun x =>
      if destination ≤ x ∧ x < destination + size then s.bytes (source + (x - destination))
      else s.bytes x }

/-! ### Blocks -/

/-- `normalize_heap_handle`. -/
def normalizeHeapHandle (handle : ℕ) : ℕ :=
  if handle = 0 then 1 else handle

/-- `HEAP_ZERO_MEMORY` is set. -/
def zeroes (flags : BitVec 32) : Bool :=
  flags &&& heapZeroMemory ≠ 0

/-- `allocate_large_locked`; 0 if it fails. -/
def allocateLarge (b : Backing) (handle : ℕ) (flags : BitVec 32) (size : ℕ) :
    GuestHeapManager × ℕ :=
  match s.allocateVirtual b size (zeroes flags) with
  | none => (s, 0)
  | some (s, address, rangeSize) =>
      if b.known then
        ({ s with allocations := emplace s.allocations address ⟨handle, size, rangeSize, 0⟩ },
          address)
      else ((s.freeVirtual b address).getD s, 0)

/-- `add_segment_locked`. -/
def addSegment (b : Backing) (handle : ℕ) : Option GuestHeapManager :=
  match s.allocateVirtual b segmentSize true with
  | none => none
  | some (s, base, _) =>
      let heap := s.heaps handle
      some (s.setHeap handle
        ({ heap with segments := emplace heap.segments base ⟨segmentSize, 0⟩ }.insertRun base
          ⟨segmentSize, base⟩))

/-- Takes a block of `need` bytes out of the run at this address. -/
def takeRun (handle : ℕ) (flags : BitVec 32) (size need address : ℕ) (run : FreeRun) :
    GuestHeapManager × ℕ :=
  let heap := (s.heaps handle).eraseRun address run
  let heap :=
    if run.size > need then
      heap.insertRun (address + need) ⟨run.size - need, run.segmentBase⟩
    else heap
  let s := s.setHeap handle (heap.useBytes run.segmentBase (· + need))
  let s := if zeroes flags then s.fillZero address need else s
  ({ s with allocations := emplace s.allocations address ⟨handle, size, need, run.segmentBase⟩ },
    address)

/-- The end of `allocate_block_locked`: the best fit, if there is one. -/
def takeBestFit (handle : ℕ) (flags : BitVec 32) (size : ℕ) : Option (GuestHeapManager × ℕ) :=
  let need := alignBlock size
  match (s.heaps handle).bestFit need with
  | none => none
  | some (_, address) =>
      match (s.heaps handle).runsByAddress.lookup address with
      | none => none
      | some run => some (s.takeRun handle flags size need address run)

/-- `allocate_block_locked`. -/
def allocateBlock (b : Backing) (handle : ℕ) (flags : BitVec 32) (size : ℕ) :
    GuestHeapManager × ℕ :=
  match s.takeBestFit handle flags size with
  | some result => result
  | none =>
      match s.addSegment b handle with
      | none => (s, 0)
      | some s => (s.takeBestFit handle flags size).getD (s, 0)

/-- `allocate_locked`. -/
def allocateLocked (b : Backing) (handle : ℕ) (flags : BitVec 32) (size : ℕ) :
    GuestHeapManager × ℕ :=
  let requested := max size 1
  if requested > largeThreshold then s.allocateLarge b handle flags requested
  else s.allocateBlock b handle flags requested

/-- `allocate`. -/
def allocate (b : Backing) (handle : ℕ) (flags : BitVec 32) (size : ℕ) :
    GuestHeapManager × ℕ :=
  s.allocateLocked b (normalizeHeapHandle handle) flags size

/-- The end of `free_locked`: a free segment that is not the only one of its heap goes
back to the virtual allocator. -/
def releaseSegment (b : Backing) (handle base : ℕ) : GuestHeapManager :=
  let heap := s.heaps handle
  match heap.segments.lookup base, heap.runsByAddress.lookup base with
  | some segment, some run =>
      if segment.usedBytes = 0 ∧ heap.segments.entries.length > 1 ∧ run.size = segment.size then
        match s.freeVirtual b base with
        | some s =>
            s.setHeap handle
              { heap.eraseRun base run with segments := heap.segments.erase base }
        | none => s
      else s
  | _, _ => s

/-- `free_locked`. -/
def freeLocked (b : Backing) (address : ℕ) : GuestHeapManager × Bool :=
  match s.allocations.lookup address with
  | none => (s, false)
  | some allocation =>
      if allocation.segmentBase = 0 then
        match s.freeVirtual b address with
        | none => (s, false)
        | some s => ({ s with allocations := s.allocations.erase address }, true)
      else
        let heap := (s.heaps allocation.heapHandle).insertRun address
          ⟨allocation.blockSize, allocation.segmentBase⟩
        let s := { s with allocations := s.allocations.erase address }.setHeap
          allocation.heapHandle
          (heap.useBytes allocation.segmentBase (· - allocation.blockSize))
        (s.releaseSegment b allocation.heapHandle allocation.segmentBase, true)

/-- `free`. -/
def free (b : Backing) (handle address : ℕ) : GuestHeapManager × Bool :=
  if address = 0 then (s, true)
  else
    match s.allocations.lookup address with
    | none => (s, false)
    | some allocation =>
        if allocation.heapHandle ≠ normalizeHeapHandle handle then (s, false)
        else s.freeLocked b address

/-- `zero_growth` in the block at this address. -/
def zeroGrowth (flags : BitVec 32) (old requested address : ℕ) : GuestHeapManager :=
  if zeroes flags ∧ requested > old then s.fillZero (address + old) (requested - old) else s

/-- A block in place gets another size. -/
def resize (address : ℕ) (allocation : Allocation) (requested blockSize : ℕ) :
    GuestHeapManager :=
  { s with
    allocations := s.allocations.insert address
      { allocation with requestedSize := requested, blockSize } }

/-- The part of `reallocate` for blocks of segments that stay where they are. -/
def reallocateInPlace (flags : BitVec 32) (address : ℕ) (old : Allocation) (requested : ℕ) :
    Option GuestHeapManager :=
  let heap := s.heaps old.heapHandle
  let need := alignBlock requested
  if need ≤ old.blockSize then
    let s :=
      if need < old.blockSize then
        s.setHeap old.heapHandle
          ((heap.insertRun (address + need) ⟨old.blockSize - need, old.segmentBase⟩).useBytes
            old.segmentBase (· - (old.blockSize - need)))
      else s
    some ((s.resize address old requested need).zeroGrowth flags old.requestedSize requested
      address)
  else
    let extra := need - old.blockSize
    let next := (address + old.blockSize) % 2 ^ 32
    match heap.runsByAddress.lookup next with
    | none => none
    | some run =>
        if run.segmentBase = old.segmentBase ∧ run.size ≥ extra then
          let heap := heap.eraseRun next run
          let heap :=
            if run.size > extra then
              heap.insertRun (address + need) ⟨run.size - extra, old.segmentBase⟩
            else heap
          let s := s.setHeap old.heapHandle (heap.useBytes old.segmentBase (· + extra))
          some ((s.resize address old requested need).zeroGrowth flags old.requestedSize
            requested address)
        else none

/-- The end of `reallocate`: a new block, the bytes, and the old block freed. -/
def move (b : Backing) (flags : BitVec 32) (address : ℕ) (old : Allocation) (requested : ℕ) :
    GuestHeapManager × ℕ :=
  let (s, new) := s.allocateLocked b old.heapHandle flags requested
  if new = 0 then (s, 0)
  else if b.copies then
    let s := (s.copyBytes address new (min old.requestedSize requested)).zeroGrowth flags
      old.requestedSize requested new
    let (s, freed) := s.freeLocked b address
    if freed then (s, new) else ((s.freeLocked b new).1, 0)
  else ((s.freeLocked b new).1, 0)

/-- `reallocate`. -/
def reallocate (b : Backing) (handle : ℕ) (flags : BitVec 32) (address size : ℕ) :
    GuestHeapManager × ℕ :=
  if address = 0 then s.allocateLocked b (normalizeHeapHandle handle) flags size
  else
    match s.allocations.lookup address with
    | none => (s, 0)
    | some old =>
        let requested := max size 1
        if old.heapHandle ≠ normalizeHeapHandle handle then (s, 0)
        else if old.segmentBase = 0 ∧ requested ≤ old.blockSize then
          ((s.resize address old requested old.blockSize).zeroGrowth flags old.requestedSize
            requested address, address)
        else if old.segmentBase ≠ 0 ∧ requested ≤ largeThreshold then
          match s.reallocateInPlace flags address old requested with
          | some s => (s, address)
          | none => s.move b flags address old requested
        else s.move b flags address old requested

end GuestHeapManager

end Kernel
end XenonRecomp
