/-
# The kernel pool

`KernelPool` of pool.cpp.  A request of at most `kSmallLimit` bytes is cut out of
an arena, with a header before its payload; a larger one is a range of its own.
Arenas and large blocks come from `allocate_virtual` of the kernel memory, and
each call is given its answers (`Backing`): a range that is not fresh counts as no
range.  An arena of the pool is kept until `release_all`.
-/

import XenonRecomp.Kernel.PoolArena

namespace XenonRecomp
namespace Kernel

open Library.Tiling

namespace KernelPool

/-- `kSmallLimit`. -/
abbrev smallLimit : ℕ := 0xFD8

/-- `kHeaderSize`. -/
abbrev headerSize : ℕ := 8

/-- `kPoolMarker`. -/
def poolMarker : BitVec 8 := 0xAA

/-- `align_up`. -/
def alignUp (value alignment : ℕ) : ℕ :=
  (value + alignment - 1) / alignment * alignment

structure Arena where
  base : ℕ
  freeRuns : Runs
deriving DecidableEq, Repr

structure Allocation where
  arena : ℕ
  blockOffset : ℕ
  blockSize : ℕ
  requested : ℕ
  large : Bool
deriving DecidableEq, Repr

/-- How the kernel memory answers one call: the base of the range that
`allocate_virtual` finds, and whether `free_virtual` takes a range back. -/
structure Backing where
  range : Option ℕ
  release : ℕ → Bool

end KernelPool

/-- The pool, with the ranges of the kernel memory that it holds and the bytes of
guest memory. -/
structure KernelPool where
  arenas : List KernelPool.Arena
  allocations : AList fun _ : ℕ => KernelPool.Allocation
  ranges : AList fun _ : ℕ => ℕ
  bytes : ℕ → BitVec 8

namespace KernelPool

variable (s : KernelPool)

/-- Nothing is allocated. -/
def init : KernelPool :=
  ⟨[], ∅, ∅, fun _ => 0⟩

/-! ### Guest memory -/

/-- `write8`. -/
def write8 (address : ℕ) (value : BitVec 8) : KernelPool :=
  { s with bytes := Function.update s.bytes address value }

/-- `write32_be`. -/
def write32Be (address : ℕ) (value : BitVec 32) : KernelPool :=
  (((s.write8 address (value.extractLsb' 24 8)).write8 (address + 1)
    (value.extractLsb' 16 8)).write8 (address + 2) (value.extractLsb' 8 8)).write8
      (address + 3) (value.extractLsb' 0 8)

/-- A range that `allocate_virtual` may find: at a multiple of 64 KiB, within the
address space, and apart from the others. -/
def Fresh (base size : ℕ) : Prop :=
  0x10000 ∣ base ∧ base + size ≤ 2 ^ 32 ∧
    ∀ entry ∈ s.ranges.entries, base + size ≤ entry.1 ∨ entry.1 + entry.2 ≤ base

instance (base size : ℕ) : Decidable (s.Fresh base size) :=
  inferInstanceAs (Decidable (_ ∧ _ ∧ ∀ entry ∈ s.ranges.entries, _))

/-- `allocate_virtual`, of a range of zeros. -/
def allocateVirtual (b : Backing) (size : ℕ) : Option (KernelPool × ℕ) :=
  match b.range with
  | none => none
  | some base =>
    if s.Fresh base size then
      some ({ s with
        ranges := s.ranges.insert base size
        bytes := fun x => if base ≤ x ∧ x < base + size then 0 else s.bytes x }, base)
    else none

/-- `free_virtual`. -/
def freeVirtual (b : Backing) (base : ℕ) : Option KernelPool :=
  if b.release base then some { s with ranges := s.ranges.erase base } else none

/-! ### Blocks -/

/-- `add_arena_locked`. -/
def addArena (b : Backing) : Option KernelPool :=
  match s.allocateVirtual b arenaSize with
  | none => none
  | some (s, base) => some { s with arenas := s.arenas ++ [⟨base, [(0, arenaSize)]⟩] }

/-- The first run of the first arena that is large enough, with the arena's index. -/
def firstFit (need : ℕ) : List Arena → Option (ℕ × ℕ × ℕ)
  | [] => none
  | arena :: rest =>
    match arena.freeRuns.find? fun run => need ≤ run.2 with
    | some run => some (0, run)
    | none => (firstFit need rest).map fun (index, run) => (index + 1, run)

/-- One pass of the loop of `allocate_small_locked` over the arenas. -/
def takeFirstFit (size need : ℕ) (tag : BitVec 32) : Option (KernelPool × ℕ) :=
  match firstFit need s.arenas with
  | none => none
  | some (index, run) =>
    match s.arenas[index]? with
    | none => none
    | some arena =>
      let arena' := { arena with freeRuns := takeRun need run arena.freeRuns }
      let s := { s with arenas := s.arenas.set index arena' }
      let block := arena.base + run.1
      let s := ((s.write32Be block 0).write8 (block + 2) poolMarker).write32Be (block + 4) tag
      let payload := block + headerSize
      some ({ s with
        allocations := s.allocations.insert payload ⟨index, run.1, need, size, false⟩ }, payload)

/-- `allocate_small_locked`; 0 if it fails. -/
def allocateSmall (b : Backing) (size : ℕ) (tag : BitVec 32) : KernelPool × ℕ :=
  let need := alignUp (size + headerSize) blockAlignment
  match s.takeFirstFit size need tag with
  | some taken => taken
  | none =>
    match s.addArena b with
    | none => (s, 0)
    | some s => (s.takeFirstFit size need tag).getD (s, 0)

/-- `allocate_large_locked`; 0 if it fails. -/
def allocateLarge (b : Backing) (size : ℕ) : KernelPool × ℕ :=
  match s.allocateVirtual b size with
  | none => (s, 0)
  | some (s, base) =>
    ({ s with allocations := s.allocations.insert base ⟨0, 0, size, size, true⟩ }, base)

/-- `allocate`. -/
def allocate (b : Backing) (size : ℕ) (tag : BitVec 32) : KernelPool × ℕ :=
  if size ≤ smallLimit then s.allocateSmall b size tag else s.allocateLarge b size

/-- `free`. -/
def free (b : Backing) (address : ℕ) : KernelPool × Bool :=
  if address = 0 then (s, true)
  else
    match s.allocations.lookup address with
    | none => (s, false)
    | some allocation =>
      if allocation.large then
        match s.freeVirtual b address with
        | none => (s, false)
        | some s => ({ s with allocations := s.allocations.erase address }, true)
      else
        let s := s.write8 (address - headerSize + 2) 0
        let give (arena : Arena) : Arena :=
          { arena with
            freeRuns := returnRun arena.freeRuns allocation.blockOffset allocation.blockSize }
        let s := { s with arenas := s.arenas.modify allocation.arena give }
        ({ s with allocations := s.allocations.erase address }, true)

/-- `usable_size`. -/
def usableSize (address : ℕ) : ℕ :=
  match s.allocations.lookup address with
  | none => 0
  | some allocation =>
    if allocation.large then allocation.requested else allocation.blockSize - headerSize

/-! ### The invariant -/

variable {s}

/-- The blocks of an arena. -/
def blocksOf (allocations : AList fun _ : ℕ => Allocation) (index : ℕ) : List (ℕ × ℕ) :=
  allocations.entries.filterMap fun entry =>
    if entry.2.large = false ∧ entry.2.arena = index then
      some (entry.2.blockOffset, entry.2.blockSize)
    else none

/-- Where a block is. -/
structure Placed (s : KernelPool) (address : ℕ) (allocation : Allocation) : Prop where
  large : allocation.large = true → s.ranges.lookup address = some allocation.blockSize ∧
    allocation.requested = allocation.blockSize ∧
    ∀ (index : ℕ) (arena : Arena), s.arenas[index]? = some arena → arena.base ≠ address
  small : allocation.large = false → ∃ arena : Arena, s.arenas[allocation.arena]? = some arena ∧
    address = arena.base + allocation.blockOffset + headerSize ∧
    allocation.requested + headerSize ≤ allocation.blockSize ∧
    blockAlignment ∣ allocation.blockSize

/-- The tables of the pool are in order. -/
structure Sound (s : KernelPool) : Prop where
  tiled : ∀ (index : ℕ) (arena : Arena), s.arenas[index]? = some arena →
    Tiled arena.freeRuns (blocksOf s.allocations index)
  placed : ∀ address allocation, s.allocations.lookup address = some allocation →
    s.Placed address allocation
  backed : ∀ (index : ℕ) (arena : Arena), s.arenas[index]? = some arena →
    s.ranges.lookup arena.base = some arenaSize
  distinct : ∀ (index index' : ℕ) (arena arena' : Arena), s.arenas[index]? = some arena →
    s.arenas[index']? = some arena' → arena.base = arena'.base → index = index'
  ranges : ∀ base size, s.ranges.lookup base = some size →
    0x10000 ∣ base ∧ 0 < size ∧ base + size ≤ 2 ^ 32
  apart : ∀ base base' size size', s.ranges.lookup base = some size →
    s.ranges.lookup base' = some size' → base ≠ base' →
    base + size ≤ base' ∨ base' + size' ≤ base

theorem Sound.init : init.Sound where
  tiled := fun index arena h => absurd h (by simp [KernelPool.init])
  placed := fun address allocation h => by
    rw [KernelPool.init, AList.lookup_empty] at h
    cases h
  backed := fun index arena h => absurd h (by simp [KernelPool.init])
  distinct := fun index index' arena arena' h => absurd h (by simp [KernelPool.init])
  ranges := fun base size h => by
    rw [KernelPool.init, AList.lookup_empty] at h
    cases h
  apart := fun base base' size size' h => by
    rw [KernelPool.init, AList.lookup_empty] at h
    cases h

/-- The bytes of guest memory do not matter. -/
theorem Sound.withBytes (h : s.Sound) (bytes : ℕ → BitVec 8) : { s with bytes }.Sound :=
  ⟨h.tiled, fun address allocation hlive =>
    ⟨(h.placed address allocation hlive).large, (h.placed address allocation hlive).small⟩,
    h.backed, h.distinct, h.ranges, h.apart⟩

/-! ### The blocks of an arena -/

section Blocks

variable {allocations : AList fun _ : ℕ => Allocation} {address index : ℕ}
  {allocation : Allocation}

theorem blocksOf_insert (hfresh : allocations.lookup address = none) (index : ℕ) :
    blocksOf (allocations.insert address allocation) index =
      if allocation.large = false ∧ allocation.arena = index then
        (allocation.blockOffset, allocation.blockSize) :: blocksOf allocations index
      else blocksOf allocations index := by
  have hentries : (allocations.insert address allocation).entries =
      ⟨address, allocation⟩ :: (allocations.erase address).entries := AList.entries_insert
  rw [blocksOf, hentries, erase_of_lookup_none hfresh, List.filterMap_cons]
  dsimp only
  split_ifs <;> rfl

/-- The block of an entry stands before the others. -/
theorem blocksOf_perm (h : allocations.lookup address = some allocation) (index : ℕ) :
    (blocksOf allocations index).Perm
      (if allocation.large = false ∧ allocation.arena = index then
        (allocation.blockOffset, allocation.blockSize) :: blocksOf (allocations.erase address) index
      else blocksOf (allocations.erase address) index) := by
  have hperm := (perm_of_lookup h).filterMap fun entry : Sigma fun _ : ℕ => Allocation =>
    if entry.2.large = false ∧ entry.2.arena = index then
      some (entry.2.blockOffset, entry.2.blockSize) else none
  refine hperm.trans (.of_eq ?_)
  rw [List.filterMap_cons]
  dsimp only
  split_ifs <;> rfl

theorem mem_blocksOf (h : allocations.lookup address = some allocation)
    (hsmall : allocation.large = false) :
    (allocation.blockOffset, allocation.blockSize) ∈ blocksOf allocations allocation.arena := by
  refine (blocksOf_perm h allocation.arena).mem_iff.mpr ?_
  rw [if_pos ⟨hsmall, rfl⟩]
  exact List.mem_cons_self

end Blocks

end KernelPool

end Kernel
end XenonRecomp
