/-
# The layout of the guest heap

`GuestHeapManager.Sound` is what holds of the tables of the heap manager between
calls: every heap fits its blocks, the used bytes are the sizes of the blocks,
and segments and large blocks stand in ranges of the virtual allocator of their
own.  Every operation keeps it.  What an operation does to the blocks it is not
about is said by `Keeps`: they stay, with their bytes.
-/

import XenonRecomp.Kernel.HeapRuns

namespace XenonRecomp
namespace Kernel

open Library.Tiling

/-- The blocks in a segment of a heap. -/
def blockPieces (allocations : Table Allocation) (handle base : ℕ) : List (ℕ × ℕ) :=
  allocations.entries.filterMap fun entry =>
    if entry.2.heapHandle = handle ∧ entry.2.segmentBase = base then
      some (entry.1, entry.2.blockSize)
    else none

section Blocks

variable {allocations : Table Allocation} {address : ℕ} {allocation : Allocation}

/-- A block before the others of its segment. -/
theorem blockPieces_perm (h : allocations.lookup address = some allocation) (base : ℕ) :
    (blockPieces allocations allocation.heapHandle base).Perm
      (Heap.withPiece allocation.segmentBase (address, allocation.blockSize)
        (blockPieces (allocations.erase address) allocation.heapHandle) base) := by
  have hperm := (perm_of_lookup h).filterMap fun entry : Sigma fun _ : ℕ => Allocation =>
    if entry.2.heapHandle = allocation.heapHandle ∧ entry.2.segmentBase = base then
      some (entry.1, entry.2.blockSize) else none
  refine hperm.trans (.of_eq ?_)
  rw [List.filterMap_cons]
  by_cases hbase : base = allocation.segmentBase
  · subst hbase
    rw [Heap.withPiece_self]
    simp only [true_and, if_true]
    rfl
  · rw [Heap.withPiece_of_ne hbase]
    simp only [true_and, if_neg (Ne.symm hbase)]
    rfl

/-- The blocks of other heaps do not mind. -/
theorem blockPieces_erase (h : allocations.lookup address = some allocation) {handle : ℕ}
    (hne : handle ≠ allocation.heapHandle) (base : ℕ) :
    (blockPieces allocations handle base).Perm
      (blockPieces (allocations.erase address) handle base) := by
  have hperm := (perm_of_lookup h).filterMap fun entry : Sigma fun _ : ℕ => Allocation =>
    if entry.2.heapHandle = handle ∧ entry.2.segmentBase = base then
      some (entry.1, entry.2.blockSize) else none
  refine hperm.trans (.of_eq ?_)
  rw [List.filterMap_cons]
  simp only [Ne.symm hne, false_and, if_false]
  rfl

/-- The blocks with one inserted, of its own segment and of others. -/
theorem blockPieces_insert (handle base : ℕ) :
    blockPieces (allocations.insert address allocation) handle base =
      if handle = allocation.heapHandle then
        Heap.withPiece allocation.segmentBase (address, allocation.blockSize)
          (blockPieces (allocations.erase address) handle) base
      else blockPieces (allocations.erase address) handle base := by
  have hentries : (allocations.insert address allocation).entries =
      ⟨address, allocation⟩ :: (allocations.erase address).entries := AList.entries_insert
  rw [blockPieces, hentries, List.filterMap_cons]
  by_cases hhandle : handle = allocation.heapHandle
  · subst hhandle
    rw [if_pos rfl]
    by_cases hbase : base = allocation.segmentBase
    · subst hbase
      rw [Heap.withPiece_self]
      simp only [true_and, if_true]
      rfl
    · rw [Heap.withPiece_of_ne hbase]
      simp only [true_and, if_neg (Ne.symm hbase)]
      rfl
  · rw [if_neg hhandle]
    simp only [Ne.symm hhandle, false_and, if_false]
    rfl

theorem blockPieces_of_fresh (h : allocations.lookup address = none) (handle base : ℕ) :
    blockPieces (allocations.erase address) handle base = blockPieces allocations handle base := by
  rw [blockPieces, erase_of_lookup_none h, blockPieces]

end Blocks

namespace GuestHeapManager

/-! ### The invariant -/

/-- What a block is, apart from its place in a segment. -/
structure Good (s : GuestHeapManager) (address : ℕ) (allocation : Allocation) : Prop where
  positive : 0 < address
  aligned : 16 ∣ address
  nonempty : 0 < allocation.requestedSize
  enough : allocation.requestedSize ≤ allocation.blockSize
  place : if allocation.segmentBase = 0 then
      s.ranges.lookup address = some allocation.blockSize ∧
        ∀ handle, (s.heaps handle).segments.lookup address = none
    else
      16 ∣ allocation.blockSize ∧
        ((s.heaps allocation.heapHandle).segments.lookup allocation.segmentBase).isSome = true

/-- What a segment of a heap is, given its blocks. -/
structure Counted (segment : Segment) (blocks : List (ℕ × ℕ)) : Prop where
  size : segment.size = segmentSize
  used : segment.usedBytes = (blocks.map Prod.snd).sum

/-- The tables of the heap manager are in order. -/
structure Sound (s : GuestHeapManager) : Prop where
  fits : ∀ handle, (s.heaps handle).Fits (blockPieces s.allocations handle)
  counted : ∀ handle base segment, (s.heaps handle).segments.lookup base = some segment →
    Counted segment (blockPieces s.allocations handle base)
  good : ∀ address allocation, s.allocations.lookup address = some allocation →
    s.Good address allocation
  backed : ∀ handle base segment, (s.heaps handle).segments.lookup base = some segment →
    ∃ size, s.ranges.lookup base = some size ∧ segmentSize ≤ size
  owner : ∀ handle handle' base, ((s.heaps handle).segments.lookup base).isSome = true →
    ((s.heaps handle').segments.lookup base).isSome = true → handle = handle'
  ranges : ∀ base size, s.ranges.lookup base = some size →
    0 < base ∧ 16 ∣ base ∧ 0 < size ∧ base + size ≤ 2 ^ 32
  apart : ∀ base base' size size', s.ranges.lookup base = some size →
    s.ranges.lookup base' = some size' → base ≠ base' →
    base + size ≤ base' ∨ base' + size' ≤ base

theorem lookup_empty_ne {α : Type} {key : ℕ} {value : α} :
    (∅ : Table α).lookup key ≠ some value := by
  rw [AList.lookup_empty]
  exact (Option.some_ne_none _).symm

theorem Sound.init : GuestHeapManager.init.Sound where
  fits _ := .empty _
  counted _ _ _ h := absurd h lookup_empty_ne
  good _ _ h := absurd h lookup_empty_ne
  backed _ _ _ h := absurd h lookup_empty_ne
  owner _ _ _ h := by simp [GuestHeapManager.init, Heap.empty] at h
  ranges _ _ h := absurd h lookup_empty_ne
  apart _ _ _ _ h := absurd h lookup_empty_ne

variable {s : GuestHeapManager}

/-- A block lies in a range: its own, or that of its segment. -/
theorem Sound.block_range (h : s.Sound) {address : ℕ} {allocation : Allocation}
    (hblock : s.allocations.lookup address = some allocation) :
    ∃ size, s.ranges.lookup
        (if allocation.segmentBase = 0 then address else allocation.segmentBase) = some size ∧
      (if allocation.segmentBase = 0 then address else allocation.segmentBase) ≤ address ∧
      address + allocation.blockSize ≤
        (if allocation.segmentBase = 0 then address else allocation.segmentBase) + size := by
  have hgood := h.good address allocation hblock
  have hplace := hgood.place
  by_cases hlarge : allocation.segmentBase = 0
  · rw [if_pos hlarge] at hplace
    rw [if_pos hlarge]
    exact ⟨_, hplace.1, le_rfl, le_rfl⟩
  · rw [if_neg hlarge] at hplace
    rw [if_neg hlarge]
    obtain ⟨segment, hsegment⟩ := Option.isSome_iff_exists.mp hplace.2
    obtain ⟨size, hsize, hle⟩ := h.backed _ _ segment hsegment
    have hmem : (address, allocation.blockSize) ∈
        blockPieces s.allocations allocation.heapHandle allocation.segmentBase := by
      refine (blockPieces_perm hblock _).mem_iff.mpr ?_
      rw [Heap.withPiece_self]
      exact List.mem_cons_self
    obtain ⟨-, hlo, hhi⟩ := (h.fits _).other_inside hsegment hmem
    rw [(h.counted _ _ segment hsegment).size] at hhi
    exact ⟨size, hsize, hlo, hhi.trans (Nat.add_le_add_left hle _)⟩

/-- A run lies in the range of its segment. -/
theorem Sound.run_range (h : s.Sound) {handle address : ℕ} {run : FreeRun}
    (hrun : (s.heaps handle).runsByAddress.lookup address = some run) :
    ∃ size, s.ranges.lookup run.segmentBase = some size ∧ run.segmentBase ≤ address ∧
      0 < run.size ∧ address + run.size ≤ run.segmentBase + size := by
  obtain ⟨segment, hsegment, hpos, hlo, hhi⟩ := (h.fits handle).run_inside hrun
  obtain ⟨size, hsize, hle⟩ := h.backed _ _ segment hsegment
  rw [(h.counted _ _ segment hsegment).size] at hhi
  exact ⟨size, hsize, hlo, hpos, hhi.trans (Nat.add_le_add_left hle _)⟩

/-- The heap without one block: the block is another piece. -/
theorem Sound.fits_erase (h : s.Sound) {address : ℕ} {allocation : Allocation}
    (hblock : s.allocations.lookup address = some allocation) :
    (s.heaps allocation.heapHandle).Fits
      (Heap.withPiece allocation.segmentBase (address, allocation.blockSize)
        (blockPieces (s.allocations.erase address) allocation.heapHandle)) :=
  (h.fits _).congr fun base _ => blockPieces_perm hblock base

/-- **Live blocks lie apart.** -/
theorem Sound.blocks_apart (h : s.Sound) {address address' : ℕ} {allocation allocation' : Allocation}
    (hblock : s.allocations.lookup address = some allocation)
    (hblock' : s.allocations.lookup address' = some allocation') (hne : address ≠ address') :
    address + allocation.blockSize ≤ address' ∨ address' + allocation'.blockSize ≤ address := by
  obtain ⟨size, hsize, hlo, hhi⟩ := h.block_range hblock
  obtain ⟨size', hsize', hlo', hhi'⟩ := h.block_range hblock'
  by_cases hrange : (if allocation.segmentBase = 0 then address else allocation.segmentBase) =
      if allocation'.segmentBase = 0 then address' else allocation'.segmentBase
  · have hplace := (h.good _ _ hblock).place
    have hplace' := (h.good _ _ hblock').place
    split_ifs at hrange hplace hplace' with hlarge hlarge' hlarge'
    · exact absurd hrange hne
    · rw [← hrange, hplace.2] at hplace'
      exact absurd hplace'.2 (by simp)
    · rw [hrange, hplace'.2] at hplace
      exact absurd hplace.2 (by simp)
    · -- Two blocks of one segment are two pieces of its tiling.
      have hhandle : allocation.heapHandle = allocation'.heapHandle :=
        h.owner _ _ _ hplace.2 (by rw [hrange]; exact hplace'.2)
      obtain ⟨segment, hsegment⟩ := Option.isSome_iff_exists.mp hplace.2
      have htiles := (h.fits_erase hblock).tiles _ segment hsegment
      rw [Heap.withPiece_self] at htiles
      have herased : (s.allocations.erase address).lookup address' = some allocation' := by
        rw [lookup_erase_eq, if_neg hne.symm]
        exact hblock'
      have hperm := blockPieces_perm herased allocation.segmentBase
      rw [← hhandle, hrange, Heap.withPiece_self] at hperm
      rw [hrange] at htiles
      have hfront := htiles.perm ((List.perm_middle.trans
        ((hperm.append_left _).cons _)).trans (List.perm_middle.cons _))
      exact hfront.apart
  · rcases h.apart _ _ _ _ hsize hsize' hrange with hapart | hapart
    · exact .inl (by omega)
    · exact .inr (by omega)

/-- A free run and a live block lie apart. -/
theorem Sound.run_block_apart (h : s.Sound) {handle address address' : ℕ} {run : FreeRun}
    {allocation : Allocation} (hrun : (s.heaps handle).runsByAddress.lookup address = some run)
    (hblock : s.allocations.lookup address' = some allocation) :
    address + run.size ≤ address' ∨ address' + allocation.blockSize ≤ address := by
  obtain ⟨size, hsize, hlo, hpos, hhi⟩ := h.run_range hrun
  obtain ⟨size', hsize', hlo', hhi'⟩ := h.block_range hblock
  have howned := (h.fits handle).owned address run hrun
  by_cases hrange : run.segmentBase =
      if allocation.segmentBase = 0 then address' else allocation.segmentBase
  · have hplace := (h.good _ _ hblock).place
    split_ifs at hrange hplace with hlarge
    · rw [hrange, hplace.2] at howned
      simp at howned
    · have hhandle : handle = allocation.heapHandle :=
        h.owner _ _ _ howned (by rw [hrange]; exact hplace.2)
      subst hhandle
      obtain ⟨segment, hsegment⟩ := Option.isSome_iff_exists.mp hplace.2
      exact (h.fits_erase hblock).run_piece_apart hsegment hrun
  · rcases h.apart _ _ _ _ hsize hsize' hrange with hapart | hapart
    · exact .inl (by omega)
    · exact .inr (by omega)

/-- A change of the blocks alone. -/
theorem Sound.relabel (h : s.Sound) {allocations : Table Allocation} (bytes : ℕ → BitVec 8)
    (hperm : ∀ handle base, 0 < base →
      (blockPieces s.allocations handle base).Perm (blockPieces allocations handle base))
    (hgood : ∀ address allocation, allocations.lookup address = some allocation →
      s.Good address allocation) :
    (⟨allocations, s.heaps, s.ranges, bytes⟩ : GuestHeapManager).Sound where
  fits handle := (h.fits handle).congr (hperm handle)
  counted handle base segment hsegment := by
    obtain ⟨hsize, hused⟩ := h.counted handle base segment hsegment
    have hbase := ((h.fits handle).segment base segment hsegment).1
    exact ⟨hsize, hused.trans ((hperm handle base hbase).map Prod.snd).sum_eq⟩
  good address allocation hblock := by
    obtain ⟨hpos, haligned, hnonempty, henough, hplace⟩ := hgood address allocation hblock
    exact ⟨hpos, haligned, hnonempty, henough, hplace⟩
  backed := h.backed
  owner := h.owner
  ranges := h.ranges
  apart := h.apart

/-- A change of one heap and of the blocks. -/
theorem Sound.update (h : s.Sound) {handle : ℕ} {heap : Heap} {allocations : Table Allocation}
    {bytes : ℕ → BitVec 8} (hfits : heap.Fits (blockPieces allocations handle))
    (hcounted : ∀ base segment, heap.segments.lookup base = some segment →
      Counted segment (blockPieces allocations handle base))
    (hbacked : ∀ base, (heap.segments.lookup base).isSome = true →
      (∃ size, s.ranges.lookup base = some size ∧ segmentSize ≤ size) ∧
        ∀ handle', handle' ≠ handle → (s.heaps handle').segments.lookup base = none)
    (hothers : ∀ handle', handle' ≠ handle → ∀ base, 0 < base →
      (blockPieces s.allocations handle' base).Perm (blockPieces allocations handle' base))
    (hgood : ∀ address allocation, allocations.lookup address = some allocation →
      (⟨allocations, Function.update s.heaps handle heap, s.ranges, bytes⟩ :
        GuestHeapManager).Good address allocation) :
    (⟨allocations, Function.update s.heaps handle heap, s.ranges, bytes⟩ :
      GuestHeapManager).Sound := by
  refine ⟨fun handle' => ?_, fun handle' base segment hsegment => ?_, hgood,
    fun handle' base segment hsegment => ?_, fun handle' handle'' base hsome hsome' => ?_,
    h.ranges, h.apart⟩
  all_goals dsimp only at *
  · by_cases hhandle : handle' = handle
    · subst hhandle
      rw [Function.update_self]
      exact hfits
    · rw [Function.update_of_ne hhandle]
      exact (h.fits handle').congr (hothers handle' hhandle)
  · by_cases hhandle : handle' = handle
    · subst hhandle
      rw [Function.update_self] at hsegment
      exact hcounted base segment hsegment
    · rw [Function.update_of_ne hhandle] at hsegment
      obtain ⟨hsize, hused⟩ := h.counted handle' base segment hsegment
      have hbase := ((h.fits handle').segment base segment hsegment).1
      exact ⟨hsize, hused.trans ((hothers handle' hhandle base hbase).map Prod.snd).sum_eq⟩
  · by_cases hhandle : handle' = handle
    · subst hhandle
      rw [Function.update_self] at hsegment
      exact (hbacked base (by rw [hsegment]; rfl)).1
    · rw [Function.update_of_ne hhandle] at hsegment
      exact h.backed handle' base segment hsegment
  · have hfree : ∀ k, k ≠ handle → (heap.segments.lookup base).isSome = true →
        ((s.heaps k).segments.lookup base).isSome ≠ true := by
      intro k hk hbase
      rw [(hbacked base hbase).2 k hk]
      exact Bool.false_ne_true
    by_cases hhandle : handle' = handle <;> by_cases hhandle' : handle'' = handle
    · rw [hhandle, hhandle']
    · subst hhandle
      rw [Function.update_self] at hsome
      rw [Function.update_of_ne hhandle'] at hsome'
      exact absurd hsome' (hfree handle'' hhandle' hsome)
    · subst hhandle'
      rw [Function.update_self] at hsome'
      rw [Function.update_of_ne hhandle] at hsome
      exact absurd hsome (hfree handle' hhandle hsome')
    · rw [Function.update_of_ne hhandle] at hsome
      rw [Function.update_of_ne hhandle'] at hsome'
      exact h.owner handle' handle'' base hsome hsome'

/-- What a block is does not change with a heap that keeps its segments. -/
theorem Good.update {address : ℕ} {allocation : Allocation} (h : s.Good address allocation)
    {handle : ℕ} {heap : Heap} (hsegments : ∀ base, (heap.segments.lookup base).isSome =
      ((s.heaps handle).segments.lookup base).isSome)
    (allocations : Table Allocation) (bytes : ℕ → BitVec 8) :
    (⟨allocations, Function.update s.heaps handle heap, s.ranges, bytes⟩ :
      GuestHeapManager).Good address allocation := by
  have hisSome : ∀ handle' base, ((Function.update s.heaps handle heap handle').segments.lookup
      base).isSome = ((s.heaps handle').segments.lookup base).isSome := by
    intro handle' base
    by_cases hhandle : handle' = handle
    · subst hhandle
      rw [Function.update_self, hsegments]
    · rw [Function.update_of_ne hhandle]
  refine ⟨h.positive, h.aligned, h.nonempty, h.enough, ?_⟩
  have hplace := h.place
  split_ifs at hplace ⊢ with hlarge
  · refine ⟨hplace.1, fun handle' => ?_⟩
    have hnone := hisSome handle' address
    rw [hplace.2 handle'] at hnone
    exact Option.isNone_iff_eq_none.mp (Option.isSome_eq_false_iff.mp hnone)
  · exact ⟨hplace.1, (hisSome _ _).trans hplace.2⟩

/-- The used bytes follow the blocks of a segment. -/
theorem counted_useBytes {heap : Heap} {base : ℕ} {f : ℕ → ℕ} {blocks' : ℕ → List (ℕ × ℕ)}
    (blocks : ℕ → List (ℕ × ℕ))
    (hcounted : ∀ b segment, heap.segments.lookup b = some segment → Counted segment (blocks b))
    (hbase : (heap.segments.lookup base).isSome = true)
    (hothers : ∀ b, b ≠ base → (blocks b).Perm (blocks' b))
    (hsum : f ((blocks base).map Prod.snd).sum = ((blocks' base).map Prod.snd).sum) :
    ∀ b segment, (heap.useBytes base f).segments.lookup b = some segment →
      Counted segment (blocks' b) := by
  obtain ⟨old, hold⟩ := Option.isSome_iff_exists.mp hbase
  intro b segment hsegment
  rw [Heap.lookup_useBytes hold] at hsegment
  split_ifs at hsegment with hb
  · obtain ⟨hsize, hused⟩ := hcounted base old hold
    rw [← Option.some.inj hsegment, hb]
    exact ⟨hsize, by rw [← hsum, ← hused]⟩
  · obtain ⟨hsize, hused⟩ := hcounted b segment hsegment
    exact ⟨hsize, hused.trans ((hothers b hb).map Prod.snd).sum_eq⟩

/-- `useBytes` keeps the bases of segments. -/
theorem isSome_useBytes {heap : Heap} {base : ℕ} (hbase : (heap.segments.lookup base).isSome = true)
    (f : ℕ → ℕ) (b : ℕ) : ((heap.useBytes base f).segments.lookup b).isSome =
      (heap.segments.lookup b).isSome := by
  obtain ⟨old, hold⟩ := Option.isSome_iff_exists.mp hbase
  rw [Heap.lookup_useBytes hold]
  split_ifs with hb
  · rw [hb, hold]
    rfl
  · rfl

/-- An address that is free, or a block of this segment. -/
def At (s : GuestHeapManager) (handle base address : ℕ) : Prop :=
  ∀ allocation, s.allocations.lookup address = some allocation →
    allocation.heapHandle = handle ∧ allocation.segmentBase = base

/-- The blocks of other segments do not change with a block of this one. -/
theorem At.perm_erase {handle base address : ℕ} (h : s.At handle base address) {handle' b : ℕ}
    (hne : handle' ≠ handle ∨ b ≠ base) : (blockPieces s.allocations handle' b).Perm
      (blockPieces (s.allocations.erase address) handle' b) := by
  cases hblock : s.allocations.lookup address with
  | none =>
      rw [blockPieces_of_fresh hblock]
  | some allocation =>
      obtain ⟨rfl, rfl⟩ := h allocation hblock
      by_cases hhandle : handle' = allocation.heapHandle
      · subst hhandle
        have hperm := blockPieces_perm hblock b
        rw [Heap.withPiece_of_ne (hne.resolve_left fun hcontra => hcontra rfl)] at hperm
        exact hperm
      · exact blockPieces_erase hblock hhandle b

/-- The sum of the sizes of blocks. -/
def blockBytes (pieces : List (ℕ × ℕ)) : ℕ :=
  (pieces.map Prod.snd).sum

/-- The bytes of all blocks of a segment, with one block in front. -/
theorem blockBytes_of_lookup (hblock : s.allocations.lookup address = some old) :
    blockBytes (blockPieces s.allocations old.heapHandle old.segmentBase) = old.blockSize +
      blockBytes (blockPieces (s.allocations.erase address) old.heapHandle old.segmentBase) := by
  have hperm := blockPieces_perm hblock old.segmentBase
  rw [Heap.withPiece_self] at hperm
  exact (hperm.map Prod.snd).sum_eq

theorem at_of_lookup (hblock : s.allocations.lookup address = some old) :
    s.At old.heapHandle old.segmentBase address := by
  intro allocation hblock'
  obtain rfl := Option.some.inj (hblock.symm.trans hblock')
  exact ⟨rfl, rfl⟩

/-- **A block gets a place in a segment.**  The heap has a piece for it. -/
theorem Sound.place (h : s.Sound) {handle base address size blockSize : ℕ} {heap : Heap}
    {f : ℕ → ℕ} (bytes : ℕ → BitVec 8) (hat : s.At handle base address)
    (hfits : heap.Fits (Heap.withPiece base (address, blockSize)
      (blockPieces (s.allocations.erase address) handle)))
    (hsegments : heap.segments = (s.heaps handle).segments)
    (hsum : f (blockBytes (blockPieces s.allocations handle base)) =
      blockSize + blockBytes (blockPieces (s.allocations.erase address) handle base))
    (hgood : s.Good address ⟨handle, size, blockSize, base⟩) (hbase : base ≠ 0) :
    (⟨s.allocations.insert address ⟨handle, size, blockSize, base⟩,
      Function.update s.heaps handle (heap.useBytes base f), s.ranges, bytes⟩ :
      GuestHeapManager).Sound := by
  have hplace := hgood.place
  rw [if_neg hbase] at hplace
  have hisSome : (heap.segments.lookup base).isSome = true := hsegments ▸ hplace.2
  have hinsert : ∀ b, blockPieces
      (s.allocations.insert address ⟨handle, size, blockSize, base⟩) handle b =
      Heap.withPiece base (address, blockSize)
        (blockPieces (s.allocations.erase address) handle) b := by
    intro b
    rw [blockPieces_insert, if_pos rfl]
  have hsame : ∀ b, ((heap.useBytes base f).segments.lookup b).isSome =
      ((s.heaps handle).segments.lookup b).isSome := by
    intro b
    rw [isSome_useBytes hisSome, hsegments]
  refine h.update (hfits.useBytes hisSome f |>.congr fun b _ => .of_eq (hinsert b).symm)
    ?_ (fun b hb => ?_) (fun handle' hhandle b _ => ?_) fun a allocation ha => ?_
  · refine counted_useBytes (blockPieces s.allocations handle) ?_ hisSome
      (fun b hb => ?_) ?_
    · rw [hsegments]
      exact h.counted handle
    · rw [hinsert, Heap.withPiece_of_ne hb]
      exact hat.perm_erase (.inr hb)
    · rw [hinsert, Heap.withPiece_self, List.map_cons, List.sum_cons]
      exact hsum
  · rw [hsame] at hb
    obtain ⟨segment, hsegment⟩ := Option.isSome_iff_exists.mp hb
    refine ⟨h.backed handle b segment hsegment, fun handle' hhandle => ?_⟩
    by_contra hsome
    exact hhandle (h.owner handle' handle b (Option.ne_none_iff_isSome.mp hsome) hb)
  · rw [blockPieces_insert, if_neg hhandle]
    exact hat.perm_erase (.inl hhandle)
  · refine Good.update ?_ hsame _ _
    rw [lookup_insert_eq] at ha
    split_ifs at ha with heq
    · rw [← Option.some.inj ha, heq]
      exact hgood
    · exact h.good a allocation ha

/-- **A block leaves its segment.**  The heap has no piece for it. -/
theorem Sound.remove (h : s.Sound) {address : ℕ} {allocation : Allocation} {heap : Heap}
    {f : ℕ → ℕ} (hblock : s.allocations.lookup address = some allocation)
    (hfits : heap.Fits (blockPieces (s.allocations.erase address) allocation.heapHandle))
    (hsegments : heap.segments = (s.heaps allocation.heapHandle).segments)
    (hsum : f (blockBytes (blockPieces s.allocations allocation.heapHandle
        allocation.segmentBase)) =
      blockBytes (blockPieces (s.allocations.erase address) allocation.heapHandle
        allocation.segmentBase))
    (hbase : allocation.segmentBase ≠ 0) :
    (⟨s.allocations.erase address, Function.update s.heaps allocation.heapHandle
      (heap.useBytes allocation.segmentBase f), s.ranges, s.bytes⟩ : GuestHeapManager).Sound := by
  have hplace := (h.good address allocation hblock).place
  rw [if_neg hbase] at hplace
  have hisSome : (heap.segments.lookup allocation.segmentBase).isSome = true :=
    hsegments ▸ hplace.2
  have hat : s.At allocation.heapHandle allocation.segmentBase address := by
    intro allocation' hblock'
    obtain rfl := Option.some.inj (hblock.symm.trans hblock')
    exact ⟨rfl, rfl⟩
  have hsame : ∀ b, ((heap.useBytes allocation.segmentBase f).segments.lookup b).isSome =
      ((s.heaps allocation.heapHandle).segments.lookup b).isSome := by
    intro b
    rw [isSome_useBytes hisSome, hsegments]
  refine h.update (hfits.useBytes hisSome f) ?_ (fun b hb => ?_) (fun handle' hhandle b _ => ?_)
    fun a allocation' ha => ?_
  · refine counted_useBytes (blockPieces s.allocations allocation.heapHandle) ?_ hisSome
      (fun b hb => hat.perm_erase (.inr hb)) hsum
    rw [hsegments]
    exact h.counted allocation.heapHandle
  · rw [hsame] at hb
    obtain ⟨segment, hsegment⟩ := Option.isSome_iff_exists.mp hb
    refine ⟨h.backed allocation.heapHandle b segment hsegment, fun handle' hhandle => ?_⟩
    by_contra hsome
    exact hhandle (h.owner handle' allocation.heapHandle b
      (Option.ne_none_iff_isSome.mp hsome) hb)
  · exact hat.perm_erase (.inl hhandle)
  · refine Good.update ?_ hsame _ _
    rw [lookup_erase_eq] at ha
    split_ifs at ha
    exact h.good a allocation' ha

/-- A range that nothing stands in goes back. -/
theorem Sound.dropRange (h : s.Sound) {base : ℕ}
    (hblocks : ∀ allocation, s.allocations.lookup base = some allocation →
      allocation.segmentBase ≠ 0)
    (hsegments : ∀ handle, (s.heaps handle).segments.lookup base = none) :
    { s with ranges := s.ranges.erase base }.Sound := by
  have hlookup : ∀ a, (s.ranges.erase base).lookup a =
      if a = base then none else s.ranges.lookup a := lookup_erase_eq
  have hkept : ∀ {a size}, (s.ranges.erase base).lookup a = some size →
      s.ranges.lookup a = some size := by
    intro a size ha
    rw [hlookup] at ha
    split_ifs at ha
    exact ha
  refine { h with
    good := fun a allocation ha => ?_
    backed := fun handle b segment hb => ?_
    ranges := fun b size hb => h.ranges b size (hkept hb)
    apart := fun b b' size size' hb hb' => h.apart b b' size size' (hkept hb) (hkept hb') }
  · obtain ⟨hpos, haligned, hnonempty, henough, hplace⟩ := h.good a allocation ha
    refine ⟨hpos, haligned, hnonempty, henough, ?_⟩
    split_ifs at hplace ⊢ with hlarge
    · refine ⟨?_, hplace.2⟩
      change (s.ranges.erase base).lookup a = _
      rw [hlookup, if_neg, hplace.1]
      rintro rfl
      exact hblocks allocation ha hlarge
    · exact hplace
  · obtain ⟨size, hsize, hle⟩ := h.backed handle b segment hb
    refine ⟨size, ?_, hle⟩
    change (s.ranges.erase base).lookup b = _
    rw [hlookup, if_neg, hsize]
    rintro rfl
    rw [hsegments handle] at hb
    exact absurd hb (Option.some_ne_none _).symm

end GuestHeapManager

end Kernel
end XenonRecomp
