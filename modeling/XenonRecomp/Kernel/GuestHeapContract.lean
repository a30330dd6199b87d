/-
# The guest heap keeps its blocks and their contents

`reallocate` keeps the bytes of the block it is about, in place or in another
block, and leaves all other blocks (`Reallocates`).  At the end stands the
contract of the three calls over all runs: whatever calls were made, and
whatever the guest memory answered, the tables are in order and the next call
does what it promises.
-/

import XenonRecomp.Kernel.GuestHeapAllocate
import XenonRecomp.Library.Transition

namespace XenonRecomp
namespace Kernel

open Library Library.Tiling

namespace GuestHeapManager

variable {s s' : GuestHeapManager}

/-- What `reallocate` does to a live block. -/
structure Reallocates (s s' : GuestHeapManager) (flags : BitVec 32) (address : ℕ)
    (old : Allocation) (requested address' : ℕ) : Prop where
  sound : s'.Sound
  same : ∀ a, a ≠ address → s.Same s' a
  failed : address' = 0 → s.Same s' address
  block : address' ≠ 0 → ∃ allocation, s'.allocations.lookup address' = some allocation ∧
    allocation.heapHandle = old.heapHandle ∧ allocation.requestedSize = requested
  kept : address' ≠ 0 → ∀ i < min old.requestedSize requested,
    s'.bytes (address' + i) = s.bytes (address + i)
  zero : address' ≠ 0 → zeroes flags = true → ∀ i, old.requestedSize ≤ i → i < requested →
    s'.bytes (address' + i) = 0
  moved : address' ≠ 0 → address' ≠ address →
    s.allocations.lookup address' = none ∧ s'.allocations.lookup address = none

/-- A call that fails and leaves all blocks. -/
theorem reallocates_none {flags : BitVec 32} {address requested : ℕ} {old : Allocation}
    (hs : s'.Sound) (hsame : ∀ a, s.Same s' a) :
    s.Reallocates s' flags address old requested 0 :=
  ⟨hs, fun a _ => hsame a, fun _ => hsame address, fun h => absurd rfl h, fun h => absurd rfl h,
    fun h => absurd rfl h, fun h => absurd rfl h⟩

/-! ### Growth that is zeroed -/

section Growth

variable {flags : BitVec 32} {old requested address : ℕ}

theorem zeroGrowth_tables (s : GuestHeapManager) (flags : BitVec 32) (old requested address : ℕ) :
    (s.zeroGrowth flags old requested address).allocations = s.allocations ∧
      (s.zeroGrowth flags old requested address).heaps = s.heaps ∧
      (s.zeroGrowth flags old requested address).ranges = s.ranges := by
  rw [zeroGrowth]
  split_ifs
  · exact ⟨rfl, rfl, rfl⟩
  · exact ⟨rfl, rfl, rfl⟩

theorem Sound.zeroGrowth (hs : s.Sound) (flags : BitVec 32) (old requested address : ℕ) :
    (s.zeroGrowth flags old requested address).Sound := by
  rw [GuestHeapManager.zeroGrowth]
  split_ifs
  · exact hs.withBytes _
  · exact hs

/-- Outside the growth no byte changes. -/
theorem zeroGrowth_outside {x : ℕ} (hx : ¬(address + old ≤ x ∧ x < address + requested)) :
    (s.zeroGrowth flags old requested address).bytes x = s.bytes x := by
  rw [zeroGrowth]
  split_ifs
  · exact if_neg (by omega)
  · rfl

/-- The growth reads zero. -/
theorem zeroGrowth_inside (hzero : zeroes flags = true) {i : ℕ} (hold : old ≤ i)
    (hlt : i < requested) :
    (s.zeroGrowth flags old requested address).bytes (address + i) = 0 := by
  rw [zeroGrowth, if_pos ⟨hzero, by omega⟩]
  exact if_pos ⟨by omega, by omega⟩

/-- A change of bytes within one block leaves the others. -/
theorem Sound.same_within (hs : s.Sound) {allocation : Allocation} {s' : GuestHeapManager}
    (hblock : s.allocations.lookup address = some allocation)
    (htables : s'.allocations = s.allocations)
    (hbytes : ∀ x, ¬(address ≤ x ∧ x < address + allocation.blockSize) → s'.bytes x = s.bytes x)
    {a : ℕ} (hne : a ≠ address) : s.Same s' a := by
  intro allocation' hblock'
  refine ⟨by rw [htables]; exact hblock', fun x hlo hhi => hbytes x fun hx => ?_⟩
  rcases hs.blocks_apart hblock hblock' hne.symm with hapart | hapart <;> omega

end Growth

/-! ### In place -/

/-- The block stays where it is, with another size. -/
theorem reallocates_inPlace {flags : BitVec 32} {address requested : ℕ} {old new : Allocation}
    (haddress : address ≠ 0) (hs' : s'.Sound) (hsame : ∀ a, a ≠ address → s.Same s' a)
    (hbytes : s'.bytes = s.bytes) (hblock : s'.allocations.lookup address = some new)
    (hhandle : new.heapHandle = old.heapHandle) (hrequested : new.requestedSize = requested) :
    s.Reallocates (s'.zeroGrowth flags old.requestedSize requested address) flags address old
      requested address := by
  obtain ⟨hblocks, -, -⟩ := zeroGrowth_tables s' flags old.requestedSize requested address
  have henough := (hs'.good _ _ hblock).enough
  refine ⟨hs'.zeroGrowth _ _ _ _, fun a hne => (hsame a hne).trans ?_,
    fun h => absurd h haddress, fun _ => ⟨new, by rw [hblocks]; exact hblock, hhandle, hrequested⟩,
    fun _ i hi => ?_, fun _ hzero i hold hlt => zeroGrowth_inside hzero hold hlt,
    fun _ h => absurd rfl h⟩
  · exact hs'.same_within hblock hblocks (fun x hx => zeroGrowth_outside (by omega)) hne
  · rw [zeroGrowth_outside (by omega), hbytes]

/-- The other blocks do not change with the size of one. -/
theorem same_resize {address a : ℕ} {new : Allocation} (hne : a ≠ address)
    (hblocks : s'.allocations = s.allocations.insert address new) (hbytes : s'.bytes = s.bytes) :
    s.Same s' a := by
  intro allocation hblock
  rw [hblocks, hbytes, lookup_insert_eq, if_neg hne]
  exact ⟨hblock, fun _ _ _ => rfl⟩

section InPlace

variable {flags : BitVec 32} {address requested : ℕ} {old : Allocation}

/-- A block may have another requested size. -/
theorem Sound.resize (hs : s.Sound) (hblock : s.allocations.lookup address = some old)
    (hpos : 0 < requested) (hle : requested ≤ old.blockSize) :
    (s.resize address old requested old.blockSize).Sound := by
  refine hs.relabel s.bytes (fun handle base _ => ?_) fun a allocation ha => ?_
  · rw [blockPieces_insert]
    by_cases hhandle : handle = old.heapHandle
    · rw [if_pos hhandle, hhandle]
      exact blockPieces_perm hblock base
    · rw [if_neg hhandle]
      exact blockPieces_erase hblock hhandle base
  · rw [lookup_insert_eq] at ha
    split_ifs at ha with heq
    · obtain ⟨hposition, haligned, -, -, hplace⟩ := hs.good address old hblock
      rw [← Option.some.inj ha, heq]
      exact ⟨hposition, haligned, hpos, hle, hplace⟩
    · exact hs.good a allocation ha

/-- A block of a segment gets the size of its new piece. -/
theorem Sound.resizePiece (hs : s.Sound) (hblock : s.allocations.lookup address = some old)
    (hbase : old.segmentBase ≠ 0) {need : ℕ} (hpos : 0 < requested) (hle : requested ≤ need)
    (haligned : 16 ∣ need) {heap : Heap} {f : ℕ → ℕ}
    (hfits : heap.Fits (Heap.withPiece old.segmentBase (address, need)
      (blockPieces (s.allocations.erase address) old.heapHandle)))
    (hsegments : heap.segments = (s.heaps old.heapHandle).segments)
    (hsum : ∀ n, f (old.blockSize + n) = need + n) :
    ((s.setHeap old.heapHandle (heap.useBytes old.segmentBase f)).resize address old requested
      need).Sound := by
  obtain ⟨hposition, halign, -, -, hplace⟩ := hs.good address old hblock
  rw [if_neg hbase] at hplace
  refine hs.place s.bytes (at_of_lookup hblock) hfits hsegments ?_ ?_ hbase
  · rw [blockBytes_of_lookup hblock, hsum]
  · refine ⟨hposition, halign, hpos, hle, ?_⟩
    rw [if_neg hbase]
    exact ⟨haligned, hplace.2⟩

/-- The end of a shrink or a growth in place. -/
theorem reallocates_resizePiece (hblock : s.allocations.lookup address = some old)
    (hs : s.Sound) {need : ℕ} {heap : Heap}
    (hsound : ((s.setHeap old.heapHandle heap).resize address old requested need).Sound) :
    s.Reallocates (((s.setHeap old.heapHandle heap).resize address old requested need).zeroGrowth
      flags old.requestedSize requested address) flags address old requested address := by
  have hposition := (hs.good address old hblock).positive
  refine reallocates_inPlace hposition.ne' hsound (fun a hne => ?_) rfl
    (AList.lookup_insert _) rfl rfl
  exact same_resize hne rfl rfl

theorem reallocateInPlace_reallocates (hs : s.Sound)
    (hblock : s.allocations.lookup address = some old) (hbase : old.segmentBase ≠ 0)
    (hpos : 0 < requested) (hcall : s.reallocateInPlace flags address old requested = some s') :
    s.Reallocates s' flags address old requested address := by
  obtain ⟨hposition, halign, hnonempty, henough, hplace⟩ := hs.good address old hblock
  rw [if_neg hbase] at hplace
  have hle := le_alignBlock requested
  have haligned := sixteen_dvd_alignBlock requested
  have hfits := hs.fits_erase hblock
  rw [reallocateInPlace] at hcall
  generalize alignBlock requested = need at hcall hle haligned
  dsimp only at hcall
  by_cases hshrink : need ≤ old.blockSize
  · rw [if_pos hshrink] at hcall
    by_cases htail : need < old.blockSize
    · -- The tail of the block becomes a run.
      rw [if_pos htail] at hcall
      obtain rfl := Option.some.inj hcall
      obtain ⟨hcut, hsegments⟩ := ((hfits.split (by omega) htail).congr fun base _ =>
        Heap.withPiece_comm _ _ _ _ base).insertRun hplace.2 (Nat.dvd_add halign haligned)
          (Nat.dvd_sub hplace.1 haligned)
      exact reallocates_resizePiece hblock hs (hs.resizePiece hblock hbase hpos hle haligned hcut
        hsegments fun n => by omega)
    · rw [if_neg htail] at hcall
      obtain rfl := Option.some.inj hcall
      obtain rfl : need = old.blockSize := by omega
      exact reallocates_inPlace hposition.ne' (hs.resize hblock hpos hle)
        (fun a hne => same_resize hne rfl rfl) rfl (AList.lookup_insert _) rfl rfl
  · rw [if_neg hshrink] at hcall
    obtain ⟨segment, hsegment⟩ := Option.isSome_iff_exists.mp hplace.2
    have hfitsAll := hs.fits old.heapHandle
    obtain ⟨-, hend⟩ := hfitsAll.segment _ segment hsegment
    have hmem : (address, old.blockSize) ∈
        blockPieces s.allocations old.heapHandle old.segmentBase := by
      refine (blockPieces_perm hblock _).mem_iff.mpr ?_
      rw [Heap.withPiece_self]
      exact List.mem_cons_self
    obtain ⟨-, -, hinside⟩ := hfitsAll.other_inside hsegment hmem
    have hwrap := @Heap.Fits.lookup_wrapped _ _ hfitsAll (address + old.blockSize)
      (hinside.trans hend)
    rw [hwrap] at hcall
    cases hnext : (s.heaps old.heapHandle).runsByAddress.lookup (address + old.blockSize) with
    | none =>
        rw [hnext] at hcall
        exact absurd hcall (Option.some_ne_none _).symm
    | some run =>
        rw [hnext] at hcall
        dsimp only at hcall
        by_cases hroom : run.segmentBase = old.segmentBase ∧ run.size ≥ need - old.blockSize
        · -- The front of the next run joins the block.
          rw [if_pos hroom] at hcall
          obtain ⟨hsame, hroom⟩ := hroom
          obtain ⟨seg, hseg, hrunpos, -, hrunend⟩ := hfitsAll.run_inside hnext
          obtain ⟨-, hsegend⟩ := hfitsAll.segment _ seg hseg
          rw [Nat.mod_eq_of_lt (by omega : address + old.blockSize < 2 ^ 32)] at hcall
          obtain rfl := Option.some.inj hcall
          obtain ⟨heap, hheap⟩ : ∃ heap, heap = if run.size > need - old.blockSize then
              ((s.heaps old.heapHandle).eraseRun (address + old.blockSize) run).insertRun
                (address + need) ⟨run.size - (need - old.blockSize), old.segmentBase⟩
            else (s.heaps old.heapHandle).eraseRun (address + old.blockSize) run := ⟨_, rfl⟩
          have hfront : address + old.blockSize + (need - old.blockSize) = address + need := by
            omega
          obtain ⟨hcut, hsegments⟩ := @Heap.Fits.cutRun _ _ hfitsAll _ _ _ hnext (by omega)
            (Nat.dvd_sub haligned hplace.1) hroom heap (by rw [hheap, hfront, hsame])
          rw [hsame] at hcut
          have hjoined : heap.Fits (Heap.withPiece old.segmentBase
              (address, old.blockSize + (need - old.blockSize))
              (blockPieces (s.allocations.erase address) old.heapHandle)) := by
            refine (hcut.congr fun base hpos' => ?_).merge
            refine List.Perm.trans ?_ (Heap.withPiece_comm _ _ _ _ base)
            have hperm := blockPieces_perm hblock base
            by_cases hb : base = old.segmentBase
            · rw [hb] at hperm ⊢
              rw [Heap.withPiece_self, Heap.withPiece_self]
              exact hperm.cons _
            · rw [Heap.withPiece_of_ne hb, Heap.withPiece_of_ne hb]
              exact hperm
          rw [show old.blockSize + (need - old.blockSize) = need by omega] at hjoined
          rw [← hheap]
          exact reallocates_resizePiece hblock hs (hs.resizePiece hblock hbase hpos hle haligned
            hjoined hsegments fun n => by omega)
        · rw [if_neg hroom] at hcall
          exact absurd hcall (Option.some_ne_none _).symm

end InPlace

/-! ### To another place -/

/-- The bytes that were copied into a new block. -/
theorem copyBytes_outside {source destination size x : ℕ}
    (hx : ¬(destination ≤ x ∧ x < destination + size)) :
    (s.copyBytes source destination size).bytes x = s.bytes x :=
  if_neg hx

theorem copyBytes_inside {source destination size i : ℕ} (hi : i < size) :
    (s.copyBytes source destination size).bytes (destination + i) = s.bytes (source + i) := by
  change (if destination ≤ destination + i ∧ destination + i < destination + size then _
    else _) = _
  rw [if_pos ⟨by omega, by omega⟩, Nat.add_sub_cancel_left]

theorem move_reallocates (hs : s.Sound) (b : Backing) (flags : BitVec 32) {address requested : ℕ}
    {old : Allocation} (hblock : s.allocations.lookup address = some old)
    (hpos : 0 < requested) :
    s.Reallocates (s.move b flags address old requested).1 flags address old requested
      (s.move b flags address old requested).2 := by
  have halloc := allocateLocked_allocates hs b old.heapHandle flags requested
  rw [Nat.max_eq_left hpos] at halloc
  rw [move]
  generalize s.allocateLocked b old.heapHandle flags requested = result at halloc ⊢
  obtain ⟨s₁, new⟩ := result
  obtain ⟨hs₁, hsame₁, hfresh, hnew, -⟩ := halloc
  dsimp only at hs₁ hsame₁ hfresh hnew ⊢
  -- Freeing the new block again leaves all blocks that were there.
  have hundo : ∀ s₂ : GuestHeapManager, s₂.Sound → new ≠ 0 → (∀ a, s.Same s₂ a) →
      s.Reallocates (s₂.freeLocked b new).1 flags address old requested 0 := by
    intro s₂ hs₂ hne hsame₂
    have hfrees := freeLocked_frees hs₂ b new
    refine reallocates_none hfrees.sound fun a => ?_
    by_cases ha : a = new
    · intro allocation hlive
      rw [ha, hfresh hne] at hlive
      exact absurd hlive (Option.some_ne_none _).symm
    · exact (hsame₂ a).trans (hfrees.same a ha)
  by_cases hzero : new = 0
  · rw [if_pos hzero]
    exact reallocates_none hs₁ hsame₁
  · rw [if_neg hzero]
    by_cases hcopies : b.copies
    · rw [if_pos hcopies]
      have hne : new ≠ address := by
        rintro rfl
        rw [hfresh hzero] at hblock
        exact absurd hblock (Option.some_ne_none _).symm
      obtain ⟨allocation, hnew, hhandle, hrequested⟩ := hnew hzero
      have henough := (hs₁.good _ _ hnew).enough
      obtain ⟨hold₁, hbytes₁⟩ := hsame₁ address old hblock
      have henoughOld := (hs.good _ _ hblock).enough
      -- The contents of the new block.
      obtain ⟨s₂, hs₂eq⟩ : ∃ s₂, s₂ = (s₁.copyBytes address new
          (min old.requestedSize requested)).zeroGrowth flags old.requestedSize requested new :=
        ⟨_, rfl⟩
      rw [← hs₂eq]
      obtain ⟨hblocks₂, -, -⟩ := zeroGrowth_tables (s₁.copyBytes address new
        (min old.requestedSize requested)) flags old.requestedSize requested new
      rw [← hs₂eq] at hblocks₂
      have hs₂ : s₂.Sound := hs₂eq ▸ (hs₁.withBytes _).zeroGrowth _ _ _ _
      have hnew₂ : s₂.allocations.lookup new = some allocation := by
        rw [hblocks₂]
        exact hnew
      have hsame₂ : ∀ a, a ≠ new → s₁.Same s₂ a := fun a ha =>
        hs₁.same_within hnew hblocks₂ (fun x hx => by
          rw [hs₂eq, zeroGrowth_outside (by omega), copyBytes_outside (by omega)]) ha
      have hkept₂ : ∀ i < min old.requestedSize requested,
          s₂.bytes (new + i) = s.bytes (address + i) := by
        intro i hi
        rw [hs₂eq, zeroGrowth_outside (by omega), copyBytes_inside hi]
        exact hbytes₁ _ (by omega) (by omega)
      have hall₂ : ∀ a, s.Same s₂ a := by
        intro a
        by_cases ha : a = new
        · intro _ hlive
          rw [ha, hfresh hzero] at hlive
          exact absurd hlive (Option.some_ne_none _).symm
        · exact (hsame₁ a).trans (hsame₂ a ha)
      have hfrees := freeLocked_frees hs₂ b address
      by_cases hfreed : (s₂.freeLocked b address).2
      · rw [if_pos hfreed]
        obtain ⟨hnew₃, hbytes₃⟩ := hfrees.same new hne allocation hnew₂
        refine ⟨hfrees.sound, fun a ha => (hall₂ a).trans (hfrees.same a ha),
          fun h => absurd h hzero, fun _ => ⟨allocation, hnew₃, hhandle, hrequested⟩,
          fun _ i hi => ?_, fun _ hflag i hlo hhi => ?_, fun _ _ => ⟨hfresh hzero,
            hfrees.gone hfreed⟩⟩
        · rw [hbytes₃ _ (by omega) (by omega), hkept₂ i hi]
        · rw [hbytes₃ _ (by omega) (by omega), hs₂eq]
          exact zeroGrowth_inside hflag hlo hhi
      · rw [if_neg hfreed]
        have hunchanged := hfrees.failed (Bool.eq_false_iff.mpr hfreed)
        rw [hunchanged]
        exact hundo s₂ hs₂ hzero hall₂
    · rw [if_neg hcopies]
      exact hundo s₁ hs₁ hzero hsame₁

/-- **`reallocate` of a live block.** -/
theorem reallocate_reallocates (hs : s.Sound) (b : Backing) {handle : ℕ} (flags : BitVec 32)
    {address : ℕ} (size : ℕ) {old : Allocation} (haddress : address ≠ 0)
    (hblock : s.allocations.lookup address = some old)
    (hhandle : old.heapHandle = normalizeHeapHandle handle) :
    s.Reallocates (s.reallocate b handle flags address size).1 flags address old (max size 1)
      (s.reallocate b handle flags address size).2 := by
  have hpos : 0 < max size 1 := by omega
  rw [reallocate, if_neg haddress, hblock]
  dsimp only
  rw [if_neg fun hne => hne hhandle]
  split_ifs with hlarge hsmall
  · exact reallocates_inPlace haddress (hs.resize hblock hpos hlarge.2)
      (fun a hne => same_resize hne rfl rfl) rfl (AList.lookup_insert _) rfl rfl
  · cases hcall : s.reallocateInPlace flags address old (max size 1) with
    | none => exact move_reallocates hs b flags hblock hpos
    | some s' => exact reallocateInPlace_reallocates hs hblock hsmall.1 hpos hcall
  · exact move_reallocates hs b flags hblock hpos

/-! ### The contract -/

/-- The tables as a caller may see them: what the blocks and runs are. -/
structure InOrder (s : GuestHeapManager) : Prop where
  disjoint : ∀ address address' allocation allocation',
    s.allocations.lookup address = some allocation →
    s.allocations.lookup address' = some allocation' → address ≠ address' →
    address + allocation.blockSize ≤ address' ∨ address' + allocation'.blockSize ≤ address
  aligned : ∀ address allocation, s.allocations.lookup address = some allocation → 16 ∣ address
  enough : ∀ address allocation, s.allocations.lookup address = some allocation →
    allocation.requestedSize ≤ allocation.blockSize
  inside : ∀ address allocation, s.allocations.lookup address = some allocation →
    allocation.segmentBase ≠ 0 → ∃ segment,
      (s.heaps allocation.heapHandle).segments.lookup allocation.segmentBase = some segment ∧
      allocation.segmentBase ≤ address ∧
      address + allocation.blockSize ≤ allocation.segmentBase + segment.size
  tiled : ∀ handle base segment, (s.heaps handle).segments.lookup base = some segment →
    Tiles ((s.heaps handle).runPieces base ++ blockPieces s.allocations handle base) base
      (base + segment.size)
  merged : ∀ handle address address' run run',
    (s.heaps handle).runsByAddress.lookup address = some run →
    (s.heaps handle).runsByAddress.lookup address' = some run' →
    run.segmentBase = run'.segmentBase → address + run.size ≠ address'
  mirrored : ∀ handle size address, (size, address) ∈ (s.heaps handle).runsBySize ↔
    ∃ run, (s.heaps handle).runsByAddress.lookup address = some run ∧ run.size = size
  used : ∀ handle base segment, (s.heaps handle).segments.lookup base = some segment →
    segment.usedBytes = ((blockPieces s.allocations handle base).map Prod.snd).sum

theorem Sound.inOrder (hs : s.Sound) : s.InOrder where
  disjoint _ _ _ _ h h' hne := hs.blocks_apart h h' hne
  aligned _ _ h := (hs.good _ _ h).aligned
  enough _ _ h := (hs.good _ _ h).enough
  inside address allocation hblock hbase := by
    have hplace := (hs.good _ _ hblock).place
    rw [if_neg hbase] at hplace
    obtain ⟨segment, hsegment⟩ := Option.isSome_iff_exists.mp hplace.2
    have hmem : (address, allocation.blockSize) ∈
        blockPieces s.allocations allocation.heapHandle allocation.segmentBase := by
      refine (blockPieces_perm hblock _).mem_iff.mpr ?_
      rw [Heap.withPiece_self]
      exact List.mem_cons_self
    obtain ⟨-, hlo, hhi⟩ := (hs.fits _).other_inside hsegment hmem
    exact ⟨segment, hsegment, hlo, hhi⟩
  tiled handle base segment h := (hs.fits handle).tiles base segment h
  merged handle := (hs.fits handle).merged
  mirrored handle := (hs.fits handle).mirrored
  used handle base segment h := (hs.counted handle base segment h).used

/-- A call of the heap manager. -/
inductive Call where
  | allocate (handle : ℕ) (flags : BitVec 32) (size : ℕ)
  | reallocate (handle : ℕ) (flags : BitVec 32) (address size : ℕ)
  | free (handle address : ℕ)
deriving DecidableEq, Repr

/-- A call with the answers of the guest memory, and what it returns: an address, or
whether `free` succeeded. -/
def step (s : GuestHeapManager) (event : Call × Backing) : GuestHeapManager × (ℕ ⊕ Bool) :=
  match event.1 with
  | .allocate handle flags size =>
      let (s, address) := s.allocate event.2 handle flags size
      (s, .inl address)
  | .reallocate handle flags address size =>
      let (s, address) := s.reallocate event.2 handle flags address size
      (s, .inl address)
  | .free handle address =>
      let (s, freed) := s.free event.2 handle address
      (s, .inr freed)

/-- A new block of an allocation that returned `address`; 0 is a failure, and leaves
all blocks. -/
structure NewBlock (s s' : GuestHeapManager) (handle : ℕ) (flags : BitVec 32)
    (size address : ℕ) : Prop where
  same : ∀ a, s.Same s' a
  fresh : address ≠ 0 → s.allocations.lookup address = none
  block : address ≠ 0 → ∃ allocation, s'.allocations.lookup address = some allocation ∧
    allocation.heapHandle = normalizeHeapHandle handle ∧ allocation.requestedSize = max size 1
  zero : address ≠ 0 → zeroes flags = true → ∀ i < max size 1, s'.bytes (address + i) = 0

/-- What `reallocate` promises.  A block that is not live, or not of this heap, is
refused. -/
def ReallocateContract (s s' : GuestHeapManager) (handle : ℕ) (flags : BitVec 32)
    (address size address' : ℕ) : Prop :=
  if address = 0 then s.NewBlock s' handle flags size address'
  else
    (∀ old, s.allocations.lookup address = some old →
      old.heapHandle = normalizeHeapHandle handle →
      s.Reallocates s' flags address old (max size 1) address') ∧
    ((∀ old, s.allocations.lookup address = some old →
      old.heapHandle ≠ normalizeHeapHandle handle) → address' = 0 ∧ s' = s)

/-- What `free` promises. -/
structure FreeContract (s s' : GuestHeapManager) (address : ℕ) (freed : Bool) : Prop where
  failed : freed = false → s' = s
  same : ∀ a, a ≠ address → s.Same s' a
  gone : freed = true → s'.allocations.lookup address = none

/-- What a call in this state promises. -/
def Contract (s : GuestHeapManager) (event : Call × Backing) : Prop :=
  match event.1 with
  | .allocate handle flags size =>
      let (s', address) := s.allocate event.2 handle flags size
      s.NewBlock s' handle flags size address
  | .reallocate handle flags address size =>
      let (s', address') := s.reallocate event.2 handle flags address size
      s.ReallocateContract s' handle flags address size address'
  | .free handle address =>
      let (s', freed) := s.free event.2 handle address
      s.FreeContract s' address freed

theorem Allocates.newBlock {handle : ℕ} {flags : BitVec 32} {size address : ℕ}
    (h : s.Allocates s' (normalizeHeapHandle handle) flags (max size 1) address) :
    s.NewBlock s' handle flags size address :=
  ⟨h.same, h.fresh, h.block, h.zero⟩

theorem reallocate_contract (hs : s.Sound) (b : Backing) (handle : ℕ) (flags : BitVec 32)
    (address size : ℕ) : (s.reallocate b handle flags address size).1.Sound ∧
      s.ReallocateContract (s.reallocate b handle flags address size).1 handle flags address size
        (s.reallocate b handle flags address size).2 := by
  rw [ReallocateContract]
  by_cases haddress : address = 0
  · have h := allocateLocked_allocates hs b (normalizeHeapHandle handle) flags size
    rw [if_pos haddress, reallocate, if_pos haddress]
    exact ⟨h.sound, h.newBlock⟩
  · rw [if_neg haddress]
    by_cases hlive : ∃ old, s.allocations.lookup address = some old ∧
        old.heapHandle = normalizeHeapHandle handle
    · obtain ⟨old, hblock, hhandle⟩ := hlive
      have h := reallocate_reallocates hs b flags size haddress hblock hhandle
      refine ⟨h.sound, fun old' hblock' _ => ?_, fun hnone => absurd hhandle (hnone old hblock)⟩
      obtain rfl := Option.some.inj (hblock.symm.trans hblock')
      exact h
    · have hrefused : s.reallocate b handle flags address size = (s, 0) := by
        rw [reallocate, if_neg haddress]
        cases hblock : s.allocations.lookup address with
        | none => rfl
        | some old => exact if_pos fun hhandle => hlive ⟨old, hblock, hhandle⟩
      rw [hrefused]
      exact ⟨hs, fun old hblock hhandle => absurd ⟨old, hblock, hhandle⟩ hlive,
        fun _ => ⟨rfl, rfl⟩⟩

theorem free_contract (hs : s.Sound) (b : Backing) (handle address : ℕ) :
    (s.free b handle address).1.Sound ∧
      s.FreeContract (s.free b handle address).1 address (s.free b handle address).2 := by
  have hrefused : s.FreeContract s address false :=
    ⟨fun _ => rfl, fun a _ => Same.refl s a, fun h => absurd h Bool.false_ne_true⟩
  rw [free]
  by_cases haddress : address = 0
  · rw [if_pos haddress]
    refine ⟨hs, fun _ => rfl, fun a _ => Same.refl s a, fun _ => ?_⟩
    by_contra hsome
    obtain ⟨allocation, hblock⟩ := Option.ne_none_iff_exists'.mp hsome
    have hpos := (hs.good _ _ hblock).positive
    omega
  · rw [if_neg haddress]
    cases hblock : s.allocations.lookup address with
    | none => exact ⟨hs, hrefused⟩
    | some allocation =>
        dsimp only
        split_ifs
        · exact ⟨hs, hrefused⟩
        · have h := freeLocked_frees hs b address
          exact ⟨h.sound, h.failed, h.same, h.gone⟩

/-- One call keeps the tables in order, and does what it promises. -/
theorem step_sound (hs : s.Sound) (event : Call × Backing) :
    (s.step event).1.Sound ∧ s.Contract event := by
  obtain ⟨call, b⟩ := event
  cases call with
  | allocate handle flags size =>
      have h := allocateLocked_allocates hs b (normalizeHeapHandle handle) flags size
      exact ⟨h.sound, h.newBlock⟩
  | reallocate handle flags address size => exact reallocate_contract hs b handle flags address size
  | free handle address => exact free_contract hs b handle address

/-- **The guest heap keeps its blocks disjoint and their contents intact.**  After any
calls, whatever the guest memory answered, the tables are in order, and any next call
keeps its contract. -/
theorem heap_keeps_blocks (events : List (Call × Backing)) :
    (Transition.run step init events).InOrder ∧
      ∀ event, (Transition.run step init events).Contract event := by
  have hsound : (Transition.run step init events).Sound :=
    Transition.invariant_along (I := Sound) (P := fun _ _ => True)
      (fun _ event hs _ => (step_sound hs event).1) init events Sound.init
      (Transition.along_of_forall (fun _ _ => trivial) _ _)
  exact ⟨hsound.inOrder, fun event => (step_sound hsound event).2⟩

end GuestHeapManager

end Kernel
end XenonRecomp
