/-
# The blocks of the kernel pool stay apart

Every operation of the pool keeps its tables in order (`KernelPool.Sound`), and
what follows from that: live blocks lie apart, runs and blocks tile each arena, a
small request fails only without room and without a new arena, and when the
blocks of an arena are freed it is one run again.
-/

import XenonRecomp.Kernel.KernelPool
import XenonRecomp.Library.Transition

namespace XenonRecomp
namespace Kernel
namespace KernelPool

open Library Library.Tiling

variable {s s' : KernelPool} {b : Backing}

/-! ### Blocks and ranges -/

/-- The range of a block, its header included. -/
def extent (address : ℕ) (allocation : Allocation) : ℕ × ℕ :=
  if allocation.large then (address, allocation.blockSize)
  else (address - headerSize, allocation.blockSize)

/-- A range holds a block: the range of its arena, or its own. -/
structure InRange (s : KernelPool) (base address : ℕ) (allocation : Allocation) : Prop where
  known : ∃ size, s.ranges.lookup base = some size ∧ base ≤ (extent address allocation).1 ∧
    (extent address allocation).1 + (extent address allocation).2 ≤ base + size
  payload : (extent address allocation).1 ≤ address ∧
    address < (extent address allocation).1 + (extent address allocation).2
  large : allocation.large = true → base = address
  small : allocation.large = false → ∃ arena, s.arenas[allocation.arena]? = some arena ∧
    base = arena.base

theorem Sound.inRange (hs : s.Sound) {address : ℕ} {allocation : Allocation}
    (hlive : s.allocations.lookup address = some allocation) :
    ∃ base, s.InRange base address allocation := by
  have hplaced := hs.placed address allocation hlive
  by_cases hlarge : allocation.large = true
  · obtain ⟨hrange, -, -⟩ := hplaced.large hlarge
    obtain ⟨-, hpos, -⟩ := hs.ranges _ _ hrange
    have hextent : extent address allocation = (address, allocation.blockSize) := if_pos hlarge
    refine ⟨address, ⟨allocation.blockSize, hrange, ?_, ?_⟩, ?_, fun _ => rfl, fun hsmall => ?_⟩
    · rw [hextent]
    · rw [hextent]
    · rw [hextent]
      exact ⟨le_rfl, Nat.lt_add_of_pos_right hpos⟩
    · rw [hlarge] at hsmall
      cases hsmall
  · have hsmall : allocation.large = false := Bool.not_eq_true _ ▸ hlarge
    obtain ⟨arena, harena, haddress, -, haligned⟩ := hplaced.small hsmall
    obtain ⟨hpos, hend⟩ := (hs.tiled _ arena harena).block_inside (mem_blocksOf hlive hsmall)
    dsimp only at hpos hend
    have hheader : headerSize < allocation.blockSize :=
      lt_of_lt_of_le (by decide) (Nat.le_of_dvd hpos haligned)
    have hextent : extent address allocation =
        (arena.base + allocation.blockOffset, allocation.blockSize) := by
      rw [extent, if_neg hlarge, haddress, Nat.add_sub_cancel]
    refine ⟨arena.base, ⟨arenaSize, hs.backed _ arena harena, ?_, ?_⟩, ?_,
      fun h => absurd h hlarge, fun _ => ⟨arena, harena, rfl⟩⟩
    · rw [hextent]
      exact Nat.le_add_right ..
    · rw [hextent]
      dsimp only
      omega
    · rw [hextent]
      dsimp only
      omega

/-- **Live blocks lie apart.** -/
theorem Sound.extents_apart (hs : s.Sound) {address address' : ℕ}
    {allocation allocation' : Allocation} (hlive : s.allocations.lookup address = some allocation)
    (hlive' : s.allocations.lookup address' = some allocation') (hne : address ≠ address') :
    (extent address allocation).1 + (extent address allocation).2 ≤
        (extent address' allocation').1 ∨
      (extent address' allocation').1 + (extent address' allocation').2 ≤
        (extent address allocation).1 := by
  obtain ⟨base, hrange⟩ := hs.inRange hlive
  obtain ⟨base', hrange'⟩ := hs.inRange hlive'
  obtain ⟨size, hsize, hlo, hhi⟩ := hrange.known
  obtain ⟨size', hsize', hlo', hhi'⟩ := hrange'.known
  by_cases hbase : base = base'
  · subst hbase
    have hplaced := hs.placed _ _ hlive
    have hplaced' := hs.placed _ _ hlive'
    cases hlarge : allocation.large <;> cases hlarge' : allocation'.large
    · -- Two blocks of one arena are pieces of its tiling.
      obtain ⟨arena, harena, hbase⟩ := hrange.small hlarge
      obtain ⟨arena', harena', hbase'⟩ := hrange'.small hlarge'
      have hindex := hs.distinct _ _ arena arena' harena harena' (hbase ▸ hbase')
      obtain ⟨_, hget, haddress, -⟩ := hplaced.small hlarge
      obtain rfl := Option.some.inj (harena.symm.trans hget)
      obtain ⟨_, hget', haddress', -⟩ := hplaced'.small hlarge'
      obtain rfl := Option.some.inj (harena'.symm.trans hget')
      obtain rfl : arena = arena' := by
        rw [hindex] at harena
        exact Option.some.inj (harena.symm.trans harena')
      have hmem := mem_blocksOf hlive hlarge
      have hmem' := mem_blocksOf hlive' hlarge'
      rw [← hindex] at hmem'
      have hdiff : (allocation.blockOffset, allocation.blockSize) ≠
          (allocation'.blockOffset, allocation'.blockSize) := by
        intro heq
        have hoffset := (Prod.mk.inj heq).1
        omega
      have hapart := (hs.tiled _ arena harena).tiles.apart_of_mem (List.mem_append_right _ hmem)
        (List.mem_append_right _ hmem') hdiff
      have hextent : extent address allocation =
          (arena.base + allocation.blockOffset, allocation.blockSize) := by
        rw [extent, hlarge, haddress, Nat.add_sub_cancel]
        rfl
      have hextent' : extent address' allocation' =
          (arena.base + allocation'.blockOffset, allocation'.blockSize) := by
        rw [extent, hlarge', haddress', Nat.add_sub_cancel]
        rfl
      rw [hextent, hextent']
      dsimp only at hapart ⊢
      omega
    · obtain ⟨arena, harena, hbase⟩ := hrange.small hlarge
      exact absurd (hbase.symm.trans (hrange'.large hlarge'))
        ((hplaced'.large hlarge').2.2 _ arena harena)
    · obtain ⟨arena, harena, hbase⟩ := hrange'.small hlarge'
      exact absurd (hbase.symm.trans (hrange.large hlarge))
        ((hplaced.large hlarge).2.2 _ arena harena)
    · exact absurd ((hrange.large hlarge).symm.trans (hrange'.large hlarge')) hne
  · have hapart := hs.apart base base' size size' hsize hsize' hbase
    omega

/-- Where no block is, none is live. -/
theorem Sound.lookup_none (hs : s.Sound) {x : ℕ}
    (hfree : ∀ address allocation, s.allocations.lookup address = some allocation →
      x < (extent address allocation).1 ∨
        (extent address allocation).1 + (extent address allocation).2 ≤ x) :
    s.allocations.lookup x = none := by
  by_contra hsome
  obtain ⟨allocation, hlive⟩ := Option.ne_none_iff_exists'.mp hsome
  obtain ⟨base, hrange⟩ := hs.inRange hlive
  have hpayload := hrange.payload
  have hout := hfree x allocation hlive
  omega

/-! ### New ranges -/

/-- What `allocate_virtual` does when it finds a range. -/
structure Ranged (s s' : KernelPool) (base size : ℕ) : Prop where
  arenas : s'.arenas = s.arenas
  allocations : s'.allocations = s.allocations
  ranges : s'.ranges = s.ranges.insert base size
  aligned : 0x10000 ∣ base
  inside : base + size ≤ 2 ^ 32
  apart : ∀ base' size', s.ranges.lookup base' = some size' →
    base + size ≤ base' ∨ base' + size' ≤ base

theorem allocateVirtual_ranged {base size : ℕ}
    (hcall : s.allocateVirtual b size = some (s', base)) : s.Ranged s' base size := by
  rw [allocateVirtual] at hcall
  cases hrange : b.range with
  | none =>
    rw [hrange] at hcall
    cases hcall
  | some found =>
    rw [hrange] at hcall
    dsimp only at hcall
    split_ifs at hcall with hfresh
    cases hcall
    obtain ⟨haligned, hinside, hapart⟩ := hfresh
    exact ⟨rfl, rfl, rfl, haligned, hinside, fun base' size' hlookup =>
      hapart ⟨base', size'⟩ (AList.mem_lookup_iff.mp hlookup)⟩

section NewRange

variable {base size : ℕ}

theorem Ranged.lookup (h : s.Ranged s' base size) (x : ℕ) :
    s'.ranges.lookup x = if x = base then some size else s.ranges.lookup x := by
  rw [h.ranges, lookup_insert_eq]

/-- A range that was there keeps its place. -/
theorem Ranged.keeps (h : s.Ranged s' base size) (hs : s.Sound) (hpos : 0 < size) {x n : ℕ}
    (hlookup : s.ranges.lookup x = some n) : x ≠ base ∧ s'.ranges.lookup x = some n := by
  have hne : x ≠ base := by
    rintro rfl
    obtain ⟨-, hpos', -⟩ := hs.ranges _ _ hlookup
    have hapart := h.apart _ _ hlookup
    omega
  rw [h.lookup, if_neg hne]
  exact ⟨hne, hlookup⟩

/-- The tables are in order with a new range. -/
theorem Ranged.sound (h : s.Ranged s' base size) (hs : s.Sound) (hpos : 0 < size) : s'.Sound := by
  refine ⟨?_, fun address allocation hlive => ⟨fun hlarge => ?_, ?_⟩, ?_, ?_, ?_, ?_⟩
  · rw [h.arenas, h.allocations]
    exact hs.tiled
  · rw [h.allocations] at hlive
    obtain ⟨hrange, hsize, hbases⟩ := (hs.placed address allocation hlive).large hlarge
    refine ⟨(h.keeps hs hpos hrange).2, hsize, ?_⟩
    rw [h.arenas]
    exact hbases
  · rw [h.allocations] at hlive
    rw [h.arenas]
    exact (hs.placed address allocation hlive).small
  · rw [h.arenas]
    exact fun index arena harena => (h.keeps hs hpos (hs.backed index arena harena)).2
  · rw [h.arenas]
    exact hs.distinct
  · intro x n hlookup
    rw [h.lookup] at hlookup
    split_ifs at hlookup with heq
    · cases hlookup
      exact heq ▸ ⟨h.aligned, hpos, h.inside⟩
    · exact hs.ranges x n hlookup
  · intro x x' n n' hlookup hlookup' hne
    rw [h.lookup] at hlookup hlookup'
    by_cases heq : x = base
    · rw [if_pos heq] at hlookup
      rw [if_neg fun heq' => hne (heq.trans heq'.symm)] at hlookup'
      cases hlookup
      exact heq ▸ h.apart x' n' hlookup'
    · rw [if_neg heq] at hlookup
      by_cases heq' : x' = base
      · rw [if_pos heq'] at hlookup'
        cases hlookup'
        exact heq' ▸ (h.apart x n hlookup).symm
      · rw [if_neg heq'] at hlookup'
        exact hs.apart x x' n n' hlookup hlookup' hne

/-- A new range holds no block. -/
theorem Ranged.lookup_none (h : s.Ranged s' base size) (hs : s.Sound) (hpos : 0 < size) :
    s.allocations.lookup base = none := by
  refine hs.lookup_none fun address allocation hlive => ?_
  obtain ⟨base', hrange⟩ := hs.inRange hlive
  obtain ⟨size', hlookup, hlo, hhi⟩ := hrange.known
  have hapart := h.apart _ _ hlookup
  omega

theorem Ranged.arena_base (h : s.Ranged s' base size) (hs : s.Sound) (hpos : 0 < size)
    {index : ℕ} {arena : Arena} (harena : s.arenas[index]? = some arena) : arena.base ≠ base :=
  (h.keeps hs hpos (hs.backed index arena harena)).1

end NewRange

/-! ### One arena changes -/

/-- The tables stay in order when the runs of one arena change along with its
blocks. -/
theorem Sound.update (hs : s.Sound) {index : ℕ} {arena : Arena} (runs : Runs)
    {arenas : List Arena} {allocations : AList fun _ : ℕ => Allocation}
    (harena : s.arenas[index]? = some arena)
    (harenas : ∀ j : ℕ,
      arenas[j]? = if j = index then some { arena with freeRuns := runs } else s.arenas[j]?)
    (htiled : Tiled runs (blocksOf allocations index))
    (hothers : ∀ j ≠ index, (blocksOf s.allocations j).Perm (blocksOf allocations j))
    (hplaced : ∀ address allocation, allocations.lookup address = some allocation →
      s.Placed address allocation) :
    { s with arenas, allocations }.Sound := by
  -- The arenas keep their bases.
  have hbase : ∀ (j : ℕ) (new : Arena), arenas[j]? = some new →
      ∃ old : Arena, s.arenas[j]? = some old ∧ new.base = old.base := by
    intro j new hnew
    rw [harenas] at hnew
    split_ifs at hnew with heq
    · cases hnew
      exact ⟨arena, heq ▸ harena, rfl⟩
    · exact ⟨new, hnew, rfl⟩
  refine ⟨?_, fun address allocation hlive => ⟨fun hlarge => ?_, fun hsmall => ?_⟩, ?_, ?_,
    hs.ranges, hs.apart⟩
  · intro j new hnew
    dsimp only at hnew ⊢
    rw [harenas] at hnew
    split_ifs at hnew with heq
    · cases hnew
      exact heq ▸ htiled
    · exact (hs.tiled j new hnew).perm (hothers j heq)
  · obtain ⟨hrange, hsize, hbases⟩ := (hplaced address allocation hlive).large hlarge
    refine ⟨hrange, hsize, fun j new hnew => ?_⟩
    obtain ⟨old, hold, heq⟩ := hbase j new hnew
    rw [heq]
    exact hbases j old hold
  · obtain ⟨old, hold, haddress, hsize⟩ := (hplaced address allocation hlive).small hsmall
    have hnew := harenas allocation.arena
    by_cases heq : allocation.arena = index
    · rw [if_pos heq] at hnew
      rw [heq, harena] at hold
      cases hold
      exact ⟨_, hnew, haddress, hsize⟩
    · rw [if_neg heq] at hnew
      exact ⟨old, hnew.trans hold, haddress, hsize⟩
  · intro j new hnew
    obtain ⟨old, hold, heq⟩ := hbase j new hnew
    rw [heq]
    exact hs.backed j old hold
  · intro j j' new new' hnew hnew' heq
    obtain ⟨old, hold, hbase₁⟩ := hbase j new hnew
    obtain ⟨old', hold', hbase₂⟩ := hbase j' new' hnew'
    exact hs.distinct j j' old old' hold hold' (hbase₁.symm.trans (heq.trans hbase₂))

/-- No block is where a run is. -/
theorem Sound.lookup_run_none (hs : s.Sound) {index : ℕ} {arena : Arena}
    (harena : s.arenas[index]? = some arena) {run : ℕ × ℕ} (hrun : run ∈ arena.freeRuns)
    (hheader : headerSize < run.2) :
    s.allocations.lookup (arena.base + run.1 + headerSize) = none := by
  have htiled := hs.tiled index arena harena
  obtain ⟨-, hend⟩ := htiled.run_inside hrun
  refine hs.lookup_none fun address allocation hlive => ?_
  obtain ⟨base, hrange⟩ := hs.inRange hlive
  obtain ⟨size, hlookup, hlo, hhi⟩ := hrange.known
  by_cases hbase : base = arena.base
  · cases hlarge : allocation.large with
    | true =>
      have haddress := hrange.large hlarge
      exact absurd (hbase.symm.trans haddress)
        (((hs.placed _ _ hlive).large hlarge).2.2 index arena harena)
    | false =>
      obtain ⟨arena', harena', hbase'⟩ := hrange.small hlarge
      obtain rfl := hs.distinct _ _ arena' arena harena' harena (hbase'.symm.trans hbase)
      obtain rfl : arena' = arena := Option.some.inj (harena'.symm.trans harena)
      obtain ⟨_, hget, haddress, -⟩ := (hs.placed _ _ hlive).small hlarge
      obtain rfl := Option.some.inj (harena.symm.trans hget)
      have hmem := mem_blocksOf hlive hlarge
      have hdiff : run ≠ (allocation.blockOffset, allocation.blockSize) := by
        rintro rfl
        exact htiled.run_block_ne hrun hmem rfl
      have hapart := htiled.tiles.apart_of_mem (List.mem_append_left _ hrun)
        (List.mem_append_right _ hmem) hdiff
      have hextent : extent address allocation =
          (arena'.base + allocation.blockOffset, allocation.blockSize) := by
        rw [extent, hlarge, haddress, Nat.add_sub_cancel]
        rfl
      rw [hextent]
      dsimp only at hapart ⊢
      omega
  · have hapart := hs.apart _ _ _ _ hlookup (hs.backed index arena harena) hbase
    omega

/-- A block taken out of a run. -/
theorem Sound.take (hs : s.Sound) {index : ℕ} {arena : Arena}
    (harena : s.arenas[index]? = some arena) {run : ℕ × ℕ} (hrun : run ∈ arena.freeRuns)
    {size need : ℕ} (hsize : size + headerSize ≤ need) (hfits : need ≤ run.2)
    (haligned : blockAlignment ∣ need) :
    s.allocations.lookup (arena.base + run.1 + headerSize) = none ∧
      { s with
        arenas := s.arenas.set index { arena with freeRuns := takeRun need run arena.freeRuns }
        allocations := s.allocations.insert (arena.base + run.1 + headerSize)
          ⟨index, run.1, need, size, false⟩ }.Sound := by
  have hpos : 0 < need := lt_of_lt_of_le (by decide) ((Nat.le_add_left headerSize size).trans hsize)
  have hheader : headerSize < need :=
    lt_of_lt_of_le (by decide) (Nat.le_of_dvd hpos haligned)
  have hfresh := hs.lookup_run_none harena hrun (hheader.trans_le hfits)
  refine ⟨hfresh, hs.update (takeRun need run arena.freeRuns) harena (fun j => ?_) ?_
    (fun j hj => ?_) fun address allocation h => ?_⟩
  · have hlt : index < s.arenas.length := (List.getElem?_eq_some_iff.mp harena).choose
    rw [List.getElem?_set]
    by_cases heq : index = j
    · rw [if_pos heq, if_pos (heq ▸ hlt), if_pos heq.symm]
    · rw [if_neg heq, if_neg (Ne.symm heq)]
  · rw [blocksOf_insert hfresh, if_pos ⟨rfl, rfl⟩]
    exact (hs.tiled index arena harena).take hrun hpos hfits haligned
  · rw [blocksOf_insert hfresh, if_neg fun hself => hj hself.2.symm]
  · rw [lookup_insert_eq] at h
    split_ifs at h with heq
    · cases h
      exact ⟨fun hlarge => absurd hlarge Bool.false_ne_true,
        fun _ => ⟨arena, harena, heq, hsize, haligned⟩⟩
    · exact hs.placed address allocation h

/-- A block given back. -/
theorem Sound.give (hs : s.Sound) {address : ℕ} {allocation : Allocation}
    (hlive : s.allocations.lookup address = some allocation)
    (hsmall : allocation.large = false) :
    { s with
      arenas := s.arenas.modify allocation.arena fun arena =>
        { arena with
          freeRuns := returnRun arena.freeRuns allocation.blockOffset allocation.blockSize }
      allocations := s.allocations.erase address }.Sound := by
  obtain ⟨arena, harena, haddress, -⟩ := (hs.placed _ _ hlive).small hsmall
  refine hs.update (returnRun arena.freeRuns allocation.blockOffset allocation.blockSize) harena
    (fun j => ?_) ?_ (fun j hj => ?_) fun address' allocation' h => ?_
  · rw [List.getElem?_modify]
    by_cases heq : j = allocation.arena
    · rw [if_pos heq, heq, harena]
      simp
    · rw [if_neg heq]
      simp [Ne.symm heq]
  · have hperm := blocksOf_perm hlive allocation.arena
    rw [if_pos ⟨hsmall, rfl⟩] at hperm
    exact ((hs.tiled _ arena harena).perm hperm).give
  · have hperm := blocksOf_perm hlive j
    rwa [if_neg fun hself => hj hself.2.symm] at hperm
  · rw [lookup_erase_eq] at h
    split_ifs at h
    exact hs.placed address' allocation' h

/-- A block of its own given back with its range. -/
theorem Sound.drop (hs : s.Sound) {address : ℕ} {allocation : Allocation}
    (hlive : s.allocations.lookup address = some allocation)
    (hlarge : allocation.large = true) :
    { s with
      ranges := s.ranges.erase address
      allocations := s.allocations.erase address }.Sound := by
  have hbases := ((hs.placed _ _ hlive).large hlarge).2.2
  have hold : ∀ {base size : ℕ}, (s.ranges.erase address).lookup base = some size →
      s.ranges.lookup base = some size := by
    intro base size hlookup
    rw [lookup_erase_eq] at hlookup
    split_ifs at hlookup
    exact hlookup
  refine ⟨fun index arena harena => ?_, fun address' allocation' h => ?_,
    fun index arena harena => ?_, hs.distinct, fun base size h => hs.ranges base size (hold h),
    fun base base' size size' h h' => hs.apart base base' size size' (hold h) (hold h')⟩
  · have hperm := blocksOf_perm hlive index
    rw [if_neg fun hself => Bool.false_ne_true (hself.1.symm.trans hlarge)] at hperm
    exact (hs.tiled index arena harena).perm hperm
  · dsimp only at h
    rw [lookup_erase_eq] at h
    split_ifs at h with hne
    have hplaced := hs.placed address' allocation' h
    refine ⟨fun hlarge' => ?_, hplaced.small⟩
    obtain ⟨hrange, hrest⟩ := hplaced.large hlarge'
    refine ⟨?_, hrest⟩
    dsimp only
    rw [lookup_erase_eq, if_neg hne]
    exact hrange
  · dsimp only
    rw [lookup_erase_eq, if_neg (hbases index arena harena)]
    exact hs.backed index arena harena

/-! ### The operations -/

theorem firstFit_some {need index : ℕ} {run : ℕ × ℕ} {arenas : List Arena}
    (h : firstFit need arenas = some (index, run)) :
    ∃ arena : Arena, arenas[index]? = some arena ∧ run ∈ arena.freeRuns ∧ need ≤ run.2 := by
  induction arenas generalizing index with
  | nil => cases h
  | cons first rest ih =>
    rw [firstFit] at h
    cases hfind : first.freeRuns.find? fun run => decide (need ≤ run.2) with
    | some found =>
      rw [hfind] at h
      cases h
      exact ⟨first, rfl, List.mem_of_find?_eq_some hfind,
        of_decide_eq_true (List.find?_some hfind :)⟩
    | none =>
      rw [hfind] at h
      obtain ⟨⟨index', run'⟩, hrest, heq⟩ := Option.map_eq_some_iff.mp h
      cases heq
      exact ih hrest

theorem firstFit_none {need : ℕ} {arenas : List Arena} (h : firstFit need arenas = none) :
    ∀ arena ∈ arenas, ∀ run ∈ arena.freeRuns, run.2 < need := by
  induction arenas with
  | nil => exact fun arena harena => absurd harena List.not_mem_nil
  | cons first rest ih =>
    rw [firstFit] at h
    cases hfind : first.freeRuns.find? fun run => decide (need ≤ run.2) with
    | some found =>
      rw [hfind] at h
      cases h
    | none =>
      rw [hfind] at h
      refine List.forall_mem_cons.mpr ⟨fun run hrun => ?_, ih (Option.map_eq_none_iff.mp h)⟩
      have hsmall := List.find?_eq_none.mp hfind run hrun
      rw [decide_eq_true_iff] at hsmall
      omega

/-- What an allocation that returned `address` did to the live blocks; 0 may be a
failure. -/
structure Allocates (s s' : KernelPool) (size address : ℕ) : Prop where
  sound : s'.Sound
  block : (address = 0 ∧ s'.allocations = s.allocations) ∨
    s.allocations.lookup address = none ∧ ∃ allocation, allocation.requested = size ∧
      s'.allocations = s.allocations.insert address allocation

theorem takeFirstFit_allocates (hs : s.Sound) {size need : ℕ} {tag : BitVec 32} {address : ℕ}
    (hsize : size + headerSize ≤ need) (haligned : blockAlignment ∣ need)
    (hcall : s.takeFirstFit size need tag = some (s', address)) :
    s.Allocates s' size address ∧ address ≠ 0 := by
  rw [takeFirstFit] at hcall
  cases hfit : firstFit need s.arenas with
  | none =>
    rw [hfit] at hcall
    cases hcall
  | some fit =>
    obtain ⟨index, run⟩ := fit
    obtain ⟨arena, harena, hrun, hfits⟩ := firstFit_some hfit
    rw [hfit] at hcall
    dsimp only at hcall
    rw [harena] at hcall
    dsimp only at hcall
    obtain ⟨hfresh, hsound⟩ := hs.take harena hrun hsize hfits haligned
    cases hcall
    refine ⟨⟨hsound.withBytes _, .inr ⟨hfresh, _, ?_, rfl⟩⟩, Nat.succ_ne_zero _⟩
    rfl

/-- A pass that finds nothing found no run that is large enough. -/
theorem takeFirstFit_none {size need : ℕ} {tag : BitVec 32}
    (hcall : s.takeFirstFit size need tag = none) : firstFit need s.arenas = none := by
  rw [takeFirstFit] at hcall
  cases hfit : firstFit need s.arenas with
  | none => rfl
  | some fit =>
    obtain ⟨index, run⟩ := fit
    obtain ⟨arena, harena, -⟩ := firstFit_some hfit
    rw [hfit] at hcall
    dsimp only at hcall
    rw [harena] at hcall
    cases hcall

theorem addArena_sound (hs : s.Sound) (hcall : s.addArena b = some s') :
    s'.Sound ∧ s'.allocations = s.allocations ∧
      ∃ base, s'.arenas = s.arenas ++ [⟨base, [(0, arenaSize)]⟩] := by
  rw [addArena] at hcall
  cases hrange : s.allocateVirtual b arenaSize with
  | none =>
    rw [hrange] at hcall
    cases hcall
  | some answer =>
    obtain ⟨s₁, base⟩ := answer
    rw [hrange] at hcall
    cases hcall
    have hranged := allocateVirtual_ranged hrange
    have hpos : 0 < arenaSize := by decide
    have hs₁ := hranged.sound hs hpos
    have hbacked : s₁.ranges.lookup base = some arenaSize := by
      rw [hranged.lookup, if_pos rfl]
    have hbases : ∀ (index : ℕ) (arena : Arena), s₁.arenas[index]? = some arena →
        arena.base ≠ base := by
      rw [hranged.arenas]
      exact fun index arena => hranged.arena_base hs hpos
    -- The arenas are the old ones and the new one behind them.
    have hsplit : ∀ (index : ℕ) (arena : Arena),
        (s₁.arenas ++ [⟨base, [(0, arenaSize)]⟩])[index]? = some arena →
        s₁.arenas[index]? = some arena ∨
          index = s₁.arenas.length ∧ arena = ⟨base, [(0, arenaSize)]⟩ := by
      intro index arena harena
      by_cases hlt : index < s₁.arenas.length
      · rw [List.getElem?_append_left hlt] at harena
        exact .inl harena
      · rw [List.getElem?_append_right (not_lt.mp hlt)] at harena
        obtain ⟨hzero, heq⟩ := List.getElem?_eq_some_iff.mp harena
        simp only [List.length_singleton] at hzero
        refine .inr ⟨by omega, ?_⟩
        rw [← heq]
        exact (List.getElem_singleton hzero :)
    have hnoblocks : blocksOf s₁.allocations s₁.arenas.length = [] := by
      refine List.filterMap_eq_nil_iff.mpr fun entry hentry => if_neg ?_
      rintro ⟨hsmall, hindex⟩
      have hlive : s₁.allocations.lookup entry.1 = some entry.2 := AList.mem_lookup_iff.mpr hentry
      obtain ⟨arena, harena, -⟩ := (hs₁.placed _ _ hlive).small hsmall
      rw [hindex, List.getElem?_eq_none le_rfl] at harena
      cases harena
    refine ⟨⟨fun index arena harena => ?_, fun address allocation hlive => ?_,
      fun index arena harena => ?_, fun index index' arena arena' harena harena' heq => ?_,
      hs₁.ranges, hs₁.apart⟩, hranged.allocations, base, by rw [← hranged.arenas]⟩
    · rcases hsplit index arena harena with hold | ⟨rfl, rfl⟩
      · exact hs₁.tiled index arena hold
      · dsimp only
        rw [hnoblocks]
        exact .start
    · have hplaced := hs₁.placed address allocation hlive
      refine ⟨fun hlarge => ?_, fun hsmall => ?_⟩
      · obtain ⟨hrange', hsize, hne⟩ := hplaced.large hlarge
        refine ⟨hrange', hsize, fun index arena harena => ?_⟩
        rcases hsplit index arena harena with hold | ⟨-, rfl⟩
        · exact hne index arena hold
        · rintro rfl
          dsimp only at hlive
          have hnone := hranged.lookup_none hs hpos
          rw [← hranged.allocations, hlive] at hnone
          cases hnone
      · obtain ⟨arena, harena, hplace⟩ := hplaced.small hsmall
        have hlt : allocation.arena < s₁.arenas.length :=
          (List.getElem?_eq_some_iff.mp harena).choose
        exact ⟨arena, (List.getElem?_append_left hlt).trans harena, hplace⟩
    · rcases hsplit index arena harena with hold | ⟨-, rfl⟩
      · exact hs₁.backed index arena hold
      · exact hbacked
    · rcases hsplit index arena harena with hold | ⟨rfl, rfl⟩
      · rcases hsplit index' arena' harena' with hold' | ⟨-, rfl⟩
        · exact hs₁.distinct index index' arena arena' hold hold' heq
        · exact absurd heq (hbases index arena hold)
      · rcases hsplit index' arena' harena' with hold' | ⟨rfl, -⟩
        · exact absurd heq.symm (hbases index' arena' hold')
        · rfl

/-- The size of the block of a small request. -/
theorem need_spec (size : ℕ) :
    size + headerSize ≤ alignUp (size + headerSize) blockAlignment ∧
      blockAlignment ∣ alignUp (size + headerSize) blockAlignment := by
  refine ⟨?_, Dvd.intro_left _ rfl⟩
  have hmod := Nat.div_add_mod (size + headerSize + blockAlignment - 1) blockAlignment
  have hlt : (size + headerSize + blockAlignment - 1) % blockAlignment < blockAlignment :=
    Nat.mod_lt _ (by decide)
  rw [alignUp, Nat.mul_comm]
  omega

theorem need_le_arenaSize {size : ℕ} (hsize : size ≤ smallLimit) :
    alignUp (size + headerSize) blockAlignment ≤ arenaSize := by
  have hle : (size + headerSize + blockAlignment - 1) / blockAlignment ≤
      (smallLimit + headerSize + blockAlignment - 1) / blockAlignment := by
    refine Nat.div_le_div_right (Nat.sub_le_sub_right (Nat.add_le_add_right ?_ _) _)
    exact Nat.add_le_add_right hsize _
  exact (Nat.mul_le_mul_right blockAlignment hle).trans (by decide)

theorem Allocates.failed (hs : s.Sound) (size : ℕ) : s.Allocates s size 0 :=
  ⟨hs, .inl ⟨rfl, rfl⟩⟩

/-- What a small request does, and when it fails. -/
theorem allocateSmall_allocates (hs : s.Sound) (b : Backing) {size : ℕ} (tag : BitVec 32)
    (hlimit : size ≤ smallLimit) :
    s.Allocates (s.allocateSmall b size tag).1 size (s.allocateSmall b size tag).2 ∧
      ((s.allocateSmall b size tag).2 = 0 →
        (∀ arena ∈ s.arenas, ∀ run ∈ arena.freeRuns,
          run.2 < alignUp (size + headerSize) blockAlignment) ∧
        s.allocateVirtual b arenaSize = none) := by
  obtain ⟨hsize, haligned⟩ := need_spec size
  rw [allocateSmall]
  cases htake : s.takeFirstFit size (alignUp (size + headerSize) blockAlignment) tag with
  | some taken =>
    obtain ⟨hallocates, hne⟩ := takeFirstFit_allocates hs hsize haligned htake
    exact ⟨hallocates, fun hzero => absurd hzero hne⟩
  | none =>
    have hfull := firstFit_none (takeFirstFit_none htake)
    cases harena : s.addArena b with
    | none =>
      refine ⟨.failed hs size, fun _ => ⟨hfull, ?_⟩⟩
      rw [addArena] at harena
      cases hrange : s.allocateVirtual b arenaSize with
      | none => rfl
      | some answer =>
        rw [hrange] at harena
        cases harena
    | some s₁ =>
      obtain ⟨hs₁, hsame, base, harenas⟩ := addArena_sound hs harena
      dsimp only
      cases hagain : s₁.takeFirstFit size (alignUp (size + headerSize) blockAlignment) tag with
      | none =>
        -- The new arena is one run, which is large enough.
        exfalso
        have hnew := firstFit_none (takeFirstFit_none hagain) ⟨base, [(0, arenaSize)]⟩
          (harenas ▸ List.mem_append_right _ List.mem_cons_self) (0, arenaSize)
          List.mem_cons_self
        exact absurd (need_le_arenaSize hlimit) (not_le.mpr hnew)
      | some taken =>
        obtain ⟨⟨hsound, hblock⟩, hne⟩ := takeFirstFit_allocates hs₁ hsize haligned hagain
        rw [hsame] at hblock
        exact ⟨⟨hsound, hblock⟩, fun hzero => absurd hzero hne⟩

theorem allocateLarge_allocates (hs : s.Sound) (b : Backing) {size : ℕ} (hpos : 0 < size) :
    s.Allocates (s.allocateLarge b size).1 size (s.allocateLarge b size).2 := by
  rw [allocateLarge]
  cases hrange : s.allocateVirtual b size with
  | none => exact .failed hs size
  | some answer =>
    obtain ⟨s₁, base⟩ := answer
    have hranged := allocateVirtual_ranged hrange
    have hs₁ := hranged.sound hs hpos
    have hnone := hranged.lookup_none hs hpos
    have hnone₁ : s₁.allocations.lookup base = none := hranged.allocations ▸ hnone
    dsimp only
    refine ⟨⟨fun index arena harena => ?_, fun address allocation hlive => ?_, hs₁.backed,
      hs₁.distinct, hs₁.ranges, hs₁.apart⟩, .inr ⟨hnone, _, ?_, by rw [← hranged.allocations]⟩⟩
    · dsimp only
      rw [blocksOf_insert hnone₁, if_neg fun hself => Bool.false_ne_true hself.1.symm]
      exact hs₁.tiled index arena harena
    · dsimp only at hlive
      rw [lookup_insert_eq] at hlive
      split_ifs at hlive with heq
      · cases hlive
        subst heq
        refine ⟨fun _ => ⟨?_, rfl, fun index arena harena => ?_⟩,
          fun hsmall => absurd hsmall.symm Bool.false_ne_true⟩
        · exact (hranged.lookup address).trans (if_pos rfl)
        · exact hranged.arena_base hs hpos (hranged.arenas ▸ harena)
      · exact ⟨(hs₁.placed address allocation hlive).large,
          (hs₁.placed address allocation hlive).small⟩
    · rfl

theorem allocate_allocates (hs : s.Sound) (b : Backing) (size : ℕ) (tag : BitVec 32) :
    s.Allocates (s.allocate b size tag).1 size (s.allocate b size tag).2 := by
  rw [allocate]
  split_ifs with hlimit
  · exact (allocateSmall_allocates hs b tag hlimit).1
  · exact allocateLarge_allocates hs b (by omega)

/-- What `free` does to the live blocks. -/
structure Frees (s s' : KernelPool) (address : ℕ) : Prop where
  sound : s'.Sound
  blocks : s'.allocations = s.allocations ∨ s'.allocations = s.allocations.erase address
  small : address ≠ 0 → ∀ allocation, s.allocations.lookup address = some allocation →
    allocation.large = false → s'.allocations = s.allocations.erase address

theorem free_frees (hs : s.Sound) (b : Backing) (address : ℕ) :
    s.Frees (s.free b address).1 address := by
  rw [free]
  split_ifs with hzero
  · exact ⟨hs, .inl rfl, fun hne => absurd hzero hne⟩
  cases hlive : s.allocations.lookup address with
  | none =>
    refine ⟨hs, .inl rfl, fun _ allocation h => ?_⟩
    rw [hlive] at h
    cases h
  | some allocation =>
    dsimp only
    cases hlarge : allocation.large with
    | false =>
      refine ⟨?_, .inr rfl, fun _ _ _ _ => rfl⟩
      exact (hs.give hlive hlarge).withBytes _
    | true =>
      have hnosmall : ∀ old, s.allocations.lookup address = some old → old.large = false →
          False := by
        intro old hold hsmall
        obtain rfl := Option.some.inj (hlive.symm.trans hold)
        exact Bool.false_ne_true (hsmall.symm.trans hlarge)
      rw [if_pos rfl, freeVirtual]
      split_ifs
      · exact ⟨hs.drop hlive hlarge, .inr rfl,
          fun _ old hold hsmall => (hnosmall old hold hsmall).elim⟩
      · exact ⟨hs, .inl rfl, fun _ old hold hsmall => (hnosmall old hold hsmall).elim⟩

/-! ### Runs -/

/-- A call of the pool. -/
inductive Call where
  | allocate (size : ℕ) (tag : BitVec 32)
  | free (address : ℕ)
deriving DecidableEq, Repr

/-- A call with the answers of the kernel memory, and what it returns: an address, or
whether `free` succeeded. -/
def step (s : KernelPool) (event : Call × Backing) : KernelPool × (ℕ ⊕ Bool) :=
  match event.1 with
  | .allocate size tag =>
    let (s, address) := s.allocate event.2 size tag
    (s, .inl address)
  | .free address =>
    let (s, freed) := s.free event.2 address
    (s, .inr freed)

theorem step_sound (hs : s.Sound) (event : Call × Backing) : (s.step event).1.Sound := by
  obtain ⟨call, b⟩ := event
  cases call with
  | allocate size tag => exact (allocate_allocates hs b size tag).sound
  | free address => exact (free_frees hs b address).sound

theorem run_sound (hs : s.Sound) (events : List (Call × Backing)) :
    (Transition.run step s events).Sound :=
  Transition.invariant_along (I := Sound) (P := fun _ _ => True)
    (fun _ event hs _ => step_sound hs event) s events hs
    (Transition.along_of_forall (fun _ _ => trivial) _ _)

/-- The calls that free these addresses, each with its answers. -/
def frees (addresses : List (ℕ × Backing)) : List (Call × Backing) :=
  addresses.map fun (address, b) => (.free address, b)

/-- Small blocks whose addresses are freed are gone, and no block is new. -/
theorem run_frees (hs : s.Sound) (addresses : List (ℕ × Backing)) {address : ℕ}
    {allocation : Allocation}
    (hlive : (Transition.run step s (frees addresses)).allocations.lookup address =
      some allocation) :
    s.allocations.lookup address = some allocation ∧
      (allocation.large = false → ∀ b, (address, b) ∉ addresses) := by
  induction addresses generalizing s with
  | nil => exact ⟨hlive, fun _ _ => List.not_mem_nil⟩
  | cons first rest ih =>
    obtain ⟨freed, b⟩ := first
    have hfrees := free_frees hs b freed
    obtain ⟨hafter, hrest⟩ := ih hfrees.sound hlive
    have hbefore : s.allocations.lookup address = some allocation := by
      rcases hfrees.blocks with hsame | herase
      · rwa [hsame] at hafter
      · rw [herase, lookup_erase_eq] at hafter
        split_ifs at hafter
        exact hafter
    refine ⟨hbefore, fun hsmall b' hmem => ?_⟩
    rcases List.mem_cons.mp hmem with heq | hmem
    · obtain rfl : address = freed := (Prod.mk.inj heq).1
      have hne : address ≠ 0 := by
        obtain ⟨arena, -, haddress, -⟩ := (hs.placed _ _ hbefore).small hsmall
        rw [haddress]
        exact Nat.succ_ne_zero _
      rw [hfrees.small hne allocation hbefore hsmall, lookup_erase_eq, if_pos rfl] at hafter
      cases hafter
    · exact hrest hsmall b' hmem

/-- Freeing leaves the arenas, up to their runs. -/
theorem run_frees_arenas (addresses : List (ℕ × Backing)) :
    (Transition.run step s (frees addresses)).arenas.length = s.arenas.length := by
  induction addresses generalizing s with
  | nil => rfl
  | cons first rest ih =>
    refine ih.trans ?_
    change (s.free first.2 first.1).1.arenas.length = s.arenas.length
    rw [free]
    split_ifs
    · rfl
    cases s.allocations.lookup first.1 with
    | none => rfl
    | some allocation =>
      dsimp only
      split_ifs
      · rw [freeVirtual]
        split_ifs <;> rfl
      · exact List.length_modify ..

/-! ### What the pool promises -/

/-- The blocks and the arenas are in order. -/
structure InOrder (s : KernelPool) : Prop where
  small : ∀ address allocation, s.allocations.lookup address = some allocation →
    allocation.large = false → ∃ arena, s.arenas[allocation.arena]? = some arena ∧
      address = arena.base + allocation.blockOffset + headerSize ∧
      blockAlignment ∣ arena.base + allocation.blockOffset ∧
      allocation.blockOffset + allocation.blockSize ≤ arenaSize
  apart : ∀ address address' allocation allocation',
    s.allocations.lookup address = some allocation →
    s.allocations.lookup address' = some allocation' → address ≠ address' →
    (extent address allocation).1 + (extent address allocation).2 ≤
        (extent address' allocation').1 ∨
      (extent address' allocation').1 + (extent address' allocation').2 ≤
        (extent address allocation).1
  usable : ∀ address allocation, s.allocations.lookup address = some allocation →
    allocation.requested ≤ s.usableSize address ∧ (extent address allocation).1 ≤ address ∧
      address + s.usableSize address ≤
        (extent address allocation).1 + (extent address allocation).2
  tiled : ∀ (index : ℕ) (arena : Arena), s.arenas[index]? = some arena →
    Tiled arena.freeRuns (blocksOf s.allocations index)
  whole : ∀ (index : ℕ) (arena : Arena), s.arenas[index]? = some arena →
    (∀ address allocation, s.allocations.lookup address = some allocation →
      allocation.large = false → allocation.arena ≠ index) →
    arena.freeRuns = [(0, arenaSize)]

theorem Sound.inOrder (hs : s.Sound) : s.InOrder where
  small := by
    intro address allocation hlive hsmall
    obtain ⟨arena, harena, haddress, -⟩ := (hs.placed _ _ hlive).small hsmall
    have htiled := hs.tiled _ arena harena
    have hmem := mem_blocksOf hlive hsmall
    obtain ⟨hbase, -⟩ := hs.ranges _ _ (hs.backed _ arena harena)
    have hbase' : blockAlignment ∣ arena.base := (by decide : blockAlignment ∣ 0x10000).trans hbase
    exact ⟨arena, harena, haddress,
      Nat.dvd_add hbase' (htiled.aligned _ (List.mem_append_right _ hmem)),
      (htiled.block_inside hmem).2⟩
  apart := fun _ _ _ _ => hs.extents_apart
  usable := by
    intro address allocation hlive
    have hplaced := hs.placed _ _ hlive
    have husable : s.usableSize address =
        if allocation.large then allocation.requested else allocation.blockSize - headerSize := by
      rw [usableSize, hlive]
    rw [husable, extent]
    cases hlarge : allocation.large with
    | true =>
      rw [if_pos rfl, if_pos rfl]
      exact ⟨le_rfl, le_rfl, (Nat.add_le_add_left (hplaced.large hlarge).2.1.le address :)⟩
    | false =>
      obtain ⟨arena, -, haddress, hsize, -⟩ := hplaced.small hlarge
      rw [if_neg Bool.false_ne_true, if_neg Bool.false_ne_true]
      dsimp only
      omega
  tiled := hs.tiled
  whole := by
    intro index arena harena hnone
    have hblocks : blocksOf s.allocations index = [] := by
      refine List.filterMap_eq_nil_iff.mpr fun entry hentry => if_neg ?_
      rintro ⟨hsmall, hindex⟩
      exact hnone entry.1 entry.2 (AList.mem_lookup_iff.mpr hentry) hsmall hindex
    have htiled := hs.tiled index arena harena
    rw [hblocks] at htiled
    exact htiled.whole

/-- **The kernel pool keeps its blocks disjoint.**  After any calls, whatever the
kernel memory answered: the blocks lie apart in arenas that they tile together
with the free runs; a small request fails only where no run is large enough and
no new arena is found; and calls that free every small block make every arena one
run. -/
theorem pool_keeps_blocks (events : List (Call × Backing)) :
    (Transition.run step init events).InOrder ∧
      (∀ b size tag, size ≤ smallLimit →
        ((Transition.run step init events).allocate b size tag).2 = 0 →
        (∀ arena ∈ (Transition.run step init events).arenas, ∀ run ∈ arena.freeRuns,
          run.2 < alignUp (size + headerSize) blockAlignment) ∧
        (Transition.run step init events).allocateVirtual b arenaSize = none) ∧
      ∀ addresses : List (ℕ × Backing),
        (∀ address allocation,
          (Transition.run step init events).allocations.lookup address = some allocation →
          allocation.large = false → ∃ b, (address, b) ∈ addresses) →
        (Transition.run step (Transition.run step init events) (frees addresses)).arenas.length =
            (Transition.run step init events).arenas.length ∧
          ∀ arena ∈
            (Transition.run step (Transition.run step init events) (frees addresses)).arenas,
            arena.freeRuns = [(0, arenaSize)] := by
  have hs := run_sound Sound.init events
  refine ⟨hs.inOrder, fun b size tag hlimit hzero => ?_, fun addresses hall =>
    ⟨run_frees_arenas addresses, fun arena harena => ?_⟩⟩
  · rw [allocate, if_pos hlimit] at hzero
    exact (allocateSmall_allocates hs b tag hlimit).2 hzero
  · obtain ⟨index, hlt, hget⟩ := List.getElem_of_mem harena
    refine (run_sound hs (frees addresses)).inOrder.whole index arena
      (List.getElem?_eq_some_iff.mpr ⟨hlt, hget⟩) fun address allocation hlive hsmall => ?_
    obtain ⟨hbefore, hgone⟩ := run_frees hs addresses hlive
    obtain ⟨b, hmem⟩ := hall address allocation hbefore hsmall
    exact absurd hmem (hgone hsmall b)

end KernelPool
end Kernel
end XenonRecomp
