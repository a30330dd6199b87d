/-
# Allocation and free keep the heap sound

The calls of `GuestHeapManager` one by one: each keeps the tables in order
(`Sound`), and leaves the blocks that it is not about with their bytes (`Same`).
A block that an allocation returns was not live before, and reads zero where the
flags ask for it.  A block that is freed is no longer live.
-/

import XenonRecomp.Kernel.GuestHeapLayout

namespace XenonRecomp
namespace Kernel

open Library.Tiling

namespace GuestHeapManager

/-- A live block at this address stays, with its bytes. -/
def Same (s s' : GuestHeapManager) (address : ℕ) : Prop :=
  ∀ allocation, s.allocations.lookup address = some allocation →
    s'.allocations.lookup address = some allocation ∧
      ∀ x, address ≤ x → x < address + allocation.blockSize → s'.bytes x = s.bytes x

variable {s s' s'' : GuestHeapManager} {b : Backing}

theorem Same.refl (s : GuestHeapManager) (address : ℕ) : s.Same s address :=
  fun _ h => ⟨h, fun _ _ _ => rfl⟩

theorem Same.trans {address : ℕ} (h : s.Same s' address) (h' : s'.Same s'' address) :
    s.Same s'' address := by
  intro allocation hblock
  obtain ⟨hkept, hbytes⟩ := h allocation hblock
  obtain ⟨hkept', hbytes'⟩ := h' allocation hkept
  exact ⟨hkept', fun x hlo hhi => (hbytes' x hlo hhi).trans (hbytes x hlo hhi)⟩

/-- If neither the blocks nor the bytes change, all blocks stay. -/
theorem same_of_eq (hblocks : s'.allocations = s.allocations) (hbytes : s'.bytes = s.bytes)
    (address : ℕ) : s.Same s' address := by
  intro allocation hblock
  rw [hblocks, hbytes]
  exact ⟨hblock, fun _ _ _ => rfl⟩

/-- The bytes of guest memory matter to none of the tables. -/
theorem Sound.withBytes (h : s.Sound) (bytes : ℕ → BitVec 8) : { s with bytes }.Sound :=
  h.relabel bytes (fun _ _ _ => .refl _) h.good

/-! ### Ranges -/

/-- What `allocate_virtual` leaves when it finds a range. -/
structure Ranged (s s' : GuestHeapManager) (size : ℕ) (zero : Bool) (range : ℕ × ℕ) : Prop where
  allocations : s'.allocations = s.allocations
  heaps : s'.heaps = s.heaps
  fresh : s.Fresh size range
  lookup : ∀ a, s'.ranges.lookup a = if a = range.1 then some range.2 else s.ranges.lookup a
  inside : zero = true → ∀ x, range.1 ≤ x → x < range.1 + range.2 → s'.bytes x = 0
  outside : ∀ x, ¬(range.1 ≤ x ∧ x < range.1 + range.2) → s'.bytes x = s.bytes x

theorem allocateVirtual_ranged {size : ℕ} {zero : Bool} {range : ℕ × ℕ}
    (hcall : s.allocateVirtual b size zero = some (s', range)) : s.Ranged s' size zero range := by
  rw [allocateVirtual] at hcall
  cases hrange : b.range with
  | none =>
      rw [hrange] at hcall
      exact absurd hcall (Option.some_ne_none _).symm
  | some found =>
      rw [hrange] at hcall
      by_cases hfresh : s.Fresh size found
      · simp only [if_pos hfresh] at hcall
        obtain ⟨rfl, rfl⟩ := Prod.mk.inj (Option.some.inj hcall)
        refine ⟨rfl, rfl, hfresh, fun a => lookup_insert_eq a, fun hzero x hlo hhi => ?_,
          fun x hx => if_neg hx⟩
        dsimp only
        rw [if_pos ⟨hlo, hhi⟩, if_pos hzero]
      · simp only [if_neg hfresh] at hcall
        exact absurd hcall (Option.some_ne_none _).symm

section Ranged

variable {size : ℕ} {zero : Bool} {range : ℕ × ℕ}

/-- A range that is known lies apart from the new one. -/
theorem Ranged.apart (h : s.Ranged s' size zero range) {base old : ℕ}
    (hold : s.ranges.lookup base = some old) :
    range.1 + range.2 ≤ base ∨ base + old ≤ range.1 :=
  h.fresh.2.2.2.2 ⟨base, old⟩ (AList.mem_lookup_iff.mp (Option.mem_def.mpr hold))

/-- The new range was not known. -/
theorem Ranged.unknown (h : s.Ranged s' size zero range) (hs : s.Sound) (hsize : 0 < size) :
    s.ranges.lookup range.1 = none := by
  by_contra hsome
  obtain ⟨old, hold⟩ := Option.ne_none_iff_exists'.mp hsome
  have hpos := (hs.ranges _ _ hold).2.2.1
  have hle := h.fresh.2.2.1
  rcases h.apart hold with hapart | hapart <;> omega

/-- No segment starts where the new range does. -/
theorem Ranged.segment_none (h : s.Ranged s' size zero range) (hs : s.Sound) (hsize : 0 < size)
    (handle : ℕ) : (s.heaps handle).segments.lookup range.1 = none := by
  by_contra hsome
  obtain ⟨segment, hsegment⟩ := Option.ne_none_iff_exists'.mp hsome
  obtain ⟨old, hold, -⟩ := hs.backed handle _ segment hsegment
  rw [h.unknown hs hsize] at hold
  exact absurd hold (Option.some_ne_none _).symm

/-- A live block lies apart from the new range. -/
theorem Ranged.block_apart (h : s.Ranged s' size zero range) (hs : s.Sound) {address : ℕ}
    {allocation : Allocation} (hblock : s.allocations.lookup address = some allocation) :
    range.1 + range.2 ≤ address ∨ address + allocation.blockSize ≤ range.1 := by
  obtain ⟨old, hold, hlo, hhi⟩ := hs.block_range hblock
  rcases h.apart hold with hapart | hapart
  · exact .inl (by omega)
  · exact .inr (by omega)

/-- No block is live where the new range starts. -/
theorem Ranged.block_none (h : s.Ranged s' size zero range) (hs : s.Sound) (hsize : 0 < size) :
    s.allocations.lookup range.1 = none := by
  by_contra hsome
  obtain ⟨allocation, hblock⟩ := Option.ne_none_iff_exists'.mp hsome
  have hgood := hs.good _ _ hblock
  have hpos := hgood.nonempty.trans_le hgood.enough
  have hle := h.fresh.2.2.1
  rcases h.block_apart hs hblock with hapart | hapart <;> omega

theorem Ranged.same (h : s.Ranged s' size zero range) (hs : s.Sound) (address : ℕ) :
    s.Same s' address := by
  intro allocation hblock
  refine ⟨by rw [h.allocations]; exact hblock, fun x hlo hhi => h.outside x fun hx => ?_⟩
  rcases h.block_apart hs hblock with hapart | hapart <;> omega

/-- A new range keeps the tables in order. -/
theorem Ranged.sound (h : s.Ranged s' size zero range) (hs : s.Sound) (hsize : 0 < size) :
    s'.Sound := by
  obtain ⟨hbase, halign, hle, hend, -⟩ := h.fresh
  have hkept : ∀ {a n}, s.ranges.lookup a = some n → s'.ranges.lookup a = some n := by
    intro a n ha
    rw [h.lookup, if_neg, ha]
    rintro rfl
    rw [h.unknown hs hsize] at ha
    exact absurd ha (Option.some_ne_none _).symm
  refine ⟨fun handle => ?_, fun handle b segment hb => ?_, fun a allocation ha => ?_,
    fun handle b segment hb => ?_, fun handle handle' b hb hb' => ?_, fun a n ha => ?_,
    fun a a' n n' ha ha' hne => ?_⟩
  · rw [h.heaps, h.allocations]
    exact hs.fits handle
  · rw [h.heaps] at hb
    rw [h.allocations]
    exact hs.counted handle b segment hb
  · rw [h.allocations] at ha
    obtain ⟨hpos, haligned, hnonempty, henough, hplace⟩ := hs.good a allocation ha
    refine ⟨hpos, haligned, hnonempty, henough, ?_⟩
    rw [h.heaps]
    split_ifs at hplace ⊢ with hlarge
    · exact ⟨hkept hplace.1, hplace.2⟩
    · exact hplace
  · rw [h.heaps] at hb
    obtain ⟨n, hn, hle⟩ := hs.backed handle b segment hb
    exact ⟨n, hkept hn, hle⟩
  · rw [h.heaps] at hb hb'
    exact hs.owner handle handle' b hb hb'
  · rw [h.lookup] at ha
    split_ifs at ha with heq
    · rw [← Option.some.inj ha, heq]
      exact ⟨hbase, (by decide : 16 ∣ 0x10000).trans halign, hsize.trans_le hle, hend⟩
    · exact hs.ranges a n ha
  · rw [h.lookup] at ha ha'
    split_ifs at ha ha' with heq heq' heq'
    · exact absurd (heq.trans heq'.symm) hne
    · rw [← Option.some.inj ha, heq]
      exact h.apart ha'
    · rw [← Option.some.inj ha', heq']
      exact (h.apart ha).symm
    · exact hs.apart a a' n n' ha ha' hne

end Ranged

/-! ### Allocation -/

/-- What an allocation does: all live blocks stay, and a block that it returns is new. -/
structure Allocates (s s' : GuestHeapManager) (handle : ℕ) (flags : BitVec 32)
    (size address : ℕ) : Prop where
  sound : s'.Sound
  same : ∀ a, s.Same s' a
  fresh : address ≠ 0 → s.allocations.lookup address = none
  block : address ≠ 0 → ∃ allocation, s'.allocations.lookup address = some allocation ∧
    allocation.heapHandle = handle ∧ allocation.requestedSize = size
  zero : address ≠ 0 → zeroes flags = true → ∀ i < size, s'.bytes (address + i) = 0

/-- An allocation that fails. -/
theorem allocates_none {handle : ℕ} {flags : BitVec 32} {size : ℕ} (hs : s'.Sound)
    (hsame : ∀ a, s.Same s' a) : s.Allocates s' handle flags size 0 :=
  ⟨hs, hsame, fun h => absurd rfl h, fun h => absurd rfl h, fun h => absurd rfl h⟩

theorem emplace_of_none {α : Type} {m : Table α} {key : ℕ} (h : m.lookup key = none) (value : α) :
    emplace m key value = m.insert key value := by
  rw [emplace, h]
  rfl

/-- A new block leaves the others. -/
theorem same_insert {address : ℕ} {allocation : Allocation} (a : ℕ)
    (hfresh : s.allocations.lookup address = none)
    (hblocks : s'.allocations = s.allocations.insert address allocation)
    (hbytes : s'.bytes = s.bytes) : s.Same s' a := by
  intro allocation' hblock
  have hne : a ≠ address := by
    rintro rfl
    rw [hfresh] at hblock
    exact absurd hblock (Option.some_ne_none _).symm
  rw [hblocks, hbytes, lookup_insert_eq, if_neg hne]
  exact ⟨hblock, fun _ _ _ => rfl⟩

/-- A block with a range of its own. -/
theorem Sound.insertLarge (hs : s.Sound) {handle address size blockSize : ℕ}
    (hat : ∀ allocation, s.allocations.lookup address = some allocation →
      allocation.segmentBase = 0)
    (hrange : s.ranges.lookup address = some blockSize)
    (hsegments : ∀ handle, (s.heaps handle).segments.lookup address = none) (hsize : 0 < size)
    (hle : size ≤ blockSize) :
    { s with
      allocations := s.allocations.insert address ⟨handle, size, blockSize, 0⟩ }.Sound := by
  obtain ⟨hpos, haligned, -, -⟩ := hs.ranges _ _ hrange
  refine hs.relabel s.bytes (fun handle' base hbase => ?_) fun a allocation ha => ?_
  · -- Large blocks are in no segment.
    rw [blockPieces_insert]
    have hperm : (blockPieces s.allocations handle' base).Perm
        (blockPieces (s.allocations.erase address) handle' base) := by
      cases hblock : s.allocations.lookup address with
      | none => rw [blockPieces_of_fresh hblock]
      | some allocation =>
          have hat' : s.At allocation.heapHandle 0 address := by
            intro allocation' hblock'
            obtain rfl := Option.some.inj (hblock.symm.trans hblock')
            exact ⟨rfl, hat _ hblock⟩
          exact hat'.perm_erase (.inr hbase.ne')
    split_ifs
    · rw [Heap.withPiece_of_ne hbase.ne']
      exact hperm
    · exact hperm
  · rw [lookup_insert_eq] at ha
    split_ifs at ha with heq
    · rw [← Option.some.inj ha, heq]
      exact ⟨hpos, haligned, hsize, hle, by rw [if_pos rfl]; exact ⟨hrange, hsegments⟩⟩
    · exact hs.good a allocation ha

theorem allocateLarge_allocates (hs : s.Sound) (b : Backing) (handle : ℕ) (flags : BitVec 32)
    {size : ℕ} (hsize : 0 < size) :
    s.Allocates (s.allocateLarge b handle flags size).1 handle flags size
      (s.allocateLarge b handle flags size).2 := by
  rw [allocateLarge]
  cases hcall : s.allocateVirtual b size (zeroes flags) with
  | none => exact allocates_none hs (Same.refl s)
  | some result =>
      obtain ⟨s', address, rangeSize⟩ := result
      have h := allocateVirtual_ranged hcall
      have hs' := h.sound hs hsize
      have hfresh : s'.allocations.lookup address = none := by
        rw [h.allocations]
        exact h.block_none hs hsize
      have hsegments : ∀ handle, (s'.heaps handle).segments.lookup address = none := by
        intro handle
        rw [h.heaps]
        exact h.segment_none hs hsize handle
      dsimp only
      by_cases hknown : b.known
      · rw [if_pos hknown, emplace_of_none hfresh]
        refine ⟨hs'.insertLarge (fun _ ha => ?_) ?_ hsegments hsize h.fresh.2.2.1,
          fun a => (h.same hs a).trans ?_, fun _ => h.block_none hs hsize,
          fun _ => ⟨_, AList.lookup_insert _, rfl, rfl⟩, fun _ hzero i hi => ?_⟩
        · rw [hfresh] at ha
          exact absurd ha (Option.some_ne_none _).symm
        · rw [h.lookup, if_pos rfl]
        · exact same_insert a hfresh rfl rfl
        · have hle := h.fresh.2.2.1
          exact h.inside hzero _ (by dsimp only; omega) (by dsimp only at hle ⊢; omega)
      · rw [if_neg hknown]
        refine allocates_none ?_ fun a => ?_
        · rw [freeVirtual]
          split_ifs
          · exact hs'.dropRange (fun _ ha => absurd (hfresh.symm.trans ha)
              (Option.some_ne_none _).symm) hsegments
          · exact hs'
        · refine (h.same hs a).trans ?_
          rw [freeVirtual]
          split_ifs
          · exact same_of_eq rfl rfl a
          · exact Same.refl s' a

/-- A segment without blocks. -/
theorem Sound.blockPieces_nil (hs : s.Sound) {handle base : ℕ} (hbase : base ≠ 0)
    (hnone : (s.heaps handle).segments.lookup base = none) :
    blockPieces s.allocations handle base = [] := by
  refine List.filterMap_eq_nil_iff.mpr fun entry hentry => if_neg fun hsame => ?_
  have hgood := hs.good entry.1 entry.2 (Option.mem_def.mp (AList.mem_lookup_iff.mpr hentry))
  have hplace := hgood.place
  rw [hsame.1, hsame.2, if_neg hbase, hnone] at hplace
  exact absurd hplace.2 Bool.false_ne_true

theorem addSegment_sound (hs : s.Sound) {handle : ℕ} (hcall : s.addSegment b handle = some s') :
    s'.Sound ∧ ∀ a, s.Same s' a := by
  rw [addSegment] at hcall
  cases hrange : s.allocateVirtual b segmentSize true with
  | none =>
      rw [hrange] at hcall
      exact absurd hcall (Option.some_ne_none _).symm
  | some result =>
      obtain ⟨s₁, base, rangeSize⟩ := result
      rw [hrange] at hcall
      have h := allocateVirtual_ranged hrange
      have hpos : 0 < segmentSize := by decide
      have hs₁ := h.sound hs hpos
      have hnone : ∀ handle, (s₁.heaps handle).segments.lookup base = none := by
        intro handle
        rw [h.heaps]
        exact h.segment_none hs hpos handle
      obtain ⟨hbase, halign, hle, hend, -⟩ := h.fresh
      dsimp only at hbase halign hle hend
      have hknown : s₁.ranges.lookup base = some rangeSize := by
        rw [h.lookup, if_pos rfl]
      have hempty := @Sound.blockPieces_nil _ hs₁ handle _ (Nat.pos_iff_ne_zero.mp hbase)
        (hnone handle)
      have hadded := (hs₁.fits handle).addSegment (hnone handle) hbase hpos
        ((Nat.add_le_add_left hle _).trans hend) hempty fun base' segment hsegment => by
          obtain ⟨size, hsize, hle'⟩ := hs₁.backed handle base' segment hsegment
          have hne : base ≠ base' := by
            rintro rfl
            rw [hnone handle] at hsegment
            exact absurd hsegment (Option.some_ne_none _).symm
          rw [(hs₁.counted handle base' segment hsegment).size]
          rcases hs₁.apart base base' _ _ hknown hsize hne with hapart | hapart
          · exact .inl (by omega)
          · exact .inr (by omega)
      have hlookup : ∀ a, (emplace (s₁.heaps handle).segments base ⟨segmentSize, 0⟩).lookup a =
          if a = base then some ⟨segmentSize, 0⟩ else (s₁.heaps handle).segments.lookup a := by
        intro a
        rw [emplace_of_none (hnone handle), lookup_insert_eq]
      obtain ⟨hfits, hsegments⟩ := hadded.insertRun (by
          rw [hlookup, if_pos rfl]
          rfl) ((by decide : 16 ∣ 0x10000).trans halign) (by decide)
      obtain rfl := Option.some.inj hcall
      refine ⟨hs₁.update hfits (fun a segment ha => ?_) (fun a ha => ?_)
        (fun _ _ _ _ => .refl _) fun a allocation ha => ?_, fun a =>
          (h.same hs a).trans (same_of_eq rfl rfl a)⟩
      · rw [hsegments, hlookup] at ha
        split_ifs at ha with heq
        · rw [← Option.some.inj ha, heq, hempty]
          exact ⟨rfl, rfl⟩
        · exact hs₁.counted handle a segment ha
      · rw [hsegments, hlookup] at ha
        split_ifs at ha with heq
        · rw [heq]
          exact ⟨⟨rangeSize, hknown, hle⟩, fun handle' _ => hnone handle'⟩
        · obtain ⟨segment, hsegment⟩ := Option.isSome_iff_exists.mp ha
          refine ⟨hs₁.backed handle a segment hsegment, fun handle' hhandle => ?_⟩
          by_contra hsome
          exact hhandle (hs₁.owner handle' handle a (Option.ne_none_iff_isSome.mp hsome) ha)
      · obtain ⟨hposition, haligned, hnonempty, henough, hplace⟩ := hs₁.good a allocation ha
        refine ⟨hposition, haligned, hnonempty, henough, ?_⟩
        by_cases hlarge : allocation.segmentBase = 0
        · rw [if_pos hlarge] at hplace ⊢
          refine ⟨hplace.1, fun handle' => ?_⟩
          by_cases hhandle : handle' = handle
          · subst hhandle
            have hne : a ≠ base := by
              rintro rfl
              rw [h.allocations, h.block_none hs hpos] at ha
              exact absurd ha (Option.some_ne_none _).symm
            change (Function.update s₁.heaps handle' _ handle').segments.lookup a = none
            rw [Function.update_self, hsegments, hlookup, if_neg hne]
            exact hplace.2 handle'
          · change (Function.update s₁.heaps handle _ handle').segments.lookup a = none
            rw [Function.update_of_ne hhandle]
            exact hplace.2 handle'
        · rw [if_neg hlarge] at hplace ⊢
          refine ⟨hplace.1, ?_⟩
          change ((Function.update s₁.heaps handle _
            allocation.heapHandle).segments.lookup allocation.segmentBase).isSome = true
          by_cases hhandle : allocation.heapHandle = handle
          · rw [hhandle, Function.update_self, hsegments, hlookup]
            split_ifs
            · rfl
            · rw [← hhandle]
              exact hplace.2
          · rw [Function.update_of_ne hhandle]
            exact hplace.2

theorem sixteen_dvd_alignBlock (size : ℕ) : 16 ∣ alignBlock size :=
  ⟨(size + 15) / 16, Nat.mul_comm _ _⟩

theorem le_alignBlock (size : ℕ) : size ≤ alignBlock size := by
  unfold alignBlock
  omega

/-- Bytes of a free run are bytes of no block. -/
theorem Sound.same_fillRun (hs : s.Sound) {handle address size : ℕ} {run : FreeRun}
    (hrun : (s.heaps handle).runsByAddress.lookup address = some run) (hsize : size ≤ run.size)
    (a : ℕ) : s.Same (s.fillZero address size) a := by
  intro allocation hblock
  refine ⟨hblock, fun x hlo hhi => if_neg fun hx => ?_⟩
  rcases hs.run_block_apart hrun hblock with hapart | hapart <;> omega

/-- No block is live where a run starts. -/
theorem Sound.run_fresh (hs : s.Sound) {handle address : ℕ} {run : FreeRun}
    (hrun : (s.heaps handle).runsByAddress.lookup address = some run) :
    s.allocations.lookup address = none := by
  by_contra hsome
  obtain ⟨allocation, hblock⟩ := Option.ne_none_iff_exists'.mp hsome
  have hgood := hs.good _ _ hblock
  have hpos := hgood.nonempty.trans_le hgood.enough
  obtain ⟨size, hsize, hlo, hpos', hhi⟩ := hs.run_range hrun
  rcases hs.run_block_apart hrun hblock with hapart | hapart <;> omega

/-- **A block is cut out of a run.** -/
theorem takeRun_allocates (hs : s.Sound) {handle address need : ℕ} {run : FreeRun}
    (flags : BitVec 32) {size : ℕ}
    (hrun : (s.heaps handle).runsByAddress.lookup address = some run) (hsize : 0 < size)
    (hneed : size ≤ need) (haligned : 16 ∣ need) (hle : need ≤ run.size) :
    s.Allocates (s.takeRun handle flags size need address run).1 handle flags size
      (s.takeRun handle flags size need address run).2 := by
  obtain ⟨heap, hheap⟩ : ∃ heap, heap = if run.size > need then
      ((s.heaps handle).eraseRun address run).insertRun (address + need)
        ⟨run.size - need, run.segmentBase⟩
    else (s.heaps handle).eraseRun address run := ⟨_, rfl⟩
  obtain ⟨hfits, hsegments⟩ := (hs.fits handle).cutRun hrun (by omega) haligned hle hheap
  have hfresh := hs.run_fresh hrun
  have howned := (hs.fits handle).owned address run hrun
  obtain ⟨segment, hsegment⟩ := Option.isSome_iff_exists.mp howned
  have hbase := ((hs.fits handle).segment _ segment hsegment).1
  obtain ⟨rangeSize, hrange, hlo, -, -⟩ := hs.run_range hrun
  -- The bytes of the new block, zeroed or not.
  obtain ⟨bytes, hbytes⟩ : ∃ bytes : ℕ → BitVec 8, bytes = if zeroes flags then
      (s.fillZero address need).bytes else s.bytes := ⟨_, rfl⟩
  have hresult : s.takeRun handle flags size need address run =
      (⟨s.allocations.insert address ⟨handle, size, need, run.segmentBase⟩,
        Function.update s.heaps handle (heap.useBytes run.segmentBase (· + need)), s.ranges,
        bytes⟩, address) := by
    have hemplace := emplace_of_none hfresh ⟨handle, size, need, run.segmentBase⟩
    rw [takeRun, hbytes, ← hheap, ← hemplace]
    cases zeroes flags <;> rfl
  rw [hresult]
  refine ⟨hs.place bytes (fun _ ha => ?_) ?_ hsegments ?_ ?_ hbase.ne', fun a => ?_, fun _ => hfresh,
    fun _ => ⟨_, AList.lookup_insert _, rfl, rfl⟩, fun _ hzero i hi => ?_⟩
  · exact absurd (hfresh.symm.trans ha) (Option.some_ne_none _).symm
  · exact hfits.congr fun base _ => by
      by_cases hb : base = run.segmentBase
      · rw [hb, Heap.withPiece_self, Heap.withPiece_self, blockPieces_of_fresh hfresh]
      · rw [Heap.withPiece_of_ne hb, Heap.withPiece_of_ne hb, blockPieces_of_fresh hfresh]
  · rw [blockPieces_of_fresh hfresh]
    exact Nat.add_comm _ _
  · refine ⟨by omega, ((hs.fits handle).aligned address run hrun).1, hsize, hneed, ?_⟩
    rw [if_neg hbase.ne']
    exact ⟨haligned, howned⟩
  · have hfilled : s.Same { s with bytes } a := by
      rw [hbytes]
      split_ifs
      · exact hs.same_fillRun hrun hle a
      · exact Same.refl s a
    refine hfilled.trans ?_
    exact same_insert a hfresh rfl rfl
  · change bytes (address + i) = 0
    rw [hbytes, if_pos hzero]
    exact if_pos ⟨by omega, by omega⟩

theorem takeBestFit_allocates (hs : s.Sound) {handle : ℕ} {flags : BitVec 32} {size : ℕ}
    (hsize : 0 < size) {result : GuestHeapManager × ℕ}
    (hcall : s.takeBestFit handle flags size = some result) :
    s.Allocates result.1 handle flags size result.2 := by
  rw [takeBestFit] at hcall
  cases hfit : (s.heaps handle).bestFit (alignBlock size) with
  | none =>
      simp [hfit] at hcall
  | some found =>
      obtain ⟨runSize, address⟩ := found
      obtain ⟨hle, run, hrun, rfl⟩ := (hs.fits handle).bestFit hfit
      simp only [hfit, hrun] at hcall
      obtain rfl := Option.some.inj hcall
      exact takeRun_allocates hs flags hrun hsize (le_alignBlock size)
        (sixteen_dvd_alignBlock size) hle

theorem Allocates.after {handle : ℕ} {flags : BitVec 32} {size address : ℕ}
    (h : s'.Allocates s'' handle flags size address) (hsame : ∀ a, s.Same s' a) :
    s.Allocates s'' handle flags size address := by
  refine ⟨h.sound, fun a => (hsame a).trans (h.same a), fun hne => ?_, h.block, h.zero⟩
  by_contra hsome
  obtain ⟨allocation, hblock⟩ := Option.ne_none_iff_exists'.mp hsome
  have hkept := (hsame address allocation hblock).1
  rw [h.fresh hne] at hkept
  exact absurd hkept (Option.some_ne_none _).symm

theorem allocateBlock_allocates (hs : s.Sound) (b : Backing) (handle : ℕ) (flags : BitVec 32)
    {size : ℕ} (hsize : 0 < size) :
    s.Allocates (s.allocateBlock b handle flags size).1 handle flags size
      (s.allocateBlock b handle flags size).2 := by
  rw [allocateBlock]
  cases hfirst : s.takeBestFit handle flags size with
  | some result => exact takeBestFit_allocates hs hsize hfirst
  | none =>
      cases hsegment : s.addSegment b handle with
      | none => exact allocates_none hs (Same.refl s)
      | some s' =>
          obtain ⟨hs', hsame⟩ := addSegment_sound hs hsegment
          dsimp only
          cases hsecond : s'.takeBestFit handle flags size with
          | none => exact allocates_none hs' hsame
          | some result => exact (takeBestFit_allocates hs' hsize hsecond).after hsame

/-- **`allocate_locked` makes a new block and leaves the others.** -/
theorem allocateLocked_allocates (hs : s.Sound) (b : Backing) (handle : ℕ) (flags : BitVec 32)
    (size : ℕ) : s.Allocates (s.allocateLocked b handle flags size).1 handle flags (max size 1)
      (s.allocateLocked b handle flags size).2 := by
  have hpos : 0 < max size 1 := by omega
  rw [allocateLocked]
  split_ifs
  · exact allocateLarge_allocates hs b handle flags hpos
  · exact allocateBlock_allocates hs b handle flags hpos

/-! ### Free -/

/-- A segment without blocks goes back. -/
theorem releaseSegment_sound (hs : s.Sound) (b : Backing) (handle base : ℕ) :
    (s.releaseSegment b handle base).Sound ∧
      (s.releaseSegment b handle base).allocations = s.allocations ∧
      (s.releaseSegment b handle base).bytes = s.bytes := by
  rw [releaseSegment]
  cases hsegment : (s.heaps handle).segments.lookup base with
  | none => exact ⟨hs, rfl, rfl⟩
  | some segment =>
      cases hrun : (s.heaps handle).runsByAddress.lookup base with
      | none => exact ⟨hs, rfl, rfl⟩
      | some run =>
          dsimp only
          by_cases hfree : segment.usedBytes = 0 ∧
              (s.heaps handle).segments.entries.length > 1 ∧ run.size = segment.size
          · rw [if_pos hfree, freeVirtual]
            by_cases hrelease : b.release base
            · rw [if_pos hrelease]
              refine ⟨?_, rfl, rfl⟩
              obtain ⟨hempty, hfits⟩ := (hs.fits handle).dropSegment hsegment hrun hfree.2.2
              have hlookup : ∀ a, ((s.heaps handle).segments.erase base).lookup a =
                  if a = base then none else (s.heaps handle).segments.lookup a := lookup_erase_eq
              have hkept : ∀ {a seg}, ((s.heaps handle).segments.erase base).lookup a = some seg →
                  (s.heaps handle).segments.lookup a = some seg := by
                intro a seg ha
                rw [hlookup] at ha
                split_ifs at ha
                exact ha
              have howner : ∀ handle', handle' ≠ handle →
                  (s.heaps handle').segments.lookup base = none := by
                intro handle' hhandle
                by_contra hsome
                exact hhandle (hs.owner handle' handle base (Option.ne_none_iff_isSome.mp hsome)
                  (by rw [hsegment]; rfl))
              -- First the heap drops the segment, then the range goes.
              have hdropped := @Sound.update s hs handle _ _ s.bytes hfits
                (fun a seg ha => hs.counted handle a seg (hkept ha)) (fun a ha => by
                  obtain ⟨seg, hseg⟩ := Option.isSome_iff_exists.mp ha
                  refine ⟨hs.backed handle a seg (hkept hseg), fun handle' hhandle => ?_⟩
                  by_contra hsome
                  exact hhandle (hs.owner handle' handle a (Option.ne_none_iff_isSome.mp hsome)
                    (by rw [hkept hseg]; rfl)))
                (fun _ _ _ _ => .refl _) fun a allocation ha => by
                  obtain ⟨hpos, haligned, hnonempty, henough, hplace⟩ := hs.good a allocation ha
                  refine ⟨hpos, haligned, hnonempty, henough, ?_⟩
                  by_cases hlarge : allocation.segmentBase = 0
                  · rw [if_pos hlarge] at hplace ⊢
                    refine ⟨hplace.1, fun handle' => ?_⟩
                    dsimp only
                    by_cases hhandle : handle' = handle
                    · rw [hhandle, Function.update_self, hlookup]
                      split_ifs
                      · rfl
                      · exact hplace.2 handle
                    · rw [Function.update_of_ne hhandle]
                      exact hplace.2 handle'
                  · rw [if_neg hlarge] at hplace ⊢
                    refine ⟨hplace.1, ?_⟩
                    dsimp only
                    by_cases hhandle : allocation.heapHandle = handle
                    · have hne : allocation.segmentBase ≠ base := by
                        rintro rfl
                        have hmem := (blockPieces_perm ha allocation.segmentBase).mem_iff.mpr (by
                          rw [Heap.withPiece_self]
                          exact List.mem_cons_self)
                        rw [hhandle, hempty] at hmem
                        exact List.not_mem_nil hmem
                      rw [hhandle, Function.update_self, hlookup, if_neg hne, ← hhandle]
                      exact hplace.2
                    · rw [Function.update_of_ne hhandle]
                      exact hplace.2
              refine @Sound.dropRange _ hdropped base (fun allocation ha hlarge => ?_)
                fun handle' => ?_
              · have hplace := (hs.good base allocation ha).place
                rw [if_pos hlarge] at hplace
                rw [hplace.2 handle] at hsegment
                exact absurd hsegment (Option.some_ne_none _).symm
              · dsimp only
                by_cases hhandle : handle' = handle
                · rw [hhandle, Function.update_self, hlookup, if_pos rfl]
                · rw [Function.update_of_ne hhandle]
                  exact howner handle' hhandle
            · rw [if_neg hrelease]
              exact ⟨hs, rfl, rfl⟩
          · rw [if_neg hfree]
            exact ⟨hs, rfl, rfl⟩

/-- What a free does: one that fails changes nothing. -/
structure Frees (s s' : GuestHeapManager) (address : ℕ) (freed : Bool) : Prop where
  sound : s'.Sound
  failed : freed = false → s' = s
  same : ∀ a, a ≠ address → s.Same s' a
  gone : freed = true → s'.allocations.lookup address = none

/-- A block that goes leaves the others. -/
theorem same_erase {address a : ℕ} (hne : a ≠ address)
    (hblocks : s'.allocations = s.allocations.erase address) (hbytes : s'.bytes = s.bytes) :
    s.Same s' a := by
  intro allocation hblock
  rw [hblocks, hbytes, lookup_erase_eq, if_neg hne]
  exact ⟨hblock, fun _ _ _ => rfl⟩

/-- **`free_locked` frees one block and leaves the others.** -/
theorem freeLocked_frees (hs : s.Sound) (b : Backing) (address : ℕ) :
    s.Frees (s.freeLocked b address).1 address (s.freeLocked b address).2 := by
  rw [freeLocked]
  cases hblock : s.allocations.lookup address with
  | none => exact ⟨hs, fun _ => rfl, fun a _ => Same.refl s a, fun h => absurd h Bool.false_ne_true⟩
  | some allocation =>
      have hgood := hs.good address allocation hblock
      have hplace := hgood.place
      have hgone : (s.allocations.erase address).lookup address = none := AList.lookup_erase _ _
      dsimp only
      by_cases hlarge : allocation.segmentBase = 0
      · rw [if_pos hlarge, freeVirtual]
        rw [if_pos hlarge] at hplace
        by_cases hrelease : b.release address
        · rw [if_pos hrelease]
          dsimp only
          refine ⟨?_, fun h => absurd h Bool.false_ne_true.symm,
            fun a hne => same_erase hne rfl rfl, fun _ => hgone⟩
          have hat : s.At allocation.heapHandle 0 address := by
            intro allocation' hblock'
            obtain rfl := Option.some.inj (hblock.symm.trans hblock')
            exact ⟨rfl, hlarge⟩
          have herased := @Sound.relabel _ hs (s.allocations.erase address) s.bytes
            (fun _ base hbase => hat.perm_erase (.inr hbase.ne')) fun a allocation' ha => by
              rw [lookup_erase_eq] at ha
              split_ifs at ha
              exact hs.good a allocation' ha
          refine herased.dropRange (fun _ ha => ?_) hplace.2
          exact absurd (hgone.symm.trans ha) (Option.some_ne_none _).symm
        · rw [if_neg hrelease]
          exact ⟨hs, fun _ => rfl, fun a _ => Same.refl s a,
            fun h => absurd h Bool.false_ne_true⟩
      · rw [if_neg hlarge]
        rw [if_neg hlarge] at hplace
        obtain ⟨hfits, hsegments⟩ := (hs.fits_erase hblock).insertRun hplace.2 hgood.aligned hplace.1
        have hremoved := hs.remove (f := (· - allocation.blockSize)) hblock hfits hsegments
          (by rw [blockBytes_of_lookup hblock, Nat.add_sub_cancel_left]) hlarge
        obtain ⟨hs', hblocks, hbytes⟩ := releaseSegment_sound hremoved b allocation.heapHandle
          allocation.segmentBase
        refine ⟨hs', fun h => absurd h Bool.false_ne_true.symm,
          fun a hne => same_erase hne hblocks hbytes, fun _ => ?_⟩
        exact (congrArg (AList.lookup address) hblocks).trans hgone

end GuestHeapManager

end Kernel
end XenonRecomp
