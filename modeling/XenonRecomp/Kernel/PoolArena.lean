/-
# The runs of a pool arena

The free runs of one arena of the kernel pool, which are an ordered map from an
offset to a size: the inner loop of `allocate_small_locked` takes a block out of
a run, and `return_run_locked` gives one back, joined with the runs before and
after it.  `Tiled` is what both keep: runs and blocks tile the arena, and no run
ends where another starts.
-/

import XenonRecomp.Library.SortedTable
import XenonRecomp.Library.Tiling

namespace XenonRecomp
namespace Kernel
namespace KernelPool

open Library Library.Tiling Library.SortedTable

/-- `kArenaSize`. -/
abbrev arenaSize : ℕ := 0x100000

/-- `kBlockAlignment`. -/
abbrev blockAlignment : ℕ := 64

/-- `free_runs`: offset and size. -/
abbrev Runs : Type := List (ℕ × ℕ)

/-- Takes `need` bytes out of a run. -/
def takeRun (need : ℕ) (run : ℕ × ℕ) (runs : Runs) : Runs :=
  let runs := erase run.1 runs
  if run.2 > need then SortedTable.emplace (run.1 + need, run.2 - need) runs else runs

/-- Joins a block with the run that ends where it starts. -/
def joinBefore (runs : Runs) (offset size : ℕ) : Runs × ℕ × ℕ :=
  match before offset runs with
  | none => (runs, offset, size)
  | some prev =>
    if prev.1 + prev.2 = offset then (erase prev.1 runs, prev.1, size + prev.2)
    else (runs, offset, size)

/-- Joins a block with the run that starts where it ends. -/
def joinAfter (runs : Runs) (offset size : ℕ) : Runs × ℕ :=
  match lowerBound (offset + size) runs with
  | none => (runs, size)
  | some next =>
    if next.1 = offset + size then (erase next.1 runs, size + next.2) else (runs, size)

/-- `return_run_locked`. -/
def returnRun (runs : Runs) (offset size : ℕ) : Runs :=
  let (runs, offset, size) := joinBefore runs offset size
  let (runs, size) := joinAfter runs offset size
  SortedTable.emplace (offset, size) runs

/-- Free runs and blocks tile the arena, the runs are in order, no run touches the
next one, and all pieces start at multiples of the alignment. -/
structure Tiled (runs : Runs) (blocks : List (ℕ × ℕ)) : Prop where
  tiles : Tiles (runs ++ blocks) 0 arenaSize
  sorted : Sorted runs
  apart : ∀ run ∈ runs, ∀ next ∈ runs, run.1 + run.2 ≠ next.1
  aligned : ∀ piece ∈ runs ++ blocks, blockAlignment ∣ piece.1

namespace Tiled

variable {runs : Runs} {blocks : List (ℕ × ℕ)} {offset size : ℕ}

/-- A new arena. -/
theorem start : Tiled [(0, arenaSize)] [] where
  tiles := by
    have h : Tiles [(0, arenaSize)] 0 (0 + arenaSize) := Tiles.single (by decide)
    rwa [Nat.zero_add] at h
  sorted := List.pairwise_singleton _ _
  apart := by
    intro run hrun next hnext
    rw [List.mem_singleton.mp hrun, List.mem_singleton.mp hnext]
    decide
  aligned := by
    intro piece hpiece
    rw [List.append_nil] at hpiece
    rw [List.mem_singleton.mp hpiece]
    exact Nat.dvd_zero _

theorem perm {blocks' : List (ℕ × ℕ)} (h : Tiled runs blocks) (hperm : blocks.Perm blocks') :
    Tiled runs blocks' where
  tiles := h.tiles.perm (hperm.append_left runs)
  sorted := h.sorted
  apart := h.apart
  aligned := fun piece hpiece => h.aligned piece ((hperm.append_left runs).mem_iff.mpr hpiece)

theorem run_inside (h : Tiled runs blocks) {run : ℕ × ℕ} (hrun : run ∈ runs) :
    0 < run.2 ∧ run.1 + run.2 ≤ arenaSize := by
  obtain ⟨hpos, -, hend⟩ := h.tiles.inside run (List.mem_append_left _ hrun)
  exact ⟨hpos, hend⟩

theorem block_inside (h : Tiled runs blocks) {block : ℕ × ℕ} (hblock : block ∈ blocks) :
    0 < block.2 ∧ block.1 + block.2 ≤ arenaSize := by
  obtain ⟨hpos, -, hend⟩ := h.tiles.inside block (List.mem_append_right _ hblock)
  exact ⟨hpos, hend⟩

/-- A block is no run. -/
theorem run_block_ne (h : Tiled runs blocks) {run block : ℕ × ℕ} (hrun : run ∈ runs)
    (hblock : block ∈ blocks) : run ≠ block := by
  rintro rfl
  obtain ⟨hpos, hend⟩ := h.run_inside hrun
  have hperm := (List.perm_cons_erase hrun).append (List.perm_cons_erase hblock)
  have hapart := (h.tiles.perm (hperm.trans (List.perm_middle.cons _))).apart
  omega

/-- **A block is taken out of a run.** -/
theorem take (h : Tiled runs blocks) {run : ℕ × ℕ} (hrun : run ∈ runs) {need : ℕ}
    (hpos : 0 < need) (hfits : need ≤ run.2) (haligned : blockAlignment ∣ need) :
    Tiled (takeRun need run runs) ((run.1, need) :: blocks) := by
  obtain ⟨offset, size⟩ := run
  have hperm := h.sorted.perm_erase hrun
  have htiles := h.tiles.perm (hperm.append_right blocks)
  have hstart : blockAlignment ∣ offset := h.aligned _ (List.mem_append_left _ hrun)
  have hrest : ∀ run ∈ erase offset runs, run ∈ runs := fun run hmem => (mem_erase.mp hmem).1
  have hold : ∀ piece ∈ erase offset runs ++ blocks, blockAlignment ∣ piece.1 := by
    intro piece hpiece
    refine h.aligned piece (List.mem_append.mpr ?_)
    exact (List.mem_append.mp hpiece).imp_left (hrest piece)
  rw [takeRun]
  dsimp only at hfits ⊢
  split_ifs with hlt
  · -- The rest of the run stays free; the runs beside it lie apart from the whole run.
    have hbeside : ∀ run ∈ erase offset runs,
        offset + size ≤ run.1 ∨ run.1 + run.2 ≤ offset := by
      intro run hmem
      have hne : (offset, size) ≠ run := by
        rintro rfl
        exact (mem_erase.mp hmem).2 rfl
      exact h.tiles.apart_of_mem (List.mem_append_left _ hrun)
        (List.mem_append_left _ (hrest run hmem)) hne
    have hfresh : ∀ run ∈ erase offset runs, run.1 ≠ offset + need := by
      intro run hmem
      obtain ⟨hsize, -⟩ := h.run_inside (hrest run hmem)
      have := hbeside run hmem
      omega
    have hemplace : (SortedTable.emplace (offset + need, size - need) (erase offset runs)).Perm
        ((offset + need, size - need) :: erase offset runs) := perm_emplace hfresh
    refine ⟨?_, (h.sorted.erase offset).emplace, ?_, ?_⟩
    · refine (htiles.split hpos hlt).perm ?_
      refine .trans ?_ (hemplace.append_right _).symm
      exact (List.Perm.swap ..).trans (List.perm_middle.symm.cons _)
    · intro run hmem next hnext
      rcases List.mem_cons.mp (hemplace.mem_iff.mp hmem) with rfl | hmem
      · rcases List.mem_cons.mp (hemplace.mem_iff.mp hnext) with rfl | hnext
        · dsimp only
          omega
        · have hapart := h.apart _ hrun next (hrest next hnext)
          dsimp only at hapart ⊢
          omega
      · rcases List.mem_cons.mp (hemplace.mem_iff.mp hnext) with rfl | hnext
        · have := hbeside run hmem
          obtain ⟨hsize, -⟩ := h.run_inside (hrest run hmem)
          dsimp only
          omega
        · exact h.apart run (hrest run hmem) next (hrest next hnext)
    · intro piece hpiece
      have hmem := (hemplace.append_right _).mem_iff.mp hpiece
      rw [List.cons_append, List.mem_cons] at hmem
      rcases hmem with rfl | hmem
      · exact Nat.dvd_add hstart haligned
      · rcases List.mem_cons.mp (List.perm_middle.mem_iff.mp hmem) with rfl | hmem
        · exact hstart
        · exact hold piece hmem
  · obtain rfl : need = size := by omega
    refine ⟨htiles.perm List.perm_middle.symm, h.sorted.erase offset,
      fun run hmem next hnext => h.apart run (hrest run hmem) next (hrest next hnext), ?_⟩
    intro piece hpiece
    rcases List.mem_cons.mp (List.perm_middle.mem_iff.mp hpiece) with rfl | hmem
    · exact hstart
    · exact hold piece hmem

/-- A run that ends at a block is the last one before it. -/
theorem before_eq (h : Tiled runs ((offset, size) :: blocks)) {run : ℕ × ℕ} (hrun : run ∈ runs)
    (hend : run.1 + run.2 = offset) : before offset runs = some run := by
  obtain ⟨hpos, -⟩ := h.run_inside hrun
  cases hbefore : before offset runs with
  | none =>
    have hle := h.sorted.before_none hbefore run hrun
    omega
  | some prev =>
    obtain ⟨hprev, hlt, hlast⟩ := h.sorted.before_some hbefore
    have hle := hlast run hrun (by omega)
    by_contra hne
    have hapart := h.tiles.apart_of_mem (List.mem_append_left _ hprev)
      (List.mem_append_left _ hrun) fun heq => hne (heq ▸ rfl)
    obtain ⟨hpos', -⟩ := h.run_inside hprev
    omega

/-- A block before the runs in the list of pieces. -/
theorem tiles_block_first (h : Tiled runs ((offset, size) :: blocks)) :
    Tiles ((offset, size) :: (runs ++ blocks)) 0 arenaSize :=
  h.tiles.perm List.perm_middle

theorem of_block_first (htiles : Tiles ((offset, size) :: (runs ++ blocks)) 0 arenaSize)
    (hsorted : Sorted runs) (hapart : ∀ run ∈ runs, ∀ next ∈ runs, run.1 + run.2 ≠ next.1)
    (haligned : ∀ piece ∈ (offset, size) :: (runs ++ blocks), blockAlignment ∣ piece.1) :
    Tiled runs ((offset, size) :: blocks) :=
  ⟨htiles.perm List.perm_middle.symm, hsorted, hapart,
    fun piece hpiece => haligned piece (List.perm_middle.mem_iff.mp hpiece)⟩

/-- The first join: afterwards no run ends at the block. -/
theorem joinBefore (h : Tiled runs ((offset, size) :: blocks)) {runs' : Runs} {offset' size' : ℕ}
    (hjoin : joinBefore runs offset size = (runs', offset', size')) :
    Tiled runs' ((offset', size') :: blocks) ∧ ∀ run ∈ runs', run.1 + run.2 ≠ offset' := by
  have hkept : (∀ run ∈ runs, run.1 + run.2 ≠ offset) →
      Tiled runs ((offset, size) :: blocks) ∧ ∀ run ∈ runs, run.1 + run.2 ≠ offset :=
    fun hnone => ⟨h, hnone⟩
  rw [KernelPool.joinBefore] at hjoin
  cases hbefore : before offset runs with
  | none =>
    rw [hbefore] at hjoin
    cases hjoin
    refine hkept fun run hrun hend => ?_
    rw [h.before_eq hrun hend] at hbefore
    cases hbefore
  | some prev =>
    obtain ⟨hprev, -, -⟩ := h.sorted.before_some hbefore
    rw [hbefore] at hjoin
    dsimp only at hjoin
    split_ifs at hjoin with hend
    · cases hjoin
      subst hend
      have hperm := h.sorted.perm_erase hprev
      have hrest : ∀ run ∈ erase prev.1 runs, run ∈ runs := fun run hmem => (mem_erase.mp hmem).1
      refine ⟨of_block_first ?_ (h.sorted.erase prev.1)
        (fun run hmem next hnext => h.apart run (hrest run hmem) next (hrest next hnext)) ?_,
        fun run hmem => h.apart run (hrest run hmem) prev hprev⟩
      · have htiles := h.tiles_block_first.perm ((hperm.append_right blocks).cons _)
        rw [Nat.add_comm size]
        exact (htiles.perm (List.Perm.swap ..)).merge
      · intro piece hpiece
        rcases List.mem_cons.mp hpiece with rfl | hmem
        · exact h.aligned prev (List.mem_append_left _ hprev)
        · refine h.aligned piece (List.mem_append.mpr ?_)
          exact (List.mem_append.mp hmem).imp (hrest piece) (List.mem_cons_of_mem _)
    · cases hjoin
      refine hkept fun run hrun hrunend => hend ?_
      obtain rfl : run = prev := Option.some.inj ((h.before_eq hrun hrunend).symm.trans hbefore)
      exact hrunend

/-- The second join: afterwards no run starts at the end of the block. -/
theorem joinAfter (h : Tiled runs ((offset, size) :: blocks))
    (hbefore : ∀ run ∈ runs, run.1 + run.2 ≠ offset) {runs' : Runs} {size' : ℕ}
    (hjoin : joinAfter runs offset size = (runs', size')) :
    Tiled runs' ((offset, size') :: blocks) ∧ (∀ run ∈ runs', run.1 + run.2 ≠ offset) ∧
      ∀ run ∈ runs', offset + size' ≠ run.1 := by
  have hkept : (∀ run ∈ runs, offset + size ≠ run.1) →
      Tiled runs ((offset, size) :: blocks) ∧ (∀ run ∈ runs, run.1 + run.2 ≠ offset) ∧
        ∀ run ∈ runs, offset + size ≠ run.1 :=
    fun hnone => ⟨h, hbefore, hnone⟩
  have hfound : ∀ run ∈ runs, offset + size = run.1 →
      lowerBound (offset + size) runs = some run := by
    intro run hrun hstart
    rw [hstart]
    exact h.sorted.lowerBound_eq hrun
  rw [KernelPool.joinAfter] at hjoin
  cases hbound : lowerBound (offset + size) runs with
  | none =>
    rw [hbound] at hjoin
    cases hjoin
    refine hkept fun run hrun hstart => ?_
    rw [hfound run hrun hstart] at hbound
    cases hbound
  | some next =>
    have hnext := lowerBound_mem hbound
    rw [hbound] at hjoin
    dsimp only at hjoin
    split_ifs at hjoin with hstart
    · cases hjoin
      have hperm := h.sorted.perm_erase hnext
      have hrest : ∀ run ∈ erase next.1 runs, run ∈ runs := fun run hmem => (mem_erase.mp hmem).1
      refine ⟨of_block_first ?_ (h.sorted.erase next.1)
        (fun run hmem run' hmem' => h.apart run (hrest run hmem) run' (hrest run' hmem')) ?_,
        fun run hmem => hbefore run (hrest run hmem), fun run hmem => ?_⟩
      · have htiles := h.tiles_block_first.perm ((hperm.append_right blocks).cons _)
        have hpair : next = (offset + size, next.2) := by
          rw [← hstart]
        rw [hpair] at htiles
        rw [hstart]
        exact htiles.merge
      · intro piece hpiece
        rcases List.mem_cons.mp hpiece with rfl | hmem
        · exact h.aligned (offset, size) (List.mem_append_right _ List.mem_cons_self)
        · refine h.aligned piece (List.mem_append.mpr ?_)
          exact (List.mem_append.mp hmem).imp (hrest piece) (List.mem_cons_of_mem _)
      · have hapart := h.apart next hnext run (hrest run hmem)
        omega
    · cases hjoin
      refine hkept fun run hrun hrunstart => hstart ?_
      obtain rfl : run = next :=
        Option.some.inj ((hfound run hrun hrunstart).symm.trans hbound)
      exact hrunstart.symm

/-- **A block is given back**, joined with the runs beside it. -/
theorem give (h : Tiled runs ((offset, size) :: blocks)) :
    Tiled (returnRun runs offset size) blocks := by
  rw [returnRun]
  cases hjoin : KernelPool.joinBefore runs offset size with
  | mk runs₁ joined =>
  obtain ⟨offset, size⟩ := joined
  cases hjoin' : KernelPool.joinAfter runs₁ offset size with
  | mk runs' size' =>
  obtain ⟨hjoined, hends⟩ := h.joinBefore hjoin
  obtain ⟨hjoined, hends, hstarts⟩ := hjoined.joinAfter hends hjoin'
  dsimp only
  rw [hjoin']
  dsimp only
  obtain ⟨hpos, -⟩ := hjoined.block_inside List.mem_cons_self
  have hfresh : ∀ run ∈ runs', run.1 ≠ offset := by
    intro run hrun heq
    obtain ⟨hsize, -⟩ := hjoined.run_inside hrun
    have hmem := List.perm_cons_erase (List.mem_append_left blocks hrun)
    have hapart := (hjoined.tiles_block_first.perm (hmem.cons _)).apart
    dsimp only at hapart hpos
    omega
  have hperm : (SortedTable.emplace (offset, size') runs').Perm ((offset, size') :: runs') :=
    perm_emplace hfresh
  refine ⟨?_, hjoined.sorted.emplace, ?_, ?_⟩
  · exact hjoined.tiles_block_first.perm (hperm.append_right blocks).symm
  · intro run hrun next hnext
    rcases List.mem_cons.mp (hperm.mem_iff.mp hrun) with rfl | hrun
    · rcases List.mem_cons.mp (hperm.mem_iff.mp hnext) with rfl | hnext
      · dsimp only at hpos ⊢
        omega
      · exact hstarts next hnext
    · rcases List.mem_cons.mp (hperm.mem_iff.mp hnext) with rfl | hnext
      · exact hends run hrun
      · exact hjoined.apart run hrun next hnext
  · intro piece hpiece
    refine hjoined.aligned piece (List.perm_middle.mem_iff.mpr ?_)
    exact (hperm.append_right blocks).mem_iff.mp hpiece

/-- **Without blocks the arena is one run.** -/
theorem whole (h : Tiled runs []) : runs = [(0, arenaSize)] := by
  have htiles := h.tiles
  rw [List.append_nil] at htiles
  have hfirst : ∃ run ∈ runs, Holds run 0 := by
    have honce := htiles.once 0 le_rfl (by decide)
    obtain ⟨run, hrun, hholds⟩ := List.countP_pos_iff.mp (honce ▸ Nat.one_pos)
    exact ⟨run, hrun, of_decide_eq_true hholds⟩
  obtain ⟨⟨offset, size⟩, hrun, hle, hlt⟩ := hfirst
  obtain rfl : offset = 0 := Nat.le_zero.mp hle
  have hsize : size = arenaSize := by
    obtain ⟨-, hend⟩ := h.run_inside hrun
    by_contra hne
    -- The number after the run would belong to a run that starts there.
    have honce := htiles.once size (Nat.zero_le _) (by dsimp only at hend; omega)
    obtain ⟨next, hnext, hholds⟩ := List.countP_pos_iff.mp (honce ▸ Nat.one_pos)
    obtain ⟨hle', hlt'⟩ := of_decide_eq_true hholds
    have hdiff : (0, size) ≠ next := by
      rintro rfl
      dsimp only at hlt'
      omega
    have hapart := htiles.apart_of_mem hrun hnext hdiff
    have htouch := h.apart _ hrun next hnext
    dsimp only at hapart htouch hlt
    omega
  subst hsize
  have hperm := List.perm_cons_erase hrun
  have hnil : runs.erase (0, arenaSize) = [] := by
    have hwhole : Tiles ((0, arenaSize) :: runs.erase (0, arenaSize)) 0 (0 + arenaSize) := by
      rw [Nat.zero_add]
      exact htiles.perm hperm
    exact hwhole.eq_nil
  rw [hnil] at hperm
  exact List.perm_singleton.mp hperm

end Tiled

end KernelPool
end Kernel
end XenonRecomp
