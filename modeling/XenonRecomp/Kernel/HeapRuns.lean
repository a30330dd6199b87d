/-
# The runs of a heap

A heap fits its blocks (`Heap.Fits`) when in every segment the free runs and the
blocks tile the segment, neighbouring runs are joined, and the table by size
mirrors the table by address.  The blocks are a parameter, so that a piece that
is on its way from one table to another is a block for the time being:
`Fits.eraseRun` makes a run such a piece, `Fits.split` cuts it, and
`Fits.insertRun` makes it a run again, joined with its neighbours.
-/

import XenonRecomp.Kernel.GuestHeap

namespace XenonRecomp
namespace Kernel

open Library.Tiling

namespace Heap

/-! ### Pieces -/

/-- The runs of a segment. -/
def runPieces (heap : Heap) (base : ℕ) : List (ℕ × ℕ) :=
  heap.runsByAddress.entries.filterMap fun entry =>
    if entry.2.segmentBase = base then some (entry.1, entry.2.size) else none

/-- One more piece of a segment. -/
def withPiece (base : ℕ) (piece : ℕ × ℕ) (others : ℕ → List (ℕ × ℕ)) : ℕ → List (ℕ × ℕ) :=
  fun b => if b = base then piece :: others b else others b

theorem withPiece_self (base : ℕ) (piece : ℕ × ℕ) (others : ℕ → List (ℕ × ℕ)) :
    withPiece base piece others base = piece :: others base :=
  if_pos rfl

theorem withPiece_of_ne {base b : ℕ} (h : b ≠ base) (piece : ℕ × ℕ)
    (others : ℕ → List (ℕ × ℕ)) : withPiece base piece others b = others b :=
  if_neg h

/-- The free runs, and the other pieces of each segment, are in order. -/
structure Fits (heap : Heap) (others : ℕ → List (ℕ × ℕ)) : Prop where
  segment : ∀ base segment, heap.segments.lookup base = some segment →
    0 < base ∧ base + segment.size ≤ 2 ^ 32
  apart : ∀ base base' segment segment', heap.segments.lookup base = some segment →
    heap.segments.lookup base' = some segment' → base ≠ base' →
    base + segment.size ≤ base' ∨ base' + segment'.size ≤ base
  tiles : ∀ base segment, heap.segments.lookup base = some segment →
    Tiles (heap.runPieces base ++ others base) base (base + segment.size)
  owned : ∀ address run, heap.runsByAddress.lookup address = some run →
    (heap.segments.lookup run.segmentBase).isSome = true
  aligned : ∀ address run, heap.runsByAddress.lookup address = some run →
    16 ∣ address ∧ 16 ∣ run.size
  mirrored : ∀ size address, (size, address) ∈ heap.runsBySize ↔
    ∃ run, heap.runsByAddress.lookup address = some run ∧ run.size = size
  merged : ∀ address address' run run', heap.runsByAddress.lookup address = some run →
    heap.runsByAddress.lookup address' = some run' → run.segmentBase = run'.segmentBase →
    address + run.size ≠ address'

theorem Fits.empty (others : ℕ → List (ℕ × ℕ)) : Heap.empty.Fits others := by
  have hnone : ∀ {α : Type} {key : ℕ} {value : α}, (∅ : Table α).lookup key ≠ some value := by
    intro α key value
    rw [AList.lookup_empty]
    exact (Option.some_ne_none _).symm
  exact ⟨fun _ _ h => absurd h hnone, fun _ _ _ _ h => absurd h hnone,
    fun _ _ h => absurd h hnone, fun _ _ h => absurd h hnone, fun _ _ h => absurd h hnone,
    fun _ _ => ⟨nofun, fun ⟨_, h, _⟩ => absurd h hnone⟩, fun _ _ _ _ h => absurd h hnone⟩

variable {heap : Heap} {others : ℕ → List (ℕ × ℕ)}

/-- The pieces of a segment may stand in any order; no segment starts at 0. -/
theorem Fits.congr {others' : ℕ → List (ℕ × ℕ)} (h : heap.Fits others)
    (hperm : ∀ base, 0 < base → (others base).Perm (others' base)) : heap.Fits others' :=
  { h with tiles := fun base segment hs =>
      (h.tiles base segment hs).perm ((hperm base (h.segment base segment hs).1).append_left _) }

/-- A run among the runs of its segment. -/
theorem runPieces_perm {address : ℕ} {run : FreeRun}
    (h : heap.runsByAddress.lookup address = some run) (base : ℕ) :
    (heap.runPieces base).Perm
      (if run.segmentBase = base then (address, run.size) :: (heap.eraseRun address run).runPieces base
        else (heap.eraseRun address run).runPieces base) := by
  have hperm := (perm_of_lookup h).filterMap fun entry : Sigma fun _ : ℕ => FreeRun =>
    if entry.2.segmentBase = base then some (entry.1, entry.2.size) else none
  refine hperm.trans (.of_eq ?_)
  rw [List.filterMap_cons]
  split_ifs with hbase
  · rfl
  · rfl

theorem lookup_eraseRun {address : ℕ} {run : FreeRun} (a : ℕ) :
    (heap.eraseRun address run).runsByAddress.lookup a =
      if a = address then none else heap.runsByAddress.lookup a :=
  lookup_erase_eq a

/-- A run lies in its segment. -/
theorem Fits.run_inside (h : heap.Fits others) {address : ℕ} {run : FreeRun}
    (hrun : heap.runsByAddress.lookup address = some run) :
    ∃ segment, heap.segments.lookup run.segmentBase = some segment ∧ 0 < run.size ∧
      run.segmentBase ≤ address ∧ address + run.size ≤ run.segmentBase + segment.size := by
  obtain ⟨segment, hsegment⟩ := Option.isSome_iff_exists.mp (h.owned address run hrun)
  have hmem : (address, run.size) ∈ heap.runPieces run.segmentBase := by
    refine (runPieces_perm hrun run.segmentBase).mem_iff.mpr ?_
    rw [if_pos rfl]
    exact List.mem_cons_self
  obtain ⟨hpos, hlo, hhi⟩ :=
    (h.tiles _ segment hsegment).inside _ (List.mem_append_left _ hmem)
  exact ⟨segment, hsegment, hpos, hlo, hhi⟩

/-- Another piece lies in its segment. -/
theorem Fits.other_inside (h : heap.Fits others) {base : ℕ} {piece : ℕ × ℕ} {segment : Segment}
    (hsegment : heap.segments.lookup base = some segment) (hpiece : piece ∈ others base) :
    0 < piece.2 ∧ base ≤ piece.1 ∧ piece.1 + piece.2 ≤ base + segment.size :=
  (h.tiles base segment hsegment).inside _ (List.mem_append_right _ hpiece)

/-- Runs lie apart. -/
theorem Fits.runs_apart (h : heap.Fits others) {address address' : ℕ} {run run' : FreeRun}
    (hrun : heap.runsByAddress.lookup address = some run)
    (hrun' : heap.runsByAddress.lookup address' = some run') (hne : address ≠ address') :
    address + run.size ≤ address' ∨ address' + run'.size ≤ address := by
  obtain ⟨segment, hsegment, hpos, hlo, hhi⟩ := h.run_inside hrun
  obtain ⟨segment', hsegment', hpos', hlo', hhi'⟩ := h.run_inside hrun'
  by_cases hbase : run.segmentBase = run'.segmentBase
  · have hperm := runPieces_perm hrun run.segmentBase
    rw [if_pos rfl] at hperm
    have hrun'' : (heap.eraseRun address run).runsByAddress.lookup address' = some run' := by
      rw [lookup_eraseRun, if_neg hne.symm]
      exact hrun'
    have hperm' := runPieces_perm hrun'' run.segmentBase
    rw [if_pos hbase.symm] at hperm'
    have htiles := (h.tiles _ segment hsegment).perm
      ((hperm.trans (hperm'.cons _)).append_right _)
    exact htiles.apart
  · rcases h.apart _ _ _ _ hsegment hsegment' hbase with hapart | hapart
    · exact .inl (by omega)
    · exact .inr (by omega)

/-- A run and another piece lie apart. -/
theorem Fits.run_piece_apart {base : ℕ} {piece : ℕ × ℕ} {segment : Segment}
    (h : heap.Fits (withPiece base piece others))
    (hsegment : heap.segments.lookup base = some segment) {address : ℕ} {run : FreeRun}
    (hrun : heap.runsByAddress.lookup address = some run) :
    address + run.size ≤ piece.1 ∨ piece.1 + piece.2 ≤ address := by
  obtain ⟨segment', hsegment', hpos', hlo', hhi'⟩ := h.run_inside hrun
  have hmem : piece ∈ withPiece base piece others base := by
    rw [withPiece_self]
    exact List.mem_cons_self
  obtain ⟨hpos, hlo, hhi⟩ := h.other_inside hsegment hmem
  by_cases hbase : run.segmentBase = base
  · have hperm := runPieces_perm hrun base
    rw [if_pos hbase] at hperm
    have htiles := h.tiles base segment hsegment
    rw [withPiece_self] at htiles
    have hperm' := (hperm.append_right (piece :: others base)).trans
      ((@List.perm_middle _ piece ((heap.eraseRun address run).runPieces base)
        (others base)).cons (address, run.size))
    exact (htiles.perm hperm').apart
  · rcases h.apart _ _ _ _ hsegment' hsegment hbase with hapart | hapart
    · exact .inl (by omega)
    · exact .inr (by omega)

/-! ### Moving pieces -/

/-- A run becomes another piece. -/
theorem Fits.eraseRun (h : heap.Fits others) {address : ℕ} {run : FreeRun}
    (hrun : heap.runsByAddress.lookup address = some run) :
    (heap.eraseRun address run).Fits (withPiece run.segmentBase (address, run.size) others) := by
  have hlookup : ∀ {a r}, (heap.eraseRun address run).runsByAddress.lookup a = some r →
      a ≠ address ∧ heap.runsByAddress.lookup a = some r := by
    intro a r ha
    rw [lookup_eraseRun] at ha
    split_ifs at ha with hne
    exact ⟨hne, ha⟩
  refine ⟨h.segment, h.apart, fun base segment hsegment => ?_, fun a r ha => ?_, fun a r ha => ?_,
    fun size a => ?_, fun a a' r r' ha ha' => ?_⟩
  · refine (h.tiles base segment hsegment).perm ?_
    have hperm := runPieces_perm hrun base
    by_cases hbase : run.segmentBase = base
    · rw [if_pos hbase] at hperm
      rw [hbase, withPiece_self]
      exact (hperm.append_right _).trans List.perm_middle.symm
    · rw [if_neg hbase] at hperm
      rw [withPiece_of_ne (Ne.symm hbase)]
      exact hperm.append_right _
  · exact h.owned a r (hlookup ha).2
  · exact h.aligned a r (hlookup ha).2
  · change (size, a) ∈ heap.runsBySize.filter (· ≠ (run.size, address)) ↔ _
    rw [List.mem_filter, h.mirrored, lookup_eraseRun]
    constructor
    · rintro ⟨⟨r, hr, rfl⟩, hne⟩
      refine ⟨r, ?_, rfl⟩
      rw [if_neg, hr]
      rintro rfl
      obtain rfl := Option.some.inj (hr.symm.trans hrun)
      simp at hne
    · rintro ⟨r, hr, rfl⟩
      split_ifs at hr with hne
      refine ⟨⟨r, hr, rfl⟩, decide_eq_true fun heq => hne (Prod.mk.inj heq).2⟩
  · exact h.merged a a' r r' (hlookup ha).2 (hlookup ha').2

/-- A piece is cut in two. -/
theorem Fits.split {base start size cut : ℕ}
    (h : heap.Fits (withPiece base (start, size) others)) (hpos : 0 < cut) (hlt : cut < size) :
    heap.Fits (withPiece base (start, cut) (withPiece base (start + cut, size - cut) others)) := by
  refine { h with tiles := fun b segment hsegment => ?_ }
  have htiles := h.tiles b segment hsegment
  by_cases hbase : b = base
  · subst hbase
    rw [withPiece_self] at htiles
    rw [withPiece_self, withPiece_self]
    refine (Tiles.split (htiles.perm List.perm_middle) hpos hlt).perm ?_
    exact (List.perm_middle.trans (List.perm_middle.cons _)).symm
  · rw [withPiece_of_ne hbase] at htiles
    rw [withPiece_of_ne hbase, withPiece_of_ne hbase]
    exact htiles

/-- Neighbouring pieces are joined. -/
theorem Fits.merge {base start size size' : ℕ}
    (h : heap.Fits (withPiece base (start, size) (withPiece base (start + size, size') others))) :
    heap.Fits (withPiece base (start, size + size') others) := by
  refine { h with tiles := fun b segment hsegment => ?_ }
  have htiles := h.tiles b segment hsegment
  by_cases hbase : b = base
  · subst hbase
    rw [withPiece_self, withPiece_self] at htiles
    rw [withPiece_self]
    have hfront := htiles.perm (List.perm_middle.trans (List.perm_middle.cons _))
    exact hfront.merge.perm List.perm_middle.symm
  · rw [withPiece_of_ne hbase, withPiece_of_ne hbase] at htiles
    rw [withPiece_of_ne hbase]
    exact htiles

/-- The two pieces may change places. -/
theorem withPiece_comm (base : ℕ) (piece piece' : ℕ × ℕ) (others : ℕ → List (ℕ × ℕ)) (b : ℕ) :
    (withPiece base piece (withPiece base piece' others) b).Perm
      (withPiece base piece' (withPiece base piece others) b) := by
  by_cases hbase : b = base
  · subst hbase
    simp only [withPiece_self]
    exact .swap ..
  · simp only [withPiece_of_ne hbase]
    exact .refl _

/-- A piece that touches no run becomes a run. -/
theorem Fits.placeRun {base address size : ℕ} (h : heap.Fits (withPiece base (address, size) others))
    (hbase : (heap.segments.lookup base).isSome = true) (haddress : 16 ∣ address)
    (hsize : 16 ∣ size) (hfree : ∀ a run, heap.runsByAddress.lookup a = some run →
      run.segmentBase = base → a + run.size ≠ address ∧ address + size ≠ a) :
    ({ heap with
        runsByAddress := emplace heap.runsByAddress address ⟨size, base⟩
        runsBySize :=
          if (size, address) ∈ heap.runsBySize then heap.runsBySize
          else (size, address) :: heap.runsBySize } : Heap).Fits others := by
  obtain ⟨segment, hsegment⟩ := Option.isSome_iff_exists.mp hbase
  have hmem : (address, size) ∈ withPiece base (address, size) others base := by
    rw [withPiece_self]
    exact List.mem_cons_self
  obtain ⟨hpos, -, -⟩ := h.other_inside hsegment hmem
  have hfresh : heap.runsByAddress.lookup address = none := by
    by_contra hsome
    obtain ⟨run, hrun⟩ := Option.ne_none_iff_exists'.mp hsome
    obtain ⟨-, -, hpos', -, -⟩ := h.run_inside hrun
    rcases h.run_piece_apart hsegment hrun with hapart | hapart <;> dsimp only at hapart hpos <;>
      omega
  have hnot : (size, address) ∉ heap.runsBySize := by
    rw [h.mirrored]
    rintro ⟨run, hrun, -⟩
    rw [hfresh] at hrun
    exact absurd hrun (Option.some_ne_none _).symm
  have hemplace : emplace heap.runsByAddress address ⟨size, base⟩ =
      heap.runsByAddress.insert address ⟨size, base⟩ := by
    rw [emplace, hfresh]
    rfl
  rw [hemplace, if_neg hnot]
  have hlookup : ∀ a, (heap.runsByAddress.insert address ⟨size, base⟩).lookup a =
      if a = address then some ⟨size, base⟩ else heap.runsByAddress.lookup a := lookup_insert_eq
  refine ⟨h.segment, h.apart, fun b seg hseg => ?_, fun a run ha => ?_, fun a run ha => ?_,
    fun n a => ?_, fun a a' run run' ha ha' hsame => ?_⟩
  · have htiles := h.tiles b seg hseg
    have hentries : (heap.runsByAddress.insert address ⟨size, base⟩).entries =
        ⟨address, ⟨size, base⟩⟩ :: heap.runsByAddress.entries :=
      AList.entries_insert_of_notMem (AList.lookup_eq_none.mp hfresh)
    rw [runPieces, hentries, List.filterMap_cons]
    by_cases hb : b = base
    · subst hb
      rw [withPiece_self] at htiles
      simp only [if_true]
      exact htiles.perm List.perm_middle
    · rw [withPiece_of_ne hb] at htiles
      simp only [if_neg (Ne.symm hb)]
      exact htiles
  · rw [hlookup] at ha
    split_ifs at ha
    · rw [← Option.some.inj ha]
      exact hbase
    · exact h.owned a run ha
  · rw [hlookup] at ha
    split_ifs at ha with heq
    · rw [← Option.some.inj ha, heq]
      exact ⟨haddress, hsize⟩
    · exact h.aligned a run ha
  · rw [List.mem_cons, h.mirrored, hlookup]
    constructor
    · rintro (heq | ⟨run, hrun, rfl⟩)
      · obtain ⟨rfl, rfl⟩ := Prod.mk.inj heq
        exact ⟨_, if_pos rfl, rfl⟩
      · refine ⟨run, ?_, rfl⟩
        rw [if_neg, hrun]
        rintro rfl
        rw [hfresh] at hrun
        exact absurd hrun (Option.some_ne_none _).symm
    · rintro ⟨run, hrun, rfl⟩
      split_ifs at hrun with heq
      · rw [← Option.some.inj hrun, heq]
        exact .inl rfl
      · exact .inr ⟨run, hrun, rfl⟩
  · rw [hlookup] at ha ha'
    split_ifs at ha ha' with heq heq' heq'
    · rw [← Option.some.inj ha, heq, heq']
      dsimp only at hpos ⊢
      omega
    · rw [← Option.some.inj ha] at hsame
      rw [← Option.some.inj ha, heq]
      exact (hfree a' run' ha' hsame.symm).2
    · rw [← Option.some.inj ha'] at hsame
      rw [heq']
      exact (hfree a run ha hsame).1
    · exact h.merged a a' run run' ha ha' hsame

/-! ### Joining -/

theorem previousRun_some {address previous : ℕ} {run : FreeRun}
    (h : heap.previousRun address = some ⟨previous, run⟩) :
    heap.runsByAddress.lookup previous = some run ∧ previous < address ∧
      ∀ a r, heap.runsByAddress.lookup a = some r → a < address → a ≤ previous := by
  have hmem := List.mem_filter.mp (List.argmax_mem (Option.mem_def.mpr h))
  refine ⟨Option.mem_def.mp (AList.mem_lookup_iff.mpr hmem.1), of_decide_eq_true hmem.2,
    fun a r hr hlt => ?_⟩
  have hentry : (⟨a, r⟩ : Sigma fun _ : ℕ => FreeRun) ∈
      heap.runsByAddress.entries.filter fun entry => entry.1 < address :=
    List.mem_filter.mpr ⟨AList.mem_lookup_iff.mp (Option.mem_def.mpr hr), decide_eq_true hlt⟩
  exact List.le_of_mem_argmax hentry (Option.mem_def.mpr h)

theorem previousRun_none {address : ℕ} (h : heap.previousRun address = none) {a : ℕ} {r : FreeRun}
    (hr : heap.runsByAddress.lookup a = some r) : ¬a < address := by
  intro hlt
  have hnil := List.argmax_eq_none.mp h
  have hentry : (⟨a, r⟩ : Sigma fun _ : ℕ => FreeRun) ∈
      heap.runsByAddress.entries.filter fun entry => entry.1 < address :=
    List.mem_filter.mpr ⟨AList.mem_lookup_iff.mp (Option.mem_def.mpr hr), decide_eq_true hlt⟩
  rw [hnil] at hentry
  exact List.not_mem_nil hentry

/-- What the first half of `insert_run_locked` leaves: no run ends where the piece
starts. -/
theorem Fits.joinPrevious {base address size : ℕ}
    (h : heap.Fits (withPiece base (address, size) others))
    (hbase : (heap.segments.lookup base).isSome = true) (haddress : 16 ∣ address)
    (hsize : 16 ∣ size) {heap' : Heap} {address' : ℕ} {run' : FreeRun}
    (hjoin : heap.joinPrevious address ⟨size, base⟩ = (heap', address', run')) :
    heap'.Fits (withPiece base (address', run'.size) others) ∧ run'.segmentBase = base ∧
      heap'.segments = heap.segments ∧ address' + run'.size = address + size ∧
      16 ∣ address' ∧ 16 ∣ run'.size ∧
      ∀ a run, heap'.runsByAddress.lookup a = some run → run.segmentBase = base →
        a + run.size ≠ address' := by
  obtain ⟨segment, hsegment⟩ := Option.isSome_iff_exists.mp hbase
  rw [Heap.joinPrevious] at hjoin
  cases hprevious : heap.previousRun address with
  | none =>
      rw [hprevious] at hjoin
      obtain ⟨rfl, rfl, rfl⟩ := by simpa using hjoin
      refine ⟨h, rfl, rfl, rfl, haddress, hsize, fun a run hrun _ heq => ?_⟩
      obtain ⟨-, -, hpos, -, -⟩ := h.run_inside hrun
      exact previousRun_none hprevious hrun (by omega)
  | some entry =>
      obtain ⟨previous, before⟩ := entry
      obtain ⟨hbefore, hlt, hlast⟩ := previousRun_some hprevious
      rw [hprevious] at hjoin
      dsimp only at hjoin
      split_ifs at hjoin with htouch
      · obtain ⟨hsame, hend⟩ := htouch
        obtain ⟨rfl, rfl, rfl⟩ := by simpa using hjoin
        obtain ⟨haligned, haligned'⟩ := h.aligned previous before hbefore
        have herased := h.eraseRun hbefore
        rw [hsame, ← hend] at herased
        refine ⟨?_, rfl, rfl, by dsimp only; omega, haligned, Nat.dvd_add hsize haligned', ?_⟩
        · rw [Nat.add_comm size]
          exact herased.merge
        · intro a run hrun hrunbase
          rw [lookup_eraseRun] at hrun
          split_ifs at hrun
          exact h.merged a previous run before hrun hbefore (hrunbase.trans hsame.symm)
      · obtain ⟨rfl, rfl, rfl⟩ := by simpa using hjoin
        refine ⟨h, rfl, rfl, rfl, haddress, hsize, fun a run hrun hrunbase hend => ?_⟩
        obtain ⟨-, -, hpos, -, -⟩ := h.run_inside hrun
        have hle := hlast a run hrun (by omega)
        by_cases heq : a = previous
        · subst heq
          obtain rfl := Option.some.inj (hrun.symm.trans hbefore)
          exact htouch ⟨hrunbase, hend⟩
        · obtain ⟨-, -, hpos', -, -⟩ := h.run_inside hbefore
          rcases h.runs_apart hrun hbefore heq with hapart | hapart <;> omega

/-- The address behind a piece names a run exactly as in 32 bits. -/
theorem Fits.lookup_wrapped (h : heap.Fits others) {address : ℕ} (hle : address ≤ 2 ^ 32) :
    heap.runsByAddress.lookup (address % 2 ^ 32) = heap.runsByAddress.lookup address := by
  rcases Nat.lt_or_eq_of_le hle with hlt | rfl
  · rw [Nat.mod_eq_of_lt hlt]
  · have hnone : ∀ a, a = 0 ∨ a = 2 ^ 32 → heap.runsByAddress.lookup a = none := by
      intro a ha
      by_contra hsome
      obtain ⟨run, hrun⟩ := Option.ne_none_iff_exists'.mp hsome
      obtain ⟨segment, hsegment, hpos, hlo, hhi⟩ := h.run_inside hrun
      obtain ⟨hbase, hend⟩ := h.segment _ segment hsegment
      rcases ha with rfl | rfl <;> omega
    rw [Nat.mod_self, hnone 0 (.inl rfl), hnone _ (.inr rfl)]

/-- **`insert_run_locked` makes a piece a run** and joins it with its neighbours. -/
theorem Fits.insertRun {base address size : ℕ}
    (h : heap.Fits (withPiece base (address, size) others))
    (hbase : (heap.segments.lookup base).isSome = true) (haddress : 16 ∣ address)
    (hsize : 16 ∣ size) :
    (heap.insertRun address ⟨size, base⟩).Fits others ∧
      (heap.insertRun address ⟨size, base⟩).segments = heap.segments := by
  rw [Heap.insertRun]
  rcases hjoin : heap.joinPrevious address ⟨size, base⟩ with ⟨heap', address', run'⟩
  obtain ⟨h', hrunbase, hsegments, -, haddress', hsize', hnoend⟩ :=
    h.joinPrevious hbase haddress hsize hjoin
  dsimp only
  rw [← hsegments] at hbase ⊢
  obtain ⟨segment, hsegment⟩ := Option.isSome_iff_exists.mp hbase
  have hmem : (address', run'.size) ∈ withPiece base (address', run'.size) others base := by
    rw [withPiece_self]
    exact List.mem_cons_self
  obtain ⟨hpos, hlo, hhi⟩ := h'.other_inside hsegment hmem
  obtain ⟨hbasepos, hend⟩ := h'.segment base segment hsegment
  dsimp only at hpos hlo hhi
  have hwrap := @Heap.Fits.lookup_wrapped _ _ h' (address' + run'.size) (by omega)
  have hmod : ∀ {after}, heap'.runsByAddress.lookup (address' + run'.size) = some after →
      (address' + run'.size) % 2 ^ 32 = address' + run'.size := by
    intro after hafter
    obtain ⟨seg, hseg, hpos', hlo', hhi'⟩ := h'.run_inside hafter
    obtain ⟨-, hend'⟩ := h'.segment _ seg hseg
    exact Nat.mod_eq_of_lt (by omega)
  rw [Heap.joinNext, hwrap]
  cases hafter : heap'.runsByAddress.lookup (address' + run'.size) with
  | none =>
      dsimp only
      refine ⟨?_, rfl⟩
      obtain ⟨n, b⟩ := run'
      obtain rfl : b = base := hrunbase
      refine h'.placeRun hbase haddress' hsize' fun a run hrun hsame => ⟨hnoend a run hrun hsame, ?_⟩
      rintro rfl
      rw [hrun] at hafter
      exact absurd hafter (Option.some_ne_none _)
  | some after =>
      dsimp only
      rw [hmod hafter]
      obtain ⟨n, b⟩ := run'
      obtain rfl : b = base := hrunbase
      dsimp only at *
      by_cases hsame : after.segmentBase = b
      · simp only [if_pos hsame]
        refine ⟨?_, rfl⟩
        obtain ⟨-, haligned⟩ := h'.aligned _ _ hafter
        have herased := h'.eraseRun hafter
        rw [hsame] at herased
        have hjoined := (herased.congr fun base _ => withPiece_comm b _ _ others base).merge
        refine hjoined.placeRun hbase haddress' (Nat.dvd_add hsize' haligned) ?_
        intro a run hrun hrunbase
        rw [lookup_eraseRun] at hrun
        split_ifs at hrun with hne
        refine ⟨hnoend a run hrun hrunbase, fun heq => ?_⟩
        exact h'.merged _ _ after run hafter hrun (hsame.trans hrunbase.symm) (by omega)
      · simp only [if_neg hsame]
        refine ⟨?_, trivial⟩
        refine h'.placeRun hbase haddress' hsize' fun a run hrun hrunbase =>
          ⟨hnoend a run hrun hrunbase, ?_⟩
        rintro rfl
        obtain rfl := Option.some.inj (hrun.symm.trans hafter)
        exact hsame hrunbase

/-- A piece is cut out of a run, and the rest becomes a run again. -/
theorem Fits.cutRun (h : heap.Fits others) {address need : ℕ} {run : FreeRun}
    (hrun : heap.runsByAddress.lookup address = some run) (hpos : 0 < need) (haligned : 16 ∣ need)
    (hle : need ≤ run.size) {heap' : Heap}
    (hheap : heap' = if run.size > need then
        (heap.eraseRun address run).insertRun (address + need) ⟨run.size - need, run.segmentBase⟩
      else heap.eraseRun address run) :
    heap'.Fits (withPiece run.segmentBase (address, need) others) ∧
      heap'.segments = heap.segments := by
  have herased := h.eraseRun hrun
  obtain ⟨hat, hsize⟩ := h.aligned address run hrun
  by_cases hrest : run.size > need
  · rw [if_pos hrest] at hheap
    subst hheap
    exact ((herased.split hpos hrest).congr fun base _ => withPiece_comm _ _ _ others base).insertRun
      (h.owned address run hrun) (Nat.dvd_add hat haligned) (Nat.dvd_sub hsize haligned)
  · rw [if_neg hrest] at hheap
    subst hheap
    obtain rfl : need = run.size := by omega
    exact ⟨herased, rfl⟩

/-- A new segment is a piece of its own. -/
theorem Fits.addSegment (h : heap.Fits others) {base size : ℕ}
    (hnone : heap.segments.lookup base = none) (hbase : 0 < base) (hsize : 0 < size)
    (hend : base + size ≤ 2 ^ 32) (hothers : others base = [])
    (hapart : ∀ base' segment, heap.segments.lookup base' = some segment →
      base + size ≤ base' ∨ base' + segment.size ≤ base) :
    ({ heap with segments := emplace heap.segments base ⟨size, 0⟩ } : Heap).Fits
      (withPiece base (base, size) others) := by
  have hlookup : ∀ b, (emplace heap.segments base ⟨size, 0⟩).lookup b =
      if b = base then some ⟨size, 0⟩ else heap.segments.lookup b := by
    intro b
    rw [emplace, hnone]
    exact lookup_insert_eq b
  refine ⟨fun b segment hb => ?_, fun b b' segment segment' hb hb' hne => ?_,
    fun b segment hb => ?_, fun a run ha => ?_, h.aligned, h.mirrored, h.merged⟩
  · rw [hlookup] at hb
    split_ifs at hb with heq
    · rw [← Option.some.inj hb, heq]
      exact ⟨hbase, hend⟩
    · exact h.segment b segment hb
  · rw [hlookup] at hb hb'
    split_ifs at hb hb' with heq heq' heq'
    · exact absurd (heq.trans heq'.symm) hne
    · rw [← Option.some.inj hb, heq]
      exact hapart b' segment' hb'
    · rw [← Option.some.inj hb', heq']
      exact (hapart b segment hb).symm
    · exact h.apart b b' segment segment' hb hb' hne
  · rw [hlookup] at hb
    split_ifs at hb with heq
    · -- No run belongs to a segment that was not there.
      have hruns : heap.runPieces base = [] := by
        refine List.filterMap_eq_nil_iff.mpr fun entry hentry => if_neg fun hsame => ?_
        have howned := h.owned entry.1 entry.2
          (Option.mem_def.mp (AList.mem_lookup_iff.mpr hentry))
        rw [hsame, hnone] at howned
        simp at howned
      rw [heq, withPiece_self, hothers, ← Option.some.inj hb]
      change Tiles (heap.runPieces base ++ _) _ _
      rw [hruns]
      exact Tiles.single hsize
    · rw [withPiece_of_ne heq]
      exact h.tiles b segment hb
  · rw [hlookup]
    split_ifs
    · rfl
    · exact h.owned a run ha

/-- A run that is a whole segment lies in that segment. -/
theorem Fits.whole_run (h : heap.Fits others) {base : ℕ} {segment : Segment} {run : FreeRun}
    (hsegment : heap.segments.lookup base = some segment)
    (hrun : heap.runsByAddress.lookup base = some run) (hsize : run.size = segment.size) :
    run.segmentBase = base := by
  obtain ⟨segment', hsegment', hpos, hlo, hhi⟩ := h.run_inside hrun
  by_contra hne
  rcases h.apart _ _ _ _ hsegment' hsegment hne with hapart | hapart <;> omega

/-- A segment that is one free run has no other pieces, and may go with its run. -/
theorem Fits.dropSegment (h : heap.Fits others) {base : ℕ} {segment : Segment} {run : FreeRun}
    (hsegment : heap.segments.lookup base = some segment)
    (hrun : heap.runsByAddress.lookup base = some run) (hsize : run.size = segment.size) :
    others base = [] ∧
      ({ heap.eraseRun base run with segments := heap.segments.erase base } : Heap).Fits
        others := by
  have hwhole := h.whole_run hsegment hrun hsize
  have herased := h.eraseRun hrun
  rw [hwhole] at herased
  have htiles := herased.tiles base segment hsegment
  rw [withPiece_self, ← hsize] at htiles
  obtain ⟨hruns, hothers⟩ := List.append_eq_nil_iff.mp (htiles.perm List.perm_middle).eq_nil
  have hlookup : ∀ b, (heap.segments.erase base).lookup b =
      if b = base then none else heap.segments.lookup b := lookup_erase_eq
  have hkept : ∀ {b seg}, (heap.segments.erase base).lookup b = some seg →
      b ≠ base ∧ heap.segments.lookup b = some seg := by
    intro b seg hb
    rw [hlookup] at hb
    split_ifs at hb with hne
    exact ⟨hne, hb⟩
  refine ⟨hothers, fun b seg hb => ?_, fun b b' seg seg' hb hb' => ?_, fun b seg hb => ?_,
    fun a r ha => ?_, herased.aligned, herased.mirrored, herased.merged⟩
  · exact h.segment b seg (hkept hb).2
  · exact h.apart b b' seg seg' (hkept hb).2 (hkept hb').2
  · have hpieces := herased.tiles b seg (hkept hb).2
    rw [withPiece_of_ne (hkept hb).1] at hpieces
    exact hpieces
  · have hne : r.segmentBase ≠ base := by
      intro hsame
      have hmem : (a, r.size) ∈ (heap.eraseRun base run).runPieces base :=
        List.mem_filterMap.mpr ⟨⟨a, r⟩, AList.mem_lookup_iff.mp (Option.mem_def.mpr ha),
          if_pos hsame⟩
      rw [hruns] at hmem
      exact List.not_mem_nil hmem
    rw [hlookup, if_neg hne]
    exact herased.owned a r ha

/-- The used bytes of a segment matter to none of this. -/
theorem Fits.useBytes (h : heap.Fits others) {base : ℕ}
    (hbase : (heap.segments.lookup base).isSome = true) (f : ℕ → ℕ) :
    (heap.useBytes base f).Fits others := by
  obtain ⟨old, hold⟩ := Option.isSome_iff_exists.mp hbase
  have hlookup : ∀ {b segment}, (heap.useBytes base f).segments.lookup b = some segment →
      ∃ segment', heap.segments.lookup b = some segment' ∧ segment.size = segment'.size := by
    intro b segment hsegment
    rw [Heap.useBytes, modifyAt, lookup_insert_eq, hold] at hsegment
    split_ifs at hsegment with hb
    · subst hb
      exact ⟨old, hold, by rw [← Option.some.inj hsegment]; rfl⟩
    · exact ⟨segment, hsegment, rfl⟩
  refine ⟨fun b segment hb => ?_, fun b b' segment segment' hb hb' => ?_, fun b segment hb => ?_,
    fun a run ha => ?_, h.aligned, h.mirrored, h.merged⟩
  · obtain ⟨segment', hsegment', hsize⟩ := hlookup hb
    rw [hsize]
    exact h.segment b segment' hsegment'
  · obtain ⟨seg, hseg, hsize⟩ := hlookup hb
    obtain ⟨seg', hseg', hsize'⟩ := hlookup hb'
    rw [hsize, hsize']
    exact h.apart b b' seg seg' hseg hseg'
  · obtain ⟨segment', hsegment', hsize⟩ := hlookup hb
    rw [hsize]
    exact h.tiles b segment' hsegment'
  · rw [Heap.useBytes, modifyAt, lookup_insert_eq]
    split_ifs
    · rfl
    · exact h.owned a run ha

/-- The used bytes of the segments. -/
theorem lookup_useBytes {base : ℕ} {old : Segment} (hold : heap.segments.lookup base = some old)
    (f : ℕ → ℕ) (b : ℕ) : (heap.useBytes base f).segments.lookup b =
      if b = base then some { old with usedBytes := f old.usedBytes }
      else heap.segments.lookup b := by
  rw [Heap.useBytes, modifyAt, lookup_insert_eq, hold]
  rfl

/-- The best fit is a run that is large enough. -/
theorem Fits.bestFit (h : heap.Fits others) {need size address : ℕ}
    (hfit : heap.bestFit need = some (size, address)) :
    need ≤ size ∧ ∃ run, heap.runsByAddress.lookup address = some run ∧ run.size = size := by
  have hmem := List.mem_filter.mp (List.argmin_mem (Option.mem_def.mpr hfit))
  exact ⟨of_decide_eq_true hmem.2, (h.mirrored size address).mp hmem.1⟩

end Heap

end Kernel
end XenonRecomp
