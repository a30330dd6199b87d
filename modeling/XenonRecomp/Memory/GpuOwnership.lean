/-
# Ownership over whole runs

The public operations of `GuestMemoryGpuCoherency` as steps, and what each of
them does to the CPU-dirty, the GPU-dirty and the device-valid bytes (`Maps`).
In every run the lists stay canonical and inside memory (`run_shaped`), so that
a batch of published writes can be ingested at once (`ingestion_batched`).

The relations between the lists (`Owned`) hold as long as no upload is rolled
back over bytes that the GPU has written meanwhile (`ownership_iff`):
`rollback_cpu_upload` takes such bytes from `device_valid_` and adds them to
`cpu_dirty_`, but leaves them in `gpu_dirty_`, where `mark_cpu_write` removes
them.
-/

import XenonRecomp.Memory.GpuIngestion

namespace XenonRecomp
namespace Memory

open Library Library.Runs

/-- The public operations that change a `GuestMemoryGpuCoherency`. -/
inductive GpuOp where
  | reset (size : BitVec 32) (cpuInitiallyDirty : Bool) (topology : GpuMemoryTopology)
  | clear
  | planUpload (memory : Publications) (address size maxRangeBytes : BitVec 32)
      (usage : GpuRangeUsage)
  | commitCpuUpload (address size : BitVec 32)
  | rollbackCpuUpload (address size : BitVec 32)
  | markCpuWrite (address size : BitVec 32) (domain : MemoryOrderingDomain)
  | markGpuWrite (address size : BitVec 32)
  | planReadback (memory : Publications) (address size maxRangeBytes : BitVec 32)
      (usage : GpuRangeUsage)
  | prepareGpuDownload (memory : Publications) (planned : GpuReadbackRange)
      (maxRangeBytes : BitVec 32)
  | commitGpuDownload (memory : Publications) (planned : GpuReadbackRange)
      (address size : BitVec 32) (publicationEpoch : ℕ)
  | markGpuDownloaded (address size : BitVec 32)

namespace GpuCoherency

/-- One call. -/
def step (s : GpuCoherency) : GpuOp → GpuCoherency × Unit
  | .reset size cpuInitiallyDirty topology => (reset size cpuInitiallyDirty topology, ())
  | .clear => (init, ())
  | .planUpload memory address size maxRangeBytes usage =>
      ((s.planUpload memory address size maxRangeBytes usage).1, ())
  | .commitCpuUpload address size => (s.commitCpuUpload address size, ())
  | .rollbackCpuUpload address size => (s.rollbackCpuUpload address size, ())
  | .markCpuWrite address size domain => (s.markCpuWrite address.toNat size.toNat domain, ())
  | .markGpuWrite address size => ((s.markGpuWrite address size).1, ())
  | .planReadback memory address size maxRangeBytes usage =>
      ((s.planReadback memory address size maxRangeBytes usage).1, ())
  | .prepareGpuDownload memory planned maxRangeBytes =>
      ((s.prepareGpuDownload memory planned maxRangeBytes).1, ())
  | .commitGpuDownload memory planned address size publicationEpoch =>
      ((s.commitGpuDownload memory planned address size publicationEpoch).1, ())
  | .markGpuDownloaded address size => (s.markGpuDownloaded address size, ())

/-- The state after some calls on a new object. -/
def after (ops : List GpuOp) : GpuCoherency :=
  Transition.run step init ops

/-! ### The bytes of each operation -/

/-- The lists are shaped and hold these bytes. -/
structure Maps (s : GpuCoherency) (cpu : ℕ → Prop) (gpu : ℕ → ℕ → Prop) (valid : ℕ → Prop) :
    Prop where
  shaped : s.Shaped
  cpuDirty : ∀ a, In s.cpuDirty a ↔ cpu a
  gpuDirty : ∀ a g, At s.gpuDirty a g ↔ gpu a g
  deviceValid : ∀ a, In s.deviceValid a ↔ valid a

variable {s : GpuCoherency}

theorem Shaped.maps (h : s.Shaped) :
    Maps s (In s.cpuDirty) (At s.gpuDirty) (In s.deviceValid) :=
  ⟨h, fun _ => Iff.rfl, fun _ _ => Iff.rfl, fun _ => Iff.rfl⟩

/-- The epoch plays no part in the shape of the lists. -/
theorem Maps.withEpoch {cpu : ℕ → Prop} {gpu : ℕ → ℕ → Prop} {valid : ℕ → Prop}
    (h : Maps s cpu gpu valid) (epoch : ℕ) :
    Maps { s with synchronizedEpoch := epoch } cpu gpu valid :=
  ⟨⟨h.shaped.cpuDirty, h.shaped.cpuVisibility, h.shaped.gpuDirty, h.shaped.deviceValid,
    h.shaped.requested, h.shaped.touchedPages⟩, h.cpuDirty, h.gpuDirty, h.deviceValid⟩

/-- The bytes that `subtract` leaves. -/
theorem in_subtract {n : ℕ} {l : List GpuCoherencyRange} (hl : Formed l n) (hn : n < 2 ^ 32)
    (removed : GpuCoherencyRange) (a : ℕ) :
    In (subtract l removed) a ↔ In l a ∧ ¬removed.Holds a := by
  rw [← at_unit (u := ()), (subtract_spec hl hn removed).2, at_unit]

theorem reset_maps (size : BitVec 32) (cpuInitiallyDirty : Bool) (topology : GpuMemoryTopology) :
    Maps (reset size cpuInitiallyDirty topology)
      (fun a => cpuInitiallyDirty = true ∧ a < size.toNat) (fun _ _ => False) fun _ => False := by
  have hsize : size ≠ 0 ↔ 0 < size.toNat := by
    rw [Nat.pos_iff_ne_zero, Ne, Ne, ← BitVec.toNat_inj]
    rfl
  unfold reset init
  simp only
  by_cases hdirty : (cpuInitiallyDirty && decide (size ≠ 0)) = true
  · simp only [hdirty, if_true]
    have hpos : 0 < size.toNat := by
      simp only [Bool.and_eq_true, decide_eq_true_eq] at hdirty
      exact hsize.mp hdirty.2
    have hwhole : ∀ {β : Type} (label : β), Formed [(⟨0, size.toNat, label⟩ : Run β)] size.toNat :=
      fun label => ⟨canonical_singleton hpos, by simp [Within, Run.stop]⟩
    refine ⟨⟨hwhole _, hwhole _, formed_nil, formed_nil, formed_nil, formed_nil⟩, fun a => ?_,
      by simp, by simp⟩
    simp only [Bool.and_eq_true] at hdirty
    simp [Run.Holds, Run.stop, hdirty.1]
  · simp only [hdirty, Bool.false_eq_true, if_false]
    refine ⟨⟨formed_nil, formed_nil, formed_nil, formed_nil, formed_nil, formed_nil⟩, fun a => ?_,
      by simp, by simp⟩
    simp only [Bool.and_eq_true, decide_eq_true_eq, not_and, hsize] at hdirty
    simp only [not_in_nil, false_iff, not_and]
    intro h
    have := hdirty h
    omega

theorem init_shaped : init.Shaped :=
  ⟨formed_nil, formed_nil, formed_nil, formed_nil, formed_nil, formed_nil⟩

theorem touchPages_shaped (hs : s.Shaped) {range : GpuCoherencyRange}
    (hstop : range.stop ≤ s.size.toNat) : Formed (s.touchPages range).touchedPages s.size.toNat :=
  (touchPages_spec hs hstop).1

theorem commitCpuUpload_maps (hs : s.Shaped) (address size : BitVec 32) :
    Maps (s.commitCpuUpload address size)
      (fun a => In s.cpuDirty a ∧ ¬(s.clamp address.toNat size.toNat).Holds a) (At s.gpuDirty)
      fun a => In s.deviceValid a ∨ (s.clamp address.toNat size.toNat).Holds a := by
  have hn := s.size_lt
  have hstop := s.clamp_stop address.toNat size.toNat
  unfold commitCpuUpload
  simp only
  generalize s.clamp address.toNat size.toNat = range at *
  obtain ⟨hvalid, hinvalid⟩ := add_spec hs.deviceValid hn hstop
  refine ⟨⟨?_, ?_, ?_, ?_, ?_, ?_⟩, in_subtract hs.cpuDirty hn range, by simp, hinvalid⟩
  · simpa using (subtract_spec hs.cpuDirty hn range).1
  · simpa using (subtract_spec hs.cpuVisibility hn range).1
  · simpa using hs.gpuDirty
  · simpa using hvalid
  · simpa using hs.requested
  · simpa using touchPages_shaped hs hstop

theorem rollbackCpuUpload_maps (hs : s.Shaped) (address size : BitVec 32) :
    Maps (s.rollbackCpuUpload address size)
      (fun a => In s.cpuDirty a ∨ (s.clamp address.toNat size.toNat).Holds a) (At s.gpuDirty)
      fun a => In s.deviceValid a ∧ ¬(s.clamp address.toNat size.toNat).Holds a := by
  have hn := s.size_lt
  have hstop := s.clamp_stop address.toNat size.toNat
  unfold rollbackCpuUpload
  simp only
  generalize s.clamp address.toNat size.toNat = range at *
  by_cases hsize : range.size = 0
  · rw [if_pos hsize]
    have hnot := not_holds_of_size hsize
    simpa only [hnot, or_false, not_false_eq_true, and_true] using hs.maps
  · rw [if_neg hsize]
    obtain ⟨hcpu, hincpu⟩ := add_spec hs.cpuDirty hn hstop
    refine ⟨⟨?_, ?_, ?_, ?_, ?_, ?_⟩, hincpu, by simp, in_subtract hs.deviceValid hn range⟩
    · simpa using hcpu
    · simpa using hs.cpuVisibility
    · simpa using hs.gpuDirty
    · simpa using (subtract_spec hs.deviceValid hn range).1
    · simpa using hs.requested
    · simpa using touchPages_shaped hs hstop

theorem markGpuWrite_maps (hs : s.Shaped) (address size : BitVec 32) :
    Maps (s.markGpuWrite address size).1
      (fun a => In s.cpuDirty a ∧ ¬(s.clamp address.toNat size.toNat).Holds a)
      (fun a g => ((s.clamp address.toNat size.toNat).Holds a ∧ s.nextGeneration = g) ∨
        (At s.gpuDirty a g ∧ ¬(s.clamp address.toNat size.toNat).Holds a))
      fun a => In s.deviceValid a ∨ (s.clamp address.toNat size.toNat).Holds a := by
  have hn := s.size_lt
  have hstop := s.clamp_stop address.toNat size.toNat
  unfold markGpuWrite
  simp only
  generalize s.clamp address.toNat size.toNat = range at *
  by_cases hsize : range.size = 0
  · rw [if_pos hsize]
    have hnot := not_holds_of_size hsize
    simpa only [hnot, or_false, false_and, false_or, not_false_eq_true, and_true] using hs.maps
  · rw [if_neg hsize]
    obtain ⟨hvalid, hinvalid⟩ := add_spec hs.deviceValid hn hstop
    have hinserted : (⟨range.start, range.size, s.nextGeneration⟩ : GpuReadbackRange).stop ≤
        s.size.toNat := hstop
    obtain ⟨hgpu, hatgpu⟩ := assignGpuRange_spec hs.gpuDirty hn hinserted
    refine ⟨⟨?_, ?_, ?_, ?_, ?_, ?_⟩, in_subtract hs.cpuDirty hn range, hatgpu, hinvalid⟩
    · simpa using (subtract_spec hs.cpuDirty hn range).1
    · simpa using (subtract_spec hs.cpuVisibility hn range).1
    · simpa using hgpu
    · simpa using hvalid
    · simpa using hs.requested
    · simpa using touchPages_shaped hs hstop

/-- Writes that are marked. -/
theorem Marked.maps {s' : GpuCoherency} {D : ℕ → MemoryOrderingDomain → Prop}
    (h : Marked s s' D) (hs' : s'.Shaped) :
    Maps s' (fun a => In s.cpuDirty a ∨ ∃ d, D a d)
      (fun a g => At s.gpuDirty a g ∧ ¬∃ d, D a d) fun a => In s.deviceValid a ∧ ¬∃ d, D a d :=
  ⟨hs', h.cpuDirty, h.gpuDirty, h.deviceValid⟩

/-- Noting a request changes neither of the three lists. -/
theorem Maps.request {cpu : ℕ → Prop} {gpu : ℕ → ℕ → Prop} {valid : ℕ → Prop}
    (h : Maps s cpu gpu valid) {range : GpuCoherencyRange} (hstop : range.stop ≤ s.size.toNat) :
    Maps (s.request range) cpu gpu valid := by
  have hn := s.size_lt
  obtain ⟨hrequested, -⟩ := add_spec h.shaped.requested hn hstop
  have hshaped : ({ s with requested := add s.requested range } : GpuCoherency).Shaped :=
    ⟨h.shaped.cpuDirty, h.shaped.cpuVisibility, h.shaped.gpuDirty, h.shaped.deviceValid, hrequested,
      h.shaped.touchedPages⟩
  have htouched := @touchPages_shaped _ hshaped range hstop
  unfold GpuCoherency.request
  refine ⟨⟨?_, ?_, ?_, ?_, ?_, ?_⟩, by simpa using h.cpuDirty, by simpa using h.gpuDirty,
    by simpa using h.deviceValid⟩
  · simpa using h.shaped.cpuDirty
  · simpa using h.shaped.cpuVisibility
  · simpa using h.shaped.gpuDirty
  · simpa using h.shaped.deviceValid
  · simpa using hrequested
  · simpa using htouched

/-- `subtract` for every range of a list. -/
theorem foldl_subtract_spec {n : ℕ} (hn : n < 2 ^ 32) (removed : List GpuCoherencyRange)
    {l : List GpuCoherencyRange} (hl : Formed l n) :
    Formed (removed.foldl subtract l) n ∧
      ∀ a, In (removed.foldl subtract l) a ↔ In l a ∧ ¬In removed a := by
  induction removed generalizing l with
  | nil => exact ⟨hl, by simp⟩
  | cons r removed ih =>
      obtain ⟨hformed, hin⟩ := ih (subtract_spec hl hn r).1
      refine ⟨hformed, fun a => ?_⟩
      rw [List.foldl_cons, hin, in_subtract hl hn, in_cons, not_or, and_assoc]

/-- Validating a range makes its bytes device-valid where they are not CPU-dirty. -/
theorem Maps.validate {cpu : ℕ → Prop} {gpu : ℕ → ℕ → Prop} {valid : ℕ → Prop}
    (h : Maps s cpu gpu valid) {range : GpuCoherencyRange} (hstop : range.stop ≤ s.size.toNat) :
    Maps (s.validate range) cpu gpu
      fun a => (valid a ∨ range.Holds a) ∧ ¬(cpu a ∧ range.Holds a) := by
  have hn := s.size_lt
  obtain ⟨hadded, hinadded⟩ := add_spec h.shaped.deviceValid hn hstop
  obtain ⟨hvalid, hinvalid⟩ := foldl_subtract_spec hn (intersections s.cpuDirty range) hadded
  refine ⟨⟨h.shaped.cpuDirty, h.shaped.cpuVisibility, h.shaped.gpuDirty, hvalid, h.shaped.requested,
    h.shaped.touchedPages⟩, h.cpuDirty, h.gpuDirty, fun a => ?_⟩
  have := hinvalid a
  rw [hinadded, in_intersections h.shaped.cpuDirty hn, h.cpuDirty, h.deviceValid] at this
  exact this

/-! ### Ingested writes -/

/-- The runs that `ingest_cpu_writes_unlocked` marks. -/
def ingestedRuns (memory : Publications) (sinceEpoch throughEpoch ignoredEpoch maxRangeBytes : ℕ) :
    List GpuCpuVisibilityRange :=
  match memory.collectExactDirtyWrites sinceEpoch throughEpoch with
  | some writes =>
      lastWriterRuns (if ignoredEpoch ≠ 0 then writes.filter (·.epoch ≠ ignoredEpoch) else writes)
  | none =>
      (collectDirtyRanges memory.pageEpochs sinceEpoch throughEpoch maxRangeBytes).map fun page =>
        ⟨page.1, page.2, .cacheInhibited⟩

theorem ingestCpuWrites_eq (memory : Publications)
    (throughEpoch ignoredEpoch maxRangeBytes : ℕ) :
    (s.ingestCpuWrites memory throughEpoch ignoredEpoch maxRangeBytes).1 =
      if throughEpoch ≤ s.synchronizedEpoch then s
      else { s.markCpuWrites (ingestedRuns memory s.synchronizedEpoch throughEpoch ignoredEpoch
        maxRangeBytes) with synchronizedEpoch := throughEpoch } := by
  unfold ingestCpuWrites ingestedRuns
  by_cases hold : throughEpoch ≤ s.synchronizedEpoch
  · rw [if_pos hold, if_pos hold]
  · rw [if_neg hold, if_neg hold]
    cases memory.collectExactDirtyWrites s.synchronizedEpoch throughEpoch <;> rfl

/-- A page that is dirty makes a run that is not empty. -/
theorem dirtyRun_pos {pageEpochs : ℕ → ℕ} {since page maxPages : ℕ} (hmax : 0 < maxPages)
    (hpage : page < physicalPageCount) (hdirty : since < pageEpochs page) :
    0 < dirtyRun pageEpochs since page maxPages := by
  obtain ⟨n, rfl⟩ := Nat.exists_eq_succ_of_ne_zero hmax.ne'
  rw [dirtyRun, if_pos ⟨hpage, hdirty⟩]
  exact Nat.succ_pos _

/-- The ranges of `collect_dirty_ranges` follow each other. -/
theorem dirtyRanges_apart (pageEpochs : ℕ → ℕ) (since : ℕ) {maxPages : ℕ} (hmax : 0 < maxPages) :
    ∀ rounds page, let ranges := dirtyRanges pageEpochs since maxPages rounds page
      ranges.Pairwise (fun r t => r.1 + r.2 ≤ t.1) ∧ ∀ r ∈ ranges, page * 0x1000 ≤ r.1 ∧ 0 < r.2
  | 0, page => ⟨.nil, by simp [dirtyRanges]⟩
  | rounds + 1, page => by
      simp only
      rw [dirtyRanges]
      by_cases hend : physicalPageCount ≤ page
      · rw [if_pos hend]
        exact ⟨.nil, by simp⟩
      · rw [if_neg hend]
        by_cases hdirty : since < pageEpochs page
        · rw [if_pos hdirty]
          have hpos := dirtyRun_pos hmax (not_le.mp hend) hdirty
          obtain ⟨hrest, hafter⟩ := dirtyRanges_apart pageEpochs since hmax rounds
            (page + dirtyRun pageEpochs since page maxPages)
          refine ⟨List.pairwise_cons.mpr ⟨fun t ht => ?_, hrest⟩, fun t ht => ?_⟩
          · have hle := (hafter t ht).1
            rwa [Nat.add_mul] at hle
          · rcases List.mem_cons.mp ht with rfl | ht
            · exact ⟨le_rfl, Nat.mul_pos hpos (by decide)⟩
            · obtain ⟨hle, hsize⟩ := hafter t ht
              exact ⟨(Nat.mul_le_mul_right _ (Nat.le_add_right _ _)).trans hle, hsize⟩
        · rw [if_neg hdirty]
          obtain ⟨hrest, hafter⟩ := dirtyRanges_apart pageEpochs since hmax rounds (page + 1)
          refine ⟨hrest, fun t ht => ?_⟩
          obtain ⟨hle, hsize⟩ := hafter t ht
          exact ⟨(Nat.mul_le_mul_right _ (Nat.le_add_right _ _)).trans hle, hsize⟩

theorem collectDirtyRanges_ordered (pageEpochs : ℕ → ℕ) (since through maxRangeBytes : ℕ) :
    Ordered ((collectDirtyRanges pageEpochs since through maxRangeBytes).map fun page =>
      (⟨page.1, page.2, .cacheInhibited⟩ : GpuCpuVisibilityRange)) := by
  have hordered : ∀ {maxPages : ℕ}, 0 < maxPages →
      Ordered ((dirtyRanges pageEpochs since maxPages physicalPageCount 0).map fun page =>
        (⟨page.1, page.2, .cacheInhibited⟩ : GpuCpuVisibilityRange)) := by
    intro maxPages hmax
    obtain ⟨hapart, hpos⟩ := dirtyRanges_apart pageEpochs since hmax
      physicalPageCount 0
    refine ⟨List.pairwise_map.mpr hapart, fun r hr => ?_⟩
    obtain ⟨page, hpage, rfl⟩ := List.mem_map.mp hr
    exact (hpos page hpage).2
  unfold collectDirtyRanges
  split_ifs
  · exact ordered_nil
  · exact hordered (by decide)
  · exact hordered (lt_of_lt_of_le Nat.zero_lt_one (le_max_left _ _))

theorem ingestedRuns_ordered (memory : Publications)
    (sinceEpoch throughEpoch ignoredEpoch maxRangeBytes : ℕ) :
    Ordered (ingestedRuns memory sinceEpoch throughEpoch ignoredEpoch maxRangeBytes) := by
  unfold ingestedRuns
  split
  · exact (lastWriterRuns_spec _).1
  · exact collectDirtyRanges_ordered _ _ _ _

/-- The bytes that `ingest_cpu_writes_unlocked` marks. -/
def Ingests (s : GpuCoherency) (memory : Publications)
    (throughEpoch ignoredEpoch maxRangeBytes a : ℕ) : Prop :=
  s.synchronizedEpoch < throughEpoch ∧ a < s.size.toNat ∧
    In (ingestedRuns memory s.synchronizedEpoch throughEpoch ignoredEpoch maxRangeBytes) a

/-- **`ingest_cpu_writes_unlocked` makes bytes CPU-dirty and nobody else's.** -/
theorem ingestCpuWrites_maps (hs : s.Shaped) (memory : Publications)
    (throughEpoch ignoredEpoch maxRangeBytes : ℕ) :
    let D := s.Ingests memory throughEpoch ignoredEpoch maxRangeBytes
    Maps (s.ingestCpuWrites memory throughEpoch ignoredEpoch maxRangeBytes).1
      (fun a => In s.cpuDirty a ∨ D a) (fun a g => At s.gpuDirty a g ∧ ¬D a)
      fun a => In s.deviceValid a ∧ ¬D a := by
  simp only
  rw [ingestCpuWrites_eq]
  by_cases hold : throughEpoch ≤ s.synchronizedEpoch
  · rw [if_pos hold]
    have hnot : ∀ a, ¬s.Ingests memory throughEpoch ignoredEpoch maxRangeBytes a :=
      fun a h => absurd h.1 hold.not_gt
    simpa only [hnot, or_false, not_false_eq_true, and_true] using hs.maps
  · rw [if_neg hold]
    obtain ⟨hshaped, hmarked⟩ := markCpuWrites_spec hs (ingestedRuns_ordered memory
      s.synchronizedEpoch throughEpoch ignoredEpoch maxRangeBytes)
    have hbytes : ∀ a, (∃ d, At (ingestedRuns memory s.synchronizedEpoch throughEpoch ignoredEpoch
        maxRangeBytes) a d ∧ a < s.size.toNat) ↔
          s.Ingests memory throughEpoch ignoredEpoch maxRangeBytes a := by
      intro a
      rw [Ingests, in_iff_exists_at]
      constructor
      · rintro ⟨d, hd, ha⟩
        exact ⟨not_le.mp hold, ha, d, hd⟩
      · rintro ⟨-, ha, d, hd⟩
        exact ⟨d, hd, ha⟩
    have hmaps := (hmarked.maps hshaped).withEpoch throughEpoch
    simpa only [hbytes] using hmaps

/-- Memory keeps its size. -/
theorem ingestCpuWrites_size (hs : s.Shaped) (memory : Publications)
    (throughEpoch ignoredEpoch maxRangeBytes : ℕ) :
    (s.ingestCpuWrites memory throughEpoch ignoredEpoch maxRangeBytes).1.size = s.size := by
  rw [ingestCpuWrites_eq]
  split_ifs
  · rfl
  · exact (markCpuWrites_spec hs (ingestedRuns_ordered memory s.synchronizedEpoch throughEpoch
      ignoredEpoch maxRangeBytes)).2.size

/-- A plan ingests the writes up to the current epoch, and notes its request. -/
def ingestAll (s : GpuCoherency) (memory : Publications) (maxRangeBytes : BitVec 32) :
    GpuCoherency :=
  (s.ingestCpuWrites memory.collectCpuDirtyPages memory.currentEpoch.2 0 maxRangeBytes.toNat).1

theorem planUpload_fst (memory : Publications) (address size maxRangeBytes : BitVec 32)
    (usage : GpuRangeUsage) :
    let s' := s.ingestAll memory maxRangeBytes
    (s.planUpload memory address size maxRangeBytes usage).1 =
      if (s'.clamp address.toNat size.toNat).size = 0 then s'
      else s'.request (s'.clamp address.toNat size.toNat) := by
  unfold planUpload ingestAll
  simp only [Publications.currentEpoch]
  exact apply_ite Prod.fst _ _ _

theorem planReadback_fst (memory : Publications) (address size maxRangeBytes : BitVec 32)
    (usage : GpuRangeUsage) :
    let s' := s.ingestAll memory maxRangeBytes
    (s.planReadback memory address size maxRangeBytes usage).1 =
      if (s'.clamp address.toNat size.toNat).size = 0 then s'
      else s'.request (s'.clamp address.toNat size.toNat) := by
  unfold planReadback ingestAll
  simp only [Publications.currentEpoch]
  exact apply_ite Prod.fst _ _ _

/-- The bytes that a plan marks. -/
def Reconciles (s : GpuCoherency) (memory : Publications) (maxRangeBytes : BitVec 32) : ℕ → Prop :=
  s.Ingests memory.collectCpuDirtyPages memory.currentEpoch.2 0 maxRangeBytes.toNat

theorem ingestAll_maps (hs : s.Shaped) (memory : Publications) (maxRangeBytes : BitVec 32) :
    Maps (s.ingestAll memory maxRangeBytes)
      (fun a => In s.cpuDirty a ∨ s.Reconciles memory maxRangeBytes a)
      (fun a g => At s.gpuDirty a g ∧ ¬s.Reconciles memory maxRangeBytes a)
      fun a => In s.deviceValid a ∧ ¬s.Reconciles memory maxRangeBytes a :=
  ingestCpuWrites_maps hs memory.collectCpuDirtyPages memory.currentEpoch.2 0 maxRangeBytes.toNat

/-- A request that is noted, or none. -/
theorem Maps.requestIf {cpu : ℕ → Prop} {gpu : ℕ → ℕ → Prop} {valid : ℕ → Prop}
    (h : Maps s cpu gpu valid) (address size : ℕ) :
    Maps (if (s.clamp address size).size = 0 then s else s.request (s.clamp address size))
      cpu gpu valid := by
  split_ifs
  · exact h
  · exact h.request (s.clamp_stop address size)

/-- What `commit_gpu_download` ingests: the writes up to its own publication. -/
def Acknowledges (s : GpuCoherency) (memory : Publications) (publicationEpoch a : ℕ) : Prop :=
  publicationEpoch ≠ 0 ∧ s.Ingests memory publicationEpoch publicationEpoch 0 a

theorem commitGpuDownload_maps (hs : s.Shaped) (memory : Publications)
    (planned : GpuReadbackRange) (address size : BitVec 32) (publicationEpoch : ℕ)
    (hsize : (s.clamp address.toNat size.toNat).size ≠ 0) :
    let D := s.Acknowledges memory publicationEpoch
    let R := (s.clamp address.toNat size.toNat).Holds
    Maps (s.commitGpuDownload memory planned address size publicationEpoch).1
      (fun a => In s.cpuDirty a ∨ D a)
      (fun a g => (At s.gpuDirty a g ∧ ¬D a) ∧ ¬(R a ∧ g = planned.label))
      fun a => ((In s.deviceValid a ∧ ¬D a) ∨ R a) ∧ ¬((In s.cpuDirty a ∨ D a) ∧ R a) := by
  simp only
  have hstop := s.clamp_stop address.toNat size.toNat
  unfold commitGpuDownload
  simp only
  rw [if_neg hsize]
  generalize s.clamp address.toNat size.toNat = range at *
  have hingested : Maps (if publicationEpoch ≠ 0 then
        s.ingestCpuWrites memory publicationEpoch publicationEpoch 0 else (s, true)).1
      (fun a => In s.cpuDirty a ∨ s.Acknowledges memory publicationEpoch a)
      (fun a g => At s.gpuDirty a g ∧ ¬s.Acknowledges memory publicationEpoch a)
      (fun a => In s.deviceValid a ∧ ¬s.Acknowledges memory publicationEpoch a) ∧
      (if publicationEpoch ≠ 0 then
        s.ingestCpuWrites memory publicationEpoch publicationEpoch 0 else (s, true)).1.size =
        s.size := by
    unfold Acknowledges
    by_cases hepoch : publicationEpoch = 0
    · simpa only [hepoch, ne_eq, not_true, if_false, false_and, or_false, not_false_eq_true,
        and_true] using hs.maps
    · simp only [hepoch, ne_eq, not_false_eq_true, if_true, true_and]
      exact ⟨ingestCpuWrites_maps hs memory publicationEpoch publicationEpoch 0,
        ingestCpuWrites_size hs memory publicationEpoch publicationEpoch 0⟩
  generalize (if publicationEpoch ≠ 0 then
    s.ingestCpuWrites memory publicationEpoch publicationEpoch 0 else (s, true)) = ingested at *
  obtain ⟨t, exactAcknowledgement⟩ := ingested
  obtain ⟨hmaps, htsize⟩ := hingested
  obtain ⟨hgpu, hatgpu⟩ := subtractGeneration_spec hmaps.shaped.gpuDirty t.size_lt range
    planned.label
  have hcleared : Maps { t with gpuDirty := (subtractGeneration t.gpuDirty range planned.label).1 }
      (fun a => In s.cpuDirty a ∨ s.Acknowledges memory publicationEpoch a)
      (fun a g => (At s.gpuDirty a g ∧ ¬s.Acknowledges memory publicationEpoch a) ∧
        ¬(range.Holds a ∧ g = planned.label))
      fun a => In s.deviceValid a ∧ ¬s.Acknowledges memory publicationEpoch a :=
    ⟨⟨hmaps.shaped.cpuDirty, hmaps.shaped.cpuVisibility, hgpu, hmaps.shaped.deviceValid,
      hmaps.shaped.requested, hmaps.shaped.touchedPages⟩, hmaps.cpuDirty,
      fun a g => (hatgpu a g).trans (and_congr_left' (hmaps.gpuDirty a g)), hmaps.deviceValid⟩
  exact hcleared.validate (hstop.trans_eq (congrArg BitVec.toNat htsize.symm))

theorem markGpuDownloaded_maps (hs : s.Shaped) (address size : BitVec 32) :
    let R := (s.clamp address.toNat size.toNat).Holds
    Maps (s.markGpuDownloaded address size) (In s.cpuDirty)
      (fun a g => At s.gpuDirty a g ∧ ¬R a)
      fun a => (In s.deviceValid a ∨ R a) ∧ ¬(In s.cpuDirty a ∧ R a) := by
  simp only
  have hstop := s.clamp_stop address.toNat size.toNat
  unfold markGpuDownloaded
  simp only
  generalize s.clamp address.toNat size.toNat = range at *
  obtain ⟨hgpu, hatgpu⟩ := subtract_spec hs.gpuDirty s.size_lt range
  have hcleared : Maps { s with gpuDirty := subtract s.gpuDirty range } (In s.cpuDirty)
      (fun a g => At s.gpuDirty a g ∧ ¬range.Holds a) (In s.deviceValid) :=
    ⟨⟨hs.cpuDirty, hs.cpuVisibility, hgpu, hs.deviceValid, hs.requested, hs.touchedPages⟩,
      fun _ => Iff.rfl, hatgpu, fun _ => Iff.rfl⟩
  exact hcleared.validate hstop

/-! ### Every run -/

/-- An operation keeps the lists canonical and inside memory. -/
theorem step_shaped (hs : s.Shaped) (op : GpuOp) : (s.step op).1.Shaped := by
  cases op with
  | reset size cpuInitiallyDirty topology =>
      exact (reset_maps size cpuInitiallyDirty topology).shaped
  | clear => exact init_shaped
  | planUpload memory address size maxRangeBytes usage =>
      rw [step, planUpload_fst]
      exact ((ingestAll_maps hs memory maxRangeBytes).requestIf _ _).shaped
  | commitCpuUpload address size => exact (commitCpuUpload_maps hs address size).shaped
  | rollbackCpuUpload address size => exact (rollbackCpuUpload_maps hs address size).shaped
  | markCpuWrite address size domain => exact (markCpuWrite_spec hs _ _ domain).1
  | markGpuWrite address size => exact (markGpuWrite_maps hs address size).shaped
  | planReadback memory address size maxRangeBytes usage =>
      rw [step, planReadback_fst]
      exact ((ingestAll_maps hs memory maxRangeBytes).requestIf _ _).shaped
  | prepareGpuDownload memory planned maxRangeBytes =>
      exact (ingestAll_maps hs memory maxRangeBytes).shaped
  | commitGpuDownload memory planned address size publicationEpoch =>
      by_cases hsize : (s.clamp address.toNat size.toNat).size = 0
      · simp only [step, commitGpuDownload, hsize, if_true]
        exact hs
      · exact (commitGpuDownload_maps hs memory planned address size publicationEpoch hsize).shaped
  | markGpuDownloaded address size => exact (markGpuDownloaded_maps hs address size).shaped

/-- **In every run the lists are canonical and inside memory.** -/
theorem run_shaped (hs : s.Shaped) (ops : List GpuOp) : (Transition.run step s ops).Shaped := by
  induction ops generalizing s with
  | nil => exact hs
  | cons op ops ih => exact ih (step_shaped hs op)

/-! ### Batches -/

/-- The writes of a list, one after the other. -/
def markEach (s : GpuCoherency) (writes : List DirtyPhysicalWrite) : GpuCoherency :=
  writes.foldl (fun s write => s.markCpuWrite write.address write.size write.orderingDomain) s

/-- The last domain of a longer list. -/
theorem lastDomain_append {writes : List DirtyPhysicalWrite} {write : DirtyPhysicalWrite} {a : ℕ}
    {d : MemoryOrderingDomain} :
    LastDomain (writes ++ [write]) a d ↔
      (write.run.Holds a ∧ write.orderingDomain = d) ∨
        (LastDomain writes a d ∧ ¬write.run.Holds a) := by
  unfold LastDomain
  rw [List.reverse_append, List.reverse_singleton, List.singleton_append, List.find?_cons]
  by_cases h : write.run.Holds a
  · simp [h]
  · simp [h]

/-- Marking the writes one after the other gives every byte its last domain. -/
theorem markEach_spec (hs : s.Shaped) (writes : List DirtyPhysicalWrite) :
    (s.markEach writes).Shaped ∧
      Marked s (s.markEach writes) fun a d => LastDomain writes a d ∧ a < s.size.toNat := by
  induction writes using List.reverseRecOn with
  | nil => exact ⟨hs, (Marked.refl s).congr fun a d => by simp [LastDomain]⟩
  | append_singleton writes write ih =>
      obtain ⟨hshaped, hmarked⟩ := ih
      have heq : s.markEach (writes ++ [write]) =
          (s.markEach writes).markCpuWrite write.address write.size write.orderingDomain := by
        simp [markEach]
      obtain ⟨hshaped', hmarked'⟩ := markCpuWrite_spec hshaped write.address write.size
        write.orderingDomain
      rw [heq]
      refine ⟨hshaped', (hmarked.trans hmarked').congr fun a d => ?_⟩
      have hholds : ((s.markEach writes).clamp write.address write.size).Holds a ↔
          write.run.Holds a ∧ a < s.size.toNat := by
        rw [clamp_holds, hmarked.size]
        rfl
      have hany : (∃ d, (write.run.Holds a ∧ a < s.size.toNat) ∧ write.orderingDomain = d) ↔
          write.run.Holds a ∧ a < s.size.toNat := by
        simp
      simp only [hholds, hany, lastDomain_append]
      tauto

/-- **A batch is its writes, one after the other.**  In every state that the public
operations reach, marking the runs of `last_writer_runs` leaves the state that
`mark_cpu_write_unlocked` leaves, applied to each write in turn, and there the
domain of every byte is the one of the last write that covers it. -/
theorem ingestion_batched (ops : List GpuOp) (writes : List DirtyPhysicalWrite) :
    (after ops).markCpuWrites (lastWriterRuns writes) = (after ops).markEach writes ∧
      ∀ a d, At ((after ops).markEach writes).cpuVisibility a d ↔
        if a < (after ops).size.toNat ∧ ∃ write ∈ writes, write.run.Holds a then
          LastDomain writes a d
        else At (after ops).cpuVisibility a d := by
  have hs : (after ops).Shaped := run_shaped init_shaped ops
  obtain ⟨hordered, hat⟩ := lastWriterRuns_spec writes
  obtain ⟨hbatch, hmarkedBatch⟩ := markCpuWrites_spec hs hordered
  obtain ⟨heach, hmarkedEach⟩ := markEach_spec hs writes
  refine ⟨(hmarkedBatch.congr fun a d => by rw [hat]).unique hmarkedEach hbatch heach,
    fun a d => ?_⟩
  have hlast : (∃ d, LastDomain writes a d) ↔ ∃ write ∈ writes, write.run.Holds a := by
    simp [LastDomain, ← Option.isSome_iff_exists, List.find?_isSome]
  rw [hmarkedEach.cpuVisibility]
  by_cases ha : a < (after ops).size.toNat
  · by_cases hw : ∃ write ∈ writes, write.run.Holds a
    · simp only [ha, hw, and_true, if_true]
      simp only [hlast.mpr hw, not_true, and_false, or_false]
    · have hnone : ∀ d, ¬LastDomain writes a d := fun d hd => hw (hlast.mp ⟨d, hd⟩)
      simp [hw, hnone]
  · simp [ha]

/-! ### Ownership -/

/-- The relations between the lists. -/
structure Owned (s : GpuCoherency) : Prop where
  exclusive : ∀ a, In s.cpuDirty a → ¬In s.gpuDirty a
  stale : ∀ a, In s.cpuDirty a → ¬In s.deviceValid a
  held : ∀ a, In s.gpuDirty a → In s.deviceValid a

/-- The ranges of a list are sorted, nonempty, disjoint and inside memory. -/
def Sound {β : Type} (s : GpuCoherency) (l : List (Run β)) : Prop :=
  Ordered l ∧ Within l s.size.toNat

/-- The sets are well formed. -/
structure WellFormed (s : GpuCoherency) : Prop where
  cpuDirty : s.Sound s.cpuDirty
  gpuDirty : s.Sound s.gpuDirty
  deviceValid : s.Sound s.deviceValid
  requested : s.Sound s.requested
  touchedPages : s.Sound s.touchedPages
  cpuVisibility : s.Sound s.cpuVisibility
  owned : s.Owned

theorem Shaped.wellFormed_iff (h : s.Shaped) : s.WellFormed ↔ s.Owned := by
  have hsound : ∀ {β : Type} {l : List (Run β)}, Formed l s.size.toNat → s.Sound l :=
    fun h => ⟨h.toOrdered, h.within⟩
  exact ⟨fun h => h.owned, fun howned => ⟨hsound h.cpuDirty, hsound h.gpuDirty, hsound h.deviceValid,
    hsound h.requested, hsound h.touchedPages, hsound h.cpuVisibility, howned⟩⟩

/-- Ownership in terms of the bytes. -/
theorem Maps.owned_iff {cpu : ℕ → Prop} {gpu : ℕ → ℕ → Prop} {valid : ℕ → Prop}
    (h : Maps s cpu gpu valid) :
    s.Owned ↔ (∀ a, cpu a → ¬valid a) ∧ ∀ a g, gpu a g → valid a ∧ ¬cpu a := by
  constructor
  · rintro ⟨hexclusive, hstale, hheld⟩
    refine ⟨fun a ha hv => hstale a ((h.cpuDirty a).mpr ha) ((h.deviceValid a).mpr hv),
      fun a g hg => ?_⟩
    have hin : In s.gpuDirty a := in_iff_exists_at.mpr ⟨g, (h.gpuDirty a g).mpr hg⟩
    exact ⟨(h.deviceValid a).mp (hheld a hin),
      fun ha => hexclusive a ((h.cpuDirty a).mpr ha) hin⟩
  · rintro ⟨hstale, hheld⟩
    have hgpu : ∀ a, In s.gpuDirty a → valid a ∧ ¬cpu a := fun a ha => by
      obtain ⟨g, hg⟩ := in_iff_exists_at.mp ha
      exact hheld a g ((h.gpuDirty a g).mp hg)
    exact ⟨fun a ha hg => (hgpu a hg).2 ((h.cpuDirty a).mp ha),
      fun a ha hv => hstale a ((h.cpuDirty a).mp ha) ((h.deviceValid a).mp hv),
      fun a hg => (h.deviceValid a).mpr (hgpu a hg).1⟩

/-- An operation that does not roll an upload back over bytes the GPU has written. -/
def Permits (s : GpuCoherency) : GpuOp → Prop
  | .rollbackCpuUpload address size =>
      ∀ a, (s.clamp address.toNat size.toNat).Holds a → ¬In s.gpuDirty a
  | _ => True

/-- Marked bytes are the CPU's alone. -/
theorem Owned.marked (hs : s.Shaped) (h : s.Owned) {s' : GpuCoherency} {D : ℕ → Prop}
    (hmaps : Maps s' (fun a => In s.cpuDirty a ∨ D a) (fun a g => At s.gpuDirty a g ∧ ¬D a)
      fun a => In s.deviceValid a ∧ ¬D a) : s'.Owned := by
  obtain ⟨hstale, hheld⟩ := hs.maps.owned_iff.mp h
  refine hmaps.owned_iff.mpr ⟨?_, ?_⟩
  · rintro a (ha | ha) ⟨hv, hnot⟩
    · exact hstale a ha hv
    · exact hnot ha
  · rintro a g ⟨hg, hnot⟩
    obtain ⟨hv, hc⟩ := hheld a g hg
    exact ⟨⟨hv, hnot⟩, fun h => h.elim hc hnot⟩

/-- **Ownership survives a step if and only if it is permitted.** -/
theorem step_owned_iff (hs : s.Shaped) (h : s.Owned) (op : GpuOp) :
    (s.step op).1.Owned ↔ s.Permits op := by
  obtain ⟨hstale, hheld⟩ := hs.maps.owned_iff.mp h
  cases op with
  | reset size cpuInitiallyDirty topology =>
      exact iff_of_true ((reset_maps size cpuInitiallyDirty topology).owned_iff.mpr
        ⟨fun _ _ h => h, fun _ _ h => h.elim⟩) trivial
  | clear =>
      exact iff_of_true (init_shaped.maps.owned_iff.mpr
        ⟨by simp [init], by simp [init]⟩) trivial
  | planUpload memory address size maxRangeBytes usage =>
      rw [step, planUpload_fst]
      exact iff_of_true (h.marked hs ((ingestAll_maps hs memory maxRangeBytes).requestIf _ _)) trivial
  | commitCpuUpload address size =>
      refine iff_of_true ((commitCpuUpload_maps hs address size).owned_iff.mpr ⟨?_, ?_⟩) trivial
      · rintro a ⟨hc, hnot⟩ (hv | hr)
        · exact hstale a hc hv
        · exact hnot hr
      · intro a g hg
        obtain ⟨hv, hc⟩ := hheld a g hg
        exact ⟨.inl hv, fun h => hc h.1⟩
  | rollbackCpuUpload address size =>
      refine (rollbackCpuUpload_maps hs address size).owned_iff.trans ⟨fun hnew a hr hg => ?_,
        fun hfree => ⟨?_, fun a g hg => ?_⟩⟩
      · obtain ⟨g, hg⟩ := in_iff_exists_at.mp hg
        exact (hnew.2 a g hg).1.2 hr
      · rintro a (hc | hr) ⟨hv, hnot⟩
        · exact hstale a hc hv
        · exact hnot hr
      · have hnot := fun hr => hfree a hr (in_iff_exists_at.mpr ⟨g, hg⟩)
        obtain ⟨hv, hc⟩ := hheld a g hg
        exact ⟨⟨hv, hnot⟩, fun h => h.elim hc hnot⟩
  | markCpuWrite address size domain =>
      obtain ⟨hshaped, hmarked⟩ := markCpuWrite_spec hs address.toNat size.toNat domain
      exact iff_of_true (h.marked hs (hmarked.maps hshaped)) trivial
  | markGpuWrite address size =>
      refine iff_of_true ((markGpuWrite_maps hs address size).owned_iff.mpr ⟨?_, ?_⟩) trivial
      · rintro a ⟨hc, hnot⟩ (hv | hr)
        · exact hstale a hc hv
        · exact hnot hr
      · rintro a g (⟨hr, -⟩ | ⟨hg, hnot⟩)
        · exact ⟨.inr hr, fun h => h.2 hr⟩
        · obtain ⟨hv, hc⟩ := hheld a g hg
          exact ⟨.inl hv, fun h => hc h.1⟩
  | planReadback memory address size maxRangeBytes usage =>
      rw [step, planReadback_fst]
      exact iff_of_true (h.marked hs ((ingestAll_maps hs memory maxRangeBytes).requestIf _ _)) trivial
  | prepareGpuDownload memory planned maxRangeBytes =>
      exact iff_of_true (h.marked hs (ingestAll_maps hs memory maxRangeBytes)) trivial
  | commitGpuDownload memory planned address size publicationEpoch =>
      refine iff_of_true ?_ trivial
      by_cases hsize : (s.clamp address.toNat size.toNat).size = 0
      · simp only [step, commitGpuDownload, hsize, if_true]
        exact h
      · refine (commitGpuDownload_maps hs memory planned address size publicationEpoch
          hsize).owned_iff.mpr ⟨?_, ?_⟩
        · rintro a hc ⟨⟨hv, hnot⟩ | hr, hnew⟩
          · exact hc.elim (fun hc => hstale a hc hv) hnot
          · exact hnew ⟨hc, hr⟩
        · rintro a g ⟨⟨hg, hnot⟩, -⟩
          obtain ⟨hv, hc⟩ := hheld a g hg
          have hclean : ¬(In s.cpuDirty a ∨ s.Acknowledges memory publicationEpoch a) :=
            fun h => h.elim hc hnot
          exact ⟨⟨.inl ⟨hv, hnot⟩, fun h => hclean h.1⟩, hclean⟩
  | markGpuDownloaded address size =>
      refine iff_of_true ((markGpuDownloaded_maps hs address size).owned_iff.mpr ⟨?_, ?_⟩) trivial
      · rintro a hc ⟨hv | hr, hnew⟩
        · exact hstale a hc hv
        · exact hnew ⟨hc, hr⟩
      · rintro a g ⟨hg, -⟩
        obtain ⟨hv, hc⟩ := hheld a g hg
        exact ⟨⟨.inl hv, fun h => hc h.1⟩, hc⟩

/-- **The sets stay well formed in exactly the runs that roll no upload back over
bytes the GPU has written.** -/
theorem ownership_iff (ops : List GpuOp) :
    (∀ pre, pre <+: ops → (after pre).WellFormed) ↔
      Transition.Along step Permits init ops := by
  have hwell : ∀ pre, (after pre).WellFormed ↔ (after pre).Shaped ∧ (after pre).Owned := by
    intro pre
    have hs : (after pre).Shaped := run_shaped init_shaped pre
    rw [hs.wellFormed_iff]
    exact (and_iff_right hs).symm
  have hinit : init.Owned := init_shaped.maps.owned_iff.mpr ⟨by simp [init], by simp [init]⟩
  simp only [hwell]
  refine Transition.invariant_iff_along (I := fun s : GpuCoherency => s.Shaped ∧ s.Owned)
    (fun s op h => ?_) init ops ⟨init_shaped, hinit⟩
  rw [and_iff_right (step_shaped h.1 op)]
  exact step_owned_iff h.1 h.2 op

/-- An upload planned before a GPU write to the same bytes, and rolled back after
it. -/
theorem rollback_over_gpu_write :
    ¬(after [.reset 0x1000 true .discreteMirror, .planUpload .init 0 0x1000 0 .generic,
      .commitCpuUpload 0 4, .markGpuWrite 0 4, .rollbackCpuUpload 0 4]).WellFormed := by
  intro h
  refine h.owned.exclusive 0 ?_ ?_
  · decide
  · decide

end GpuCoherency

end Memory
end XenonRecomp
