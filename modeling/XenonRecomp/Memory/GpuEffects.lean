/-
# What the operations on ownership do

Every operation of `GuestMemoryGpuCoherency` keeps its six lists formed
(`Shaped`), and what it does is a change of six maps.  A state is determined by
its maps, so that the effect of marking CPU writes (`Marked`), one after the
other or in a batch, is the same as soon as the bytes marked and their last
domains are the same (`Marked.unique`).
-/

import XenonRecomp.Memory.GpuRangeAlgebra

namespace XenonRecomp
namespace Memory

open Library Library.Runs

namespace GpuCoherency

/-- All six lists are canonical and inside memory. -/
structure Shaped (s : GpuCoherency) : Prop where
  cpuDirty : Formed s.cpuDirty s.size.toNat
  cpuVisibility : Formed s.cpuVisibility s.size.toNat
  gpuDirty : Formed s.gpuDirty s.size.toNat
  deviceValid : Formed s.deviceValid s.size.toNat
  requested : Formed s.requested s.size.toNat
  touchedPages : Formed s.touchedPages s.size.toNat

variable {s s' : GpuCoherency}

theorem size_lt (s : GpuCoherency) : s.size.toNat < 2 ^ 32 :=
  s.size.isLt

/-! ### Ranges of a call -/

/-- A clamped range lies inside memory. -/
theorem clamp_stop (s : GpuCoherency) (address size : ℕ) :
    (s.clamp address size).stop ≤ s.size.toNat := by
  have := s.size_lt
  unfold clamp
  split_ifs with h
  · exact Nat.zero_le _
  · rw [u32_eq (by omega)]
    simp only [Run.stop]
    omega

/-- The bytes of a clamped range. -/
theorem clamp_holds (s : GpuCoherency) (address size a : ℕ) :
    (s.clamp address size).Holds a ↔ (address ≤ a ∧ a < address + size) ∧ a < s.size.toNat := by
  have := s.size_lt
  unfold clamp Run.Holds
  split_ifs with h
  · simp only [Run.stop]
    omega
  · rw [u32_eq (by omega)]
    simp only [Run.stop]
    omega

/-- A clamped range that is not empty keeps its first byte. -/
theorem clamp_of_size {address size : ℕ} (h : (s.clamp address size).size ≠ 0) :
    (s.clamp address size).start = address ∧ (s.clamp address size).stop ≤ address + size := by
  have := s.size_lt
  unfold clamp at *
  split_ifs at * with hempty
  · exact absurd rfl h
  · refine ⟨rfl, ?_⟩
    rw [u32_eq (by omega)]
    simp only [Run.stop]
    omega

theorem not_holds_of_size {range : GpuCoherencyRange} (h : range.size = 0) (a : ℕ) :
    ¬range.Holds a := by
  unfold Run.Holds Run.stop
  omega

/-- The bytes on the pages of some bytes. -/
def OnPages (s : GpuCoherency) (W : ℕ → Prop) (a : ℕ) : Prop :=
  a < s.size.toNat ∧ ∃ w, W w ∧ w / 0x1000 = a / 0x1000

/-- The pages of a range inside memory. -/
theorem pagesOf_spec {range : GpuCoherencyRange} (hsize : 0 < range.size)
    (hstop : range.stop ≤ s.size.toNat) :
    (s.pagesOf range).1 < (s.pagesOf range).2 ∧ (s.pagesOf range).2 ≤ s.size.toNat ∧
      ∀ a, ((s.pagesOf range).1 ≤ a ∧ a < (s.pagesOf range).2) ↔ s.OnPages range.Holds a := by
  unfold pagesOf OnPages Run.Holds
  simp only
  unfold Run.stop at *
  refine ⟨by omega, by omega, fun a => ⟨fun h => ⟨by omega, ?_⟩, ?_⟩⟩
  · -- the byte of the range on the page of `a`
    refine ⟨max range.start (a / 0x1000 * 0x1000), ?_, ?_⟩ <;> omega
  · rintro ⟨ha, w, hw, hpage⟩
    omega

/-- The range that `touch_pages_unlocked` adds. -/
theorem pageRun_spec {range : GpuCoherencyRange} (hsize : 0 < range.size)
    (hstop : range.stop ≤ s.size.toNat) :
    let pages : GpuCoherencyRange :=
      ⟨(s.pagesOf range).1, u32 ((s.pagesOf range).2 - (s.pagesOf range).1), ()⟩
    0 < pages.size ∧ pages.stop ≤ s.size.toNat ∧ ∀ a, pages.Holds a ↔ s.OnPages range.Holds a := by
  obtain ⟨hlt, hle, hpages⟩ := pagesOf_spec hsize hstop
  have := s.size_lt
  simp only
  rw [u32_eq (by omega)]
  refine ⟨by omega, ?_, fun a => ?_⟩
  · simp only [Run.stop]
    omega
  · rw [← hpages]
    simp only [Run.Holds, Run.stop]
    omega

/-- Touching changes nothing but the touched pages. -/
theorem touchPages_eq (s : GpuCoherency) (range : GpuCoherencyRange) :
    s.touchPages range = { s with touchedPages := (s.touchPages range).touchedPages } := by
  unfold touchPages
  split_ifs
  · rfl
  · simp only
    split_ifs <;> rfl

@[simp] theorem touchPages_size (s : GpuCoherency) (range : GpuCoherencyRange) :
    (s.touchPages range).size = s.size := by
  rw [touchPages_eq]

@[simp] theorem touchPages_topology (s : GpuCoherency) (range : GpuCoherencyRange) :
    (s.touchPages range).topology = s.topology := by
  rw [touchPages_eq]

@[simp] theorem touchPages_synchronizedEpoch (s : GpuCoherency) (range : GpuCoherencyRange) :
    (s.touchPages range).synchronizedEpoch = s.synchronizedEpoch := by
  rw [touchPages_eq]

@[simp] theorem touchPages_gpuGeneration (s : GpuCoherency) (range : GpuCoherencyRange) :
    (s.touchPages range).gpuGeneration = s.gpuGeneration := by
  rw [touchPages_eq]

@[simp] theorem touchPages_cpuDirty (s : GpuCoherency) (range : GpuCoherencyRange) :
    (s.touchPages range).cpuDirty = s.cpuDirty := by
  rw [touchPages_eq]

@[simp] theorem touchPages_cpuVisibility (s : GpuCoherency) (range : GpuCoherencyRange) :
    (s.touchPages range).cpuVisibility = s.cpuVisibility := by
  rw [touchPages_eq]

@[simp] theorem touchPages_gpuDirty (s : GpuCoherency) (range : GpuCoherencyRange) :
    (s.touchPages range).gpuDirty = s.gpuDirty := by
  rw [touchPages_eq]

@[simp] theorem touchPages_deviceValid (s : GpuCoherency) (range : GpuCoherencyRange) :
    (s.touchPages range).deviceValid = s.deviceValid := by
  rw [touchPages_eq]

@[simp] theorem touchPages_requested (s : GpuCoherency) (range : GpuCoherencyRange) :
    (s.touchPages range).requested = s.requested := by
  rw [touchPages_eq]

/-- **`touch_pages_unlocked` adds the pages of a range.** -/
theorem touchPages_spec (hs : s.Shaped) {range : GpuCoherencyRange}
    (hstop : range.stop ≤ s.size.toNat) :
    Formed (s.touchPages range).touchedPages s.size.toNat ∧
      ∀ a, In (s.touchPages range).touchedPages a ↔
        In s.touchedPages a ∨ s.OnPages range.Holds a := by
  unfold touchPages
  split_ifs with hsize
  · refine ⟨hs.touchedPages, fun a => (or_iff_left ?_).symm⟩
    rintro ⟨-, w, hw, -⟩
    exact not_holds_of_size hsize w hw
  · obtain ⟨hpos, hle, hpages⟩ := pageRun_spec (Nat.pos_of_ne_zero hsize) hstop
    have hlt := (pagesOf_spec (Nat.pos_of_ne_zero hsize) hstop).1
    simp only [hlt, if_true]
    obtain ⟨hformed, hin⟩ := add_spec hs.touchedPages s.size_lt hle
    exact ⟨hformed, fun a => (hin a).trans (by rw [hpages])⟩

/-! ### CPU writes -/

/-- What marking CPU writes does: `D` gives the bytes written and their domains. -/
structure Marked (s s' : GpuCoherency) (D : ℕ → MemoryOrderingDomain → Prop) : Prop where
  size : s'.size = s.size
  topology : s'.topology = s.topology
  epoch : s'.synchronizedEpoch = s.synchronizedEpoch
  generation : s'.gpuGeneration = s.gpuGeneration
  requested : s'.requested = s.requested
  cpuDirty : ∀ a, In s'.cpuDirty a ↔ In s.cpuDirty a ∨ ∃ d, D a d
  cpuVisibility : ∀ a d, At s'.cpuVisibility a d ↔
    D a d ∨ (At s.cpuVisibility a d ∧ ¬∃ d, D a d)
  gpuDirty : ∀ a g, At s'.gpuDirty a g ↔ At s.gpuDirty a g ∧ ¬∃ d, D a d
  deviceValid : ∀ a, In s'.deviceValid a ↔ In s.deviceValid a ∧ ¬∃ d, D a d
  touchedPages : ∀ a, In s'.touchedPages a ↔
    In s.touchedPages a ∨ s.OnPages (fun w => ∃ d, D w d) a

/-- Nothing is marked. -/
theorem Marked.refl (s : GpuCoherency) : Marked s s fun _ _ => False := by
  refine ⟨rfl, rfl, rfl, rfl, rfl, ?_, ?_, ?_, ?_, ?_⟩ <;> simp [OnPages]

/-- The same writes, described differently. -/
theorem Marked.congr {D D' : ℕ → MemoryOrderingDomain → Prop} (h : Marked s s' D)
    (heq : ∀ a d, D a d ↔ D' a d) : Marked s s' D' := by
  have hfun : D = D' := by
    funext a d
    exact propext (heq a d)
  exact hfun ▸ h

/-- Writes after other writes. -/
theorem Marked.trans {s'' : GpuCoherency} {D E : ℕ → MemoryOrderingDomain → Prop}
    (h : Marked s s' D) (h' : Marked s' s'' E) :
    Marked s s'' fun a d => E a d ∨ (D a d ∧ ¬∃ d, E a d) := by
  have hbytes : ∀ a, (∃ d, E a d ∨ (D a d ∧ ¬∃ d, E a d)) ↔ (∃ d, D a d) ∨ ∃ d, E a d := by
    intro a
    by_cases hE : ∃ d, E a d
    · simp [hE]
    · have hnot : ∀ d, ¬E a d := fun d hd => hE ⟨d, hd⟩
      simp [hnot]
  refine ⟨h'.size.trans h.size, h'.topology.trans h.topology, h'.epoch.trans h.epoch,
    h'.generation.trans h.generation, h'.requested.trans h.requested, fun a => ?_, fun a d => ?_,
    fun a g => ?_, fun a => ?_, fun a => ?_⟩
  · rw [h'.cpuDirty, h.cpuDirty, hbytes, or_assoc]
  · rw [h'.cpuVisibility, h.cpuVisibility, hbytes]
    tauto
  · rw [h'.gpuDirty, h.gpuDirty, hbytes, and_assoc, not_or]
  · rw [h'.deviceValid, h.deviceValid, hbytes, and_assoc, not_or]
  · rw [h'.touchedPages, h.touchedPages, or_assoc]
    refine or_congr_right ?_
    simp only [OnPages, h.size, hbytes]
    constructor
    · rintro (⟨ha, w, hw, hp⟩ | ⟨ha, w, hw, hp⟩)
      · exact ⟨ha, w, .inl hw, hp⟩
      · exact ⟨ha, w, .inr hw, hp⟩
    · rintro ⟨ha, w, hw | hw, hp⟩
      · exact .inl ⟨ha, w, hw, hp⟩
      · exact .inr ⟨ha, w, hw, hp⟩

/-- **The writes determine the state.** -/
theorem Marked.unique {t t' : GpuCoherency} {D : ℕ → MemoryOrderingDomain → Prop}
    (h : Marked s t D) (h' : Marked s t' D) (ht : t.Shaped) (ht' : t'.Shaped) : t = t' := by
  have hcpu : t.cpuDirty = t'.cpuDirty := canonical_ext ht.cpuDirty.toCanonical
    ht'.cpuDirty.toCanonical fun a b => by rw [at_unit, at_unit, h.cpuDirty, h'.cpuDirty]
  have hvisibility : t.cpuVisibility = t'.cpuVisibility :=
    canonical_ext ht.cpuVisibility.toCanonical ht'.cpuVisibility.toCanonical fun a b => by
      rw [h.cpuVisibility, h'.cpuVisibility]
  have hgpu : t.gpuDirty = t'.gpuDirty := canonical_ext ht.gpuDirty.toCanonical
    ht'.gpuDirty.toCanonical fun a b => by rw [h.gpuDirty, h'.gpuDirty]
  have hvalid : t.deviceValid = t'.deviceValid := canonical_ext ht.deviceValid.toCanonical
    ht'.deviceValid.toCanonical fun a b => by rw [at_unit, at_unit, h.deviceValid, h'.deviceValid]
  have htouched : t.touchedPages = t'.touchedPages := canonical_ext ht.touchedPages.toCanonical
    ht'.touchedPages.toCanonical fun a b => by
      rw [at_unit, at_unit, h.touchedPages, h'.touchedPages]
  have hsize := h.size.trans h'.size.symm
  have htopology := h.topology.trans h'.topology.symm
  have hepoch := h.epoch.trans h'.epoch.symm
  have hgeneration := h.generation.trans h'.generation.symm
  have hrequested := h.requested.trans h'.requested.symm
  cases t
  cases t'
  simp_all

/-- `mark_cpu_write_unlocked` marks the clamped range. -/
theorem markCpuWrite_spec (hs : s.Shaped) (address size : ℕ) (domain : MemoryOrderingDomain) :
    (s.markCpuWrite address size domain).Shaped ∧
      Marked s (s.markCpuWrite address size domain) fun a d =>
        (s.clamp address size).Holds a ∧ domain = d := by
  set range := s.clamp address size with hrange
  have hstop : range.stop ≤ s.size.toNat := s.clamp_stop address size
  have hn := s.size_lt
  have hbytes : ∀ a, (∃ d, range.Holds a ∧ domain = d) ↔ range.Holds a := by simp
  unfold markCpuWrite
  rw [← hrange]
  by_cases hsize : range.size = 0
  · simp only [hsize, if_true]
    refine ⟨hs, (Marked.refl s).congr fun a d => ?_⟩
    simp [not_holds_of_size hsize]
  · simp only [hsize, if_false]
    obtain ⟨htouched, hintouched⟩ := touchPages_spec hs hstop
    obtain ⟨hgpu, hatgpu⟩ := subtract_spec hs.gpuDirty hn range
    obtain ⟨hvalid, hatvalid⟩ := subtract_spec hs.deviceValid hn range
    obtain ⟨hcpu, hincpu⟩ := add_spec hs.cpuDirty hn hstop
    have hinserted : (⟨range.start, range.size, domain⟩ : GpuCpuVisibilityRange).stop ≤
        s.size.toNat := hstop
    obtain ⟨hvis, hatvis⟩ := assignCpuVisibilityRange_spec hs.cpuVisibility hn hinserted
    constructor
    · exact ⟨by simpa using hcpu, by simpa using hvis, by simpa using hgpu, by simpa using hvalid,
        by simpa using hs.requested, by simpa using htouched⟩
    · refine ⟨by simp, by simp, by simp, by simp, by simp, fun a => ?_, fun a d => ?_,
        fun a g => ?_, fun a => ?_, fun a => ?_⟩
      · simpa using hincpu a
      · rw [hbytes]
        exact hatvis a d
      · rw [hbytes]
        exact hatgpu a g
      · rw [hbytes, ← at_unit (u := ()), ← at_unit (u := ())]
        exact hatvalid a ()
      · simp only [hbytes]
        exact hintouched a

/-! ### CPU writes in a batch -/

/-- The bytes of a list without its labels. -/
theorem in_map_unit {β : Type} {l : List (Run β)} {a : ℕ} :
    In (l.map fun run => (⟨run.start, run.size, ()⟩ : GpuCoherencyRange)) a ↔ In l a := by
  simp [In, Run.Holds, Run.stop]

/-- The clamped runs hold the bytes of the runs that lie inside memory. -/
theorem clampedRuns_spec {runs : List GpuCpuVisibilityRange} (hruns : Ordered runs) :
    Ordered (s.clampedRuns runs) ∧ Within (s.clampedRuns runs) s.size.toNat ∧
      ∀ a d, At (s.clampedRuns runs) a d ↔ At runs a d ∧ a < s.size.toNat := by
  have heq : s.clampedRuns runs = runs.flatMap fun run =>
      if (s.clamp run.start run.size).size = 0 then []
      else [⟨(s.clamp run.start run.size).start, (s.clamp run.start run.size).size, run.label⟩] := by
    unfold clampedRuns
    induction runs with
    | nil => rfl
    | cons run runs ih =>
        rw [List.filterMap_cons, List.flatMap_cons, ← ih (ordered_cons.mp hruns).2.2]
        simp only
        split_ifs <;> rfl
  have hcarves : ∀ run ∈ runs, Carves run (if (s.clamp run.start run.size).size = 0 then []
      else [⟨(s.clamp run.start run.size).start, (s.clamp run.start run.size).size, run.label⟩])
      fun a => a < s.size.toNat := by
    intro run hrun
    have hholds := s.clamp_holds run.start run.size
    split_ifs with hsize
    · refine ⟨canonical_nil, by simp, fun a => ?_⟩
      have := (hholds a).not.mp (not_holds_of_size hsize a)
      simpa [Run.Holds, Run.stop] using this
    · obtain ⟨hstart, hstop⟩ := clamp_of_size hsize
      refine ⟨canonical_singleton (Nat.pos_of_ne_zero hsize), fun t ht => ?_, fun a => ?_⟩
      · obtain rfl := List.mem_singleton.mp ht
        exact ⟨hstart.ge, hstop, rfl⟩
      · rw [in_cons, or_iff_left not_in_nil]
        exact hholds a
  rw [heq]
  refine ⟨ordered_flatMap hruns (fun run hrun => (hcarves run hrun).canonical.toOrdered)
    fun run hrun => (hcarves run hrun).part, fun t ht => ?_, fun a d =>
      at_flatMap_carves (fun _ a => a < s.size.toNat) hcarves⟩
  obtain ⟨run, -, ht⟩ := List.mem_flatMap.mp ht
  split_ifs at ht with hsize
  · simp at ht
  · obtain rfl := List.mem_singleton.mp ht
    exact s.clamp_stop run.start run.size

/-- The coalesced runs hold the same bytes, without gaps between them. -/
theorem coalescedRuns_spec {domains : List GpuCpuVisibilityRange} (hdomains : Ordered domains)
    (hwithin : Within domains s.size.toNat) :
    let runs := coalesce adjoins reach
      (domains.map fun run => (⟨run.start, run.size, ()⟩ : GpuCoherencyRange))
    Formed runs s.size.toNat ∧ ∀ a, In runs a ↔ In domains a := by
  obtain ⟨hcanonical, hmap, hwithin'⟩ := coalesce_spec (joining_adjoins s.size_lt)
    (l := domains.map fun run => (⟨run.start, run.size, ()⟩ : GpuCoherencyRange))
    (List.pairwise_map.mpr hdomains.starts)
    (by simpa using hdomains.nonempty) (by simpa [Within, Run.stop] using hwithin)
  refine ⟨⟨hcanonical, hwithin'⟩, fun a => ?_⟩
  rw [← at_unit (u := ()), hmap, at_unit, in_map_unit]

/-- The coalesced page ranges hold the pages of the runs. -/
theorem pageRuns_spec {domains : List GpuCpuVisibilityRange} (hdomains : Ordered domains)
    (hwithin : Within domains s.size.toNat) :
    let pages := coalesce adjoins reach (s.pageRuns domains)
    Formed pages s.size.toNat ∧ ∀ a, In pages a ↔ s.OnPages (In domains) a := by
  have hpage : ∀ run ∈ domains,
      let pages : GpuCoherencyRange := ⟨(s.pagesOf ⟨run.start, run.size, ()⟩).1,
        u32 ((s.pagesOf ⟨run.start, run.size, ()⟩).2 - (s.pagesOf ⟨run.start, run.size, ()⟩).1), ()⟩
      0 < pages.size ∧ pages.stop ≤ s.size.toNat ∧
        ∀ a, pages.Holds a ↔ s.OnPages (⟨run.start, run.size, ()⟩ : GpuCoherencyRange).Holds a :=
    fun run hrun => pageRun_spec (hdomains.nonempty run hrun) (hwithin run hrun)
  have hmem : ∀ t ∈ s.pageRuns domains, 0 < t.size ∧ t.stop ≤ s.size.toNat := by
    intro t ht
    obtain ⟨run, hrun, rfl⟩ := List.mem_map.mp ht
    exact ⟨(hpage run hrun).1, (hpage run hrun).2.1⟩
  have hstarts : (s.pageRuns domains).Pairwise fun b r => b.start ≤ r.start := by
    refine List.pairwise_map.mpr (hdomains.starts.imp fun {b r} hbr => ?_)
    exact Nat.mul_le_mul_right _ (Nat.div_le_div_right hbr)
  obtain ⟨hcanonical, hmap, hwithin'⟩ := coalesce_spec (joining_adjoins s.size_lt) hstarts
    (fun t ht => (hmem t ht).1) fun t ht => (hmem t ht).2
  refine ⟨⟨hcanonical, hwithin'⟩, fun a => ?_⟩
  rw [← at_unit (u := ()), hmap, at_unit]
  constructor
  · rintro ⟨t, ht, ha⟩
    obtain ⟨run, hrun, rfl⟩ := List.mem_map.mp ht
    obtain ⟨hlt, w, hw, hp⟩ := ((hpage run hrun).2.2 a).mp ha
    exact ⟨hlt, w, ⟨run, hrun, hw⟩, hp⟩
  · rintro ⟨hlt, w, ⟨run, hrun, hw⟩, hp⟩
    exact ⟨_, List.mem_map.mpr ⟨run, hrun, rfl⟩, ((hpage run hrun).2.2 a).mpr ⟨hlt, w, hw, hp⟩⟩

/-- **`mark_cpu_writes_unlocked` marks the runs, clamped.** -/
theorem markCpuWrites_spec (hs : s.Shaped) {runs : List GpuCpuVisibilityRange}
    (hruns : Ordered runs) :
    (s.markCpuWrites runs).Shaped ∧
      Marked s (s.markCpuWrites runs) fun a d => At runs a d ∧ a < s.size.toNat := by
  have hn := s.size_lt
  obtain ⟨hdomains, hwithin, hat⟩ := clampedRuns_spec (s := s) hruns
  obtain ⟨hcoalesced, hincoalesced⟩ := coalescedRuns_spec hdomains hwithin
  obtain ⟨hpages, hinpages⟩ := pageRuns_spec hdomains hwithin
  set domains := s.clampedRuns runs with hdef
  set coalesced := coalesce adjoins reach
    (domains.map fun run => (⟨run.start, run.size, ()⟩ : GpuCoherencyRange)) with hcdef
  have heq : (fun a d => At runs a d ∧ a < s.size.toNat) = fun a d => At domains a d := by
    funext a d
    exact propext (hat a d).symm
  have hbytes : ∀ a, (∃ d, At domains a d) ↔ In coalesced a := by
    intro a
    rw [hincoalesced, in_iff_exists_at]
  rw [heq]
  unfold markCpuWrites
  simp only [← hdef, ← hcdef]
  by_cases hnil : coalesced = []
  · rw [if_pos hnil]
    refine ⟨hs, (Marked.refl s).congr fun a d => ?_⟩
    have hnone : ¬∃ d, At domains a d := by
      rw [hbytes, hnil]
      exact not_in_nil
    exact ⟨False.elim, fun h => hnone ⟨d, h⟩⟩
  · rw [if_neg hnil]
    obtain ⟨htouched, hintouched⟩ := addAll_spec hs.touchedPages hn hpages.starts hpages.nonempty
      hpages.within
    obtain ⟨hgpu, hatgpu⟩ := subtractAll_spec hs.gpuDirty hn hcoalesced.toOrdered
    obtain ⟨hvalid, hatvalid⟩ := subtractAll_spec hs.deviceValid hn hcoalesced.toOrdered
    obtain ⟨hcpu, hincpu⟩ := addAll_spec hs.cpuDirty hn hcoalesced.starts hcoalesced.nonempty
      hcoalesced.within
    obtain ⟨hleft, hatleft⟩ := subtractAll_spec hs.cpuVisibility hn hcoalesced.toOrdered
    have hperm : ((subtractAll s.cpuVisibility coalesced).merge domains
        fun a b => decide (a.start ≤ b.start)).Perm
          (domains ++ subtractAll s.cpuVisibility coalesced) :=
      (List.merge_perm_append _).trans List.perm_append_comm
    obtain ⟨hvis, hatvis⟩ := coalesce_inserted hn hleft.toOrdered hleft.within hdomains hwithin
      (fun a ha hin => by
        obtain ⟨d, hd⟩ := in_iff_exists_at.mp ha
        exact ((hatleft a d).mp hd).2 ((hincoalesced a).mpr hin)) hperm
      (List.Pairwise.merge (r := fun b r : GpuCpuVisibilityRange => b.start ≤ r.start)
        hleft.starts hdomains.starts)
    refine ⟨⟨hcpu, hvis, hgpu, hvalid, hs.requested, htouched⟩,
      ⟨rfl, rfl, rfl, rfl, rfl, fun a => ?_, fun a d => ?_, fun a g => ?_, fun a => ?_,
        fun a => ?_⟩⟩
    · rw [hbytes]
      exact hincpu a
    · rw [hbytes, ← hatleft]
      exact hatvis a d
    · rw [hbytes]
      exact hatgpu a g
    · rw [hbytes, ← at_unit (u := ()), ← at_unit (u := ())]
      exact hatvalid a ()
    · refine (hintouched a).trans (or_congr_right ((hinpages a).trans ?_))
      simp only [OnPages, in_iff_exists_at]

end GpuCoherency

end Memory
end XenonRecomp
