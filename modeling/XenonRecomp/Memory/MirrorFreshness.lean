/-
# The device mirror hides no CPU write

Two invariants carry the argument.  `Recorded` says what `GuestMemoryCoherency`
knows of every CPU write: a journal entry of its epoch, if there is one, holds
its bytes, and its pages have an epoch that is not older.  So whatever
`ingest_cpu_writes_unlocked` reads, the journal or the pages, it marks every
byte written in the interval (`Recorded.ingests`).  `Current` says that
device-valid bytes and GPU-dirty bytes were not written since, up to the
synchronized epoch, and that the bytes prepared for a read-back stay CPU-dirty
or device-valid, so that committing it makes no byte device-valid that was not.

Both rest on the order of the epochs.  When the 64-bit epoch wraps around, new
writes have epochs below the synchronized one and are never ingested
(`wrapped_epoch_hides_write`).
-/

import XenonRecomp.Memory.DeviceMirror

namespace XenonRecomp
namespace Memory

open Library Library.Runs

/-! ### What memory knows of the CPU writes -/

/-- The journal and the page epochs agree with the history of CPU writes. -/
structure Recorded (m : Publications) (history : List CpuWrite) : Prop where
  slots : ∀ k write, m.journal k = some write → write.epoch ≤ m.writeEpoch
  bound : ∀ w ∈ history, w.label ≤ m.writeEpoch
  journal : ∀ w ∈ history, ∀ write, m.journalled w.label = some write →
    ∀ a, w.Holds a → write.run.Holds a
  pages : ∀ w ∈ history, ∀ a, w.Holds a →
    a / 0x1000 < physicalPageCount ∧ w.label ≤ m.pageEpochs (a / 0x1000)
  native : ∀ page ∈ m.nativeDirty, page < physicalPageCount

section Recorded

variable {m : Publications} {history : List CpuWrite}

theorem recorded_init : Recorded .init [] :=
  ⟨by simp [Publications.init], by simp, by simp, by simp, by simp [Publications.init]⟩

theorem nextEpoch_eq (h : m.writeEpoch + 1 < 2 ^ 64) : m.nextEpoch = m.writeEpoch + 1 := by
  unfold Publications.nextEpoch
  rw [Nat.mod_eq_of_lt h, if_neg (by omega)]

/-- A journal entry has the epoch it is found under. -/
theorem journalled_epoch {epoch : ℕ} {write : DirtyPhysicalWrite}
    (h : m.journalled epoch = some write) :
    m.journal (epoch % writeJournalCapacity) = some write ∧ write.epoch = epoch := by
  obtain ⟨hslot, hepoch⟩ := Option.filter_eq_some_iff.mp h
  exact ⟨hslot, by simpa using hepoch⟩

/-- The history after a step that gives pages an epoch and perhaps writes the
journal. -/
theorem Recorded.extend (h : Recorded m history) {m' : Publications} {new : List CpuWrite}
    (hepoch : m'.writeEpoch = m.writeEpoch + 1)
    (hslots : ∀ k write, m'.journal k = some write →
      m.journal k = some write ∨ write.epoch = m.writeEpoch + 1)
    (hpages : ∀ page, m.pageEpochs page ≤ m'.pageEpochs page ∨
      m'.pageEpochs page = m.writeEpoch + 1)
    (hnative : ∀ page ∈ m'.nativeDirty, page ∈ m.nativeDirty)
    (hnew : ∀ w ∈ new, w.label = m.writeEpoch + 1)
    (hjournal : ∀ w ∈ new, ∀ k write, m'.journal k = some write →
      write.epoch = m.writeEpoch + 1 → ∀ a, w.Holds a → write.run.Holds a)
    (hstamped : ∀ w ∈ new, ∀ a, w.Holds a →
      a / 0x1000 < physicalPageCount ∧ m'.pageEpochs (a / 0x1000) = m.writeEpoch + 1) :
    Recorded m' (history ++ new) := by
  refine ⟨fun k write hk => ?_, fun w hw => ?_, fun w hw write hwrite a ha => ?_,
    fun w hw a ha => ?_, fun page hp => h.native page (hnative page hp)⟩
  · rcases hslots k write hk with hk | hk
    · have := h.slots k write hk
      omega
    · omega
  · rcases List.mem_append.mp hw with hw | hw
    · have := h.bound w hw
      omega
    · have := hnew w hw
      omega
  · obtain ⟨hslot, hlabel⟩ := journalled_epoch hwrite
    rcases List.mem_append.mp hw with hw | hw
    · have hold : m.journal (w.label % writeJournalCapacity) = some write := by
        refine (hslots _ write hslot).resolve_right fun hk => ?_
        have := h.bound w hw
        omega
      refine h.journal w hw write ?_ a ha
      rw [Publications.journalled, hold, Option.filter_some, if_pos (by simpa using hlabel)]
    · exact hjournal w hw _ write hslot (hlabel.trans (hnew w hw)) a ha
  · rcases List.mem_append.mp hw with hw | hw
    · obtain ⟨hpage, hle⟩ := h.pages w hw a ha
      have := h.bound w hw
      exact ⟨hpage, by rcases hpages (a / 0x1000) with hp | hp <;> omega⟩
    · obtain ⟨hpage, heq⟩ := hstamped w hw a ha
      exact ⟨hpage, (hnew w hw).trans_le heq.ge⟩

/-- The epochs of stamped pages. -/
theorem stamp_pages (h : m.writeEpoch + 1 < 2 ^ 64) (pages : List ℕ) (page : ℕ) :
    m.pageEpochs page ≤ (m.stamp pages).pageEpochs page ∨
      (m.stamp pages).pageEpochs page = m.writeEpoch + 1 := by
  simp only [Publications.stamp]
  split_ifs
  · exact .inr (nextEpoch_eq h)
  · exact .inl le_rfl

/-- The pages of a range of physical memory. -/
theorem mem_touchedPages {address stop a : ℕ} (hstop : stop ≤ physicalMemorySize)
    (ha : address ≤ a ∧ a < stop) :
    a / 0x1000 < physicalPageCount ∧ a / 0x1000 ∈ touchedPages address (stop - address) := by
  have hsize : physicalMemorySize = physicalPageCount * 0x1000 := by decide
  have hpage : a / 0x1000 < physicalPageCount := by
    rw [Nat.div_lt_iff_lt_mul (by decide), ← hsize]
    omega
  refine ⟨hpage, ?_⟩
  unfold touchedPages
  have hfirst : address / 0x1000 ≤ a / 0x1000 := Nat.div_le_div_right ha.1
  have hlast : a / 0x1000 ≤ (address + (stop - address) - 1) / 0x1000 :=
    Nat.div_le_div_right (by omega)
  simp only [List.mem_range'_1]
  omega

/-- A write that is published. -/
theorem Recorded.publish (h : Recorded m history) (hwrap : m.writeEpoch + 1 < 2 ^ 64)
    {address stop : ℕ} (domain : MemoryOrderingDomain) (hstop : stop ≤ physicalMemorySize)
    (hle : address ≤ stop) {new : List CpuWrite}
    (hnew : ∀ w ∈ new, w = ⟨address, stop - address, m.nextEpoch⟩) :
    Recorded (m.publish address stop domain hstop hle).1 (history ++ new) := by
  have hnext := nextEpoch_eq hwrap
  have hholds : ∀ w ∈ new, ∀ a, w.Holds a → address ≤ a ∧ a < stop := by
    intro w hw a ha
    rw [hnew w hw] at ha
    unfold Run.Holds Run.stop at ha
    simp only at ha
    omega
  have hslot : ∀ k write, (m.publish address stop domain hstop hle).1.journal k = some write →
      m.journal k = some write ∨
        write = ⟨m.nextEpoch, address, stop - address, domain, by omega⟩ := by
    intro k write hk
    simp only [Publications.publish, Publications.publishJournal, Publications.stamp,
      Function.update_apply] at hk
    split_ifs at hk
    · exact .inr (Option.some.inj hk).symm
    · exact .inl hk
  refine h.extend hnext (fun k write hk => ?_) (stamp_pages hwrap _) (fun page hp => hp)
    (fun w hw => ?_) (fun w hw k write hk hepoch a ha => ?_) fun w hw a ha => ?_
  · refine (hslot k write hk).imp_right ?_
    rintro rfl
    exact hnext
  · rw [hnew w hw]
    exact hnext
  · rcases hslot k write hk with hk | rfl
    · have := h.slots k write hk
      omega
    · have := hholds w hw a ha
      simp only [DirtyPhysicalWrite.run, Run.Holds, Run.stop]
      omega
  · obtain ⟨hpage, hmem⟩ := mem_touchedPages hstop (hholds w hw a ha)
    refine ⟨hpage, ?_⟩
    simp only [Publications.publish, Publications.publishJournal, Publications.stamp, hmem, if_true]
    exact hnext

/-- The pages of native stores are collected. -/
theorem Recorded.collect (h : Recorded m history)
    (hwrap : m.nativeDirty ≠ [] → m.writeEpoch + 1 < 2 ^ 64) :
    Recorded m.collectCpuDirtyPages (history ++ m.collected) := by
  unfold Publications.collectCpuDirtyPages
  by_cases hnone : m.nativeDirty = []
  · rw [if_pos hnone, Publications.collected, hnone, List.map_nil, List.append_nil]
    exact h
  · rw [if_neg hnone]
    have hwrap := hwrap hnone
    have hnext := nextEpoch_eq hwrap
    refine h.extend hnext (fun k write hk => .inl hk) (stamp_pages hwrap _) (by simp)
      (fun w hw => ?_) (fun w hw k write hk hepoch a ha => ?_) fun w hw a ha => ?_
    · obtain ⟨page, -, rfl⟩ := List.mem_map.mp hw
      exact hnext
    · have := h.slots k write hk
      omega
    · obtain ⟨page, hpage, rfl⟩ := List.mem_map.mp hw
      have hdiv : a / 0x1000 = page := by
        unfold Run.Holds Run.stop at ha
        simp only at ha
        omega
      rw [hdiv]
      refine ⟨h.native page hpage, ?_⟩
      simp only [Publications.stamp, hpage, if_true]
      exact hnext

/-- The writes of an interval are all found, or none. -/
theorem mem_of_mapM {α β : Type} {f : α → Option β} :
    ∀ {xs : List α} {ys : List β}, xs.mapM f = some ys → ∀ x ∈ xs, ∃ y ∈ ys, f x = some y
  | [], _, _, x, hx => by simp at hx
  | z :: xs, ys, h, x, hx => by
      rw [List.mapM_cons] at h
      obtain ⟨y, hy, h⟩ := Option.bind_eq_some_iff.mp h
      obtain ⟨ys', hys', h⟩ := Option.bind_eq_some_iff.mp h
      obtain rfl : y :: ys' = ys := Option.some.inj h
      rcases List.mem_cons.mp hx with rfl | hx
      · exact ⟨y, List.mem_cons_self, hy⟩
      · obtain ⟨y', hy', hf⟩ := mem_of_mapM hys' x hx
        exact ⟨y', List.mem_cons_of_mem _ hy', hf⟩

/-- **No CPU write of an interval is missed.** -/
theorem Recorded.ingests (h : Recorded m history) {s : GpuCoherency}
    {throughEpoch ignoredEpoch maxRangeBytes a : ℕ} {w : CpuWrite} (hw : w ∈ history)
    (ha : w.Holds a) (hsize : a < s.size.toNat) (hsince : s.synchronizedEpoch < w.label)
    (hthrough : w.label ≤ throughEpoch) (hignored : w.label ≠ ignoredEpoch) :
    s.Ingests m throughEpoch ignoredEpoch maxRangeBytes a := by
  refine ⟨hsince.trans_le hthrough, hsize, ?_⟩
  unfold GpuCoherency.ingestedRuns
  split
  · next writes hwrites =>
      rw [Publications.collectExactDirtyWrites, if_neg (by omega)] at hwrites
      split_ifs at hwrites with hcapacity
      obtain ⟨found, hfound, rfl⟩ := Option.map_eq_some_iff.mp hwrites
      have hmem : w.label ∈ List.range' (s.synchronizedEpoch + 1)
          (throughEpoch - s.synchronizedEpoch) := by
        rw [List.mem_range'_1]
        omega
      obtain ⟨write, hwrite, hjournalled⟩ := mem_of_mapM hfound w.label hmem
      have hholds := h.journal w hw write hjournalled a ha
      have hne : write.size ≠ 0 := by
        unfold Run.Holds Run.stop DirtyPhysicalWrite.run at hholds
        simp only at hholds
        omega
      have hepoch : write.epoch ≠ ignoredEpoch := by
        rw [(journalled_epoch hjournalled).2]
        exact hignored
      rw [in_iff_exists_at]
      simp only [(lastWriterRuns_spec _).2, LastDomain, ← Option.isSome_iff_exists,
        Option.isSome_map, List.find?_isSome, List.mem_reverse]
      refine ⟨write, ?_, by simpa using hholds⟩
      split_ifs <;> simp [hwrite, hne, hepoch]
  · obtain ⟨hpage, hle⟩ := h.pages w hw a ha
    obtain ⟨r, hr, hstart, hstop⟩ := (seenSince_of_lt (hsince.trans_le hle)).2 hpage throughEpoch
      maxRangeBytes (hsince.trans_le hthrough)
    refine ⟨_, List.mem_map.mpr ⟨r, hr, rfl⟩, ?_⟩
    have := Nat.div_mul_le_self a 0x1000
    have := Nat.lt_div_mul_add (a := a) (b := 0x1000) (by decide)
    unfold Run.Holds Run.stop
    simp only
    omega

end Recorded

namespace GpuCoherency

variable (s : GpuCoherency)

/-! ### The synchronized epoch -/

theorem ingestCpuWrites_epoch (memory : Publications)
    (throughEpoch ignoredEpoch maxRangeBytes : ℕ) :
    (s.ingestCpuWrites memory throughEpoch ignoredEpoch maxRangeBytes).1.synchronizedEpoch =
      max s.synchronizedEpoch throughEpoch := by
  rw [ingestCpuWrites_eq]
  split_ifs with hold
  · exact (max_eq_left hold).symm
  · exact (max_eq_right (not_le.mp hold).le).symm

theorem request_size (range : GpuCoherencyRange) : (s.request range).size = s.size := by
  simp [request]

theorem request_epoch (range : GpuCoherencyRange) :
    (s.request range).synchronizedEpoch = s.synchronizedEpoch := by
  simp [request]

theorem commitGpuDownload_size (hs : s.Shaped) (memory : Publications)
    (planned : GpuReadbackRange) (address size : BitVec 32) (publicationEpoch : ℕ) :
    (s.commitGpuDownload memory planned address size publicationEpoch).1.size = s.size := by
  unfold commitGpuDownload
  simp only
  by_cases hsize : (s.clamp address.toNat size.toNat).size = 0
  · rw [if_pos hsize]
  · rw [if_neg hsize]
    by_cases hepoch : publicationEpoch ≠ 0
    · simp only [if_pos hepoch]
      exact ingestCpuWrites_size hs memory publicationEpoch publicationEpoch 0
    · simp only [if_neg hepoch]
      rfl

theorem commitGpuDownload_epoch (memory : Publications) (planned : GpuReadbackRange)
    (address size : BitVec 32) {publicationEpoch : ℕ} (hepoch : publicationEpoch ≠ 0)
    (hsize : (s.clamp address.toNat size.toNat).size ≠ 0) :
    (s.commitGpuDownload memory planned address size publicationEpoch).1.synchronizedEpoch =
      max s.synchronizedEpoch publicationEpoch := by
  unfold commitGpuDownload
  simp only [if_neg hsize, if_pos hepoch]
  exact s.ingestCpuWrites_epoch memory publicationEpoch publicationEpoch 0

/-- What `prepare_gpu_download` returns is GPU-dirty, with the planned generation. -/
theorem prepareGpuDownload_spec {s : GpuCoherency} (hs : s.Shaped) (memory : Publications)
    (planned : GpuReadbackRange) (maxRangeBytes : BitVec 32) :
    ∀ safe ∈ (s.prepareGpuDownload memory planned maxRangeBytes).2, safe.stop ≤ s.size.toNat ∧
      ∀ a, safe.Holds a → At (s.ingestAll memory maxRangeBytes).gpuDirty a planned.label := by
  have hgpu := (ingestAll_maps hs memory maxRangeBytes).shaped.gpuDirty
  have hsize : (s.ingestAll memory maxRangeBytes).size = s.size :=
    ingestCpuWrites_size hs memory.collectCpuDirtyPages _ 0 maxRangeBytes.toNat
  have hn := (s.ingestAll memory maxRangeBytes).size_lt
  have hwithin := within_intersectionsGeneration hgpu hn ⟨planned.start, planned.size, ()⟩
    planned.label
  intro safe hsafe
  obtain ⟨r, hr, hpart⟩ := splitRanges_part hn hwithin maxRangeBytes.toNat safe hsafe
  refine ⟨(hpart.stop.trans (hwithin r hr)).trans_eq (by rw [hsize]), fun a ha => ?_⟩
  obtain ⟨⟨hat, -⟩, hlabel⟩ := (at_intersectionsGeneration hgpu hn
    ⟨planned.start, planned.size, ()⟩ planned.label a r.label).mp ⟨r, hr, hpart.holds ha, rfl⟩
  rwa [hlabel] at hat

end GpuCoherency

namespace Mirror

/-- The device-valid and the GPU-dirty bytes were not written since. -/
structure Current (s : Mirror) : Prop where
  shaped : s.coherency.Shaped
  recorded : Recorded s.memory s.history
  epoch : s.coherency.synchronizedEpoch ≤ s.memory.writeEpoch
  valid : ∀ a, In s.coherency.deviceValid a →
    Includes s.history a s.coherency.synchronizedEpoch (s.device a)
  dirty : ∀ a g, At s.coherency.gpuDirty a g →
    Includes s.history a s.coherency.synchronizedEpoch (s.rendered a g)
  held : ∀ a g, At s.coherency.gpuDirty a g →
    In s.coherency.cpuDirty a ∨ In s.coherency.deviceValid a
  prepared : ∀ safe ∈ s.prepared, safe.stop ≤ s.coherency.size.toNat ∧
    ∀ a, safe.Holds a → In s.coherency.cpuDirty a ∨ In s.coherency.deviceValid a
  written : ∀ p ∈ s.writtenBack, p.1 ∈ s.prepared ∧ (p.2 ≠ 0 ∧ p.2 ≤ s.memory.writeEpoch) ∧
    ∀ w ∈ s.history, w.label ≠ p.2

variable {s : Mirror}

/-- Later writes have later epochs. -/
theorem includes_append {history new : List CpuWrite} {a through n : ℕ}
    (h : Includes history a through n) (hnew : ∀ w ∈ new, through < w.label) :
    Includes (history ++ new) a through n := by
  intro i w hi ha hle
  rcases lt_or_ge i history.length with hlt | hge
  · rw [List.getElem?_append_left hlt] at hi
    exact h i w hi ha hle
  · rw [List.getElem?_append_right hge] at hi
    exact absurd hle (hnew w (List.mem_of_getElem? hi)).not_ge

/-- What was copied last includes every write. -/
theorem includes_length (history : List CpuWrite) (a through : ℕ) :
    Includes history a through history.length :=
  fun _ _ hi _ _ => (List.getElem?_eq_some_iff.mp hi).1

/-- Memory moves on: writes are published, with or without the mirror's own. -/
theorem Current.record (h : s.Current) {memory : Publications} {new : List CpuWrite}
    {writtenBack : List (GpuReadbackRange × ℕ)}
    (hrecorded : Recorded memory (s.history ++ new))
    (hepoch : s.memory.writeEpoch ≤ memory.writeEpoch)
    (hnew : ∀ w ∈ new, s.memory.writeEpoch < w.label)
    (hback : ∀ p ∈ writtenBack, p ∈ s.writtenBack ∨
      (p.1 ∈ s.prepared ∧ s.memory.writeEpoch < p.2 ∧ p.2 ≤ memory.writeEpoch ∧ new = [])) :
    Current { s with
      memory := memory, history := s.history ++ new, writtenBack := writtenBack } := by
  have hlater : ∀ w ∈ new, s.coherency.synchronizedEpoch < w.label :=
    fun w hw => h.epoch.trans_lt (hnew w hw)
  refine ⟨h.shaped, hrecorded, h.epoch.trans hepoch, fun a ha => includes_append (h.valid a ha)
    hlater, fun a g hg => includes_append (h.dirty a g hg) hlater, h.held, h.prepared,
    fun p hp => ?_⟩
  rcases hback p hp with hp | ⟨hprepared, hlt, hle, rfl⟩
  · obtain ⟨hprepared, hle, hne⟩ := h.written p hp
    refine ⟨hprepared, ⟨hle.1, hle.2.trans hepoch⟩, fun w hw => ?_⟩
    rcases List.mem_append.mp hw with hw | hw
    · exact hne w hw
    · have := hnew w hw
      omega
  · refine ⟨hprepared, ⟨by omega, hle⟩, fun w hw => ?_⟩
    have := h.recorded.bound w (by simpa using hw)
    omega

/-- Ownership moves on. -/
theorem Current.turn (h : s.Current) {coherency : GpuCoherency} {cpu : ℕ → Prop}
    {gpu : ℕ → ℕ → Prop} {valid : ℕ → Prop} (hmaps : coherency.Maps cpu gpu valid)
    (hsize : coherency.size = s.coherency.size)
    (hepoch : coherency.synchronizedEpoch ≤ s.memory.writeEpoch) {device : ℕ → ℕ}
    {rendered : ℕ → ℕ → ℕ}
    (hvalid : ∀ a, valid a → Includes s.history a coherency.synchronizedEpoch (device a))
    (hdirty : ∀ a g, gpu a g → Includes s.history a coherency.synchronizedEpoch (rendered a g))
    (hheld : ∀ a g, gpu a g → cpu a ∨ valid a)
    (hkept : ∀ a, In s.coherency.cpuDirty a ∨ In s.coherency.deviceValid a → cpu a ∨ valid a) :
    Current { s with coherency := coherency, device := device, rendered := rendered } := by
  have hin : ∀ a, In coherency.cpuDirty a ∨ In coherency.deviceValid a ↔ cpu a ∨ valid a :=
    fun a => or_congr (hmaps.cpuDirty a) (hmaps.deviceValid a)
  refine ⟨hmaps.shaped, h.recorded, hepoch, fun a ha => hvalid a ((hmaps.deviceValid a).mp ha),
    fun a g hg => hdirty a g ((hmaps.gpuDirty a g).mp hg),
    fun a g hg => (hin a).mpr (hheld a g ((hmaps.gpuDirty a g).mp hg)), fun safe hsafe => ?_,
    h.written⟩
  obtain ⟨hstop, hbytes⟩ := h.prepared safe hsafe
  exact ⟨hstop.trans_eq (by rw [hsize]), fun a ha => (hin a).mpr (hkept a (hbytes a ha))⟩

/-- A byte that is not marked was not written in the interval. -/
theorem Current.includes_ingest (h : s.Current) {through ignored maxRangeBytes a n : ℕ}
    (hincludes : Includes s.history a s.coherency.synchronizedEpoch n)
    (hsize : a < s.coherency.size.toNat)
    (hignored : ignored = 0 ∨ ∀ w ∈ s.history, w.label ≠ ignored)
    (hnot : ¬s.coherency.Ingests s.memory through ignored maxRangeBytes a) :
    Includes s.history a (max s.coherency.synchronizedEpoch through) n := by
  intro i w hi ha hle
  have hw := List.mem_of_getElem? hi
  by_cases hsince : w.label ≤ s.coherency.synchronizedEpoch
  · exact hincludes i w hi ha hsince
  · have hne : w.label ≠ ignored := by
      rcases hignored with rfl | hignored
      · omega
      · exact hignored w hw
    refine absurd (h.recorded.ingests hw ha hsize (not_le.mp hsince) ?_ hne) hnot
    omega

/-- Ingesting writes that are published. -/
theorem Current.ingest (h : s.Current) {through ignored : ℕ} (maxRangeBytes : ℕ)
    (hthrough : through ≤ s.memory.writeEpoch)
    (hignored : ignored = 0 ∨ ∀ w ∈ s.history, w.label ≠ ignored) :
    Current { s with
      coherency := (s.coherency.ingestCpuWrites s.memory through ignored maxRangeBytes).1 } := by
  have hmaps := GpuCoherency.ingestCpuWrites_maps h.shaped s.memory through ignored maxRangeBytes
  have hepoch := s.coherency.ingestCpuWrites_epoch s.memory through ignored maxRangeBytes
  have hlt : ∀ a, In s.coherency.deviceValid a → a < s.coherency.size.toNat :=
    fun a ha => h.shaped.deviceValid.within.lt ha
  have hltgpu : ∀ a g, At s.coherency.gpuDirty a g → a < s.coherency.size.toNat :=
    fun a g hg => h.shaped.gpuDirty.within.lt (in_iff_exists_at.mpr ⟨g, hg⟩)
  refine h.turn hmaps (GpuCoherency.ingestCpuWrites_size h.shaped s.memory through ignored
    maxRangeBytes) ?_ ?_ ?_ ?_ ?_
  · rw [hepoch]
    exact max_le h.epoch hthrough
  · rintro a ⟨hv, hnot⟩
    rw [hepoch]
    exact h.includes_ingest (h.valid a hv) (hlt a hv) hignored hnot
  · rintro a g ⟨hg, hnot⟩
    rw [hepoch]
    exact h.includes_ingest (h.dirty a g hg) (hltgpu a g hg) hignored hnot
  · rintro a g ⟨hg, hnot⟩
    exact (h.held a g hg).imp .inl fun hv => ⟨hv, hnot⟩
  · intro a ha
    by_cases hD : s.coherency.Ingests s.memory through ignored maxRangeBytes a
    · exact .inl (.inr hD)
    · exact ha.imp .inl fun hv => ⟨hv, hD⟩

/-- The native stores are collected first. -/
theorem Current.collect (h : s.Current)
    (hwrap : s.memory.nativeDirty ≠ [] → s.memory.writeEpoch + 1 < 2 ^ 64) :
    s.collect.Current := by
  have hnew : ∀ w ∈ s.memory.collected, s.memory.writeEpoch < w.label ∧
      s.memory.collectCpuDirtyPages.writeEpoch = s.memory.writeEpoch + 1 := by
    intro w hw
    obtain ⟨page, hpage, rfl⟩ := List.mem_map.mp hw
    have hne : s.memory.nativeDirty ≠ [] := List.ne_nil_of_mem hpage
    have hnext := nextEpoch_eq (hwrap hne)
    rw [Publications.collectCpuDirtyPages, if_neg hne]
    exact ⟨by simp only; omega, hnext⟩
  have hepoch : s.memory.writeEpoch ≤ s.memory.collectCpuDirtyPages.writeEpoch := by
    unfold Publications.collectCpuDirtyPages
    split_ifs with hne
    · exact le_rfl
    · exact (Nat.le_succ _).trans_eq (nextEpoch_eq (hwrap hne)).symm
  exact h.record (h.recorded.collect hwrap) hepoch (fun w hw => (hnew w hw).1)
    fun p hp => .inl hp

/-- The state of the lists after a plan or a preparation. -/
theorem Current.ingestAll (h : s.Current)
    (hwrap : s.memory.nativeDirty ≠ [] → s.memory.writeEpoch + 1 < 2 ^ 64)
    (maxRangeBytes : BitVec 32) :
    Current { s.collect with coherency := s.coherency.ingestAll s.memory maxRangeBytes } :=
  (h.collect hwrap).ingest maxRangeBytes.toNat le_rfl (.inl rfl)

/-- A plan notes its request and its ranges. -/
theorem Current.requestIf (h : s.Current) (address size : ℕ) (uploads : List GpuCoherencyRange)
    (readbacks : List GpuReadbackRange) :
    Current { s with
      coherency := if (s.coherency.clamp address size).size = 0 then s.coherency
        else s.coherency.request (s.coherency.clamp address size)
      uploads := uploads
      readbacks := readbacks } := by
  have hmaps := h.shaped.maps.requestIf address size
  have hsame : (if (s.coherency.clamp address size).size = 0 then s.coherency
      else s.coherency.request (s.coherency.clamp address size)).size = s.coherency.size ∧
      (if (s.coherency.clamp address size).size = 0 then s.coherency
      else s.coherency.request (s.coherency.clamp address size)).synchronizedEpoch =
        s.coherency.synchronizedEpoch := by
    split_ifs
    · exact ⟨rfl, rfl⟩
    · exact ⟨GpuCoherency.request_size _ _, GpuCoherency.request_epoch _ _⟩
  have hturned := h.turn hmaps hsame.1 (hsame.2.trans_le h.epoch)
    (fun a ha => by rw [hsame.2]; exact h.valid a ha)
    (fun a g hg => by rw [hsame.2]; exact h.dirty a g hg) h.held fun a ha => ha
  exact ⟨hturned.shaped, hturned.recorded, hturned.epoch, hturned.valid, hturned.dirty, hturned.held,
    hturned.prepared, hturned.written⟩

/-- Ranges that are GPU-dirty are prepared. -/
theorem Current.prepare (h : s.Current) {ranges : List GpuReadbackRange}
    (hranges : ∀ safe ∈ ranges, safe.stop ≤ s.coherency.size.toNat ∧
      ∀ a, safe.Holds a → ∃ g, At s.coherency.gpuDirty a g) :
    Current { s with prepared := ranges ++ s.prepared } := by
  refine ⟨h.shaped, h.recorded, h.epoch, h.valid, h.dirty, h.held, fun safe hsafe => ?_,
    fun p hp => ?_⟩
  · rcases List.mem_append.mp hsafe with hsafe | hsafe
    · obtain ⟨hstop, hbytes⟩ := hranges safe hsafe
      refine ⟨hstop, fun a ha => ?_⟩
      obtain ⟨g, hg⟩ := hbytes a ha
      exact h.held a g hg
    · exact h.prepared safe hsafe
  · obtain ⟨hmem, hrest⟩ := h.written p hp
    exact ⟨List.mem_append_right _ hmem, hrest⟩

theorem copy_device (range : GpuCoherencyRange) (a : ℕ) :
    (s.copy range true).device a = if range.Holds a then s.history.length else s.device a := by
  simp [copy]

/-- An upload that succeeds copies every write so far; one that fails leaves its
bytes CPU-dirty. -/
theorem Current.upload (h : s.Current) (range : GpuCoherencyRange) (copied : Bool) :
    (s.upload range copied).Current := by
  unfold Mirror.upload Mirror.copy
  simp only
  generalize BitVec.ofNat 32 range.start = address
  generalize BitVec.ofNat 32 range.size = size
  have hcommit := GpuCoherency.commitCpuUpload_maps h.shaped address size
  have hsize : (s.coherency.commitCpuUpload address size).size = s.coherency.size := by
    simp [GpuCoherency.commitCpuUpload]
  have hepoch : (s.coherency.commitCpuUpload address size).synchronizedEpoch =
      s.coherency.synchronizedEpoch := by
    simp [GpuCoherency.commitCpuUpload]
  cases copied with
  | true =>
      refine h.turn hcommit hsize (hepoch.trans_le h.epoch) (fun a ha => ?_) (fun a g hg => ?_)
        (fun a g hg => ?_) fun a ha => ?_
      · rw [hepoch]
        by_cases hr : (s.coherency.clamp address.toNat size.toNat).Holds a
        · rw [if_pos hr, if_pos rfl]
          exact includes_length _ _ _
        · rw [if_neg hr]
          exact h.valid a (ha.resolve_right hr)
      · rw [hepoch]
        exact h.dirty a g hg
      · have := h.held a g hg
        tauto
      · tauto
  | false =>
      have hroll := GpuCoherency.rollbackCpuUpload_maps hcommit.shaped address size
      have hclamp : (s.coherency.commitCpuUpload address size).clamp address.toNat size.toNat =
          s.coherency.clamp address.toNat size.toNat := by
        simp only [GpuCoherency.clamp, hsize]
      have hrsize : ((s.coherency.commitCpuUpload address size).rollbackCpuUpload address size).size =
          s.coherency.size := by
        rw [← hsize]
        unfold GpuCoherency.rollbackCpuUpload
        simp only
        split_ifs <;> simp
      have hrepoch : ((s.coherency.commitCpuUpload address size).rollbackCpuUpload address
          size).synchronizedEpoch = s.coherency.synchronizedEpoch := by
        rw [← hepoch]
        unfold GpuCoherency.rollbackCpuUpload
        simp only
        split_ifs <;> simp
      simp only [hcommit.cpuDirty, hcommit.deviceValid, hclamp] at hroll
      refine h.turn hroll hrsize (hrepoch.trans_le h.epoch) (fun a ha => ?_) (fun a g hg => ?_)
        (fun a g hg => ?_) fun a ha => ?_
      · rw [hrepoch, if_neg ha.2]
        exact h.valid a (ha.1.resolve_right ha.2)
      · rw [hrepoch]
        exact h.dirty a g ((hcommit.gpuDirty a g).mp hg)
      · have := h.held a g ((hcommit.gpuDirty a g).mp hg)
        tauto
      · tauto

/-- A GPU write comes after every write so far. -/
theorem Current.gpuWrite (h : s.Current) (address size : BitVec 32) :
    (s.gpuWrite address size).Current := by
  have hmaps := GpuCoherency.markGpuWrite_maps h.shaped address size
  have hsame : (s.coherency.markGpuWrite address size).1.size = s.coherency.size ∧
      (s.coherency.markGpuWrite address size).1.synchronizedEpoch =
        s.coherency.synchronizedEpoch := by
    unfold GpuCoherency.markGpuWrite
    simp only
    split_ifs <;> simp
  have hgeneration : ∀ a, (s.coherency.clamp address.toNat size.toNat).Holds a →
      (s.coherency.markGpuWrite address size).2 = s.coherency.nextGeneration := by
    intro a ha
    unfold GpuCoherency.markGpuWrite
    simp only
    rw [if_neg fun hsize => GpuCoherency.not_holds_of_size hsize a ha]
  refine h.turn hmaps hsame.1 (hsame.2.trans_le h.epoch) (fun a ha => ?_) (fun a g hg => ?_)
    (fun a g hg => ?_) fun a ha => ?_
  · rw [hsame.2, copy_device]
    split_ifs with hr
    · exact includes_length _ _ _
    · exact h.valid a (ha.resolve_right hr)
  · rw [hsame.2]
    rcases hg with ⟨hr, rfl⟩ | ⟨hg, hr⟩
    · rw [if_pos ⟨hr, (hgeneration a hr).symm⟩]
      exact includes_length _ _ _
    · rw [if_neg fun h => hr h.1]
      exact h.dirty a g hg
  · rcases hg with ⟨hr, -⟩ | ⟨hg, hr⟩
    · exact .inr (.inr hr)
    · have := h.held a g hg
      tauto
  · tauto

/-- Committing a read-back makes no byte device-valid that was not. -/
theorem Current.commitDownload (h : s.Current) {safe : GpuReadbackRange} {publicationEpoch : ℕ}
    (hmem : (safe, publicationEpoch) ∈ s.writtenBack) :
    Current { s with
      coherency := (s.coherency.commitGpuDownload s.memory safe (BitVec.ofNat 32 safe.start)
        (BitVec.ofNat 32 safe.size) publicationEpoch).1 } := by
  obtain ⟨hprepared, ⟨hepoch, hthrough⟩, hignored⟩ := h.written _ hmem
  obtain ⟨hstop, hbytes⟩ := h.prepared _ hprepared
  have hn := s.coherency.size_lt
  have hrange : ∀ a, (s.coherency.clamp (BitVec.ofNat 32 safe.start).toNat
      (BitVec.ofNat 32 safe.size).toNat).Holds a → safe.Holds a := by
    intro a ha
    unfold Run.stop at hstop
    simp only at hstop
    rw [GpuCoherency.clamp_holds, BitVec.toNat_ofNat, BitVec.toNat_ofNat,
      Nat.mod_eq_of_lt (by omega), Nat.mod_eq_of_lt (by omega)] at ha
    exact ha.1
  have hsize := s.coherency.commitGpuDownload_size h.shaped s.memory safe
    (BitVec.ofNat 32 safe.start) (BitVec.ofNat 32 safe.size) publicationEpoch
  generalize BitVec.ofNat 32 safe.start = address at *
  generalize BitVec.ofNat 32 safe.size = size at *
  by_cases hempty : (s.coherency.clamp address.toNat size.toNat).size = 0
  · simp only [GpuCoherency.commitGpuDownload, hempty, if_true]
    exact h
  · have hmaps := GpuCoherency.commitGpuDownload_maps h.shaped s.memory safe address size
      publicationEpoch hempty
    have hsync := s.coherency.commitGpuDownload_epoch s.memory safe address size hepoch hempty
    have hlt : ∀ a, In s.coherency.deviceValid a → a < s.coherency.size.toNat :=
      fun a ha => h.shaped.deviceValid.within.lt ha
    have hltgpu : ∀ a g, At s.coherency.gpuDirty a g → a < s.coherency.size.toNat :=
      fun a g hg => h.shaped.gpuDirty.within.lt (in_iff_exists_at.mpr ⟨g, hg⟩)
    have hnot : ∀ {a}, ¬s.coherency.Acknowledges s.memory publicationEpoch a →
        ¬s.coherency.Ingests s.memory publicationEpoch publicationEpoch 0 a :=
      fun hnot hD => hnot ⟨hepoch, hD⟩
    refine h.turn hmaps hsize (hsync.trans_le (max_le h.epoch hthrough)) (fun a ha => ?_)
      (fun a g hg => ?_) (fun a g hg => ?_) fun a ha => ?_
    · -- the bytes of the range are CPU-dirty or device-valid already
      have hvalid : In s.coherency.deviceValid a ∧
          ¬s.coherency.Acknowledges s.memory publicationEpoch a := by
        obtain ⟨hv | hr, hclean⟩ := ha
        · exact hv
        · have hfree := fun h => hclean ⟨h, hr⟩
          exact ⟨(hbytes a (hrange a hr)).resolve_left fun hc => hfree (.inl hc),
            fun hD => hfree (.inr hD)⟩
      rw [hsync]
      exact h.includes_ingest (h.valid a hvalid.1) (hlt a hvalid.1) (.inr hignored) (hnot hvalid.2)
    · rw [hsync]
      exact h.includes_ingest (h.dirty a g hg.1.1) (hltgpu a g hg.1.1) (.inr hignored)
        (hnot hg.1.2)
    · have := h.held a g hg.1.1
      have := hg.1.2
      tauto
    · tauto

/-! ### Every run -/

/-- Publishing moves the epoch on by one. -/
theorem publish_epoch {m : Publications} (hwrap : m.writeEpoch + 1 < 2 ^ 64) {address stop : ℕ}
    (domain : MemoryOrderingDomain) (hstop : stop ≤ physicalMemorySize) (hle : address ≤ stop) :
    (m.publish address stop domain hstop hle).1.writeEpoch = m.writeEpoch + 1 ∧
      (m.publish address stop domain hstop hle).2 = m.writeEpoch + 1 :=
  ⟨nextEpoch_eq hwrap, nextEpoch_eq hwrap⟩

/-- A CPU write is published. -/
theorem Current.publish (h : s.Current) (hwrap : s.memory.writeEpoch + 1 < 2 ^ 64)
    {address stop : ℕ} (domain : MemoryOrderingDomain) (hstop : stop ≤ physicalMemorySize)
    (hle : address ≤ stop) :
    Current { s with
      memory := (s.memory.publish address stop domain hstop hle).1
      history := s.history ++ [⟨address, stop - address, s.memory.nextEpoch⟩] } := by
  have hepoch := (publish_epoch hwrap domain hstop hle).1
  refine h.record (h.recorded.publish hwrap domain hstop hle fun w hw => List.mem_singleton.mp hw)
    (by omega) (fun w hw => ?_) fun p hp => .inl hp
  obtain rfl := List.mem_singleton.mp hw
  have := nextEpoch_eq hwrap
  simp only
  omega

/-- The bytes of a read-back are written to memory. -/
theorem Current.writeBack (h : s.Current) (hwrap : s.memory.writeEpoch + 1 < 2 ^ 64)
    {safe : GpuReadbackRange} (hsafe : safe ∈ s.prepared) : (s.writeBack safe).Current := by
  unfold Mirror.writeBack
  split_ifs with hstop
  · have hle : safe.start ≤ safe.stop := Nat.le_add_right _ _
    obtain ⟨hepoch, hown⟩ := publish_epoch hwrap .device hstop hle
    set published := s.memory.publish safe.start safe.stop .device hstop hle
    have hrecorded : Recorded published.1 (s.history ++ []) :=
      h.recorded.publish hwrap .device hstop hle (by simp)
    have hback : ∀ p ∈ (safe, published.2) :: s.writtenBack, p ∈ s.writtenBack ∨
        (p.1 ∈ s.prepared ∧ s.memory.writeEpoch < p.2 ∧ p.2 ≤ published.1.writeEpoch ∧
          ([] : List CpuWrite) = []) := by
      intro p hp
      rcases List.mem_cons.mp hp with rfl | hp
      · exact .inr ⟨hsafe, by simp only; omega, by simp only; omega, rfl⟩
      · exact .inl hp
    have hnext := h.record hrecorded (by omega) (by simp) hback
    simpa only [List.append_nil] using hnext
  · exact h

theorem Current.nativeStore (h : s.Current) (page : ℕ) :
    Current { s with memory := s.memory.nativeStore page } := by
  unfold Publications.nativeStore
  split_ifs with hpage
  · obtain ⟨hslots, hbound, hjournal, hpages, hnative⟩ := h.recorded
    refine ⟨h.shaped, ⟨hslots, hbound, hjournal, hpages, fun p hp => ?_⟩, h.epoch, h.valid, h.dirty,
      h.held, h.prepared, h.written⟩
    rcases List.mem_cons.mp hp with rfl | hp
    · exact hpage
    · exact hnative p hp
  · exact h

theorem Current.cpuWrite (h : s.Current) (address width : BitVec 32)
    (domain : MemoryOrderingDomain) (hcounts : s.Counts (.cpuWrite address width domain)) :
    (s.cpuWrite address width domain).Current := by
  unfold Mirror.cpuWrite
  by_cases hempty : width.toNat = 0 ∨ physicalMemorySize ≤ address.toNat
  · rw [if_pos hempty]
    exact h.collect fun hne => hcounts (.inr hne)
  · rw [if_neg hempty]
    have hdraws : width.toNat ≠ 0 ∧ address.toNat < physicalMemorySize := by omega
    have hmark : s.memory.markWrite address width domain =
        s.memory.publish address.toNat (min (address.toNat + width.toNat) physicalMemorySize) domain
          (Nat.min_le_right _ _) (by omega) := by
      rw [Publications.markWrite, dif_neg hempty]
    rw [hmark]
    exact h.publish (hcounts (.inl hdraws)) domain _ _

/-- **A step that does not wrap the epoch around keeps the mirror current.** -/
theorem step_current (h : s.Current) (op : MirrorOp) (hcounts : s.Counts op) :
    (s.step op).1.Current := by
  cases op with
  | cpuWrite address width domain => exact h.cpuWrite address width domain hcounts
  | cpuWriteAll => exact h.publish (hcounts trivial) .normal le_rfl (Nat.zero_le _)
  | nativeStore page => exact h.nativeStore page
  | planUpload address size maxRangeBytes usage =>
      rw [step]
      simp only [GpuCoherency.planUpload_fst]
      exact (h.ingestAll hcounts maxRangeBytes).requestIf _ _ _ _
  | upload range copied =>
      rw [step]
      split_ifs
      · exact h.upload range copied
      · exact h
  | gpuWrite address size => exact h.gpuWrite address size
  | planReadback address size maxRangeBytes usage =>
      rw [step]
      simp only [GpuCoherency.planReadback_fst]
      exact (h.ingestAll hcounts maxRangeBytes).requestIf _ _ _ _
  | prepare planned maxRangeBytes =>
      rw [step]
      split_ifs
      · refine (h.ingestAll hcounts maxRangeBytes).prepare fun safe hsafe => ?_
        obtain ⟨hstop, hbytes⟩ := GpuCoherency.prepareGpuDownload_spec h.shaped s.memory planned
          maxRangeBytes safe hsafe
        have hsize : (s.coherency.ingestAll s.memory maxRangeBytes).size = s.coherency.size :=
          GpuCoherency.ingestCpuWrites_size h.shaped _ _ 0 maxRangeBytes.toNat
        exact ⟨hstop.trans_eq (by rw [hsize]), fun a ha => ⟨_, hbytes a ha⟩⟩
      · exact h
  | writeBack safe =>
      rw [step]
      split_ifs with hsafe
      · exact h.writeBack (hcounts trivial) hsafe
      · exact h
  | commitDownload safe publicationEpoch =>
      rw [step]
      split_ifs with hmem
      · exact h.commitDownload hmem
      · exact h

/-- A mirror is current after `reset`. -/
theorem start_current (size : BitVec 32) (cpuInitiallyDirty : Bool)
    (topology : GpuMemoryTopology) : (start size cpuInitiallyDirty topology).Current := by
  have hmaps := GpuCoherency.reset_maps size cpuInitiallyDirty topology
  refine ⟨hmaps.shaped, recorded_init, le_rfl, fun a ha => ?_, fun a g hg => ?_, fun a g hg => ?_,
    by simp [start], by simp [start]⟩
  · exact ((hmaps.deviceValid a).mp ha).elim
  · exact ((hmaps.gpuDirty a g).mp hg).elim
  · exact ((hmaps.gpuDirty a g).mp hg).elim

theorem Current.fresh (h : s.Current) : s.Fresh :=
  fun a ha _ => h.valid a ha

/-- What is prepared was not written by the CPU since. -/
theorem Current.safe (h : s.Current) (planned : GpuReadbackRange) (maxRangeBytes : BitVec 32)
    (hcounts : s.Counts (.prepare planned maxRangeBytes)) : s.Safe planned maxRangeBytes := by
  intro safe hsafe a ha i w hi hw hle
  obtain ⟨-, hbytes⟩ := GpuCoherency.prepareGpuDownload_spec h.shaped s.memory planned maxRangeBytes
    safe hsafe
  refine (h.ingestAll hcounts maxRangeBytes).dirty a planned.label (hbytes a ha) i w hi hw ?_
  refine hle.trans ?_
  have hepoch := s.coherency.ingestCpuWrites_epoch s.memory.collectCpuDirtyPages
    s.memory.currentEpoch.2 0 maxRangeBytes.toNat
  exact (le_max_right _ _).trans_eq hepoch.symm

/-- **The device mirror hides no CPU write and overwrites none.**  In every run in
which the 64-bit epoch does not wrap around, the device copy of every byte that is
device-valid and not GPU-dirty includes the last CPU write to it up to the
synchronized epoch, and no byte that `prepare_gpu_download` returns was written by
the CPU, up to the boundary it takes, after the GPU write of the planned
generation. -/
theorem mirror_hides_no_write (size : BitVec 32) (cpuInitiallyDirty : Bool)
    (topology : GpuMemoryTopology) (ops : List MirrorOp)
    (h : Transition.Along step Counts (start size cpuInitiallyDirty topology) ops) :
    ((start size cpuInitiallyDirty topology).after ops).Fresh ∧
      ∀ planned maxRangeBytes,
        ((start size cpuInitiallyDirty topology).after ops).Counts
          (.prepare planned maxRangeBytes) →
        ((start size cpuInitiallyDirty topology).after ops).Safe planned maxRangeBytes := by
  have hcurrent := Transition.invariant_along (I := Current)
    (fun s op hs hop => step_current hs op hop) (start size cpuInitiallyDirty topology) ops
    (start_current size cpuInitiallyDirty topology) h
  exact ⟨hcurrent.fresh, hcurrent.safe⟩

/-- A step gives at most one epoch out. -/
theorem step_epoch_le (s : Mirror) (op : MirrorOp) :
    (s.step op).1.memory.writeEpoch ≤ s.memory.writeEpoch + 1 := by
  have hnext : s.memory.nextEpoch ≤ s.memory.writeEpoch + 1 := by
    unfold Publications.nextEpoch
    split_ifs
    · omega
    · exact Nat.mod_le _ _
  have hcollect : s.memory.collectCpuDirtyPages.writeEpoch ≤ s.memory.writeEpoch + 1 := by
    unfold Publications.collectCpuDirtyPages
    split_ifs
    · exact Nat.le_succ _
    · exact hnext
  cases op with
  | cpuWrite address width domain =>
      rw [step, cpuWrite, Publications.markWrite]
      split_ifs
      · exact hcollect
      · exact hnext
  | cpuWriteAll => exact hnext
  | nativeStore page =>
      rw [step, Publications.nativeStore]
      split_ifs <;> exact Nat.le_succ _
  | planUpload address size maxRangeBytes usage => exact hcollect
  | upload range copied =>
      rw [step]
      split_ifs <;> exact Nat.le_succ _
  | gpuWrite address size => exact Nat.le_succ _
  | planReadback address size maxRangeBytes usage => exact hcollect
  | prepare planned maxRangeBytes =>
      rw [step]
      split_ifs
      · exact hcollect
      · exact Nat.le_succ _
  | writeBack safe =>
      rw [step, writeBack]
      split_ifs
      · exact hnext
      · exact Nat.le_succ _
      · exact Nat.le_succ _
  | commitDownload safe publicationEpoch =>
      rw [step]
      split_ifs <;> exact Nat.le_succ _

/-- Runs that are shorter than the epochs are many do not wrap around. -/
theorem counts_of_length (ops : List MirrorOp)
    (h : s.memory.writeEpoch + ops.length < 2 ^ 64) : Transition.Along step Counts s ops := by
  induction ops generalizing s with
  | nil => trivial
  | cons op ops ih =>
      rw [List.length_cons] at h
      have := s.step_epoch_le op
      exact ⟨fun _ => by omega, ih (by omega)⟩

/-- Bytes that are uploaded, rendered, stored to, and read back. -/
theorem mirror_hides_no_write_readback :
    ((start 0x2000 true .discreteMirror).after [.cpuWrite 0 4 .normal,
      .planUpload 0 8 0 .generic, .upload ⟨0, 8, ()⟩ true, .gpuWrite 4 4, .cpuWrite 6 1 .normal,
      .planReadback 0 16 0 .renderReadback, .prepare ⟨4, 2, 1⟩ 0, .writeBack ⟨4, 2, 1⟩,
      .commitDownload ⟨4, 2, 1⟩ 3]).Fresh :=
  (mirror_hides_no_write 0x2000 true .discreteMirror _ (counts_of_length _ (by decide))).1

/-! ### The epoch wraps around -/

/-- A store to page 1. -/
def storeToPageOne : MirrorOp :=
  .cpuWrite 0x1000 4 .normal

/-- Such a store changes neither ownership nor plans, and moves the epoch on. -/
theorem storeToPageOne_step (hwrap : s.memory.writeEpoch + 1 < 2 ^ 64) :
    (s.step storeToPageOne).1.memory.writeEpoch = s.memory.writeEpoch + 1 ∧
      (s.step storeToPageOne).1.memory.nativeDirty = s.memory.nativeDirty ∧
      (s.step storeToPageOne).1.coherency = s.coherency ∧
      (s.step storeToPageOne).1.uploads = s.uploads := by
  have hnot : ¬((4 : BitVec 32).toNat = 0 ∨ physicalMemorySize ≤ (0x1000 : BitVec 32).toNat) := by
    decide
  have hnext := nextEpoch_eq hwrap
  simp only [step, storeToPageOne, cpuWrite, if_neg hnot, Publications.markWrite, dif_neg hnot]
  exact ⟨hnext, rfl, trivial, trivial⟩

theorem storeToPageOne_run (n : ℕ) (hwrap : s.memory.writeEpoch + n < 2 ^ 64) :
    (s.after (List.replicate n storeToPageOne)).memory.writeEpoch = s.memory.writeEpoch + n ∧
      (s.after (List.replicate n storeToPageOne)).memory.nativeDirty = s.memory.nativeDirty ∧
      (s.after (List.replicate n storeToPageOne)).coherency = s.coherency ∧
      (s.after (List.replicate n storeToPageOne)).uploads = s.uploads := by
  induction n generalizing s with
  | zero => exact ⟨rfl, rfl, rfl, rfl⟩
  | succ n ih =>
      obtain ⟨hepoch, hnative, hcoherency, huploads⟩ :=
        storeToPageOne_step (s := s) (by omega)
      rw [List.replicate_succ]
      obtain ⟨hepoch', hnative', hcoherency', huploads'⟩ :=
        @ih (s.step storeToPageOne).1 (by omega)
      refine ⟨?_, hnative'.trans hnative, hcoherency'.trans hcoherency, huploads'.trans huploads⟩
      have heq : s.after (storeToPageOne :: List.replicate n storeToPageOne) =
          (s.step storeToPageOne).1.after (List.replicate n storeToPageOne) := rfl
      rw [heq, hepoch', hepoch]
      omega

/-- After the last epoch, an upload is valid for good: a store to its bytes gets the
epoch 1, which is older than the synchronized one. -/
theorem not_fresh_of_wrapped (hshaped : s.coherency.Shaped)
    (hepoch : s.memory.writeEpoch = 2 ^ 64 - 1) (hnative : s.memory.nativeDirty = [])
    (hgpu : s.coherency.gpuDirty = []) (hsize : s.coherency.size = 4)
    (hupload : ⟨0, 4, ()⟩ ∈ s.uploads) :
    ¬(s.after [.planUpload 0 0 0 .generic, .upload ⟨0, 4, ()⟩ true,
      .cpuWrite 0 4 .normal]).Fresh := by
  set t := (s.step (.planUpload 0 0 0 .generic)).1 with ht
  have hcollect : s.memory.collectCpuDirtyPages = s.memory := by
    rw [Publications.collectCpuDirtyPages, if_pos hnative]
  have hfst : t.coherency = s.coherency.ingestAll s.memory 0 := by
    rw [ht, step]
    simp only [GpuCoherency.planUpload_fst]
    exact if_pos rfl
  have hmaps := GpuCoherency.ingestAll_maps hshaped s.memory 0
  rw [← hfst] at hmaps
  have hsync : 1 ≤ t.coherency.synchronizedEpoch := by
    have hle : s.memory.currentEpoch.2 ≤ t.coherency.synchronizedEpoch := by
      rw [hfst]
      exact (le_max_right _ _).trans_eq (s.coherency.ingestCpuWrites_epoch
        s.memory.collectCpuDirtyPages s.memory.currentEpoch.2 0 (0 : BitVec 32).toNat).symm
    rw [Publications.currentEpoch, hcollect, hepoch] at hle
    omega
  have htmem : t.memory = s.memory := hcollect
  have htsize : t.coherency.size = 4 := by
    rw [hfst, ← hsize]
    exact GpuCoherency.ingestCpuWrites_size hshaped _ _ 0 _
  have htupload : ⟨0, 4, ()⟩ ∈ t.uploads := List.mem_append_right _ hupload
  -- the upload
  have hvalid := GpuCoherency.commitCpuUpload_maps hmaps.shaped 0 4
  have hholds : (t.coherency.clamp (0 : BitVec 32).toNat (4 : BitVec 32).toNat).Holds 0 := by
    rw [GpuCoherency.clamp_holds, htsize]
    decide
  -- the store
  have hnext : t.memory.nextEpoch = 1 := by
    rw [htmem, Publications.nextEpoch, hepoch]
    decide
  have hnot : ¬((4 : BitVec 32).toNat = 0 ∨ physicalMemorySize ≤ (0 : BitVec 32).toNat) := by
    decide
  have hrun : s.after [.planUpload 0 0 0 .generic, .upload ⟨0, 4, ()⟩ true, .cpuWrite 0 4 .normal] =
      (t.upload ⟨0, 4, ()⟩ true).cpuWrite 0 4 .normal := by
    have hsecond : (t.step (.upload ⟨0, 4, ()⟩ true)).1 = t.upload ⟨0, 4, ()⟩ true :=
      if_pos htupload
    rw [← hsecond]
    rfl
  rw [hrun, cpuWrite, if_neg hnot]
  intro hfresh
  have hincluded := hfresh 0 ((hvalid.deviceValid 0).mpr (.inr hholds)) ?_ t.history.length
    ⟨0, 4, 1⟩ ?_ ?_ ?_
  · have hdevice : (t.upload ⟨0, 4, ()⟩ true).device 0 = t.history.length := by
      simp only [upload, copy]
      rw [if_pos (by simpa using hholds)]
      exact if_pos trivial
    have heq : ((t.upload ⟨0, 4, ()⟩ true).device 0) ≤ t.history.length := hdevice.le
    exact absurd hincluded heq.not_gt
  · intro hin
    obtain ⟨g, hg⟩ := in_iff_exists_at.mp hin
    have hg := (hmaps.gpuDirty 0 g).mp ((hvalid.gpuDirty 0 g).mp hg)
    rw [hgpu] at hg
    exact not_at_nil hg.1
  · have hlast : (t.history ++ [(⟨0, 4, t.memory.nextEpoch⟩ : CpuWrite)])[t.history.length]? =
        some ⟨0, 4, 1⟩ := by
      rw [hnext]
      simp
    exact hlast
  · decide
  · exact hsync.trans_eq (by simp [upload, GpuCoherency.commitCpuUpload])

theorem after_cons (s : Mirror) (op : MirrorOp) (ops : List MirrorOp) :
    s.after (op :: ops) = (s.step op).1.after ops :=
  rfl

/-- All epochs are given out, and then one more. -/
theorem not_fresh_after_stores (hcurrent : s.Current) (hzero : s.memory.writeEpoch = 0)
    (hnative : s.memory.nativeDirty = []) (hgpu : s.coherency.gpuDirty = [])
    (hsize : s.coherency.size = 4) (hupload : ⟨0, 4, ()⟩ ∈ s.uploads) {n : ℕ}
    (hn : n = 2 ^ 64 - 1) :
    ¬(s.after (List.replicate n storeToPageOne ++
      [.planUpload 0 0 0 .generic, .upload ⟨0, 4, ()⟩ true, .cpuWrite 0 4 .normal])).Fresh := by
  obtain ⟨hepoch, hnative', hcoherency, huploads⟩ := storeToPageOne_run (s := s) n (by omega)
  rw [hzero, Nat.zero_add] at hepoch
  rw [after, Transition.run_append]
  refine not_fresh_of_wrapped ?_ (hepoch.trans hn) (hnative'.trans hnative)
    ((congrArg GpuCoherency.gpuDirty hcoherency).trans hgpu)
    ((congrArg GpuCoherency.size hcoherency).trans hsize) ?_
  · exact hcoherency ▸ hcurrent.shaped
  · exact huploads ▸ hupload

/-- **After 2^64 published writes a device copy hides a newer one.**  The last store
has the epoch 1, far below the synchronized epoch, and is never ingested. -/
theorem wrapped_epoch_hides_write :
    ¬((start 4 false .discreteMirror).after (.planUpload 0 4 0 .generic ::
      (List.replicate (2 ^ 64 - 1) storeToPageOne ++
        [.planUpload 0 0 0 .generic, .upload ⟨0, 4, ()⟩ true, .cpuWrite 0 4 .normal]))).Fresh := by
  rw [after_cons]
  refine not_fresh_after_stores ?_ ?_ ?_ ?_ ?_ ?_ rfl
  · exact step_current (start_current 4 false .discreteMirror) _ fun h => absurd rfl h
  · decide
  · decide
  · decide
  · decide
  · have hplan : ((start 4 false .discreteMirror).coherency.planUpload .init 0 4 0 .generic).2.ranges =
        splitRanges (addAll [] [⟨0, 4, ()⟩]) 0 := rfl
    have huploads : ((start 4 false .discreteMirror).step (.planUpload 0 4 0 .generic)).1.uploads =
        ((start 4 false .discreteMirror).coherency.planUpload .init 0 4 0 .generic).2.ranges ++ [] :=
      rfl
    rw [huploads, hplan]
    simp [addAll, splitRanges, settle]

end Mirror

end Memory
end XenonRecomp
