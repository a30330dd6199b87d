/-
# Ownership of physical memory between CPU and GPU

`GuestMemoryGpuCoherency` of `include/xenon/memory/gpu_coherency.hpp`: which
bytes the CPU wrote last (`cpu_dirty_`, with their ordering domains in
`cpu_visibility_`), which the GPU (`gpu_dirty_`, with generations), which the
device copy holds (`device_valid_`), and which were asked for or touched.  All
six are lists of ranges, which are labelled runs here: without a label, with an
ordering domain or with a generation.

Addresses and sizes are numbers, and every `static_cast<std::uint32_t>` is a
reduction modulo `2 ^ 32`; the sums the source forms in 64 bits do not wrap.
`std::lower_bound` on a list partitioned by its predicate is `dropWhile`, and
`std::sort` by address is `insertionSort`.
-/

import XenonRecomp.Memory.Publications

namespace XenonRecomp
namespace Memory

open Library Library.Runs

/-- `static_cast<std::uint32_t>`. -/
def u32 (x : ℕ) : ℕ :=
  x % 2 ^ 32

/-- `GpuCoherencyRange`. -/
abbrev GpuCoherencyRange := Run Unit

/-- `GpuCpuVisibilityRange`. -/
abbrev GpuCpuVisibilityRange := Run MemoryOrderingDomain

/-- `GpuReadbackRange`: the label is the generation. -/
abbrev GpuReadbackRange := Run ℕ

/-! ### Lists of ranges -/

section Ranges

variable {β : Type}

/-- `range` with the bytes from `first` to `last`. -/
def piece (range : Run β) (first last : ℕ) : Run β :=
  { range with start := u32 first, size := u32 (last - first) }

/-- `subtract`. -/
def subtract (ranges : List (Run β)) (removed : GpuCoherencyRange) : List (Run β) :=
  if removed.size = 0 then ranges
  else
    ranges.flatMap fun range =>
      if range.stop ≤ removed.start ∨ removed.stop ≤ range.start then [range]
      else
        (if range.start < removed.start then
          [{ range with size := removed.start - range.start }] else []) ++
        (if removed.stop < range.stop then [piece range removed.stop range.stop] else [])

/-- The loop of `add` with its variables `start`, `end` and `emitted`. -/
def addLoop (start stop : ℕ) (emitted : Bool) : List GpuCoherencyRange → List GpuCoherencyRange
  | [] => if emitted then [] else [⟨u32 start, u32 (stop - start), ()⟩]
  | range :: ranges =>
      if range.stop < start then range :: addLoop start stop emitted ranges
      else if stop < range.start then
        (if emitted then [] else [⟨u32 start, u32 (stop - start), ()⟩]) ++
          range :: addLoop start stop true ranges
      else addLoop (min start range.start) (max stop range.stop) emitted ranges

/-- `add`. -/
def add (ranges : List GpuCoherencyRange) (inserted : GpuCoherencyRange) :
    List GpuCoherencyRange :=
  if inserted.size = 0 then ranges else addLoop inserted.start inserted.stop false ranges

/-- Ranges that touch or overlap are joined. -/
def adjoins (back range : GpuCoherencyRange) : Bool :=
  range.start ≤ back.stop

/-- Ranges that touch and have one label are joined. -/
def continues [DecidableEq β] (back range : Run β) : Bool :=
  back.stop = range.start ∧ back.label = range.label

/-- The new size of a range that is joined with a later one. -/
def reach (back range : Run β) : ℕ :=
  u32 (max back.stop range.stop - back.start)

/-- The new size where the later range only adjoins. -/
def sumSize (back range : Run β) : ℕ :=
  u32 (back.size + range.size)

/-- `add_all`. -/
def addAll (ranges inserted : List GpuCoherencyRange) : List GpuCoherencyRange :=
  if inserted = [] then ranges
  else coalesce adjoins reach (ranges.merge inserted fun a b => a.start ≤ b.start)

/-- The inner loop of `subtract_all`: what is left of `range` from `cursor` on. -/
def carve (range : Run β) (cursor : ℕ) : List GpuCoherencyRange → List (Run β)
  | [] => if cursor < range.stop then [piece range cursor range.stop] else []
  | removed :: rest =>
      if cursor < range.stop then
        if range.stop ≤ removed.start then [piece range cursor range.stop]
        else
          (if cursor < removed.start then [piece range cursor removed.start] else []) ++
            carve range (max cursor removed.stop) rest
      else []

/-- The loop of `subtract_all` over the ranges. -/
def subtractLoop : List (Run β) → List GpuCoherencyRange → List (Run β)
  | [], _ => []
  | range :: ranges, removed =>
      let rest := removed.dropWhile (·.stop ≤ range.start)
      carve range range.start rest ++ subtractLoop ranges rest

/-- `subtract_all`. -/
def subtractAll (ranges : List (Run β)) (removed : List GpuCoherencyRange) : List (Run β) :=
  if removed = [] then ranges else subtractLoop ranges removed

/-- The part of `range` inside `query`. -/
def clip (query : GpuCoherencyRange) (range : Run β) : List (Run β) :=
  if max range.start query.start < min range.stop query.stop then
    [piece range (max range.start query.start) (min range.stop query.stop)]
  else []

/-- `intersections` of ranges without a label. -/
def intersections (ranges : List GpuCoherencyRange) (query : GpuCoherencyRange) :
    List GpuCoherencyRange :=
  if query.size = 0 then []
  else ((ranges.dropWhile (·.stop ≤ query.start)).takeWhile (·.start < query.stop)).flatMap
    (clip query)

/-- `intersections` of ranges with generations. -/
def intersectionsReadback (ranges : List GpuReadbackRange) (query : GpuCoherencyRange) :
    List GpuReadbackRange :=
  if query.size = 0 then []
  else
    ((ranges.takeWhile fun range => range.stop ≤ query.start ∨ range.start < query.stop).filter
      fun range => query.start < range.stop).flatMap (clip query)

/-- `intersections_generation`. -/
def intersectionsGeneration (ranges : List GpuReadbackRange) (query : GpuCoherencyRange)
    (generation : ℕ) : List GpuReadbackRange :=
  (intersectionsReadback ranges query).filter (·.label = generation)

/-- The loop of `uncovered_ranges` from `cursor` on. -/
def uncoveredLoop (query : GpuCoherencyRange) (cursor : ℕ) :
    List GpuCoherencyRange → List GpuCoherencyRange
  | [] => if cursor < query.stop then [piece query cursor query.stop] else []
  | range :: ranges =>
      if range.start < query.stop then
        (if cursor < range.start then [piece query cursor range.start] else []) ++
          if query.stop ≤ max cursor range.stop then []
          else uncoveredLoop query (max cursor range.stop) ranges
      else if cursor < query.stop then [piece query cursor query.stop] else []

/-- `uncovered_ranges`. -/
def uncoveredRanges (covered : List GpuCoherencyRange) (query : GpuCoherencyRange) :
    List GpuCoherencyRange :=
  if query.size = 0 then []
  else uncoveredLoop query query.start (covered.dropWhile (·.stop ≤ query.start))

/-- `split_ranges`. -/
def splitRanges (ranges : List (Run β)) (maximum : ℕ) : List (Run β) :=
  if maximum = 0 then ranges
  else
    ranges.flatMap fun range =>
      (List.range ((range.size + maximum - 1) / maximum)).map fun i =>
        { range with
          start := u32 (range.start + i * maximum)
          size := u32 (min maximum (range.size - i * maximum)) }

/-- `assign_cpu_visibility_range`. -/
def assignCpuVisibilityRange (ranges : List GpuCpuVisibilityRange)
    (inserted : GpuCpuVisibilityRange) : List GpuCpuVisibilityRange :=
  if inserted.size = 0 then ranges
  else
    let left := subtract ranges ⟨inserted.start, inserted.size, ()⟩
    coalesce continues sumSize
      (left.takeWhile (·.start < inserted.start) ++
        inserted :: left.dropWhile (·.start < inserted.start))

/-- `assign_gpu_range`. -/
def assignGpuRange (ranges : List GpuReadbackRange) (inserted : GpuReadbackRange) :
    List GpuReadbackRange :=
  if inserted.size = 0 then ranges
  else
    coalesce continues sumSize
      ((subtract ranges ⟨inserted.start, inserted.size, ()⟩ ++ [inserted]).insertionSort
        fun a b => a.start ≤ b.start)

/-- The bytes of `range` that `subtract_generation` takes, and what it leaves. -/
def takeGeneration (removed : GpuCoherencyRange) (generation : ℕ) (range : GpuReadbackRange) :
    ℕ × List GpuReadbackRange :=
  if range.label ≠ generation ∨ range.stop ≤ removed.start ∨ removed.stop ≤ range.start then
    (0, [range])
  else
    let first := max range.start removed.start
    let last := min range.stop removed.stop
    (last - first,
      (if range.start < first then [{ range with size := u32 (first - range.start) }] else []) ++
      (if last < range.stop then [piece range last range.stop] else []))

/-- `subtract_generation`: the ranges and the number of bytes removed. -/
def subtractGeneration (ranges : List GpuReadbackRange) (removed : GpuCoherencyRange)
    (generation : ℕ) : List GpuReadbackRange × ℕ :=
  if removed.size = 0 then (ranges, 0)
  else
    (ranges.flatMap fun range => (takeGeneration removed generation range).2,
      u32 (ranges.map fun range => (takeGeneration removed generation range).1).sum)

/-- `domain_strength`. -/
def domainStrength : MemoryOrderingDomain → ℕ
  | .normal => 0
  | .writeCombined => 1
  | .cacheInhibited => 2
  | .device => 3

/-- `strongest_visibility_domain`, from the domain found so far. -/
def strongestVisibilityDomain (strongest : MemoryOrderingDomain) :
    List GpuCpuVisibilityRange → List GpuCoherencyRange → MemoryOrderingDomain
  | _, [] => strongest
  | visibility, upload :: uploads =>
      let rest := visibility.dropWhile (·.stop ≤ upload.start)
      let found := (rest.takeWhile (·.start < upload.stop)).foldl
        (fun strongest range =>
          if domainStrength strongest < domainStrength range.label then range.label else strongest)
        strongest
      strongestVisibilityDomain found rest uploads

end Ranges

/-! ### Writes in one batch -/

/-- The loop of `last_writer_runs` over the covered ranges that a write adjoins:
the bytes nobody covers yet, the joined range, and the ranges behind it. -/
def sweep (domain : MemoryOrderingDomain) (stop : ℕ) (cursor mergedStart mergedEnd : ℕ) :
    List (ℕ × ℕ) → List GpuCpuVisibilityRange × (ℕ × ℕ) × List (ℕ × ℕ)
  | [] =>
      (if cursor < stop then [⟨u32 cursor, u32 (stop - cursor), domain⟩] else [],
        (mergedStart, mergedEnd), [])
  | next :: rest =>
      if next.1 ≤ stop then
        let (pieces, merged, rest) :=
          sweep domain stop (max cursor next.2) (min mergedStart next.1) (max mergedEnd next.2) rest
        ((if cursor < next.1 then [⟨u32 cursor, u32 (next.1 - cursor), domain⟩] else []) ++ pieces,
          merged, rest)
      else
        (if cursor < stop then [⟨u32 cursor, u32 (stop - cursor), domain⟩] else [],
          (mergedStart, mergedEnd), next :: rest)

/-- One turn of the loop over the writes, newest first: the pieces of the write
and the new `covered`. -/
def coverWrite (covered : List (ℕ × ℕ)) (write : DirtyPhysicalWrite) :
    List GpuCpuVisibilityRange × List (ℕ × ℕ) :=
  let start := write.address
  let stop := start + write.size
  if start = stop then ([], covered)
  else
    -- `upper_bound(start)`, and one step back if the range before it reaches the write.
    let before := covered.takeWhile (·.1 ≤ start)
    let after := covered.dropWhile (·.1 ≤ start)
    let kept := if (before.getLast?.any fun last => start ≤ last.2) then before.dropLast else before
    let next := before.drop kept.length ++ after
    let (pieces, merged, rest) := sweep write.orderingDomain stop start start stop next
    (pieces, kept ++ merged :: rest)

/-- The pieces of the writes of a list, newest first. -/
def coverWrites : List (ℕ × ℕ) → List DirtyPhysicalWrite → List GpuCpuVisibilityRange
  | _, [] => []
  | covered, write :: writes =>
      (coverWrite covered write).1 ++ coverWrites (coverWrite covered write).2 writes

/-- Pieces that overlap, or touch and have one domain, are joined. -/
def overlapsOrContinues (back range : GpuCpuVisibilityRange) : Bool :=
  range.start ≤ back.stop ∧ (range.start < back.stop ∨ range.label = back.label)

/-- The pieces of `last_writer_runs`, sorted. -/
def writerPieces (writes : List DirtyPhysicalWrite) : List GpuCpuVisibilityRange :=
  let oneDomain := writes.all fun write =>
    (writes.head?.map (·.orderingDomain)) = some write.orderingDomain
  let pieces :=
    if oneDomain then (writes.filter (·.size ≠ 0)).map (·.run) else coverWrites [] writes.reverse
  pieces.insertionSort fun a b => a.start ≤ b.start

/-- `last_writer_runs`. -/
def lastWriterRuns (writes : List DirtyPhysicalWrite) : List GpuCpuVisibilityRange :=
  coalesce overlapsOrContinues reach (writerPieces writes)

/-! ### The state -/

/-- `GpuMemoryTopology`. -/
inductive GpuMemoryTopology where
  | discreteMirror
  | sharedHostVisible
deriving DecidableEq, Repr

/-- `GpuSynchronizationAction`. -/
inductive GpuSynchronizationAction where
  | copy
  | visibilityOnly
deriving DecidableEq, Repr

/-- `GpuRangeUsage`. -/
inductive GpuRangeUsage where
  | generic
  | texture
  | vertexBuffer
  | indexBuffer
  | shader
  | commandData
  | memoryExport
  | renderReadback
  | unrestricted
deriving DecidableEq, Repr

/-- `GpuUploadPlan`. -/
structure GpuUploadPlan where
  throughEpoch : ℕ
  exactHistory : Bool
  action : GpuSynchronizationAction
  usage : GpuRangeUsage
  sourceDomain : MemoryOrderingDomain
  ranges : List GpuCoherencyRange
deriving DecidableEq, Repr

/-- `GpuReadbackPlan`. -/
structure GpuReadbackPlan where
  throughEpoch : ℕ
  exactHistory : Bool
  action : GpuSynchronizationAction
  usage : GpuRangeUsage
  ranges : List GpuReadbackRange
deriving DecidableEq, Repr

/-- The fields of `GuestMemoryGpuCoherency`. -/
structure GpuCoherency where
  size : BitVec 32
  topology : GpuMemoryTopology
  synchronizedEpoch : ℕ
  gpuGeneration : ℕ
  cpuDirty : List GpuCoherencyRange
  cpuVisibility : List GpuCpuVisibilityRange
  gpuDirty : List GpuReadbackRange
  deviceValid : List GpuCoherencyRange
  requested : List GpuCoherencyRange
  touchedPages : List GpuCoherencyRange
deriving DecidableEq, Repr

namespace GpuCoherency

/-- A new object, and `clear`. -/
def init : GpuCoherency :=
  ⟨0, .discreteMirror, 0, 0, [], [], [], [], [], []⟩

/-- `reset`. -/
def reset (size : BitVec 32) (cpuInitiallyDirty : Bool) (topology : GpuMemoryTopology) :
    GpuCoherency :=
  let dirty := cpuInitiallyDirty && size ≠ 0
  { init with
    size := size
    topology := topology
    cpuDirty := if dirty then [⟨0, size.toNat, ()⟩] else []
    cpuVisibility := if dirty then [⟨0, size.toNat, .normal⟩] else [] }

/-- `clamp`. -/
def clamp (s : GpuCoherency) (address size : ℕ) : GpuCoherencyRange :=
  if size = 0 ∨ s.size.toNat ≤ address then ⟨0, 0, ()⟩
  else ⟨address, u32 (min (address + size) s.size.toNat - address), ()⟩

/-- The pages of a range, up to the end of memory. -/
def pagesOf (s : GpuCoherency) (range : GpuCoherencyRange) : ℕ × ℕ :=
  (range.start / 0x1000 * 0x1000,
    min s.size.toNat ((range.stop + 0x1000 - 1) / 0x1000 * 0x1000))

/-- `touch_pages_unlocked`. -/
def touchPages (s : GpuCoherency) (range : GpuCoherencyRange) : GpuCoherency :=
  if range.size = 0 then s
  else
    let (first, stop) := s.pagesOf range
    if first < stop then
      { s with touchedPages := add s.touchedPages ⟨first, u32 (stop - first), ()⟩ }
    else s

/-- `mark_cpu_write_unlocked`. -/
def markCpuWrite (s : GpuCoherency) (address size : ℕ) (domain : MemoryOrderingDomain) :
    GpuCoherency :=
  let range := s.clamp address size
  if range.size = 0 then s
  else
    { s.touchPages range with
      gpuDirty := subtract s.gpuDirty range
      deviceValid := subtract s.deviceValid range
      cpuDirty := add s.cpuDirty range
      cpuVisibility :=
        assignCpuVisibilityRange s.cpuVisibility ⟨range.start, range.size, domain⟩ }

/-- The clamped runs of `mark_cpu_writes_unlocked`, with their domains. -/
def clampedRuns (s : GpuCoherency) (sortedRuns : List GpuCpuVisibilityRange) :
    List GpuCpuVisibilityRange :=
  sortedRuns.filterMap fun run =>
    let range := s.clamp run.start run.size
    if range.size = 0 then none else some ⟨range.start, range.size, run.label⟩

/-- The page ranges of clamped runs. -/
def pageRuns (s : GpuCoherency) (domains : List GpuCpuVisibilityRange) :
    List GpuCoherencyRange :=
  domains.map fun run =>
    let (first, stop) := s.pagesOf ⟨run.start, run.size, ()⟩
    ⟨first, u32 (stop - first), ()⟩

/-- `mark_cpu_writes_unlocked`.  The pages of a clamped run are never empty, so
the loop joins or appends every one of them. -/
def markCpuWrites (s : GpuCoherency) (sortedRuns : List GpuCpuVisibilityRange) : GpuCoherency :=
  let domains := s.clampedRuns sortedRuns
  let runs := coalesce adjoins reach (domains.map fun run => ⟨run.start, run.size, ()⟩)
  let pages := coalesce adjoins reach (s.pageRuns domains)
  if runs = [] then s
  else
    { s with
      touchedPages := addAll s.touchedPages pages
      gpuDirty := subtractAll s.gpuDirty runs
      deviceValid := subtractAll s.deviceValid runs
      cpuDirty := addAll s.cpuDirty runs
      cpuVisibility := coalesce continues sumSize
        ((subtractAll s.cpuVisibility runs).merge domains fun a b => a.start ≤ b.start) }

/-- `ingest_cpu_writes_unlocked`. -/
def ingestCpuWrites (s : GpuCoherency) (memory : Publications)
    (throughEpoch ignoredEpoch maxRangeBytes : ℕ) : GpuCoherency × Bool :=
  if throughEpoch ≤ s.synchronizedEpoch then (s, true)
  else
    match memory.collectExactDirtyWrites s.synchronizedEpoch throughEpoch with
    | some writes =>
        let writes := if ignoredEpoch ≠ 0 then writes.filter (·.epoch ≠ ignoredEpoch) else writes
        ({ s.markCpuWrites (lastWriterRuns writes) with synchronizedEpoch := throughEpoch }, true)
    | none =>
        let pages := collectDirtyRanges memory.pageEpochs s.synchronizedEpoch throughEpoch maxRangeBytes
        ({ s.markCpuWrites (pages.map fun page => ⟨page.1, page.2, .cacheInhibited⟩) with
            synchronizedEpoch := throughEpoch }, false)

/-- `synchronization_action_unlocked`. -/
def synchronizationAction (s : GpuCoherency) : GpuSynchronizationAction :=
  if s.topology = .sharedHostVisible then .visibilityOnly else .copy

/-- Notes what a plan asks for. -/
def request (s : GpuCoherency) (range : GpuCoherencyRange) : GpuCoherency :=
  { s with requested := add s.requested range }.touchPages range

/-- `plan_upload`. -/
def planUpload (s : GpuCoherency) (memory : Publications) (address size maxRangeBytes : BitVec 32)
    (usage : GpuRangeUsage) : GpuCoherency × GpuUploadPlan :=
  let (memory, throughEpoch) := memory.currentEpoch
  let (s', exactHistory) := s.ingestCpuWrites memory throughEpoch 0 maxRangeBytes.toNat
  let plan : GpuUploadPlan :=
    ⟨throughEpoch, exactHistory, s.synchronizationAction, usage, .normal, []⟩
  let range := s'.clamp address.toNat size.toNat
  if range.size = 0 then (s', plan)
  else
    let ranges := addAll (intersections s'.cpuDirty range) (uncoveredRanges s'.deviceValid range)
    (s'.request range,
      { plan with
        sourceDomain := strongestVisibilityDomain .normal s'.cpuVisibility ranges
        ranges := splitRanges ranges maxRangeBytes.toNat })

/-- `commit_cpu_upload`. -/
def commitCpuUpload (s : GpuCoherency) (address size : BitVec 32) : GpuCoherency :=
  let range := s.clamp address.toNat size.toNat
  { s.touchPages range with
    cpuDirty := subtract s.cpuDirty range
    cpuVisibility := subtract s.cpuVisibility range
    deviceValid := add s.deviceValid range }

/-- `rollback_cpu_upload`. -/
def rollbackCpuUpload (s : GpuCoherency) (address size : BitVec 32) : GpuCoherency :=
  let range := s.clamp address.toNat size.toNat
  if range.size = 0 then s
  else
    { s.touchPages range with
      deviceValid := subtract s.deviceValid range
      cpuDirty := add s.cpuDirty range }

/-- The next generation; the 64-bit counter skips zero. -/
def nextGeneration (s : GpuCoherency) : ℕ :=
  if (s.gpuGeneration + 1) % 2 ^ 64 = 0 then 1 else (s.gpuGeneration + 1) % 2 ^ 64

/-- `mark_gpu_write`. -/
def markGpuWrite (s : GpuCoherency) (address size : BitVec 32) : GpuCoherency × ℕ :=
  let range := s.clamp address.toNat size.toNat
  if range.size = 0 then (s, s.gpuGeneration)
  else
    ({ s.touchPages range with
        gpuGeneration := s.nextGeneration
        cpuDirty := subtract s.cpuDirty range
        cpuVisibility := subtract s.cpuVisibility range
        gpuDirty := assignGpuRange s.gpuDirty ⟨range.start, range.size, s.nextGeneration⟩
        deviceValid := add s.deviceValid range }, s.nextGeneration)

/-- `plan_readback`. -/
def planReadback (s : GpuCoherency) (memory : Publications)
    (address size maxRangeBytes : BitVec 32) (usage : GpuRangeUsage) :
    GpuCoherency × GpuReadbackPlan :=
  let (memory, throughEpoch) := memory.currentEpoch
  let (s', exactHistory) := s.ingestCpuWrites memory throughEpoch 0 maxRangeBytes.toNat
  let plan : GpuReadbackPlan := ⟨throughEpoch, exactHistory, s.synchronizationAction, usage, []⟩
  let range := s'.clamp address.toNat size.toNat
  if range.size = 0 then (s', plan)
  else
    (s'.request range,
      { plan with
        ranges := splitRanges (intersectionsReadback s'.gpuDirty range) maxRangeBytes.toNat })

/-- `prepare_gpu_download`. -/
def prepareGpuDownload (s : GpuCoherency) (memory : Publications) (planned : GpuReadbackRange)
    (maxRangeBytes : BitVec 32) : GpuCoherency × List GpuReadbackRange :=
  let (memory, throughEpoch) := memory.currentEpoch
  let s' := (s.ingestCpuWrites memory throughEpoch 0 maxRangeBytes.toNat).1
  (s', splitRanges
    (intersectionsGeneration s'.gpuDirty ⟨planned.start, planned.size, ()⟩ planned.label)
    maxRangeBytes.toNat)

/-- Makes a range device-valid, except where it is CPU-dirty. -/
def validate (s : GpuCoherency) (range : GpuCoherencyRange) : GpuCoherency :=
  { s with
    deviceValid := (intersections s.cpuDirty range).foldl subtract (add s.deviceValid range) }

/-- `commit_gpu_download`. -/
def commitGpuDownload (s : GpuCoherency) (memory : Publications) (planned : GpuReadbackRange)
    (address size : BitVec 32) (publicationEpoch : ℕ) : GpuCoherency × Bool :=
  let range := s.clamp address.toNat size.toNat
  if range.size = 0 then (s, true)
  else
    let (s', exactAcknowledgement) :=
      if publicationEpoch ≠ 0 then
        s.ingestCpuWrites memory publicationEpoch publicationEpoch 0
      else (s, true)
    let (gpuDirty, removed) := subtractGeneration s'.gpuDirty range planned.label
    ({ s' with gpuDirty := gpuDirty }.validate range,
      exactAcknowledgement && removed = range.size)

/-- `mark_gpu_downloaded`. -/
def markGpuDownloaded (s : GpuCoherency) (address size : BitVec 32) : GpuCoherency :=
  let range := s.clamp address.toNat size.toNat
  { s with gpuDirty := subtract s.gpuDirty range }.validate range

end GpuCoherency

end Memory
end XenonRecomp
