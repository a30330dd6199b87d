/-
# Guest memory and its device mirror

`GuestMemoryMirror` of `src/graphics/vulkan/guest_memory_mirror.cpp` keeps a copy
of physical memory on the device and asks `GuestMemoryGpuCoherency` which bytes
to copy.  This module puts the two together with `GuestMemoryCoherency`: CPU
writes are published, plans are made, ranges of any earlier plan are uploaded,
the GPU writes, and GPU bytes are read back, in any order and with any number of
plans outstanding.

What a byte of the device copy holds is described by two counters per byte:
`device` is the number of CPU writes that were in memory when the byte was
copied to the device or written by the GPU, `rendered` the same number for the
GPU write of a generation.  Native stores enter the history of CPU writes when
their pages are given an epoch, which is not before the store.
-/

import XenonRecomp.Memory.GpuOwnership

namespace XenonRecomp
namespace Memory

open Library Library.Runs

/-- A published CPU write: its bytes, and its epoch as the label. -/
abbrev CpuWrite := Run ℕ

/-- The CPU writes of the native stores whose pages are collected. -/
def Publications.collected (m : Publications) : List CpuWrite :=
  m.nativeDirty.map fun page => ⟨page * 0x1000, 0x1000, m.nextEpoch⟩

/-- Guest memory, the ownership of its bytes, and the device copy. -/
structure Mirror where
  memory : Publications
  coherency : GpuCoherency
  /-- The ranges of all upload plans so far. -/
  uploads : List GpuCoherencyRange
  /-- The ranges of all read-back plans so far. -/
  readbacks : List GpuReadbackRange
  /-- The ranges that `prepare_gpu_download` has returned so far. -/
  prepared : List GpuReadbackRange
  /-- The prepared ranges that were written to memory, with the epochs of the
  writes. -/
  writtenBack : List (GpuReadbackRange × ℕ)
  /-- The CPU writes, oldest first. -/
  history : List CpuWrite
  device : ℕ → ℕ
  rendered : ℕ → ℕ → ℕ

/-- What can happen. -/
inductive MirrorOp where
  /-- A store through `mark_write`. -/
  | cpuWrite (address width : BitVec 32) (domain : MemoryOrderingDomain)
  /-- `mark_all_dirty`. -/
  | cpuWriteAll
  /-- A native store to a page. -/
  | nativeStore (page : ℕ)
  | planUpload (address size maxRangeBytes : BitVec 32) (usage : GpuRangeUsage)
  /-- `commit_cpu_upload` of a range of an earlier plan, followed by the copy or,
  if it fails, by `rollback_cpu_upload`. -/
  | upload (range : GpuCoherencyRange) (copied : Bool)
  | gpuWrite (address size : BitVec 32)
  | planReadback (address size maxRangeBytes : BitVec 32) (usage : GpuRangeUsage)
  /-- `prepare_gpu_download` of a range of an earlier plan. -/
  | prepare (planned : GpuReadbackRange) (maxRangeBytes : BitVec 32)
  /-- A prepared range is written to memory, through a physical write window. -/
  | writeBack (safe : GpuReadbackRange)
  /-- `commit_gpu_download` of a range that was written, with its epoch. -/
  | commitDownload (safe : GpuReadbackRange) (publicationEpoch : ℕ)
deriving DecidableEq

namespace Mirror

/-- A mirror after `reset`. -/
def start (size : BitVec 32) (cpuInitiallyDirty : Bool) (topology : GpuMemoryTopology) :
    Mirror where
  memory := .init
  coherency := .reset size cpuInitiallyDirty topology
  uploads := []
  readbacks := []
  prepared := []
  writtenBack := []
  history := []
  device := fun _ => 0
  rendered := fun _ _ => 0

/-- `current_epoch` gives the pages of native stores an epoch. -/
def collect (s : Mirror) : Mirror :=
  { s with
    memory := s.memory.collectCpuDirtyPages
    history := s.history ++ s.memory.collected }

/-- A CPU write. -/
def cpuWrite (s : Mirror) (address width : BitVec 32) (domain : MemoryOrderingDomain) : Mirror :=
  if width.toNat = 0 ∨ physicalMemorySize ≤ address.toNat then s.collect
  else
    { s with
      memory := (s.memory.markWrite address width domain).1
      history := s.history ++ [⟨address.toNat,
        min (address.toNat + width.toNat) physicalMemorySize - address.toNat,
        s.memory.nextEpoch⟩] }

/-- The device copy of a range is as new as memory, or its content is lost. -/
def copy (s : Mirror) (range : GpuCoherencyRange) (copied : Bool) : Mirror :=
  { s with
    device := fun a =>
      if range.Holds a then (if copied then s.history.length else 0) else s.device a }

/-- An upload of one range. -/
def upload (s : Mirror) (range : GpuCoherencyRange) (copied : Bool) : Mirror :=
  let address := BitVec.ofNat 32 range.start
  let size := BitVec.ofNat 32 range.size
  let committed := s.coherency.commitCpuUpload address size
  { s.copy (s.coherency.clamp address.toNat size.toNat) copied with
    coherency := if copied then committed else committed.rollbackCpuUpload address size }

/-- A GPU write. -/
def gpuWrite (s : Mirror) (address size : BitVec 32) : Mirror :=
  let range := s.coherency.clamp address.toNat size.toNat
  { s.copy range true with
    coherency := (s.coherency.markGpuWrite address size).1
    rendered := fun a g =>
      if range.Holds a ∧ g = (s.coherency.markGpuWrite address size).2 then s.history.length
      else s.rendered a g }

/-- A prepared range is written to memory.  Outside of physical memory the window
refuses the write. -/
def writeBack (s : Mirror) (safe : GpuReadbackRange) : Mirror :=
  if h : safe.stop ≤ physicalMemorySize then
    let (memory, epoch) :=
      s.memory.publish safe.start safe.stop .device h (Nat.le_add_right _ _)
    { s with memory := memory, writtenBack := (safe, epoch) :: s.writtenBack }
  else s

/-- One step. -/
def step (s : Mirror) : MirrorOp → Mirror × Unit
  | .cpuWrite address width domain => (s.cpuWrite address width domain, ())
  | .cpuWriteAll =>
      ({ s with
          memory := s.memory.markAllDirty.1
          history := s.history ++ [⟨0, physicalMemorySize, s.memory.nextEpoch⟩] }, ())
  | .nativeStore page => ({ s with memory := s.memory.nativeStore page }, ())
  | .planUpload address size maxRangeBytes usage =>
      let (coherency, plan) := s.coherency.planUpload s.memory address size maxRangeBytes usage
      ({ s.collect with coherency := coherency, uploads := plan.ranges ++ s.uploads }, ())
  | .upload range copied => (if range ∈ s.uploads then s.upload range copied else s, ())
  | .gpuWrite address size => (s.gpuWrite address size, ())
  | .planReadback address size maxRangeBytes usage =>
      let (coherency, plan) := s.coherency.planReadback s.memory address size maxRangeBytes usage
      ({ s.collect with coherency := coherency, readbacks := plan.ranges ++ s.readbacks }, ())
  | .prepare planned maxRangeBytes =>
      if planned ∈ s.readbacks then
        let (coherency, ranges) :=
          s.coherency.prepareGpuDownload s.memory planned maxRangeBytes
        ({ s.collect with coherency := coherency, prepared := ranges ++ s.prepared }, ())
      else (s, ())
  | .writeBack safe => (if safe ∈ s.prepared then s.writeBack safe else s, ())
  | .commitDownload safe publicationEpoch =>
      if (safe, publicationEpoch) ∈ s.writtenBack then
        ({ s with
            coherency := (s.coherency.commitGpuDownload s.memory safe (BitVec.ofNat 32 safe.start)
              (BitVec.ofNat 32 safe.size) publicationEpoch).1 }, ())
      else (s, ())

/-- The mirror after some steps. -/
def after (s : Mirror) (ops : List MirrorOp) : Mirror :=
  Transition.run step s ops

/-- The CPU writes to a byte with an epoch up to `through` are among the first
`n`. -/
def Includes (history : List CpuWrite) (a through n : ℕ) : Prop :=
  ∀ i write, history[i]? = some write → write.Holds a → write.label ≤ through → i < n

/-- The device copy of every byte that is device-valid and not GPU-dirty includes
the last CPU write to it up to the synchronized epoch. -/
def Fresh (s : Mirror) : Prop :=
  ∀ a, In s.coherency.deviceValid a → ¬In s.coherency.gpuDirty a →
    Includes s.history a s.coherency.synchronizedEpoch (s.device a)

/-- The bytes `prepare_gpu_download` returns in this state were not written by the
CPU, up to the boundary it takes, after the GPU write of the planned generation. -/
def Safe (s : Mirror) (planned : GpuReadbackRange) (maxRangeBytes : BitVec 32) : Prop :=
  ∀ safe ∈ (s.coherency.prepareGpuDownload s.memory planned maxRangeBytes).2, ∀ a, safe.Holds a →
    Includes s.collect.history a s.memory.currentEpoch.2 (s.rendered a planned.label)

/-- The step gives an epoch out. -/
def Draws (s : Mirror) : MirrorOp → Prop
  | .cpuWrite address width _ =>
      (width.toNat ≠ 0 ∧ address.toNat < physicalMemorySize) ∨ s.memory.nativeDirty ≠ []
  | .cpuWriteAll => True
  | .nativeStore _ => False
  | .planUpload _ _ _ _ => s.memory.nativeDirty ≠ []
  | .upload _ _ => False
  | .gpuWrite _ _ => False
  | .planReadback _ _ _ _ => s.memory.nativeDirty ≠ []
  | .prepare _ _ => s.memory.nativeDirty ≠ []
  | .writeBack _ => True
  | .commitDownload _ _ => False

/-- The 64-bit epoch does not wrap around in this step. -/
def Counts (s : Mirror) (op : MirrorOp) : Prop :=
  s.Draws op → s.memory.writeEpoch + 1 < 2 ^ 64

end Mirror

end Memory
end XenonRecomp
