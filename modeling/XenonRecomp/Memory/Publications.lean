/-
# Published writes

`GuestMemoryCoherency` of `include/xenon/memory/coherency.hpp` as its consumers
see it between two calls: the epoch, the epoch of every physical page, the
bounded journal of writes, and the pages that native stores marked and nobody
collected yet.  `XenonRecomp.Memory.Coherency` takes the same calls apart into
atomic accesses; here every call is one step.

A write in the journal lies inside physical memory, since `mark_write` cuts it
off there and the other publishers write through a translated address; the
structure `DirtyPhysicalWrite` carries this.
-/

import XenonRecomp.Memory.Writers
import XenonRecomp.Library.LabelledRuns

namespace XenonRecomp
namespace Memory

open Library

/-- `MemoryOrderingDomain`. -/
inductive MemoryOrderingDomain where
  | normal
  | device
  | writeCombined
  | cacheInhibited
deriving DecidableEq, Repr

/-- `DirtyPhysicalWrite`. -/
structure DirtyPhysicalWrite where
  epoch : ℕ
  address : ℕ
  size : ℕ
  orderingDomain : MemoryOrderingDomain
  inside : address + size ≤ physicalMemorySize
deriving DecidableEq, Repr

/-- The bytes of a write. -/
def DirtyPhysicalWrite.run (write : DirtyPhysicalWrite) : Run MemoryOrderingDomain :=
  ⟨write.address, write.size, write.orderingDomain⟩

/-- `kWriteJournalCapacity`. -/
def writeJournalCapacity : ℕ := 65536

/-- The state of `GuestMemoryCoherency` between two calls. -/
structure Publications where
  writeEpoch : ℕ
  pageEpochs : ℕ → ℕ
  journal : ℕ → Option DirtyPhysicalWrite
  nativeDirty : List ℕ

namespace Publications

/-- A new `GuestMemoryCoherency`. -/
def init : Publications where
  writeEpoch := 0
  pageEpochs := fun _ => 0
  journal := fun _ => none
  nativeDirty := []

/-- The next epoch; the 64-bit counter skips zero. -/
def nextEpoch (m : Publications) : ℕ :=
  if (m.writeEpoch + 1) % 2 ^ 64 = 0 then 1 else (m.writeEpoch + 1) % 2 ^ 64

/-- Gives the pages of a list a new epoch. -/
def stamp (m : Publications) (pages : List ℕ) : Publications :=
  { m with
    writeEpoch := m.nextEpoch
    pageEpochs := fun page => if page ∈ pages then m.nextEpoch else m.pageEpochs page }

/-- `collect_cpu_dirty_pages`. -/
def collectCpuDirtyPages (m : Publications) : Publications :=
  if m.nativeDirty = [] then m else { m.stamp m.nativeDirty with nativeDirty := [] }

/-- `current_epoch`. -/
def currentEpoch (m : Publications) : Publications × ℕ :=
  (m.collectCpuDirtyPages, m.collectCpuDirtyPages.writeEpoch)

/-- A native store marks its page. -/
def nativeStore (m : Publications) (page : ℕ) : Publications :=
  if page < physicalPageCount then { m with nativeDirty := page :: m.nativeDirty } else m

/-- `publish_journal`. -/
def publishJournal (m : Publications) (write : DirtyPhysicalWrite) : Publications :=
  { m with
    journal := Function.update m.journal (write.epoch % writeJournalCapacity) (some write) }

/-- A write of the bytes from `address` to `stop`, which draws an epoch. -/
def publish (m : Publications) (address stop : ℕ) (domain : MemoryOrderingDomain)
    (h : stop ≤ physicalMemorySize) (hle : address ≤ stop) : Publications × ℕ :=
  ((m.stamp (touchedPages address (stop - address))).publishJournal
    ⟨m.nextEpoch, address, stop - address, domain, by omega⟩, m.nextEpoch)

/-- `mark_write`. -/
def markWrite (m : Publications) (address width : BitVec 32) (domain : MemoryOrderingDomain) :
    Publications × ℕ :=
  if h : width.toNat = 0 ∨ physicalMemorySize ≤ address.toNat then m.currentEpoch
  else
    m.publish address.toNat (min (address.toNat + width.toNat) physicalMemorySize) domain
      (Nat.min_le_right _ _) (by omega)

/-- `mark_all_dirty`. -/
def markAllDirty (m : Publications) : Publications × ℕ :=
  m.publish 0 physicalMemorySize .normal le_rfl (Nat.zero_le _)

/-- The journal's write of one epoch. -/
def journalled (m : Publications) (epoch : ℕ) : Option DirtyPhysicalWrite :=
  (m.journal (epoch % writeJournalCapacity)).filter (·.epoch = epoch)

/-- `collect_exact_dirty_writes`. -/
def collectExactDirtyWrites (m : Publications) (sinceEpoch throughEpoch : ℕ) :
    Option (List DirtyPhysicalWrite) :=
  if throughEpoch ≤ sinceEpoch then some []
  else if throughEpoch - sinceEpoch > writeJournalCapacity then none
  else
    ((List.range' (sinceEpoch + 1) (throughEpoch - sinceEpoch)).mapM m.journalled).map
      (·.filter (·.size ≠ 0))

end Publications

end Memory
end XenonRecomp
