/-
# The write journal

The ring of `include/xenon/memory/coherency.hpp` that keeps the range, the ordering
domain and the epoch of the last 65536 writes, one atomic access at a time.
`publish_journal`, and the same stores in `publish_write_metadata`
(`include/xenon/cpu/memory_port.hpp`), fill a slot with three stores, the epoch last;
`collect_exact_dirty_writes` loads the epoch of a slot, its range, the epoch again
and then its domain.  The interval it reads ends at a boundary that `current_epoch`
returned.

Writers count themselves but the conditional stores of the fast path;
`collect_cpu_dirty_pages` draws an epoch and leaves the journal alone.  The stores
of page epochs, the gates and the dirty bits touch none of these variables.

`owners` is kept for the statements and read by no step: the writes that were
assigned an epoch.
-/

import XenonRecomp.Memory.Publications

namespace XenonRecomp
namespace Memory

open Library Library.Transition Library.Interleaving

/-- What a writer publishes; no writer publishes an empty range. -/
structure JournalEntry where
  address : BitVec 32
  size : BitVec 32
  domain : MemoryOrderingDomain
  nonempty : size ≠ 0
deriving DecidableEq, Repr

/-- The word of `write_journal_ranges_`. -/
def JournalEntry.range (entry : JournalEntry) : BitVec 64 :=
  entry.address ++ entry.size

/-- The variables of the journal. -/
structure JournalState where
  activeWriters : ℕ
  writeEpoch : ℕ
  epochs : ℕ → ℕ
  ranges : ℕ → BitVec 64
  domains : ℕ → MemoryOrderingDomain
  owners : List (ℕ × JournalEntry)

/-- A new journal. -/
def JournalState.init : JournalState :=
  ⟨0, 0, fun _ => 0, fun _ => 0, fun _ => .normal, []⟩

/-- The slot of an epoch. -/
def journalSlot (epoch : ℕ) : ℕ :=
  epoch % writeJournalCapacity

/-- `DirtyPhysicalWrite`, as it is read from the journal. -/
structure CollectedWrite where
  epoch : ℕ
  address : BitVec 32
  size : BitVec 32
  domain : MemoryOrderingDomain
deriving DecidableEq, Repr

/-- The write that a range and a domain word describe. -/
def CollectedWrite.ofWords (epoch : ℕ) (packed : BitVec 64) (domain : MemoryOrderingDomain) :
    CollectedWrite :=
  ⟨epoch, packed.extractLsb' 32 32, packed.extractLsb' 0 32, domain⟩

/-- `collect_exact_dirty_writes` in its loop: the interval, the epoch it is at, and what it
found so far. -/
structure Collection where
  since : ℕ
  through : ℕ
  epoch : ℕ
  out : List CollectedWrite
deriving DecidableEq, Repr

/-- Where a thread stands. -/
inductive JournalThread where
  | idle
  /-- A writer, with what it journals; `collect_cpu_dirty_pages` journals nothing. -/
  | countIn (entry : Option JournalEntry)
  | drawEpoch (counted : Bool) (entry : Option JournalEntry)
  | storeWrapped (counted : Bool) (entry : Option JournalEntry)
  | storeRange (counted : Bool) (epoch : ℕ) (entry : JournalEntry)
  | storeDomain (counted : Bool) (epoch : ℕ) (entry : JournalEntry)
  | storeEpoch (counted : Bool) (epoch : ℕ) (entry : JournalEntry)
  | countOut
  /-- `current_epoch`, for an interval from `since`. -/
  | readCount (since : ℕ)
  | readEpoch (since : ℕ)
  | readCountAgain (since through : ℕ)
  /-- `collect_exact_dirty_writes`. -/
  | loadEpoch (read : Collection)
  | loadRange (read : Collection)
  | loadEpochAgain (read : Collection) (packed : BitVec 64)
  | loadDomain (read : Collection) (packed : BitVec 64)
  | returned (since through : ℕ) (out : Option (List CollectedWrite))
deriving DecidableEq, Repr

/-- The calls a thread can make, and its next step. -/
inductive JournalChoice where
  | write (counted : Bool) (entry : JournalEntry)
  | collectDirtyPages
  | collect (since : ℕ)
  | next
deriving DecidableEq, Repr

/-- The thread after its last store to the journal. -/
def JournalThread.published (counted : Bool) : JournalThread :=
  if counted then .countOut else .idle

/-- The thread that drew an epoch; what it journals belongs to this epoch. -/
def JournalState.assign (s : JournalState) (counted : Bool) (epoch : ℕ) :
    Option JournalEntry → JournalState × JournalThread
  | none => (s, .published counted)
  | some entry => ({ s with owners := (epoch, entry) :: s.owners }, .storeRange counted epoch entry)

/-- `collect_exact_dirty_writes` before its loop. -/
def JournalThread.beginCollection (since through : ℕ) : JournalThread :=
  if through ≤ since then .returned since through (some [])
  else if through - since > writeJournalCapacity then .returned since through none
  else .loadEpoch ⟨since, through, since + 1, []⟩

/-- The loop of `collect_exact_dirty_writes` behind one epoch. -/
def Collection.continue (read : Collection) (write : CollectedWrite) : JournalThread :=
  let out := if write.size = 0 then read.out else read.out ++ [write]
  let epoch := (read.epoch + 1) % 2 ^ 64
  if epoch ≤ read.through then .loadEpoch { read with epoch, out }
  else .returned read.since read.through (some out)

/-- One atomic step of a thread. -/
def journalProgram (s : JournalState) (l : JournalThread) :
    JournalChoice → Option (JournalState × JournalThread)
  | .write counted entry =>
      match l with
      | .idle => some (s, if counted then .countIn (some entry) else .drawEpoch false (some entry))
      | _ => none
  | .collectDirtyPages =>
      match l with
      | .idle => some (s, .countIn none)
      | _ => none
  | .collect since =>
      match l with
      | .idle => some (s, .readCount since)
      | _ => none
  | .next =>
      match l with
      | .idle => none
      | .countIn entry =>
          some ({ s with activeWriters := s.activeWriters + 1 }, .drawEpoch true entry)
      | .drawEpoch counted entry =>
          let epoch := (s.writeEpoch + 1) % 2 ^ 64
          let s := { s with writeEpoch := epoch }
          if epoch = 0 then some (s, .storeWrapped counted entry)
          else some (s.assign counted epoch entry)
      | .storeWrapped counted entry =>
          some ({ s with writeEpoch := 1 }.assign counted 1 entry)
      | .storeRange counted epoch entry =>
          some ({ s with ranges := Function.update s.ranges (journalSlot epoch) entry.range },
            .storeDomain counted epoch entry)
      | .storeDomain counted epoch entry =>
          some ({ s with domains := Function.update s.domains (journalSlot epoch) entry.domain },
            .storeEpoch counted epoch entry)
      | .storeEpoch counted epoch _ =>
          some ({ s with epochs := Function.update s.epochs (journalSlot epoch) epoch },
            .published counted)
      | .countOut => some ({ s with activeWriters := s.activeWriters - 1 }, .idle)
      | .readCount since =>
          some (s, if s.activeWriters = 0 then .readEpoch since else .readCount since)
      | .readEpoch since => some (s, .readCountAgain since s.writeEpoch)
      | .readCountAgain since through =>
          some (s, if s.activeWriters = 0 then .beginCollection since through
            else .readCount since)
      | .loadEpoch read =>
          some (s, if s.epochs (journalSlot read.epoch) = read.epoch then .loadRange read
            else .returned read.since read.through none)
      | .loadRange read => some (s, .loadEpochAgain read (s.ranges (journalSlot read.epoch)))
      | .loadEpochAgain read packed =>
          some (s, if s.epochs (journalSlot read.epoch) = read.epoch then .loadDomain read packed
            else .returned read.since read.through none)
      | .loadDomain read packed =>
          some (s, read.continue
            (.ofWords read.epoch packed (s.domains (journalSlot read.epoch))))
      | .returned _ _ _ => some (s, .idle)

/-- The journal with all threads idle. -/
def launchJournal (T : Type) : Config JournalState JournalThread T :=
  ⟨.init, fun _ => .idle⟩

end Memory
end XenonRecomp
