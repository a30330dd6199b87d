/-
# File operations of the guest

`NtReadFile`, `NtReadFileScatter`, `NtWriteFile` and `NtQueryDirectoryFile` as
`GuestIoBridge` (`src/xbox/guest_io/xbox_io_guest.cpp`) and `IoFacade`
(`src/kernel/xboxkrnl/xbox_io.cpp`) perform them, in any number of threads: the
transfer, the post of the completion packet, the event, every write to guest
memory and the APC are single steps, in the order of the code.  The file layer
gives the outcome of a transfer, and says whether a packet was posted;
`XenonRecomp.Kernel.CompletionPort` takes this part apart.

An operation is reported by its packet, by its event or by its APC.  Observers
take any report there is; `IoRecord` keeps what the operation has written to
guest memory so far.
-/

import XenonRecomp.Kernel.CompletionPort

namespace XenonRecomp
namespace Kernel

open Library.Transition

/-! ### The calls -/

/-- The values of `status` that the calls name. -/
def statusSuccess : BitVec 32 := 0x00000000

def statusPending : BitVec 32 := 0x00000103

def statusBufferOverflow : BitVec 32 := 0x80000005

def statusAccessViolation : BitVec 32 := 0xC0000005

def statusEndOfFile : BitVec 32 := 0xC0000011

/-- `IoStatusBlock`. -/
structure IoStatusBlock where
  status : BitVec 32
  information : BitVec 32
deriving DecidableEq, Repr

/-- A write of bytes to guest memory. -/
structure GuestWrite where
  address : BitVec 32
  bytes : List (BitVec 8)
deriving DecidableEq, Repr

/-- What a directory record is made of. -/
structure DirectoryInformation where
  fileIndex : BitVec 32
  time : BitVec 64
  size : BitVec 64
  allocationSize : BitVec 64
  attributes : BitVec 32
  name : List (BitVec 8)
deriving DecidableEq, Repr

/-- The four operations with their buffers and lengths. -/
inductive GuestIoOperation where
  | readFile (buffer : BitVec 32) (length : ℕ)
  | readFileScatter (segments : List (BitVec 32)) (length : ℕ)
  | writeFile (length : ℕ)
  | queryDirectoryFile (buffer : BitVec 32) (length : ℕ)
deriving DecidableEq, Repr

/-- The length of the staging buffer. -/
def GuestIoOperation.length : GuestIoOperation → ℕ
  | readFile _ length => length
  | readFileScatter _ length => length
  | writeFile length => length
  | queryDirectoryFile _ length => length

/-- `kMaxTransferBytes`. -/
def maxTransferBytes : ℕ := 256 * 1024 * 1024

/-- A call with its event, APC and `IO_STATUS_BLOCK`, and whether the bridge has an
APC queue. -/
structure IoCall where
  operation : GuestIoOperation
  event : Option ℕ
  apcQueue : Bool
  apcRoutine : BitVec 32
  apcContext : BitVec 32
  ioStatusBlock : BitVec 32
deriving DecidableEq, Repr

/-- `queue_apc` gets as far as the status. -/
def IoCall.wantsApc (call : IoCall) : Bool :=
  call.apcQueue && call.apcRoutine &&& ~~~1#32 ≠ 0 && call.apcContext ≠ 0

/-- The outcome of a transfer. -/
structure Transfer where
  code : KernelIoCode
  information : ℕ
  bytes : List (BitVec 8)
  entry : Option DirectoryInformation
  /-- `finish_synchronous` posted a packet with the outcome. -/
  packet : Bool
deriving DecidableEq, Repr

/-- A transfer moves at most the bytes asked for, and none when it fails. -/
def Transfer.Possible (t : Transfer) (operation : GuestIoOperation) : Prop :=
  t.information ≤ operation.length ∧ (t.code ≠ .success → t.information = 0)

instance (t : Transfer) (operation : GuestIoOperation) : Decidable (t.Possible operation) :=
  inferInstanceAs (Decidable (_ ∧ _))

/-! ### `IoFacade` -/

/-- `signal_event_if_present`, with the answer of `set_event` where there is an
event. -/
def signalEventIfPresent (setEvent : Option KernelIoCode) (current : BitVec 32) : BitVec 32 :=
  match setEvent with
  | none => current
  | some code => if code = .success then current else mapStatus code

/-- `finish_io_status`: the status block and the result. -/
def finishIoStatus (t : Transfer) (asynchronousHandle : Bool) (setEvent : Option KernelIoCode) :
    IoStatusBlock × BitVec 32 :=
  let status := mapStatus t.code
  let signaled := signalEventIfPresent setEvent status
  if signaled ≠ status then (⟨signaled, 0⟩, signaled)
  else
    (⟨status, BitVec.ofNat 32 (min t.information (2 ^ 32 - 1))⟩,
      if asynchronousHandle ∧ t.code = .success then statusPending else status)

/-- A read of bytes that transfers none. -/
def Transfer.EndOfFile (t : Transfer) (length : ℕ) : Prop :=
  t.code = .success ∧ t.information = 0 ∧ length ≠ 0

instance (t : Transfer) (length : ℕ) : Decidable (t.EndOfFile length) :=
  inferInstanceAs (Decidable (_ ∧ _ ∧ _))

/-- `IoFacade::read_file` after the transfer. -/
def facadeReadFile (length : ℕ) (t : Transfer) (asynchronousHandle : Bool)
    (setEvent : Option KernelIoCode) : IoStatusBlock × BitVec 32 :=
  if t.EndOfFile length then
    (⟨statusEndOfFile, 0⟩, signalEventIfPresent setEvent statusEndOfFile)
  else finishIoStatus t asynchronousHandle setEvent

/-- `IoFacade::query_directory_file` after the query. -/
def facadeQueryDirectoryFile (t : Transfer) (setEvent : Option KernelIoCode) :
    IoStatusBlock × BitVec 32 :=
  if t.code ≠ .success then
    (⟨mapStatus t.code, 0⟩, signalEventIfPresent setEvent (mapStatus t.code))
  else
    (⟨statusSuccess, BitVec.ofNat 32 t.entry.toList.length⟩,
      signalEventIfPresent setEvent statusSuccess)

/-! ### `GuestIoBridge` -/

/-- The bytes of a big-endian word. -/
def bytesBe {w : ℕ} (value : BitVec w) : List (BitVec 8) :=
  (List.range (w / 8)).map fun i => value.extractLsb' (w - 8 - 8 * i) 8

/-- The loop of `nt_read_file_scatter` over the segments. -/
def scatter : List (BitVec 32) → List (BitVec 8) → ℕ → List GuestWrite
  | [], _, _ => []
  | segment :: segments, bytes, remaining =>
      if remaining = 0 then []
      else
        ⟨segment, bytes.take (min 4096 remaining)⟩ ::
          scatter segments (bytes.drop (min 4096 remaining)) (remaining - min 4096 remaining)

/-- The size of a directory record: `align_up(kDirectoryInfoBaseSize + name_length, 8)`. -/
def DirectoryInformation.recordSize (entry : DirectoryInformation) : ℕ :=
  (0x40 + entry.name.length + 7) / 8 * 8

/-- The writes of a directory record. -/
def DirectoryInformation.record (entry : DirectoryInformation) (buffer : BitVec 32) :
    List GuestWrite :=
  [⟨buffer, List.replicate entry.recordSize 0⟩,
    ⟨buffer, bytesBe (0 : BitVec 32)⟩,
    ⟨buffer + 0x04, bytesBe entry.fileIndex⟩,
    ⟨buffer + 0x08, bytesBe entry.time⟩,
    ⟨buffer + 0x10, bytesBe entry.time⟩,
    ⟨buffer + 0x18, bytesBe entry.time⟩,
    ⟨buffer + 0x20, bytesBe entry.time⟩,
    ⟨buffer + 0x28, bytesBe entry.size⟩,
    ⟨buffer + 0x30, bytesBe entry.allocationSize⟩,
    ⟨buffer + 0x38, bytesBe entry.attributes⟩,
    ⟨buffer + 0x3C, bytesBe (BitVec.ofNat 32 entry.name.length)⟩] ++
  if entry.name = [] then [] else [⟨buffer + 0x40, entry.name⟩]

/-- How a call ends: the status block it writes, whether it comes to `queue_apc`,
and what it returns. -/
structure Finish where
  block : IoStatusBlock
  apc : Bool
  result : BitVec 32
deriving DecidableEq, Repr

/-- What a call does once its event is set: the writes of its results, and its
end. -/
def conclude (operation : GuestIoOperation) (t : Transfer) (asynchronousHandle : Bool)
    (setEvent : Option KernelIoCode) : List GuestWrite × Finish :=
  match operation with
  | .readFile buffer length =>
      let (iosb, result) := facadeReadFile length t asynchronousHandle setEvent
      (if (iosb.status = statusSuccess ∨ result = statusPending) ∧ iosb.information ≠ 0 then
        [⟨buffer, t.bytes.take iosb.information.toNat⟩] else [],
        ⟨iosb, true, result⟩)
  | .readFileScatter segments length =>
      let (iosb, result) := facadeReadFile length t asynchronousHandle setEvent
      (scatter segments t.bytes iosb.information.toNat, ⟨iosb, true, result⟩)
  | .writeFile _ =>
      let (iosb, result) := finishIoStatus t asynchronousHandle setEvent
      ([], ⟨iosb, true, result⟩)
  | .queryDirectoryFile buffer length =>
      let (iosb, result) := facadeQueryDirectoryFile t setEvent
      match t.entry with
      | none => ([], ⟨iosb, true, result⟩)
      | some entry =>
          if result ≠ statusSuccess then ([], ⟨iosb, true, result⟩)
          else if length < entry.recordSize then
            ([], ⟨⟨statusBufferOverflow, 0⟩, false, statusBufferOverflow⟩)
          else
            (entry.record buffer,
              ⟨⟨statusSuccess, BitVec.ofNat 32 entry.recordSize⟩, true, statusSuccess⟩)

/-- What a call returns when its status block cannot be written. -/
def Finish.unwritten (finish : Finish) : BitVec 32 :=
  if finish.apc then statusAccessViolation else finish.result

/-- A write of the results faults. -/
def faulted : Finish :=
  ⟨⟨statusAccessViolation, 0⟩, false, statusAccessViolation⟩

/-! ### The system -/

/-- How an operation can be reported. -/
inductive Channel where
  | packet
  | event (handle : ℕ)
  | apc
deriving DecidableEq, Repr

/-- What an operation has done so far. -/
structure IoRecord where
  call : IoCall
  transfer : Option Transfer
  packet : Bool
  signalled : Bool
  stored : List GuestWrite
  block : Option IoStatusBlock
  returned : Option (BitVec 32)
deriving DecidableEq, Repr

/-- An operation that has just begun. -/
def IoRecord.begin (call : IoCall) : IoRecord :=
  ⟨call, none, false, false, [], none, none⟩

/-- Where a call stands. -/
inductive GuestIoStage where
  | transfer
  | post (t : Transfer)
  | signal (t : Transfer)
  | store (remaining : List GuestWrite) (finish : Finish)
  /-- Before the test of `writable_range` in `write_iosb`. -/
  | check (finish : Finish)
  | storeStatus (finish : Finish)
  | storeInformation (finish : Finish)
  | queueApc (finish : Finish)
deriving DecidableEq, Repr

/-- What the surroundings of a call decide in its next step. -/
structure Answer where
  transfer : Transfer
  /-- The answer of `set_event`. -/
  setEvent : KernelIoCode
  asynchronousHandle : Bool
  /-- Guest memory takes the write. -/
  writable : Bool
deriving DecidableEq, Repr

/-- The next step of a call: its record, its next stage unless it returns, and a
report. -/
def advance (r : IoRecord) (answer : Answer) :
    GuestIoStage → IoRecord × Option GuestIoStage × Option Channel
  | .transfer =>
      if answer.transfer.Possible r.call.operation then
        ({ r with transfer := some answer.transfer }, some (.post answer.transfer), none)
      else (r, some .transfer, none)
  | .post t =>
      if t.packet then ({ r with packet := true }, some (.signal t), some .packet)
      else (r, some (.signal t), none)
  | .signal t =>
      let setEvent := r.call.event.map fun _ => answer.setEvent
      let (writes, finish) := conclude r.call.operation t answer.asynchronousHandle setEvent
      if setEvent = some .success then
        ({ r with signalled := true }, some (.store writes finish), r.call.event.map .event)
      else (r, some (.store writes finish), none)
  | .store [] finish =>
      if r.call.ioStatusBlock = 0 then (r, some (.queueApc finish), none)
      else (r, some (.check finish), none)
  | .store (write :: remaining) finish =>
      if answer.writable then
        ({ r with stored := r.stored ++ [write] }, some (.store remaining finish), none)
      else (r, some (.store [] faulted), none)
  | .check finish =>
      if answer.writable then (r, some (.storeStatus finish), none)
      else ({ r with returned := some finish.unwritten }, none, none)
  | .storeStatus finish =>
      if answer.writable then (r, some (.storeInformation finish), none)
      else ({ r with returned := some finish.unwritten }, none, none)
  | .storeInformation finish =>
      if answer.writable then
        ({ r with block := some finish.block }, some (.queueApc finish), none)
      else ({ r with returned := some finish.unwritten }, none, none)
  | .queueApc finish =>
      if finish.apc && r.call.wantsApc && finish.block.status = statusSuccess then
        ({ r with returned := some finish.result }, none, some .apc)
      else ({ r with returned := some finish.result }, none, none)

/-- All operations, the reports that are there, and where the threads stand. -/
structure GuestIo (T : Type) where
  nextOperation : ℕ
  records : ℕ → Option IoRecord
  reports : List (Channel × ℕ)
  places : T → Option (ℕ × GuestIoStage)

/-- What a thread does: an idle one begins a call or observes a report, which stays
there if it is an event without reset; one in a call takes its next step. -/
inductive GuestIoAction where
  | begin (call : IoCall)
  | observe (channel : Channel) (id : ℕ) (stays : Bool)
  | next (answer : Answer)
deriving DecidableEq, Repr

/-- What a step shows. -/
inductive GuestIoReply where
  | silent
  /-- A thread saw the report of this operation, which had done so much. -/
  | observed (channel : Channel) (id : ℕ) (record : Option IoRecord)
deriving DecidableEq, Repr

namespace GuestIo

variable {T : Type} [DecidableEq T]

/-- Nothing was begun yet. -/
def init : GuestIo T :=
  ⟨0, fun _ => none, [], fun _ => none⟩

/-- A call begins.  One whose length is refused reports nothing. -/
def beginCall (s : GuestIo T) (t : T) (call : IoCall) : GuestIo T :=
  if maxTransferBytes < call.operation.length then s
  else
    { s with
      nextOperation := s.nextOperation + 1
      records := Function.update s.records s.nextOperation (some (.begin call))
      places := Function.update s.places t (some (s.nextOperation, .transfer)) }

/-- One step of thread `e.1`. -/
def step (s : GuestIo T) (e : T × GuestIoAction) : GuestIo T × GuestIoReply :=
  match s.places e.1, e.2 with
  | none, .begin call => (s.beginCall e.1 call, .silent)
  | none, .observe channel id stays =>
      if (channel, id) ∈ s.reports then
        (if stays then s else { s with reports := s.reports.erase (channel, id) },
          .observed channel id (s.records id))
      else (s, .silent)
  | some (id, stage), .next answer =>
      match s.records id with
      | none => (s, .silent)
      | some r =>
          let (r', stage', report) := advance r answer stage
          ({ s with
              records := Function.update s.records id (some r')
              reports := s.reports ++ report.toList.map fun channel => (channel, id)
              places := Function.update s.places e.1 (stage'.map fun stage => (id, stage)) },
            .silent)
  | _, _ => (s, .silent)

end GuestIo

/-! ### The contract -/

/-- The writes that deliver the results of a transfer. -/
def results (operation : GuestIoOperation) (t : Transfer) : List GuestWrite :=
  match operation with
  | .readFile buffer _ =>
      if t.information = 0 then [] else [⟨buffer, t.bytes.take t.information⟩]
  | .readFileScatter segments _ => scatter segments t.bytes t.information
  | .writeFile _ => []
  | .queryDirectoryFile buffer _ =>
      if t.code = .success then t.entry.toList.flatMap fun entry => entry.record buffer else []

/-- The status and the byte count of an operation. -/
def completion (operation : GuestIoOperation) (t : Transfer) : IoStatusBlock :=
  match operation with
  | .readFile _ length | .readFileScatter _ length =>
      if t.EndOfFile length then ⟨statusEndOfFile, 0⟩
      else ⟨mapStatus t.code, BitVec.ofNat 32 t.information⟩
  | .writeFile _ => ⟨mapStatus t.code, BitVec.ofNat 32 t.information⟩
  | .queryDirectoryFile _ _ =>
      if t.code = .success then
        ⟨statusSuccess, BitVec.ofNat 32 (t.entry.elim 0 DirectoryInformation.recordSize)⟩
      else ⟨mapStatus t.code, 0⟩

/-- Guest memory holds the results of an operation, and its status block the final
status and byte count. -/
def IoRecord.Published (r : IoRecord) : Prop :=
  ∃ t, r.transfer = some t ∧ (∀ write ∈ results r.call.operation t, write ∈ r.stored) ∧
    (r.call.ioStatusBlock ≠ 0 → r.block = some (completion r.call.operation t))

/-- The status block has the status of the packet. -/
def IoRecord.Agreed (r : IoRecord) : Prop :=
  ∀ t block, r.transfer = some t → r.packet = true → r.block = some block →
    block.status = mapStatus t.code

end Kernel
end XenonRecomp
