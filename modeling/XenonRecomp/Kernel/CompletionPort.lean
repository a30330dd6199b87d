/-
# Completion packets

`IoCompletionPort` of `src/kernel/synchronization/completion_port.cpp`, the
requests of `KernelFileObject` (`src/kernel/handles/file_object.cpp`,
`io_request.cpp`) and `NtSetIoCompletion` and `NtRemoveIoCompletion` of
`src/xbox/exports/xboxkrnl_sync_exports.cpp`, for one port and any number of
files associated with it, threads and interleavings; every section under a lock
is one step.

Every operation whose request was registered posts one packet or was cancelled,
packets leave the port in the order of their posts, and the event of the port
is signalled exactly while packets are queued.  The words that
`NtRemoveIoCompletion` writes are another matter: the field `request_id` of a
packet is the status word of a packet that `NtSetIoCompletion` posted, but the
number of the request of a packet that a file operation posted, and the remover
takes any value but zero for a status word.  `packets_faithful_iff` gives the
runs in which the words are right: those that remove no packet of an operation,
unless its request number happens to be its `NTSTATUS`.

Request numbers are unbounded; a transfer is at most the guest's 32-bit length.
-/

import XenonRecomp.Library.Interleaving

namespace XenonRecomp
namespace Kernel

open Library.Transition Library.Interleaving

/-! ### Codes and packets -/

/-- `KernelIoCode`. -/
inductive KernelIoCode where
  | success
  | pending
  | cancelled
  | timeout
  | invalidHandle
  | invalidObjectType
  | invalidParameter
  | accessDenied
  | protectedHandle
  | notFound
  | alreadyExists
  | notDirectory
  | isDirectory
  | directoryNotEmpty
  | sharingViolation
  | unsupported
  | crossDevice
  | noMoreFiles
  | deletePending
  | filesystemError
deriving DecidableEq, Repr

/-- `map_status`: the `NTSTATUS` of an operation. -/
def mapStatus : KernelIoCode → BitVec 32
  | .success => 0x00000000
  | .pending => 0x00000103
  | .cancelled => 0xC0000120
  | .timeout => 0x00000102
  | .invalidHandle => 0xC0000008
  | .invalidObjectType => 0xC0000024
  | .invalidParameter => 0xC000000D
  | .accessDenied => 0xC0000022
  | .protectedHandle => 0xC0000022
  | .notFound => 0xC0000034
  | .alreadyExists => 0xC0000035
  | .notDirectory => 0xC0000103
  | .isDirectory => 0xC00000BA
  | .directoryNotEmpty => 0xC0000101
  | .sharingViolation => 0xC0000043
  | .unsupported => 0xC00000BB
  | .crossDevice => 0xC00000D4
  | .noMoreFiles => 0x80000006
  | .deletePending => 0xC0000056
  | .filesystemError => 0xC0000001

/-- `to_status` of the synchronization exports. -/
def toStatus : KernelIoCode → BitVec 32
  | .success => 0x00000000
  | .invalidHandle => 0xC0000008
  | .invalidObjectType => 0xC0000024
  | .invalidParameter => 0xC000000D
  | .accessDenied => 0xC0000022
  | .protectedHandle => 0xC0000022
  | _ => 0xC0000001

/-- What the port reads of an `IoStatus`. -/
structure IoStatus where
  code : KernelIoCode
  information : ℕ
  requestId : ℕ
deriving DecidableEq, Repr

/-- `CompletionPacket`. -/
structure CompletionPacket where
  key : BitVec 64
  context : BitVec 64
  status : IoStatus
deriving DecidableEq, Repr

/-- The status word that `NtRemoveIoCompletion` writes. -/
def CompletionPacket.completionStatus (p : CompletionPacket) : BitVec 32 :=
  if p.status.requestId ≠ 0 then BitVec.ofNat 32 p.status.requestId else toStatus p.status.code

/-- Both words that `NtRemoveIoCompletion` writes. -/
def CompletionPacket.words (p : CompletionPacket) : BitVec 32 × BitVec 32 :=
  (p.completionStatus, BitVec.ofNat 32 p.status.information)

/-- Where a packet comes from: an operation with its outcome, or a call of
`NtSetIoCompletion` with its words. -/
inductive Origin (F : Type) where
  | operation (file : F) (requestId : ℕ) (code : KernelIoCode) (information : BitVec 32)
  | posted (status information : BitVec 32)
deriving DecidableEq, Repr

namespace Origin

variable {F : Type}

/-- The words that the remover has to see. -/
def words : Origin F → BitVec 32 × BitVec 32
  | operation _ _ code information => (mapStatus code, information)
  | posted status information => (status, information)

/-- The status in the packet: `finish_synchronous` stores the request number,
`NtSetIoCompletion` the guest's status word. -/
def status : Origin F → IoStatus
  | operation _ requestId code information => ⟨code, information.toNat, requestId⟩
  | posted status information => ⟨.success, information.toNat, status.toNat⟩

end Origin

/-! ### The system -/

/-- `IoRequestState`. -/
inductive IoRequestState where
  | pending
  | completed
  | cancelled
deriving DecidableEq, Repr

/-- Where a thread stands. -/
inductive IoPlace (F : Type) where
  | idle
  /-- An operation after its registration, before the look at the state of the
  request. -/
  | submitted (file : F) (id : ℕ) (context : BitVec 64)
  /-- Before the end of the transfer. -/
  | transferring (file : F) (id : ℕ) (context : BitVec 64)
  /-- Before the section of `complete_request`. -/
  | finishing (file : F) (id : ℕ) (context : BitVec 64) (code : KernelIoCode)
      (information : BitVec 32)
  /-- Before `complete` of the request that was found. -/
  | completing (file : F) (id : ℕ) (context : BitVec 64) (code : KernelIoCode)
      (information : BitVec 32)
  /-- Before the post. -/
  | posting (file : F) (id : ℕ) (context : BitVec 64) (code : KernelIoCode)
      (information : BitVec 32)
  /-- Before `cancel` of the request that was found. -/
  | cancelling (file : F) (id : ℕ)
  /-- Before `try_remove`; whether the caller passed an `IO_STATUS_BLOCK`. -/
  | removing (iosb : Bool)
  /-- In the wait for the event of the port. -/
  | waiting (iosb : Bool)
deriving DecidableEq, Repr

/-- A call of an idle thread, or what happens in the step of one that is in a
call: the outcome of a transfer, and how a wait for the event goes on.  A wait
that was granted returns even if the event has been reset since. -/
inductive IoAction (F : Type) where
  | operate (file : F) (context : BitVec 64)
  | cancel (file : F) (id : ℕ)
  | setIoCompletion (key context status information : BitVec 32)
  | removeIoCompletion (iosb : Bool)
  | transfer (code : KernelIoCode) (information : BitVec 32)
  | wakeUp
  | giveUp
deriving DecidableEq, Repr

/-- What a step shows. -/
inductive IoReply (F : Type) where
  | silent
  | registered (file : F) (id : ℕ)
  /-- `cancel_request` took the request. -/
  | cancelled (file : F) (id : ℕ)
  /-- An operation returned without a packet. -/
  | ended (file : F) (id : ℕ)
  | posted (origin : Origin F)
  /-- A packet was removed, and these words were written. -/
  | removed (origin : Origin F) (words : Option (BitVec 32 × BitVec 32))
deriving DecidableEq, Repr

/-- The files with their requests, the port and the threads. -/
structure IoSystem (F T : Type) where
  nextRequestId : F → ℕ
  requests : F → List ℕ
  states : F → ℕ → IoRequestState
  completionKey : F → BitVec 64
  queue : List (CompletionPacket × Origin F)
  ready : Bool
  places : T → IoPlace F

namespace IoSystem

variable {F T : Type} [DecidableEq F] [DecidableEq T]

/-- Moves one thread. -/
def goTo (s : IoSystem F T) (t : T) (place : IoPlace F) : IoSystem F T :=
  { s with places := Function.update s.places t place }

omit [DecidableEq F] in
@[simp] theorem goTo_nextRequestId (s : IoSystem F T) (t : T) (place : IoPlace F) :
    (s.goTo t place).nextRequestId = s.nextRequestId := rfl

omit [DecidableEq F] in
@[simp] theorem goTo_requests (s : IoSystem F T) (t : T) (place : IoPlace F) :
    (s.goTo t place).requests = s.requests := rfl

omit [DecidableEq F] in
@[simp] theorem goTo_states (s : IoSystem F T) (t : T) (place : IoPlace F) :
    (s.goTo t place).states = s.states := rfl

omit [DecidableEq F] in
@[simp] theorem goTo_queue (s : IoSystem F T) (t : T) (place : IoPlace F) :
    (s.goTo t place).queue = s.queue := rfl

omit [DecidableEq F] in
@[simp] theorem goTo_ready (s : IoSystem F T) (t : T) (place : IoPlace F) :
    (s.goTo t place).ready = s.ready := rfl

/-- Sets the state of one request. -/
def setState (s : IoSystem F T) (file : F) (id : ℕ) (state : IoRequestState) : IoSystem F T :=
  { s with states := fun f i => if f = file ∧ i = id then state else s.states f i }

/-- Takes one request out of the map of its file. -/
def takeRequest (s : IoSystem F T) (file : F) (id : ℕ) : IoSystem F T :=
  { s with requests := Function.update s.requests file ((s.requests file).erase id) }

/-- `begin_request`. -/
def beginRequest (s : IoSystem F T) (t : T) (file : F) (context : BitVec 64) :
    IoSystem F T × IoReply F :=
  let id := s.nextRequestId file
  ({ s with
      nextRequestId := Function.update s.nextRequestId file (id + 1)
      requests := Function.update s.requests file (id :: s.requests file) }.goTo t
    (.submitted file id context), .registered file id)

/-- `IoCompletionPort::post`. -/
def post (s : IoSystem F T) (packet : CompletionPacket) (origin : Origin F) : IoSystem F T :=
  { s with queue := s.queue ++ [(packet, origin)], ready := true }

/-- `IoCompletionPort::try_remove`, and the writes of `NtRemoveIoCompletion`. -/
def tryRemove (s : IoSystem F T) (t : T) (iosb : Bool) : IoSystem F T × IoReply F :=
  match s.queue with
  | [] => (s.goTo t (.waiting iosb), .silent)
  | (packet, origin) :: rest =>
      ({ s with queue := rest, ready := !rest.isEmpty && s.ready }.goTo t .idle,
        .removed origin (if iosb then some packet.words else none))

/-- The first step of a call. -/
def call (s : IoSystem F T) (t : T) : IoAction F → IoSystem F T × IoReply F
  | .operate file context => s.beginRequest t file context
  | .cancel file id =>
      if id ∈ s.requests file then
        ((s.takeRequest file id).goTo t (.cancelling file id), .cancelled file id)
      else (s, .silent)
  | .setIoCompletion key context status information =>
      let origin : Origin F := .posted status information
      (s.post ⟨key.setWidth 64, context.setWidth 64, origin.status⟩ origin, .posted origin)
  | .removeIoCompletion iosb => (s.goTo t (.removing iosb), .silent)
  | _ => (s, .silent)

/-- One step of thread `e.1`. -/
def step (s : IoSystem F T) (e : T × IoAction F) : IoSystem F T × IoReply F :=
  match s.places e.1 with
  | .idle => s.call e.1 e.2
  | .submitted file id context =>
      if s.states file id = .cancelled then (s.goTo e.1 .idle, .ended file id)
      else (s.goTo e.1 (.transferring file id context), .silent)
  | .transferring file id context =>
      match e.2 with
      | .transfer code information =>
          (s.goTo e.1 (.finishing file id context code information), .silent)
      | _ => (s, .silent)
  | .finishing file id context code information =>
      if id ∈ s.requests file then
        ((s.takeRequest file id).goTo e.1 (.completing file id context code information), .silent)
      else (s.goTo e.1 .idle, .ended file id)
  | .completing file id context code information =>
      if s.states file id = .pending then
        ((s.setState file id .completed).goTo e.1 (.posting file id context code information),
          .silent)
      else (s.goTo e.1 .idle, .ended file id)
  | .posting file id context code information =>
      let origin := .operation file id code information
      ((s.post ⟨s.completionKey file, context, origin.status⟩ origin).goTo e.1 .idle,
        .posted origin)
  | .cancelling file id =>
      ((if s.states file id = .pending then s.setState file id .cancelled else s).goTo e.1 .idle,
        .silent)
  | .removing iosb => s.tryRemove e.1 iosb
  | .waiting iosb =>
      if s.ready ∨ e.2 = .wakeUp then (s.goTo e.1 (.removing iosb), .silent)
      else if e.2 = .giveUp then (s.goTo e.1 .idle, .silent)
      else (s, .silent)

/-- No request was made yet and nothing was posted. -/
def Initial (s : IoSystem F T) : Prop :=
  (∀ f, s.nextRequestId f = 1) ∧ (∀ f, s.requests f = []) ∧ (∀ f i, s.states f i = .pending) ∧
    s.queue = [] ∧ s.ready = false ∧ ∀ t, s.places t = .idle

end IoSystem

end Kernel
end XenonRecomp
