/-
# The reservation monitor

`lwarx`/`stwcx.` of strict memory, one atomic access at a time:
`reservation_monitor_detail`, `reserve32`/`reserve64`,
`store_conditional32`/`store_conditional64` and `enter_write`/`finish_write` of
`include/xenon/cpu/memory_port.hpp`, their locked twins in
`src/memory/guest/reservations/reservations.cpp`, and the ticket gate of
`src/cpu/execution/memory_port.cpp`.

Six slots hold the live reservations.  A reserve counts itself in
`active_reservation_ops`, marks its granule in the sticky bitmap, claims a slot,
loads the word between two reads of the write epoch and keeps its token only if
the two agree and no writer is counted.  An ordinary store counts itself in
`active_coherency_writers`, joins the reservation operations only if the bitmap
knows its range, clears the slots of its granules, stores, and publishes an
epoch.  A conditional store takes the ticket gate, waits until both counts are
zero, and moves its slot from active to committing before it stores.

The steps on page epochs, the journal, the dirty bits and the executable
generations touch none of these variables and are left out.  The coherency gate
of `physical_write_window` and the second address resolution of a conditional
store are answered by the scheduler, and so are the spurious failures of a weak
compare-and-exchange.  The 32-bit counts are numbers of threads and so natural
numbers; the epoch, the generations and the tickets wrap as in the source.

`log` is kept for the statements and read by no step: the loads of reserves that
hold a slot, and the stores, the newest first.
-/

import XenonRecomp.Memory.Coherency

namespace XenonRecomp
namespace Memory

open Library Library.Transition Library.Interleaving

/-- `kReservationGranuleSize`. -/
def reservationGranuleSize : ℕ := 128

/-- `kReservationSlotCount`. -/
def reservationSlotCount : ℕ := 6

/-- The granules of guest RAM. -/
def reservationGranuleCount : ℕ := physicalMemorySize / reservationGranuleSize

/-- The granule of a physical address. -/
def granuleOf (address : ℕ) : ℕ :=
  address / reservationGranuleSize

/-- The last granule of a range, as `range_has_seen_reservation` and
`invalidate_range` bound it. -/
def lastGranule (address width : ℕ) : ℕ :=
  min ((address + width - 1) / reservationGranuleSize) (reservationGranuleCount - 1)

/-- An aligned word of guest RAM, as a reserve or a conditional store resolves
it. -/
structure GuestWord where
  address : ℕ
  wide : Bool
  aligned : address % (if wide then 8 else 4) = 0
  inside : address < physicalMemorySize
deriving DecidableEq

/-- The word's width in bytes. -/
def GuestWord.width (w : GuestWord) : ℕ :=
  if w.wide then 8 else 4

/-- The word's granule. -/
def GuestWord.granule (w : GuestWord) : ℕ :=
  granuleOf w.address

/-- An ordinary store: a resolved range of guest RAM and its bytes, in the chunks
the store writes at once. -/
structure StoreCall where
  address : ℕ
  chunks : List (List UInt8)
  nonempty : 0 < chunks.flatten.length
  inside : address + chunks.flatten.length ≤ physicalMemorySize
deriving DecidableEq

/-- The bytes a store writes in all. -/
def StoreCall.width (k : StoreCall) : ℕ :=
  k.chunks.flatten.length

/-- The granules of a store's range. -/
def StoreCall.covers (k : StoreCall) (granule : ℕ) : Bool :=
  decide (granuleOf k.address ≤ granule ∧ granule ≤ lastGranule k.address k.width)

/-- The address of a store's chunk. -/
def StoreCall.chunkAddress (k : StoreCall) (index : ℕ) : ℕ :=
  k.address + (k.chunks.take index).flatten.length

/-! ## Slots and tokens -/

/-- `SlotStatus`; an empty slot is inactive. -/
inductive SlotStatus where
  | active
  | committing
deriving DecidableEq

/-- The fields `encode_slot` packs into a slot's 64 bits. -/
structure Descriptor where
  address : ℕ
  wide : Bool
  generation : ℕ
  status : SlotStatus
deriving DecidableEq

/-- `encode_slot(physical_address, width, generation, Active)`. -/
def activeSlot (w : GuestWord) (generation : ℕ) : Descriptor :=
  ⟨w.address, w.wide, generation, .active⟩

/-- `encode_slot(physical_address, width, generation, Committing)`. -/
def committingSlot (w : GuestWord) (generation : ℕ) : Descriptor :=
  ⟨w.address, w.wide, generation, .committing⟩

/-- `make_token`. -/
def makeToken (slot generation : ℕ) : ℕ :=
  generation * 8 + (slot + 1)

/-- `decode_token`: the slot and the generation a token names. -/
def decodeToken (token : ℕ) : Option (ℕ × ℕ) :=
  let encoded := token % 8
  if encoded = 0 ∨ 6 < encoded then none
  else
    let generation := token / 8 % 2 ^ 32
    if generation = 0 then none else some (encoded - 1, generation)

/-! ## The shared state -/

/-- An access to guest memory, as the statements see it. -/
inductive Access where
  /-- The load of a reserve that has claimed the slot. -/
  | load (slot generation address : ℕ)
  /-- Bytes stored by an ordinary store. -/
  | store (address width : ℕ)
  /-- The word stored by a successful conditional store. -/
  | commit (slot generation address width : ℕ)
deriving DecidableEq

/-- Some byte from `address` on, `width` bytes long, is in the granule. -/
def touches (address width granule : ℕ) : Bool :=
  decide (0 < width ∧ granuleOf address ≤ granule ∧ granule ≤ granuleOf (address + width - 1))

/-- The access stores to the granule. -/
def Access.writes (granule : ℕ) : Access → Bool
  | .load .. => false
  | .store address width => touches address width granule
  | .commit _ _ address width => touches address width granule

/-- What the reservation protocol shares. -/
structure MonitorState where
  slots : ℕ → Option Descriptor
  seen : ℕ → Bool
  nextTicket : ℕ
  nowServing : ℕ
  activeOps : ℕ
  activeWriters : ℕ
  writeEpoch : ℕ
  nextGeneration : ℕ
  memory : ℕ → UInt8
  log : List Access

/-- The state of a new address space over some contents of memory. -/
def MonitorState.init (memory : ℕ → UInt8) : MonitorState where
  slots := fun _ => none
  seen := fun _ => false
  nextTicket := 0
  nowServing := 0
  activeOps := 0
  activeWriters := 0
  writeEpoch := 0
  nextGeneration := 1
  memory := memory
  log := []

namespace MonitorState

/-- `slot.store(value)`, and a compare-and-exchange that succeeds. -/
def setSlot (s : MonitorState) (slot : ℕ) (value : Option Descriptor) : MonitorState :=
  { s with slots := Function.update s.slots slot value }

/-- `reservation_seen_bitmap[word].fetch_or(bit)`. -/
def markSeen (s : MonitorState) (granule : ℕ) : MonitorState :=
  { s with seen := Function.update s.seen granule true }

/-- `next_ticket_.fetch_add(1)`. -/
def takeTicket (s : MonitorState) : MonitorState :=
  { s with nextTicket := (s.nextTicket + 1) % 2 ^ 64 }

/-- `now_serving_.fetch_add(1)`. -/
def serveNext (s : MonitorState) : MonitorState :=
  { s with nowServing := (s.nowServing + 1) % 2 ^ 64 }

/-- `active_reservation_ops.fetch_add(1)`. -/
def enterOps (s : MonitorState) : MonitorState :=
  { s with activeOps := s.activeOps + 1 }

/-- `active_reservation_ops.fetch_sub(1)`. -/
def leaveOps (s : MonitorState) : MonitorState :=
  { s with activeOps := s.activeOps - 1 }

/-- `active_coherency_writers.fetch_add(1)`. -/
def enterWriters (s : MonitorState) : MonitorState :=
  { s with activeWriters := s.activeWriters + 1 }

/-- `active_coherency_writers.fetch_sub(1)`. -/
def leaveWriters (s : MonitorState) : MonitorState :=
  { s with activeWriters := s.activeWriters - 1 }

/-- `global_write_epoch.fetch_add(1)`. -/
def drawEpoch (s : MonitorState) : MonitorState :=
  { s with writeEpoch := (s.writeEpoch + 1) % 2 ^ 64 }

/-- `global_write_epoch.store(1)`, after a draw that wrapped. -/
def wrapEpoch (s : MonitorState) : MonitorState :=
  { s with writeEpoch := 1 }

/-- `reservation_next_generation.fetch_add(1)`. -/
def drawGeneration (s : MonitorState) : MonitorState :=
  { s with nextGeneration := (s.nextGeneration + 1) % 2 ^ 32 }

/-- Bytes stored to memory. -/
def storeBytes (s : MonitorState) (address : ℕ) (bytes : List UInt8) (access : Access) :
    MonitorState :=
  { s with
    memory := fun a =>
      if address ≤ a then (bytes[a - address]?).getD (s.memory a) else s.memory a
    log := access :: s.log }

/-- A load by a reserve that holds a slot. -/
def recordLoad (s : MonitorState) (access : Access) : MonitorState :=
  { s with log := access :: s.log }

end MonitorState

/-! ## invalidate_range and cancel_reservation -/

/-- The descriptor is active and its granule is in the range. -/
def Descriptor.inRange (d : Descriptor) (first last : ℕ) : Bool :=
  decide (d.status = .active ∧ first ≤ granuleOf d.address ∧ granuleOf d.address ≤ last)

/-- Where a call of `invalidate_range` stands. -/
inductive Invalidate where
  | testSeen (granule : ℕ)
  | loadSlot (slot : ℕ)
  | clearSlot (slot : ℕ) (expected : Descriptor)
  | done
deriving DecidableEq

/-- What the scan does with the value it read from a slot. -/
def Invalidate.afterLoad (first last slot : ℕ) : Option Descriptor → Invalidate
  | some d => if d.inRange first last then .clearSlot slot d else .loadSlot (slot + 1)
  | none => .loadSlot (slot + 1)

/-- The next step of `invalidate_range` over the granules `first..last`. -/
def invalidateStep (first last : ℕ) (spurious : Bool) (s : MonitorState) :
    Invalidate → MonitorState × Invalidate
  | .testSeen granule =>
      if last < granule then (s, .done)
      else if s.seen granule then (s, .loadSlot 0)
      else (s, .testSeen (granule + 1))
  | .loadSlot slot =>
      if reservationSlotCount ≤ slot then (s, .done)
      else (s, .afterLoad first last slot (s.slots slot))
  | .clearSlot slot expected =>
      if s.slots slot = some expected ∧ spurious = false then
        (s.setSlot slot none, .loadSlot (slot + 1))
      else (s, .afterLoad first last slot (s.slots slot))
  | .done => (s, .done)

/-- Where a call of `cancel_reservation` stands. -/
inductive Cancel where
  | load
  | clear (expected : Descriptor)
  | done
deriving DecidableEq

/-- What `cancel_reservation` does with the value it read from the slot. -/
def Cancel.afterLoad (generation : ℕ) : Option Descriptor → Cancel
  | some d => if d.generation = generation ∧ d.status = .active then .clear d else .done
  | none => .done

/-- The next step of `cancel_reservation`. -/
def cancelStep (slot generation : ℕ) (spurious : Bool) (s : MonitorState) :
    Cancel → MonitorState × Cancel
  | .load => (s, .afterLoad generation (s.slots slot))
  | .clear expected =>
      if s.slots slot = some expected ∧ spurious = false then (s.setSlot slot none, .done)
      else (s, .afterLoad generation (s.slots slot))
  | .done => (s, .done)

/-! ## reserve32 and reserve64 -/

/-- Where a reserve stands.  `before` and `after` are the two reads of the write
epoch, and `token` the slot and generation it has claimed. -/
inductive ReserveStep where
  | waitServing
  | waitNext (serving : ℕ)
  | countIn
  | checkServing
  | checkNext (serving : ℕ)
  | backOut
  | loadEpoch
  | markSeen (before : ℕ)
  | drawGeneration (before : ℕ)
  | redrawGeneration (before : ℕ)
  | claim (before generation slot : ℕ)
  | loadWord (before : ℕ) (token : Option (ℕ × ℕ))
  | reloadEpoch (before : ℕ) (token : Option (ℕ × ℕ))
  | loadWriters (before : ℕ) (token : Option (ℕ × ℕ)) (after : ℕ)
  | cancel (slot generation : ℕ) (progress : Cancel)
  | countOut
deriving DecidableEq

/-- The next step of a reserve of `w`; `none` is its return. -/
def reserveStep (w : GuestWord) (spurious : Bool) (s : MonitorState) :
    ReserveStep → MonitorState × Option ReserveStep
  | .waitServing => (s, some (.waitNext s.nowServing))
  | .waitNext serving =>
      if serving ≠ s.nextTicket then (s, some .waitServing) else (s, some .countIn)
  | .countIn => (s.enterOps, some .checkServing)
  | .checkServing => (s, some (.checkNext s.nowServing))
  | .checkNext serving =>
      if serving ≠ s.nextTicket then (s, some .backOut) else (s, some .loadEpoch)
  | .backOut => (s.leaveOps, some .waitServing)
  | .loadEpoch => (s, some (.markSeen s.writeEpoch))
  | .markSeen before => (s.markSeen w.granule, some (.drawGeneration before))
  | .drawGeneration before =>
      if s.nextGeneration = 0 then (s.drawGeneration, some (.redrawGeneration before))
      else (s.drawGeneration, some (.claim before s.nextGeneration 0))
  | .redrawGeneration before =>
      (s.drawGeneration,
        some (.claim before (if s.nextGeneration = 0 then 1 else s.nextGeneration) 0))
  | .claim before generation slot =>
      if reservationSlotCount ≤ slot then (s, some (.loadWord before none))
      else if s.slots slot = none then
        (s.setSlot slot (some (activeSlot w generation)),
          some (.loadWord before (some (slot, generation))))
      else (s, some (.claim before generation (slot + 1)))
  | .loadWord before none => (s, some (.reloadEpoch before none))
  | .loadWord before (some (slot, generation)) =>
      (s.recordLoad (.load slot generation w.address),
        some (.reloadEpoch before (some (slot, generation))))
  | .reloadEpoch before token => (s, some (.loadWriters before token s.writeEpoch))
  | .loadWriters _ none _ => (s, some .countOut)
  | .loadWriters before (some (slot, generation)) after =>
      if before ≠ after ∨ s.activeWriters ≠ 0 then (s, some (.cancel slot generation .load))
      else (s, some .countOut)
  | .cancel _ _ .done => (s, some .countOut)
  | .cancel slot generation progress =>
      ((cancelStep slot generation spurious s progress).1,
        some (.cancel slot generation (cancelStep slot generation spurious s progress).2))
  | .countOut => (s.leaveOps, none)

/-! ## store_conditional32 and store_conditional64 -/

/-- A conditional store; `locked` is the slow path, which publishes through
`mark_write`. -/
structure ConditionalCall where
  word : GuestWord
  token : ℕ
  bytes : List UInt8
  locked : Bool
deriving DecidableEq

/-- Where a conditional store stands, once it has its ticket. -/
inductive ConditionalStep where
  | waitTurn
  | drainWriters
  | drainOps
  | resolve
  | loadSlot (slot generation : ℕ)
  | commitSlot (slot generation : ℕ) (expected : Descriptor)
  | cancel (slot generation : ℕ) (progress : Cancel)
  | invalidate (slot generation : ℕ) (progress : Invalidate)
  | storeWord (slot generation : ℕ)
  | countIn (slot : ℕ)
  | drawEpoch (slot : ℕ)
  | storeWrapped (slot : ℕ)
  | countOut (slot : ℕ)
  | clearSlot (slot : ℕ)
  | release
deriving DecidableEq

/-- Where a conditional store goes after its epoch. -/
def ConditionalCall.afterEpoch (k : ConditionalCall) (slot : ℕ) : ConditionalStep :=
  if k.locked then .countOut slot else .clearSlot slot

/-- The next step of a conditional store with the given ticket; `none` is its
return.  `flag` answers the second resolution, and makes a weak exchange fail. -/
def conditionalStep (k : ConditionalCall) (ticket : ℕ) (flag : Bool) (s : MonitorState) :
    ConditionalStep → MonitorState × Option ConditionalStep
  | .waitTurn =>
      if s.nowServing ≠ ticket then (s, some .waitTurn) else (s, some .drainWriters)
  | .drainWriters =>
      if s.activeWriters ≠ 0 then (s, some .drainWriters) else (s, some .drainOps)
  | .drainOps =>
      if s.activeOps ≠ 0 then (s, some .drainWriters) else (s, some .resolve)
  | .resolve =>
      if k.locked = false ∧ flag = true then (s, some .release)
      else
        match decodeToken k.token with
        | none => (s, some .release)
        | some (slot, generation) => (s, some (.loadSlot slot generation))
  | .loadSlot slot generation =>
      match s.slots slot with
      | none => (s, some (.cancel slot generation .load))
      | some d =>
          if d = activeSlot k.word generation then (s, some (.commitSlot slot generation d))
          else (s, some (.cancel slot generation .load))
  | .commitSlot slot generation expected =>
      if s.slots slot = some expected then
        (s.setSlot slot (some (committingSlot k.word generation)),
          some (.invalidate slot generation (.testSeen k.word.granule)))
      else (s, some .release)
  | .cancel _ _ .done => (s, some .release)
  | .cancel slot generation progress =>
      ((cancelStep slot generation flag s progress).1,
        some (.cancel slot generation (cancelStep slot generation flag s progress).2))
  | .invalidate slot generation .done => (s, some (.storeWord slot generation))
  | .invalidate slot generation progress =>
      let last := lastGranule k.word.address k.word.width
      ((invalidateStep k.word.granule last flag s progress).1,
        some (.invalidate slot generation (invalidateStep k.word.granule last flag s progress).2))
  | .storeWord slot generation =>
      (s.storeBytes k.word.address k.bytes
        (.commit slot generation k.word.address k.word.width),
        some (if k.locked then .countIn slot else .drawEpoch slot))
  | .countIn slot => (s.enterWriters, some (.drawEpoch slot))
  | .drawEpoch slot =>
      if (s.writeEpoch + 1) % 2 ^ 64 = 0 then (s.drawEpoch, some (.storeWrapped slot))
      else (s.drawEpoch, some (k.afterEpoch slot))
  | .storeWrapped slot => (s.wrapEpoch, some (k.afterEpoch slot))
  | .countOut slot => (s.leaveWriters, some (.clearSlot slot))
  | .clearSlot slot => (s.setSlot slot none, some .release)
  | .release => (s.serveNext, none)

/-! ## Ordinary stores -/

/-- Where an ordinary store stands.  `joined` is the participant flag that
`enter_write` returns. -/
inductive StoreStep where
  | countIn
  | testSeen (granule : ℕ)
  | joinOps
  | recheckGate (joined : Bool)
  | checkServing (blocked : Bool)
  | checkNext (blocked : Bool) (serving : ℕ)
  | backOutOps (wait : Bool)
  | backOutWriters (wait : Bool)
  | waitServing
  | waitNext (serving : ℕ)
  | invalidate (joined : Bool) (progress : Invalidate)
  | storeChunk (joined : Bool) (index : ℕ)
  | drawEpoch (joined : Bool)
  | storeWrapped (joined : Bool)
  | countOutOps (epoch : ℕ)
  | countOutWriters (epoch : ℕ)
deriving DecidableEq

/-- Where a store goes after its epoch. -/
def StoreStep.afterEpoch (joined : Bool) (epoch : ℕ) : StoreStep :=
  if joined then .countOutOps epoch else .countOutWriters epoch

/-- The next step of an ordinary store; `none` is its return.  `flag` answers the
test of the coherency gate, and makes a weak exchange fail. -/
def storeStep (k : StoreCall) (flag : Bool) (s : MonitorState) :
    StoreStep → MonitorState × Option StoreStep
  | .countIn => (s.enterWriters, some (.testSeen (granuleOf k.address)))
  | .testSeen granule =>
      if lastGranule k.address k.width < granule then (s, some (.recheckGate false))
      else if s.seen granule then (s, some .joinOps)
      else (s, some (.testSeen (granule + 1)))
  | .joinOps => (s.enterOps, some (.recheckGate true))
  | .recheckGate true => (s, some (.checkServing flag))
  | .recheckGate false =>
      if flag then (s, some (.backOutWriters false))
      else (s, some (.invalidate false (.testSeen (granuleOf k.address))))
  | .checkServing blocked => (s, some (.checkNext blocked s.nowServing))
  | .checkNext blocked serving =>
      if serving ≠ s.nextTicket then (s, some (.backOutOps true))
      else if blocked then (s, some (.backOutOps false))
      else (s, some (.invalidate true (.testSeen (granuleOf k.address))))
  | .backOutOps wait => (s.leaveOps, some (.backOutWriters wait))
  | .backOutWriters wait => (s.leaveWriters, some (if wait then .waitServing else .countIn))
  | .waitServing => (s, some (.waitNext s.nowServing))
  | .waitNext serving =>
      if serving ≠ s.nextTicket then (s, some .waitServing) else (s, some .countIn)
  | .invalidate joined .done => (s, some (.storeChunk joined 0))
  | .invalidate joined progress =>
      let first := granuleOf k.address
      let last := lastGranule k.address k.width
      ((invalidateStep first last flag s progress).1,
        some (.invalidate joined (invalidateStep first last flag s progress).2))
  | .storeChunk joined index =>
      match k.chunks[index]? with
      | none => (s, some (.drawEpoch joined))
      | some chunk =>
          (s.storeBytes (k.chunkAddress index) chunk
            (.store (k.chunkAddress index) chunk.length),
            some (.storeChunk joined (index + 1)))
  | .drawEpoch joined =>
      if (s.writeEpoch + 1) % 2 ^ 64 = 0 then (s.drawEpoch, some (.storeWrapped joined))
      else (s.drawEpoch, some (.afterEpoch joined ((s.writeEpoch + 1) % 2 ^ 64)))
  | .storeWrapped joined => (s.wrapEpoch, some (.afterEpoch joined 1))
  | .countOutOps epoch => (s.leaveOps, some (.countOutWriters epoch))
  | .countOutWriters _ => (s.leaveWriters, none)

/-! ## The threads -/

/-- A guest thread: idle, or inside one of the four calls. -/
inductive MonitorThread where
  | idle
  | reserve (w : GuestWord) (step : ReserveStep)
  | conditional (k : ConditionalCall) (ticket : ℕ) (step : ConditionalStep)
  | store (k : StoreCall) (step : StoreStep)
  | cancel (slot generation : ℕ) (progress : Cancel)
deriving DecidableEq

/-- The calls a thread may begin. -/
inductive MonitorCall where
  | reserve (w : GuestWord)
  | storeConditional (k : ConditionalCall)
  | store (k : StoreCall)
  | cancelReservation (token : ℕ)

/-- What the scheduler chooses: a call for an idle thread, or the thread's next
step with the answer it leaves open. -/
inductive MonitorChoice where
  | call (c : MonitorCall)
  | next (flag : Bool)

/-- An idle thread begins a call; a conditional store without a token returns at
once, and otherwise begins by taking its ticket. -/
def beginMonitorCall (s : MonitorState) : MonitorCall → Option (MonitorState × MonitorThread)
  | .reserve w => some (s, .reserve w .waitServing)
  | .storeConditional k =>
      if k.token = 0 then none
      else some (s.takeTicket, .conditional k s.nextTicket .waitTurn)
  | .store k => some (s, .store k .countIn)
  | .cancelReservation token =>
      (decodeToken token).map fun r => (s, .cancel r.1 r.2 .load)

/-- A call goes on or has returned. -/
def MonitorThread.resume {P : Type} (call : P → MonitorThread) : Option P → MonitorThread
  | some step => call step
  | none => .idle

/-- One atomic step of a thread. -/
def monitorProgram (s : MonitorState) :
    MonitorThread → MonitorChoice → Option (MonitorState × MonitorThread)
  | .idle, .call c => beginMonitorCall s c
  | .idle, .next _ => none
  | .reserve w step, .next flag =>
      some ((reserveStep w flag s step).1, .resume (.reserve w) (reserveStep w flag s step).2)
  | .conditional k ticket step, .next flag =>
      some ((conditionalStep k ticket flag s step).1,
        .resume (.conditional k ticket) (conditionalStep k ticket flag s step).2)
  | .store k step, .next flag =>
      some ((storeStep k flag s step).1, .resume (.store k) (storeStep k flag s step).2)
  | .cancel _ _ .done, .next _ => some (s, .idle)
  | .cancel slot generation progress, .next flag =>
      some ((cancelStep slot generation flag s progress).1,
        .cancel slot generation (cancelStep slot generation flag s progress).2)
  | _, .call _ => none

end Memory
end XenonRecomp
