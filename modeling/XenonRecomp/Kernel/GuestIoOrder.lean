/-
# Reports and results

When the reports of a file operation follow its results.  The packet is posted
inside the file layer and the event is set in `IoFacade`, both before
`GuestIoBridge` writes the buffer and the status block; the APC comes after
both.  So an observer of the packet or of the event has to wait until the call
returns, and even then three things set the status of the packet apart from the
one in the status block: a read at the end of the file, an event that cannot be
set, and a write to guest memory that faults after the report
(`completion_follows_results`).

`Bound` ties what a call still has to do to the transfer; every step of an
orderly call keeps it (`advance_step`).
-/

import XenonRecomp.Kernel.GuestIo

namespace XenonRecomp
namespace Kernel

open Library.Transition

/-! ### Orderly runs -/

/-- The packet was posted or the event was set. -/
def IoRecord.reported (r : IoRecord) : Bool :=
  r.packet || r.signalled

/-- The answer of `set_event`, if there is an event. -/
def IoRecord.setEvent (r : IoRecord) (answer : Answer) : Option KernelIoCode :=
  r.call.event.map fun _ => answer.setEvent

/-- The event cannot be set. -/
def IoRecord.eventFails (r : IoRecord) (answer : Answer) : Bool :=
  r.call.event.isSome && answer.setEvent ≠ .success

/-- The outcome of the transfer and the event do not go together with the reports:
a read at the end of the file, or an event that cannot be set, after the packet;
a directory record that is not delivered, but reported. -/
def IoRecord.splits (r : IoRecord) (t : Transfer) (answer : Answer) : Bool :=
  let differs := r.eventFails answer && mapStatus answer.setEvent ≠ mapStatus t.code
  match r.call.operation with
  | .readFile _ length | .readFileScatter _ length =>
      t.packet && (decide (t.EndOfFile length) || differs)
  | .writeFile _ => t.packet && differs
  | .queryDirectoryFile _ length =>
      t.code = .success && t.entry.any fun entry =>
        if r.eventFails answer then t.packet || r.call.wantsApc
        else length < entry.recordSize && (t.packet || r.call.event.isSome)

/-- The next step of a call does not break what the call has reported. -/
def IoRecord.permits (r : IoRecord) (answer : Answer) : GuestIoStage → Bool
  | .transfer | .post _ | .store [] _ | .queueApc _ => true
  | .signal t => !r.splits t answer
  | .store (_ :: _) _ | .check _ | .storeStatus _ | .storeInformation _ =>
      !r.reported || answer.writable

/-- The step breaks no report, and observes none before its call has returned. -/
def GuestIo.orderly {T : Type} (s : GuestIo T) (e : T × GuestIoAction) : Bool :=
  match s.places e.1, e.2 with
  | none, .observe channel id _ =>
      channel = .apc || ((s.records id).bind (·.returned)).isSome
  | some (id, stage), .next answer => (s.records id).all (·.permits answer stage)
  | _, _ => true

/-! ### The end of a call -/

theorem mapStatus_eq_success {code : KernelIoCode} :
    mapStatus code = statusSuccess ↔ code = .success := by
  cases code <;> decide

/-- The operation is or will be reported. -/
def IoRecord.Due (r : IoRecord) (finish : Finish) : Prop :=
  r.reported = true ∨
    (finish.apc = true ∧ r.call.wantsApc = true ∧ finish.block.status = statusSuccess)

/-- What a call still has to do goes together with its transfer. -/
structure IoRecord.Bound (r : IoRecord) (t : Transfer) (finish : Finish)
    (remaining : List GuestWrite) : Prop where
  transfer : r.transfer = some t
  due : r.Due finish → finish.block = completion r.call.operation t ∧
    ∀ write ∈ results r.call.operation t, write ∈ r.stored ∨ write ∈ remaining
  agreed : r.packet = true → finish.block.status = mapStatus t.code

/-- An event that cannot be set replaces the status. -/
theorem signalEventIfPresent_eq (r : IoRecord) (answer : Answer) (current : BitVec 32) :
    signalEventIfPresent (r.setEvent answer) current =
      if r.eventFails answer then mapStatus answer.setEvent else current := by
  unfold signalEventIfPresent IoRecord.setEvent IoRecord.eventFails
  cases r.call.event with
  | none => rfl
  | some event => by_cases hcode : answer.setEvent = .success <;> simp [hcode]

/-- The byte counts of transfers are words. -/
theorem information_toNat {t : Transfer} {length : ℕ} (hinfo : t.information ≤ length)
    (hlength : length ≤ maxTransferBytes) :
    min t.information (2 ^ 32 - 1) = t.information ∧
      (BitVec.ofNat 32 t.information).toNat = t.information := by
  have hmax : maxTransferBytes < 2 ^ 32 - 1 := by decide
  refine ⟨by omega, ?_⟩
  rw [BitVec.toNat_ofNat, Nat.mod_eq_of_lt (by omega)]

/-- What `finish_io_status` gives: the outcome of the transfer, or the status of an
event that cannot be set. -/
theorem finishIoStatus_cases (r : IoRecord) (t : Transfer) (answer : Answer) {length : ℕ}
    (hinfo : t.information ≤ length) (hlength : length ≤ maxTransferBytes) :
    (finishIoStatus t answer.asynchronousHandle (r.setEvent answer)).1 =
        ⟨mapStatus t.code, BitVec.ofNat 32 t.information⟩ ∨
      ((r.eventFails answer && mapStatus answer.setEvent ≠ mapStatus t.code) = true ∧
        (finishIoStatus t answer.asynchronousHandle (r.setEvent answer)).1 =
          ⟨mapStatus answer.setEvent, 0⟩) := by
  have hmin := (information_toNat hinfo hlength).1
  unfold finishIoStatus
  simp only [hmin, signalEventIfPresent_eq]
  by_cases hfails : r.eventFails answer = true
  · by_cases hsame : mapStatus answer.setEvent = mapStatus t.code
    · exact .inl (by simp [hfails, hsame])
    · exact .inr (by simp [hfails, hsame])
  · exact .inl (by simp [hfails])

/-- The record once `set_event` has answered. -/
def IoRecord.signal (r : IoRecord) (answer : Answer) : IoRecord :=
  if r.setEvent answer = some .success then { r with signalled := true } else r

namespace IoRecord

variable {r : IoRecord} {t : Transfer} {answer : Answer} {finish : Finish}
  {remaining : List GuestWrite}

@[simp] theorem signal_call : (r.signal answer).call = r.call := by
  unfold signal
  split_ifs <;> rfl

@[simp] theorem signal_transfer : (r.signal answer).transfer = r.transfer := by
  unfold signal
  split_ifs <;> rfl

@[simp] theorem signal_packet : (r.signal answer).packet = r.packet := by
  unfold signal
  split_ifs <;> rfl

@[simp] theorem signal_stored : (r.signal answer).stored = r.stored := by
  unfold signal
  split_ifs <;> rfl

@[simp] theorem signal_block : (r.signal answer).block = r.block := by
  unfold signal
  split_ifs <;> rfl

@[simp] theorem signal_returned : (r.signal answer).returned = r.returned := by
  unfold signal
  split_ifs <;> rfl

/-- An event that cannot be set reports nothing. -/
theorem signal_reported_of_fails (hfails : r.eventFails answer = true)
    (hsignalled : r.signalled = false) : (r.signal answer).reported = r.packet := by
  have hne : r.setEvent answer ≠ some .success := by
    unfold setEvent eventFails at *
    simp only [Bool.and_eq_true, decide_eq_true_eq] at hfails
    obtain ⟨event, hevent⟩ := Option.isSome_iff_exists.mp hfails.1
    simpa [hevent] using hfails.2
  rw [signal, if_neg hne, reported, hsignalled, Bool.or_false]

/-- Without an event only the packet reports. -/
theorem signal_reported_of_none (hevent : r.call.event.isSome = false)
    (hsignalled : r.signalled = false) : (r.signal answer).reported = r.packet := by
  have hne : r.setEvent answer ≠ some .success := by
    unfold setEvent
    simp [Option.not_isSome_iff_eq_none.mp (Bool.eq_false_iff.mp hevent)]
  rw [signal, if_neg hne, reported, hsignalled, Bool.or_false]

/-- An operation that nobody hears of is bound to nothing. -/
theorem Bound.of_silent (htransfer : r.transfer = some t) (hreported : r.reported = false)
    (hapc : ¬(finish.apc = true ∧ r.call.wantsApc = true ∧ finish.block.status = statusSuccess)) :
    r.Bound t finish remaining := by
  have hpacket : r.packet = false := by
    rw [reported, Bool.or_eq_false_iff] at hreported
    exact hreported.1
  refine ⟨htransfer, fun hdue => ?_, fun hp => absurd hp (by simp [hpacket])⟩
  rcases hdue with hr | hr
  · exact absurd hr (by simp [hreported])
  · exact absurd hr hapc

/-- The end of a read or a write whose event was asked to be set. -/
theorem bound_of_finishIoStatus (htransfer : r.transfer = some t) (hpacket : r.packet = t.packet)
    (hsignalled : r.signalled = false) {length : ℕ} (hinfo : t.information ≤ length)
    (hlength : length ≤ maxTransferBytes)
    (hsplits : (t.packet && (r.eventFails answer &&
      mapStatus answer.setEvent ≠ mapStatus t.code)) = false)
    (hcompletion : completion r.call.operation t =
      ⟨mapStatus t.code, BitVec.ofNat 32 t.information⟩) {result : BitVec 32}
    (hwrites : (finishIoStatus t answer.asynchronousHandle (r.setEvent answer)).1 =
      completion r.call.operation t → ∀ write ∈ results r.call.operation t, write ∈ remaining) :
    (r.signal answer).Bound t
      ⟨(finishIoStatus t answer.asynchronousHandle (r.setEvent answer)).1, true, result⟩
      remaining := by
  rcases finishIoStatus_cases r t answer hinfo hlength with hblock | ⟨hdiffers, hblock⟩
  · rw [← hcompletion] at hblock
    refine ⟨by simpa using htransfer, fun _ => ⟨by simpa using hblock, fun write hw => .inr ?_⟩,
      fun _ => ?_⟩
    · exact hwrites hblock write (by simpa using hw)
    · rw [hblock, hcompletion]
  · have hfails : r.eventFails answer = true := by
      simp only [Bool.and_eq_true] at hdiffers
      exact hdiffers.1
    have hnone : t.packet = false := by
      rw [hdiffers, Bool.and_true] at hsplits
      exact hsplits
    refine .of_silent (by simpa using htransfer) ?_ ?_
    · rw [signal_reported_of_fails hfails hsignalled, hpacket, hnone]
    · rintro ⟨-, -, hstatus⟩
      rw [hblock] at hstatus
      have hcode := mapStatus_eq_success.mp hstatus
      simp [eventFails, hcode] at hfails

/-- The end of a directory query. -/
theorem bound_of_directory (htransfer : r.transfer = some t) (hpacket : r.packet = t.packet)
    (hsignalled : r.signalled = false) {buffer : BitVec 32} {length : ℕ}
    (hoperation : r.call.operation = .queryDirectoryFile buffer length)
    (hsplits : (t.code = .success && t.entry.any fun entry =>
      if r.eventFails answer then t.packet || r.call.wantsApc
      else length < entry.recordSize && (t.packet || r.call.event.isSome)) = false) :
    (r.signal answer).Bound t
      (conclude (.queryDirectoryFile buffer length) t answer.asynchronousHandle
        (r.setEvent answer)).2
      (conclude (.queryDirectoryFile buffer length) t answer.asynchronousHandle
        (r.setEvent answer)).1 := by
  have htransfer' : (r.signal answer).transfer = some t := by simpa using htransfer
  have hevent : ∀ {code}, (if r.eventFails answer then mapStatus answer.setEvent else
      mapStatus code) = statusSuccess ↔ r.eventFails answer = false ∧ code = .success := by
    intro code
    by_cases hfails : r.eventFails answer = true
    · have hne : answer.setEvent ≠ .success := by
        simp only [eventFails, Bool.and_eq_true, decide_eq_true_eq] at hfails
        exact hfails.2
      simp [hfails, mapStatus_eq_success, hne]
    · simp [hfails, mapStatus_eq_success]
  have hzero : mapStatus .success = statusSuccess := rfl
  simp only [conclude, facadeQueryDirectoryFile, signalEventIfPresent_eq]
  by_cases hcode : t.code = .success
  · simp only [hcode, ne_eq, not_true, if_false]
    cases hentry : t.entry with
    | none =>
        refine ⟨htransfer', fun _ => ⟨?_, ?_⟩, fun _ => ?_⟩
        · simp [hoperation, completion, hcode, hentry]
        · simp [hoperation, results, hcode, hentry]
        · rw [hcode, hzero]
    | some entry =>
        simp only [hcode, hentry, Option.any_some, decide_true, Bool.true_and] at hsplits
        by_cases hfails : r.eventFails answer = true
        · have hne : (if r.eventFails answer then mapStatus answer.setEvent else statusSuccess) ≠
              statusSuccess :=
            (@hevent .success).not.mpr (by simp [hfails])
          simp only [hfails, if_true, Bool.or_eq_false_iff] at hsplits
          simp only [if_pos hne]
          refine .of_silent htransfer' ?_ ?_
          · rw [signal_reported_of_fails hfails hsignalled, hpacket, hsplits.1]
          · simp [hsplits.2]
        · simp only [hfails, Bool.false_eq_true, if_false, not_true]
          by_cases hoverflow : length < entry.recordSize
          · rw [if_pos hoverflow]
            simp only [hfails, Bool.false_eq_true, if_false, hoverflow, decide_true, Bool.true_and,
              Bool.or_eq_false_iff] at hsplits
            refine .of_silent htransfer' ?_ (by simp)
            rw [signal_reported_of_none hsplits.2 hsignalled, hpacket, hsplits.1]
          · rw [if_neg hoverflow]
            refine ⟨htransfer', fun _ => ⟨?_, fun write hw => .inr ?_⟩, fun _ => ?_⟩
            · simp [hoperation, completion, hcode, hentry]
            · simpa [hoperation, results, hcode, hentry] using hw
            · rw [hcode, hzero]
  · simp only [hcode, ne_eq, not_false_eq_true, if_true]
    have hne : (if r.eventFails answer then mapStatus answer.setEvent else mapStatus t.code) ≠
        statusSuccess := by
      rw [Ne, hevent]
      simp [hcode]
    have hbound : ∀ result, (r.signal answer).Bound t ⟨⟨mapStatus t.code, 0⟩, true, result⟩ [] := by
      refine fun result => ⟨htransfer', fun _ => ⟨?_, ?_⟩, fun _ => rfl⟩
      · simp [hoperation, completion, hcode]
      · simp [hoperation, results, hcode]
    cases t.entry with
    | none => exact hbound _
    | some entry =>
        simp only [if_pos hne]
        exact hbound _

/-- What a call does after its event goes together with its reports. -/
theorem conclude_bound (htransfer : r.transfer = some t) (hpossible : t.Possible r.call.operation)
    (hlength : r.call.operation.length ≤ maxTransferBytes) (hpacket : r.packet = t.packet)
    (hsignalled : r.signalled = false) (hsplits : r.splits t answer = false) :
    (r.signal answer).Bound t
      (conclude r.call.operation t answer.asynchronousHandle (r.setEvent answer)).2
      (conclude r.call.operation t answer.asynchronousHandle (r.setEvent answer)).1 := by
  obtain ⟨hinfo, hfailed⟩ := hpossible
  unfold splits at hsplits
  have hend : ∀ {finish : Finish} {remaining : List GuestWrite},
      finish.block = completion r.call.operation t → completion r.call.operation t =
        ⟨statusEndOfFile, 0⟩ → t.packet = false → results r.call.operation t = [] →
      (r.signal answer).Bound t finish remaining := by
    intro finish remaining hblock hcompletion hnone hresults
    refine ⟨by simpa using htransfer, fun _ => ⟨by simpa using hblock, ?_⟩, fun hp => ?_⟩
    · rw [signal_call, hresults]
      simp
    · rw [signal_packet, hpacket, hnone] at hp
      simp at hp
  cases hoperation : r.call.operation with
  | readFile buffer length =>
      rw [hoperation] at hinfo hlength hsplits hend
      dsimp only at hsplits
      simp only [conclude, facadeReadFile]
      rw [Bool.and_or_distrib_left, Bool.or_eq_false_iff] at hsplits
      by_cases heof : t.EndOfFile length
      · simp only [if_pos heof]
        refine hend ?_ ?_ ?_ ?_
        · simp [completion, heof]
        · simp [completion, heof]
        · simpa [heof] using hsplits.1
        · simp [results, heof.2.1]
      · simp only [if_neg heof]
        have hcompletion : completion r.call.operation t =
            ⟨mapStatus t.code, BitVec.ofNat 32 t.information⟩ := by
          simp [hoperation, completion, heof]
        refine bound_of_finishIoStatus htransfer hpacket hsignalled hinfo hlength hsplits.2
          hcompletion fun hblock write hw => ?_
        rw [hcompletion] at hblock
        rw [hoperation, results] at hw
        split_ifs at hw with hzero
        · simp at hw
        · have hcode : t.code = .success := by
            by_contra hne
            exact hzero (hfailed hne)
          have hnat := (information_toNat hinfo hlength).2
          have hne : BitVec.ofNat 32 t.information ≠ 0 := by
            intro h
            rw [h] at hnat
            exact hzero hnat.symm
          have hstatus : mapStatus t.code = statusSuccess := mapStatus_eq_success.mpr hcode
          rw [hblock, if_pos ⟨.inl hstatus, hne⟩, hnat]
          exact hw
  | readFileScatter segments length =>
      rw [hoperation] at hinfo hlength hsplits hend
      dsimp only at hsplits
      simp only [conclude, facadeReadFile]
      rw [Bool.and_or_distrib_left, Bool.or_eq_false_iff] at hsplits
      by_cases heof : t.EndOfFile length
      · simp only [if_pos heof]
        refine hend ?_ ?_ ?_ ?_
        · simp [completion, heof]
        · simp [completion, heof]
        · simpa [heof] using hsplits.1
        · cases segments <;> simp [results, scatter, heof.2.1]
      · simp only [if_neg heof]
        have hcompletion : completion r.call.operation t =
            ⟨mapStatus t.code, BitVec.ofNat 32 t.information⟩ := by
          simp [hoperation, completion, heof]
        refine bound_of_finishIoStatus htransfer hpacket hsignalled hinfo hlength hsplits.2
          hcompletion fun hblock write hw => ?_
        rw [hblock, hcompletion, (information_toNat hinfo hlength).2]
        rw [hoperation, results] at hw
        exact hw
  | writeFile length =>
      rw [hoperation] at hinfo hlength hsplits
      dsimp only at hsplits
      simp only [conclude]
      refine bound_of_finishIoStatus htransfer hpacket hsignalled hinfo hlength hsplits ?_
        fun _ write hw => ?_
      · simp [hoperation, completion]
      · rw [hoperation, results] at hw
        exact hw
  | queryDirectoryFile buffer length =>
      rw [hoperation] at hsplits
      dsimp only at hsplits
      exact bound_of_directory htransfer hpacket hsignalled hoperation hsplits

/-! ### One step of a call -/

/-- How far the record is at each stage. -/
def Progress (r : IoRecord) : GuestIoStage → Prop
  | .transfer => r.packet = false ∧ r.signalled = false ∧ r.block = none
  | .post t => r.transfer = some t ∧ t.Possible r.call.operation ∧ r.packet = false ∧
      r.signalled = false ∧ r.block = none
  | .signal t => r.transfer = some t ∧ t.Possible r.call.operation ∧ r.packet = t.packet ∧
      r.signalled = false ∧ r.block = none
  | .store remaining finish => (∃ t, r.Bound t finish remaining) ∧ r.block = none
  | .check finish | .storeStatus finish | .storeInformation finish =>
      (∃ t, r.Bound t finish []) ∧ r.block = none
  | .queueApc finish => (∃ t, r.Bound t finish []) ∧
      (r.block = some finish.block ∨ (r.call.ioStatusBlock = 0 ∧ r.block = none))

/-- What a step of an orderly call leaves. -/
structure Advanced (r r' : IoRecord) (stage : Option GuestIoStage) (report : Option Channel) :
    Prop where
  call : r'.call = r.call
  keeps : r.reported = true → r'.reported = true
  goesOn : ∀ next, stage = some next → r'.returned = none ∧ r'.Progress next
  ends : stage = none → r'.returned.isSome = true ∧ (r'.reported = true → r'.Published)
  agreed : r'.Agreed
  reports : ∀ channel, report = some channel →
    if channel = .apc then stage = none ∧ r'.Published else r'.reported = true

/-- Without a status block there is nothing to agree on. -/
theorem agreed_of_none (h : r.block = none) : r.Agreed :=
  fun _ block _ _ hblock => by simp [h] at hblock

/-- A step that only changes the stage. -/
theorem Advanced.of_stage {next : GuestIoStage} (hreturned : r.returned = none)
    (hnext : r.Progress next) (hagreed : r.Agreed) : Advanced r r (some next) none :=
  ⟨rfl, id, fun _ h => Option.some.inj h ▸ ⟨hreturned, hnext⟩, nofun, hagreed, nofun⟩

/-- A call that returns although its status block was not written has reported
nothing. -/
theorem Advanced.of_unwritten (hreported : r.reported = false) (hblock : r.block = none)
    (result : BitVec 32) : Advanced r { r with returned := some result } none none := by
  refine ⟨rfl, id, nofun, fun _ => ⟨rfl, fun h => ?_⟩, agreed_of_none hblock, nofun⟩
  exact absurd (hreported.symm.trans h) Bool.false_ne_true

/-- What is bound and has its results and its status block is published. -/
theorem Bound.published (h : r.Bound t finish []) (hdue : r.Due finish)
    (hblock : r.block = some finish.block ∨ (r.call.ioStatusBlock = 0 ∧ r.block = none)) :
    r.Published := by
  obtain ⟨hcompletion, hresults⟩ := h.due hdue
  refine ⟨t, h.transfer, fun write hw => (hresults write hw).resolve_right List.not_mem_nil,
    fun haddress => ?_⟩
  rcases hblock with hblock | ⟨hzero, -⟩
  · rw [hblock, hcompletion]
  · exact absurd hzero haddress

theorem Bound.agreedWith (h : r.Bound t finish remaining)
    (hblock : r.block = some finish.block ∨ r.block = none) : r.Agreed := by
  intro u block hu hpacket hb
  obtain rfl : t = u := Option.some.inj (h.transfer.symm.trans hu)
  rcases hblock with hblock | hblock
  · obtain rfl : finish.block = block := Option.some.inj (hblock.symm.trans hb)
    exact h.agreed hpacket
  · simp [hblock] at hb

/-- **A step of an orderly call keeps its record in order.** -/
theorem advance_step {stage : GuestIoStage}
    (hlength : r.call.operation.length ≤ maxTransferBytes) (hreturned : r.returned = none)
    (h : r.Progress stage) (hpermits : r.permits answer stage = true) :
    Advanced r (advance r answer stage).1 (advance r answer stage).2.1
      (advance r answer stage).2.2 := by
  have hquiet : answer.writable ≠ true → (!r.reported || answer.writable) = true →
      r.reported = false := by
    intro hw hp
    simpa [hw] using hp
  cases stage with
  | transfer =>
      obtain ⟨hpacket, hsignalled, hblock⟩ := h
      rw [advance]
      split_ifs with hpossible
      · exact ⟨rfl, id, fun _ h => Option.some.inj h ▸
          ⟨hreturned, rfl, hpossible, hpacket, hsignalled, hblock⟩, nofun, agreed_of_none hblock,
          nofun⟩
      · exact .of_stage hreturned ⟨hpacket, hsignalled, hblock⟩ (agreed_of_none hblock)
  | post t =>
      obtain ⟨htransfer, hpossible, hpacket, hsignalled, hblock⟩ := h
      rw [advance]
      split_ifs with hposts
      · refine ⟨rfl, fun _ => rfl, fun _ h => Option.some.inj h ▸
          ⟨hreturned, htransfer, hpossible, hposts.symm, hsignalled, hblock⟩, nofun,
          agreed_of_none hblock, fun channel hchannel => ?_⟩
        obtain rfl := Option.some.inj hchannel
        rw [if_neg (by simp)]
        rfl
      · refine .of_stage hreturned ⟨htransfer, hpossible, ?_, hsignalled, hblock⟩
          (agreed_of_none hblock)
        rw [hpacket, Bool.eq_false_iff.mpr hposts]
  | signal t =>
      obtain ⟨htransfer, hpossible, hpacket, hsignalled, hblock⟩ := h
      have hbound := conclude_bound htransfer hpossible hlength hpacket hsignalled
        (by simpa [permits] using hpermits)
      have hfields : (r.signal answer).returned = none ∧ (r.signal answer).block = none := by
        simp [hreturned, hblock]
      rw [advance]
      simp only
      change Advanced r _ _ _
      by_cases hset : r.setEvent answer = some .success
      · have hsignal : r.signal answer = { r with signalled := true } := if_pos hset
        rw [hsignal] at hbound hfields
        unfold setEvent at *
        rw [if_pos hset]
        refine ⟨rfl, fun _ => by simp [reported], fun _ h => Option.some.inj h ▸
          ⟨hfields.1, ⟨_, hbound⟩, hfields.2⟩, nofun, agreed_of_none hblock, fun channel hc => ?_⟩
        obtain ⟨event, -, rfl⟩ := Option.map_eq_some_iff.mp hc
        rw [if_neg (by simp)]
        simp [reported]
      · have hsignal : r.signal answer = r := if_neg hset
        rw [hsignal] at hbound
        unfold setEvent at *
        rw [if_neg hset]
        exact .of_stage hreturned ⟨⟨_, hbound⟩, hblock⟩ (agreed_of_none hblock)
  | store remaining finish =>
      obtain ⟨⟨t, hbound⟩, hblock⟩ := h
      cases remaining with
      | nil =>
          rw [advance]
          split_ifs with haddress
          · exact .of_stage hreturned ⟨⟨t, hbound⟩, .inr ⟨haddress, hblock⟩⟩ (agreed_of_none hblock)
          · exact .of_stage hreturned ⟨⟨t, hbound⟩, hblock⟩ (agreed_of_none hblock)
      | cons write remaining =>
          rw [advance]
          split_ifs with hwritable
          · refine ⟨rfl, id, fun _ h => Option.some.inj h ▸ ⟨hreturned, ⟨t, hbound.transfer,
              fun hdue => ?_, hbound.agreed⟩, hblock⟩, nofun, agreed_of_none hblock, nofun⟩
            obtain ⟨hcompletion, hresults⟩ := hbound.due hdue
            refine ⟨hcompletion, fun w hw => ?_⟩
            rcases hresults w hw with hstored | hremaining
            · exact .inl (List.mem_append_left _ hstored)
            · rcases List.mem_cons.mp hremaining with rfl | hremaining
              · exact .inl (List.mem_append_right _ List.mem_cons_self)
              · exact .inr hremaining
          · have hsilent := hquiet hwritable hpermits
            exact .of_stage hreturned ⟨⟨t, .of_silent hbound.transfer hsilent (by simp [faulted])⟩,
              hblock⟩ (agreed_of_none hblock)
  | check finish =>
      obtain ⟨hbound, hblock⟩ := h
      rw [advance]
      split_ifs with hwritable
      · exact .of_stage hreturned ⟨hbound, hblock⟩ (agreed_of_none hblock)
      · exact .of_unwritten (hquiet hwritable hpermits) hblock _
  | storeStatus finish =>
      obtain ⟨hbound, hblock⟩ := h
      rw [advance]
      split_ifs with hwritable
      · exact .of_stage hreturned ⟨hbound, hblock⟩ (agreed_of_none hblock)
      · exact .of_unwritten (hquiet hwritable hpermits) hblock _
  | storeInformation finish =>
      obtain ⟨⟨t, hbound⟩, hblock⟩ := h
      rw [advance]
      split_ifs with hwritable
      · have hnext : ({ r with block := some finish.block } : IoRecord).Bound t finish [] :=
          ⟨hbound.transfer, hbound.due, hbound.agreed⟩
        exact ⟨rfl, id, fun _ h => Option.some.inj h ▸ ⟨hreturned, ⟨t, hnext⟩, .inl rfl⟩, nofun,
          hnext.agreedWith (.inl rfl), nofun⟩
      · exact .of_unwritten (hquiet hwritable hpermits) hblock _
  | queueApc finish =>
      obtain ⟨⟨t, hbound⟩, hblock⟩ := h
      have hends : ∀ report, (∀ channel, report = some channel → channel = .apc ∧ r.Due finish) →
          Advanced r { r with returned := some finish.result } none report := by
        intro report hreport
        have hnext : ({ r with returned := some finish.result } : IoRecord).Bound t finish [] :=
          ⟨hbound.transfer, hbound.due, hbound.agreed⟩
        refine ⟨rfl, id, nofun, fun _ => ⟨rfl, fun h => hnext.published (.inl h) hblock⟩,
          hnext.agreedWith (hblock.imp_right And.right), fun channel hc => ?_⟩
        obtain ⟨rfl, hdue⟩ := hreport channel hc
        rw [if_pos rfl]
        exact ⟨rfl, hnext.published hdue hblock⟩
      rw [advance]
      split_ifs with hapc
      · refine hends _ fun channel hc => ⟨(Option.some.inj hc).symm, .inr ?_⟩
        simpa [and_assoc] using hapc
      · exact hends _ nofun

end IoRecord

/-! ### Runs -/

namespace GuestIo

variable {T : Type}

/-- The operations of a system, and what their reports say. -/
structure InOrder (s : GuestIo T) : Prop where
  numbered : ∀ id r, s.records id = some r → id < s.nextOperation
  active : ∀ t id stage, s.places t = some (id, stage) → ∃ r, s.records id = some r ∧
    r.call.operation.length ≤ maxTransferBytes ∧ r.returned = none ∧ r.Progress stage
  apart : ∀ t u id stage stage', s.places t = some (id, stage) →
    s.places u = some (id, stage') → t = u
  settled : ∀ id r, s.records id = some r → r.returned.isSome = true → r.reported = true →
    r.Published
  agreed : ∀ id r, s.records id = some r → r.Agreed
  reports : ∀ channel id, (channel, id) ∈ s.reports → ∃ r, s.records id = some r ∧
    if channel = .apc then r.returned.isSome = true ∧ r.Published else r.reported = true

theorem InOrder.init : (GuestIo.init : GuestIo T).InOrder where
  numbered _ _ h := by simp [GuestIo.init] at h
  active _ _ _ h := by simp [GuestIo.init] at h
  apart _ _ _ _ _ h := by simp [GuestIo.init] at h
  settled _ _ h := by simp [GuestIo.init] at h
  agreed _ _ h := by simp [GuestIo.init] at h
  reports _ _ h := by simp [GuestIo.init] at h

variable [DecidableEq T] {s : GuestIo T}

/-- A new operation has a number of its own and has reported nothing. -/
theorem InOrder.beginCall (h : s.InOrder) {t : T} (hidle : s.places t = none) (call : IoCall) :
    (s.beginCall t call).InOrder := by
  rw [GuestIo.beginCall]
  split_ifs with hlength
  · exact h
  have hfresh : ∀ {id r}, s.records id = some r → id ≠ s.nextOperation :=
    fun hr => (h.numbered _ _ hr).ne
  have hplace : ∀ {u id stage}, s.places u = some (id, stage) → id ≠ s.nextOperation := by
    intro u id stage hu
    obtain ⟨r, hr, -⟩ := h.active u id stage hu
    exact hfresh hr
  have hrecord : ∀ {id r}, Function.update s.records s.nextOperation (some (.begin call)) id =
      some r → (id = s.nextOperation ∧ r = .begin call) ∨ s.records id = some r := by
    intro id r hr
    by_cases hid : id = s.nextOperation
    · subst hid
      rw [Function.update_self] at hr
      exact .inl ⟨rfl, (Option.some.inj hr).symm⟩
    · rw [Function.update_of_ne hid] at hr
      exact .inr hr
  refine ⟨fun id r hr => ?_, fun u id stage hu => ?_, fun u v id stage stage' hu hv => ?_,
    fun id r hr hreturned hreported => ?_, fun id r hr => ?_, fun channel id hc => ?_⟩
  all_goals dsimp only at *
  · rcases hrecord hr with ⟨rfl, -⟩ | hr
    · exact Nat.lt_succ_self _
    · exact Nat.lt_succ_of_lt (h.numbered id r hr)
  · by_cases htu : u = t
    · subst htu
      rw [Function.update_self] at hu
      obtain ⟨rfl, rfl⟩ := Prod.mk.inj (Option.some.inj hu)
      exact ⟨.begin call, Function.update_self .., not_lt.mp hlength, rfl, rfl, rfl, rfl⟩
    · rw [Function.update_of_ne htu] at hu
      obtain ⟨r, hr, hrest⟩ := h.active u id stage hu
      exact ⟨r, by rw [Function.update_of_ne (hfresh hr), hr], hrest⟩
  · by_cases htu : u = t
    · by_cases htv : v = t
      · rw [htu, htv]
      · subst htu
        rw [Function.update_self] at hu
        rw [Function.update_of_ne htv] at hv
        exact absurd (Prod.mk.inj (Option.some.inj hu)).1.symm (hplace hv)
    · by_cases htv : v = t
      · subst htv
        rw [Function.update_self] at hv
        rw [Function.update_of_ne htu] at hu
        exact absurd (Prod.mk.inj (Option.some.inj hv)).1.symm (hplace hu)
      · rw [Function.update_of_ne htu] at hu
        rw [Function.update_of_ne htv] at hv
        exact h.apart u v id stage stage' hu hv
  · rcases hrecord hr with ⟨-, rfl⟩ | hr
    · simp [IoRecord.begin] at hreturned
    · exact h.settled id r hr hreturned hreported
  · rcases hrecord hr with ⟨-, rfl⟩ | hr
    · exact IoRecord.agreed_of_none rfl
    · exact h.agreed id r hr
  · obtain ⟨r, hr, hrest⟩ := h.reports channel id hc
    exact ⟨r, by rw [Function.update_of_ne (hfresh hr), hr], hrest⟩

omit [DecidableEq T] in
/-- Taking a report away leaves the others. -/
theorem InOrder.erase (h : s.InOrder) (report : Channel × ℕ) :
    ({ s with reports := s.reports.erase report } : GuestIo T).InOrder :=
  { h with reports := fun channel id hc => h.reports channel id (List.mem_of_mem_erase hc) }

/-- A step of a call that keeps its record in order keeps the system in order. -/
theorem InOrder.advanced (h : s.InOrder) {t : T} {id : ℕ} {stage : GuestIoStage}
    (hplace : s.places t = some (id, stage)) {r r' : IoRecord} (hr : s.records id = some r)
    {stage' : Option GuestIoStage} {report : Option Channel}
    (hadvanced : IoRecord.Advanced r r' stage' report) :
    ({ s with
        records := Function.update s.records id (some r')
        reports := s.reports ++ report.toList.map fun channel => (channel, id)
        places := Function.update s.places t (stage'.map fun stage => (id, stage)) } :
      GuestIo T).InOrder := by
  obtain ⟨q, hq, hlength, hreturned, -⟩ := h.active t id stage hplace
  obtain rfl : r = q := Option.some.inj (hr.symm.trans hq)
  have hrecord : ∀ {i q}, Function.update s.records id (some r') i = some q →
      (i = id ∧ q = r') ∨ (i ≠ id ∧ s.records i = some q) := by
    intro i q hi
    by_cases hid : i = id
    · subst hid
      rw [Function.update_self] at hi
      exact .inl ⟨rfl, (Option.some.inj hi).symm⟩
    · rw [Function.update_of_ne hid] at hi
      exact .inr ⟨hid, hi⟩
  have hkept : ∀ {u i stage''}, Function.update s.places t (stage'.map fun stage => (id, stage)) u =
      some (i, stage'') → (u = t ∧ i = id ∧ stage' = some stage'') ∨
        (u ≠ t ∧ i ≠ id ∧ s.places u = some (i, stage'')) := by
    intro u i stage'' hu
    by_cases htu : u = t
    · subst htu
      rw [Function.update_self] at hu
      obtain ⟨next, hnext, heq⟩ := Option.map_eq_some_iff.mp hu
      obtain ⟨rfl, rfl⟩ := Prod.mk.inj heq
      exact .inl ⟨rfl, rfl, hnext⟩
    · rw [Function.update_of_ne htu] at hu
      refine .inr ⟨htu, ?_, hu⟩
      rintro rfl
      exact htu (h.apart u t i stage'' stage hu hplace)
  refine ⟨fun i q hi => ?_, fun u i next hu => ?_, fun u v i next next' hu hv => ?_,
    fun i q hi hreturned hreported => ?_, fun i q hi => ?_, fun channel i hc => ?_⟩
  all_goals dsimp only at *
  · rcases hrecord hi with ⟨rfl, -⟩ | ⟨-, hi⟩
    · exact h.numbered i r hr
    · exact h.numbered i q hi
  · rcases hkept hu with ⟨-, rfl, hnext⟩ | ⟨-, hid, hu⟩
    · obtain ⟨hnone, hprogress⟩ := hadvanced.goesOn next hnext
      exact ⟨r', Function.update_self .., by rw [hadvanced.call]; exact hlength, hnone, hprogress⟩
    · obtain ⟨q, hq, hrest⟩ := h.active u i next hu
      exact ⟨q, by rw [Function.update_of_ne hid, hq], hrest⟩
  · rcases hkept hu with ⟨rfl, rfl, -⟩ | ⟨-, hid, hu⟩
    · rcases hkept hv with ⟨rfl, -, -⟩ | ⟨-, hid, -⟩
      · rfl
      · exact absurd rfl hid
    · rcases hkept hv with ⟨-, rfl, -⟩ | ⟨-, -, hv⟩
      · exact absurd rfl hid
      · exact h.apart u v i next next' hu hv
  · rcases hrecord hi with ⟨-, rfl⟩ | ⟨-, hi⟩
    · cases hstage : stage' with
      | none => exact (hadvanced.ends hstage).2 hreported
      | some next => simp [(hadvanced.goesOn next hstage).1] at hreturned
    · exact h.settled i q hi hreturned hreported
  · rcases hrecord hi with ⟨-, rfl⟩ | ⟨-, hi⟩
    · exact hadvanced.agreed
    · exact h.agreed i q hi
  · rcases List.mem_append.mp hc with hc | hc
    · obtain ⟨p, hp, hrest⟩ := h.reports channel i hc
      by_cases hid : i = id
      · subst hid
        obtain rfl : r = p := Option.some.inj (hr.symm.trans hp)
        refine ⟨r', Function.update_self .., ?_⟩
        split_ifs at hrest ⊢ with hapc
        · simp [hreturned] at hrest
        · exact hadvanced.keeps hrest
      · exact ⟨p, by rw [Function.update_of_ne hid, hp], hrest⟩
    · obtain ⟨new, hnew, heq⟩ := List.mem_map.mp hc
      obtain ⟨rfl, rfl⟩ := Prod.mk.inj heq
      have hreport := hadvanced.reports new (Option.mem_toList.mp hnew)
      refine ⟨r', Function.update_self .., ?_⟩
      split_ifs at hreport ⊢ with hapc
      · exact ⟨(hadvanced.ends hreport.1).1, hreport.2⟩
      · exact hreport

omit [DecidableEq T] in
/-- What is observed in order is published. -/
theorem InOrder.published_of_observed (h : s.InOrder) {channel : Channel} {id : ℕ}
    (hmem : (channel, id) ∈ s.reports)
    (horderly : (channel = .apc || ((s.records id).bind (·.returned)).isSome) = true) :
    ∃ r, s.records id = some r ∧ r.Published := by
  obtain ⟨r, hr, hreport⟩ := h.reports channel id hmem
  refine ⟨r, hr, ?_⟩
  split_ifs at hreport with hapc
  · exact hreport.2
  · refine h.settled id r hr ?_ hreport
    simpa [hapc, hr] using horderly

/-- One orderly step: the system stays in order, and what the step observes is
published. -/
theorem InOrder.step (h : s.InOrder) {e : T × GuestIoAction} (horderly : s.orderly e = true) :
    (s.step e).1.InOrder ∧ ∀ channel id record, (s.step e).2 = .observed channel id record →
      ∃ r, record = some r ∧ r.Published := by
  obtain ⟨t, action⟩ := e
  unfold GuestIo.orderly at horderly
  unfold GuestIo.step
  cases hplace : s.places t with
  | none =>
      cases action with
      | begin call => exact ⟨h.beginCall hplace call, fun _ _ _ h => by cases h⟩
      | observe channel id stays =>
          simp only [hplace] at horderly ⊢
          split_ifs with hmem hstays
          · refine ⟨h, fun channel' id' record hreply => ?_⟩
            obtain ⟨rfl, rfl, rfl⟩ := GuestIoReply.observed.inj hreply
            exact h.published_of_observed hmem horderly
          · refine ⟨h.erase _, fun channel' id' record hreply => ?_⟩
            obtain ⟨rfl, rfl, rfl⟩ := GuestIoReply.observed.inj hreply
            exact h.published_of_observed hmem horderly
          · exact ⟨h, fun _ _ _ h => by cases h⟩
      | next answer => exact ⟨h, fun _ _ _ h => by cases h⟩
  | some place =>
      obtain ⟨id, stage⟩ := place
      cases action with
      | begin call => exact ⟨h, fun _ _ _ h => by cases h⟩
      | observe channel i stays => exact ⟨h, fun _ _ _ h => by cases h⟩
      | next answer =>
          obtain ⟨r, hr, hlength, hreturned, hprogress⟩ := h.active t id stage hplace
          simp only [hplace, hr, Option.all_some] at horderly ⊢
          have hadvanced := IoRecord.advance_step hlength hreturned hprogress horderly
          exact ⟨h.advanced hplace hr hadvanced, fun _ _ _ h => by cases h⟩

/-- **Completions after results.**  In a run in which nobody looks at the packet or
the event of a call before it returns, and no call breaks a report it has made,
every observer of a packet, an event or an APC finds the results and the status
block of the operation in guest memory, and the status block has the status of
the packet. -/
theorem completion_follows_results (es : List (T × GuestIoAction))
    (h : Along GuestIo.step (fun s e => s.orderly e = true) GuestIo.init es) :
    (∀ e channel id record,
      (e, GuestIoReply.observed channel id record) ∈ trace GuestIo.step GuestIo.init es →
        ∃ r, record = some r ∧ r.Published) ∧
    ∀ id r, (run GuestIo.step GuestIo.init es).records id = some r → r.Agreed := by
  have hrun := @history_invariant _ _ _ (GuestIo.step (T := T))
    (fun history s => s.InOrder ∧ ∀ e channel id record,
      (e, GuestIoReply.observed channel id record) ∈ history → ∃ r, record = some r ∧ r.Published)
    (fun s e => s.orderly e = true) ?_ [] GuestIo.init es ⟨.init, fun _ _ _ _ h => by cases h⟩ h
  · rw [List.nil_append] at hrun
    exact ⟨hrun.2, hrun.1.agreed⟩
  · rintro history s e ⟨hs, hhistory⟩ horderly
    obtain ⟨hnext, hreply⟩ := hs.step horderly
    refine ⟨hnext, fun e' channel id record hmem => ?_⟩
    rcases List.mem_append.mp hmem with hmem | hmem
    · exact hhistory e' channel id record hmem
    · obtain ⟨-, hobserved⟩ := Prod.mk.inj (List.mem_singleton.mp hmem)
      exact hreply channel id record hobserved.symm

/-- A read of two bytes with an event and a status block. -/
def readTwoBytes : IoCall where
  operation := .readFile 0x1000 2
  event := some 5
  apcQueue := false
  apcRoutine := 0
  apcContext := 0
  ioStatusBlock := 0x2000

/-- The file has the two bytes and a completion port. -/
def twoBytes : Answer where
  transfer := ⟨.success, 2, [0x58, 0x4D], none, true⟩
  setEvent := .success
  asynchronousHandle := false
  writable := true

/-- The steps of the read, without the begin. -/
def readSteps (n : ℕ) (answer : Answer) : List (Bool × GuestIoAction) :=
  List.replicate n (false, .next answer)

/-- The read from its begin to its return, and then a look at its packet. -/
def readThenRemove : List (Bool × GuestIoAction) :=
  (false, .begin readTwoBytes) :: readSteps 9 twoBytes ++ [(true, .observe .packet 0 false)]

theorem completion_follows_results_read :
    Along GuestIo.step (fun s e => s.orderly e = true) GuestIo.init readThenRemove ∧
      (∀ e channel id record, (e, GuestIoReply.observed channel id record) ∈
        trace GuestIo.step GuestIo.init readThenRemove → ∃ r, record = some r ∧ r.Published) ∧
      ∀ id r, (run GuestIo.step GuestIo.init readThenRemove).records id = some r → r.Agreed := by
  have horderly : Along GuestIo.step (fun s e => s.orderly e = true) GuestIo.init
      readThenRemove := by decide
  exact ⟨horderly, completion_follows_results readThenRemove horderly⟩

/-- A thread that waits for the event of a read wakes up when nothing has been
written to the buffer; and a read whose packet says success gets the status block
of an access violation when its buffer is not writable. -/
theorem event_before_results :
    (∃ e record, (e, GuestIoReply.observed (.event 5) 0 (some record)) ∈
        trace GuestIo.step GuestIo.init
          ((false, .begin readTwoBytes) :: readSteps 3 twoBytes ++
            [(true, .observe (.event 5) 0 false)]) ∧ ¬record.Published) ∧
      ∃ r, (run GuestIo.step GuestIo.init
          ((false, .begin readTwoBytes) :: readSteps 3 twoBytes ++
            readSteps 1 { twoBytes with writable := false } ++ readSteps 5 twoBytes)).records 0 =
          some r ∧ ¬r.Agreed := by
  refine ⟨⟨(true, .observe (.event 5) 0 false),
    ⟨readTwoBytes, some twoBytes.transfer, true, true, [], none, none⟩, by decide, ?_⟩,
    ⟨readTwoBytes, some twoBytes.transfer, true, true, [], some ⟨statusAccessViolation, 0⟩,
      some statusAccessViolation⟩, by decide, fun hagreed => ?_⟩
  · rintro ⟨t, ht, -, hblock⟩
    exact absurd (hblock (by decide)) (by simp)
  · exact absurd (hagreed _ _ rfl rfl rfl) (by decide)

end GuestIo

end Kernel
end XenonRecomp
