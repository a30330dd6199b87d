/-
# What a step of the reservation monitor does

The argument for the reservation protocol needs little of a thread's position:
which counts it is in, its ticket, what it has read and relies on, and which
stores it may still make without looking at a slot again.  `MonitorRole` is that
part, and this module says once what every step does to it and to the shared
state: to the counts (`monitor_counts`), to the ticket gate (`GateEffect`) and to
the slots, the log and the epoch (`MonitorEffect`).
-/

import XenonRecomp.Memory.ReservationMonitor

namespace XenonRecomp
namespace Memory

open Library Library.Transition Library.Interleaving

/-- The granule is as the load of the given reservation found it: no access since
that load wrote to it. -/
def untouchedSince (slot generation address : ℕ) : List Access → Bool
  | [] => false
  | a :: log =>
      a == .load slot generation address ||
        (!a.writes (granuleOf address) && untouchedSince slot generation address log)

/-- A load that has just been recorded is untouched. -/
theorem untouchedSince_load {slot generation address : ℕ} {log : List Access} :
    untouchedSince slot generation address (.load slot generation address :: log) = true := by
  simp [untouchedSince]

/-- What the argument knows of a thread. -/
structure MonitorRole where
  /-- Counted in `active_reservation_ops`. -/
  inOps : Bool := false
  /-- Counted in `active_coherency_writers`. -/
  inWriters : Bool := false
  /-- Counted in the operations, and past the check of the gate. -/
  guarded : Bool := false
  ticket : Option ℕ := none
  /-- Its ticket has been served. -/
  holds : Bool := false
  /-- It holds the gate and has seen both counts at zero. -/
  drained : Bool := false
  /-- The ticket served when it began to look at the gate. -/
  checking : Option ℕ := none
  /-- The granule it has marked in the bitmap. -/
  marked : Option ℕ := none
  /-- Its first read of the epoch. -/
  before : Option ℕ := none
  /-- The generation it has drawn and not yet put into a slot. -/
  fresh : Option ℕ := none
  /-- The slot, generation and address it has claimed and not yet vouched for. -/
  owner : Option (ℕ × ℕ × ℕ) := none
  /-- Its first epoch, slot, generation and address, once it has loaded the word. -/
  loaded : Option (ℕ × ℕ × ℕ × ℕ) := none
  /-- Its epoch, slot, generation and address, once both epochs agreed. -/
  sampled : Option (ℕ × ℕ × ℕ × ℕ) := none
  /-- The slot, generation and address it is committing, and the slots it has
  scanned. -/
  committing : Option (ℕ × ℕ × ℕ × ℕ) := none
  /-- It may still store to the granule and will not look at the slot before. -/
  exposed : ℕ → ℕ → Bool := fun _ _ => false
  /-- It may have stored to the granule and has not drawn its epoch. -/
  writing : ℕ → Bool := fun _ => false
  /-- It may have stored to the granule, and its epoch is or will be newer than the
  given one. -/
  pending : ℕ → ℕ → Bool := fun _ _ => false
  /-- Its store is done and it is about to be counted out. -/
  leaving : Bool := false
  /-- It is where no run brings it while no counter wraps and no bit of the bitmap
  is lost. -/
  astray : Bool := false

/-- The role of a reserve. -/
def ReserveStep.role (w : GuestWord) : ReserveStep → MonitorRole
  | .waitServing | .waitNext _ | .countIn => {}
  | .checkServing | .backOut => { inOps := true }
  | .checkNext serving => { inOps := true, checking := some serving }
  | .loadEpoch | .countOut => { inOps := true, guarded := true }
  | .markSeen before => { inOps := true, guarded := true, before := some before }
  | .drawGeneration before =>
      { inOps := true, guarded := true, before := some before, marked := some w.granule }
  | .redrawGeneration _ => { inOps := true, guarded := true, astray := true }
  | .claim before generation _ =>
      { inOps := true, guarded := true, before := some before, marked := some w.granule
        fresh := some generation }
  | .loadWord before token =>
      { inOps := true, guarded := true, before := some before, marked := some w.granule
        owner := token.map fun x => (x.1, x.2, w.address) }
  | .reloadEpoch before token =>
      { inOps := true, guarded := true, before := some before, marked := some w.granule
        owner := token.map fun x => (x.1, x.2, w.address)
        loaded := token.map fun x => (before, x.1, x.2, w.address) }
  | .loadWriters before token after =>
      { inOps := true, guarded := true, marked := some w.granule
        owner := token.map fun x => (x.1, x.2, w.address)
        sampled := if before = after then token.map fun x => (after, x.1, x.2, w.address)
          else none }
  | .cancel _ _ .done => { inOps := true, guarded := true, marked := some w.granule }
  | .cancel slot generation _ =>
      { inOps := true, guarded := true, marked := some w.granule
        owner := some (slot, generation, w.address) }

/-- The slots a scan has passed. -/
def Invalidate.scanned : Invalidate → ℕ
  | .testSeen _ => 0
  | .loadSlot slot | .clearSlot slot _ => slot
  | .done => reservationSlotCount

/-- The scan will not look at the slot again for the granule. -/
def Invalidate.passed (slot granule : ℕ) : Invalidate → Bool
  | .testSeen next => decide (granule < next)
  | .loadSlot next | .clearSlot next _ => decide (slot < next)
  | .done => true

/-- The scan has missed the bit of its granule. -/
def Invalidate.missed (granule : ℕ) : Invalidate → Bool
  | .testSeen next => decide (next ≠ granule)
  | _ => false

/-- The role of a conditional store. -/
def ConditionalStep.role (k : ConditionalCall) (ticket : ℕ) : ConditionalStep → MonitorRole
  | .waitTurn => { ticket := some ticket }
  | .drainWriters | .drainOps => { ticket := some ticket, holds := true }
  | .resolve | .loadSlot .. | .cancel .. | .clearSlot _ | .release =>
      { ticket := some ticket, holds := true, drained := true }
  | .commitSlot _ generation expected =>
      { ticket := some ticket, holds := true, drained := true
        astray := decide (expected ≠ activeSlot k.word generation) }
  | .invalidate slot generation progress =>
      { ticket := some ticket, holds := true, drained := true
        committing := some (slot, generation, k.word.address, progress.scanned)
        astray := progress.missed k.word.granule }
  | .storeWord slot generation =>
      { ticket := some ticket, holds := true, drained := true
        committing := some (slot, generation, k.word.address, reservationSlotCount) }
  | .countIn _ => { ticket := some ticket, holds := true, drained := true, astray := !k.locked }
  | .drawEpoch _ => { ticket := some ticket, holds := true, drained := true, inWriters := k.locked }
  | .storeWrapped _ => { astray := true }
  | .countOut _ => { ticket := some ticket, holds := true, drained := true, inWriters := true }

/-- The role of an ordinary store. -/
def StoreStep.role (k : StoreCall) : StoreStep → MonitorRole
  | .countIn | .waitServing | .waitNext _ => {}
  | .testSeen next =>
      { inWriters := true, exposed := fun _ g => k.covers g && decide (g < next) }
  | .joinOps | .backOutWriters _ => { inWriters := true }
  | .recheckGate false => { inWriters := true, exposed := fun _ g => k.covers g }
  | .recheckGate true | .checkServing _ | .backOutOps _ => { inWriters := true, inOps := true }
  | .checkNext _ serving => { inWriters := true, inOps := true, checking := some serving }
  | .invalidate false _ => { inWriters := true, exposed := fun _ g => k.covers g }
  | .invalidate true progress =>
      { inWriters := true, inOps := true, guarded := true
        exposed := fun i g => k.covers g && progress.passed i g }
  | .storeChunk joined _ =>
      { inWriters := true, inOps := joined, guarded := joined
        exposed := fun _ g => k.covers g
        writing := k.covers
        pending := fun g _ => k.covers g }
  | .drawEpoch joined =>
      { inWriters := true, inOps := joined, guarded := joined
        writing := k.covers
        pending := fun g _ => k.covers g }
  | .storeWrapped _ => { astray := true }
  | .countOutOps epoch =>
      { inWriters := true, inOps := true, guarded := true
        pending := fun g e => k.covers g && decide (e < epoch) }
  | .countOutWriters epoch =>
      { inWriters := true, leaving := true
        pending := fun g e => k.covers g && decide (e < epoch) }

/-- The role of a thread. -/
def MonitorThread.role : MonitorThread → MonitorRole
  | .idle | .cancel .. => {}
  | .reserve w step => step.role w
  | .conditional k ticket step => step.role k ticket
  | .store k step => step.role k

/-! ## Facts about roles -/

/-- What the parts of a role say about each other. -/
structure MonitorRole.Coherent (r : MonitorRole) : Prop where
  guarded_inOps : r.guarded = true → r.inOps = true
  holds_of_drained : r.drained = true → r.holds = true
  drained_of_committing : ∀ x, r.committing = some x → r.drained = true
  guarded_of_owner : ∀ x, r.owner = some x → r.guarded = true
  guarded_of_fresh : ∀ n, r.fresh = some n → r.guarded = true
  marked_of_owner : ∀ i n a, r.owner = some (i, n, a) → r.marked = some (granuleOf a)
  before_of_loaded : ∀ b i n a, r.loaded = some (b, i, n, a) → r.before = some b
  owner_of_loaded : ∀ b i n a, r.loaded = some (b, i, n, a) → r.owner = some (i, n, a)
  owner_of_sampled : ∀ e i n a, r.sampled = some (e, i, n, a) → r.owner = some (i, n, a)
  counted_of_exposed : ∀ i g, r.exposed i g = true → r.inWriters = true
  counted_of_pending : ∀ g e, r.pending g e = true → r.inWriters = true
  pending_of_writing : ∀ g e, r.writing g = true → r.pending g e = true
  not_writing_of_loaded : ∀ x g, r.loaded = some x → r.writing g = false

/-- The role of a thread is coherent. -/
theorem coherent_role (l : MonitorThread) : l.role.Coherent := by
  cases l with
  | idle => constructor <;> simp [MonitorThread.role]
  | cancel slot generation progress => constructor <;> simp [MonitorThread.role]
  | reserve w step =>
      cases step with
      | cancel slot generation progress =>
          cases progress <;> constructor <;>
            simp +contextual [MonitorThread.role, ReserveStep.role, GuestWord.granule]
      | _ =>
          constructor <;>
            simp +contextual [MonitorThread.role, ReserveStep.role, GuestWord.granule]
  | conditional k ticket step =>
      cases step <;> constructor <;> simp [MonitorThread.role, ConditionalStep.role]
  | store k step =>
      cases step with
      | recheckGate joined =>
          cases joined <;> constructor <;> simp [MonitorThread.role, StoreStep.role]
      | invalidate joined progress =>
          cases joined <;> constructor <;> simp [MonitorThread.role, StoreStep.role]
      | _ => constructor <;> simp [MonitorThread.role, StoreStep.role]

/-! ## The scans -/

/-- A step of `cancel_reservation` goes on, ends at a slot that does not hold the
reservation, or clears the slot. -/
theorem cancelStep_cases (slot generation : ℕ) (spurious : Bool) (s : MonitorState) {k : Cancel}
    (hk : k ≠ .done) :
    ((cancelStep slot generation spurious s k).1 = s ∧
      (cancelStep slot generation spurious s k).2 ≠ .done) ∨
    ((cancelStep slot generation spurious s k).1 = s ∧
      (cancelStep slot generation spurious s k).2 = .done ∧
      ∀ d, s.slots slot = some d → d.status = .active → d.generation ≠ generation) ∨
    ((cancelStep slot generation spurious s k).1 = s.setSlot slot none ∧
      (cancelStep slot generation spurious s k).2 = .done) := by
  have hload : Cancel.afterLoad generation (s.slots slot) ≠ .done ∨
      Cancel.afterLoad generation (s.slots slot) = .done ∧
      ∀ d, s.slots slot = some d → d.status = .active → d.generation ≠ generation := by
    cases hd : s.slots slot with
    | none => exact .inr ⟨rfl, nofun⟩
    | some d =>
        by_cases hlive : d.generation = generation ∧ d.status = .active
        · exact .inl (by simp [Cancel.afterLoad, hlive])
        · refine .inr ⟨by simp [Cancel.afterLoad, hlive], fun d' h hactive hgen => ?_⟩
          cases h
          exact hlive ⟨hgen, hactive⟩
  cases k with
  | load =>
      rcases hload with h | h
      · exact .inl ⟨rfl, h⟩
      · exact .inr (.inl ⟨rfl, h⟩)
  | clear expected =>
      simp only [cancelStep]
      split
      · exact .inr (.inr ⟨rfl, rfl⟩)
      · rcases hload with h | h
        · exact .inl ⟨rfl, h⟩
        · exact .inr (.inl ⟨rfl, h⟩)
  | done => exact absurd rfl hk

/-- What `invalidate_range` does after it has read a slot. -/
theorem afterLoad_cases (first last slot : ℕ) (o : Option Descriptor) :
    (∃ d, Invalidate.afterLoad first last slot o = .clearSlot slot d) ∨
      Invalidate.afterLoad first last slot o = .loadSlot (slot + 1) ∧
        ∀ d, o = some d → d.inRange first last = false := by
  cases o with
  | none => exact .inr ⟨rfl, nofun⟩
  | some d =>
      cases hin : d.inRange first last with
      | true => exact .inl ⟨d, by simp [Invalidate.afterLoad, hin]⟩
      | false =>
          refine .inr ⟨by simp [Invalidate.afterLoad, hin], fun d' h => ?_⟩
          cases h
          exact hin

/-- `invalidate_range` changes nothing or clears a slot. -/
theorem invalidateStep_state (first last : ℕ) (spurious : Bool) (s : MonitorState)
    (k : Invalidate) :
    (invalidateStep first last spurious s k).1 = s ∨
      ∃ slot, (invalidateStep first last spurious s k).1 = s.setSlot slot none := by
  cases k with
  | testSeen granule =>
      simp only [invalidateStep]
      split
      · exact .inl rfl
      · split <;> exact .inl rfl
  | loadSlot slot =>
      simp only [invalidateStep]
      split <;> exact .inl rfl
  | clearSlot slot expected =>
      simp only [invalidateStep]
      split
      · exact .inr ⟨slot, rfl⟩
      · exact .inl rfl
  | done => exact .inl rfl

/-- Where a step of `invalidate_range` passes a slot for a granule of its range,
the granule was not marked or the slot holds no reservation of the range. -/
theorem invalidateStep_passed {first last : ℕ} {spurious : Bool} {s : MonitorState}
    {k : Invalidate} (hbound : ∀ i d, s.slots i = some d → i < reservationSlotCount)
    {i g : ℕ} (hg : g ≤ last)
    (h : (invalidateStep first last spurious s k).2.passed i g = true) :
    k.passed i g = true ∨ s.seen g = false ∨
      ∀ d, (invalidateStep first last spurious s k).1.slots i = some d →
        d.inRange first last = false := by
  have hload : ∀ slot, (Invalidate.afterLoad first last slot (s.slots slot)).passed i g = true →
      (Invalidate.loadSlot slot).passed i g = true ∨
        ∀ d, s.slots i = some d → d.inRange first last = false := by
    intro slot h
    rcases afterLoad_cases first last slot (s.slots slot) with ⟨d, hd⟩ | ⟨hd, hnone⟩
    · rw [hd] at h
      exact .inl h
    · rw [hd] at h
      simp only [Invalidate.passed, decide_eq_true_eq] at h ⊢
      by_cases heq : i = slot
      · subst heq
        exact .inr hnone
      · exact .inl (by omega)
  cases k with
  | testSeen granule =>
      simp only [invalidateStep] at h
      split at h
      · exact .inl (by simp only [Invalidate.passed, decide_eq_true_eq]; omega)
      · split at h
        · simp [Invalidate.passed] at h
        · next hseen =>
            by_cases heq : g = granule
            · exact .inr (.inl (by simpa [heq] using hseen))
            · refine .inl ?_
              simp only [Invalidate.passed, decide_eq_true_eq] at h ⊢
              omega
  | loadSlot slot =>
      simp only [invalidateStep] at h ⊢
      split at h
      · next hend =>
          rw [if_pos hend]
          by_cases hi : i < slot
          · exact .inl (by simpa [Invalidate.passed] using hi)
          · refine .inr (.inr fun d hd => ?_)
            have := hbound i d hd
            omega
      · next hend =>
          rw [if_neg hend]
          exact (hload slot h).imp_right .inr
  | clearSlot slot expected =>
      simp only [invalidateStep] at h ⊢
      split at h
      · next hcas =>
          rw [if_pos hcas]
          simp only [Invalidate.passed, decide_eq_true_eq] at h ⊢
          by_cases heq : i = slot
          · subst heq
            exact .inr (.inr fun d hd => by simp [MonitorState.setSlot] at hd)
          · exact .inl (by omega)
      · next hcas =>
          rw [if_neg hcas]
          exact (hload slot h).imp_right .inr
  | done => exact .inl rfl

/-- A scan that began at a marked granule passes only slots without a reservation
of its range. -/
theorem invalidateStep_scanned {first last : ℕ} {spurious : Bool} {s : MonitorState}
    {k : Invalidate} (hle : first ≤ last) (hseen : s.seen first = true)
    (hmissed : k.missed first = false) (hdone : k ≠ .done) :
    (invalidateStep first last spurious s k).2.missed first = false ∧
      ∀ j, k.scanned ≤ j → j < (invalidateStep first last spurious s k).2.scanned →
        j < reservationSlotCount → ∀ d,
        (invalidateStep first last spurious s k).1.slots j = some d →
        d.inRange first last = false := by
  have hload : ∀ slot, (Invalidate.afterLoad first last slot (s.slots slot)).missed first = false ∧
      ∀ j, slot ≤ j → j < (Invalidate.afterLoad first last slot (s.slots slot)).scanned →
        j < reservationSlotCount → ∀ d, s.slots j = some d → d.inRange first last = false := by
    intro slot
    rcases afterLoad_cases first last slot (s.slots slot) with ⟨d, hd⟩ | ⟨hd, hnone⟩
    · simp only [hd]
      exact ⟨rfl, fun j hj hj' => by simp only [Invalidate.scanned] at hj'; omega⟩
    · simp only [hd]
      refine ⟨rfl, fun j hj hj' _ => ?_⟩
      simp only [Invalidate.scanned] at hj'
      obtain rfl : j = slot := by omega
      exact hnone
  cases k with
  | testSeen granule =>
      simp only [Invalidate.missed, decide_eq_false_iff_not, not_not] at hmissed
      subst hmissed
      simp only [invalidateStep, if_neg (not_lt.mpr hle), hseen, if_true]
      exact ⟨rfl, fun j _ hj => by simp [Invalidate.scanned] at hj⟩
  | loadSlot slot =>
      simp only [invalidateStep]
      split
      · exact ⟨rfl, fun j hj hj' hcount => by simp only [Invalidate.scanned] at hj; omega⟩
      · exact hload slot
  | clearSlot slot expected =>
      simp only [invalidateStep]
      split
      · refine ⟨rfl, fun j hj hj' _ d hd => ?_⟩
        simp only [Invalidate.scanned] at hj hj'
        obtain rfl : j = slot := by omega
        simp [MonitorState.setSlot] at hd
      · exact hload slot
  | done => exact absurd rfl hdone

end Memory
end XenonRecomp
