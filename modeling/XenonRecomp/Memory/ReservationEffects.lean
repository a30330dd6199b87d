/-
# The effects of the reservation monitor's steps

What a step does to the slots, the bitmap, the log and the epoch, and to what the
thread that takes it relies on.  Most steps are calm: they write nothing to guest
memory, a slot gets a reservation only from the reserve that drew its generation,
and what the thread newly relies on follows from what it relied on before.  The
others are a store and a conditional store that reach memory, a store that is
counted out, and a reserve that finds no writer and gives its reservation away.
-/

import XenonRecomp.Memory.ReservationGate

namespace XenonRecomp
namespace Memory

open Library Library.Transition Library.Interleaving

/-- Nothing enters a slot or the log, no bit is lost and the epoch does not fall. -/
structure Frame (s s' : MonitorState) : Prop where
  seen : ∀ g, s.seen g = true → s'.seen g = true
  epoch : s.writeEpoch ≤ s'.writeEpoch
  slots : ∀ i d, s'.slots i = some d → s.slots i = some d
  log : s'.log = s.log
  generation : s'.nextGeneration = s.nextGeneration

theorem Frame.refl (s : MonitorState) : Frame s s :=
  ⟨fun _ h => h, le_rfl, fun _ _ h => h, rfl, rfl⟩

theorem Frame.enterOps (s : MonitorState) : Frame s s.enterOps :=
  ⟨fun _ h => h, le_rfl, fun _ _ h => h, rfl, rfl⟩

theorem Frame.leaveOps (s : MonitorState) : Frame s s.leaveOps :=
  ⟨fun _ h => h, le_rfl, fun _ _ h => h, rfl, rfl⟩

theorem Frame.enterWriters (s : MonitorState) : Frame s s.enterWriters :=
  ⟨fun _ h => h, le_rfl, fun _ _ h => h, rfl, rfl⟩

theorem Frame.serveNext (s : MonitorState) : Frame s s.serveNext :=
  ⟨fun _ h => h, le_rfl, fun _ _ h => h, rfl, rfl⟩

theorem Frame.takeTicket (s : MonitorState) : Frame s s.takeTicket :=
  ⟨fun _ h => h, le_rfl, fun _ _ h => h, rfl, rfl⟩

theorem Frame.leaveWriters (s : MonitorState) : Frame s s.leaveWriters :=
  ⟨fun _ h => h, le_rfl, fun _ _ h => h, rfl, rfl⟩

/-- A slot is cleared. -/
theorem Frame.clear (s : MonitorState) (slot : ℕ) : Frame s (s.setSlot slot none) := by
  refine ⟨fun _ h => h, le_rfl, fun i d h => ?_, rfl, rfl⟩
  by_cases hi : i = slot
  · subst hi
    simp [MonitorState.setSlot] at h
  · simpa [MonitorState.setSlot, Function.update_of_ne hi] using h

/-- A bit is set. -/
theorem Frame.mark (s : MonitorState) (granule : ℕ) : Frame s (s.markSeen granule) := by
  refine ⟨fun g h => ?_, le_rfl, fun _ _ h => h, rfl, rfl⟩
  by_cases hg : g = granule
  · subst hg
    simp [MonitorState.markSeen]
  · simpa [MonitorState.markSeen, Function.update_of_ne hg] using h

/-- An epoch is drawn. -/
theorem Frame.draw {s : MonitorState} (h : s.writeEpoch + 1 < 2 ^ 64) : Frame s s.drawEpoch := by
  refine ⟨fun _ h => h, ?_, fun _ _ h => h, rfl, rfl⟩
  simp only [MonitorState.drawEpoch, Nat.mod_eq_of_lt h]
  omega

theorem cancelStep_frame (slot generation : ℕ) (flag : Bool) (s : MonitorState) (k : Cancel) :
    Frame s (cancelStep slot generation flag s k).1 := by
  cases k with
  | clear expected =>
      simp only [cancelStep]
      split
      · exact .clear s slot
      · exact .refl s
  | _ => exact .refl s

theorem invalidateStep_frame (first last : ℕ) (flag : Bool) (s : MonitorState) (k : Invalidate) :
    Frame s (invalidateStep first last flag s k).1 := by
  rcases invalidateStep_state first last flag s k with h | ⟨slot, h⟩
  · rw [h]
    exact .refl s
  · rw [h]
    exact .clear s slot

/-- No live reservation of the granule is in the slot. -/
def SlotFree (s : MonitorState) (slot granule : ℕ) : Prop :=
  ∀ d, s.slots slot = some d → d.status = .active → granuleOf d.address ≠ granule

/-- No live reservation is in the slot. -/
def SlotLocked (s : MonitorState) (slot : ℕ) : Prop :=
  ∀ d, s.slots slot = some d → d.status ≠ .active

/-- What a calm step does to the shared state. -/
structure Drift (s : MonitorState) (r : MonitorRole) (s' : MonitorState) (r' : MonitorRole) :
    Prop where
  seen : ∀ g, s.seen g = true → s'.seen g = true
  epoch : s.writeEpoch ≤ s'.writeEpoch
  generation : s.nextGeneration ≤ s'.nextGeneration
  /-- The log grows by a load at most. -/
  log : s'.log = s.log ∨ ∃ i n a, s'.log = .load i n a :: s.log
  /-- A slot keeps its reservation, locks it, or gets the one the thread has drawn
  the generation for. -/
  slots : ∀ i d, s'.slots i = some d →
    (∃ d₀, s.slots i = some d₀ ∧ d₀.generation = d.generation ∧ (d.status = .active → d₀ = d)) ∨
      i < reservationSlotCount ∧ r.fresh = some d.generation ∧ r'.fresh = none ∧
        r'.owner = some (i, d.generation, d.address)

theorem Frame.drift {s s' : MonitorState} {r r' : MonitorRole} (h : Frame s s') :
    Drift s r s' r' :=
  ⟨h.seen, h.epoch, h.generation.ge, .inl h.log, fun i d hd =>
    .inl ⟨d, h.slots i d hd, rfl, fun _ => rfl⟩⟩

/-- A calm step: what the thread newly relies on follows from what it relied on
before, and it passes a slot only where it may. -/
structure Calm (s : MonitorState) (r : MonitorRole) (s' : MonitorState) (r' : MonitorRole) :
    Prop extends Drift s r s' r' where
  marked : ∀ g, r'.marked = some g → s'.seen g = true ∨ r.marked = some g
  before : ∀ b, r'.before = some b → b ≤ s.writeEpoch ∨ r.before = some b
  fresh : ∀ n, r'.fresh = some n → r.fresh = some n ∨
    s.nextGeneration ≤ n ∧ n < s'.nextGeneration
  owner : ∀ i n a, r'.owner = some (i, n, a) → r.owner = some (i, n, a) ∨ r.fresh = some n
  loaded : ∀ b i n a, r'.loaded = some (b, i, n, a) → r.loaded = some (b, i, n, a) ∨
    untouchedSince i n a s'.log = true
  sampled : ∀ e i n a, r'.sampled = some (e, i, n, a) → r.sampled = some (e, i, n, a) ∨
    e = s.writeEpoch ∧ r.loaded = some (e, i, n, a)
  committing : ∀ i n a k, r'.committing = some (i, n, a, k) →
    (∃ k₀, r.committing = some (i, n, a, k₀) ∧ ∀ j, k₀ ≤ j → j < k → j < reservationSlotCount →
      SlotFree s' j (granuleOf a)) ∨
    k = 0 ∧ r.drained = true ∧ SlotLocked s' i ∧ ∃ d, s.slots i = some d ∧ d.status = .active ∧
      d.generation = n ∧ d.address = a
  exposed : ∀ i g, r'.exposed i g = true → r.exposed i g = true ∨ s.seen g = false ∨
    r.guarded = true ∧ SlotFree s' i g
  writing : ∀ g, r.writing g = true → r'.writing g = true ∨ s.writeEpoch < s'.writeEpoch

/-- The thread keeps its slot, or the slot does not hold its reservation any more. -/
def KeepsOwner (r : MonitorRole) (s' : MonitorState) (r' : MonitorRole) : Prop :=
  ∀ i n a, r.owner = some (i, n, a) → r'.owner = some (i, n, a) ∨
    ∀ d, s'.slots i = some d → d.status = .active → d.generation ≠ n

/-- The thread's stores stay announced to those who have read the epoch. -/
def KeepsPending (s : MonitorState) (r r' : MonitorRole) : Prop :=
  ∀ g e, e ≤ s.writeEpoch → r.pending g e = true → r'.pending g e = true

/-- What a step does. -/
inductive MonitorEffect (s : MonitorState) (r : MonitorRole) : MonitorState → MonitorRole → Prop
  | calm {s' r'} (h : Calm s r s' r') (howner : KeepsOwner r s' r')
      (hpending : KeepsPending s r r') : MonitorEffect s r s' r'
  /-- A store is counted out. -/
  | drop {s' r'} (h : Calm s r s' r') (howner : KeepsOwner r s' r') (hleaving : r.leaving = true) :
      MonitorEffect s r s' r'
  /-- A reserve that has read the same epoch twice finds no writer. -/
  | settle {r'} (e i n a : ℕ) (h : Calm s r s r') (hpending : KeepsPending s r r')
      (hsampled : r.sampled = some (e, i, n, a)) (hquiet : s.activeWriters = 0)
      (howner : r'.owner = none) : MonitorEffect s r s r'
  | store (address : ℕ) (bytes : List UInt8)
      (hexposed : ∀ g, touches address bytes.length g = true →
        (∀ i, r.exposed i g = true) ∧ r.writing g = true) :
      MonitorEffect s r (s.storeBytes address bytes (.store address bytes.length)) r
  | commit (w : GuestWord) (i n : ℕ) (bytes : List UInt8)
      (hcommitting : r.committing = some (i, n, w.address, reservationSlotCount)) :
      MonitorEffect s r (s.storeBytes w.address bytes (.commit i n w.address w.width))
        { r with committing := none }

/-- A thread that only gives up what it relies on, and keeps its slot and its
stores. -/
structure Relaxes (r r' : MonitorRole) : Prop where
  marked : ∀ g, r'.marked = some g → r.marked = some g
  before : ∀ b, r'.before = some b → r.before = some b
  fresh : ∀ n, r'.fresh = some n → r.fresh = some n
  loaded : ∀ x, r'.loaded = some x → r.loaded = some x
  sampled : ∀ x, r'.sampled = some x → r.sampled = some x
  owner : r'.owner = r.owner
  committing : r'.committing = r.committing
  exposed : ∀ i g, r'.exposed i g = true → r.exposed i g = true
  writing : ∀ g, r.writing g = true → r'.writing g = true
  pending : ∀ g e, r.pending g e = true → r'.pending g e = true

theorem Relaxes.refl (r : MonitorRole) : Relaxes r r :=
  ⟨fun _ h => h, fun _ h => h, fun _ h => h, fun _ h => h, fun _ h => h, rfl, rfl,
    fun _ _ h => h, fun _ h => h, fun _ _ h => h⟩

theorem MonitorEffect.relax {s s' : MonitorState} {r r' : MonitorRole} (hs : Frame s s')
    (hr : Relaxes r r') : MonitorEffect s r s' r' := by
  refine .calm ⟨hs.drift, fun g h => .inr (hr.marked g h), fun b h => .inr (hr.before b h),
    fun n h => .inl (hr.fresh n h), fun i n a h => .inl ?_, fun b i n a h => .inl (hr.loaded _ h),
    fun e i n a h => .inl (hr.sampled _ h), fun i n a k h => .inl ⟨k, ?_, ?_⟩,
    fun i g h => .inl (hr.exposed i g h), fun g h => .inl (hr.writing g h)⟩ ?_
    fun g e _ h => hr.pending g e h
  · rw [← hr.owner]
    exact h
  · exact hr.committing.symm.trans h
  · exact fun j hj hj' => absurd hj' (not_lt.mpr hj)
  · rw [KeepsOwner, hr.owner]
    exact fun _ _ _ h => .inl h

/-- A thread that relies on nothing before or after its step. -/
theorem MonitorEffect.idle {s s' : MonitorState} {r r' : MonitorRole} (hs : Frame s s')
    (hr : r'.marked = none ∧ r'.before = none ∧ r'.fresh = none ∧ r'.loaded = none ∧
      r'.sampled = none)
    (hkept : r'.owner = r.owner ∧ r'.committing = r.committing ∧ r'.exposed = r.exposed ∧
      r'.writing = r.writing ∧ r'.pending = r.pending) : MonitorEffect s r s' r' := by
  obtain ⟨hmarked, hbefore, hfresh, hloaded, hsampled⟩ := hr
  obtain ⟨howner, hcommitting, hexposed, hwriting, hpending⟩ := hkept
  refine .relax hs ⟨?_, ?_, ?_, ?_, ?_, howner, hcommitting, ?_, ?_, ?_⟩
  · simp [hmarked]
  · simp [hbefore]
  · simp [hfresh]
  · simp [hloaded]
  · simp [hsampled]
  · exact fun i g h => hexposed ▸ h
  · exact fun g h => hwriting ▸ h
  · exact fun g e h => hpending ▸ h

/-- A step of a reserve that cancels its token. -/
theorem cancel_effect (w : GuestWord) (slot generation : ℕ) (flag : Bool) (s : MonitorState)
    {k : Cancel} (hk : k ≠ .done) :
    MonitorEffect s ((ReserveStep.cancel slot generation k).role w)
        (cancelStep slot generation flag s k).1
        ((ReserveStep.cancel slot generation (cancelStep slot generation flag s k).2).role w) ∧
      ((ReserveStep.cancel slot generation (cancelStep slot generation flag s k).2).role w).astray =
        false := by
  have hrole : ∀ k : Cancel, k ≠ .done → (ReserveStep.cancel slot generation k).role w =
      { inOps := true, guarded := true, marked := some w.granule
        owner := some (slot, generation, w.address) } := by
    intro k hk
    cases k with
    | done => exact absurd rfl hk
    | _ => rfl
  have hframe := cancelStep_frame slot generation flag s k
  rw [hrole k hk]
  rcases cancelStep_cases slot generation flag s hk with ⟨-, hk'⟩ | ⟨hs, hk', hgone⟩ | ⟨hs, hk'⟩
  · rw [hrole _ hk']
    exact ⟨.relax hframe (.refl _), rfl⟩
  · rw [hk', hs]
    refine ⟨.calm ⟨(Frame.refl s).drift, fun _ h => .inr h, nofun, nofun, nofun, nofun, nofun, nofun, nofun,
      nofun⟩ (fun i n a h => .inr ?_) nofun, rfl⟩
    cases h
    exact hgone
  · rw [hk', hs]
    refine ⟨.calm ⟨(Frame.clear s slot).drift, fun _ h => .inr h, nofun, nofun, nofun, nofun, nofun, nofun, nofun,
      nofun⟩ (fun i n a h => .inr ?_) nofun, rfl⟩
    cases h
    intro d hd
    simp [MonitorState.setSlot] at hd

/-- A reserve's step. -/
theorem reserveStep_effect {w : GuestWord} {flag : Bool} {s : MonitorState} {step : ReserveStep}
    (hstray : (step.role w).astray = false) (hpos : 0 < s.nextGeneration)
    (hwrap : unwrapped s (.reserve w step) (.next flag) = true) :
    MonitorEffect s (step.role w) (reserveStep w flag s step).1
        (MonitorThread.resume (.reserve w) (reserveStep w flag s step).2).role ∧
      (MonitorThread.resume (.reserve w) (reserveStep w flag s step).2).role.astray = false := by
  have hquiet : ∀ r : MonitorRole, MonitorEffect s r s r := fun r => .relax (.refl s) (.refl r)
  cases step with
  | waitServing => exact ⟨hquiet _, rfl⟩
  | waitNext serving =>
      dsimp only [reserveStep]
      split <;> exact ⟨hquiet _, rfl⟩
  | countIn =>
      exact ⟨.idle (.enterOps s) ⟨rfl, rfl, rfl, rfl, rfl⟩
        ⟨rfl, rfl, rfl, rfl, rfl⟩, rfl⟩
  | checkServing => exact ⟨.idle (.refl s) ⟨rfl, rfl, rfl, rfl, rfl⟩ ⟨rfl, rfl, rfl, rfl, rfl⟩, rfl⟩
  | checkNext serving =>
      dsimp only [reserveStep]
      split <;>
        exact ⟨.idle (.refl s) ⟨rfl, rfl, rfl, rfl, rfl⟩ ⟨rfl, rfl, rfl, rfl, rfl⟩, rfl⟩
  | backOut =>
      exact ⟨.idle (.leaveOps s) ⟨rfl, rfl, rfl, rfl, rfl⟩
        ⟨rfl, rfl, rfl, rfl, rfl⟩, rfl⟩
  | loadEpoch =>
      refine ⟨.calm ⟨(Frame.refl s).drift, nofun, fun b h => ?_, nofun, nofun, nofun, nofun, nofun, nofun, nofun⟩
        nofun nofun, rfl⟩
      cases h
      exact .inl le_rfl
  | markSeen before =>
      refine ⟨.calm ⟨(Frame.mark s w.granule).drift, fun g h => ?_, fun b h => .inr h, nofun, nofun, nofun, nofun,
        nofun, nofun, nofun⟩ nofun nofun, rfl⟩
      cases h
      refine .inl ?_
      dsimp only [reserveStep, MonitorState.markSeen]
      exact Function.update_self ..
  | drawGeneration before =>
      have hlt : s.nextGeneration + 1 < 2 ^ 32 := of_decide_eq_true hwrap
      dsimp only [reserveStep]
      simp only [if_neg hpos.ne']
      have hnext : s.drawGeneration.nextGeneration = s.nextGeneration + 1 := Nat.mod_eq_of_lt hlt
      refine ⟨.calm ⟨⟨fun _ h => h, le_rfl, by omega, .inl rfl, fun i d h =>
        .inl ⟨d, h, rfl, fun _ => rfl⟩⟩, fun _ h => .inr h, fun _ h => .inr h, fun n h => ?_, nofun,
        nofun, nofun, nofun, nofun, nofun⟩ nofun nofun, rfl⟩
      cases h
      exact .inr ⟨le_rfl, by omega⟩
  | redrawGeneration before => cases hstray
  | claim before generation slot =>
      dsimp only [reserveStep]
      split
      · exact ⟨.relax (.refl s) ⟨fun _ h => h, fun _ h => h, nofun, nofun, nofun, rfl, rfl, nofun,
          nofun, nofun⟩, rfl⟩
      · next hslot =>
          split
          · next hfree =>
              refine ⟨.calm ⟨⟨fun _ h => h, le_rfl, le_rfl, .inl rfl, fun i d hd => ?_⟩,
                fun _ h => .inr h, fun _ h => .inr h, nofun, fun i n a h => ?_, nofun, nofun, nofun,
                nofun, nofun⟩ nofun nofun, rfl⟩
              · by_cases hi : i = slot
                · subst hi
                  dsimp only [MonitorState.setSlot] at hd
                  simp only [Function.update_self, Option.some.injEq] at hd
                  subst hd
                  exact .inr ⟨not_le.mp hslot, rfl, rfl, rfl⟩
                · dsimp only [MonitorState.setSlot] at hd
                  rw [Function.update_of_ne hi] at hd
                  exact .inl ⟨d, hd, rfl, fun _ => rfl⟩
              · cases h
                exact .inr rfl
          · exact ⟨hquiet _, rfl⟩
  | loadWord before token =>
      cases token with
      | none => exact ⟨hquiet _, rfl⟩
      | some token =>
          refine ⟨.calm ⟨⟨fun _ h => h, le_rfl, le_rfl, .inr ⟨token.1, token.2, w.address, rfl⟩,
            fun i d h => .inl ⟨d, h, rfl, fun _ => rfl⟩⟩, fun _ h => .inr h, fun _ h => .inr h,
            nofun, fun _ _ _ h => .inl h, fun b i n a h => .inr ?_, nofun, nofun, nofun, nofun⟩
            (fun _ _ _ h => .inl h) nofun, rfl⟩
          cases h
          exact untouchedSince_load
  | reloadEpoch before token =>
      cases token with
      | none =>
          dsimp only [reserveStep, MonitorThread.resume, MonitorThread.role, ReserveStep.role]
          simp only [Option.map_none, ite_self]
          exact ⟨.relax (.refl s) ⟨fun _ h => h, nofun, nofun, nofun, nofun, rfl, rfl, nofun, nofun,
            nofun⟩, trivial⟩
      | some token =>
          by_cases heq : before = s.writeEpoch
          · subst heq
            dsimp only [reserveStep, MonitorThread.resume, MonitorThread.role, ReserveStep.role]
            simp only [if_true]
            refine ⟨.calm ⟨(Frame.refl s).drift, fun _ h => .inr h, nofun, nofun,
              fun _ _ _ h => .inl h, nofun, fun e i n a h => .inr ?_, nofun, nofun, nofun⟩
              (fun _ _ _ h => .inl h) nofun, trivial⟩
            cases h
            exact ⟨rfl, rfl⟩
          · dsimp only [reserveStep, MonitorThread.resume, MonitorThread.role, ReserveStep.role]
            rw [if_neg heq]
            exact ⟨.relax (.refl s) ⟨fun _ h => h, nofun, nofun, nofun, nofun, rfl, rfl, nofun,
              nofun, nofun⟩, rfl⟩
  | loadWriters before token after =>
      cases token with
      | none =>
          exact ⟨.idle (.refl s) ⟨rfl, rfl, rfl, rfl, rfl⟩ ⟨rfl, rfl, rfl, rfl, rfl⟩, rfl⟩
      | some token =>
          dsimp only [reserveStep]
          split
          · exact ⟨.relax (.refl s) ⟨fun _ h => h, nofun, nofun, nofun, nofun, rfl, rfl, nofun,
              nofun, nofun⟩, rfl⟩
          · next hgood =>
              rw [not_or, not_not, not_not] at hgood
              refine ⟨.settle after token.1 token.2 w.address ⟨(Frame.refl s).drift, nofun, nofun, nofun, nofun,
                nofun, nofun, nofun, nofun, nofun⟩ nofun ?_ hgood.2 rfl, rfl⟩
              dsimp only [ReserveStep.role]
              rw [hgood.1]
              exact if_pos rfl
  | cancel slot generation progress =>
      cases progress with
      | done =>
          exact ⟨.idle (.refl s) ⟨rfl, rfl, rfl, rfl, rfl⟩ ⟨rfl, rfl, rfl, rfl, rfl⟩, rfl⟩
      | load => exact cancel_effect w slot generation flag s nofun
      | clear expected => exact cancel_effect w slot generation flag s nofun
  | countOut =>
      exact ⟨.idle (.leaveOps s) ⟨rfl, rfl, rfl, rfl, rfl⟩
        ⟨rfl, rfl, rfl, rfl, rfl⟩, rfl⟩

/-! ## Conditional stores -/

/-- The granules of an aligned word are in the range its scan covers. -/
theorem granule_le_last (w : GuestWord) : w.granule ≤ lastGranule w.address w.width := by
  have hinside := w.inside
  have hpos : 0 < w.width := by
    unfold GuestWord.width
    split <;> omega
  simp only [GuestWord.granule, granuleOf, lastGranule, reservationGranuleSize,
    reservationGranuleCount, physicalMemorySize] at hinside ⊢
  rw [Nat.le_min]
  constructor <;> omega

/-- A slot without a reservation of the range is free for the granules of it. -/
theorem slotFree_of_inRange {s : MonitorState} {slot first last granule : ℕ}
    (h : ∀ d, s.slots slot = some d → d.inRange first last = false) (hfirst : first ≤ granule)
    (hlast : granule ≤ last) : SlotFree s slot granule := by
  intro d hd hactive heq
  have := h d hd
  simp only [Descriptor.inRange, decide_eq_false_iff_not] at this
  exact this ⟨hactive, heq ▸ hfirst, heq ▸ hlast⟩

/-- A step of a conditional store that clears the other reservations. -/
theorem scan_effect {k : ConditionalCall} {ticket : ℕ} (slot generation : ℕ) (flag : Bool)
    {s : MonitorState} {p : Invalidate} (hp : p ≠ .done) (hseen : s.seen k.word.granule = true)
    (hmissed : p.missed k.word.granule = false) :
    let last := lastGranule k.word.address k.word.width
    MonitorEffect s ((ConditionalStep.invalidate slot generation p).role k ticket)
        (invalidateStep k.word.granule last flag s p).1
        ((ConditionalStep.invalidate slot generation
          (invalidateStep k.word.granule last flag s p).2).role k ticket) ∧
      ((ConditionalStep.invalidate slot generation
        (invalidateStep k.word.granule last flag s p).2).role k ticket).astray = false := by
  obtain ⟨hkept, hscanned⟩ := @invalidateStep_scanned _ _ flag _ _
    (granule_le_last k.word) hseen hmissed hp
  refine ⟨.calm ⟨(invalidateStep_frame _ _ flag s p).drift, nofun, nofun, nofun, nofun, nofun, nofun,
    fun i n a m h => ?_, nofun, nofun⟩ nofun nofun, hkept⟩
  cases h
  exact .inl ⟨p.scanned, rfl, fun j hj hj' hcount =>
    slotFree_of_inRange (hscanned j hj hj' hcount) le_rfl (granule_le_last k.word)⟩

/-- A conditional store's step. -/
theorem conditionalStep_effect {k : ConditionalCall} {ticket : ℕ} {flag : Bool}
    {s : MonitorState} {step : ConditionalStep} (hstray : (step.role k ticket).astray = false)
    (hseen : ∀ i n a m, (step.role k ticket).committing = some (i, n, a, m) →
      s.seen (granuleOf a) = true)
    (hwrap : unwrapped s (.conditional k ticket step) (.next flag) = true) :
    MonitorEffect s (step.role k ticket) (conditionalStep k ticket flag s step).1
        (MonitorThread.resume (.conditional k ticket) (conditionalStep k ticket flag s step).2).role ∧
      (MonitorThread.resume (.conditional k ticket)
        (conditionalStep k ticket flag s step).2).role.astray = false := by
  have hquiet : ∀ r : MonitorRole, MonitorEffect s r s r := fun r => .relax (.refl s) (.refl r)
  cases step with
  | waitTurn =>
      dsimp only [conditionalStep]
      split
      · exact ⟨hquiet _, rfl⟩
      · exact ⟨.idle (.refl s) ⟨rfl, rfl, rfl, rfl, rfl⟩ ⟨rfl, rfl, rfl, rfl, rfl⟩, rfl⟩
  | drainWriters =>
      dsimp only [conditionalStep]
      split <;> exact ⟨hquiet _, rfl⟩
  | drainOps =>
      dsimp only [conditionalStep]
      split
      · exact ⟨hquiet _, rfl⟩
      · exact ⟨.idle (.refl s) ⟨rfl, rfl, rfl, rfl, rfl⟩ ⟨rfl, rfl, rfl, rfl, rfl⟩, rfl⟩
  | resolve =>
      dsimp only [conditionalStep]
      split
      · exact ⟨hquiet _, rfl⟩
      · cases decodeToken k.token <;> exact ⟨hquiet _, rfl⟩
  | loadSlot slot generation =>
      dsimp only [conditionalStep]
      split
      · exact ⟨hquiet _, rfl⟩
      · split
        · next heq =>
            exact ⟨.idle (.refl s) ⟨rfl, rfl, rfl, rfl, rfl⟩ ⟨rfl, rfl, rfl, rfl, rfl⟩,
              by
                dsimp only [MonitorThread.resume, MonitorThread.role, ConditionalStep.role]
                simp [heq]⟩
        · exact ⟨hquiet _, rfl⟩
  | commitSlot slot generation expected =>
      have hexpected : expected = activeSlot k.word generation := by
        dsimp only [ConditionalStep.role] at hstray
        simpa using hstray
      subst hexpected
      dsimp only [conditionalStep]
      split
      · next hslot =>
          refine ⟨.calm ⟨⟨fun _ h => h, le_rfl, le_rfl, .inl rfl, fun i d hd => .inl ?_⟩, nofun,
            nofun, nofun, nofun, nofun, nofun, fun i n a m h => .inr ?_, nofun, nofun⟩ nofun nofun,
            by
              dsimp only [MonitorThread.resume, MonitorThread.role, ConditionalStep.role,
                Invalidate.missed]
              simp⟩
          · by_cases hi : i = slot
            · subst hi
              dsimp only [MonitorState.setSlot] at hd
              simp only [Function.update_self, Option.some.injEq] at hd
              subst hd
              exact ⟨_, hslot, rfl, nofun⟩
            · dsimp only [MonitorState.setSlot] at hd
              rw [Function.update_of_ne hi] at hd
              exact ⟨d, hd, rfl, fun _ => rfl⟩
          · cases h
            refine ⟨rfl, rfl, fun d hd => ?_, _, hslot, rfl, rfl, rfl⟩
            dsimp only [MonitorState.setSlot] at hd
            simp only [Function.update_self, Option.some.injEq] at hd
            subst hd
            exact nofun
      · exact ⟨.idle (.refl s) ⟨rfl, rfl, rfl, rfl, rfl⟩ ⟨rfl, rfl, rfl, rfl, rfl⟩, rfl⟩
  | cancel slot generation progress =>
      cases progress with
      | done => exact ⟨hquiet _, rfl⟩
      | _ => exact ⟨.relax (cancelStep_frame slot generation flag s _) (.refl _), rfl⟩
  | invalidate slot generation progress =>
      have hmarked := hseen slot generation k.word.address _ rfl
      cases progress with
      | done => exact ⟨hquiet _, rfl⟩
      | testSeen granule => exact scan_effect slot generation flag nofun hmarked hstray
      | loadSlot next => exact scan_effect slot generation flag nofun hmarked hstray
      | clearSlot next expected => exact scan_effect slot generation flag nofun hmarked hstray
  | storeWord slot generation =>
      obtain ⟨word, token, bytes, locked⟩ := k
      cases locked <;> exact ⟨.commit word slot generation bytes rfl, rfl⟩
  | countIn slot =>
      exact ⟨.idle (.enterWriters s) ⟨rfl, rfl, rfl, rfl, rfl⟩ ⟨rfl, rfl, rfl, rfl, rfl⟩, rfl⟩
  | drawEpoch slot =>
      have hlt : s.writeEpoch + 1 < 2 ^ 64 := of_decide_eq_true hwrap
      dsimp only [conditionalStep]
      simp only [Nat.mod_eq_of_lt hlt, Nat.succ_ne_zero, if_false]
      obtain ⟨word, token, bytes, locked⟩ := k
      cases locked <;>
        exact ⟨.idle (.draw hlt) ⟨rfl, rfl, rfl, rfl, rfl⟩ ⟨rfl, rfl, rfl, rfl, rfl⟩, rfl⟩
  | storeWrapped slot => cases hstray
  | countOut slot =>
      exact ⟨.idle (.leaveWriters s) ⟨rfl, rfl, rfl, rfl, rfl⟩ ⟨rfl, rfl, rfl, rfl, rfl⟩, rfl⟩
  | clearSlot slot => exact ⟨.relax (.clear s slot) (.refl _), rfl⟩
  | release =>
      exact ⟨.idle (.serveNext s) ⟨rfl, rfl, rfl, rfl, rfl⟩ ⟨rfl, rfl, rfl, rfl, rfl⟩, rfl⟩

/-! ## Ordinary stores -/

/-- A chunk lies in its store's range. -/
theorem covers_of_touches {k : StoreCall} {index : ℕ} {chunk : List UInt8}
    (hchunk : k.chunks[index]? = some chunk) {g : ℕ}
    (h : touches (k.chunkAddress index) chunk.length g = true) : k.covers g = true := by
  have htake : (k.chunks.take index).flatten.length + chunk.length ≤ k.chunks.flatten.length := by
    have hsplit : (k.chunks.take (index + 1)).flatten =
        (k.chunks.take index).flatten ++ chunk := by
      rw [List.take_add_one, hchunk]
      simp
    calc (k.chunks.take index).flatten.length + chunk.length
        = (k.chunks.take (index + 1)).flatten.length := by rw [hsplit, List.length_append]
      _ ≤ (k.chunks.take (index + 1)).flatten.length +
          (k.chunks.drop (index + 1)).flatten.length := Nat.le_add_right _ _
      _ = (k.chunks.take (index + 1) ++ k.chunks.drop (index + 1)).flatten.length := by
          rw [List.flatten_append, List.length_append]
      _ = k.chunks.flatten.length := by rw [List.take_append_drop]
  have hinside := k.inside
  have htouch := of_decide_eq_true h
  refine decide_eq_true ?_
  simp only [StoreCall.chunkAddress, StoreCall.width, granuleOf, lastGranule,
    reservationGranuleSize, reservationGranuleCount, physicalMemorySize] at *
  rw [Nat.le_min]
  omega

/-- An ordinary store's step. -/
theorem storeStep_effect {k : StoreCall} {flag : Bool} {s : MonitorState} {step : StoreStep}
    (hstray : (step.role k).astray = false)
    (hbound : ∀ i d, s.slots i = some d → i < reservationSlotCount)
    (hwrap : unwrapped s (.store k step) (.next flag) = true) :
    MonitorEffect s (step.role k) (storeStep k flag s step).1
        (MonitorThread.resume (.store k) (storeStep k flag s step).2).role ∧
      (MonitorThread.resume (.store k) (storeStep k flag s step).2).role.astray = false := by
  have hquiet : ∀ r : MonitorRole, MonitorEffect s r s r := fun r => .relax (.refl s) (.refl r)
  cases step with
  | countIn =>
      refine ⟨.relax (.enterWriters s) ⟨nofun, nofun, nofun, nofun, nofun, rfl, rfl,
        fun i g h => ?_, nofun, nofun⟩, rfl⟩
      dsimp only [storeStep, MonitorThread.resume, MonitorThread.role, StoreStep.role,
        StoreCall.covers] at h
      simp only [Bool.and_eq_true, decide_eq_true_eq] at h
      omega
  | testSeen granule =>
      dsimp only [storeStep]
      split
      · next hend =>
          refine ⟨.relax (.refl s) ⟨nofun, nofun, nofun, nofun, nofun, rfl, rfl,
            fun i g h => ?_, nofun, nofun⟩, rfl⟩
          dsimp only [MonitorThread.resume, MonitorThread.role, StoreStep.role, StoreCall.covers] at h ⊢
          simp only [Bool.and_eq_true, decide_eq_true_eq] at h ⊢
          omega
      · split
        · exact ⟨.relax (.refl s) ⟨nofun, nofun, nofun, nofun, nofun, rfl, rfl, nofun, nofun,
            nofun⟩, rfl⟩
        · next hseen =>
            refine ⟨.calm ⟨(Frame.refl s).drift, nofun, nofun, nofun, nofun, nofun, nofun, nofun,
              fun i g h => ?_, nofun⟩ nofun nofun, rfl⟩
            dsimp only [MonitorThread.resume, MonitorThread.role, StoreStep.role] at h ⊢
            simp only [Bool.and_eq_true, decide_eq_true_eq] at h ⊢
            by_cases heq : g = granule
            · exact .inr (.inl (by simpa [heq] using hseen))
            · exact .inl ⟨h.1, by omega⟩
  | joinOps =>
      exact ⟨.idle (.enterOps s) ⟨rfl, rfl, rfl, rfl, rfl⟩ ⟨rfl, rfl, rfl, rfl, rfl⟩, rfl⟩
  | recheckGate joined =>
      cases joined with
      | true => exact ⟨hquiet _, rfl⟩
      | false =>
          dsimp only [storeStep]
          split
          · exact ⟨.relax (.refl s) ⟨nofun, nofun, nofun, nofun, nofun, rfl, rfl, nofun, nofun,
              nofun⟩, rfl⟩
          · exact ⟨hquiet _, rfl⟩
  | checkServing blocked =>
      exact ⟨.idle (.refl s) ⟨rfl, rfl, rfl, rfl, rfl⟩ ⟨rfl, rfl, rfl, rfl, rfl⟩, rfl⟩
  | checkNext blocked serving =>
      dsimp only [storeStep]
      split
      · exact ⟨.idle (.refl s) ⟨rfl, rfl, rfl, rfl, rfl⟩ ⟨rfl, rfl, rfl, rfl, rfl⟩, rfl⟩
      · split
        · exact ⟨.idle (.refl s) ⟨rfl, rfl, rfl, rfl, rfl⟩ ⟨rfl, rfl, rfl, rfl, rfl⟩, rfl⟩
        · refine ⟨.relax (.refl s) ⟨nofun, nofun, nofun, nofun, nofun, rfl, rfl,
            fun i g h => ?_, nofun, nofun⟩, rfl⟩
          dsimp only [MonitorThread.resume, MonitorThread.role, StoreStep.role, StoreCall.covers,
            Invalidate.passed] at h
          simp only [Bool.and_eq_true, decide_eq_true_eq] at h
          omega
  | backOutOps wait =>
      exact ⟨.idle (.leaveOps s) ⟨rfl, rfl, rfl, rfl, rfl⟩ ⟨rfl, rfl, rfl, rfl, rfl⟩, rfl⟩
  | backOutWriters wait =>
      cases wait <;>
        exact ⟨.idle (.leaveWriters s) ⟨rfl, rfl, rfl, rfl, rfl⟩ ⟨rfl, rfl, rfl, rfl, rfl⟩, rfl⟩
  | waitServing => exact ⟨hquiet _, rfl⟩
  | waitNext serving =>
      dsimp only [storeStep]
      split <;> exact ⟨hquiet _, rfl⟩
  | invalidate joined progress =>
      cases progress with
      | done =>
          cases joined with
          | false =>
              exact ⟨.relax (.refl s) ⟨nofun, nofun, nofun, nofun, nofun, rfl, rfl,
                fun _ _ h => h, nofun, nofun⟩, rfl⟩
          | true =>
              refine ⟨.relax (.refl s) ⟨nofun, nofun, nofun, nofun, nofun, rfl, rfl,
                fun _ _ h => ?_, nofun, nofun⟩, rfl⟩
              exact Bool.and_eq_true_iff.mpr ⟨h, rfl⟩
      | _ =>
          cases joined with
          | false => exact ⟨.relax (invalidateStep_frame _ _ flag s _) (.refl _), rfl⟩
          | true =>
              refine ⟨.calm ⟨(invalidateStep_frame _ _ flag s _).drift, nofun, nofun, nofun, nofun, nofun,
                nofun, nofun, fun i g h => ?_, nofun⟩ nofun nofun, rfl⟩
              obtain ⟨hcovers, hpassed⟩ := Bool.and_eq_true_iff.mp h
              have hrange := of_decide_eq_true hcovers
              rcases invalidateStep_passed hbound hrange.2 hpassed with hold | hseen | hfree
              · exact .inl (Bool.and_eq_true_iff.mpr ⟨hcovers, hold⟩)
              · exact .inr (.inl hseen)
              · exact .inr (.inr ⟨rfl, slotFree_of_inRange hfree hrange.1 hrange.2⟩)
  | storeChunk joined index =>
      dsimp only [storeStep]
      split
      · exact ⟨.relax (.refl s) ⟨nofun, nofun, nofun, nofun, nofun, rfl, rfl, nofun,
          fun _ h => h, fun _ _ h => h⟩, rfl⟩
      · next chunk hchunk =>
          exact ⟨.store (k.chunkAddress index) chunk fun g hg =>
            ⟨fun _ => covers_of_touches hchunk hg, covers_of_touches hchunk hg⟩, rfl⟩
  | drawEpoch joined =>
      have hlt : s.writeEpoch + 1 < 2 ^ 64 := of_decide_eq_true hwrap
      have hless : s.writeEpoch < s.drawEpoch.writeEpoch := by
        dsimp only [MonitorState.drawEpoch]
        simp only [Nat.mod_eq_of_lt hlt]
        omega
      dsimp only [storeStep]
      simp only [Nat.mod_eq_of_lt hlt, Nat.succ_ne_zero, if_false]
      cases joined <;>
        refine ⟨.calm ⟨(Frame.draw hlt).drift, nofun, nofun, nofun, nofun, nofun, nofun, nofun, nofun,
          fun g _ => .inr hless⟩ nofun fun g e he h => ?_, rfl⟩ <;>
        exact Bool.and_eq_true_iff.mpr ⟨h, decide_eq_true (Nat.lt_succ_of_le he)⟩
  | storeWrapped joined => cases hstray
  | countOutOps epoch =>
      exact ⟨.idle (.leaveOps s) ⟨rfl, rfl, rfl, rfl, rfl⟩ ⟨rfl, rfl, rfl, rfl, rfl⟩, rfl⟩
  | countOutWriters epoch =>
      exact ⟨.drop ⟨(Frame.leaveWriters s).drift, nofun, nofun, nofun, nofun, nofun, nofun, nofun, nofun, nofun⟩
        nofun rfl, rfl⟩

/-- **The effect of a step.**  Every step of a thread that is not astray, at which
no counter wraps. -/
theorem monitor_effect {s s' : MonitorState} {l l' : MonitorThread} {a : MonitorChoice}
    (h : monitorProgram s l a = some (s', l')) (hstray : l.role.astray = false)
    (hpos : 0 < s.nextGeneration)
    (hbound : ∀ i d, s.slots i = some d → i < reservationSlotCount)
    (hseen : ∀ i n a m, l.role.committing = some (i, n, a, m) → s.seen (granuleOf a) = true)
    (hwrap : unwrapped s l a = true) :
    MonitorEffect s l.role s' l'.role ∧ l'.role.astray = false := by
  cases a with
  | call c =>
      cases l with
      | idle =>
          cases c with
          | reserve w =>
              cases h
              exact ⟨.relax (.refl s) (.refl _), rfl⟩
          | storeConditional k =>
              simp only [monitorProgram, beginMonitorCall] at h
              split at h <;> cases h
              exact ⟨.idle (.takeTicket s) ⟨rfl, rfl, rfl, rfl, rfl⟩ ⟨rfl, rfl, rfl, rfl, rfl⟩, rfl⟩
          | store k =>
              cases h
              exact ⟨.relax (.refl s) (.refl _), rfl⟩
          | cancelReservation token =>
              obtain ⟨r, -, hr⟩ := Option.map_eq_some_iff.mp h
              cases hr
              exact ⟨.relax (.refl s) (.refl _), rfl⟩
      | cancel slot generation progress => cases progress <;> cases h
      | _ => cases h
  | next flag =>
      cases l with
      | idle => cases h
      | reserve w step =>
          cases h
          exact reserveStep_effect hstray hpos hwrap
      | conditional k ticket step =>
          cases h
          exact conditionalStep_effect hstray hseen hwrap
      | store k step =>
          cases h
          exact storeStep_effect hstray hbound hwrap
      | cancel slot generation progress =>
          cases progress with
          | done =>
              cases h
              exact ⟨.relax (.refl s) (.refl _), rfl⟩
          | _ =>
              cases h
              exact ⟨.relax (cancelStep_frame slot generation flag s _) (.refl _), rfl⟩

end Memory
end XenonRecomp
