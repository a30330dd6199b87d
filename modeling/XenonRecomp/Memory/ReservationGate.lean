/-
# The counts and the gate of the reservation monitor

A conditional store stores only after it has held the ticket gate and then seen
`active_coherency_writers` and `active_reservation_ops` at zero; a reserve, and a
store that joins the reservation operations, go on only if they found the gate
free after they were counted.  `GateInvariant` is the mutual exclusion this
gives: the counts are the numbers of threads inside, tickets are served one at a
time, and no thread is past the check of the gate while another has drained.
-/

import XenonRecomp.Memory.ReservationRoles

namespace XenonRecomp
namespace Memory

open Library Library.Transition Library.Interleaving

/-- No counter wraps at this step: the condition on the generation, the epoch and
the ticket it draws. -/
def unwrapped (s : MonitorState) : MonitorThread → MonitorChoice → Bool
  | .reserve _ (.drawGeneration _), _ => decide (s.nextGeneration + 1 < 2 ^ 32)
  | .conditional _ _ (.drawEpoch _), _ => decide (s.writeEpoch + 1 < 2 ^ 64)
  | .store _ (.drawEpoch _), _ => decide (s.writeEpoch + 1 < 2 ^ 64)
  | .idle, .call (.storeConditional _) => decide (s.nextTicket + 1 < 2 ^ 64)
  | _, _ => true

/-! ## The counts -/

/-- The two counts are the same. -/
def SameCounts (s s' : MonitorState) : Prop :=
  s'.activeOps = s.activeOps ∧ s'.activeWriters = s.activeWriters

/-- The ticket gate is the same. -/
def SameGate (s s' : MonitorState) : Prop :=
  s'.nextTicket = s.nextTicket ∧ s'.nowServing = s.nowServing

theorem cancelStep_same (slot generation : ℕ) (flag : Bool) (s : MonitorState) {k : Cancel} :
    SameCounts s (cancelStep slot generation flag s k).1 ∧
      SameGate s (cancelStep slot generation flag s k).1 := by
  cases k with
  | clear expected =>
      simp only [cancelStep]
      split <;> exact ⟨⟨rfl, rfl⟩, rfl, rfl⟩
  | _ => exact ⟨⟨rfl, rfl⟩, rfl, rfl⟩

theorem invalidateStep_same (first last : ℕ) (flag : Bool) (s : MonitorState) (k : Invalidate) :
    SameCounts s (invalidateStep first last flag s k).1 ∧
      SameGate s (invalidateStep first last flag s k).1 := by
  rcases invalidateStep_state first last flag s k with h | ⟨slot, h⟩ <;>
    rw [h] <;> exact ⟨⟨rfl, rfl⟩, rfl, rfl⟩

/-- The counts move with the thread. -/
def Counted (s : MonitorState) (r : MonitorRole) (s' : MonitorState) (r' : MonitorRole) : Prop :=
  s'.activeOps + r.inOps.toNat = s.activeOps + r'.inOps.toNat ∧
    s'.activeWriters + r.inWriters.toNat = s.activeWriters + r'.inWriters.toNat

theorem Counted.of_same {s s' : MonitorState} {r r' : MonitorRole} (h : SameCounts s s')
    (hops : r'.inOps = r.inOps) (hwriters : r'.inWriters = r.inWriters) : Counted s r s' r' := by
  unfold Counted
  rw [h.1, h.2, hops, hwriters]
  exact ⟨rfl, rfl⟩

/-- What a step does to the ticket gate and to the thread's place at it. -/
inductive GateEffect (s : MonitorState) (r : MonitorRole) : MonitorState → MonitorRole → Prop
  | keep {s' r'} (hgate : SameGate s s') (hticket : r'.ticket = r.ticket)
      (hholds : r'.holds = true → r.holds = true ∨ r.ticket = some s.nowServing)
      (hdrained : r'.drained = true → r.drained = true ∨ r.holds = true ∧ s.activeOps = 0)
      (hchecking : ∀ v, r'.checking = some v → v ≤ s.nowServing ∨ r.checking = some v)
      (hguarded : r'.guarded = true → r.guarded = true ∨ r.checking = some s.nextTicket) :
      GateEffect s r s' r'
  | take {s' r'} (hlt : s.nextTicket + 1 < 2 ^ 64) (hnext : s'.nextTicket = s.nextTicket + 1)
      (hserving : s'.nowServing = s.nowServing) (hticket : r'.ticket = some s.nextTicket)
      (hholds : r'.holds = false) (hdrained : r'.drained = false)
      (hchecking : r'.checking = none) (hguarded : r'.guarded = false) : GateEffect s r s' r'
  | serve {s' r'} (hnext : s'.nextTicket = s.nextTicket)
      (hserving : s'.nowServing = (s.nowServing + 1) % 2 ^ 64) (hbefore : r.holds = true)
      (hticket : r'.ticket = none) (hholds : r'.holds = false) (hdrained : r'.drained = false)
      (hchecking : r'.checking = none) (hguarded : r'.guarded = false) : GateEffect s r s' r'

/-- A thread that is counted in or out and does not move at the gate. -/
theorem gate_count {s s' : MonitorState} {r r' : MonitorRole} (hs : SameGate s s')
    (hcount : Counted s r s' r')
    (hr : r'.ticket = r.ticket ∧ r'.holds = r.holds ∧ r'.drained = r.drained ∧ r'.checking = none)
    (hguarded : r'.guarded = true → r.guarded = true) :
    Counted s r s' r' ∧ GateEffect s r s' r' := by
  obtain ⟨hticket, hholds, hdrained, hchecking⟩ := hr
  refine ⟨hcount, .keep hs hticket ?_ ?_ ?_ ?_⟩
  · rw [hholds]
    exact .inl
  · rw [hdrained]
    exact .inl
  · rw [hchecking]
    exact nofun
  · exact fun h => .inl (hguarded h)

/-- A thread that neither counts nor moves at the gate. -/
theorem gate_quiet {s s' : MonitorState} {r r' : MonitorRole}
    (hs : SameCounts s s' ∧ SameGate s s')
    (hr : r'.inOps = r.inOps ∧ r'.inWriters = r.inWriters ∧ r'.ticket = r.ticket ∧
      r'.holds = r.holds ∧ r'.drained = r.drained ∧ r'.checking = none)
    (hguarded : r'.guarded = true → r.guarded = true) :
    Counted s r s' r' ∧ GateEffect s r s' r' :=
  gate_count hs.2 (.of_same hs.1 hr.1 hr.2.1) hr.2.2 hguarded

theorem counted_leaveOps {s : MonitorState} {r r' : MonitorRole} (hpos : 0 < s.activeOps)
    (hbefore : r.inOps = true) (hafter : r'.inOps = false) (hwriters : r'.inWriters = r.inWriters) :
    Counted s r s.leaveOps r' := by
  constructor
  · rw [hbefore, hafter]
    exact Nat.sub_add_cancel hpos
  · rw [hwriters]
    rfl

theorem counted_leaveWriters {s : MonitorState} {r r' : MonitorRole} (hpos : 0 < s.activeWriters)
    (hbefore : r.inWriters = true) (hafter : r'.inWriters = false) (hops : r'.inOps = r.inOps) :
    Counted s r s.leaveWriters r' := by
  constructor
  · rw [hops]
    rfl
  · rw [hbefore, hafter]
    exact Nat.sub_add_cancel hpos

/-- A reserve at the gate. -/
theorem reserveStep_gate {w : GuestWord} {flag : Bool} {s : MonitorState} {step : ReserveStep}
    (hstray : (step.role w).astray = false)
    (hops : (step.role w).inOps = true → 0 < s.activeOps) :
    Counted s (step.role w) (reserveStep w flag s step).1
        (MonitorThread.resume (.reserve w) (reserveStep w flag s step).2).role ∧
      GateEffect s (step.role w) (reserveStep w flag s step).1
        (MonitorThread.resume (.reserve w) (reserveStep w flag s step).2).role := by
  have hsame : SameCounts s s ∧ SameGate s s := ⟨⟨rfl, rfl⟩, rfl, rfl⟩
  cases step with
  | waitNext serving =>
      simp only [reserveStep]
      split <;> exact gate_quiet hsame ⟨rfl, rfl, rfl, rfl, rfl, rfl⟩ id
  | countIn => exact gate_count ⟨rfl, rfl⟩ ⟨rfl, rfl⟩ ⟨rfl, rfl, rfl, rfl⟩ id
  | checkServing =>
      refine ⟨.of_same hsame.1 rfl rfl, .keep hsame.2 rfl nofun nofun (fun v hv => ?_) nofun⟩
      cases hv
      exact .inl le_rfl
  | checkNext serving =>
      simp only [reserveStep]
      split
      · exact gate_quiet hsame ⟨rfl, rfl, rfl, rfl, rfl, rfl⟩ id
      · next heq =>
          refine ⟨.of_same hsame.1 rfl rfl, .keep hsame.2 rfl nofun nofun nofun fun _ => .inr ?_⟩
          exact congrArg some (not_not.mp heq)
  | backOut =>
      exact gate_count ⟨rfl, rfl⟩ (counted_leaveOps (hops rfl) rfl rfl rfl)
        ⟨rfl, rfl, rfl, rfl⟩ id
  | drawGeneration before =>
      simp only [reserveStep]
      split <;> exact gate_quiet ⟨⟨rfl, rfl⟩, rfl, rfl⟩ ⟨rfl, rfl, rfl, rfl, rfl, rfl⟩ id
  | redrawGeneration before => cases hstray
  | claim before generation slot =>
      simp only [reserveStep]
      split
      · exact gate_quiet hsame ⟨rfl, rfl, rfl, rfl, rfl, rfl⟩ id
      · split <;> exact gate_quiet ⟨⟨rfl, rfl⟩, rfl, rfl⟩ ⟨rfl, rfl, rfl, rfl, rfl, rfl⟩ id
  | loadWord before token =>
      cases token <;> exact gate_quiet ⟨⟨rfl, rfl⟩, rfl, rfl⟩ ⟨rfl, rfl, rfl, rfl, rfl, rfl⟩ id
  | loadWriters before token after =>
      cases token with
      | none => exact gate_quiet hsame ⟨rfl, rfl, rfl, rfl, rfl, rfl⟩ id
      | some token =>
          simp only [reserveStep]
          split <;> exact gate_quiet hsame ⟨rfl, rfl, rfl, rfl, rfl, rfl⟩ id
  | cancel slot generation progress =>
      have hcancel := cancelStep_same slot generation flag s (k := progress)
      cases progress with
      | done => exact gate_quiet hsame ⟨rfl, rfl, rfl, rfl, rfl, rfl⟩ id
      | load =>
          simp only [reserveStep]
          cases (cancelStep slot generation flag s .load).2 <;>
            exact gate_quiet hcancel ⟨rfl, rfl, rfl, rfl, rfl, rfl⟩ id
      | clear expected =>
          simp only [reserveStep]
          cases (cancelStep slot generation flag s (.clear expected)).2 <;>
            exact gate_quiet hcancel ⟨rfl, rfl, rfl, rfl, rfl, rfl⟩ id
  | countOut =>
      exact gate_count ⟨rfl, rfl⟩ (counted_leaveOps (hops rfl) rfl rfl rfl)
        ⟨rfl, rfl, rfl, rfl⟩ nofun
  | _ => exact gate_quiet ⟨⟨rfl, rfl⟩, rfl, rfl⟩ ⟨rfl, rfl, rfl, rfl, rfl, rfl⟩ id

/-- A conditional store at the gate. -/
theorem conditionalStep_gate {k : ConditionalCall} {ticket : ℕ} {flag : Bool} {s : MonitorState}
    {step : ConditionalStep} (hstray : (step.role k ticket).astray = false)
    (hwriters : (step.role k ticket).inWriters = true → 0 < s.activeWriters)
    (hwrap : unwrapped s (.conditional k ticket step) (.next flag) = true) :
    Counted s (step.role k ticket) (conditionalStep k ticket flag s step).1
        (MonitorThread.resume (.conditional k ticket) (conditionalStep k ticket flag s step).2).role ∧
      GateEffect s (step.role k ticket) (conditionalStep k ticket flag s step).1
        (MonitorThread.resume (.conditional k ticket)
          (conditionalStep k ticket flag s step).2).role := by
  have hsame : SameCounts s s ∧ SameGate s s := ⟨⟨rfl, rfl⟩, rfl, rfl⟩
  cases step with
  | waitTurn =>
      simp only [conditionalStep]
      split
      · exact gate_quiet hsame ⟨rfl, rfl, rfl, rfl, rfl, rfl⟩ id
      · next heq =>
          refine ⟨.of_same hsame.1 rfl rfl, .keep hsame.2 rfl (fun _ => .inr ?_) nofun nofun nofun⟩
          exact congrArg some (not_not.mp heq).symm
  | drainWriters =>
      simp only [conditionalStep]
      split <;> exact gate_quiet hsame ⟨rfl, rfl, rfl, rfl, rfl, rfl⟩ id
  | drainOps =>
      simp only [conditionalStep]
      split
      · exact gate_quiet hsame ⟨rfl, rfl, rfl, rfl, rfl, rfl⟩ id
      · next hzero =>
          refine ⟨.of_same hsame.1 rfl rfl, .keep hsame.2 rfl (fun _ => .inl rfl)
            (fun _ => .inr ⟨rfl, not_not.mp hzero⟩) nofun nofun⟩
  | resolve =>
      simp only [conditionalStep]
      split
      · exact gate_quiet hsame ⟨rfl, rfl, rfl, rfl, rfl, rfl⟩ id
      · cases decodeToken k.token <;> exact gate_quiet hsame ⟨rfl, rfl, rfl, rfl, rfl, rfl⟩ id
  | loadSlot slot generation =>
      simp only [conditionalStep]
      split
      · exact gate_quiet hsame ⟨rfl, rfl, rfl, rfl, rfl, rfl⟩ id
      · split <;> exact gate_quiet hsame ⟨rfl, rfl, rfl, rfl, rfl, rfl⟩ id
  | commitSlot slot generation expected =>
      simp only [conditionalStep]
      split <;> exact gate_quiet ⟨⟨rfl, rfl⟩, rfl, rfl⟩ ⟨rfl, rfl, rfl, rfl, rfl, rfl⟩ id
  | cancel slot generation progress =>
      cases progress with
      | done => exact gate_quiet hsame ⟨rfl, rfl, rfl, rfl, rfl, rfl⟩ id
      | _ =>
          exact gate_quiet (cancelStep_same slot generation flag s) ⟨rfl, rfl, rfl, rfl, rfl, rfl⟩ id
  | invalidate slot generation progress =>
      cases progress with
      | done => exact gate_quiet hsame ⟨rfl, rfl, rfl, rfl, rfl, rfl⟩ id
      | _ =>
          exact gate_quiet (invalidateStep_same _ _ flag s _) ⟨rfl, rfl, rfl, rfl, rfl, rfl⟩ id
  | storeWord slot generation =>
      obtain ⟨word, token, bytes, locked⟩ := k
      cases locked <;> exact gate_quiet ⟨⟨rfl, rfl⟩, rfl, rfl⟩ ⟨rfl, rfl, rfl, rfl, rfl, rfl⟩ id
  | countIn slot =>
      have hlocked : k.locked = true := by simpa [ConditionalStep.role] using hstray
      refine gate_count ⟨rfl, rfl⟩ ⟨rfl, ?_⟩ ⟨rfl, rfl, rfl, rfl⟩ id
      simp [conditionalStep, MonitorThread.resume, MonitorThread.role, ConditionalStep.role,
        MonitorState.enterWriters, hlocked]
  | drawEpoch slot =>
      have hlt : s.writeEpoch + 1 < 2 ^ 64 := of_decide_eq_true hwrap
      simp only [conditionalStep, Nat.mod_eq_of_lt hlt, Nat.succ_ne_zero, if_false]
      obtain ⟨word, token, bytes, locked⟩ := k
      cases locked <;> exact gate_quiet ⟨⟨rfl, rfl⟩, rfl, rfl⟩ ⟨rfl, rfl, rfl, rfl, rfl, rfl⟩ id
  | storeWrapped slot => cases hstray
  | countOut slot =>
      exact gate_count ⟨rfl, rfl⟩ (counted_leaveWriters (hwriters rfl) rfl rfl rfl)
        ⟨rfl, rfl, rfl, rfl⟩ id
  | clearSlot slot => exact gate_quiet ⟨⟨rfl, rfl⟩, rfl, rfl⟩ ⟨rfl, rfl, rfl, rfl, rfl, rfl⟩ id
  | release => exact ⟨⟨rfl, rfl⟩, .serve rfl rfl rfl rfl rfl rfl rfl rfl⟩

/-- An ordinary store at the gate. -/
theorem storeStep_gate {k : StoreCall} {flag : Bool} {s : MonitorState} {step : StoreStep}
    (hstray : (step.role k).astray = false)
    (hops : (step.role k).inOps = true → 0 < s.activeOps)
    (hwriters : (step.role k).inWriters = true → 0 < s.activeWriters)
    (hwrap : unwrapped s (.store k step) (.next flag) = true) :
    Counted s (step.role k) (storeStep k flag s step).1
        (MonitorThread.resume (.store k) (storeStep k flag s step).2).role ∧
      GateEffect s (step.role k) (storeStep k flag s step).1
        (MonitorThread.resume (.store k) (storeStep k flag s step).2).role := by
  have hsame : SameCounts s s ∧ SameGate s s := ⟨⟨rfl, rfl⟩, rfl, rfl⟩
  cases step with
  | countIn => exact gate_count ⟨rfl, rfl⟩ ⟨rfl, rfl⟩ ⟨rfl, rfl, rfl, rfl⟩ id
  | testSeen granule =>
      simp only [storeStep]
      split
      · exact gate_quiet hsame ⟨rfl, rfl, rfl, rfl, rfl, rfl⟩ id
      · split <;> exact gate_quiet hsame ⟨rfl, rfl, rfl, rfl, rfl, rfl⟩ id
  | joinOps => exact gate_count ⟨rfl, rfl⟩ ⟨rfl, rfl⟩ ⟨rfl, rfl, rfl, rfl⟩ id
  | recheckGate joined =>
      cases joined with
      | true => exact gate_quiet hsame ⟨rfl, rfl, rfl, rfl, rfl, rfl⟩ id
      | false =>
          simp only [storeStep]
          split <;> exact gate_quiet hsame ⟨rfl, rfl, rfl, rfl, rfl, rfl⟩ id
  | checkServing blocked =>
      refine ⟨.of_same hsame.1 rfl rfl, .keep hsame.2 rfl nofun nofun (fun v hv => ?_) nofun⟩
      cases hv
      exact .inl le_rfl
  | checkNext blocked serving =>
      simp only [storeStep]
      split
      · exact gate_quiet hsame ⟨rfl, rfl, rfl, rfl, rfl, rfl⟩ id
      · next heq =>
          split
          · exact gate_quiet hsame ⟨rfl, rfl, rfl, rfl, rfl, rfl⟩ id
          · refine ⟨.of_same hsame.1 rfl rfl,
              .keep hsame.2 rfl nofun nofun nofun fun _ => .inr ?_⟩
            exact congrArg some (not_not.mp heq)
  | backOutOps wait =>
      exact gate_count ⟨rfl, rfl⟩ (counted_leaveOps (hops rfl) rfl rfl rfl)
        ⟨rfl, rfl, rfl, rfl⟩ id
  | backOutWriters wait =>
      cases wait <;>
        exact gate_count ⟨rfl, rfl⟩ (counted_leaveWriters (hwriters rfl) rfl rfl rfl)
          ⟨rfl, rfl, rfl, rfl⟩ id
  | waitServing => exact gate_quiet hsame ⟨rfl, rfl, rfl, rfl, rfl, rfl⟩ id
  | waitNext serving =>
      simp only [storeStep]
      split <;> exact gate_quiet hsame ⟨rfl, rfl, rfl, rfl, rfl, rfl⟩ id
  | invalidate joined progress =>
      cases progress with
      | done => cases joined <;> exact gate_quiet hsame ⟨rfl, rfl, rfl, rfl, rfl, rfl⟩ id
      | _ =>
          cases joined <;>
            exact gate_quiet (invalidateStep_same _ _ flag s _) ⟨rfl, rfl, rfl, rfl, rfl, rfl⟩ id
  | storeChunk joined index =>
      simp only [storeStep]
      split <;> exact gate_quiet ⟨⟨rfl, rfl⟩, rfl, rfl⟩ ⟨rfl, rfl, rfl, rfl, rfl, rfl⟩ id
  | drawEpoch joined =>
      have hlt : s.writeEpoch + 1 < 2 ^ 64 := of_decide_eq_true hwrap
      simp only [storeStep, Nat.mod_eq_of_lt hlt, Nat.succ_ne_zero, if_false]
      cases joined <;> exact gate_quiet ⟨⟨rfl, rfl⟩, rfl, rfl⟩ ⟨rfl, rfl, rfl, rfl, rfl, rfl⟩ id
  | storeWrapped joined => cases hstray
  | countOutOps epoch =>
      exact gate_count ⟨rfl, rfl⟩ (counted_leaveOps (hops rfl) rfl rfl rfl)
        ⟨rfl, rfl, rfl, rfl⟩ nofun
  | countOutWriters epoch =>
      exact gate_count ⟨rfl, rfl⟩ (counted_leaveWriters (hwriters rfl) rfl rfl rfl)
        ⟨rfl, rfl, rfl, rfl⟩ id

/-- **A step at the gate.**  Every step of a thread that is not astray, at which no
counter wraps. -/
theorem monitor_gate {s s' : MonitorState} {l l' : MonitorThread} {a : MonitorChoice}
    (h : monitorProgram s l a = some (s', l')) (hstray : l.role.astray = false)
    (hops : l.role.inOps = true → 0 < s.activeOps)
    (hwriters : l.role.inWriters = true → 0 < s.activeWriters)
    (hwrap : unwrapped s l a = true) :
    Counted s l.role s' l'.role ∧ GateEffect s l.role s' l'.role := by
  have hsame : SameCounts s s ∧ SameGate s s := ⟨⟨rfl, rfl⟩, rfl, rfl⟩
  cases a with
  | call c =>
      cases l with
      | idle =>
          cases c with
          | reserve w =>
              cases h
              exact gate_quiet hsame ⟨rfl, rfl, rfl, rfl, rfl, rfl⟩ id
          | storeConditional k =>
              simp only [monitorProgram, beginMonitorCall] at h
              split at h <;> cases h
              have hlt : s.nextTicket + 1 < 2 ^ 64 := of_decide_eq_true hwrap
              exact ⟨⟨rfl, rfl⟩,
                .take hlt (Nat.mod_eq_of_lt hlt) rfl rfl rfl rfl rfl rfl⟩
          | store k =>
              cases h
              exact gate_quiet hsame ⟨rfl, rfl, rfl, rfl, rfl, rfl⟩ id
          | cancelReservation token =>
              obtain ⟨r, -, hr⟩ := Option.map_eq_some_iff.mp h
              cases hr
              exact gate_quiet hsame ⟨rfl, rfl, rfl, rfl, rfl, rfl⟩ id
      | cancel slot generation progress => cases progress <;> cases h
      | _ => cases h
  | next flag =>
      cases l with
      | idle => cases h
      | reserve w step =>
          cases h
          exact reserveStep_gate hstray hops
      | conditional k ticket step =>
          cases h
          exact conditionalStep_gate hstray hwriters hwrap
      | store k step =>
          cases h
          exact storeStep_gate hstray hops hwriters hwrap
      | cancel slot generation progress =>
          cases progress with
          | done =>
              cases h
              exact gate_quiet hsame ⟨rfl, rfl, rfl, rfl, rfl, rfl⟩ id
          | _ =>
              cases h
              exact gate_quiet (cancelStep_same slot generation flag s)
                ⟨rfl, rfl, rfl, rfl, rfl, rfl⟩ id

/-! ## The invariant -/

section Invariant

variable {T : Type} [Fintype T]

/-- The counts are the numbers of threads inside, the tickets are served one at a
time, and a drained thread is alone. -/
structure GateInvariant (c : Config MonitorState MonitorThread T) : Prop where
  ops : c.shared.activeOps = count (fun l => l.role.inOps) c.threads
  writers : c.shared.activeWriters = count (fun l => l.role.inWriters) c.threads
  ticket : ∀ t n, (c.threads t).role.ticket = some n →
    c.shared.nowServing ≤ n ∧ n < c.shared.nextTicket
  ticket_unique : ∀ t u n, (c.threads t).role.ticket = some n →
    (c.threads u).role.ticket = some n → t = u
  bounded : c.shared.nowServing ≤ c.shared.nextTicket ∧ c.shared.nextTicket < 2 ^ 64
  holder : ∀ t, (c.threads t).role.holds = true →
    (c.threads t).role.ticket = some c.shared.nowServing
  checked : ∀ t n, (c.threads t).role.checking = some n → n ≤ c.shared.nowServing
  exclusive : ∀ t u, (c.threads t).role.drained = true → (c.threads u).role.guarded = false

namespace GateInvariant

variable {c : Config MonitorState MonitorThread T} {t : T} {s' : MonitorState}
  {l' : MonitorThread}

/-- A thread that is counted makes its count positive. -/
theorem ops_pos (hI : GateInvariant c) (h : (c.threads t).role.inOps = true) :
    0 < c.shared.activeOps := by
  rw [hI.ops, Nat.pos_iff_ne_zero]
  intro hzero
  have := count_eq_zero_iff.mp hzero t
  rw [h] at this
  cases this

theorem writers_pos (hI : GateInvariant c) (h : (c.threads t).role.inWriters = true) :
    0 < c.shared.activeWriters := by
  rw [hI.writers, Nat.pos_iff_ne_zero]
  intro hzero
  have := count_eq_zero_iff.mp hzero t
  rw [h] at this
  cases this

/-- With no writer counted, no thread is one. -/
theorem no_writers (hI : GateInvariant c) (h : c.shared.activeWriters = 0) (u : T) :
    (c.threads u).role.inWriters = false :=
  count_eq_zero_iff.mp (hI.writers.symm.trans h) u

/-- Only one thread holds the gate. -/
theorem holder_unique (hI : GateInvariant c) {u : T} (ht : (c.threads t).role.holds = true)
    (hu : (c.threads u).role.holds = true) : t = u :=
  hI.ticket_unique t u _ (hI.holder t ht) (hI.holder u hu)

/-- **The gate step.**  Every step at which no counter wraps keeps the invariant. -/
theorem step [DecidableEq T] (hI : GateInvariant c)
    (hcount : Counted c.shared (c.threads t).role s' l'.role)
    (heff : GateEffect c.shared (c.threads t).role s' l'.role) :
    GateInvariant ⟨s', Function.update c.threads t l'⟩ := by
  have hops : s'.activeOps = count (fun l => l.role.inOps) (Function.update c.threads t l') := by
    have := count_update (fun l => l.role.inOps) c.threads t l'
    have := hcount.1
    have := hI.ops
    omega
  have hwriters : s'.activeWriters =
      count (fun l => l.role.inWriters) (Function.update c.threads t l') := by
    have := count_update (fun l => l.role.inWriters) c.threads t l'
    have := hcount.2
    have := hI.writers
    omega
  -- What the thread that moved has not, another had before.
  have hothers : ∀ {Q : MonitorRole → Prop} {u : T}, ¬ Q l'.role →
      Q (Function.update c.threads t l' u).role → u ≠ t ∧ Q (c.threads u).role := by
    intro Q u hno h
    rcases of_update (Q := fun (l : MonitorThread) => Q l.role) h with ⟨-, hl⟩ | hother
    · exact absurd hl hno
    · exact hother
  have hbounded := hI.bounded
  cases heff with
  | keep hgate hticket hholds hdrained hchecking hguarded =>
      obtain ⟨hnext, hserving⟩ := hgate
      have hsame : ∀ u, (Function.update c.threads t l' u).role.ticket =
          (c.threads u).role.ticket :=
        forall_update (Q := fun u (l : MonitorThread) => l.role.ticket = (c.threads u).role.ticket)
          hticket fun _ _ => rfl
      refine ⟨hops, hwriters, ?_, ?_, ?_, ?_, ?_, ?_⟩
      · intro u n h
        show s'.nowServing ≤ n ∧ n < s'.nextTicket
        rw [hnext, hserving]
        exact hI.ticket u n ((hsame u).symm.trans h)
      · intro u v n hu hv
        exact hI.ticket_unique u v n ((hsame u).symm.trans hu) ((hsame v).symm.trans hv)
      · show s'.nowServing ≤ s'.nextTicket ∧ s'.nextTicket < 2 ^ 64
        rw [hnext, hserving]
        exact hbounded
      · intro u h
        refine (hsame u).trans ?_
        show _ = some s'.nowServing
        rw [hserving]
        rcases of_update (Q := fun (l : MonitorThread) => l.role.holds = true) h
          with ⟨rfl, hl⟩ | ⟨-, hu⟩
        · rcases hholds hl with hold | hserved
          · exact hI.holder u hold
          · exact hserved
        · exact hI.holder u hu
      · intro u n h
        show n ≤ s'.nowServing
        rw [hserving]
        rcases of_update (Q := fun (l : MonitorThread) => l.role.checking = some n) h
          with ⟨rfl, hl⟩ | ⟨-, hu⟩
        · rcases hchecking n hl with hle | hold
          · exact hle
          · exact hI.checked u n hold
        · exact hI.checked u n hu
      · -- A thread drains while no operation is counted; the check of the gate fails
        -- while another holds it.
        intro u v hu
        rw [Bool.eq_false_iff]
        intro hv
        have hold : ∀ x, (c.threads x).role.drained = true →
            (Function.update c.threads t l' v).role.guarded = true → False := by
          intro x hx hv
          rcases of_update (Q := fun (l : MonitorThread) => l.role.guarded = true) hv with ⟨rfl, hl⟩ | ⟨-, hv⟩
          · rcases hguarded hl with hg | hcheck
            · rw [hI.exclusive x v hx] at hg
              cases hg
            · have hserved := hI.holder x ((coherent_role _).holds_of_drained hx)
              have := hI.ticket x _ hserved
              have := hI.checked v _ hcheck
              omega
          · rw [hI.exclusive x v hx] at hv
            cases hv
        rcases of_update (Q := fun (l : MonitorThread) => l.role.drained = true) hu with ⟨rfl, hl⟩ | ⟨-, hu⟩
        · rcases hdrained hl with hx | ⟨hx, hzero⟩
          · exact hold u hx hv
          · have hnone := count_eq_zero_iff.mp (hI.ops.symm.trans hzero)
            rcases of_update (Q := fun (l : MonitorThread) => l.role.guarded = true) hv with ⟨rfl, hl⟩ | ⟨-, hv⟩
            · rcases hguarded hl with hg | hcheck
              · have := (coherent_role _).guarded_inOps hg
                rw [hnone] at this
                cases this
              · have := hI.ticket v _ (hI.holder v hx)
                have := hI.checked v _ hcheck
                omega
            · have := (coherent_role _).guarded_inOps hv
              rw [hnone] at this
              cases this
        · exact hold u hu hv
  | take hlt hnext hserving hticket hholds hdrained hchecking hguarded =>
      have hnew : ∀ u n, (Function.update c.threads t l' u).role.ticket = some n →
          u = t ∧ n = c.shared.nextTicket ∨ (c.threads u).role.ticket = some n := by
        intro u n h
        rcases of_update (Q := fun (l : MonitorThread) => l.role.ticket = some n) h
          with ⟨rfl, hl⟩ | ⟨-, hu⟩
        · rw [hticket] at hl
          cases hl
          exact .inl ⟨rfl, rfl⟩
        · exact .inr hu
      refine ⟨hops, hwriters, ?_, ?_, ?_, ?_, ?_, ?_⟩
      · intro u n h
        show s'.nowServing ≤ n ∧ n < s'.nextTicket
        rcases hnew u n h with ⟨-, rfl⟩ | hu
        · omega
        · have := hI.ticket u n hu
          omega
      · intro u v n hu hv
        rcases hnew u n hu with ⟨rfl, rfl⟩ | hu
        · rcases hnew v _ hv with ⟨rfl, -⟩ | hv
          · rfl
          · exact absurd (hI.ticket v _ hv).2 (lt_irrefl _)
        · rcases hnew v n hv with ⟨-, rfl⟩ | hv
          · exact absurd (hI.ticket u _ hu).2 (lt_irrefl _)
          · exact hI.ticket_unique u v n hu hv
      · show s'.nowServing ≤ s'.nextTicket ∧ s'.nextTicket < 2 ^ 64
        omega
      · intro u h
        show _ = some s'.nowServing
        rw [hserving]
        obtain ⟨hne, hu⟩ := hothers (Q := fun r => r.holds = true) (by simp [hholds]) h
        exact (congrArg (fun l => l.role.ticket) (Function.update_of_ne hne l' c.threads)).trans
          (hI.holder u hu)
      · intro u n h
        show n ≤ s'.nowServing
        rw [hserving]
        exact hI.checked u n
          (hothers (Q := fun r => r.checking = some n) (by simp [hchecking]) h).2
      · intro u v hu
        have hu := (hothers (Q := fun r => r.drained = true) (by simp [hdrained]) hu).2
        rw [Bool.eq_false_iff]
        intro hv
        have hv := (hothers (Q := fun r => r.guarded = true) (by simp [hguarded]) hv).2
        rw [hI.exclusive u v hu] at hv
        cases hv
  | serve hnext hserving hbefore hticket hholds hdrained hchecking hguarded =>
      have hserved := hI.holder t hbefore
      have hlt := (hI.ticket t _ hserved).2
      rw [Nat.mod_eq_of_lt (by omega)] at hserving
      have hold : ∀ u n, (Function.update c.threads t l' u).role.ticket = some n →
          u ≠ t ∧ (c.threads u).role.ticket = some n := by
        intro u n h
        rcases of_update (Q := fun (l : MonitorThread) => l.role.ticket = some n) h
          with ⟨-, hl⟩ | hother
        · rw [hticket] at hl
          cases hl
        · exact hother
      refine ⟨hops, hwriters, ?_, ?_, ?_, ?_, ?_, ?_⟩
      · intro u n h
        show s'.nowServing ≤ n ∧ n < s'.nextTicket
        obtain ⟨hne, hu⟩ := hold u n h
        have := hI.ticket u n hu
        have hn : n ≠ c.shared.nowServing := by
          rintro rfl
          exact hne (hI.ticket_unique u t _ hu hserved)
        omega
      · intro u v n hu hv
        exact hI.ticket_unique u v n (hold u n hu).2 (hold v n hv).2
      · show s'.nowServing ≤ s'.nextTicket ∧ s'.nextTicket < 2 ^ 64
        omega
      · intro u h
        obtain ⟨hne, hu⟩ := hothers (Q := fun r => r.holds = true) (by simp [hholds]) h
        exact absurd (hI.holder_unique hu hbefore) hne
      · intro u n h
        show n ≤ s'.nowServing
        have := hI.checked u n
          (hothers (Q := fun r => r.checking = some n) (by simp [hchecking]) h).2
        omega
      · intro u v hu
        have hu := (hothers (Q := fun r => r.drained = true) (by simp [hdrained]) hu).2
        rw [Bool.eq_false_iff]
        intro hv
        have hv := (hothers (Q := fun r => r.guarded = true) (by simp [hguarded]) hv).2
        rw [hI.exclusive u v hu] at hv
        cases hv

end GateInvariant

end Invariant

end Memory
end XenonRecomp
