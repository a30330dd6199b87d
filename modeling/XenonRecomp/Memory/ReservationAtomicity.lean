/-
# Load-reserve and store-conditional are atomic

A conditional store that succeeds finds its granule as the reserve that gave out
its token loaded it, and no token succeeds twice, in every interleaving of any
number of threads in which no counter wraps and no store is counted out inside
the window that the reserve leaves open.

The window is between the reserve's last two loads.  `reserve32` and `reserve64`
read the write epoch a second time and then the writer count, and keep the token
if the epoch has not moved and nobody is counted.  A store that passed the slot
before it was claimed can store after the reserve's load, draw its epoch after
the second read of the epoch and be counted out before the read of the count: the
reserve then sees neither.
-/

import XenonRecomp.Memory.ReservationInvariant

namespace XenonRecomp
namespace Memory

open Library Library.Transition Library.Interleaving

/-- The thread is a reserve that has read the same epoch twice and will read the
writers next, and the store has drawn a later epoch and written to its granule
since it loaded the word. -/
def overtaken (log : List Access) (k : StoreCall) (epoch : ℕ) : MonitorThread → Bool
  | .reserve w (.loadWriters before (some (slot, generation)) after) =>
      decide (before = after) && decide (after < epoch) && k.covers w.granule &&
        !untouchedSince slot generation w.address log
  | _ => false

section Runs

variable {T : Type} [Fintype T] [DecidableEq T]

/-- The condition on a step: no counter wraps, and a store is not counted out while
it has overtaken a reserve. -/
def inTime (c : Config MonitorState MonitorThread T) (e : T × MonitorChoice) : Bool :=
  unwrapped c.shared (c.threads e.1) e.2 &&
    match c.threads e.1 with
    | .store k (.countOutWriters epoch) =>
        decide (∀ u, overtaken c.shared.log k epoch (c.threads u) = false)
    | _ => true

/-- All threads idle in a new address space. -/
def launchMonitor (T : Type) (memory : ℕ → UInt8) : Config MonitorState MonitorThread T :=
  ⟨.init memory, fun _ => .idle⟩

omit [DecidableEq T] in
theorem launch_invariant (memory : ℕ → UInt8) : MonitorInvariant (launchMonitor T memory) where
  ops := (count_eq_zero_iff.mpr fun _ => rfl).symm
  writers := (count_eq_zero_iff.mpr fun _ => rfl).symm
  ticket := nofun
  ticket_unique := nofun
  bounded := ⟨le_rfl, Nat.two_pow_pos 64⟩
  holder := nofun
  checked := nofun
  exclusive := nofun
  steady := fun _ => rfl
  marked := nofun
  before := nofun
  generation := Nat.one_pos
  slot_lt := nofun
  commit_lt := nofun
  fresh := nofun
  fresh_unique := nofun
  owner := nofun
  active := nofun
  committing := nofun
  loaded := nofun
  sampled := nofun
  atomic := atomic_nil

/-- The store that is about to be counted out. -/
theorem store_of_leaving {l : MonitorThread} (h : l.role.leaving = true) :
    ∃ k epoch, l = .store k (.countOutWriters epoch) := by
  cases l with
  | store k step =>
      cases step with
      | countOutWriters epoch => exact ⟨k, epoch, rfl⟩
      | recheckGate joined => cases joined <;> cases h
      | invalidate joined progress => cases joined <;> cases h
      | _ => cases h
  | reserve w step =>
      cases step with
      | cancel slot generation progress => cases progress <;> cases h
      | _ => cases h
  | conditional k ticket step => cases step <;> cases h
  | _ => cases h

/-- The reserve that has read the same epoch twice. -/
theorem reserve_of_sampled {l : MonitorThread} {e i n a : ℕ}
    (h : l.role.sampled = some (e, i, n, a)) :
    ∃ w, l = .reserve w (.loadWriters e (some (i, n)) e) ∧ a = w.address := by
  cases l with
  | reserve w step =>
      cases step with
      | loadWriters before token after =>
          cases token with
          | none => simp [MonitorThread.role, ReserveStep.role] at h
          | some token =>
              by_cases heq : before = after
              · subst heq
                simp only [MonitorThread.role, ReserveStep.role, if_true, Option.map_some] at h
                cases h
                exact ⟨w, rfl, rfl⟩
              · simp [MonitorThread.role, ReserveStep.role, heq] at h
      | cancel slot generation progress => cases progress <;> cases h
      | _ => cases h
  | store k step =>
      cases step with
      | recheckGate joined => cases joined <;> cases h
      | invalidate joined progress => cases joined <;> cases h
      | _ => cases h
  | conditional k ticket step => cases step <;> cases h
  | _ => cases h

omit [DecidableEq T] in
/-- A store that leaves in time has touched no granule a reserve still vouches
for. -/
theorem untouched_of_inTime {c : Config MonitorState MonitorThread T} {t : T} {a : MonitorChoice}
    (hin : inTime c (t, a) = true) (hleaving : (c.threads t).role.leaving = true) {u : T}
    {e i n address : ℕ} (hu : (c.threads u).role.sampled = some (e, i, n, address))
    (hp : (c.threads t).role.pending (granuleOf address) e = true) :
    untouchedSince i n address c.shared.log = true := by
  obtain ⟨k, epoch, ht⟩ := store_of_leaving hleaving
  obtain ⟨w, hw, rfl⟩ := reserve_of_sampled hu
  rw [ht] at hp
  obtain ⟨hcovers, hlater⟩ := Bool.and_eq_true_iff.mp hp
  have hin := (Bool.and_eq_true_iff.mp hin).2
  simp only [ht, decide_eq_true_eq] at hin
  have hclear := hin u
  rw [hw] at hclear
  simpa [overtaken, GuestWord.granule, hcovers, of_decide_eq_true hlater] using hclear

/-- The invariant holds after every run all of whose steps are in time. -/
theorem run_monitorInvariant (memory : ℕ → UInt8) (es : List (T × MonitorChoice))
    (hin : Along (step monitorProgram) (fun c e => inTime c e = true) (launchMonitor T memory) es) :
    MonitorInvariant (run (step monitorProgram) (launchMonitor T memory) es) := by
  refine run_invariant (fun c t a s l hI hP hprog => ?_) _ es (launch_invariant memory) hin
  have hwrap := (Bool.and_eq_true_iff.mp hP).1
  obtain ⟨hcount, hgate⟩ :=
    monitor_gate hprog (hI.steady t) hI.ops_pos hI.writers_pos hwrap
  obtain ⟨heff, hstray⟩ := monitor_effect hprog (hI.steady t) hI.generation
    (fun i d hd => (hI.slot_lt i d hd).1)
    (fun i n a k hk => (hI.committing t i n a k hk).2.1.seen) hwrap
  exact hI.step (hI.toGateInvariant.step hcount hgate) heff hstray
    fun hleaving u e i n a hu hp => untouched_of_inTime hP hleaving hu hp

/-- An untouched granule: the log holds the load, and no store to the granule since
then. -/
theorem load_of_untouchedSince {slot generation address : ℕ} {log : List Access}
    (h : untouchedSince slot generation address log = true) :
    ∃ since earlier, log = since ++ .load slot generation address :: earlier ∧
      ∀ x ∈ since, x.writes (granuleOf address) = false := by
  induction log with
  | nil => cases h
  | cons x log ih =>
      simp only [untouchedSince, Bool.or_eq_true, beq_iff_eq, Bool.and_eq_true,
        Bool.not_eq_true'] at h
      rcases h with rfl | ⟨hx, hlog⟩
      · exact ⟨[], log, rfl, fun _ hx => absurd hx List.not_mem_nil⟩
      · obtain ⟨since, earlier, rfl, hsince⟩ := ih hlog
        refine ⟨x :: since, earlier, rfl, fun y hy => ?_⟩
        rcases List.mem_cons.mp hy with rfl | hy
        · exact hx
        · exact hsince y hy

/-- **Load-reserve and store-conditional are atomic.**  After every run of any
number of threads, from a new address space, in which no counter wraps and no
store is counted out while it has overtaken a reserve: before each successful
conditional store stands the load of the reserve whose slot and generation its
token names, with no store, ordinary or conditional, to any byte of the granule
in between, and no earlier conditional store has used that token. -/
theorem conditional_store_atomic (memory : ℕ → UInt8) (es : List (T × MonitorChoice))
    (hin : Along (step monitorProgram) (fun c e => inTime c e = true) (launchMonitor T memory) es)
    (newer older : List Access) (slot generation address width : ℕ)
    (hlog : (run (step monitorProgram) (launchMonitor T memory) es).shared.log =
      newer ++ .commit slot generation address width :: older) :
    (∃ since earlier, older = since ++ .load slot generation address :: earlier ∧
      ∀ x ∈ since, x.writes (granuleOf address) = false) ∧
    ∀ a w, Access.commit slot generation a w ∉ older := by
  obtain ⟨huntouched, hunused⟩ := (run_monitorInvariant memory es hin).atomic newer slot generation
    address width older hlog
  exact ⟨load_of_untouchedSince huntouched, hunused⟩

end Runs

/-! ## Two threads -/

local instance neZeroThreads : NeZero 2 := ⟨two_ne_zero⟩

/-- The first word of guest RAM. -/
def firstWord : GuestWord :=
  ⟨0, false, rfl, by decide⟩

/-- A byte stored to the first word. -/
def firstByteStore : StoreCall :=
  ⟨0, [[1]], by decide, by decide⟩

/-- The conditional store of a thread that has reserved the first word as the first
of all. -/
def firstConditional : ConditionalCall :=
  ⟨firstWord, makeToken 0 1, [7, 7, 7, 7], false⟩

/-- A thread's next steps. -/
def steps (t : Fin 2) (n : ℕ) : List (Fin 2 × MonitorChoice) :=
  List.replicate n (t, .next false)

/-- A reserve and its conditional store, with nobody else about. -/
def undisturbed : List (Fin 2 × MonitorChoice) :=
  (0, .call (.reserve firstWord)) :: steps 0 13 ++
    (0, .call (.storeConditional firstConditional)) :: steps 0 20

/-- A store that has found its granule unmarked, and stores, draws its epoch and is
counted out inside the reserve. -/
def overtaking : List (Fin 2 × MonitorChoice) :=
  (1, .call (.store firstByteStore)) :: steps 1 7 ++
    (0, .call (.reserve firstWord)) :: steps 0 10 ++ steps 1 2 ++ steps 0 1 ++ steps 1 2 ++
    steps 0 2 ++ (0, .call (.storeConditional firstConditional)) :: steps 0 20

/-- The undisturbed conditional store succeeds, and the theorem applies to it. -/
theorem conditional_store_atomic_undisturbed :
    (run (step monitorProgram) (launchMonitor (Fin 2) fun _ => 0) undisturbed).shared.log =
        [.commit 0 1 0 4, .load 0 1 0] ∧
      (∃ since earlier, [Access.load 0 1 0] = since ++ .load 0 1 0 :: earlier ∧
        ∀ x ∈ since, x.writes (granuleOf 0) = false) ∧
      ∀ a w, Access.commit 0 1 a w ∉ [Access.load 0 1 0] := by
  have hlog : (run (step monitorProgram) (launchMonitor (Fin 2) fun _ => 0) undisturbed).shared.log =
      [.commit 0 1 0 4, .load 0 1 0] := by decide
  exact ⟨hlog, conditional_store_atomic (fun _ => 0) undisturbed (by decide) []
    [.load 0 1 0] 0 1 0 4 hlog⟩

/-- The conditional store succeeds although a store took effect after the load of
its reserve. -/
theorem conditional_store_after_store :
    ¬ ∀ (es : List (Fin 2 × MonitorChoice)) (newer older : List Access)
        (slot generation address width : ℕ),
      (run (step monitorProgram) (launchMonitor (Fin 2) fun _ => 0) es).shared.log =
          newer ++ .commit slot generation address width :: older →
        ∃ since earlier, older = since ++ .load slot generation address :: earlier ∧
          ∀ x ∈ since, x.writes (granuleOf address) = false := by
  intro h
  have hlog : (run (step monitorProgram) (launchMonitor (Fin 2) fun _ => 0) overtaking).shared.log =
      [.commit 0 1 0 4, .store 0 1, .load 0 1 0] := by set_option maxRecDepth 40000 in decide
  obtain ⟨since, earlier, heq, hsince⟩ := h overtaking [] _ 0 1 0 4 hlog
  cases since with
  | nil => simp at heq
  | cons x since =>
      obtain ⟨rfl, -⟩ := List.cons.inj heq
      have := hsince (.store 0 1) List.mem_cons_self
      revert this
      decide

end Memory
end XenonRecomp
