/-
# The invariant of the reservation monitor

A reservation is settled once its reserve has vouched for it: its granule is
marked and untouched since the load, no conditional store has used it, and no
store that has passed its slot is still to come.  The invariant says that every
active slot is settled or still in the hands of its reserve, that a conditional
store past its slot commits a settled reservation, and what a reserve may rely on
between its load and its look at the writers: the granule is untouched, or a
store that touched it has not drawn its epoch yet, or has drawn it since.

Every step keeps the invariant but one: a store that is counted out after a
reserve has read the epoch for the second time and before it reads the writers.
-/

import XenonRecomp.Memory.ReservationEffects

namespace XenonRecomp
namespace Memory

open Library Library.Transition Library.Interleaving

/-- No conditional store has used the reservation. -/
def Uncommitted (slot generation : ℕ) (log : List Access) : Prop :=
  ∀ address width, Access.commit slot generation address width ∉ log

/-- Every conditional store in the log found its granule as its reserve had loaded
it, and is the first to use its reservation. -/
def Atomic (log : List Access) : Prop :=
  ∀ newer slot generation address width older,
    log = newer ++ .commit slot generation address width :: older →
      untouchedSince slot generation address older = true ∧ Uncommitted slot generation older

theorem atomic_nil : Atomic [] := by
  intro newer slot generation address width older h
  simp at h

/-- The log grows by an access. -/
theorem atomic_cons {log : List Access} {x : Access} (hlog : Atomic log)
    (hx : ∀ slot generation address width, x = .commit slot generation address width →
      untouchedSince slot generation address log = true ∧ Uncommitted slot generation log) :
    Atomic (x :: log) := by
  intro newer slot generation address width older h
  cases newer with
  | nil =>
      obtain ⟨rfl, rfl⟩ := List.cons.inj h
      exact hx slot generation address width rfl
  | cons y newer => exact hlog newer slot generation address width older (List.cons.inj h).2

/-- A granule stays untouched under an access that does not write to it. -/
theorem untouchedSince_cons {slot generation address : ℕ} {log : List Access} {x : Access}
    (hx : x.writes (granuleOf address) = false)
    (h : untouchedSince slot generation address log = true) :
    untouchedSince slot generation address (x :: log) = true := by
  simp [untouchedSince, hx, h]

/-- An aligned word lies in one granule. -/
theorem granule_of_touches {w : GuestWord} {g : ℕ} (h : touches w.address w.width g = true) :
    g = granuleOf w.address := by
  have haligned := w.aligned
  have htouch := of_decide_eq_true h
  simp only [granuleOf, reservationGranuleSize, GuestWord.width] at *
  split at haligned <;> simp_all <;> omega

namespace Drift

variable {s s' : MonitorState} {r r' : MonitorRole}

/-- A calm step leaves every granule untouched. -/
theorem untouched (h : Drift s r s' r') {i n a : ℕ} (hold : untouchedSince i n a s.log = true) :
    untouchedSince i n a s'.log = true := by
  rcases h.log with hlog | ⟨j, m, b, hlog⟩
  · rw [hlog]
    exact hold
  · rw [hlog]
    exact untouchedSince_cons rfl hold

/-- A calm step commits nothing. -/
theorem uncommitted (h : Drift s r s' r') {i n : ℕ} (hold : Uncommitted i n s.log) :
    Uncommitted i n s'.log := by
  rcases h.log with hlog | ⟨j, m, b, hlog⟩
  · rw [hlog]
    exact hold
  · rw [hlog]
    exact fun a w hmem => hold a w (by simpa using hmem)

theorem mem_commit (h : Drift s r s' r') {i n a w : ℕ} (hmem : .commit i n a w ∈ s'.log) :
    Access.commit i n a w ∈ s.log := by
  rcases h.log with hlog | ⟨j, m, b, hlog⟩
  · exact hlog ▸ hmem
  · rw [hlog] at hmem
    simpa using hmem

theorem atomic (h : Drift s r s' r') (hold : Atomic s.log) : Atomic s'.log := by
  rcases h.log with hlog | ⟨j, m, b, hlog⟩
  · exact hlog ▸ hold
  · rw [hlog]
    exact atomic_cons hold nofun

end Drift

section Invariant

variable {T : Type}

/-- The reservation of the slot stands: a conditional store that finds it may
commit. -/
structure Settled (c : Config MonitorState MonitorThread T) (slot generation address : ℕ) :
    Prop where
  seen : c.shared.seen (granuleOf address) = true
  untouched : untouchedSince slot generation address c.shared.log = true
  uncommitted : Uncommitted slot generation c.shared.log
  quiet : ∀ u, (c.threads u).role.exposed slot (granuleOf address) = false

variable [Fintype T]

/-- The invariant of the monitor. -/
structure MonitorInvariant (c : Config MonitorState MonitorThread T) : Prop
    extends GateInvariant c where
  steady : ∀ t, (c.threads t).role.astray = false
  marked : ∀ t g, (c.threads t).role.marked = some g → c.shared.seen g = true
  before : ∀ t b, (c.threads t).role.before = some b → b ≤ c.shared.writeEpoch
  generation : 0 < c.shared.nextGeneration
  slot_lt : ∀ i d, c.shared.slots i = some d →
    i < reservationSlotCount ∧ d.generation < c.shared.nextGeneration
  commit_lt : ∀ i n a w, Access.commit i n a w ∈ c.shared.log → n < c.shared.nextGeneration
  fresh : ∀ t n, (c.threads t).role.fresh = some n → n < c.shared.nextGeneration ∧
    (∀ i d, c.shared.slots i = some d → d.generation ≠ n) ∧ ∀ i, Uncommitted i n c.shared.log
  fresh_unique : ∀ t u n, (c.threads t).role.fresh = some n →
    (c.threads u).role.fresh = some n → t = u
  owner : ∀ t i n a, (c.threads t).role.owner = some (i, n, a) → Uncommitted i n c.shared.log
  active : ∀ i d, c.shared.slots i = some d → d.status = .active →
    (∃ t, (c.threads t).role.owner = some (i, d.generation, d.address)) ∨
      Settled c i d.generation d.address
  committing : ∀ t i n a k, (c.threads t).role.committing = some (i, n, a, k) →
    n < c.shared.nextGeneration ∧ Settled c i n a ∧ SlotLocked c.shared i ∧
      ∀ j < k, SlotFree c.shared j (granuleOf a)
  loaded : ∀ t b i n a, (c.threads t).role.loaded = some (b, i, n, a) →
    untouchedSince i n a c.shared.log = true ∨ b < c.shared.writeEpoch ∨
      ∃ u, (c.threads u).role.writing (granuleOf a) = true
  sampled : ∀ t e i n a, (c.threads t).role.sampled = some (e, i, n, a) →
    e ≤ c.shared.writeEpoch ∧ (untouchedSince i n a c.shared.log = true ∨
      ∃ u, (c.threads u).role.pending (granuleOf a) e = true)
  atomic : Atomic c.shared.log

namespace MonitorInvariant

variable [DecidableEq T] {c : Config MonitorState MonitorThread T} {t : T} {s' : MonitorState}
  {l' : MonitorThread}

omit [Fintype T] in
/-- A settled reservation stays settled under a calm step that does not pass its
slot. -/
theorem settled_calm {i n a : ℕ} (hS : Settled c i n a)
    (h : Calm c.shared (c.threads t).role s' l'.role)
    (hslot : (c.threads t).role.guarded = true → ¬ SlotFree s' i (granuleOf a)) :
    Settled ⟨s', Function.update c.threads t l'⟩ i n a where
  seen := h.seen _ hS.seen
  untouched := h.untouched hS.untouched
  uncommitted := h.uncommitted hS.uncommitted
  quiet := by
    refine forall_update (Q := fun _ (l : MonitorThread) => l.role.exposed i (granuleOf a) = false)
      ?_ fun u _ => hS.quiet u
    rw [Bool.eq_false_iff]
    intro hexposed
    rcases h.exposed i _ hexposed with hold | hseen | ⟨hguarded, hfree⟩
    · rw [hS.quiet t] at hold
      cases hold
    · rw [hS.seen] at hseen
      cases hseen
    · exact hslot hguarded hfree

/-- A calm step keeps the invariant, if the reservation its thread gives up is
gone or settled, and if it hides no store from a reserve. -/
theorem calm (hI : MonitorInvariant c) (hgate : GateInvariant ⟨s', Function.update c.threads t l'⟩)
    (hstray : l'.role.astray = false) (h : Calm c.shared (c.threads t).role s' l'.role)
    (howner : ∀ i d, s'.slots i = some d → d.status = .active →
      (c.threads t).role.owner = some (i, d.generation, d.address) →
      l'.role.owner = some (i, d.generation, d.address) ∨
        Settled ⟨s', Function.update c.threads t l'⟩ i d.generation d.address)
    (hpending : ∀ u e i n a, (c.threads u).role.sampled = some (e, i, n, a) →
      (c.threads t).role.pending (granuleOf a) e = true →
      l'.role.pending (granuleOf a) e = true ∨ untouchedSince i n a c.shared.log = true) :
    MonitorInvariant ⟨s', Function.update c.threads t l'⟩ where
  toGateInvariant := hgate
  steady := forall_update (Q := fun _ (l : MonitorThread) => l.role.astray = false) hstray
    fun u _ => hI.steady u
  marked := fun u g hu => by
    rcases of_update (Q := fun (l : MonitorThread) => l.role.marked = some g) hu
      with ⟨-, hl⟩ | ⟨-, hu⟩
    · rcases h.marked g hl with hseen | hold
      · exact hseen
      · exact h.seen g (hI.marked t g hold)
    · exact h.seen g (hI.marked u g hu)
  before := fun u b hu => by
    refine le_trans ?_ h.epoch
    rcases of_update (Q := fun (l : MonitorThread) => l.role.before = some b) hu
      with ⟨-, hl⟩ | ⟨-, hu⟩
    · rcases h.before b hl with hle | hold
      · exact hle
      · exact hI.before t b hold
    · exact hI.before u b hu
  generation := lt_of_lt_of_le hI.generation h.generation
  slot_lt := fun i d hd => by
    rcases h.slots i d hd with ⟨d₀, hd₀, hgen, -⟩ | ⟨hi, hfresh, -⟩
    · obtain ⟨hi, hn⟩ := hI.slot_lt i d₀ hd₀
      exact ⟨hi, lt_of_lt_of_le (hgen ▸ hn) h.generation⟩
    · exact ⟨hi, lt_of_lt_of_le (hI.fresh t _ hfresh).1 h.generation⟩
  commit_lt := fun i n a w hmem =>
    lt_of_lt_of_le (hI.commit_lt i n a w (h.mem_commit hmem)) h.generation
  fresh := fun u n hu => by
    rcases of_update (Q := fun (l : MonitorThread) => l.role.fresh = some n) hu
      with ⟨-, hl⟩ | ⟨hne, hu⟩
    · refine ⟨?_, fun i d hd => ?_, fun i => h.uncommitted ?_⟩
      · rcases h.fresh n hl with hold | ⟨-, hlt⟩
        · exact lt_of_lt_of_le (hI.fresh t n hold).1 h.generation
        · exact hlt
      · rcases h.slots i d hd with ⟨d₀, hd₀, hgen, -⟩ | ⟨-, -, hnone, -⟩
        · rw [← hgen]
          rcases h.fresh n hl with hold | ⟨hle, -⟩
          · exact (hI.fresh t n hold).2.1 i d₀ hd₀
          · exact ((hI.slot_lt i d₀ hd₀).2.trans_le hle).ne
        · rw [hnone] at hl
          cases hl
      · rcases h.fresh n hl with hold | ⟨hle, -⟩
        · exact (hI.fresh t n hold).2.2 i
        · exact fun a w hmem => absurd (hI.commit_lt i n a w hmem) (not_lt.mpr hle)
    · obtain ⟨hlt, hslots, hlog⟩ := hI.fresh u n hu
      refine ⟨hlt.trans_le h.generation, fun i d hd => ?_, fun i => h.uncommitted (hlog i)⟩
      rcases h.slots i d hd with ⟨d₀, hd₀, hgen, -⟩ | ⟨-, hfresh, -⟩
      · rw [← hgen]
        exact hslots i d₀ hd₀
      · rintro rfl
        exact hne (hI.fresh_unique u t _ hu hfresh)
  fresh_unique := fun u v n hu hv => by
    -- A generation drawn by this step is newer than that of any other thread.
    have hold : ∀ x, (Function.update c.threads t l' x).role.fresh = some n → x = t ∨
        x ≠ t ∧ (c.threads x).role.fresh = some n := by
      intro x hx
      rcases of_update (Q := fun (l : MonitorThread) => l.role.fresh = some n) hx
        with ⟨rfl, -⟩ | hother
      · exact .inl rfl
      · exact .inr hother
    have hown : ∀ x, x ≠ t → (c.threads x).role.fresh = some n →
        (Function.update c.threads t l' t).role.fresh ≠ some n := by
      intro x hxt hx ht
      rw [Function.update_self] at ht
      rcases h.fresh n ht with hmine | ⟨hle, -⟩
      · exact hxt (hI.fresh_unique x t n hx hmine)
      · exact absurd (hI.fresh x n hx).1 (not_lt.mpr hle)
    rcases hold u hu with rfl | ⟨hut, hu'⟩
    · rcases hold v hv with rfl | ⟨hvt, hv'⟩
      · rfl
      · exact absurd hu (hown v hvt hv')
    · rcases hold v hv with rfl | ⟨-, hv'⟩
      · exact absurd hv (hown u hut hu')
      · exact hI.fresh_unique u v n hu' hv'
  owner := fun u i n a hu => by
    refine h.uncommitted ?_
    rcases of_update (Q := fun (l : MonitorThread) => l.role.owner = some (i, n, a)) hu
      with ⟨-, hl⟩ | ⟨-, hu⟩
    · rcases h.owner i n a hl with hold | hfresh
      · exact hI.owner t i n a hold
      · exact (hI.fresh t n hfresh).2.2 i
    · exact hI.owner u i n a hu
  active := fun i d hd hactive => by
    rcases h.slots i d hd with ⟨d₀, hd₀, -, heq⟩ | ⟨-, -, -, hmine⟩
    · obtain rfl := heq hactive
      rcases hI.active i d₀ hd₀ hactive with ⟨u, hu⟩ | hS
      · by_cases hut : u = t
        · subst hut
          rcases howner i d₀ hd hactive hu with hl | hS
          · exact .inl ⟨u, by simpa using hl⟩
          · exact .inr hS
        · exact .inl ⟨u, by simpa [Function.update_of_ne hut] using hu⟩
      · exact .inr (settled_calm hS h fun _ hfree => hfree d₀ hd hactive rfl)
    · exact .inl ⟨t, by simpa using hmine⟩
  committing := fun u i n a k hu => by
    -- While a thread is drained no reserve is under way, so a slot gets no new
    -- reservation and no store passes one.
    have halone : ∀ v, (c.threads v).role.drained = true →
        (c.threads t).role.guarded = true → False := by
      intro v hdrained hguarded
      rw [hI.exclusive v t hdrained] at hguarded
      cases hguarded
    have hkeep : ∀ v j, (c.threads v).role.drained = true → SlotFree c.shared j (granuleOf a) →
        SlotFree s' j (granuleOf a) := by
      intro v j hdrained hfree d hd hactive
      rcases h.slots j d hd with ⟨d₀, hd₀, -, heq⟩ | ⟨-, hfresh, -⟩
      · obtain rfl := heq hactive
        exact hfree d₀ hd₀ hactive
      · exact (halone v hdrained ((coherent_role _).guarded_of_fresh _ hfresh)).elim
    have hlocked : ∀ v, (c.threads v).role.drained = true → SlotLocked c.shared i →
        SlotLocked s' i := by
      intro v hdrained hlocked d hd hactive
      rcases h.slots i d hd with ⟨d₀, hd₀, -, heq⟩ | ⟨-, hfresh, -⟩
      · obtain rfl := heq hactive
        exact hlocked d₀ hd₀ hactive
      · exact halone v hdrained ((coherent_role _).guarded_of_fresh _ hfresh)
    have hsettled : ∀ v, (c.threads v).role.drained = true → Settled c i n a →
        Settled ⟨s', Function.update c.threads t l'⟩ i n a :=
      fun v hdrained hS => settled_calm hS h fun hguarded => (halone v hdrained hguarded).elim
    rcases of_update (Q := fun (l : MonitorThread) => l.role.committing = some (i, n, a, k)) hu
      with ⟨-, hl⟩ | ⟨-, hu⟩
    · rcases h.committing i n a k hl
        with ⟨k₀, hk₀, hnew⟩ | ⟨rfl, hdrained, hlock, d, hd, hactive, rfl, rfl⟩
      · have hdrained := (coherent_role _).drained_of_committing _ hk₀
        obtain ⟨hlt, hS, hlock, hfree⟩ := hI.committing t i n a k₀ hk₀
        refine ⟨hlt.trans_le h.generation, hsettled t hdrained hS, hlocked t hdrained hlock,
          fun j hj => ?_⟩
        by_cases hjk : j < k₀
        · exact hkeep t j hdrained (hfree j hjk)
        · by_cases hcount : j < reservationSlotCount
          · exact hnew j (not_lt.mp hjk) hj hcount
          · refine hkeep t j hdrained fun d hd => ?_
            exact absurd (hI.slot_lt j d hd).1 hcount
      · refine ⟨(hI.slot_lt i d hd).2.trans_le h.generation, ?_, hlock,
          fun j hj => absurd hj j.not_lt_zero⟩
        rcases hI.active i d hd hactive with ⟨v, hv⟩ | hS
        · have hguarded := (coherent_role _).guarded_of_owner _ hv
          rw [hI.exclusive t v hdrained] at hguarded
          cases hguarded
        · exact hsettled t hdrained hS
    · have hdrained := (coherent_role _).drained_of_committing _ hu
      obtain ⟨hlt, hS, hlock, hfree⟩ := hI.committing u i n a k hu
      exact ⟨hlt.trans_le h.generation, hsettled u hdrained hS, hlocked u hdrained hlock,
        fun j hj => hkeep u j hdrained (hfree j hj)⟩
  loaded := fun u b i n a hu => by
    -- What held of a thread that had loaded its word before the step.
    have hstep : ∀ v, (c.threads v).role.loaded = some (b, i, n, a) →
        untouchedSince i n a s'.log = true ∨ b < s'.writeEpoch ∨
          ∃ x, (Function.update c.threads t l' x).role.writing (granuleOf a) = true := by
      intro v hv
      have hb := hI.before v b ((coherent_role _).before_of_loaded _ _ _ _ hv)
      rcases hI.loaded v b i n a hv with hclean | hless | ⟨x, hx⟩
      · exact .inl (h.untouched hclean)
      · exact .inr (.inl (hless.trans_le h.epoch))
      · by_cases hxt : x = t
        · subst hxt
          rcases h.writing _ hx with hw | hless
          · exact .inr (.inr ⟨x, by simpa using hw⟩)
          · exact .inr (.inl (hb.trans_lt hless))
        · exact .inr (.inr ⟨x, by simpa [Function.update_of_ne hxt] using hx⟩)
    rcases of_update (Q := fun (l : MonitorThread) => l.role.loaded = some (b, i, n, a)) hu
      with ⟨-, hl⟩ | ⟨-, hu⟩
    · rcases h.loaded b i n a hl with hold | hclean
      · exact hstep t hold
      · exact .inl hclean
    · exact hstep u hu
  sampled := fun u e i n a hu => by
    have hmoved : ∀ x, x ≠ t → (c.threads x).role.pending (granuleOf a) e = true →
        ∃ y, (Function.update c.threads t l' y).role.pending (granuleOf a) e = true :=
      fun x hxt hx => ⟨x, by simpa [Function.update_of_ne hxt] using hx⟩
    have hstep : ∀ v, (c.threads v).role.sampled = some (e, i, n, a) →
        e ≤ s'.writeEpoch ∧ (untouchedSince i n a s'.log = true ∨
          ∃ x, (Function.update c.threads t l' x).role.pending (granuleOf a) e = true) := by
      intro v hv
      obtain ⟨hle, hstore⟩ := hI.sampled v e i n a hv
      refine ⟨hle.trans h.epoch, ?_⟩
      rcases hstore with hclean | ⟨x, hx⟩
      · exact .inl (h.untouched hclean)
      · by_cases hxt : x = t
        · subst hxt
          rcases hpending v e i n a hv hx with hp | hclean
          · exact .inr ⟨x, by simpa using hp⟩
          · exact .inl (h.untouched hclean)
        · exact .inr (hmoved x hxt hx)
    rcases of_update (Q := fun (l : MonitorThread) => l.role.sampled = some (e, i, n, a)) hu
      with ⟨-, hl⟩ | ⟨-, hu⟩
    · rcases h.sampled e i n a hl with hold | ⟨rfl, hloaded⟩
      · exact hstep t hold
      · refine ⟨h.epoch, ?_⟩
        rcases hI.loaded t _ i n a hloaded with hclean | hless | ⟨x, hx⟩
        · exact .inl (h.untouched hclean)
        · exact absurd hless (lt_irrefl _)
        · have hxt : x ≠ t := by
            rintro rfl
            rw [(coherent_role _).not_writing_of_loaded _ _ hloaded] at hx
            cases hx
          exact .inr (hmoved x hxt ((coherent_role _).pending_of_writing _ _ hx))
    · exact hstep u hu
  atomic := h.atomic hI.atomic

omit [DecidableEq T] in
/-- A reserve that finds no writer settles its reservation. -/
theorem settled_of_sampled (hI : MonitorInvariant c) {e i n a : ℕ}
    (hsampled : (c.threads t).role.sampled = some (e, i, n, a))
    (hquiet : c.shared.activeWriters = 0) : Settled c i n a := by
  have howner := (coherent_role _).owner_of_sampled _ _ _ _ hsampled
  refine ⟨hI.marked t _ ((coherent_role _).marked_of_owner _ _ _ howner), ?_,
    hI.owner t i n a howner, fun u => ?_⟩
  · rcases (hI.sampled t e i n a hsampled).2 with hclean | ⟨u, hu⟩
    · exact hclean
    · have := (coherent_role _).counted_of_pending _ _ hu
      rw [hI.no_writers hquiet u] at this
      cases this
  · rw [Bool.eq_false_iff]
    intro hexposed
    have := (coherent_role _).counted_of_exposed _ _ hexposed
    rw [hI.no_writers hquiet u] at this
    cases this

/-- Bytes of an ordinary store reach memory: whoever relies on a granule they
touch knows of the store. -/
theorem store (hI : MonitorInvariant c) {address : ℕ} {bytes : List UInt8}
    (hgate : GateInvariant ⟨c.shared.storeBytes address bytes (.store address bytes.length),
      Function.update c.threads t l'⟩)
    (hrole : l'.role = (c.threads t).role)
    (hexposed : ∀ g, touches address bytes.length g = true →
      (∀ i, (c.threads t).role.exposed i g = true) ∧ (c.threads t).role.writing g = true) :
    MonitorInvariant ⟨c.shared.storeBytes address bytes (.store address bytes.length),
      Function.update c.threads t l'⟩ := by
  have hsame : ∀ u, (Function.update c.threads t l' u).role = (c.threads u).role :=
    forall_update (Q := fun u (l : MonitorThread) => l.role = (c.threads u).role) hrole
      fun _ _ => rfl
  have hmem : ∀ {i n a w}, Access.commit i n a w ∈
      Access.store address bytes.length :: c.shared.log → .commit i n a w ∈ c.shared.log :=
    fun h => by simpa using h
  have huncommitted : ∀ {i n}, Uncommitted i n c.shared.log →
      Uncommitted i n (.store address bytes.length :: c.shared.log) :=
    fun h a w hin => h a w (hmem hin)
  have hsettled : ∀ {i n a}, Settled c i n a → Settled
      ⟨c.shared.storeBytes address bytes (.store address bytes.length),
        Function.update c.threads t l'⟩ i n a := by
    intro i n a hS
    refine ⟨hS.seen, untouchedSince_cons ?_ hS.untouched, huncommitted hS.uncommitted, fun u => ?_⟩
    · rw [Bool.eq_false_iff]
      intro htouch
      have := (hexposed _ htouch).1 i
      rw [hS.quiet t] at this
      cases this
    · exact (congrArg (fun r => r.exposed i (granuleOf a)) (hsame u)).trans (hS.quiet u)
  have hclean : ∀ {i n a}, untouchedSince i n a c.shared.log = true →
      untouchedSince i n a (.store address bytes.length :: c.shared.log) = true ∨
        (c.threads t).role.writing (granuleOf a) = true := by
    intro i n a hold
    cases htouch : touches address bytes.length (granuleOf a) with
    | false => exact .inl (untouchedSince_cons htouch hold)
    | true => exact .inr (hexposed _ htouch).2
  refine ⟨hgate, ?_, ?_, ?_, hI.generation, hI.slot_lt, ?_, ?_, ?_, ?_, ?_, ?_, ?_, ?_, ?_⟩
  · exact fun u => (congrArg (·.astray) (hsame u)).trans (hI.steady u)
  · exact fun u g hu => hI.marked u g ((congrArg (·.marked) (hsame u)).symm.trans hu)
  · exact fun u b hu => hI.before u b ((congrArg (·.before) (hsame u)).symm.trans hu)
  · exact fun i n a w hin => hI.commit_lt i n a w (hmem hin)
  · intro u n hu
    obtain ⟨hlt, hslots, hlog⟩ := hI.fresh u n ((congrArg (·.fresh) (hsame u)).symm.trans hu)
    exact ⟨hlt, hslots, fun i => huncommitted (hlog i)⟩
  · exact fun u v n hu hv => hI.fresh_unique u v n
      ((congrArg (·.fresh) (hsame u)).symm.trans hu) ((congrArg (·.fresh) (hsame v)).symm.trans hv)
  · exact fun u i n a hu =>
      huncommitted (hI.owner u i n a ((congrArg (·.owner) (hsame u)).symm.trans hu))
  · intro i d hd hactive
    rcases hI.active i d hd hactive with ⟨u, hu⟩ | hS
    · exact .inl ⟨u, (congrArg (·.owner) (hsame u)).trans hu⟩
    · exact .inr (hsettled hS)
  · intro u i n a k hu
    obtain ⟨hlt, hS, hrest⟩ :=
      hI.committing u i n a k ((congrArg (·.committing) (hsame u)).symm.trans hu)
    exact ⟨hlt, hsettled hS, hrest⟩
  · intro u b i n a hu
    have hwriting : ∀ x, (c.threads x).role.writing (granuleOf a) = true →
        ∃ y, (Function.update c.threads t l' y).role.writing (granuleOf a) = true :=
      fun x hx => ⟨x, (congrArg (fun r => r.writing (granuleOf a)) (hsame x)).trans hx⟩
    rcases hI.loaded u b i n a ((congrArg (·.loaded) (hsame u)).symm.trans hu)
      with hold | hless | ⟨x, hx⟩
    · rcases hclean hold with hnew | hw
      · exact .inl hnew
      · exact .inr (.inr (hwriting t hw))
    · exact .inr (.inl hless)
    · exact .inr (.inr (hwriting x hx))
  · intro u e i n a hu
    have hpending : ∀ x, (c.threads x).role.pending (granuleOf a) e = true →
        ∃ y, (Function.update c.threads t l' y).role.pending (granuleOf a) e = true :=
      fun x hx => ⟨x, (congrArg (fun r => r.pending (granuleOf a) e) (hsame x)).trans hx⟩
    obtain ⟨hle, hstore⟩ := hI.sampled u e i n a ((congrArg (·.sampled) (hsame u)).symm.trans hu)
    refine ⟨hle, ?_⟩
    rcases hstore with hold | ⟨x, hx⟩
    · rcases hclean hold with hnew | hw
      · exact .inl hnew
      · exact .inr (hpending t ((coherent_role _).pending_of_writing _ _ hw))
    · exact .inr (hpending x hx)
  · exact atomic_cons hI.atomic nofun

/-- The word of a conditional store reaches memory: it is alone, so nobody else
relies on its granule. -/
theorem commit (hI : MonitorInvariant c) {w : GuestWord} {i n : ℕ} {bytes : List UInt8}
    (hgate : GateInvariant ⟨c.shared.storeBytes w.address bytes (.commit i n w.address w.width),
      Function.update c.threads t l'⟩)
    (hrole : l'.role = { (c.threads t).role with committing := none })
    (hcommitting : (c.threads t).role.committing =
      some (i, n, w.address, reservationSlotCount)) :
    MonitorInvariant ⟨c.shared.storeBytes w.address bytes (.commit i n w.address w.width),
      Function.update c.threads t l'⟩ := by
  obtain ⟨hlt, hS, hlocked, hfree⟩ := hI.committing t _ _ _ _ hcommitting
  have hdrained := (coherent_role _).drained_of_committing _ hcommitting
  have hkept : ∀ {X : Type} (f : MonitorRole → X) (u : T),
      (∀ r : MonitorRole, f { r with committing := none } = f r) →
      f (Function.update c.threads t l' u).role = f (c.threads u).role := by
    intro X f u hf
    refine forall_update (Q := fun u (l : MonitorThread) => f l.role = f (c.threads u).role) ?_
      (fun _ _ => rfl) u
    rw [hrole, hf]
  have hnobody : ∀ {P : Prop} u, (c.threads u).role.guarded = true → P := by
    intro P u hu
    rw [hI.exclusive t u hdrained] at hu
    cases hu
  have hmem : ∀ {j m a v}, Access.commit j m a v ∈
      Access.commit i n w.address w.width :: c.shared.log →
      j = i ∧ m = n ∨ .commit j m a v ∈ c.shared.log := by
    intro j m a v h
    rcases List.mem_cons.mp h with heq | hold
    · cases heq
      exact .inl ⟨rfl, rfl⟩
    · exact .inr hold
  refine ⟨hgate, ?_, ?_, ?_, hI.generation, hI.slot_lt, ?_, ?_, ?_, ?_, ?_, ?_, ?_, ?_, ?_⟩
  · exact fun u => (hkept (·.astray) u fun _ => rfl).trans (hI.steady u)
  · exact fun u g hu => hI.marked u g ((hkept (·.marked) u fun _ => rfl).symm.trans hu)
  · exact fun u b hu => hI.before u b ((hkept (·.before) u fun _ => rfl).symm.trans hu)
  · intro j m a v hin
    rcases hmem hin with ⟨-, rfl⟩ | hold
    · exact hlt
    · exact hI.commit_lt j m a v hold
  · intro u m hu
    have hu := (hkept (·.fresh) u fun _ => rfl).symm.trans hu
    exact hnobody u ((coherent_role _).guarded_of_fresh _ hu)
  · exact fun u v m hu hv => hI.fresh_unique u v m
      ((hkept (·.fresh) u fun _ => rfl).symm.trans hu)
      ((hkept (·.fresh) v fun _ => rfl).symm.trans hv)
  · intro u j m a hu
    have hu := (hkept (·.owner) u fun _ => rfl).symm.trans hu
    exact hnobody u ((coherent_role _).guarded_of_owner _ hu)
  · intro j d hd hactive
    rcases hI.active j d hd hactive with ⟨u, hu⟩ | hother
    · exact hnobody u ((coherent_role _).guarded_of_owner _ hu)
    · refine .inr ⟨hother.seen, untouchedSince_cons ?_ hother.untouched, ?_, fun u => ?_⟩
      · rw [Bool.eq_false_iff]
        intro htouch
        refine hfree j (hI.slot_lt j d hd).1 d hd hactive ?_
        exact granule_of_touches htouch
      · intro a v hin
        rcases hmem hin with ⟨rfl, -⟩ | hold
        · exact hlocked d hd hactive
        · exact hother.uncommitted a v hold
      · exact (hkept (fun r => r.exposed j (granuleOf d.address)) u fun _ => rfl).trans
          (hother.quiet u)
  · intro u j m a k hu
    rcases of_update (Q := fun (l : MonitorThread) => l.role.committing = some (j, m, a, k)) hu
      with ⟨-, hl⟩ | ⟨hne, hu⟩
    · rw [hrole] at hl
      cases hl
    · have hu := (coherent_role _).holds_of_drained ((coherent_role _).drained_of_committing _ hu)
      exact absurd (hI.holder_unique hu ((coherent_role _).holds_of_drained hdrained)) hne
  · intro u b j m a hu
    have hu := (hkept (·.loaded) u fun _ => rfl).symm.trans hu
    exact hnobody u ((coherent_role _).guarded_of_owner _
      ((coherent_role _).owner_of_loaded _ _ _ _ hu))
  · intro u e j m a hu
    have hu := (hkept (·.sampled) u fun _ => rfl).symm.trans hu
    exact hnobody u ((coherent_role _).guarded_of_owner _
      ((coherent_role _).owner_of_sampled _ _ _ _ hu))
  · refine atomic_cons hI.atomic fun j m a v heq => ?_
    cases heq
    exact ⟨hS.untouched, hS.uncommitted⟩

/-- **The monitor step.**  A step keeps the invariant, if a store that is counted
out touched no granule a reserve has read the same epoch for twice. -/
theorem step (hI : MonitorInvariant c)
    (hgate : GateInvariant ⟨s', Function.update c.threads t l'⟩)
    (heff : MonitorEffect c.shared (c.threads t).role s' l'.role)
    (hstray : l'.role.astray = false)
    (hdrop : (c.threads t).role.leaving = true → ∀ u e i n a,
      (c.threads u).role.sampled = some (e, i, n, a) →
      (c.threads t).role.pending (granuleOf a) e = true →
      untouchedSince i n a c.shared.log = true) :
    MonitorInvariant ⟨s', Function.update c.threads t l'⟩ := by
  have hkept : ∀ {r' : MonitorRole}, KeepsPending c.shared (c.threads t).role r' →
      ∀ u e i n a, (c.threads u).role.sampled = some (e, i, n, a) →
      (c.threads t).role.pending (granuleOf a) e = true → r'.pending (granuleOf a) e = true :=
    fun hkeeps u e i n a hu hp => hkeeps _ e (hI.sampled u e i n a hu).1 hp
  have howner : ∀ {s' : MonitorState} {r' : MonitorRole}, KeepsOwner (c.threads t).role s' r' →
      ∀ i d, s'.slots i = some d → d.status = .active →
      (c.threads t).role.owner = some (i, d.generation, d.address) →
      r'.owner = some (i, d.generation, d.address) := by
    intro s' r' hkeeps i d hd hactive hmine
    rcases hkeeps _ _ _ hmine with hkept | hgone
    · exact hkept
    · exact absurd rfl (hgone d hd hactive)
  generalize hr : (c.threads t).role = r at heff
  generalize hr' : l'.role = r' at heff
  cases heff with
  | calm h hkeeps hpending =>
      subst hr hr'
      exact hI.calm hgate hstray h (fun i d hd ha hm => .inl (howner hkeeps i d hd ha hm))
        fun u e i n a hu hp => .inl (hkept hpending u e i n a hu hp)
  | drop h hkeeps hleaving =>
      subst hr hr'
      exact hI.calm hgate hstray h (fun i d hd ha hm => .inl (howner hkeeps i d hd ha hm))
        fun u e i n a hu hp => .inr (hdrop hleaving u e i n a hu hp)
  | settle e i n a h hpending hsampled hquiet hnone =>
      subst hr hr'
      refine hI.calm hgate hstray h (fun j d hd hactive hmine => .inr ?_)
        fun u e i n a hu hp => .inl (hkept hpending u e i n a hu hp)
      have hi := (coherent_role _).owner_of_sampled _ _ _ _ hsampled
      rw [hi] at hmine
      cases hmine
      exact settled_calm (settled_of_sampled hI hsampled hquiet) h fun _ hfree =>
        hfree d hd hactive rfl
  | store address bytes hexposed =>
      subst hr
      exact hI.store hgate hr' hexposed
  | commit w i n bytes hcommitting =>
      subst hr
      exact hI.commit hgate hr' hcommitting

end MonitorInvariant

end Invariant

end Memory
end XenonRecomp
