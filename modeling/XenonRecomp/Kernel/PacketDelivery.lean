/-
# Every outcome in one packet

What `IoCompletionPort` and the requests of `KernelFileObject` keep over every
run of the system of `XenonRecomp.Kernel.CompletionPort`, and when the words
that `NtRemoveIoCompletion` writes are the words of the packet's origin.

A request is in one of six phases, which the trace and the state agree on:
unregistered, in the map of its file, taken by `complete_request`, completed,
posted, or taken by `cancel_request`.  `Staffed` ties the phases to the threads
in operations, `RequestBooks` to the maps, the request states and the trace, and
`Queued` says what is in the port.
-/

import XenonRecomp.Kernel.CompletionPort

namespace XenonRecomp
namespace Kernel

open Library.Transition Library.Interleaving

variable {F T : Type}

/-! ### What the trace shows -/

namespace IoReply

/-- The packet that a step posted. -/
def post? : IoReply F → Option (Origin F)
  | posted origin => some origin
  | _ => none

/-- The packet that a step removed. -/
def removal? : IoReply F → Option (Origin F)
  | removed origin _ => some origin
  | _ => none

end IoReply

/-- The operation whose packet this is. -/
def Origin.request : Origin F → Option (F × ℕ)
  | operation file id _ _ => some (file, id)
  | posted _ _ => none

/-- The packets posted so far, in order. -/
def postedOrigins (replies : List (IoReply F)) : List (Origin F) :=
  replies.filterMap IoReply.post?

/-- The packets removed so far, in order. -/
def removedOrigins (replies : List (IoReply F)) : List (Origin F) :=
  replies.filterMap IoReply.removal?

/-- The number of packets that the operation with this request posted. -/
def packetsOf [DecidableEq F] (replies : List (IoReply F)) (request : F × ℕ) : ℕ :=
  ((postedOrigins replies).map Origin.request).count (some request)

@[simp] theorem postedOrigins_concat (l : List (IoReply F)) (reply : IoReply F) :
    postedOrigins (l ++ [reply]) = postedOrigins l ++ reply.post?.toList := by
  cases h : reply.post? <;> simp [postedOrigins, h]

@[simp] theorem removedOrigins_concat (l : List (IoReply F)) (reply : IoReply F) :
    removedOrigins (l ++ [reply]) = removedOrigins l ++ reply.removal?.toList := by
  cases h : reply.removal? <;> simp [removedOrigins, h]

@[simp] theorem packetsOf_concat [DecidableEq F] (l : List (IoReply F)) (reply : IoReply F)
    (k : F × ℕ) :
    packetsOf (l ++ [reply]) k =
      packetsOf l k + if reply.post?.bind Origin.request = some k then 1 else 0 := by
  cases h : reply.post? with
  | none => simp [packetsOf, h]
  | some origin => simp [packetsOf, h, List.count_cons]

/-- How far the operation of a thread is. -/
inductive Stage where
  | early
  | completing
  | posting
deriving DecidableEq, Repr

/-- The request of the operation that a thread is in, and how far it is. -/
def IoPlace.job : IoPlace F → Option ((F × ℕ) × Stage)
  | submitted file id _ => some ((file, id), .early)
  | transferring file id _ => some ((file, id), .early)
  | finishing file id _ _ _ => some ((file, id), .early)
  | completing file id _ _ _ => some ((file, id), .completing)
  | posting file id _ _ _ => some ((file, id), .posting)
  | _ => none

/-- The phases of a request. -/
inductive Phase where
  | unregistered
  | registered
  | taken
  | completed
  | posted
  | cancelled
deriving DecidableEq, Repr

/-- A request that some operation still has to finish. -/
def Phase.Live : Phase → Prop
  | registered | taken | completed => True
  | _ => False

/-- A request that was neither completed nor cancelled. -/
def Phase.Undecided : Phase → Prop
  | unregistered | registered | taken => True
  | _ => False

/-- The phases that the request of an operation can be in. -/
def Stage.Agrees : Stage → Phase → Prop
  | early, phase => phase = .registered ∨ phase = .cancelled
  | completing, phase => phase = .taken
  | posting, phase => phase = .completed

/-! ### The claims about a run -/

/-- The port has lost, duplicated and reordered nothing. -/
structure Conserved [DecidableEq F] [DecidableEq T] (replies : List (IoReply F))
    (s : IoSystem F T) : Prop where
  /-- Packets leave in the order of their posts, each of them once. -/
  ordered : postedOrigins replies = removedOrigins replies ++ s.queue.map Prod.snd
  /-- The event is signalled exactly while packets are queued. -/
  signalled : s.ready = true ↔ s.queue ≠ []
  /-- No remover stays blocked while a packet is queued. -/
  proceeds : s.queue ≠ [] → ∀ t iosb action, s.places t = .waiting iosb →
    (s.step (t, action)).1.places t = .removing iosb
  /-- A registered operation that has returned posted one packet, unless its
  request was cancelled. -/
  once : ∀ file id, .registered file id ∈ replies →
    (∀ t stage, (s.places t).job ≠ some ((file, id), stage)) →
    .cancelled file id ∉ replies → packetsOf replies (file, id) = 1
  atMostOnce : ∀ request, packetsOf replies request ≤ 1
  /-- A cancelled operation posts nothing. -/
  cancelled : ∀ file id, .cancelled file id ∈ replies → packetsOf replies (file, id) = 0

/-- Every remover that asked for the words got those of the packet's origin. -/
def WordsRight {E : Type} (tr : List (E × IoReply F)) : Prop :=
  ∀ e origin words, (e, .removed origin (some words)) ∈ tr → words = origin.words

/-- The step reads no words of an operation's packet, unless the number of its
request is its `NTSTATUS`. -/
def Readable (s : IoSystem F T) (e : T × IoAction F) : Prop :=
  match s.places e.1, s.queue with
  | .removing true, (_, .operation _ id code _) :: _ => BitVec.ofNat 32 id = mapStatus code
  | _, _ => True

instance (s : IoSystem F T) (e : T × IoAction F) : Decidable (Readable s e) := by
  unfold Readable
  split <;> infer_instance

/-! ### The threads and the phases -/

/-- The phases of the requests agree with what one thread does. -/
structure Fits (φ : F × ℕ → Phase) (place : IoPlace F) : Prop where
  agrees : ∀ k stage, place.job = some (k, stage) → stage.Agrees (φ k)
  cancelling : ∀ file id, place = .cancelling file id → φ (file, id) = .cancelled

/-- The phases agree with every thread, no two threads are in the operation of
one request, and every live request is in one. -/
structure Staffed (φ : F × ℕ → Phase) (places : T → IoPlace F) : Prop where
  fits : ∀ t, Fits φ (places t)
  alone : ∀ t u k stage stage', (places t).job = some (k, stage) →
    (places u).job = some (k, stage') → t = u
  staffed : ∀ k, (φ k).Live → ∃ t stage, (places t).job = some (k, stage)

section Staffed

variable [DecidableEq F] [DecidableEq T] {φ : F × ℕ → Phase} {places : T → IoPlace F} {t : T}
  {place : IoPlace F} {k : F × ℕ} {phase : Phase}

/-- A request changes its phase under a thread that agrees with both. -/
theorem Fits.update (h : Fits φ place)
    (hagrees : ∀ stage, place.job = some (k, stage) → stage.Agrees phase)
    (hkeep : φ k = .cancelled → phase = .cancelled) : Fits (Function.update φ k phase) place := by
  constructor
  · intro j stage hj
    by_cases hjk : j = k
    · subst hjk
      rw [Function.update_self]
      exact hagrees stage hj
    · rw [Function.update_of_ne hjk]
      exact h.agrees j stage hj
  · intro file id hp
    have hcancelled := h.cancelling file id hp
    by_cases hjk : (file, id) = k
    · subst hjk
      rw [Function.update_self, hkeep hcancelled]
    · rwa [Function.update_of_ne hjk]

omit [DecidableEq F] in
/-- A move of a thread that is in no operation before and after. -/
theorem Staffed.outside (h : Staffed φ places) (hold : (places t).job = none)
    (hnew : place.job = none) (hfits : Fits φ place) :
    Staffed φ (Function.update places t place) := by
  have hjob : ∀ u, (Function.update places t place u).job = (places u).job := by
    intro u
    by_cases hu : u = t
    · subst hu
      rw [Function.update_self, hold, hnew]
    · rw [Function.update_of_ne hu]
  refine ⟨forall_update (Q := fun _ p => Fits φ p) hfits fun u _ => h.fits u,
    fun u v k stage stage' hu hv => ?_, fun k hk => ?_⟩
  · exact h.alone u v k stage stage' (hjob u ▸ hu) (hjob v ▸ hv)
  · obtain ⟨u, stage, hu⟩ := h.staffed k hk
    exact ⟨u, stage, (hjob u).trans hu⟩

/-- A move of the only thread in the operation of a request, whose phase
follows; the operation ends only if the request is not live any more. -/
theorem Staffed.work (h : Staffed φ places)
    (hold : ∀ j stage, (places t).job = some (j, stage) → j = k)
    (hfree : ∀ u stage, (places u).job = some (k, stage) → u = t)
    (hnew : (∃ stage, place.job = some (k, stage) ∧ stage.Agrees phase) ∨
      place = .idle ∧ ¬phase.Live)
    (hkeep : φ k = .cancelled → phase = .cancelled) :
    Staffed (Function.update φ k phase) (Function.update places t place) := by
  have hkey : ∀ j stage, place.job = some (j, stage) → j = k ∧ stage.Agrees phase := by
    intro j stage hj
    rcases hnew with ⟨stage', hk, hagrees⟩ | ⟨rfl, -⟩
    · obtain ⟨rfl, rfl⟩ : k = j ∧ stage' = stage := by simpa [hk] using hj
      exact ⟨rfl, hagrees⟩
    · simp [IoPlace.job] at hj
  have hother : ∀ u j stage, u ≠ t → (places u).job = some (j, stage) → j ≠ k := by
    rintro u j stage hu hj rfl
    exact hu (hfree u stage hj)
  refine ⟨forall_update (Q := fun _ p => Fits (Function.update φ k phase) p) ?_ ?_, ?_, ?_⟩
  · constructor
    · intro j stage hj
      obtain ⟨rfl, hagrees⟩ := hkey j stage hj
      rwa [Function.update_self]
    · rintro file id rfl
      rcases hnew with ⟨stage, hk, -⟩ | ⟨hidle, -⟩
      · simp [IoPlace.job] at hk
      · exact nomatch hidle
  · intro u hu
    exact (h.fits u).update (fun stage hj => absurd rfl (hother u k stage hu hj)) hkeep
  · intro u v j stage stage' hu hv
    rcases of_update (Q := fun p : IoPlace F => p.job = some (j, stage)) hu with
        ⟨rfl, hown⟩ | ⟨hut, hstay⟩ <;>
      rcases of_update (Q := fun p : IoPlace F => p.job = some (j, stage')) hv with
        ⟨rfl, hown'⟩ | ⟨hvt, hstay'⟩
    · rfl
    · exact absurd (hkey j stage hown).1 (hother v j stage' hvt hstay')
    · exact absurd (hkey j stage' hown').1 (hother u j stage hut hstay)
    · exact h.alone u v j stage stage' hstay hstay'
  · intro j hj
    by_cases hjk : j = k
    · subst hjk
      rw [Function.update_self] at hj
      rcases hnew with ⟨stage, hk, -⟩ | ⟨-, hlive⟩
      · exact ⟨t, stage, by rw [Function.update_self, hk]⟩
      · exact absurd hj hlive
    · rw [Function.update_of_ne hjk] at hj
      obtain ⟨u, stage, hu⟩ := h.staffed j hj
      have hut : u ≠ t := by
        rintro rfl
        exact hjk (hold j stage hu)
      exact ⟨u, stage, by rwa [Function.update_of_ne hut]⟩

/-- `Staffed.work` for a thread that is in the operation already. -/
theorem Staffed.go {stage : Stage} (h : Staffed φ places)
    (hold : (places t).job = some (k, stage))
    (hnew : (∃ stage, place.job = some (k, stage) ∧ stage.Agrees phase) ∨
      place = .idle ∧ ¬phase.Live)
    (hkeep : φ k = .cancelled → phase = .cancelled) :
    Staffed (Function.update φ k phase) (Function.update places t place) := by
  refine h.work (fun j stage' hj => ?_) (fun u stage' hu => h.alone u t k stage' stage hu hold)
    hnew hkeep
  obtain ⟨rfl, -⟩ : k = j ∧ stage = stage' := by simpa [hold] using hj
  rfl

/-- A cancellation of a request in the map of its file. -/
theorem Staffed.cancel (h : Staffed φ places) {file : F} {id : ℕ} (hold : places t = .idle)
    (hphase : φ (file, id) = .registered) :
    Staffed (Function.update φ (file, id) .cancelled)
      (Function.update places t (.cancelling file id)) := by
  have hcancelled : Staffed (Function.update φ (file, id) .cancelled) places := by
    refine ⟨fun u => (h.fits u).update (fun stage hu => ?_) fun _ => rfl, h.alone, fun k hk => ?_⟩
    · have hagrees := (h.fits u).agrees _ stage hu
      cases stage with
      | early => exact .inr rfl
      | completing => simp [Stage.Agrees, hphase] at hagrees
      | posting => simp [Stage.Agrees, hphase] at hagrees
    · refine h.staffed k ?_
      by_cases hk' : k = (file, id)
      · subst hk'
        simp [Phase.Live] at hk
      · rwa [Function.update_of_ne hk'] at hk
  refine hcancelled.outside (by rw [hold]; rfl) rfl ⟨(fun _ _ h => nomatch h), ?_⟩
  intro f i hp
  obtain ⟨rfl, rfl⟩ : file = f ∧ id = i := by simpa using hp
  rw [Function.update_self]

end Staffed

/-! ### The maps, the states and the trace -/

/-- The map of the file, the state of the request and the trace say what the
phase of a request says. -/
structure RequestEntry [DecidableEq F] (replies : List (IoReply F)) (s : IoSystem F T) (file : F)
    (id : ℕ) (phase : Phase) : Prop where
  numbered : phase = .unregistered ↔ ¬(1 ≤ id ∧ id < s.nextRequestId file)
  requests : id ∈ s.requests file ↔ phase = .registered
  pending : phase.Undecided → s.states file id = .pending
  registered : .registered file id ∈ replies ↔ phase ≠ .unregistered
  cancelled : .cancelled file id ∈ replies ↔ phase = .cancelled
  packets : packetsOf replies (file, id) = if phase = .posted then 1 else 0

/-- The entries of all requests. -/
structure RequestBooks [DecidableEq F] (replies : List (IoReply F)) (φ : F × ℕ → Phase)
    (s : IoSystem F T) : Prop where
  next : ∀ file, 1 ≤ s.nextRequestId file
  nodup : ∀ file, (s.requests file).Nodup
  entry : ∀ file id, RequestEntry replies s file id (φ (file, id))

/-- What is in the port. -/
structure Queued (replies : List (IoReply F)) (s : IoSystem F T) : Prop where
  ordered : postedOrigins replies = removedOrigins replies ++ s.queue.map Prod.snd
  signalled : s.ready = true ↔ s.queue ≠ []
  status : ∀ p ∈ s.queue, p.1.status = p.2.status
  numbered : ∀ p ∈ s.queue, ∀ file id, p.2.request = some (file, id) → id ≠ 0

/-- The invariant: some phases fit the threads, the maps and the trace. -/
def Ledger [DecidableEq F] (replies : List (IoReply F)) (s : IoSystem F T) : Prop :=
  Queued replies s ∧ ∃ φ, Staffed φ s.places ∧ RequestBooks replies φ s

/-- A reply that shows none of what the ledger counts. -/
def IoReply.Quiet : IoReply F → Prop
  | silent | ended _ _ => True
  | _ => False

theorem IoReply.quiet_silent : (silent : IoReply F).Quiet :=
  trivial

section Ledger

variable [DecidableEq F] {φ : F × ℕ → Phase} {s : IoSystem F T} {replies : List (IoReply F)}
  {reply : IoReply F}

/-- What a step does to an entry that it does not change. -/
theorem RequestEntry.frame {s' : IoSystem F T} {replies' : List (IoReply F)} {file : F} {id : ℕ}
    {phase : Phase} (h : RequestEntry replies s file id phase)
    (hnext : id < s'.nextRequestId file ↔ id < s.nextRequestId file)
    (hrequests : id ∈ s'.requests file ↔ id ∈ s.requests file)
    (hstates : s'.states file id = s.states file id)
    (hregistered : .registered file id ∈ replies' ↔ .registered file id ∈ replies)
    (hcancelled : .cancelled file id ∈ replies' ↔ .cancelled file id ∈ replies)
    (hpackets : packetsOf replies' (file, id) = packetsOf replies (file, id)) :
    RequestEntry replies' s' file id phase := by
  constructor
  · rw [hnext]
    exact h.numbered
  · rw [hrequests]
    exact h.requests
  · rw [hstates]
    exact h.pending
  · rw [hregistered]
    exact h.registered
  · rw [hcancelled]
    exact h.cancelled
  · rw [hpackets]
    exact h.packets

/-- A step that changes one entry. -/
theorem RequestBooks.update {s' : IoSystem F T} {replies' : List (IoReply F)} {file : F} {id : ℕ}
    {phase : Phase} (h : RequestBooks replies φ s) (hnext : ∀ f, s.nextRequestId f ≤ s'.nextRequestId f)
    (hnodup : ∀ f, (s'.requests f).Nodup) (hown : RequestEntry replies' s' file id phase)
    (hothers : ∀ f i, (f, i) ≠ (file, id) → RequestEntry replies s f i (φ (f, i)) →
      RequestEntry replies' s' f i (φ (f, i))) :
    RequestBooks replies' (Function.update φ (file, id) phase) s' := by
  refine ⟨fun f => (h.next f).trans (hnext f), hnodup, fun f i => ?_⟩
  by_cases hk : (f, i) = (file, id)
  · obtain ⟨rfl, rfl⟩ := Prod.mk.inj hk
    rwa [Function.update_self]
  · rw [Function.update_of_ne hk]
    exact hothers f i hk (h.entry f i)

/-- A quiet reply leaves the books right. -/
theorem RequestBooks.quiet (h : RequestBooks replies φ s) (hquiet : reply.Quiet) :
    RequestBooks (replies ++ [reply]) φ s := by
  refine ⟨h.next, h.nodup, fun file id => ?_⟩
  cases reply with
  | silent | ended =>
      exact (h.entry file id).frame .rfl .rfl rfl (by simp) (by simp) (by simp [IoReply.post?])
  | _ => exact hquiet.elim

omit [DecidableEq F] in
/-- A quiet reply leaves the queue right. -/
theorem Queued.quiet (h : Queued replies s) (hquiet : reply.Quiet) :
    Queued (replies ++ [reply]) s := by
  cases reply with
  | silent | ended =>
      refine { h with ordered := ?_ }
      simpa [IoReply.post?, IoReply.removal?] using h.ordered
  | _ => exact hquiet.elim

/-- The books do not depend on the threads and the port. -/
theorem RequestBooks.congr {s' : IoSystem F T} (h : RequestBooks replies φ s)
    (hnext : s'.nextRequestId = s.nextRequestId) (hrequests : s'.requests = s.requests)
    (hstates : s'.states = s.states) : RequestBooks replies φ s' := by
  refine ⟨hnext ▸ h.next, hrequests ▸ h.nodup, fun file id => ?_⟩
  exact (h.entry file id).frame (by rw [hnext]) (by rw [hrequests]) (by rw [hstates]) .rfl .rfl rfl

omit [DecidableEq F] in
/-- The queue does not depend on the threads and the requests. -/
theorem Queued.congr {s' : IoSystem F T} (h : Queued replies s) (hqueue : s'.queue = s.queue)
    (hready : s'.ready = s.ready) : Queued replies s' := by
  constructor
  · simpa [hqueue] using h.ordered
  · simpa [hqueue, hready] using h.signalled
  · simpa [hqueue] using h.status
  · simpa [hqueue] using h.numbered

variable [DecidableEq T] {t : T} {place : IoPlace F}

/-- A thread in no operation moves, quietly. -/
theorem Ledger.outside (h : Ledger replies s) (hold : (s.places t).job = none)
    (hnew : place.job = none) (hcancel : ∀ file id, place ≠ .cancelling file id)
    (hquiet : reply.Quiet) : Ledger (replies ++ [reply]) (s.goTo t place) := by
  obtain ⟨hqueue, φ, hstaff, hbooks⟩ := h
  have hfits : Fits φ place :=
    ⟨fun k stage hj => by simp [hnew] at hj, fun file id hp => absurd hp (hcancel file id)⟩
  exact ⟨(hqueue.quiet hquiet).congr rfl rfl, φ, hstaff.outside hold hnew hfits,
    (hbooks.quiet hquiet).congr rfl rfl rfl⟩

omit [DecidableEq T] in
/-- Nothing happens. -/
theorem Ledger.stay (h : Ledger replies s) (hquiet : reply.Quiet) :
    Ledger (replies ++ [reply]) s := by
  obtain ⟨hqueue, φ, hstaff, hbooks⟩ := h
  exact ⟨hqueue.quiet hquiet, φ, hstaff, hbooks.quiet hquiet⟩

/-- A thread moves within its operation or ends it, quietly, and nothing else
changes; it ends only a cancelled operation. -/
theorem Ledger.within (h : Ledger replies s) {k : F × ℕ}
    (hold : (s.places t).job = some (k, .early))
    (hnew : place.job = some (k, .early) ∨ place = .idle ∧ ¬s.states k.1 k.2 = .pending ∨
      place = .idle ∧ k.2 ∉ s.requests k.1)
    (hquiet : reply.Quiet) : Ledger (replies ++ [reply]) (s.goTo t place) := by
  obtain ⟨hqueue, φ, hstaff, hbooks⟩ := h
  have hphase : φ k = .registered ∨ φ k = .cancelled := (hstaff.fits t).agrees k .early hold
  have hnext : Staffed (Function.update φ k (φ k)) (Function.update s.places t place) :=
    hstaff.go hold ?_ id
  · rw [Function.update_eq_self] at hnext
    exact ⟨(hqueue.quiet hquiet).congr rfl rfl, φ, hnext, (hbooks.quiet hquiet).congr rfl rfl rfl⟩
  · rcases hnew with hearly | ⟨hidle, hstate⟩ | ⟨hidle, hgone⟩
    · exact .inl ⟨.early, hearly, hphase⟩
    · refine .inr ⟨hidle, fun hlive => hstate ((hbooks.entry k.1 k.2).pending ?_)⟩
      rcases hphase with hk | hk
      · simp [hk, Phase.Undecided]
      · simp [hk, Phase.Live] at hlive
    · refine .inr ⟨hidle, fun hlive => ?_⟩
      rcases hphase with hk | hk
      · exact hgone ((hbooks.entry k.1 k.2).requests.mpr hk)
      · simp [hk, Phase.Live] at hlive

/-- `begin_request`. -/
theorem Ledger.beginRequest (h : Ledger replies s) (hold : s.places t = .idle) (file : F)
    (context : BitVec 64) :
    Ledger (replies ++ [(s.beginRequest t file context).2]) (s.beginRequest t file context).1 := by
  obtain ⟨hqueue, φ, hstaff, hbooks⟩ := h
  set id := s.nextRequestId file with hid
  have hfresh : φ (file, id) = .unregistered := (hbooks.entry file id).numbered.mpr (by omega)
  have hfree : ∀ u stage, (s.places u).job = some ((file, id), stage) → u = t := by
    intro u stage hu
    have hagrees := (hstaff.fits u).agrees _ stage hu
    cases stage <;> simp [Stage.Agrees, hfresh] at hagrees
  refine ⟨?_, Function.update φ (file, id) .registered, ?_, ?_⟩
  · have hnext : Queued (replies ++ [.registered file id]) s :=
      { hqueue with ordered := by simpa [IoReply.post?, IoReply.removal?] using hqueue.ordered }
    exact hnext.congr rfl rfl
  · refine hstaff.work (fun j stage hj => ?_) hfree (.inl ⟨.early, rfl, .inl rfl⟩) ?_
    · simp [hold, IoPlace.job] at hj
    · simp [hfresh]
  · have hentry := hbooks.entry file id
    have hid1 := hbooks.next file
    refine hbooks.update (fun f => ?_) (fun f => ?_) ?_ fun f i hk hother => ?_
    · by_cases hf : f = file
      · subst hf
        simp [IoSystem.beginRequest]
      · simp [IoSystem.beginRequest, Function.update_of_ne hf]
    · by_cases hf : f = file
      · subst hf
        have hnew : id ∉ s.requests f := fun hmem => by simpa [hfresh] using hentry.requests.mp hmem
        simpa [IoSystem.beginRequest] using ⟨hnew, hbooks.nodup f⟩
      · simpa [IoSystem.beginRequest, Function.update_of_ne hf] using hbooks.nodup f
    · constructor
      · simp [IoSystem.beginRequest]
        omega
      · simp [IoSystem.beginRequest, hid]
      · intro _
        exact hentry.pending (by simp [hfresh, Phase.Undecided])
      · simp [IoSystem.beginRequest, hid]
      · simpa [IoSystem.beginRequest, hfresh] using hentry.cancelled
      · simpa [IoSystem.beginRequest, hfresh, IoReply.post?] using hentry.packets
    · have hne : f = file → i ≠ id := by
        rintro rfl rfl
        exact hk rfl
      refine hother.frame ?_ ?_ rfl ?_ (by simp [IoSystem.beginRequest])
        (by simp [IoSystem.beginRequest, IoReply.post?])
      · by_cases hf : f = file
        · subst hf
          have := hne rfl
          simp [IoSystem.beginRequest]
          omega
        · simp [IoSystem.beginRequest, Function.update_of_ne hf]
      · by_cases hf : f = file
        · subst hf
          simpa [IoSystem.beginRequest] using fun hi => absurd hi (hne rfl)
        · simp [IoSystem.beginRequest, Function.update_of_ne hf]
      · simpa [IoSystem.beginRequest] using fun hf hi => absurd hi (hne hf)

/-- The books after one request was taken out of the map of its file. -/
theorem RequestBooks.take (h : RequestBooks replies φ s) {file : F} {id : ℕ} {phase : Phase}
    (hphase : φ (file, id) = .registered) (hquiet : reply.Quiet ∧ phase = .taken ∨
      reply = .cancelled file id ∧ phase = .cancelled) :
    RequestBooks (replies ++ [reply]) (Function.update φ (file, id) phase)
      ((s.takeRequest file id).goTo t place) := by
  have hentry := h.entry file id
  rw [hphase] at hentry
  refine h.update (fun f => le_rfl) (fun f => ?_) ?_ fun f i hk hother => ?_
  · by_cases hf : f = file
    · subst hf
      simpa [IoSystem.takeRequest] using (h.nodup f).erase id
    · simpa [IoSystem.takeRequest, Function.update_of_ne hf] using h.nodup f
  · have hpending : s.states file id = .pending := hentry.pending trivial
    have hgone : id ∉ (s.requests file).erase id := (h.nodup file).not_mem_erase
    rcases hquiet with ⟨hquiet, rfl⟩ | ⟨rfl, rfl⟩
    · cases reply with
      | silent | ended =>
          constructor
          · simpa [IoSystem.takeRequest] using hentry.numbered
          · simpa [IoSystem.takeRequest] using hgone
          · exact fun _ => hpending
          · simpa using hentry.registered
          · simpa using hentry.cancelled
          · simpa [IoReply.post?] using hentry.packets
      | _ => exact hquiet.elim
    · constructor
      · simpa [IoSystem.takeRequest] using hentry.numbered
      · simpa [IoSystem.takeRequest] using hgone
      · exact False.elim
      · simpa using hentry.registered
      · simp
      · simpa [IoReply.post?] using hentry.packets
  · have hne : f = file → i ≠ id := by
      rintro rfl rfl
      exact hk rfl
    have hrequests : i ∈ ((s.takeRequest file id).goTo t place).requests f ↔ i ∈ s.requests f := by
      by_cases hf : f = file
      · subst hf
        simpa [IoSystem.takeRequest] using List.mem_erase_of_ne (hne rfl)
      · simp [IoSystem.takeRequest, Function.update_of_ne hf]
    rcases hquiet with ⟨hquiet, rfl⟩ | ⟨rfl, rfl⟩
    · cases reply with
      | silent | ended =>
          exact hother.frame .rfl hrequests rfl (by simp) (by simp) (by simp [IoReply.post?])
      | _ => exact hquiet.elim
    · exact hother.frame .rfl hrequests rfl (by simp)
        (by simpa using fun hf hi => absurd hi (hne hf)) (by simp [IoReply.post?])

/-- The books after the state of a decided request was set. -/
theorem RequestBooks.setState (h : RequestBooks replies φ s) {file : F} {id : ℕ} {phase : Phase}
    {state : IoRequestState} (hphase : φ (file, id) = .taken ∧ phase = .completed ∨
      φ (file, id) = .cancelled ∧ phase = .cancelled) :
    RequestBooks (replies ++ [.silent]) (Function.update φ (file, id) phase)
      ((s.setState file id state).goTo t place) := by
  refine h.update (fun f => le_rfl) h.nodup ?_ fun f i hk hother => ?_
  · have hentry := h.entry file id
    rcases hphase with ⟨hold, rfl⟩ | ⟨hold, rfl⟩ <;> rw [hold] at hentry
    all_goals
      constructor
      · simpa [IoSystem.setState] using hentry.numbered
      · simpa [IoSystem.setState] using hentry.requests
      · exact False.elim
      · simpa using hentry.registered
      · simpa using hentry.cancelled
      · simpa [IoReply.post?] using hentry.packets
  · have hne : ¬(f = file ∧ i = id) := by
      rintro ⟨rfl, rfl⟩
      exact hk rfl
    exact hother.frame .rfl .rfl (by simp [IoSystem.setState, hne]) (by simp) (by simp)
      (by simp [IoReply.post?])

/-- The books after the packet of a completed operation was posted. -/
theorem RequestBooks.post (h : RequestBooks replies φ s) {file : F} {id : ℕ} {packet : CompletionPacket}
    {code : KernelIoCode} {information : BitVec 32} (hphase : φ (file, id) = .completed) :
    RequestBooks (replies ++ [.posted (.operation file id code information)])
      (Function.update φ (file, id) .posted)
      ((s.post packet (.operation file id code information)).goTo t place) := by
  refine h.update (fun f => le_rfl) h.nodup ?_ fun f i hk hother => ?_
  · have hentry := h.entry file id
    rw [hphase] at hentry
    constructor
    · simpa [IoSystem.post] using hentry.numbered
    · simpa [IoSystem.post] using hentry.requests
    · exact False.elim
    · simpa using hentry.registered
    · simpa using hentry.cancelled
    · simpa [IoReply.post?, Origin.request] using hentry.packets
  · have hne : ¬(file = f ∧ id = i) := by
      rintro ⟨rfl, rfl⟩
      exact hk rfl
    exact hother.frame .rfl .rfl rfl (by simp) (by simp) (by simp [IoReply.post?, Origin.request, hne])

omit [DecidableEq F] [DecidableEq T] in
/-- The queue after a post. -/
theorem Queued.post (h : Queued replies s) {packet : CompletionPacket} {origin : Origin F}
    (hstatus : packet.status = origin.status)
    (hnumbered : ∀ file id, origin.request = some (file, id) → id ≠ 0) :
    Queued (replies ++ [.posted origin]) (s.post packet origin) := by
  constructor
  · simp [IoSystem.post, IoReply.post?, IoReply.removal?, h.ordered]
  · simp [IoSystem.post]
  · intro p hp
    rcases List.mem_append.mp hp with hp | hp
    · exact h.status p hp
    · obtain rfl := List.mem_singleton.mp hp
      exact hstatus
  · intro p hp
    rcases List.mem_append.mp hp with hp | hp
    · exact h.numbered p hp
    · obtain rfl := List.mem_singleton.mp hp
      exact hnumbered

omit [DecidableEq T] in
/-- `NtSetIoCompletion`. -/
theorem Ledger.setIoCompletion (h : Ledger replies s) {packet : CompletionPacket}
    (status information : BitVec 32)
    (hstatus : packet.status = (Origin.posted status information : Origin F).status) :
    Ledger (replies ++ [.posted (.posted status information)])
      (s.post packet (.posted status information)) := by
  obtain ⟨hqueue, φ, hstaff, hbooks⟩ := h
  refine ⟨hqueue.post hstatus (fun _ _ h => nomatch h), φ, hstaff, hbooks.next, hbooks.nodup, ?_⟩
  intro file id
  exact (hbooks.entry file id).frame .rfl .rfl rfl (by simp) (by simp)
    (by simp [IoReply.post?, Origin.request])

/-- `try_remove`. -/
theorem Ledger.tryRemove (h : Ledger replies s) {iosb : Bool} (hold : s.places t = .removing iosb) :
    Ledger (replies ++ [(s.tryRemove t iosb).2]) (s.tryRemove t iosb).1 := by
  unfold IoSystem.tryRemove
  split
  · exact h.outside (by rw [hold]; rfl) rfl (fun _ _ h => nomatch h) trivial
  · rename_i packet origin rest hcons
    obtain ⟨hqueue, φ, hstaff, hbooks⟩ := h
    have hordered := hqueue.ordered
    have hsignalled := hqueue.signalled
    have hstatus := hqueue.status
    have hnumbered := hqueue.numbered
    rw [hcons] at hordered hsignalled hstatus hnumbered
    refine ⟨⟨?_, ?_, ?_, ?_⟩, φ, ?_, hbooks.next, hbooks.nodup, fun file id => ?_⟩
    · simpa [IoReply.post?, IoReply.removal?] using hordered
    · simp [hsignalled.mpr]
    · exact fun p hp => hstatus p (List.mem_cons_of_mem _ hp)
    · exact fun p hp => hnumbered p (List.mem_cons_of_mem _ hp)
    · exact hstaff.outside (by rw [hold]; rfl) rfl
        ⟨(fun _ _ h => nomatch h), (fun _ _ h => nomatch h)⟩
    · exact (hbooks.entry file id).frame .rfl .rfl rfl (by simp) (by simp) (by simp [IoReply.post?])

/-- The first step of a call keeps the ledger. -/
theorem Ledger.call (h : Ledger replies s) (hold : s.places t = .idle) (action : IoAction F) :
    Ledger (replies ++ [(s.call t action).2]) (s.call t action).1 := by
  cases action with
  | operate file context => exact h.beginRequest hold file context
  | cancel file id =>
      simp only [IoSystem.call]
      split_ifs with hmem
      · obtain ⟨hqueue, φ, hstaff, hbooks⟩ := h
        have hphase : φ (file, id) = .registered := (hbooks.entry file id).requests.mp hmem
        have hnext : Queued (replies ++ [.cancelled file id]) s :=
          { hqueue with ordered := by simpa [IoReply.post?, IoReply.removal?] using hqueue.ordered }
        exact ⟨hnext.congr rfl rfl, _, hstaff.cancel hold hphase,
          hbooks.take hphase (.inr ⟨rfl, rfl⟩)⟩
      · exact h.stay trivial
  | setIoCompletion key context status information =>
      exact h.setIoCompletion status information rfl
  | removeIoCompletion iosb =>
      exact h.outside (by rw [hold]; rfl) rfl (fun _ _ h => nomatch h) trivial
  | _ => exact h.stay trivial

/-- **A step keeps the ledger.** -/
theorem Ledger.step (h : Ledger replies s) (e : T × IoAction F) :
    Ledger (replies ++ [(s.step e).2]) (s.step e).1 := by
  obtain ⟨t, action⟩ := e
  unfold IoSystem.step
  cases hplace : s.places t with
  | idle => exact h.call hplace action
  | submitted file id context =>
      have hjob : (s.places t).job = some ((file, id), .early) := by rw [hplace]; rfl
      simp only
      split_ifs with hstate
      · exact h.within hjob (.inr (.inl ⟨rfl, by simp [hstate]⟩)) trivial
      · exact h.within hjob (.inl rfl) trivial
  | transferring file id context =>
      have hjob : (s.places t).job = some ((file, id), .early) := by rw [hplace]; rfl
      cases action with
      | transfer code information => exact h.within hjob (.inl rfl) trivial
      | _ => exact h.stay trivial
  | finishing file id context code information =>
      have hjob : (s.places t).job = some ((file, id), .early) := by rw [hplace]; rfl
      simp only
      split_ifs with hmem
      · obtain ⟨hqueue, φ, hstaff, hbooks⟩ := h
        have hphase : φ (file, id) = .registered := (hbooks.entry file id).requests.mp hmem
        exact ⟨(hqueue.quiet IoReply.quiet_silent).congr rfl rfl, _,
          hstaff.go hjob (.inl ⟨.completing, rfl, rfl⟩) (by simp [hphase]),
          hbooks.take hphase (.inl ⟨trivial, rfl⟩)⟩
      · exact h.within hjob (.inr (.inr ⟨rfl, hmem⟩)) trivial
  | completing file id context code information =>
      have hjob : (s.places t).job = some ((file, id), .completing) := by rw [hplace]; rfl
      obtain ⟨hqueue, φ, hstaff, hbooks⟩ := h
      have hphase : φ (file, id) = .taken := (hstaff.fits t).agrees _ .completing hjob
      have hpending : s.states file id = .pending :=
        (hbooks.entry file id).pending (by simp [hphase, Phase.Undecided])
      simp only [hpending, if_true]
      exact ⟨(hqueue.quiet IoReply.quiet_silent).congr rfl rfl, _,
        hstaff.go hjob (.inl ⟨.posting, rfl, rfl⟩) (by simp [hphase]),
        hbooks.setState (.inl ⟨hphase, rfl⟩)⟩
  | posting file id context code information =>
      have hjob : (s.places t).job = some ((file, id), .posting) := by rw [hplace]; rfl
      obtain ⟨hqueue, φ, hstaff, hbooks⟩ := h
      have hphase : φ (file, id) = .completed := (hstaff.fits t).agrees _ .posting hjob
      have hid : id ≠ 0 := by
        rintro rfl
        have hfresh := (hbooks.entry file 0).numbered.mpr (by simp)
        simp [hphase] at hfresh
      refine ⟨(hqueue.post rfl ?_).congr rfl rfl, Function.update φ (file, id) .posted,
        hstaff.go hjob (.inr ⟨rfl, not_false⟩) (by simp [hphase]), hbooks.post hphase⟩
      intro f i hrequest
      obtain ⟨-, rfl⟩ : file = f ∧ id = i := by simpa [Origin.request] using hrequest
      exact hid
  | cancelling file id =>
      obtain ⟨hqueue, φ, hstaff, hbooks⟩ := h
      have hphase : φ (file, id) = .cancelled := (hstaff.fits t).cancelling file id hplace
      have hidle : Staffed φ (Function.update s.places t .idle) :=
        hstaff.outside (by rw [hplace]; rfl) rfl
          ⟨(fun _ _ h => nomatch h), (fun _ _ h => nomatch h)⟩
      simp only
      split_ifs
      · have hset : RequestBooks (replies ++ [.silent]) (Function.update φ (file, id) .cancelled)
            ((s.setState file id .cancelled).goTo t .idle) :=
          hbooks.setState (.inr ⟨hphase, rfl⟩)
        rw [← hphase, Function.update_eq_self] at hset
        exact ⟨(hqueue.quiet IoReply.quiet_silent).congr rfl rfl, φ, hidle, hset⟩
      · exact ⟨(hqueue.quiet IoReply.quiet_silent).congr rfl rfl, φ, hidle,
          (hbooks.quiet IoReply.quiet_silent).congr rfl rfl rfl⟩
  | removing iosb => exact h.tryRemove hplace
  | waiting iosb =>
      have hjob : (s.places t).job = none := by rw [hplace]; rfl
      simp only
      split_ifs
      · exact h.outside hjob rfl (fun _ _ h => nomatch h) trivial
      · exact h.outside hjob rfl (fun _ _ h => nomatch h) trivial
      · exact h.stay trivial

omit [DecidableEq T] in
/-- The ledger of a system that has not run. -/
theorem ledger_initial (hs : s.Initial) : Ledger [] s := by
  obtain ⟨hnext, hrequests, hstates, hqueue, hready, hplaces⟩ := hs
  refine ⟨⟨?_, ?_, ?_, ?_⟩, fun _ => .unregistered, ⟨fun t => ?_, ?_, ?_⟩, ?_, ?_, ?_⟩
  · simp [postedOrigins, removedOrigins, hqueue]
  · simp [hready, hqueue]
  · simp [hqueue]
  · simp [hqueue]
  · rw [hplaces t]
    exact ⟨(fun _ _ h => nomatch h), (fun _ _ h => nomatch h)⟩
  · intro t u k stage stage' ht
    simp [hplaces t, IoPlace.job] at ht
  · exact fun _ h => h.elim
  · simp [hnext]
  · simp [hrequests]
  · intro file id
    constructor
    · simp only [hnext, true_iff]
      omega
    · simp [hrequests]
    · exact fun _ => hstates file id
    · simp
    · simp
    · simp [packetsOf, postedOrigins]

/-- What the ledger says about the run so far. -/
theorem Ledger.conserved (h : Ledger replies s) : Conserved replies s := by
  obtain ⟨hqueue, φ, hstaff, hbooks⟩ := h
  refine ⟨hqueue.ordered, hqueue.signalled, ?_, ?_, fun k => ?_, ?_⟩
  · intro hne t iosb action hplace
    simp [IoSystem.step, hplace, hqueue.signalled.mpr hne, IoSystem.goTo]
  · intro file id hreg hnone hcancel
    have hentry := hbooks.entry file id
    have hdead : ¬(φ (file, id)).Live := fun hlive =>
      let ⟨t, stage, ht⟩ := hstaff.staffed _ hlive
      hnone t stage ht
    rw [hentry.packets]
    have hreg' := hentry.registered.mp hreg
    have hcancel' := mt hentry.cancelled.mpr hcancel
    cases hphase : φ (file, id) <;> simp_all [Phase.Live]
  · rw [show k = (k.1, k.2) from rfl, (hbooks.entry k.1 k.2).packets]
    split_ifs <;> simp
  · intro file id hcancel
    rw [(hbooks.entry file id).packets, (hbooks.entry file id).cancelled.mp hcancel]
    simp

/-- The ledger after a run. -/
theorem Ledger.run (h : Ledger replies s) (es : List (T × IoAction F)) :
    Ledger (replies ++ (trace IoSystem.step s es).map Prod.snd) (run IoSystem.step s es) := by
  have hhistory : Ledger (replies ++ ([] ++ trace IoSystem.step s es).map Prod.snd)
      (Library.Transition.run IoSystem.step s es) :=
    history_invariant (I := fun tr s => Ledger (replies ++ tr.map Prod.snd) s)
      (P := fun _ _ => True) (fun tr s e hI _ => by simpa using hI.step e) [] s es
      (by simpa using h) (along_of_forall (fun _ _ => trivial) s es)
  simpa using hhistory

end Ledger

/-! ### The words of a packet -/

/-- The words of a packet that `NtSetIoCompletion` posted are the words it was
given, zero included. -/
theorem words_posted {p : CompletionPacket} {status information : BitVec 32}
    (h : p.status = (Origin.posted status information : Origin F).status) :
    p.words = (status, information) := by
  have hstatus : p.completionStatus = status := by
    unfold CompletionPacket.completionStatus
    rw [h]
    by_cases hzero : status = 0
    · subst hzero
      rfl
    · have hne : status.toNat ≠ 0 := fun hnat => hzero (BitVec.eq_of_toNat_eq (by simpa using hnat))
      simp [Origin.status, hne]
  rw [CompletionPacket.words, hstatus, h]
  simp [Origin.status]

/-- The words of a packet that an operation posted have the number of its
request for a status. -/
theorem words_operation {p : CompletionPacket} {file : F} {id : ℕ} {code : KernelIoCode}
    {information : BitVec 32} (hid : id ≠ 0)
    (h : p.status = (Origin.operation file id code information).status) :
    p.words = (BitVec.ofNat 32 id, information) := by
  simp [CompletionPacket.words, CompletionPacket.completionStatus, h, Origin.status, hid]

section Words

variable [DecidableEq F] [DecidableEq T] {s : IoSystem F T} {replies : List (IoReply F)}

omit [DecidableEq F] in
/-- The words written by a step of `try_remove` are right exactly if the step is
readable. -/
theorem words_tryRemove (h : Queued replies s) {t : T} {iosb : Bool} {action : IoAction F}
    (hplace : s.places t = .removing iosb) :
    (∀ origin words, (s.tryRemove t iosb).2 = .removed origin (some words) →
      words = origin.words) ↔ Readable s (t, action) := by
  cases hqueue : s.queue with
  | nil => simp [IoSystem.tryRemove, Readable, hqueue]
  | cons head rest =>
      obtain ⟨packet, origin⟩ := head
      have hmem : (packet, origin) ∈ s.queue := by simp [hqueue]
      have hstatus := h.status _ hmem
      have hnumbered := h.numbered _ hmem
      cases iosb with
      | false => simp [IoSystem.tryRemove, Readable, hqueue, hplace]
      | true =>
          have hreply : (s.tryRemove t true).2 = .removed origin (some packet.words) := by
            simp [IoSystem.tryRemove, hqueue]
          have hwords : (∀ o words, (s.tryRemove t true).2 = .removed o (some words) →
              words = o.words) ↔ packet.words = origin.words := by
            rw [hreply]
            constructor
            · exact fun hall => hall _ _ rfl
            · rintro heq o words hremoved
              obtain ⟨rfl, rfl⟩ : origin = o ∧ packet.words = words := by simpa using hremoved
              exact heq
          rw [hwords]
          cases origin with
          | operation file id code information =>
              rw [words_operation (hnumbered file id rfl) hstatus]
              simp [Readable, hplace, hqueue, Origin.words]
          | posted status information =>
              rw [words_posted hstatus]
              simp [Readable, hplace, hqueue, Origin.words]

/-- A step that is not in `try_remove` shows no words. -/
theorem not_removed_step {e : T × IoAction F} (hplace : ∀ iosb, s.places e.1 ≠ .removing iosb)
    (origin : Origin F) (words : Option (BitVec 32 × BitVec 32)) :
    (s.step e).2 ≠ .removed origin words := by
  obtain ⟨t, action⟩ := e
  unfold IoSystem.step
  cases hp : s.places t with
  | idle =>
      cases action with
      | cancel file id => simp only [IoSystem.call]; split_ifs <;> simp
      | _ => simp [IoSystem.call, IoSystem.beginRequest]
  | transferring file id context => cases action <;> simp
  | removing iosb => exact absurd hp (hplace iosb)
  | posting | cancelling => simp
  | _ => simp only; split_ifs <;> simp

/-- The words written by a step are right exactly if the step is readable. -/
theorem words_step (h : Queued replies s) (e : T × IoAction F) :
    (∀ origin words, (s.step e).2 = .removed origin (some words) → words = origin.words) ↔
      Readable s e := by
  obtain ⟨t, action⟩ := e
  by_cases hplace : ∃ iosb, s.places t = .removing iosb
  · obtain ⟨iosb, hplace⟩ := hplace
    rw [← words_tryRemove h hplace]
    simp [IoSystem.step, hplace]
  · have hnot : ∀ iosb, s.places t ≠ .removing iosb := fun iosb hp => hplace ⟨iosb, hp⟩
    have hreadable : Readable s (t, action) := by
      unfold Readable
      split
      · rename_i hp _
        exact absurd hp (hnot true)
      · trivial
    exact ⟨fun _ => hreadable, fun _ origin words hr =>
      absurd hr (not_removed_step (e := (t, action)) hnot origin (some words))⟩

/-- The words of a run are right exactly if all of its steps are readable. -/
theorem wordsRight_trace (h : Ledger replies s) (es : List (T × IoAction F)) :
    WordsRight (trace IoSystem.step s es) ↔ Along IoSystem.step Readable s es := by
  induction es generalizing replies s with
  | nil => simp [WordsRight, trace, Along]
  | cons e es ih =>
      rw [Along, ← ih (h.step e), ← words_step h.1 e, trace]
      constructor
      · intro hall
        refine ⟨fun origin words hr => hall e origin words ?_, fun e' origin words hmem => ?_⟩
        · exact hr ▸ List.mem_cons_self
        · exact hall e' origin words (List.mem_cons_of_mem _ hmem)
      · rintro ⟨hfirst, hrest⟩ e' origin words hmem
        rcases List.mem_cons.mp hmem with heq | hmem
        · exact hfirst origin words (congrArg Prod.snd heq).symm
        · exact hrest e' origin words hmem

/-- **Every outcome reaches one remover, but not always its status.**  After
every run, the port has lost, duplicated and reordered nothing, its event is
signalled exactly while packets are queued, and every operation posted one
packet or was cancelled; and the words that the removers got are those of the
packets exactly if no step read those of an operation's packet, or the number
of its request was its `NTSTATUS`. -/
theorem packets_faithful_iff (hs : s.Initial) (es : List (T × IoAction F)) :
    (Conserved ((trace IoSystem.step s es).map Prod.snd) (run IoSystem.step s es) ∧
      WordsRight (trace IoSystem.step s es)) ↔ Along IoSystem.step Readable s es := by
  have hledger := ledger_initial hs
  have hrun := (hledger.run es).conserved
  rw [List.nil_append] at hrun
  rw [wordsRight_trace hledger es]
  exact and_iff_right hrun

end Words

/-- One file, and two threads outside any call. -/
def oneFile : IoSystem Unit Bool where
  nextRequestId := fun _ => 1
  requests := fun _ => []
  states := fun _ _ => .pending
  completionKey := fun _ => 7
  queue := []
  ready := false
  places := fun _ => .idle

theorem oneFile_initial : oneFile.Initial :=
  ⟨fun _ => rfl, fun _ => rfl, fun _ _ => rfl, rfl, rfl, fun _ => rfl⟩

/-- A successful read of 16 bytes, and the removal of its packet. -/
def readAndRemove : List (Bool × IoAction Unit) :=
  [(false, .operate () 0), (false, .wakeUp), (false, .transfer .success 16), (false, .wakeUp),
    (false, .wakeUp), (false, .wakeUp), (true, .removeIoCompletion true), (true, .wakeUp)]

/-- The remover of the packet of a successful read gets the status word 1. -/
theorem read_reports_request_number :
    oneFile.Initial ∧
      ((true, IoAction.wakeUp), IoReply.removed (.operation () 1 .success 16) (some (1, 16))) ∈
        trace IoSystem.step oneFile readAndRemove ∧
      ¬WordsRight (trace IoSystem.step oneFile readAndRemove) := by
  have hmem : ((true, IoAction.wakeUp),
      IoReply.removed (.operation () 1 .success 16) (some (1, 16))) ∈
        trace IoSystem.step oneFile readAndRemove := by decide
  refine ⟨oneFile_initial, hmem, fun hright => ?_⟩
  have hwords := hright _ _ _ hmem
  exact absurd hwords (by decide)

/-- The packet of a call of `NtSetIoCompletion` with the words 0 and 5 arrives. -/
theorem packets_faithful_posted :
    let es : List (Bool × IoAction Unit) :=
      [(false, .setIoCompletion 1 2 0 5), (true, .removeIoCompletion true), (true, .wakeUp)]
    Along IoSystem.step Readable oneFile es ∧
      Conserved ((trace IoSystem.step oneFile es).map Prod.snd) (run IoSystem.step oneFile es) ∧
      WordsRight (trace IoSystem.step oneFile es) := by
  have hreadable : Along IoSystem.step Readable oneFile
      [(false, .setIoCompletion 1 2 0 5), (true, .removeIoCompletion true), (true, .wakeUp)] := by
    decide
  exact ⟨hreadable, (packets_faithful_iff oneFile_initial _).mpr hreadable⟩

end Kernel
end XenonRecomp
