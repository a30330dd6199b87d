/-
# What a dispatcher section satisfies

Rules for the sections of `Dispatcher`.  `try_satisfy_wait` fails exactly when
the wait is not satisfiable, and what it takes otherwise is what the wait is
entitled to.  No satisfied wait makes another satisfiable, so walking the list
of an object once leaves no wait on it that could still be satisfied, and
satisfies the oldest that it can first.  Every operation on an object is a
signal, which walks the list, or a change that makes no wait satisfiable.
-/

import XenonRecomp.Kernel.Dispatcher

namespace XenonRecomp
namespace Kernel

variable {O T : Type}

/-! ### Objects -/

namespace KernelObject

/-- Every wait that the second state could satisfy, the first could. -/
def Weakens (x y : KernelObject T) : Prop :=
  ∀ threadId, y.canSatisfy threadId = true → x.canSatisfy threadId = true

/-- A satisfied wait makes no other satisfiable: a mutant that is taken was free
for everybody. -/
theorem weakens_satisfy (x : KernelObject T) (threadId : ℕ) (host : T) :
    x.Weakens (x.satisfy threadId host).1 := by
  intro other h
  cases x with
  | event manualReset signaled mirror => cases manualReset <;> simp_all [satisfy, canSatisfy]
  | semaphore count maximum mirror =>
      simp only [satisfy, canSatisfy, decide_eq_true_eq] at h ⊢
      omega
  | mutant owner hostThread recursion abandoned =>
      by_cases hfree : 0 < recursion
      · simp only [satisfy, if_pos hfree, canSatisfy, Bool.or_eq_true, beq_iff_eq] at h ⊢
        omega
      · have hzero : recursion = 0 := by omega
        simp [canSatisfy, hzero]
  | timer synchronization signaled active periodic =>
      cases synchronization <;> simp_all [satisfy, canSatisfy]
  | other => simp [satisfy, canSatisfy] at h

theorem weakens_storeState (x : KernelObject T) : x.Weakens x.storeState := by
  intro threadId h
  cases x <;> simpa [storeState, canSatisfy] using h

theorem weakens_unsignal (x : KernelObject T) : x.Weakens x.unsignal := by
  intro threadId h
  cases x <;> simp_all [unsignal, canSatisfy]

theorem weakens_storeIfUnsignaled (x : KernelObject T) : x.Weakens x.storeIfUnsignaled := by
  intro threadId h
  unfold storeIfUnsignaled at h
  split at h
  · exact weakens_storeState _ threadId h
  · exact h

theorem weakens_disarm (x : KernelObject T) : x.Weakens x.disarm := by
  intro threadId h
  unfold disarm at h
  split at h <;> simpa [canSatisfy] using h

end KernelObject

/-! ### One wait -/

namespace Dispatcher

variable [DecidableEq O] [DecidableEq T]

/-- The state satisfies the wait. -/
def Satisfiable (d : Dispatcher O T) (objects : List (Key O T)) (waitAll : Bool)
    (threadId : ℕ) : Prop :=
  if waitAll then ∀ key ∈ objects, d.canSatisfy key threadId = true
  else ∃ key ∈ objects, d.canSatisfy key threadId = true

/-- Every wait that the second state satisfies, the first does, if the objects
of the wait are no stronger. -/
theorem Satisfiable.mono {d d' : Dispatcher O T} {objects : List (Key O T)} {waitAll : Bool}
    {threadId : ℕ} (hkeys : ∀ key ∈ objects, d'.canSatisfy key threadId = true →
      d.canSatisfy key threadId = true) (h : d'.Satisfiable objects waitAll threadId) :
    d.Satisfiable objects waitAll threadId := by
  cases waitAll with
  | true =>
      simp only [Satisfiable, if_true] at h ⊢
      exact fun key hkey => hkeys key hkey (h key hkey)
  | false =>
      simp only [Satisfiable, Bool.false_eq_true, if_false] at h ⊢
      obtain ⟨key, hkey, hcan⟩ := h
      exact ⟨key, hkey, hkeys key hkey hcan⟩

theorem satisfyFirst_eq_none_iff (d : Dispatcher O T) (threadId : ℕ) (host : T)
    (keys : List (Key O T)) (i : ℕ) :
    d.satisfyFirst threadId host keys i = none ↔ ∀ key ∈ keys, d.canSatisfy key threadId ≠ true := by
  induction keys generalizing i with
  | nil => simp [satisfyFirst]
  | cons key keys ih =>
      rw [satisfyFirst]
      split_ifs with hcan
      · simp [hcan]
      · simp [ih, hcan]

/-- `try_satisfy_wait` fails exactly on the waits that are not satisfiable. -/
theorem trySatisfyWait_eq_none_iff (d : Dispatcher O T) (objects : List (Key O T))
    (waitAll : Bool) (threadId : ℕ) (host : T) :
    d.trySatisfyWait objects waitAll threadId host = none ↔
      ¬ d.Satisfiable objects waitAll threadId := by
  cases waitAll with
  | true => simp [trySatisfyWait, Satisfiable]
  | false => simp [trySatisfyWait, Satisfiable, satisfyFirst_eq_none_iff]

end Dispatcher

/-- A wait took exactly what it is entitled to: a `WaitAll` every distinct
object, all of them satisfiable, a `WaitAny` the lowest-indexed satisfiable
object; and each of these was satisfied once and nothing else changed. -/
structure Entitled [DecidableEq O] [DecidableEq T] (objects : List (Key O T)) (waitAll : Bool)
    (threadId : ℕ) (k : Take O T) : Prop where
  left : k.left = (k.found.satisfyAll threadId k.waiter k.taken).1
  all : waitAll = true → k.taken = objects.dedup ∧
    ∀ key ∈ objects, k.found.canSatisfy key threadId = true
  any : waitAll = false → ∃ (i : ℕ) (key : Key O T), objects[i]? = some key ∧ k.taken = [key] ∧
    k.found.canSatisfy key threadId = true ∧
    ∀ j < i, ∀ other, objects[j]? = some other → k.found.canSatisfy other threadId = false

namespace Dispatcher

variable [DecidableEq O] [DecidableEq T]

theorem satisfyFirst_eq_some {d : Dispatcher O T} {threadId : ℕ} {host : T}
    {keys : List (Key O T)} {i : ℕ} {r : Satisfied O T}
    (h : d.satisfyFirst threadId host keys i = some r) :
    ∃ (n : ℕ) (key : Key O T), keys[n]? = some key ∧ r.taken = [key] ∧ r.dispatcher = (d.satisfy key threadId host).1 ∧
      d.canSatisfy key threadId = true ∧
      ∀ j < n, ∀ other, keys[j]? = some other → d.canSatisfy other threadId = false := by
  induction keys generalizing i with
  | nil => simp [satisfyFirst] at h
  | cons key keys ih =>
      rw [satisfyFirst] at h
      split_ifs at h with hcan
      · obtain rfl := (Option.some.inj h).symm
        exact ⟨0, key, rfl, rfl, rfl, hcan, by simp⟩
      · obtain ⟨n, found, hfound, htaken, hleft, hcan', hbefore⟩ := ih h
        refine ⟨n + 1, found, hfound, htaken, hleft, hcan', fun j hj other hother => ?_⟩
        cases j with
        | zero =>
            obtain rfl : key = other := by simpa using hother
            exact Bool.eq_false_iff.mpr hcan
        | succ j => exact hbefore j (by omega) other (by simpa using hother)

/-- What `try_satisfy_wait` takes is what the wait is entitled to. -/
theorem entitled_of_trySatisfyWait {d : Dispatcher O T} {objects : List (Key O T)}
    {waitAll : Bool} {threadId : ℕ} {host : T} {r : Satisfied O T}
    (h : d.trySatisfyWait objects waitAll threadId host = some r) :
    Entitled objects waitAll threadId ⟨host, d, r.taken, r.dispatcher⟩ := by
  cases waitAll with
  | true =>
      simp only [trySatisfyWait, if_true] at h
      split_ifs at h with hall
      obtain rfl := (Option.some.inj h).symm
      refine ⟨rfl, fun _ => ⟨rfl, fun key hkey => ?_⟩, by simp⟩
      exact List.all_eq_true.mp hall key (List.mem_dedup.mpr hkey)
  | false =>
      simp only [trySatisfyWait, Bool.false_eq_true, if_false] at h
      obtain ⟨n, key, hkey, htaken, hleft, hcan, hbefore⟩ := satisfyFirst_eq_some h
      refine ⟨?_, by simp, fun _ => ⟨n, key, hkey, htaken, hcan, hbefore⟩⟩
      simp [htaken, hleft, satisfyAll]

/-! ### What satisfying leaves -/

/-- Threads, lists and blocks are the same, and no object is satisfiable that
was not before. -/
structure Consumes (d d' : Dispatcher O T) : Prop where
  threads : d'.threads = d.threads
  lists : d'.lists = d.lists
  blocks : d'.blocks = d.blocks
  canSatisfy : ∀ key threadId, d'.canSatisfy key threadId = true → d.canSatisfy key threadId = true

theorem Consumes.refl (d : Dispatcher O T) : Consumes d d := ⟨rfl, rfl, rfl, fun _ _ => id⟩

theorem Consumes.trans {d d' d'' : Dispatcher O T} (h : Consumes d d') (h' : Consumes d' d'') :
    Consumes d d'' where
  threads := h'.threads.trans h.threads
  lists := h'.lists.trans h.lists
  blocks := h'.blocks.trans h.blocks
  canSatisfy key threadId hcan := h.canSatisfy key threadId (h'.canSatisfy key threadId hcan)

/-- Weakening one object. -/
theorem consumes_setObject {d : Dispatcher O T} {o : O} {x : KernelObject T}
    (hx : (d.objects o).Weakens x) : Consumes d (d.setObject o x) := by
  refine ⟨rfl, rfl, rfl, fun key threadId hcan => ?_⟩
  cases key with
  | thread t => exact hcan
  | object o' =>
      by_cases ho : o' = o
      · subst ho
        exact hx threadId (by simpa [canSatisfy, setObject] using hcan)
      · simpa [canSatisfy, setObject, Function.update_of_ne ho] using hcan

theorem consumes_satisfy (d : Dispatcher O T) (key : Key O T) (threadId : ℕ) (host : T) :
    Consumes d (d.satisfy key threadId host).1 := by
  cases key with
  | object o => exact consumes_setObject (KernelObject.weakens_satisfy _ threadId host)
  | thread t => exact .refl d

theorem consumes_satisfyAll (d : Dispatcher O T) (threadId : ℕ) (host : T)
    (keys : List (Key O T)) : Consumes d (d.satisfyAll threadId host keys).1 := by
  induction keys generalizing d with
  | nil => exact .refl d
  | cons key keys ih => exact (consumes_satisfy d key threadId host).trans (ih _)

theorem consumes_trySatisfyWait {d : Dispatcher O T} {objects : List (Key O T)}
    {waitAll : Bool} {threadId : ℕ} {host : T} {r : Satisfied O T}
    (h : d.trySatisfyWait objects waitAll threadId host = some r) : Consumes d r.dispatcher := by
  have hleft : r.dispatcher = (d.satisfyAll threadId host r.taken).1 :=
    (entitled_of_trySatisfyWait h).left
  rw [hleft]
  exact consumes_satisfyAll d threadId host r.taken

end Dispatcher

/-! ### Walking a list -/

/-- What a block is registered for. -/
def MultiWaitBlock.SameWait (b b' : MultiWaitBlock O T) : Prop :=
  b'.objects = b.objects ∧ b'.waitAll = b.waitAll ∧ b'.threadId = b.threadId

variable [DecidableEq O] [DecidableEq T]

/-- The takes of one thread. -/
def takesOf (t : T) (takes : List (Take O T)) : List (Take O T) :=
  takes.filter fun k => k.waiter = t

/-- How the takes of a thread change its block: none leave the grant as it was;
one, of what the wait is entitled to, grants a block that was not granted. -/
def Accounts (b b' : MultiWaitBlock O T) (takes : List (Take O T)) : Prop :=
  takes = [] ∧ b'.granted = b.granted ∨
    ∃ k, takes = [k] ∧ b.granted = none ∧ b'.granted ≠ none ∧
      Entitled b.objects b.waitAll b.threadId k

theorem Accounts.trans {b b' b'' : MultiWaitBlock O T} {ks ks' : List (Take O T)}
    (hsame : b.SameWait b') (h : Accounts b b' ks) (h' : Accounts b' b'' ks') :
    Accounts b b'' (ks ++ ks') := by
  obtain ⟨hobjects, hall, hid⟩ := hsame
  rcases h with ⟨rfl, hgranted⟩ | ⟨k, rfl, hnone, hsome, hentitled⟩
  · rw [Accounts, hobjects, hall, hid, hgranted] at h'
    exact h'
  · rcases h' with ⟨rfl, hgranted⟩ | ⟨k', -, hnone', -, -⟩
    · exact .inr ⟨k, rfl, hnone, hgranted ▸ hsome, hentitled⟩
    · exact absurd hnone' hsome

namespace Dispatcher

/-- The effect of satisfying registered waits: threads and lists are the same,
blocks change only by what their waits took, and no object is satisfiable that
was not before. -/
structure Grants (d d' : Dispatcher O T) (takes : List (Take O T)) : Prop where
  threads : d'.threads = d.threads
  lists : d'.lists = d.lists
  sameWait : ∀ t, (d.blocks t).SameWait (d'.blocks t)
  accounts : ∀ t, Accounts (d.blocks t) (d'.blocks t) (takesOf t takes)
  canSatisfy : ∀ key threadId, d'.canSatisfy key threadId = true → d.canSatisfy key threadId = true

theorem Consumes.grants {d d' : Dispatcher O T} (h : Consumes d d') : Grants d d' [] where
  threads := h.threads
  lists := h.lists
  sameWait t := by rw [h.blocks]; exact ⟨rfl, rfl, rfl⟩
  accounts t := .inl ⟨rfl, by rw [h.blocks]⟩
  canSatisfy := h.canSatisfy

theorem Grants.trans {d d' d'' : Dispatcher O T} {ks ks' : List (Take O T)}
    (h : Grants d d' ks) (h' : Grants d' d'' ks') : Grants d d'' (ks ++ ks') where
  threads := h'.threads.trans h.threads
  lists := h'.lists.trans h.lists
  sameWait t :=
    ⟨(h'.sameWait t).1.trans (h.sameWait t).1, (h'.sameWait t).2.1.trans (h.sameWait t).2.1,
      (h'.sameWait t).2.2.trans (h.sameWait t).2.2⟩
  accounts t := by
    rw [takesOf, List.filter_append]
    exact (h.accounts t).trans (h.sameWait t) (h'.accounts t)
  canSatisfy key threadId hcan := h.canSatisfy key threadId (h'.canSatisfy key threadId hcan)

/-- A grant of a wait that took what it is entitled to. -/
theorem grants_grant {d d' : Dispatcher O T} {t : T} {taken : List (Key O T)} (index : ℕ)
    (abandoned : Bool) (hnone : (d.blocks t).granted = none)
    (hentitled : Entitled (d.blocks t).objects (d.blocks t).waitAll (d.blocks t).threadId
      ⟨t, d, taken, d'⟩) (h : Consumes d d') :
    Grants d (d'.grant t index abandoned) [⟨t, d, taken, d'⟩] where
  threads := h.threads
  lists := h.lists
  sameWait u := by
    by_cases hu : u = t
    · subst hu
      simp [MultiWaitBlock.SameWait, grant, setBlock, h.blocks]
    · simp [MultiWaitBlock.SameWait, grant, setBlock, h.blocks, Function.update_of_ne hu]
  accounts u := by
    by_cases hu : u = t
    · subst hu
      refine .inr ⟨⟨u, d, taken, d'⟩, by simp [takesOf], hnone, ?_, hentitled⟩
      simp [grant, setBlock]
    · refine .inl ⟨by simp [takesOf, Ne.symm hu], ?_⟩
      simp [grant, setBlock, h.blocks, Function.update_of_ne hu]
  canSatisfy key threadId hcan := by
    refine h.canSatisfy key threadId ?_
    cases key <;> exact hcan

theorem grants_satisfyWaiter (d : Dispatcher O T) (t : T) :
    Grants d (d.satisfyWaiter t).1 (d.satisfyWaiter t).2 := by
  unfold satisfyWaiter
  dsimp only
  split_ifs with hskip
  · exact (Consumes.refl d).grants
  · have hnone : (d.blocks t).granted = none := by
      simp only [Bool.or_eq_true, not_or] at hskip
      simpa using hskip.1
    split
    · exact (Consumes.refl d).grants
    · rename_i r hr
      exact grants_grant r.index r.abandoned hnone (entitled_of_trySatisfyWait hr)
        (consumes_trySatisfyWait hr)

theorem grants_satisfyList (d : Dispatcher O T) (ts : List T) :
    Grants d (d.satisfyList ts).1 (d.satisfyList ts).2 := by
  induction ts generalizing d with
  | nil => exact (Consumes.refl d).grants
  | cons t ts ih => exact (grants_satisfyWaiter d t).trans (ih (d.satisfyWaiter t).1)

/-! ### Waits that cannot be satisfied -/

/-- The wait of the thread is granted or cannot be satisfied. -/
def Quiet (d : Dispatcher O T) (t : T) : Prop :=
  (d.blocks t).granted = none →
    ¬ d.Satisfiable (d.blocks t).objects (d.blocks t).waitAll (d.blocks t).threadId

/-- A wait that cannot be satisfied stays so while others are. -/
theorem Grants.quiet {d d' : Dispatcher O T} {ks : List (Take O T)} (h : Grants d d' ks) {t : T}
    (hquiet : d.Quiet t) : d'.Quiet t := by
  intro hnone hsat
  have hbefore : (d.blocks t).granted = none := by
    rcases h.accounts t with ⟨-, hsame⟩ | ⟨k, -, -, hsome, -⟩
    · rw [← hsame, hnone]
    · exact absurd hnone hsome
  obtain ⟨hobjects, hall, hid⟩ := h.sameWait t
  rw [hobjects, hall, hid] at hsat
  exact hquiet hbefore (hsat.mono fun key _ => h.canSatisfy key _)

/-- The turn of a wait leaves it granted or without satisfaction. -/
theorem quiet_satisfyWaiter (d : Dispatcher O T) (t : T)
    (hempty : (d.blocks t).objects = [] → (d.blocks t).waitAll = false) :
    (d.satisfyWaiter t).1.Quiet t := by
  unfold satisfyWaiter
  dsimp only
  split_ifs with hskip
  · simp only [Bool.or_eq_true] at hskip
    rcases hskip with hgranted | hobjects
    · intro hnone
      exact absurd hnone (Option.isSome_iff_ne_none.mp hgranted)
    · have hnil : (d.blocks t).objects = [] := List.isEmpty_iff.mp hobjects
      intro _
      simp [Satisfiable, hnil, hempty hnil]
  · split
    · rename_i hr
      intro _
      exact (trySatisfyWait_eq_none_iff d _ _ _ t).mp hr
    · intro hnone
      simp [grant, setBlock] at hnone

/-- **One walk over a list is enough.**  After it every wait on the list is
granted or cannot be satisfied, and so is every wait that was so before. -/
theorem quiet_satisfyList (d : Dispatcher O T) (ts : List T) (t : T)
    (hempty : (d.blocks t).objects = [] → (d.blocks t).waitAll = false)
    (h : t ∈ ts ∨ d.Quiet t) : (d.satisfyList ts).1.Quiet t := by
  induction ts generalizing d with
  | nil => exact h.resolve_left List.not_mem_nil
  | cons u ts ih =>
      have hturn := grants_satisfyWaiter d u
      have hempty' : ((d.satisfyWaiter u).1.blocks t).objects = [] →
          ((d.satisfyWaiter u).1.blocks t).waitAll = false := by
        obtain ⟨hobjects, hall, -⟩ := hturn.sameWait t
        rw [hobjects, hall]
        exact hempty
      refine ih _ hempty' ?_
      by_cases hu : t = u
      · subst hu
        exact .inr (quiet_satisfyWaiter d t hempty)
      · rcases h with hmem | hquiet
        · exact .inl ((List.mem_cons.mp hmem).resolve_left hu)
        · exact .inr (hturn.quiet hquiet)

/-! ### The order of a walk -/

theorem waiter_satisfyWaiter {d : Dispatcher O T} {t : T} {k : Take O T}
    (hk : k ∈ (d.satisfyWaiter t).2) : k.waiter = t ∧ k.found = d := by
  unfold satisfyWaiter at hk
  dsimp only at hk
  split_ifs at hk
  · simp at hk
  · split at hk
    · simp at hk
    · obtain rfl := List.mem_singleton.mp hk
      exact ⟨rfl, rfl⟩

/-- Every wait on the walk finds what the walk left so far. -/
theorem found_satisfyList {d : Dispatcher O T} {ts : List T} {k : Take O T}
    (hk : k ∈ (d.satisfyList ts).2) : k.waiter ∈ ts ∧ ∃ ks, Grants d k.found ks := by
  induction ts generalizing d with
  | nil => simp [satisfyList] at hk
  | cons t ts ih =>
      rw [satisfyList] at hk
      rcases List.mem_append.mp hk with hturn | hrest
      · obtain ⟨hwaiter, hfound⟩ := waiter_satisfyWaiter hturn
        rw [hwaiter, hfound]
        exact ⟨List.mem_cons_self, [], (Consumes.refl d).grants⟩
      · obtain ⟨hmem, ks, hks⟩ := ih hrest
        exact ⟨List.mem_cons_of_mem t hmem, _, (grants_satisfyWaiter d t).trans hks⟩

/-- The waits are satisfied in the order of the list. -/
theorem waiters_satisfyList (d : Dispatcher O T) (ts : List T) :
    ((d.satisfyList ts).2.map Take.waiter).Sublist ts := by
  induction ts generalizing d with
  | nil => exact .slnil
  | cons t ts ih =>
      rw [satisfyList, List.map_append]
      have hone : ((d.satisfyWaiter t).2.map Take.waiter).Sublist [t] := by
        unfold satisfyWaiter
        dsimp only
        split_ifs
        · exact List.nil_sublist _
        · split
          · exact List.nil_sublist _
          · exact .refl _
      exact hone.append (ih _)

/-- **The oldest first.**  When a wait on the list is satisfied, every wait that
stands before it is granted or cannot be satisfied. -/
theorem oldest_satisfyList (d : Dispatcher O T) {older younger : List T} {k : Take O T}
    (hnodup : (older ++ k.waiter :: younger).Nodup)
    (hk : k ∈ (d.satisfyList (older ++ k.waiter :: younger)).2) {u : T} (hu : u ∈ older)
    (hempty : (d.blocks u).objects = [] → (d.blocks u).waitAll = false) :
    k.found.Quiet u := by
  induction older generalizing d with
  | nil => simp at hu
  | cons t older ih =>
      rw [List.cons_append, List.nodup_cons] at hnodup
      obtain ⟨hfresh, hnodup⟩ := hnodup
      have hother : k.waiter ≠ t := fun h => hfresh (by simp [h])
      rw [List.cons_append, satisfyList] at hk
      have hrest := (List.mem_append.mp hk).resolve_left fun h =>
        hother (waiter_satisfyWaiter h).1
      have hturn := grants_satisfyWaiter d t
      rcases List.mem_cons.mp hu with rfl | hu
      · obtain ⟨-, ks, hks⟩ := found_satisfyList hrest
        exact hks.quiet (quiet_satisfyWaiter d u hempty)
      · refine ih _ hnodup hrest hu fun hv => ?_
        obtain ⟨hobjects, hall, -⟩ := hturn.sameWait u
        rw [hall]
        exact hempty (hobjects ▸ hv)

/-! ### Operations -/

theorem signal_eq (d : Dispatcher O T) (o : O) (x : KernelObject T) :
    d.signal o x = (d.setObject o x).satisfyList (d.lists (.object o)) := rfl

/-- A change of an object that a wait does not name leaves the wait as it was. -/
theorem Quiet.setObject {d : Dispatcher O T} {o : O} {x : KernelObject T} {t : T}
    (h : d.Quiet t) (ho : .object o ∉ (d.blocks t).objects) : (d.setObject o x).Quiet t := by
  intro hnone hsat
  refine h hnone (hsat.mono fun key hkey hcan => ?_)
  cases key with
  | thread u => exact hcan
  | object o' =>
      have hne : o' ≠ o := fun h => ho (h ▸ hkey)
      simpa [canSatisfy, Dispatcher.setObject, Function.update_of_ne hne] using hcan

/-- A signal leaves no wait registered on its object that could be satisfied. -/
theorem quiet_signal (d : Dispatcher O T) (o : O) (x : KernelObject T) (t : T)
    (hempty : (d.blocks t).objects = [] → (d.blocks t).waitAll = false)
    (hlist : .object o ∈ (d.blocks t).objects → t ∈ d.lists (.object o)) (h : d.Quiet t) :
    (d.signal o x).1.Quiet t := by
  rw [signal_eq]
  refine quiet_satisfyList _ _ t hempty ?_
  by_cases ho : .object o ∈ (d.blocks t).objects
  · exact .inl (hlist ho)
  · exact .inr (h.setObject ho)

/-- What an operation on object `o` does: it makes no wait satisfiable and
satisfies none, or it is a signal of the object and then a change that makes
none satisfiable. -/
def Effect (d : Dispatcher O T) (o : O) (d' : Dispatcher O T) (takes : List (Take O T)) : Prop :=
  takes = [] ∧ Consumes d d' ∨
    ∃ x, takes = (d.signal o x).2 ∧ Consumes (d.signal o x).1 d'

theorem effect_stay (d : Dispatcher O T) (o : O) : Effect d o d [] := .inl ⟨rfl, .refl d⟩

theorem effect_setObject {d : Dispatcher O T} {o : O} {x : KernelObject T}
    (hx : (d.objects o).Weakens x) : Effect d o (d.setObject o x) [] :=
  .inl ⟨rfl, consumes_setObject hx⟩

theorem effect_signal (d : Dispatcher O T) (o : O) (x : KernelObject T) :
    Effect d o (d.signal o x).1 (d.signal o x).2 := .inr ⟨x, rfl, .refl _⟩

theorem effect_signal_modify (d : Dispatcher O T) (o : O) (x : KernelObject T)
    {f : KernelObject T → KernelObject T} (hf : ∀ y : KernelObject T, y.Weakens (f y)) :
    Effect d o ((d.signal o x).1.modifyObject o f) (d.signal o x).2 :=
  .inr ⟨x, rfl, consumes_setObject (hf _)⟩

/-- Every operation is one of the two kinds. -/
theorem effect_operate (d : Dispatcher O T) (t : T) (op : Operation O) :
    Effect d op.object (d.operate t op).1 (d.operate t op).2.2 := by
  have hreset : ∀ x : KernelObject T, x.Weakens x.unsignal.storeState := fun x threadId h =>
    x.weakens_unsignal threadId (x.unsignal.weakens_storeState threadId h)
  cases op with
  | setEvent o =>
      simp only [operate, Operation.object]
      split
      · exact effect_signal_modify d o _ KernelObject.weakens_storeState
      · exact effect_stay d o
  | pulseEvent o =>
      simp only [operate, Operation.object]
      split
      · exact effect_signal_modify d o _ hreset
      · exact effect_stay d o
  | resetEvent o =>
      simp only [operate, Operation.object]
      split
      · exact effect_setObject (hreset _)
      · exact effect_stay d o
  | releaseSemaphore o releaseCount =>
      simp only [operate, Operation.object]
      split
      · unfold releaseSemaphore
        split_ifs
        · exact effect_stay d o
        · exact effect_stay d o
        · exact effect_signal_modify d o _ KernelObject.weakens_storeState
      · exact effect_stay d o
  | releaseMutant o threadId =>
      simp only [operate, Operation.object]
      split
      · rename_i owner hostThread recursion abandoned hobject
        unfold releaseMutant
        split_ifs with hrefused hlast
        · exact effect_stay d o
        · exact effect_signal d o _
        · refine effect_setObject fun id h => ?_
          have hdeep : recursion - 1 ≠ 0 := by omega
          simp only [KernelObject.canSatisfy, Bool.or_eq_true, beq_iff_eq] at h
          simp [hobject, KernelObject.canSatisfy, h.resolve_left hdeep]
      · exact effect_stay d o
  | abandonMutant o =>
      simp only [operate, Operation.object]
      split
      · exact effect_signal d o _
      · exact effect_stay d o
  | abandonOwned o =>
      simp only [operate, Operation.object]
      split
      · split_ifs
        · exact effect_signal d o _
        · exact effect_stay d o
      · exact effect_stay d o
  | setTimer o dueTime periodic =>
      simp only [operate, Operation.object]
      split
      · unfold setTimer
        split_ifs
        · exact effect_signal d o _
        · exact effect_setObject fun id h => by simp [KernelObject.canSatisfy] at h
      · exact effect_stay d o
  | fireTimer o =>
      simp only [operate, Operation.object]
      split
      · unfold fireTimer
        split_ifs
        · exact effect_signal_modify d o _ KernelObject.weakens_disarm
        · exact effect_stay d o
      · exact effect_stay d o
  | cancelTimer o =>
      simp only [operate, Operation.object]
      split
      · exact effect_setObject fun id h => by simp [KernelObject.canSatisfy] at h
      · exact effect_stay d o
  | reconcileWithGuestState o =>
      simp only [operate, Operation.object]
      split
      · unfold reconcileEvent
        dsimp only
        split_ifs
        · exact effect_stay d o
        · exact effect_signal_modify d o _ KernelObject.weakens_storeIfUnsignaled
        · exact effect_setObject fun id h => by simp [KernelObject.canSatisfy] at h
      · unfold reconcileSemaphore
        split_ifs
        · exact effect_stay d o
        · exact effect_stay d o
        · exact effect_signal_modify d o _ KernelObject.weakens_storeState
      · exact effect_stay d o
  | guestStore o value =>
      simp only [operate, Operation.object]
      split
      iterate 2
        · rename_i hobject
          exact effect_setObject fun id h => by simpa [hobject, KernelObject.canSatisfy] using h
      · exact effect_stay d o

/-- The effect of a section on the waits: threads and lists are the same, and
blocks change only by what their waits took. -/
structure Serves (d d' : Dispatcher O T) (takes : List (Take O T)) : Prop where
  threads : d'.threads = d.threads
  lists : d'.lists = d.lists
  sameWait : ∀ t, (d.blocks t).SameWait (d'.blocks t)
  accounts : ∀ t, Accounts (d.blocks t) (d'.blocks t) (takesOf t takes)

theorem Grants.serves {d d' : Dispatcher O T} {takes : List (Take O T)} (h : Grants d d' takes) :
    Serves d d' takes :=
  ⟨h.threads, h.lists, h.sameWait, h.accounts⟩

theorem Effect.serves {d d' : Dispatcher O T} {o : O} {takes : List (Take O T)}
    (h : Effect d o d' takes) : Serves d d' takes := by
  rcases h with ⟨rfl, hconsumes⟩ | ⟨x, rfl, hconsumes⟩
  · exact hconsumes.grants.serves
  · have hwalk := (grants_satisfyList (d.setObject o x) (d.lists (.object o))).trans
      hconsumes.grants
    rw [List.append_nil] at hwalk
    exact ⟨hwalk.threads, hwalk.lists, hwalk.sameWait, hwalk.accounts⟩

theorem Effect.quiet {d d' : Dispatcher O T} {o : O} {takes : List (Take O T)}
    (h : Effect d o d' takes) {t : T}
    (hempty : (d.blocks t).objects = [] → (d.blocks t).waitAll = false)
    (hlist : .object o ∈ (d.blocks t).objects → t ∈ d.lists (.object o)) (hquiet : d.Quiet t) :
    d'.Quiet t := by
  rcases h with ⟨rfl, hconsumes⟩ | ⟨x, rfl, hconsumes⟩
  · exact hconsumes.grants.quiet hquiet
  · exact hconsumes.grants.quiet (quiet_signal d o x t hempty hlist hquiet)

/-- An operation satisfies waits registered on its object, in their order. -/
theorem Effect.waiters {d d' : Dispatcher O T} {o : O} {takes : List (Take O T)}
    (h : Effect d o d' takes) : (takes.map Take.waiter).Sublist (d.lists (.object o)) := by
  rcases h with ⟨rfl, -⟩ | ⟨x, rfl, -⟩
  · exact List.nil_sublist _
  · exact waiters_satisfyList (d.setObject o x) (d.lists (.object o))

/-- An operation passes over no older wait that it could satisfy. -/
theorem Effect.oldest {d d' : Dispatcher O T} {o : O} {takes : List (Take O T)}
    (h : Effect d o d' takes) {k : Take O T} (hk : k ∈ takes) {older younger : List T}
    (hlist : d.lists (.object o) = older ++ k.waiter :: younger)
    (hnodup : (d.lists (.object o)).Nodup) {u : T} (hu : u ∈ older)
    (hempty : (d.blocks u).objects = [] → (d.blocks u).waitAll = false) : k.found.Quiet u := by
  rcases h with ⟨rfl, -⟩ | ⟨x, rfl, -⟩
  · simp at hk
  · rw [signal_eq, hlist] at hk
    exact oldest_satisfyList (d.setObject o x) (hlist ▸ hnodup) hk hu hempty

end Dispatcher
end Kernel
end XenonRecomp
