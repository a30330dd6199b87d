/-
# Files stay consistent while the layer is quiet

The bookkeeping of `OpenShareState` is keyed by path while the objects outlive
renames, and a removal runs after its path state is gone.  `Sound` is the
invariant that ties the two together: objects and records correspond one to one,
every object's key is the path of its file, and a condemned file that is still
on the device is marked sticky or waits for its removal.  Each operation has a
lemma that keeps `Sound`; the conditions of `Quiet` are what those of `rename`
and `remove` need, and `run_consistent` puts them together for whole runs.
-/

import Mathlib.Data.List.Pairwise
import XenonRecomp.Kernel.FileSharing

namespace XenonRecomp
namespace Kernel
namespace FileSharing

open Filesystem HostPathDevice
open Library Library.Transition

/-- A path state in use: it has records, names its own path, and its records have
ids of their own and admit each other. -/
structure PathState.WellFormed (path : PathState) (p : GuestPath) : Prop where
  nonempty : path.records ≠ []
  relative : path.relativePath = p
  nodup : (path.records.map Record.id).Nodup
  compatible : path.records.Pairwise fun a b => Compatible a.access a.share b.access b.share

/-- An object's record. -/
def Record.Of (r : Record) (i : ℕ) (o : FileObject) : Prop :=
  r.id = i ∧ r.access = o.access ∧ r.share = o.share

namespace IoSystem

/-- The invariant of the layer. -/
structure Sound (s : IoSystem) : Prop where
  path : ∀ p path, s.share.paths p = some path → path.WellFormed p
  live : ∀ i o, s.objects i = some o →
    ∃ path, s.share.paths o.key = some path ∧ ∃ r ∈ path.records, r.Of i o
  owned : ∀ p path, s.share.paths p = some path → ∀ r ∈ path.records,
    ∃ o, s.objects r.id = some o ∧ o.key = p
  denotes : ∀ i o, s.objects i = some o → s.fileAt o.key = some o.file ∧ o.resolved = o.key
  fresh : ∀ i o, s.objects i = some o → i < s.share.nextId
  doomed : ∀ p f, s.fileAt p = some f → f ∈ s.condemned →
    (∃ path, s.share.paths p = some path ∧ path.stickyDeletePending = true) ∨ p ∈ s.removals
  removal : ∀ p ∈ s.removals, s.share.paths p = none ∧ ∃ f ∈ s.condemned, s.fileAt p = some f
  nodup : s.removals.Nodup
  condemned_lt : ∀ f ∈ s.condemned, f < s.device.tree.next

/-- Nothing is open at the start. -/
theorem boot_sound (device : HostPathDevice) : (boot device).Sound where
  path := nofun
  live := nofun
  owned := nofun
  denotes := nofun
  fresh := nofun
  doomed := nofun
  removal := nofun
  nodup := List.nodup_nil
  condemned_lt := nofun

variable {s : IoSystem} {p q : GuestPath} {i j id f : ℕ} {o a b : FileObject} {path : PathState}
  {r : Record} {host : Host}

/-- Two records of a path are compatible. -/
theorem PathState.WellFormed.pair (h : path.WellFormed p) {x y : Record} (hx : x ∈ path.records)
    (hy : y ∈ path.records) (hne : x.id ≠ y.id) :
    Compatible x.access x.share y.access y.share := by
  have : Std.Symm fun a b : Record => Compatible a.access a.share b.access b.share = true :=
    ⟨fun _ _ => Compatible.symm⟩
  refine h.compatible.forall hx hy ?_
  rintro rfl
  exact hne rfl

/-- The invariant says what the layer owes in a state. -/
theorem Sound.consistent (h : s.Sound) : s.Consistent where
  compatible := by
    intro i j a b hij ha hb hfile
    have hkey : a.key = b.key :=
      PathTree.fileAt_inj (h.denotes i a ha).1 (hfile ▸ (h.denotes j b hb).1)
    obtain ⟨path, hpath, x, hx, rfl, hxa, hxs⟩ := h.live i a ha
    obtain ⟨path', hpath', y, hy, rfl, hya, hys⟩ := h.live j b hb
    obtain rfl : path = path' := by simpa [hkey, hpath'] using hpath.symm
    rw [← hxa, ← hxs, ← hya, ← hys]
    exact PathState.WellFormed.pair (h.path _ _ hpath) hx hy hij
  named := by
    intro i o ho
    obtain ⟨path, hpath, r, hr, hof⟩ := h.live i o ho
    obtain ⟨hfile, hresolved⟩ := h.denotes i o ho
    refine ⟨path, hpath, ⟨r, hr, hof⟩, ?_, ?_⟩
    · rw [(h.path _ _ hpath).relative]
      exact hfile
    · rw [hresolved]
      exact hfile

/-- No object has a key without a path state. -/
theorem Sound.key_ne (h : s.Sound) (ho : s.objects i = some o) (hp : s.share.paths p = none) :
    o.key ≠ p := by
  rintro rfl
  obtain ⟨path, hpath, -⟩ := h.live i o ho
  simp [hp] at hpath

/-- The record of an object. -/
theorem Sound.recordOf (h : s.Sound) (ho : s.objects i = some o) :
    ∃ path r, s.share.paths o.key = some path ∧ r ∈ path.records ∧ r.Of i o ∧
      s.share.recordOf o.key i = some (path, r) := by
  obtain ⟨path, hpath, r, hr, hof⟩ := h.live i o ho
  refine ⟨path, r, hpath, hr, hof, OpenShareState.recordOf_eq_some.mpr ⟨hpath, ?_⟩⟩
  cases hfind : path.records.find? (·.id = i) with
  | none => simpa [hof.1] using List.find?_eq_none.mp hfind r hr
  | some x =>
      have hx : x.id = i := by simpa using List.find?_some hfind
      have hmem := List.mem_of_find?_eq_some hfind
      rw [List.inj_on_of_nodup_map (h.path _ _ hpath).nodup hmem hr (hx.trans hof.1.symm)]

/-! ### Changes of the device -/

/-- A path that an object or a removal depends on. -/
def Used (s : IoSystem) (q : GuestPath) : Prop :=
  (∃ i o, s.objects i = some o ∧ o.key = q) ∨ q ∈ s.removals

/-- The device may change where no object and no removal depends on it. -/
theorem Sound.withDevice (h : s.Sound) {d : HostPathDevice}
    (hkeep : ∀ q f, s.fileAt q = some f → s.Used q → d.tree.fileAt q = some f)
    (hback : ∀ q f, d.tree.fileAt q = some f → f < s.device.tree.next → s.fileAt q = some f)
    (hnext : s.device.tree.next ≤ d.tree.next) : Sound { s with device := d } where
  path := h.path
  live := h.live
  owned := h.owned
  denotes := by
    intro i o ho
    obtain ⟨hfile, hresolved⟩ := h.denotes i o ho
    exact ⟨hkeep _ _ hfile (.inl ⟨i, o, ho, rfl⟩), hresolved⟩
  fresh := h.fresh
  doomed := fun p f hf hc => h.doomed p f (hback p f hf (h.condemned_lt f hc)) hc
  removal := by
    intro p hp
    obtain ⟨hnone, f, hc, hf⟩ := h.removal p hp
    exact ⟨hnone, f, hc, hkeep _ _ hf (.inr hp)⟩
  nodup := h.nodup
  condemned_lt := fun f hc => (h.condemned_lt f hc).trans_le hnext

/-- Growth keeps the invariant. -/
theorem Sound.grows (h : s.Sound) {d : HostPathDevice} (hd : Grows s.device d p) :
    Sound { s with device := d } := by
  refine h.withDevice (fun q f hq _ => hd.fileAt hq) (fun q f hq hlt => ?_) hd.next_le
  rcases hd.fileAt_inv hq with hold | ⟨-, rfl⟩
  · exact hold
  · exact absurd hlt (lt_irrefl _)

/-- A path that is not used may be cleared. -/
theorem Sound.cleared (h : s.Sound) {d : HostPathDevice} {replace : Bool}
    (hd : Cleared s.device d p replace) (hp : replace = true → d ≠ s.device → ¬s.Used p) :
    Sound { s with device := d } := by
  by_cases hsame : d = s.device
  · rw [hsame]
    exact h
  rcases hd with rfl | ⟨hreplace, herase, rfl⟩
  · exact absurd rfl hsame
  · refine h.withDevice (fun q f hq hused => ?_) (fun q f hq _ => ?_) le_rfl
    · have hne : q ≠ p := by
        rintro rfl
        exact hp hreplace hsame hused
      rw [PathTree.fileAt_erase, if_neg hne]
      exact hq
    · rw [PathTree.fileAt_erase] at hq
      split at hq
      · cases hq
      · exact hq

/-! ### Changes of the records -/

/-- Marks of records and numbers of handles are no part of the invariant. -/
theorem Sound.withMarks (h : s.Sound) {g : Record → Record}
    (hg : ∀ r, (g r).id = r.id ∧ (g r).access = r.access ∧ (g r).share = r.share)
    (hpath : s.share.paths p = some path) :
    Sound { s with share := s.share.set p (some { path with records := path.records.map g }) } where
  path := by
    intro q path' hq
    by_cases hqp : q = p
    · subst hqp
      obtain rfl : { path with records := path.records.map g } = path' := by simpa using hq
      have hwf := h.path _ _ hpath
      refine ⟨by simpa using hwf.nonempty, hwf.relative, ?_, ?_⟩
      · simpa [Function.comp_def, hg] using hwf.nodup
      · simpa [List.pairwise_map, hg] using hwf.compatible
    · exact h.path q path' (by simpa [hqp] using hq)
  live := by
    intro i o ho
    obtain ⟨path', hpath', r, hr, hof⟩ := h.live i o ho
    by_cases hkey : o.key = p
    · subst hkey
      obtain rfl : path = path' := by simpa [hpath] using hpath'
      refine ⟨_, Function.update_self .., g r, List.mem_map_of_mem hr, ?_⟩
      simpa [Record.Of, hg] using hof
    · exact ⟨path', by simpa [hkey] using hpath', r, hr, hof⟩
  owned := by
    intro q path' hq x hx
    by_cases hqp : q = p
    · subst hqp
      obtain rfl : { path with records := path.records.map g } = path' := by simpa using hq
      obtain ⟨y, hy, rfl⟩ := List.mem_map.mp hx
      simpa [hg] using h.owned q path hpath y hy
    · exact h.owned q path' (by simpa [hqp] using hq) x hx
  denotes := h.denotes
  fresh := h.fresh
  doomed := by
    intro q f hf hc
    refine (h.doomed q f hf hc).imp_left fun ⟨path', hpath', hsticky⟩ => ?_
    by_cases hqp : q = p
    · subst hqp
      obtain rfl : path = path' := by simpa [hpath] using hpath'
      exact ⟨_, Function.update_self .., hsticky⟩
    · exact ⟨path', by simpa [hqp] using hpath', hsticky⟩
  removal := by
    intro q hq
    obtain ⟨hnone, hfile⟩ := h.removal q hq
    have hqp : q ≠ p := by
      rintro rfl
      simp [hpath] at hnone
    exact ⟨by simpa [hqp] using hnone, hfile⟩
  nodup := h.nodup
  condemned_lt := h.condemned_lt

/-- The number of handles of an object is no part of the invariant. -/
theorem Sound.withHandles (h : s.Sound) (ho : s.objects id = some o) (n : ℕ) :
    Sound { s with objects := Function.update s.objects id (some { o with handles := n }) } := by
  have hback : ∀ i o', Function.update s.objects id (some { o with handles := n }) i = some o' →
      ∃ a, s.objects i = some a ∧ a.key = o'.key ∧ a.resolved = o'.resolved ∧
        a.access = o'.access ∧ a.share = o'.share ∧ a.file = o'.file := by
    intro i o' ho'
    by_cases hi : i = id
    · subst hi
      obtain rfl : { o with handles := n } = o' := by simpa using ho'
      exact ⟨o, ho, rfl, rfl, rfl, rfl, rfl⟩
    · exact ⟨o', by simpa [hi] using ho', rfl, rfl, rfl, rfl, rfl⟩
  refine ⟨h.path, ?_, ?_, ?_, ?_, h.doomed, h.removal, h.nodup, h.condemned_lt⟩
  · intro i o' ho'
    obtain ⟨a, ha, hkey, -, haccess, hshare, -⟩ := hback i o' ho'
    simpa [Record.Of, hkey, haccess, hshare] using h.live i a ha
  · intro p path hpath r hr
    obtain ⟨a, ha, hkey⟩ := h.owned p path hpath r hr
    by_cases hi : r.id = id
    · obtain rfl : o = a := by simpa [hi, ho] using ha
      exact ⟨{ o with handles := n }, by simp [hi], hkey⟩
    · exact ⟨a, by simpa [hi] using ha, hkey⟩
  · intro i o' ho'
    obtain ⟨a, ha, hkey, hresolved, -, -, hfile⟩ := hback i o' ho'
    have hdenotes := h.denotes i a ha
    rw [hkey, hresolved, hfile] at hdenotes
    exact hdenotes
  · intro i o' ho'
    obtain ⟨a, ha, -⟩ := hback i o' ho'
    exact h.fresh i a ha

/-! ### Opening -/

/-- An object that `open` makes on a path. -/
def opened (p : GuestPath) (o : OpenOptions) (f : ℕ) : FileObject :=
  { key := p, resolved := p, access := o.access, share := o.share, file := f }

/-- The state after an open: a new record and a new object. -/
def entered (s : IoSystem) (p : GuestPath) (path : PathState) (o : OpenOptions) (pending : Bool)
    (f : ℕ) : IoSystem :=
  { s with
    share := s.share.admitOpen p path ⟨s.share.nextId, o.access, o.share, pending⟩
    objects := Function.update s.objects s.share.nextId (some (opened p o f)) }

/-- The ids in use are below the next one. -/
theorem Sound.id_lt (h : s.Sound) (hpath : s.share.paths p = some path) (hr : r ∈ path.records) :
    r.id < s.share.nextId := by
  obtain ⟨o, ho, -⟩ := h.owned p path hpath r hr
  exact h.fresh _ _ ho

/-- A record that is compatible with those of a path that is not sticky may enter
with its object. -/
theorem Sound.enter (h : s.Sound) {opts : OpenOptions} (pending : Bool)
    (hpath : path = (s.share.paths p).getD {}) (hsticky : path.stickyDeletePending = false)
    (hall : ∀ r ∈ path.records, Compatible opts.access opts.share r.access r.share)
    (hf : s.fileAt p = some f) (hp : p ∉ s.removals) :
    (s.entered p path opts pending f).Sound := by
  have hold : ∀ r ∈ path.records, s.share.paths p = some path := by
    intro r hr
    cases hcase : s.share.paths p with
    | none => simp [hpath, hcase] at hr
    | some path' => simp [hpath, hcase]
  have hlt : ∀ r ∈ path.records, r.id < s.share.nextId := fun r hr => h.id_lt (hold r hr) hr
  refine ⟨?_, ?_, ?_, ?_, ?_, ?_, ?_, h.nodup, h.condemned_lt⟩
  · intro q path' hq
    by_cases hqp : q = p
    · subst hqp
      simp only [entered, OpenShareState.admitOpen, OpenShareState.set_paths, Function.update_self,
        Option.some.injEq] at hq
      subst hq
      refine ⟨by simp, rfl, ?_, ?_⟩
      · simp only [List.map_append, List.map_cons, List.map_nil]
        refine List.Nodup.append ?_ (List.nodup_singleton _) ?_
        · cases hcase : s.share.paths q with
          | none => simp [hpath, hcase]
          | some old => simpa [hpath, hcase] using (h.path _ _ hcase).nodup
        · intro i hi hi'
          obtain ⟨r, hr, rfl⟩ := List.mem_map.mp hi
          exact absurd (List.mem_singleton.mp hi') (hlt r hr).ne
      · refine List.pairwise_append.mpr ⟨?_, List.pairwise_singleton _ _, ?_⟩
        · cases hcase : s.share.paths q with
          | none => simp [hpath, hcase]
          | some old => simpa [hpath, hcase] using (h.path _ _ hcase).compatible
        · intro x hx y hy
          obtain rfl := List.mem_singleton.mp hy
          exact Compatible.symm (hall x hx)
    · exact h.path q path' (by simpa [entered, OpenShareState.admitOpen, hqp] using hq)
  · intro i o ho
    by_cases hi : i = s.share.nextId
    · subst hi
      obtain rfl : opened p opts f = o := by simpa [entered] using ho
      exact ⟨_, Function.update_self .., _,
        List.mem_append_right _ (List.mem_singleton_self _), rfl, rfl, rfl⟩
    · obtain ⟨path', hpath', r, hr, hof⟩ := h.live i o (by simpa [entered, hi] using ho)
      by_cases hkey : o.key = p
      · subst hkey
        obtain rfl : path = path' := by simpa [hpath'] using hpath
        exact ⟨_, Function.update_self .., r, List.mem_append_left _ hr, hof⟩
      · exact ⟨path', by simpa [entered, OpenShareState.admitOpen, hkey] using hpath', r, hr, hof⟩
  · intro q path' hq r hr
    have hother : ∀ old, s.share.paths q = some old → r ∈ old.records →
        ∃ o, (s.entered p path opts pending f).objects r.id = some o ∧ o.key = q := by
      intro old hold hr
      obtain ⟨o, ho, hkey⟩ := h.owned q old hold r hr
      exact ⟨o, by simpa [entered, (h.fresh _ _ ho).ne] using ho, hkey⟩
    by_cases hqp : q = p
    · subst hqp
      simp only [entered, OpenShareState.admitOpen, OpenShareState.set_paths, Function.update_self,
        Option.some.injEq] at hq
      subst hq
      rcases List.mem_append.mp hr with hr | hr
      · exact hother path (hold r hr) hr
      · obtain rfl := List.mem_singleton.mp hr
        exact ⟨opened q opts f, by simp [entered], rfl⟩
    · exact hother path' (by simpa [entered, OpenShareState.admitOpen, hqp] using hq) hr
  · intro i o ho
    by_cases hi : i = s.share.nextId
    · subst hi
      obtain rfl : opened p opts f = o := by simpa [entered] using ho
      exact ⟨hf, rfl⟩
    · exact h.denotes i o (by simpa [entered, hi] using ho)
  · intro i o ho
    by_cases hi : i = s.share.nextId
    · subst hi
      exact Nat.lt_succ_self _
    · exact Nat.lt_succ_of_lt (h.fresh i o (by simpa [entered, hi] using ho))
  · intro q g hg hc
    rcases h.doomed q g hg hc with ⟨old, hq, hmark⟩ | hq
    · refine .inl ⟨old, ?_, hmark⟩
      have hqp : q ≠ p := by
        rintro rfl
        simp [hpath, hq, hmark] at hsticky
      simpa [entered, OpenShareState.admitOpen, hqp] using hq
    · exact .inr hq
  · intro q hq
    obtain ⟨hnone, hfile⟩ := h.removal q hq
    have hqp : q ≠ p := by
      rintro rfl
      exact hp hq
    exact ⟨by simpa [entered, OpenShareState.admitOpen, hqp] using hnone, hfile⟩

/-! ### Closing -/

/-- Dropping an id from records with ids of their own. -/
theorem mem_eraseP_id {l : List Record} (hl : (l.map Record.id).Nodup) :
    r ∈ l.eraseP (·.id = i) ↔ r ∈ l ∧ r.id ≠ i := by
  induction l with
  | nil => simp
  | cons x l ih =>
      obtain ⟨hx, hl⟩ := List.nodup_cons.mp hl
      by_cases hi : x.id = i
      · rw [List.eraseP_cons_of_pos (by simpa using hi)]
        constructor
        · intro hr
          refine ⟨List.mem_cons_of_mem _ hr, ?_⟩
          rintro rfl
          exact hx (hi ▸ List.mem_map_of_mem hr)
        · rintro ⟨hr, hne⟩
          rcases List.mem_cons.mp hr with rfl | hr
          · exact absurd hi hne
          · exact hr
      · rw [List.eraseP_cons_of_neg (by simpa using hi), List.mem_cons, ih hl, List.mem_cons]
        constructor
        · rintro (rfl | ⟨hr, hne⟩)
          · exact ⟨.inl rfl, hi⟩
          · exact ⟨.inr hr, hne⟩
        · rintro ⟨rfl | hr, hne⟩
          · exact .inl rfl
          · exact .inr ⟨hr, hne⟩

section Leaving

variable (h : s.Sound) (ho : s.objects id = some o) (hpath : s.share.paths o.key = some path)
include h ho

/-- Only the records of its own path have an object's id. -/
theorem Sound.id_ne (hq : s.share.paths q = some path) (hr : r ∈ path.records)
    (hqk : q ≠ o.key) : r.id ≠ id := by
  rintro rfl
  obtain ⟨a, ha, hkey⟩ := h.owned q path hq r hr
  obtain rfl : o = a := by simpa [ho] using ha
  exact hqk hkey.symm

omit ho in
/-- Records with other ids keep their objects when an object goes. -/
theorem Sound.owned_of_ne (hq : s.share.paths q = some path) (hr : r ∈ path.records)
    (hne : r.id ≠ id) : ∃ a, Function.update s.objects id none r.id = some a ∧ a.key = q := by
  obtain ⟨a, ha, hkey⟩ := h.owned q path hq r hr
  exact ⟨a, by simpa [hne] using ha, hkey⟩

include hpath

/-- The objects that stay keep their records. -/
theorem Sound.live_of_ne (ha : Function.update s.objects id none i = some a) :
    s.objects i = some a ∧
      ((a.key = o.key ∧ ∃ x ∈ path.records.eraseP (·.id = id), x.Of i a) ∨
        (a.key ≠ o.key ∧ ∃ path', s.share.paths a.key = some path' ∧
          ∃ x ∈ path'.records, x.Of i a)) := by
  have hi : i ≠ id := by
    rintro rfl
    simp at ha
  have ha : s.objects i = some a := by simpa [hi] using ha
  obtain ⟨path', hpath', x, hx, hof⟩ := h.live i a ha
  refine ⟨ha, ?_⟩
  by_cases hkey : a.key = o.key
  · obtain rfl : path = path' := by simpa [hkey, hpath] using hpath'
    exact .inl ⟨hkey, x, (mem_eraseP_id (h.path _ _ hpath).nodup).mpr ⟨hx, hof.1 ▸ hi⟩, hof⟩
  · exact .inr ⟨hkey, path', hpath', x, hx, hof⟩

omit ho in
/-- No removal waits for the path of an object. -/
theorem Sound.key_notMem (hq : q ∈ s.removals) : q ≠ o.key := by
  rintro rfl
  simp [(h.removal _ hq).1] at hpath

variable {mark : Bool} {c : List ℕ} (hsticky : path.stickyDeletePending = true → mark = true)
  (hc : ∀ f, f ∈ c ↔ f ∈ s.condemned ∨ mark = true ∧ f = o.file)
include hsticky hc

/-- A condemned file is marked, waits for its removal, or is the one of the
object that goes. -/
theorem Sound.doomed_of_leave (hf : s.fileAt q = some f) (hfc : f ∈ c) :
    q = o.key ∧ mark = true ∨ q ≠ o.key ∧
      ((∃ path, s.share.paths q = some path ∧ path.stickyDeletePending = true) ∨
        q ∈ s.removals) := by
  obtain ⟨hfile, -⟩ := h.denotes id o ho
  by_cases hqk : q = o.key
  · subst hqk
    refine .inl ⟨rfl, ?_⟩
    rcases (hc f).mp hfc with hold | ⟨hmark, -⟩
    · rcases h.doomed _ f hf hold with ⟨path', hpath', hs⟩ | hin
      · obtain rfl : path = path' := by simpa [hpath] using hpath'
        exact hsticky hs
      · exact absurd rfl (h.key_notMem hpath hin)
    · exact hmark
  · rcases (hc f).mp hfc with hold | ⟨-, rfl⟩
    · exact .inr ⟨hqk, h.doomed q f hf hold⟩
    · exact absurd (PathTree.fileAt_inj hf hfile) hqk

omit hpath hsticky in
theorem Sound.condemned_lt_of_leave (hfc : f ∈ c) : f < s.device.tree.next := by
  rcases (hc f).mp hfc with hold | ⟨-, rfl⟩
  · exact h.condemned_lt f hold
  · exact PathTree.fileAt_lt (h.denotes id o ho).1

/-- The last record of a path goes with the path state, which leaves the removal
to do if it was marked. -/
theorem Sound.leaveLast (hempty : path.records.eraseP (·.id = id) = []) : Sound { s with
    objects := Function.update s.objects id none
    condemned := c
    share := s.share.set o.key none
    removals := s.removals ++ if mark then [o.key] else [] } := by
  have hset : ∀ q path', Function.update s.share.paths o.key none q = some path' →
      q ≠ o.key ∧ s.share.paths q = some path' := by
    intro q path' hq
    have hqk : q ≠ o.key := by
      rintro rfl
      simp at hq
    exact ⟨hqk, by simpa [hqk] using hq⟩
  refine ⟨?_, ?_, ?_, ?_, ?_, ?_, ?_, ?_,
    fun f hf => h.condemned_lt_of_leave ho hc hf⟩
  · intro q path' hq
    exact h.path q path' (hset q path' hq).2
  · intro i a ha
    rcases (h.live_of_ne ho hpath ha).2 with ⟨-, x, hx, -⟩ | ⟨hkey, path', hpath', hx⟩
    · simp [hempty] at hx
    · exact ⟨path', by simpa [hkey] using hpath', hx⟩
  · intro q path' hq x hx
    obtain ⟨hqk, hq⟩ := hset q path' hq
    exact h.owned_of_ne hq hx (h.id_ne ho hq hx hqk)
  · intro i a ha
    exact h.denotes i a (h.live_of_ne ho hpath ha).1
  · intro i a ha
    exact h.fresh i a (h.live_of_ne ho hpath ha).1
  · intro q f hf hfc
    rcases h.doomed_of_leave ho hpath hsticky hc hf hfc with ⟨rfl, hmark⟩ | ⟨hqk, hold⟩
    · exact .inr (by simp [hmark])
    · exact hold.imp (fun ⟨path', hq, hs⟩ => ⟨path', by simpa [hqk] using hq, hs⟩)
        (List.mem_append_left _)
  · intro q hq
    rcases List.mem_append.mp hq with hq | hq
    · obtain ⟨hnone, f, hfc, hf⟩ := h.removal q hq
      refine ⟨?_, f, (hc f).mpr (.inl hfc), hf⟩
      simpa [h.key_notMem hpath hq] using hnone
    · split at hq
      · next hmark =>
          obtain rfl := List.mem_singleton.mp hq
          exact ⟨by simp, o.file, (hc _).mpr (.inr ⟨hmark, rfl⟩), (h.denotes id o ho).1⟩
      · simp at hq
  · refine h.nodup.append (by split <;> simp) fun q hq hq' => ?_
    split at hq'
    · exact h.key_notMem hpath hq (List.mem_singleton.mp hq')
    · simp at hq'

/-- A record that is not the last of its path goes, and its mark stays. -/
theorem Sound.leaveRest (hrest : path.records.eraseP (·.id = id) ≠ []) : Sound { s with
    objects := Function.update s.objects id none
    condemned := c
    share := s.share.set o.key (some { path with
      records := path.records.eraseP (·.id = id), stickyDeletePending := mark }) } := by
  have hwf := h.path _ _ hpath
  obtain ⟨left, hleft⟩ : ∃ left : PathState, left = { path with
      records := path.records.eraseP (·.id = id), stickyDeletePending := mark } := ⟨_, rfl⟩
  have hrecords : left.records = path.records.eraseP (·.id = id) := by rw [hleft]
  rw [← hleft]
  have hset : ∀ q path', Function.update s.share.paths o.key (some left) q = some path' →
      q = o.key ∧ path' = left ∨ q ≠ o.key ∧ s.share.paths q = some path' := by
    intro q path' hq
    by_cases hqk : q = o.key
    · exact .inl ⟨hqk, by simpa [hqk] using hq.symm⟩
    · exact .inr ⟨hqk, by simpa [hqk] using hq⟩
  refine ⟨?_, ?_, ?_, ?_, ?_, ?_, ?_, h.nodup,
    fun f hf => h.condemned_lt_of_leave ho hc hf⟩
  · intro q path' hq
    rcases hset q path' hq with ⟨rfl, rfl⟩ | ⟨-, hq⟩
    · rw [hleft]
      exact ⟨hrest, hwf.relative, hwf.nodup.sublist (List.eraseP_sublist.map _),
        hwf.compatible.sublist List.eraseP_sublist⟩
    · exact h.path q path' hq
  · intro i a ha
    rcases (h.live_of_ne ho hpath ha).2 with ⟨hkey, hx⟩ | ⟨hkey, path', hpath', hx⟩
    · exact ⟨left, by simp [hkey], by rwa [hrecords]⟩
    · exact ⟨path', by simpa [hkey] using hpath', hx⟩
  · intro q path' hq x hx
    rcases hset q path' hq with ⟨rfl, rfl⟩ | ⟨hqk, hq⟩
    · rw [hrecords] at hx
      obtain ⟨hx, hne⟩ := (mem_eraseP_id hwf.nodup).mp hx
      exact h.owned_of_ne hpath hx hne
    · exact h.owned_of_ne hq hx (h.id_ne ho hq hx hqk)
  · intro i a ha
    exact h.denotes i a (h.live_of_ne ho hpath ha).1
  · intro i a ha
    exact h.fresh i a (h.live_of_ne ho hpath ha).1
  · intro q f hf hfc
    rcases h.doomed_of_leave ho hpath hsticky hc hf hfc with ⟨rfl, hmark⟩ | ⟨hqk, hold⟩
    · exact .inl ⟨left, by simp, by rw [hleft]; exact hmark⟩
    · exact hold.imp_left fun ⟨path', hq, hs⟩ => ⟨path', by simpa [hqk] using hq, hs⟩
  · intro q hq
    obtain ⟨hnone, f, hfc, hf⟩ := h.removal q hq
    refine ⟨?_, f, (hc f).mpr (.inl hfc), hf⟩
    simpa [h.key_notMem hpath hq] using hnone

end Leaving

/-- The last handle of an object may be closed: its record goes, and its file is
condemned when deletion was pending. -/
theorem Sound.leave (h : s.Sound) (ho : s.objects id = some o) {c : List ℕ}
    (hc : c = if s.share.deletePending o.key id then o.file :: s.condemned else s.condemned) :
    (release { s with objects := Function.update s.objects id none, condemned := c }
      o.key id).Sound := by
  obtain ⟨path, r, hpath, hr, -, hrec⟩ := h.recordOf ho
  have hfind := (OpenShareState.recordOf_eq_some.mp hrec).2
  have hpending : s.share.deletePending o.key id =
      (path.stickyDeletePending || r.deletePending) := by
    simp [OpenShareState.deletePending, hpath, hfind]
  have hmem : ∀ f, f ∈ c ↔ f ∈ s.condemned ∨
      (path.stickyDeletePending || r.deletePending) = true ∧ f = o.file := by
    intro f
    rw [hc, hpending]
    split
    · next hmark => simp [hmark, or_comm]
    · next hmark => simp [hmark]
  have hsticky : path.stickyDeletePending = true →
      (path.stickyDeletePending || r.deletePending) = true := by
    intro hs
    simp [hs]
  have hrelative := (h.path _ _ hpath).relative
  unfold release OpenShareState.release
  dsimp only
  rw [hrec]
  dsimp only
  split
  · next hempty =>
      have hlast := h.leaveLast ho hpath hsticky hmem hempty
      rw [Bool.or_comm r.deletePending, hrelative]
      convert hlast using 3
      split <;> rfl
  · next hrest =>
      rw [Option.toList_none, List.append_nil]
      exact h.leaveRest ho hpath hsticky hmem hrest

/-! ### Renaming -/

/-- **A rename moves the only object of a path.**  Nothing else depends on the
path or on what is below it, and the target is free. -/
theorem Sound.moved (h : s.Sound) (ho : s.objects id = some o)
    (hpath : s.share.paths o.key = some path) (hrecords : path.records = [r]) (hid : r.id = id)
    (hsticky : path.stickyDeletePending = false) (hidle : s.IdleBelow o.key)
    (hmove : s.device.tree.Movable o.key p) : Sound { s with
      device := { s.device with tree := s.device.tree.move o.key p hmove }
      share := (s.share.set o.key none).set p (some { path with relativePath := p })
      objects := Function.update s.objects id (some { o with key := p, resolved := p }) } := by
  obtain ⟨hfile, -⟩ := h.denotes id o ho
  -- The target is free, so that no path state, object or removal is there.
  have htarget : s.fileAt p = none := by simp [fileAt, PathTree.fileAt, hmove.2.2.2.1]
  have hpaths : ∀ path', s.share.paths p ≠ some path' := by
    intro path' hp
    obtain ⟨x, hx⟩ := List.exists_mem_of_ne_nil _ (h.path p path' hp).nonempty
    obtain ⟨a, ha, rfl⟩ := h.owned p path' hp x hx
    simp [(h.denotes _ a ha).1] at htarget
  have hset : ∀ q path', Function.update (Function.update s.share.paths o.key none) p
      (some { path with relativePath := p }) q = some path' →
      q = p ∧ path' = { path with relativePath := p } ∨
        q ≠ o.key ∧ q ≠ p ∧ s.share.paths q = some path' := by
    intro q path' hq
    by_cases hqp : q = p
    · exact .inl ⟨hqp, by simpa [hqp] using hq.symm⟩
    · by_cases hqk : q = o.key
      · subst hqk
        simp [hqp] at hq
      · exact .inr ⟨hqk, hqp, by simpa [hqp, hqk] using hq⟩
  have hkeep : ∀ q path', q ≠ o.key → s.share.paths q = some path' →
      Function.update (Function.update s.share.paths o.key none) p
        (some { path with relativePath := p }) q = some path' := by
    intro q path' hqk hq
    have hqp : q ≠ p := by
      rintro rfl
      exact hpaths path' hq
    simpa [hqp, hqk] using hq
  -- The other objects have other keys, and none is below the source.
  have hobjects : ∀ i a, Function.update s.objects id (some { o with key := p, resolved := p }) i =
      some a → i = id ∧ a = { o with key := p, resolved := p } ∨
        i ≠ id ∧ s.objects i = some a ∧ a.key ≠ o.key := by
    intro i a ha
    by_cases hi : i = id
    · exact .inl ⟨hi, by simpa [hi] using ha.symm⟩
    · have ha : s.objects i = some a := by simpa [hi] using ha
      refine .inr ⟨hi, ha, fun hkey => hi ?_⟩
      obtain ⟨path', hpath', x, hx, hof⟩ := h.live i a ha
      obtain rfl : path = path' := by simpa [hkey, hpath] using hpath'
      obtain rfl : x = r := by simpa [hrecords] using hx
      rw [← hof.1, hid]
  have hbelow : ∀ i a, s.objects i = some a → a.key ≠ o.key → ¬o.key <+: a.key :=
    fun i a ha hne hbelow => hne (hidle.1 i a ha hbelow)
  have hremoval : ∀ q ∈ s.removals, q ≠ o.key ∧ ¬o.key <+: q := by
    intro q hq
    have hqk := h.key_notMem hpath hq
    exact ⟨hqk, fun hbelow => hqk (hidle.2 q hq hbelow)⟩
  refine ⟨?_, ?_, ?_, ?_, ?_, ?_, ?_, h.nodup, h.condemned_lt⟩
  · intro q path' hq
    rcases hset q path' hq with ⟨rfl, rfl⟩ | ⟨-, -, hq⟩
    · have hwf := h.path _ _ hpath
      exact ⟨hwf.nonempty, rfl, hwf.nodup, hwf.compatible⟩
    · exact h.path q path' hq
  · intro i a ha
    rcases hobjects i a ha with ⟨rfl, rfl⟩ | ⟨-, ha, hkey⟩
    · obtain ⟨path', hpath', x, hx, hof⟩ := h.live i o ho
      obtain rfl : path = path' := by simpa [hpath] using hpath'
      exact ⟨_, Function.update_self .., x, hx, hof⟩
    · obtain ⟨path', hpath', hx⟩ := h.live i a ha
      exact ⟨path', hkeep _ _ hkey hpath', hx⟩
  · intro q path' hq x hx
    rcases hset q path' hq with ⟨rfl, rfl⟩ | ⟨hqk, -, hq⟩
    · obtain rfl : x = r := by simpa [hrecords] using hx
      exact ⟨{ o with key := q, resolved := q }, by simp [hid], rfl⟩
    · obtain ⟨a, ha, hkey⟩ := h.owned q path' hq x hx
      exact ⟨a, by simpa [h.id_ne ho hq hx hqk] using ha, hkey⟩
  · intro i a ha
    rcases hobjects i a ha with ⟨rfl, rfl⟩ | ⟨-, ha, hkey⟩
    · exact ⟨PathTree.fileAt_move_dst hmove hfile, rfl⟩
    · obtain ⟨haf, hresolved⟩ := h.denotes i a ha
      exact ⟨PathTree.fileAt_move_other hmove (hbelow i a ha hkey) haf, hresolved⟩
  · intro i a ha
    rcases hobjects i a ha with ⟨rfl, rfl⟩ | ⟨-, ha, -⟩
    · exact h.fresh i o ho
    · exact h.fresh i a ha
  · intro q f hf hc
    obtain ⟨q', hrebase, hf⟩ := (PathTree.fileAt_move hmove).mp hf
    rcases h.doomed q' f hf hc with ⟨path', hq', hs⟩ | hq'
    · have hqk : q' ≠ o.key := by
        rintro rfl
        obtain rfl : path = path' := by simpa [hpath] using hq'
        simp [hsticky] at hs
      obtain ⟨x, hx⟩ := List.exists_mem_of_ne_nil _ (h.path q' path' hq').nonempty
      obtain ⟨a, ha, rfl⟩ := h.owned q' path' hq' x hx
      obtain rfl : a.key = q := by rwa [PathTree.rebase_of_not (hbelow _ a ha hqk)] at hrebase
      exact .inl ⟨path', hkeep _ _ hqk hq', hs⟩
    · obtain rfl : q' = q := by rwa [PathTree.rebase_of_not (hremoval q' hq').2] at hrebase
      exact .inr hq'
  · intro q hq
    obtain ⟨hnone, f, hc, hf⟩ := h.removal q hq
    obtain ⟨hqk, hbelow⟩ := hremoval q hq
    have hqp : q ≠ p := by
      rintro rfl
      simp [htarget] at hf
    exact ⟨by simpa [hqp, hqk] using hnone, f, hc, PathTree.fileAt_move_other hmove hbelow hf⟩

/-! ### Removing -/

/-- A removal that is carried out takes a condemned file that nothing denotes. -/
theorem Sound.removed (h : s.Sound) (hp : p ∈ s.removals) (herase : s.device.tree.Erasable p) :
    Sound { s with
      device := { s.device with tree := s.device.tree.erase p herase }
      removals := s.removals.erase p } := by
  have hfile : ∀ q, q ≠ p → ({ s.device with tree := s.device.tree.erase p herase } :
      HostPathDevice).tree.fileAt q = s.fileAt q := by
    intro q hq
    exact (PathTree.fileAt_erase herase).trans (if_neg hq)
  refine ⟨h.path, h.live, h.owned, ?_, h.fresh, ?_, ?_, h.nodup.erase p, h.condemned_lt⟩
  · intro i o ho
    obtain ⟨hf, hresolved⟩ := h.denotes i o ho
    exact ⟨(hfile _ (h.key_ne ho (h.removal p hp).1)).trans hf, hresolved⟩
  · intro q f hf hc
    have hqp : q ≠ p := by
      rintro rfl
      simp [fileAt, PathTree.fileAt_erase] at hf
    refine (h.doomed q f ((hfile q hqp).symm.trans hf) hc).imp_right fun hq => ?_
    exact (List.mem_erase_of_ne hqp).mpr hq
  · intro q hq
    obtain ⟨hqp, hq⟩ := h.nodup.mem_erase_iff.mp hq
    obtain ⟨hnone, f, hc, hf⟩ := h.removal q hq
    exact ⟨hnone, f, hc, (hfile q hqp).trans hf⟩

/-! ### The calls -/

/-- The device call of an open grows the device, and an open that succeeds has a
file. -/
theorem openDevice_cases (d : HostPathDevice) (o : KernelOpenOptions) (found : Option Bool)
    (hfound : found = some true → ∃ f, d.tree.fileAt p = some f) :
    Grows d (openDevice d p o found host).1 p ∧
      ∀ action, (openDevice d p o found host).2 = .ok action →
        ∃ f, (openDevice d p o found host).1.tree.fileAt p = some f := by
  unfold openDevice
  split
  · next htrue =>
      cases o.file.disposition with
      | create => exact ⟨.inl rfl, by rintro action ⟨⟩⟩
      | overwrite => exact ⟨.inl rfl, by rintro action ⟨⟩⟩
      | overwriteIf => exact ⟨.inl rfl, by rintro action ⟨⟩⟩
      | supersede => exact ⟨.inl rfl, by rintro action ⟨⟩⟩
      | «open» => exact ⟨.inl rfl, fun _ _ => hfound htrue⟩
      | openIf => exact ⟨.inl rfl, fun _ _ => hfound htrue⟩
  split
  · have hcreate := @createDirectory_grows d p host
    split
    · exact ⟨.inl rfl, by rintro action ⟨⟩⟩
    · exact ⟨.inl rfl, by rintro action ⟨⟩⟩
    all_goals
      generalize d.createDirectory p host = result at hcreate
      obtain ⟨d', e | u⟩ := result
      · exact ⟨hcreate.1, by rintro action ⟨⟩⟩
      · exact ⟨hcreate.1, fun _ _ => hcreate.2 u rfl⟩
  · have hgrows := @open_grows d p host o.file
    have hfile := @open_fileAt d p host o.file
    generalize d.open p o.file host = result at hgrows hfile
    obtain ⟨d', e | action⟩ := result
    · exact ⟨hgrows, by rintro action ⟨⟩⟩
    · exact ⟨hgrows, fun _ _ => hfile rfl⟩

/-- `stat` answers for a node that is there. -/
theorem found_some {isDirectory : Bool} (h : s.found p host = .ok (some isDirectory)) :
    ∃ f, s.fileAt p = some f := by
  unfold found at h
  cases hstat : s.device.stat p host with
  | error e => cases e <;> simp [hstat] at h
  | ok b =>
      cases host with
      | refuses e => simp [stat] at hstat
      | stops e => simp [stat] at hstat
      | obeys =>
          cases hnode : s.device.resolveExisting p with
          | error e => simp [stat, hnode, Except.map] at hstat
          | ok n =>
              exact ⟨n.file, by simp [fileAt, PathTree.fileAt, resolveExisting_ok.mp hnode]⟩

/-- **The effect of an open.**  It fails and leaves the path states as they were,
or it enters a new object with its record on a path where there is a file. -/
theorem Sound.open_cases (h : s.Sound) (p : GuestPath) (o : KernelOpenOptions) (host : OpenHost) :
    (∃ code device share, Grows s.device device p ∧ share.paths = s.share.paths ∧
      s.share.nextId ≤ share.nextId ∧ s.open p o host = ({ s with device, share }, .error code)) ∨
    (∃ device path action f, Grows s.device device p ∧ path = (s.share.paths p).getD {} ∧
      path.stickyDeletePending = false ∧
      (∀ r ∈ path.records, Compatible o.file.access o.file.share r.access r.share) ∧
      device.tree.fileAt p = some f ∧
      s.open p o host = (entered { s with device } p path o.file o.deleteOnClose f,
        .ok (some (s.share.nextId, action)))) := by
  unfold IoSystem.open
  split
  · exact .inl ⟨_, s.device, s.share, .inl rfl, rfl, le_rfl, rfl⟩
  next hdelete =>
  split
  · exact .inl ⟨_, s.device, s.share, .inl rfl, rfl, le_rfl, rfl⟩
  next hreadOnly =>
  cases hfound : s.found p host.stat with
  | error e => exact .inl ⟨_, s.device, s.share, .inl rfl, rfl, le_rfl, rfl⟩
  | ok found =>
  dsimp only
  iterate 2
    split
    · exact .inl ⟨_, s.device, s.share, .inl rfl, rfl, le_rfl, rfl⟩
  rcases @OpenShareState.reserve_cases _ _ o.file.access o.file.share
      fun path hp => (h.path p path hp).nonempty with
    ⟨code, hcode, hpaths, hnext⟩ | ⟨path, hpath, hsticky, hall, hreserve⟩
  · refine .inl ⟨code, s.device, (s.share.reserve p o.file.access o.file.share).1, .inl rfl,
      hpaths, hnext.ge, ?_⟩
    generalize s.share.reserve p o.file.access o.file.share = result at hcode
    obtain ⟨share, e | id⟩ := result
    · obtain rfl : e = code := by simpa using hcode
      rfl
    · cases hcode
  · rw [hreserve]
    dsimp only
    have hids : ∀ x ∈ path.records, x.id ≠ s.share.nextId := by
      intro x hx
      cases hcase : s.share.paths p with
      | none => simp [hpath, hcase] at hx
      | some old =>
          obtain rfl : path = old := by simpa [hcase] using hpath
          exact (h.id_lt hcase hx).ne
    have hrelease := @OpenShareState.release_admitOpen s.share p path
      ⟨s.share.nextId, o.file.access, o.file.share, false⟩ hids hpath
      (fun path hp => ⟨(h.path p path hp).nonempty, (h.path p path hp).relative⟩) hsticky rfl
    have hdevice := @openDevice_cases p host.call s.device o found
      fun htrue => found_some (htrue ▸ hfound)
    generalize openDevice s.device p o found host.call = result at hdevice
    obtain ⟨device, code | action⟩ := result
    · refine .inl ⟨code, device, { s.share with nextId := s.share.nextId + 1 }, hdevice.1, rfl,
        Nat.le_succ _, ?_⟩
      simp [release, hrelease]
    · obtain ⟨f, hf⟩ := hdevice.2 action rfl
      dsimp only
      unfold insert
      cases hinsert : host.insert with
      | some code =>
          refine .inl ⟨code, device, { s.share with nextId := s.share.nextId + 1 }, hdevice.1,
            rfl, Nat.le_succ _, ?_⟩
          simp [release, hrelease]
      | none =>
          refine .inr ⟨device, path, action, f, hdevice.1, hpath, hsticky, hall, hf, ?_⟩
          dsimp only
          split
          · next hclose =>
              have hwrite : o.file.access.delete = true := by simpa [hclose] using hdelete
              have hro : s.device.readOnly = false := by simpa [hwrite] using hreadOnly
              have hmark := @OpenShareState.setDeletePending_admitOpen s.share p
                path ⟨s.share.nextId, o.file.access, o.file.share, false⟩ hids
              have hsame : device.readOnly = s.device.readOnly := by
                rcases hdevice.1 with rfl | ⟨_, _, rfl⟩ <;> rfl
              simp [IoSystem.setDeletePending, hwrite, hsame, hro, hmark, entered, opened, fileAt,
                hf, hclose]
          · next hclose => simp [entered, opened, fileAt, hf, hclose]

end IoSystem
end FileSharing
end Kernel
end XenonRecomp
