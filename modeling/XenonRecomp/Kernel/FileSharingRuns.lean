/-
# Quiet runs of the file layer

Every quiet step keeps `Sound` and meets what a step owes, so every run of quiet
steps from a device with nothing open does (`run_consistent`).  The conditions
are there for two defects of the layer, which the runs at the end show: a rename
of a directory leaves the objects and the removals below it with keys that name
nothing, and a removal runs after the path state that would refuse an open is
gone.
-/

import XenonRecomp.Kernel.FileSharingSafety

namespace XenonRecomp
namespace Kernel
namespace FileSharing

open Filesystem HostPathDevice
open Library Library.Transition

namespace IoSystem

variable {s : IoSystem} {p q : GuestPath} {i id f : ℕ} {o : FileObject} {host : Host}

/-- The next id may grow. -/
theorem Sound.withShare (h : s.Sound) {share : OpenShareState}
    (hpaths : share.paths = s.share.paths) (hnext : s.share.nextId ≤ share.nextId) :
    Sound { s with share } where
  path := hpaths ▸ h.path
  live := hpaths ▸ h.live
  owned := hpaths ▸ h.owned
  denotes := h.denotes
  fresh := fun i o ho => (h.fresh i o ho).trans_le hnext
  doomed := hpaths ▸ h.doomed
  removal := hpaths ▸ h.removal
  nodup := h.nodup
  condemned_lt := h.condemned_lt

/-- An open of a path that does not wait for its removal keeps the invariant. -/
theorem Sound.open (h : s.Sound) (o : KernelOpenOptions) (host : OpenHost)
    (hp : p ∉ s.removals) : (s.open p o host).1.Sound := by
  rcases h.open_cases p o host with ⟨code, device, share, hgrows, hpaths, hnext, heq⟩ |
    ⟨device, path, action, f, hgrows, hpath, hsticky, hall, hf, heq⟩
  · rw [heq]
    exact (h.grows hgrows).withShare hpaths hnext
  · rw [heq]
    exact (h.grows hgrows).enter o.deleteOnClose hpath hsticky hall hf hp

/-- Closing a handle keeps the invariant. -/
theorem Sound.close (h : s.Sound) (id : ℕ) : (s.close id).1.Sound := by
  unfold IoSystem.close
  cases ho : s.objects id with
  | none => exact h
  | some o =>
      dsimp only
      split
      · exact h.withHandles ho _
      · exact h.leave ho rfl

/-- Setting or clearing delete pending keeps the invariant. -/
theorem Sound.setDeletePending (h : s.Sound) (id : ℕ) (value : Bool) :
    (s.setDeletePending id value).1.Sound := by
  unfold IoSystem.setDeletePending
  cases ho : s.objects id with
  | none => exact h
  | some o =>
      dsimp only
      split
      · exact h
      split
      · exact h
      rcases s.share.setDeletePending_cases o.key id value with
        ⟨code, heq⟩ | ⟨path, hpath, heq⟩
      · rw [heq]
        exact h
      · rw [heq]
        refine h.withMarks (fun r => ?_) hpath
        split <;> exact ⟨rfl, rfl, rfl⟩

/-- What a rename may do: the target may be cleared, where nothing depends on it,
and after that the device and the path states are as they were, or the object has
moved. -/
def Renames (s : IoSystem) (id : ℕ) (target : ResolvedPath) (replace : Bool)
    (result : IoSystem × IoReply) : Prop :=
  ∃ c, Cleared s.device c target.path replace ∧
    (replace = true → c ≠ s.device → ¬s.Used target.path) ∧
    ((∃ code, result = ({ s with device := c }, .error code)) ∨
      ∃ o path r hmove, s.objects id = some o ∧ s.share.paths o.key = some path ∧
        path.records = [r] ∧ r.id = id ∧ path.stickyDeletePending = false ∧
        s.IdleBelow o.key ∧
        result = ({ s with
          device := { c with tree := c.tree.move o.key target.path hmove }
          share := (s.share.set o.key none).set target.path
            (some { path with relativePath := target.path })
          objects := Function.update s.objects id
            (some { o with key := target.path, resolved := target.path }) }, .ok none))

/-- A refusal before the device is called. -/
theorem renames_refused {target : ResolvedPath} {replace : Bool} (code : KernelIoCode) :
    s.Renames id target replace (s, .error code) :=
  ⟨s.device, .inl rfl, fun _ hne => absurd rfl hne, .inl ⟨code, rfl⟩⟩

/-- **The effect of a quiet rename.** -/
theorem Sound.rename_cases (h : s.Sound) (id : ℕ) (target : ResolvedPath) (replace : Bool)
    (host : Host) (hquiet : s.Quiet (.rename id target replace host)) :
    s.Renames id target replace (s.rename id target replace host) := by
  unfold IoSystem.rename
  cases ho : s.objects id with
  | none => exact renames_refused _
  | some o =>
  dsimp only
  split
  · exact renames_refused _
  split
  · exact renames_refused _
  cases hchecks : s.share.renameChecks o.key id target with
  | error code => simpa [OpenShareState.rename, hchecks] using renames_refused code
  | ok path =>
  obtain ⟨r, hpath, hrecords, hid, hsticky, -, htarget⟩ := OpenShareState.renameChecks_ok hchecks
  have hrelative := (h.path _ _ hpath).relative
  obtain ⟨hreplace, hidle⟩ := hquiet o ho
  obtain ⟨c, hcleared, hcases⟩ := @HostPathDevice.rename_cases s.device o.key
    target.path host replace
  -- Nothing depends on a target that is replaced.
  have hfree : replace = true → c ≠ s.device → ¬s.Used target.path := by
    rintro hr - (⟨i, a, ha, hkey⟩ | hin)
    · obtain ⟨path', hpath', x, hx, -⟩ := h.live i a ha
      rcases htarget with heq | hempty
      · exact (hreplace hr).1 heq
      · simp [hempty path' (hkey ▸ hpath')] at hx
    · exact (hreplace hr).2 hin
  refine ⟨c, hcleared, hfree, ?_⟩
  rcases hcases with ⟨⟨e, herror⟩, hdev⟩ | ⟨hmove, -, heq⟩
  · left
    refine ⟨fromFilesystemError e, ?_⟩
    generalize hresult : s.device.rename o.key target.path replace host = result at herror hdev
    obtain ⟨d, e' | u⟩ := result
    · obtain rfl : e' = e := by simpa using herror
      obtain rfl : d = c := hdev
      simp [OpenShareState.rename, hchecks, hrelative, hresult]
    · cases herror
  · right
    refine ⟨o, path, r, hmove, ho, hpath, hrecords, hid, hsticky, hidle (by rw [heq]), ?_⟩
    simp [OpenShareState.rename, hchecks, hrelative, heq]

/-- A quiet rename keeps the invariant. -/
theorem Sound.rename (h : s.Sound) (id : ℕ) (target : ResolvedPath) (replace : Bool)
    (host : Host) (hquiet : s.Quiet (.rename id target replace host)) :
    (s.rename id target replace host).1.Sound := by
  obtain ⟨c, hcleared, hfree, ⟨code, heq⟩ | ⟨o, path, r, hmove, ho, hpath, hrecords, hid, hsticky,
    hidle, heq⟩⟩ := h.rename_cases id target replace host hquiet
  · rw [heq]
    exact h.cleared hcleared hfree
  · rw [heq]
    exact (h.cleared hcleared hfree).moved ho hpath hrecords hid hsticky hidle hmove

/-- A removal that the device carries out keeps the invariant. -/
theorem Sound.remove (h : s.Sound) (p : GuestPath) (host : Host)
    (hquiet : s.Quiet (.remove p host)) : (s.remove p host).1.Sound := by
  unfold IoSystem.remove
  split
  · next hp =>
      rcases @remove_cases s.device p host with ⟨⟨e, he⟩, -⟩ | ⟨herase, heq⟩
      · rw [hquiet hp] at he
        cases he
      · dsimp only
        rw [heq]
        exact h.removed hp herase
  · exact h

/-- **A quiet step keeps the invariant.** -/
theorem Sound.step (h : s.Sound) (e : IoEvent) (hquiet : s.Quiet e) : (ioStep s e).1.Sound := by
  cases e with
  | «open» p o host => exact h.open o host hquiet
  | duplicate id =>
      change (s.duplicate id).1.Sound
      unfold IoSystem.duplicate
      cases ho : s.objects id with
      | none => exact h
      | some o => exact h.withHandles ho _
  | close id => exact h.close id
  | setDeletePending id value => exact h.setDeletePending id value
  | rename id target replace host => exact h.rename id target replace host hquiet
  | remove p host => exact h.remove p host hquiet

/-! ### What a step owes -/

/-- Steps that leave the device alone take no file. -/
theorem close_device (s : IoSystem) (id : ℕ) : (s.close id).1.device = s.device := by
  unfold IoSystem.close
  cases s.objects id with
  | none => rfl
  | some o =>
      dsimp only
      split <;> rfl

theorem setDeletePending_device (s : IoSystem) (id : ℕ) (value : Bool) :
    (s.setDeletePending id value).1.device = s.device := by
  unfold IoSystem.setDeletePending
  cases s.objects id with
  | none => rfl
  | some o =>
      dsimp only
      split
      · rfl
      split
      · rfl
      rcases s.share.setDeletePending o.key id value with ⟨share, code | u⟩ <;> rfl

theorem duplicate_device (s : IoSystem) (id : ℕ) : (s.duplicate id).1.device = s.device := by
  unfold IoSystem.duplicate
  cases s.objects id <;> rfl

theorem holds_of_device {t : IoSystem} (hdev : t.device = s.device) (hf : s.Holds f) :
    t.Holds f := by
  unfold Holds fileAt at *
  rwa [hdev]

/-- A file that goes in a quiet step was the replaced file of a rename, which
nothing depends on, or the file of a removal. -/
theorem Sound.lost (h : s.Sound) {e : IoEvent} (hquiet : s.Quiet e) (hf : s.Holds f)
    (hlost : ¬(ioStep s e).1.Holds f) :
    (∃ q, s.fileAt q = some f ∧ ¬s.Used q ∧ ∃ id t r host, e = .rename id t r host) ∨
      ∃ p host, e = .remove p host ∧ p ∈ s.removals ∧ s.fileAt p = some f := by
  obtain ⟨q, hq⟩ := hf
  cases e with
  | «open» p o host =>
      refine absurd ?_ hlost
      rcases h.open_cases p o host with ⟨code, device, share, hgrows, -, -, heq⟩ |
        ⟨device, path, action, g, hgrows, -, -, -, -, heq⟩
      · exact ⟨q, by rw [ioStep, heq]; exact hgrows.fileAt hq⟩
      · exact ⟨q, by rw [ioStep, heq]; exact hgrows.fileAt hq⟩
  | duplicate id => exact absurd (holds_of_device (duplicate_device s id) ⟨q, hq⟩) hlost
  | close id => exact absurd (holds_of_device (close_device s id) ⟨q, hq⟩) hlost
  | setDeletePending id value =>
      exact absurd (holds_of_device (setDeletePending_device s id value) ⟨q, hq⟩) hlost
  | rename id target replace host =>
      left
      obtain ⟨c, hcleared, hfree, hresult⟩ := h.rename_cases id target replace host hquiet
      have hgone : c.tree.fileAt q ≠ some f := by
        intro hcq
        rcases hresult with ⟨code, heq⟩ | ⟨o, path, r, hmove, -, -, -, -, -, -, heq⟩
        · exact hlost ⟨q, by rw [ioStep, heq]; exact hcq⟩
        · refine hlost ⟨PathTree.rebase o.key target.path q, ?_⟩
          rw [ioStep, heq]
          exact (PathTree.fileAt_move hmove).mpr ⟨q, rfl, hcq⟩
      rcases hcleared with rfl | ⟨hr, herase, rfl⟩
      · exact absurd hq hgone
      · have hqt : q = target.path := by
          by_contra hne
          exact hgone (by rw [PathTree.fileAt_erase, if_neg hne]; exact hq)
        subst hqt
        refine ⟨target.path, hq, hfree hr ?_, id, target, replace, host, rfl⟩
        intro hsame
        exact hgone (by rw [hsame]; exact hq)
  | remove p host =>
      right
      rw [ioStep, IoSystem.remove] at hlost
      split at hlost
      · next hp =>
          rcases @remove_cases s.device p host with
            ⟨-, hdev⟩ | ⟨herase, heq⟩
          · exact absurd (holds_of_device hdev ⟨q, hq⟩) hlost
          · have hqp : q = p := by
              by_contra hne
              refine hlost ⟨q, ?_⟩
              simp only [fileAt, heq]
              rw [PathTree.fileAt_erase, if_neg hne]
              exact hq
            exact ⟨p, host, rfl, hp, hqp ▸ hq⟩
      · exact absurd ⟨q, hq⟩ hlost

/-- **What a quiet step owes it gives.** -/
theorem Sound.stepConsistent (h : s.Sound) (e : IoEvent) (hquiet : s.Quiet e) :
    s.StepConsistent e where
  unheld := by
    rintro f hf hlost i o ho rfl
    have hkey := (h.denotes i o ho).1
    rcases h.lost hquiet hf hlost with ⟨q, hq, hunused, -⟩ | ⟨p, host, -, hp, hpf⟩
    · exact hunused (.inl ⟨i, o, ho, PathTree.fileAt_inj hkey hq⟩)
    · exact h.key_ne ho (h.removal p hp).1 (PathTree.fileAt_inj hkey hpf)
  condemned := by
    rintro p host rfl f hf hlost
    rcases h.lost hquiet hf hlost with ⟨q, -, -, id, t, r, host', heq⟩ | ⟨p', host', -, hp, hpf⟩
    · cases heq
    · obtain ⟨-, g, hg, hgf⟩ := h.removal p' hp
      obtain rfl : g = f := by simpa [hpf] using hgf.symm
      exact hg
  opened := by
    rintro p o host i action rfl hreply
    rcases h.open_cases p o host with ⟨code, device, share, -, -, -, heq⟩ |
      ⟨device, path, action', f, hgrows, hpath, hsticky, -, hf, heq⟩
    · rw [ioStep, heq] at hreply
      cases hreply
    · rw [ioStep, heq] at hreply ⊢
      obtain ⟨rfl, rfl⟩ : s.share.nextId = i ∧ action' = action := by simpa using hreply
      refine ⟨opened p o.file f, by simp [entered], fun hc => ?_⟩
      -- A condemned file of the path is marked sticky or waits for its removal.
      rcases hgrows.fileAt_inv hf with hold | ⟨-, rfl⟩
      · rcases h.doomed p f hold hc with ⟨path', hpath', hs⟩ | hin
        · simp [hpath, hpath', hs] at hsticky
        · exact hquiet hin
      · exact absurd (h.condemned_lt _ hc) (lt_irrefl _)
  failed := by
    rintro code (⟨p, o, host, rfl⟩ | ⟨id, t, r, host, rfl⟩) hreply
    · rcases h.open_cases p o host with ⟨code', device, share, -, hpaths, -, heq⟩ |
        ⟨device, path, action, f, -, -, -, -, -, heq⟩
      · rw [ioStep, heq]
        exact hpaths
      · rw [ioStep, heq] at hreply
        cases hreply
    · obtain ⟨c, -, -, ⟨code', heq⟩ | ⟨o, path, x, hmove, -, -, -, -, -, -, heq⟩⟩ :=
        h.rename_cases id t r host hquiet
      · rw [ioStep, heq]
      · rw [ioStep, heq] at hreply
        cases hreply

/-- **Quiet runs are consistent.**  After any steps of any threads from a device
with nothing open, each of them quiet, the live objects and the path states are
consistent, and the next quiet step gives what it owes. -/
theorem run_consistent (device : HostPathDevice) (es : List IoEvent)
    (hquiet : Along ioStep Quiet (boot device) es) :
    (run ioStep (boot device) es).Consistent ∧
      ∀ e, (run ioStep (boot device) es).Quiet e →
        (run ioStep (boot device) es).StepConsistent e := by
  have hsound : (run ioStep (boot device) es).Sound :=
    invariant_along (fun _ e h he => h.step e he) _ es (boot_sound device) hquiet
  exact ⟨hsound.consistent, fun e he => hsound.stepConsistent e he⟩

/-- Every access, and a file that is made when it is not there. -/
def everything : OpenOptions :=
  { access := { read := true, write := true, delete := true }, disposition := .openIf }

/-- An empty device that can be written. -/
def emptyDevice : HostPathDevice := { readOnly := false, tree := .bare String }

/-- A file is made, renamed, condemned, closed and removed. -/
def quietLife : List IoEvent :=
  [.open ["f"] { file := everything } {}, .rename 1 ⟨true, ["g"]⟩ false .obeys,
    .setDeletePending 1 true, .close 1, .remove ["g"] .obeys]

/-- The rule at a run with a rename and a removal. -/
theorem run_consistent_quietLife : (run ioStep (boot emptyDevice) quietLife).Consistent := by
  refine (run_consistent emptyDevice quietLife ⟨?_, ?_, trivial, trivial, ?_, trivial⟩).1
  · exact List.not_mem_nil
  · intro o ho
    obtain rfl : opened ["f"] everything 1 = o := by
      simpa using (show some (opened ["f"] everything 1) = some o from ho)
    refine ⟨nofun, fun _ => ⟨fun i a ha hbelow => ?_, nofun⟩⟩
    have hobjects : Function.update (fun _ => none) 1 (some (opened ["f"] everything 1)) i =
      some a := ha
    by_cases hi : i = 1
    · subst hi
      obtain rfl : opened ["f"] everything 1 = a := by simpa using hobjects
      rfl
    · simp [hi] at hobjects
  · intro _
    decide

/-- A directory with a file in it is open, and so is the file; the directory is
renamed. -/
def renameAbove : List IoEvent :=
  [.open ["d"] { file := everything, kind := .directory } {},
    .open ["d", "f"] { file := everything } {}, .rename 1 ⟨true, ["e"]⟩ false .obeys]

/-- A file is condemned, and its last handle is closed. -/
def closeCondemned : List IoEvent :=
  [.open ["f"] { file := everything, deleteOnClose := true } {}, .close 1]

/-- The layer does not keep what it owes: after the rename of its directory the
path state of an open file names a path that is not there, and between a `release`
and its removal a condemned file can be opened. -/
theorem run_not_consistent :
    ¬(run ioStep (boot emptyDevice) renameAbove).Consistent ∧
      ¬(run ioStep (boot emptyDevice) closeCondemned).StepConsistent
        (.open ["f"] { file := everything } {}) := by
  constructor
  · intro h
    obtain ⟨path, hpath, -, hfile, -⟩ := h.named 2 _ rfl
    obtain rfl := Option.some.inj hpath
    exact absurd hfile (by decide)
  · intro h
    obtain ⟨object, hobject, hfile⟩ := h.opened ["f"] { file := everything } {} 2 .opened rfl rfl
    obtain rfl := Option.some.inj hobject
    exact absurd hfile (by decide)

end IoSystem
end FileSharing
end Kernel
end XenonRecomp
