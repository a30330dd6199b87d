/-
# Open files, their sharing and their deferred deletion

`OpenShareState` of io_manager_internal.hpp and share_state.cpp: for each guest
path that is open, a record for every open with its access and share modes and
whether it asked for the deletion of the file, and a sticky mark that some
closed open had asked for it.  Each function is one critical section of the
mutex: `reserve` admits an open or refuses it, `setDeletePending` sets the mark
of one record, `rename` moves the whole state of a path together with the file
on the device, and `release` drops a record and answers the path to remove when
it was the last one.  The removal itself comes after the mutex is dropped and is
no part of `release` here.

All files are on one device; a target on another one is a `ResolvedPath` with
`sameDevice` false.
-/

import XenonRecomp.Filesystem.HostPathDevice

namespace XenonRecomp
namespace Kernel
namespace FileSharing

open Filesystem

/-- `KernelIoCode`, the codes of this layer. -/
inductive KernelIoCode
  | invalidHandle
  | invalidObjectType
  | invalidParameter
  | accessDenied
  | notFound
  | alreadyExists
  | notDirectory
  | isDirectory
  | directoryNotEmpty
  | sharingViolation
  | unsupported
  | crossDevice
  | deletePending
  | filesystemError
deriving DecidableEq, Repr

/-- `from_filesystem_error`. -/
def fromFilesystemError : FsError → KernelIoCode
  | .notFound => .notFound
  | .alreadyExists => .alreadyExists
  | .accessDenied | .readOnly => .accessDenied
  | .notDirectory => .notDirectory
  | .isDirectory => .isDirectory
  | .directoryNotEmpty => .directoryNotEmpty
  | .sharingViolation => .sharingViolation
  | .unsupported => .unsupported
  | .crossDevice => .crossDevice
  | .invalidPath | .invalidArgument | .tooManyLinks => .invalidParameter
  | .ioError => .filesystemError

/-- `access_is_shared`: what `access` asks for, `share` lets others have. -/
def accessIsShared (access : FileAccess) (share : ShareAccess) : Bool :=
  (!access.read || share.read) && (!access.write || share.write) &&
    (!access.delete || share.delete)

/-- `Record`: one open of a path. -/
structure Record where
  id : ℕ
  access : FileAccess
  share : ShareAccess
  deletePending : Bool := false
deriving DecidableEq, Repr

/-- `PathState`. -/
structure PathState where
  records : List Record := []
  stickyDeletePending : Bool := false
  relativePath : GuestPath := []
deriving DecidableEq, Repr

/-- `OpenShareState`: the path states by their keys, and the next record id. -/
structure OpenShareState where
  paths : GuestPath → Option PathState := fun _ => none
  nextId : ℕ := 1

/-- A guest path resolved to a device. -/
structure ResolvedPath where
  sameDevice : Bool
  path : GuestPath
deriving DecidableEq, Repr

/-- Two opens admit each other. -/
def Compatible (a : FileAccess) (b : ShareAccess) (c : FileAccess) (d : ShareAccess) : Bool :=
  accessIsShared a d && accessIsShared c b

theorem Compatible.symm {a c : FileAccess} {b d : ShareAccess} (h : Compatible a b c d) :
    Compatible c d a b := by
  simpa [Compatible, Bool.and_comm] using h

namespace OpenShareState

/-- The state with `path` at a key; `none` erases the key. -/
def set (s : OpenShareState) (key : GuestPath) (path : Option PathState) : OpenShareState :=
  { s with paths := Function.update s.paths key path }

/-- A refused open removes the path state it may have made. -/
def refuse (s : OpenShareState) (key : GuestPath) (path : PathState) : OpenShareState :=
  if path.records = [] then s.set key none else s

/-- The state after `reserve` has added a record to a path. -/
def admitOpen (s : OpenShareState) (resolved : GuestPath) (path : PathState) (r : Record) :
    OpenShareState :=
  { s.set resolved (some { path with
      relativePath := resolved, records := path.records ++ [r] }) with nextId := s.nextId + 1 }

/-- `reserve`. -/
def reserve (s : OpenShareState) (resolved : GuestPath) (access : FileAccess)
    (share : ShareAccess) : OpenShareState × Except KernelIoCode ℕ :=
  let path := (s.paths resolved).getD {}
  if path.stickyDeletePending || path.records.any (·.deletePending) then
    (s.refuse resolved path, .error .deletePending)
  else if path.records.all (fun r => Compatible access share r.access r.share) then
    (s.admitOpen resolved path ⟨s.nextId, access, share, false⟩, .ok s.nextId)
  else (s.refuse resolved path, .error .sharingViolation)

/-- The record of an open. -/
def recordOf (s : OpenShareState) (key : GuestPath) (id : ℕ) : Option (PathState × Record) :=
  (s.paths key).bind fun path => (path.records.find? (·.id = id)).map fun r => (path, r)

/-- `set_delete_pending`.  Ids are given out once, so that one record changes. -/
def setDeletePending (s : OpenShareState) (key : GuestPath) (id : ℕ) (value : Bool) :
    OpenShareState × Except KernelIoCode Unit :=
  match s.recordOf key id with
  | none => (s, .error .invalidHandle)
  | some (path, _) =>
      if !value && path.stickyDeletePending then (s, .error .deletePending)
      else
        let records := path.records.map fun r =>
          if r.id = id then { r with deletePending := value } else r
        (s.set key (some { path with records }), .ok ())

/-- `delete_pending`. -/
def deletePending (s : OpenShareState) (key : GuestPath) (id : ℕ) : Bool :=
  match s.paths key with
  | none => false
  | some path =>
      path.stickyDeletePending || (path.records.find? (·.id = id)).any (·.deletePending)

/-- The checks of `rename` before it calls the device: the path state that is to
move, or the refusal. -/
def renameChecks (s : OpenShareState) (key : GuestPath) (id : ℕ) (target : ResolvedPath) :
    Except KernelIoCode PathState :=
  match s.recordOf key id with
  | none => .error .invalidHandle
  | some (source, record) =>
      if source.records.length ≠ 1 then .error .sharingViolation
      else if source.stickyDeletePending || record.deletePending then .error .deletePending
      else if !target.sameDevice then .error .crossDevice
      else if target.path ≠ key ∧ (s.paths target.path).any
          (fun t => t.records ≠ [] || t.stickyDeletePending) then .error .sharingViolation
      else .ok source

/-- `rename`. -/
def rename (s : OpenShareState) (d : HostPathDevice) (key : GuestPath) (id : ℕ)
    (target : ResolvedPath) (replaceExisting : Bool) (host : Host) :
    (OpenShareState × HostPathDevice) × Except KernelIoCode GuestPath :=
  match s.renameChecks key id target with
  | .error code => ((s, d), .error code)
  | .ok source =>
      match d.rename source.relativePath target.path replaceExisting host with
      | (d, .error error) => ((s, d), .error (fromFilesystemError error))
      | (d, .ok ()) =>
          let moved := { source with relativePath := target.path }
          (((s.set key none).set target.path (some moved), d), .ok target.path)

/-- `release`, up to the end of its critical section: the path that is to be
removed from the device, if there is one. -/
def release (s : OpenShareState) (key : GuestPath) (id : ℕ) :
    OpenShareState × Option GuestPath :=
  match s.recordOf key id with
  | none => (s, none)
  | some (path, record) =>
      let records := path.records.eraseP (·.id = id)
      if records = [] then
        (s.set key none,
          if record.deletePending || path.stickyDeletePending then some path.relativePath
          else none)
      else
        let path := { path with
          records := records
          stickyDeletePending := path.stickyDeletePending || record.deletePending }
        (s.set key (some path), none)

@[simp] theorem set_paths (s : OpenShareState) (key : GuestPath) (path : Option PathState) :
    (s.set key path).paths = Function.update s.paths key path := rfl

@[simp] theorem set_nextId (s : OpenShareState) (key : GuestPath) (path : Option PathState) :
    (s.set key path).nextId = s.nextId := rfl

variable {s s' : OpenShareState} {p key : GuestPath} {id : ℕ} {access : FileAccess}
  {share : ShareAccess} {path : PathState} {r : Record}

theorem recordOf_eq_some : s.recordOf key id = some (path, r) ↔
    s.paths key = some path ∧ path.records.find? (·.id = id) = some r := by
  simp only [recordOf, Option.bind_eq_some_iff, Option.map_eq_some_iff, Prod.mk.injEq]
  constructor
  · rintro ⟨path', hpath, r', hr, rfl, rfl⟩
    exact ⟨hpath, hr⟩
  · rintro ⟨hpath, hr⟩
    exact ⟨path, hpath, r, hr, rfl, rfl⟩

/-- `reserve` leaves everything as it was or adds a record that is compatible
with those of the path, none of which asks for deletion. -/
theorem reserve_cases (hrecords : ∀ path, s.paths p = some path → path.records ≠ []) :
    (∃ code, (s.reserve p access share).2 = .error code ∧
      (s.reserve p access share).1.paths = s.paths ∧
      (s.reserve p access share).1.nextId = s.nextId) ∨
    (∃ path, path = (s.paths p).getD {} ∧ path.stickyDeletePending = false ∧
      (∀ r ∈ path.records, Compatible access share r.access r.share) ∧
      s.reserve p access share = (s.admitOpen p path ⟨s.nextId, access, share, false⟩,
        .ok s.nextId)) := by
  have hrefuse : (s.refuse p ((s.paths p).getD {})).paths = s.paths ∧
      (s.refuse p ((s.paths p).getD {})).nextId = s.nextId := by
    unfold refuse
    split
    · next hempty =>
        refine ⟨?_, rfl⟩
        cases hp : s.paths p with
        | none => exact Function.update_eq_self_iff.mpr hp.symm
        | some path => exact absurd (by simpa [hp] using hempty) (hrecords path hp)
    · exact ⟨rfl, rfl⟩
  unfold reserve
  dsimp only
  split
  · exact .inl ⟨_, rfl, hrefuse⟩
  · next hpending =>
      split
      · next hall =>
          simp only [Bool.or_eq_true, not_or, Bool.not_eq_true] at hpending
          exact .inr ⟨_, rfl, hpending.1, by simpa using hall, rfl⟩
      · exact .inl ⟨_, rfl, hrefuse⟩

/-- The checks of `rename` pass for the only record of its path, when nothing is
pending there and the target is not in use. -/
theorem renameChecks_ok {target : ResolvedPath} (h : s.renameChecks key id target = .ok path) :
    ∃ r, s.paths key = some path ∧ path.records = [r] ∧ r.id = id ∧
      path.stickyDeletePending = false ∧ r.deletePending = false ∧
      (target.path = key ∨ ∀ t, s.paths target.path = some t → t.records = []) := by
  unfold renameChecks at h
  cases hrec : s.recordOf key id with
  | none => simp [hrec] at h
  | some pr =>
      obtain ⟨source, record⟩ := pr
      obtain ⟨hpath, hfind⟩ := recordOf_eq_some.mp hrec
      simp only [hrec] at h
      split at h
      · cases h
      next hlength =>
      split at h
      · cases h
      next hpending =>
      split at h
      · cases h
      split at h
      · cases h
      next htarget =>
      cases h
      obtain ⟨r, hr⟩ := List.length_eq_one_iff.mp (not_ne_iff.mp hlength)
      have hid : record.id = id := by simpa using List.find?_some hfind
      have hrr : record = r := by simpa [hr] using List.mem_of_find?_eq_some hfind
      simp only [Bool.or_eq_true, not_or, Bool.not_eq_true] at hpending
      refine ⟨r, hpath, hr, hrr ▸ hid, hpending.1, hrr ▸ hpending.2, ?_⟩
      by_cases hkey : target.path = key
      · exact .inl hkey
      · refine .inr fun t ht => ?_
        by_contra hne
        exact htarget ⟨hkey, by simp [ht, hne]⟩

/-- `set_delete_pending` is refused or sets the mark of one record. -/
theorem setDeletePending_cases (s : OpenShareState) (key : GuestPath) (id : ℕ) (value : Bool) :
    (∃ code, s.setDeletePending key id value = (s, .error code)) ∨
      ∃ path, s.paths key = some path ∧ s.setDeletePending key id value =
        (s.set key (some { path with records := path.records.map fun r =>
          if r.id = id then { r with deletePending := value } else r }), .ok ()) := by
  unfold setDeletePending
  cases hrec : s.recordOf key id with
  | none => exact .inl ⟨_, rfl⟩
  | some pr =>
      obtain ⟨hpath, -⟩ := recordOf_eq_some.mp hrec
      dsimp only
      split
      · exact .inl ⟨_, rfl⟩
      · exact .inr ⟨_, hpath, rfl⟩

/-! ### A record that has just been admitted -/

section Admitted

variable (hids : ∀ x ∈ path.records, x.id ≠ r.id)
include hids

theorem recordOf_admitOpen : (s.admitOpen p path r).recordOf p r.id =
    some ({ path with relativePath := p, records := path.records ++ [r] }, r) := by
  have hnone : path.records.find? (·.id = r.id) = none := by simpa using hids
  simp [recordOf_eq_some, admitOpen, List.find?_append, hnone]

/-- Its release takes the state of the path back. -/
theorem release_admitOpen (hpath : path = (s.paths p).getD {})
    (hrelative : ∀ path, s.paths p = some path → path.records ≠ [] ∧ path.relativePath = p)
    (hsticky : path.stickyDeletePending = false) (hpending : r.deletePending = false) :
    (s.admitOpen p path r).release p r.id = ({ s with nextId := s.nextId + 1 }, none) := by
  have herase : (path.records ++ [r]).eraseP (·.id = r.id) = path.records := by
    rw [List.eraseP_append_right _ (by simpa using hids)]
    simp
  unfold release
  rw [recordOf_admitOpen hids]
  dsimp only
  rw [herase, hpending, hsticky]
  cases hcase : s.paths p with
  | none =>
      obtain rfl : path = {} := by simpa [hcase] using hpath
      simp [admitOpen, set, ← hcase]
  | some old =>
      obtain rfl : path = old := by simpa [hcase] using hpath
      obtain ⟨hne, hrel⟩ := hrelative path hcase
      have hback : ({ path with relativePath := p } : PathState) = path := by rw [← hrel]
      rw [if_neg hne]
      simp [admitOpen, set, ← hsticky, hback, ← hcase]

/-- Its mark can be set. -/
theorem setDeletePending_admitOpen :
    (s.admitOpen p path r).setDeletePending p r.id true =
      (s.admitOpen p path { r with deletePending := true }, .ok ()) := by
  have hmap : path.records.map (fun x => if x.id = r.id then { x with deletePending := true }
      else x) = path.records := by
    refine (List.map_congr_left fun x hx => ?_).trans (List.map_id _)
    exact if_neg (hids x hx)
  unfold setDeletePending
  rw [recordOf_admitOpen hids]
  simp [admitOpen, set, hmap]

end Admitted

end OpenShareState
end FileSharing
end Kernel
end XenonRecomp
