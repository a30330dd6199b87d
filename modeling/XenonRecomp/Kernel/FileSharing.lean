/-
# Opening, renaming, deleting and closing files

The file part of `KernelIoManager` over `OpenShareState` and a device: the
objects behind the handles, each with the lease that it holds on a path, and
the steps of the threads.  `open` is one step, made under `open_mutex_`; the
other calls have one critical section of the share state each, and the removal
that follows a `release` is a step of its own, which any other step may come
before.  An object is named by the id of its lease, which is never used again.

Two components are for the statements only and no step reads them: the file that
an object was opened on, and the files of which some object had delete pending
when its last handle was closed.
-/

import XenonRecomp.Kernel.ShareState
import XenonRecomp.Library.Transition

namespace XenonRecomp
namespace Kernel
namespace FileSharing

open Filesystem
open Library Library.Transition

/-- `OpenKind`. -/
inductive OpenKind
  | any
  | file
  | directory
deriving DecidableEq, Repr

/-- `KernelOpenOptions`. -/
structure KernelOpenOptions where
  file : OpenOptions := {}
  kind : OpenKind := .any
  deleteOnClose : Bool := false
deriving DecidableEq, Repr

/-- What is outside of the layer in an open: the answers of the host to `stat`
and to the call that opens or creates, and the refusal of the handle table. -/
structure OpenHost where
  stat : Host := .obeys
  call : Host := .obeys
  insert : Option KernelIoCode := none
deriving DecidableEq, Repr

/-- `KernelFileObject` with its lease: the key of the lease, the resolved path,
the modes of the open, the number of handles, and the file it was opened on. -/
structure FileObject where
  key : GuestPath
  resolved : GuestPath
  access : FileAccess
  share : ShareAccess
  handles : ℕ := 1
  file : ℕ
deriving DecidableEq, Repr

/-- The device, the share state, the objects by the ids of their leases, the
removals that a `release` has left to do, and the files condemned by a close
with delete pending. -/
structure IoSystem where
  device : HostPathDevice
  share : OpenShareState := {}
  objects : ℕ → Option FileObject := fun _ => none
  removals : List GuestPath := []
  condemned : List ℕ := []

/-- The reply of a call: the handle and the action of an open. -/
abbrev IoReply := Except KernelIoCode (Option (ℕ × OpenAction))

/-- The device call of an open of a path that is a directory (`some true`), a
file (`some false`) or not there (`none`). -/
def openDevice (d : HostPathDevice) (p : GuestPath) (o : KernelOpenOptions)
    (found : Option Bool) (host : Host) : HostPathDevice × Except KernelIoCode OpenAction :=
  if found = some true then
    match o.file.disposition with
    | .create => (d, .error .alreadyExists)
    | .overwrite | .overwriteIf | .supersede => (d, .error .invalidParameter)
    | .open | .openIf => (d, .ok .opened)
  else if found = none ∧ o.kind = .directory then
    match o.file.disposition with
    | .open | .overwrite => (d, .error .notFound)
    | .create | .openIf | .supersede | .overwriteIf =>
        match d.createDirectory p host with
        | (d, .error e) => (d, .error (fromFilesystemError e))
        | (d, .ok ()) => (d, .ok .created)
  else
    match d.open p o.file host with
    | (d, .error e) => (d, .error (fromFilesystemError e))
    | (d, .ok action) => (d, .ok action)

namespace IoSystem

/-- The file of a path. -/
def fileAt (s : IoSystem) (p : GuestPath) : Option ℕ := s.device.tree.fileAt p

/-- `Lease::release`: the record goes now, the removal is left to do. -/
def release (s : IoSystem) (key : GuestPath) (id : ℕ) : IoSystem :=
  let (share, removal) := s.share.release key id
  { s with share, removals := s.removals ++ removal.toList }

/-- `close`, and `on_last_handle_closed` with the last handle. -/
def close (s : IoSystem) (id : ℕ) : IoSystem × IoReply :=
  match s.objects id with
  | none => (s, .error .invalidHandle)
  | some o =>
      if o.handles > 1 then
        let object := { o with handles := o.handles - 1 }
        ({ s with objects := Function.update s.objects id (some object) }, .ok none)
      else
        let condemned :=
          if s.share.deletePending o.key id then o.file :: s.condemned else s.condemned
        let s := { s with objects := Function.update s.objects id none, condemned }
        (s.release o.key id, .ok none)

/-- `KernelFileObject::set_delete_pending`. -/
def setDeletePending (s : IoSystem) (id : ℕ) (value : Bool) : IoSystem × IoReply :=
  match s.objects id with
  | none => (s, .error .invalidHandle)
  | some o =>
      if !o.access.delete then (s, .error .accessDenied)
      else if value && s.device.readOnly then (s, .error .accessDenied)
      else match s.share.setDeletePending o.key id value with
        | (share, .error code) => ({ s with share }, .error code)
        | (share, .ok ()) => ({ s with share }, .ok none)

/-- `stat`, where a path that is not there is no error. -/
def found (s : IoSystem) (p : GuestPath) (host : Host) : Except FsError (Option Bool) :=
  match s.device.stat p host with
  | .ok isDirectory => .ok (some isDirectory)
  | .error .notFound => .ok none
  | .error e => .error e

/-- The end of `open`, with the object that it has made. -/
def insert (s : IoSystem) (p : GuestPath) (o : KernelOpenOptions) (id : ℕ)
    (action : OpenAction) (refused : Option KernelIoCode) : IoSystem × IoReply :=
  match refused with
  | some code => (s.release p id, .error code)
  | none =>
      let object : FileObject :=
        { key := p, resolved := p, access := o.file.access, share := o.file.share,
          file := (s.fileAt p).getD 0 }
      let s := { s with objects := Function.update s.objects id (some object) }
      if o.deleteOnClose then
        match s.setDeletePending id true with
        | (s, .error code) => ((s.close id).1, .error code)
        | (s, .ok _) => (s, .ok (some (id, action)))
      else (s, .ok (some (id, action)))

/-- `KernelIoManager::open`. -/
def «open» (s : IoSystem) (p : GuestPath) (o : KernelOpenOptions) (host : OpenHost) :
    IoSystem × IoReply :=
  if o.deleteOnClose && !o.file.access.delete then (s, .error .accessDenied)
  else if s.device.readOnly && (o.file.access.write || o.file.access.delete) then
    (s, .error .accessDenied)
  else match s.found p host.stat with
    | .error e => (s, .error (fromFilesystemError e))
    | .ok found =>
        if o.kind = .file ∧ found = some true then (s, .error .isDirectory)
        else if o.kind = .directory ∧ found = some false then (s, .error .notDirectory)
        else match s.share.reserve p o.file.access o.file.share with
          | (share, .error code) => ({ s with share }, .error code)
          | (share, .ok id) =>
              match openDevice s.device p o found host.call with
              | (device, .error code) => (release { s with share, device } p id, .error code)
              | (device, .ok action) =>
                  insert { s with share, device } p o id action host.insert

/-- `KernelFileObject::rename_to`. -/
def rename (s : IoSystem) (id : ℕ) (target : ResolvedPath) (replaceExisting : Bool)
    (host : Host) : IoSystem × IoReply :=
  match s.objects id with
  | none => (s, .error .invalidHandle)
  | some o =>
      if !o.access.delete then (s, .error .accessDenied)
      else if !target.sameDevice then (s, .error .crossDevice)
      else match s.share.rename s.device o.key id target replaceExisting host with
        | ((share, device), .error code) => ({ s with share, device }, .error code)
        | ((share, device), .ok key) =>
            let object := { o with key, resolved := target.path }
            let objects := Function.update s.objects id (some object)
            ({ s with share, device, objects }, .ok none)

/-- `duplicate`: one more handle of an object. -/
def duplicate (s : IoSystem) (id : ℕ) : IoSystem × IoReply :=
  match s.objects id with
  | none => (s, .error .invalidHandle)
  | some o =>
      let object := { o with handles := o.handles + 1 }
      ({ s with objects := Function.update s.objects id (some object) }, .ok none)

/-- A removal that a `release` has left to do; its error is dropped. -/
def remove (s : IoSystem) (p : GuestPath) (host : Host) : IoSystem × IoReply :=
  if p ∈ s.removals then
    ({ s with device := (s.device.remove p host).1, removals := s.removals.erase p }, .ok none)
  else (s, .ok none)

end IoSystem

/-- The steps of the threads. -/
inductive IoEvent
  | open (p : GuestPath) (o : KernelOpenOptions) (host : OpenHost)
  | duplicate (id : ℕ)
  | close (id : ℕ)
  | setDeletePending (id : ℕ) (value : Bool)
  | rename (id : ℕ) (target : ResolvedPath) (replaceExisting : Bool) (host : Host)
  | remove (p : GuestPath) (host : Host)
deriving DecidableEq, Repr

/-- One step. -/
def ioStep (s : IoSystem) : IoEvent → IoSystem × IoReply
  | .open p o host => s.open p o host
  | .duplicate id => s.duplicate id
  | .close id => s.close id
  | .setDeletePending id value => s.setDeletePending id value
  | .rename id target replaceExisting host => s.rename id target replaceExisting host
  | .remove p host => s.remove p host

/-- Nothing is open on a device at the start. -/
def IoSystem.boot (device : HostPathDevice) : IoSystem := { device }

/-! ### What the layer is for -/

namespace IoSystem

/-- A file is somewhere on the device. -/
def Holds (s : IoSystem) (f : ℕ) : Prop := ∃ p, s.fileAt p = some f

/-- Two live objects of one file admit each other, and the path state that a live
object uses holds its record and names the path where its file is. -/
structure Consistent (s : IoSystem) : Prop where
  compatible : ∀ i j a b, i ≠ j → s.objects i = some a → s.objects j = some b →
    a.file = b.file → Compatible a.access a.share b.access b.share
  named : ∀ i o, s.objects i = some o → ∃ path, s.share.paths o.key = some path ∧
    (∃ r ∈ path.records, r.id = i ∧ r.access = o.access ∧ r.share = o.share) ∧
    s.fileAt path.relativePath = some o.file ∧ s.fileAt o.resolved = some o.file

/-- What a step owes: a file that goes is denoted by no live object, and was
condemned if a removal took it (a rename may replace a file); an open succeeds on
no condemned file; an open or a rename that fails leaves the path states as they
were. -/
structure StepConsistent (s : IoSystem) (e : IoEvent) : Prop where
  unheld : ∀ f, s.Holds f → ¬(ioStep s e).1.Holds f → ∀ i o, s.objects i = some o → o.file ≠ f
  condemned : ∀ p host, e = .remove p host →
    ∀ f, s.Holds f → ¬(ioStep s e).1.Holds f → f ∈ s.condemned
  opened : ∀ p o host i action, e = .open p o host →
    (ioStep s e).2 = .ok (some (i, action)) →
    ∃ object, (ioStep s e).1.objects i = some object ∧ object.file ∉ s.condemned
  failed : ∀ code, (∃ p o host, e = .open p o host) ∨ (∃ i t r host, e = .rename i t r host) →
    (ioStep s e).2 = .error code → (ioStep s e).1.share.paths = s.share.paths

/-- Nothing is open strictly below a path and nothing is to be removed there. -/
def IdleBelow (s : IoSystem) (p : GuestPath) : Prop :=
  (∀ i o, s.objects i = some o → p <+: o.key → o.key = p) ∧
    ∀ q ∈ s.removals, p <+: q → q = p

/-- The steps that keep the layer consistent: an open of a path that is not
waiting for its removal, a replacing rename to a path that is neither the
object's own nor waiting for its removal, a rename that the device carries out of
a path with nothing open and nothing to be removed strictly below it, and a
removal that the device carries out. -/
def Quiet (s : IoSystem) : IoEvent → Prop
  | .open p _ _ => p ∉ s.removals
  | .rename id target replaceExisting host => ∀ o, s.objects id = some o →
      (replaceExisting = true → target.path ≠ o.key ∧ target.path ∉ s.removals) ∧
      ((s.device.rename o.key target.path replaceExisting host).2 = .ok () →
        s.IdleBelow o.key)
  | .remove p host => p ∈ s.removals → (s.device.remove p host).2 = .ok ()
  | .duplicate _ | .close _ | .setDeletePending _ _ => True

end IoSystem
end FileSharing
end Kernel
end XenonRecomp
