/-
# A device over a host directory

`HostPathDevice` serves guest paths from a directory of the host.  A guest path
is the list of its components, in the case fold that `guest_path_key` and the
case-insensitive lookup of the device use, so that two spellings of a path are
one list; the directory is a tree of files and directories
(`Library.PathTree`).  Each function follows host_path_device.cpp: the walk of
`resolve_existing`, the order of the checks of `open`, and the removal of the
destination that `rename` makes before the rename itself.

The host may fail any of these calls, and the device's own register of host
handles may refuse one: `Host` says which, and whether that was before the first
effect of the call or after it.
-/

import XenonRecomp.Library.PathTree

namespace XenonRecomp
namespace Filesystem

open Library

/-- `FsError`, without its `None`. -/
inductive FsError
  | invalidPath
  | notFound
  | alreadyExists
  | accessDenied
  | readOnly
  | notDirectory
  | isDirectory
  | directoryNotEmpty
  | invalidArgument
  | ioError
  | unsupported
  | crossDevice
  | tooManyLinks
  | sharingViolation
deriving DecidableEq, Repr

/-- `FileAccess`, a set of flags. -/
structure FileAccess where
  read : Bool := false
  write : Bool := false
  delete : Bool := false
deriving DecidableEq, Repr

/-- `ShareAccess`, a set of flags; the default is `All`. -/
structure ShareAccess where
  read : Bool := true
  write : Bool := true
  delete : Bool := true
deriving DecidableEq, Repr

/-- `CreateDisposition`. -/
inductive CreateDisposition
  | supersede
  | «open»
  | create
  | openIf
  | overwrite
  | overwriteIf
deriving DecidableEq, Repr

/-- `OpenAction`, without its `None`. -/
inductive OpenAction
  | superseded
  | opened
  | created
  | overwritten
deriving DecidableEq, Repr

/-- `OpenOptions`. -/
structure OpenOptions where
  access : FileAccess := { read := true }
  share : ShareAccess := {}
  disposition : CreateDisposition := .open
deriving DecidableEq, Repr

/-- A guest path, as its components. -/
abbrev GuestPath := List String

/-- What the host does in a call: it obeys, it fails before the call has changed
anything, or it fails after the first of the changes. -/
inductive Host
  | obeys
  | refuses (error : FsError)
  | stops (error : FsError)
deriving DecidableEq, Repr

/-- `HostPathDevice`. -/
structure HostPathDevice where
  readOnly : Bool
  tree : PathTree String

namespace HostPathDevice

variable (d : HostPathDevice)

/-- The loop of `resolve_existing`, from the node reached so far. -/
def walk (current : PathNode String) : List String → Except FsError (PathNode String)
  | [] => .ok current
  | part :: parts =>
      match d.tree.nodeAt (current.path ++ [part]) with
      | some candidate => walk candidate parts
      | none => .error (if current.isDirectory then .notFound else .notDirectory)

/-- `resolve_existing`. -/
def resolveExisting (p : GuestPath) : Except FsError (PathNode String) :=
  match d.tree.nodeAt [] with
  | some root => d.walk root p
  | none => .error .ioError

variable {d} {p : GuestPath} {n current : PathNode String} {parts : List String}

theorem walk_ok (hc : current ∈ d.tree.nodes) :
    d.walk current parts = .ok n ↔ d.tree.nodeAt (current.path ++ parts) = some n := by
  induction parts generalizing current with
  | nil =>
      rw [List.append_nil, PathTree.nodeAt_eq_some.mpr ⟨hc, rfl⟩]
      simp [walk]
  | cons part parts ih =>
      unfold walk
      cases hnode : d.tree.nodeAt (current.path ++ [part]) with
      | some candidate =>
          obtain ⟨hmem, hpath⟩ := PathTree.nodeAt_eq_some.mp hnode
          simpa [hpath] using ih hmem
      | none =>
          -- Nothing is below a path that no node has.
          have hnone : d.tree.nodeAt (current.path ++ part :: parts) = none := by
            refine PathTree.nodeAt_eq_none.mpr fun m hm hpath => ?_
            have hsplit : m.path = (current.path ++ [part]) ++ parts := by simp [hpath]
            obtain ⟨a, ha, hap, -⟩ := PathTree.exists_ancestor hm hsplit
            exact PathTree.nodeAt_eq_none.mp hnode a ha hap
          simp [hnone]

/-- `resolve_existing` finds the node of the path. -/
theorem resolveExisting_ok : d.resolveExisting p = .ok n ↔ d.tree.nodeAt p = some n := by
  obtain ⟨r, hr, hpath, hdir⟩ := d.tree.root
  have hroot : d.tree.nodeAt [] = some r := PathTree.nodeAt_eq_some.mpr ⟨hr, hpath⟩
  simp only [resolveExisting, hroot]
  rw [walk_ok hr, hpath, List.nil_append]

/-- `resolve_existing` fails exactly where there is no node. -/
theorem resolveExisting_error {e : FsError} (h : d.resolveExisting p = .error e) :
    d.tree.nodeAt p = none := by
  cases hnode : d.tree.nodeAt p with
  | none => rfl
  | some n =>
      rw [resolveExisting_ok.mpr hnode] at h
      cases h

/-- What `resolve_for_creation` finds: a node of the path, or that one can be
created there. -/
inductive Location (t : PathTree String) (p : GuestPath)
  | existing (n : PathNode String) (h : t.nodeAt p = some n)
  | free (h : t.Creatable p)

/-- `resolve_for_creation`. -/
def resolveForCreation (d : HostPathDevice) (p : GuestPath) (allowExisting : Bool) :
    Except FsError (Location d.tree p) :=
  if hne : p = [] then .error .invalidPath
  else match hparent : d.resolveExisting p.dropLast with
    | .error e => .error e
    | .ok parent =>
        if hdir : parent.isDirectory = true then
          match hnode : d.resolveExisting p with
          | .ok n =>
              if allowExisting then .ok (.existing n (resolveExisting_ok.mp hnode))
              else .error .alreadyExists
          | .error .notFound =>
              have hp := PathTree.nodeAt_eq_some.mp (resolveExisting_ok.mp hparent)
              .ok (.free ⟨hne, resolveExisting_error hnode, parent, hp.1, hp.2, hdir⟩)
          | .error e => .error e
        else .error .notDirectory

/-- `stat`: whether the path is a directory. -/
def stat (d : HostPathDevice) (p : GuestPath) (host : Host) : Except FsError Bool :=
  match host with
  | .refuses e | .stops e => .error e
  | .obeys => (d.resolveExisting p).map PathNode.isDirectory

/-- `disposition_will_mutate`. -/
def CreateDisposition.willMutate (exists_ : Bool) : CreateDisposition → Bool
  | .supersede | .create | .overwrite | .overwriteIf => true
  | .openIf => !exists_
  | .open => false

/-- The `OpenAction` of a disposition. -/
def CreateDisposition.action (exists_ : Bool) : CreateDisposition → OpenAction
  | .supersede => if exists_ then .superseded else .created
  | .open => .opened
  | .create => .created
  | .openIf => if exists_ then .opened else .created
  | .overwrite => .overwritten
  | .overwriteIf => if exists_ then .overwritten else .created

/-- The path of `open`: the dispositions that never create look the path up, the
others may create it. -/
def locate (d : HostPathDevice) (p : GuestPath) :
    CreateDisposition → Except FsError (Location d.tree p)
  | .open | .overwrite =>
      match h : d.resolveExisting p with
      | .ok n => .ok (.existing n (resolveExisting_ok.mp h))
      | .error e => .error e
  | .create => d.resolveForCreation p false
  | .supersede | .openIf | .overwriteIf => d.resolveForCreation p true

/-- `open`: the device after it, and the action or the error. -/
def «open» (d : HostPathDevice) (p : GuestPath) (o : OpenOptions) (host : Host) :
    HostPathDevice × Except FsError OpenAction :=
  if o.access = {} then (d, .error .invalidArgument)
  else if d.readOnly && o.access.write then (d, .error .readOnly)
  else match d.locate p o.disposition with
    | .error e => (d, .error e)
    | .ok (.existing n _) =>
        let mutates := CreateDisposition.willMutate true o.disposition
        if mutates && !o.access.write then (d, .error .accessDenied)
        else if d.readOnly && mutates then (d, .error .readOnly)
        else if n.isDirectory then (d, .error .isDirectory)
        else match host with
          | .refuses e | .stops e => (d, .error e)
          | .obeys => (d, .ok (CreateDisposition.action true o.disposition))
    | .ok (.free h) =>
        let mutates := CreateDisposition.willMutate false o.disposition
        if mutates && !o.access.write then (d, .error .accessDenied)
        else if d.readOnly && mutates then (d, .error .readOnly)
        else match host with
          | .refuses e => (d, .error e)
          -- The file has been created, and the stream on it fails.
          | .stops e => ({ d with tree := d.tree.create p false h }, .error e)
          | .obeys => ({ d with tree := d.tree.create p false h },
              .ok (CreateDisposition.action false o.disposition))

/-- `create_directory`, not recursive. -/
def createDirectory (d : HostPathDevice) (p : GuestPath) (host : Host) :
    HostPathDevice × Except FsError Unit :=
  if d.readOnly then (d, .error .readOnly)
  else if p = [] then (d, .error .alreadyExists)
  else match d.resolveForCreation p false with
    | .error e => (d, .error e)
    | .ok (.existing _ _) => (d, .error .alreadyExists)
    | .ok (.free h) =>
        match host with
        | .refuses e | .stops e => (d, .error e)
        | .obeys => ({ d with tree := d.tree.create p true h }, .ok ())

/-- `remove`.  The host does not remove a directory that is not empty. -/
def remove (d : HostPathDevice) (p : GuestPath) (host : Host) :
    HostPathDevice × Except FsError Unit :=
  if d.readOnly then (d, .error .readOnly)
  else if p = [] then (d, .error .accessDenied)
  else match d.resolveExisting p with
    | .error e => (d, .error e)
    | .ok _ =>
        match host with
        | .refuses e | .stops e => (d, .error e)
        | .obeys =>
            if h : d.tree.Erasable p then ({ d with tree := d.tree.erase p h }, .ok ())
            else (d, .error .directoryNotEmpty)

/-- The host's own rename of a node to a free path. -/
def hostRename (d : HostPathDevice) (src dst : GuestPath) (host : Host) :
    HostPathDevice × Except FsError Unit :=
  match host with
  | .refuses e | .stops e => (d, .error e)
  | .obeys =>
      if (d.tree.nodeAt src).isNone then (d, .error .notFound)
      else if h : d.tree.Movable src dst then ({ d with tree := d.tree.move src dst h }, .ok ())
      -- A directory does not go below itself.
      else (d, .error .ioError)

/-- `rename`.  A file at the destination is removed first. -/
def rename (d : HostPathDevice) (src dst : GuestPath) (replaceExisting : Bool) (host : Host) :
    HostPathDevice × Except FsError Unit :=
  if d.readOnly then (d, .error .readOnly)
  else if src = [] ∨ dst = [] then (d, .error .accessDenied)
  else match d.resolveExisting src with
    | .error e => (d, .error e)
    | .ok _ =>
        match d.resolveForCreation dst replaceExisting, host with
        | .error e, _ => (d, .error e)
        | .ok _, .refuses e => (d, .error e)
        | .ok (.free _), _ => d.hostRename src dst host
        | .ok (.existing n _), _ =>
            if n.isDirectory then (d, .error .isDirectory)
            else if h : d.tree.Erasable dst then
              hostRename { d with tree := d.tree.erase dst h } src dst host
            else (d, .error .ioError)

/-! ### What the calls do to the tree -/

/-- The device `d'` is `d`, perhaps with a new node at `p`. -/
def Grows (d d' : HostPathDevice) (p : GuestPath) : Prop :=
  d' = d ∨ ∃ isDirectory h, d' = { d with tree := d.tree.create p isDirectory h }

variable {d' : HostPathDevice} {q src dst : GuestPath} {f : ℕ} {host : Host}

/-- Growth keeps every node where it is. -/
theorem Grows.fileAt (h : Grows d d' p) (hq : d.tree.fileAt q = some f) :
    d'.tree.fileAt q = some f := by
  rcases h with rfl | ⟨isDirectory, hfree, rfl⟩
  · exact hq
  · have hne : q ≠ p := by
      rintro rfl
      simp [PathTree.fileAt, hfree.2.1] at hq
    rw [PathTree.fileAt_create, if_neg hne, hq]

/-- A node of a grown device was there, or it is the new one. -/
theorem Grows.fileAt_inv (h : Grows d d' p) (hq : d'.tree.fileAt q = some f) :
    d.tree.fileAt q = some f ∨ q = p ∧ f = d.tree.next := by
  rcases h with rfl | ⟨isDirectory, hfree, rfl⟩
  · exact .inl hq
  · rw [PathTree.fileAt_create] at hq
    split at hq
    · next hqp => exact .inr ⟨hqp, by simpa using hq.symm⟩
    · exact .inl hq

theorem Grows.next_le (h : Grows d d' p) : d.tree.next ≤ d'.tree.next := by
  rcases h with rfl | ⟨isDirectory, hfree, rfl⟩
  · exact le_rfl
  · exact Nat.le_succ _

/-- An open grows the device. -/
theorem open_grows (o : OpenOptions) : Grows d (d.open p o host).1 p := by
  unfold HostPathDevice.open
  split_ifs with haccess hreadOnly
  · exact .inl rfl
  · exact .inl rfl
  split
  · exact .inl rfl
  · dsimp only
    split_ifs
    · exact .inl rfl
    · exact .inl rfl
    · exact .inl rfl
    · cases host <;> exact .inl rfl
  · next hfree _ =>
      dsimp only
      split_ifs
      · exact .inl rfl
      · exact .inl rfl
      · cases host with
        | refuses e => exact .inl rfl
        | obeys => exact .inr ⟨false, hfree, rfl⟩
        | stops e => exact .inr ⟨false, hfree, rfl⟩

/-- An open that succeeds has a node. -/
theorem open_fileAt {o : OpenOptions} {action : OpenAction}
    (h : (d.open p o host).2 = .ok action) :
    ∃ f, (d.open p o host).1.tree.fileAt p = some f := by
  revert h
  unfold HostPathDevice.open
  split_ifs with haccess hreadOnly
  · rintro ⟨⟩
  · rintro ⟨⟩
  split
  · rintro ⟨⟩
  · next n hn _ =>
      have hfile : d.tree.fileAt p = some n.file := by simp [PathTree.fileAt, hn]
      dsimp only
      split_ifs
      · rintro ⟨⟩
      · rintro ⟨⟩
      · rintro ⟨⟩
      · cases host with
        | obeys => exact fun _ => ⟨n.file, hfile⟩
        | refuses e => rintro ⟨⟩
        | stops e => rintro ⟨⟩
  · next hfree _ =>
      dsimp only
      split_ifs
      · rintro ⟨⟩
      · rintro ⟨⟩
      · cases host with
        | obeys => exact fun _ => ⟨d.tree.next, by rw [PathTree.fileAt_create, if_pos rfl]⟩
        | refuses e => rintro ⟨⟩
        | stops e => rintro ⟨⟩

/-- The creation of a directory grows the device, and has a node when it
succeeds. -/
theorem createDirectory_grows : Grows d (d.createDirectory p host).1 p ∧
    ∀ u, (d.createDirectory p host).2 = .ok u →
      ∃ f, (d.createDirectory p host).1.tree.fileAt p = some f := by
  unfold HostPathDevice.createDirectory
  split_ifs with hreadOnly hroot
  · exact ⟨.inl rfl, by rintro u ⟨⟩⟩
  · exact ⟨.inl rfl, by rintro u ⟨⟩⟩
  split
  · exact ⟨.inl rfl, by rintro u ⟨⟩⟩
  · exact ⟨.inl rfl, by rintro u ⟨⟩⟩
  · next hfree _ =>
      cases host with
      | obeys =>
          exact ⟨.inr ⟨true, hfree, rfl⟩,
            fun _ _ => ⟨d.tree.next, by rw [PathTree.fileAt_create, if_pos rfl]⟩⟩
      | refuses e => exact ⟨.inl rfl, by rintro u ⟨⟩⟩
      | stops e => exact ⟨.inl rfl, by rintro u ⟨⟩⟩

/-- A removal that fails changes nothing; one that succeeds erases the node. -/
theorem remove_cases : ((∃ e, (d.remove p host).2 = .error e) ∧ (d.remove p host).1 = d) ∨
    ∃ h, d.remove p host = ({ d with tree := d.tree.erase p h }, .ok ()) := by
  unfold HostPathDevice.remove
  iterate 3
    split
    · exact .inl ⟨⟨_, rfl⟩, rfl⟩
  · cases host with
    | obeys =>
        dsimp only
        split
        · next herase => exact .inr ⟨herase, rfl⟩
        · exact .inl ⟨⟨_, rfl⟩, rfl⟩
    | refuses e => exact .inl ⟨⟨_, rfl⟩, rfl⟩
    | stops e => exact .inl ⟨⟨_, rfl⟩, rfl⟩

/-- The device `d'` is `d`, perhaps without the file at `p`, which a replacing
rename has removed. -/
def Cleared (d d' : HostPathDevice) (p : GuestPath) (replace : Bool) : Prop :=
  d' = d ∨ replace = true ∧ ∃ h, d' = { d with tree := d.tree.erase p h }

theorem hostRename_cases : ((∃ e, (d.hostRename src dst host).2 = .error e) ∧
      (d.hostRename src dst host).1 = d) ∨
    ∃ h, (∃ f, d.tree.fileAt src = some f) ∧
      d.hostRename src dst host = ({ d with tree := d.tree.move src dst h }, .ok ()) := by
  unfold hostRename
  cases host with
  | refuses e => exact .inl ⟨⟨_, rfl⟩, rfl⟩
  | stops e => exact .inl ⟨⟨_, rfl⟩, rfl⟩
  | obeys =>
      dsimp only
      split_ifs with hnone hmove
      · exact .inl ⟨⟨_, rfl⟩, rfl⟩
      · obtain ⟨n, hn⟩ : ∃ n, d.tree.nodeAt src = some n := by
          simpa [Option.isNone_iff_eq_none, Option.ne_none_iff_exists'] using hnone
        exact .inr ⟨hmove, ⟨n.file, by simp [PathTree.fileAt, hn]⟩, rfl⟩
      · exact .inl ⟨⟨_, rfl⟩, rfl⟩

/-- A node is found for creation only where existing ones are allowed. -/
theorem resolveForCreation_existing {allow : Bool} {h : d.tree.nodeAt p = some n}
    (hfound : d.resolveForCreation p allow = .ok (.existing n h)) : allow = true := by
  unfold resolveForCreation at hfound
  grind

/-- **The effect of a rename.**  The destination may be cleared; after that, a
rename that fails changes nothing, and one that succeeds moves the node. -/
theorem rename_cases {replace : Bool} : ∃ c, Cleared d c dst replace ∧
    (((∃ e, (d.rename src dst replace host).2 = .error e) ∧
        (d.rename src dst replace host).1 = c) ∨
      ∃ h, (∃ f, c.tree.fileAt src = some f) ∧
        d.rename src dst replace host = ({ c with tree := c.tree.move src dst h }, .ok ())) := by
  have hself : Cleared d d dst replace := .inl rfl
  unfold HostPathDevice.rename
  iterate 4
    split
    · exact ⟨d, hself, .inl ⟨⟨_, rfl⟩, rfl⟩⟩
  · exact ⟨d, hself, .inl ⟨⟨_, rfl⟩, rfl⟩⟩
  · exact ⟨d, hself, hostRename_cases⟩
  · next hlocation _ =>
      have hreplace := resolveForCreation_existing hlocation
      split
      · exact ⟨d, hself, .inl ⟨⟨_, rfl⟩, rfl⟩⟩
      split
      · next herase => exact ⟨_, .inr ⟨hreplace, herase, rfl⟩, hostRename_cases⟩
      · exact ⟨d, hself, .inl ⟨⟨_, rfl⟩, rfl⟩⟩

end HostPathDevice
end Filesystem
end XenonRecomp
