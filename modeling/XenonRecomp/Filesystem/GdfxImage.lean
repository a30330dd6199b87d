/-
# Parsing a GDFX disc image

`GdfxImageSource` of gdfx_image_source.cpp reads the directory tree of a disc
image.  The entries of a directory form a binary tree by their left and right
ordinals, and an entry that is a directory itself has the sector of its own
entries; all three links come from the image.  `parse_entry_tree` and
`parse_directory` follow them under a vector of the ordinals it has visited, a
limit on the depth and a limit on the number of nodes.

The two functions are one recursion here, on a fuel that counts calls inside one
another; that some fuel is enough for every image is proved in
`XenonRecomp.Filesystem.GdfxBounds`.  The visited vectors live in the state under
the number of the `parse_directory` call they belong to, and the state also keeps
a log of the reads, of the visits and of the depths, which no step looks at.  The
host may fail to open the image or to read a part of it.
-/

import XenonRecomp.Filesystem.PathNormalization

namespace XenonRecomp
namespace Filesystem
namespace Gdfx

def kSectorSize : ℕ := 2048
def kVolumeDescriptorSector : ℕ := 32
def kLikelyGameOffsets : List ℕ := [0x00000000, 0x0000FB20, 0x00020600, 0x02080000, 0x0FD90000]
def kMediaMagic : List UInt8 := "MICROSOFT*XBOX*MEDIA".toList.map fun c => c.toNat.toUInt8
def kMaxDirectoryBytes : ℕ := 32 * 1024 * 1024
def kMaxDirectoryDepth : ℕ := 64
def kMaxNodes : ℕ := 1000000
def kEntryHeaderSize : ℕ := 14

/-- The largest offset of a stream. -/
def kMaxStreamOffset : ℕ := 2 ^ 63 - 1

/-- An image file, and what the host does with it: whether it is a regular file,
whether it opens, and which reads fail. -/
structure Image where
  bytes : List UInt8
  isRegular : Bool := true
  opens : Bool := true
  readFails : ℕ → ℕ → Bool := fun _ _ => false

def Image.size (image : Image) : ℕ := image.bytes.length

def fileAttributeReadOnly : ℕ := 0x01
def fileAttributeDirectory : ℕ := 0x10
def fileAttributeNormal : ℕ := 0x80

/-- `FileInfo`, without the time of the image. -/
structure FileInfo where
  size : ℕ := 0
  allocationSize : ℕ := 0
  isDirectory : Bool := false
  readOnly : Bool := false
  attributes : ℕ := 0
deriving DecidableEq, Repr

/-- `Node`. -/
structure Node where
  name : PathText := []
  path : PathText := []
  dataOffset : ℕ := 0
  info : FileInfo := {}
  children : List ℕ := []
deriving DecidableEq, Repr

/-- `GdfxImageInfo`. -/
structure GdfxImageInfo where
  imageSize : ℕ := 0
  gamePartitionOffset : ℕ := 0
  rootSector : ℕ := 0
  rootSize : ℕ := 0
deriving DecidableEq, Repr

/-- The state of a parse: the information about the image, the nodes and their
index, the visited vectors by the number of their directory, the number of
directories, and the log. -/
structure ParseState where
  info : GdfxImageInfo := {}
  nodes : List Node := []
  pathIndex : List (PathText × ℕ) := []
  visitState : ℕ → ℕ → ℕ := fun _ _ => 0
  directories : ℕ := 0
  reads : List (ℕ × ℕ) := []
  visits : List (ℕ × ℕ) := []
  depths : List ℕ := []

/-! ### Steps that may fail -/

/-- A step of the parse: an answer, an error, or `none` when the fuel is used up,
and the state after it. -/
def ParseM (α : Type) := ParseState → Option (Except FsError α) × ParseState

namespace ParseM

variable {α β : Type}

/-- An answer. -/
def answer (a : α) : ParseM α := fun s => (some (.ok a), s)

/-- The rest of the steps, after an answer. -/
def bind (m : ParseM α) (f : α → ParseM β) : ParseM β := fun s =>
  match m s with
  | (some (.ok a), s) => f a s
  | (some (.error e), s) => (some (.error e), s)
  | (none, s) => (none, s)

instance : Monad ParseM where
  pure := answer
  bind := bind

/-- An error. -/
def fail (e : FsError) : ParseM α := fun s => (some (.error e), s)

/-- The fuel is used up. -/
def stuck : ParseM α := fun s => (none, s)

/-- The state as it is. -/
def state : ParseM ParseState := fun s => (some (.ok s), s)

/-- A change of the state. -/
def change (f : ParseState → ParseState) : ParseM Unit := fun s => (some (.ok ()), f s)

/-- An error unless the condition holds. -/
def require (ok : Bool) (e : FsError) : ParseM Unit := if ok then answer () else fail e

/-- A step that is made only if the condition holds. -/
def whenever (condition : Bool) (m : ParseM Unit) : ParseM Unit :=
  if condition then m else answer ()

end ParseM

open ParseM (fail stuck state change require whenever)

/-! ### Reading -/

/-- `read_exact`. -/
def readExact (image : Image) (offset length : ℕ) : ParseM (List UInt8) :=
  if length = 0 then pure []
  else if image.size < offset ∨ image.size - offset < length ∨ kMaxStreamOffset < offset then
    fail .invalidArgument
  else do
    change fun s => { s with reads := s.reads ++ [(offset, length)] }
    if image.readFails offset length then fail .ioError
    else pure ((image.bytes.drop offset).take length)

/-- The byte at an offset of what was read. -/
def byteAt (bytes : List UInt8) (offset : ℕ) : ℕ := (bytes.getD offset 0).toNat

/-- `read_le16`. -/
def readLe16 (bytes : List UInt8) (offset : ℕ) : ℕ :=
  byteAt bytes offset + byteAt bytes (offset + 1) * 2 ^ 8

/-- `read_le32`. -/
def readLe32 (bytes : List UInt8) (offset : ℕ) : ℕ :=
  byteAt bytes offset + byteAt bytes (offset + 1) * 2 ^ 8 + byteAt bytes (offset + 2) * 2 ^ 16 +
    byteAt bytes (offset + 3) * 2 ^ 24

/-- `checked_sector_offset`. -/
def checkedSectorOffset (base sector : ℕ) : Option ℕ :=
  if (2 ^ 64 - 1 - base) / kSectorSize < sector then none else some (base + sector * kSectorSize)

/-- `round_sector`. -/
def roundSector (size : ℕ) : ℕ :=
  if size = 0 then 0
  else if size % kSectorSize = 0 then size else size + (kSectorSize - size % kSectorSize)

/-- The offset of a sector whose `length` bytes are inside the image. -/
def sectorInside (image : Image) (base sector length : ℕ) : Option ℕ :=
  (checkedSectorOffset base sector).filter fun offset =>
    decide (offset ≤ image.size ∧ length ≤ image.size - offset)

/-! ### The directory tree -/

/-- The arguments of `parse_entry_tree`, with the number of its directory. -/
structure EntryCall where
  directoryOffset : ℕ
  directorySize : ℕ
  ordinal : ℕ
  parentIndex : ℕ
  depth : ℕ
  directory : ℕ
deriving DecidableEq, Repr

/-- The header of an entry. -/
structure EntryHeader where
  left : ℕ
  right : ℕ
  sector : ℕ
  length : ℕ
  attributes : ℕ
  nameLength : ℕ
deriving DecidableEq, Repr

/-- The start of `parse_entry_tree`: the ordinal is marked and its header read. -/
def readHeader (image : Image) (c : EntryCall) : ParseM EntryHeader := do
  let relativeOffset := c.ordinal * 4
  require (relativeOffset ≤ c.directorySize && kEntryHeaderSize ≤ c.directorySize - relativeOffset &&
    c.ordinal < c.directorySize / 4 + 1) .invalidArgument
  let s ← state
  require (s.visitState c.directory c.ordinal = 0) .invalidArgument
  change fun s => { s with
    visitState := Function.update s.visitState c.directory
      (Function.update (s.visitState c.directory) c.ordinal 1)
    visits := s.visits ++ [(c.directory, c.ordinal)] }
  let header ← readExact image (c.directoryOffset + relativeOffset) kEntryHeaderSize
  let h : EntryHeader :=
    { left := readLe16 header 0, right := readLe16 header 2, sector := readLe32 header 4,
      length := readLe32 header 8, attributes := byteAt header 12, nameLength := byteAt header 13 }
  require (h.nameLength ≠ 0 && kEntryHeaderSize + h.nameLength ≤ c.directorySize - relativeOffset)
    .invalidArgument
  pure h

/-- The name of an entry. -/
def readName (image : Image) (c : EntryCall) (h : EntryHeader) : ParseM PathText := do
  let bytes ← readExact image (c.directoryOffset + c.ordinal * 4 + kEntryHeaderSize) h.nameLength
  let name : PathText := bytes.map fun b => Char.ofNat b.toNat
  require (name.all fun ch => ch ≠ '\x00' && ch ≠ '\\' && ch ≠ '/' && ch ≠ ':') .invalidArgument
  require (name ≠ ['.'] && name ≠ ['.', '.']) .invalidArgument
  pure name

/-- The node of an entry, and its index once it is among the others. -/
def addNode (image : Image) (info : GdfxImageInfo) (c : EntryCall) (h : EntryHeader)
    (name : PathText) : ParseM ℕ := do
  let s ← state
  require (s.nodes.length < kMaxNodes && c.parentIndex < s.nodes.length) .invalidArgument
  let parentPath := (s.nodes.getD c.parentIndex {}).path
  let fullPath := if parentPath = [] then name else parentPath ++ '\\' :: name
  let key := guestPathKey fullPath
  require (!s.pathIndex.any fun entry => entry.1 = key) .invalidArgument
  let isDirectory := h.attributes &&& fileAttributeDirectory ≠ 0
  let attributes := h.attributes ||| fileAttributeReadOnly
  let attributes := if !isDirectory && attributes &&& fileAttributeNormal = 0 then
    attributes ||| fileAttributeNormal else attributes
  let dataOffset := if isDirectory then some 0
    else sectorInside image info.gamePartitionOffset h.sector h.length
  require dataOffset.isSome .invalidArgument
  let node : Node :=
    { name, path := fullPath, dataOffset := dataOffset.getD 0,
      info := { size := h.length, allocationSize := roundSector h.length, isDirectory,
                readOnly := true, attributes } }
  let index := s.nodes.length
  change fun s => { s with
    nodes := (s.nodes ++ [node]).modify c.parentIndex fun parent =>
      { parent with children := parent.children ++ [index] }
    pathIndex := s.pathIndex ++ [(key, index)] }
  pure index

/-- `parse_directory`, over the parser of its entries. -/
def parseDirectory (parseEntryTree : EntryCall → ParseM Unit) (image : Image)
    (directoryOffset directorySize parentIndex depth : ℕ) : ParseM Unit := do
  let s ← state
  require (depth < kMaxDirectoryDepth && kEntryHeaderSize ≤ directorySize &&
    directorySize ≤ kMaxDirectoryBytes && parentIndex < s.nodes.length &&
    directoryOffset ≤ image.size && directorySize ≤ image.size - directoryOffset) .invalidArgument
  change fun s => { s with
    visitState := Function.update s.visitState s.directories fun _ => 0
    directories := s.directories + 1
    depths := s.depths ++ [depth] }
  parseEntryTree
    { directoryOffset, directorySize, ordinal := 0, parentIndex, depth, directory := s.directories }

/-- The entries of an entry that is a directory. -/
def parseChild (parseEntryTree : EntryCall → ParseM Unit) (image : Image) (info : GdfxImageInfo)
    (c : EntryCall) (h : EntryHeader) (index : ℕ) : ParseM Unit :=
  match sectorInside image info.gamePartitionOffset h.sector h.length with
  | none => fail .invalidArgument
  | some offset => parseDirectory parseEntryTree image offset h.length index (c.depth + 1)

/-- `parse_entry_tree`. -/
def parseEntryTree (image : Image) (info : GdfxImageInfo) : ℕ → EntryCall → ParseM Unit
  | 0, _ => stuck
  | fuel + 1, c => do
      let h ← readHeader image c
      whenever (h.left ≠ 0) (parseEntryTree image info fuel { c with ordinal := h.left })
      let name ← readName image c h
      let index ← addNode image info c h name
      whenever (h.attributes &&& fileAttributeDirectory ≠ 0 ∧ h.length ≠ 0)
        (parseChild (parseEntryTree image info fuel) image info c h index)
      whenever (h.right ≠ 0) (parseEntryTree image info fuel { c with ordinal := h.right })
      change fun s => { s with
        visitState := Function.update s.visitState c.directory
          (Function.update (s.visitState c.directory) c.ordinal 2) }

/-! ### The source -/

/-- `GdfxImageSource`. -/
structure GdfxImageSource where
  info : GdfxImageInfo := {}
  nodes : List Node := []
  pathIndex : List (PathText × ℕ) := []
  initialized : Bool := false

/-- The candidate offset of the game partition whose volume descriptor has the
magic, with the descriptor. -/
def findPartition (image : Image) : List ℕ → ParseM (Option (ℕ × List UInt8))
  | [] => pure none
  | candidate :: candidates => fun s =>
      let offset := candidate + kVolumeDescriptorSector * kSectorSize
      if image.size < offset ∨ image.size - offset < 32 then findPartition image candidates s
      else
        match readExact image offset 32 s with
        | (some (.ok descriptor), s) =>
            if descriptor.take kMediaMagic.length = kMediaMagic then
              (some (.ok (some (candidate, descriptor))), s)
            else findPartition image candidates s
        | (_, s) => findPartition image candidates s

/-- The end of `initialize`: the root directory that the descriptor names. -/
def parseRoot (fuel : ℕ) (image : Image) (info : GdfxImageInfo) : ParseM Unit := do
  require (kEntryHeaderSize ≤ info.rootSize && info.rootSize ≤ kMaxDirectoryBytes) .invalidArgument
  match sectorInside image info.gamePartitionOffset info.rootSector info.rootSize with
  | none => fail .invalidArgument
  | some rootOffset => do
      let rootInfo : FileInfo :=
        { isDirectory := true, readOnly := true,
          attributes := fileAttributeDirectory ||| fileAttributeReadOnly }
      change fun s => { s with
        nodes := s.nodes ++ [{ info := rootInfo }]
        pathIndex := s.pathIndex ++ [([], 0)] }
      parseDirectory (parseEntryTree image info fuel) image rootOffset info.rootSize 0 0

/-- The information about an image whose partition has been found. -/
def foundInfo (image : Image) (found : ℕ × List UInt8) : GdfxImageInfo :=
  { imageSize := image.size, gamePartitionOffset := found.1, rootSector := readLe32 found.2 20,
    rootSize := readLe32 found.2 24 }

/-- `initialize`, up to the point where an error clears the nodes. -/
def parseImage (fuel : ℕ) (image : Image) : ParseM Unit := do
  require image.isRegular .invalidArgument
  change fun s => { s with info := { s.info with imageSize := image.size } }
  require ((kVolumeDescriptorSector + 1) * kSectorSize ≤ image.size) .invalidArgument
  require image.opens .ioError
  match ← findPartition image kLikelyGameOffsets with
  | none => fail .invalidArgument
  | some found => do
      change fun s => { s with info := foundInfo image found }
      parseRoot fuel image (foundInfo image found)

/-- What `initialize` answers, the source after it, and the state of the parse at
its end. -/
structure Initialized where
  outcome : Option (Except FsError Unit)
  source : GdfxImageSource
  parse : ParseState

/-- `initialize`.  An error leaves the source without nodes. -/
def initializeSource (fuel : ℕ) (image : Image) : Initialized :=
  match parseImage fuel image {} with
  | (some (.ok ()), s) => ⟨some (.ok ()), ⟨s.info, s.nodes, s.pathIndex, true⟩, s⟩
  | (some (.error e), s) => ⟨some (.error e), ⟨s.info, [], [], false⟩, s⟩
  | (none, s) => ⟨none, ⟨s.info, [], [], false⟩, s⟩

/-! ### Using the source -/

/-- `normalize_relative`. -/
def normalizeRelative (relativePath : PathText) : Except FsError PathText :=
  if relativePath = [] ∨ relativePath = ['\\'] then .ok []
  else
    match normalizeGuestPath relativePath true with
    | .error e => .error e
    | .ok normalized =>
        if ':' ∈ normalized then .error .invalidPath
        else .ok (normalized.dropWhile (· = '\\'))

namespace GdfxImageSource

variable (source : GdfxImageSource)

/-- `find_node`. -/
def findNode (relativePath : PathText) : Option Node :=
  if !source.initialized then none
  else
    match normalizeRelative relativePath with
    | .error _ => none
    | .ok path =>
        (source.pathIndex.find? fun entry => entry.1 = guestPathKey path).bind fun entry =>
          source.nodes[entry.2]?

/-- `stat`. -/
def stat (relativePath : PathText) : Except FsError FileInfo :=
  if !source.initialized then .error .ioError
  else
    match source.findNode relativePath with
    | none => .error .notFound
    | some node => .ok node.info

/-- `list`. -/
def list (relativePath : PathText) : Except FsError (List (PathText × FileInfo)) :=
  if !source.initialized then .error .ioError
  else
    match normalizeRelative relativePath with
    | .error e => .error e
    | .ok path =>
        match (source.pathIndex.find? fun entry => entry.1 = guestPathKey path).bind fun entry =>
            source.nodes[entry.2]? with
        | none => .error .notFound
        | some directory =>
            if !directory.info.isDirectory then .error .notDirectory
            else .ok (directory.children.filterMap fun index =>
              (source.nodes[index]?).map fun child => (child.name, child.info))

/-- `read_at`, up to the read: the offset in the image and the number of bytes. -/
def readAt (relativePath : PathText) (offset length : ℕ) : Except FsError (ℕ × ℕ) :=
  if !source.initialized then .error .ioError
  else
    match source.findNode relativePath with
    | none => .error .notFound
    | some node =>
        if node.info.isDirectory then .error .isDirectory
        else if node.info.size ≤ offset ∨ length = 0 then .ok (node.dataOffset + offset, 0)
        else .ok (node.dataOffset + offset, min (node.info.size - offset) length)

/-- `disk_space`: the capacity. -/
def diskSpace : Except FsError ℕ :=
  if !source.initialized then .error .ioError else .ok source.info.imageSize

end GdfxImageSource
end Gdfx
end Filesystem
end XenonRecomp
