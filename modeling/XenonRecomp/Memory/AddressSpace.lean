/-
# The address space and its page table

The state of `AddressSpace` that the memory-management calls work on, and the
helpers they share.  A guest page has an authoritative record (`Page`), changed
under the management lock, and a published entry (`HotEntry`), which the
lock-free accesses read; `makeHotEntry` is the entry the record calls for, and a
call that changes a record has to publish the entry again
(`src/memory/guest/page_table/hot_page_table.cpp`).  A published entry that maps
a frame executable also gives the frame its first executable generation.

An entry is kept here by its fields, without the bit that lets an access go
through the host's direct aperture: which host mapping an access uses is not
visible to the guest.  The stores of a publication do not read each other, so a
loop of them is one pointwise change (`publish`).
-/

import XenonRecomp.Library.Loop
import XenonRecomp.Memory.PhysicalFrames

namespace XenonRecomp
namespace Memory

open Library Library.Loop

/-- `AddressSpace::Page`, with its defaults; `none` is
`kInvalidPhysicalPage`. -/
structure Page where
  physicalPage : Option ℕ := none
  allocationBasePage : ℕ := 0
  allocationPageCount : ℕ := 0
  allocationProtect : Protect := Protect.none
  currentProtect : Protect := Protect.none
  state : PageState := .free
  kind : RegionKind := .virtual
  explicitPhysicalMapping : Bool := false
  permanentGuard : Bool := false
deriving DecidableEq, Repr

/-- An entry of `hot_pages_`: the fields of the word that
`fast_memory::encode_page` packs. -/
structure HotEntry where
  physicalPage : ℕ := 0
  mapped : Bool := false
  read : Bool := false
  write : Bool := false
  execute : Bool := false
  slow : Bool := false
  noCache : Bool := false
  writeCombine : Bool := false
deriving DecidableEq, Repr

/-- A registered device range, without its handlers. -/
structure MmioRange where
  base : ℕ
  size : ℕ
deriving DecidableEq, Repr

/-- The page records, the frame tables, the published entries, the executable
generations, the device ranges and the bytes of physical memory.  A generation
is kept as the number of times it was advanced (`generationWord` is the word in
the table). -/
structure AddressSpace where
  pages : ℕ → Page
  frames : Frames
  hot : ℕ → HotEntry
  advances : ℕ → ℕ
  mmioRanges : List MmioRange
  memory : ℕ → BitVec 8

/-! ### Executable generations -/

/-- The 32-bit generation after `n` advances: zero is left once and never
returned to. -/
def generationWord (n : ℕ) : ℕ :=
  if n = 0 then 0 else (n - 1) % 0xFFFFFFFF + 1

/-- The `next` of `advance_executable_generation`. -/
def nextGeneration (generation : ℕ) : ℕ :=
  if generation = 0 then 1 else if generation = 0xFFFFFFFF then 1 else generation + 1

/-- `executable_page_generations_[frame]`. -/
def AddressSpace.generation (s : AddressSpace) (frame : ℕ) : ℕ :=
  generationWord (s.advances frame)

/-- `advance_executable_generation`. -/
def AddressSpace.advanceExecutableGeneration (s : AddressSpace) (frame : ℕ) : AddressSpace :=
  if kPhysicalPageCount ≤ frame then s
  else { s with advances := Function.update s.advances frame (s.advances frame + 1) }

/-- Advance the generation of a frame when `changed`. -/
def AddressSpace.advanceIf (s : AddressSpace) (changed : Bool) (frame : ℕ) : AddressSpace :=
  if changed then s.advanceExecutableGeneration frame else s

/-- Zero the `count` frames from `first` on, as a device write: each of them
that ever held code gets a new generation. -/
def AddressSpace.zeroFrames (s : AddressSpace) (first count : ℕ) : AddressSpace :=
  { s with
    memory := fun a =>
      if first * kBasePageSize ≤ a ∧ a < (first + count) * kBasePageSize then 0 else s.memory a
    advances := fun f =>
      if first ≤ f ∧ f < first + count ∧ s.generation f ≠ 0 then s.advances f + 1
      else s.advances f }

/-! ### The published entries -/

/-- `page_has_mmio`: the last range that starts before the page ends reaches
into the page. -/
def pageHasMmio (ranges : List MmioRange) (page : ℕ) : Bool :=
  (ranges.takeWhile fun r => decide (r.base < (page + 1) * kBasePageSize)).getLast?.any
    fun r => decide (page * kBasePageSize < r.base + r.size)

/-- `fast_memory::encode_page`. -/
def encodePage (frame : ℕ) (protect : Protect) (slow : Bool) : HotEntry where
  physicalPage := frame % 2 ^ 17
  mapped := true
  read := Protect.has protect Protect.read
  write := Protect.has protect Protect.write
  execute := Protect.has protect Protect.execute
  slow := slow
  noCache := Protect.has protect Protect.noCache
  writeCombine := Protect.has protect Protect.writeCombine

/-- `physical_protect`. -/
def AddressSpace.physicalProtect (s : AddressSpace) (address : ℕ) : Protect :=
  if kPhysicalMemorySize ≤ address then Protect.none
  else (s.frames.metadata (address / kBasePageSize)).currentProtect

/-- `make_hot_entry`. -/
def AddressSpace.makeHotEntry (s : AddressSpace) (page : ℕ) : HotEntry :=
  if kPageCount ≤ page then {}
  else
    let address := page * kBasePageSize
    let slow := pageHasMmio s.mmioRanges page
    match (physicalAliasAddress address).filter (· < kPhysicalMemorySize) with
    | some direct => encodePage (direct / kBasePageSize) (s.physicalProtect direct) slow
    | none =>
      match regionFor address with
      | none => { slow }
      | some region =>
        if region.kind = .mmio then { slow := true }
        else if region.managed = false then { slow }
        else
          match (s.pages page).state, (s.pages page).physicalPage with
          | .committed, some frame => encodePage frame (s.pages page).currentProtect slow
          | _, _ => { slow }

/-- The frame an entry gives a generation to when it is published. -/
def HotEntry.executableFrame (e : HotEntry) : Option ℕ :=
  if e.mapped && e.execute then some e.physicalPage else none

/-- `publish_hot_page` for those of the `count` pages from `first` on that meet
`select`. -/
def AddressSpace.publish (s : AddressSpace) (first count : ℕ) (select : ℕ → Bool) :
    AddressSpace :=
  { s with
    hot := fun g =>
      if first ≤ g ∧ g < first + count ∧ g < kPageCount ∧ select g = true then s.makeHotEntry g
      else s.hot g
    advances := fun f =>
      if s.generation f = 0 ∧ f < kPhysicalPageCount ∧ ∃ i < count, first + i < kPageCount ∧
          select (first + i) = true ∧ (s.makeHotEntry (first + i)).executableFrame = some f then
        s.advances f + 1
      else s.advances f }

/-- `publish_hot_page`. -/
def AddressSpace.publishHotPage (s : AddressSpace) (page : ℕ) : AddressSpace :=
  s.publish page 1 fun _ => true

/-- `publish_hot_range`. -/
def AddressSpace.publishHotRange (s : AddressSpace) (base size : ℕ) : AddressSpace :=
  if size = 0 then s
  else
    let first := base / kBasePageSize
    let last := min ((base + size - 1) / kBasePageSize) (kPageCount - 1)
    s.publish first (last + 1 - first) fun _ => true

/-- `rebuild_hot_pages`. -/
def AddressSpace.rebuildHotPages (s : AddressSpace) : AddressSpace :=
  s.publish 0 kPageCount fun _ => true

/-- The frame a guest page shows directly, if it is a page of a direct view. -/
def frameShown (page : ℕ) : Option ℕ :=
  (physicalAliasAddress (page * kBasePageSize)).map (· / kBasePageSize)

/-- `publish_physical_alias_range`: every direct view of the frames of a
physical range is published again. -/
def AddressSpace.publishPhysicalAliasRange (s : AddressSpace) (address size : ℕ) :
    AddressSpace :=
  if size = 0 ∨ kPhysicalMemorySize ≤ address then s
  else
    let firstPage := address / kBasePageSize
    let lastPage := (min (address + size) kPhysicalMemorySize - 1) / kBasePageSize
    s.publish 0x7F000 (kPageCount - 0x7F000) fun g =>
      (frameShown g).any fun f => decide (firstPage ≤ f) && decide (f ≤ lastPage)

/-! ### Page records -/

/-- Replace the record of a page. -/
def AddressSpace.setPage (s : AddressSpace) (g : ℕ) (p : Page) : AddressSpace :=
  { s with pages := Function.update s.pages g p }

/-- Replace the record of a page, and with `xex` that of its alias. -/
def AddressSpace.modifyPair (s : AddressSpace) (xex : Bool) (g : ℕ) (change : Page → Page) :
    AddressSpace :=
  let s := s.setPage g (change (s.pages g))
  if xex then s.setPage (xexAlias g) (change (s.pages (xexAlias g))) else s

/-- The alias of an address of a XEX region. -/
def xexAliasAddress (address : ℕ) : ℕ :=
  if address < 0x90000000 then address + 0x10000000 else address - 0x10000000

/-- Publish a range, and with `xex` its alias. -/
def AddressSpace.publishPair (s : AddressSpace) (xex : Bool) (base size : ℕ) : AddressSpace :=
  let s := s.publishHotRange base size
  if xex then s.publishHotRange (xexAliasAddress base) size else s

/-- Take the frame away from a page, and with `xex` from its alias: the mapping
references go, and with them the frame itself unless the page was mapped
explicitly. -/
def detachFrame (fr : Frames) (frame g : ℕ) (xex isExplicit : Bool) : Except String Frames := do
  let fr ← removePhysicalMappingRef fr frame g
  let fr ← if xex then removePhysicalMappingRef fr frame (xexAlias g) else .ok fr
  if isExplicit then .ok fr else freePhysicalPage fr frame

end Memory
end XenonRecomp
