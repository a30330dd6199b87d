/-
# The memory-management calls

`reserve_fixed` to `reset`: the calls of `AddressSpace` that change which guest
pages exist, what backs them and how they may be accessed
(`src/memory/guest/virtual/`, `physical/`, `access/mmio_registration.cpp` and
`address_space.cpp`).  Each takes the management lock for its whole length, so
a call is one step of the state.  A call replies with its result and the values
it writes through its out-parameters, or throws the `std::logic_error` of a
helper.

Retired frames are taken back at every allocation when the lock-free readers
have drained by then.  Whether they have is decided outside the state, so a
call that allocates has an oracle for it: `drained i` at its `i`-th page.
-/

import XenonRecomp.Memory.AddressSpace

namespace XenonRecomp
namespace Memory

open Library Library.Loop

/-- What a call returns: its result and its out-parameters. -/
structure Reply where
  ok : Bool
  outAddress : Option ℕ := none
  oldProtect : Option Protect := none
deriving DecidableEq, Repr

namespace AddressSpace

/-! ### Reservation -/

/-- `range_is_allocatable`. -/
def rangeIsAllocatable (base size requiredPageSize : ℕ) : Bool :=
  match regionFor base with
  | none => false
  | some region =>
    decide (size ≠ 0) && hasSingleBit requiredPageSize && region.managed &&
      requiredPageSize == region.allocationPageSize && base % requiredPageSize == 0 &&
      size % requiredPageSize == 0 && decide (base + size - 1 ≤ region.last)

/-- The record of a page that a reservation takes. -/
def reservedPage (p : Page) (first count : ℕ) (protect : Protect) (kind : RegionKind) : Page :=
  { p with
    state := .reserved
    allocationBasePage := first
    allocationPageCount := count
    allocationProtect := protect
    currentProtect := protect
    kind }

/-- One turn of the second loop of `reserve_pages`. -/
def reservePage (base count : ℕ) (protect : Protect) (kind : RegionKind) (i : ℕ)
    (s : AddressSpace) : AddressSpace :=
  let g := base / kBasePageSize + i
  let page := reservedPage (s.pages g) (base / kBasePageSize) count protect kind
  let s := s.setPage g page
  if kind = .xex then
    s.setPage (xexAlias g)
      { page with allocationBasePage := xexAliasAddress base / kBasePageSize }
  else s

/-- `reserve_pages`, whose callers all commit by a call of their own. -/
def reservePages (s : AddressSpace) (base size : ℕ) (protect : Protect) : Bool × AddressSpace :=
  if Protect.valid protect = false then (false, s)
  else
    match regionFor base with
    | none => (false, s)
    | some region =>
      let first := base / kBasePageSize
      let count := size / kBasePageSize
      if ∃ i < count, (s.pages (first + i)).state ≠ .free ∨
          (region.kind = .xex ∧ (s.pages (xexAlias (first + i))).state ≠ .free) then (false, s)
      else
        let s := loop (reservePage base count protect region.kind) count s
        (true, s.publishPair (region.kind == .xex) base size)

/-- `reserve_fixed`. -/
def reserveFixed (s : AddressSpace) (base size : ℕ) (protect : Protect) :
    Bool × AddressSpace :=
  match regionFor base with
  | none => (false, s)
  | some region =>
    if rangeIsAllocatable base size region.allocationPageSize = false then (false, s)
    else s.reservePages base size protect

/-! ### Commitment -/

/-- A page of the range is given a frame. -/
def backPage (s : AddressSpace) (xex : Bool) (g frame : ℕ) (protect : Protect)
    (zeroInitialize : Bool) : Except String AddressSpace := do
  let back (p : Page) : Page :=
    { p with physicalPage := some frame, state := .committed, currentProtect := protect }
  let s := s.setPage g (back (s.pages g))
  let frames ← addPhysicalMappingRef s.frames frame g
  let s := { s with frames }
  let s := if zeroInitialize then s.zeroFrames frame 1 else s
  if xex then
    let s := s.setPage (xexAlias g) (back (s.pages (xexAlias g)))
    let frames ← addPhysicalMappingRef s.frames frame (xexAlias g)
    return { s with frames }
  else return s

/-- The record of a page whose new frame is taken back. -/
def unbacked (p : Page) : Page :=
  { p with physicalPage := none, state := .reserved }

/-- One turn of the rollback loop of `commit_pages`: a page that was given a
frame by this call loses it. -/
def rollbackPage (xex : Bool) (first : ℕ) (newlyAllocated : List ℕ) (j : ℕ)
    (s : AddressSpace) : Except String AddressSpace :=
  match (s.pages (first + j)).physicalPage with
  | none => .ok s
  | some frame =>
    if frame ∉ newlyAllocated then .ok s
    else do
      let frames ← detachFrame s.frames frame (first + j) xex false
      return { s with frames }.modifyPair xex (first + j) unbacked

/-- The loop of `commit_pages` from page `i` on, with `n` pages to go: a page
that is committed gets the new protection, any other one a frame; when the
frames run out, the frames given so far are taken back. -/
def commitLoop (xex : Bool) (first : ℕ) (protect : Protect) (zeroInitialize : Bool)
    (drained : ℕ → Bool) : ℕ → ℕ → List ℕ → AddressSpace → Except String (Bool × AddressSpace)
  | 0, _, _, s => .ok (true, s)
  | n + 1, i, newlyAllocated, s =>
    if (s.pages (first + i)).state = .committed then
      commitLoop xex first protect zeroInitialize drained n (i + 1) newlyAllocated
        (s.modifyPair xex (first + i) fun p => { p with currentProtect := protect })
    else do
      let (allocated, frames) ← allocatePhysicalPage s.frames false (drained i)
      let s := { s with frames }
      match allocated with
      | none =>
        let s ← loopM (rollbackPage xex first newlyAllocated) i s
        return (false, s)
      | some frame =>
        let s ← s.backPage xex (first + i) frame protect zeroInitialize
        commitLoop xex first protect zeroInitialize drained n (i + 1)
          (newlyAllocated ++ [frame]) s

/-- `commit_pages`. -/
def commitPages (s : AddressSpace) (base size : ℕ) (protect : Protect) (zeroInitialize : Bool)
    (drained : ℕ → Bool) : Except String (Bool × AddressSpace) :=
  if Protect.valid protect = false then .ok (false, s)
  else
    match regionFor base with
    | none => .ok (false, s)
    | some region =>
      let first := base / kBasePageSize
      let count := size / kBasePageSize
      if ∃ i < count, (s.pages (first + i)).state = .free ∨
          (s.pages (first + i)).permanentGuard = true then .ok (false, s)
      else do
        let (ok, s) ← commitLoop (region.kind == .xex) first protect zeroInitialize drained
          count 0 [] s
        return (ok, if ok then s.publishPair (region.kind == .xex) base size else s)

/-- `commit_fixed`. -/
def commitFixed (s : AddressSpace) (base size : ℕ) (protect : Protect) (zeroInitialize : Bool)
    (drained : ℕ → Bool) : Except String (Bool × AddressSpace) :=
  match regionFor base with
  | none => .ok (false, s)
  | some region =>
    if rangeIsAllocatable base size region.allocationPageSize = false then .ok (false, s)
    else
      let first := base / kBasePageSize
      let count := size / kBasePageSize
      if ∀ i < count, (s.pages (first + i)).state = .free then
        match s.reservePages base size protect with
        | (false, s) => .ok (false, s)
        | (true, s) => s.commitPages base size protect zeroInitialize drained
      else s.commitPages base size protect zeroInitialize drained

/-! ### Allocation -/

/-- The pages of a candidate, which all have to be free. -/
def candidateFree (s : AddressSpace) (candidate size : ℕ) : Bool :=
  decide (∀ i < size / kBasePageSize,
    (s.pages (candidate / kBasePageSize + i)).state = .free)

/-- `page_index_in_bounds`. -/
def pageIndexInBounds (candidate size : ℕ) : Bool :=
  size / kBasePageSize == 0 ||
    decide (candidate / kBasePageSize + (size / kBasePageSize - 1) < kPageCount)

/-- The search of `allocate` from `candidate` upwards. -/
def searchUp (s : AddressSpace) (region : Region) (size alignment : ℕ) : ℕ → ℕ → Option ℕ
  | 0, _ => none
  | fuel + 1, candidate =>
    -- The bound is computed in 64 bits, where `0 + 0 - 1` is no address.
    if candidate + size = 0 ∨ region.last < candidate + size - 1 then none
    else if pageIndexInBounds candidate size = false then none
    else if s.candidateFree candidate size then some candidate
    else searchUp s region size alignment fuel (candidate + alignment)

/-- The search of `allocate` from `candidate` downwards. -/
def searchDown (s : AddressSpace) (region : Region) (size alignment : ℕ) : ℕ → ℕ → Option ℕ
  | 0, _ => none
  | fuel + 1, candidate =>
    if candidate < region.base then none
    else if pageIndexInBounds candidate size = false then none
    else if s.candidateFree candidate size then some candidate
    else if candidate < region.base + alignment then none
    else searchDown s region size alignment fuel (candidate - alignment)

/-- The first candidate of a downward search: `end + 1 - size` is computed in
64 bits, cut to 32 and aligned. -/
def highStart (region : Region) (size alignment : ℕ) : ℕ :=
  alignDown ((region.last + 1 + 2 ^ 64 - size) % 2 ^ 64 % 2 ^ 32) alignment

/-- The address `allocate` chooses; a candidate is a multiple of the alignment,
which is at least a page, so `kPageCount` turns are enough. -/
def searchAllocation (s : AddressSpace) (region : Region) (size alignment : ℕ)
    (topDown : Bool) : Option ℕ :=
  if topDown then
    s.searchDown region size alignment kPageCount (highStart region size alignment)
  else s.searchUp region size alignment kPageCount (alignUp region.base alignment)

/-- The region `allocate` works in. -/
def allocationRegion (pageSize : ℕ) : Option Region :=
  kRegions.find? fun r => r.kind == .virtual && r.allocationPageSize == pageSize

/-- `allocate`. -/
def allocate (s : AddressSpace) (size alignment : ℕ) (protect : Protect) (topDown : Bool)
    (requestedPageSize : Option ℕ) (commit zeroInitialize : Bool) (drained : ℕ → Bool) :
    Except String (Reply × AddressSpace) :=
  if size = 0 then .ok (⟨false, none, none⟩, s)
  else
    let pageSize := requestedPageSize.getD kBasePageSize
    match allocationRegion pageSize with
    | none => .ok (⟨false, none, none⟩, s)
    | some region =>
      let alignment := max (if alignment = 0 then pageSize else alignment) pageSize
      if hasSingleBit alignment = false then .ok (⟨false, none, none⟩, s)
      else
        let size := alignUp size pageSize
        match s.searchAllocation region size alignment topDown with
        | none => .ok (⟨false, none, none⟩, s)
        | some address =>
          match s.reservePages address size protect with
          | (false, s) => .ok (⟨false, some address, none⟩, s)
          | (true, s) =>
            if commit then do
              let (ok, s) ← s.commitPages address size protect zeroInitialize drained
              return (⟨ok, some address, none⟩, s)
            else .ok (⟨true, some address, none⟩, s)

/-! ### Decommitment, release and protection -/

/-- The pages a management call normalises its range to: the first one and how
many, in whole pages of the region's own size. -/
def normalizedPages (region : Region) (base size : ℕ) : ℕ × ℕ :=
  let requestedEnd := base + size - 1
  let normalizedEnd := min region.last
    (alignDown requestedEnd region.allocationPageSize + (region.allocationPageSize - 1))
  let first := alignDown base region.allocationPageSize / kBasePageSize
  (first, normalizedEnd / kBasePageSize + 1 - first)

/-- The record of a decommitted page. -/
def decommitted (p : Page) : Page :=
  { p with physicalPage := none, explicitPhysicalMapping := false, state := .reserved }

/-- One turn of the second loop of `decommit`. -/
def decommitPage (xex : Bool) (first i : ℕ) (s : AddressSpace) :
    Except String AddressSpace := do
  let g := first + i
  let page := s.pages g
  match page.state, page.physicalPage with
  | .committed, some frame =>
    let s := s.advanceIf (Protect.has page.currentProtect Protect.execute) frame
    let frames ← detachFrame s.frames frame g xex page.explicitPhysicalMapping
    let s := { s with frames }
    let s := if xex then s.setPage (xexAlias g) (unbacked (s.pages (xexAlias g))) else s
    return s.setPage g (decommitted page)
  | _, _ => return s.setPage g { page with state := .reserved }

/-- `decommit`. -/
def decommit (s : AddressSpace) (base size : ℕ) : Except String (Bool × AddressSpace) :=
  if size = 0 then .ok (false, s)
  else
    match regionFor base with
    | none => .ok (false, s)
    | some region =>
      if region.managed = false then .ok (false, s)
      else if region.last < base + size - 1 then .ok (false, s)
      else
        let (first, count) := normalizedPages region base size
        if ∃ i < count, (s.pages (first + i)).state = .free ∨
            (s.pages (first + i)).permanentGuard = true then .ok (false, s)
        else do
          let s ← loopM (decommitPage (region.kind == .xex) first) count s
          return (true, s.publishPair (region.kind == .xex)
            (alignDown base region.allocationPageSize) (count * kBasePageSize))

/-- One turn of the loop of `release`. -/
def releasePage (xex : Bool) (first i : ℕ) (s : AddressSpace) : Except String AddressSpace := do
  let g := first + i
  let page := s.pages g
  match page.state, page.physicalPage with
  | .committed, some frame =>
    let s := s.advanceIf (Protect.has page.currentProtect Protect.execute) frame
    let frames ← detachFrame s.frames frame g xex page.explicitPhysicalMapping
    let s := { s with frames }
    let s := if xex then s.setPage (xexAlias g) {} else s
    return s.setPage g {}
  | _, _ =>
    let s := if xex then s.setPage (xexAlias g) {} else s
    return s.setPage g {}

/-- `release`. -/
def release (s : AddressSpace) (allocationBase : ℕ) : Except String (Bool × AddressSpace) :=
  let first := allocationBase / kBasePageSize
  let page := s.pages first
  if page.state = .free ∨ page.permanentGuard = true ∨ page.allocationBasePage ≠ first ∨
      page.allocationPageCount = 0 then .ok (false, s)
  else
    match regionFor allocationBase with
    | none => .ok (false, s)
    | some region =>
      if region.managed = false then .ok (false, s)
      else do
        let count := page.allocationPageCount
        let s ← loopM (releasePage (region.kind == .xex) first) count s
        return (true, s.publishPair (region.kind == .xex) allocationBase (count * kBasePageSize))

/-- One turn of the second loop of `protect`: a change of the execute
permission advances the generation of the frame. -/
def protectPage (protect : Protect) (first i : ℕ) (s : AddressSpace) : AddressSpace :=
  let g := first + i
  let page := s.pages g
  let xex := page.kind == .xex
  let executeChanged := Protect.has page.currentProtect Protect.execute !=
    Protect.has protect Protect.execute
  let s := match page.physicalPage with
    | some frame => s.advanceIf executeChanged frame
    | none => s
  let s := s.modifyPair xex g fun p => { p with currentProtect := protect }
  let s := s.publishHotPage g
  if xex then s.publishHotPage (xexAlias g) else s

/-- `protect`. -/
def protect (s : AddressSpace) (base size : ℕ) (protectValue : Protect) :
    Reply × AddressSpace :=
  if size = 0 ∨ Protect.valid protectValue = false then (⟨false, none, none⟩, s)
  else
    match regionFor base with
    | none => (⟨false, none, none⟩, s)
    | some region =>
      if region.managed = false then (⟨false, none, none⟩, s)
      else if region.last < base + size - 1 then (⟨false, none, none⟩, s)
      else
        let (first, count) := normalizedPages region base size
        let allocationBasePage := (s.pages first).allocationBasePage
        if ∃ i < count, (s.pages (first + i)).state ≠ .committed ∨
            (s.pages (first + i)).permanentGuard = true ∨
            (s.pages (first + i)).allocationBasePage ≠ allocationBasePage then
          (⟨false, none, none⟩, s)
        else
          (⟨true, none, some (s.pages first).currentProtect⟩,
            loop (protectPage protectValue first) count s)

/-! ### Physical memory -/

end AddressSpace

/-- `PhysicalAllocationOptions`. -/
structure PhysicalAllocationOptions where
  pageClass : PhysicalPageClass := .page4K
  alignment : BitVec 32 := 0
  minimumAddress : BitVec 32 := 0x1000000
  maximumAddress : BitVec 32 := 0x1FFEFFFF
  protect : Protect := Protect.readWrite
  topDown : Bool := true
  zeroInitialize : Bool := true

/-- The record of a frame of an explicit allocation. -/
def explicitMetadata (first count pageSize : ℕ) (protect : Protect) : PhysicalPageMetadata where
  allocationBasePage := some first
  allocationPageCount := count
  allocationPageSize := pageSize
  allocationProtect := protect
  currentProtect := protect
  explicitAllocation := true

namespace AddressSpace

/-- `allocate_physical`. -/
def allocatePhysical (s : AddressSpace) (size : ℕ) (options : PhysicalAllocationOptions)
    (drained : Bool) : Except String (Reply × AddressSpace) :=
  if size = 0 ∨ Protect.valid options.protect = false ∨
      Protect.has options.protect Protect.read = false then .ok (⟨false, none, none⟩, s)
  else
    let pageSize := options.pageClass.size
    let alignment := max
      (if options.alignment.toNat = 0 then pageSize else options.alignment.toNat) pageSize
    if hasSingleBit alignment = false then .ok (⟨false, none, none⟩, s)
    else
      let count := alignUp size pageSize / kBasePageSize
      let minimumAddress := max options.minimumAddress.toNat (systemPageCount * kBasePageSize)
      let maximumAddress :=
        min options.maximumAddress.toNat (kPhysicalAllocatableEndExclusive - 1)
      let maximumAddress := if options.pageClass = .page4K then
        min maximumAddress kPhysical4KAddressableEndInclusive else maximumAddress
      if maximumAddress < minimumAddress then .ok (⟨false, none, none⟩, s)
      else
        let minimumPage := alignUp minimumAddress kBasePageSize / kBasePageSize
        let maximumPageExclusive := (maximumAddress + 1) / kBasePageSize
        if maximumPageExclusive ≤ minimumPage ∨
            maximumPageExclusive - minimumPage < count then .ok (⟨false, none, none⟩, s)
        else do
          let (reserved, frames) ← reservePhysicalRun s.frames count
            (alignment / kBasePageSize) options.topDown minimumPage maximumPageExclusive drained
          let s := { s with frames }
          match reserved with
          | none => return (⟨false, none, none⟩, s)
          | some first =>
            let address := first * kBasePageSize
            let s := { s with frames := { s.frames with
              metadata := fill s.frames.metadata first count
                (explicitMetadata first count pageSize options.protect) } }
            let s := if options.zeroInitialize then s.zeroFrames first count else s
            return (⟨true, some address, none⟩,
              s.publishPhysicalAliasRange address (count * kBasePageSize))

/-- The frames `free_physical` gives back, executable ones with a new
generation. -/
def freeFrame (first i : ℕ) (s : AddressSpace) : AddressSpace :=
  let frame := first + i
  let s := s.advanceIf
    (Protect.has (s.frames.metadata frame).currentProtect Protect.execute) frame
  { s with frames := { s.frames with
      owner := Function.update s.frames.owner frame .retired
      metadata := Function.update s.frames.metadata frame {} } }

/-- `free_physical`. -/
def freePhysical (s : AddressSpace) (physicalBase size : ℕ) :
    Except String (Bool × AddressSpace) :=
  if size = 0 ∨ physicalBase % kBasePageSize ≠ 0 ∨
      kPhysicalMemorySize < physicalBase + size then .ok (false, s)
  else
    let first := physicalBase / kBasePageSize
    let firstMetadata := s.frames.metadata first
    let requestedCount := if firstMetadata.explicitAllocation then
      alignUp size firstMetadata.allocationPageSize / kBasePageSize else pageCountFor size
    let count := if firstMetadata.explicitAllocation then
      firstMetadata.allocationPageCount else requestedCount
    if kPhysicalPageCount < first + count ∨ requestedCount ≠ count then .ok (false, s)
    else if firstMetadata.explicitAllocation = false ∨
        firstMetadata.allocationBasePage ≠ some first ∨
        firstMetadata.allocationPageCount ≠ count then .ok (false, s)
    else if ∃ i < count, s.frames.owner (first + i) ≠ .explicit ∨
        s.frames.refs (first + i) ≠ 0 ∨
        (s.frames.metadata (first + i)).explicitAllocation = false ∨
        (s.frames.metadata (first + i)).allocationBasePage ≠ some first ∨
        (s.frames.metadata (first + i)).allocationPageCount ≠ count then .ok (false, s)
    else
      let s := loop (freeFrame first) count s
      match s.frames.retired.insertCoalesced kPhysicalPageCount first count with
      | none => .error "physical retired-range overlap"
      | some retired =>
        .ok (true, { s with frames := { s.frames with retired } }.publishPhysicalAliasRange
          physicalBase (count * kBasePageSize))

/-- One turn of the last loop of `protect_physical`. -/
def protectFrame (protect : Protect) (first i : ℕ) (s : AddressSpace) : AddressSpace :=
  let frame := first + i
  let metadata := s.frames.metadata frame
  let s := s.advanceIf (Protect.has metadata.currentProtect Protect.execute !=
    Protect.has protect Protect.execute) frame
  { s with frames := { s.frames with
      metadata := Function.update s.frames.metadata frame
        { metadata with currentProtect := protect } } }

/-- `protect_physical`. -/
def protectPhysical (s : AddressSpace) (physicalBase size : ℕ) (protectValue : Protect) :
    Reply × AddressSpace :=
  if size = 0 ∨ Protect.valid protectValue = false ∨
      kPhysicalMemorySize < physicalBase + size then (⟨false, none, none⟩, s)
  else
    let requested := s.frames.metadata (physicalBase / kBasePageSize)
    match requested.allocationBasePage with
    | none => (⟨false, none, none⟩, s)
    | some basePage =>
      if requested.explicitAllocation = false ∨ requested.allocationPageCount = 0 then
        (⟨false, none, none⟩, s)
      else
        let pageSize := requested.allocationPageSize
        let allocationEnd := (basePage + requested.allocationPageCount) * kBasePageSize
        if physicalBase < basePage * kBasePageSize ∨ allocationEnd < physicalBase + size then
          (⟨false, none, none⟩, s)
        else
          let normalizedEnd := min allocationEnd
            ((physicalBase + size + pageSize - 1) / pageSize * pageSize)
          let first := alignDown physicalBase pageSize / kBasePageSize
          let count := normalizedEnd / kBasePageSize - first
          let oldProtect := (s.frames.metadata first).currentProtect
          if ∃ i < count, (s.frames.metadata (first + i)).explicitAllocation = false ∨
              (s.frames.metadata (first + i)).allocationBasePage ≠ some basePage ∨
              (s.frames.metadata (first + i)).allocationPageCount ≠
                requested.allocationPageCount ∨
              (s.frames.metadata (first + i)).allocationPageSize ≠ pageSize then
            (⟨false, none, some oldProtect⟩, s)
          else
            (⟨true, none, some oldProtect⟩,
              (loop (protectFrame protectValue first) count s).publishPhysicalAliasRange
                (first * kBasePageSize) (count * kBasePageSize))

/-! ### Explicit mappings -/

/-- How many of the at most `n` frames from `frame` on are free, before the
first that is not. -/
def freeRun (owner : ℕ → Ownership) (frame : ℕ) : ℕ → ℕ
  | 0 => 0
  | n + 1 => if owner frame = .free then freeRun owner (frame + 1) n + 1 else 0

/-- The first loop of `map_virtual_to_physical` over the `n` frames from `frame`
on, the next `skip` of which it has seen: no frame may be retired, and the free
ones have to be in the free ranges. -/
def checkFrames (fr : Frames) : ℕ → ℕ → ℕ → Except String Bool
  | 0, _, _ => .ok true
  | n + 1, frame, skip + 1 => checkFrames fr n (frame + 1) skip
  | n + 1, frame, 0 =>
    if fr.owner frame = .retired then .ok false
    else if fr.owner frame ≠ .free then checkFrames fr n (frame + 1) 0
    else
      let run := freeRun fr.owner frame (n + 1)
      if fr.free.contains frame run then checkFrames fr n (frame + 1) (run - 1)
      else .error "physical allocator/free-state mismatch"

/-- The second loop of `map_virtual_to_physical`: every run of free frames
becomes an explicit allocation. -/
def claimFrames (protect : Protect) : ℕ → ℕ → ℕ → Frames → Except String Frames
  | 0, _, _, fr => .ok fr
  | n + 1, frame, skip + 1, fr => claimFrames protect n (frame + 1) skip fr
  | n + 1, frame, 0, fr =>
    if fr.owner frame ≠ .free then claimFrames protect n (frame + 1) 0 fr
    else
      let run := freeRun fr.owner frame (n + 1)
      match fr.free.claim frame run with
      | none => .error "failed to claim free physical range"
      | some free =>
        claimFrames protect n (frame + 1) (run - 1) { fr with
          owner := fill fr.owner frame run .explicit
          metadata := fill fr.metadata frame run
            (explicitMetadata frame run kBasePageSize protect)
          free }

/-- One turn of the last loop of `map_virtual_to_physical`. -/
def mapPage (first count physicalFirst : ℕ) (protect : Protect) (i : ℕ) (s : AddressSpace) :
    Except String AddressSpace := do
  let s := s.setPage (first + i) { s.pages (first + i) with
    physicalPage := some (physicalFirst + i)
    allocationBasePage := first
    allocationPageCount := count
    allocationProtect := protect
    currentProtect := protect
    state := .committed
    kind := .virtual
    explicitPhysicalMapping := true }
  let frames ← addPhysicalMappingRef s.frames (physicalFirst + i) (first + i)
  return { s with frames }

/-- `map_virtual_to_physical`. -/
def mapVirtualToPhysical (s : AddressSpace) (virtualBase physicalBase size : ℕ)
    (protectValue : Protect) (drained : Bool) : Except String (Bool × AddressSpace) :=
  if Protect.valid protectValue = false ∨ size = 0 ∨ virtualBase % kBasePageSize ≠ 0 ∨
      physicalBase % kBasePageSize ≠ 0 ∨ size % kBasePageSize ≠ 0 then .ok (false, s)
  else if kPhysicalMemorySize < physicalBase + size then .ok (false, s)
  else if physicalBase < kPhysicalMemorySize ∧
      kPhysicalAllocatableEndExclusive < physicalBase + size then .ok (false, s)
  else
    match regionFor virtualBase with
    | none => .ok (false, s)
    | some region =>
      if region.kind ≠ .virtual ∨ region.last < virtualBase + size - 1 then .ok (false, s)
      else
        let first := virtualBase / kBasePageSize
        let count := size / kBasePageSize
        if ∃ i < count, (s.pages (first + i)).state ≠ .free then .ok (false, s)
        else do
          let frames ← reclaimRetiredPhysicalPages s.frames drained
          let s := { s with frames }
          let physicalFirst := physicalBase / kBasePageSize
          let unretired ← checkFrames s.frames count physicalFirst 0
          if unretired then
            let frames ← claimFrames protectValue count physicalFirst 0 s.frames
            let s := { s with frames }
            let s ← loopM (mapPage first count physicalFirst protectValue) count s
            return (true, (s.publishHotRange virtualBase size).publishPhysicalAliasRange
              physicalBase size)
          else return (false, s)

/-! ### Device ranges, reset and initialisation -/

/-- `overlaps`. -/
def overlaps (aBase aSize bBase bSize : ℕ) : Bool :=
  decide (aBase < bBase + bSize) && decide (bBase < aBase + aSize)

/-- `add_mmio_range`, without the handlers: the range goes before the first one
that does not start below it. -/
def addMmioRange (s : AddressSpace) (base size : ℕ) : Bool × AddressSpace :=
  if size = 0 ∨ 2 ^ 32 < base + size then (false, s)
  else
    let before := s.mmioRanges.takeWhile fun r => decide (r.base < base)
    let after := s.mmioRanges.dropWhile fun r => decide (r.base < base)
    let range : MmioRange := ⟨base, size⟩
    if after.head?.any fun r => overlaps base size r.base r.size then (false, s)
    else if before.getLast?.any fun r => overlaps base size r.base r.size then (false, s)
    else (true, { s with mmioRanges := before ++ range :: after }.publishHotRange base size)

/-- `clear_mmio_ranges`. -/
def clearMmioRanges (s : AddressSpace) : AddressSpace :=
  { s with mmioRanges := [] }.rebuildHotPages

/-- The record of the guard pages of the low 64 KiB. -/
def guardPage : Page where
  state := .committed
  allocationBasePage := 0
  allocationPageCount := 16
  allocationProtect := Protect.none
  currentProtect := Protect.none
  kind := .virtual
  permanentGuard := true

/-- The frame tables after `reset`: the first 16 MiB and the last 64 KiB are the
system's, everything between them is free. -/
def resetFrames : Frames where
  owner f := if f < systemPageCount ∨ allocatableEndPage ≤ f then .system else .free
  refs _ := 0
  metadata f := if allocatableEndPage ≤ f then
    { allocationProtect := Protect.none, currentProtect := Protect.none } else {}
  free := RangeMap.single systemPageCount (allocatableEndPage - systemPageCount)
  retired := RangeMap.empty
  reverse _ := []

/-- `reset`: generations survive it, and so do the device ranges. -/
def reset (s : AddressSpace) : AddressSpace :=
  { pages := fun g => if g < 16 then guardPage else {}
    frames := resetFrames
    hot := fun _ => {}
    advances := fun f => if s.generation f = 0 then s.advances f else s.advances f + 1
    mmioRanges := s.mmioRanges
    memory := fun _ => 0 : AddressSpace }.rebuildHotPages

/-- The state after construction and `initialize`. -/
def initialized : AddressSpace :=
  { pages := fun _ => {}
    frames := resetFrames
    hot := fun _ => {}
    advances := fun _ => 0
    mmioRanges := []
    memory := fun _ => 0 : AddressSpace }.reset

end AddressSpace

/-! ### Calls -/

/-- A management call with its arguments. -/
inductive Call where
  | reserveFixed (base size : BitVec 32) (protect : Protect)
  | commitFixed (base size : BitVec 32) (protect : Protect) (zeroInitialize : Bool)
      (drained : ℕ → Bool)
  | allocate (size alignment : BitVec 32) (protect : Protect) (topDown : Bool)
      (requestedPageSize : Option (BitVec 32)) (commit zeroInitialize : Bool)
      (drained : ℕ → Bool)
  | decommit (base size : BitVec 32)
  | release (allocationBase : BitVec 32)
  | protect (base size : BitVec 32) (protectValue : Protect)
  | allocatePhysical (size : BitVec 32) (options : PhysicalAllocationOptions) (drained : Bool)
  | freePhysical (physicalBase size : BitVec 32)
  | protectPhysical (physicalBase size : BitVec 32) (protectValue : Protect)
  | mapVirtualToPhysical (virtualBase physicalBase size : BitVec 32) (protectValue : Protect)
      (drained : Bool)
  | addMmioRange (base size : BitVec 32)
  | clearMmioRanges
  | reset

/-- A reply without out-parameters. -/
def replyOf (r : Bool × AddressSpace) : Reply × AddressSpace :=
  (⟨r.1, none, none⟩, r.2)

/-- One call. -/
def AddressSpace.perform (s : AddressSpace) : Call → Except String (Reply × AddressSpace)
  | .reserveFixed base size protect =>
    .ok (replyOf (s.reserveFixed base.toNat size.toNat protect))
  | .commitFixed base size protect zero drained =>
    (s.commitFixed base.toNat size.toNat protect zero drained).map replyOf
  | .allocate size alignment protect topDown pageSize commit zero drained =>
    s.allocate size.toNat alignment.toNat protect topDown (pageSize.map BitVec.toNat) commit
      zero drained
  | .decommit base size => (s.decommit base.toNat size.toNat).map replyOf
  | .release base => (s.release base.toNat).map replyOf
  | .protect base size protect => .ok (s.protect base.toNat size.toNat protect)
  | .allocatePhysical size options drained => s.allocatePhysical size.toNat options drained
  | .freePhysical base size => (s.freePhysical base.toNat size.toNat).map replyOf
  | .protectPhysical base size protect => .ok (s.protectPhysical base.toNat size.toNat protect)
  | .mapVirtualToPhysical vbase pbase size protect drained =>
    (s.mapVirtualToPhysical vbase.toNat pbase.toNat size.toNat protect drained).map replyOf
  | .addMmioRange base size => .ok (replyOf (s.addMmioRange base.toNat size.toNat))
  | .clearMmioRanges => .ok (⟨true, none, none⟩, s.clearMmioRanges)
  | .reset => .ok (⟨true, none, none⟩, s.reset)

/-- One step of a run.  A call that throws is reported as such; what it had
changed by then is not described. -/
def AddressSpace.step (s : AddressSpace) (c : Call) : AddressSpace × Except String Reply :=
  match s.perform c with
  | .ok (reply, s) => (s, .ok reply)
  | .error message => (s, .error message)

end Memory
end XenonRecomp
