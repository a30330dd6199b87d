/-
# The compiled-code cache

`src/cpu/execution/executable_code_cache.cpp`.  The registry `entries_` maps a
guest entry address to its native translation and to the executable-page stamps
of the source bytes it was compiled from; `hot_entries_` is a direct-mapped
table of 256 slots in front of it that holds single-page V2 translations only.

The operations are modelled one at a time, each with the guest memory's current
page stamps as an argument: a page's stamp is its physical page and generation,
and `executable_page_stamp` reads the page of an address
(`src/memory/guest/coherency/memory_ordering.cpp`).  The unordered map is a list
of pairs with insertion in front; nothing depends on its order.  Under one
caller the second, exclusive look of `lookup` and `lookup_v2` finds the entry
the shared look found, with the serial it had, and the re-read of a hot key
finds the key it had.
-/

import XenonRecomp.Cpu.Types

namespace XenonRecomp
namespace Execution

open Cpu

/-- `ExecutablePageStamp`: physical identity and generation of a guest page. -/
structure ExecutablePageStamp where
  physicalPage : BitVec 32
  generation : BitVec 32
deriving DecidableEq

/-- The stamps of the guest's pages as the memory reports them now. -/
abbrev PageStamps := BitVec 20 → ExecutablePageStamp

/-- `executable_page_stamp`: the stamp of the page an address lies in. -/
def executablePageStamp (memory : PageStamps) (address : GuestAddress) : ExecutablePageStamp :=
  memory (address.extractLsb' 12 20)

/-- `ExecutableSourceSnapshot`: the source range and the stamps of its pages. -/
structure ExecutableSourceSnapshot where
  base : GuestAddress
  size : BitVec 32
  pages : List ExecutablePageStamp
deriving DecidableEq

/-- `ExecutableSourceSnapshot::valid`. -/
def ExecutableSourceSnapshot.valid (snapshot : ExecutableSourceSnapshot) : Bool :=
  snapshot.size != 0 && !snapshot.pages.isEmpty

/-- `valid_range`: a nonempty range that ends within the 32-bit space. -/
def validRange (base : GuestAddress) (size : BitVec 32) : Bool :=
  size != 0 && decide (base.toNat + size.toNat ≤ 2 ^ 32)

/-- `kGuestPageMask`. -/
def guestPageMask : BitVec 32 := 0xFFF#32

/-- `page_count` of a range. -/
def pageCount (base : GuestAddress) (size : BitVec 32) : ℕ :=
  let firstPage := base &&& ~~~guestPageMask
  let lastAddress := BitVec.ofNat 32 (base.toNat + size.toNat - 1)
  let lastPage := lastAddress &&& ~~~guestPageMask
  ((lastPage - firstPage) / 0x1000#32 + 1#32).toNat

/-- `snapshot_matches`: every page of the source range still has the stamp the
snapshot holds. -/
def snapshotMatches (memory : PageStamps) (snapshot : ExecutableSourceSnapshot) : Bool :=
  if !snapshot.valid || !validRange snapshot.base snapshot.size then
    false
  else if snapshot.pages.length != pageCount snapshot.base snapshot.size then
    false
  else
    snapshot.pages.zipIdx.all fun p =>
      executablePageStamp memory
        ((snapshot.base &&& ~~~guestPageMask) + BitVec.ofNat 32 p.2 * 0x1000#32) == p.1

/-- `encode_stamp`. -/
def encodeStamp (stamp : ExecutablePageStamp) : BitVec 64 :=
  stamp.physicalPage.setWidth 64 <<< 32 ||| stamp.generation.setWidth 64

/-- `decode_stamp`. -/
def decodeStamp (stamp : BitVec 64) : ExecutablePageStamp :=
  ⟨(stamp >>> 32).setWidth 32, stamp.setWidth 32⟩

/-- Publishing a stamp and reading it back loses nothing. -/
theorem decodeStamp_encodeStamp (stamp : ExecutablePageStamp) :
    decodeStamp (encodeStamp stamp) = stamp := by
  cases stamp with
  | mk page generation =>
      simp only [decodeStamp, encodeStamp, ExecutablePageStamp.mk.injEq]
      constructor
      · ext i hi
        have h1 : 32 + i < 64 := by omega
        have h2 : ¬32 + i < 32 := by omega
        simp [h1, h2, BitVec.getLsbD_eq_getElem hi]
      · ext i hi
        simp

/-- `hot_index`: the slot of an entry address. -/
def hotIndex (entry : GuestAddress) : BitVec 8 :=
  (entry >>> 2 ^^^ entry >>> 12 ^^^ entry >>> 20).setWidth 8

/-- The key an entry address is published under; zero is the empty slot. -/
def hotKey (entry : GuestAddress) : BitVec 64 :=
  entry.setWidth 64 + 1

/-- Distinct entries have distinct keys. -/
theorem hotKey_inj {a b : GuestAddress} (h : hotKey a = hotKey b) : a = b := by
  have h64 : a.setWidth 64 = b.setWidth 64 := add_right_cancel h
  apply BitVec.eq_of_toNat_eq
  have hnat := congrArg BitVec.toNat h64
  rw [BitVec.toNat_setWidth, BitVec.toNat_setWidth] at hnat
  omega

/-- No entry has the key of an empty slot. -/
theorem hotKey_ne_zero (a : GuestAddress) : hotKey a ≠ 0 := by
  intro h
  have := congrArg BitVec.toNat h
  simp [hotKey] at this
  omega

/-- `CompiledTranslation`, for a nullable legacy function of type `G`. -/
structure CompiledTranslation (G : Type) where
  entry : GuestAddress
  function : Option G
  source : ExecutableSourceSnapshot

/-- `CompiledTranslationV2`, for a nullable V2 function of type `F`. -/
structure CompiledTranslationV2 (F : Type) where
  entry : GuestAddress
  function : Option F
  source : ExecutableSourceSnapshot
  directCallSafe : Bool
deriving DecidableEq

/-- `ExecutableCodeCache::Entry`. -/
structure Entry (G F : Type) where
  entry : GuestAddress
  function : Option G
  functionV2 : Option F
  source : ExecutableSourceSnapshot
  directCallSafe : Bool
  serial : BitVec 64

/-- `ExecutableCodeCache::HotEntry`; `guestKey` zero is an unpublished slot. -/
structure HotEntry (F : Type) where
  guestKey : BitVec 64
  function : Option F
  pageStamp : BitVec 64
  flags : BitVec 32

/-- The state of an `ExecutableCodeCache`. -/
structure CodeCache (G F : Type) where
  entries : List (GuestAddress × Entry G F)
  hotEntries : BitVec 8 → HotEntry F
  nextSerial : BitVec 64
  staleEvictions : BitVec 64
  compilationRejections : BitVec 64
  aotLookupHits : BitVec 64

variable {G F : Type}

/-- A new cache: no entries, every slot unpublished, serials from one. -/
def CodeCache.init : CodeCache G F :=
  ⟨[], fun _ => ⟨0, none, 0, 0⟩, 1, 0, 0, 0⟩

/-- `entries_.find`. -/
def find (entries : List (GuestAddress × Entry G F)) (entry : GuestAddress) :
    Option (Entry G F) :=
  entries.lookup entry

/-- `entries_.erase`. -/
def erase (entries : List (GuestAddress × Entry G F)) (entry : GuestAddress) :
    List (GuestAddress × Entry G F) :=
  entries.filter fun p => p.1 != entry

/-- `entries_.insert_or_assign`. -/
def insertOrAssign (entries : List (GuestAddress × Entry G F)) (entry : GuestAddress)
    (value : Entry G F) : List (GuestAddress × Entry G F) :=
  (entry, value) :: erase entries entry

/-- Erasure keeps every other key. -/
theorem mem_erase {l : List (GuestAddress × Entry G F)} {k : GuestAddress}
    {p : GuestAddress × Entry G F} : p ∈ erase l k ↔ p ∈ l ∧ p.1 ≠ k := by
  simp [erase]

/-- Insertion replaces what its key held. -/
theorem mem_insertOrAssign {l : List (GuestAddress × Entry G F)} {k : GuestAddress}
    {v : Entry G F} {p : GuestAddress × Entry G F} :
    p ∈ insertOrAssign l k v ↔ p = (k, v) ∨ p ∈ l ∧ p.1 ≠ k := by
  simp [insertOrAssign, mem_erase]

/-- What is found is in the registry. -/
theorem mem_of_find {l : List (GuestAddress × Entry G F)} {k : GuestAddress} {e : Entry G F}
    (h : find l k = some e) : (k, e) ∈ l := by
  induction l with
  | nil => simp [find] at h
  | cons p l ih =>
      obtain ⟨k', e'⟩ := p
      simp only [find, List.lookup_cons] at h
      by_cases hk : k == k'
      · simp only [hk, Option.some.injEq] at h
        rw [beq_iff_eq.mp hk, h]
        exact List.mem_cons_self
      · simp only [hk] at h
        exact List.mem_cons_of_mem _ (ih h)

/-- What is found after an erasure was found before it. -/
theorem find_of_find_erase {l : List (GuestAddress × Entry G F)} {k a : GuestAddress}
    {e : Entry G F} (h : find (erase l k) a = some e) : find l a = some e := by
  have hne : a ≠ k := (mem_erase.mp (mem_of_find h)).2
  induction l with
  | nil => simp [find, erase] at h
  | cons p l ih =>
      obtain ⟨b, x⟩ := p
      by_cases hb : b = k
      · have htail : find l a = some e := ih (by simpa [erase, hb] using h)
        have hab : (a == b) = false := beq_false_of_ne fun hab => hne (hab.trans hb)
        simpa [find, List.lookup_cons, hab] using htail
      · have hkeep : erase ((b, x) :: l) k = (b, x) :: erase l k := by simp [erase, hb]
        rw [hkeep] at h
        simp only [find, List.lookup_cons] at h ⊢
        cases hab : a == b with
        | true => simpa [hab] using h
        | false =>
            rw [hab] at h
            exact ih h

/-- `publish_hot`: a single-page V2 entry replaces what its slot held; any other
entry leaves the slot as it was. -/
def publishHot (hot : BitVec 8 → HotEntry F) (e : Entry G F) : BitVec 8 → HotEntry F :=
  match e.functionV2, e.source.pages with
  | some function, [stamp] =>
      Function.update hot (hotIndex e.entry)
        ⟨hotKey e.entry, some function, encodeStamp stamp,
          if e.directCallSafe then 1 else 0⟩
  | _, _ => hot

/-- `clear_hot`: unpublish the slot if it holds this entry. -/
def clearHot (hot : BitVec 8 → HotEntry F) (entry : GuestAddress) : BitVec 8 → HotEntry F :=
  if (hot (hotIndex entry)).guestKey = hotKey entry then
    Function.update hot (hotIndex entry) { hot (hotIndex entry) with guestKey := 0 }
  else hot

/-- `clear_hot_all`. -/
def clearHotAll (hot : BitVec 8 → HotEntry F) : BitVec 8 → HotEntry F :=
  fun i => { hot i with guestKey := 0 }

/-- The serial taken from a counter and the counter after it; zero is skipped. -/
def takeSerial (next : BitVec 64) : BitVec 64 × BitVec 64 :=
  if next = 0 then (1, 2) else (next, next + 1)

/-- The check both registrations make: a function, a snapshot that matches the
memory now, and an entry inside the source range. -/
def acceptsTranslation (memory : PageStamps) (entry : GuestAddress) (hasFunction : Bool)
    (source : ExecutableSourceSnapshot) : Bool :=
  hasFunction && source.valid && snapshotMatches memory source &&
    decide (source.base.toNat ≤ entry.toNat) &&
    decide (entry.toNat < source.base.toNat + source.size.toNat)

/-- `register_compiled`. -/
def registerCompiled (memory : PageStamps) (c : CodeCache G F) (t : CompiledTranslation G) :
    CodeCache G F × Bool :=
  if acceptsTranslation memory t.entry t.function.isSome t.source then
    let (serial, next) := takeSerial c.nextSerial
    let value : Entry G F := ⟨t.entry, t.function, none, t.source, false, serial⟩
    ({ c with
        entries := insertOrAssign c.entries t.entry value
        hotEntries := clearHot c.hotEntries t.entry
        nextSerial := next }, true)
  else
    ({ c with compilationRejections := c.compilationRejections + 1 }, false)

/-- `register_compiled_v2`. -/
def registerCompiledV2 (memory : PageStamps) (c : CodeCache G F)
    (t : CompiledTranslationV2 F) : CodeCache G F × Bool :=
  if acceptsTranslation memory t.entry t.function.isSome t.source then
    let (serial, next) := takeSerial c.nextSerial
    let value : Entry G F := ⟨t.entry, none, t.function, t.source, t.directCallSafe, serial⟩
    ({ c with
        entries := insertOrAssign c.entries t.entry value
        hotEntries := publishHot c.hotEntries value
        nextSerial := next }, true)
  else
    ({ c with compilationRejections := c.compilationRejections + 1 }, false)

/-- `lookup`: the legacy function of a current entry; a stale entry is erased
from the registry. -/
def lookup (memory : PageStamps) (c : CodeCache G F) (entry : GuestAddress) :
    CodeCache G F × Option G :=
  match find c.entries entry with
  | none => (c, none)
  | some e =>
      if snapshotMatches memory e.source then
        ({ c with aotLookupHits := c.aotLookupHits + 1 }, e.function)
      else
        ({ c with
            entries := erase c.entries entry
            staleEvictions := c.staleEvictions + 1 }, none)

/-- `CompiledLookupKind`. -/
inductive CompiledLookupKind where
  | branch
  | call
deriving DecidableEq

/-- The fast path of `lookup_v2`: the function of the hot slot, if the slot holds
this entry, the kind allows it and the stamp of the entry's page is current. -/
def hotLookup (memory : PageStamps) (c : CodeCache G F) (entry : GuestAddress)
    (kind : CompiledLookupKind) : Option F :=
  let hot := c.hotEntries (hotIndex entry)
  if hot.guestKey = hotKey entry ∧ (kind ≠ .call ∨ hot.flags &&& 1 ≠ 0) ∧
      executablePageStamp memory entry = decodeStamp hot.pageStamp then
    hot.function
  else none

/-- `lookup_v2`: the hot slot first, then the registry. -/
def lookupV2 (memory : PageStamps) (c : CodeCache G F) (entry : GuestAddress)
    (kind : CompiledLookupKind) : CodeCache G F × Option F :=
  match hotLookup memory c entry kind with
  | some function => ({ c with aotLookupHits := c.aotLookupHits + 1 }, some function)
  | none =>
      match find c.entries entry with
      | none => (c, none)
      | some e =>
          if e.functionV2.isNone || (kind = .call && !e.directCallSafe) then
            (c, none)
          else if snapshotMatches memory e.source then
            ({ c with
                hotEntries := publishHot c.hotEntries e
                aotLookupHits := c.aotLookupHits + 1 }, e.functionV2)
          else
            ({ c with
                entries := erase c.entries entry
                hotEntries := clearHot c.hotEntries entry
                staleEvictions := c.staleEvictions + 1 }, none)

/-- `ranges_overlap`, with the ends cut at the top of the 32-bit space. -/
def rangesOverlap (a : GuestAddress) (aSize : BitVec 32) (b : GuestAddress)
    (bSize : BitVec 32) : Bool :=
  if aSize = 0 ∨ bSize = 0 then false
  else
    decide (a.toNat < min (b.toNat + bSize.toNat) (2 ^ 32)) &&
      decide (b.toNat < min (a.toNat + aSize.toNat) (2 ^ 32))

/-- `invalidate_guest_range`: every entry whose source range overlaps is erased,
and its hot slot with it. -/
def invalidateGuestRange (c : CodeCache G F) (base : GuestAddress) (size : BitVec 32) :
    CodeCache G F :=
  if size = 0 then c
  else
    let overlaps (p : GuestAddress × Entry G F) : Bool :=
      rangesOverlap p.2.source.base p.2.source.size base size
    { c with
      entries := c.entries.filter fun p => !overlaps p
      hotEntries := (c.entries.filter overlaps).foldl (fun hot p => clearHot hot p.1)
        c.hotEntries }

/-- `clear`. -/
def clear (c : CodeCache G F) : CodeCache G F :=
  { c with entries := [], hotEntries := clearHotAll c.hotEntries }

end Execution
end XenonRecomp
