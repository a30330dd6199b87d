/-
# Ranges of guest memory

How `MemoryAccessContext` and `AddressSpace` read and write a range of guest bytes:
`resolve_fast` of memory_port.hpp finds the physical address of a chunk inside one
page from the published entry; where it declines, `read_bytes` and `write_bytes` of
guest_access.cpp go byte by byte through the device ranges and the authoritative
records.  The copies between guest memory and a buffer of the host are made by words
(`atomic_copy_from_guest`, `atomic_copy_to_guest`).

`RamByte` is a guest byte in RAM: the record resolves it, the entry of its page is
published and no device has a part of the page.  Such bytes are read and written at
their physical addresses by either path (`readBytes_eq`, `writeBytes_eq`), in
ascending order.  Epochs, reservations and dirty bits of a write are not part of the
bytes and are left to the modules about them.
-/

import Mathlib.Data.List.TakeWhile
import XenonRecomp.Library.RangeCopy
import XenonRecomp.Memory.CallEffects

namespace XenonRecomp
namespace Memory

open Library Library.RangeCopy

/-- The bytes of physical memory. -/
abbrev Bytes : Type := ℕ → BitVec 8

/-- What an access sees besides the bytes: the tables, the address of physical memory in
the host, whether a reclaim is draining the readers, and the devices' answers; `none` is
a device range without a handler. -/
structure AccessContext where
  space : AddressSpace
  hostBase : ℕ
  reclaimPending : Bool
  deviceRead : ℕ → Option (BitVec 8)
  deviceWrites : ℕ → Bool

/-! ### Copies between guest memory and the host -/

/-- `reinterpret_cast<uintptr_t>(ptr) & 7`. -/
def unaligned (host : ℕ) : Bool := host % 8 ≠ 0

/-- `atomic_copy_from_guest`. -/
def atomicCopyFromGuest (host : ℕ) (m : Bytes) (source size : ℕ) : List (BitVec 8) :=
  wordwise size 8 (fun offset => unaligned (host + source + offset))
    (fun width offset out => out ++ (List.range width).map fun i => m (source + offset + i)) []

/-- `atomic_copy_to_guest`. -/
def atomicCopyToGuest (host destination : ℕ) (source : List (BitVec 8)) (m : Bytes) : Bytes :=
  wordwise source.length 8 (fun offset => unaligned (host + destination + offset))
    (fun width offset m a =>
      if destination + offset ≤ a ∧ a < destination + offset + width then
        source.getD (a - destination) 0
      else m a) m

/-- `atomic_memmove_guest`. -/
def atomicMemmoveGuest (host destination source size : ℕ) (m : Bytes) : Bytes :=
  if size = 0 ∨ destination = source then m
  else
    let step := fun width offset => copyUnit (destination + offset) (source + offset) width
    let apart := fun offset =>
      unaligned (host + destination + offset) || unaligned (host + source + offset)
    if source < destination ∧ destination < source + size then wordwiseDown size 8 apart step m
    else wordwise size 8 apart step m

theorem atomicCopyFromGuest_eq (host : ℕ) (m : Bytes) (source size : ℕ) :
    atomicCopyFromGuest host m source size = (List.range size).map fun i => m (source + i) := by
  refine wordwise_family (by decide) _ (fun o => (List.range o).map fun i => m (source + i))
    fun w o _ => ?_
  rw [List.range_add, List.map_append, List.map_map]
  simp only [Function.comp_def, Nat.add_assoc]

theorem atomicCopyToGuest_eq (host destination : ℕ) (source : List (BitVec 8)) (m : Bytes) :
    atomicCopyToGuest host destination source m =
      writeSeq m (fun i => destination + i) (fun i => source.getD i 0) source.length := by
  refine wordwise_family (by decide) _
    (fun o => writeSeq m (fun i => destination + i) (fun i => source.getD i 0) o) fun w o _ => ?_
  funext a
  simp only [writeSeq_row]
  by_cases h : destination + o ≤ a ∧ a < destination + o + w
  · rw [if_pos h, if_pos (by omega)]
  · rw [if_neg h]
    exact if_congr (by omega) rfl rfl

/-- **`atomic_memmove_guest` is `memmove`**, for all offsets, sizes and alignments. -/
theorem atomicMemmoveGuest_eq (host destination source size : ℕ) (m : Bytes) :
    atomicMemmoveGuest host destination source size m = moved m destination source 0 size := by
  unfold atomicMemmoveGuest
  split
  · next h =>
    funext a
    unfold moved
    split
    · next hin =>
      obtain h | h := h
      · omega
      · rw [h, Nat.add_sub_cancel' (by omega)]
    · rfl
  dsimp only
  split
  · next h =>
    have hloops := wordwiseDown_family (show 0 < 8 by decide)
      (fun o => unaligned (host + destination + o) || unaligned (host + source + o))
      (fun o => moved m destination source o size)
      fun w o ho => copyUnit_moved_down (Nat.le_of_lt h.1) w o ho
    rwa [moved_self] at hloops
  · next hsame h =>
    have hside : destination ≤ source ∨ source + size ≤ destination := by omega
    have hloops := wordwise_family (show 0 < 8 by decide)
      (fun o => unaligned (host + destination + o) || unaligned (host + source + o))
      (fun o => moved m destination source 0 o)
      fun w o ho => copyUnit_moved_up hside w o ho
    rwa [moved_self] at hloops

/-! ### The resolvers -/

/-- `find_mmio_locked`: the last range that starts at or before the address, if it has
the whole access. -/
def findMmio (ranges : List MmioRange) (address width : ℕ) : Option MmioRange :=
  (ranges.takeWhile fun r => decide (r.base ≤ address)).getLast?.filter fun r =>
    decide (address + width ≤ r.base + r.size)

/-- `resolve_byte`, with the permission the access needs. -/
def AddressSpace.resolveByte (s : AddressSpace) (permission : Protect) (address : ℕ) :
    Except FaultReason ℕ :=
  match physicalAliasAddress address with
  | some direct =>
      if kPhysicalMemorySize ≤ direct then .error .outOfRange
      else if Protect.has (s.physicalProtect direct) permission then .ok direct
      else .error .protection
  | none =>
      match regionFor address with
      | none => .error .unmapped
      | some region =>
          if region.kind = .mmio then .error .unmapped
          else
            let page := s.pages (address / kBasePageSize)
            if page.state = .free then .error .unmapped
            else if page.state ≠ .committed then .error .uncommitted
            else if !Protect.has page.currentProtect permission then .error .protection
            else
              match page.physicalPage with
              | none => .error .uncommitted
              | some frame => .ok (frame * kBasePageSize + address % kBasePageSize)

/-- No range has a part of the page. -/
def PlainPage (ranges : List MmioRange) (page : ℕ) : Prop :=
  ∀ r ∈ ranges, r.base + r.size ≤ page * kBasePageSize ∨ (page + 1) * kBasePageSize ≤ r.base

namespace AccessContext

variable (c : AccessContext)

/-- `resolve_fast`, for an access that needs no alignment. -/
def resolveFast (address width : ℕ) (write : Bool) : Option ℕ :=
  if width = 0 ∨ c.reclaimPending then none
  else if 2 ^ 32 ≤ address + width - 1 then none
  else
    let page := address / kBasePageSize
    if kPageCount ≤ page ∨ page ≠ (address + width - 1) / kBasePageSize then none
    else
      let entry := c.space.hot page
      if !(entry.mapped && if write then entry.write else entry.read) || entry.slow then none
      else
        let physical := entry.physicalPage * kBasePageSize + address % kBasePageSize
        if kPhysicalMemorySize < physical + width then none else some physical

/-- The chunks that the loops over a range take: each ends with its page. -/
def pageChunks (address size : ℕ) : List (ℕ × ℕ) :=
  if _h : size = 0 then []
  else
    let chunk := min size (kBasePageSize - address % kBasePageSize)
    (address, chunk) :: pageChunks (address + chunk) (size - chunk)
termination_by size
decreasing_by
  have : address % kBasePageSize < kBasePageSize := Nat.mod_lt _ (by decide)
  omega

/-! ### Reading and writing a range -/

/-- `AddressSpace::read8`. -/
def read8 (m : Bytes) (address : ℕ) : Except FaultReason (BitVec 8) :=
  match c.resolveFast address 1 false with
  | some physical => .ok (m physical)
  | none =>
      match findMmio c.space.mmioRanges address 1 with
      | some _ =>
          match c.deviceRead address with
          | some value => .ok value
          | none => .error .unmapped
      | none => (c.space.resolveByte Protect.read address).map m

/-- `AddressSpace::write8`.  What a device does is not in the bytes. -/
def write8 (m : Bytes) (address : ℕ) (value : BitVec 8) : Except FaultReason Bytes :=
  match c.resolveFast address 1 true with
  | some physical => .ok (Function.update m physical value)
  | none =>
      match findMmio c.space.mmioRanges address 1 with
      | some _ => if c.deviceWrites address then .ok m else .error .unmapped
      | none =>
          (c.space.resolveByte Protect.write address).map fun physical =>
            Function.update m physical value

/-- The chunks of a range all resolve. -/
def allFast (address size : ℕ) (write : Bool) : Bool :=
  (pageChunks address size).all fun chunk => (c.resolveFast chunk.1 chunk.2 write).isSome

/-- `MemoryAccessContext::read_bytes`, over what it does where a chunk does not resolve. -/
def readChunks (slow : ℕ → ℕ → Except FaultReason (List (BitVec 8))) (m : Bytes)
    (address size : ℕ) : Except FaultReason (List (BitVec 8)) :=
  (pageChunks address size).foldlM (fun out chunk =>
    match c.resolveFast chunk.1 chunk.2 false with
    | some physical => .ok (out ++ atomicCopyFromGuest c.hostBase m physical chunk.2)
    | none => (slow chunk.1 chunk.2).map (out ++ ·)) []

/-- `AddressSpace::read_bytes`: all chunks, or else byte by byte. -/
def slowReadBytes (m : Bytes) (address size : ℕ) : Except FaultReason (List (BitVec 8)) :=
  if 2 ^ 32 < address + size then .error .outOfRange
  else if c.allFast address size false then c.readChunks (fun _ _ => .error .unmapped) m address size
  else (List.range size).mapM fun i => c.read8 m (address + i)

/-- `MemoryAccessContext::read_bytes`. -/
def readBytes (m : Bytes) (address size : ℕ) : Except FaultReason (List (BitVec 8)) :=
  c.readChunks (c.slowReadBytes m) m address size

/-- `MemoryAccessContext::write_bytes`, over what it does where a chunk does not resolve. -/
def writeChunks (slow : Bytes → ℕ → List (BitVec 8) → Except FaultReason Bytes) (m : Bytes)
    (address : ℕ) (source : List (BitVec 8)) : Except FaultReason Bytes :=
  (pageChunks address source.length).foldlM (fun m chunk =>
    let part := (source.drop (chunk.1 - address)).take chunk.2
    match c.resolveFast chunk.1 chunk.2 true with
    | some physical => .ok (atomicCopyToGuest c.hostBase physical part m)
    | none => slow m chunk.1 part) m

/-- `AddressSpace::write_bytes`. -/
def slowWriteBytes (m : Bytes) (address : ℕ) (source : List (BitVec 8)) :
    Except FaultReason Bytes :=
  if 2 ^ 32 < address + source.length then .error .outOfRange
  else if c.allFast address source.length true then
    c.writeChunks (fun _ _ _ => .error .unmapped) m address source
  else
    (List.range source.length).foldlM (fun m i => c.write8 m (address + i) (source.getD i 0)) m

/-- `MemoryAccessContext::write_bytes`. -/
def writeBytes (m : Bytes) (address : ℕ) (source : List (BitVec 8)) : Except FaultReason Bytes :=
  c.writeChunks c.slowWriteBytes m address source

/-! ### Bytes in RAM -/

/-- A guest byte in RAM, for an access of one kind: the record resolves it, the entry of
its page is published and no device has a part of the page. -/
structure RamByte (write : Bool) (address physical : ℕ) : Prop where
  record : c.space.resolveByte (if write then Protect.write else Protect.read) address =
    .ok physical
  inRam : physical < kPhysicalMemorySize
  published : c.space.hot (address / kBasePageSize) =
    c.space.makeHotEntry (address / kBasePageSize)
  plain : PlainPage c.space.mmioRanges (address / kBasePageSize)
  inSpace : address < 2 ^ 32

end AccessContext

/-- A direct view shows a page as it is. -/
theorem physicalAliasAddress_page (address : ℕ) :
    physicalAliasAddress address =
      (physicalAliasAddress (address / kBasePageSize * kBasePageSize)).map
        (· + address % kBasePageSize) := by
  unfold physicalAliasAddress
  simp only [kBasePageSize, kPhysical4KViewOffset]
  split_ifs <;> simp only [Option.map_some, Option.map_none, Option.some.injEq] <;> omega

/-- A direct view shows whole pages. -/
theorem physicalAliasAddress_mod {page direct : ℕ}
    (h : physicalAliasAddress (page * kBasePageSize) = some direct) :
    direct % kBasePageSize = 0 := by
  unfold physicalAliasAddress at h
  simp only [kBasePageSize, kPhysical4KViewOffset] at h ⊢
  split_ifs at h <;> simp only [Option.some.injEq] at h <;> omega

/-- An address outside the direct views is in a managed region, unless it is a device's. -/
theorem managed_of_not_alias {address : ℕ} {r : Region} (hr : regionFor address = some r)
    (halias : physicalAliasAddress address = none) (hkind : r.kind ≠ .mmio) :
    r.managed = true := by
  obtain ⟨hmem, hlo, hhi⟩ := regionFor_eq_some.mp hr
  unfold physicalAliasAddress at halias
  simp only [kRegions, List.mem_cons, List.not_mem_nil, or_false] at hmem
  rcases hmem with rfl | rfl | rfl | rfl | rfl | rfl | rfl | rfl | rfl <;>
    first
    | rfl
    | (dsimp only at hlo hhi; split_ifs at halias; omega)
    | exact absurd rfl hkind

theorem PlainPage.pageHasMmio {ranges : List MmioRange} {page : ℕ} (h : PlainPage ranges page) :
    pageHasMmio ranges page = false := by
  unfold Memory.pageHasMmio
  cases hlast : (ranges.takeWhile fun r => decide (r.base < (page + 1) * kBasePageSize)).getLast? with
  | none => rfl
  | some r =>
      have hr := List.mem_of_getLast? hlast
      have hbase := List.mem_takeWhile_imp hr
      rw [decide_eq_true_iff] at hbase
      have hside := h r (List.takeWhile_subset _ hr)
      rw [Option.any_some, decide_eq_false_iff_not]
      omega

theorem PlainPage.findMmio {ranges : List MmioRange} {address : ℕ}
    (h : PlainPage ranges (address / kBasePageSize)) : findMmio ranges address 1 = none := by
  unfold Memory.findMmio
  rw [Option.filter_eq_none_iff]
  intro r hlast
  have hr := List.mem_of_getLast? hlast
  have hbase := List.mem_takeWhile_imp hr
  rw [decide_eq_true_iff] at hbase
  have hside := h r (List.takeWhile_subset _ hr)
  rw [decide_eq_true_iff]
  unfold kBasePageSize at hside
  omega

namespace AccessContext

variable {c : AccessContext} {write : Bool} {address physical : ℕ}

/-- An entry that allows an access to a frame. -/
structure Allows (entry : HotEntry) (write : Bool) (frame : ℕ) : Prop where
  mapped : entry.mapped = true
  permission : (if write then entry.write else entry.read) = true
  slow : entry.slow = false
  frame : entry.physicalPage = frame

theorem allows_encodePage {frame : ℕ} {protect : Protect} (hframe : frame < kPhysicalPageCount)
    (h : Protect.has protect (if write then Protect.write else Protect.read) = true) :
    Allows (encodePage frame protect false) write frame where
  mapped := rfl
  permission := by cases write <;> exact h
  slow := rfl
  frame := Nat.mod_eq_of_lt hframe

/-- **The published entry of a byte in RAM** allows the access and has its frame. -/
theorem RamByte.entry (h : c.RamByte write address physical) :
    Allows (c.space.hot (address / kBasePageSize)) write (physical / kBasePageSize) ∧
      physical % kBasePageSize = address % kBasePageSize := by
  have hslow := PlainPage.pageHasMmio h.plain
  have hpage : address / kBasePageSize < kPageCount := by
    have := h.inSpace
    unfold kBasePageSize kPageCount
    omega
  have hrecord := h.record
  have hram := h.inRam
  have hoff : address % kBasePageSize < kBasePageSize := Nat.mod_lt _ (by decide)
  unfold AddressSpace.resolveByte at hrecord
  generalize hpermission : (if write then Protect.write else Protect.read) = permission at hrecord
  rw [h.published]
  cases halias : physicalAliasAddress (address / kBasePageSize * kBasePageSize) with
  | some direct =>
      have hdirect := physicalAliasAddress_mod halias
      rw [physicalAliasAddress_page, halias] at hrecord
      simp only [Option.map_some] at hrecord
      split_ifs at hrecord with hout hallowed
      obtain rfl := Except.ok.inj hrecord
      have hframe : (direct + address % kBasePageSize) / kBasePageSize = direct / kBasePageSize := by
        unfold kBasePageSize at *
        omega
      have hprotect : c.space.physicalProtect (direct + address % kBasePageSize) =
          (c.space.frames.metadata (direct / kBasePageSize)).currentProtect := by
        rw [AddressSpace.physicalProtect, if_neg hout, hframe]
      rw [hprotect, ← hpermission] at hallowed
      have hshown : frameShown (address / kBasePageSize) = some (direct / kBasePageSize) := by
        rw [frameShown, halias]
        rfl
      rw [makeHotEntry_direct hpage hshown, hslow, hframe]
      refine ⟨allows_encodePage ?_ hallowed, ?_⟩
      · unfold kBasePageSize kPhysicalMemorySize kPhysicalPageCount at *
        omega
      · unfold kBasePageSize at *
        omega
  | none =>
      have hnone : physicalAliasAddress address = none := by
        rw [physicalAliasAddress_page, halias]
        rfl
      rw [hnone] at hrecord
      cases hregion : regionFor address with
      | none =>
          rw [hregion] at hrecord
          cases hrecord
      | some region =>
          rw [hregion] at hrecord
          dsimp only at hrecord
          split_ifs at hrecord with hmmio hfree hcommitted hallowed
          obtain ⟨hmem, hholds⟩ := regionFor_page.mp hregion
          rw [makeHotEntry_managed hmem (managed_of_not_alias hregion hnone hmmio) hholds, hslow]
          cases hphysical : (c.space.pages (address / kBasePageSize)).physicalPage with
          | none =>
              rw [hphysical] at hrecord
              cases hrecord
          | some frame =>
              rw [hphysical] at hrecord
              obtain rfl := Except.ok.inj hrecord
              have hframe : (frame * kBasePageSize + address % kBasePageSize) / kBasePageSize =
                  frame := by
                unfold kBasePageSize at *
                omega
              rw [pageEntry, not_not.mp hcommitted, hphysical, hframe]
              refine ⟨allows_encodePage ?_ (by simpa [← hpermission] using hallowed), ?_⟩
              · unfold kBasePageSize kPhysicalMemorySize kPhysicalPageCount at *
                omega
              · unfold kBasePageSize at *
                omega

/-- Two bytes of one page in RAM are as far apart as their addresses, also when one is
read and the other written. -/
theorem RamByte.same_page {write' : Bool} {i physical' : ℕ} (h : c.RamByte write address physical)
    (h' : c.RamByte write' (address + i) physical')
    (hi : address % kBasePageSize + i < kBasePageSize) : physical' = physical + i := by
  obtain ⟨hentry, hoff⟩ := h.entry
  obtain ⟨hentry', hoff'⟩ := h'.entry
  have hpage : (address + i) / kBasePageSize = address / kBasePageSize := by
    unfold kBasePageSize at *
    omega
  rw [hpage] at hentry'
  have hframe := hentry.frame.symm.trans hentry'.frame
  unfold kBasePageSize at *
  omega

/-- A chunk inside a page of RAM resolves, unless readers are being drained. -/
theorem RamByte.resolveFast (h : c.RamByte write address physical) {width : ℕ} (hpos : 0 < width)
    (hwidth : address % kBasePageSize + width ≤ kBasePageSize) :
    c.resolveFast address width write = if c.reclaimPending then none else some physical := by
  obtain ⟨⟨hmapped, hpermission, hslow, hframe⟩, hoff⟩ := h.entry
  have hspace := h.inSpace
  have hram := h.inRam
  unfold AccessContext.resolveFast
  cases c.reclaimPending with
  | true => simp
  | false =>
      have hpage : (address + width - 1) / kBasePageSize = address / kBasePageSize := by
        unfold kBasePageSize at *
        omega
      have hphysical : physical / kBasePageSize * kBasePageSize + address % kBasePageSize =
          physical := by
        rw [← hoff, Nat.div_add_mod']
      rw [if_neg (by simp; omega), if_neg (by unfold kBasePageSize at *; omega)]
      dsimp only
      rw [if_neg (by unfold kBasePageSize kPageCount at *; omega), hmapped, hpermission, hslow,
        hframe, hphysical, if_neg (by simp), if_neg]
      · rfl
      · unfold kBasePageSize kPhysicalMemorySize at *
        omega

theorem RamByte.read8 (h : c.RamByte false address physical) (m : Bytes) :
    c.read8 m address = .ok (m physical) := by
  have hmod : address % kBasePageSize < kBasePageSize := Nat.mod_lt _ (by decide)
  have hrecord := h.record
  unfold AccessContext.read8
  rw [h.resolveFast Nat.one_pos hmod, PlainPage.findMmio h.plain]
  rw [if_neg Bool.false_ne_true] at hrecord
  cases c.reclaimPending with
  | false => rfl
  | true =>
      dsimp only
      rw [if_pos rfl]
      dsimp only
      rw [hrecord]
      rfl

theorem RamByte.write8 (h : c.RamByte true address physical) (m : Bytes) (value : BitVec 8) :
    c.write8 m address value = .ok (Function.update m physical value) := by
  have hmod : address % kBasePageSize < kBasePageSize := Nat.mod_lt _ (by decide)
  have hrecord := h.record
  unfold AccessContext.write8
  rw [h.resolveFast Nat.one_pos hmod, PlainPage.findMmio h.plain]
  rw [if_pos rfl] at hrecord
  cases c.reclaimPending with
  | false => rfl
  | true =>
      dsimp only
      rw [if_pos rfl]
      dsimp only
      rw [hrecord]
      rfl

/-! ### Ranges in RAM -/

/-- **The rule for a loop over the chunks of a range.** -/
theorem pageChunks_foldlM {M : Type → Type} [Monad M] [LawfulMonad M] {S : Type}
    {f : S → ℕ × ℕ → M S} (address size : ℕ) (I : ℕ → S → Prop)
    (hstep : ∀ o width s, 0 < width → o + width ≤ size →
      (address + o) % kBasePageSize + width ≤ kBasePageSize → I o s →
      ∃ s', f s (address + o, width) = pure s' ∧ I (o + width) s') (s : S) (h₀ : I 0 s) :
    ∃ s', (pageChunks address size).foldlM f s = pure s' ∧ I size s' := by
  suffices ∀ n o s, o + n = size → I o s →
      ∃ s', (pageChunks (address + o) n).foldlM f s = pure s' ∧ I size s' from
    this size 0 s (Nat.zero_add size) h₀
  intro n
  induction n using Nat.strong_induction_on with
  | h n ih =>
      intro o s ho hI
      have hmod : (address + o) % kBasePageSize < kBasePageSize := Nat.mod_lt _ (by decide)
      rw [pageChunks]
      split
      · next hn =>
        rw [hn, Nat.add_zero] at ho
        exact ⟨s, rfl, ho ▸ hI⟩
      · next hn =>
        obtain ⟨s₁, hs₁, hI₁⟩ := hstep o (min n (kBasePageSize - (address + o) % kBasePageSize)) s
          (by omega) (by omega) (by omega) hI
        obtain ⟨s₂, hs₂, hI₂⟩ := ih (n - min n (kBasePageSize - (address + o) % kBasePageSize))
          (by omega) (o + min n (kBasePageSize - (address + o) % kBasePageSize)) s₁ (by omega) hI₁
        refine ⟨s₂, ?_, hI₂⟩
        dsimp only
        rw [List.foldlM_cons, hs₁, pure_bind, Nat.add_assoc]
        exact hs₂

/-- Inside a page the bytes of a range lie in a row. -/
theorem row_of_page {size o width : ℕ} {place : ℕ → ℕ}
    (hram : ∀ i < size, c.RamByte write (address + i) (place i)) (hle : o + width ≤ size)
    (hpage : (address + o) % kBasePageSize + width ≤ kBasePageSize) :
    ∀ i < width, place (o + i) = place o + i := by
  intro i hi
  have hbyte := hram (o + i) (by omega)
  rw [← Nat.add_assoc] at hbyte
  exact (hram o (by omega)).same_page hbyte (by omega)

/-- While readers are being drained no range resolves. -/
theorem allFast_of_reclaim (h : c.reclaimPending = true) {size : ℕ} (hsize : size ≠ 0) :
    c.allFast address size write = false := by
  unfold allFast
  rw [pageChunks, dif_neg hsize]
  simp [AccessContext.resolveFast, h]

/-- The bytes of a range that lie at `place`. -/
def bytesAt (m : Bytes) (place : ℕ → ℕ) (o size : ℕ) : List (BitVec 8) :=
  (List.range size).map fun i => m (place (o + i))

theorem bytesAt_add (m : Bytes) (place : ℕ → ℕ) (o n k : ℕ) :
    bytesAt m place o (n + k) = bytesAt m place o n ++ bytesAt m place (o + n) k := by
  simp only [bytesAt, List.range_add, List.map_append, List.map_map, Function.comp_def,
    Nat.add_assoc]

theorem readChunks_eq {slow : ℕ → ℕ → Except FaultReason (List (BitVec 8))} {size : ℕ}
    {place : ℕ → ℕ} (m : Bytes) (hram : ∀ i < size, c.RamByte false (address + i) (place i))
    (hslow : c.reclaimPending = true → ∀ o width, 0 < width → o + width ≤ size →
      slow (address + o) width = .ok (bytesAt m place o width)) :
    c.readChunks slow m address size = .ok (bytesAt m place 0 size) := by
  have hchunks := pageChunks_foldlM (M := Except FaultReason)
    (f := fun out chunk => match c.resolveFast chunk.1 chunk.2 false with
      | some physical => .ok (out ++ atomicCopyFromGuest c.hostBase m physical chunk.2)
      | none => (slow chunk.1 chunk.2).map (out ++ ·))
    address size (fun o out => out = bytesAt m place 0 o) ?_ [] rfl
  · obtain ⟨out, hout, rfl⟩ := hchunks
    exact hout
  · intro o width out hpos hle hpage hI
    refine ⟨_, ?_, rfl⟩
    have hfirst := hram o (by omega)
    dsimp only
    rw [hfirst.resolveFast hpos hpage, hI, bytesAt_add, Nat.zero_add]
    cases hreclaim : c.reclaimPending with
    | true =>
        rw [if_pos rfl]
        dsimp only
        rw [hslow hreclaim o width hpos hle]
        rfl
    | false =>
        have hrow : bytesAt m place o width = atomicCopyFromGuest c.hostBase m (place o) width := by
          rw [atomicCopyFromGuest_eq]
          refine List.map_congr_left fun i hi => ?_
          rw [row_of_page hram hle hpage i (List.mem_range.mp hi)]
        rw [if_neg Bool.false_ne_true, hrow]
        rfl

theorem mapM_ok {A B E : Type} {f : A → Except E B} {g : A → B} {l : List A}
    (h : ∀ a ∈ l, f a = .ok (g a)) : l.mapM f = .ok (l.map g) := by
  induction l with
  | nil => rfl
  | cons a l ih =>
      rw [List.mapM_cons, h a List.mem_cons_self, ih fun b hb => h b (List.mem_cons_of_mem a hb)]
      rfl

/-- **A range in RAM is read at its physical addresses**, by chunks or byte by byte. -/
theorem readBytes_eq {size : ℕ} {place : ℕ → ℕ} (m : Bytes)
    (hram : ∀ i < size, c.RamByte false (address + i) (place i)) :
    c.readBytes m address size = .ok (bytesAt m place 0 size) := by
  refine readChunks_eq m hram fun hreclaim o width hpos hle => ?_
  have hlast := (hram (o + width - 1) (by omega)).inSpace
  unfold slowReadBytes
  rw [if_neg (by omega), allFast_of_reclaim hreclaim (by omega), if_neg Bool.false_ne_true]
  refine mapM_ok fun i hi => ?_
  have hi := List.mem_range.mp hi
  rw [Nat.add_assoc]
  exact (hram (o + i) (by omega)).read8 m

/-- The memory after the first `o` bytes of a list have been written. -/
abbrev written (m : Bytes) (place : ℕ → ℕ) (source : List (BitVec 8)) (o : ℕ) : Bytes :=
  writeSeq m place (fun i => source.getD i 0) o

theorem written_add (m : Bytes) (place : ℕ → ℕ) (source : List (BitVec 8)) (o k : ℕ) :
    written m place source (o + k) =
      writeSeq (written m place source o) (fun i => place (o + i))
        (fun i => source.getD (o + i) 0) k :=
  writeSeq_add o k

theorem writeChunks_eq {slow : Bytes → ℕ → List (BitVec 8) → Except FaultReason Bytes}
    {source : List (BitVec 8)} {place : ℕ → ℕ} (m : Bytes)
    (hram : ∀ i < source.length, c.RamByte true (address + i) (place i))
    (hslow : c.reclaimPending = true → ∀ m o part, part ≠ [] → o + part.length ≤ source.length →
      slow m (address + o) part = .ok (written m (fun i => place (o + i)) part part.length)) :
    c.writeChunks slow m address source = .ok (written m place source source.length) := by
  have hchunks := pageChunks_foldlM (M := Except FaultReason)
    (f := fun m chunk =>
      let part := (source.drop (chunk.1 - address)).take chunk.2
      match c.resolveFast chunk.1 chunk.2 true with
      | some physical => .ok (atomicCopyToGuest c.hostBase physical part m)
      | none => slow m chunk.1 part)
    address source.length (fun o m' => m' = written m place source o) ?_ m
    rfl
  · obtain ⟨m', hm', rfl⟩ := hchunks
    exact hm'
  · intro o width m' hpos hle hpage hI
    refine ⟨_, ?_, rfl⟩
    have hfirst := hram o (by omega)
    have hlength : ((source.drop o).take width).length = width := by
      rw [List.length_take, List.length_drop]
      omega
    have hpart : ∀ i < width, ((source.drop o).take width).getD i 0 = source.getD (o + i) 0 := by
      intro i hi
      simp [List.getD_eq_getElem?_getD, hi]
    dsimp only
    rw [hfirst.resolveFast hpos hpage, hI, written_add, Nat.add_sub_cancel_left]
    cases hreclaim : c.reclaimPending with
    | true =>
        rw [if_pos rfl]
        dsimp only
        rw [hslow hreclaim _ o _ (by rw [← List.length_pos_iff, hlength]; exact hpos)
          (by rw [hlength]; exact hle), hlength]
        exact congrArg Except.ok (writeSeq_congr (fun _ _ => rfl) hpart)
    | false =>
        rw [if_neg Bool.false_ne_true]
        dsimp only
        rw [atomicCopyToGuest_eq, hlength]
        exact congrArg Except.ok
          (writeSeq_congr (fun i hi => (row_of_page hram hle hpage i hi).symm) hpart)

/-- **A range in RAM is written at its physical addresses**, in ascending order. -/
theorem writeBytes_eq {source : List (BitVec 8)} {place : ℕ → ℕ} (m : Bytes)
    (hram : ∀ i < source.length, c.RamByte true (address + i) (place i)) :
    c.writeBytes m address source = .ok (written m place source source.length) := by
  refine writeChunks_eq m hram fun hreclaim m' o part hpart hle => ?_
  have hpos := List.length_pos_iff.mpr hpart
  have hlast := (hram (o + part.length - 1) (by omega)).inSpace
  unfold slowWriteBytes
  rw [if_neg (by omega), allFast_of_reclaim hreclaim (by omega), if_neg Bool.false_ne_true]
  suffices ∀ n ≤ part.length, (List.range n).foldlM
      (fun m i => c.write8 m (address + o + i) (part.getD i 0)) m' =
        .ok (written m' (fun i => place (o + i)) part n) from this part.length le_rfl
  intro n hn
  induction n with
  | zero => rfl
  | succ n ih =>
      have hbyte := hram (o + n) (by omega)
      rw [← Nat.add_assoc] at hbyte
      rw [List.range_succ, List.foldlM_append, ih (Nat.le_of_succ_le hn)]
      change c.write8 _ _ _ >>= pure = _
      rw [hbyte.write8]
      rfl

end AccessContext
end Memory
end XenonRecomp
