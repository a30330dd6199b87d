/-
# Moving a block of guest memory

`AddressSpace::move` of guest_access.cpp.  The call looks at both ranges page by page
and notes whether they are RAM, whether each lies in a row of physical memory and
whether they share a physical page.  Two rows are moved at once; ranges without a
common page are streamed through a buffer of 64 KiB; everything else is read as a whole
before any of it is written.

Whatever the two mappings are, the result is that of a snapshot (`move_snapshot`): a
destination byte is the source byte from before the call, the highest position wins
where two share a physical byte, and no other byte changes.
-/

import Mathlib.Tactic.IntervalCases
import XenonRecomp.Memory.GuestAccess

namespace XenonRecomp
namespace Memory

open Library Library.RangeCopy

/-- `RangePlan`; the length so far is the `logical_offset` of the loop. -/
structure RangePlan where
  linear : Bool := true
  firstPhysical : Option ℕ := none
  logicalOffset : ℕ := 0
deriving DecidableEq, Repr

/-- One chunk of a range. -/
def RangePlan.note (plan : RangePlan) (physical width : ℕ) : RangePlan where
  linear := plan.linear && plan.firstPhysical.all fun first => physical = first + plan.logicalOffset
  firstPhysical := some (plan.firstPhysical.getD physical)
  logicalOffset := plan.logicalOffset + width

/-- What the plan of a range says about where its bytes lie. -/
structure RangePlan.Describes (plan : RangePlan) (place : ℕ → ℕ) (o : ℕ) : Prop where
  offset : plan.logicalOffset = o
  first : plan.firstPhysical = if o = 0 then none else some (place 0)
  linear : plan.linear = true → ∀ i < o, place i = place 0 + i

theorem RangePlan.Describes.note {plan : RangePlan} {place : ℕ → ℕ} {o width : ℕ}
    (h : plan.Describes place o) (hpos : 0 < width)
    (hrow : ∀ i < width, place (o + i) = place o + i) :
    (plan.note (place o) width).Describes place (o + width) where
  offset := by rw [RangePlan.note, h.offset]
  first := by
    have hne : o + width ≠ 0 := by omega
    rw [if_neg hne, RangePlan.note, h.first]
    by_cases ho : o = 0
    · rw [if_pos ho, ho]
      rfl
    · rw [if_neg ho]
      rfl
  linear := by
    intro hlinear i hi
    rw [RangePlan.note, h.first, h.offset] at hlinear
    rw [Bool.and_eq_true] at hlinear
    by_cases hio : i < o
    · exact h.linear hlinear.1 i hio
    have hat := hrow (i - o) (by omega)
    rw [Nat.add_sub_cancel' (Nat.le_of_not_lt hio)] at hat
    by_cases ho : o = 0
    · rw [hat, ho, Nat.sub_zero]
    · have hstart := hlinear.2
      rw [if_neg ho, Option.all_some, decide_eq_true_iff] at hstart
      omega

def kCopyScratchSize : ℕ := 64 * 1024

namespace AccessContext

variable (c : AccessContext)

/-- `inspect_source` and `inspect_destination`, by what they do with a physical page;
`none` is a range that is not all RAM. -/
def inspect {S : Type} (visit : ℕ → S → S) (s : S) (base length : ℕ) (write : Bool) :
    Option (RangePlan × S) :=
  (pageChunks base length).foldlM (fun r chunk =>
    (c.resolveFast chunk.1 chunk.2 write).map fun physical =>
      (r.1.note physical chunk.2, visit (physical / kBasePageSize) r.2)) ({}, s)

/-- `inspect_source`: the pages of the range. -/
def inspectSource (base length : ℕ) : Option (RangePlan × List ℕ) :=
  c.inspect List.cons [] base length false

/-- `inspect_destination`: a page of the source is met. -/
def inspectDestination (sourcePages : List ℕ) (base length : ℕ) : Option (RangePlan × Bool) :=
  c.inspect (fun page overlap => overlap || sourcePages.contains page) false base length true

/-- The loop through the buffer. -/
def stream (dest src size offset : ℕ) (m : Bytes) : Except FaultReason Bytes :=
  if _h : offset < size then do
    let chunk := min (size - offset) kCopyScratchSize
    let bytes ← c.readBytes m (src + offset) chunk
    let m ← c.writeBytes m (dest + offset) bytes
    stream dest src size (offset + chunk) m
  else .ok m
termination_by size - offset
decreasing_by
  unfold kCopyScratchSize
  omega

/-- The bytes are all read before any of them is written. -/
def snapshot (dest src size : ℕ) (m : Bytes) : Except FaultReason Bytes := do
  let bytes ← c.readBytes m src size
  c.writeBytes m dest bytes

/-- `AddressSpace::move`. -/
def move (dest src size : ℕ) (m : Bytes) : Except FaultReason Bytes :=
  if size = 0 ∨ dest = src then .ok m
  else if 2 ^ 32 < src + size ∨ 2 ^ 32 < dest + size then .error .outOfRange
  else
    match c.inspectSource src size with
    | none => c.snapshot dest src size m
    | some (sourcePlan, sourcePages) =>
        match c.inspectDestination sourcePages dest size with
        | none => c.snapshot dest src size m
        | some (destinationPlan, overlap) =>
            if sourcePlan.linear && destinationPlan.linear then
              .ok (atomicMemmoveGuest c.hostBase (destinationPlan.firstPhysical.getD 0)
                (sourcePlan.firstPhysical.getD 0) size m)
            else if overlap then c.snapshot dest src size m
            else c.stream dest src size 0 m

variable {c} {src dest size : ℕ} {rp wp : ℕ → ℕ}

/-- The bytes of a snapshot, written in ascending order. -/
abbrev snapshotMove (m : Bytes) (rp wp : ℕ → ℕ) (n : ℕ) : Bytes := writeSeq m wp (fun i => m (rp i)) n

theorem snapshotMove_add (m : Bytes) (rp wp : ℕ → ℕ) (n k : ℕ) :
    snapshotMove m rp wp (n + k) =
      writeSeq (snapshotMove m rp wp n) (fun i => wp (n + i)) (fun i => m (rp (n + i))) k :=
  writeSeq_add n k

/-! ### The plan of a range in RAM -/

/-- Inside a page the bytes of a range have one physical page. -/
theorem page_of_row {write : Bool} {base o width : ℕ} {place : ℕ → ℕ}
    (hbyte : c.RamByte write (base + o) (place o))
    (hpage : (base + o) % kBasePageSize + width ≤ kBasePageSize)
    (hrow : ∀ i < width, place (o + i) = place o + i) :
    ∀ i < width, place (o + i) / kBasePageSize = place o / kBasePageSize := by
  intro i hi
  have hoff := hbyte.entry.2
  rw [hrow i hi]
  unfold kBasePageSize at *
  omega

theorem inspect_of_reclaim {S : Type} {visit : ℕ → S → S} {s : S} {base : ℕ} {write : Bool}
    (h : c.reclaimPending = true) (hsize : size ≠ 0) :
    c.inspect visit s base size write = none := by
  unfold inspect
  rw [pageChunks, dif_neg hsize, List.foldlM_cons]
  simp [resolveFast, h]

/-- **A range that is inspected as RAM** lies where its plan says, and what was done with
its pages follows the pages of its bytes. -/
theorem inspect_describes {S : Type} {visit : ℕ → S → S} {s s' : S} {base : ℕ} {write : Bool}
    {plan : RangePlan} {place : ℕ → ℕ} (K : ℕ → S → Prop) (h₀ : K 0 s) (hsize : size ≠ 0)
    (hram : ∀ i < size, c.RamByte write (base + i) (place i))
    (hvisit : ∀ o width s, (∀ i < width, place (o + i) / kBasePageSize = place o / kBasePageSize) →
      K o s → K (o + width) (visit (place o / kBasePageSize) s))
    (h : c.inspect visit s base size write = some (plan, s')) :
    plan.Describes place size ∧ K size s' := by
  have hready : c.reclaimPending = false := by
    by_contra hreclaim
    rw [inspect_of_reclaim (Bool.of_not_eq_false hreclaim) hsize] at h
    cases h
  have hchunks := pageChunks_foldlM (M := Option)
    (f := fun (r : RangePlan × S) chunk =>
      (c.resolveFast chunk.1 chunk.2 write).map fun physical =>
        (r.1.note physical chunk.2, visit (physical / kBasePageSize) r.2))
    base size (fun o r => r.1.Describes place o ∧ K o r.2) ?_ ({}, s)
    ⟨⟨rfl, rfl, fun _ _ hi => absurd hi (Nat.not_lt_zero _)⟩, h₀⟩
  · obtain ⟨r, hr, hdescribes⟩ := hchunks
    obtain rfl : r = (plan, s') := Option.some.inj (hr.symm.trans h)
    exact hdescribes
  · rintro o width ⟨plan, s⟩ hpos hle hpage ⟨hplan, hK⟩
    have hbyte := hram o (by omega)
    have hrow := row_of_page hram hle hpage
    refine ⟨(plan.note (place o) width, visit (place o / kBasePageSize) s), ?_,
      hplan.note hpos hrow, hvisit o width s (page_of_row hbyte hpage hrow) hK⟩
    dsimp only
    rw [hbyte.resolveFast hpos hpage, hready]
    rfl

/-- The pages that `inspect_source` collects are those of the bytes. -/
theorem inspectSource_describes {plan : RangePlan} {pages : List ℕ} (hsize : size ≠ 0)
    (hsrc : ∀ i < size, c.RamByte false (src + i) (rp i))
    (h : c.inspectSource src size = some (plan, pages)) :
    plan.Describes rp size ∧ ∀ i < size, rp i / kBasePageSize ∈ pages := by
  refine inspect_describes (fun o pages => ∀ i < o, rp i / kBasePageSize ∈ pages)
    (fun _ hi => absurd hi (Nat.not_lt_zero _)) hsize hsrc (fun o width pages hpage hK i hi => ?_) h
  by_cases hio : i < o
  · exact List.mem_cons_of_mem _ (hK i hio)
  · have hat := hpage (i - o) (by omega)
    rw [Nat.add_sub_cancel' (Nat.le_of_not_lt hio)] at hat
    rw [hat]
    exact List.mem_cons_self

/-- Without the mark of an overlap no page of the destination was collected. -/
theorem inspectDestination_describes {plan : RangePlan} {pages : List ℕ} {overlap : Bool}
    (hsize : size ≠ 0) (hdest : ∀ i < size, c.RamByte true (dest + i) (wp i))
    (h : c.inspectDestination pages dest size = some (plan, overlap)) :
    plan.Describes wp size ∧
      (overlap = false → ∀ i < size, wp i / kBasePageSize ∉ pages) := by
  refine inspect_describes (fun o overlap => overlap = false → ∀ i < o, wp i / kBasePageSize ∉ pages)
    (fun _ _ hi => absurd hi (Nat.not_lt_zero _)) hsize hdest
    (fun o width overlap hpage hK hno i hi => ?_) h
  rw [Bool.or_eq_false_iff] at hno
  by_cases hio : i < o
  · exact hK hno.1 i hio
  · have hat := hpage (i - o) (by omega)
    rw [Nat.add_sub_cancel' (Nat.le_of_not_lt hio)] at hat
    rw [hat]
    simpa using hno.2

/-! ### The three ways of moving -/

theorem length_bytesAt (m : Bytes) (place : ℕ → ℕ) (o n : ℕ) : (bytesAt m place o n).length = n := by
  rw [bytesAt, List.length_map, List.length_range]

theorem getD_bytesAt (m : Bytes) (place : ℕ → ℕ) {o n i : ℕ} (hi : i < n) :
    (bytesAt m place o n).getD i 0 = m (place (o + i)) := by
  simp [bytesAt, hi]

/-- A part of a range that is read, and written where it goes. -/
theorem read_write_part (m : Bytes) {o n : ℕ} (hle : o + n ≤ size)
    (hsrc : ∀ i < size, c.RamByte false (src + i) (rp i))
    (hdest : ∀ i < size, c.RamByte true (dest + i) (wp i)) :
    (c.readBytes m (src + o) n >>= fun bytes => c.writeBytes m (dest + o) bytes) =
      .ok (writeSeq m (fun i => wp (o + i)) (fun i => m (rp (o + i))) n) := by
  have hread : c.readBytes m (src + o) n = .ok (bytesAt m (fun i => rp (o + i)) 0 n) := by
    refine readBytes_eq m fun i hi => ?_
    rw [Nat.add_assoc]
    exact hsrc (o + i) (by omega)
  have hwrite : c.writeBytes m (dest + o) (bytesAt m (fun i => rp (o + i)) 0 n) =
      .ok (written m (fun i => wp (o + i)) (bytesAt m (fun i => rp (o + i)) 0 n)
        (bytesAt m (fun i => rp (o + i)) 0 n).length) := by
    refine writeBytes_eq m fun i hi => ?_
    rw [length_bytesAt] at hi
    rw [Nat.add_assoc]
    exact hdest (o + i) (by omega)
  rw [hread]
  change c.writeBytes m (dest + o) _ = _
  rw [hwrite, length_bytesAt]
  refine congrArg Except.ok (writeSeq_congr (fun _ _ => rfl) fun i hi => ?_)
  rw [getD_bytesAt m _ hi, Nat.zero_add]

theorem snapshot_eq (m : Bytes) (hsrc : ∀ i < size, c.RamByte false (src + i) (rp i))
    (hdest : ∀ i < size, c.RamByte true (dest + i) (wp i)) :
    c.snapshot dest src size m = .ok (snapshotMove m rp wp size) := by
  have hall := read_write_part m (o := 0) (n := size) (by omega) hsrc hdest
  simp only [Nat.zero_add, Nat.add_zero] at hall
  exact hall

/-- Streaming keeps the source as it was, since no destination byte is in it. -/
theorem stream_eq (m : Bytes) (hsrc : ∀ i < size, c.RamByte false (src + i) (rp i))
    (hdest : ∀ i < size, c.RamByte true (dest + i) (wp i))
    (happart : ∀ i < size, ∀ j < size, wp j ≠ rp i) (offset : ℕ) (hle : offset ≤ size) :
    c.stream dest src size offset (snapshotMove m rp wp offset) =
      .ok (snapshotMove m rp wp size) := by
  rw [stream]
  split
  · next hlt =>
    have hpart := read_write_part (snapshotMove m rp wp offset) (o := offset)
      (n := min (size - offset) kCopyScratchSize) (by omega) hsrc hdest
    have hsame : writeSeq (snapshotMove m rp wp offset) (fun i => wp (offset + i))
        (fun i => snapshotMove m rp wp offset (rp (offset + i)))
        (min (size - offset) kCopyScratchSize) =
          snapshotMove m rp wp (offset + min (size - offset) kCopyScratchSize) := by
      rw [snapshotMove_add]
      refine writeSeq_congr (fun _ _ => rfl) fun i hi => ?_
      exact writeSeq_of_ne fun j hj => happart _ (by omega) j (by omega)
    rw [hsame] at hpart
    dsimp only
    rw [← bind_assoc, hpart]
    have hpos : 0 < kCopyScratchSize := by decide
    exact stream_eq m hsrc hdest happart _ (by omega)
  · next hend =>
    rw [Nat.le_antisymm hle (Nat.le_of_not_lt hend)]
termination_by size - offset
decreasing_by
  unfold kCopyScratchSize
  omega

/-- Two rows are moved as one range. -/
theorem memmove_eq (m : Bytes) {sourcePlan destinationPlan : RangePlan}
    (hs : sourcePlan.Describes rp size) (hd : destinationPlan.Describes wp size)
    (hlinear : (sourcePlan.linear && destinationPlan.linear) = true) (hsize : size ≠ 0) :
    atomicMemmoveGuest c.hostBase (destinationPlan.firstPhysical.getD 0)
      (sourcePlan.firstPhysical.getD 0) size m = snapshotMove m rp wp size := by
  rw [Bool.and_eq_true] at hlinear
  rw [atomicMemmoveGuest_eq, moved_eq_writeSeq, hs.first, hd.first, if_neg hsize, if_neg hsize]
  refine writeSeq_congr (fun i hi => (hd.linear hlinear.2 i hi).symm) fun i hi => ?_
  exact congrArg m (hs.linear hlinear.1 i hi).symm

/-- A snapshot onto itself. -/
theorem writeSeq_self (m : Bytes) (place : ℕ → ℕ) (n : ℕ) :
    writeSeq m place (fun i => m (place i)) n = m := by
  induction n with
  | zero => rfl
  | succ n ih => rw [writeSeq, ih, Function.update_eq_self]

/-- **A move is a snapshot**, whichever way it goes. -/
theorem move_eq (m : Bytes) (hsrc : ∀ i < size, c.RamByte false (src + i) (rp i))
    (hdest : ∀ i < size, c.RamByte true (dest + i) (wp i)) :
    c.move dest src size m = .ok (snapshotMove m rp wp size) := by
  unfold move
  split
  · next h =>
    obtain rfl | rfl := h
    · rfl
    · have hsame : ∀ i < size, rp i = wp i := fun i hi =>
        (hdest i hi).same_page (hsrc i hi) (i := 0) (Nat.mod_lt _ (by decide))
      rw [snapshotMove, writeSeq_congr (fun _ _ => rfl) fun i hi => congrArg m (hsame i hi),
        writeSeq_self]
  next hmove =>
  have hsize : size ≠ 0 := fun h => hmove (.inl h)
  have hsrcEnd := (hsrc (size - 1) (by omega)).inSpace
  have hdestEnd := (hdest (size - 1) (by omega)).inSpace
  rw [if_neg (by omega)]
  split
  · exact snapshot_eq m hsrc hdest
  next sourcePlan sourcePages hsource =>
  obtain ⟨hs, hpages⟩ := inspectSource_describes hsize hsrc hsource
  split
  · exact snapshot_eq m hsrc hdest
  next destinationPlan overlap hdestination =>
  obtain ⟨hd, hoverlap⟩ := inspectDestination_describes hsize hdest hdestination
  split
  · next hlinear => rw [memmove_eq m hs hd hlinear hsize]
  split
  · exact snapshot_eq m hsrc hdest
  · next hno =>
    refine stream_eq m hsrc hdest (fun i hi j hj heq => ?_) 0 (Nat.zero_le size)
    exact hoverlap (Bool.of_not_eq_true hno) j hj (heq ▸ hpages i hi)

/-- **A move copies like a snapshot**, whatever the aliasing: every destination byte that no
higher position shares is the source byte from before the call, and nothing else changes;
and `atomic_memmove_guest` is `memmove` for all offsets and sizes. -/
theorem move_snapshot (m : Bytes) (hsrc : ∀ i < size, c.RamByte false (src + i) (rp i))
    (hdest : ∀ i < size, c.RamByte true (dest + i) (wp i)) :
    (∃ m', c.move dest src size m = .ok m' ∧
      (∀ i < size, (∀ j, i < j → j < size → wp j ≠ wp i) → m' (wp i) = m (rp i)) ∧
      ∀ p, (∀ i < size, wp i ≠ p) → m' p = m p) ∧
    ∀ host destination source n (m : Bytes), atomicMemmoveGuest host destination source n m =
      fun a => if destination ≤ a ∧ a < destination + n then m (source + (a - destination))
        else m a :=
  ⟨⟨snapshotMove m rp wp size, move_eq m hsrc hdest,
    fun _ hi hlast => writeSeq_of_last hi rfl hlast, fun _ hp => writeSeq_of_ne hp⟩,
    fun host destination source n m => atomicMemmoveGuest_eq host destination source n m⟩

end AccessContext

/-- Two guest pages whose frames lie the other way round. -/
def crossedPages : AddressSpace :=
  { pages := fun g =>
      if g = 0x10 then { state := .committed, physicalPage := some 7, currentProtect := 3 }
      else if g = 0x11 then { state := .committed, physicalPage := some 6, currentProtect := 3 }
      else {}
    frames :=
      { owner := fun _ => .free, refs := fun _ => 0, metadata := fun _ => {},
        free := RangeMap.empty, retired := RangeMap.empty, reverse := fun _ => [] }
    hot := fun _ => {}
    advances := fun _ => 0
    mmioRanges := []
    memory := fun _ => 0 : AddressSpace }.rebuildHotPages

/-- An access to them. -/
def crossedContext : AccessContext where
  space := crossedPages
  hostBase := 0
  reclaimPending := false
  deviceRead := fun _ => none
  deviceWrites := fun _ => false

/-- The bytes on both sides of the boundary move up by one. -/
theorem move_snapshot_crossed :
    ∃ m', crossedContext.move 0x11000 0x10FFF 2 (fun a => BitVec.ofNat 8 (a / 16)) = .ok m' ∧
      m' 0x6000 = 0xFF ∧ m' 0x6001 = 0x00 := by
  have hsrc : ∀ i < 2, crossedContext.RamByte false (0x10FFF + i)
      (if i = 0 then 0x7FFF else 0x6000) := by
    intro i hi
    interval_cases i
    · exact ⟨by decide, by decide, by decide, nofun, by decide⟩
    · exact ⟨by decide, by decide, by decide, nofun, by decide⟩
  have hdest : ∀ i < 2, crossedContext.RamByte true (0x11000 + i) (0x6000 + i) := by
    intro i hi
    interval_cases i
    · exact ⟨by decide, by decide, by decide, nofun, by decide⟩
    · exact ⟨by decide, by decide, by decide, nofun, by decide⟩
  obtain ⟨⟨m', hmove, hbytes, -⟩, -⟩ :=
    AccessContext.move_snapshot (fun a => BitVec.ofNat 8 (a / 16)) hsrc hdest
  exact ⟨m', hmove, hbytes 0 (by decide) fun _ _ _ => by omega,
    hbytes 1 (by decide) fun _ _ _ => by omega⟩

end Memory
end XenonRecomp
