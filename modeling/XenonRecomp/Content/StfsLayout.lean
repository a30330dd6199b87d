/-
# The block layout of STFS packages

`block_to_offset` and `hash_block_offset` of
`src/filesystem/content/stfs_package_source.cpp`.  A package is a sequence of
slots of 4 KiB.  Each 170 data blocks have a hash table of level 0, each 28900
one of level 1, and one table of level 2 has all of them; a package that can be
written holds every table twice, in neighbouring slots.

The two functions compute slots in ways that share nothing: the first walks up
the levels, the second has a formula for each.  `dataSlot` and `tableSlot` are
what they come to, and from those the layout is a tiling (`stfs_tiling`).
-/

import Mathlib.Tactic.IntervalCases

namespace XenonRecomp
namespace Content

/-! ### The package -/

/-- `kBlockSize`. -/
abbrev blockSize : ℕ := 0x1000

/-- `kBlocksPerHashLevel0`. -/
abbrev blocksPerHashLevel0 : ℕ := 170

/-- `kBlocksPerHashLevel1`. -/
abbrev blocksPerHashLevel1 : ℕ := 28900

/-- The largest `uint64_t`. -/
abbrev uint64Max : ℕ := 0xFFFFFFFFFFFFFFFF

/-- The largest `uint32_t`. -/
abbrev uint32Max : ℕ := 0xFFFFFFFF

/-- What the layout of a package depends on.  The reader of the metadata has checked
the header size. -/
structure StfsPackage where
  packageSize : ℕ
  headerSize : ℕ
  totalBlockCount : ℕ
  readOnlyFormat : Bool
  headerSize_ge : 0x971A ≤ headerSize
  headerSize_le : headerSize ≤ 64 * 1024 * 1024

/-- `round_up`; 0 if the result does not fit. -/
def roundUp (value alignment : ℕ) : ℕ :=
  if alignment = 0 then value
  else if value % alignment = 0 then value
  else if value ≤ uint64Max - (alignment - value % alignment) then
    value + (alignment - value % alignment)
  else 0

namespace StfsPackage

variable (p : StfsPackage)

/-- `blocks_per_hash_table_`. -/
def blocksPerHashTable : ℕ :=
  if p.readOnlyFormat then 1 else 2

/-- `block_step_[0]`. -/
def blockStep0 : ℕ :=
  blocksPerHashLevel0 + p.blocksPerHashTable

/-- `block_step_[1]`. -/
def blockStep1 : ℕ :=
  blocksPerHashLevel1 + (blocksPerHashLevel0 + 1) * p.blocksPerHashTable

/-- Where the slots begin. -/
def dataBase : ℕ :=
  roundUp p.headerSize blockSize

/-- The offset of a slot that lies in the file. -/
def slotOffset (slot : ℕ) : Option ℕ :=
  if p.dataBase = 0 ∨ slot > (uint64Max - p.dataBase) / blockSize then none
  else
    let offset := p.dataBase + slot * blockSize
    if offset ≤ p.packageSize ∧ blockSize ≤ p.packageSize - offset then some offset else none

/-- The loop of `block_to_offset` with the levels that are left. -/
def physicalBlock (block : ℕ) : ℕ → ℕ → ℕ → Option ℕ
  | 0, _, physical => some physical
  | levels + 1, base, physical =>
      let quotient := (block + base) / base
      if quotient > (uint64Max - physical) / p.blocksPerHashTable then none
      else if block < base then some (physical + quotient * p.blocksPerHashTable)
      else if base > uint64Max / blocksPerHashLevel0 then none
      else
        physicalBlock block levels (base * blocksPerHashLevel0)
          (physical + quotient * p.blocksPerHashTable)

/-- `block_to_offset`. -/
def blockToOffset (block : ℕ) : Option ℕ :=
  if block ≥ p.totalBlockCount then none
  else (p.physicalBlock block 3 blocksPerHashLevel0 block).bind p.slotOffset

/-- `hash_block_number`. -/
def hashBlockNumber (block level : ℕ) : Option ℕ :=
  if level > 2 then none
  else if level = 0 ∧ block < blocksPerHashLevel0 then some 0
  else if level = 1 ∧ block < blocksPerHashLevel1 then some p.blockStep0
  else
    let number :=
      if level = 0 then
        block / blocksPerHashLevel0 * p.blockStep0 +
          (block / blocksPerHashLevel1 + 1) * p.blocksPerHashTable +
          if block ≥ blocksPerHashLevel1 then p.blocksPerHashTable else 0
      else if level = 1 then
        block / blocksPerHashLevel1 * p.blockStep1 + p.blocksPerHashTable
      else p.blockStep1
    if number > uint32Max then none else some number

/-- `hash_block_offset`. -/
def hashBlockOffset (block level : ℕ) : Option ℕ :=
  (p.hashBlockNumber block level).bind p.slotOffset

/-! ### The contract -/

/-- What a slot holds: a data block, or a copy of the hash table of some level that
has a block. -/
inductive Piece where
  | data (block : ℕ)
  | table (level block copy : ℕ)
deriving DecidableEq, Repr

/-- The two pieces are one: the same block, or the same copy of one table. -/
def Piece.Same : Piece → Piece → Prop
  | data block, data block' => block = block'
  | table level block copy, table level' block' copy' =>
      level = level' ∧ block / 170 ^ (level + 1) = block' / 170 ^ (level + 1) ∧ copy = copy'
  | _, _ => False

/-- The package has the piece. -/
def Has : Piece → Prop
  | .data block => block < p.totalBlockCount
  | .table level block copy =>
      level ≤ 2 ∧ block < p.totalBlockCount ∧ copy < p.blocksPerHashTable

/-- The code finds this piece of the package at this offset.  The second copy of a
table is one block later. -/
def Finds : Piece → ℕ → Prop
  | .data block, offset => p.blockToOffset block = some offset
  | .table level block copy, offset =>
      block < p.totalBlockCount ∧ copy < p.blocksPerHashTable ∧
        ∃ table, p.hashBlockOffset block level = some table ∧ offset = table + copy * blockSize

/-- A slot lies in the file. -/
def Holds (slot : ℕ) : Prop :=
  p.dataBase + (slot + 1) * blockSize ≤ p.packageSize

instance (slot : ℕ) : Decidable (p.Holds slot) :=
  inferInstanceAs (Decidable (_ ≤ _))

/-- The slot of a data block. -/
def dataSlot (block : ℕ) : ℕ :=
  let s := p.blocksPerHashTable
  block + (block / 170 + 1) * s +
    ((if 170 ≤ block then (block / 28900 + 1) * s else 0) + if 28900 ≤ block then s else 0)

/-- The slot of the table of a level that has a block. -/
def tableSlot (level block : ℕ) : ℕ :=
  let s := p.blocksPerHashTable
  if level = 0 then
    if block < 170 then 0
    else
      block / 170 * (170 + s) + (block / 28900 + 1) * s + if 28900 ≤ block then s else 0
  else if level = 1 then
    if block < 28900 then 170 + s else block / 28900 * (28900 + 171 * s) + s
  else 28900 + 171 * s

/-- The slot of a piece. -/
def slot : Piece → ℕ
  | .data block => p.dataSlot block
  | .table level block copy => p.tableSlot level block + copy

/-- The layout is a perfect tiling. -/
structure Tiled : Prop where
  /-- Every piece that the file has room for is found. -/
  found : ∀ piece, p.Has piece → p.Holds (p.slot piece) → ∃ offset, p.Finds piece offset
  /-- Different pieces do not overlap. -/
  disjoint : ∀ piece piece' offset offset', p.Finds piece offset → p.Finds piece' offset' →
    offset < offset' + blockSize → offset' < offset + blockSize → piece.Same piece'
  /-- Blocks share a table exactly if they are of one group of its level. -/
  shared : ∀ level block block' table table', block < p.totalBlockCount →
    block' < p.totalBlockCount → p.hashBlockOffset block level = some table →
    p.hashBlockOffset block' level = some table' →
    (table = table' ↔ block / 170 ^ (level + 1) = block' / 170 ^ (level + 1))
  /-- Up to the last block that is found, every byte is in some piece. -/
  noGap : ∀ block offset, p.blockToOffset block = some offset → ∀ address, p.dataBase ≤ address →
    address < offset → ∃ piece start, p.Finds piece start ∧ start ≤ address ∧
      address < start + blockSize
  /-- Tables precede their blocks, but for the first ones of levels 1 and 2, which
  follow the first 170 and 28900 blocks. -/
  precedes : ∀ level block table offset, p.hashBlockOffset block level = some table →
    p.blockToOffset block = some offset →
    if (level = 1 ∧ block < 170) ∨ (level = 2 ∧ block < 28900) then offset + blockSize ≤ table
    else table + p.blocksPerHashTable * blockSize ≤ offset

theorem blocksPerHashTable_cases : p.blocksPerHashTable = 1 ∨ p.blocksPerHashTable = 2 := by
  rw [blocksPerHashTable]
  split_ifs
  · exact .inl rfl
  · exact .inr rfl

/-- The header fills whole slots. -/
theorem dataBase_bounds : 0 < p.dataBase ∧ p.dataBase ≤ 2 ^ 27 := by
  have hge := p.headerSize_ge
  have hle := p.headerSize_le
  rw [dataBase, roundUp, if_neg (by decide)]
  simp only [blockSize, uint64Max]
  split_ifs <;> constructor <;> omega

/-- The offset of a slot: none exactly if the file does not hold it. -/
theorem slotOffset_eq {slot : ℕ} (hslot : slot ≤ uint32Max) :
    p.slotOffset slot = if p.Holds slot then some (p.dataBase + slot * blockSize) else none := by
  obtain ⟨hpos, hbound⟩ := p.dataBase_bounds
  simp only [slotOffset, blockSize, uint64Max, uint32Max] at *
  have hfits : ¬(p.dataBase = 0 ∨ slot > (18446744073709551615 - p.dataBase) / 4096) := by
    rintro (h | h) <;> omega
  rw [if_neg hfits]
  by_cases hholds : p.Holds slot
  · have hend : p.dataBase + (slot + 1) * 4096 ≤ p.packageSize := hholds
    rw [Nat.add_mul] at hend
    have hfit : p.dataBase + slot * 4096 ≤ p.packageSize ∧
        4096 ≤ p.packageSize - (p.dataBase + slot * 4096) := by omega
    rw [if_pos hholds, if_pos hfit]
  · have hend : ¬p.dataBase + (slot + 1) * 4096 ≤ p.packageSize := hholds
    rw [Nat.add_mul] at hend
    rw [if_neg hholds, if_neg (by omega)]

/-- One level of the loop. -/
theorem physicalBlock_succ {block levels base physical quotient : ℕ} (hbase : base ≤ 170 ^ 3)
    (hphysical : physical ≤ 2 ^ 32) (hquotient : (block + base) / base = quotient)
    (hle : quotient ≤ 2 ^ 32) :
    p.physicalBlock block (levels + 1) base physical =
      if block < base then some (physical + quotient * p.blocksPerHashTable)
      else p.physicalBlock block levels (base * 170)
        (physical + quotient * p.blocksPerHashTable) := by
  have hfits : ¬quotient > (uint64Max - physical) / p.blocksPerHashTable := by
    simp only [uint64Max]
    rcases p.blocksPerHashTable_cases with hs | hs <;> rw [hs] <;> omega
  have hnext : ¬base > uint64Max / blocksPerHashLevel0 := by
    simp only [uint64Max, blocksPerHashLevel0]
    omega
  rw [physicalBlock]
  simp only [hquotient]
  rw [if_neg hfits, if_neg hnext]

/-- Where `block_to_offset` arrives. -/
theorem physicalBlock_eq {block : ℕ} (hblock : block < 170 ^ 3) :
    p.physicalBlock block 3 blocksPerHashLevel0 block = some (p.dataSlot block) := by
  have hs := p.blocksPerHashTable_cases
  have h0 : (block + 170) / 170 = block / 170 + 1 := by omega
  have h1 : (block + 170 * 170) / (170 * 170) = block / 28900 + 1 := by omega
  have h2 : (block + 170 * 170 * 170) / (170 * 170 * 170) = 1 := by omega
  rw [dataSlot, p.physicalBlock_succ (by decide) (by omega) h0 (by omega)]
  by_cases hlevel0 : block < 170
  · rw [if_pos hlevel0, if_neg (by omega), if_neg (by omega)]
    rfl
  rw [if_neg hlevel0, if_pos (by omega), p.physicalBlock_succ (by decide)
    (by rcases hs with hs | hs <;> rw [hs] <;> omega) h1 (by omega)]
  by_cases hlevel1 : block < 28900
  · rw [if_pos (by omega), if_neg (by omega)]
    rfl
  rw [if_neg (by omega), if_pos (by omega), p.physicalBlock_succ (by decide)
    (by rcases hs with hs | hs <;> rw [hs] <;> omega) h2 (by omega), if_pos (by omega), Nat.one_mul,
    Nat.add_assoc]

/-- The slots have small numbers. -/
theorem dataSlot_le {block : ℕ} (hblock : block < 170 ^ 3) : p.dataSlot block ≤ uint32Max := by
  have hs := p.blocksPerHashTable_cases
  simp only [dataSlot, uint32Max]
  generalize p.blocksPerHashTable = s at hs ⊢
  rcases hs with rfl | rfl <;> split_ifs <;> omega

theorem tableSlot_le {block level : ℕ} (hblock : block < 170 ^ 3) :
    p.tableSlot level block ≤ uint32Max := by
  have hs := p.blocksPerHashTable_cases
  simp only [tableSlot, uint32Max]
  generalize p.blocksPerHashTable = s at hs ⊢
  rcases hs with rfl | rfl <;> split_ifs <;> omega

/-- Where `hash_block_number` arrives. -/
theorem hashBlockNumber_eq {block level : ℕ} (hblock : block < 170 ^ 3) (hlevel : level ≤ 2) :
    p.hashBlockNumber block level = some (p.tableSlot level block) := by
  have hle := @tableSlot_le p _ level hblock
  rw [hashBlockNumber, if_neg (not_lt.mpr hlevel)]
  simp only [tableSlot, blockStep0, blockStep1] at hle ⊢
  interval_cases level
  · by_cases hlevel0 : block < 170
    · simp [hlevel0]
    · simp only [hlevel0, and_false, zero_ne_one, false_and, if_false, if_true] at hle ⊢
      rw [if_neg (not_lt.mpr hle)]
  · by_cases hlevel1 : block < 28900
    · simp [hlevel1]
    · simp only [hlevel1, and_false, one_ne_zero, false_and, if_false, if_true] at hle ⊢
      rw [if_neg (not_lt.mpr hle)]
  · simp only [OfNat.ofNat_ne_zero, OfNat.ofNat_ne_one, false_and, if_false] at hle ⊢
    rw [if_neg (not_lt.mpr hle)]

/-- **The offset of a data block.** -/
theorem blockToOffset_eq {block : ℕ} (hcount : p.totalBlockCount ≤ 170 ^ 3)
    (hblock : block < p.totalBlockCount) : p.blockToOffset block =
      if p.Holds (p.dataSlot block) then some (p.dataBase + p.dataSlot block * blockSize)
      else none := by
  have hlt : block < 170 ^ 3 := hblock.trans_le hcount
  rw [blockToOffset, if_neg (not_le.mpr hblock), p.physicalBlock_eq hlt, Option.bind_some,
    p.slotOffset_eq (p.dataSlot_le hlt)]

/-- **The offset of a hash table.** -/
theorem hashBlockOffset_eq {block level : ℕ} (hcount : p.totalBlockCount ≤ 170 ^ 3)
    (hblock : block < p.totalBlockCount) (hlevel : level ≤ 2) : p.hashBlockOffset block level =
      if p.Holds (p.tableSlot level block) then
        some (p.dataBase + p.tableSlot level block * blockSize)
      else none := by
  have hlt : block < 170 ^ 3 := hblock.trans_le hcount
  rw [hashBlockOffset, p.hashBlockNumber_eq hlt hlevel, Option.bind_some,
    p.slotOffset_eq (p.tableSlot_le hlt)]

/-! ### The tiling -/

/-- The slot of the first block of a group of 170. -/
def groupSlot (s group : ℕ) : ℕ :=
  group * 170 + (group + 1) * s +
    ((if 1 ≤ group then (group / 170 + 1) * s else 0) + if 170 ≤ group then s else 0)

/-- The slot of a table of level 1. -/
def level1Slot (s index : ℕ) : ℕ :=
  if index = 0 then 170 + s else index * (28900 + 171 * s) + s

/-- The slot of the table of level 2. -/
def level2Slot (s : ℕ) : ℕ :=
  28900 + 171 * s

theorem dataSlot_eq (block : ℕ) :
    p.dataSlot block = groupSlot p.blocksPerHashTable (block / 170) + block % 170 := by
  have hdiv : block / 28900 = block / 170 / 170 := (Nat.div_div_eq_div_mul block 170 170).symm
  have hgroup : 1 ≤ block / 170 ↔ 170 ≤ block := by omega
  have hgroups : 170 ≤ block / 170 ↔ 28900 ≤ block := by omega
  have hmod : block / 170 * 170 + block % 170 = block := Nat.div_add_mod' block 170
  simp only [dataSlot, groupSlot, hdiv, hgroup, hgroups]
  omega

theorem tableSlot_zero (block : ℕ) :
    p.tableSlot 0 block + p.blocksPerHashTable =
      groupSlot p.blocksPerHashTable (block / 170) := by
  have hdiv : block / 28900 = block / 170 / 170 := (Nat.div_div_eq_div_mul block 170 170).symm
  have hgroup : 1 ≤ block / 170 ↔ ¬block < 170 := by omega
  have hgroups : 170 ≤ block / 170 ↔ 28900 ≤ block := by omega
  simp only [tableSlot, groupSlot, hdiv, hgroup, hgroups, if_true]
  by_cases hblock : block < 170
  · have hzero : block / 170 = 0 := by omega
    have hsmall : ¬28900 ≤ block := by omega
    simp [hblock, hzero, hsmall]
  · simp only [hblock, not_false_eq_true, if_true, if_false]
    rw [Nat.mul_add, Nat.add_mul (block / 170)]
    omega

theorem tableSlot_one (block : ℕ) :
    p.tableSlot 1 block = level1Slot p.blocksPerHashTable (block / 28900) := by
  have hindex : block < 28900 ↔ block / 28900 = 0 := by omega
  simp only [tableSlot, level1Slot, one_ne_zero, if_false, if_true, hindex]

theorem tableSlot_two (block : ℕ) : p.tableSlot 2 block = level2Slot p.blocksPerHashTable := by
  simp [tableSlot, level2Slot]

section Slots

variable {s : ℕ} (hs : s = 1 ∨ s = 2)

include hs

/-- A later group starts after an earlier one and its own table. -/
theorem groupSlot_lt {group group' : ℕ} (h : group < group') :
    groupSlot s group + 170 + s ≤ groupSlot s group' := by
  simp only [groupSlot]
  rcases hs with rfl | rfl <;> split_ifs <;> omega

/-- A table of level 1 lies before the tables of its groups, the first one after the
first group. -/
theorem level1Slot_before {index group : ℕ} (hgroup : 170 * index ≤ group) (hpos : 1 ≤ group) :
    level1Slot s index + 2 * s ≤ groupSlot s group := by
  simp only [groupSlot, level1Slot]
  rcases hs with rfl | rfl <;> split_ifs <;> omega

theorem level1Slot_after {index group : ℕ} (hgroup : group < 170 * index ∨ group = 0) :
    groupSlot s group + 170 ≤ level1Slot s index := by
  simp only [groupSlot, level1Slot]
  rcases hs with rfl | rfl <;> split_ifs <;> omega

theorem level1Slot_lt {index index' : ℕ} (h : index < index') :
    level1Slot s index + s ≤ level1Slot s index' := by
  simp only [level1Slot]
  rcases hs with rfl | rfl <;> split_ifs <;> omega

/-- The table of level 2 lies after the first 170 groups. -/
theorem level2Slot_before {group : ℕ} (hgroup : 170 ≤ group) :
    level2Slot s + 3 * s ≤ groupSlot s group := by
  simp only [groupSlot, level2Slot]
  rcases hs with rfl | rfl <;> split_ifs <;> omega

theorem level2Slot_after {group : ℕ} (hgroup : group < 170) :
    groupSlot s group + 170 ≤ level2Slot s := by
  simp only [groupSlot, level2Slot]
  rcases hs with rfl | rfl <;> split_ifs <;> omega

theorem level1Slot_zero_lt : level1Slot s 0 + s ≤ level2Slot s := by
  simp only [level1Slot, level2Slot]
  rcases hs with rfl | rfl <;> decide

theorem level2Slot_lt {index : ℕ} (hindex : 1 ≤ index) :
    level2Slot s + s ≤ level1Slot s index := by
  simp only [level1Slot, level2Slot]
  rcases hs with rfl | rfl <;> split_ifs <;> omega

/-- What lies between a group and the table of the next one. -/
theorem groupSlot_succ (group : ℕ) :
    groupSlot s (group + 1) = groupSlot s group + 170 + s +
      ((if group = 0 then s else 0) + (if (group + 1) % 170 = 0 then s else 0) +
        if group + 1 = 170 then s else 0) := by
  simp only [groupSlot]
  rcases hs with rfl | rfl <;> split_ifs <;> omega

omit hs in
/-- Every slot lies between the table of some group and that of the next. -/
theorem exists_group (slot : ℕ) :
    ∃ group, groupSlot s group ≤ slot + s ∧ slot + s < groupSlot s (group + 1) := by
  have hunbounded : ∀ n, n < groupSlot s (n + 1) := by
    intro n
    simp only [groupSlot]
    omega
  have hexists : ∃ n, slot + s < groupSlot s (n + 1) := ⟨slot + s, hunbounded _⟩
  classical
  refine ⟨Nat.find hexists, ?_, Nat.find_spec hexists⟩
  cases hfind : Nat.find hexists with
  | zero => simp [groupSlot]
  | succ n =>
      have hnot := Nat.find_min hexists (m := n) (by omega)
      omega

end Slots

variable {p}

/-- Where a piece is found. -/
theorem Finds.at_slot (hcount : p.totalBlockCount ≤ 170 ^ 3) {piece : Piece} {offset : ℕ}
    (h : p.Finds piece offset) :
    p.Has piece ∧ offset = p.dataBase + p.slot piece * blockSize := by
  cases piece with
  | data block =>
      have hblock : block < p.totalBlockCount := by
        by_contra hge
        rw [Finds, blockToOffset, if_pos (not_lt.mp hge)] at h
        exact absurd h (Option.some_ne_none _).symm
      rw [Finds, p.blockToOffset_eq hcount hblock] at h
      split_ifs at h
      exact ⟨hblock, (Option.some.inj h).symm⟩
  | table level block copy =>
      obtain ⟨hblock, hcopy, table, htable, rfl⟩ := h
      have hlevel : level ≤ 2 := by
        by_contra hgt
        rw [hashBlockOffset, hashBlockNumber, if_pos (not_le.mp hgt)] at htable
        exact absurd htable (Option.some_ne_none _).symm
      rw [p.hashBlockOffset_eq hcount hblock hlevel] at htable
      split_ifs at htable
      refine ⟨⟨hlevel, hblock, hcopy⟩, ?_⟩
      rw [← Option.some.inj htable, slot, Nat.add_mul, Nat.add_assoc]

/-- A piece of the package is found if the file holds its slot. -/
theorem Has.found (hcount : p.totalBlockCount ≤ 170 ^ 3) {piece : Piece} (h : p.Has piece)
    (hholds : p.Holds (p.slot piece)) : p.Finds piece (p.dataBase + p.slot piece * blockSize) := by
  cases piece with
  | data block =>
      rw [slot] at hholds ⊢
      rw [Finds, p.blockToOffset_eq hcount h, if_pos hholds]
  | table level block copy =>
      obtain ⟨hlevel, hblock, hcopy⟩ := h
      have hfirst : p.Holds (p.tableSlot level block) := by
        have hle : (p.tableSlot level block + 1) * blockSize ≤
            (p.tableSlot level block + copy + 1) * blockSize :=
          Nat.mul_le_mul_right _ (by omega)
        exact (Nat.add_le_add_left hle _).trans hholds
      refine ⟨hblock, hcopy, p.dataBase + p.tableSlot level block * blockSize, ?_, ?_⟩
      · rw [p.hashBlockOffset_eq hcount hblock hlevel, if_pos hfirst]
      · rw [slot, Nat.add_mul, Nat.add_assoc]

/-- A data block and a table are never in one slot. -/
theorem dataSlot_ne_tableSlot {block block' level copy : ℕ} (hlevel : level ≤ 2)
    (hcopy : copy < p.blocksPerHashTable) :
    p.dataSlot block ≠ p.tableSlot level block' + copy := by
  have hs := p.blocksPerHashTable_cases
  have hmod : block % 170 < 170 := Nat.mod_lt _ (by decide)
  rw [dataSlot_eq]
  interval_cases level
  · have htable := p.tableSlot_zero block'
    rcases lt_trichotomy (block / 170) (block' / 170) with hlt | heq | hgt
    · have hle := groupSlot_lt hs hlt
      omega
    · rw [heq]
      omega
    · have hle := groupSlot_lt hs hgt
      omega
  · rw [tableSlot_one]
    by_cases hgroup : 170 * (block' / 28900) ≤ block / 170 ∧ 1 ≤ block / 170
    · have hle := level1Slot_before hs hgroup.1 hgroup.2
      omega
    · have hle := @level1Slot_after _ hs (block' / 28900) (block / 170) (by omega)
      omega
  · rw [tableSlot_two]
    by_cases hgroup : 170 ≤ block / 170
    · have hle := level2Slot_before hs hgroup
      omega
    · have hle := level2Slot_after hs (not_le.mp hgroup)
      omega

/-- Two tables in one slot are one table. -/
theorem tableSlot_inj {level level' block block' copy copy' : ℕ} (hlevel : level ≤ level')
    (hlevel' : level' ≤ 2) (hblock : block < 170 ^ 3) (hblock' : block' < 170 ^ 3)
    (hcopy : copy < p.blocksPerHashTable) (hcopy' : copy' < p.blocksPerHashTable)
    (h : p.tableSlot level block + copy = p.tableSlot level' block' + copy') :
    level = level' ∧ block / 170 ^ (level + 1) = block' / 170 ^ (level + 1) ∧ copy = copy' := by
  have hs := p.blocksPerHashTable_cases
  interval_cases hl' : level' <;> interval_cases hl : level
  · have hzero := p.tableSlot_zero block
    have hzero' := p.tableSlot_zero block'
    rcases lt_trichotomy (block / 170) (block' / 170) with hlt | heq | hgt
    · have hle := groupSlot_lt hs hlt
      omega
    · rw [heq] at hzero
      exact ⟨rfl, by simpa using heq, by omega⟩
    · have hle := groupSlot_lt hs hgt
      omega
  · have hzero := p.tableSlot_zero block
    rw [tableSlot_one] at h
    by_cases hgroup : 170 * (block' / 28900) ≤ block / 170 ∧ 1 ≤ block / 170
    · have hle := level1Slot_before hs hgroup.1 hgroup.2
      omega
    · have hle := @level1Slot_after _ hs (block' / 28900) (block / 170) (by omega)
      omega
  · rw [tableSlot_one, tableSlot_one] at h
    rcases lt_trichotomy (block / 28900) (block' / 28900) with hlt | heq | hgt
    · have hle := level1Slot_lt hs hlt
      omega
    · rw [heq] at h
      exact ⟨rfl, by simpa using heq, by omega⟩
    · have hle := level1Slot_lt hs hgt
      omega
  · have hzero := p.tableSlot_zero block
    rw [tableSlot_two] at h
    by_cases hgroup : 170 ≤ block / 170
    · have hle := level2Slot_before hs hgroup
      omega
    · have hle := level2Slot_after hs (not_le.mp hgroup)
      omega
  · rw [tableSlot_one, tableSlot_two] at h
    by_cases hindex : block / 28900 = 0
    · have hle := level1Slot_zero_lt hs
      rw [hindex] at h
      omega
    · have hle := level2Slot_lt hs (Nat.one_le_iff_ne_zero.mpr hindex)
      omega
  · rw [tableSlot_two, tableSlot_two] at h
    refine ⟨rfl, ?_, by omega⟩
    rw [Nat.div_eq_of_lt hblock, Nat.div_eq_of_lt hblock']

/-- **Different pieces have different slots.** -/
theorem Has.same_of_slot (hcount : p.totalBlockCount ≤ 170 ^ 3) {piece piece' : Piece}
    (h : p.Has piece) (h' : p.Has piece') (hslot : p.slot piece = p.slot piece') :
    piece.Same piece' := by
  cases piece with
  | data block =>
      cases piece' with
      | data block' =>
          have hs := p.blocksPerHashTable_cases
          rw [slot, slot, dataSlot_eq, dataSlot_eq] at hslot
          change block = block'
          rcases lt_trichotomy (block / 170) (block' / 170) with hlt | heq | hgt
          · have hle := groupSlot_lt hs hlt
            omega
          · rw [heq] at hslot
            omega
          · have hle := groupSlot_lt hs hgt
            omega
      | table level block' copy => exact absurd hslot (dataSlot_ne_tableSlot h'.1 h'.2.2)
  | table level block copy =>
      obtain ⟨hlevel, hblock, hcopy⟩ := h
      cases piece' with
      | data block' => exact absurd hslot.symm (dataSlot_ne_tableSlot hlevel hcopy)
      | table level' block' copy' =>
          obtain ⟨hlevel', hblock', hcopy'⟩ := h'
          rcases le_total level level' with hle | hle
          · exact tableSlot_inj hle hlevel' (hblock.trans_le hcount) (hblock'.trans_le hcount)
              hcopy hcopy' hslot
          · obtain ⟨rfl, hindex, rfl⟩ := tableSlot_inj hle hlevel (hblock'.trans_le hcount)
              (hblock.trans_le hcount) hcopy' hcopy hslot.symm
            exact ⟨rfl, hindex.symm, rfl⟩

/-- **Every slot before a data block has a piece.** -/
theorem exists_slot_eq {block : ℕ} (hblock : block < p.totalBlockCount) {x : ℕ}
    (hx : x < p.dataSlot block) : ∃ piece, p.Has piece ∧ p.slot piece = x := by
  have hs := p.blocksPerHashTable_cases
  obtain ⟨group, hge, hlt⟩ := exists_group (s := p.blocksPerHashTable) x
  have hsucc := groupSlot_succ hs group
  rw [dataSlot_eq] at hx
  -- The block is not in an earlier group.
  have hgroup : group ≤ block / 170 := by
    by_contra hcontra
    have hle := groupSlot_lt hs (not_le.mp hcontra)
    omega
  have hfirst : group * 170 / 170 = group := Nat.mul_div_cancel _ (by decide)
  by_cases htable : x < groupSlot p.blocksPerHashTable group
  · have hzero := p.tableSlot_zero (group * 170)
    rw [hfirst] at hzero
    refine ⟨.table 0 (group * 170) (x - p.tableSlot 0 (group * 170)),
      ⟨by decide, by omega, by omega⟩, ?_⟩
    rw [slot]
    omega
  by_cases hdata : x < groupSlot p.blocksPerHashTable group + 170
  · refine ⟨.data (group * 170 + (x - groupSlot p.blocksPerHashTable group)), ?_, ?_⟩
    · change _ < p.totalBlockCount
      by_cases hsame : group = block / 170
      · rw [hsame] at hdata htable ⊢
        omega
      · omega
    · have hdiv : (group * 170 + (x - groupSlot p.blocksPerHashTable group)) / 170 = group := by omega
      have hmod : (group * 170 + (x - groupSlot p.blocksPerHashTable group)) % 170 =
          x - groupSlot p.blocksPerHashTable group := by omega
      rw [slot, dataSlot_eq, hdiv, hmod]
      omega
  -- Between two groups: the tables of the levels above.
  have hnext : group + 1 ≤ block / 170 := by
    by_contra hcontra
    have hsame : block / 170 = group := by omega
    rw [hsame] at hx
    omega
  by_cases hzero : group = 0
  · subst hzero
    have hstart : level1Slot p.blocksPerHashTable 0 =
        groupSlot p.blocksPerHashTable 0 + 170 := by
      simp [level1Slot, groupSlot]
      omega
    refine ⟨.table 1 0 (x - level1Slot p.blocksPerHashTable 0),
      ⟨by decide, by omega, ?_⟩, ?_⟩
    · rw [if_pos rfl, if_neg (by decide), if_neg (by decide)] at hsucc
      omega
    · rw [slot, tableSlot_one, Nat.zero_div]
      omega
  by_cases hmod : (group + 1) % 170 = 0
  · obtain ⟨index, hindex⟩ := Nat.dvd_of_mod_eq_zero hmod
    have hfirst' : 170 * index * 170 / 28900 = index := by omega
    have hlevel1 : level1Slot p.blocksPerHashTable index + 2 * p.blocksPerHashTable =
        groupSlot p.blocksPerHashTable (group + 1) := by
      rw [hindex]
      simp only [groupSlot, level1Slot]
      rcases hs with hs | hs <;> rw [hs] <;> split_ifs <;> omega
    by_cases hlast : group + 1 = 170
    · have hlevel2 : level2Slot p.blocksPerHashTable =
          groupSlot p.blocksPerHashTable group + 170 := by
        have hgroup169 : group = 169 := by omega
        subst hgroup169
        simp only [groupSlot, level2Slot]
        rcases hs with hs | hs <;> rw [hs] <;> decide
      rw [if_neg hzero, if_pos hmod, if_pos hlast] at hsucc
      by_cases hsecond : x < level2Slot p.blocksPerHashTable + p.blocksPerHashTable
      · refine ⟨.table 2 0 (x - level2Slot p.blocksPerHashTable), ⟨by decide, by omega, by omega⟩, ?_⟩
        rw [slot, tableSlot_two]
        omega
      · refine ⟨.table 1 (170 * index * 170) (x - level1Slot p.blocksPerHashTable index),
          ⟨by decide, by omega, by omega⟩, ?_⟩
        rw [slot, tableSlot_one, hfirst']
        omega
    · refine ⟨.table 1 (170 * index * 170) (x - level1Slot p.blocksPerHashTable index),
        ⟨by decide, by omega, ?_⟩, ?_⟩
      · omega
      · rw [slot, tableSlot_one, hfirst']
        simp only [hzero, hmod, hlast, if_true, if_false] at hsucc
        omega
  · simp only [hzero, hmod, if_false] at hsucc
    have hlast : group + 1 ≠ 170 := by omega
    rw [if_neg hlast] at hsucc
    omega

/-- Data blocks come after their tables, but for the first tables of levels 1 and 2. -/
theorem tableSlot_precedes {level block : ℕ} (hlevel : level ≤ 2) (hblock : block < 170 ^ 3) :
    if (level = 1 ∧ block < 170) ∨ (level = 2 ∧ block < 28900) then
      p.dataSlot block + 1 ≤ p.tableSlot level block
    else p.tableSlot level block + p.blocksPerHashTable ≤ p.dataSlot block := by
  have hs := p.blocksPerHashTable_cases
  have hmod : block % 170 < 170 := Nat.mod_lt _ (by decide)
  rw [dataSlot_eq]
  interval_cases level
  · have hzero := p.tableSlot_zero block
    rw [if_neg (by omega)]
    omega
  · rw [tableSlot_one]
    by_cases hfirst : block < 170
    · rw [if_pos (.inl ⟨rfl, hfirst⟩)]
      have hle := @level1Slot_after _ hs (block / 28900) (block / 170) (by omega)
      omega
    · rw [if_neg (by omega)]
      have hle := @level1Slot_before _ hs (block / 28900) (block / 170) (by omega)
        (by omega)
      omega
  · rw [tableSlot_two]
    by_cases hfirst : block < 28900
    · rw [if_pos (.inr ⟨rfl, hfirst⟩)]
      have hle := @level2Slot_after _ hs (block / 170) (by omega)
      omega
    · rw [if_neg (by omega)]
      have hle := @level2Slot_before _ hs (block / 170) (by omega)
      omega

/-- The table of a group is one for all its blocks. -/
theorem tableSlot_congr {level block block' : ℕ} (hlevel : level ≤ 2)
    (h : block / 170 ^ (level + 1) = block' / 170 ^ (level + 1)) :
    p.tableSlot level block = p.tableSlot level block' := by
  interval_cases level
  · have hzero := p.tableSlot_zero block
    have hzero' := p.tableSlot_zero block'
    have hgroup : block / 170 = block' / 170 := by simpa using h
    rw [hgroup] at hzero
    omega
  · have hindex : block / 28900 = block' / 28900 := by simpa using h
    rw [tableSlot_one, tableSlot_one, hindex]
  · rw [tableSlot_two, tableSlot_two]

/-- Slots that overlap are one slot. -/
theorem slot_eq_of_overlap {base x y : ℕ} (h : base + x * blockSize < base + y * blockSize + blockSize)
    (h' : base + y * blockSize < base + x * blockSize + blockSize) : x = y := by
  simp only [blockSize] at h h'
  omega

/-- What is found lies in the file. -/
theorem Finds.holds (hcount : p.totalBlockCount ≤ 170 ^ 3) {block offset : ℕ}
    (h : p.blockToOffset block = some offset) : p.Holds (p.dataSlot block) := by
  obtain ⟨hblock, -⟩ := @Finds.at_slot p hcount (.data block) _ h
  rw [p.blockToOffset_eq hcount hblock] at h
  by_contra hnot
  rw [if_neg hnot] at h
  exact absurd h.symm (Option.some_ne_none _)

/-- **The STFS layout is a perfect tiling**, for every package of at most 170 ^ 3
blocks. -/
theorem stfs_tiling (p : StfsPackage) (hcount : p.totalBlockCount ≤ 170 ^ 3) : p.Tiled := by
  have hpos : 0 < p.blocksPerHashTable := by
    rcases p.blocksPerHashTable_cases with hs | hs <;> omega
  have htable : ∀ {level block table}, block < p.totalBlockCount →
      p.hashBlockOffset block level = some table →
      level ≤ 2 ∧ table = p.dataBase + p.tableSlot level block * blockSize := by
    intro level block table hblock htable
    obtain ⟨hhas, hat⟩ := @Finds.at_slot p hcount (.table level block 0) _
      ⟨hblock, hpos, table, htable, rfl⟩
    exact ⟨hhas.1, by simpa [slot] using hat⟩
  refine ⟨fun piece hhas hholds => ⟨_, hhas.found hcount hholds⟩,
    fun piece piece' offset offset' hfinds hfinds' hlt hlt' => ?_,
    fun level block block' table table' hblock hblock' hfound hfound' => ?_,
    fun block offset hoffset address hbase hlt => ?_,
    fun level block table offset hfound hoffset => ?_⟩
  · obtain ⟨hhas, rfl⟩ := hfinds.at_slot hcount
    obtain ⟨hhas', rfl⟩ := hfinds'.at_slot hcount
    exact hhas.same_of_slot hcount hhas' (slot_eq_of_overlap hlt hlt')
  · obtain ⟨hlevel, rfl⟩ := htable hblock hfound
    obtain ⟨-, rfl⟩ := htable hblock' hfound'
    constructor
    · intro heq
      have hslot : p.tableSlot level block = p.tableSlot level block' := by
        simp only [blockSize] at heq
        omega
      have hhas : p.Has (.table level block 0) := ⟨hlevel, hblock, hpos⟩
      have hhas' : p.Has (.table level block' 0) := ⟨hlevel, hblock', hpos⟩
      exact (hhas.same_of_slot hcount hhas' (by simpa [slot] using hslot)).2.1
    · intro hindex
      rw [tableSlot_congr hlevel hindex]
  · obtain ⟨hblock, hat⟩ := @Finds.at_slot p hcount (.data block) _ hoffset
    have hlast := Finds.holds hcount hoffset
    rw [slot] at hat
    have hx : (address - p.dataBase) / 0x1000 < p.dataSlot block := by
      simp only [blockSize] at hat
      omega
    obtain ⟨piece, hhas, hslot⟩ := exists_slot_eq hblock hx
    have hholds : p.Holds (p.slot piece) := by
      have hle : (p.slot piece + 1) * blockSize ≤ (p.dataSlot block + 1) * blockSize :=
        Nat.mul_le_mul_right _ (by omega)
      exact (Nat.add_le_add_left hle _).trans hlast
    refine ⟨piece, _, hhas.found hcount hholds, ?_, ?_⟩
    · rw [hslot]
      simp only [blockSize]
      omega
    · rw [hslot]
      simp only [blockSize]
      omega
  · obtain ⟨hblock, hat⟩ := @Finds.at_slot p hcount (.data block) _ hoffset
    obtain ⟨hlevel, rfl⟩ := htable hblock hfound
    rw [slot] at hat
    have hprecedes := tableSlot_precedes (p := p) hlevel (hblock.trans_le hcount)
    split_ifs at hprecedes ⊢
    · have hle := Nat.mul_le_mul_right blockSize hprecedes
      rw [Nat.add_mul, Nat.one_mul] at hle
      omega
    · have hle := Nat.mul_le_mul_right blockSize hprecedes
      rw [Nat.add_mul] at hle
      omega

/-- A package of 30000 blocks that can be written. -/
def largePackage : StfsPackage where
  packageSize := 0x8000000
  headerSize := 0xAD0E
  totalBlockCount := 30000
  readOnlyFormat := false
  headerSize_ge := by decide
  headerSize_le := by decide

theorem stfs_tiling_large : largePackage.totalBlockCount ≤ 170 ^ 3 ∧ largePackage.Tiled :=
  ⟨by decide, stfs_tiling largePackage (by decide)⟩

end StfsPackage

end Content
end XenonRecomp
