/-
# The scanner finds the anchors of the records

`find_knowledge_seed_candidates` mixes the tokens of an address once and compares every
prefix, `fingerprint_entry_anchor` mixes them anew for a length, and reads its words
through the whole image.  Both are loops of one step for every word.  In an image
whose sections are apart a run of words that begins in a section also ends there, so
the words are the same, and the scan finds exactly the addresses with an anchor.
-/

import Mathlib.Data.List.Pairwise
import XenonRecomp.Library.PrefixScan
import XenonRecomp.Recomp.KnowledgeAnchors

namespace XenonRecomp
namespace Recomp
namespace Knowledge

open Cpu Library Library.CanonicalList Library.PrefixCode

/-! ### Words -/

/-- The bytes of two sections neither overlap nor touch. -/
def XexSection.Clear (s t : XexSection) : Prop :=
  s.bytes ≠ [] → t.bytes ≠ [] → s.end < t.virtualAddress.toNat ∨ t.end < s.virtualAddress.toNat

/-- No two sections overlap or touch. -/
def XexImage.Apart (image : XexImage) : Prop :=
  image.sections.Pairwise XexSection.Clear

/-- The word at an address lies in the section. -/
def XexSection.HasWord (s : XexSection) (address : ℕ) : Prop :=
  s.virtualAddress.toNat ≤ address ∧ address + 4 ≤ s.end

variable {image : XexImage} {s t : XexSection} {address : GuestAddress}

/-- A section whose bytes meet those of another one, or their end, is that one. -/
theorem XexImage.Apart.eq_of_meets (h : image.Apart) (hs : s ∈ image.sections)
    (ht : t ∈ image.sections) {a : ℕ} (hsa : s.HasWord a)
    (hta : t.virtualAddress.toNat ≤ a ∧ a ≤ t.end) (hne : t.bytes ≠ []) : s = t := by
  by_contra hdistinct
  obtain ⟨hlow, hhigh⟩ := hsa
  have hsne : s.bytes ≠ [] := by
    intro hnil
    rw [XexSection.end, hnil, List.length_nil] at hhigh
    omega
  have hsymm : Std.Symm XexSection.Clear := ⟨fun _ _ hst hnt hns => (hst hns hnt).symm⟩
  have hapart := List.Pairwise.forall h hs ht hdistinct hsne hne
  omega

theorem readWord_eq_some (h : image.Apart) (hs : s ∈ image.sections)
    (hword : s.HasWord address.toNat) :
    readWord image address =
      some (wordAt s.bytes (address.toNat - s.virtualAddress.toNat)) := by
  have hfound : sectionFor image address = some s := by
    cases hfind : sectionFor image address with
    | none =>
      have hnone := List.find?_eq_none.mp hfind s hs
      rw [decide_eq_true_eq] at hnone
      exact absurd hword hnone
    | some t =>
      have ht := List.find?_some hfind
      rw [decide_eq_true_eq] at ht
      have hne : s.bytes ≠ [] := by
        intro hnil
        have hhigh := hword.2
        rw [XexSection.end, hnil, List.length_nil] at hhigh
        have hlow := hword.1
        omega
      rw [h.eq_of_meets (List.mem_of_find?_eq_some hfind) hs ht ⟨hword.1, by have := hword.2; omega⟩
        hne]
  obtain ⟨hlow, hhigh⟩ := hword
  have hsub : (address - s.virtualAddress).toNat = address.toNat - s.virtualAddress.toNat :=
    BitVec.toNat_sub_of_le hlow
  rw [XexSection.end] at hhigh
  rw [readWord, hfound]
  simp only
  rw [if_neg (by omega), hsub, if_neg (by omega)]

theorem readWord_eq_none (h : ∀ s ∈ image.sections, ¬ s.HasWord address.toNat) :
    readWord image address = none := by
  have hfound : sectionFor image address = none :=
    List.find?_eq_none.mpr fun s hs => by rw [decide_eq_true_eq]; exact h s hs
  rw [readWord, hfound]

/-! ### The step of both loops -/

/-- The words that `compute_anchor` reads. -/
def imageWord (image : XexImage) (address : GuestAddress) (index : ℕ) : Option (BitVec 32) :=
  if 0xFFFFFFFF < address.toNat + index * 4 then none
  else readWord image (BitVec.ofNat 32 (address.toNat + index * 4))

/-- The words that the scanner reads. -/
def sectionWord (s : XexSection) (offset address64 index : ℕ) : Option (BitVec 32) :=
  if s.bytes.length < offset + index * 4 + 4 then none
  else if 0xFFFFFFFF < address64 + index * 4 then none
  else some (wordAt s.bytes (offset + index * 4))

/-- Mixes in the token of a word. -/
def mixStep (words : ℕ → Option (BitVec 32)) (address64 : ℕ) : PrefixScan.Step (BitVec 64) :=
  fun index hash => (words index).map fun word =>
    (mixValue hash (anchorToken (address64 + index * 4) word).1,
      (anchorToken (address64 + index * 4) word).2)

theorem anchorLoop_eq (image : XexImage) (address : GuestAddress) (remaining index : ℕ)
    (hash : BitVec 64) :
    anchorLoop image address remaining index hash index =
      PrefixScan.run (mixStep (imageWord image address) address.toNat) remaining index hash := by
  induction remaining generalizing index hash with
  | zero => rfl
  | succ remaining ih =>
    rw [anchorLoop, PrefixScan.run, mixStep, imageWord]
    simp only
    split
    · rfl
    · cases readWord image (BitVec.ofNat 32 (address.toNat + index * 4)) with
      | none => rfl
      | some word =>
        simp only [Option.map_some]
        cases hstop : (anchorToken (address.toNat + index * 4) word).2 with
        | true => rw [if_pos rfl]
        | false =>
          rw [if_neg Bool.false_ne_true]
          exact ih (index + 1) _

/-- What the scanner compares behind a step. -/
def anchorTest (anchors : ℕ → List (BitVec 64)) (count : ℕ) (running : BitVec 64) : Bool :=
  !(anchors count).isEmpty && (anchors count).contains (mixValue running (BitVec.ofNat 32 count))

theorem matchLoop_eq (anchors : ℕ → List (BitVec 64)) (s : XexSection)
    (offset address64 remaining index : ℕ) (running : BitVec 64) :
    matchLoop anchors s offset address64 remaining index running index =
      PrefixScan.scan (mixStep (sectionWord s offset address64) address64) (anchorTest anchors)
        remaining index running := by
  induction remaining generalizing index running with
  | zero => rfl
  | succ remaining ih =>
    rw [matchLoop, PrefixScan.scan, mixStep, sectionWord]
    simp only
    split
    · rfl
    · split
      · rfl
      · simp only [Option.map_some, anchorTest, ih (index + 1)]
        rfl

theorem anchorTest_iff {anchors : ℕ → List (BitVec 64)} {count : ℕ} {running : BitVec 64} :
    anchorTest anchors count running = true ↔
      mixValue running (BitVec.ofNat 32 count) ∈ anchors count := by
  rw [anchorTest, Bool.and_eq_true, List.contains_iff_mem, and_iff_right_iff_imp]
  intro h
  rw [Bool.not_eq_true', List.isEmpty_eq_false_iff]
  exact List.ne_nil_of_mem h

/-! ### The words agree -/

/-- An offset into the bytes of a section, or to their end. -/
def Inside (s : XexSection) (offset index : ℕ) : Prop :=
  offset + index * 4 ≤ s.bytes.length

theorem inside_next {offset address64 index : ℕ} {hash : BitVec 64} {r : BitVec 64 × Bool}
    (h : mixStep (sectionWord s offset address64) address64 index hash = some r) :
    Inside s offset (index + 1) := by
  obtain ⟨word, hword, -⟩ := Option.map_eq_some_iff.mp h
  rw [sectionWord] at hword
  split at hword
  · exact absurd hword (by simp only [reduceCtorEq, not_false_eq_true])
  · unfold Inside
    omega

theorem words_agree (h : image.Apart) (hs : s ∈ image.sections) (hne : s.bytes ≠ [])
    {offset : ℕ} (haddress : address.toNat = s.virtualAddress.toNat + offset) {index : ℕ}
    (hinside : Inside s offset index) :
    sectionWord s offset address.toNat index = imageWord image address index := by
  rw [sectionWord, imageWord]
  by_cases hmax : 0xFFFFFFFF < address.toNat + index * 4
  · rw [if_pos hmax, if_pos hmax, ite_self]
  · have hpc : (BitVec.ofNat 32 (address.toNat + index * 4)).toNat = address.toNat + index * 4 := by
      rw [BitVec.toNat_ofNat]
      omega
    unfold Inside at hinside
    rw [if_neg hmax, if_neg hmax]
    by_cases hend : s.bytes.length < offset + index * 4 + 4
    · -- The word would have to begin in the section or at its end, and reach beyond it.
      rw [if_pos hend, readWord_eq_none]
      intro t ht hword
      rw [hpc] at hword
      have hmeets : s.virtualAddress.toNat ≤ address.toNat + index * 4 ∧
          address.toNat + index * 4 ≤ s.end := by
        rw [XexSection.end]
        omega
      obtain rfl := h.eq_of_meets ht hs hword hmeets hne
      have hhigh := hword.2
      rw [XexSection.end] at hhigh
      omega
    · have hword : s.HasWord (BitVec.ofNat 32 (address.toNat + index * 4)).toNat := by
        rw [XexSection.HasWord, XexSection.end, hpc]
        omega
      rw [if_neg hend, readWord_eq_some h hs hword, hpc]
      congr 2
      omega

/-- **The loops mix the same words.** -/
theorem run_section_eq (h : image.Apart) (hs : s ∈ image.sections) (hne : s.bytes ≠ [])
    {offset : ℕ} (haddress : address.toNat = s.virtualAddress.toNat + offset)
    (hoffset : offset ≤ s.bytes.length) (n : ℕ) :
    PrefixScan.run (mixStep (sectionWord s offset address.toNat) address.toNat) n 0 kFnvOffset =
      anchorLoop image address n 0 kFnvOffset 0 := by
  rw [anchorLoop_eq]
  refine PrefixScan.run_congr (P := Inside s offset) (fun i hi hash => ?_)
    (fun i hash r _ hstep => inside_next hstep) n 0 kFnvOffset (by unfold Inside; omega)
  rw [mixStep, mixStep, words_agree h hs hne haddress hi]

theorem anchorLoop_inside (h : image.Apart) (hs : s ∈ image.sections) (hne : s.bytes ≠ [])
    {offset : ℕ} (haddress : address.toNat = s.virtualAddress.toNat + offset)
    (hoffset : offset ≤ s.bytes.length) (n : ℕ) :
    offset + (anchorLoop image address n 0 kFnvOffset 0).2 * 4 ≤ s.bytes.length := by
  rw [← run_section_eq h hs hne haddress hoffset]
  exact PrefixScan.run_keeps (P := Inside s offset) (fun i hash r _ hstep => inside_next hstep)
    n 0 kFnvOffset (by unfold Inside; omega)

/-! ### The records of a scan -/

variable {records : List KnowledgeRecord} {minimum : BitVec 32} {record : KnowledgeRecord}

theorem takesPart_iff :
    takesPart minimum record = true ↔
      record.fingerprint.valid = true ∧ minimum ≤ record.confidence ∧
        4 ≤ record.fingerprint.entryAnchorInstructions.toNat ∧
        record.fingerprint.entryAnchorInstructions.toNat ≤ 8 := by
  simp only [takesPart, Bool.not_eq_true', Bool.or_eq_false_iff, Bool.not_eq_false',
    decide_eq_false_iff_not, BitVec.not_lt, BitVec.le_def, and_assoc]
  rfl

theorem mem_anchorsByLength {length : ℕ} {hash : BitVec 64} :
    hash ∈ anchorsByLength records minimum length ↔
      ∃ record ∈ records, takesPart minimum record = true ∧
        record.fingerprint.entryAnchorInstructions.toNat = length ∧
        record.fingerprint.entryAnchorHash = hash := by
  simp only [anchorsByLength, List.mem_map, List.mem_filter, Bool.and_eq_true, beq_iff_eq,
    and_assoc]

theorem le_foldl_max {α : Type*} (f : α → ℕ) (l : List α) (init : ℕ) :
    init ≤ l.foldl (fun m a => max m (f a)) init ∧
      ∀ a ∈ l, f a ≤ l.foldl (fun m a => max m (f a)) init := by
  induction l generalizing init with
  | nil => exact ⟨le_rfl, fun a ha => absurd ha List.not_mem_nil⟩
  | cons x l ih =>
    obtain ⟨hinit, hmem⟩ := ih (max init (f x))
    refine ⟨(le_max_left _ _).trans hinit, fun a ha => ?_⟩
    rcases List.mem_cons.mp ha with rfl | ha
    · exact (le_max_right _ _).trans hinit
    · exact hmem a ha

theorem le_maximumLength (hrecord : record ∈ records) (hpart : takesPart minimum record = true) :
    record.fingerprint.entryAnchorInstructions.toNat ≤ maximumLength records minimum :=
  (le_foldl_max (fun record : KnowledgeRecord => record.fingerprint.entryAnchorInstructions.toNat)
    _ 0).2 record (List.mem_filter.mpr ⟨hrecord, hpart⟩)

/-- The anchor at the address is that of the fingerprint, as far as its length. -/
def HasAnchor (image : XexImage) (address : GuestAddress) (fp : FunctionFingerprint) : Prop :=
  let found := fingerprintEntryAnchor image address fp.entryAnchorInstructions
  found.entryAnchorHash = fp.entryAnchorHash ∧
    found.entryAnchorInstructions = fp.entryAnchorInstructions

/-- An anchor of four to eight instructions is what the loop has computed after as many. -/
theorem hasAnchor_iff {fp : FunctionFingerprint} {n : ℕ}
    (hn : fp.entryAnchorInstructions.toNat = n) (hlow : 4 ≤ n) (hhigh : n ≤ 8) :
    HasAnchor image address fp ↔
      (anchorLoop image address n 0 kFnvOffset 0).2 = n ∧
        mixValue (anchorLoop image address n 0 kFnvOffset 0).1 (BitVec.ofNat 32 n) =
          fp.entryAnchorHash := by
  have hclamp : max 1 (min 32 n) = n := by omega
  have hcount : (anchorLoop image address n 0 kFnvOffset 0).2 ≤ n := by
    have hle : (PrefixScan.run (mixStep (imageWord image address) address.toNat) n 0
        kFnvOffset).2 ≤ 0 + n := (PrefixScan.run_le n 0 kFnvOffset).2
    rw [anchorLoop_eq]
    omega
  have hlength : fp.entryAnchorInstructions = BitVec.ofNat 32 n := by
    rw [← hn, BitVec.ofNat_toNat, BitVec.setWidth_eq]
  simp only [HasAnchor, fingerprintEntryAnchor, computeAnchor, hn, hclamp]
  generalize anchorLoop image address n 0 kFnvOffset 0 = r at hcount ⊢
  have hiff : BitVec.ofNat 32 r.2 = fp.entryAnchorInstructions ↔ r.2 = n := by
    rw [← BitVec.toNat_inj, hn, BitVec.toNat_ofNat, Nat.mod_eq_of_lt (by omega)]
  rw [hiff, and_comm]
  refine and_congr_right fun hr => ?_
  have hpos : BitVec.ofNat 32 n ≠ 0 := by
    intro hzero
    have hmod : n % 2 ^ 32 = 0 :=
      (BitVec.toNat_ofNat n 32).symm.trans (congrArg BitVec.toNat hzero)
    omega
  rw [hr, if_neg hpos]

/-! ### Candidates -/

theorem mem_takeWhile_iff {p : ℕ → Bool} {l : List ℕ} (hl : l.Pairwise (· ≤ ·))
    (hp : ∀ a b, a ≤ b → p b = true → p a = true) {x : ℕ} :
    x ∈ l.takeWhile p ↔ x ∈ l ∧ p x = true := by
  induction l with
  | nil => simp only [List.takeWhile_nil, List.not_mem_nil, false_and]
  | cons y l ih =>
    obtain ⟨hy, hl⟩ := List.pairwise_cons.mp hl
    rw [List.takeWhile_cons]
    split
    · next hpy =>
      rw [List.mem_cons, List.mem_cons, ih hl]
      constructor
      · rintro (rfl | ⟨hx, hpx⟩)
        · exact ⟨.inl rfl, hpy⟩
        · exact ⟨.inr hx, hpx⟩
      · rintro ⟨rfl | hx, hpx⟩
        · exact .inl rfl
        · exact .inr ⟨hx, hpx⟩
    · next hpy =>
      refine ⟨fun hx => absurd hx List.not_mem_nil, fun ⟨hx, hpx⟩ => ?_⟩
      rcases List.mem_cons.mp hx with rfl | hx
      · exact absurd hpx hpy
      · exact absurd (hp y x (hy x hx) hpx) hpy

theorem matchLoop_iff (h : image.Apart) (hs : s ∈ image.sections) (hne : s.bytes ≠ [])
    {offset : ℕ} (haddress : address.toNat = s.virtualAddress.toNat + offset)
    (hoffset : offset ≤ s.bytes.length) :
    matchLoop (anchorsByLength records minimum) s offset address.toNat
        (maximumLength records minimum) 0 kFnvOffset 0 = true ↔
      ∃ record ∈ records, takesPart minimum record = true ∧
        HasAnchor image address record.fingerprint := by
  simp only [matchLoop_eq, PrefixScan.scan_iff, Nat.zero_add,
    run_section_eq h hs hne haddress hoffset, anchorTest_iff, mem_anchorsByLength]
  constructor
  · rintro ⟨n, -, -, hreach, record, hrecord, hpart, hn, hhash⟩
    obtain ⟨-, -, hlow, hhigh⟩ := takesPart_iff.mp hpart
    exact ⟨record, hrecord, hpart,
      (hasAnchor_iff hn (hn ▸ hlow) (hn ▸ hhigh)).mpr ⟨hreach, hhash.symm⟩⟩
  · rintro ⟨record, hrecord, hpart, hanchor⟩
    obtain ⟨-, -, hlow, hhigh⟩ := takesPart_iff.mp hpart
    obtain ⟨hreach, hhash⟩ := (hasAnchor_iff rfl hlow hhigh).mp hanchor
    exact ⟨_, by omega, le_maximumLength hrecord hpart, hreach, record, hrecord, hpart, rfl,
      hhash.symm⟩

theorem mem_sectionCandidates (h : image.Apart) (hs : s ∈ image.sections) :
    address ∈ sectionCandidates (anchorsByLength records minimum)
        (maximumLength records minimum) s ↔
      s.executable = true ∧ ∃ offset, 4 ∣ offset ∧ offset + 4 ≤ s.bytes.length ∧
        address.toNat = s.virtualAddress.toNat + offset ∧
        ∃ record ∈ records, takesPart minimum record = true ∧
          HasAnchor image address record.fingerprint := by
  have hoffsets : ∀ offset,
      offset ∈ ((List.range s.bytes.length).map (· * 4)).takeWhile (fun offset =>
          decide (offset + 16 ≤ s.bytes.length ∧
            s.virtualAddress.toNat + offset ≤ 0xFFFFFFFF)) ↔
        4 ∣ offset ∧ offset + 16 ≤ s.bytes.length ∧
          s.virtualAddress.toNat + offset ≤ 0xFFFFFFFF := by
    intro offset
    rw [mem_takeWhile_iff, decide_eq_true_eq, List.mem_map]
    · constructor
      · rintro ⟨⟨k, -, rfl⟩, hfits⟩
        exact ⟨⟨k, Nat.mul_comm k 4⟩, hfits⟩
      · rintro ⟨⟨k, rfl⟩, hfits⟩
        exact ⟨⟨k, List.mem_range.mpr (by omega), Nat.mul_comm k 4⟩, hfits⟩
    · refine List.pairwise_map.mpr (List.pairwise_lt_range.imp fun hlt => ?_)
      omega
    · intro a b hab hb
      rw [decide_eq_true_eq] at hb ⊢
      omega
  rw [sectionCandidates]
  split
  · next hskip =>
    simp only [Bool.or_eq_true, Bool.not_eq_true', decide_eq_true_eq] at hskip
    refine ⟨fun hmem => absurd hmem List.not_mem_nil, ?_⟩
    rintro ⟨hexec, offset, -, hfits, haddress, record, -, hpart, hanchor⟩
    have hshort : s.bytes.length < 16 := hskip.resolve_left (by rw [hexec]; decide)
    have hne : s.bytes ≠ [] := List.ne_nil_of_length_pos (by omega)
    obtain ⟨-, -, hlow, hhigh⟩ := takesPart_iff.mp hpart
    have hreach := ((hasAnchor_iff rfl hlow hhigh).mp hanchor).1
    have hinside := anchorLoop_inside h hs hne haddress (by omega)
      record.fingerprint.entryAnchorInstructions.toNat
    omega
  · next hkeep =>
    simp only [Bool.or_eq_true, Bool.not_eq_true', decide_eq_true_eq, not_or,
      Bool.not_eq_false, not_lt] at hkeep
    obtain ⟨hexec, hlong⟩ := hkeep
    have hne : s.bytes ≠ [] := List.ne_nil_of_length_pos (by omega)
    simp only [List.mem_map, List.mem_filter, hoffsets]
    constructor
    · rintro ⟨offset, ⟨⟨hdvd, hfits, hmax⟩, hmatch⟩, rfl⟩
      have haddress : (BitVec.ofNat 32 (s.virtualAddress.toNat + offset)).toNat =
          s.virtualAddress.toNat + offset := by
        rw [BitVec.toNat_ofNat]
        omega
      rw [← haddress] at hmatch
      exact ⟨hexec, offset, hdvd, by omega, haddress,
        (matchLoop_iff h hs hne haddress (by omega)).mp hmatch⟩
    · rintro ⟨-, offset, hdvd, hfits, haddress, record, hrecord, hpart, hanchor⟩
      obtain ⟨-, -, hlow, hhigh⟩ := takesPart_iff.mp hpart
      have hreach := ((hasAnchor_iff rfl hlow hhigh).mp hanchor).1
      have hinside := anchorLoop_inside h hs hne haddress (by omega)
        record.fingerprint.entryAnchorInstructions.toNat
      have hlt := address.isLt
      refine ⟨offset, ⟨⟨hdvd, by omega, by omega⟩, ?_⟩, ?_⟩
      · rw [← haddress]
        exact (matchLoop_iff h hs hne haddress (by omega)).mpr ⟨record, hrecord, hpart, hanchor⟩
      · rw [← haddress, BitVec.ofNat_toNat, BitVec.setWidth_eq]

theorem candidates_selection (image : XexImage) (records : List KnowledgeRecord)
    (minimum : BitVec 32) :
    (findKnowledgeSeedCandidates image records minimum).Pairwise (fun a b => a < b) ∧
      ∀ address, address ∈ findKnowledgeSeedCandidates image records minimum ↔
        ∃ s ∈ image.sections, address ∈ sectionCandidates (anchorsByLength records minimum)
          (maximumLength records minimum) s := by
  rw [findKnowledgeSeedCandidates]
  split
  · next hzero =>
    -- Without a length to look for no word is compared.
    refine ⟨List.Pairwise.nil, fun address => ⟨fun hmem => absurd hmem List.not_mem_nil, ?_⟩⟩
    rintro ⟨s, hs, hmem⟩
    rw [hzero, sectionCandidates] at hmem
    split at hmem
    · exact absurd hmem List.not_mem_nil
    · obtain ⟨offset, hoffset, -⟩ := List.mem_map.mp hmem
      exact absurd (List.mem_filter.mp hoffset).2 Bool.false_ne_true
  · have hsorts : Sorts BitVec.toNat
        (image.sections.flatMap (sectionCandidates (anchorsByLength records minimum)
          (maximumLength records minimum))) _ := sorts_mergeSort _
    refine ⟨hsorts.selection.ascending, fun address => ?_⟩
    rw [hsorts.selection.mem_iff fun _ _ _ _ => BitVec.eq_of_toNat_eq, List.mem_flatMap]

/-- **The scanner returns, in ascending order, the word addresses of the executable sections
at which the anchor of a record begins.** -/
theorem findKnowledgeSeedCandidates_spec (h : image.Apart) (records : List KnowledgeRecord)
    (minimum : BitVec 32) :
    (findKnowledgeSeedCandidates image records minimum).Pairwise (fun a b => a < b) ∧
      ∀ address, address ∈ findKnowledgeSeedCandidates image records minimum ↔
        ∃ s ∈ image.sections, s.executable = true ∧ ∃ offset, 4 ∣ offset ∧
          offset + 4 ≤ s.bytes.length ∧ address.toNat = s.virtualAddress.toNat + offset ∧
          ∃ record ∈ records, record.fingerprint.valid = true ∧ minimum ≤ record.confidence ∧
            4 ≤ record.fingerprint.entryAnchorInstructions.toNat ∧
            record.fingerprint.entryAnchorInstructions.toNat ≤ 8 ∧
            HasAnchor image address record.fingerprint := by
  obtain ⟨hascending, hmem⟩ := candidates_selection image records minimum
  refine ⟨hascending, fun address => ?_⟩
  rw [hmem]
  refine exists_congr fun s => and_congr_right fun hs => ?_
  rw [mem_sectionCandidates h hs]
  simp only [takesPart_iff, and_assoc]

/-- Two sections of four words, the second one not executable. -/
def twoSections : XexImage where
  sections :=
    [{ virtualAddress := 0x82000000, executable := true, bytes := List.replicate 16 0x60 },
      { virtualAddress := 0x82000020, executable := false, bytes := List.replicate 16 0x60 }]

/-- A record that a scan looks for the anchor of. -/
def anchoredRecord : KnowledgeRecord where
  fingerprint :=
    { instructionShapeHash := 1
      entryAnchorHash := 1
      instructionCount := 4
      entryAnchorInstructions := 4 }
  confidence := 80

theorem findKnowledgeSeedCandidates_twoSections :
    (findKnowledgeSeedCandidates twoSections [anchoredRecord] 70).Pairwise (fun a b => a < b) ∧
      ∀ address, address ∈ findKnowledgeSeedCandidates twoSections [anchoredRecord] 70 ↔
        ∃ s ∈ twoSections.sections, s.executable = true ∧ ∃ offset, 4 ∣ offset ∧
          offset + 4 ≤ s.bytes.length ∧ address.toNat = s.virtualAddress.toNat + offset ∧
          ∃ record ∈ [anchoredRecord], record.fingerprint.valid = true ∧ 70 ≤ record.confidence ∧
            4 ≤ record.fingerprint.entryAnchorInstructions.toNat ∧
            record.fingerprint.entryAnchorInstructions.toNat ≤ 8 ∧
            HasAnchor twoSections address record.fingerprint :=
  findKnowledgeSeedCandidates_spec
    (List.pairwise_pair.mpr fun _ _ => .inl (by decide)) [anchoredRecord] 70

end Knowledge
end Recomp
end XenonRecomp
