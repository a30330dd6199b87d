/-
# FPSCR stays consistent

`include/xenon/cpu/aot_semantics.hpp`: the writers of FPSCR.  VX summarizes the
nine bits that say which operation was invalid, and FEX the exceptions that are
enabled (`Summarized`).  Every writer recomputes both, so they stay summaries,
and changes nothing else outside the bits that it names.

`mcrfs` copies a field to CR and clears the exception bits in it, except in field
5: VXSOFT, VXSQRT and VXCVI stay (`writes_consistent`).
-/

import XenonRecomp.Aot.Scalar
import XenonRecomp.Library.Bits
import Mathlib.Tactic.IntervalCases

namespace XenonRecomp
namespace Aot

open Cpu Bits

/-! ### Comparison of doubles -/

/-- `std::isnan`, of the bits of a double. -/
def isNan (v : BitVec 64) : Bool :=
  v &&& 0x7FF0000000000000 = 0x7FF0000000000000 ∧ v &&& 0x000FFFFFFFFFFFFF ≠ 0

/-- `is_signaling_nan`. -/
def isSignalingNan (v : BitVec 64) : Bool :=
  v &&& 0x7FF0000000000000 = 0x7FF0000000000000 ∧ v &&& 0x000FFFFFFFFFFFFF ≠ 0 ∧
    v &&& 0x0008000000000000 = 0

/-- The place of a double that is no NaN in the order of doubles: both zeros are zero. -/
def doubleRank (v : BitVec 64) : ℤ :=
  let magnitude : ℤ := (v &&& 0x7FFFFFFFFFFFFFFF).toNat
  if v.getLsbD 63 then -magnitude else magnitude

/-- `fp_compare_field`. -/
def fpCompareField (a b : BitVec 64) : BitVec 8 :=
  if isNan a || isNan b then 1
  else if doubleRank a < doubleRank b then 8
  else if doubleRank b < doubleRank a then 4
  else 2

/-- `update_fp_compare_status`; the first argument is `fp_strict_mode`. -/
def updateFpCompareStatus (strict : Bool) (s : CpuState) (a b : BitVec 64) (ordered : Bool) :
    CpuState :=
  if strict then
    let anyNan := isNan a || isNan b
    let anySnan := isSignalingNan a || isSignalingNan b
    let classed := (s.fpscr &&& ~~~0x0001F000#32) |||
      (((fpCompareField a b).setWidth 32 &&& 0xF#32) <<< 12)
    let signaled := if anySnan then classed ||| 0x01000000#32 ||| 0x80000000#32 else classed
    let invalidEnabled := signaled &&& 0x80 != 0
    let compared :=
      if ordered && anyNan && (!anySnan || !invalidEnabled) then
        signaled ||| 0x00080000#32 ||| 0x80000000#32
      else signaled
    { s with fpscr := recomputeFpscrSummaries compared }
  else s

/-! ### Bits of FPSCR -/

/-- VX, as the number of a bit from the low end. -/
abbrev fpscrVX : ℕ := 29

/-- FEX. -/
abbrev fpscrFEX : ℕ := 30

/-- VXSNAN, VXISI, VXIDI, VXZDZ, VXIMZ, VXVC, VXSOFT, VXSQRT and VXCVI. -/
def invalidDetails : List ℕ := [24, 23, 22, 21, 20, 19, 10, 9, 8]

/-- VX, OX, UX, ZX and XX, each with its enable. -/
def enables : List (ℕ × ℕ) := [(29, 7), (28, 6), (27, 5), (26, 4), (25, 3)]

/-- The exception bits, but the summaries FEX and VX: FX, OX, UX, ZX, XX and the details. -/
def exceptionBits : List ℕ := [31, 28, 27, 26, 25] ++ invalidDetails

/-- VX and FEX follow from the other bits. -/
structure Summarized (fpscr : BitVec 32) : Prop where
  vx : fpscr.getLsbD fpscrVX = invalidDetails.any fpscr.getLsbD
  fex : fpscr.getLsbD fpscrFEX =
    enables.any fun (status, enable) => fpscr.getLsbD status && fpscr.getLsbD enable

/-- The recomputed summaries, bit by bit. -/
theorem recompute_eq (f : BitVec 32) :
    recomputeFpscrSummaries f =
      let vx := invalidDetails.any f.getLsbD
      let f := if vx then f ||| BitVec.twoPow 32 fpscrVX else f &&& ~~~BitVec.twoPow 32 fpscrVX
      let fex := enables.any fun (status, enable) => f.getLsbD status && f.getLsbD enable
      if fex then f ||| BitVec.twoPow 32 fpscrFEX else f &&& ~~~BitVec.twoPow 32 fpscrFEX := by
  have hmask : (0x01F80700 : BitVec 32) =
      invalidDetails.foldr (fun b mask => BitVec.twoPow 32 b ||| mask) 0#32 := by decide
  unfold recomputeFpscrSummaries
  rw [hmask, and_mask_bne_zero f (by decide)]
  extract_lets g pair vx g' fex
  have hbit {k : ℕ} (hk : k < 32) : g.getLsbD k = (g &&& BitVec.twoPow 32 k != 0) :=
    (and_twoPow_bne_zero g hk).symm
  have hfex : fex = (pair 0x20000000 0x80 || pair 0x10000000 0x40 || pair 0x08000000 0x20 ||
      pair 0x04000000 0x10 || pair 0x02000000 0x08) := by
    change (enables.any fun (status, enable) => g.getLsbD status && g.getLsbD enable) = _
    simp only [enables, List.any_cons, List.any_nil, Bool.or_false, ← Bool.or_assoc]
    rw [hbit (k := 29) (by decide), hbit (k := 28) (by decide), hbit (k := 27) (by decide),
      hbit (k := 26) (by decide), hbit (k := 25) (by decide), hbit (k := 7) (by decide),
      hbit (k := 6) (by decide), hbit (k := 5) (by decide), hbit (k := 4) (by decide),
      hbit (k := 3) (by decide)]
    rfl
  rw [← hfex]
  rfl

/-- What recomputing does to every bit. -/
theorem getLsbD_recompute (f : BitVec 32) {i : ℕ} (hi : i < 32) :
    (recomputeFpscrSummaries f).getLsbD i =
      if i = fpscrFEX then
        enables.any fun (status, enable) =>
          (if status = fpscrVX then invalidDetails.any f.getLsbD else f.getLsbD status) &&
            f.getLsbD enable
      else if i = fpscrVX then invalidDetails.any f.getLsbD
      else f.getLsbD i := by
  rw [recompute_eq]
  dsimp only
  rw [getLsbD_assign _ _ hi, getLsbD_assign _ _ hi]
  simp (disch := decide) only [enables, List.any_cons, List.any_nil, getLsbD_assign]
  rfl

/-- Recomputing leaves all bits but the summaries. -/
theorem recompute_frame (f : BitVec 32) {i : ℕ} (hi : i < 32) (hfex : i ≠ fpscrFEX)
    (hvx : i ≠ fpscrVX) : (recomputeFpscrSummaries f).getLsbD i = f.getLsbD i := by
  rw [getLsbD_recompute f hi, if_neg hfex, if_neg hvx]

/-- **Recomputing makes VX and FEX summaries.** -/
theorem summarized_recompute (f : BitVec 32) : Summarized (recomputeFpscrSummaries f) := by
  have hdetails : invalidDetails.any (recomputeFpscrSummaries f).getLsbD =
      invalidDetails.any f.getLsbD := by
    simp (disch := decide) only [invalidDetails, List.any_cons, List.any_nil, recompute_frame]
  refine ⟨?_, ?_⟩
  · rw [hdetails, getLsbD_recompute f (by decide), if_neg (by decide), if_pos rfl]
  · simp (disch := decide) only [enables, List.any_cons, List.any_nil, getLsbD_recompute]
    rfl

/-! ### The writers -/

/-- A write of FPSCR. -/
inductive FpscrWrite where
  | setBit (bit : ℕ) (value : Bool)
  | writeField (field : ℕ) (value : BitVec 8)
  | writeFields (fieldMask : BitVec 8) (source : BitVec 32)
  | moveFieldToCr (crField fpscrField : ℕ)
  | compareStatus (strict : Bool) (a b : BitVec 64) (ordered : Bool)

namespace FpscrWrite

/-- The state after the write. -/
def apply (s : CpuState) : FpscrWrite → CpuState
  | setBit bit value => setFpscrBit s bit value
  | writeField field value => writeFpscrField s field value
  | writeFields fieldMask source => writeFpscrFields s fieldMask source
  | moveFieldToCr crField fpscrField => moveFpscrFieldToCr s crField fpscrField
  | compareStatus strict a b ordered => updateFpCompareStatus strict s a b ordered

/-- The bits that the write names: a bit, fields of four bits from the top, or what a
comparison reports (FX, VXSNAN, VXVC and FPRF). -/
def Names (i : ℕ) : FpscrWrite → Prop
  | setBit bit _ => i = 31 - bit % 32
  | writeField field _ => i / 4 = 7 - field % 8
  | writeFields fieldMask _ => fieldMask.getLsbD (i / 4) = true
  | moveFieldToCr _ fpscrField => i / 4 = 7 - fpscrField % 8
  | compareStatus _ _ _ _ => i = 31 ∨ i = 24 ∨ i = 19 ∨ (12 ≤ i ∧ i ≤ 16)

/-- `mcrfs` delivers the field as it was, and leaves no exception bit in it. -/
def Delivers (s : CpuState) : FpscrWrite → Prop
  | moveFieldToCr crField fpscrField =>
      let s' := moveFpscrFieldToCr s crField fpscrField
      s'.crField crField = (s.fpscr >>> ((7 - fpscrField % 8) * 4) &&& 0xF).setWidth 8 ∧
        ∀ i ∈ exceptionBits, i / 4 = 7 - fpscrField % 8 → s'.fpscr.getLsbD i = false
  | _ => True

/-- The write keeps FPSCR consistent. -/
structure Consistent (s : CpuState) (write : FpscrWrite) : Prop where
  summarized : Summarized (write.apply s).fpscr
  frame : ∀ i < 32, i ≠ fpscrFEX → i ≠ fpscrVX → ¬write.Names i →
    (write.apply s).fpscr.getLsbD i = s.fpscr.getLsbD i
  delivers : write.Delivers s

/-- No `mcrfs` of field 5 while VXSOFT, VXSQRT or VXCVI is set. -/
def SparesField5 (s : CpuState) : FpscrWrite → Prop
  | moveFieldToCr _ fpscrField =>
      fpscrField % 8 = 5 → ∀ i ∈ [10, 9, 8], s.fpscr.getLsbD i = false
  | _ => True

end FpscrWrite

/-- The four bits of a field. -/
theorem getLsbD_fieldMask :
    ∀ field < 8, ∀ i < 32, (0xF#32 <<< ((7 - field) * 4)).getLsbD i = decide (i / 4 = 7 - field) := by
  decide

section Writers

variable (s : CpuState)

theorem setFpscrBit_summarized (h : Summarized s.fpscr) (bit : ℕ) (value : Bool) :
    Summarized (setFpscrBit s bit value).fpscr := by
  unfold setFpscrBit
  dsimp only
  split
  · exact h
  · exact summarized_recompute _

theorem setFpscrBit_frame (bit : ℕ) (value : Bool) {i : ℕ} (hi : i < 32) (hfex : i ≠ fpscrFEX)
    (hvx : i ≠ fpscrVX) (hnames : i ≠ 31 - bit % 32) :
    (setFpscrBit s bit value).fpscr.getLsbD i = s.fpscr.getLsbD i := by
  have hmask : ∀ k < 32, 0x80000000#32 >>> k = BitVec.twoPow 32 (31 - k) := by decide
  unfold setFpscrBit
  rw [hmask (bit % 32) (Nat.mod_lt _ (by decide))]
  dsimp only
  split
  · rfl
  · dsimp only
    rw [recompute_frame _ hi hfex hvx, getLsbD_assign _ _ hi, if_neg hnames]

theorem writeFpscrField_summarized (field : ℕ) (value : BitVec 8) :
    Summarized (writeFpscrField s field value).fpscr :=
  summarized_recompute _

theorem writeFpscrField_frame (field : ℕ) (value : BitVec 8) {i : ℕ} (hi : i < 32)
    (hfex : i ≠ fpscrFEX) (hvx : i ≠ fpscrVX) (hnames : i / 4 ≠ 7 - field % 8) :
    (writeFpscrField s field value).fpscr.getLsbD i = s.fpscr.getLsbD i := by
  have hfield : (0xF#32 <<< ((7 - field % 8) * 4)).getLsbD i = false := by
    rw [getLsbD_fieldMask _ (Nat.mod_lt _ (by decide)) i hi, decide_eq_false hnames]
  unfold writeFpscrField
  dsimp only
  rw [recompute_frame _ hi hfex hvx]
  generalize 0xF#32 <<< ((7 - field % 8) * 4) = mask at hfield ⊢
  simp only [BitVec.getLsbD_or, BitVec.getLsbD_and, BitVec.getLsbD_not, hfield, hi, decide_true,
    Bool.false_and, Bool.not_false, Bool.and_true, Bool.and_false, Bool.or_false]

/-- The loop of `write_fpscr_fields`. -/
theorem writeFpscrFields_loop (fieldMask : BitVec 8) (source : BitVec 32) (fields : List ℕ)
    (hfields : ∀ field ∈ fields, field < 8) {s : CpuState} (h : Summarized s.fpscr) :
    let s' := fields.foldl
      (fun s field =>
        if fieldMask &&& (0x80#8 >>> field) != 0 then
          writeFpscrField s field ((source >>> ((7 - field) * 4) &&& 0xF).setWidth 8)
        else s) s
    Summarized s'.fpscr ∧ ∀ i < 32, i ≠ fpscrFEX → i ≠ fpscrVX →
      fieldMask.getLsbD (i / 4) = false → s'.fpscr.getLsbD i = s.fpscr.getLsbD i := by
  induction fields generalizing s with
  | nil => exact ⟨h, fun i _ _ _ _ => rfl⟩
  | cons field fields ih =>
      have hlt : field < 8 := hfields field List.mem_cons_self
      have hrest : ∀ field ∈ fields, field < 8 := fun f hf => hfields f (List.mem_cons_of_mem _ hf)
      have hselect : (fieldMask &&& (0x80#8 >>> field) != 0) = fieldMask.getLsbD (7 - field) := by
        have hmask : ∀ k < 8, 0x80#8 >>> k = BitVec.twoPow 8 (7 - k) := by decide
        rw [hmask field hlt, and_twoPow_bne_zero _ (by omega)]
      rw [List.foldl_cons, hselect]
      by_cases hselected : fieldMask.getLsbD (7 - field) = true
      · rw [if_pos hselected]
        obtain ⟨hsummarized, hframe⟩ := ih hrest (writeFpscrField_summarized s field _)
        refine ⟨hsummarized, fun i hi hfex hvx hunselected => ?_⟩
        rw [hframe i hi hfex hvx hunselected]
        refine writeFpscrField_frame s field _ hi hfex hvx fun hfield => ?_
        rw [hfield, Nat.mod_eq_of_lt hlt, hselected] at hunselected
        cases hunselected
      · rw [if_neg hselected]
        exact ih hrest h

/-- What `mcrfs` clears in a field. -/
def mcrfsMask : ℕ → BitVec 32
  | 0 => 0x90000000
  | 1 => 0x0F000000
  | 2 => 0x00F00000
  | 3 => 0x00080000
  | _ => 0

/-- `mcrfs` clears bits of its field. -/
theorem mcrfsMask_within :
    ∀ field < 8, ∀ i < 32, i / 4 ≠ 7 - field → (mcrfsMask field).getLsbD i = false := by
  decide

/-- Only in field 5 does `mcrfs` leave exception bits. -/
theorem mcrfsMask_exceptions : ∀ field < 8, field ≠ 5 → ∀ i ∈ exceptionBits, i / 4 = 7 - field →
    (mcrfsMask field).getLsbD i = true := by
  decide

theorem moveFpscrFieldToCr_cr (crField fpscrField : ℕ) :
    (moveFpscrFieldToCr s crField fpscrField).cr =
      (s.setCrField crField
        ((s.fpscr >>> ((7 - fpscrField % 8) * 4) &&& 0xF).setWidth 8)).cr := by
  unfold moveFpscrFieldToCr
  dsimp only
  split <;> rfl

/-- FPSCR after `mcrfs`: in fields 4 to 7 nothing happens. -/
theorem moveFpscrFieldToCr_fpscr (crField fpscrField : ℕ) :
    (moveFpscrFieldToCr s crField fpscrField).fpscr =
      if fpscrField % 8 ≤ 3 then
        recomputeFpscrSummaries (s.fpscr &&& ~~~mcrfsMask (fpscrField % 8))
      else s.fpscr := by
  unfold moveFpscrFieldToCr
  have hlt : fpscrField % 8 < 8 := Nat.mod_lt _ (by decide)
  generalize fpscrField % 8 = field at hlt ⊢
  interval_cases field <;> rfl

theorem moveFpscrFieldToCr_summarized (h : Summarized s.fpscr) (crField fpscrField : ℕ) :
    Summarized (moveFpscrFieldToCr s crField fpscrField).fpscr := by
  rw [moveFpscrFieldToCr_fpscr]
  split_ifs
  · exact summarized_recompute _
  · exact h

theorem moveFpscrFieldToCr_bit (crField fpscrField : ℕ) {i : ℕ} (hi : i < 32)
    (hfex : i ≠ fpscrFEX) (hvx : i ≠ fpscrVX) :
    (moveFpscrFieldToCr s crField fpscrField).fpscr.getLsbD i =
      (s.fpscr.getLsbD i && !(mcrfsMask (fpscrField % 8)).getLsbD i) := by
  rw [moveFpscrFieldToCr_fpscr]
  split_ifs with hlow
  · rw [recompute_frame _ hi hfex hvx]
    simp [hi]
  · have hlt : fpscrField % 8 < 8 := Nat.mod_lt _ (by decide)
    have hmask : mcrfsMask (fpscrField % 8) = 0 := by
      generalize fpscrField % 8 = field at hlow hlt ⊢
      interval_cases field <;> rfl
    rw [hmask]
    simp

theorem updateFpCompareStatus_summarized (h : Summarized s.fpscr) (strict : Bool)
    (a b : BitVec 64) (ordered : Bool) :
    Summarized (updateFpCompareStatus strict s a b ordered).fpscr := by
  unfold updateFpCompareStatus
  split_ifs
  · exact summarized_recompute _
  · exact h

theorem updateFpCompareStatus_frame (strict : Bool) (a b : BitVec 64) (ordered : Bool) {i : ℕ}
    (hi : i < 32) (hfex : i ≠ fpscrFEX) (hvx : i ≠ fpscrVX)
    (hnames : ¬(i = 31 ∨ i = 24 ∨ i = 19 ∨ (12 ≤ i ∧ i ≤ 16))) :
    (updateFpCompareStatus strict s a b ordered).fpscr.getLsbD i = s.fpscr.getLsbD i := by
  have hor (f : BitVec 32) {mask : BitVec 32} (hmask : mask.getLsbD i = false) :
      (f ||| mask).getLsbD i = f.getLsbD i := by
    rw [BitVec.getLsbD_or, hmask, Bool.or_false]
  have hbits : (0x80000000#32).getLsbD i = false ∧ (0x01000000#32).getLsbD i = false ∧
      (0x00080000#32).getLsbD i = false ∧ (0x0001F000#32).getLsbD i = false := by
    clear hfex hvx hor
    revert i
    decide
  obtain ⟨hfx, hvxsnan, hvxvc, hfprf⟩ := hbits
  have hclass (x : BitVec 32) : ((x &&& 0xF#32) <<< 12).getLsbD i = false := by
    have hnibble : ∀ j < 32, 4 ≤ j → (0xF#32).getLsbD j = false := by decide
    rw [BitVec.getLsbD_shiftLeft, BitVec.getLsbD_and]
    by_cases hlow : i < 12
    · simp [hlow]
    · rw [hnibble (i - 12) (by omega) (by omega)]
      simp
  unfold updateFpCompareStatus
  split
  · extract_lets anyNan anySnan classed signaled invalidEnabled compared
    have hclassed : classed.getLsbD i = s.fpscr.getLsbD i := by
      unfold classed
      rw [hor _ (hclass _), BitVec.getLsbD_and, BitVec.getLsbD_not, hfprf]
      simp [hi]
    have hsignaled : signaled.getLsbD i = s.fpscr.getLsbD i := by
      unfold signaled
      split_ifs
      · rw [hor _ hfx, hor _ hvxsnan, hclassed]
      · exact hclassed
    have hcompared : compared.getLsbD i = s.fpscr.getLsbD i := by
      unfold compared
      split_ifs
      · rw [hor _ hfx, hor _ hvxvc, hsignaled]
      · exact hsignaled
    exact (recompute_frame _ hi hfex hvx).trans hcompared
  · rfl

end Writers

/-- The field of CR that was written. -/
theorem crField_setCrField (s : CpuState) (field : ℕ) (value : BitVec 32) :
    (s.setCrField field ((value &&& 0xF#32).setWidth 8)).crField field =
      (value &&& 0xF#32).setWidth 8 := by
  unfold CpuState.setCrField CpuState.crField CpuState.crShift
  dsimp only
  have hlt : field % 8 < 8 := Nat.mod_lt _ (by decide)
  have hnibble : ∀ i < 8, (0xF#32).getLsbD i = decide (i < 4) := by decide
  have hshift : (7 - field % 8) * 4 + 4 ≤ 32 := by omega
  generalize (7 - field % 8) * 4 = shift at hshift ⊢
  refine BitVec.eq_of_getLsbD_eq fun i hi => ?_
  simp only [BitVec.getLsbD_setWidth, BitVec.getLsbD_and, BitVec.getLsbD_ushiftRight,
    BitVec.getLsbD_or, BitVec.getLsbD_shiftLeft, BitVec.getLsbD_not, hnibble i hi, hi, decide_true,
    Bool.true_and, Nat.add_sub_cancel_left]
  by_cases hlow : i < 4
  · have hin : shift + i < 32 := by omega
    have hbelow : ¬shift + i < shift := by omega
    simp only [hlow, hin, hbelow, show i < 32 by omega, decide_true, decide_false, Bool.not_true,
      Bool.not_false, Bool.and_true, Bool.true_and, Bool.and_false, Bool.false_or]
  · simp only [hlow, decide_false, Bool.and_false]

/-- **The writers of FPSCR keep it consistent**, except that `mcrfs` leaves the exception
bits of field 5. -/
theorem writes_consistent (s : CpuState) (h : Summarized s.fpscr) (write : FpscrWrite) :
    write.Consistent s ↔ write.SparesField5 s := by
  cases write with
  | setBit bit value =>
      exact iff_of_true ⟨setFpscrBit_summarized s h bit value,
        fun i hi hfex hvx hnames => setFpscrBit_frame s bit value hi hfex hvx hnames, trivial⟩ trivial
  | writeField field value =>
      exact iff_of_true ⟨writeFpscrField_summarized s field value,
        fun i hi hfex hvx hnames => writeFpscrField_frame s field value hi hfex hvx hnames,
        trivial⟩ trivial
  | writeFields fieldMask source =>
      obtain ⟨hsummarized, hframe⟩ :=
        writeFpscrFields_loop fieldMask source (List.range 8) (by decide) h
      exact iff_of_true ⟨hsummarized, fun i hi hfex hvx hnames =>
        hframe i hi hfex hvx (Bool.eq_false_iff.mpr hnames), trivial⟩ trivial
  | moveFieldToCr crField fpscrField =>
      have hlt : fpscrField % 8 < 8 := Nat.mod_lt _ (by decide)
      have hcr : (moveFpscrFieldToCr s crField fpscrField).crField crField =
          (s.fpscr >>> ((7 - fpscrField % 8) * 4) &&& 0xF).setWidth 8 := by
        unfold CpuState.crField
        rw [moveFpscrFieldToCr_cr]
        exact crField_setCrField s crField _
      have hframe : ∀ i < 32, i ≠ fpscrFEX → i ≠ fpscrVX → i / 4 ≠ 7 - fpscrField % 8 →
          (moveFpscrFieldToCr s crField fpscrField).fpscr.getLsbD i = s.fpscr.getLsbD i := by
        intro i hi hfex hvx hnames
        rw [moveFpscrFieldToCr_bit s crField fpscrField hi hfex hvx,
          mcrfsMask_within _ hlt i hi hnames, Bool.not_false, Bool.and_true]
      constructor
      · rintro ⟨-, -, -, hcleared⟩ hfield i hmem
        have hbits : ∀ i ∈ [10, 9, 8], i < 32 ∧ i ≠ fpscrFEX ∧ i ≠ fpscrVX ∧ i ∈ exceptionBits ∧
            i / 4 = 7 - 5 := by decide
        obtain ⟨hi, hfex, hvx, hexception, hnames⟩ := hbits i hmem
        have hbit := moveFpscrFieldToCr_bit s crField fpscrField hi hfex hvx
        rw [hcleared i hexception (by rw [hfield]; exact hnames), hfield] at hbit
        simpa [mcrfsMask] using hbit.symm
      · intro hspares
        refine ⟨moveFpscrFieldToCr_summarized s h crField fpscrField, hframe, hcr, ?_⟩
        intro i hmem hnames
        have hbits : ∀ i ∈ exceptionBits, i < 32 ∧ i ≠ fpscrFEX ∧ i ≠ fpscrVX ∧
            (i / 4 = 7 - 5 → i ∈ [10, 9, 8]) := by decide
        obtain ⟨hi, hfex, hvx, hlast⟩ := hbits i hmem
        rw [moveFpscrFieldToCr_bit s crField fpscrField hi hfex hvx]
        by_cases hfield : fpscrField % 8 = 5
        · rw [hfield] at hnames
          rw [hspares hfield i (hlast hnames), Bool.false_and]
        · rw [mcrfsMask_exceptions _ hlt hfield i hmem hnames, Bool.not_true, Bool.and_false]
  | compareStatus strict a b ordered =>
      exact iff_of_true ⟨updateFpCompareStatus_summarized s h strict a b ordered,
        fun i hi hfex hvx hnames => updateFpCompareStatus_frame s strict a b ordered hi hfex hvx hnames,
        trivial⟩ trivial

/-- FPSCR after an invalid conversion: FX, VX and VXCVI. -/
def invalidConversion : CpuState :=
  { CpuState.zero with fpscr := 0xA0000100 }

theorem writes_consistent_mcrfs :
    (FpscrWrite.moveFieldToCr 2 3).Consistent invalidConversion ↔
      (FpscrWrite.moveFieldToCr 2 3).SparesField5 invalidConversion :=
  writes_consistent invalidConversion ⟨by decide, by decide⟩ (.moveFieldToCr 2 3)

/-- `mcrfs` of field 5 leaves VXCVI. -/
theorem mcrfs_leaves_conversion :
    ¬∀ s, Summarized s.fpscr → ∀ write : FpscrWrite, write.Consistent s := by
  intro h
  have hconsistent := h invalidConversion ⟨by decide, by decide⟩ (.moveFieldToCr 2 5)
  have hcleared := hconsistent.delivers.2 8 (by decide) rfl
  revert hcleared
  decide

end Aot
end XenonRecomp
