/-
# Copying a range of bytes

A memory is a function from addresses to bytes.  `copyUnit` loads some bytes and
stores them; `forwardLoop` and `backwardLoop` make such steps along a range, by any
width and for as long as a condition holds.  `moved` is the memory after a part of a
range has been copied: a step carries it on where the part already written is not
read any more, so that the loops are a copy of the bytes as they were
(`copyUnit_moved_up`, `copyUnit_moved_down`).  `writeSeq` writes one byte after
another at any addresses; the last one at an address stays.
-/

import Mathlib.Algebra.Order.Ring.Int

namespace Library
namespace RangeCopy

variable {B S : Type*}

/-! ### Loops along a range -/

/-- `while (offset + width <= size && condition(offset))`. -/
def forwardLoop (size width : ℕ) (condition : ℕ → Bool) (step : ℕ → S → S) (offset : ℕ) (s : S) :
    ℕ × S :=
  if _h : 0 < width ∧ offset + width ≤ size ∧ condition offset = true then
    forwardLoop size width condition step (offset + width) (step offset s)
  else (offset, s)
termination_by size - offset

/-- `while (offset >= width && condition(offset))`, the step at the lower offset. -/
def backwardLoop (width : ℕ) (condition : ℕ → Bool) (step : ℕ → S → S) (offset : ℕ) (s : S) :
    ℕ × S :=
  if _h : 0 < width ∧ width ≤ offset ∧ condition offset = true then
    backwardLoop width condition step (offset - width) (step (offset - width) s)
  else (offset, s)
termination_by offset

/-- **The rule for a forward loop** whose steps carry one state of a family to the next:
it stops at an offset of the family, where nothing more fits or the condition fails. -/
theorem forwardLoop_family {size width : ℕ} {step : ℕ → S → S} (condition : ℕ → Bool)
    (family : ℕ → S) (hwidth : 0 < width)
    (hstep : ∀ o, o + width ≤ size → step o (family o) = family (o + width)) (offset : ℕ)
    (ho : offset ≤ size) :
    ∃ o, forwardLoop size width condition step offset (family offset) = (o, family o) ∧
      o ≤ size ∧ (o + width ≤ size → condition o = false) := by
  rw [forwardLoop]
  split
  · next h =>
    rw [hstep offset h.2.1]
    exact forwardLoop_family condition family hwidth hstep (offset + width) h.2.1
  · next h =>
    refine ⟨offset, rfl, ho, fun hfit => ?_⟩
    simpa [hwidth, hfit] using h
termination_by size - offset

/-- **The rule for a backward loop.** -/
theorem backwardLoop_family {width : ℕ} {step : ℕ → S → S} (condition : ℕ → Bool)
    (family : ℕ → S) (hwidth : 0 < width) {size : ℕ}
    (hstep : ∀ o, o + width ≤ size → step o (family (o + width)) = family o) (offset : ℕ)
    (ho : offset ≤ size) :
    ∃ o, backwardLoop width condition step offset (family offset) = (o, family o) ∧
      o ≤ size ∧ (width ≤ o → condition o = false) := by
  rw [backwardLoop]
  split
  · next h =>
    have hback := hstep (offset - width) (by omega)
    rw [Nat.sub_add_cancel h.2.1] at hback
    rw [hback]
    exact backwardLoop_family condition family hwidth hstep (offset - width) (by omega)
  · next h =>
    refine ⟨offset, rfl, ho, fun hfit => ?_⟩
    simpa [hwidth, hfit] using h
termination_by offset

/-- Single steps while an address is unaligned, then steps of a word, then single ones. -/
def wordwise (size word : ℕ) (unaligned : ℕ → Bool) (step : ℕ → ℕ → S → S) (s : S) : S :=
  let r₁ := forwardLoop size 1 unaligned (step 1) 0 s
  let r₂ := forwardLoop size word (fun _ => true) (step word) r₁.1 r₁.2
  (forwardLoop size 1 (fun _ => true) (step 1) r₂.1 r₂.2).2

/-- The same from the end of the range. -/
def wordwiseDown (size word : ℕ) (unaligned : ℕ → Bool) (step : ℕ → ℕ → S → S) (s : S) : S :=
  let r₁ := backwardLoop 1 unaligned (step 1) size s
  let r₂ := backwardLoop word (fun _ => true) (step word) r₁.1 r₁.2
  (backwardLoop 1 (fun _ => true) (step 1) r₂.1 r₂.2).2

/-- **The three loops go through the whole range**, whatever is aligned. -/
theorem wordwise_family {size word : ℕ} (hword : 0 < word) (unaligned : ℕ → Bool)
    {step : ℕ → ℕ → S → S} (family : ℕ → S)
    (hstep : ∀ w o, o + w ≤ size → step w o (family o) = family (o + w)) :
    wordwise size word unaligned step (family 0) = family size := by
  obtain ⟨o₁, h₁, hle₁, -⟩ := forwardLoop_family unaligned family Nat.one_pos (hstep 1)
    0 (Nat.zero_le size)
  obtain ⟨o₂, h₂, hle₂, -⟩ := forwardLoop_family (fun _ => true) family hword
    (hstep word) o₁ hle₁
  obtain ⟨o₃, h₃, hle₃, hend⟩ := forwardLoop_family (fun _ => true) family Nat.one_pos
    (hstep 1) o₂ hle₂
  have ho : o₃ = size := by
    by_contra hne
    exact Bool.noConfusion (hend (by omega))
  simp only [wordwise, h₁, h₂, h₃, ho]

theorem wordwiseDown_family {size word : ℕ} (hword : 0 < word) (unaligned : ℕ → Bool)
    {step : ℕ → ℕ → S → S} (family : ℕ → S)
    (hstep : ∀ w o, o + w ≤ size → step w o (family (o + w)) = family o) :
    wordwiseDown size word unaligned step (family size) = family 0 := by
  obtain ⟨o₁, h₁, hle₁, -⟩ := backwardLoop_family unaligned family Nat.one_pos (hstep 1)
    size (Nat.le_refl _)
  obtain ⟨o₂, h₂, hle₂, -⟩ := backwardLoop_family (fun _ => true) family hword
    (hstep word) o₁ hle₁
  obtain ⟨o₃, h₃, hle₃, hend⟩ := backwardLoop_family (fun _ => true) family Nat.one_pos
    (hstep 1) o₂ hle₂
  have ho : o₃ = 0 := by
    by_contra hne
    exact Bool.noConfusion (hend (Nat.pos_of_ne_zero hne))
  simp only [wordwiseDown, h₁, h₂, h₃, ho]

/-! ### A range that is copied -/

/-- Load `width` bytes and store them. -/
def copyUnit (dst src width : ℕ) (m : ℕ → B) : ℕ → B := fun a =>
  if dst ≤ a ∧ a < dst + width then m (src + (a - dst)) else m a

/-- The memory after the bytes from `lo` to `hi` of a range have been copied. -/
def moved (m : ℕ → B) (dst src lo hi : ℕ) : ℕ → B := fun a =>
  if dst + lo ≤ a ∧ a < dst + hi then m (src + (a - dst)) else m a

theorem moved_self (m : ℕ → B) (dst src o : ℕ) : moved m dst src o o = m := by
  funext a
  exact if_neg (by omega)

/-- Upwards, a step may copy a range over itself to a lower address. -/
theorem copyUnit_moved_up {m : ℕ → B} {dst src size : ℕ}
    (h : dst ≤ src ∨ src + size ≤ dst) (w o : ℕ) (ho : o + w ≤ size) :
    copyUnit (dst + o) (src + o) w (moved m dst src 0 o) = moved m dst src 0 (o + w) := by
  funext a
  unfold copyUnit moved
  by_cases hin : dst + o ≤ a ∧ a < dst + o + w
  · have haddr : src + o + (a - (dst + o)) = src + (a - dst) := by omega
    rw [if_pos hin, if_neg (by omega), if_pos (by omega), haddr]
  · rw [if_neg hin]
    exact if_congr (by omega) rfl rfl

/-- Downwards, to a higher address. -/
theorem copyUnit_moved_down {m : ℕ → B} {dst src size : ℕ} (h : src ≤ dst) (w o : ℕ)
    (ho : o + w ≤ size) :
    copyUnit (dst + o) (src + o) w (moved m dst src (o + w) size) = moved m dst src o size := by
  funext a
  unfold copyUnit moved
  by_cases hin : dst + o ≤ a ∧ a < dst + o + w
  · have haddr : src + o + (a - (dst + o)) = src + (a - dst) := by omega
    rw [if_pos hin, if_neg (by omega), if_pos (by omega), haddr]
  · rw [if_neg hin]
    exact if_congr (by omega) rfl rfl

/-! ### Bytes that are written one after another -/

/-- The first `n` values, each at its place. -/
def writeSeq (m : ℕ → B) (place : ℕ → ℕ) (value : ℕ → B) : ℕ → ℕ → B
  | 0 => m
  | n + 1 => Function.update (writeSeq m place value n) (place n) (value n)

variable {m : ℕ → B} {place : ℕ → ℕ} {value : ℕ → B}

theorem writeSeq_of_ne {n p : ℕ} (h : ∀ i < n, place i ≠ p) :
    writeSeq m place value n p = m p := by
  induction n with
  | zero => rfl
  | succ n ih =>
      rw [writeSeq, Function.update_of_ne (h n n.lt_succ_self).symm]
      exact ih fun i hi => h i (Nat.lt_succ_of_lt hi)

/-- The last value at a place stays. -/
theorem writeSeq_of_last {n i p : ℕ} (hi : i < n) (hp : place i = p)
    (h : ∀ j, i < j → j < n → place j ≠ p) : writeSeq m place value n p = value i := by
  induction n with
  | zero => exact absurd hi (Nat.not_lt_zero i)
  | succ n ih =>
      rw [writeSeq]
      by_cases hin : i = n
      · rw [← hp, hin, Function.update_self]
      · rw [Function.update_of_ne (h n (by omega) n.lt_succ_self).symm]
        exact ih (by omega) fun j hj hjn => h j hj (Nat.lt_succ_of_lt hjn)

/-- In two parts. -/
theorem writeSeq_add (n k : ℕ) :
    writeSeq m place value (n + k) =
      writeSeq (writeSeq m place value n) (fun i => place (n + i)) (fun i => value (n + i)) k := by
  induction k with
  | zero => rfl
  | succ k ih => rw [← Nat.add_assoc, writeSeq, writeSeq, ih]

theorem writeSeq_congr {place' : ℕ → ℕ} {value' : ℕ → B} {n : ℕ}
    (hplace : ∀ i < n, place i = place' i) (hvalue : ∀ i < n, value i = value' i) :
    writeSeq m place value n = writeSeq m place' value' n := by
  induction n with
  | zero => rfl
  | succ n ih =>
      rw [writeSeq, writeSeq, hplace n n.lt_succ_self, hvalue n n.lt_succ_self,
        ih (fun i hi => hplace i (Nat.lt_succ_of_lt hi)) fun i hi =>
          hvalue i (Nat.lt_succ_of_lt hi)]

/-- At places in a row. -/
theorem writeSeq_row (m : ℕ → B) (dst : ℕ) (value : ℕ → B) (n : ℕ) :
    writeSeq m (fun i => dst + i) value n =
      fun a => if dst ≤ a ∧ a < dst + n then value (a - dst) else m a := by
  funext a
  by_cases h : dst ≤ a ∧ a < dst + n
  · rw [if_pos h, writeSeq_of_last (i := a - dst) (by omega) (by omega) fun j _ _ => by omega]
  · rw [if_neg h, writeSeq_of_ne fun i _ => by omega]

/-- A copy within a row is a sequence of the bytes as they were. -/
theorem moved_eq_writeSeq (m : ℕ → B) (dst src n : ℕ) :
    moved m dst src 0 n = writeSeq m (fun i => dst + i) (fun i => m (src + i)) n := by
  rw [writeSeq_row]
  rfl

end RangeCopy
end Library
