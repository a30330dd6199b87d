/-
# Codes that end themselves

A code of values as byte strings delimits itself on a set of values if a value and
all that follows can be told from its bytes and the bytes behind them.  Integers of
a fixed width, strings behind their length or before a terminator, optional values
behind a flag, and records of such fields delimit themselves; and so does what is
written down for a list tell the list, the number of its members left out.
-/

import Mathlib.Algebra.Order.Ring.Int
import Mathlib.Data.List.Basic

namespace Library
namespace PrefixCode

/-- A byte. -/
abbrev Byte := BitVec 8

variable {α β γ : Type*}

/-- No code of a value of the set goes on as the code of another. -/
def Delimits (valid : α → Prop) (code : α → List Byte) : Prop :=
  ∀ a b s t, valid a → valid b → code a ++ s = code b ++ t → a = b ∧ s = t

/-- The lower `n` bytes of a number, the least significant one first. -/
def littleEndian : ℕ → ℕ → List Byte
  | 0, _ => []
  | n + 1, v => BitVec.ofNat 8 v :: littleEndian n (v / 256)

/-- A string behind its length in `n` bytes. -/
def counted (n : ℕ) (text : List Byte) : List Byte :=
  littleEndian n text.length ++ text

/-- A value behind a flag that it is there. -/
def flagged (code : α → List Byte) : Option α → List Byte
  | none => [0]
  | some a => 1 :: code a

@[simp] theorem length_littleEndian (n v : ℕ) : (littleEndian n v).length = n := by
  induction n generalizing v with
  | zero => rfl
  | succ n ih => rw [littleEndian, List.length_cons, ih]

theorem littleEndian_injective {n v w : ℕ} (hv : v < 256 ^ n) (hw : w < 256 ^ n)
    (h : littleEndian n v = littleEndian n w) : v = w := by
  induction n generalizing v w with
  | zero => omega
  | succ n ih =>
    obtain ⟨hhead, htail⟩ := List.cons.inj h
    have hdiv : v / 256 = w / 256 :=
      ih (by rw [pow_succ] at hv; omega) (by rw [pow_succ] at hw; omega) htail
    have hmod : v % 256 = w % 256 := by
      simpa only [BitVec.toNat_ofNat] using congrArg BitVec.toNat hhead
    omega

namespace Delimits

variable {valid : α → Prop} {code : α → List Byte}

theorem littleEndian (n : ℕ) :
    Delimits (fun v => v < 256 ^ n) (PrefixCode.littleEndian n) := by
  intro v w s t hv hw h
  obtain ⟨hcode, hrest⟩ := List.append_inj h (by simp only [length_littleEndian])
  exact ⟨littleEndian_injective hv hw hcode, hrest⟩

theorem counted (n : ℕ) :
    Delimits (fun text => text.length < 256 ^ n) (PrefixCode.counted n) := by
  intro v w s t hv hw h
  rw [PrefixCode.counted, PrefixCode.counted, List.append_assoc, List.append_assoc] at h
  obtain ⟨hlength, hrest⟩ := littleEndian n _ _ _ _ hv hw h
  exact List.append_inj hrest hlength

/-- A string before a byte it does not have. -/
theorem terminated (z : Byte) : Delimits (fun text => z ∉ text) fun text => text ++ [z] := by
  intro v
  induction v with
  | nil =>
    intro w s t _ hw h
    cases w with
    | nil => exact ⟨rfl, (List.cons.inj h).2⟩
    | cons x w => exact absurd (List.cons.inj h).1 fun hz => hw (hz ▸ List.mem_cons_self)
  | cons x v ih =>
    intro w s t hv hw h
    cases w with
    | nil => exact absurd (List.cons.inj h).1.symm fun hz => hv (hz ▸ List.mem_cons_self)
    | cons y w =>
      obtain ⟨hhead, htail⟩ := List.cons.inj h
      obtain ⟨hvw, hst⟩ := ih w s t (fun hz => hv (List.mem_cons_of_mem _ hz))
        (fun hz => hw (List.mem_cons_of_mem _ hz)) htail
      exact ⟨congrArg₂ List.cons hhead hvw, hst⟩

theorem flagged (h : Delimits valid code) :
    Delimits (fun o => ∀ a ∈ o, valid a) (PrefixCode.flagged code) := by
  intro o p s t ho hp heq
  cases o with
  | none =>
    cases p with
    | none => exact ⟨rfl, (List.cons.inj heq).2⟩
    | some b => exact absurd (List.cons.inj heq).1 (by decide)
  | some a =>
    cases p with
    | none => exact absurd (List.cons.inj heq).1 (by decide)
    | some b =>
      obtain ⟨hab, hst⟩ := h a b s t (ho a rfl) (hp b rfl) (List.cons.inj heq).2
      exact ⟨congrArg some hab, hst⟩

/-- A list is told by the codes of its members one after the other. -/
theorem flatMap_injective (h : Delimits valid code) (hne : ∀ a, code a ≠ []) {xs ys : List α}
    (hxs : ∀ a ∈ xs, valid a) (hys : ∀ a ∈ ys, valid a)
    (heq : xs.flatMap code = ys.flatMap code) : xs = ys := by
  induction xs generalizing ys with
  | nil =>
    cases ys with
    | nil => rfl
    | cons y ys =>
      rw [List.flatMap_nil, List.flatMap_cons] at heq
      exact absurd (List.append_eq_nil_iff.mp heq.symm).1 (hne y)
  | cons x xs ih =>
    cases ys with
    | nil =>
      rw [List.flatMap_nil, List.flatMap_cons] at heq
      exact absurd (List.append_eq_nil_iff.mp heq).1 (hne x)
    | cons y ys =>
      rw [List.flatMap_cons, List.flatMap_cons] at heq
      obtain ⟨hx, hrest⟩ := List.forall_mem_cons.mp hxs
      obtain ⟨hy, hys⟩ := List.forall_mem_cons.mp hys
      obtain ⟨hxy, htail⟩ := h x y _ _ hx hy heq
      exact congrArg₂ List.cons hxy (ih hrest hys htail)

end Delimits
end PrefixCode
end Library
