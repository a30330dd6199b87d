/-
# Spans of a list

`slice` is the part of a list from a place on, and `overwrite` puts other elements there.
Inside the list both have the length one expects, and an element of the result is one that
was put there or one that was there before.
-/

import Mathlib.Algebra.Order.Ring.Int
import Mathlib.Data.List.Basic

namespace Library
namespace ByteSpans

variable {α : Type*}

/-- `n` elements of a list from a place on. -/
def slice (list : List α) (start n : ℕ) : List α := (list.drop start).take n

/-- A list with other elements from a place on. -/
def overwrite (list : List α) (start : ℕ) (new : List α) : List α :=
  list.take start ++ (new ++ list.drop (start + new.length))

variable {list new : List α} {start n : ℕ}

theorem length_slice (h : start + n ≤ list.length) : (slice list start n).length = n := by
  rw [slice, List.length_take, List.length_drop]
  omega

theorem length_overwrite (h : start + new.length ≤ list.length) :
    (overwrite list start new).length = list.length := by
  rw [overwrite, List.length_append, List.length_append, List.length_take, List.length_drop]
  omega

theorem getElem?_slice (i : ℕ) :
    (slice list start n)[i]? = if i < n then list[start + i]? else none := by
  rw [slice, List.getElem?_take, List.getElem?_drop]

/-- An element of an overwritten list. -/
theorem getElem?_overwrite (h : start + new.length ≤ list.length) (i : ℕ) :
    (overwrite list start new)[i]? =
      if start ≤ i ∧ i < start + new.length then new[i - start]? else list[i]? := by
  have hlength : (list.take start).length = start := by
    rw [List.length_take]
    omega
  rw [overwrite]
  by_cases hlow : i < start
  · rw [List.getElem?_append_left (by omega), List.getElem?_take_of_lt hlow, if_neg (by omega)]
  · rw [List.getElem?_append_right (by omega), hlength]
    by_cases hhigh : i < start + new.length
    · rw [List.getElem?_append_left (by omega), if_pos ⟨by omega, hhigh⟩]
    · rw [List.getElem?_append_right (by omega), List.getElem?_drop, if_neg (by omega)]
      congr 1
      omega

end ByteSpans
end Library
