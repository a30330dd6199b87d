/-
# Rounds and chained blocks of a cipher

The two ways a block cipher is put together.  `rounds` composes a step for each
round number and `unrounds` undoes them from the last one; `cbcEncrypt` chains the
blocks of a message, each masked by the cipher text before it, and `cbcDecrypt`
takes the masks off again.  Blocks are of any type; a mask is an operation that
undoes itself.
-/

import Mathlib.Algebra.Order.Ring.Int

namespace Library
namespace BlockModes

variable {B : Type*}

/-! ### Rounds -/

/-- The rounds `1 … n`, the first one first. -/
def rounds (step : ℕ → B → B) : ℕ → B → B
  | 0, b => b
  | n + 1, b => step (n + 1) (rounds step n b)

/-- The rounds `n … 1`, the last one first. -/
def unrounds (unstep : ℕ → B → B) : ℕ → B → B
  | 0, b => b
  | n + 1, b => unrounds unstep n (unstep (n + 1) b)

/-- **Rounds are undone one by one**, up to a change of the blocks that the undoing
steps carry along: `unstep` undoes a step on changed blocks. -/
theorem unrounds_rounds {step unstep : ℕ → B → B} (change : B → B)
    (h : ∀ n b, unstep n (change (step n b)) = change b) (n : ℕ) (b : B) :
    unrounds unstep n (change (rounds step n b)) = change b := by
  induction n with
  | zero => rfl
  | succ n ih => rw [rounds, unrounds, h, ih]

/-- The other way round. -/
theorem rounds_unrounds {step unstep : ℕ → B → B} (unchange : B → B)
    (h : ∀ n b, step n (unchange (unstep n b)) = unchange b) (n : ℕ) (b : B) :
    rounds step n (unchange (unrounds unstep n b)) = unchange b := by
  induction n generalizing b with
  | zero => rfl
  | succ n ih => rw [rounds, unrounds, ih, h]

/-! ### Chained blocks -/

variable (mask : B → B → B)

/-- Each block is masked by the cipher text of the one before it. -/
def cbcEncrypt (encrypt : B → B) : B → List B → List B
  | _, [] => []
  | iv, b :: bs => encrypt (mask b iv) :: cbcEncrypt encrypt (encrypt (mask b iv)) bs

/-- Each block is decrypted and the mask taken off. -/
def cbcDecrypt (decrypt : B → B) : B → List B → List B
  | _, [] => []
  | iv, c :: cs => mask (decrypt c) iv :: cbcDecrypt decrypt c cs

/-- **Decrypting a chain gives its blocks back**, if the cipher and the mask undo themselves. -/
theorem cbcDecrypt_cbcEncrypt {mask : B → B → B} {encrypt decrypt : B → B}
    (hmask : ∀ b iv, mask (mask b iv) iv = b) (hdec : Function.LeftInverse decrypt encrypt)
    (iv : B) (bs : List B) : cbcDecrypt mask decrypt iv (cbcEncrypt mask encrypt iv bs) = bs := by
  induction bs generalizing iv with
  | nil => rfl
  | cons b bs ih => rw [cbcEncrypt, cbcDecrypt, hdec, hmask, ih]

/-- A block of the message depends on its own cipher text and the one before it. -/
theorem getElem?_cbcDecrypt (decrypt : B → B) (iv : B) (cs : List B) (i : ℕ) :
    (cbcDecrypt mask decrypt iv cs)[i]? =
      cs[i]?.bind fun c => (iv :: cs)[i]?.map fun p => mask (decrypt c) p := by
  induction cs generalizing iv i with
  | nil => rfl
  | cons c cs ih =>
    cases i with
    | zero => rfl
    | succ i => exact ih c i

end BlockModes
end Library
