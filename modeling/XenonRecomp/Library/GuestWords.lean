/-
# Big-endian words in a memory of bytes

`bytesOf` and `numberOf` are a number as bytes, the highest first, and back.  A word that
is written is read back where it was, and whatever lies apart from it stays.
-/

import XenonRecomp.Library.ByteMemory

namespace Library

/-- The bytes of a number, the highest first. -/
def bytesOf : ℕ → ℕ → List (BitVec 8)
  | 0, _ => []
  | k + 1, n => bytesOf k (n / 256) ++ [BitVec.ofNat 8 n]

/-- The number that bytes are. -/
def numberOf (bytes : List (BitVec 8)) : ℕ :=
  bytes.foldl (fun n byte => 256 * n + byte.toNat) 0

@[simp] theorem length_bytesOf (k n : ℕ) : (bytesOf k n).length = k := by
  induction k generalizing n with
  | zero => rfl
  | succ k ih => rw [bytesOf, List.length_append, ih, List.length_singleton]

theorem numberOf_bytesOf (k n : ℕ) : numberOf (bytesOf k n) = n % 256 ^ k := by
  induction k generalizing n with
  | zero => rw [Nat.pow_zero, Nat.mod_one, bytesOf, numberOf, List.foldl_nil]
  | succ k ih =>
    have hlast : numberOf (bytesOf k (n / 256) ++ [BitVec.ofNat 8 n]) =
        256 * numberOf (bytesOf k (n / 256)) + (BitVec.ofNat 8 n).toNat := by
      rw [numberOf, List.foldl_append]
      rfl
    have hpow : 256 ^ (k + 1) = 256 * 256 ^ k := Nat.pow_succ'
    rw [bytesOf, hlast, ih, BitVec.toNat_ofNat, hpow, Nat.mod_mul]
    exact Nat.add_comm _ _

namespace ByteMemory

variable {w : ℕ} (m : ByteMemory w)

/-- Reads a halfword. -/
def read16Be (address : BitVec w) : BitVec 16 := BitVec.ofNat 16 (numberOf (m.get address 2))

/-- Writes a halfword. -/
def write16Be (address : BitVec w) (value : BitVec 16) : ByteMemory w :=
  m.put address (bytesOf 2 value.toNat)

/-- Reads a doubleword. -/
def read64Be (address : BitVec w) : BitVec 64 := BitVec.ofNat 64 (numberOf (m.get address 8))

/-- Writes a doubleword. -/
def write64Be (address : BitVec w) (value : BitVec 64) : ByteMemory w :=
  m.put address (bytesOf 8 value.toNat)

variable {m} {address a : BitVec w} {bytes : List (BitVec 8)} {n : ℕ}

theorem getElem?_get (address : BitVec w) (n i : ℕ) :
    (m.get address n)[i]? = if i < n then some (m.byte (address + BitVec.ofNat w i)) else none := by
  induction n generalizing address i with
  | zero => rw [get, List.getElem?_nil, if_neg (Nat.not_lt_zero i)]
  | succ n ih =>
    cases i with
    | zero => rw [get, List.getElem?_cons_zero, if_pos n.succ_pos, BitVec.add_zero]
    | succ i =>
      rw [get, List.getElem?_cons_succ, ih, add_ofNat_succ]
      simp only [Nat.add_lt_add_iff_right]

/-- What is written is read back, in whole or in part. -/
theorem get_put (address : BitVec w) {i : ℕ} (hlength : bytes.length ≤ 2 ^ w)
    (h : i + n ≤ bytes.length) :
    (m.put address bytes).get (address + BitVec.ofNat w i) n = (bytes.drop i).take n := by
  refine List.ext_getElem? fun j => ?_
  rw [getElem?_get, List.getElem?_take, List.getElem?_drop]
  by_cases hj : j < n
  · have hsub : address + BitVec.ofNat w i + BitVec.ofNat w j - address =
        BitVec.ofNat w (i + j) := by
      rw [BitVec.ofNat_add, BitVec.add_assoc, BitVec.add_comm address, BitVec.add_sub_cancel]
    rw [if_pos hj, if_pos hj, List.getElem?_eq_getElem (by omega)]
    change some (bytes.getD (address + BitVec.ofNat w i + BitVec.ofNat w j - address).toNat _) = _
    rw [hsub, BitVec.toNat_ofNat, Nat.mod_eq_of_lt (by omega), List.getD_eq_getElem _ _ (by omega)]
  · rw [if_neg hj, if_neg hj]

/-- What lies apart from what is written stays. -/
theorem get_put_of_apart
    (h : ∀ i < n, bytes.length ≤ (address + BitVec.ofNat w i - a).toNat) :
    (m.put a bytes).get address n = m.get address n := by
  refine List.ext_getElem? fun j => ?_
  rw [getElem?_get, getElem?_get]
  by_cases hj : j < n
  · rw [if_pos hj, if_pos hj]
    exact congrArg some (List.getD_eq_default _ _ (h j hj))
  · rw [if_neg hj, if_neg hj]

theorem get_put_same (m : ByteMemory w) (address : BitVec w) (bytes : List (BitVec 8)) (h : bytes.length ≤ 2 ^ w) :
    (m.put address bytes).get address bytes.length = bytes := by
  have hget := get_put (m := m) (n := bytes.length) address (i := 0) h (by omega)
  rwa [BitVec.add_zero, List.drop_zero, List.take_length] at hget

/-- The distance of two places behind an address. -/
theorem add_sub_add (address x y : BitVec w) : address + x - (address + y) = x - y := by
  rw [← BitVec.sub_sub, BitVec.add_comm, BitVec.add_sub_cancel]

@[simp] theorem read16Be_write16Be (hw : 2 ≤ 2 ^ w) (address : BitVec w) (value : BitVec 16) :
    (m.write16Be address value).read16Be address = value := by
  have hget := get_put_same m address (bytesOf 2 value.toNat) (by rwa [length_bytesOf])
  have hlt : value.toNat < 256 ^ 2 := value.isLt
  rw [length_bytesOf] at hget
  rw [write16Be, read16Be, hget, numberOf_bytesOf, Nat.mod_eq_of_lt hlt, BitVec.ofNat_toNat,
    BitVec.setWidth_eq]

/-- A halfword behind an address that lies apart from the one that is written. -/
theorem read16Be_write16Be_of_apart (address : BitVec w) {x y : BitVec w} (value : BitVec 16)
    (h : 2 ≤ (x - y).toNat ∧ 2 ≤ (x + 1 - y).toNat) :
    (m.write16Be (address + y) value).read16Be (address + x) = m.read16Be (address + x) := by
  rw [write16Be, read16Be, read16Be, get_put_of_apart]
  intro i hi
  rw [length_bytesOf, BitVec.add_assoc, add_sub_add]
  rcases i with _ | _ | i
  · rw [BitVec.add_zero]
    exact h.1
  · exact h.2
  · omega

theorem read64Be_write64Be (hw : 8 ≤ 2 ^ w) (address : BitVec w) (value : BitVec 64) :
    (m.write64Be address value).read64Be address = value := by
  have hget := get_put_same m address (bytesOf 8 value.toNat) (by rwa [length_bytesOf])
  have hlt : value.toNat < 256 ^ 8 := value.isLt
  rw [length_bytesOf] at hget
  rw [write64Be, read64Be, hget, numberOf_bytesOf, Nat.mod_eq_of_lt hlt, BitVec.ofNat_toNat,
    BitVec.setWidth_eq]

end ByteMemory
end Library
