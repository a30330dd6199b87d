/-
# A memory of bytes and the strings in it

Addresses have a fixed width and wrap around.  A byte can be readable and writable, or
neither; reading and writing a range goes byte by byte and fails at the first byte
that cannot be accessed.  `get` and `put` say what a range holds and what a write
leaves, `IsString` that a string of C lies at an address, and the predicates at the end
what the string functions of C look for.
-/

import Mathlib.Algebra.Order.Ring.Int
import Mathlib.Data.BitVec
import Mathlib.Data.List.GetD
import Mathlib.Data.List.Lex

namespace Library

/-- Bytes, and which of them can be accessed. -/
structure ByteMemory (w : ℕ) where
  byte : BitVec w → BitVec 8
  readable : BitVec w → Bool
  writable : BitVec w → Bool

namespace ByteMemory

variable {w : ℕ} (m : ByteMemory w)

/-- Reads a byte. -/
def read8 (address : BitVec w) : Option (BitVec 8) :=
  if m.readable address then some (m.byte address) else none

/-- The memory with the bytes of a list from an address on. -/
def put (address : BitVec w) (bytes : List (BitVec 8)) : ByteMemory w :=
  { m with byte := fun a => bytes.getD (a - address).toNat (m.byte a) }

/-- Writes a byte. -/
def write8 (address : BitVec w) (value : BitVec 8) : Option (ByteMemory w) :=
  if m.writable address then some (m.put address [value]) else none

/-- Reads a range. -/
def readBytes (address : BitVec w) : ℕ → Option (List (BitVec 8))
  | 0 => some []
  | n + 1 => do
    let byte ← m.read8 address
    let rest ← readBytes (address + 1) n
    return byte :: rest

/-- Writes a range. -/
def writeBytes (m : ByteMemory w) (address : BitVec w) : List (BitVec 8) → Option (ByteMemory w)
  | [] => some m
  | byte :: rest => do
    let m ← m.write8 address byte
    writeBytes m (address + 1) rest

/-- The bytes of a range. -/
def get (address : BitVec w) : ℕ → List (BitVec 8)
  | 0 => []
  | n + 1 => m.byte address :: get (address + 1) n

/-- The range can be read. -/
def CanRead (address : BitVec w) (n : ℕ) : Prop :=
  ∀ i < n, m.readable (address + BitVec.ofNat w i) = true

/-- The range can be written. -/
def CanWrite (address : BitVec w) (n : ℕ) : Prop :=
  ∀ i < n, m.writable (address + BitVec.ofNat w i) = true

/-- The string lies at the address, with a zero behind it, and can be read. -/
def IsString : BitVec w → List (BitVec 8) → Prop
  | address, [] => m.readable address = true ∧ m.byte address = 0
  | address, c :: text =>
    m.readable address = true ∧ m.byte address = c ∧ c ≠ 0 ∧ IsString (address + 1) text

/-- The bytes up to the first zero, that included, and `n` at most. -/
def cut (address : BitVec w) : ℕ → List (BitVec 8)
  | 0 => []
  | n + 1 => if m.byte address = 0 then [0] else m.byte address :: cut (address + 1) n

variable {m} {address : BitVec w} {n : ℕ}

/-! ### Ranges -/

theorem add_ofNat_succ (address : BitVec w) (i : ℕ) :
    address + BitVec.ofNat w (i + 1) = address + 1 + BitVec.ofNat w i := by
  rw [Nat.add_comm i 1, BitVec.ofNat_add, BitVec.add_assoc]
  rfl

theorem canRead_succ :
    m.CanRead address (n + 1) ↔ m.readable address = true ∧ m.CanRead (address + 1) n := by
  unfold CanRead
  constructor
  · refine fun h => ⟨?_, fun i hi => ?_⟩
    · simpa only [BitVec.add_zero] using h 0 (by omega)
    · rw [← add_ofNat_succ]
      exact h (i + 1) (by omega)
  · rintro ⟨h0, h⟩ i hi
    cases i with
    | zero => simpa only [BitVec.ofNat_eq_ofNat, BitVec.add_zero] using h0
    | succ i =>
      rw [add_ofNat_succ]
      exact h i (by omega)

theorem canWrite_succ :
    m.CanWrite address (n + 1) ↔ m.writable address = true ∧ m.CanWrite (address + 1) n :=
  canRead_succ (m := { m with readable := m.writable })

theorem CanWrite.put {a : BitVec w} {bytes : List (BitVec 8)} (h : m.CanWrite address n) :
    (m.put a bytes).CanWrite address n := h

theorem CanRead.put {a : BitVec w} {bytes : List (BitVec 8)} (h : m.CanRead address n) :
    (m.put a bytes).CanRead address n := h

@[simp] theorem length_get (address : BitVec w) (n : ℕ) : (m.get address n).length = n := by
  induction n generalizing address with
  | zero => rfl
  | succ n ih => rw [get, List.length_cons, ih]

theorem read8_eq (h : m.readable address = true) : m.read8 address = some (m.byte address) := by
  rw [read8, if_pos h]

theorem write8_eq (h : m.writable address = true) (value : BitVec 8) :
    m.write8 address value = some (m.put address [value]) := by
  rw [write8, if_pos h]

theorem readBytes_eq (h : m.CanRead address n) :
    m.readBytes address n = some (m.get address n) := by
  induction n generalizing address with
  | zero => rfl
  | succ n ih =>
    obtain ⟨h0, h⟩ := canRead_succ.mp h
    rw [readBytes, read8_eq h0, ih h]
    rfl

theorem toNat_one (h : 1 < 2 ^ w) : (1 : BitVec w).toNat = 1 :=
  (BitVec.toNat_ofNat 1 w).trans (Nat.mod_eq_of_lt h)

theorem toNat_sub_succ {a address : BitVec w} (h : a ≠ address) :
    (a - address).toNat = (a - (address + 1)).toNat + 1 := by
  have hne : (a - address).toNat ≠ 0 := by
    intro hzero
    have hsub : a - address = 0 := BitVec.eq_of_toNat_eq (hzero.trans BitVec.toNat_zero.symm)
    have hcancel := BitVec.sub_add_cancel a address
    rw [hsub] at hcancel
    exact h (hcancel.symm.trans (BitVec.zero_add address))
  have hlt := (a - address).isLt
  have hone := toNat_one (w := w) (by omega)
  have hle : 1 ≤ a - address := by
    rw [BitVec.le_def, hone]
    omega
  rw [← BitVec.sub_sub, BitVec.toNat_sub_of_le hle, hone]
  omega

theorem put_single_of_ne {a : BitVec w} (value : BitVec 8) (h : address ≠ a) :
    (m.put a [value]).byte address = m.byte address := by
  change [value].getD (address - a).toNat (m.byte address) = _
  rw [toNat_sub_succ h, List.getD_cons_succ, List.getD_nil]

theorem toNat_sub_self_succ (address : BitVec w) :
    (address - (address + 1)).toNat = 2 ^ w - 1 := by
  rw [← BitVec.sub_sub, BitVec.sub_self, BitVec.toNat_sub]
  by_cases hw : 1 < 2 ^ w
  · rw [toNat_one hw, BitVec.toNat_zero, Nat.add_zero, Nat.mod_eq_of_lt (by omega)]
  · have hpos := Nat.two_pow_pos w
    have hone : 2 ^ w = 1 := by omega
    rw [hone, Nat.mod_one]

theorem put_cons (address : BitVec w) (byte : BitVec 8) (bytes : List (BitVec 8))
    (h : bytes.length < 2 ^ w) :
    (m.put address [byte]).put (address + 1) bytes = m.put address (byte :: bytes) := by
  simp only [put, ByteMemory.mk.injEq, and_true]
  funext a
  by_cases ha : a = address
  · -- The first byte is the last one that `bytes` could wrap around to.
    rw [ha, BitVec.sub_self, toNat_sub_self_succ, List.getD_eq_default _ _ (by omega)]
    rfl
  · rw [toNat_sub_succ ha, List.getD_cons_succ, List.getD_cons_succ, List.getD_nil]

theorem put_append (address : BitVec w) (u v : List (BitVec 8))
    (h : u.length + v.length ≤ 2 ^ w) :
    (m.put address u).put (address + BitVec.ofNat w u.length) v = m.put address (u ++ v) := by
  induction u generalizing m address with
  | nil =>
    rw [List.length_nil, BitVec.add_zero]
    rfl
  | cons byte u ih =>
    rw [List.length_cons] at h ⊢
    rw [← put_cons address byte u (by omega), add_ofNat_succ, ih (address + 1) (by omega),
      put_cons address byte (u ++ v) (by rw [List.length_append]; omega), List.cons_append]

theorem writeBytes_eq {bytes : List (BitVec 8)} (h : m.CanWrite address bytes.length)
    (hlen : bytes.length ≤ 2 ^ w) : m.writeBytes address bytes = some (m.put address bytes) := by
  induction bytes generalizing m address with
  | nil => rfl
  | cons byte bytes ih =>
    obtain ⟨h0, h⟩ := canWrite_succ.mp h
    rw [List.length_cons] at hlen
    rw [writeBytes, write8_eq h0]
    exact (ih h.put (by omega)).trans (congrArg some (put_cons address byte bytes (by omega)))

theorem put_replicate_succ (address : BitVec w) (value : BitVec 8) (h : n < 2 ^ w) :
    (m.put address [value]).put (address + 1) (List.replicate n value) =
      m.put address (List.replicate (n + 1) value) := by
  rw [put_cons _ _ _ (by rwa [List.length_replicate]), List.replicate_succ]

/-! ### Strings -/

theorem IsString.zero_notMem {text : List (BitVec 8)} (h : m.IsString address text) :
    0 ∉ text := by
  induction text generalizing address with
  | nil => exact List.not_mem_nil
  | cons c text ih =>
    obtain ⟨-, -, hc, h⟩ := h
    rw [List.mem_cons, not_or]
    exact ⟨hc.symm, ih h⟩

theorem IsString.byte_eq {text : List (BitVec 8)} (h : m.IsString address text) {i : ℕ}
    (hi : i ≤ text.length) :
    m.byte (address + BitVec.ofNat w i) = (text ++ [0]).getD i 0 := by
  induction text generalizing address i with
  | nil =>
    obtain rfl : i = 0 := Nat.le_zero.mp hi
    rw [BitVec.add_zero]
    exact h.2
  | cons c text ih =>
    obtain ⟨-, hbyte, -, h⟩ := h
    cases i with
    | zero =>
      rw [BitVec.add_zero]
      exact hbyte
    | succ i =>
      rw [add_ofNat_succ, ih h (Nat.le_of_succ_le_succ hi)]
      rfl

theorem isString_replicate {c : BitVec 8} (hc : c ≠ 0)
    (hread : m.CanRead address (n + 1)) (hbyte : ∀ i < n, m.byte (address + BitVec.ofNat w i) = c)
    (hend : m.byte (address + BitVec.ofNat w n) = 0) :
    m.IsString address (List.replicate n c) := by
  induction n generalizing address with
  | zero =>
    rw [BitVec.add_zero] at hend
    exact ⟨(canRead_succ.mp hread).1, hend⟩
  | succ n ih =>
    obtain ⟨h0, hread⟩ := canRead_succ.mp hread
    have hfirst := hbyte 0 (Nat.succ_pos n)
    rw [BitVec.add_zero] at hfirst
    refine ⟨h0, hfirst, hc, ih hread (fun i hi => ?_) ?_⟩
    · rw [← add_ofNat_succ]
      exact hbyte (i + 1) (by omega)
    · rwa [← add_ofNat_succ]

/-- A string does not wrap around to its own start. -/
theorem IsString.length_lt {text : List (BitVec 8)} (h : m.IsString address text) :
    text.length < 2 ^ w := by
  by_contra hlong
  obtain ⟨i, hi⟩ := Nat.exists_eq_add_of_le (not_lt.mp hlong)
  have hsame : BitVec.ofNat w text.length = BitVec.ofNat w i := by
    rw [hi]
    refine BitVec.eq_of_toNat_eq ?_
    rw [BitVec.toNat_ofNat, BitVec.toNat_ofNat, Nat.add_mod_left]
  have hpos := Nat.two_pow_pos w
  have hlast := h.byte_eq le_rfl
  have hfirst := h.byte_eq (i := i) (by omega)
  rw [hsame, hfirst] at hlast
  have hmem : (text ++ [0]).getD i 0 ∈ text := by
    rw [List.getD_append _ _ _ _ (by omega), List.getD_eq_getElem _ _ (by omega)]
    exact List.getElem_mem _
  have hzero : (text ++ [0]).getD text.length 0 = 0 := by
    rw [List.getD_append_right _ _ _ _ le_rfl, Nat.sub_self]
    rfl
  rw [hlast, hzero] at hmem
  exact h.zero_notMem hmem

theorem cut_succ (address : BitVec w) (n : ℕ) :
    m.cut address (n + 1) =
      m.byte address :: if m.byte address = 0 then [] else m.cut (address + 1) n := by
  rw [cut]
  split
  · next h => rw [h]
  · rfl

theorem canRead_cut_succ (h : m.CanRead address (m.cut address (n + 1)).length) :
    m.readable address = true ∧
      (m.byte address ≠ 0 → m.CanRead (address + 1) (m.cut (address + 1) n).length) := by
  rw [cut_succ, List.length_cons] at h
  obtain ⟨h0, h⟩ := canRead_succ.mp h
  refine ⟨h0, fun hne => ?_⟩
  rwa [if_neg hne] at h

theorem length_cut_le (address : BitVec w) (n : ℕ) : (m.cut address n).length ≤ n := by
  induction n generalizing address with
  | zero => exact le_rfl
  | succ n ih =>
    rw [cut]
    split
    · exact Nat.succ_le_succ (Nat.zero_le n)
    · exact Nat.succ_le_succ (ih (address + 1))

/-- Bytes that are not written stay in the string. -/
theorem cut_put {a : BitVec w} {value : BitVec 8}
    (h : ∀ i < (m.cut address n).length, address + BitVec.ofNat w i ≠ a) :
    (m.put a [value]).cut address n = m.cut address n := by
  induction n generalizing address with
  | zero => rfl
  | succ n ih =>
    rw [cut_succ, List.length_cons] at h
    have hhere : address ≠ a := by
      have h0 := h 0 (Nat.succ_pos _)
      rwa [BitVec.add_zero] at h0
    rw [cut_succ, cut_succ, put_single_of_ne _ hhere]
    split
    · rfl
    · next hne =>
      refine congrArg _ (ih fun i hi => ?_)
      rw [← add_ofNat_succ]
      refine h (i + 1) ?_
      rw [if_neg hne]
      omega

/-! ### What the functions of C look for -/

/-- The first place of a byte, if it occurs. -/
def FirstAt (c : BitVec 8) (text : List (BitVec 8)) : Option ℕ → Prop
  | none => c ∉ text
  | some i => text[i]? = some c ∧ ∀ j < i, text[j]? ≠ some c

/-- The last place of a byte, if it occurs. -/
def LastAt (c : BitVec 8) (text : List (BitVec 8)) : Option ℕ → Prop
  | none => c ∉ text
  | some i => text[i]? = some c ∧ ∀ j, i < j → text[j]? ≠ some c

/-- The first place at which a text begins, if it occurs. -/
def FirstOccurrence (needle text : List (BitVec 8)) : Option ℕ → Prop
  | none => ∀ i, ¬ needle <+: text.drop i
  | some i => needle <+: text.drop i ∧ ∀ j < i, ¬ needle <+: text.drop j

/-- The order of the values of the bytes, of which the first difference decides. -/
def TextLt (u v : List (BitVec 8)) : Prop :=
  List.Lex (fun a b => a.toNat < b.toNat) u v

/-- The number has the sign of the comparison. -/
def HasSign (u v : List (BitVec 8)) (r : ℤ) : Prop :=
  (r < 0 ↔ TextLt u v) ∧ (r = 0 ↔ u = v) ∧ (0 < r ↔ TextLt v u)

end ByteMemory
end Library
