/-
# JSON values and their text

`JsonValue` of `include/xenon/core/json.hpp` and its writer.  Text is a list of bytes; a
`std::map` is the list of its pairs in the order of the keys, which `Ordered` says.  The
type of the numbers is a parameter: what the code takes from `double` and from the
standard library is the record `Doubles`, of which nothing is assumed here.
-/

import Mathlib.Data.BitVec
import Mathlib.Data.Nat.Digits.Defs

namespace XenonRecomp
namespace Core
namespace Json

abbrev Byte := BitVec 8

abbrev Bytes := List Byte

/-- A character of the source text. -/
def chr (c : Char) : Byte := BitVec.ofNat 8 c.toNat

/-- A string of the source text. -/
def word (s : List Char) : Bytes := s.map chr

/-- `JsonValue`. -/
inductive JsonValue (N : Type) where
  | null
  | bool (value : Bool)
  | number (value : N)
  | string (value : Bytes)
  | array (elements : List (JsonValue N))
  | object (members : List (Bytes × JsonValue N))

/-- `double` and what the standard library does with it. -/
structure Doubles (D : Type) where
  /-- `std::stod`: the value and how many characters it is made of; `none` is a throw. -/
  stod : Bytes → Option (D × ℕ)
  /-- `std::isfinite`. -/
  isfinite : D → Bool
  /-- The conversion of a `std::int64_t`. -/
  ofInt64 : ℤ → D
  /-- `static_cast<std::int64_t>`. -/
  toInt64 : D → ℤ
  /-- `==`. -/
  equal : D → D → Bool
  /-- `out << value`. -/
  print : D → Bytes

/-! ### Nesting and order -/

section

variable {N : Type}

mutual

/-- How deep the containers of a value are nested. -/
def JsonValue.depth : JsonValue N → ℕ
  | .array elements => elementsDepth elements + 1
  | .object members => membersDepth members + 1
  | _ => 0

def elementsDepth : List (JsonValue N) → ℕ
  | [] => 0
  | element :: elements => max element.depth (elementsDepth elements)

def membersDepth : List (Bytes × JsonValue N) → ℕ
  | [] => 0
  | (_, value) :: members => max value.depth (membersDepth members)

end

mutual

/-- The members of every object are in the order of their keys, as a `std::map` has them. -/
def JsonValue.Ordered : JsonValue N → Prop
  | .array elements => elementsOrdered elements
  | .object members => (members.map Prod.fst).Pairwise (· < ·) ∧ membersOrdered members
  | _ => True

def elementsOrdered : List (JsonValue N) → Prop
  | [] => True
  | element :: elements => element.Ordered ∧ elementsOrdered elements

def membersOrdered : List (Bytes × JsonValue N) → Prop
  | [] => True
  | (_, value) :: members => value.Ordered ∧ membersOrdered members

end

mutual

/-- Every number of a value has a property. -/
def JsonValue.Numbers (P : N → Prop) : JsonValue N → Prop
  | .number value => P value
  | .array elements => elementsNumbers P elements
  | .object members => membersNumbers P members
  | _ => True

def elementsNumbers (P : N → Prop) : List (JsonValue N) → Prop
  | [] => True
  | element :: elements => element.Numbers P ∧ elementsNumbers P elements

def membersNumbers (P : N → Prop) : List (Bytes × JsonValue N) → Prop
  | [] => True
  | (_, value) :: members => value.Numbers P ∧ membersNumbers P members

end

end

/-! ### The writer -/

/-- The digits of a number. -/
def decimalDigits (n : ℕ) : Bytes :=
  if n = 0 then [chr '0'] else (Nat.digits 10 n).reverse.map fun digit => BitVec.ofNat 8 (48 + digit)

/-- `out << value` of a `std::int64_t`. -/
def decimal : ℤ → Bytes
  | .ofNat n => decimalDigits n
  | .negSucc n => chr '-' :: decimalDigits (n + 1)

/-- A digit of `%04x`. -/
def hexChar (v : ℕ) : Byte :=
  if v < 10 then BitVec.ofNat 8 (48 + v) else BitVec.ofNat 8 (87 + v)

/-- `%04x`. -/
def hex4 (v : ℕ) : Bytes :=
  [hexChar ((v >>> 12) % 16), hexChar ((v >>> 8) % 16), hexChar ((v >>> 4) % 16), hexChar (v % 16)]

/-- The loop body of `write_escaped`. -/
def writeEscapedByte (c : Byte) : Bytes :=
  if c = chr '"' then word ['\\', '"']
  else if c = chr '\\' then word ['\\', '\\']
  else if c = chr '\n' then word ['\\', 'n']
  else if c = chr '\r' then word ['\\', 'r']
  else if c = chr '\t' then word ['\\', 't']
  else if c < 0x20 then word ['\\', 'u'] ++ hex4 c.toNat
  else [c]

/-- `write_escaped`. -/
def writeEscaped (value : Bytes) : Bytes :=
  chr '"' :: value.flatMap writeEscapedByte ++ [chr '"']

/-- `pad` of `write`. -/
def pad (indent : ℤ) (d : ℕ) : Bytes :=
  if 0 ≤ indent then chr '\n' :: List.replicate (indent * d).toNat (chr ' ') else []

section

variable {D : Type} (doubles : Doubles D) (indent : ℤ)

mutual

/-- `JsonValue::write`. -/
def write : ℕ → JsonValue D → Bytes
  | _, .null => word ['n', 'u', 'l', 'l']
  | _, .bool value =>
    if value then word ['t', 'r', 'u', 'e'] else word ['f', 'a', 'l', 's', 'e']
  | _, .number value =>
    if doubles.equal value (doubles.ofInt64 (doubles.toInt64 value)) then
      decimal (doubles.toInt64 value)
    else doubles.print value
  | _, .string value => writeEscaped value
  | depth, .array elements =>
    chr '[' :: writeElements depth true elements ++
      (if elements.isEmpty then [] else pad indent depth) ++ [chr ']']
  | depth, .object members =>
    chr '{' :: writeMembers depth true members ++
      (if members.isEmpty then [] else pad indent depth) ++ [chr '}']

/-- The loop over the elements of an array. -/
def writeElements : ℕ → Bool → List (JsonValue D) → Bytes
  | _, _, [] => []
  | depth, first, element :: elements =>
    (if first then [] else [chr ',']) ++ pad indent (depth + 1) ++
      write (depth + 1) element ++ writeElements depth false elements

/-- The loop over the members of an object. -/
def writeMembers : ℕ → Bool → List (Bytes × JsonValue D) → Bytes
  | _, _, [] => []
  | depth, first, (key, value) :: members =>
    (if first then [] else [chr ',']) ++ pad indent (depth + 1) ++ writeEscaped key ++
      chr ':' :: (if 0 ≤ indent then [chr ' '] else []) ++
      write (depth + 1) value ++ writeMembers depth false members

end

/-- `JsonValue::dump`. -/
def dump (value : JsonValue D) : Bytes := write doubles indent 0 value

end

end Json
end Core
end XenonRecomp
