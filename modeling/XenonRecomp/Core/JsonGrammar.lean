/-
# The grammar of JSON

The language of RFC 8259 over bytes, as a relation between texts and values whose numbers
are still the characters of the text and whose objects have their members in the order of
the text, repeated keys included.  What the parser asks for besides is said of these
values: `depth`, `DistinctKeys` and the numbers; `evaluate` makes of them what the parser
returns.
-/

import XenonRecomp.Core.JsonParser
import XenonRecomp.Library.SeparatedText

namespace XenonRecomp
namespace Core
namespace Json

open Library

/-! ### White space, numbers and strings -/

/-- White space. -/
def White (text : Bytes) : Prop := ∀ c ∈ text, isWhite c = true

/-- Digits, at least one. -/
def IsDigits (text : Bytes) : Prop := text ≠ [] ∧ ∀ c ∈ text, isDigit c = true

/-- `int`: a zero, or digits of which the first is another one. -/
def IsInteger (text : Bytes) : Prop :=
  text = [chr '0'] ∨ IsDigits text ∧ text.head? ≠ some (chr '0')

/-- `[ frac ]`. -/
def IsFraction (text : Bytes) : Prop := text = [] ∨ ∃ digits, IsDigits digits ∧
  text = chr '.' :: digits

/-- `[ exp ]`. -/
def IsExponent (text : Bytes) : Prop :=
  text = [] ∨ ∃ e sign digits, (e = chr 'e' ∨ e = chr 'E') ∧
    (sign = [] ∨ sign = [chr '+'] ∨ sign = [chr '-']) ∧ IsDigits digits ∧
    text = e :: sign ++ digits

/-- `number`. -/
def IsNumber (text : Bytes) : Prop :=
  ∃ sign integer fraction exponent, (sign = [] ∨ sign = [chr '-']) ∧ IsInteger integer ∧
    IsFraction fraction ∧ IsExponent exponent ∧
    text = sign ++ integer ++ fraction ++ exponent

/-- Four hexadecimal digits and their value. -/
inductive HexQuad : Bytes → ℕ → Prop
  | mk {a b c d : Byte} {i j k l : ℕ} : hexDigit a = some i → hexDigit b = some j →
    hexDigit c = some k → hexDigit d = some l →
    HexQuad [a, b, c, d] (((i * 16 + j) * 16 + k) * 16 + l)

/-- The escapes of one character, and what they stand for. -/
def escapes : List (Byte × Byte) :=
  [(chr '"', 0x22), (chr '\\', 0x5C), (chr '/', 0x2F), (chr 'b', 0x08), (chr 'f', 0x0C),
    (chr 'n', 0x0A), (chr 'r', 0x0D), (chr 't', 0x09)]

/-- `\u` and the code of a character, of two where it is a surrogate pair. -/
inductive IsUnicode : Bytes → ℕ → Prop
  | single {q : Bytes} {code : ℕ} : HexQuad q code → ¬ (0xD800 ≤ code ∧ code ≤ 0xDFFF) →
    IsUnicode q code
  | pair {q q' : Bytes} {high low : ℕ} : HexQuad q high → HexQuad q' low →
    0xD800 ≤ high ∧ high ≤ 0xDBFF → 0xDC00 ≤ low ∧ low ≤ 0xDFFF →
    IsUnicode (q ++ (word ['\\', 'u'] ++ q')) (0x10000 + (high - 0xD800) * 0x400 + (low - 0xDC00))

/-- What may follow a backslash, and the bytes it stands for. -/
inductive IsEscape : Bytes → Bytes → Prop
  | simple {e c : Byte} : (e, c) ∈ escapes → IsEscape [e] [c]
  | unicode {t : Bytes} {code : ℕ} : IsUnicode t code →
    IsEscape (chr 'u' :: t) (appendUtf8 code)

/-- The characters between the quotes of a string, and the bytes they stand for. -/
inductive Characters : Bytes → Bytes → Prop
  | nil : Characters [] []
  | plain {c : Byte} {t s : Bytes} : 0x20 ≤ c → c ≠ chr '"' → c ≠ chr '\\' →
    Characters t s → Characters (c :: t) (c :: s)
  | escape {e b t s : Bytes} : IsEscape e b → Characters t s →
    Characters (chr '\\' :: (e ++ t)) (b ++ s)

/-- `string`. -/
inductive IsString : Bytes → Bytes → Prop
  | mk {t s : Bytes} : Characters t s → IsString (chr '"' :: (t ++ [chr '"'])) s

/-! ### Values -/

/-- `member`. -/
inductive IsMember {α : Type} (R : Bytes → α → Prop) : Bytes → Bytes × α → Prop
  | mk {k key v w t : Bytes} {a : α} : IsString k key → White v → White w → R t a →
    IsMember R (k ++ (v ++ (chr ':' :: (w ++ t)))) (key, a)

/-- `value`, without white space around it. -/
inductive IsValue : Bytes → JsonValue Bytes → Prop
  | null : IsValue (word ['n', 'u', 'l', 'l']) .null
  | true : IsValue (word ['t', 'r', 'u', 'e']) (.bool true)
  | false : IsValue (word ['f', 'a', 'l', 's', 'e']) (.bool false)
  | number {t : Bytes} : IsNumber t → IsValue t (.number t)
  | string {t s : Bytes} : IsString t s → IsValue t (.string s)
  | emptyArray {w : Bytes} : White w → IsValue (chr '[' :: (w ++ [chr ']'])) (.array [])
  | array {t : Bytes} {elements : List (JsonValue Bytes)} :
    SepBy (chr ',') (Padded isWhite IsValue) t elements →
    IsValue (chr '[' :: (t ++ [chr ']'])) (.array elements)
  | emptyObject {w : Bytes} : White w → IsValue (chr '{' :: (w ++ [chr '}'])) (.object [])
  | object {t : Bytes} {members : List (Bytes × JsonValue Bytes)} :
    SepBy (chr ',') (Padded isWhite (IsMember IsValue)) t members →
    IsValue (chr '{' :: (t ++ [chr '}'])) (.object members)

/-- A text: one value in white space, behind a byte-order mark or none. -/
def IsText (text : Bytes) (value : JsonValue Bytes) : Prop :=
  ∃ t, Padded isWhite IsValue t value ∧ (text = t ∨ text = byteOrderMark ++ t)

/-! ### What the parser asks for besides -/

section

variable {N : Type}

mutual

/-- No object has a key twice. -/
def JsonValue.DistinctKeys : JsonValue N → Prop
  | .array elements => elementsDistinct elements
  | .object members => (members.map Prod.fst).Nodup ∧ membersDistinct members
  | _ => True

def elementsDistinct : List (JsonValue N) → Prop
  | [] => True
  | element :: elements => element.DistinctKeys ∧ elementsDistinct elements

def membersDistinct : List (Bytes × JsonValue N) → Prop
  | [] => True
  | (_, value) :: members => value.DistinctKeys ∧ membersDistinct members

end

end

section

variable {D : Type} (doubles : Doubles D)

mutual

/-- The value of a text: its numbers are those of `std::stod`, and its objects are maps. -/
def evaluate : JsonValue Bytes → Option (JsonValue D)
  | .null => some .null
  | .bool value => some (.bool value)
  | .number token => (acceptNumber doubles token).map .number
  | .string value => some (.string value)
  | .array elements => (evaluateElements elements).map .array
  | .object members =>
    match evaluateMembers members with
    | none => none
    | some members => (members.foldlM emplace []).map .object

def evaluateElements : List (JsonValue Bytes) → Option (List (JsonValue D))
  | [] => some []
  | element :: elements =>
    match evaluate element, evaluateElements elements with
    | some element, some elements => some (element :: elements)
    | _, _ => none

def evaluateMembers : List (Bytes × JsonValue Bytes) → Option (List (Bytes × JsonValue D))
  | [] => some []
  | (key, value) :: members =>
    match evaluate value, evaluateMembers members with
    | some value, some members => some ((key, value) :: members)
    | _, _ => none

end

end

end Json
end Core
end XenonRecomp
