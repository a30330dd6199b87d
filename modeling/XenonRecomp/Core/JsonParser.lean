/-
# The JSON parser

`JsonValue::Parser` of `include/xenon/core/json.hpp`.  `text` from `pos` on is what is left
of the input: a parser takes it and returns what it read and the rest, or the error.  The
depth counts down from the limit, so that `parse_value` calls itself with one container
less; the loops over characters and elements have the length of the text as fuel.
-/

import XenonRecomp.Core.JsonValue

namespace XenonRecomp
namespace Core
namespace Json

/-- A parser of a part of the text. -/
abbrev Parser (α : Type) := Bytes → Except String (α × Bytes)

/-- The white space that `skip_ws` skips. -/
def isWhite (c : Byte) : Bool := c = chr ' ' || c = chr '\t' || c = chr '\n' || c = chr '\r'

/-- `skip_ws`. -/
def skipWs (text : Bytes) : Bytes := text.dropWhile isWhite

/-- `consume`. -/
def consume (expected : Byte) : Bytes → Option Bytes
  | [] => none
  | c :: text => if c = expected then some text else none

/-- `literal`. -/
def literal (expected : Bytes) (text : Bytes) : Option Bytes :=
  if text.take expected.length = expected then some (text.drop expected.length) else none

/-! ### Numbers -/

def isDigit (c : Byte) : Bool := chr '0' ≤ c && c ≤ chr '9'

/-- The sign of a number. -/
def scanMinus : Bytes → Bytes × Bytes
  | [] => ([], [])
  | c :: text => if c = chr '-' then ([c], text) else ([], c :: text)

/-- The digits from here on. -/
def scanDigits (text : Bytes) : Bytes × Bytes := (text.takeWhile isDigit, text.dropWhile isDigit)

/-- The integer part of a number. -/
def scanInteger : Parser Bytes
  | [] => .error "Invalid number"
  | c :: text =>
    if c = chr '0' then
      if (text.head?.map isDigit).getD false then .error "Leading zero in number"
      else .ok ([c], text)
    else if chr '1' ≤ c ∧ c ≤ chr '9' then .ok (scanDigits (c :: text))
    else .error "Invalid number"

/-- The fraction of a number, if it has one. -/
def scanFraction : Parser Bytes
  | [] => .ok ([], [])
  | c :: text =>
    if c = chr '.' then
      let (digits, text) := scanDigits text
      if digits.isEmpty then .error "Invalid number fraction" else .ok (c :: digits, text)
    else .ok ([], c :: text)

/-- The sign of an exponent. -/
def scanSign : Bytes → Bytes × Bytes
  | [] => ([], [])
  | c :: text => if c = chr '+' ∨ c = chr '-' then ([c], text) else ([], c :: text)

/-- The exponent of a number, if it has one. -/
def scanExponent : Parser Bytes
  | [] => .ok ([], [])
  | c :: text =>
    if c = chr 'e' ∨ c = chr 'E' then
      let (sign, text) := scanSign text
      let (digits, text) := scanDigits text
      if digits.isEmpty then .error "Invalid number exponent"
      else .ok (c :: sign ++ digits, text)
    else .ok ([], c :: text)

/-- The characters of a number. -/
def scanNumber : Parser Bytes := fun text => do
  let (sign, text) := scanMinus text
  let (integer, text) ← scanInteger text
  let (fraction, text) ← scanFraction text
  let (exponent, text) ← scanExponent text
  return (sign ++ integer ++ fraction ++ exponent, text)

section

variable {D : Type} (doubles : Doubles D)

/-- What `parse_number` makes of the characters: `std::stod` takes all of them, and the
value is finite. -/
def acceptNumber (token : Bytes) : Option D :=
  match doubles.stod token with
  | none => none
  | some (value, consumed) =>
    if consumed ≠ token.length ∨ !doubles.isfinite value then none else some value

/-- `parse_number`. -/
def parseNumber : Parser (JsonValue D) := fun text => do
  let (token, text) ← scanNumber text
  match acceptNumber doubles token with
  | none => .error "Invalid number"
  | some value => return (.number value, text)

end

/-! ### Strings -/

/-- The value of a hexadecimal digit. -/
def hexDigit (hex : Byte) : Option ℕ :=
  if chr '0' ≤ hex ∧ hex ≤ chr '9' then some (hex - chr '0').toNat
  else if chr 'a' ≤ hex ∧ hex ≤ chr 'f' then some ((hex - chr 'a').toNat + 10)
  else if chr 'A' ≤ hex ∧ hex ≤ chr 'F' then some ((hex - chr 'A').toNat + 10)
  else none

/-- The loop of `parse_hex_quad`. -/
def parseHexDigits : ℕ → ℕ → Parser ℕ
  | 0, code, text => .ok (code, text)
  | _ + 1, _, [] => .error "Invalid unicode escape"
  | n + 1, code, hex :: text =>
    match hexDigit hex with
    | none => .error "Invalid unicode escape"
    | some digit => parseHexDigits n (code <<< 4 ||| digit) text

/-- `parse_hex_quad`. -/
def parseHexQuad : Parser ℕ := fun text =>
  if text.length < 4 then .error "Invalid unicode escape" else parseHexDigits 4 0 text

/-- `append_utf8`: the bytes that are appended. -/
def appendUtf8 (code : ℕ) : Bytes :=
  if code < 0x80 then [BitVec.ofNat 8 code]
  else if code < 0x800 then
    [BitVec.ofNat 8 (0xC0 ||| code >>> 6), BitVec.ofNat 8 (0x80 ||| code &&& 0x3F)]
  else if code < 0x10000 then
    [BitVec.ofNat 8 (0xE0 ||| code >>> 12), BitVec.ofNat 8 (0x80 ||| (code >>> 6) &&& 0x3F),
      BitVec.ofNat 8 (0x80 ||| code &&& 0x3F)]
  else
    [BitVec.ofNat 8 (0xF0 ||| code >>> 18), BitVec.ofNat 8 (0x80 ||| (code >>> 12) &&& 0x3F),
      BitVec.ofNat 8 (0x80 ||| (code >>> 6) &&& 0x3F), BitVec.ofNat 8 (0x80 ||| code &&& 0x3F)]

/-- The escapes of one character. -/
def simpleEscape (escape : Byte) : Option Byte :=
  if escape = chr '"' then some (chr '"')
  else if escape = chr '\\' then some (chr '\\')
  else if escape = chr '/' then some (chr '/')
  else if escape = chr 'n' then some 0x0A
  else if escape = chr 't' then some 0x09
  else if escape = chr 'r' then some 0x0D
  else if escape = chr 'b' then some 0x08
  else if escape = chr 'f' then some 0x0C
  else none

/-- The code of a `\u` escape, of two where the first is a high surrogate. -/
def parseUnicode : Parser ℕ := fun text => do
  let (code, text) ← parseHexQuad text
  if 0xD800 ≤ code ∧ code ≤ 0xDBFF then
    if text.take 2 ≠ word ['\\', 'u'] then .error "Unpaired high surrogate"
    else
      let (low, text) ← parseHexQuad (text.drop 2)
      if low < 0xDC00 ∨ 0xDFFF < low then .error "Invalid low surrogate"
      else return (0x10000 + (code - 0xD800) <<< 10 + (low - 0xDC00), text)
  else if 0xDC00 ≤ code ∧ code ≤ 0xDFFF then .error "Unpaired low surrogate"
  else return (code, text)

/-- What follows a backslash, and the bytes it stands for. -/
def parseEscape : Parser Bytes
  | [] => .error "Unterminated escape sequence"
  | escape :: text =>
    if escape = chr 'u' then do
      let (code, text) ← parseUnicode text
      return (appendUtf8 code, text)
    else
      match simpleEscape escape with
      | some c => .ok ([c], text)
      | none => .error "Invalid escape sequence"

/-- The loop of `parse_string`, up to the closing quote and with it. -/
def parseCharacters : ℕ → Parser Bytes
  | 0, _ => .error "Unterminated string"
  | _ + 1, [] => .error "Unterminated string"
  | fuel + 1, c :: text =>
    if c = chr '"' then .ok ([], text)
    else if c < 0x20 then .error "Unescaped control character in string"
    else if c = chr '\\' then do
      let (bytes, text) ← parseEscape text
      let (more, text) ← parseCharacters fuel text
      return (bytes ++ more, text)
    else do
      let (more, text) ← parseCharacters fuel text
      return (c :: more, text)

/-- `parse_string`. -/
def parseString : Parser Bytes := fun text =>
  match consume (chr '"') text with
  | none => .error "Expected string"
  | some text => parseCharacters (text.length + 1) text

/-! ### Containers -/

section

variable {α β : Type}

/-- The loop of `parse_array` and `parse_object`: one item after another is read and added,
until no comma follows. -/
def parseSeparated (item : Parser α) (add : β → α → Option β) (close : Byte)
    (expected : String) : ℕ → β → Parser β
  | 0, _, _ => .error expected
  | fuel + 1, container, text => do
    let (entry, text) ← item (skipWs text)
    match add container entry with
    | none => .error "Duplicate object key"
    | some container =>
      let text := skipWs text
      match consume (chr ',') text with
      | some text => parseSeparated item add close expected fuel container text
      | none =>
        match consume close text with
        | some text => return (container, text)
        | none => .error expected

/-- `parse_array` and `parse_object` from the opening bracket on. -/
def parseContainer (item : Parser α) (add : β → α → Option β) (opening close : Byte)
    (expected : String) (empty : β) : Parser β := fun text =>
  match consume opening text with
  | none => .error "Invalid JSON"
  | some text =>
    let text := skipWs text
    match consume close text with
    | some text => .ok (empty, text)
    | none => parseSeparated item add close expected text.length empty text

/-- `Array::push_back`. -/
def pushBack (array : List α) (element : α) : Option (List α) := some (array ++ [element])

/-- `Object::emplace`, which fails where the key is there already. -/
def emplace : List (Bytes × α) → Bytes × α → Option (List (Bytes × α))
  | [], entry => some [entry]
  | first :: object, entry =>
    if entry.1 = first.1 then none
    else if entry.1 < first.1 then some (entry :: first :: object)
    else (emplace object entry).map (first :: ·)

/-- The key and the value of a member. -/
def parseMember (value : Parser α) : Parser (Bytes × α) := fun text => do
  let (key, text) ← parseString text
  match consume (chr ':') (skipWs text) with
  | none => .error "Expected ':' in object"
  | some text =>
    let (value, text) ← value text
    return ((key, value), text)

end

section

variable {D : Type} (doubles : Doubles D)

/-- `parse_array`, with the parser of its elements where the nesting allows one. -/
def parseArray (nested : Option (Parser (JsonValue D))) : Parser (JsonValue D) := fun text =>
  match nested with
  | none => .error "JSON nesting limit exceeded"
  | some element => do
    let (array, text) ← parseContainer element pushBack (chr '[') (chr ']')
      "Expected ',' or ']' in array" [] text
    return (.array array, text)

/-- `parse_object`, with the parser of its values where the nesting allows one. -/
def parseObject (nested : Option (Parser (JsonValue D))) : Parser (JsonValue D) := fun text =>
  match nested with
  | none => .error "JSON nesting limit exceeded"
  | some value => do
    let (object, text) ← parseContainer (parseMember value) emplace (chr '{') (chr '}')
      "Expected ',' or '\x7d' in object" [] text
    return (.object object, text)

/-- The body of `parse_value`. -/
def parseDispatch (nested : Option (Parser (JsonValue D))) : Parser (JsonValue D)
  | [] => .error "Unexpected end of input"
  | c :: rest =>
    if c = chr '{' then parseObject nested (c :: rest)
    else if c = chr '[' then parseArray nested (c :: rest)
    else if c = chr '"' then do
      let (value, text) ← parseString (c :: rest)
      return (.string value, text)
    else
      match literal (word ['t', 'r', 'u', 'e']) (c :: rest) with
      | some text => .ok (.bool true, text)
      | none =>
      match literal (word ['f', 'a', 'l', 's', 'e']) (c :: rest) with
      | some text => .ok (.bool false, text)
      | none =>
      match literal (word ['n', 'u', 'l', 'l']) (c :: rest) with
      | some text => .ok (.null, text)
      | none =>
      if c = chr '-' ∨ chr '0' ≤ c ∧ c ≤ chr '9' then parseNumber doubles (c :: rest)
      else .error "Unexpected character in JSON"

/-- `parse_value`, where so many more containers may be nested. -/
def parseValue : ℕ → Parser (JsonValue D)
  | 0, text => parseDispatch doubles none (skipWs text)
  | levels + 1, text => parseDispatch doubles (some (parseValue levels)) (skipWs text)

/-- `kMaximumDepth`. -/
def maximumDepth : ℕ := 64

/-- The byte-order mark of UTF-8. -/
def byteOrderMark : Bytes := [0xEF, 0xBB, 0xBF]

/-- `JsonValue::parse`. -/
def parse (text : Bytes) : Except String (JsonValue D) := do
  let text := if text.take 3 = byteOrderMark then text.drop 3 else text
  let (value, text) ← parseValue doubles maximumDepth (skipWs text)
  if skipWs text = [] then return value
  else .error "Trailing content after JSON value"

end

end Json
end Core
end XenonRecomp
