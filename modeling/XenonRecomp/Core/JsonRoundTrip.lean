/-
# The parser inverts the writer

What the writer writes is a text of the grammar: its strings are escaped, its white space
is white, and its integers are numbers.  The text stands for the value it was written
from, so that the parser, which accepts exactly the grammar, returns that value.
-/

import XenonRecomp.Core.JsonAcceptance
import XenonRecomp.Core.JsonMaps
import Mathlib.Data.Nat.Digits.Lemmas

namespace XenonRecomp
namespace Core
namespace Json

open Library

variable {c : Byte} {t s : Bytes}

/-! ### Strings -/

theorem hexDigit_hexChar {v : ℕ} (hv : v < 16) : hexDigit (hexChar v) = some v := by
  have hall : ∀ v < 16, hexDigit (hexChar v) = some v := by decide
  exact hall v hv

theorem hexQuad_hex4 {v : ℕ} (hv : v < 65536) : HexQuad (hex4 v) v := by
  have hquad := HexQuad.mk (hexDigit_hexChar (Nat.mod_lt (v >>> 12) (by decide)))
    (hexDigit_hexChar (Nat.mod_lt (v >>> 8) (by decide)))
    (hexDigit_hexChar (Nat.mod_lt (v >>> 4) (by decide)))
    (hexDigit_hexChar (Nat.mod_lt v (by decide)))
  have hvalue : (((v >>> 12) % 16 * 16 + (v >>> 8) % 16) * 16 + (v >>> 4) % 16) * 16 + v % 16 =
      v := by
    rw [Nat.shiftRight_eq_div_pow, Nat.shiftRight_eq_div_pow, Nat.shiftRight_eq_div_pow]
    omega
  rw [hvalue] at hquad
  exact hquad

theorem appendUtf8_control (hc : c < 0x20) : appendUtf8 c.toNat = [c] := by
  have hlt : c.toNat < 0x80 := by
    have := BitVec.lt_def.mp hc
    change c.toNat < 0x20 at this
    omega
  rw [appendUtf8, if_pos hlt, BitVec.ofNat_toNat, BitVec.setWidth_eq]

/-- What is written for a byte is read as that byte. -/
theorem characters_writeEscapedByte (c : Byte) (h : Characters t s) :
    Characters (writeEscapedByte c ++ t) (c :: s) := by
  have hsimple : ∀ e d : Byte, (e, d) ∈ escapes →
      Characters (chr '\\' :: ([e] ++ t)) ([d] ++ s) :=
    fun e d hmem => .escape (.simple hmem) h
  rw [writeEscapedByte]
  by_cases hquote : c = chr '"'
  · rw [if_pos hquote, hquote]
    exact hsimple (chr '"') 0x22 (by decide)
  by_cases hslash : c = chr '\\'
  · rw [if_neg hquote, if_pos hslash, hslash]
    exact hsimple (chr '\\') 0x5C (by decide)
  rw [if_neg hquote, if_neg hslash]
  by_cases hnewline : c = chr '\n'
  · rw [if_pos hnewline, hnewline]
    exact hsimple (chr 'n') 0x0A (by decide)
  by_cases hreturn : c = chr '\r'
  · rw [if_neg hnewline, if_pos hreturn, hreturn]
    exact hsimple (chr 'r') 0x0D (by decide)
  rw [if_neg hnewline, if_neg hreturn]
  by_cases htab : c = chr '\t'
  · rw [if_pos htab, htab]
    exact hsimple (chr 't') 0x09 (by decide)
  rw [if_neg htab]
  by_cases hcontrol : c < 0x20
  · have hlt := c.isLt
    have hquad := hexQuad_hex4 (v := c.toNat) (by omega)
    have hescape := IsEscape.unicode (.single hquad (by omega))
    rw [appendUtf8_control hcontrol] at hescape
    rw [if_pos hcontrol]
    exact .escape hescape h
  · rw [if_neg hcontrol]
    exact .plain (BitVec.not_lt.mp hcontrol) hquote hslash h

theorem isString_writeEscaped (value : Bytes) : IsString (writeEscaped value) value := by
  refine .mk ?_
  induction value with
  | nil => exact .nil
  | cons c value ih =>
    rw [List.flatMap_cons]
    exact characters_writeEscapedByte c ih

/-! ### Numbers -/

theorem isInteger_decimalDigits (n : ℕ) : IsInteger (decimalDigits n) := by
  rw [decimalDigits]
  by_cases hn : n = 0
  · rw [if_pos hn]
    exact .inl rfl
  · rw [if_neg hn]
    have hne : Nat.digits 10 n ≠ [] := Nat.digits_ne_nil_iff_ne_zero.mpr hn
    refine .inr ⟨⟨fun hnil => ?_, fun c hc => ?_⟩, fun hhead => ?_⟩
    · rw [List.map_eq_nil_iff, List.reverse_eq_nil_iff] at hnil
      exact hne hnil
    · obtain ⟨d, hd, rfl⟩ := List.mem_map.mp hc
      have hall : ∀ d < 10, isDigit (BitVec.ofNat 8 (48 + d)) = true := by decide
      exact hall d (Nat.digits_lt_base (by decide) (List.mem_reverse.mp hd))
    · rw [List.head?_map, List.head?_reverse, List.getLast?_eq_some_getLast hne, Option.map_some,
        Option.some_inj] at hhead
      have hlast := Nat.getLast_digit_ne_zero 10 hn
      have hlt := Nat.digits_lt_base (b := 10) (by decide) (List.getLast_mem hne)
      have hall : ∀ d < 10, BitVec.ofNat 8 (48 + d) = chr '0' → d = 0 := by decide
      exact hlast (hall _ hlt hhead)

theorem isNumber_decimal (n : ℤ) : IsNumber (decimal n) := by
  cases n with
  | ofNat n =>
    exact ⟨[], decimalDigits n, [], [], .inl rfl, isInteger_decimalDigits n, .inl rfl, .inl rfl,
      by simp [decimal]⟩
  | negSucc n =>
    exact ⟨[chr '-'], decimalDigits (n + 1), [], [], .inr rfl, isInteger_decimalDigits (n + 1),
      .inl rfl, .inl rfl, by simp [decimal]⟩

/-! ### Values -/

section

variable {D : Type} {doubles : Doubles D}

/-- What the standard library does with the integers of magnitude up to 2^53, which a
`double` has all: it converts, compares, reads and prints them without loss. -/
structure Doubles.Exact (doubles : Doubles D) : Prop where
  toInt64_ofInt64 : ∀ n : ℤ, n.natAbs ≤ 2 ^ 53 → doubles.toInt64 (doubles.ofInt64 n) = n
  equal_self : ∀ n : ℤ, n.natAbs ≤ 2 ^ 53 →
    doubles.equal (doubles.ofInt64 n) (doubles.ofInt64 n) = true
  stod_decimal : ∀ n : ℤ, n.natAbs ≤ 2 ^ 53 →
    doubles.stod (decimal n) = some (doubles.ofInt64 n, (decimal n).length)
  isfinite_ofInt64 : ∀ n : ℤ, n.natAbs ≤ 2 ^ 53 → doubles.isfinite (doubles.ofInt64 n) = true

/-- The number is an integer of magnitude at most 2^53. -/
def IsExactInteger (doubles : Doubles D) (x : D) : Prop :=
  ∃ n : ℤ, n.natAbs ≤ 2 ^ 53 ∧ x = doubles.ofInt64 n

mutual

/-- The value with its numbers as they are written. -/
def tokens (doubles : Doubles D) : JsonValue D → JsonValue Bytes
  | .null => .null
  | .bool value => .bool value
  | .number value => .number (decimal (doubles.toInt64 value))
  | .string value => .string value
  | .array elements => .array (elementTokens doubles elements)
  | .object members => .object (memberTokens doubles members)

def elementTokens (doubles : Doubles D) : List (JsonValue D) → List (JsonValue Bytes)
  | [] => []
  | element :: elements => tokens doubles element :: elementTokens doubles elements

def memberTokens (doubles : Doubles D) :
    List (Bytes × JsonValue D) → List (Bytes × JsonValue Bytes)
  | [] => []
  | (key, value) :: members => (key, tokens doubles value) :: memberTokens doubles members

end

theorem white_pad (indent : ℤ) (d : ℕ) : White (pad indent d) := by
  intro c hc
  rw [pad] at hc
  split at hc
  · rcases List.mem_cons.mp hc with rfl | hc
    · decide
    · rw [(List.mem_replicate.mp hc).2]
      decide
  · exact absurd hc List.not_mem_nil

theorem white_nil : White [] := fun _ h => absurd h List.not_mem_nil

theorem write_number (hexact : doubles.Exact) {x : D} (hx : IsExactInteger doubles x)
    (indent : ℤ) (depth : ℕ) :
    write doubles indent depth (.number x) = decimal (doubles.toInt64 x) := by
  obtain ⟨n, hn, rfl⟩ := hx
  rw [write, hexact.toInt64_ofInt64 n hn, if_pos (hexact.equal_self n hn)]

theorem acceptNumber_decimal (hexact : doubles.Exact) {x : D} (hx : IsExactInteger doubles x) :
    acceptNumber doubles (decimal (doubles.toInt64 x)) = some x := by
  obtain ⟨n, hn, rfl⟩ := hx
  rw [hexact.toInt64_ofInt64 n hn, acceptNumber, hexact.stod_decimal n hn]
  simp [hexact.isfinite_ofInt64 n hn]

theorem writeElements_false (indent : ℤ) (depth : ℕ) (element : JsonValue D)
    (elements : List (JsonValue D)) :
    writeElements doubles indent depth false (element :: elements) =
      chr ',' :: writeElements doubles indent depth true (element :: elements) := by
  rw [writeElements, writeElements, if_neg Bool.false_ne_true, if_pos rfl]
  rfl

theorem writeMembers_false (indent : ℤ) (depth : ℕ) (member : Bytes × JsonValue D)
    (members : List (Bytes × JsonValue D)) :
    writeMembers doubles indent depth false (member :: members) =
      chr ',' :: writeMembers doubles indent depth true (member :: members) := by
  rw [writeMembers, writeMembers, if_neg Bool.false_ne_true, if_pos rfl]
  rfl

/-- The key and the value of a member, with the space that is written between them. -/
theorem isMember_write {t : Bytes} {tree : JsonValue Bytes} (indent : ℤ) (key : Bytes)
    (h : IsValue t tree) : IsMember IsValue
      (writeEscaped key ++ (chr ':' :: ((if 0 ≤ indent then [chr ' '] else []) ++ t)))
      (key, tree) := by
  refine .mk (isString_writeEscaped key) white_nil (fun c hc => ?_) h
  split at hc
  · rw [List.mem_singleton.mp hc]
    decide
  · exact absurd hc List.not_mem_nil

mutual

/-- **What is written is a value of the grammar.** -/
theorem isValue_write (hexact : doubles.Exact) (indent : ℤ) :
    (depth : ℕ) → (value : JsonValue D) → value.Numbers (IsExactInteger doubles) →
      IsValue (write doubles indent depth value) (tokens doubles value)
  | _, .null, _ => .null
  | _, .bool true, _ => .true
  | _, .bool false, _ => .false
  | depth, .number x, hx => by
    rw [write_number hexact hx, tokens]
    exact .number (isNumber_decimal _)
  | _, .string value, _ => .string (isString_writeEscaped value)
  | depth, .array elements, h => by
    rw [write, tokens]
    by_cases hnil : elements = []
    · rw [hnil]
      exact .emptyArray white_nil
    · rw [if_neg (by rwa [List.isEmpty_iff])]
      exact .array (sepBy_writeElements hexact indent depth elements hnil h (white_pad _ _))
  | depth, .object members, h => by
    rw [write, tokens]
    by_cases hnil : members = []
    · rw [hnil]
      exact .emptyObject white_nil
    · rw [if_neg (by rwa [List.isEmpty_iff])]
      exact .object (sepBy_writeMembers hexact indent depth members hnil h (white_pad _ _))

theorem sepBy_writeElements (hexact : doubles.Exact) (indent : ℤ) (depth : ℕ) :
    (elements : List (JsonValue D)) → elements ≠ [] →
      elementsNumbers (IsExactInteger doubles) elements → {w : Bytes} → White w →
      SepBy (chr ',') (Padded isWhite IsValue)
        (writeElements doubles indent depth true elements ++ w) (elementTokens doubles elements)
  | [], hnil, _, _, _ => absurd rfl hnil
  | [element], _, h, w, hw => by
    rw [writeElements, writeElements, elementTokens, elementTokens, if_pos rfl, List.nil_append,
      List.append_nil, List.append_assoc]
    exact .last (.mk (white_pad _ _) (isValue_write hexact indent (depth + 1) element h.1) hw)
  | element :: next :: elements, _, h, w, hw => by
    have hnext := sepBy_writeElements hexact indent depth (next :: elements)
      (List.cons_ne_nil _ _) h.2 hw
    have hfirst := Padded.mk (white_pad indent (depth + 1))
      (isValue_write hexact indent (depth + 1) element h.1) white_nil
    rw [writeElements, writeElements_false, elementTokens, if_pos rfl, List.nil_append,
      List.append_assoc, List.cons_append]
    rw [List.append_nil] at hfirst
    exact .cons hfirst hnext

theorem sepBy_writeMembers (hexact : doubles.Exact) (indent : ℤ) (depth : ℕ) :
    (members : List (Bytes × JsonValue D)) → members ≠ [] →
      membersNumbers (IsExactInteger doubles) members → {w : Bytes} → White w →
      SepBy (chr ',') (Padded isWhite (IsMember IsValue))
        (writeMembers doubles indent depth true members ++ w) (memberTokens doubles members)
  | [], hnil, _, _, _ => absurd rfl hnil
  | [(key, value)], _, h, w, hw => by
    rw [writeMembers, writeMembers, memberTokens, memberTokens, if_pos rfl, List.nil_append,
      List.append_nil]
    have hmember := isMember_write indent key
      (isValue_write hexact indent (depth + 1) value h.1)
    have hlast : SepBy (chr ',') (Padded isWhite (IsMember IsValue)) _ _ :=
      .last (.mk (white_pad indent (depth + 1)) hmember hw)
    simpa only [List.append_assoc, List.cons_append] using hlast
  | (key, value) :: next :: members, _, h, w, hw => by
    have hnext := sepBy_writeMembers hexact indent depth (next :: members)
      (List.cons_ne_nil _ _) h.2 hw
    have hmember := isMember_write indent key
      (isValue_write hexact indent (depth + 1) value h.1)
    have hcons := SepBy.cons (Padded.mk (white_pad indent (depth + 1)) hmember white_nil) hnext
    rw [writeMembers, writeMembers_false, memberTokens, if_pos rfl, List.nil_append]
    simpa only [List.append_assoc, List.cons_append, List.append_nil] using hcons

end

mutual

theorem depth_tokens : (value : JsonValue D) → (tokens doubles value).depth = value.depth
  | .null => rfl
  | .bool _ => rfl
  | .number _ => rfl
  | .string _ => rfl
  | .array elements => congrArg Nat.succ (depth_elementTokens elements)
  | .object members => congrArg Nat.succ (depth_memberTokens members)

theorem depth_elementTokens : (elements : List (JsonValue D)) →
    elementsDepth (elementTokens doubles elements) = elementsDepth elements
  | [] => rfl
  | element :: elements => congrArg₂ max (depth_tokens element) (depth_elementTokens elements)

theorem depth_memberTokens : (members : List (Bytes × JsonValue D)) →
    membersDepth (memberTokens doubles members) = membersDepth members
  | [] => rfl
  | (_, value) :: members => congrArg₂ max (depth_tokens value) (depth_memberTokens members)

end

mutual

/-- **What is written stands for the value.** -/
theorem evaluate_tokens (hexact : doubles.Exact) : (value : JsonValue D) → value.Ordered →
    value.Numbers (IsExactInteger doubles) → evaluate doubles (tokens doubles value) = some value
  | .null, _, _ => rfl
  | .bool _, _, _ => rfl
  | .number x, _, hx => congrArg (Option.map JsonValue.number) (acceptNumber_decimal hexact hx)
  | .string _, _, _ => rfl
  | .array elements, ho, h =>
    congrArg (Option.map JsonValue.array) (evaluate_elementTokens hexact elements ho h)
  | .object members, ho, h => by
    rw [tokens, evaluate, evaluate_memberTokens hexact members ho.2 h]
    exact congrArg (Option.map JsonValue.object) (foldlM_emplace_sorted ho.1)

theorem evaluate_elementTokens (hexact : doubles.Exact) : (elements : List (JsonValue D)) →
    elementsOrdered elements → elementsNumbers (IsExactInteger doubles) elements →
      evaluateElements doubles (elementTokens doubles elements) = some elements
  | [], _, _ => rfl
  | element :: elements, ho, h => by
    rw [elementTokens, evaluateElements, evaluate_tokens hexact element ho.1 h.1,
      evaluate_elementTokens hexact elements ho.2 h.2]

theorem evaluate_memberTokens (hexact : doubles.Exact) :
    (members : List (Bytes × JsonValue D)) → membersOrdered members →
      membersNumbers (IsExactInteger doubles) members →
      evaluateMembers doubles (memberTokens doubles members) = some members
  | [], _, _ => rfl
  | (key, value) :: members, ho, h => by
    rw [memberTokens, evaluateMembers, evaluate_tokens hexact value ho.1 h.1,
      evaluate_memberTokens hexact members ho.2 h.2]

end

/-- The parser returns what was written. -/
theorem parse_dump (hexact : doubles.Exact) {value : JsonValue D} (indent : ℤ)
    (hordered : value.Ordered) (hdepth : value.depth ≤ maximumDepth)
    (hnumbers : value.Numbers (IsExactInteger doubles)) :
    parse doubles (dump doubles indent value) = .ok value := by
  have hvalue := isValue_write hexact indent 0 value hnumbers
  have hpadded := Padded.mk white_nil hvalue white_nil
  rw [List.nil_append, List.append_nil] at hpadded
  refine parse_ok.mpr ⟨tokens doubles value, ⟨_, hpadded, .inl rfl⟩, ?_, ?_⟩
  · rwa [depth_tokens]
  · exact evaluate_tokens hexact value hordered hnumbers

/-- The parser accepts a text exactly when it is one of the grammar with the nesting, the
keys and the numbers it asks for. -/
theorem parse_accepts_iff (doubles : Doubles D) (text : Bytes) :
    (∃ value, parse doubles text = .ok value) ↔
      ∃ tree, IsText text tree ∧ tree.depth ≤ maximumDepth ∧ tree.DistinctKeys ∧
        tree.Numbers (Accepted doubles) := by
  constructor
  · rintro ⟨value, h⟩
    obtain ⟨tree, htext, hdepth, heval⟩ := parse_ok.mp h
    exact ⟨tree, htext, hdepth, (evaluate_iff doubles tree).mp ⟨value, heval⟩⟩
  · rintro ⟨tree, htext, hdepth, h⟩
    obtain ⟨value, heval⟩ := (evaluate_iff doubles tree).mpr h
    exact ⟨value, parse_ok.mpr ⟨tree, htext, hdepth, heval⟩⟩

end

/-- The integers as doubles, and the integers that `std::stod` reads. -/
def integerDoubles : Doubles ℤ where
  stod token :=
    let digits := (scanDigits (scanMinus token).2).1
    let value : ℤ := ((digits.foldl (fun value c => value * 10 + (c.toNat - 48)) 0 : ℕ) : ℤ)
    if digits.isEmpty then none
    else some (if (scanMinus token).1.isEmpty then value else -value,
      (scanMinus token).1.length + digits.length)
  isfinite _ := true
  ofInt64 n := n
  toInt64 n := n
  equal n m := n = m
  print n := decimal n

theorem foldl_digits (digits : List ℕ) (h : ∀ d ∈ digits, d < 10) :
    (digits.reverse.map fun digit => (BitVec.ofNat 8 (48 + digit) : Byte)).foldl
      (fun value c => value * 10 + (c.toNat - 48)) 0 = Nat.ofDigits 10 digits := by
  induction digits with
  | nil => rfl
  | cons d digits ih =>
    obtain ⟨hd, h⟩ := List.forall_mem_cons.mp h
    have hbyte : (BitVec.ofNat 8 (48 + d)).toNat - 48 = d := by
      rw [BitVec.toNat_ofNat]
      omega
    rw [List.reverse_cons, List.map_append, List.foldl_append, ih h, Nat.ofDigits_cons,
      List.map_singleton, List.foldl_cons, List.foldl_nil, hbyte]
    omega

/-- The value of the digits that a number is written with. -/
theorem foldl_decimalDigits (n : ℕ) :
    (decimalDigits n).foldl (fun value c => value * 10 + (c.toNat - 48)) 0 = n := by
  rw [decimalDigits]
  split
  · next hn => rw [hn]; rfl
  · rw [foldl_digits _ fun d hd => Nat.digits_lt_base (by decide) hd, Nat.ofDigits_digits]

theorem stod_decimalDigits {sign : Bytes} (hsign : sign = [] ∨ sign = [chr '-']) (n : ℕ) :
    integerDoubles.stod (sign ++ decimalDigits n) =
      some (if sign.isEmpty then (n : ℤ) else -n, (sign ++ decimalDigits n).length) := by
  have hinteger := isInteger_decimalDigits n
  have hdigits : IsDigits (decimalDigits n) := by
    rcases hinteger with heq | ⟨hdigits, -⟩
    · rw [heq]
      exact ⟨List.cons_ne_nil _ _, by decide⟩
    · exact hdigits
  have hminus : scanMinus (sign ++ (decimalDigits n ++ [])) = (sign, decimalDigits n ++ []) :=
    scanMinus_complete hsign hinteger
  have hscan : scanDigits (decimalDigits n ++ []) = (decimalDigits n, []) :=
    scanDigits_complete hdigits fun _ h => by cases h
  rw [List.append_nil] at hminus hscan
  change (if (scanDigits (scanMinus (sign ++ decimalDigits n)).2).1.isEmpty then none else _) = _
  rw [hminus, hscan, if_neg (by rw [List.isEmpty_iff]; exact hdigits.1), foldl_decimalDigits,
    List.length_append]

theorem integerDoubles_exact : integerDoubles.Exact where
  toInt64_ofInt64 _ _ := rfl
  equal_self _ _ := decide_eq_true rfl
  stod_decimal n _ := by
    cases n with
    | ofNat n => exact stod_decimalDigits (.inl rfl) n
    | negSucc n => exact stod_decimalDigits (.inr rfl) (n + 1)
  isfinite_ofInt64 _ _ := rfl

/-- An object of an array and a string with a character to escape. -/
def sampleValue : JsonValue ℤ :=
  .object [(word ['a'], .array [.number 1, .number (-20)]), (word ['b', '\n'], .string [0x07])]

end Json
end Core
end XenonRecomp
