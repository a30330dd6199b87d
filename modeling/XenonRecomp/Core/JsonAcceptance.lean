/-
# The parser accepts JSON and nothing else

`parse` succeeds on exactly the texts of the grammar whose containers are nested at most
64 deep, whose objects have no key twice and whose numbers `std::stod` takes as finite, and
returns their value.  The induction is on the nesting that is left: the parser of a level
reads the values of that depth, and the containers of the next level are read with it.
-/

import XenonRecomp.Core.JsonContainers

namespace XenonRecomp
namespace Core
namespace Json

open Library Library.Loop

variable {α β : Type} {text rest t : Bytes} {c : Byte} {n : ℕ}

/-! ### Members -/

/-- Members with the key unchanged and the value in a relation. -/
def OnValue (Q : α → β → Prop) (a : Bytes × α) (b : Bytes × β) : Prop := a.1 = b.1 ∧ Q a.2 b.2

theorem isMember_via {R : Bytes → α → Prop} {Q : α → β → Prop} {b : Bytes × β} :
    IsMember (Via R Q) t b ↔ Via (IsMember R) (OnValue Q) t b := by
  constructor
  · rintro ⟨hk, hv, hw, a, hR, hQ⟩
    exact ⟨(_, a), .mk hk hv hw hR, rfl, hQ⟩
  · rintro ⟨a, ⟨hk, hv, hw, hR⟩, hkey, hQ⟩
    obtain ⟨key, b⟩ := b
    obtain rfl : _ = key := hkey
    exact .mk hk hv hw ⟨_, hR, hQ⟩

theorem reads_parseMember {value : Parser α} {R : Bytes → α → Prop} (hvalue : Reads value R)
    (hskip : ∀ text, value (skipWs text) = value text) :
    Reads (parseMember value) (IsMember R) where
  sound := by
    rintro text ⟨key, a⟩ rest hrun
    obtain ⟨⟨key', text₁⟩, hkey, h⟩ := bind_eq_ok.mp hrun
    dsimp only at h
    cases hcolon : consume (chr ':') (skipWs text₁) with
    | none =>
      rw [hcolon] at h
      cases h
    | some text₂ =>
      rw [hcolon] at h
      obtain ⟨⟨a', text₃⟩, hread, h⟩ := bind_eq_ok.mp h
      obtain ⟨hpair, rfl⟩ := Prod.mk.inj (Except.ok.inj h)
      obtain ⟨rfl, rfl⟩ := Prod.mk.inj hpair
      obtain ⟨k, rfl, hk⟩ := parseString_ok.mp hkey
      obtain ⟨v, hv, htext₁⟩ := skipWs_spec text₁
      obtain ⟨w, t, hw, htext₂, hR⟩ := hvalue.sound hread
      refine ⟨[], _, fun _ h => absurd h List.not_mem_nil, ?_, .mk hk hv hw hR⟩
      rw [List.nil_append, htext₁, consume_eq_some hcolon, htext₂]
      simp only [List.append_assoc, List.cons_append]
  complete := by
    rintro t ⟨key, a⟩ rest ⟨hk, hv, hw, hR⟩ hrest
    obtain ⟨c, t, rfl, hc⟩ := hvalue.starts hR
    simp only [List.append_assoc, List.cons_append]
    refine bind_eq_ok.mpr ⟨_, parseString_ok.mpr ⟨_, rfl, hk⟩, ?_⟩
    have hcolon : isWhite (chr ':') = false := by decide
    dsimp only
    rw [skipWs_stop hv hcolon, consume_self]
    refine bind_eq_ok.mpr ⟨(a, rest), ?_, rfl⟩
    rw [← hskip, skipWs_item hw hc, ← List.cons_append]
    exact hvalue.complete hR hrest
  starts := by
    rintro t a ⟨⟨-⟩, -, -, -⟩
    exact ⟨_, _, rfl, by decide⟩

/-! ### Containers of values -/

section

variable {D : Type} {doubles : Doubles D} {opening close : Byte}

/-- What a text of the grammar stands for, and how deep it is nested at most. -/
def ValueOf (doubles : Doubles D) (n : ℕ) (tree : JsonValue Bytes) (value : JsonValue D) : Prop :=
  tree.depth ≤ n ∧ evaluate doubles tree = some value

/-- The language of a level: values that are nested at most so deep. -/
def Denotes (doubles : Doubles D) (n : ℕ) : Bytes → JsonValue D → Prop :=
  Via IsValue (ValueOf doubles n)

theorem bracketed_via {R : Bytes → α → Prop} {Q : α → β → Prop} {bs : List β} :
    Bracketed (Via R Q) opening close t bs ↔
      Via (Bracketed R opening close) (List.Forall₂ Q) t bs := by
  constructor
  · rintro ⟨u, rfl, ⟨rfl, hu⟩ | hbs⟩
    · exact ⟨[], ⟨u, rfl, .inl ⟨rfl, hu⟩⟩, .nil⟩
    · obtain ⟨as, hR, hQ⟩ := sepBy_via.mp (hbs.mono fun _ _ h => padded_via.mp h)
      exact ⟨as, ⟨u, rfl, .inr hR⟩, hQ⟩
  · rintro ⟨as, ⟨u, rfl, ⟨rfl, hu⟩ | has⟩, hQ⟩
    · rw [List.forall₂_nil_left_iff.mp hQ]
      exact ⟨u, rfl, .inl ⟨rfl, hu⟩⟩
    · refine ⟨u, rfl, .inr (SepBy.mono (sepBy_via.mpr ⟨as, has, hQ⟩) fun _ _ h => ?_)⟩
      exact padded_via.mpr h

theorem isValue_array {elements : List (JsonValue Bytes)} :
    IsValue t (.array elements) ↔ Bracketed IsValue (chr '[') (chr ']') t elements := by
  constructor
  · rintro (_ | _)
    · exact ⟨_, rfl, .inl ⟨rfl, ‹_›⟩⟩
    · exact ⟨_, rfl, .inr ‹_›⟩
  · rintro ⟨u, rfl, ⟨rfl, hu⟩ | hs⟩
    · exact .emptyArray hu
    · exact .array hs

theorem isValue_object {members : List (Bytes × JsonValue Bytes)} :
    IsValue t (.object members) ↔
      Bracketed (IsMember IsValue) (chr '{') (chr '}') t members := by
  constructor
  · rintro (_ | _)
    · exact ⟨_, rfl, .inl ⟨rfl, ‹_›⟩⟩
    · exact ⟨_, rfl, .inr ‹_›⟩
  · rintro ⟨u, rfl, ⟨rfl, hu⟩ | hs⟩
    · exact .emptyObject hu
    · exact .object hs

theorem evaluateElements_cons {element : JsonValue Bytes} {elements : List (JsonValue Bytes)}
    {values : List (JsonValue D)} :
    evaluateElements doubles (element :: elements) = some values ↔
      ∃ value rest, evaluate doubles element = some value ∧
        evaluateElements doubles elements = some rest ∧ value :: rest = values := by
  rw [evaluateElements]
  cases evaluate doubles element <;> cases evaluateElements doubles elements <;> simp

theorem evaluateMembers_cons {key : Bytes} {value : JsonValue Bytes}
    {members : List (Bytes × JsonValue Bytes)} {values : List (Bytes × JsonValue D)} :
    evaluateMembers doubles ((key, value) :: members) = some values ↔
      ∃ value' rest, evaluate doubles value = some value' ∧
        evaluateMembers doubles members = some rest ∧ (key, value') :: rest = values := by
  rw [evaluateMembers]
  cases evaluate doubles value <;> cases evaluateMembers doubles members <;> simp

theorem forall₂_valueOf {elements : List (JsonValue Bytes)} {values : List (JsonValue D)} :
    List.Forall₂ (ValueOf doubles n) elements values ↔
      elementsDepth elements ≤ n ∧ evaluateElements doubles elements = some values := by
  induction elements generalizing values with
  | nil =>
    rw [List.forall₂_nil_left_iff, elementsDepth, evaluateElements, Option.some_inj]
    exact ⟨fun h => ⟨Nat.zero_le n, h.symm⟩, fun h => h.2.symm⟩
  | cons element elements ih =>
    rw [List.forall₂_cons_left_iff, elementsDepth, evaluateElements_cons, max_le_iff]
    constructor
    · rintro ⟨value, rest, ⟨hdepth, hvalue⟩, hrest, rfl⟩
      obtain ⟨hdepths, hvalues⟩ := ih.mp hrest
      exact ⟨⟨hdepth, hdepths⟩, value, rest, hvalue, hvalues, rfl⟩
    · rintro ⟨⟨hdepth, hdepths⟩, value, rest, hvalue, hvalues, rfl⟩
      exact ⟨value, rest, ⟨hdepth, hvalue⟩, ih.mpr ⟨hdepths, hvalues⟩, rfl⟩

theorem forall₂_onValue {members : List (Bytes × JsonValue Bytes)}
    {values : List (Bytes × JsonValue D)} :
    List.Forall₂ (OnValue (ValueOf doubles n)) members values ↔
      membersDepth members ≤ n ∧ evaluateMembers doubles members = some values := by
  induction members generalizing values with
  | nil =>
    rw [List.forall₂_nil_left_iff, membersDepth, evaluateMembers, Option.some_inj]
    exact ⟨fun h => ⟨Nat.zero_le n, h.symm⟩, fun h => h.2.symm⟩
  | cons member members ih =>
    obtain ⟨key, value⟩ := member
    rw [List.forall₂_cons_left_iff, membersDepth, evaluateMembers_cons, max_le_iff]
    constructor
    · rintro ⟨⟨key', value'⟩, rest, ⟨hkey, hdepth, hvalue⟩, hrest, rfl⟩
      obtain ⟨hdepths, hvalues⟩ := ih.mp hrest
      obtain rfl : key = key' := hkey
      exact ⟨⟨hdepth, hdepths⟩, value', rest, hvalue, hvalues, rfl⟩
    · rintro ⟨⟨hdepth, hdepths⟩, value', rest, hvalue, hvalues, rfl⟩
      exact ⟨(key, value'), rest, ⟨rfl, hdepth, hvalue⟩, ih.mpr ⟨hdepths, hvalues⟩, rfl⟩

theorem foldlM_pushBack (array xs : List α) : xs.foldlM pushBack array = some (array ++ xs) := by
  induction xs generalizing array with
  | nil => rw [List.append_nil]; rfl
  | cons x xs ih =>
    refine (ih (array ++ [x])).trans ?_
    rw [List.append_assoc]
    rfl

/-- **An array is read exactly when it is one** whose elements are values of the level
below. -/
theorem parseArray_ok {element : Parser (JsonValue D)} (h : Reads element (Denotes doubles n))
    {value : JsonValue D} :
    parseArray (some element) text = .ok (value, rest) ↔
      ∃ t elements, text = t ++ rest ∧ IsValue t (.array elements) ∧
        ValueOf doubles (n + 1) (.array elements) value := by
  have hclose : chr ']' ≠ chr ',' ∧ chr ']' ∈ delimiters ∧ isWhite (chr ']') = false := by decide
  have hok : ∀ array, parseContainer element pushBack (chr '[') (chr ']')
      "Expected ',' or ']' in array" [] text = .ok (array, rest) ↔
        ∃ t xs, text = t ++ rest ∧ Bracketed (Denotes doubles n) (chr '[') (chr ']') t xs ∧
          xs.foldlM pushBack [] = some array :=
    fun _ => parseContainer_ok h hclose.1 hclose.2.1 hclose.2.2
  constructor
  · intro hrun
    obtain ⟨⟨array, text₁⟩, hcontainer, hrun⟩ := bind_eq_ok.mp hrun
    obtain ⟨rfl, rfl⟩ := Prod.mk.inj (Except.ok.inj hrun)
    obtain ⟨t, xs, rfl, hbracketed, hfold⟩ := (hok array).mp hcontainer
    rw [foldlM_pushBack] at hfold
    obtain rfl : xs = array := Option.some.inj hfold
    obtain ⟨elements, hvalue, hall⟩ := bracketed_via.mp hbracketed
    obtain ⟨hdepth, heval⟩ := forall₂_valueOf.mp hall
    refine ⟨t, elements, rfl, isValue_array.mpr hvalue, Nat.succ_le_succ hdepth, ?_⟩
    rw [evaluate, heval]
    rfl
  · rintro ⟨t, elements, rfl, hvalue, hdepth, heval⟩
    rw [evaluate] at heval
    obtain ⟨array, helements, rfl⟩ := Option.map_eq_some_iff.mp heval
    have hall := forall₂_valueOf.mpr ⟨Nat.le_of_succ_le_succ hdepth, helements⟩
    refine bind_eq_ok.mpr ⟨(array, rest), (hok array).mpr ⟨t, array, rfl, ?_, ?_⟩, rfl⟩
    · exact bracketed_via.mpr ⟨elements, isValue_array.mp hvalue, hall⟩
    · exact foldlM_pushBack [] array

/-- **An object is read exactly when it is one** whose values are of the level below and
whose keys differ. -/
theorem parseObject_ok {element : Parser (JsonValue D)} (h : Reads element (Denotes doubles n))
    (hskip : ∀ text, element (skipWs text) = element text) {value : JsonValue D} :
    parseObject (some element) text = .ok (value, rest) ↔
      ∃ t members, text = t ++ rest ∧ IsValue t (.object members) ∧
        ValueOf doubles (n + 1) (.object members) value := by
  have hclose : chr '}' ≠ chr ',' ∧ chr '}' ∈ delimiters ∧ isWhite (chr '}') = false := by decide
  have hok : ∀ object, parseContainer (parseMember element) emplace (chr '{') (chr '}')
      "Expected ',' or '\x7d' in object" [] text = .ok (object, rest) ↔
        ∃ t xs, text = t ++ rest ∧
          Bracketed (IsMember (Denotes doubles n)) (chr '{') (chr '}') t xs ∧
          xs.foldlM emplace [] = some object :=
    fun _ => parseContainer_ok (reads_parseMember h hskip) hclose.1 hclose.2.1 hclose.2.2
  have hvia : ∀ t xs, Bracketed (IsMember (Denotes doubles n)) (chr '{') (chr '}') t xs ↔
      Via (Bracketed (IsMember IsValue) (chr '{') (chr '}'))
        (List.Forall₂ (OnValue (ValueOf doubles n))) t xs := by
    intro t xs
    have hmember : IsMember (Denotes doubles n) =
        Via (IsMember IsValue) (OnValue (ValueOf doubles n)) := by
      funext t b
      exact propext isMember_via
    rw [hmember]
    exact bracketed_via
  constructor
  · intro hrun
    obtain ⟨⟨object, text₁⟩, hcontainer, hrun⟩ := bind_eq_ok.mp hrun
    obtain ⟨rfl, rfl⟩ := Prod.mk.inj (Except.ok.inj hrun)
    obtain ⟨t, xs, rfl, hbracketed, hfold⟩ := (hok object).mp hcontainer
    obtain ⟨members, hvalue, hall⟩ := (hvia t xs).mp hbracketed
    obtain ⟨hdepth, heval⟩ := forall₂_onValue.mp hall
    refine ⟨t, members, rfl, isValue_object.mpr hvalue, Nat.succ_le_succ hdepth, ?_⟩
    rw [evaluate, heval]
    exact congrArg (Option.map JsonValue.object) hfold
  · rintro ⟨t, members, rfl, hvalue, hdepth, heval⟩
    rw [evaluate] at heval
    cases hmembers : evaluateMembers doubles members with
    | none =>
      rw [hmembers] at heval
      cases heval
    | some xs =>
      rw [hmembers] at heval
      obtain ⟨object, hfold, rfl⟩ := Option.map_eq_some_iff.mp heval
      have hall := forall₂_onValue.mpr ⟨Nat.le_of_succ_le_succ hdepth, hmembers⟩
      refine bind_eq_ok.mpr ⟨(object, rest), (hok object).mpr ⟨t, xs, rfl, ?_, hfold⟩, rfl⟩
      exact (hvia t xs).mpr ⟨members, isValue_object.mp hvalue, hall⟩

/-! ### Values -/

theorem literal_ok {w : Bytes} : literal w text = some rest ↔ text = w ++ rest := by
  constructor
  · intro h
    rw [literal] at h
    split at h
    · next htake =>
      nth_rewrite 1 [← List.take_append_drop w.length text]
      rw [htake, Option.some.inj h]
    · cases h
  · rintro rfl
    rw [literal, List.take_left, if_pos rfl, List.drop_left]

theorem literal_of_ne {d : Byte} (h : c ≠ d) (w : Bytes) : literal (d :: w) (c :: text) = none := by
  refine Option.eq_none_iff_forall_not_mem.mpr fun rest hrest => ?_
  exact h (List.cons.inj (literal_ok.mp hrest)).1

theorem parseNumber_sound {value : JsonValue D}
    (hrun : parseNumber doubles text = .ok (value, rest)) :
    ∃ t, text = t ++ rest ∧ IsNumber t ∧ (acceptNumber doubles t).map .number = some value := by
  obtain ⟨⟨t, text₁⟩, hscan, h⟩ := bind_eq_ok.mp hrun
  obtain ⟨rfl, ht⟩ := scanNumber_sound hscan
  dsimp only at h
  cases haccept : acceptNumber doubles t with
  | none =>
    rw [haccept] at h
    cases h
  | some x =>
    rw [haccept] at h
    obtain ⟨rfl, rfl⟩ := Prod.mk.inj (Except.ok.inj h)
    exact ⟨t, rfl, ht, by rw [haccept]; rfl⟩

theorem parseNumber_complete {value : JsonValue D} (ht : IsNumber t)
    (haccept : (acceptNumber doubles t).map .number = some value) (hrest : Ends rest) :
    parseNumber doubles (t ++ rest) = .ok (value, rest) := by
  obtain ⟨x, hx, rfl⟩ := Option.map_eq_some_iff.mp haccept
  refine bind_eq_ok.mpr ⟨_, scanNumber_complete ht hrest, ?_⟩
  dsimp only
  rw [hx]
  rfl

/-- The characters that a value begins with. -/
def valueStarts : Bytes :=
  word ['{', '[', '"', 't', 'f', 'n', '-', '0', '1', '2', '3', '4', '5', '6', '7', '8', '9']

theorem IsNumber.cons (h : IsNumber t) : ∃ c u, t = c :: u ∧ (c = chr '-' ∨ isDigit c = true) := by
  obtain ⟨sign, integer, fraction, exponent, hsign, hinteger, -, -, rfl⟩ := h
  rcases hsign with rfl | rfl
  · obtain ⟨c, u, rfl, hc⟩ := hinteger.cons
    exact ⟨c, _, rfl, .inr hc⟩
  · exact ⟨_, _, rfl, .inl rfl⟩

theorem isValue_cons {tree : JsonValue Bytes} (h : IsValue t tree) :
    ∃ c u, t = c :: u ∧ c ∈ valueStarts := by
  cases h with
  | null | true | false => exact ⟨_, _, rfl, by decide⟩
  | number ht =>
    obtain ⟨c, u, rfl, hc⟩ := ht.cons
    have hdigit : ∀ c : Byte, isDigit c = true → c ∈ valueStarts := by decide
    refine ⟨c, u, rfl, hc.elim (fun heq => ?_) (hdigit c)⟩
    rw [heq]
    decide
  | string ht =>
    obtain ⟨-⟩ := ht
    exact ⟨_, _, rfl, by decide⟩
  | emptyArray | array | emptyObject | object => exact ⟨_, _, rfl, by decide⟩

/-- The parser of the level below, where there is one. -/
def nestedParser (doubles : Doubles D) : ℕ → Option (Parser (JsonValue D))
  | 0 => none
  | n + 1 => some (parseValue doubles n)

theorem parseValue_eq (n : ℕ) (text : Bytes) :
    parseValue doubles n text = parseDispatch doubles (nestedParser doubles n) (skipWs text) := by
  cases n <;> rfl

theorem parseValue_skipWs (n : ℕ) (text : Bytes) :
    parseValue doubles n (skipWs text) = parseValue doubles n text := by
  rw [parseValue_eq, parseValue_eq, skipWs_skipWs]

/-- The levels below are read. -/
def LevelsBelow (doubles : Doubles D) (n : ℕ) : Prop :=
  ∀ m < n, Reads (parseValue doubles m) (Denotes doubles m)

theorem parseDispatch_sound (hbelow : LevelsBelow doubles n) {value : JsonValue D}
    (h : parseDispatch doubles (nestedParser doubles n) text = .ok (value, rest)) :
    ∃ t, text = t ++ rest ∧ Denotes doubles n t value := by
  cases text with
  | nil => cases h
  | cons c text =>
    rw [parseDispatch] at h
    split at h
    · cases n with
      | zero => cases h
      | succ n =>
        obtain ⟨t, members, ht, hvalue, hdenotes⟩ :=
          (parseObject_ok (hbelow n (Nat.lt_succ_self n)) (parseValue_skipWs n)).mp h
        exact ⟨t, ht, _, hvalue, hdenotes⟩
    · split at h
      · cases n with
        | zero => cases h
        | succ n =>
          obtain ⟨t, elements, ht, hvalue, hdenotes⟩ :=
            (parseArray_ok (hbelow n (Nat.lt_succ_self n))).mp h
          exact ⟨t, ht, _, hvalue, hdenotes⟩
      · split at h
        · obtain ⟨⟨s, text₁⟩, hstring, h⟩ := bind_eq_ok.mp h
          obtain ⟨rfl, rfl⟩ := Prod.mk.inj (Except.ok.inj h)
          obtain ⟨t, ht, hs⟩ := parseString_ok.mp hstring
          exact ⟨t, ht, _, .string hs, Nat.zero_le n, rfl⟩
        · split at h
          · next hword =>
            obtain ⟨rfl, rfl⟩ := Prod.mk.inj (Except.ok.inj h)
            exact ⟨_, literal_ok.mp hword, _, .true, Nat.zero_le n, rfl⟩
          · split at h
            · next hword =>
              obtain ⟨rfl, rfl⟩ := Prod.mk.inj (Except.ok.inj h)
              exact ⟨_, literal_ok.mp hword, _, .false, Nat.zero_le n, rfl⟩
            · split at h
              · next hword =>
                obtain ⟨rfl, rfl⟩ := Prod.mk.inj (Except.ok.inj h)
                exact ⟨_, literal_ok.mp hword, _, .null, Nat.zero_le n, rfl⟩
              · split at h
                · obtain ⟨t, ht, hnumber, haccept⟩ := parseNumber_sound h
                  exact ⟨t, ht, _, .number hnumber, Nat.zero_le n, haccept⟩
                · cases h

theorem number_start (h : c = chr '-' ∨ isDigit c = true) :
    c ≠ chr '{' ∧ c ≠ chr '[' ∧ c ≠ chr '"' ∧ c ≠ chr 't' ∧ c ≠ chr 'f' ∧ c ≠ chr 'n' ∧
      (c = chr '-' ∨ chr '0' ≤ c ∧ c ≤ chr '9') := by
  have hall : ∀ c : Byte, c = chr '-' ∨ isDigit c = true →
      c ≠ chr '{' ∧ c ≠ chr '[' ∧ c ≠ chr '"' ∧ c ≠ chr 't' ∧ c ≠ chr 'f' ∧ c ≠ chr 'n' ∧
        (c = chr '-' ∨ chr '0' ≤ c ∧ c ≤ chr '9') := by
    decide
  exact hall c h

theorem parseDispatch_complete (hbelow : LevelsBelow doubles n) {value : JsonValue D}
    (h : Denotes doubles n t value) (hrest : Ends rest) :
    parseDispatch doubles (nestedParser doubles n) (t ++ rest) = .ok (value, rest) := by
  obtain ⟨tree, htree, hdepth, heval⟩ := h
  cases tree with
  | null =>
    obtain ⟨-⟩ := htree
    rw [← Option.some.inj heval]
    rfl
  | bool b =>
    rw [← Option.some.inj heval]
    cases htree <;> rfl
  | number token =>
    cases htree with | number hnumber =>
    obtain ⟨c, u, rfl, hc⟩ := hnumber.cons
    obtain ⟨hbrace, hbracket, hquote, ht, hf, hn, hstart⟩ := number_start hc
    have htrue : literal (word ['t', 'r', 'u', 'e']) (c :: u ++ rest) = none :=
      literal_of_ne ht _
    have hfalse : literal (word ['f', 'a', 'l', 's', 'e']) (c :: u ++ rest) = none :=
      literal_of_ne hf _
    have hnull : literal (word ['n', 'u', 'l', 'l']) (c :: u ++ rest) = none :=
      literal_of_ne hn _
    have hread : parseNumber doubles (c :: u ++ rest) = .ok (value, rest) :=
      parseNumber_complete hnumber heval hrest
    rw [List.cons_append] at htrue hfalse hnull hread ⊢
    rw [parseDispatch, if_neg hbrace, if_neg hbracket, if_neg hquote, htrue, hfalse, hnull,
      if_pos hstart, hread]
  | string s =>
    cases htree with | string hs =>
    rw [← Option.some.inj heval]
    obtain ⟨hs'⟩ := id hs
    exact bind_eq_ok.mpr ⟨_, parseString_ok.mpr ⟨_, rfl, hs⟩, rfl⟩
  | array elements =>
    cases n with
    | zero => exact absurd hdepth (Nat.not_succ_le_zero _)
    | succ n =>
      have hread : parseArray (nestedParser doubles (n + 1)) (t ++ rest) = .ok (value, rest) :=
        (parseArray_ok (hbelow n (Nat.lt_succ_self n))).mpr
          ⟨t, elements, rfl, htree, hdepth, heval⟩
      obtain ⟨u, rfl, -⟩ := isValue_array.mp htree
      exact hread
  | object members =>
    cases n with
    | zero => exact absurd hdepth (Nat.not_succ_le_zero _)
    | succ n =>
      have hread : parseObject (nestedParser doubles (n + 1)) (t ++ rest) = .ok (value, rest) :=
        (parseObject_ok (hbelow n (Nat.lt_succ_self n)) (parseValue_skipWs n)).mpr
          ⟨t, members, rfl, htree, hdepth, heval⟩
      obtain ⟨u, rfl, -⟩ := isValue_object.mp htree
      exact hread

/-- **Every level of the parser reads the values of its depth.** -/
theorem reads_parseValue (doubles : Doubles D) (n : ℕ) :
    Reads (parseValue doubles n) (Denotes doubles n) := by
  induction n using Nat.strong_induction_on with
  | _ n ih =>
    have hstop : ∀ c ∈ valueStarts, c ∉ delimiters := by decide
    have hstarts : ∀ {t value}, Denotes doubles n t value → ∃ c u, t = c :: u ∧ c ∉ delimiters := by
      rintro t value ⟨tree, htree, -⟩
      obtain ⟨c, u, ht, hc⟩ := isValue_cons htree
      exact ⟨c, u, ht, hstop c hc⟩
    refine ⟨fun {text value rest} h => ?_, fun {t value rest} h hrest => ?_, hstarts⟩
    · rw [parseValue_eq] at h
      obtain ⟨w, hw, htext⟩ := skipWs_spec text
      obtain ⟨t, ht, hdenotes⟩ := parseDispatch_sound ih h
      exact ⟨w, t, hw, htext.trans (congrArg _ ht), hdenotes⟩
    · obtain ⟨c, u, rfl, hc⟩ := hstarts h
      have hskip : skipWs (c :: u ++ rest) = c :: u ++ rest :=
        skipWs_item (v := []) (fun _ h => absurd h List.not_mem_nil) hc _
      rw [parseValue_eq, hskip]
      exact parseDispatch_complete ih h hrest

/-! ### Texts -/

/-- A text does not begin like a byte-order mark. -/
theorem take_ne_byteOrderMark {tree : JsonValue Bytes} (h : Padded isWhite IsValue t tree) :
    t.take 3 ≠ byteOrderMark := by
  cases h with | @mk v u w _ hv htree hw =>
  obtain ⟨c, u, rfl, hc⟩ := isValue_cons htree
  have hstart : ∀ c ∈ valueStarts, c ≠ 0xEF := by decide
  have hwhite : isWhite 0xEF = false := by decide
  intro htake
  have hmark := List.take_append_drop 3 (v ++ (c :: u ++ w))
  rw [htake] at hmark
  cases v with
  | nil => exact hstart c hc (List.cons.inj hmark).1.symm
  | cons d v =>
    have hd := hv d List.mem_cons_self
    rw [← (List.cons.inj hmark).1, hwhite] at hd
    cases hd

theorem parseValue_text {value : JsonValue D} :
    (∃ text₁, parseValue doubles n (skipWs t) = .ok (value, text₁) ∧ skipWs text₁ = []) ↔
      Via (Padded isWhite IsValue) (ValueOf doubles n) t value := by
  have hreads := reads_parseValue doubles n
  constructor
  · rintro ⟨text₁, h, hend⟩
    obtain ⟨u, ht, hpadded⟩ := padded_of_read hreads h
    rw [hend, List.append_nil] at ht
    rw [ht]
    exact padded_via.mp hpadded
  · intro h
    cases padded_via.mpr h with | @mk v u w _ hv hdenotes hw =>
    obtain ⟨c, u, rfl, hc⟩ := hreads.starts hdenotes
    refine ⟨w, ?_, ?_⟩
    · rw [List.cons_append, skipWs_item hv hc, ← List.cons_append]
      refine hreads.complete hdenotes fun d hd => white_delimiter (hw d ?_)
      exact List.mem_of_mem_head? hd
    · exact List.dropWhile_eq_nil_iff.mpr hw

/-- **The parser returns the value of a text of the grammar** that is nested at most 64
deep, and of no other text. -/
theorem parse_ok {value : JsonValue D} :
    parse doubles text = .ok value ↔
      ∃ tree, IsText text tree ∧ ValueOf doubles maximumDepth tree value := by
  have hrun : ∀ t, (parseValue doubles maximumDepth (skipWs t) >>= fun p =>
      if skipWs p.2 = [] then .ok p.1 else .error "Trailing content after JSON value") =
        Except.ok value ↔ Via (Padded isWhite IsValue) (ValueOf doubles maximumDepth) t value := by
    intro t
    rw [bind_eq_ok, ← parseValue_text]
    constructor
    · rintro ⟨⟨value', text₁⟩, hvalue, h⟩
      split at h
      · next hend => exact ⟨text₁, Except.ok.inj h ▸ hvalue, hend⟩
      · cases h
    · rintro ⟨text₁, hvalue, hend⟩
      exact ⟨_, hvalue, if_pos hend⟩
  have hparse : parse doubles text = .ok value ↔ Via (Padded isWhite IsValue)
      (ValueOf doubles maximumDepth)
        (if text.take 3 = byteOrderMark then text.drop 3 else text) value := by
    rw [← hrun]
    rfl
  rw [hparse]
  by_cases hmark : text.take 3 = byteOrderMark
  · rw [if_pos hmark]
    have hsplit : text = byteOrderMark ++ text.drop 3 := by
      rw [← hmark, List.take_append_drop]
    constructor
    · rintro ⟨tree, hpadded, hvalue⟩
      exact ⟨tree, ⟨_, hpadded, .inr hsplit⟩, hvalue⟩
    · rintro ⟨tree, ⟨t, hpadded, rfl | rfl⟩, hvalue⟩
      · exact absurd hmark (take_ne_byteOrderMark hpadded)
      · exact ⟨tree, hpadded, hvalue⟩
  · rw [if_neg hmark]
    constructor
    · rintro ⟨tree, hpadded, hvalue⟩
      exact ⟨tree, ⟨_, hpadded, .inl rfl⟩, hvalue⟩
    · rintro ⟨tree, ⟨t, hpadded, rfl | rfl⟩, hvalue⟩
      · exact ⟨tree, hpadded, hvalue⟩
      · have htake : (byteOrderMark ++ t).take 3 = byteOrderMark := List.take_left' rfl
        exact absurd htake hmark

end

end Json
end Core
end XenonRecomp
