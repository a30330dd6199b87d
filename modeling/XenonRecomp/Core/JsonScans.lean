/-
# What the parser reads of numbers and strings

Each scanner reads exactly one form of the grammar: what it reads has the form
(`…_sound`), and a text of the form is read whole where what follows cannot go on with it
(`…_complete`).
-/

import Mathlib.Data.List.TakeWhile
import XenonRecomp.Core.JsonGrammar
import XenonRecomp.Library.Loop

namespace XenonRecomp
namespace Core
namespace Json

open Library Library.Loop

variable {text rest l t s : Bytes} {c : Byte}

/-! ### The end of an item -/

/-- The characters that may follow a value in a text. -/
def delimiters : Bytes := word [' ', '\t', '\n', '\r', ',', ']', '}']

/-- The next character, if there is one, is of a kind. -/
def Ahead (kind : Bytes) (text : Bytes) : Prop := ∀ c ∈ text.head?, c ∈ kind

/-- The text ends here or goes on with a delimiter. -/
abbrev Ends (text : Bytes) : Prop := Ahead delimiters text

theorem Ahead.mono {kind kind' : Bytes} (h : Ahead kind text) (hsub : kind ⊆ kind') :
    Ahead kind' text :=
  fun c hc => hsub (h c hc)

theorem ahead_cons {kind : Bytes} (hc : c ∈ kind) (text : Bytes) : Ahead kind (c :: text) := by
  intro d hd
  rw [← Option.some.inj hd]
  exact hc

theorem Ahead.head {kind : Bytes} (h : Ahead kind (c :: text)) : c ∈ kind := h c rfl

/-! ### Runs of one class -/

theorem takeWhile_append_stop {p : Byte → Bool} (hl : ∀ c ∈ l, p c = true)
    (hrest : ∀ c ∈ rest.head?, p c = false) : (l ++ rest).takeWhile p = l := by
  rw [List.takeWhile_append_of_pos hl]
  cases rest with
  | nil => rw [List.takeWhile_nil, List.append_nil]
  | cons c rest => rw [List.takeWhile_cons_of_neg (by rw [hrest c rfl]; decide), List.append_nil]

theorem dropWhile_append_stop {p : Byte → Bool} (hl : ∀ c ∈ l, p c = true)
    (hrest : ∀ c ∈ rest.head?, p c = false) : (l ++ rest).dropWhile p = rest := by
  rw [List.dropWhile_append_of_pos hl]
  cases rest with
  | nil => rfl
  | cons c rest => rw [List.dropWhile_cons_of_neg (by rw [hrest c rfl]; decide)]

theorem skipWs_spec (text : Bytes) : ∃ w, White w ∧ text = w ++ skipWs text :=
  ⟨text.takeWhile isWhite, fun _ hc => List.mem_takeWhile_imp hc,
    List.takeWhile_append_dropWhile.symm⟩

theorem skipWs_append {w : Bytes} (hw : White w) (hrest : ∀ c ∈ rest.head?, isWhite c = false) :
    skipWs (w ++ rest) = rest :=
  dropWhile_append_stop hw hrest

theorem skipWs_skipWs (text : Bytes) : skipWs (skipWs text) = skipWs text := by
  refine skipWs_append (w := []) (fun _ h => absurd h List.not_mem_nil) fun c hc => ?_
  have hhead := List.head?_dropWhile_not isWhite text
  change (text.dropWhile isWhite).head? = some c at hc
  rw [hc] at hhead
  exact hhead

theorem consume_eq_some {expected : Byte} (h : consume expected text = some rest) :
    text = expected :: rest := by
  cases text with
  | nil => cases h
  | cons c text =>
    rw [consume] at h
    split at h
    · next hc => rw [hc, Option.some.inj h]
    · cases h

@[simp] theorem consume_self (expected : Byte) (text : Bytes) :
    consume expected (expected :: text) = some text :=
  if_pos rfl

theorem consume_of_ne {expected : Byte} (h : c ≠ expected) (text : Bytes) :
    consume expected (c :: text) = none :=
  if_neg h

/-! ### Numbers -/

theorem scanDigits_append (text : Bytes) : (scanDigits text).1 ++ (scanDigits text).2 = text :=
  List.takeWhile_append_dropWhile

theorem isDigits_scanDigits (h : (scanDigits text).1 ≠ []) : IsDigits (scanDigits text).1 :=
  ⟨h, fun _ hc => List.mem_takeWhile_imp hc⟩

/-- What may follow an integer. -/
def afterInteger : Bytes := chr '.' :: chr 'e' :: chr 'E' :: delimiters

/-- What may follow a fraction. -/
def afterFraction : Bytes := chr 'e' :: chr 'E' :: delimiters

theorem not_digit_ahead (h : Ahead afterInteger rest) : ∀ c ∈ rest.head?, isDigit c = false := by
  have hnone : ∀ c ∈ afterInteger, isDigit c = false := by decide
  exact fun c hc => hnone c (h c hc)

theorem scanDigits_complete (hl : IsDigits l) (hrest : Ahead afterInteger rest) :
    scanDigits (l ++ rest) = (l, rest) := by
  have hstop := not_digit_ahead hrest
  rw [scanDigits, takeWhile_append_stop hl.2 hstop, dropWhile_append_stop hl.2 hstop]

theorem scanMinus_sound (h : scanMinus text = (l, rest)) :
    text = l ++ rest ∧ (l = [] ∨ l = [chr '-']) := by
  cases text with
  | nil =>
    obtain ⟨rfl, rfl⟩ := Prod.mk.inj h
    exact ⟨rfl, .inl rfl⟩
  | cons c text =>
    rw [scanMinus] at h
    split at h
    · next hc =>
      obtain ⟨rfl, rfl⟩ := Prod.mk.inj h
      exact ⟨rfl, .inr (congrArg (fun c => [c]) hc)⟩
    · obtain ⟨rfl, rfl⟩ := Prod.mk.inj h
      exact ⟨rfl, .inl rfl⟩

theorem scanInteger_sound (h : scanInteger text = .ok (l, rest)) :
    text = l ++ rest ∧ IsInteger l := by
  cases text with
  | nil => cases h
  | cons c text =>
    rw [scanInteger] at h
    split at h
    · next hc =>
      split at h
      · cases h
      · obtain ⟨rfl, rfl⟩ := Prod.mk.inj (Except.ok.inj h)
        exact ⟨rfl, .inl (congrArg (fun c => [c]) hc)⟩
    · next hc =>
      split at h
      · next hdigit =>
        have hsplit := scanDigits_append (c :: text)
        rw [Except.ok.inj h] at hsplit
        have hfirst : isDigit c = true := by
          rw [isDigit, Bool.and_eq_true, decide_eq_true_iff, decide_eq_true_iff]
          refine ⟨BitVec.le_trans (by decide) hdigit.1, hdigit.2⟩
        have hdigits : l = c :: text.takeWhile isDigit := by
          have hl : (scanDigits (c :: text)).1 = l := congrArg Prod.fst (Except.ok.inj h)
          rw [← hl, scanDigits, List.takeWhile_cons_of_pos hfirst]
        refine ⟨hsplit.symm, .inr ⟨?_, ?_⟩⟩
        · have hl : (scanDigits (c :: text)).1 = l := congrArg Prod.fst (Except.ok.inj h)
          rw [← hl]
          exact isDigits_scanDigits (by rw [hl, hdigits]; exact List.cons_ne_nil _ _)
        · rw [hdigits]
          exact fun heq => hc (Option.some.inj heq)
      · cases h

theorem scanInteger_complete (hl : IsInteger l) (hrest : Ahead afterInteger rest) :
    scanInteger (l ++ rest) = .ok (l, rest) := by
  have hstop := not_digit_ahead hrest
  rcases hl with rfl | ⟨hdigits, hne⟩
  · rw [List.singleton_append, scanInteger, if_pos rfl]
    cases rest with
    | nil => rfl
    | cons c rest =>
      rw [List.head?_cons, Option.map_some, hstop c rfl]
      rfl
  · obtain ⟨hnil, hall⟩ := hdigits
    cases l with
    | nil => exact absurd rfl hnil
    | cons c l =>
      have hc : c ≠ chr '0' := fun heq => hne (congrArg some heq)
      have hdigit : chr '1' ≤ c ∧ c ≤ chr '9' := by
        have hc' := hall c List.mem_cons_self
        rw [isDigit, Bool.and_eq_true, decide_eq_true_iff, decide_eq_true_iff] at hc'
        refine ⟨?_, hc'.2⟩
        have hval : c.toNat ≠ 48 := fun heq => hc (BitVec.eq_of_toNat_eq heq)
        have hlow : 48 ≤ c.toNat := hc'.1
        exact BitVec.le_def.mpr (by change 49 ≤ c.toNat; omega)
      rw [List.cons_append, scanInteger, if_neg hc, if_pos hdigit, ← List.cons_append,
        scanDigits_complete ⟨hnil, hall⟩ hrest]

theorem scanFraction_sound (h : scanFraction text = .ok (l, rest)) :
    text = l ++ rest ∧ IsFraction l := by
  cases text with
  | nil =>
    obtain ⟨rfl, rfl⟩ := Prod.mk.inj (Except.ok.inj h)
    exact ⟨rfl, .inl rfl⟩
  | cons c text =>
    rw [scanFraction] at h
    split at h
    · next hc =>
      have hsplit := scanDigits_append text
      change (if (scanDigits text).1.isEmpty then _ else _) = _ at h
      split at h
      · cases h
      · next hne =>
        have hl : c :: (scanDigits text).1 = l := congrArg Prod.fst (Except.ok.inj h)
        have hr : (scanDigits text).2 = rest := congrArg Prod.snd (Except.ok.inj h)
        rw [List.isEmpty_iff] at hne
        rw [← hl, ← hr, List.cons_append, hsplit, hc]
        exact ⟨rfl, .inr ⟨_, isDigits_scanDigits hne, rfl⟩⟩
    · obtain ⟨rfl, rfl⟩ := Prod.mk.inj (Except.ok.inj h)
      exact ⟨rfl, .inl rfl⟩

theorem scanFraction_complete (hl : IsFraction l) (hrest : Ahead afterFraction rest) :
    scanFraction (l ++ rest) = .ok (l, rest) := by
  rcases hl with rfl | ⟨digits, hdigits, rfl⟩
  · cases rest with
    | nil => rfl
    | cons c rest =>
      have hnone : ∀ c ∈ afterFraction, c ≠ chr '.' := by decide
      exact if_neg (hnone c hrest.head)
  · have hscan := scanDigits_complete hdigits
      (hrest.mono (List.subset_cons_self (chr '.') afterFraction))
    rw [List.cons_append, scanFraction, if_pos rfl, hscan]
    exact if_neg (by rw [List.isEmpty_iff]; exact hdigits.1)

theorem scanSign_sound (h : scanSign text = (l, rest)) :
    text = l ++ rest ∧ (l = [] ∨ l = [chr '+'] ∨ l = [chr '-']) := by
  cases text with
  | nil =>
    obtain ⟨rfl, rfl⟩ := Prod.mk.inj h
    exact ⟨rfl, .inl rfl⟩
  | cons c text =>
    rw [scanSign] at h
    split at h
    · next hc =>
      obtain ⟨rfl, rfl⟩ := Prod.mk.inj h
      exact ⟨rfl, .inr (hc.imp (congrArg fun c => [c]) (congrArg fun c => [c]))⟩
    · obtain ⟨rfl, rfl⟩ := Prod.mk.inj h
      exact ⟨rfl, .inl rfl⟩

theorem scanSign_complete (hl : l = [] ∨ l = [chr '+'] ∨ l = [chr '-']) (hdigits : IsDigits t) :
    scanSign (l ++ (t ++ rest)) = (l, t ++ rest) := by
  rcases hl with rfl | rfl | rfl
  · cases t with
    | nil => exact absurd rfl hdigits.1
    | cons c t =>
      refine if_neg ?_
      rintro (rfl | rfl)
      · exact absurd (hdigits.2 _ List.mem_cons_self) (by decide)
      · exact absurd (hdigits.2 _ List.mem_cons_self) (by decide)
  · rfl
  · rfl

theorem scanExponent_sound (h : scanExponent text = .ok (l, rest)) :
    text = l ++ rest ∧ IsExponent l := by
  cases text with
  | nil =>
    obtain ⟨rfl, rfl⟩ := Prod.mk.inj (Except.ok.inj h)
    exact ⟨rfl, .inl rfl⟩
  | cons c text =>
    rw [scanExponent] at h
    split at h
    · next hc =>
      have hsign : text = (scanSign text).1 ++ (scanSign text).2 := (scanSign_sound rfl).1
      have hform := (scanSign_sound (Prod.eta (scanSign text)).symm).2
      have hsplit := scanDigits_append (scanSign text).2
      change (if (scanDigits (scanSign text).2).1.isEmpty then _ else _) = _ at h
      split at h
      · cases h
      · next hne =>
        have hl : c :: (scanSign text).1 ++ (scanDigits (scanSign text).2).1 = l :=
          congrArg Prod.fst (Except.ok.inj h)
        have hr : (scanDigits (scanSign text).2).2 = rest := congrArg Prod.snd (Except.ok.inj h)
        rw [List.isEmpty_iff] at hne
        rw [← hl, ← hr]
        refine ⟨?_, .inr ⟨c, _, _, hc, hform, isDigits_scanDigits hne, rfl⟩⟩
        rw [List.cons_append, List.cons_append, List.append_assoc, hsplit, ← hsign]
    · obtain ⟨rfl, rfl⟩ := Prod.mk.inj (Except.ok.inj h)
      exact ⟨rfl, .inl rfl⟩

theorem scanExponent_complete (hl : IsExponent l) (hrest : Ends rest) :
    scanExponent (l ++ rest) = .ok (l, rest) := by
  rcases hl with rfl | ⟨e, sign, digits, he, hsign, hdigits, rfl⟩
  · cases rest with
    | nil => rfl
    | cons c rest =>
      have hnone : ∀ c ∈ delimiters, ¬ (c = chr 'e' ∨ c = chr 'E') := by decide
      exact if_neg (hnone c hrest.head)
  · have hscan := scanDigits_complete hdigits
      (hrest.mono (List.subset_append_right [chr '.', chr 'e', chr 'E'] delimiters))
    rw [List.append_assoc, List.cons_append, scanExponent, if_pos he,
      scanSign_complete hsign hdigits]
    change (if (scanDigits (digits ++ rest)).1.isEmpty then _ else
      Except.ok (e :: sign ++ (scanDigits (digits ++ rest)).1, (scanDigits (digits ++ rest)).2)) = _
    rw [hscan]
    exact if_neg (by rw [List.isEmpty_iff]; exact hdigits.1)

theorem scanNumber_sound (h : scanNumber text = .ok (l, rest)) :
    text = l ++ rest ∧ IsNumber l := by
  obtain ⟨hminus, hsign⟩ := scanMinus_sound (Prod.eta (scanMinus text)).symm
  obtain ⟨⟨integer, text₁⟩, hinteger, h⟩ := bind_eq_ok.mp h
  obtain ⟨⟨fraction, text₂⟩, hfraction, h⟩ := bind_eq_ok.mp h
  obtain ⟨⟨exponent, text₃⟩, hexponent, h⟩ := bind_eq_ok.mp h
  obtain ⟨hi, hi'⟩ := scanInteger_sound hinteger
  obtain ⟨hf, hf'⟩ := scanFraction_sound hfraction
  obtain ⟨hx, hx'⟩ := scanExponent_sound hexponent
  have hl : (scanMinus text).1 ++ integer ++ fraction ++ exponent = l :=
    congrArg Prod.fst (Except.ok.inj h)
  have hr : text₃ = rest := congrArg Prod.snd (Except.ok.inj h)
  refine ⟨?_, _, _, _, _, hsign, hi', hf', hx', hl.symm⟩
  rw [← hl, ← hr, List.append_assoc, List.append_assoc, List.append_assoc, ← hx, ← hf, ← hi]
  exact hminus

theorem ahead_exponent (hl : IsExponent l) (hrest : Ends rest) :
    Ahead afterFraction (l ++ rest) := by
  rcases hl with rfl | ⟨e, sign, digits, he, -, -, rfl⟩
  · exact hrest.mono (List.subset_append_right [chr 'e', chr 'E'] delimiters)
  · refine ahead_cons ?_ _
    rcases he with rfl | rfl <;> decide

theorem ahead_fraction (hl : IsFraction l) (hrest : Ahead afterFraction rest) :
    Ahead afterInteger (l ++ rest) := by
  rcases hl with rfl | ⟨digits, -, rfl⟩
  · exact hrest.mono (List.subset_cons_self (chr '.') afterFraction)
  · exact ahead_cons (by decide) _

theorem IsInteger.cons (hl : IsInteger l) : ∃ c t, l = c :: t ∧ isDigit c = true := by
  rcases hl with rfl | ⟨⟨hne, hall⟩, -⟩
  · exact ⟨_, _, rfl, by decide⟩
  · cases l with
    | nil => exact absurd rfl hne
    | cons c t => exact ⟨c, t, rfl, hall c List.mem_cons_self⟩

theorem scanMinus_complete (hl : l = [] ∨ l = [chr '-']) (ht : IsInteger t) :
    scanMinus (l ++ (t ++ rest)) = (l, t ++ rest) := by
  rcases hl with rfl | rfl
  · obtain ⟨c, t, rfl, hc⟩ := ht.cons
    refine if_neg fun heq => ?_
    rw [heq] at hc
    exact absurd hc (by decide)
  · rfl

theorem scanNumber_complete (hl : IsNumber l) (hrest : Ends rest) :
    scanNumber (l ++ rest) = .ok (l, rest) := by
  obtain ⟨sign, integer, fraction, exponent, hsign, hi, hf, hx, rfl⟩ := hl
  have hafter := ahead_exponent hx hrest
  have hminus : scanMinus (sign ++ (integer ++ (fraction ++ (exponent ++ rest)))) =
      (sign, integer ++ (fraction ++ (exponent ++ rest))) := scanMinus_complete hsign hi
  rw [List.append_assoc, List.append_assoc, List.append_assoc, scanNumber, hminus]
  refine bind_eq_ok.mpr ⟨_, scanInteger_complete hi (ahead_fraction hf hafter), ?_⟩
  refine bind_eq_ok.mpr ⟨_, scanFraction_complete hf hafter, ?_⟩
  exact bind_eq_ok.mpr ⟨_, scanExponent_complete hx hrest, rfl⟩

/-! ### Escapes -/

theorem hexDigit_lt {hex : Byte} {v : ℕ} (h : hexDigit hex = some v) : v < 16 := by
  have hall : ∀ hex : Byte, ∀ v ∈ hexDigit hex, v < 16 := by decide
  exact hall hex v h

theorem shift_or_digit {code d : ℕ} (hd : d < 16) : code <<< 4 ||| d = code * 16 + d := by
  rw [← Nat.shiftLeft_add_eq_or_of_lt (b := d) (i := 4) hd, Nat.shiftLeft_eq]

theorem parseHexDigits_cons {n code : ℕ} {hex : Byte} {p : ℕ × Bytes} :
    parseHexDigits (n + 1) code (hex :: text) = .ok p ↔
      ∃ d, hexDigit hex = some d ∧ parseHexDigits n (code * 16 + d) text = .ok p := by
  rw [parseHexDigits]
  cases hd : hexDigit hex with
  | none =>
    refine ⟨fun h => ?_, fun ⟨_, h, _⟩ => ?_⟩
    · cases h
    · cases h
  | some d =>
    change parseHexDigits n (code <<< 4 ||| d) text = _ ↔ _
    rw [shift_or_digit (hexDigit_lt hd)]
    refine ⟨fun h => ⟨d, rfl, h⟩, fun ⟨d', hd', h⟩ => ?_⟩
    rwa [Option.some.inj hd']

theorem parseHexQuad_ok {code : ℕ} :
    parseHexQuad text = .ok (code, rest) ↔ ∃ q, text = q ++ rest ∧ HexQuad q code := by
  constructor
  · intro h
    rw [parseHexQuad] at h
    split at h
    · cases h
    · next hlen =>
      obtain ⟨a, b, c, d, text, rfl⟩ : ∃ a b c d tail, text = a :: b :: c :: d :: tail := by
        match text, hlen with
        | a :: b :: c :: d :: tail, _ => exact ⟨a, b, c, d, tail, rfl⟩
        | [], hlen | [_], hlen | [_, _], hlen | [_, _, _], hlen => simp at hlen
      obtain ⟨i, ha, h⟩ := parseHexDigits_cons.mp h
      obtain ⟨j, hb, h⟩ := parseHexDigits_cons.mp h
      obtain ⟨k, hc, h⟩ := parseHexDigits_cons.mp h
      obtain ⟨l, hd, h⟩ := parseHexDigits_cons.mp h
      obtain ⟨rfl, rfl⟩ := Prod.mk.inj (Except.ok.inj h)
      rw [Nat.zero_mul, Nat.zero_add]
      exact ⟨[a, b, c, d], rfl, .mk ha hb hc hd⟩
  · rintro ⟨q, rfl, ha, hb, hc, hd⟩
    refine (if_neg (by simp)).trans ?_
    refine parseHexDigits_cons.mpr ⟨_, ha, ?_⟩
    refine parseHexDigits_cons.mpr ⟨_, hb, ?_⟩
    refine parseHexDigits_cons.mpr ⟨_, hc, ?_⟩
    refine parseHexDigits_cons.mpr ⟨_, hd, ?_⟩
    rw [Nat.zero_mul, Nat.zero_add]
    rfl

theorem take_two_eq (h : text.take 2 = word ['\\', 'u']) :
    text = word ['\\', 'u'] ++ text.drop 2 := by
  rw [← h, List.take_append_drop]

theorem parseUnicode_ok {code : ℕ} :
    parseUnicode text = .ok (code, rest) ↔ ∃ q, text = q ++ rest ∧ IsUnicode q code := by
  constructor
  · intro hrun
    obtain ⟨⟨high, text₁⟩, hquad, h⟩ := bind_eq_ok.mp hrun
    obtain ⟨q, rfl, hq⟩ := parseHexQuad_ok.mp hquad
    change (if 0xD800 ≤ high ∧ high ≤ 0xDBFF then _ else _) = _ at h
    split at h
    · next hhigh =>
      split at h
      · cases h
      · next htake =>
        obtain ⟨⟨low, text₂⟩, hquad', h⟩ := bind_eq_ok.mp h
        obtain ⟨q', hq', hlow⟩ := parseHexQuad_ok.mp hquad'
        change (if low < 0xDC00 ∨ 0xDFFF < low then _ else _) = _ at h
        split at h
        · cases h
        · next hrange =>
          obtain ⟨rfl, rfl⟩ := Prod.mk.inj (Except.ok.inj h)
          rw [Nat.shiftLeft_eq, show 2 ^ 10 = 0x400 from rfl]
          refine ⟨_, ?_, .pair hq hlow hhigh (by omega)⟩
          rw [take_two_eq (not_not.mp htake), hq', List.append_assoc, List.append_assoc]
    · next hhigh =>
      split at h
      · cases h
      · next hlow =>
        obtain ⟨rfl, rfl⟩ := Prod.mk.inj (Except.ok.inj h)
        exact ⟨q, rfl, .single hq (by omega)⟩
  · rintro ⟨t, rfl, hcode⟩
    cases hcode with
    | single hq hnot =>
      refine bind_eq_ok.mpr ⟨_, parseHexQuad_ok.mpr ⟨_, rfl, hq⟩, ?_⟩
      refine (if_neg (by omega)).trans ((if_neg (by omega)).trans rfl)
    | pair hq hq' hhigh hlow =>
      refine bind_eq_ok.mpr ⟨_, parseHexQuad_ok.mpr ⟨_, List.append_assoc _ _ _, hq⟩, ?_⟩
      refine (if_pos hhigh).trans ((if_neg (not_not.mpr rfl)).trans ?_)
      refine bind_eq_ok.mpr ⟨_, parseHexQuad_ok.mpr ⟨_, rfl, hq'⟩, ?_⟩
      refine (if_neg (by omega)).trans ?_
      rw [Nat.shiftLeft_eq, show 2 ^ 10 = 0x400 from rfl]
      rfl

theorem simpleEscape_eq {e c : Byte} : simpleEscape e = some c ↔ (e, c) ∈ escapes := by
  constructor
  · have hall : ∀ e : Byte, (simpleEscape e).all (fun c => (e, c) ∈ escapes) = true := by
      decide
    intro h
    have he := hall e
    rw [h] at he
    exact of_decide_eq_true he
  · have hall : (escapes.all fun p => simpleEscape p.1 == some p.2) = true := by decide
    exact fun h => beq_iff_eq.mp (List.all_eq_true.mp hall (e, c) h)

theorem parseEscape_ok : parseEscape text = .ok (s, rest) ↔ ∃ e, text = e ++ rest ∧ IsEscape e s := by
  constructor
  · intro hrun
    cases text with
    | nil => cases hrun
    | cons e text =>
      rw [parseEscape] at hrun
      split at hrun
      · next he =>
        obtain ⟨⟨code, text₁⟩, hcode, h⟩ := bind_eq_ok.mp hrun
        obtain ⟨q, rfl, hq⟩ := parseUnicode_ok.mp hcode
        obtain ⟨rfl, rfl⟩ := Prod.mk.inj (Except.ok.inj h)
        rw [he]
        exact ⟨_, rfl, .unicode hq⟩
      · cases hc : simpleEscape e with
        | none =>
          rw [hc] at hrun
          cases hrun
        | some c =>
          rw [hc] at hrun
          obtain ⟨rfl, rfl⟩ := Prod.mk.inj (Except.ok.inj hrun)
          exact ⟨[e], rfl, .simple (simpleEscape_eq.mp hc)⟩
  · rintro ⟨t, rfl, ht⟩
    cases ht with
    | simple he =>
      have hne : (escapes.all fun p => p.1 != chr 'u') = true := by decide
      refine (if_neg (bne_iff_ne.mp (List.all_eq_true.mp hne _ he))).trans ?_
      rw [simpleEscape_eq.mpr he]
      rfl
    | unicode hq =>
      rw [List.cons_append, parseEscape, if_pos rfl]
      exact bind_eq_ok.mpr ⟨_, parseUnicode_ok.mpr ⟨_, rfl, hq⟩, rfl⟩

/-! ### Strings -/

theorem parseCharacters_sound {fuel : ℕ} (h : parseCharacters fuel text = .ok (s, rest)) :
    ∃ t, text = t ++ chr '"' :: rest ∧ Characters t s := by
  induction fuel generalizing text s with
  | zero => cases h
  | succ fuel ih =>
    cases text with
    | nil => cases h
    | cons c text =>
      rw [parseCharacters] at h
      split at h
      · next hc =>
        obtain ⟨rfl, rfl⟩ := Prod.mk.inj (Except.ok.inj h)
        exact ⟨[], congrArg (· :: text) hc, .nil⟩
      · next hquote =>
        split at h
        · cases h
        · next hcontrol =>
          split at h
          · next hc =>
            obtain ⟨⟨bytes, text₁⟩, hescape, h⟩ := bind_eq_ok.mp h
            obtain ⟨⟨more, text₂⟩, hmore, h⟩ := bind_eq_ok.mp h
            obtain ⟨rfl, rfl⟩ := Prod.mk.inj (Except.ok.inj h)
            obtain ⟨e, rfl, he⟩ := parseEscape_ok.mp hescape
            obtain ⟨t, rfl, ht⟩ := ih hmore
            rw [hc, ← List.append_assoc]
            exact ⟨_, rfl, .escape he ht⟩
          · next hc =>
            obtain ⟨⟨more, text₁⟩, hmore, h⟩ := bind_eq_ok.mp h
            obtain ⟨rfl, rfl⟩ := Prod.mk.inj (Except.ok.inj h)
            obtain ⟨t, rfl, ht⟩ := ih hmore
            exact ⟨_, rfl, .plain (BitVec.not_lt.mp hcontrol) hquote hc ht⟩

theorem parseCharacters_complete (h : Characters t s) {fuel : ℕ} (hfuel : t.length < fuel) :
    parseCharacters fuel (t ++ chr '"' :: rest) = .ok (s, rest) := by
  induction h generalizing fuel with
  | nil =>
    obtain ⟨fuel, rfl⟩ := Nat.exists_eq_succ_of_ne_zero (Nat.ne_zero_of_lt hfuel)
    rfl
  | plain hcontrol hquote hslash _ ih =>
    obtain ⟨fuel, rfl⟩ := Nat.exists_eq_succ_of_ne_zero (Nat.ne_zero_of_lt hfuel)
    refine (if_neg hquote).trans ((if_neg (BitVec.not_lt.mpr hcontrol)).trans ?_)
    refine (if_neg hslash).trans (bind_eq_ok.mpr ⟨_, ih (Nat.lt_of_succ_lt_succ hfuel), rfl⟩)
  | @escape e b t s he _ ih =>
    obtain ⟨fuel, rfl⟩ := Nat.exists_eq_succ_of_ne_zero (Nat.ne_zero_of_lt hfuel)
    rw [List.length_cons, List.length_append] at hfuel
    rw [List.cons_append, List.append_assoc]
    refine (if_neg (by decide)).trans ((if_neg (by decide)).trans ((if_pos rfl).trans ?_))
    refine bind_eq_ok.mpr ⟨_, parseEscape_ok.mpr ⟨_, rfl, he⟩, ?_⟩
    exact bind_eq_ok.mpr ⟨_, ih (by omega), rfl⟩

/-- **A string is read exactly when it is one.** -/
theorem parseString_ok : parseString text = .ok (s, rest) ↔ ∃ t, text = t ++ rest ∧ IsString t s := by
  constructor
  · intro h
    rw [parseString] at h
    cases hc : consume (chr '"') text with
    | none =>
      rw [hc] at h
      cases h
    | some text₁ =>
      rw [hc] at h
      obtain ⟨t, rfl, ht⟩ := parseCharacters_sound h
      refine ⟨_, ?_, .mk ht⟩
      rw [consume_eq_some hc, List.cons_append, List.append_assoc]
      rfl
  · rintro ⟨t, rfl, ⟨ht⟩⟩
    rw [List.cons_append, List.append_assoc, List.singleton_append, parseString, consume_self]
    refine parseCharacters_complete ht ?_
    rw [List.length_append]
    omega

end Json
end Core
end XenonRecomp
