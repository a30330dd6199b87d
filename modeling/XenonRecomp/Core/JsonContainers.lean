/-
# What the parser reads of arrays and objects

The loop of `parse_array` and `parse_object` reads items with commas between them, and
nothing else, for every item that its parser recognises; a member is such an item, and so
is, level after level, a value.
-/

import XenonRecomp.Core.JsonScans

namespace XenonRecomp
namespace Core
namespace Json

open Library Library.Loop

variable {α β : Type} {text rest t : Bytes} {c : Byte}

theorem white_delimiter (h : isWhite c = true) : c ∈ delimiters := by
  have hall : ∀ c : Byte, isWhite c = true → c ∈ delimiters := by decide
  exact hall c h

/-- An item behind white space is what is left when that is skipped. -/
theorem skipWs_item {v : Bytes} (hv : White v) (hc : c ∉ delimiters) (text : Bytes) :
    skipWs (v ++ c :: text) = c :: text := by
  refine skipWs_append hv fun d hd => ?_
  rw [← Option.some.inj hd]
  exact Bool.eq_false_iff.mpr fun hwhite => hc (white_delimiter hwhite)

theorem skipWs_stop {w : Bytes} (hw : White w) (hc : isWhite c = false) (text : Bytes) :
    skipWs (w ++ c :: text) = c :: text := by
  refine skipWs_append hw fun d hd => ?_
  rw [← Option.some.inj hd]
  exact hc

theorem ends_white {w : Bytes} (hw : White w) (hc : c ∈ delimiters) (text : Bytes) :
    Ends (w ++ c :: text) := by
  cases w with
  | nil => exact ahead_cons hc text
  | cons d w => exact ahead_cons (white_delimiter (hw d List.mem_cons_self)) _

/-- A language whose items the parser reads. -/
abbrev Reads (p : Parser α) (R : Bytes → α → Prop) : Prop := Recognises isWhite delimiters p R

/-! ### The loop -/

section

variable {item : Parser α} {R : Bytes → α → Prop} {add : β → α → Option β} {close : Byte}
  {expected : String} {container b : β} {xs : List α}

/-- One round of the loop: an item, and the rest behind a comma or the closing bracket. -/
theorem parseSeparated_succ (hclose : close ≠ chr ',') {fuel : ℕ} {p : β × Bytes} :
    parseSeparated item add close expected (fuel + 1) container text = .ok p ↔
      ∃ entry text₁ container', item (skipWs text) = .ok (entry, text₁) ∧
        add container entry = some container' ∧
        ((∃ text₂, skipWs text₁ = chr ',' :: text₂ ∧
            parseSeparated item add close expected fuel container' text₂ = .ok p) ∨
          ∃ text₂, skipWs text₁ = close :: text₂ ∧ p = (container', text₂)) := by
  constructor
  · intro h
    obtain ⟨⟨entry, text₁⟩, hitem, h⟩ := bind_eq_ok.mp h
    dsimp only at h
    cases hadd : add container entry with
    | none =>
      rw [hadd] at h
      cases h
    | some container' =>
      rw [hadd] at h
      dsimp only at h
      refine ⟨entry, text₁, container', hitem, hadd, ?_⟩
      cases hcomma : consume (chr ',') (skipWs text₁) with
      | some text₂ =>
        rw [hcomma] at h
        exact .inl ⟨text₂, consume_eq_some hcomma, h⟩
      | none =>
        rw [hcomma] at h
        dsimp only at h
        cases hend : consume close (skipWs text₁) with
        | none =>
          rw [hend] at h
          cases h
        | some text₂ =>
          rw [hend] at h
          exact .inr ⟨text₂, consume_eq_some hend, (Except.ok.inj h).symm⟩
  · rintro ⟨entry, text₁, container', hitem, hadd, hrest⟩
    refine bind_eq_ok.mpr ⟨_, hitem, ?_⟩
    dsimp only
    rw [hadd]
    dsimp only
    rcases hrest with ⟨text₂, hskip, h⟩ | ⟨text₂, hskip, rfl⟩
    · rw [hskip, consume_self]
      exact h
    · rw [hskip, consume_of_ne hclose]
      dsimp only
      rw [consume_self]
      rfl

/-- What is read behind an item has it behind white space. -/
theorem padded_of_read (hitem : Reads item R) {entry : α} {text₁ : Bytes}
    (h : item (skipWs text) = .ok (entry, text₁)) :
    ∃ u, text = u ++ skipWs text₁ ∧ Padded isWhite R u entry := by
  obtain ⟨v, hv, htext⟩ := skipWs_spec text
  obtain ⟨v', t, hv', hskip, hR⟩ := hitem.sound h
  obtain ⟨w, hw, htext₁⟩ := skipWs_spec text₁
  refine ⟨(v ++ v') ++ (t ++ w), ?_, .mk (fun c hc => ?_) hR hw⟩
  · rw [htext, hskip]
    nth_rewrite 1 [htext₁]
    simp only [List.append_assoc]
  · exact (List.mem_append.mp hc).elim (hv c) (hv' c)

theorem parseSeparated_sound (hitem : Reads item R) (hclose : close ≠ chr ',') {fuel : ℕ}
    (h : parseSeparated item add close expected fuel container text = .ok (b, rest)) :
    ∃ u xs, text = u ++ close :: rest ∧ SepBy (chr ',') (Padded isWhite R) u xs ∧
      xs.foldlM add container = some b := by
  induction fuel generalizing container text with
  | zero => cases h
  | succ fuel ih =>
    obtain ⟨entry, text₁, container', hread, hadd, hrest⟩ := (parseSeparated_succ hclose).mp h
    obtain ⟨u, rfl, hu⟩ := padded_of_read hitem hread
    rcases hrest with ⟨text₂, hskip, h⟩ | ⟨text₂, hskip, hp⟩
    · obtain ⟨u', xs, rfl, hxs, hfold⟩ := ih h
      refine ⟨u ++ chr ',' :: u', entry :: xs, ?_, .cons hu hxs, ?_⟩
      · rw [hskip, List.append_assoc, List.cons_append]
      · rw [List.foldlM_cons, hadd]
        exact hfold
    · obtain ⟨rfl, rfl⟩ := Prod.mk.inj hp
      refine ⟨u, [entry], congrArg _ hskip, .last hu, ?_⟩
      rw [List.foldlM_cons, hadd]
      rfl

/-- An item in white space is read up to what follows the white space. -/
theorem read_padded (hitem : Reads item R) {u : Bytes} {entry : α}
    (h : Padded isWhite R u entry) (hc : c ∈ delimiters) (hwhite : isWhite c = false)
    (text : Bytes) : ∃ text₁, item (skipWs (u ++ c :: text)) = .ok (entry, text₁) ∧
      skipWs text₁ = c :: text := by
  obtain ⟨hv, hR, hw⟩ := h
  obtain ⟨d, t, rfl, hd⟩ := hitem.starts hR
  refine ⟨_, ?_, skipWs_stop hw hwhite text⟩
  rw [List.append_assoc, List.append_assoc, List.cons_append, skipWs_item hv hd,
    ← List.cons_append]
  exact hitem.complete hR (ends_white hw hc text)

theorem parseSeparated_complete (hitem : Reads item R) (hclose : close ≠ chr ',')
    (hmem : close ∈ delimiters) (hwhite : isWhite close = false) {u : Bytes}
    (h : SepBy (chr ',') (Padded isWhite R) u xs) (hfold : xs.foldlM add container = some b)
    {fuel : ℕ} (hfuel : xs.length ≤ fuel) :
    parseSeparated item add close expected fuel container (u ++ close :: rest) =
      .ok (b, rest) := by
  induction h generalizing container fuel with
  | @last t a hR =>
    obtain ⟨fuel, rfl⟩ := Nat.exists_eq_succ_of_ne_zero (Nat.ne_zero_of_lt hfuel)
    obtain ⟨text₁, hread, hskip⟩ := read_padded hitem hR hmem hwhite rest
    rw [List.foldlM_cons] at hfold
    obtain ⟨container', hadd, hb⟩ := Option.bind_eq_some_iff.mp hfold
    refine (parseSeparated_succ hclose).mpr
      ⟨a, text₁, container', hread, hadd, .inr ⟨rest, hskip, ?_⟩⟩
    rw [Option.some.inj hb]
  | @cons t u a as hR _ ih =>
    obtain ⟨fuel, rfl⟩ := Nat.exists_eq_succ_of_ne_zero (Nat.ne_zero_of_lt hfuel)
    have hcomma : chr ',' ∈ delimiters ∧ isWhite (chr ',') = false := by decide
    obtain ⟨text₁, hread, hskip⟩ :=
      read_padded hitem hR hcomma.1 hcomma.2 (u ++ close :: rest)
    rw [List.foldlM_cons] at hfold
    obtain ⟨container', hadd, hb⟩ := Option.bind_eq_some_iff.mp hfold
    rw [List.append_assoc]
    exact (parseSeparated_succ hclose).mpr ⟨a, text₁, container', hread, hadd,
      .inl ⟨_, hskip, ih hb (Nat.le_of_succ_le_succ hfuel)⟩⟩

theorem parseSeparated_skipWs {fuel : ℕ} :
    parseSeparated item add close expected fuel container (skipWs text) =
      parseSeparated item add close expected fuel container text := by
  cases fuel with
  | zero => rfl
  | succ fuel => rw [parseSeparated, parseSeparated, skipWs_skipWs]

/-! ### The brackets -/

/-- Items in brackets. -/
def Bracketed (R : Bytes → α → Prop) (opening close : Byte) (t : Bytes) (xs : List α) : Prop :=
  ∃ u, t = opening :: (u ++ [close]) ∧
    (xs = [] ∧ White u ∨ SepBy (chr ',') (Padded isWhite R) u xs)

/-- **An array or an object is read exactly when it is items in brackets** which can be
added one after another. -/
theorem parseContainer_ok (hitem : Reads item R) {opening : Byte} (hclose : close ≠ chr ',')
    (hmem : close ∈ delimiters) (hwhite : isWhite close = false) :
    parseContainer item add opening close expected container text = .ok (b, rest) ↔
      ∃ t xs, text = t ++ rest ∧ Bracketed R opening close t xs ∧
        xs.foldlM add container = some b := by
  constructor
  · intro h
    rw [parseContainer] at h
    cases hopen : consume opening text with
    | none =>
      rw [hopen] at h
      cases h
    | some text₁ =>
      rw [hopen] at h
      rw [consume_eq_some hopen]
      dsimp only at h
      obtain ⟨w, hw, htext₁⟩ := skipWs_spec text₁
      cases hend : consume close (skipWs text₁) with
      | some text₂ =>
        rw [hend] at h
        obtain ⟨rfl, rfl⟩ := Prod.mk.inj (Except.ok.inj h)
        refine ⟨_, [], ?_, ⟨w, rfl, .inl ⟨rfl, hw⟩⟩, rfl⟩
        rw [htext₁, consume_eq_some hend, List.cons_append, List.append_assoc]
        rfl
      | none =>
        rw [hend] at h
        obtain ⟨u, xs, rfl, hxs, hfold⟩ :=
          parseSeparated_sound hitem hclose (parseSeparated_skipWs.symm.trans h)
        refine ⟨_, xs, ?_, ⟨u, rfl, .inr hxs⟩, hfold⟩
        rw [List.cons_append, List.append_assoc]
        rfl
  · rintro ⟨t, xs, rfl, ⟨u, rfl, hu⟩, hfold⟩
    rw [List.cons_append, List.append_assoc, List.singleton_append, parseContainer, consume_self]
    dsimp only
    rcases hu with ⟨rfl, hw⟩ | hxs
    · rw [skipWs_stop hw hwhite, consume_self, ← Option.some.inj hfold]
    · obtain ⟨v, u, rfl, hv, hxs, t, a, u', hR, rfl⟩ := hxs.strip
      obtain ⟨c, t, rfl, hc⟩ := hitem.starts hR
      have hne : c ≠ close := fun heq => hc (heq ▸ hmem)
      have hlen := hxs.length_le
      have hskip : skipWs (v ++ (c :: t ++ u') ++ close :: rest) =
          c :: t ++ u' ++ close :: rest := by
        rw [List.append_assoc, List.append_assoc, List.cons_append]
        exact skipWs_item hv hc _
      have hnone : consume close (c :: t ++ u' ++ close :: rest) = none := consume_of_ne hne _
      rw [hskip, hnone]
      refine parseSeparated_complete hitem hclose hmem hwhite hxs hfold ?_
      rw [List.length_append, List.length_cons]
      omega

end

end Json
end Core
end XenonRecomp
