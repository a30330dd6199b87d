/-
# Keys that differ

`emplace` fails exactly where the key is there already, as long as the keys are in order,
which it keeps.  From that follows when a text of the grammar has a value: when no object
has a key twice and every number is one.
-/

import XenonRecomp.Core.JsonGrammar

namespace XenonRecomp
namespace Core
namespace Json

variable {α : Type} {object : List (Bytes × α)} {entry : Bytes × α}

/-- The keys of an object. -/
abbrev keys (object : List (Bytes × α)) : List Bytes := object.map Prod.fst

/-- The members are in the order of their keys. -/
abbrev SortedKeys (object : List (Bytes × α)) : Prop := (keys object).Pairwise (· < ·)

theorem keys_cons (entry : Bytes × α) (object : List (Bytes × α)) :
    keys (entry :: object) = entry.1 :: keys object := rfl

theorem emplace_of_mem (hsorted : SortedKeys object) (hmem : entry.1 ∈ keys object) :
    emplace object entry = none := by
  induction object with
  | nil => exact absurd hmem List.not_mem_nil
  | cons first object ih =>
    obtain ⟨hfirst, hsorted⟩ := List.pairwise_cons.mp hsorted
    rw [emplace]
    by_cases heq : entry.1 = first.1
    · rw [if_pos heq]
    · have hrest : entry.1 ∈ keys object := (List.mem_cons.mp hmem).resolve_left heq
      rw [if_neg heq, if_neg (List.lt_asymm (hfirst _ hrest)), ih hsorted hrest]
      rfl

/-- A new key is added in its place. -/
theorem emplace_of_notMem (hsorted : SortedKeys object) (hmem : entry.1 ∉ keys object) :
    ∃ object', emplace object entry = some object' ∧ SortedKeys object' ∧
      ∀ key, key ∈ keys object' ↔ key = entry.1 ∨ key ∈ keys object := by
  induction object with
  | nil => exact ⟨[entry], rfl, List.pairwise_singleton _ _, fun key => List.mem_cons⟩
  | cons first object ih =>
    obtain ⟨hfirst, hrest⟩ := List.pairwise_cons.mp hsorted
    rw [keys_cons, List.mem_cons, not_or] at hmem
    obtain ⟨hne, hnot⟩ := hmem
    rw [emplace, if_neg hne]
    by_cases hlt : entry.1 < first.1
    · rw [if_pos hlt]
      refine ⟨_, rfl, List.pairwise_cons.mpr ⟨fun key hkey => ?_, hsorted⟩, fun key => ?_⟩
      · rcases List.mem_cons.mp hkey with rfl | hkey
        · exact hlt
        · exact List.lt_trans hlt (hfirst key hkey)
      · exact List.mem_cons
    · have hgt : first.1 < entry.1 := by
        by_contra hnlt
        exact hne (Std.Trichotomous.trichotomous _ _ hlt hnlt)
      obtain ⟨object', hobject, hsorted', hkeys⟩ := ih hrest hnot
      rw [if_neg hlt, hobject]
      refine ⟨_, rfl, List.pairwise_cons.mpr ⟨fun key hkey => ?_, hsorted'⟩, fun key => ?_⟩
      · rcases (hkeys key).mp hkey with rfl | hkey
        · exact hgt
        · exact hfirst key hkey
      · rw [keys_cons, keys_cons, List.mem_cons, List.mem_cons, hkeys]
        exact or_left_comm

/-- **All members can be added exactly when their keys differ**, from each other and from
those that are there. -/
theorem foldlM_emplace_iff {xs : List (Bytes × α)} (hsorted : SortedKeys object) :
    (∃ object', xs.foldlM emplace object = some object') ↔
      (keys xs).Nodup ∧ ∀ key ∈ keys xs, key ∉ keys object := by
  induction xs generalizing object with
  | nil => exact ⟨fun _ => ⟨List.nodup_nil, fun _ h => absurd h List.not_mem_nil⟩, fun _ => ⟨_, rfl⟩⟩
  | cons entry xs ih =>
    rw [List.foldlM_cons, keys_cons, List.nodup_cons, List.forall_mem_cons]
    by_cases hmem : entry.1 ∈ keys object
    · rw [emplace_of_mem hsorted hmem]
      refine ⟨fun ⟨_, h⟩ => ?_, fun h => absurd hmem h.2.1⟩
      cases h
    · obtain ⟨object', hobject, hsorted', hkeys⟩ := emplace_of_notMem hsorted hmem
      rw [hobject]
      refine (ih hsorted').trans ?_
      constructor
      · rintro ⟨hnodup, hall⟩
        refine ⟨⟨fun h => hall _ h ((hkeys _).mpr (.inl rfl)), hnodup⟩, hmem, fun key hkey h => ?_⟩
        exact hall key hkey ((hkeys key).mpr (.inr h))
      · rintro ⟨⟨hnew, hnodup⟩, -, hall⟩
        refine ⟨hnodup, fun key hkey h => ?_⟩
        rcases (hkeys key).mp h with rfl | h
        · exact hnew hkey
        · exact hall key hkey h

/-- A member behind all others is added at the end. -/
theorem emplace_last (h : ∀ key ∈ keys object, key < entry.1) :
    emplace object entry = some (object ++ [entry]) := by
  induction object with
  | nil => rfl
  | cons first object ih =>
    obtain ⟨hfirst, hrest⟩ := List.forall_mem_cons.mp h
    have hne : entry.1 ≠ first.1 := fun heq => List.lt_irrefl first.1 (heq ▸ hfirst)
    rw [emplace, if_neg hne, if_neg (List.lt_asymm hfirst), ih hrest]
    rfl

/-- Members in order make an object of themselves. -/
theorem foldlM_emplace_sorted {xs : List (Bytes × α)} (h : SortedKeys (object ++ xs)) :
    xs.foldlM emplace object = some (object ++ xs) := by
  induction xs generalizing object with
  | nil =>
    rw [List.append_nil]
    rfl
  | cons entry xs ih =>
    have hlast : ∀ key ∈ keys object, key < entry.1 := by
      intro key hkey
      rw [SortedKeys, keys, List.map_append, List.pairwise_append] at h
      exact h.2.2 key hkey entry.1 List.mem_cons_self
    rw [List.append_cons] at h ⊢
    rw [List.foldlM_cons, emplace_last hlast]
    exact ih h

/-! ### Texts with a value -/

section

variable {D : Type} (doubles : Doubles D)

/-- `std::stod` takes the characters of a number, all of them, as a finite value. -/
def Accepted (token : Bytes) : Prop :=
  ∃ value, doubles.stod token = some (value, token.length) ∧ doubles.isfinite value = true

theorem acceptNumber_iff {token : Bytes} :
    (∃ value, acceptNumber doubles token = some value) ↔ Accepted doubles token := by
  rw [Accepted, acceptNumber]
  cases hstod : doubles.stod token with
  | none => simp
  | some p =>
    obtain ⟨value, consumed⟩ := p
    simp only [ne_eq, Bool.not_eq_true', Option.some.injEq, Prod.mk.injEq]
    by_cases h : ¬ consumed = token.length ∨ doubles.isfinite value = false
    · rw [if_pos h]
      refine ⟨fun ⟨_, h⟩ => ?_, fun ⟨value', ⟨hvalue, hlen⟩, hfinite⟩ => ?_⟩
      · cases h
      · rw [hvalue, hfinite] at h
        exact absurd (h.resolve_right Bool.noConfusion) (not_not.mpr hlen)
    · rw [if_neg h]
      rw [not_or, not_not, Bool.not_eq_false] at h
      exact ⟨fun _ => ⟨value, ⟨rfl, h.1⟩, h.2⟩, fun _ => ⟨value, rfl⟩⟩

theorem evaluate_number (token : Bytes) :
    (∃ value, evaluate doubles (.number token) = some value) ↔
      True ∧ Accepted doubles token := by
  rw [evaluate, true_and, ← acceptNumber_iff]
  cases acceptNumber doubles token <;> simp

theorem keys_of_evaluateMembers {members : List (Bytes × JsonValue Bytes)}
    {values : List (Bytes × JsonValue D)} (h : evaluateMembers doubles members = some values) :
    keys values = keys members := by
  induction members generalizing values with
  | nil => rw [← Option.some.inj h]; rfl
  | cons member members ih =>
    obtain ⟨key, value⟩ := member
    rw [evaluateMembers] at h
    cases hvalue : evaluate doubles value with
    | none =>
      rw [hvalue] at h
      cases h
    | some value' =>
      cases hmembers : evaluateMembers doubles members with
      | none =>
        rw [hvalue, hmembers] at h
        cases h
      | some values' =>
        rw [hvalue, hmembers] at h
        rw [← Option.some.inj h, keys_cons, keys_cons, ih hmembers]

mutual

/-- **A text of the grammar has a value exactly when** no object has a key twice and every
number is accepted. -/
theorem evaluate_iff : (tree : JsonValue Bytes) → ((∃ value, evaluate doubles tree = some value) ↔
    tree.DistinctKeys ∧ tree.Numbers (Accepted doubles))
  | .null => ⟨fun _ => ⟨trivial, trivial⟩, fun _ => ⟨_, rfl⟩⟩
  | .bool _ => ⟨fun _ => ⟨trivial, trivial⟩, fun _ => ⟨_, rfl⟩⟩
  | .string _ => ⟨fun _ => ⟨trivial, trivial⟩, fun _ => ⟨_, rfl⟩⟩
  | .number token => evaluate_number doubles token
  | .array elements => by
    rw [JsonValue.DistinctKeys, JsonValue.Numbers, ← evaluateElements_iff elements, evaluate]
    cases evaluateElements doubles elements <;> simp
  | .object members => by
    rw [JsonValue.DistinctKeys, JsonValue.Numbers, and_assoc, ← evaluateMembers_iff members,
      evaluate]
    cases hmembers : evaluateMembers doubles members with
    | none => simp
    | some values =>
      have hfold : (∃ object, values.foldlM emplace [] = some object) ↔
          (members.map Prod.fst).Nodup := by
        rw [foldlM_emplace_iff List.Pairwise.nil, keys_of_evaluateMembers doubles hmembers]
        exact and_iff_left fun _ _ h => absurd h List.not_mem_nil
      rw [← hfold]
      constructor
      · rintro ⟨value, h⟩
        obtain ⟨object, hobject, -⟩ := Option.map_eq_some_iff.mp h
        exact ⟨⟨object, hobject⟩, values, rfl⟩
      · rintro ⟨⟨object, hobject⟩, -⟩
        exact ⟨.object object, congrArg (Option.map JsonValue.object) hobject⟩

theorem evaluateElements_iff : (elements : List (JsonValue Bytes)) →
    ((∃ values, evaluateElements doubles elements = some values) ↔
      elementsDistinct elements ∧ elementsNumbers (Accepted doubles) elements)
  | [] => ⟨fun _ => ⟨trivial, trivial⟩, fun _ => ⟨_, rfl⟩⟩
  | element :: elements => by
    rw [elementsDistinct, elementsNumbers, and_and_and_comm, ← evaluate_iff element,
      ← evaluateElements_iff elements, evaluateElements]
    cases evaluate doubles element <;> cases evaluateElements doubles elements <;> simp

theorem evaluateMembers_iff : (members : List (Bytes × JsonValue Bytes)) →
    ((∃ values, evaluateMembers doubles members = some values) ↔
      membersDistinct members ∧ membersNumbers (Accepted doubles) members)
  | [] => ⟨fun _ => ⟨trivial, trivial⟩, fun _ => ⟨_, rfl⟩⟩
  | (key, value) :: members => by
    rw [membersDistinct, membersNumbers, and_and_and_comm, ← evaluate_iff value,
      ← evaluateMembers_iff members, evaluateMembers]
    cases evaluate doubles value <;> cases evaluateMembers doubles members <;> simp

end

end

end Json
end Core
end XenonRecomp
