/-
# Wildcards in directory queries

`guest_wildcard_match` of path.cpp.  A query has the wildcards `*` and `?`, and
three more that expressions are translated to: `<` (a star up to the last dot),
`>` (a character before a dot) and `"` (a dot or the end).  The source tries the
ways to split a name along a pattern in a recursion on positions with a table of
the answers; `Matches` says what a way to split is, with one rule for each
wildcard, and the recursion decides it.
-/

import XenonRecomp.Library.Memoised
import XenonRecomp.Filesystem.PathNormalization

namespace XenonRecomp
namespace Filesystem

open Library.Memoised

/-- The characters that do not stand for themselves. -/
def isWildcard (token : Char) : Prop :=
  token = '*' ∨ token = '?' ∨ token = '<' ∨ token = '>' ∨ token = '"'

/-- A name can be split along a pattern. -/
inductive Matches : PathText → PathText → Prop
  | done : Matches [] []
  | star {pattern rest} (taken : PathText) :
      Matches pattern rest → Matches ('*' :: pattern) (taken ++ rest)
  | question {pattern rest} (c : Char) :
      Matches pattern rest → Matches ('?' :: pattern) (c :: rest)
  | dosStar {pattern rest} (taken : PathText) :
      ('.' ∈ taken ++ rest → '.' ∈ rest) →
      Matches pattern rest → Matches ('<' :: pattern) (taken ++ rest)
  | dosQm {pattern rest} (c : Char) :
      c ≠ '.' → Matches pattern rest → Matches ('>' :: pattern) (c :: rest)
  | dosQmRun {pattern rest} :
      rest = [] ∨ rest.head? = some '.' →
      Matches (pattern.dropWhile (· = '>')) rest → Matches ('>' :: pattern) rest
  | dosDot {pattern rest} :
      Matches pattern rest → Matches ('"' :: pattern) ('.' :: rest)
  | dosDotEnd {pattern} :
      Matches pattern [] → Matches ('"' :: pattern) []
  | char {pattern rest} (token c : Char) :
      ¬isWildcard token → asciiLower token = asciiLower c →
      Matches pattern rest → Matches (token :: pattern) (c :: rest)

/-! ### The search of the source -/

/-- The place in a pattern and the place in a name. -/
abbrev Position := ℕ × ℕ

/-- `find_last_of` for one character. -/
def findLastOf (c : Char) : PathText → Option ℕ
  | [] => none
  | first :: rest =>
    match findLastOf c rest with
    | some i => some (i + 1)
    | none => if first = c then some 0 else none

/-- The first place from `p` on where another character stands. -/
def skipRun (c : Char) (expression : PathText) (p : ℕ) : ℕ :=
  p + ((expression.drop p).takeWhile (· = c)).length

/-- The last place up to which `<` takes characters. -/
def dosStarLimit (value : PathText) (v : ℕ) : ℕ :=
  match findLastOf '.' value with
  | some finalDot => if v ≤ finalDot then finalDot else value.length
  | none => value.length

/-- The loops over candidates, which end at the first that matches. -/
def tryCandidates (self : Position → Search Position Bool Bool) (next : ℕ) :
    ℕ → ℕ → Search Position Bool Bool
  | 0, _ => pure false
  | count + 1, candidate => do
    if ← self (next, candidate) then pure true
    else tryCandidates self next count (candidate + 1)

/-- The body of `recurse` at a position that has no answer yet. -/
def evaluate (expression value : PathText) (self : Position → Search Position Bool Bool) :
    Position → Search Position Bool Bool
  | (p, v) =>
    match expression[p]? with
    | none => pure (v == value.length)
    | some token =>
      if token = '*' then
        let next := skipRun '*' expression p
        if next = expression.length then pure true
        else tryCandidates self next (value.length + 1 - v) v
      else if token = '?' then
        if v < value.length then self (p + 1, v + 1) else pure false
      else if token = '<' then
        tryCandidates self (p + 1) (dosStarLimit value v + 1 - v) v
      else if token = '>' then
        match value[v]? with
        | some c =>
          if c ≠ '.' then self (p + 1, v + 1) else self (skipRun '>' expression p, v)
        | none => self (skipRun '>' expression p, v)
      else if token = '"' then
        match value[v]? with
        | some c => if c = '.' then self (p + 1, v + 1) else pure false
        | none => self (p + 1, v)
      else
        match value[v]? with
        | some c => if asciiLower token = asciiLower c then self (p + 1, v + 1) else pure false
        | none => pure false

/-- `match_core`, with the table at its end. -/
def matchCore (expression value : PathText) : Option (Bool × Memo Position Bool) :=
  memoised (evaluate expression value) (expression.length + 1) (0, 0) .empty

/-- `guest_wildcard_match`; `none` would be a recursion that does not end. -/
def guestWildcardMatch (pattern value : PathText) : Option Bool :=
  let pattern := if pattern = [] then ['*'] else pattern
  if pattern = ['*'] ∨ pattern = ['*', '.', '*'] then some true
  else
    match matchCore pattern value with
    | none => none
    | some (true, _) => some true
    | some (false, _) =>
      if 2 ≤ pattern.length ∧ pattern.drop (pattern.length - 2) = ['.', '*'] then
        (matchCore (pattern.take (pattern.length - 2)) value).map Prod.fst
      else some false

example : guestWildcardMatch "sa<.t*".toList "Save.old.txt".toList = some true := by
  decide

/-! ### One token of a pattern -/

theorem matches_nil {name : PathText} : Matches [] name ↔ name = [] := by
  constructor
  · intro h
    cases h
    rfl
  · rintro rfl
    exact .done

theorem matches_star {pattern name : PathText} :
    Matches ('*' :: pattern) name ↔ ∃ k ≤ name.length, Matches pattern (name.drop k) := by
  constructor
  · intro h
    cases h with
    | star taken h => exact ⟨taken.length, by simp, by simpa using h⟩
    | char _ _ hwild => exact absurd (.inl rfl) hwild
  · rintro ⟨k, -, h⟩
    rw [← List.take_append_drop k name]
    exact .star _ h

theorem matches_star_last (name : PathText) : Matches ['*'] name :=
  matches_star.mpr ⟨name.length, le_rfl, by rw [List.drop_length]; exact .done⟩

/-- A run of stars takes what one star takes. -/
theorem matches_star_run (pattern name : PathText) :
    Matches ('*' :: pattern) name ↔ Matches ('*' :: pattern.dropWhile (· = '*')) name := by
  induction pattern generalizing name with
  | nil => rfl
  | cons token pattern ih =>
    by_cases htoken : token = '*'
    · subst htoken
      have hrun : ('*' :: pattern).dropWhile (· = '*') = pattern.dropWhile (· = '*') := by
        simp
      rw [hrun, ← ih]
      constructor
      · intro h
        obtain ⟨k, -, h⟩ := matches_star.mp h
        obtain ⟨j, -, h⟩ := matches_star.mp h
        rw [List.drop_drop] at h
        by_cases hkj : k + j ≤ name.length
        · exact matches_star.mpr ⟨k + j, hkj, h⟩
        · rw [List.drop_of_length_le (by omega)] at h
          exact matches_star.mpr ⟨name.length, le_rfl, by rwa [List.drop_length]⟩
      · intro h
        exact matches_star.mpr ⟨0, Nat.zero_le _, h⟩
    · simp [htoken]

theorem matches_question {pattern name : PathText} :
    Matches ('?' :: pattern) name ↔ ∃ c rest, name = c :: rest ∧ Matches pattern rest := by
  constructor
  · intro h
    cases h with
    | question c h => exact ⟨c, _, rfl, h⟩
    | char _ _ hwild => exact absurd (.inr (.inl rfl)) hwild
  · rintro ⟨c, rest, rfl, h⟩
    exact .question c h

theorem matches_dosStar {pattern name : PathText} :
    Matches ('<' :: pattern) name ↔
      ∃ k ≤ name.length, ('.' ∈ name → '.' ∈ name.drop k) ∧ Matches pattern (name.drop k) := by
  constructor
  · intro h
    cases h with
    | dosStar taken hdot h =>
      exact ⟨taken.length, by simp, by simpa using hdot, by simpa using h⟩
    | char _ _ hwild => exact absurd (.inr (.inr (.inl rfl))) hwild
  · rintro ⟨k, -, hdot, h⟩
    rw [← List.take_append_drop k name]
    refine .dosStar _ ?_ h
    rwa [List.take_append_drop]

/-- Where `>` stands, a character that is no dot has to be taken. -/
theorem matches_dosQm_cons {pattern rest : PathText} {c : Char} (hc : c ≠ '.') :
    Matches ('>' :: pattern) (c :: rest) ↔ Matches pattern rest := by
  constructor
  · intro h
    cases h with
    | dosQm _ _ h => exact h
    | dosQmRun hstop =>
      rcases hstop with hnil | hdot
      · cases hnil
      · exact absurd (Option.some.inj hdot) hc
    | char _ _ hwild => exact absurd (.inr (.inr (.inr (.inl rfl)))) hwild
  · exact .dosQm c hc

/-- At a dot and at the end, the run of `>` takes nothing. -/
theorem matches_dosQm_stop {pattern name : PathText} (hstop : name = [] ∨ name.head? = some '.') :
    Matches ('>' :: pattern) name ↔ Matches (pattern.dropWhile (· = '>')) name := by
  constructor
  · intro h
    cases h with
    | dosQm c hc =>
      rcases hstop with hnil | hdot
      · cases hnil
      · exact absurd (Option.some.inj hdot) hc
    | dosQmRun _ h => exact h
    | char _ _ hwild => exact absurd (.inr (.inr (.inr (.inl rfl)))) hwild
  · exact .dosQmRun hstop

theorem matches_dosDot {pattern name : PathText} :
    Matches ('"' :: pattern) name ↔
      (∃ rest, name = '.' :: rest ∧ Matches pattern rest) ∨ name = [] ∧ Matches pattern [] := by
  constructor
  · intro h
    cases h with
    | dosDot h => exact .inl ⟨_, rfl, h⟩
    | dosDotEnd h => exact .inr ⟨rfl, h⟩
    | char _ _ hwild => exact absurd (.inr (.inr (.inr (.inr rfl)))) hwild
  · rintro (⟨rest, rfl, h⟩ | ⟨rfl, h⟩)
    · exact .dosDot h
    · exact .dosDotEnd h

theorem matches_char {pattern name : PathText} {token : Char} (hwild : ¬isWildcard token) :
    Matches (token :: pattern) name ↔
      ∃ c rest, name = c :: rest ∧ asciiLower token = asciiLower c ∧ Matches pattern rest := by
  constructor
  · intro h
    unfold isWildcard at hwild
    cases h with
    | char _ c _ heq h => exact ⟨c, _, rfl, heq, h⟩
    | star | question | dosStar | dosQm | dosQmRun | dosDot | dosDotEnd => simp at hwild
  · rintro ⟨c, rest, rfl, heq, h⟩
    exact .char token c hwild heq h

/-! ### The helpers of the source -/

/-- A place of a character is at or before its last place. -/
theorem mem_drop_iff_findLastOf (c : Char) (value : PathText) (n : ℕ) :
    c ∈ value.drop n ↔ ∃ i, findLastOf c value = some i ∧ n ≤ i := by
  induction value generalizing n with
  | nil => simp [findLastOf]
  | cons first rest ih =>
    cases n with
    | zero =>
      have hrest := ih 0
      rw [List.drop_zero] at hrest
      rw [List.drop_zero, List.mem_cons, hrest, findLastOf]
      cases hfind : findLastOf c rest with
      | some i => simp
      | none =>
        by_cases hfirst : first = c
        · simp [hfirst]
        · simp [hfirst, Ne.symm hfirst]
    | succ n =>
      rw [List.drop_succ_cons, ih n, findLastOf]
      cases hfind : findLastOf c rest with
      | some i => simp
      | none =>
        by_cases hfirst : first = c <;> simp [hfirst]

theorem findLastOf_lt {c : Char} {value : PathText} {i : ℕ} (h : findLastOf c value = some i) :
    i < value.length := by
  have hmem : c ∈ value.drop i := (mem_drop_iff_findLastOf c value i).mpr ⟨i, h, le_rfl⟩
  by_contra hlen
  rw [List.drop_of_length_le (by omega)] at hmem
  exact List.not_mem_nil hmem

/-- The candidates of `<` are the places that leave a dot where one remains. -/
theorem le_dosStarLimit_iff {value : PathText} {v candidate : ℕ} :
    candidate ≤ dosStarLimit value v ↔
      candidate ≤ value.length ∧ ('.' ∈ value.drop v → '.' ∈ value.drop candidate) := by
  rw [mem_drop_iff_findLastOf, mem_drop_iff_findLastOf]
  unfold dosStarLimit
  cases hfind : findLastOf '.' value with
  | none => simp
  | some finalDot =>
    have hlt := findLastOf_lt hfind
    by_cases hv : v ≤ finalDot
    · simp only [hv, if_true, Option.some.injEq, exists_eq_left', forall_const]
      omega
    · simp only [hv, if_false, Option.some.injEq, exists_eq_left', false_imp_iff, and_true]

theorem drop_skipRun (c : Char) (expression : PathText) (p : ℕ) :
    expression.drop (skipRun c expression p) = (expression.drop p).dropWhile (· = c) := by
  rw [skipRun, ← List.drop_drop]
  generalize expression.drop p = rest
  calc rest.drop (rest.takeWhile (· = c)).length
      = (rest.takeWhile (· = c) ++ rest.dropWhile (· = c)).drop
          (rest.takeWhile (· = c)).length := by rw [List.takeWhile_append_dropWhile]
    _ = rest.dropWhile (· = c) := List.drop_left ..

theorem skipRun_le {c : Char} {expression : PathText} {p : ℕ} (hp : p ≤ expression.length) :
    skipRun c expression p ≤ expression.length := by
  have hrun := (List.takeWhile_sublist (· = c) (l := expression.drop p)).length_le
  rw [List.length_drop] at hrun
  rw [skipRun]
  omega

theorem lt_skipRun {c : Char} {expression : PathText} {p : ℕ} (hp : expression[p]? = some c) :
    p < skipRun c expression p := by
  obtain ⟨hlt, hget⟩ := List.getElem?_eq_some_iff.mp hp
  rw [skipRun, List.drop_eq_getElem_cons hlt, hget]
  simp

/-! ### The search decides the splitting -/

/-- What is left of the pattern takes what is left of the name. -/
def MatchesAt (expression value : PathText) (key : Position) : Prop :=
  Matches (expression.drop key.1) (value.drop key.2)

noncomputable instance decidableMatchesAt (expression value : PathText) :
    DecidablePred (MatchesAt expression value) :=
  fun _ => Classical.propDecidable _

/-- The answer a position has by itself. -/
noncomputable def truthAt (expression value : PathText) (key : Position) : Bool :=
  decide (MatchesAt expression value key)

/-- The positions inside a pattern and a name. -/
def Inside (expression value : PathText) (key : Position) : Prop :=
  key.1 ≤ expression.length ∧ key.2 ≤ value.length

/-- A part of the search at the level `l` of the pattern that answers `answer`. -/
abbrev Answers (expression value : PathText) (l : ℕ) (x : Search Position Bool Bool)
    (answer : Bool) : Prop :=
  Yields Prod.fst (Inside expression value) (truthAt expression value) l x answer

section Evaluation

variable {expression value : PathText} {self : Position → Search Position Bool Bool} {l : ℕ}

theorem truthAt_eq {key : Position} {answer : Bool}
    (h : answer = true ↔ MatchesAt expression value key) :
    truthAt expression value key = answer := by
  unfold truthAt
  cases answer with
  | true => exact decide_eq_true (h.mp rfl)
  | false => exact decide_eq_false fun hmatches => Bool.false_ne_true (h.mpr hmatches)

theorem truthAt_iff {key : Position} :
    truthAt expression value key = true ↔ MatchesAt expression value key :=
  decide_eq_true_iff

theorem drop_eq_cons {text : PathText} {i : ℕ} {c : Char} (h : text[i]? = some c) :
    text.drop i = c :: text.drop (i + 1) := by
  obtain ⟨hlt, hget⟩ := List.getElem?_eq_some_iff.mp h
  rw [List.drop_eq_getElem_cons hlt, hget]

theorem drop_eq_nil {text : PathText} {i : ℕ} (h : text[i]? = none) : text.drop i = [] :=
  List.drop_of_length_le (List.getElem?_eq_none_iff.mp h)

theorem matchesAt_star {p v : ℕ} (htoken : expression[p]? = some '*') (hv : v ≤ value.length) :
    MatchesAt expression value (p, v) ↔
      ∃ candidate, v ≤ candidate ∧ candidate < v + (value.length + 1 - v) ∧
        MatchesAt expression value (skipRun '*' expression p, candidate) := by
  have hrun : expression.drop (skipRun '*' expression p) =
      (expression.drop (p + 1)).dropWhile (· = '*') := by
    rw [drop_skipRun, drop_eq_cons htoken]
    simp
  unfold MatchesAt
  dsimp only
  rw [drop_eq_cons htoken, matches_star_run, ← hrun, matches_star]
  constructor
  · rintro ⟨k, hk, h⟩
    rw [List.length_drop] at hk
    rw [List.drop_drop] at h
    exact ⟨v + k, by omega, by omega, h⟩
  · rintro ⟨candidate, hle, hlt, h⟩
    refine ⟨candidate - v, by rw [List.length_drop]; omega, ?_⟩
    rwa [List.drop_drop, Nat.add_sub_cancel' hle]

theorem matchesAt_star_last {p v : ℕ} (htoken : expression[p]? = some '*')
    (hend : skipRun '*' expression p = expression.length) :
    MatchesAt expression value (p, v) := by
  have hrun : (expression.drop (p + 1)).dropWhile (· = '*') = [] := by
    have h := drop_skipRun '*' expression p
    rw [hend, List.drop_length, drop_eq_cons htoken] at h
    simpa using h.symm
  unfold MatchesAt
  dsimp only
  rw [drop_eq_cons htoken, matches_star_run, hrun]
  exact matches_star_last _

theorem matchesAt_dosStar {p v : ℕ} (htoken : expression[p]? = some '<')
    (hv : v ≤ value.length) :
    MatchesAt expression value (p, v) ↔
      ∃ candidate, v ≤ candidate ∧ candidate < v + (dosStarLimit value v + 1 - v) ∧
        MatchesAt expression value (p + 1, candidate) := by
  have hself : v ≤ dosStarLimit value v := le_dosStarLimit_iff.mpr ⟨hv, fun h => h⟩
  unfold MatchesAt
  dsimp only
  rw [drop_eq_cons htoken, matches_dosStar]
  constructor
  · rintro ⟨k, hk, hdot, h⟩
    rw [List.length_drop] at hk
    rw [List.drop_drop] at hdot h
    have hlimit : v + k ≤ dosStarLimit value v := le_dosStarLimit_iff.mpr ⟨by omega, hdot⟩
    exact ⟨v + k, by omega, by omega, h⟩
  · rintro ⟨candidate, hle, hlt, h⟩
    have hlimit : candidate ≤ dosStarLimit value v := by omega
    obtain ⟨hlen, hdot⟩ := le_dosStarLimit_iff.mp hlimit
    have hsum : v + (candidate - v) = candidate := Nat.add_sub_cancel' hle
    refine ⟨candidate - v, by rw [List.length_drop]; omega, ?_, ?_⟩
    · rwa [List.drop_drop, hsum]
    · rwa [List.drop_drop, hsum]

/-- At a dot and at the end, `>` stands for the rest after its run. -/
theorem matchesAt_dosQm_stop {p v : ℕ} (htoken : expression[p]? = some '>')
    (hstop : value.drop v = [] ∨ (value.drop v).head? = some '.') :
    MatchesAt expression value (p, v) ↔
      MatchesAt expression value (skipRun '>' expression p, v) := by
  have hrun : expression.drop (skipRun '>' expression p) =
      (expression.drop (p + 1)).dropWhile (· = '>') := by
    rw [drop_skipRun, drop_eq_cons htoken]
    simp
  unfold MatchesAt
  dsimp only
  rw [drop_eq_cons htoken, matches_dosQm_stop hstop, hrun]

/-- The loop over candidates finds one that matches, if there is one. -/
theorem tryCandidates_answers {next : ℕ} (count candidate : ℕ)
    (hself : ∀ v, v < candidate + count →
      Answers expression value l (self (next, v)) (truthAt expression value (next, v)))
    {answer : Bool}
    (hanswer : answer = true ↔
      ∃ v, candidate ≤ v ∧ v < candidate + count ∧ MatchesAt expression value (next, v)) :
    Answers expression value l (tryCandidates self next count candidate) answer := by
  induction count generalizing candidate answer with
  | zero =>
    cases answer with
    | true =>
      obtain ⟨v, hle, hlt, -⟩ := hanswer.mp rfl
      omega
    | false => exact .pure false
  | succ count ih =>
    rw [tryCandidates]
    refine .bind (hself candidate (by omega)) ?_
    by_cases hmatches : MatchesAt expression value (next, candidate)
    · have hanswer : answer = true := hanswer.mpr ⟨candidate, le_rfl, by omega, hmatches⟩
      rw [truthAt_iff.mpr hmatches, hanswer]
      exact .pure true
    · have hfalse : truthAt expression value (next, candidate) = false :=
        decide_eq_false hmatches
      rw [hfalse]
      refine ih (candidate + 1) (fun v hv => hself v (by omega)) (hanswer.trans ?_)
      constructor
      · rintro ⟨v, hle, hlt, h⟩
        have hne : v ≠ candidate := by
          rintro rfl
          exact hmatches h
        exact ⟨v, by omega, by omega, h⟩
      · rintro ⟨v, hle, hlt, h⟩
        exact ⟨v, by omega, by omega, h⟩

/-- **One evaluation answers what the position has by itself**, when the calls it
makes do; they are for later places of the pattern. -/
theorem evaluate_answers {key : Position} (hkey : Inside expression value key)
    (hself : ∀ next, Inside expression value next → key.1 < next.1 →
      Answers expression value (key.1 + 1) (self next) (truthAt expression value next)) :
    Answers expression value (key.1 + 1) (evaluate expression value self key)
      (truthAt expression value key) := by
  obtain ⟨p, v⟩ := key
  obtain ⟨hp, hv⟩ : p ≤ expression.length ∧ v ≤ value.length := hkey
  -- A call at a later position may stand for the answer where the two have the same meaning.
  have hcall : ∀ {next : Position}, Inside expression value next → p < next.1 →
      (MatchesAt expression value (p, v) ↔ MatchesAt expression value next) →
      Answers expression value (p + 1) (self next) (truthAt expression value (p, v)) := by
    intro next hinside hlt hiff
    have heq : truthAt expression value (p, v) = truthAt expression value next :=
      truthAt_eq (truthAt_iff.trans hiff.symm)
    rw [heq]
    exact hself next hinside hlt
  have hfails : ¬MatchesAt expression value (p, v) →
      Answers expression value (p + 1) (pure false) (truthAt expression value (p, v)) := by
    intro hnot
    have heq : truthAt expression value (p, v) = false := decide_eq_false hnot
    rw [heq]
    exact .pure false
  dsimp only
  rw [evaluate]
  cases htoken : expression[p]? with
  | none =>
    have hlast : p = expression.length := by
      have hle := List.getElem?_eq_none_iff.mp htoken
      omega
    have heq : truthAt expression value (p, v) = (v == value.length) := by
      refine truthAt_eq ?_
      rw [MatchesAt, hlast, List.drop_length, matches_nil, List.drop_eq_nil_iff, beq_iff_eq]
      exact ⟨fun h => h.ge, fun h => by omega⟩
    rw [heq]
    exact .pure _
  | some token =>
    have hlt : p < expression.length := (List.getElem?_eq_some_iff.mp htoken).choose
    have hnext : ∀ {c : Char}, value[v]? = some c →
        Inside expression value (p + 1, v + 1) := fun hc => by
      have hroom : v < value.length := (List.getElem?_eq_some_iff.mp hc).choose
      exact ⟨hlt, hroom⟩
    dsimp only
    split_ifs with hstar hend hquestion hroom hdosStar hdosQm hdosDot
    · rw [truthAt_eq (iff_of_true rfl (matchesAt_star_last (hstar ▸ htoken) hend))]
      exact .pure true
    · subst hstar
      refine tryCandidates_answers _ _ (fun candidate hcandidate => ?_)
        (truthAt_iff.trans (matchesAt_star htoken hv))
      exact hself _ ⟨skipRun_le hp, by omega⟩ (lt_skipRun htoken)
    · subst hquestion
      obtain ⟨c, hc⟩ : ∃ c, value[v]? = some c := ⟨_, List.getElem?_eq_getElem hroom⟩
      refine hcall (hnext hc) (Nat.lt_succ_self p) ?_
      unfold MatchesAt
      dsimp only
      rw [drop_eq_cons htoken, drop_eq_cons hc, matches_question]
      simp
    · subst hquestion
      refine hfails ?_
      unfold MatchesAt
      dsimp only
      rw [drop_eq_cons htoken, List.drop_of_length_le (not_lt.mp hroom), matches_question]
      simp
    · subst hdosStar
      have hlimit : ∀ candidate, candidate < v + (dosStarLimit value v + 1 - v) →
          candidate ≤ value.length := by
        have hbound : dosStarLimit value v ≤ value.length :=
          (le_dosStarLimit_iff.mp le_rfl).1
        intro candidate hcandidate
        omega
      refine tryCandidates_answers _ _ (fun candidate hcandidate => ?_)
        (truthAt_iff.trans (matchesAt_dosStar htoken hv))
      exact hself _ ⟨hlt, hlimit candidate hcandidate⟩ (Nat.lt_succ_self p)
    · subst hdosQm
      have hrun : Inside expression value (skipRun '>' expression p, v) := ⟨skipRun_le hp, hv⟩
      cases hc : value[v]? with
      | none =>
        exact hcall hrun (lt_skipRun htoken)
          (matchesAt_dosQm_stop htoken (.inl (drop_eq_nil hc)))
      | some c =>
        dsimp only
        split_ifs with hdot
        · refine hcall (hnext hc) (Nat.lt_succ_self p) ?_
          unfold MatchesAt
          dsimp only
          rw [drop_eq_cons htoken, drop_eq_cons hc, matches_dosQm_cons hdot]
        · refine hcall hrun (lt_skipRun htoken) (matchesAt_dosQm_stop htoken (.inr ?_))
          rw [drop_eq_cons hc, not_not.mp hdot]
          rfl
    · subst hdosDot
      cases hc : value[v]? with
      | none =>
        refine hcall ⟨hlt, hv⟩ (Nat.lt_succ_self p) ?_
        unfold MatchesAt
        dsimp only
        rw [drop_eq_cons htoken, drop_eq_nil hc, matches_dosDot]
        simp
      | some c =>
        dsimp only
        split_ifs with hdot
        · refine hcall (hnext hc) (Nat.lt_succ_self p) ?_
          unfold MatchesAt
          dsimp only
          rw [drop_eq_cons htoken, drop_eq_cons hc, matches_dosDot, hdot]
          simp
        · refine hfails ?_
          unfold MatchesAt
          dsimp only
          rw [drop_eq_cons htoken, drop_eq_cons hc, matches_dosDot]
          simp [hdot]
    · have hwild : ¬isWildcard token := by
        rintro (h | h | h | h | h) <;> contradiction
      cases hc : value[v]? with
      | none =>
        refine hfails ?_
        unfold MatchesAt
        dsimp only
        rw [drop_eq_cons htoken, drop_eq_nil hc, matches_char hwild]
        simp
      | some c =>
        dsimp only
        split_ifs with hequal
        · refine hcall (hnext hc) (Nat.lt_succ_self p) ?_
          unfold MatchesAt
          dsimp only
          rw [drop_eq_cons htoken, drop_eq_cons hc, matches_char hwild]
          simp [hequal]
        · refine hfails ?_
          unfold MatchesAt
          dsimp only
          rw [drop_eq_cons htoken, drop_eq_cons hc, matches_char hwild]
          simp [hequal]

end Evaluation

/-- **The search returns**, its answer is whether the name can be split along the
expression, and it evaluates every position at most once and only positions
inside. -/
theorem matchCore_spec (expression value : PathText) :
    ∃ m, matchCore expression value = some (truthAt expression value (0, 0), m) ∧
      m.visited.Nodup ∧ ∀ key ∈ m.visited, Inside expression value key := by
  refine memoised_empty Prod.fst expression.length
    (fun key hkey => hkey.1) (fun self key hkey hself => evaluate_answers hkey hself)
    ⟨Nat.zero_le _, Nat.zero_le _⟩ ?_
  omega

/-- **Wildcards mean what the splitting says.**  The matcher returns; it accepts
just the names that can be split along the pattern, or along the pattern without
a final `.*`, and all names for the patterns that ask for all; and its search
evaluates no position of a pattern and a name twice. -/
theorem guestWildcardMatch_iff (pattern value : PathText) :
    (∃ accepted, guestWildcardMatch pattern value = some accepted ∧
      (accepted = true ↔
        pattern = [] ∨ pattern = ['*'] ∨ pattern = ['*', '.', '*'] ∨ Matches pattern value ∨
          ∃ stem, pattern = stem ++ ['.', '*'] ∧ Matches stem value)) ∧
    ∀ expression, ∃ accepted m, matchCore expression value = some (accepted, m) ∧
      m.visited.Nodup ∧ ∀ key ∈ m.visited, Inside expression value key := by
  refine ⟨?_, fun expression => ⟨_, matchCore_spec expression value⟩⟩
  rw [guestWildcardMatch]
  by_cases hnil : pattern = []
  · exact ⟨true, by simp [hnil], by simp [hnil]⟩
  by_cases hall : pattern = ['*'] ∨ pattern = ['*', '.', '*']
  · refine ⟨true, by simp [hnil, hall], iff_of_true rfl ?_⟩
    exact .inr (hall.elim .inl fun h => .inr (.inl h))
  obtain ⟨hone, hdotted⟩ := not_or.mp hall
  simp only [hnil, hone, hdotted, if_false, false_or]
  obtain ⟨m, hrun, -⟩ := matchCore_spec pattern value
  rw [hrun]
  by_cases hmatches : Matches pattern value
  · have htruth : truthAt pattern value (0, 0) = true := truthAt_iff.mpr hmatches
    rw [htruth]
    exact ⟨true, rfl, iff_of_true rfl (.inl hmatches)⟩
  have hfalse : truthAt pattern value (0, 0) = false := decide_eq_false hmatches
  rw [hfalse]
  dsimp only
  -- A final `.*` is found from the length of the pattern.
  have hstem : ∀ stem, pattern = stem ++ ['.', '*'] →
      2 ≤ pattern.length ∧ pattern.drop (pattern.length - 2) = ['.', '*'] ∧
        pattern.take (pattern.length - 2) = stem := by
    rintro stem rfl
    simp
  split_ifs with hfinal
  · obtain ⟨m, hrun, -⟩ := matchCore_spec (pattern.take (pattern.length - 2)) value
    rw [hrun]
    refine ⟨_, rfl, truthAt_iff.trans ?_⟩
    constructor
    · intro h
      refine .inr ⟨pattern.take (pattern.length - 2), ?_, h⟩
      rw [← hfinal.2, List.take_append_drop]
    · rintro (h | ⟨stem, heq, h⟩)
      · exact absurd h hmatches
      · rwa [(hstem stem heq).2.2]
  · refine ⟨false, rfl, iff_of_false Bool.false_ne_true ?_⟩
    rintro (h | ⟨stem, heq, -⟩)
    · exact hmatches h
    · exact hfinal ⟨(hstem stem heq).1, (hstem stem heq).2.1⟩

end Filesystem
end XenonRecomp
