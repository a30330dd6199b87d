/-
# Normalising guest paths

`normalize_guest_path`, `guest_path_equal` and `guest_path_key` of path.cpp.  A
guest path is text with components between separators after a prefix, which is a
leading separator, an alias with its colon (`game:`), or nothing.  The source
finds the prefix from the places of the first colon and the first separator,
reads the components into a stack, and writes the prefix and the stack out again
with a rule of its own for the separators.

`rootOf` and `read` say what a path means: its root and the components that are
left when `..` takes back the one before it.  `normalize_eq` brings the source's
function to that form, `render` writes it out, and the results about canonical
paths follow: a normal path is read back as it was written, and only the root and
the stack of a path matter for what is appended to it.
-/

import Mathlib.Data.List.TakeWhile
import XenonRecomp.Filesystem.HostPathDevice

namespace XenonRecomp
namespace Filesystem

/-- The text of a guest path. -/
abbrev PathText := List Char

/-- `ascii_lower`. -/
def asciiLower (value : Char) : Char :=
  if 'A' ≤ value ∧ value ≤ 'Z' then Char.ofNat (value.toNat - 'A'.toNat + 'a'.toNat) else value

/-- `guest_path_key`. -/
def guestPathKey (path : PathText) : PathText :=
  path.map asciiLower

/-- `guest_path_equal`. -/
def guestPathEqual (lhs rhs : PathText) : Bool :=
  lhs.length == rhs.length && (lhs.zip rhs).all fun (a, b) => asciiLower a == asciiLower b

/-- The replacement of `/` by a backslash. -/
def backslash (c : Char) : Char := if c = '/' then '\\' else c

/-- One component of the loop of `normalize_guest_path`. -/
def pushComponent (components : List PathText) (component : PathText) :
    Option (List PathText) :=
  if component = [] ∨ component = ['.'] then some components
  else if component = ['.', '.'] then
    if components = [] then none else some components.dropLast
  else if ':' ∈ component then none
  else some (components ++ [component])

/-- The components after the text `output`: a separator goes before each, except
where the text is empty or ends with a separator or a colon. -/
def appendComponents (output : PathText) (components : List PathText) : PathText :=
  components.foldl (fun output component =>
    (if output ≠ [] ∧ output.getLast? ≠ some '\\' ∧ output.getLast? ≠ some ':' then
      output ++ ['\\'] else output) ++ component) output

/-- `normalize_guest_path`. -/
def normalizeGuestPath (input : PathText) (allowRelative : Bool) : Except FsError PathText :=
  if input = [] ∨ '\x00' ∈ input then .error .invalidPath
  else
    let path := input.map backslash
    let rooted := path.head? = some '\\'
    let colon := path.idxOf ':'
    let firstSeparator := path.idxOf '\\'
    let hasAlias := colon < path.length ∧ colon < firstSeparator
    if ¬rooted ∧ ¬hasAlias ∧ allowRelative = false then .error .invalidPath
    else if hasAlias ∧ colon = 0 then .error .invalidPath
    else
      let start : PathText := if rooted then ['\\'] else if hasAlias then path.take (colon + 1) else []
      let rest := if rooted then path.drop 1
        else if hasAlias then (path.drop (colon + 1)).dropWhile (· = '\\') else path
      match (rest.splitOn '\\').foldlM pushComponent [] with
      | none => .error .invalidPath
      | some components =>
          let output := if hasAlias ∧ components ≠ [] then start ++ ['\\'] else start
          let output := appendComponents output components
          let output := if rooted ∧ output = [] then ['\\'] else output
          if output = [] then .error .invalidPath else .ok output

example : normalizeGuestPath "game:/a\\.\\b/../c".toList false = .ok "game:\\a\\c".toList := by
  decide

/-! ### What a path means -/

/-- The prefix of a path. -/
inductive Root
  | top
  | named (name : PathText)
  | relative
deriving DecidableEq, Repr

/-- A character of an alias name. -/
def inName (c : Char) : Bool := c ≠ ':' ∧ c ≠ '\\'

/-- The prefix of a path and the text after it. -/
def rootOf (path : PathText) : Root × PathText :=
  match path with
  | '\\' :: rest => (.top, rest)
  | path =>
      match path.dropWhile inName with
      | ':' :: rest => (.named (path.takeWhile inName), rest)
      | _ => (.relative, path)

/-- The components of the text after a prefix. -/
def componentsOf (path : PathText) : List PathText :=
  match rootOf path with
  | (.named _, rest) => (rest.splitOn '\\').tail
  | (_, rest) => if rest = [] then [] else rest.splitOn '\\'

/-- Reading components from left to right onto a stack: an empty one and a dot
count for nothing, and two dots take the last one back, if there is one. -/
def read : List PathText → List PathText → Option (List PathText)
  | stack, [] => some stack.reverse
  | stack, component :: components =>
      if component = [] ∨ component = ['.'] then read stack components
      else if component = ['.', '.'] then
        match stack with
        | [] => none
        | _ :: stack => read stack components
      else read (component :: stack) components

/-- The text of a prefix and components. -/
def render : Root → List PathText → PathText
  | .top, components => '\\' :: ['\\'].intercalate components
  | .named name, [] => name ++ [':']
  | .named name, components => name ++ ':' :: '\\' :: ['\\'].intercalate components
  | .relative, components => ['\\'].intercalate components

/-- A component that stands for a name. -/
structure Proper (c : PathText) : Prop where
  nonempty : c ≠ []
  dot : c ≠ ['.']
  dotDot : c ≠ ['.', '.']
  colon : ':' ∉ c
  separator : '\\' ∉ c

/-! ### The prefix -/

variable {path rest name : PathText} {components stack : List PathText} {c : PathText}

theorem rootOf_root (rest : PathText) : rootOf ('\\' :: rest) = (.top, rest) := rfl

theorem rootOf_alias (hname : ∀ c ∈ name, inName c) (rest : PathText) :
    rootOf (name ++ ':' :: rest) = (.named name, rest) := by
  have hdrop : (name ++ ':' :: rest).dropWhile inName = ':' :: rest := by
    rw [List.dropWhile_append_of_pos hname]
    rfl
  have htake : (name ++ ':' :: rest).takeWhile inName = name := by
    rw [List.takeWhile_append_of_pos hname]
    simp [inName]
  unfold rootOf
  split
  · next heq =>
      -- A name does not start with a separator.
      cases name with
      | nil => cases heq
      | cons a name =>
          obtain rfl : a = '\\' := (List.cons.inj heq).1
          simp [inName] at hname
  · rw [hdrop, htake]
    rfl

/-- A path has one of three prefixes. -/
theorem rootOf_cases (path : PathText) :
    (∃ rest, path = '\\' :: rest) ∨
      (∃ name rest, path = name ++ ':' :: rest ∧ ∀ c ∈ name, inName c) ∨
      ((∀ rest, path ≠ '\\' :: rest) ∧
        (∀ name rest, (∀ c ∈ name, inName c) → path ≠ name ++ ':' :: rest) ∧
        rootOf path = (.relative, path)) := by
  by_cases hroot : ∃ rest, path = '\\' :: rest
  · exact .inl hroot
  by_cases halias : ∃ name rest, path = name ++ ':' :: rest ∧ ∀ c ∈ name, inName c
  · exact .inr (.inl halias)
  refine .inr (.inr ⟨fun rest h => hroot ⟨rest, h⟩,
    fun name rest hname h => halias ⟨name, rest, h, hname⟩, ?_⟩)
  unfold rootOf
  split
  · next rest => exact absurd ⟨rest, rfl⟩ hroot
  split
  · next rest hdrop =>
      refine absurd ⟨path.takeWhile inName, rest, ?_, fun c hc => List.mem_takeWhile_imp hc⟩ halias
      rw [← hdrop, List.takeWhile_append_dropWhile]
  · rfl

/-- What is appended after a separator belongs to the text after the prefix. -/
theorem rootOf_append (hpath : path ≠ []) (r : PathText) :
    rootOf (path ++ '\\' :: r) = ((rootOf path).1, (rootOf path).2 ++ '\\' :: r) := by
  rcases rootOf_cases path with ⟨rest, rfl⟩ | ⟨name, rest, rfl, hname⟩ | ⟨hroot, halias, hrel⟩
  · rfl
  · rw [List.append_assoc, List.cons_append, rootOf_alias hname, rootOf_alias hname]
  · rw [hrel]
    rcases rootOf_cases (path ++ '\\' :: r) with ⟨rest, h⟩ | ⟨name, rest, h, hname⟩ | ⟨-, -, h⟩
    · cases path with
      | nil => exact absurd rfl hpath
      | cons a path =>
          obtain rfl : a = '\\' := (List.cons.inj h).1
          exact absurd rfl (hroot path)
    · rcases List.append_eq_append_iff.mp h with ⟨l, hl, hsep⟩ | ⟨l, hl, hrest⟩
      · -- The name would go on past the separator.
        cases l with
        | nil => simp at hsep
        | cons b l =>
            obtain rfl : b = '\\' := (List.cons.inj hsep).1.symm
            have hin : '\\' ∈ name := by simp [hl]
            simpa [inName] using hname _ hin
      · cases l with
        | nil => simp at hrest
        | cons b l =>
            obtain rfl : b = ':' := (List.cons.inj hrest).1.symm
            exact absurd hl (halias name l hname)
    · exact h

/-! ### The components -/

/-- Empty components, such as leading separators leave, count for nothing. -/
theorem foldlM_dropWhile (path : PathText) (stack : List PathText) :
    ((path.dropWhile (· = '\\')).splitOn '\\').foldlM pushComponent stack =
      (path.splitOn '\\').foldlM pushComponent stack := by
  induction path with
  | nil => rfl
  | cons a path ih =>
      by_cases ha : a = '\\'
      · subst ha
        rw [List.dropWhile_cons_of_pos (by simp), ih]
        have hsplit := List.splitOn_append_cons_self (a := '\\') [] path
        rw [List.nil_append, List.splitOn_nil] at hsplit
        rw [hsplit]
        simp [pushComponent]
      · rw [List.dropWhile_cons_of_neg (by simpa using ha)]

/-- A component that goes onto the stack is proper. -/
theorem pushComponent_proper {stack' : List PathText} (hc : '\\' ∉ c)
    (hstack : ∀ d ∈ stack, Proper d) (h : pushComponent stack c = some stack') :
    ∀ d ∈ stack', Proper d := by
  unfold pushComponent at h
  split at h
  · cases h
    exact hstack
  next hskip =>
  split at h
  · split at h
    · cases h
    · cases h
      exact fun d hd => hstack d (List.mem_of_mem_dropLast hd)
  next hup =>
  split at h
  · cases h
  next hcolon =>
  cases h
  intro d hd
  rcases List.mem_append.mp hd with hd | hd
  · exact hstack d hd
  · obtain rfl := List.mem_singleton.mp hd
    rw [not_or] at hskip
    exact ⟨hskip.1, hskip.2, hup, hcolon, hc⟩

theorem foldlM_proper {stack' : List PathText} (hc : ∀ c ∈ components, '\\' ∉ c)
    (hstack : ∀ d ∈ stack, Proper d) (h : components.foldlM pushComponent stack = some stack') :
    ∀ d ∈ stack', Proper d := by
  induction components generalizing stack with
  | nil =>
      cases h
      exact hstack
  | cons c components ih =>
      rw [List.foldlM_cons, Option.bind_eq_bind, Option.bind_eq_some_iff] at h
      obtain ⟨next, hpush, h⟩ := h
      exact ih (fun d hd => hc d (List.mem_cons_of_mem _ hd))
        (pushComponent_proper (hc c List.mem_cons_self) hstack hpush) h

/-- Proper components go onto the stack as they are. -/
theorem foldlM_of_proper (h : ∀ c ∈ components, Proper c) (stack : List PathText) :
    components.foldlM pushComponent stack = some (stack ++ components) := by
  induction components generalizing stack with
  | nil => simp
  | cons c components ih =>
      obtain ⟨h₁, h₂, h₃, h₄, -⟩ := h c List.mem_cons_self
      have hpush : pushComponent stack c = some (stack ++ [c]) := by
        simp [pushComponent, h₁, h₂, h₃, h₄]
      rw [List.foldlM_cons, hpush, Option.bind_eq_bind, Option.bind_some,
        ih fun d hd => h d (List.mem_cons_of_mem _ hd), List.append_assoc, List.singleton_append]

/-- The loop reads the components, and refuses a colon besides. -/
theorem foldlM_read {stack' : List PathText} :
    (components.foldlM pushComponent stack = some stack' →
      read stack.reverse components = some stack') ∧
    (read stack.reverse components = none → components.foldlM pushComponent stack = none) := by
  induction components generalizing stack with
  | nil => exact ⟨fun h => by simpa [read] using h, fun h => by simp [read] at h⟩
  | cons c components ih =>
      rw [List.foldlM_cons, pushComponent]
      unfold read
      split
      · exact ih
      split
      · cases stack using List.reverseRecOn with
        | nil => exact ⟨nofun, fun _ => rfl⟩
        | append_singleton stack d =>
            simp only [List.append_eq_nil_iff, List.cons_ne_self, and_false, if_false,
              List.dropLast_concat, List.reverse_append, List.reverse_singleton,
              List.singleton_append]
            exact ih
      split
      · exact ⟨nofun, fun _ => rfl⟩
      · have hpush := @ih (stack ++ [c])
        rw [List.reverse_append, List.reverse_singleton, List.singleton_append] at hpush
        exact hpush

/-! ### Writing a path -/

theorem intercalate_cons (c : PathText) (components : List PathText) :
    ['\\'].intercalate (c :: components) = c ++ components.flatMap ('\\' :: ·) := by
  induction components generalizing c with
  | nil => simp
  | cons d components ih => rw [List.intercalate_cons_cons, ih]; simp

/-- After a text that ends with a name, a separator goes before every component. -/
theorem appendComponents_open {output : PathText} (h : ∀ c ∈ components, Proper c)
    (hout : output ≠ [] ∧ output.getLast? ≠ some '\\' ∧ output.getLast? ≠ some ':') :
    appendComponents output components = output ++ components.flatMap ('\\' :: ·) := by
  induction components generalizing output with
  | nil => simp [appendComponents]
  | cons c components ih =>
      obtain ⟨hne, -, -, hcolon, hsep⟩ := h c List.mem_cons_self
      have hlast : (output ++ ['\\'] ++ c).getLast? = c.getLast? := by
        rw [List.getLast?_append_of_ne_nil _ hne]
      have hmem : ∀ a, c.getLast? = some a → a ∈ c := fun a ha => List.mem_of_getLast? ha
      rw [appendComponents, List.foldl_cons, if_pos hout]
      refine (ih (fun d hd => h d (List.mem_cons_of_mem _ hd)) ⟨by simp, ?_, ?_⟩).trans (by simp)
      · rw [hlast]
        exact fun ha => hsep (hmem _ ha)
      · rw [hlast]
        exact fun ha => hcolon (hmem _ ha)

/-- After nothing, or a separator, the first component follows at once. -/
theorem appendComponents_closed {output : PathText} (h : ∀ c ∈ components, Proper c)
    (hout : output = [] ∨ output.getLast? = some '\\') :
    appendComponents output components = output ++ ['\\'].intercalate components := by
  cases components with
  | nil => simp [appendComponents]
  | cons c components =>
      obtain ⟨hne, -, -, hcolon, hsep⟩ := h c List.mem_cons_self
      have hmem : ∀ a, c.getLast? = some a → a ∈ c := fun a ha => List.mem_of_getLast? ha
      have hlast : (output ++ c).getLast? = c.getLast? := by
        rw [List.getLast?_append_of_ne_nil _ hne]
      rw [appendComponents, List.foldl_cons, if_neg (by rcases hout with h | h <;> simp [h])]
      refine (appendComponents_open (fun d hd => h d (List.mem_cons_of_mem _ hd))
        ⟨by simp [hne], ?_, ?_⟩).trans (by rw [intercalate_cons, List.append_assoc])
      · rw [hlast]
        exact fun ha => hsep (hmem _ ha)
      · rw [hlast]
        exact fun ha => hcolon (hmem _ ha)

/-! ### The normal form -/

/-- The components that are left of a path: those of the text after its prefix,
on an empty stack. -/
def stackOf (rest : PathText) : Option (List PathText) :=
  (rest.splitOn '\\').foldlM pushComponent []

theorem separator_notMem_of_mem_splitOn (h : c ∈ path.splitOn '\\') : '\\' ∉ c := by
  induction path generalizing c with
  | nil =>
      obtain rfl : c = [] := by simpa using h
      exact List.not_mem_nil
  | cons a path ih =>
      rw [List.splitOn_cons_eq_if_modifyHead] at h
      split at h
      · rcases List.mem_cons.mp h with rfl | h
        · exact List.not_mem_nil
        · exact ih h
      next ha =>
      cases hsplit : path.splitOn '\\' with
      | nil => simp at hsplit
      | cons d ds =>
          rw [hsplit, List.modifyHead_cons] at h
          rw [hsplit] at ih
          rcases List.mem_cons.mp h with rfl | h
          · have hne : '\\' ≠ a := by
              rintro rfl
              simp at ha
            simpa [hne] using ih List.mem_cons_self
          · exact ih (List.mem_cons_of_mem _ h)

theorem stackOf_proper (h : stackOf rest = some components) : ∀ c ∈ components, Proper c :=
  foldlM_proper (fun _ hc => separator_notMem_of_mem_splitOn hc) (by simp) h

/-- **What `normalize_guest_path` computes.**  The path has a root and components
to read; an empty alias name is refused, and a relative path where it is not
allowed or has nothing left. -/
theorem normalize_eq (input : PathText) (allowRelative : Bool) :
    normalizeGuestPath input allowRelative =
      if input = [] ∨ '\x00' ∈ input then .error .invalidPath
      else
        let root := rootOf (input.map backslash)
        if (root.1 = .relative ∧ allowRelative = false) ∨ root.1 = .named [] then
          .error .invalidPath
        else
          match stackOf root.2 with
          | none => .error .invalidPath
          | some components =>
              if root.1 = .relative ∧ components = [] then .error .invalidPath
              else .ok (render root.1 components) := by
  rw [normalizeGuestPath]
  split
  · rfl
  next hinput =>
  generalize hpath : input.map backslash = path
  dsimp only
  rcases rootOf_cases path with ⟨rest, rfl⟩ | ⟨name, rest, rfl, hname⟩ | ⟨hroot, halias, hrel⟩
  · -- A leading separator: no alias before it.
    have hA : ¬(List.idxOf ':' ('\\' :: rest) < ('\\' :: rest).length ∧
        List.idxOf ':' ('\\' :: rest) < List.idxOf '\\' ('\\' :: rest)) := by simp
    rw [rootOf_root]
    simp only [hA, List.head?_cons, not_true_eq_false, false_and, if_false, if_true,
      List.drop_one, List.tail_cons, reduceCtorEq, or_self, stackOf]
    cases hstack : (rest.splitOn '\\').foldlM pushComponent [] with
    | none => rfl
    | some components =>
        dsimp only
        rw [appendComponents_closed (stackOf_proper hstack) (.inr rfl)]
        simp [render]
  · -- An alias: the first colon is where its name ends.
    have hcolon : ':' ∉ name := fun h => by simpa [inName] using hname _ h
    have hsep : '\\' ∉ name := fun h => by simpa [inName] using hname _ h
    have hidx : (name ++ ':' :: rest).idxOf ':' = name.length := by
      rw [List.idxOf_append_of_notMem hcolon]
      simp
    have hlt : name.length < (name ++ ':' :: rest).idxOf '\\' := by
      rw [List.idxOf_append_of_notMem hsep, List.idxOf_cons_ne _ (by decide)]
      omega
    have hA : name.length < (name ++ ':' :: rest).length := by simp
    have hR : (name ++ ':' :: rest).head? ≠ some '\\' := by
      cases name with
      | nil => simp
      | cons a name =>
          intro h
          exact hsep (by simp_all)
    have htake : (name ++ ':' :: rest).take (name.length + 1) = name ++ [':'] := by
      rw [← List.singleton_append, ← List.append_assoc]
      exact List.take_left' (by simp)
    have hdrop : (name ++ ':' :: rest).drop (name.length + 1) = rest := by
      simp
    rw [rootOf_alias hname, hidx]
    simp only [hR, hlt, hA, htake, hdrop, foldlM_dropWhile, and_self, true_and, not_true_eq_false,
      false_and, and_false, if_false, if_true, reduceCtorEq, false_or, Root.named.injEq,
      List.length_eq_zero_iff]
    split
    · rfl
    rw [← stackOf]
    cases hstack : stackOf rest with
    | none => rfl
    | some components =>
        dsimp only
        cases components with
        | nil => simp [appendComponents, render]
        | cons c components =>
            have happend := @appendComponents_closed _ (name ++ [':', '\\'])
              (stackOf_proper hstack) (.inr (by simp))
            simp [happend, render]
  · -- Neither: a colon before every separator would end an alias name.
    have hA : ¬(path.idxOf ':' < path.length ∧ path.idxOf ':' < path.idxOf '\\') := by
      rintro ⟨hlen, hlt⟩
      refine halias (path.take (path.idxOf ':')) (path.drop (path.idxOf ':' + 1)) ?_ ?_
      · intro c hc
        obtain ⟨i, hi, rfl⟩ := List.mem_take_iff_getElem.mp hc
        have hcolon := @List.not_of_lt_findIdx _ (· == ':') path i
          (by rw [← List.idxOf]; omega)
        have hsep := @List.not_of_lt_findIdx _ (· == '\\') path i
          (by rw [← List.idxOf]; omega)
        simpa [inName] using ⟨by simpa using hcolon, by simpa using hsep⟩
      · conv_lhs => rw [← List.take_append_drop (path.idxOf ':') path]
        rw [List.drop_eq_getElem_cons hlen, List.getElem_idxOf hlen]
    have hR : path.head? ≠ some '\\' := by
      cases path with
      | nil => simp
      | cons a path =>
          intro h
          exact hroot path (by simpa using h)
    rw [hrel]
    simp only [hR, hA, not_false_eq_true, true_and, false_and, if_false, reduceCtorEq, or_false]
    split
    · rfl
    rw [← stackOf]
    cases hstack : stackOf path with
    | none => rfl
    | some components =>
        dsimp only
        rw [appendComponents_closed (stackOf_proper hstack) (.inl rfl), List.nil_append]
        cases components with
        | nil => simp
        | cons c components =>
            have hne : ['\\'].intercalate (c :: components) ≠ [] := by
              rw [intercalate_cons]
              simp [(stackOf_proper hstack c List.mem_cons_self).nonempty]
            rw [if_neg hne, if_neg (by simp)]
            rfl

/-! ### Reading a written path back -/

/-- A root that a path can have. -/
def Root.WellFormed : Root → Prop
  | .named name => ∀ c ∈ name, inName c
  | .top | .relative => True

theorem rootOf_wellFormed (path : PathText) : (rootOf path).1.WellFormed := by
  rcases rootOf_cases path with ⟨rest, rfl⟩ | ⟨name, rest, rfl, hname⟩ | ⟨-, -, hrel⟩
  · trivial
  · rw [rootOf_alias hname]
    exact hname
  · rw [hrel]
    trivial

theorem stackOf_intercalate (h : ∀ c ∈ components, Proper c) :
    stackOf (['\\'].intercalate components) = some components := by
  unfold stackOf
  cases components with
  | nil => simp [pushComponent]
  | cons c components =>
      rw [List.splitOn_intercalate _ (fun d hd => (h d hd).separator) (by simp),
        foldlM_of_proper h]
      rfl

theorem stackOf_cons (path : PathText) : stackOf ('\\' :: path) = stackOf path := by
  unfold stackOf
  rw [← foldlM_dropWhile, List.dropWhile_cons_of_pos (by simp), foldlM_dropWhile]

theorem colon_notMem_intercalate (h : ∀ c ∈ components, Proper c) :
    ':' ∉ ['\\'].intercalate components := by
  cases components with
  | nil => simp
  | cons c components =>
      rw [intercalate_cons]
      simp only [List.mem_append, List.mem_flatMap, List.mem_cons, not_or, not_exists, not_and]
      exact ⟨(h c List.mem_cons_self).colon, fun d hd =>
        ⟨by decide, (h d (List.mem_cons_of_mem _ hd)).colon⟩⟩

/-- **What is written is read back.** -/
theorem rootOf_render {root : Root} (hroot : root.WellFormed) (h : ∀ c ∈ components, Proper c)
    (hrel : root = .relative → components ≠ []) :
    (rootOf (render root components)).1 = root ∧
      stackOf (rootOf (render root components)).2 = some components := by
  cases root with
  | top => exact ⟨rfl, stackOf_intercalate h⟩
  | named name =>
      cases components with
      | nil =>
          rw [render, rootOf_alias hroot]
          exact ⟨rfl, rfl⟩
      | cons c components =>
          rw [render, rootOf_alias hroot, stackOf_cons, stackOf_intercalate h]
          · exact ⟨rfl, rfl⟩
          · simp
  | relative =>
      obtain ⟨c, cs, rfl⟩ := List.exists_cons_of_ne_nil (hrel rfl)
      have hcolon := colon_notMem_intercalate h
      have hsep := (h c List.mem_cons_self).separator
      have hne := (h c List.mem_cons_self).nonempty
      rcases rootOf_cases (['\\'].intercalate (c :: cs)) with
        ⟨rest, heq⟩ | ⟨name, rest, heq, -⟩ | ⟨-, -, heq⟩
      · rw [intercalate_cons] at heq
        cases c with
        | nil => exact absurd rfl hne
        | cons a c =>
            obtain rfl : a = '\\' := (List.cons.inj heq).1
            simp at hsep
      · rw [heq] at hcolon
        simp at hcolon
      · rw [render, heq]
        exact ⟨rfl, stackOf_intercalate h⟩

/-- The components of a written path. -/
theorem componentsOf_render {root : Root} (hroot : root.WellFormed)
    (h : ∀ c ∈ components, Proper c) (hrel : root = .relative → components ≠ []) :
    componentsOf (render root components) = components := by
  have hsplit : components ≠ [] → (['\\'].intercalate components).splitOn '\\' = components :=
    List.splitOn_intercalate _ fun d hd => (h d hd).separator
  have hempty : components ≠ [] → ['\\'].intercalate components ≠ [] := by
    intro hne heq
    obtain ⟨c, cs, rfl⟩ := List.exists_cons_of_ne_nil hne
    rw [intercalate_cons] at heq
    exact (h c List.mem_cons_self).nonempty (List.append_eq_nil_iff.mp heq).1
  have hplain : ∀ root' : Root, (∀ name, root' ≠ .named name) → rootOf (render root components) =
      (root', ['\\'].intercalate components) → componentsOf (render root components) =
        components := by
    intro root' hnot heq
    have hcomponents : componentsOf (render root components) =
        if ['\\'].intercalate components = [] then []
        else (['\\'].intercalate components).splitOn '\\' := by
      unfold componentsOf
      rw [heq]
      cases root' with
      | named name => exact absurd rfl (hnot name)
      | top => rfl
      | relative => rfl
    rw [hcomponents]
    rcases eq_or_ne components [] with rfl | hne
    · rfl
    · rw [if_neg (hempty hne), hsplit hne]
  cases root with
  | top => exact hplain .top (by simp) rfl
  | named name =>
      unfold componentsOf
      cases components with
      | nil =>
          rw [render, rootOf_alias hroot]
          rfl
      | cons c components =>
          rw [render, rootOf_alias hroot]
          · have hcons := List.splitOn_append_cons_self (a := '\\') []
              (['\\'].intercalate (c :: components))
            rw [List.nil_append, List.splitOn_nil] at hcons
            simp only [hcons, List.singleton_append, List.tail_cons]
            exact hsplit (by simp)
          · simp
  | relative =>
      obtain ⟨hr, -⟩ := rootOf_render hroot h hrel
      refine hplain .relative (by simp) ?_
      rcases rootOf_cases (render .relative components) with
        ⟨rest, heq⟩ | ⟨name, rest, heq, hname⟩ | ⟨-, -, heq⟩
      · rw [heq] at hr
        cases hr
      · rw [heq, rootOf_alias hname] at hr
        cases hr
      · exact heq

/-- Every character of a stack is one of the path. -/
theorem mem_of_stackOf (h : stackOf rest = some components) (hc : c ∈ components) {a : Char}
    (ha : a ∈ c) : a ∈ rest := by
  have hpieces : ∀ {pieces stack : List PathText} {stack' : List PathText},
      pieces.foldlM pushComponent stack = some stack' →
        ∀ d ∈ stack', d ∈ stack ∨ d ∈ pieces := by
    intro pieces
    induction pieces with
    | nil =>
        intro stack stack' h d hd
        cases h
        exact .inl hd
    | cons x pieces ih =>
        intro stack stack' h d hd
        rw [List.foldlM_cons, Option.bind_eq_bind, Option.bind_eq_some_iff] at h
        obtain ⟨next, hpush, h⟩ := h
        rcases ih h d hd with hd | hd
        · unfold pushComponent at hpush
          split_ifs at hpush <;> cases hpush
          · exact .inl hd
          · exact .inl (List.mem_of_mem_dropLast hd)
          · rcases List.mem_append.mp hd with hd | hd
            · exact .inl hd
            · exact .inr (List.mem_singleton.mp hd ▸ List.mem_cons_self)
        · exact .inr (List.mem_cons_of_mem _ hd)
  have hc := (hpieces h c hc).resolve_left List.not_mem_nil
  rw [← @List.intercalate_splitOn _ rest _ _ '\\']
  revert hc
  induction rest.splitOn '\\' with
  | nil => simp
  | cons d ds ih =>
      intro hc
      rw [intercalate_cons, List.mem_append, List.mem_flatMap]
      rcases List.mem_cons.mp hc with rfl | hc
      · exact .inl ha
      · exact .inr ⟨c, hc, List.mem_cons_of_mem _ ha⟩

/-- Every character that is written is one of the path, or a separator. -/
theorem mem_of_mem_render {a : Char}
    (h : stackOf (rootOf path).2 = some components)
    (ha : a ∈ render (rootOf path).1 components) : a ∈ path ∨ a = '\\' := by
  have hinter : a ∈ ['\\'].intercalate components → a ∈ (rootOf path).2 ∨ a = '\\' := by
    intro ha
    cases components with
    | nil => simp at ha
    | cons c components =>
        rw [intercalate_cons, List.mem_append, List.mem_flatMap] at ha
        rcases ha with ha | ⟨d, hd, ha⟩
        · exact .inl (mem_of_stackOf h List.mem_cons_self ha)
        · rcases List.mem_cons.mp ha with rfl | ha
          · exact .inr rfl
          · exact .inl (mem_of_stackOf h (List.mem_cons_of_mem _ hd) ha)
  rcases rootOf_cases path with ⟨rest, rfl⟩ | ⟨name, rest, rfl, hname⟩ | ⟨-, -, hrel⟩
  · rw [rootOf_root] at ha hinter
    rcases List.mem_cons.mp ha with rfl | ha
    · exact .inr rfl
    · exact (hinter ha).imp_left (List.mem_cons_of_mem _)
  · rw [rootOf_alias hname] at ha hinter
    have hrest : a ∈ rest → a ∈ name ++ ':' :: rest := fun h => by simp [h]
    cases components with
    | nil =>
        rw [render] at ha
        rcases List.mem_append.mp ha with ha | ha
        · exact .inl (by simp [ha])
        · exact .inl (by simp [List.mem_singleton.mp ha])
    | cons c components =>
        simp only [render, List.mem_append, List.mem_cons] at ha
        rcases ha with ha | rfl | rfl | ha
        · exact .inl (by simp [ha])
        · exact .inl (by simp)
        · exact .inr rfl
        · exact (hinter ha).imp_left hrest
  · rw [hrel] at ha hinter
    exact hinter ha

/-! ### Canonical paths -/

/-- A path in its normal form: no component is empty or dots, there is no `/`,
a colon stands only at the end of an alias that starts the path, and the text is
the prefix and the components. -/
structure Canonical (q : PathText) : Prop where
  components : ∀ c ∈ componentsOf q, c ≠ [] ∧ c ≠ ['.'] ∧ c ≠ ['.', '.']
  slash : '/' ∉ q
  colon : ∀ a b, q = a ++ ':' :: b → ':' ∉ a ∧ '\\' ∉ a ∧ ':' ∉ b ∧ (b = [] ∨ b.head? = some '\\')
  joined : q = render (rootOf q).1 (componentsOf q)

/-- What a success of `normalize_guest_path` means. -/
theorem normalize_ok {input q : PathText} {allowRelative : Bool} :
    normalizeGuestPath input allowRelative = .ok q ↔
      (input ≠ [] ∧ '\x00' ∉ input) ∧
        ¬(((rootOf (input.map backslash)).1 = .relative ∧ allowRelative = false) ∨
          (rootOf (input.map backslash)).1 = .named []) ∧
        ∃ components, stackOf (rootOf (input.map backslash)).2 = some components ∧
          ((rootOf (input.map backslash)).1 = .relative → components ≠ []) ∧
          q = render (rootOf (input.map backslash)).1 components := by
  rw [normalize_eq]
  split
  · next h =>
      refine ⟨nofun, fun ⟨⟨hne, hnul⟩, _⟩ => ?_⟩
      rcases h with h | h
      · exact absurd h hne
      · exact absurd h hnul
  next hinput =>
  rw [not_or] at hinput
  dsimp only
  split
  · next hbad => exact ⟨nofun, fun ⟨_, hgood, _⟩ => absurd hbad hgood⟩
  next hgood =>
  cases hstack : stackOf (rootOf (input.map backslash)).2 with
  | none => exact ⟨nofun, fun ⟨_, _, components, h, _⟩ => by cases h⟩
  | some components =>
      dsimp only
      split
      · next hrel =>
          refine ⟨nofun, fun ⟨_, _, components', h, hne, _⟩ => ?_⟩
          cases h
          exact absurd hrel.2 (hne hrel.1)
      · next hrel =>
          constructor
          · intro h
            cases h
            exact ⟨hinput, hgood, components, rfl, fun hr hc => hrel ⟨hr, hc⟩, rfl⟩
          · rintro ⟨-, -, components', h, -, rfl⟩
            cases h
            rfl

/-- A path without a character stays without it when separators are unified. -/
theorem notMem_map_backslash {a : Char} (h : a ∉ path) (ha : a ≠ '\\') :
    a ∉ path.map backslash := by
  intro hmem
  obtain ⟨b, hb, rfl⟩ := List.mem_map.mp hmem
  unfold backslash at h ha
  split at ha
  · exact ha rfl
  · next hne => exact h (by rwa [if_neg hne])

theorem slash_notMem_map_backslash (path : PathText) : '/' ∉ path.map backslash := by
  intro hmem
  obtain ⟨b, -, hb⟩ := List.mem_map.mp hmem
  unfold backslash at hb
  split at hb
  · exact absurd hb (by decide)
  · next hne => exact hne hb

theorem map_backslash_of_notMem (h : '/' ∉ path) : path.map backslash = path := by
  refine (List.map_congr_left fun c hc => ?_).trans (List.map_id _)
  refine if_neg ?_
  rintro rfl
  exact h hc

/-- The colon of a written path is at the end of its alias. -/
theorem render_colon {root' : Root} {a b : PathText} (hroot : root'.WellFormed)
    (h : ∀ c ∈ components, Proper c) (heq : render root' components = a ++ ':' :: b) :
    ':' ∉ a ∧ '\\' ∉ a ∧ ':' ∉ b ∧ (b = [] ∨ b.head? = some '\\') := by
  have hinter := colon_notMem_intercalate h
  have hmem : ':' ∈ render root' components := by simp [heq]
  cases root' with
  | top => simp [render, hinter] at hmem
  | relative => exact absurd hmem hinter
  | named name =>
      obtain ⟨tail, htail, hcolon, hhead⟩ : ∃ tail, render (.named name) components =
          name ++ ':' :: tail ∧ ':' ∉ tail ∧ (tail = [] ∨ tail.head? = some '\\') := by
        cases components with
        | nil => exact ⟨[], rfl, by simp, .inl rfl⟩
        | cons c components => exact ⟨_, rfl, by simpa using hinter, .inr rfl⟩
      have hname : ':' ∉ name := fun hin => by simpa [inName] using hroot _ hin
      have hsep : '\\' ∉ name := fun hin => by simpa [inName] using hroot _ hin
      have hsplit := htail.symm.trans heq
      rcases List.append_eq_append_iff.mp hsplit with ⟨l, rfl, hl⟩ | ⟨l, rfl, hl⟩
      · cases l with
        | nil =>
            obtain rfl : tail = b := (List.cons.inj hl).2
            rw [List.append_nil]
            exact ⟨hname, hsep, hcolon, hhead⟩
        | cons x l =>
            have htl := (List.cons.inj hl).2
            exact absurd (by simp [htl]) hcolon
      · cases l with
        | nil =>
            obtain rfl : b = tail := (List.cons.inj hl).2
            rw [List.append_nil] at hname hsep
            exact ⟨hname, hsep, hcolon, hhead⟩
        | cons x l =>
            obtain rfl : ':' = x := (List.cons.inj hl).1
            exact absurd (by simp) hname

/-- Appending after a separator adds components to those of the path. -/
theorem stackOf_append (rest r : PathText) :
    stackOf (rest ++ '\\' :: r) =
      (stackOf rest).bind fun stack => (r.splitOn '\\').foldlM pushComponent stack := by
  unfold stackOf
  rw [List.splitOn_append_cons_self, List.foldlM_append]
  rfl

/-- Only the root and the stack of a path matter for what is appended. -/
theorem normalize_append_congr {p q r : PathText} {allowRelative : Bool}
    (hp : p ≠ [] ∧ '\x00' ∉ p) (hq : q ≠ [] ∧ '\x00' ∉ q)
    (hroot : (rootOf (q.map backslash)).1 = (rootOf (p.map backslash)).1)
    (hstack : stackOf (rootOf (q.map backslash)).2 = stackOf (rootOf (p.map backslash)).2) :
    normalizeGuestPath (p ++ '\\' :: r) allowRelative =
      normalizeGuestPath (q ++ '\\' :: r) allowRelative := by
  have hsep : ∀ x : PathText, (x ++ '\\' :: r).map backslash =
      x.map backslash ++ '\\' :: r.map backslash := fun x => by simp [backslash]
  have hinput : ∀ x : PathText, '\x00' ∉ x →
      ((x ++ '\\' :: r = [] ∨ '\x00' ∈ x ++ '\\' :: r) ↔ '\x00' ∈ r) := fun x hx => by
    simp [hx]
  rw [normalize_eq, normalize_eq]
  have hp' := @rootOf_append (p.map backslash) (by simpa using hp.1) (r.map backslash)
  have hq' := @rootOf_append (q.map backslash) (by simpa using hq.1) (r.map backslash)
  simp only [hinput p hp.2, hinput q hq.2, hsep, hp', hq', stackOf_append, hroot, hstack]

/-- **Normalisation is canonical and confining.**  A path that is normalised to
`q` has a canonical `q` that is its own normal form, under the same root, with the
components that reading the path leaves; and whatever is appended, the path and
`q` give the same.  A path whose reading goes above its prefix is refused.  Keys
agree exactly for equal paths. -/
theorem normalizeGuestPath_canonical :
    (∀ p allowRelative q, normalizeGuestPath p allowRelative = .ok q →
      Canonical q ∧ normalizeGuestPath q allowRelative = .ok q ∧
        (rootOf q).1 = (rootOf (p.map backslash)).1 ∧
        (∃ components, read [] ((rootOf (p.map backslash)).2.splitOn '\\') = some components ∧
          q = render (rootOf (p.map backslash)).1 components) ∧
        ∀ r, ':' ∉ r → normalizeGuestPath (p ++ '\\' :: r) allowRelative =
          normalizeGuestPath (q ++ '\\' :: r) allowRelative) ∧
    (∀ p allowRelative, read [] ((rootOf (p.map backslash)).2.splitOn '\\') = none →
      ∃ e, normalizeGuestPath p allowRelative = .error e) ∧
    ∀ q₁ q₂, guestPathKey q₁ = guestPathKey q₂ ↔ guestPathEqual q₁ q₂ = true := by
  refine ⟨fun p allowRelative q h => ?_, fun p allowRelative hread => ?_, fun q₁ q₂ => ?_⟩
  · obtain ⟨hinput, hgood, components, hstack, hrel, rfl⟩ := normalize_ok.mp h
    have hroot := rootOf_wellFormed (p.map backslash)
    have hproper := stackOf_proper hstack
    obtain ⟨hrender, hread⟩ := rootOf_render hroot hproper hrel
    have hcomponents := componentsOf_render hroot hproper hrel
    have hmem : ∀ {a}, a ∈ render (rootOf (p.map backslash)).1 components →
        a ∈ p.map backslash ∨ a = '\\' := fun ha => mem_of_mem_render hstack ha
    have hslash : '/' ∉ render (rootOf (p.map backslash)).1 components := fun ha =>
      (hmem ha).elim (slash_notMem_map_backslash p) (by decide)
    have hnul : '\x00' ∉ render (rootOf (p.map backslash)).1 components := fun ha =>
      (hmem ha).elim (notMem_map_backslash hinput.2 (by decide)) (by decide)
    have hne : render (rootOf (p.map backslash)).1 components ≠ [] := by
      intro hempty
      rw [hempty] at hrender hread
      have hnil : rootOf [] = (.relative, []) := rfl
      rw [hnil] at hrender hread
      obtain rfl : [] = components := by simpa [stackOf, pushComponent] using hread
      exact hrel hrender.symm rfl
    have hsame := map_backslash_of_notMem hslash
    refine ⟨⟨?_, hslash, fun a b hab => render_colon hroot hproper hab, ?_⟩, ?_, hrender,
      ⟨components, foldlM_read.1 hstack, rfl⟩, fun r _ => ?_⟩
    · rw [hcomponents]
      exact fun c hc => ⟨(hproper c hc).nonempty, (hproper c hc).dot, (hproper c hc).dotDot⟩
    · rw [hrender, hcomponents]
    · refine normalize_ok.mpr ⟨⟨hne, hnul⟩, ?_, components, ?_, ?_, ?_⟩
      · rwa [hsame, hrender]
      · rwa [hsame]
      · rwa [hsame, hrender]
      · rw [hsame, hrender]
    · exact normalize_append_congr hinput ⟨hne, hnul⟩ (by rw [hsame, hrender])
        (by rw [hsame, hread, hstack])
  · rw [normalize_eq]
    split
    · exact ⟨_, rfl⟩
    dsimp only
    split
    · exact ⟨_, rfl⟩
    have hnone : stackOf (rootOf (p.map backslash)).2 = none :=
      (@foldlM_read _ _ []).2 hread
    rw [hnone]
    exact ⟨_, rfl⟩
  · unfold guestPathKey guestPathEqual
    rw [Bool.and_eq_true, beq_iff_eq]
    induction q₁ generalizing q₂ with
    | nil => cases q₂ <;> simp
    | cons a q₁ ih =>
        cases q₂ with
        | nil => simp
        | cons b q₂ => simp [ih q₂, and_left_comm]

/-- The rule at a path with both separators, dots and an alias. -/
theorem normalizeGuestPath_canonical_alias : Canonical "game:\\a\\c".toList ∧
    ∀ r, ':' ∉ r → normalizeGuestPath ("game:/a\\.\\b/../c".toList ++ '\\' :: r) false =
      normalizeGuestPath ("game:\\a\\c".toList ++ '\\' :: r) false := by
  have h := normalizeGuestPath_canonical.1 "game:/a\\.\\b/../c".toList false
    "game:\\a\\c".toList (by decide)
  exact ⟨h.1, h.2.2.2.2⟩

end Filesystem
end XenonRecomp
