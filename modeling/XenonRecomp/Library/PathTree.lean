/-
# Trees of named nodes

A tree of files and directories: every node has a path (the list of the names
that lead to it from the root), an identity that is never used twice, and the
mark of a directory.  The structure carries what makes it a tree: one node for
each path and for each identity, a root, and a directory above every other
node.  Three operations change a tree, each with the condition under which the
result is a tree again: `create` a node below a directory, `erase` a node that
has none below it, and `move` a node with all that is below it to a free path.
The lemmas at the end say where an identity is after each of them.
-/

import Mathlib.Algebra.Order.Ring.Int
import Mathlib.Data.List.Infix
import Mathlib.Data.List.Nodup

namespace Library

/-- A file or a directory. -/
structure PathNode (C : Type*) where
  path : List C
  file : ℕ
  isDirectory : Bool
deriving DecidableEq, Repr

/-- A tree of nodes.  `next` is above every identity in use. -/
structure PathTree (C : Type*) where
  nodes : List (PathNode C)
  next : ℕ
  paths_nodup : (nodes.map PathNode.path).Nodup
  files_nodup : (nodes.map PathNode.file).Nodup
  root : ∃ n ∈ nodes, n.path = [] ∧ n.isDirectory = true
  parent : ∀ n ∈ nodes, ∀ p c, n.path = p ++ [c] →
    ∃ d ∈ nodes, d.path = p ∧ d.isDirectory = true
  fresh : ∀ n ∈ nodes, n.file < next

namespace PathTree

variable {C : Type*}

/-- The tree with the empty root alone. -/
def bare (C : Type*) : PathTree C where
  nodes := [⟨[], 0, true⟩]
  next := 1
  paths_nodup := by simp
  files_nodup := by simp
  root := by simp
  parent := by simp
  fresh := by simp

variable {t : PathTree C} {p q : List C} {n m : PathNode C} {f : ℕ}

/-- Nodes of one path are the same node. -/
theorem eq_of_path (hn : n ∈ t.nodes) (hm : m ∈ t.nodes) (h : n.path = m.path) : n = m :=
  List.inj_on_of_nodup_map t.paths_nodup hn hm h

/-- Nodes of one identity are the same node. -/
theorem eq_of_file (hn : n ∈ t.nodes) (hm : m ∈ t.nodes) (h : n.file = m.file) : n = m :=
  List.inj_on_of_nodup_map t.files_nodup hn hm h

/-- Every path above a node is a node's. -/
theorem exists_ancestor (hn : n ∈ t.nodes) {s : List C} (h : n.path = p ++ s) :
    ∃ d ∈ t.nodes, d.path = p ∧ (s ≠ [] → d.isDirectory = true) := by
  induction s using List.reverseRecOn generalizing n with
  | nil => exact ⟨n, hn, by simpa using h, fun hs => absurd rfl hs⟩
  | append_singleton s c ih =>
      rw [← List.append_assoc] at h
      obtain ⟨d, hd, hdp, hdir⟩ := t.parent n hn (p ++ s) c h
      obtain ⟨a, ha, hap, hadir⟩ := ih hd hdp
      refine ⟨a, ha, hap, fun _ => ?_⟩
      cases s with
      | nil =>
          have : d = a := eq_of_path hd ha (by rw [hdp, hap, List.append_nil])
          exact this ▸ hdir
      | cons b s => exact hadir (by simp)

variable [DecidableEq C]

/-- The node of a path. -/
def nodeAt (t : PathTree C) (p : List C) : Option (PathNode C) :=
  t.nodes.find? fun n => n.path = p

/-- The identity of the node of a path. -/
def fileAt (t : PathTree C) (p : List C) : Option ℕ :=
  (t.nodeAt p).map PathNode.file

theorem nodeAt_eq_some : t.nodeAt p = some n ↔ n ∈ t.nodes ∧ n.path = p := by
  constructor
  · intro h
    exact ⟨List.mem_of_find?_eq_some h, by simpa using List.find?_some h⟩
  · rintro ⟨hn, rfl⟩
    cases hfind : t.nodeAt n.path with
    | none => simpa using List.find?_eq_none.mp hfind n hn
    | some m =>
        have hm := List.mem_of_find?_eq_some hfind
        have hpath : m.path = n.path := by simpa using List.find?_some hfind
        rw [eq_of_path hm hn hpath]

theorem nodeAt_eq_none : t.nodeAt p = none ↔ ∀ n ∈ t.nodes, n.path ≠ p := by
  simp [nodeAt, List.find?_eq_none]

theorem fileAt_eq_some : t.fileAt p = some f ↔ ∃ n ∈ t.nodes, n.path = p ∧ n.file = f := by
  simp only [fileAt, Option.map_eq_some_iff, nodeAt_eq_some]
  constructor
  · rintro ⟨n, ⟨hn, hp⟩, hf⟩
    exact ⟨n, hn, hp, hf⟩
  · rintro ⟨n, hn, hp, hf⟩
    exact ⟨n, ⟨hn, hp⟩, hf⟩

/-- An identity has one path. -/
theorem fileAt_inj (hp : t.fileAt p = some f) (hq : t.fileAt q = some f) : p = q := by
  obtain ⟨n, hn, rfl, hnf⟩ := fileAt_eq_some.mp hp
  obtain ⟨m, hm, rfl, hmf⟩ := fileAt_eq_some.mp hq
  rw [eq_of_file hn hm (hnf.trans hmf.symm)]

/-- Identities in use are below `next`. -/
theorem fileAt_lt (h : t.fileAt p = some f) : f < t.next := by
  obtain ⟨n, hn, -, rfl⟩ := fileAt_eq_some.mp h
  exact t.fresh n hn

/-! ### Creating a node -/

/-- A path that is free, below a directory. -/
def Creatable (t : PathTree C) (p : List C) : Prop :=
  p ≠ [] ∧ t.nodeAt p = none ∧ ∃ d ∈ t.nodes, d.path = p.dropLast ∧ d.isDirectory = true

instance (t : PathTree C) (p : List C) : Decidable (t.Creatable p) :=
  inferInstanceAs (Decidable (p ≠ [] ∧ t.nodeAt p = none ∧
    ∃ d ∈ t.nodes, d.path = p.dropLast ∧ d.isDirectory = true))

/-- The tree with a new node at a free path. -/
def create (t : PathTree C) (p : List C) (isDirectory : Bool) (h : t.Creatable p) :
    PathTree C where
  nodes := ⟨p, t.next, isDirectory⟩ :: t.nodes
  next := t.next + 1
  paths_nodup := by
    have hfree := nodeAt_eq_none.mp h.2.1
    simpa [t.paths_nodup] using hfree
  files_nodup := by
    have hbelow := t.fresh
    simp only [List.map_cons, List.nodup_cons, List.mem_map, not_exists, not_and]
    exact ⟨fun n hn hf => by have := hbelow n hn; omega, t.files_nodup⟩
  root := by
    obtain ⟨n, hn, hroot⟩ := t.root
    exact ⟨n, List.mem_cons_of_mem _ hn, hroot⟩
  parent := by
    intro n hn q c hq
    obtain ⟨d, hd, hdq⟩ : ∃ d ∈ t.nodes, d.path = q ∧ d.isDirectory = true := by
      rcases List.mem_cons.mp hn with rfl | hn
      · obtain ⟨d, hd, hdp⟩ := h.2.2
        have hdrop : p.dropLast = q := by
          have hq : p = q ++ [c] := hq
          simp [hq]
        exact ⟨d, hd, hdrop ▸ hdp⟩
      · exact t.parent n hn q c hq
    exact ⟨d, List.mem_cons_of_mem _ hd, hdq⟩
  fresh := by
    intro n hn
    rcases List.mem_cons.mp hn with rfl | hn
    · exact Nat.lt_succ_self _
    · exact Nat.lt_succ_of_lt (t.fresh n hn)

/-- A created node has the fresh identity, and no other path changes. -/
theorem fileAt_create (h : t.Creatable p) {isDirectory : Bool} :
    (t.create p isDirectory h).fileAt q = if q = p then some t.next else t.fileAt q := by
  by_cases hq : p = q
  · subst hq
    simp [fileAt, nodeAt, create]
  · simp [fileAt, nodeAt, create, hq, Ne.symm hq]

/-! ### Erasing a node -/

/-- A path other than the root with nothing below it. -/
def Erasable (t : PathTree C) (p : List C) : Prop :=
  p ≠ [] ∧ ∀ n ∈ t.nodes, n.path ≠ [] → n.path.dropLast ≠ p

instance (t : PathTree C) (p : List C) : Decidable (t.Erasable p) :=
  inferInstanceAs (Decidable (p ≠ [] ∧ ∀ n ∈ t.nodes, n.path ≠ [] → n.path.dropLast ≠ p))

/-- The tree without the node of a path that has none below it. -/
def erase (t : PathTree C) (p : List C) (h : t.Erasable p) : PathTree C where
  nodes := t.nodes.filter fun n => n.path ≠ p
  next := t.next
  paths_nodup := t.paths_nodup.sublist (List.filter_sublist.map _)
  files_nodup := t.files_nodup.sublist (List.filter_sublist.map _)
  root := by
    obtain ⟨n, hn, hpath, hdir⟩ := t.root
    refine ⟨n, List.mem_filter.mpr ⟨hn, ?_⟩, hpath, hdir⟩
    simpa [hpath] using h.1
  parent := by
    intro n hn q c hq
    obtain ⟨hn, -⟩ := List.mem_filter.mp hn
    obtain ⟨d, hd, hdq, hdir⟩ := t.parent n hn q c hq
    refine ⟨d, List.mem_filter.mpr ⟨hd, ?_⟩, hdq, hdir⟩
    have hchild := h.2 n hn (by simp [hq])
    simpa [hdq, hq] using hchild
  fresh := fun n hn => t.fresh n (List.mem_of_mem_filter hn)

/-- An erased node is gone, and no other path changes. -/
theorem fileAt_erase (h : t.Erasable p) :
    (t.erase p h).fileAt q = if q = p then none else t.fileAt q := by
  split
  · next hq =>
      subst hq
      have hnone : (t.erase q h).nodeAt q = none :=
        nodeAt_eq_none.mpr fun n hn => by simpa using (List.mem_filter.mp hn).2
      simp [fileAt, hnone]
  · next hq =>
      ext f
      simp only [fileAt_eq_some, erase, List.mem_filter]
      constructor
      · rintro ⟨n, ⟨hn, -⟩, hnp⟩
        exact ⟨n, hn, hnp⟩
      · rintro ⟨n, hn, hnp, hnf⟩
        exact ⟨n, ⟨hn, by simpa [hnp] using hq⟩, hnp, hnf⟩

/-! ### Moving a node -/

/-- The path after everything at or below `src` has gone to `dst`. -/
def rebase (src dst p : List C) : List C :=
  if src <+: p then dst ++ p.drop src.length else p

/-- A move of a node other than the root to a free path outside of it. -/
def Movable (t : PathTree C) (src dst : List C) : Prop :=
  src ≠ [] ∧ ¬src <+: dst ∧ t.Creatable dst

instance (t : PathTree C) (src dst : List C) : Decidable (t.Movable src dst) :=
  inferInstanceAs (Decidable (src ≠ [] ∧ ¬src <+: dst ∧ t.Creatable dst))

variable {src dst : List C}

theorem rebase_append (s : List C) : rebase src dst (src ++ s) = dst ++ s := by
  simp [rebase]

theorem rebase_of_not (h : ¬src <+: p) : rebase src dst p = p :=
  if_neg h

/-- No node is at or below a free path. -/
theorem Creatable.not_below (h : t.Creatable dst) (hn : n ∈ t.nodes) : ¬dst <+: n.path := by
  rintro ⟨s, hs⟩
  obtain ⟨d, hd, hpath, -⟩ := exists_ancestor hn hs.symm
  exact nodeAt_eq_none.mp h.2.1 d hd hpath

/-- A move keeps the paths of nodes apart. -/
theorem Movable.rebase_inj (h : t.Movable src dst) (hn : n ∈ t.nodes) (hm : m ∈ t.nodes)
    (heq : rebase src dst n.path = rebase src dst m.path) : n.path = m.path := by
  by_cases hns : src <+: n.path <;> by_cases hms : src <+: m.path
  · obtain ⟨a, ha⟩ := hns
    obtain ⟨b, hb⟩ := hms
    rw [← ha, ← hb, rebase_append, rebase_append, List.append_cancel_left_eq] at heq
    rw [← ha, ← hb, heq]
  · obtain ⟨a, ha⟩ := hns
    rw [← ha, rebase_append, rebase_of_not hms] at heq
    exact absurd ⟨a, heq⟩ (h.2.2.not_below hm)
  · obtain ⟨b, hb⟩ := hms
    rw [← hb, rebase_append, rebase_of_not hns] at heq
    exact absurd ⟨b, heq.symm⟩ (h.2.2.not_below hn)
  · rwa [rebase_of_not hns, rebase_of_not hms] at heq

/-- The parent of a moved node is a directory of the moved tree. -/
theorem Movable.parent (h : t.Movable src dst) (hn : n ∈ t.nodes) {c : C}
    (hq : rebase src dst n.path = q ++ [c]) :
    ∃ d ∈ t.nodes, rebase src dst d.path = q ∧ d.isDirectory = true := by
  by_cases hns : src <+: n.path
  · obtain ⟨s, hs⟩ := hns
    rw [← hs, rebase_append] at hq
    rcases List.eq_nil_or_concat s with rfl | ⟨s, b, rfl⟩
    · -- The moved node itself: its parent is the directory above `dst`.
      obtain ⟨d, hd, hpath, hdir⟩ := h.2.2.2.2
      have hdst : dst = q ++ [c] := by simpa using hq
      have hdq : d.path = q := by rw [hpath, hdst, List.dropLast_concat]
      refine ⟨d, hd, ?_, hdir⟩
      rw [rebase_of_not, hdq]
      intro hsrc
      exact h.2.1 (hdst ▸ (hdq ▸ hsrc).trans (List.prefix_append q [c]))
    · -- A node below: its parent moves along.
      rw [List.concat_eq_append, ← List.append_assoc] at hs hq
      obtain ⟨hq, -⟩ := List.append_inj' hq rfl
      obtain ⟨d, hd, hpath, hdir⟩ := t.parent n hn _ _ hs.symm
      exact ⟨d, hd, by rw [hpath, rebase_append, hq], hdir⟩
  · rw [rebase_of_not hns] at hq
    obtain ⟨d, hd, hpath, hdir⟩ := t.parent n hn q c hq
    refine ⟨d, hd, ?_, hdir⟩
    rw [rebase_of_not, hpath]
    intro hsrc
    exact hns (hq ▸ (hpath ▸ hsrc).trans (List.prefix_append q [c]))

/-- The tree after everything at or below `src` has gone to `dst`. -/
def move (t : PathTree C) (src dst : List C) (h : t.Movable src dst) : PathTree C where
  nodes := t.nodes.map fun n => { n with path := rebase src dst n.path }
  next := t.next
  paths_nodup := by
    rw [List.map_map]
    refine List.Nodup.map_on (fun n hn m hm heq => ?_) (List.Nodup.of_map _ t.paths_nodup)
    exact eq_of_path hn hm (h.rebase_inj hn hm heq)
  files_nodup := by
    rw [List.map_map]
    exact t.files_nodup
  root := by
    obtain ⟨n, hn, hpath, hdir⟩ := t.root
    refine ⟨_, List.mem_map_of_mem hn, ?_, hdir⟩
    have hsrc : ¬src <+: n.path := by
      rw [hpath, List.prefix_nil]
      exact h.1
    rw [rebase_of_not hsrc, hpath]
  parent := by
    intro n hn q c hq
    obtain ⟨m, hm, rfl⟩ := List.mem_map.mp hn
    obtain ⟨d, hd, hpath, hdir⟩ := h.parent hm hq
    exact ⟨_, List.mem_map_of_mem hd, hpath, hdir⟩
  fresh := by
    intro n hn
    obtain ⟨m, hm, rfl⟩ := List.mem_map.mp hn
    exact t.fresh m hm

theorem fileAt_move (h : t.Movable src dst) :
    (t.move src dst h).fileAt q = some f ↔
      ∃ p, rebase src dst p = q ∧ t.fileAt p = some f := by
  simp only [fileAt_eq_some, move, List.mem_map]
  constructor
  · rintro ⟨_, ⟨n, hn, rfl⟩, hpath, hfile⟩
    exact ⟨n.path, hpath, n, hn, rfl, hfile⟩
  · rintro ⟨p, hpath, n, hn, rfl, hfile⟩
    exact ⟨_, ⟨n, hn, rfl⟩, hpath, hfile⟩

/-- The moved node is at `dst`. -/
theorem fileAt_move_dst (h : t.Movable src dst) (hsrc : t.fileAt src = some f) :
    (t.move src dst h).fileAt dst = some f :=
  (fileAt_move h).mpr ⟨src, by simpa using @rebase_append _ _ src dst [], hsrc⟩

/-- A node that is not at or below `src` stays where it is. -/
theorem fileAt_move_other (h : t.Movable src dst) (hq : ¬src <+: q)
    (hf : t.fileAt q = some f) : (t.move src dst h).fileAt q = some f :=
  (fileAt_move h).mpr ⟨q, rebase_of_not hq, hf⟩

end PathTree
end Library
