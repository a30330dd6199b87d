/-
# Labelled runs

A partial map from the numbers to labels kept as a list of runs: a first number,
a size and the label of the numbers in the run.  A list is ordered when its runs
are nonempty and follow each other without overlap, and canonical when moreover
runs that touch have different labels.  A canonical list is determined by the
map (`canonical_ext`), so that two ways to update such a list are the same as
soon as they update the map in the same way.

The rules of this module say how the map and the two properties fare under the
steps of which such updates consist: to replace every run by pieces of it
(`canonical_flatMap`), to merge lists by their first numbers and to join runs
with the last one in front of them (`coalesce_spec`).
-/

import Mathlib.Algebra.Order.Ring.Int
import Mathlib.Data.List.Sort

namespace Library

/-- A run of numbers with one label. -/
structure Run (β : Type*) where
  start : ℕ
  size : ℕ
  label : β
deriving DecidableEq, Repr

namespace Run

variable {β : Type*}

/-- The first number after the run. -/
def stop (r : Run β) : ℕ :=
  r.start + r.size

/-- The number lies in the run. -/
def Holds (r : Run β) (a : ℕ) : Prop :=
  r.start ≤ a ∧ a < r.stop

instance (r : Run β) (a : ℕ) : Decidable (r.Holds a) :=
  inferInstanceAs (Decidable (_ ∧ _))

/-- The run `t` is a part of `r`. -/
structure Part (t r : Run β) : Prop where
  start : r.start ≤ t.start
  stop : t.stop ≤ r.stop
  label : t.label = r.label

theorem Part.refl (r : Run β) : Part r r :=
  ⟨le_rfl, le_rfl, rfl⟩

theorem Part.holds {t r : Run β} (h : Part t r) {a : ℕ} (ha : t.Holds a) : r.Holds a :=
  ⟨h.start.trans ha.1, ha.2.trans_le h.stop⟩

theorem holds_start {r : Run β} (h : 0 < r.size) : r.Holds r.start := by
  unfold Holds stop
  omega

end Run

namespace Runs

variable {β : Type*}

instance : Std.Total fun b r : Run β => b.start ≤ r.start :=
  ⟨fun b r => Nat.le_total b.start r.start⟩

instance : IsTrans (Run β) fun b r => b.start ≤ r.start :=
  ⟨fun _ _ _ h h' => Nat.le_trans h h'⟩

/-- The number has the label. -/
def At (l : List (Run β)) (a : ℕ) (b : β) : Prop :=
  ∃ r ∈ l, r.Holds a ∧ r.label = b

/-- The number has a label. -/
def In (l : List (Run β)) (a : ℕ) : Prop :=
  ∃ r ∈ l, r.Holds a

instance (l : List (Run β)) (a : ℕ) : Decidable (In l a) :=
  inferInstanceAs (Decidable (∃ r ∈ l, r.Holds a))

/-- The runs are nonempty and follow each other. -/
structure Ordered (l : List (Run β)) : Prop where
  apart : l.Pairwise fun r t => r.stop ≤ t.start
  nonempty : ∀ r ∈ l, 0 < r.size

/-- The runs are moreover as long as possible. -/
structure Canonical (l : List (Run β)) : Prop extends Ordered l where
  joined : l.Pairwise fun r t => r.stop = t.start → r.label ≠ t.label

/-- All numbers of the runs lie below `n`. -/
def Within (l : List (Run β)) (n : ℕ) : Prop :=
  ∀ r ∈ l, r.stop ≤ n

section Basic

variable {l m : List (Run β)} {r : Run β} {a n : ℕ} {b : β}

@[simp] theorem not_at_nil : ¬At ([] : List (Run β)) a b := by
  simp [At]

@[simp] theorem not_in_nil : ¬In ([] : List (Run β)) a := by
  simp [In]

@[simp] theorem at_cons : At (r :: l) a b ↔ (r.Holds a ∧ r.label = b) ∨ At l a b := by
  simp [At]

@[simp] theorem in_cons : In (r :: l) a ↔ r.Holds a ∨ In l a := by
  simp [In]

@[simp] theorem at_append : At (l ++ m) a b ↔ At l a b ∨ At m a b := by
  simp [At, or_and_right, exists_or]

@[simp] theorem in_append : In (l ++ m) a ↔ In l a ∨ In m a := by
  simp [In, or_and_right, exists_or]

theorem at_perm (h : l.Perm m) : At l a b ↔ At m a b := by
  simp [At, h.mem_iff]

theorem in_iff_exists_at : In l a ↔ ∃ b, At l a b := by
  constructor
  · rintro ⟨r, hr, ha⟩
    exact ⟨r.label, r, hr, ha, rfl⟩
  · rintro ⟨b, r, hr, ha, -⟩
    exact ⟨r, hr, ha⟩

/-- Lists of runs without labels. -/
theorem at_unit {l : List (Run Unit)} {u : Unit} : At l a u ↔ In l a := by
  simp [At, In]

theorem at_flatMap {γ : Type*} {xs : List γ} {f : γ → List (Run β)} :
    At (xs.flatMap f) a b ↔ ∃ x ∈ xs, At (f x) a b := by
  simp only [At, List.mem_flatMap]
  constructor
  · rintro ⟨r, ⟨x, hx, hr⟩, h⟩
    exact ⟨x, hx, r, hr, h⟩
  · rintro ⟨x, hx, r, hr, h⟩
    exact ⟨r, ⟨x, hx, hr⟩, h⟩

theorem Within.lt (h : Within l n) (ha : In l a) : a < n := by
  obtain ⟨r, hr, ha⟩ := ha
  exact ha.2.trans_le (h r hr)

theorem ordered_nil : Ordered ([] : List (Run β)) :=
  ⟨.nil, by simp⟩

theorem canonical_nil : Canonical ([] : List (Run β)) :=
  ⟨ordered_nil, .nil⟩

theorem ordered_cons :
    Ordered (r :: l) ↔ (∀ t ∈ l, r.stop ≤ t.start) ∧ 0 < r.size ∧ Ordered l := by
  constructor
  · rintro ⟨hapart, hpos⟩
    obtain ⟨hr, hl⟩ := List.pairwise_cons.mp hapart
    exact ⟨hr, hpos r List.mem_cons_self, hl, fun t ht => hpos t (List.mem_cons_of_mem _ ht)⟩
  · rintro ⟨hr, hpos, hl⟩
    refine ⟨List.pairwise_cons.mpr ⟨hr, hl.apart⟩, fun t ht => ?_⟩
    rcases List.mem_cons.mp ht with rfl | ht
    · exact hpos
    · exact hl.nonempty t ht

theorem canonical_cons :
    Canonical (r :: l) ↔ (∀ t ∈ l, r.stop ≤ t.start) ∧
      (∀ t ∈ l, r.stop = t.start → r.label ≠ t.label) ∧ 0 < r.size ∧ Canonical l := by
  constructor
  · rintro ⟨hordered, hjoined⟩
    obtain ⟨hr, hpos, hl⟩ := ordered_cons.mp hordered
    obtain ⟨hj, hjl⟩ := List.pairwise_cons.mp hjoined
    exact ⟨hr, hj, hpos, hl, hjl⟩
  · rintro ⟨hr, hj, hpos, hl, hjl⟩
    exact ⟨ordered_cons.mpr ⟨hr, hpos, hl⟩, List.pairwise_cons.mpr ⟨hj, hjl⟩⟩

theorem canonical_append (hl : Canonical l) (hm : Canonical m)
    (hgap : ∀ r ∈ l, ∀ t ∈ m, r.stop < t.start) : Canonical (l ++ m) := by
  refine ⟨⟨List.pairwise_append.mpr ⟨hl.apart, hm.apart, fun r hr t ht => (hgap r hr t ht).le⟩,
    fun t ht => ?_⟩, List.pairwise_append.mpr ⟨hl.joined, hm.joined, fun r hr t ht htouch =>
      absurd htouch (hgap r hr t ht).ne⟩⟩
  rcases List.mem_append.mp ht with ht | ht
  · exact hl.nonempty t ht
  · exact hm.nonempty t ht

theorem canonical_singleton (h : 0 < r.size) : Canonical [r] :=
  canonical_cons.mpr ⟨by simp, by simp, h, canonical_nil⟩

theorem Ordered.sublist (hl : Ordered l) (h : m.Sublist l) : Ordered m :=
  ⟨hl.apart.sublist h, fun r hr => hl.nonempty r (h.subset hr)⟩

theorem Ordered.starts (hl : Ordered l) : l.Pairwise fun b r => b.start ≤ r.start := by
  refine hl.apart.imp fun {b r} hbr => ?_
  unfold Run.stop at hbr
  omega

/-- Two runs of an ordered list have no number in common. -/
theorem Ordered.disjoint (hl : Ordered l) : l.Pairwise fun b r => ∀ a, b.Holds a → ¬r.Holds a := by
  refine hl.apart.imp fun {b r} hbr a hb hr => ?_
  unfold Run.Holds at *
  omega

/-- A number has one label. -/
theorem Ordered.at_unique (h : Ordered l) {c : β} (hb : At l a b) (hc : At l a c) : b = c := by
  induction l with
  | nil => simp at hb
  | cons r l ih =>
      obtain ⟨hr, hpos, hl⟩ := ordered_cons.mp h
      have hlater : ∀ d, At l a d → r.stop ≤ a := fun d ⟨t, ht, ha, _⟩ => (hr t ht).trans ha.1
      rcases at_cons.mp hb with ⟨ha, rfl⟩ | hb <;> rcases at_cons.mp hc with ⟨ha', rfl⟩ | hc
      · rfl
      · exact absurd ha.2 (hlater c hc).not_gt
      · exact absurd ha'.2 (hlater b hb).not_gt
      · exact ih hl hb hc

/-- The first number of an ordered list is its least. -/
theorem Ordered.head_le (h : Ordered (r :: l)) (ha : In (r :: l) a) : r.start ≤ a := by
  obtain ⟨hr, hpos, -⟩ := ordered_cons.mp h
  rcases in_cons.mp ha with ha | ⟨t, ht, ha⟩
  · exact ha.1
  · have := hr t ht
    have := ha.1
    unfold Run.stop at *
    omega

theorem Ordered.at_tail (h : Ordered (r :: l)) : At l a b ↔ At (r :: l) a b ∧ r.stop ≤ a := by
  obtain ⟨hr, -, -⟩ := ordered_cons.mp h
  constructor
  · rintro ⟨t, ht, ha, hb⟩
    exact ⟨at_cons.mpr (.inr ⟨t, ht, ha, hb⟩), (hr t ht).trans ha.1⟩
  · rintro ⟨ha, hstop⟩
    rcases at_cons.mp ha with ⟨ha, -⟩ | ha
    · exact absurd ha.2 hstop.not_gt
    · exact ha

end Basic

/-! ### A canonical list is determined by its map -/

section Ext

variable {l m : List (Run β)}

/-- The first run of a canonical list reaches as far as its label does. -/
theorem Canonical.stop_le {r t : Run β} (hl : Canonical (r :: l))
    (hmap : ∀ a b, At (r :: l) a b ↔ At (t :: m) a b) (hstart : r.start = t.start)
    (hlabel : r.label = t.label) : t.stop ≤ r.stop := by
  by_contra hlt
  obtain ⟨hapart, hjoined, hpos, -⟩ := canonical_cons.mp hl
  have hholds : t.Holds r.stop := by
    unfold Run.Holds Run.stop at *
    omega
  have hat : At (r :: l) r.stop t.label := (hmap _ _).mpr (at_cons.mpr (.inl ⟨hholds, rfl⟩))
  rcases at_cons.mp hat with ⟨hr, -⟩ | ⟨u, hu, hur, hul⟩
  · exact absurd hr.2 (Nat.lt_irrefl _)
  · exact hjoined u hu (le_antisymm (hapart u hu) hur.1) (hlabel.trans hul.symm)

/-- **Two canonical lists with the same map are the same.** -/
theorem canonical_ext (hl : Canonical l) (hm : Canonical m)
    (hmap : ∀ a b, At l a b ↔ At m a b) : l = m := by
  induction l generalizing m with
  | nil =>
      cases m with
      | nil => rfl
      | cons t m =>
          have hpos := (canonical_cons.mp hm).2.2.1
          exact absurd ((hmap _ _).mpr (at_cons.mpr (.inl ⟨Run.holds_start hpos, rfl⟩))) not_at_nil
  | cons r l ih =>
      have hrpos := (canonical_cons.mp hl).2.2.1
      cases m with
      | nil =>
          exact absurd ((hmap _ _).mp (at_cons.mpr (.inl ⟨Run.holds_start hrpos, rfl⟩))) not_at_nil
      | cons t m =>
          have htpos := (canonical_cons.mp hm).2.2.1
          have hr : At (r :: l) r.start r.label := at_cons.mpr (.inl ⟨Run.holds_start hrpos, rfl⟩)
          have ht : At (t :: m) t.start t.label := at_cons.mpr (.inl ⟨Run.holds_start htpos, rfl⟩)
          have hstart : r.start = t.start := by
            refine le_antisymm ?_ ?_
            · exact hl.head_le (in_iff_exists_at.mpr ⟨_, (hmap _ _).mpr ht⟩)
            · exact hm.head_le (in_iff_exists_at.mpr ⟨_, (hmap _ _).mp hr⟩)
          have hlabel : r.label = t.label := by
            rw [hstart] at hr
            exact hm.at_unique ((hmap _ _).mp hr) ht
          have hstop : r.stop = t.stop := by
            refine le_antisymm ?_ ?_
            · exact hm.stop_le (fun a b => (hmap a b).symm) hstart.symm hlabel.symm
            · exact hl.stop_le hmap hstart hlabel
          have hsize : r.size = t.size := by
            unfold Run.stop at hstop
            omega
          have hhead : r = t := by
            cases r
            cases t
            simp_all
          subst hhead
          rw [ih (canonical_cons.mp hl).2.2.2 (canonical_cons.mp hm).2.2.2 fun a b => by
            rw [hl.at_tail, hm.at_tail, hmap]]

end Ext

/-! ### Pieces -/

section Pieces

variable {l : List (Run β)} {f : Run β → List (Run β)} {n : ℕ}

/-- Every run is replaced by parts of it that follow each other and do not
touch, so the list stays ordered. -/
theorem ordered_flatMap (hl : Ordered l) (hf : ∀ r ∈ l, Ordered (f r))
    (hpart : ∀ r ∈ l, ∀ t ∈ f r, t.Part r) : Ordered (l.flatMap f) := by
  refine ⟨List.pairwise_flatMap.mpr ⟨fun r hr => (hf r hr).apart, ?_⟩, fun t ht => ?_⟩
  · refine hl.apart.imp_of_mem fun {r u} hr hu hru t ht v hv => ?_
    exact (hpart r hr t ht).stop.trans (hru.trans (hpart u hu v hv).start)
  · obtain ⟨r, hr, ht⟩ := List.mem_flatMap.mp ht
    exact (hf r hr).nonempty t ht

/-- Every run is replaced by parts of it that do not touch each other, so the
list stays canonical. -/
theorem canonical_flatMap (hl : Canonical l) (hf : ∀ r ∈ l, Canonical (f r))
    (hpart : ∀ r ∈ l, ∀ t ∈ f r, t.Part r) : Canonical (l.flatMap f) := by
  refine ⟨ordered_flatMap hl.toOrdered (fun r hr => (hf r hr).toOrdered) hpart,
    List.pairwise_flatMap.mpr ⟨fun r hr => (hf r hr).joined, ?_⟩⟩
  refine (hl.apart.and hl.joined).imp_of_mem fun {r u} hr hu hru t ht v hv htouch => ?_
  have ht := hpart r hr t ht
  have hv := hpart u hu v hv
  rw [ht.label, hv.label]
  refine hru.2 (le_antisymm hru.1 ?_)
  exact hv.start.trans (htouch ▸ ht.stop)

theorem within_flatMap (hl : Within l n) (hpart : ∀ r ∈ l, ∀ t ∈ f r, t.Part r) :
    Within (l.flatMap f) n := by
  intro t ht
  obtain ⟨r, hr, ht⟩ := List.mem_flatMap.mp ht
  exact (hpart r hr t ht).stop.trans (hl r hr)

/-- The pieces of a run that hold the numbers with `keep`. -/
structure Carves (r : Run β) (pieces : List (Run β)) (keep : ℕ → Prop) : Prop where
  canonical : Canonical pieces
  part : ∀ t ∈ pieces, t.Part r
  holds : ∀ a, In pieces a ↔ r.Holds a ∧ keep a

theorem Carves.at_iff {r : Run β} {pieces : List (Run β)} {keep : ℕ → Prop}
    (h : Carves r pieces keep) {a : ℕ} {b : β} :
    At pieces a b ↔ (r.Holds a ∧ r.label = b) ∧ keep a := by
  constructor
  · rintro ⟨t, ht, ha, rfl⟩
    obtain ⟨hr, hkeep⟩ := (h.holds a).mp ⟨t, ht, ha⟩
    exact ⟨⟨hr, (h.part t ht).label.symm⟩, hkeep⟩
  · rintro ⟨⟨hr, rfl⟩, hkeep⟩
    obtain ⟨t, ht, ha⟩ := (h.holds a).mpr ⟨hr, hkeep⟩
    exact ⟨t, ht, ha, (h.part t ht).label⟩

/-- A run that is kept as it is. -/
theorem carves_self {r : Run β} {keep : ℕ → Prop} (hpos : 0 < r.size)
    (h : ∀ a, r.Holds a → keep a) : Carves r [r] keep := by
  refine ⟨canonical_singleton hpos, fun t ht => ?_, fun a => ?_⟩
  · obtain rfl := List.mem_singleton.mp ht
    exact .refl t
  · simpa using h a

/-- **Every run is replaced by the pieces with the numbers that are kept.** -/
theorem at_flatMap_carves (keep : β → ℕ → Prop) (hf : ∀ r ∈ l, Carves r (f r) (keep r.label))
    {a : ℕ} {b : β} : At (l.flatMap f) a b ↔ At l a b ∧ keep b a := by
  rw [at_flatMap]
  constructor
  · rintro ⟨r, hr, ha⟩
    obtain ⟨⟨hholds, rfl⟩, hkeep⟩ := (hf r hr).at_iff.mp ha
    exact ⟨⟨r, hr, hholds, rfl⟩, hkeep⟩
  · rintro ⟨⟨r, hr, hholds, rfl⟩, hkeep⟩
    exact ⟨r, hr, (hf r hr).at_iff.mpr ⟨⟨hholds, rfl⟩, hkeep⟩⟩

end Pieces

/-! ### Joining neighbours -/

section Coalesce

/-- Put `r` behind the runs of `acc`, of which the last comes first, or join it
with the last of them. -/
def pushBack (joins : Run β → Run β → Bool) (grow : Run β → Run β → ℕ) (acc : List (Run β))
    (r : Run β) : List (Run β) :=
  match acc with
  | [] => [r]
  | back :: rest =>
      if joins back r then { back with size := grow back r } :: rest else r :: back :: rest

/-- Join every run with the last one in front of it where `joins` says so. -/
def coalesce (joins : Run β → Run β → Bool) (grow : Run β → Run β → ℕ) (l : List (Run β)) :
    List (Run β) :=
  (l.foldl (pushBack joins grow) []).reverse

/-- `coalesce` behind a run that may still grow. -/
def settle (joins : Run β → Run β → Bool) (grow : Run β → Run β → ℕ) (pending : Run β) :
    List (Run β) → List (Run β)
  | [] => [pending]
  | r :: rs =>
      if joins pending r then settle joins grow { pending with size := grow pending r } rs
      else pending :: settle joins grow r rs

variable {joins : Run β → Run β → Bool} {grow : Run β → Run β → ℕ}

theorem reverse_foldl_pushBack (pending : Run β) (rest l : List (Run β)) :
    (l.foldl (pushBack joins grow) (pending :: rest)).reverse =
      rest.reverse ++ settle joins grow pending l := by
  induction l generalizing pending rest with
  | nil => simp [settle]
  | cons r l ih =>
      rw [List.foldl_cons, settle, pushBack]
      split_ifs with hjoin
      · exact ih _ rest
      · rw [ih, List.reverse_cons, List.append_assoc, List.singleton_append]

@[simp] theorem coalesce_cons (r : Run β) (l : List (Run β)) :
    coalesce joins grow (r :: l) = settle joins grow r l :=
  reverse_foldl_pushBack r [] l

/-- What `coalesce` needs of `joins` and `grow`, for lists whose earlier and
later runs are related by `P` and end at `n` or before. -/
structure Joining (joins : Run β → Run β → Bool) (grow : Run β → Run β → ℕ)
    (P : Run β → Run β → Prop) (n : ℕ) : Prop where
  start : ∀ b r, P b r → b.start ≤ r.start
  /-- Runs that are joined touch or overlap, and have one label. -/
  touch : ∀ b r, P b r → joins b r = true → r.start ≤ b.stop ∧ b.label = r.label
  /-- Runs that are not joined are apart or have two labels. -/
  apart : ∀ b r, P b r → joins b r = false →
    b.stop ≤ r.start ∧ (b.stop = r.start → b.label ≠ r.label)
  grow : ∀ b r, P b r → joins b r = true → b.stop ≤ n → r.stop ≤ n →
    grow b r = max b.stop r.stop - b.start
  keep : ∀ b r t, P b r → joins b r = true → P b t → P r t →
    P ⟨b.start, max b.stop r.stop - b.start, b.label⟩ t

/-- The list `settle` gives: what it holds and how it starts. -/
structure Settled (pending : Run β) (l result : List (Run β)) (n : ℕ) : Prop where
  canonical : Canonical result
  map : ∀ a b, At result a b ↔ At (pending :: l) a b
  within : Within result n
  head : ∃ size tail, result = ⟨pending.start, size, pending.label⟩ :: tail

/-- One run that takes the place of two joined ones. -/
theorem at_join {b r : Run β} (hstart : b.start ≤ r.start) (htouch : r.start ≤ b.stop)
    (hlabel : b.label = r.label) (l : List (Run β)) (a : ℕ) (c : β) :
    At (⟨b.start, max b.stop r.stop - b.start, b.label⟩ :: l) a c ↔ At (b :: r :: l) a c := by
  have hholds : (⟨b.start, max b.stop r.stop - b.start, b.label⟩ : Run β).Holds a ↔
      b.Holds a ∨ r.Holds a := by
    unfold Run.Holds Run.stop at *
    simp only
    omega
  rw [at_cons, at_cons, at_cons, hholds, ← hlabel]
  tauto

theorem settle_spec {P : Run β → Run β → Prop} {n : ℕ} (hJ : Joining joins grow P n)
    {pending : Run β} {l : List (Run β)} (hP : (pending :: l).Pairwise P)
    (hpos : ∀ r ∈ pending :: l, 0 < r.size) (hn : Within (pending :: l) n) :
    Settled pending l (settle joins grow pending l) n := by
  induction l generalizing pending with
  | nil =>
      exact ⟨canonical_cons.mpr ⟨by simp, by simp, hpos _ (by simp), canonical_nil⟩,
        fun _ _ => Iff.rfl, hn, pending.size, [], rfl⟩
  | cons r l ih =>
      obtain ⟨hpending, hrest⟩ := List.pairwise_cons.mp hP
      obtain ⟨hr, hl⟩ := List.pairwise_cons.mp hrest
      have hpr := hpending r List.mem_cons_self
      have hpn := hn pending List.mem_cons_self
      have hrn := hn r (by simp)
      have hppos := hpos pending List.mem_cons_self
      rw [settle]
      split_ifs with hjoin
      · have hstart := hJ.start _ _ hpr
        obtain ⟨htouch, hlabel⟩ := hJ.touch _ _ hpr hjoin
        rw [hJ.grow _ _ hpr hjoin hpn hrn]
        have hnext := @ih ⟨pending.start, max pending.stop r.stop - pending.start,
          pending.label⟩ ?_ ?_ ?_
        · refine ⟨hnext.canonical, fun a b => ?_, hnext.within, hnext.head⟩
          rw [hnext.map, at_join hstart htouch hlabel]
        · refine List.pairwise_cons.mpr ⟨fun t ht => ?_, hl⟩
          exact hJ.keep _ _ _ hpr hjoin (hpending t (List.mem_cons_of_mem _ ht)) (hr t ht)
        · intro t ht
          rcases List.mem_cons.mp ht with rfl | ht
          · unfold Run.stop
            simp only
            omega
          · exact hpos t (by simp [ht])
        · intro t ht
          rcases List.mem_cons.mp ht with rfl | ht
          · unfold Run.stop at *
            simp only
            omega
          · exact hn t (by simp [ht])
      · have hjoin := Bool.eq_false_iff.mpr hjoin
        obtain ⟨hapart, hlabel⟩ := hJ.apart _ _ hpr hjoin
        obtain ⟨hcanonical, hmap, hwithin, size, tail, htail⟩ := ih hrest
          (fun t ht => hpos t (List.mem_cons_of_mem _ ht))
          (fun t ht => hn t (List.mem_cons_of_mem _ ht))
        rw [htail] at hcanonical hwithin hmap ⊢
        have hhead := canonical_cons.mp hcanonical
        have hlater : ∀ t ∈ tail, pending.stop < t.start := by
          intro t ht
          have := hhead.1 t ht
          have := hhead.2.2.1
          unfold Run.stop at *
          simp only at *
          omega
        refine ⟨canonical_cons.mpr ⟨?_, ?_, hppos, hcanonical⟩, fun a b => ?_, ?_, ?_⟩
        · intro t ht
          rcases List.mem_cons.mp ht with rfl | ht
          · exact hapart
          · exact (hlater t ht).le
        · intro t ht htouch
          rcases List.mem_cons.mp ht with rfl | ht
          · exact hlabel htouch
          · exact absurd htouch (hlater t ht).ne
        · rw [at_cons, hmap, at_cons (r := pending)]
        · intro t ht
          rcases List.mem_cons.mp ht with rfl | ht
          · exact hpn
          · exact hwithin t ht
        · exact ⟨pending.size, _, rfl⟩

/-- **Joining makes a list canonical and keeps its map.** -/
theorem coalesce_spec {P : Run β → Run β → Prop} {n : ℕ} (hJ : Joining joins grow P n)
    {l : List (Run β)} (hP : l.Pairwise P) (hpos : ∀ r ∈ l, 0 < r.size) (hn : Within l n) :
    Canonical (coalesce joins grow l) ∧ (∀ a b, At (coalesce joins grow l) a b ↔ At l a b) ∧
      Within (coalesce joins grow l) n := by
  cases l with
  | nil => exact ⟨canonical_nil, fun _ _ => Iff.rfl, hn⟩
  | cons r l =>
      rw [coalesce_cons]
      have hsettled := settle_spec hJ hP hpos hn
      exact ⟨hsettled.canonical, hsettled.map, hsettled.within⟩

end Coalesce

end Runs
end Library
