/-
# The lists of ranges as maps

What the operations of `XenonRecomp.Memory.GpuCoherency` on lists of ranges do
to the maps that the lists stand for.  A list is formed when it is canonical and
ends at `n` or before; with `n` below `2 ^ 32` no cast of the source loses
anything, every operation keeps its list formed, and its effect on the map is
the one its name says.
-/

import XenonRecomp.Memory.GpuCoherency
import Mathlib.Data.List.TakeWhile

namespace XenonRecomp
namespace Memory

open Library Library.Runs

/-- A canonical list of ranges below `n`. -/
structure Formed {β : Type} (l : List (Run β)) (n : ℕ) : Prop extends Canonical l where
  within : Within l n

section Algebra

variable {β : Type} {l : List (Run β)} {n : ℕ}

theorem formed_nil : Formed ([] : List (Run β)) n :=
  ⟨canonical_nil, fun _ h => nomatch h⟩

theorem u32_eq {x : ℕ} (h : x < 2 ^ 32) : u32 x = x :=
  Nat.mod_eq_of_lt h

theorem piece_eq {range : Run β} {first last : ℕ} (h : first < last) (hlast : last < 2 ^ 32) :
    piece range first last = { range with start := first, size := last - first } := by
  rw [piece, u32_eq (by omega), u32_eq (by omega)]

/-- A piece of a range: its bytes, and that it is a part. -/
theorem piece_part {range : Run β} {first last : ℕ} (hfirst : range.start ≤ first)
    (h : first < last) (hstop : last ≤ range.stop) (hlast : last < 2 ^ 32) :
    (piece range first last).Part range ∧ 0 < (piece range first last).size ∧
      (piece range first last).start = first ∧ (piece range first last).stop = last := by
  rw [piece_eq h hlast]
  have hlen : first + (last - first) = last := by omega
  exact ⟨⟨hfirst, hlen.trans_le hstop, rfl⟩, Nat.sub_pos_of_lt h, rfl, hlen⟩

/-- Formed lists stay formed when every range is replaced by pieces of it. -/
theorem Formed.flatMap (hl : Formed l n) {f : Run β → List (Run β)} (keep : β → ℕ → Prop)
    (hf : ∀ r ∈ l, Carves r (f r) (keep r.label)) : Formed (l.flatMap f) n :=
  ⟨canonical_flatMap hl.toCanonical (fun r hr => (hf r hr).canonical) fun r hr => (hf r hr).part,
    within_flatMap hl.within fun r hr => (hf r hr).part⟩

/-- The pieces of a range in front of and behind a hole. -/
theorem carves_hole {range : Run β} {first last : ℕ} {keep : ℕ → Prop} (h : first < last)
    (hoverlap : range.start ≤ last ∧ first ≤ range.stop) (hstop : range.stop < 2 ^ 32)
    {left : Run β} (hleft : range.start < first → left = piece range range.start first)
    (hkeep : ∀ a, range.Holds a → (keep a ↔ ¬(first ≤ a ∧ a < last))) :
    Carves range ((if range.start < first then [left] else []) ++
      (if last < range.stop then [piece range last range.stop] else [])) keep := by
  have hleft' : range.start < first → left.Part range ∧ 0 < left.size ∧
      left.start = range.start ∧ left.stop = first := fun hlt => by
    rw [hleft hlt]
    exact piece_part le_rfl hlt hoverlap.2 (by omega)
  have hright : last < range.stop → (piece range last range.stop).Part range ∧
      0 < (piece range last range.stop).size ∧ (piece range last range.stop).start = last ∧
      (piece range last range.stop).stop = range.stop := fun hlt =>
    piece_part hoverlap.1 hlt le_rfl hstop
  refine ⟨canonical_append ?_ ?_ ?_, ?_, fun a => ?_⟩
  · split_ifs with hlt
    · exact canonical_singleton (hleft' hlt).2.1
    · exact canonical_nil
  · split_ifs with hlt
    · exact canonical_singleton (hright hlt).2.1
    · exact canonical_nil
  · intro t ht u hu
    split_ifs at ht hu with hlt hlt' <;> simp only [List.mem_singleton, List.not_mem_nil] at ht hu
    subst ht hu
    rw [(hleft' hlt).2.2.2, (hright hlt').2.2.1]
    exact h
  · intro t ht
    rcases List.mem_append.mp ht with ht | ht <;> split_ifs at ht with hlt <;>
      simp only [List.mem_singleton, List.not_mem_nil] at ht <;> subst ht
    · exact (hleft' hlt).1
    · exact (hright hlt).1
  · have hl : In (if range.start < first then [left] else []) a ↔ range.start ≤ a ∧ a < first := by
      split_ifs with hlt
      · simp only [in_cons, not_in_nil, or_false, Run.Holds, (hleft' hlt).2.2.1, (hleft' hlt).2.2.2]
      · simp only [not_in_nil, false_iff]
        omega
    have hr : In (if last < range.stop then [piece range last range.stop] else []) a ↔
        last ≤ a ∧ a < range.stop := by
      split_ifs with hlt
      · simp only [in_cons, not_in_nil, or_false, Run.Holds, (hright hlt).2.2.1,
          (hright hlt).2.2.2]
      · simp only [not_in_nil, false_iff]
        omega
    rw [in_append, hl, hr]
    constructor
    · intro ha
      have hholds : range.Holds a := by
        unfold Run.Holds
        omega
      exact ⟨hholds, (hkeep a hholds).mpr (by omega)⟩
    · rintro ⟨hholds, hk⟩
      have hout := (hkeep a hholds).mp hk
      unfold Run.Holds at hholds
      omega

/-- **`subtract` removes the bytes of a range.** -/
theorem subtract_spec (hl : Formed l n) (hn : n < 2 ^ 32) (removed : GpuCoherencyRange) :
    Formed (subtract l removed) n ∧
      ∀ a b, At (subtract l removed) a b ↔ At l a b ∧ ¬removed.Holds a := by
  unfold subtract
  split_ifs with hsize
  · refine ⟨hl, fun a b => (and_iff_left ?_).symm⟩
    unfold Run.Holds Run.stop
    omega
  · have hcarves : ∀ r ∈ l, Carves r (if r.stop ≤ removed.start ∨ removed.stop ≤ r.start then [r]
        else (if r.start < removed.start then
            [{ r with size := removed.start - r.start }] else []) ++
          (if removed.stop < r.stop then [piece r removed.stop r.stop] else []))
        fun a => ¬removed.Holds a := by
      intro r hr
      have hrn := hl.within r hr
      by_cases hout : r.stop ≤ removed.start ∨ removed.stop ≤ r.start
      · rw [if_pos hout]
        refine carves_self (hl.nonempty r hr) fun a ha => ?_
        unfold Run.Holds at *
        omega
      · rw [if_neg hout]
        refine carves_hole ?_ ?_ (by omega) (fun hlt => ?_) fun a _ => Iff.rfl
        · unfold Run.stop
          omega
        · omega
        · rw [piece_eq hlt (by omega)]
    exact ⟨hl.flatMap (fun _ a => ¬removed.Holds a) hcarves,
      fun a b => at_flatMap_carves (fun _ a => ¬removed.Holds a) hcarves⟩

/-! ### Insertion -/

/-- Formed lists without labels have gaps between their ranges. -/
theorem Formed.gap {l : List GpuCoherencyRange} {r : GpuCoherencyRange} (h : Formed (r :: l) n) :
    ∀ t ∈ l, r.stop < t.start := by
  obtain ⟨hapart, hjoined, -, -⟩ := canonical_cons.mp h.toCanonical
  exact fun t ht => lt_of_le_of_ne (hapart t ht) fun htouch => hjoined t ht htouch rfl

theorem Formed.tail {r : Run β} (h : Formed (r :: l) n) : Formed l n :=
  ⟨(canonical_cons.mp h.toCanonical).2.2.2, fun t ht => h.within t (List.mem_cons_of_mem _ ht)⟩

theorem formed_cons {r : Run β} (hr : r.stop ≤ n) (hpos : 0 < r.size) (hl : Formed l n)
    (hgap : ∀ t ∈ l, r.stop < t.start) : Formed (r :: l) n := by
  refine ⟨canonical_cons.mpr ⟨fun t ht => (hgap t ht).le, fun t ht htouch =>
    absurd htouch (hgap t ht).ne, hpos, hl.toCanonical⟩, fun t ht => ?_⟩
  rcases List.mem_cons.mp ht with rfl | ht
  · exact hr
  · exact hl.within t ht

/-- Behind the inserted range the list stays as it is. -/
theorem addLoop_emitted {l : List GpuCoherencyRange} {start stop : ℕ} (h : start < stop)
    (hl : ∀ r ∈ l, stop < r.start) : addLoop start stop true l = l := by
  induction l with
  | nil => simp [addLoop]
  | cons r l ih =>
      have hr := hl r List.mem_cons_self
      have hnot : ¬r.stop < start := by
        unfold Run.stop
        omega
      rw [addLoop, if_neg hnot, if_pos hr, ih fun t ht => hl t (List.mem_cons_of_mem _ ht)]
      rfl

/-- Nothing is inserted in front of both the list and the new range. -/
theorem addLoop_lower {l : List GpuCoherencyRange} {start stop c : ℕ} (h : start < stop)
    (hstop : stop < 2 ^ 32) (hc : c < start) (hl : ∀ r ∈ l, c < r.start ∧ r.stop < 2 ^ 32)
    (emitted : Bool) : ∀ t ∈ addLoop start stop emitted l, c < t.start := by
  induction l generalizing start stop emitted with
  | nil =>
      intro t ht
      cases emitted with
      | true => simp [addLoop] at ht
      | false =>
          obtain rfl : t = _ := by simpa [addLoop] using ht
          simpa [u32_eq (show start < 2 ^ 32 by omega)] using hc
  | cons r l ih =>
      obtain ⟨hr, hrn⟩ := hl r List.mem_cons_self
      have hl' := fun t ht => hl t (List.mem_cons_of_mem r ht)
      intro t ht
      rw [addLoop] at ht
      split_ifs at ht with hbefore hafter hemitted
      · rcases List.mem_cons.mp ht with rfl | ht
        · exact hr
        · exact ih h hstop hc hl' emitted t ht
      · rcases List.mem_cons.mp ht with rfl | ht
        · exact hr
        · exact ih h hstop hc hl' true t ht
      · rcases List.mem_cons.mp ht with rfl | ht
        · simpa [u32_eq (show start < 2 ^ 32 by omega)] using hc
        · rcases List.mem_cons.mp ht with rfl | ht
          · exact hr
          · exact ih h hstop hc hl' true t ht
      · have hmin : min start r.start < max stop r.stop := by omega
        exact ih hmin (by omega) (by omega) hl' emitted t ht

/-- The inserted range as it is written out. -/
theorem inserted_holds {start stop : ℕ} (h : start < stop) (hstop : stop < 2 ^ 32) :
    (⟨u32 start, u32 (stop - start), ()⟩ : GpuCoherencyRange) = ⟨start, stop - start, ()⟩ := by
  rw [u32_eq (show start < 2 ^ 32 by omega), u32_eq (show stop - start < 2 ^ 32 by omega)]

theorem addLoop_spec {l : List GpuCoherencyRange} (hl : Formed l n) (hn : n < 2 ^ 32)
    {start stop : ℕ} (h : start < stop) (hstop : stop ≤ n) :
    Formed (addLoop start stop false l) n ∧
      ∀ a, In (addLoop start stop false l) a ↔ In l a ∨ (start ≤ a ∧ a < stop) := by
  have hrun : (⟨start, stop - start, ()⟩ : GpuCoherencyRange).stop = stop := by
    simp only [Run.stop]
    omega
  induction l generalizing start stop with
  | nil =>
      rw [addLoop, if_neg (by simp), inserted_holds h (by omega)]
      refine ⟨formed_cons (hrun.trans_le hstop) (Nat.sub_pos_of_lt h) formed_nil (by simp),
        fun a => ?_⟩
      simp [Run.Holds, hrun]
  | cons r l ih =>
      have hr : r.stop ≤ n := hl.within r List.mem_cons_self
      have hrpos : 0 < r.size := hl.nonempty r List.mem_cons_self
      have hgap := hl.gap
      simp only [addLoop, Bool.false_eq_true, if_false]
      split_ifs with hbefore hafter
      · -- the range ends in front of the new one
        obtain ⟨hformed, hin⟩ := ih hl.tail h hstop hrun
        refine ⟨formed_cons hr hrpos hformed ?_, fun a => ?_⟩
        · refine addLoop_lower h (by omega) hbefore (fun t ht => ⟨hgap t ht, ?_⟩) false
          have := hl.tail.within t ht
          omega
        · rw [in_cons, hin, in_cons, or_assoc]
      · -- the new range stands in front of it
        have hlater : ∀ t ∈ r :: l, stop < t.start := by
          intro t ht
          rcases List.mem_cons.mp ht with rfl | ht
          · exact hafter
          · have := hgap t ht
            unfold Run.stop at this
            omega
        rw [addLoop_emitted h fun t ht => hlater t (List.mem_cons_of_mem _ ht),
          inserted_holds h (by omega), List.singleton_append]
        refine ⟨formed_cons (hrun.trans_le hstop) (Nat.sub_pos_of_lt h) hl ?_, fun a => ?_⟩
        · rw [hrun]
          exact hlater
        · rw [in_cons (r := ⟨start, stop - start, ()⟩), Run.Holds, hrun, or_comm]
      · -- they touch or overlap and are joined
        have hmin : min start r.start < max stop r.stop := by omega
        have hrun' : (⟨min start r.start, max stop r.stop - min start r.start, ()⟩ :
            GpuCoherencyRange).stop = max stop r.stop := by
          simp only [Run.stop]
          omega
        obtain ⟨hformed, hin⟩ := ih hl.tail hmin (by omega) hrun'
        refine ⟨hformed, fun a => ?_⟩
        rw [hin, in_cons, Run.Holds]
        have hjoin : (min start r.start ≤ a ∧ a < max stop r.stop) ↔
            (r.start ≤ a ∧ a < r.stop) ∨ (start ≤ a ∧ a < stop) := by
          unfold Run.stop at *
          omega
        rw [hjoin]
        tauto

/-- **`add` inserts the bytes of a range.** -/
theorem add_spec {l : List GpuCoherencyRange} (hl : Formed l n) (hn : n < 2 ^ 32)
    {inserted : GpuCoherencyRange} (hstop : inserted.stop ≤ n) :
    Formed (add l inserted) n ∧ ∀ a, In (add l inserted) a ↔ In l a ∨ inserted.Holds a := by
  unfold add
  split_ifs with hsize
  · refine ⟨hl, fun a => (or_iff_left ?_).symm⟩
    unfold Run.Holds Run.stop
    omega
  · have h : inserted.start < inserted.stop := by
      unfold Run.stop
      omega
    exact addLoop_spec hl hn h hstop

/-! ### Lists in one pass -/

theorem joining_adjoins (hn : n < 2 ^ 32) :
    Joining adjoins reach (fun b r => b.start ≤ r.start) n := by
  refine ⟨fun _ _ h => h, fun b r _ hjoin => ⟨by simpa [adjoins] using hjoin, rfl⟩,
    fun b r _ hjoin => ?_, fun b r _ _ hb hr => ?_, fun b _ t _ _ h _ => h⟩
  · have hlt : b.stop < r.start := by simpa [adjoins] using hjoin
    exact ⟨hlt.le, fun htouch => absurd htouch hlt.ne⟩
  · exact u32_eq (by omega)

/-- **`add_all` inserts the bytes of sorted ranges.** -/
theorem addAll_spec {l m : List GpuCoherencyRange} (hl : Formed l n) (hn : n < 2 ^ 32)
    (hm : m.Pairwise fun b r => b.start ≤ r.start) (hpos : ∀ r ∈ m, 0 < r.size)
    (hwithin : Within m n) :
    Formed (addAll l m) n ∧ ∀ a, In (addAll l m) a ↔ In l a ∨ In m a := by
  unfold addAll
  split_ifs with hnil
  · subst hnil
    exact ⟨hl, by simp⟩
  · have hperm : (l.merge m fun a b => decide (a.start ≤ b.start)).Perm (l ++ m) :=
      List.merge_perm_append _
    have hmem : ∀ t ∈ l.merge m fun a b => decide (a.start ≤ b.start), t ∈ l ∨ t ∈ m :=
      fun t ht => List.mem_append.mp (hperm.mem_iff.mp ht)
    have hsizes : ∀ t ∈ l.merge m fun a b => decide (a.start ≤ b.start), 0 < t.size := by
      intro t ht
      rcases hmem t ht with ht | ht
      · exact hl.nonempty t ht
      · exact hpos t ht
    have hends : Within (l.merge m fun a b => decide (a.start ≤ b.start)) n := by
      intro t ht
      rcases hmem t ht with ht | ht
      · exact hl.within t ht
      · exact hwithin t ht
    obtain ⟨hcanonical, hmap, hwithin'⟩ := coalesce_spec (joining_adjoins hn)
      (List.Pairwise.merge (r := fun b r : GpuCoherencyRange => b.start ≤ r.start) hl.starts hm)
      hsizes hends
    refine ⟨⟨hcanonical, hwithin'⟩, fun a => ?_⟩
    rw [← at_unit (u := ()), hmap, at_perm hperm, at_append, at_unit, at_unit]

/-- What `carve` leaves of a range from `cursor` on. -/
structure Carved (range : Run β) (cursor : ℕ) (removed : List GpuCoherencyRange)
    (pieces : List (Run β)) : Prop where
  canonical : Canonical pieces
  part : ∀ t ∈ pieces, t.Part range
  lower : ∀ t ∈ pieces, cursor ≤ t.start
  holds : ∀ a, In pieces a ↔ (cursor ≤ a ∧ a < range.stop) ∧ ¬In removed a

theorem carved_rest {range : Run β} {cursor : ℕ} {removed : List GpuCoherencyRange}
    (hstop : range.stop < 2 ^ 32) (hcursor : range.start ≤ cursor)
    (hlater : ∀ r ∈ removed, range.stop ≤ r.start) (hlt : cursor < range.stop) :
    Carved range cursor removed [piece range cursor range.stop] := by
  obtain ⟨hpart, hpos, hstart, hpstop⟩ := piece_part hcursor hlt le_rfl hstop
  refine ⟨canonical_singleton hpos, by simpa using hpart, by simp [hstart], fun a => ?_⟩
  rw [in_cons, Run.Holds, hstart, hpstop]
  have hout : a < range.stop → ¬In removed a := by
    rintro ha ⟨r, hr, hra⟩
    have := hlater r hr
    have := hra.1
    omega
  simp only [not_in_nil, or_false]
  tauto

theorem carve_spec {range : Run β} {removed : List GpuCoherencyRange} (hremoved : Ordered removed)
    (hstop : range.stop < 2 ^ 32) {cursor : ℕ} (hcursor : range.start ≤ cursor) :
    Carved range cursor removed (carve range cursor removed) := by
  induction removed generalizing cursor with
  | nil =>
      rw [carve]
      split_ifs with hlt
      · exact carved_rest hstop hcursor (by simp) hlt
      · refine ⟨canonical_nil, by simp, by simp, fun a => ?_⟩
        simp only [not_in_nil, false_iff]
        omega
  | cons r removed ih =>
      obtain ⟨hapart, hpos, hrest⟩ := ordered_cons.mp hremoved
      have hrstop : r.start < r.stop := by
        unfold Run.stop
        omega
      rw [carve]
      by_cases hlt : cursor < range.stop
      · rw [if_pos hlt]
        by_cases hafter : range.stop ≤ r.start
        · rw [if_pos hafter]
          refine carved_rest hstop hcursor (fun t ht => ?_) hlt
          rcases List.mem_cons.mp ht with rfl | ht
          · exact hafter
          · have := hapart t ht
            omega
        · rw [if_neg hafter]
          obtain ⟨hcanonical, hpart, hlower, hholds⟩ := ih hrest (hcursor.trans (le_max_left cursor r.stop))
          have hfront : cursor < r.start → (piece range cursor r.start).Part range ∧
              0 < (piece range cursor r.start).size ∧
              (piece range cursor r.start).start = cursor ∧
              (piece range cursor r.start).stop = r.start := fun h =>
            piece_part hcursor h (by omega) (by omega)
          refine ⟨canonical_append ?_ hcanonical ?_, ?_, ?_, fun a => ?_⟩
          · split_ifs with h
            · exact canonical_singleton (hfront h).2.1
            · exact canonical_nil
          · intro t ht u hu
            split_ifs at ht with h
            · obtain rfl := List.mem_singleton.mp ht
              have := hlower u hu
              rw [(hfront h).2.2.2]
              omega
            · simp at ht
          · intro t ht
            rcases List.mem_append.mp ht with ht | ht
            · split_ifs at ht with h
              · obtain rfl := List.mem_singleton.mp ht
                exact (hfront h).1
              · simp at ht
            · exact hpart t ht
          · intro t ht
            rcases List.mem_append.mp ht with ht | ht
            · split_ifs at ht with h
              · obtain rfl := List.mem_singleton.mp ht
                exact (hfront h).2.2.1.ge
              · simp at ht
            · exact (le_max_left _ _).trans (hlower t ht)
          · have hin : In (if cursor < r.start then [piece range cursor r.start] else []) a ↔
                cursor ≤ a ∧ a < r.start := by
              split_ifs with h
              · simp [Run.Holds, (hfront h).2.2.1, (hfront h).2.2.2]
              · simp only [not_in_nil, false_iff]
                omega
            have hrest' : a < r.stop → ¬In removed a := by
              rintro ha ⟨t, ht, hta⟩
              have := hapart t ht
              have := hta.1
              omega
            rw [in_append, hin, hholds, in_cons, Run.Holds]
            by_cases ha : a < r.stop
            · have := hrest' ha
              simp only [this, not_false_eq_true, and_true, or_false]
              omega
            · constructor
              · rintro (h | ⟨h, hn⟩)
                · omega
                · exact ⟨by omega, by rintro (h' | h') <;> [omega; exact hn h']⟩
              · rintro ⟨h, hn⟩
                exact .inr ⟨by omega, fun h' => hn (.inr h')⟩
      · rw [if_neg hlt]
        refine ⟨canonical_nil, by simp, by simp, fun a => ?_⟩
        simp only [not_in_nil, false_iff]
        omega

/-- The removed ranges that end in front of a byte do not hold it. -/
theorem in_dropWhile {removed : List GpuCoherencyRange} {start a : ℕ} (ha : start ≤ a) :
    In (removed.dropWhile (·.stop ≤ start)) a ↔ In removed a := by
  induction removed with
  | nil => simp
  | cons r removed ih =>
      rw [List.dropWhile_cons]
      split_ifs with hr
      · rw [ih, in_cons, iff_or_self]
        intro hra
        have := hra.2
        have : r.stop ≤ start := by simpa using hr
        omega
      · rfl

theorem dropWhile_dropWhile {α : Type} {p q : α → Bool} (h : ∀ x, p x = true → q x = true)
    (xs : List α) : (xs.dropWhile p).dropWhile q = xs.dropWhile q := by
  induction xs with
  | nil => rfl
  | cons x xs ih =>
      cases hp : p x with
      | true => rw [List.dropWhile_cons_of_pos hp, ih, List.dropWhile_cons_of_pos (h x hp)]
      | false => rw [List.dropWhile_cons_of_neg (by simp [hp])]

/-- The index into the removed ranges that `subtract_all` keeps from range to
range does not change what it leaves of a range. -/
theorem subtractLoop_eq (hl : l.Pairwise fun b r => b.start ≤ r.start)
    (removed : List GpuCoherencyRange) :
    subtractLoop l removed =
      l.flatMap fun r => carve r r.start (removed.dropWhile (·.stop ≤ r.start)) := by
  induction l generalizing removed with
  | nil => rfl
  | cons r l ih =>
      obtain ⟨hr, hl⟩ := List.pairwise_cons.mp hl
      rw [subtractLoop, List.flatMap_cons, ih hl]
      congr 1
      refine List.flatMap_congr fun t ht => ?_
      rw [dropWhile_dropWhile fun q hq => ?_]
      have hq' : q.stop ≤ r.start := by simpa using hq
      simpa using hq'.trans (hr t ht)

/-- **`subtract_all` removes the bytes of sorted ranges.** -/
theorem subtractAll_spec (hl : Formed l n) (hn : n < 2 ^ 32) {removed : List GpuCoherencyRange}
    (hremoved : Ordered removed) :
    Formed (subtractAll l removed) n ∧
      ∀ a b, At (subtractAll l removed) a b ↔ At l a b ∧ ¬In removed a := by
  unfold subtractAll
  split_ifs with hnil
  · subst hnil
    exact ⟨hl, by simp⟩
  · rw [subtractLoop_eq hl.starts]
    have hcarves : ∀ r ∈ l, Carves r (carve r r.start (removed.dropWhile (·.stop ≤ r.start)))
        fun a => ¬In removed a := by
      intro r hr
      obtain ⟨hcanonical, hpart, -, hholds⟩ := carve_spec
        (hremoved.sublist (List.dropWhile_sublist _)) ((hl.within r hr).trans_lt hn) le_rfl
      refine ⟨hcanonical, hpart, fun a => (hholds a).trans ?_⟩
      exact and_congr_right fun ha => not_congr (in_dropWhile ha.1)
    exact ⟨hl.flatMap (fun _ a => ¬In removed a) hcarves,
      fun a b => at_flatMap_carves (fun _ a => ¬In removed a) hcarves⟩

/-! ### Assignments -/

/-- Ranges that follow each other are joined where they continue. -/
theorem joining_continues [DecidableEq β] (hn : n < 2 ^ 32) :
    Joining (continues (β := β)) sumSize (fun b r => b.stop ≤ r.start ∧ 0 < b.size) n := by
  refine ⟨fun b r h => ?_, fun b r h hjoin => ?_, fun b r h hjoin => ⟨h.1, ?_⟩,
    fun b r h hjoin hb hr => ?_, fun b r t h hjoin hb hr => ?_⟩
  · have := h.1
    unfold Run.stop at this
    omega
  · have hcont : b.stop = r.start ∧ b.label = r.label := by simpa [continues] using hjoin
    exact ⟨hcont.1.ge, hcont.2⟩
  · simpa [continues] using hjoin
  · have hcont : b.stop = r.start ∧ b.label = r.label := by simpa [continues] using hjoin
    rw [sumSize, u32_eq]
    all_goals
      unfold Run.stop at *
      omega
  · unfold Run.stop at *
    simp only
    omega

/-- Joining the ranges of a list that follow each other. -/
theorem coalesce_continues [DecidableEq β] (hn : n < 2 ^ 32) (hl : Ordered l) (hwithin : Within l n) :
    Formed (coalesce continues sumSize l) n ∧
      ∀ a b, At (coalesce continues sumSize l) a b ↔ At l a b := by
  obtain ⟨hcanonical, hmap, hwithin'⟩ := coalesce_spec (joining_continues hn)
    (hl.apart.imp_of_mem fun {b r} hb _ hbr => ⟨hbr, hl.nonempty b hb⟩) hl.nonempty hwithin
  exact ⟨⟨hcanonical, hwithin'⟩, hmap⟩

/-- A list of disjoint nonempty ranges, sorted by their first bytes, is ordered. -/
theorem ordered_of_starts (hstarts : l.Pairwise fun b r => b.start ≤ r.start)
    (hpos : ∀ r ∈ l, 0 < r.size)
    (hdisjoint : l.Pairwise fun b r => ∀ a, b.Holds a → ¬r.Holds a) : Ordered l := by
  refine ⟨(hstarts.and hdisjoint).imp_of_mem fun {b r} hb hr h => ?_, hpos⟩
  by_contra hlt
  refine h.2 r.start ⟨h.1, by omega⟩ (Run.holds_start (hpos r hr))

/-- Ranges put among others that do not hold their bytes, and joined with the ones
they continue. -/
theorem coalesce_inserted [DecidableEq β] (hn : n < 2 ^ 32) (hl : Ordered l) (hln : Within l n)
    {inserted : List (Run β)} (hi : Ordered inserted) (hin : Within inserted n)
    (hout : ∀ a, In l a → ¬In inserted a) {m : List (Run β)} (hperm : m.Perm (inserted ++ l))
    (hstarts : m.Pairwise fun b r => b.start ≤ r.start) :
    Formed (coalesce continues sumSize m) n ∧
      ∀ a b, At (coalesce continues sumSize m) a b ↔ At inserted a b ∨ At l a b := by
  have hmem : ∀ t ∈ m, t ∈ inserted ∨ t ∈ l := fun t ht =>
    List.mem_append.mp (hperm.mem_iff.mp ht)
  have hdisjoint : m.Pairwise fun b r => ∀ a, b.Holds a → ¬r.Holds a := by
    refine hperm.symm.pairwise (List.pairwise_append.mpr ⟨hi.disjoint, hl.disjoint, ?_⟩)
      fun {b r} h a ha hb => h a hb ha
    exact fun b hb r hr a hba hra => hout a ⟨r, hr, hra⟩ ⟨b, hb, hba⟩
  have hordered : Ordered m := by
    refine ordered_of_starts hstarts (fun t ht => ?_) hdisjoint
    rcases hmem t ht with ht | ht
    · exact hi.nonempty t ht
    · exact hl.nonempty t ht
  have hwithin : Within m n := by
    intro t ht
    rcases hmem t ht with ht | ht
    · exact hin t ht
    · exact hln t ht
  obtain ⟨hformed, hmap⟩ := coalesce_continues hn hordered hwithin
  refine ⟨hformed, fun a b => ?_⟩
  rw [hmap, at_perm hperm, at_append]

/-- One range put among others that do not hold its bytes. -/
theorem coalesce_insert [DecidableEq β] (hn : n < 2 ^ 32) (hl : Formed l n) {inserted : Run β}
    (hpos : 0 < inserted.size) (hstop : inserted.stop ≤ n)
    (hout : ∀ a, In l a → ¬inserted.Holds a) {m : List (Run β)} (hperm : m.Perm (inserted :: l))
    (hstarts : m.Pairwise fun b r => b.start ≤ r.start) :
    Formed (coalesce continues sumSize m) n ∧
      ∀ a b, At (coalesce continues sumSize m) a b ↔
        (inserted.Holds a ∧ inserted.label = b) ∨ At l a b := by
  obtain ⟨hformed, hmap⟩ := coalesce_inserted hn hl.toOrdered hl.within
    (canonical_singleton hpos).toOrdered (fun t ht => by rwa [List.mem_singleton.mp ht])
    (fun a ha hi => hout a ha (by simpa using hi)) hperm hstarts
  exact ⟨hformed, fun a b => (hmap a b).trans (by simp)⟩

/-- The bytes of `subtract` are not the removed ones. -/
theorem not_holds_of_subtract (hl : Formed l n) (hn : n < 2 ^ 32) {inserted : Run β} {a : ℕ}
    (ha : In (subtract l ⟨inserted.start, inserted.size, ()⟩) a) : ¬inserted.Holds a := by
  obtain ⟨b, hb⟩ := in_iff_exists_at.mp ha
  exact (((subtract_spec hl hn _).2 a b).mp hb).2

/-- **`assign_cpu_visibility_range` gives the bytes of a range its domain.** -/
theorem assignCpuVisibilityRange_spec {l : List GpuCpuVisibilityRange} (hl : Formed l n)
    (hn : n < 2 ^ 32) {inserted : GpuCpuVisibilityRange} (hstop : inserted.stop ≤ n) :
    Formed (assignCpuVisibilityRange l inserted) n ∧
      ∀ a b, At (assignCpuVisibilityRange l inserted) a b ↔
        (inserted.Holds a ∧ inserted.label = b) ∨ (At l a b ∧ ¬inserted.Holds a) := by
  unfold assignCpuVisibilityRange
  split_ifs with hsize
  · refine ⟨hl, fun a b => ?_⟩
    have hnot : ¬inserted.Holds a := by
      unfold Run.Holds Run.stop
      omega
    simp [hnot]
  · obtain ⟨hleft, hmap⟩ := subtract_spec hl hn ⟨inserted.start, inserted.size, ()⟩
    have hinsert := List.orderedInsert_eq_take_drop (fun b r => b.start ≤ r.start) inserted
      (subtract l ⟨inserted.start, inserted.size, ()⟩)
    simp only [not_le] at hinsert
    obtain ⟨hformed, hat⟩ := coalesce_insert hn hleft (Nat.pos_of_ne_zero hsize) hstop
      (fun a ha => not_holds_of_subtract hl hn ha) (List.perm_orderedInsert _ _ _)
      (List.Pairwise.orderedInsert inserted _ hleft.starts)
    rw [hinsert] at hformed hat
    exact ⟨hformed, fun a b => (hat a b).trans (by rw [hmap]; rfl)⟩

/-- **`assign_gpu_range` gives the bytes of a range its generation.** -/
theorem assignGpuRange_spec {l : List GpuReadbackRange} (hl : Formed l n) (hn : n < 2 ^ 32)
    {inserted : GpuReadbackRange} (hstop : inserted.stop ≤ n) :
    Formed (assignGpuRange l inserted) n ∧
      ∀ a b, At (assignGpuRange l inserted) a b ↔
        (inserted.Holds a ∧ inserted.label = b) ∨ (At l a b ∧ ¬inserted.Holds a) := by
  unfold assignGpuRange
  split_ifs with hsize
  · refine ⟨hl, fun a b => ?_⟩
    have hnot : ¬inserted.Holds a := by
      unfold Run.Holds Run.stop
      omega
    simp [hnot]
  · obtain ⟨hleft, hmap⟩ := subtract_spec hl hn ⟨inserted.start, inserted.size, ()⟩
    obtain ⟨hformed, hat⟩ := coalesce_insert hn hleft (Nat.pos_of_ne_zero hsize) hstop
      (fun a ha => not_holds_of_subtract hl hn ha)
      ((List.perm_insertionSort _ _).trans (List.perm_append_singleton inserted _))
      (List.pairwise_insertionSort _ _)
    exact ⟨hformed, fun a b => (hat a b).trans (by rw [hmap]; rfl)⟩

/-- **`subtract_generation` removes the bytes of a range that still carry a
generation.** -/
theorem subtractGeneration_spec {l : List GpuReadbackRange} (hl : Formed l n) (hn : n < 2 ^ 32)
    (removed : GpuCoherencyRange) (generation : ℕ) :
    Formed (subtractGeneration l removed generation).1 n ∧
      ∀ a b, At (subtractGeneration l removed generation).1 a b ↔
        At l a b ∧ ¬(removed.Holds a ∧ b = generation) := by
  unfold subtractGeneration
  split_ifs with hsize
  · refine ⟨hl, fun a b => (and_iff_left ?_).symm⟩
    unfold Run.Holds Run.stop
    omega
  · have hcarves : ∀ r ∈ l, Carves r (takeGeneration removed generation r).2
        fun a => ¬(removed.Holds a ∧ r.label = generation) := by
      intro r hr
      have hrn := hl.within r hr
      have hrpos := hl.nonempty r hr
      unfold takeGeneration
      by_cases hout : r.label ≠ generation ∨ r.stop ≤ removed.start ∨ removed.stop ≤ r.start
      · rw [if_pos hout]
        refine carves_self (hl.nonempty r hr) fun a ha => ?_
        unfold Run.Holds at *
        omega
      · rw [if_neg hout]
        refine carves_hole ?_ ?_ (by omega) (fun hlt => ?_) fun a ha => ?_
        · unfold Run.stop at *
          omega
        · unfold Run.stop at *
          omega
        · rw [piece, u32_eq (show r.start < 2 ^ 32 by omega)]
        · unfold Run.Holds at *
          omega
    exact ⟨hl.flatMap (fun b a => ¬(removed.Holds a ∧ b = generation)) hcarves,
      fun a b => at_flatMap_carves (fun b a => ¬(removed.Holds a ∧ b = generation)) hcarves⟩

/-! ### Queries -/

/-- The part of a range inside a query. -/
theorem clip_carves {range : Run β} (hstop : range.stop < 2 ^ 32)
    (query : GpuCoherencyRange) : Carves range (clip query range) query.Holds := by
  unfold clip
  split_ifs with hlt
  · obtain ⟨hpart, hsize, hstart, hpstop⟩ := piece_part (le_max_left _ _) hlt
      (min_le_left range.stop query.stop) (by omega)
    refine ⟨canonical_singleton hsize, by simpa using hpart, fun a => ?_⟩
    rw [in_cons, Run.Holds, hstart, hpstop, Run.Holds, Run.Holds]
    simp only [not_in_nil, or_false]
    omega
  · refine ⟨canonical_nil, by simp, fun a => ?_⟩
    unfold Run.Holds
    simp only [not_in_nil, false_iff]
    omega

/-- The loops of the queries visit every range that meets the query. -/
theorem at_flatMap_clip {m : List (Run β)} (hl : Formed l n) (hn : n < 2 ^ 32)
    {query : GpuCoherencyRange} (hsub : m.Sublist l)
    (hall : ∀ r ∈ l, ∀ a, r.Holds a → query.Holds a → r ∈ m) (a : ℕ) (b : β) :
    At (m.flatMap (clip query)) a b ↔ At l a b ∧ query.Holds a := by
  have hcarves : ∀ r ∈ m, Carves r (clip query r) query.Holds := fun r hr =>
    clip_carves ((hl.within r (hsub.subset hr)).trans_lt hn) query
  rw [at_flatMap_carves (fun _ => query.Holds) hcarves]
  refine and_congr_left fun ha => ⟨fun ⟨r, hr, h⟩ => ⟨r, hsub.subset hr, h⟩, ?_⟩
  rintro ⟨r, hr, hra, hb⟩
  exact ⟨r, hall r hr a hra ha, hra, hb⟩

theorem mem_dropWhile_of_not {α : Type} {p : α → Bool} {xs : List α} {x : α} (hx : x ∈ xs)
    (hp : p x = false) : x ∈ xs.dropWhile p := by
  rw [← List.takeWhile_append_dropWhile (p := p) (l := xs)] at hx
  refine (List.mem_append.mp hx).resolve_left fun htake => ?_
  have := List.mem_takeWhile_imp htake
  simp [hp] at this

theorem mem_takeWhile_of_pairwise {α : Type} {p : α → Bool} {xs : List α}
    (h : xs.Pairwise fun x y => p y = true → p x = true) {x : α} (hx : x ∈ xs)
    (hp : p x = true) : x ∈ xs.takeWhile p := by
  induction xs with
  | nil => simp at hx
  | cons y xs ih =>
      obtain ⟨hy, hxs⟩ := List.pairwise_cons.mp h
      rcases List.mem_cons.mp hx with rfl | hx
      · simp [hp]
      · simp [hy x hx hp, ih hxs hx]

/-- `intersections` finds the bytes of the list inside the query. -/
theorem in_intersections {l : List GpuCoherencyRange} (hl : Formed l n) (hn : n < 2 ^ 32)
    (query : GpuCoherencyRange) (a : ℕ) :
    In (intersections l query) a ↔ In l a ∧ query.Holds a := by
  unfold intersections
  split_ifs with hsize
  · have hnot : ¬query.Holds a := by
      unfold Run.Holds Run.stop
      omega
    simp [hnot]
  · rw [← at_unit (u := ()), at_flatMap_clip hl hn, at_unit]
    · exact (List.takeWhile_sublist _).trans (List.dropWhile_sublist _)
    · intro r hr c hrc hqc
      unfold Run.Holds at hrc hqc
      have hdrop : r ∈ l.dropWhile (·.stop ≤ query.start) :=
        mem_dropWhile_of_not hr (decide_eq_false (by omega))
      refine mem_takeWhile_of_pairwise ?_ hdrop (decide_eq_true (by omega))
      refine (hl.starts.sublist (List.dropWhile_sublist _)).imp fun {x y} hxy hy => ?_
      exact decide_eq_true (hxy.trans_lt (of_decide_eq_true hy))

/-- `intersections_generation` finds the bytes of a generation inside the query. -/
theorem at_intersectionsGeneration {l : List GpuReadbackRange} (hl : Formed l n) (hn : n < 2 ^ 32)
    (query : GpuCoherencyRange) (generation a b : ℕ) :
    At (intersectionsGeneration l query generation) a b ↔
      (At l a b ∧ query.Holds a) ∧ b = generation := by
  have hfilter : At (intersectionsGeneration l query generation) a b ↔
      At (intersectionsReadback l query) a b ∧ b = generation := by
    unfold intersectionsGeneration At
    constructor
    · rintro ⟨r, hr, ha, rfl⟩
      obtain ⟨hr, hg⟩ := List.mem_filter.mp hr
      exact ⟨⟨r, hr, ha, rfl⟩, of_decide_eq_true hg⟩
    · rintro ⟨⟨r, hr, ha, rfl⟩, rfl⟩
      exact ⟨r, List.mem_filter.mpr ⟨hr, decide_eq_true rfl⟩, ha, rfl⟩
  rw [hfilter]
  refine and_congr_left fun _ => ?_
  unfold intersectionsReadback
  split_ifs with hsize
  · have hnot : ¬query.Holds a := by
      unfold Run.Holds Run.stop
      omega
    simp [hnot]
  · refine at_flatMap_clip hl hn (List.filter_sublist.trans (List.takeWhile_sublist _)) ?_ a b
    intro r hr c hrc hqc
    unfold Run.Holds at hrc hqc
    refine List.mem_filter.mpr ⟨mem_takeWhile_of_pairwise ?_ hr (decide_eq_true (by omega)),
      decide_eq_true (by omega)⟩
    refine hl.apart.imp fun {x y} hxy hy => decide_eq_true ?_
    have := of_decide_eq_true hy
    unfold Run.stop at *
    omega

theorem within_intersectionsGeneration {l : List GpuReadbackRange} (hl : Formed l n)
    (hn : n < 2 ^ 32) (query : GpuCoherencyRange) (generation : ℕ) :
    Within (intersectionsGeneration l query generation) n := by
  intro t ht
  have ht := (List.mem_filter.mp ht).1
  unfold intersectionsReadback at ht
  split_ifs at ht
  · simp at ht
  · obtain ⟨r, hr, ht⟩ := List.mem_flatMap.mp ht
    have hr := (List.takeWhile_sublist _).subset (List.mem_filter.mp hr).1
    have hrn := hl.within r hr
    exact ((clip_carves (hrn.trans_lt hn) query).part t ht).stop.trans hrn

/-- `split_ranges` gives parts of the ranges. -/
theorem splitRanges_part (hn : n < 2 ^ 32) (hl : Within l n) (maximum : ℕ) :
    ∀ t ∈ splitRanges l maximum, ∃ r ∈ l, t.Part r := by
  intro t ht
  unfold splitRanges at ht
  split_ifs at ht with hmax
  · exact ⟨t, ht, .refl t⟩
  · obtain ⟨r, hr, ht⟩ := List.mem_flatMap.mp ht
    obtain ⟨i, hi, rfl⟩ := List.mem_map.mp ht
    have hrn := hl r hr
    have hcount : i * maximum < r.size := by
      have hmul : (i + 1) * maximum ≤ (r.size + maximum - 1) / maximum * maximum :=
        Nat.mul_le_mul_right _ (List.mem_range.mp hi)
      have := Nat.div_mul_le_self (r.size + maximum - 1) maximum
      rw [Nat.add_mul, Nat.one_mul] at hmul
      omega
    unfold Run.stop at hrn
    refine ⟨r, hr, ?_, ?_, rfl⟩
    · simp only
      rw [u32_eq (by omega)]
      exact Nat.le_add_right _ _
    · simp only [Run.stop]
      rw [u32_eq (by omega), u32_eq (by omega)]
      omega

end Algebra

end Memory
end XenonRecomp
