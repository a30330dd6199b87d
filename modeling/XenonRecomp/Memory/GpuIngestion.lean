/-
# Writes in one batch

`ingest_cpu_writes_unlocked` hands the published writes of an interval over in
one batch: `last_writer_runs` reduces them to sorted runs, each byte with the
domain of its last write, and `mark_cpu_writes_unlocked` merges the runs into
the lists.  `ingestion_batched` says that this leaves the state that
`mark_cpu_write_unlocked` leaves, applied to one write after the other.

With more than one domain `last_writer_runs` goes through the writes from the
newest to the oldest and keeps the bytes seen so far in `covered`; the part of
a write outside of them is the part whose last write it is (`coverWrites_spec`).
-/

import XenonRecomp.Memory.GpuEffects

namespace XenonRecomp
namespace Memory

open Library Library.Runs

/-- The domain of the last of the writes that covers the byte. -/
def LastDomain (writes : List DirtyPhysicalWrite) (a : ℕ) (d : MemoryOrderingDomain) : Prop :=
  (writes.reverse.find? fun write => write.run.Holds a).map (·.orderingDomain) = some d

/-! ### The bytes covered so far -/

/-- The byte is covered. -/
def Covers (covered : List (ℕ × ℕ)) (a : ℕ) : Prop :=
  ∃ p ∈ covered, p.1 ≤ a ∧ a < p.2

/-- `covered` is sorted, without empty ranges and with gaps between them. -/
structure Covering (covered : List (ℕ × ℕ)) : Prop where
  gaps : covered.Pairwise fun p q => p.2 < q.1
  nonempty : ∀ p ∈ covered, p.1 < p.2

section Covering

variable {covered rest : List (ℕ × ℕ)} {a : ℕ}

@[simp] theorem not_covers_nil : ¬Covers [] a := by
  simp [Covers]

@[simp] theorem covers_cons {p : ℕ × ℕ} :
    Covers (p :: covered) a ↔ (p.1 ≤ a ∧ a < p.2) ∨ Covers covered a := by
  simp [Covers]

@[simp] theorem covers_append : Covers (covered ++ rest) a ↔ Covers covered a ∨ Covers rest a := by
  simp only [Covers, List.mem_append, or_and_right, exists_or]

theorem covering_cons {p : ℕ × ℕ} :
    Covering (p :: covered) ↔ (∀ q ∈ covered, p.2 < q.1) ∧ p.1 < p.2 ∧ Covering covered := by
  constructor
  · rintro ⟨hgaps, hpos⟩
    obtain ⟨hp, hgaps⟩ := List.pairwise_cons.mp hgaps
    exact ⟨hp, hpos p List.mem_cons_self, hgaps, fun q hq => hpos q (List.mem_cons_of_mem _ hq)⟩
  · rintro ⟨hp, hlt, hgaps, hpos⟩
    refine ⟨List.pairwise_cons.mpr ⟨hp, hgaps⟩, fun q hq => ?_⟩
    rcases List.mem_cons.mp hq with rfl | hq
    · exact hlt
    · exact hpos q hq

theorem covering_append :
    Covering (covered ++ rest) ↔
      Covering covered ∧ Covering rest ∧ ∀ p ∈ covered, ∀ q ∈ rest, p.2 < q.1 := by
  constructor
  · rintro ⟨hgaps, hpos⟩
    obtain ⟨hc, hr, hcr⟩ := List.pairwise_append.mp hgaps
    exact ⟨⟨hc, fun p hp => hpos p (List.mem_append_left _ hp)⟩,
      ⟨hr, fun p hp => hpos p (List.mem_append_right _ hp)⟩, hcr⟩
  · rintro ⟨hc, hr, hcr⟩
    refine ⟨List.pairwise_append.mpr ⟨hc.gaps, hr.gaps, hcr⟩, fun p hp => ?_⟩
    rcases List.mem_append.mp hp with hp | hp
    · exact hc.nonempty p hp
    · exact hr.nonempty p hp

end Covering

/-- What `sweep` gives for the ranges `next`: the bytes of the write outside of
them, and the ranges with the write joined in. -/
structure Swept (domain : MemoryOrderingDomain) (stop cursor mergedStart mergedEnd : ℕ)
    (next : List (ℕ × ℕ))
    (result : List GpuCpuVisibilityRange × (ℕ × ℕ) × List (ℕ × ℕ)) : Prop where
  ordered : Ordered result.1
  pieces : ∀ t ∈ result.1, cursor ≤ t.start ∧ t.stop ≤ stop ∧ t.label = domain
  holds : ∀ a, In result.1 a ↔ (cursor ≤ a ∧ a < stop) ∧ ¬Covers next a
  covers : ∀ a, Covers (result.2.1 :: result.2.2) a ↔
    (mergedStart ≤ a ∧ a < mergedEnd) ∨ Covers next a
  covering : Covering (result.2.1 :: result.2.2)
  lower : ∀ c, c < mergedStart → (∀ p ∈ next, c < p.1) → c < result.2.1.1

/-- The end of the loop: no range that is left reaches the write. -/
theorem swept_rest {domain : MemoryOrderingDomain} {stop cursor mergedStart mergedEnd : ℕ}
    {next : List (ℕ × ℕ)} (hstop : stop < 2 ^ 32) (hnext : Covering next)
    (hafter : ∀ p ∈ next, stop < p.1) (hend : ∀ p ∈ next, mergedEnd < p.1)
    (hmerged : mergedStart < mergedEnd) :
    Swept domain stop cursor mergedStart mergedEnd next
      (if cursor < stop then [⟨u32 cursor, u32 (stop - cursor), domain⟩] else [],
        (mergedStart, mergedEnd), next) := by
  have hout : ∀ a, a < stop → ¬Covers next a := by
    rintro a ha ⟨p, hp, hpa, -⟩
    have := hafter p hp
    omega
  have hpiece : cursor < stop →
      (⟨u32 cursor, u32 (stop - cursor), domain⟩ : GpuCpuVisibilityRange) =
        ⟨cursor, stop - cursor, domain⟩ := fun h => by
    rw [u32_eq (show cursor < 2 ^ 32 by omega), u32_eq (show stop - cursor < 2 ^ 32 by omega)]
  have hends : cursor < stop →
      (⟨cursor, stop - cursor, domain⟩ : GpuCpuVisibilityRange).stop = stop := fun h => by
    simp only [Run.stop]
    omega
  refine ⟨?_, ?_, fun a => ?_, fun a => covers_cons, covering_cons.mpr ⟨hend, hmerged, hnext⟩,
    fun c hc _ => hc⟩
  · simp only
    split_ifs with h
    · rw [hpiece h]
      exact (canonical_singleton (Nat.sub_pos_of_lt h)).toOrdered
    · exact ordered_nil
  · intro t ht
    simp only at ht
    split_ifs at ht with h
    · rw [hpiece h] at ht
      obtain rfl := List.mem_singleton.mp ht
      exact ⟨le_rfl, (hends h).le, rfl⟩
    · simp at ht
  · have := hout a
    simp only
    split_ifs with h
    · rw [hpiece h, in_cons, Run.Holds, hends h]
      simp only [not_in_nil, or_false]
      tauto
    · simp only [not_in_nil, false_iff]
      omega

/-- A turn of the loop: the range `p` is joined with the write. -/
theorem Swept.join {domain : MemoryOrderingDomain} {stop cursor mergedStart mergedEnd : ℕ}
    {p merged : ℕ × ℕ} {next rest : List (ℕ × ℕ)} {pieces : List GpuCpuVisibilityRange}
    (h : Swept domain stop (max cursor p.2) (min mergedStart p.1) (max mergedEnd p.2) next
      (pieces, merged, rest))
    (hstop : stop < 2 ^ 32) (hnext : Covering (p :: next)) (hle : p.1 ≤ stop)
    (hreach : mergedStart ≤ p.2) (hend : stop ≤ mergedEnd) :
    Swept domain stop cursor mergedStart mergedEnd (p :: next)
      ((if cursor < p.1 then [⟨u32 cursor, u32 (p.1 - cursor), domain⟩] else []) ++ pieces,
        merged, rest) := by
  obtain ⟨hgap, hpos, hrest⟩ := covering_cons.mp hnext
  have hpiece : cursor < p.1 →
      (⟨u32 cursor, u32 (p.1 - cursor), domain⟩ : GpuCpuVisibilityRange) =
        ⟨cursor, p.1 - cursor, domain⟩ := fun h => by
    rw [u32_eq (show cursor < 2 ^ 32 by omega), u32_eq (show p.1 - cursor < 2 ^ 32 by omega)]
  have hends : cursor < p.1 →
      (⟨cursor, p.1 - cursor, domain⟩ : GpuCpuVisibilityRange).stop = p.1 := fun h => by
    simp only [Run.stop]
    omega
  have hfront : ∀ t ∈ (if cursor < p.1 then
      [(⟨u32 cursor, u32 (p.1 - cursor), domain⟩ : GpuCpuVisibilityRange)] else []),
      t = ⟨cursor, p.1 - cursor, domain⟩ ∧ cursor < p.1 := by
    intro t ht
    split_ifs at ht with hlt
    · rw [hpiece hlt] at ht
      exact ⟨List.mem_singleton.mp ht, hlt⟩
    · simp at ht
  refine ⟨⟨List.pairwise_append.mpr ⟨?_, h.ordered.apart, ?_⟩, fun t ht => ?_⟩, fun t ht => ?_,
    fun a => ?_, fun a => (h.covers a).trans ?_, h.covering, fun c hc hall => ?_⟩
  · split_ifs
    · exact List.pairwise_singleton _ _
    · exact List.Pairwise.nil
  · intro t ht u hu
    obtain ⟨rfl, hlt⟩ := hfront t ht
    have := (h.pieces u hu).1
    rw [hends hlt]
    omega
  · rcases List.mem_append.mp ht with ht | ht
    · obtain ⟨rfl, hlt⟩ := hfront t ht
      exact Nat.sub_pos_of_lt hlt
    · exact h.ordered.nonempty t ht
  · rcases List.mem_append.mp ht with ht | ht
    · obtain ⟨rfl, hlt⟩ := hfront t ht
      exact ⟨le_rfl, (hends hlt).trans_le hle, rfl⟩
    · obtain ⟨h₁, h₂, h₃⟩ := h.pieces t ht
      exact ⟨(le_max_left _ _).trans h₁, h₂, h₃⟩
  · have hin : In (if cursor < p.1 then
        [(⟨u32 cursor, u32 (p.1 - cursor), domain⟩ : GpuCpuVisibilityRange)] else []) a ↔
          cursor ≤ a ∧ a < p.1 := by
      split_ifs with hlt
      · rw [hpiece hlt, in_cons, Run.Holds, hends hlt]
        simp
      · simp only [not_in_nil, false_iff]
        omega
    have hlater : a ≤ p.2 → ¬Covers next a := by
      rintro ha ⟨q, hq, hqa, -⟩
      have := hgap q hq
      omega
    rw [in_append, hin, h.holds, covers_cons]
    by_cases ha : a < p.2
    · have := hlater ha.le
      simp only [this, not_false_eq_true, and_true, or_false]
      omega
    · constructor
      · rintro (hin | ⟨hin, hnot⟩)
        · omega
        · exact ⟨by omega, by rintro (h' | h') <;> [omega; exact hnot h']⟩
      · rintro ⟨hin, hnot⟩
        exact .inr ⟨by omega, fun h' => hnot (.inr h')⟩
  · rw [covers_cons, ← or_assoc]
    refine or_congr_left ?_
    omega
  · refine h.lower c ?_ fun q hq => hall q (List.mem_cons_of_mem _ hq)
    have := hall p List.mem_cons_self
    omega

theorem sweep_spec {domain : MemoryOrderingDomain} {stop : ℕ} (hstop : stop < 2 ^ 32)
    {next : List (ℕ × ℕ)} (hnext : Covering next) {cursor mergedStart mergedEnd : ℕ}
    (hmerged : mergedStart < mergedEnd) (hend : stop ≤ mergedEnd)
    (hreach : ∀ p ∈ next, mergedStart ≤ p.2)
    (hbehind : ∀ p ∈ next, stop < p.1 → mergedEnd < p.1) :
    Swept domain stop cursor mergedStart mergedEnd next
      (sweep domain stop cursor mergedStart mergedEnd next) := by
  induction next generalizing cursor mergedStart mergedEnd with
  | nil => exact swept_rest hstop hnext (by simp) (by simp) hmerged
  | cons p next ih =>
      obtain ⟨hgap, hpos, hrest⟩ := covering_cons.mp hnext
      rw [sweep]
      by_cases hle : p.1 ≤ stop
      · -- the range touches or overlaps the write and is joined with it
        rw [if_pos hle]
        have hreach' := hreach p List.mem_cons_self
        have hswept : Swept domain stop (max cursor p.2) (min mergedStart p.1) (max mergedEnd p.2)
            next (sweep domain stop (max cursor p.2) (min mergedStart p.1) (max mergedEnd p.2)
              next) := by
          refine ih hrest (by omega) (by omega) (fun q hq => ?_) fun q hq hafter => ?_
          · have := hreach q (List.mem_cons_of_mem _ hq)
            omega
          · have := hbehind q (List.mem_cons_of_mem _ hq) hafter
            have := hgap q hq
            omega
        generalize sweep domain stop (max cursor p.2) (min mergedStart p.1) (max mergedEnd p.2)
          next = result at hswept
        obtain ⟨pieces, merged, rest⟩ := result
        exact hswept.join hstop hnext hle hreach' hend
      · rw [if_neg hle]
        have hafter : ∀ q ∈ p :: next, stop < q.1 := by
          intro q hq
          rcases List.mem_cons.mp hq with rfl | hq
          · omega
          · have := hgap q hq
            omega
        exact swept_rest hstop hnext hafter (fun q hq => hbehind q hq (hafter q hq)) hmerged

/-- The ranges behind `upper_bound(start)`. -/
theorem lt_of_mem_dropWhile {covered : List (ℕ × ℕ)} (h : Covering covered) {start : ℕ} {p : ℕ × ℕ}
    (hp : p ∈ covered.dropWhile (·.1 ≤ start)) : start < p.1 := by
  induction covered with
  | nil => simp at hp
  | cons q covered ih =>
      obtain ⟨hgap, hpos, hrest⟩ := covering_cons.mp h
      by_cases hq : q.1 ≤ start
      · simp only [List.dropWhile_cons, hq, decide_true, if_true] at hp
        exact ih hrest hp
      · simp only [List.dropWhile_cons, hq, decide_false, Bool.false_eq_true, if_false] at hp
        rcases List.mem_cons.mp hp with rfl | hp
        · omega
        · have := hgap p hp
          omega

/-- The ranges in front of a write and the ones that `coverWrite` visits. -/
theorem covered_split {covered : List (ℕ × ℕ)} (h : Covering covered) (start : ℕ) :
    let before := covered.takeWhile (·.1 ≤ start)
    let kept := if (before.getLast?.any fun last => start ≤ last.2) then before.dropLast else before
    let next := before.drop kept.length ++ covered.dropWhile (·.1 ≤ start)
    kept ++ next = covered ∧ (∀ p ∈ kept, p.2 < start) ∧ ∀ p ∈ next, start ≤ p.2 := by
  have hsplit : covered.takeWhile (·.1 ≤ start) ++ covered.dropWhile (·.1 ≤ start) = covered :=
    List.takeWhile_append_dropWhile
  have hafter : ∀ p ∈ covered.dropWhile (·.1 ≤ start), start ≤ p.2 := by
    intro p hp
    have := lt_of_mem_dropWhile h hp
    have := h.nonempty p ((List.dropWhile_sublist _).subset hp)
    omega
  have hbefore : Covering (covered.takeWhile (·.1 ≤ start)) :=
    (covering_append.mp (hsplit.symm ▸ h)).1
  have hstart : ∀ p ∈ covered.takeWhile (·.1 ≤ start), p.1 ≤ start := by
    intro p hp
    have := List.mem_takeWhile_imp hp
    simpa using this
  generalize covered.takeWhile (·.1 ≤ start) = before at *
  rcases List.eq_nil_or_concat before with rfl | ⟨init, last, rfl⟩
  · exact ⟨by simpa using hsplit, by simp, by simpa using hafter⟩
  · simp only [List.concat_eq_append] at *
    obtain ⟨-, -, hgap⟩ := covering_append.mp hbefore
    simp only [List.getLast?_append, List.getLast?_singleton, Option.some_or, Option.any_some,
      List.dropLast_concat]
    by_cases hreach : start ≤ last.2
    · simp only [hreach, decide_true, if_true, List.drop_left]
      refine ⟨by rw [← List.append_assoc]; exact hsplit, fun p hp => ?_, fun p hp => ?_⟩
      · have := hgap p hp last (by simp)
        have := hstart last (by simp)
        omega
      · rcases List.mem_append.mp hp with hp | hp
        · rwa [List.mem_singleton.mp hp]
        · exact hafter p hp
    · simp only [hreach, decide_false, Bool.false_eq_true, if_false, List.drop_length,
        List.nil_append]
      refine ⟨hsplit, fun p hp => ?_, hafter⟩
      rcases List.mem_append.mp hp with hp | hp
      · have := hgap p hp last (by simp)
        have := hbefore.nonempty last (by simp)
        omega
      · rw [List.mem_singleton.mp hp]
        omega

/-- What one turn of the loop over the writes gives: the bytes of the write that
nobody covered, and the bytes covered then. -/
structure CoverStep (covered : List (ℕ × ℕ)) (write : DirtyPhysicalWrite)
    (result : List GpuCpuVisibilityRange × List (ℕ × ℕ)) : Prop where
  ordered : Ordered result.1
  pieces : ∀ t ∈ result.1, t.stop ≤ physicalMemorySize ∧ t.label = write.orderingDomain
  holds : ∀ a, In result.1 a ↔ write.run.Holds a ∧ ¬Covers covered a
  covering : Covering result.2
  covers : ∀ a, Covers result.2 a ↔ write.run.Holds a ∨ Covers covered a

theorem coverWrite_spec {covered : List (ℕ × ℕ)} (h : Covering covered)
    (write : DirtyPhysicalWrite) : CoverStep covered write (coverWrite covered write) := by
  have hinside := write.inside
  have hmem : physicalMemorySize < 2 ^ 32 := by decide
  unfold coverWrite
  by_cases hsize : write.address = write.address + write.size
  · have hnot : ∀ a, ¬write.run.Holds a := by
      intro a
      simp only [DirtyPhysicalWrite.run, Run.Holds, Run.stop]
      omega
    simp only [← hsize, if_true]
    exact ⟨ordered_nil, by simp, by simp [hnot], h, by simp [hnot]⟩
  · simp only [hsize, if_false]
    obtain ⟨hsplit, hkept, hnext⟩ := covered_split h write.address
    simp only at hsplit hkept hnext
    generalize (if ((covered.takeWhile (·.1 ≤ write.address)).getLast?.any
      fun last => write.address ≤ last.2) then (covered.takeWhile (·.1 ≤ write.address)).dropLast
      else covered.takeWhile (·.1 ≤ write.address)) = kept at *
    generalize (covered.takeWhile (·.1 ≤ write.address)).drop kept.length ++
      covered.dropWhile (·.1 ≤ write.address) = next at *
    subst hsplit
    obtain ⟨hcoverKept, hcoverNext, hgap⟩ := covering_append.mp h
    have hswept : Swept write.orderingDomain (write.address + write.size) write.address
        write.address (write.address + write.size) next
        (sweep write.orderingDomain (write.address + write.size) write.address
          write.address (write.address + write.size) next) :=
      sweep_spec (by omega) hcoverNext (by omega) le_rfl hnext fun p _ hp => hp
    generalize sweep write.orderingDomain (write.address + write.size) write.address
      write.address (write.address + write.size) next = result at hswept
    obtain ⟨pieces, merged, rest⟩ := result
    have hfree : ∀ a, write.address ≤ a → ¬Covers kept a := by
      rintro a ha ⟨p, hp, -, hpa⟩
      have := hkept p hp
      omega
    refine ⟨hswept.ordered, fun t ht => ?_, fun a => ?_, covering_append.mpr
      ⟨hcoverKept, hswept.covering, fun p hp q hq => ?_⟩, fun a => ?_⟩
    · obtain ⟨-, hstop, hlabel⟩ := hswept.pieces t ht
      exact ⟨hstop.trans hinside, hlabel⟩
    · rw [hswept.holds, covers_append, DirtyPhysicalWrite.run, Run.Holds, Run.stop]
      constructor
      · rintro ⟨ha, hnot⟩
        exact ⟨ha, by rintro (hk | hn) <;> [exact hfree a ha.1 hk; exact hnot hn]⟩
      · rintro ⟨ha, hnot⟩
        exact ⟨ha, fun hn => hnot (.inr hn)⟩
    · have hlow := hswept.lower p.2 (hkept p hp) fun q hq => hgap p hp q hq
      rcases List.mem_cons.mp hq with rfl | hq
      · exact hlow
      · obtain ⟨hrest, hpos, -⟩ := covering_cons.mp hswept.covering
        have := hrest q hq
        omega
    · have := hswept.covers a
      rw [covers_append, this, covers_append, DirtyPhysicalWrite.run, Run.Holds, Run.stop]
      tauto

/-- What the loop over the writes gives, newest first: disjoint pieces, each byte
with the domain of the first write that covers it. -/
structure NewestPieces (covered : List (ℕ × ℕ)) (writes : List DirtyPhysicalWrite)
    (pieces : List GpuCpuVisibilityRange) : Prop where
  nonempty : ∀ t ∈ pieces, 0 < t.size
  within : Within pieces physicalMemorySize
  disjoint : pieces.Pairwise fun b r => ∀ a, b.Holds a → ¬r.Holds a
  map : ∀ a d, At pieces a d ↔ ¬Covers covered a ∧
    (writes.find? fun write => write.run.Holds a).map (·.orderingDomain) = some d

theorem coverWrites_spec {covered : List (ℕ × ℕ)} (h : Covering covered)
    (writes : List DirtyPhysicalWrite) : NewestPieces covered writes (coverWrites covered writes) := by
  induction writes generalizing covered with
  | nil => exact ⟨by simp [coverWrites], by simp [coverWrites, Within], by simp [coverWrites],
      by simp [coverWrites]⟩
  | cons write writes ih =>
      have hfirst := coverWrite_spec h write
      rw [coverWrites]
      generalize coverWrite covered write = result at *
      obtain ⟨pieces, covered'⟩ := result
      have hrest := ih hfirst.covering
      refine ⟨fun t ht => ?_, fun t ht => ?_, List.pairwise_append.mpr ⟨?_, hrest.disjoint, ?_⟩,
        fun a d => ?_⟩
      · rcases List.mem_append.mp ht with ht | ht
        · exact hfirst.ordered.nonempty t ht
        · exact hrest.nonempty t ht
      · rcases List.mem_append.mp ht with ht | ht
        · exact (hfirst.pieces t ht).1
        · exact hrest.within t ht
      · exact hfirst.ordered.disjoint
      · -- the bytes of the newer pieces are covered when the older writes come
        intro b hb r hr a hba hra
        have hcovered : Covers covered' a :=
          (hfirst.covers a).mpr (.inl ((hfirst.holds a).mp ⟨b, hb, hba⟩).1)
        exact ((hrest.map a r.label).mp ⟨r, hr, hra, rfl⟩).1 hcovered
      · have hat : At pieces a d ↔
            (write.run.Holds a ∧ ¬Covers covered a) ∧ write.orderingDomain = d := by
          rw [← hfirst.holds]
          constructor
          · rintro ⟨t, ht, ha, rfl⟩
            exact ⟨⟨t, ht, ha⟩, (hfirst.pieces t ht).2.symm⟩
          · rintro ⟨⟨t, ht, ha⟩, rfl⟩
            exact ⟨t, ht, ha, (hfirst.pieces t ht).2⟩
        have hcovers := hfirst.covers a
        rw [at_append, hat, hrest.map, List.find?_cons]
        by_cases hwrite : write.run.Holds a
        · simp [hwrite, hcovers]
        · simp [hwrite, hcovers]

/-! ### The runs -/

/-- Sorted pieces of one domain, or that do not overlap. -/
def Mergeable (b r : GpuCpuVisibilityRange) : Prop :=
  b.start ≤ r.start ∧ (b.stop ≤ r.start ∨ b.label = r.label)

theorem joining_overlapsOrContinues {n : ℕ} (hn : n < 2 ^ 32) :
    Joining overlapsOrContinues reach Mergeable n := by
  have hjoins : ∀ b r : GpuCpuVisibilityRange, overlapsOrContinues b r = true ↔
      r.start ≤ b.stop ∧ (r.start < b.stop ∨ r.label = b.label) := by
    simp [overlapsOrContinues]
  have hlabels : ∀ b r, Mergeable b r → overlapsOrContinues b r = true → b.label = r.label := by
    rintro b r ⟨-, hapart | hlabel⟩ hjoin
    · rcases ((hjoins b r).mp hjoin).2 with hlt | hlabel
      · omega
      · exact hlabel.symm
    · exact hlabel
  refine ⟨fun b r h => h.1, fun b r h hjoin => ⟨((hjoins b r).mp hjoin).1, hlabels b r h hjoin⟩,
    fun b r h hjoin => ?_, fun b r h hjoin hb hr => u32_eq (by omega),
    fun b r t hbr hjoin hbt hrt => ⟨hbt.1, ?_⟩⟩
  · have hnot := (hjoins b r).not.mp (Bool.eq_false_iff.mp hjoin)
    by_cases hlt : r.start < b.stop
    · exact absurd ⟨hlt.le, .inl hlt⟩ hnot
    · refine ⟨not_lt.mp hlt, fun htouch hlabel => hnot ⟨htouch.ge, .inr hlabel.symm⟩⟩
  · by_cases hlabel : b.label = t.label
    · exact .inr hlabel
    · have hb : b.stop ≤ t.start := hbt.2.resolve_right hlabel
      have hr : r.stop ≤ t.start :=
        hrt.2.resolve_right fun h => hlabel ((hlabels b r hbr hjoin).trans h)
      refine .inl ?_
      have := hbr.1
      unfold Run.stop at *
      simp only
      omega

/-- Writes of one domain: their runs, as they are. -/
theorem lastDomain_of_all {writes : List DirtyPhysicalWrite}
    (hall : (writes.all fun write =>
      (writes.head?.map (·.orderingDomain)) = some write.orderingDomain) = true) {a : ℕ}
    {d : MemoryOrderingDomain} :
    At ((writes.filter (·.size ≠ 0)).map (·.run)) a d ↔ LastDomain writes a d := by
  have hdomains : ∀ w ∈ writes, ∀ v ∈ writes, w.orderingDomain = v.orderingDomain := by
    simp only [List.all_eq_true, decide_eq_true_eq] at hall
    intro w hw v hv
    exact Option.some.inj ((hall w hw).symm.trans (hall v hv))
  unfold LastDomain
  rw [Option.map_eq_some_iff]
  constructor
  · rintro ⟨r, hr, ha, rfl⟩
    obtain ⟨write, hwrite, rfl⟩ := List.mem_map.mp hr
    have hmem := (List.mem_filter.mp hwrite).1
    have hfound : (writes.reverse.find? fun write => write.run.Holds a).isSome := by
      rw [List.find?_isSome]
      exact ⟨write, List.mem_reverse.mpr hmem, by simpa using ha⟩
    obtain ⟨last, hlast⟩ := Option.isSome_iff_exists.mp hfound
    exact ⟨last, hlast, hdomains last (List.mem_reverse.mp (List.mem_of_find?_eq_some hlast)) write
      hmem⟩
  · rintro ⟨last, hlast, rfl⟩
    have hholds : last.run.Holds a := by simpa using List.find?_some hlast
    have hsize : last.size ≠ 0 := by
      unfold Run.Holds Run.stop DirtyPhysicalWrite.run at hholds
      simp only at hholds
      omega
    refine ⟨last.run, List.mem_map.mpr ⟨last, List.mem_filter.mpr ⟨?_, by simpa using hsize⟩, rfl⟩,
      hholds, rfl⟩
    exact List.mem_reverse.mp (List.mem_of_find?_eq_some hlast)

/-- The pieces before they are joined. -/
theorem writerPieces_spec (writes : List DirtyPhysicalWrite) :
    (writerPieces writes).Pairwise Mergeable ∧ (∀ t ∈ writerPieces writes, 0 < t.size) ∧
      Within (writerPieces writes) physicalMemorySize ∧
      ∀ a d, At (writerPieces writes) a d ↔ LastDomain writes a d := by
  have hsorted : ∀ pieces : List GpuCpuVisibilityRange,
      (pieces.insertionSort fun a b => a.start ≤ b.start).Pairwise fun b r => b.start ≤ r.start :=
    fun pieces => List.pairwise_insertionSort _ _
  have hperm : ∀ pieces : List GpuCpuVisibilityRange,
      (pieces.insertionSort fun a b => a.start ≤ b.start).Perm pieces :=
    fun pieces => List.perm_insertionSort _ _
  unfold writerPieces
  simp only
  by_cases hall : (writes.all fun write =>
      (writes.head?.map (·.orderingDomain)) = some write.orderingDomain) = true
  · rw [if_pos hall]
    set pieces := (writes.filter (·.size ≠ 0)).map (·.run) with hpieces
    have hmem : ∀ t ∈ pieces.insertionSort fun a b => a.start ≤ b.start,
        ∃ write ∈ writes, write.size ≠ 0 ∧ write.run = t := by
      intro t ht
      obtain ⟨write, hwrite, rfl⟩ := List.mem_map.mp ((hperm pieces).mem_iff.mp ht)
      obtain ⟨hwrite, hsize⟩ := List.mem_filter.mp hwrite
      exact ⟨write, hwrite, by simpa using hsize, rfl⟩
    refine ⟨(hsorted pieces).imp_of_mem fun {b r} hb hr hbr => ⟨hbr, .inr ?_⟩, fun t ht => ?_,
      fun t ht => ?_, fun a d => ?_⟩
    · obtain ⟨v, hv, -, rfl⟩ := hmem b hb
      obtain ⟨w, hw, -, rfl⟩ := hmem r hr
      simp only [List.all_eq_true, decide_eq_true_eq] at hall
      exact Option.some.inj ((hall v hv).symm.trans (hall w hw))
    · obtain ⟨w, -, hsize, rfl⟩ := hmem t ht
      exact Nat.pos_of_ne_zero hsize
    · obtain ⟨w, -, -, rfl⟩ := hmem t ht
      exact w.inside
    · rw [at_perm (hperm pieces)]
      exact lastDomain_of_all hall
  · rw [if_neg hall]
    have hcovering : Covering [] := ⟨.nil, by simp⟩
    have hclaimed := coverWrites_spec hcovering writes.reverse
    set pieces := coverWrites [] writes.reverse
    have hpos : ∀ t ∈ pieces.insertionSort fun a b => a.start ≤ b.start, 0 < t.size :=
      fun t ht => hclaimed.nonempty t ((hperm pieces).mem_iff.mp ht)
    have hordered : Ordered (pieces.insertionSort fun a b => a.start ≤ b.start) :=
      ordered_of_starts (hsorted pieces) hpos
        ((hperm pieces).symm.pairwise hclaimed.disjoint fun {b r} h a ha hb => h a hb ha)
    refine ⟨hordered.apart.imp_of_mem fun {b r} hb hr hbr => ⟨?_, .inl hbr⟩, hpos, fun t ht =>
      hclaimed.within t ((hperm pieces).mem_iff.mp ht), fun a d => ?_⟩
    · unfold Run.stop at hbr
      omega
    · rw [at_perm (hperm pieces), hclaimed.map, LastDomain]
      simp

/-- **`last_writer_runs` gives every byte the domain of its last write.** -/
theorem lastWriterRuns_spec (writes : List DirtyPhysicalWrite) :
    Ordered (lastWriterRuns writes) ∧
      ∀ a d, At (lastWriterRuns writes) a d ↔ LastDomain writes a d := by
  obtain ⟨hmergeable, hpos, hwithin, hmap⟩ := writerPieces_spec writes
  obtain ⟨hcanonical, hat, -⟩ := coalesce_spec
    (joining_overlapsOrContinues (show physicalMemorySize < 2 ^ 32 by decide)) hmergeable hpos hwithin
  exact ⟨hcanonical.toOrdered, fun a d => (hat a d).trans (hmap a d)⟩

end Memory
end XenonRecomp
