/-
# The parse of a disc image ends

A call of `parse_entry_tree` inside another one of the same directory comes after an
ordinal of that directory has been marked, and a call of `parse_directory` inside
another one is a level deeper.  `EntryCall.measure` counts both, levels first, and
goes down with every call inside a call, so that a fuel beyond its first value is
enough for every image and a larger one changes nothing (`initializeSource_bounded`).
-/

import XenonRecomp.Filesystem.GdfxBounds

namespace XenonRecomp
namespace Filesystem
namespace Gdfx

open ParseM

namespace ParseM

variable {α β : Type} {J : ParseState → Prop} {m : ParseM α} {f : α → ParseM β}
  {s : ParseState} {Q : α → ParseState → Prop}

/-- The step has fuel enough, and its answer and the state after it satisfy `Q`. -/
def Goes (m : ParseM α) (s : ParseState) (Q : α → ParseState → Prop) : Prop :=
  (m s).1 ≠ none ∧ ∀ a s', m s = (some (.ok a), s') → Q a s'

theorem Goes.bind {Q : β → ParseState → Prop} (h : Goes m s fun a s' => Goes (f a) s' Q) :
    Goes (m >>= f) s Q := by
  refine ⟨bind_ne_none h.1 fun a s' hms => (h.2 a s' hms).1, fun b s₂ hb => ?_⟩
  rw [bind_apply] at hb
  rcases hms : m s with ⟨_ | e | a, s'⟩
  · rw [hms] at hb
    simp at hb
  · rw [hms] at hb
    simp at hb
  · rw [hms] at hb
    exact (h.2 a s' hms).2 b s₂ hb

theorem Goes.mono {Q' : α → ParseState → Prop} (h : Goes m s Q) (hQ : ∀ a s', Q a s' → Q' a s') :
    Goes m s Q' := ⟨h.1, fun a s' hms => hQ a s' (h.2 a s' hms)⟩

/-- A step that never runs out of fuel keeps what it keeps. -/
theorem Total.goes (ht : Total m) (hk : Keeps J m) (hs : J s) : Goes m s fun _ s' => J s' := by
  refine ⟨ht s, fun a s' hms => ?_⟩
  have := hk s hs
  rwa [hms] at this

theorem Goes.keep (h : Goes m s Q) (hk : Keeps J m) (hs : J s) :
    Goes m s fun a s' => Q a s' ∧ J s' := by
  refine ⟨h.1, fun a s' hms => ⟨h.2 a s' hms, ?_⟩⟩
  have := hk s hs
  rwa [hms] at this

theorem goes_pure {a : α} (h : Q a s) : Goes (pure a) s Q := by
  refine ⟨nofun, fun b s' hb => ?_⟩
  cases hb
  exact h

theorem goes_change {g : ParseState → ParseState} {Q : Unit → ParseState → Prop}
    (h : Q () (g s)) : Goes (change g) s Q := by
  refine ⟨nofun, fun b s' hb => ?_⟩
  cases hb
  exact h

theorem goes_fail {e : FsError} : Goes (fail e : ParseM α) s Q := ⟨nofun, nofun⟩

theorem goes_state_bind {f : ParseState → ParseM β} {Q : β → ParseState → Prop}
    (h : Goes (f s) s Q) : Goes (state >>= f) s Q := h

theorem goes_require_bind {ok : Bool} {e : FsError} {f : Unit → ParseM β}
    {Q : β → ParseState → Prop} (h : ok = true → Goes (f ()) s Q) :
    Goes (require ok e >>= f) s Q := by
  cases ok with
  | true => exact h rfl
  | false => exact ⟨nofun, nofun⟩

theorem goes_whenever {c : Bool} {m : ParseM Unit} {Q : Unit → ParseState → Prop}
    (hm : c = true → Goes m s Q) (hs : c = false → Q () s) : Goes (whenever c m) s Q := by
  cases c with
  | true => exact hm rfl
  | false => exact goes_pure (hs rfl)

end ParseM

variable {image : Image} {info : GdfxImageInfo} {s s₀ s₁ : ParseState} {c : EntryCall}

/-! ### The measure -/

/-- The ordinals of a directory that are not marked. -/
def ParseState.unvisited (s : ParseState) (directory : ℕ) : ℕ :=
  ((Finset.range 65536).filter fun ordinal => s.visitState directory ordinal = 0).card

/-- The levels left, then the ordinals left. -/
def EntryCall.measure (c : EntryCall) (s : ParseState) : ℕ :=
  (kMaxDirectoryDepth - c.depth) * 65537 + s.unvisited c.directory

theorem ParseState.unvisited_le (s : ParseState) (directory : ℕ) : s.unvisited directory ≤ 65536 :=
  (Finset.card_filter_le _ _).trans (Finset.card_range _).le

theorem Extends.unvisited_le (h : Extends s₁ s) {directory : ℕ} (hd : directory < s₁.directories) :
    s.unvisited directory ≤ s₁.unvisited directory := by
  refine Finset.card_le_card fun ordinal ho => ?_
  rw [Finset.mem_filter] at ho ⊢
  refine ⟨ho.1, ?_⟩
  by_contra hne
  exact h.visited _ hd _ hne ho.2

/-- Marking an ordinal of two bytes leaves one less. -/
theorem unvisited_mark_lt (hfree : s.visitState c.directory c.ordinal = 0)
    (ho : c.ordinal < 65536) (visits : List (ℕ × ℕ)) :
    ParseState.unvisited { s with
      visitState := Function.update s.visitState c.directory
        (Function.update (s.visitState c.directory) c.ordinal 1)
      visits } c.directory < s.unvisited c.directory := by
  refine Finset.card_lt_card ⟨fun ordinal h => ?_, fun h => ?_⟩
  · rw [Finset.mem_filter] at h ⊢
    refine ⟨h.1, ?_⟩
    have hmark := h.2
    by_cases heq : ordinal = c.ordinal
    · rw [heq, hfree]
    · simpa [Function.update_of_ne heq] using hmark
  · have := h (Finset.mem_filter.mpr ⟨Finset.mem_range.mpr ho, hfree⟩)
    simp at this

theorem readLe16_lt (bytes : List UInt8) (offset : ℕ) : readLe16 bytes offset < 65536 := by
  have h₀ := (bytes.getD offset 0).toNat_lt
  have h₁ := (bytes.getD (offset + 1) 0).toNat_lt
  unfold readLe16 byteAt
  omega

/-! ### The steps of one entry -/

theorem total_readExact (offset length : ℕ) : Total (readExact image offset length) := by
  unfold readExact
  split
  · exact total_pure _
  split
  · exact total_fail _
  refine (total_change _).bind fun _ => ?_
  split
  · exact total_fail _
  · exact total_pure _

theorem total_readName (c : EntryCall) (h : EntryHeader) : Total (readName image c h) :=
  (total_readExact _ _).bind fun _ => (total_require _ _).bind fun _ =>
    (total_require _ _).bind fun _ => total_pure _

theorem total_addNode (c : EntryCall) (h : EntryHeader) (name : PathText) :
    Total (addNode image info c h name) :=
  total_state.bind fun _ => (total_require _ _).bind fun _ => (total_require _ _).bind fun _ =>
    (total_require _ _).bind fun _ => (total_change _).bind fun _ => total_pure _

/-- What a header that was read says: one ordinal less, and links of two bytes. -/
structure HeaderRead (image : Image) (c : EntryCall) (s : ParseState) (h : EntryHeader)
    (s' : ParseState) : Prop where
  fine : Fine image s s'
  left : h.left < 65536
  right : h.right < 65536
  unvisited : s'.unvisited c.directory < s.unvisited c.directory

theorem goes_readHeader (htidy : Tidy image s) (hd : c.directory < s.directories)
    (ho : c.ordinal < 65536) : Goes (readHeader image c) s (HeaderRead image c s) := by
  unfold readHeader
  refine goes_require_bind fun _ => goes_state_bind (goes_require_bind fun hfree => ?_)
  have hfree : s.visitState c.directory c.ordinal = 0 := by simpa using hfree
  have hmark := Fine.mark ⟨htidy, Extends.refl s⟩ hd one_ne_zero hfree
  refine Goes.bind (goes_change ?_)
  refine Goes.bind (((total_readExact _ _).goes (keeps_readExact _ _)
    ⟨hmark.1, Extends.refl _⟩).mono fun header s' hs' => ?_)
  refine goes_require_bind fun _ => goes_pure
    { fine := ⟨hs'.1, hmark.2.trans hs'.2⟩
      left := readLe16_lt _ _
      right := readLe16_lt _ _
      unvisited := ?_ }
  exact (hs'.2.unvisited_le hd).trans_lt (unvisited_mark_lt hfree ho _)

/-- A directory has fuel enough for one level more than those below it. -/
theorem goes_parseDirectory {parse : EntryCall → ParseM Unit} {fuel offset size parent depth : ℕ}
    (hfuel : (kMaxDirectoryDepth - depth).succ * 65537 ≤ fuel) (htidy : Tidy image s)
    (hparse : ∀ s c, Tidy image s → c.directory < s.directories → c.ordinal < 65536 →
      c.depth < kMaxDirectoryDepth → c.measure s < fuel → Goes (parse c) s fun _ _ => True) :
    Goes (parseDirectory parse image offset size parent depth) s fun _ _ => True := by
  unfold parseDirectory
  refine goes_state_bind (goes_require_bind fun hok => Goes.bind (goes_change ?_))
  have hdepth : depth < kMaxDirectoryDepth := by
    simp only [Bool.and_eq_true, decide_eq_true_eq] at hok
    exact hok.1.1.1.1.1
  have hstart := Fine.start ⟨htidy, Extends.refl s⟩ hdepth
  refine hparse _ _ hstart.1 (Nat.lt_succ_self _) (Nat.zero_lt_succ _) hdepth ?_
  refine lt_of_lt_of_le (Nat.add_lt_add_left (Nat.lt_succ_of_le (ParseState.unvisited_le _ _)) _) ?_
  rw [← Nat.succ_mul]
  exact hfuel

/-- A directory inside the one of `c`: it is a level deeper, or refused. -/
theorem goes_parseChild {parse : EntryCall → ParseM Unit} {fuel : ℕ} (h : EntryHeader)
    (index : ℕ) (hdepth : c.depth < kMaxDirectoryDepth)
    (hfuel : (kMaxDirectoryDepth - c.depth) * 65537 ≤ fuel) (htidy : Tidy image s)
    (hparse : ∀ s c, Tidy image s → c.directory < s.directories → c.ordinal < 65536 →
      c.depth < kMaxDirectoryDepth → c.measure s < fuel → Goes (parse c) s fun _ _ => True) :
    Goes (parseChild parse image info c h index) s fun _ _ => True := by
  unfold parseChild
  split
  · exact goes_fail
  refine goes_parseDirectory ?_ htidy hparse
  have hlevel : (kMaxDirectoryDepth - (c.depth + 1)).succ = kMaxDirectoryDepth - c.depth := by
    omega
  rw [hlevel]
  exact hfuel

/-- **Every entry is parsed with fuel enough**, by induction on a fuel beyond the measure. -/
theorem goes_parseEntryTree (fuel : ℕ) (c : EntryCall) (s : ParseState) (htidy : Tidy image s)
    (hd : c.directory < s.directories) (ho : c.ordinal < 65536)
    (hdepth : c.depth < kMaxDirectoryDepth) (hfuel : c.measure s < fuel) :
    Goes (parseEntryTree image info fuel c) s fun _ _ => True := by
  induction fuel generalizing c s with
  | zero => exact absurd hfuel (Nat.not_lt_zero _)
  | succ fuel ih =>
      -- The calls for the left and the right ordinal, in a state after the header.
      have hsame : ∀ s₁ s₂ ordinal, Fine image s₁ s₂ → c.directory < s₁.directories →
          s₁.unvisited c.directory < s.unvisited c.directory → ordinal < 65536 →
          Goes (parseEntryTree image info fuel { c with ordinal }) s₂ fun _ s' =>
            Fine image s₁ s' := by
        intro s₁ s₂ ordinal hfine hd₁ hless ho
        have hle := hfine.2.unvisited_le hd₁
        have hgoes := ih { c with ordinal } s₂ hfine.1 (hd₁.trans_le hfine.2.directories) ho hdepth
          (by unfold EntryCall.measure at hfuel ⊢; dsimp only; omega)
        exact (hgoes.keep (keeps_parseEntryTree fuel _ s₁ hd₁) hfine).mono fun _ _ h => h.2
      rw [parseEntryTree]
      refine Goes.bind ((goes_readHeader htidy hd ho).mono fun h s₁ hread => ?_)
      have hd₁ := hd.trans_le hread.fine.2.directories
      have hstart : Fine image s₁ s₁ := ⟨hread.fine.1, Extends.refl s₁⟩
      refine Goes.bind (Goes.mono (goes_whenever (Q := fun _ s' => Fine image s₁ s')
        (fun _ => hsame s₁ s₁ h.left hstart hd₁ hread.unvisited hread.left) fun _ => hstart)
        fun _ s₂ hs₂ => ?_)
      refine Goes.bind (((total_readName c h).goes (keeps_readName h) hs₂).mono
        fun name s₃ hs₃ => ?_)
      refine Goes.bind (((total_addNode c h name).goes (keeps_addNode h name) hs₃).mono
        fun index s₄ hs₄ => ?_)
      refine Goes.bind (Goes.mono (goes_whenever (Q := fun _ s' => Fine image s₁ s')
        (fun _ => ?_) fun _ => hs₄) fun _ s₅ hs₅ => ?_)
      · have hlevels : (kMaxDirectoryDepth - c.depth) * 65537 ≤ fuel := by
          have := hread.unvisited
          unfold EntryCall.measure at hfuel
          omega
        have hchild := @goes_parseChild _ info _ _ _ _ h index hdepth hlevels hs₄.1
          fun s c => ih c s
        exact (hchild.keep (keeps_parseChild h index fun s₁ c₁ => keeps_parseEntryTree fuel c₁ s₁)
          hs₄).mono fun _ _ h => h.2
      refine Goes.bind (Goes.mono (goes_whenever (Q := fun _ s' => Fine image s₁ s')
        (fun _ => hsame s₁ s₅ h.right hs₅ hd₁ hread.unvisited hread.right) fun _ => hs₅)
        fun _ _ _ => ?_)
      exact goes_change trivial

/-! ### More fuel changes nothing -/

theorem refines_parseDirectory {parse' parse : EntryCall → ParseM Unit}
    (h : ∀ c, Refines (parse' c) (parse c)) (offset size parent depth : ℕ) :
    Refines (parseDirectory parse' image offset size parent depth)
      (parseDirectory parse image offset size parent depth) :=
  Refines.rfl.bind fun _ => Refines.rfl.bind fun _ => Refines.rfl.bind fun _ => h _

theorem refines_parseChild {parse' parse : EntryCall → ParseM Unit}
    (h : ∀ c, Refines (parse' c) (parse c)) (header : EntryHeader) (index : ℕ) :
    Refines (parseChild parse' image info c header index)
      (parseChild parse image info c header index) := by
  unfold parseChild
  split
  · exact Refines.rfl
  · exact refines_parseDirectory h _ _ _ _

theorem refines_parseEntryTree {fuel fuel' : ℕ} (hle : fuel ≤ fuel') (c : EntryCall) :
    Refines (parseEntryTree image info fuel' c) (parseEntryTree image info fuel c) := by
  induction fuel generalizing c fuel' with
  | zero => exact fun s hne => absurd rfl hne
  | succ fuel ih =>
      obtain _ | fuel' := fuel'
      · exact absurd hle (Nat.not_succ_le_zero _)
      have hle := Nat.le_of_succ_le_succ hle
      rw [parseEntryTree, parseEntryTree]
      exact Refines.rfl.bind fun h => (refines_whenever (ih hle _)).bind fun _ =>
        Refines.rfl.bind fun _ => Refines.rfl.bind fun index =>
        (refines_whenever (refines_parseChild (fun c => ih hle c) h index)).bind fun _ =>
        (refines_whenever (ih hle _)).bind fun _ => Refines.rfl

/-! ### The whole image -/

theorem goes_findPartition (candidates : List ℕ) :
    Goes (findPartition image candidates) s fun _ _ => True := by
  induction candidates generalizing s with
  | nil => exact goes_pure trivial
  | cons candidate candidates ih =>
      refine ⟨?_, fun _ _ _ => trivial⟩
      unfold findPartition
      dsimp only
      split
      · exact ih.1
      · split
        · split
          · exact nofun
          · exact ih.1
        · exact ih.1

theorem keeps_findPartition {J : ParseState → Prop}
    (hread : ∀ offset length, Keeps J (readExact image offset length)) (candidates : List ℕ) :
    Keeps J (findPartition image candidates) := by
  induction candidates with
  | nil => exact keeps_pure _
  | cons candidate candidates ih =>
      intro s hs
      have hs' := hread (candidate + kVolumeDescriptorSector * kSectorSize) 32 s hs
      unfold findPartition
      dsimp only
      split
      · exact ih s hs
      · split
        · next heq =>
            rw [heq] at hs'
            split
            · exact hs'
            · exact ih _ hs'
        · next heq =>
            rw [heq] at hs'
            exact ih _ hs'

/-- The fuel that is enough for every image. -/
def parseFuel : ℕ := kMaxDirectoryDepth.succ * 65537

/-- A parse before its root directory. -/
def Started (image : Image) (s : ParseState) : Prop := Tidy image s ∧ s.nodes = []

theorem keeps_readExact_started (offset length : ℕ) :
    Keeps (Started image) (readExact image offset length) :=
  keeps_readExact_of offset length fun _ hs hin => ⟨hs.1.read hin, hs.2⟩

theorem started_empty : Started image {} where
  left := ⟨nofun, nofun, Nat.zero_le _, List.nodup_nil, nofun⟩
  right := rfl

/-- The node of the root. -/
theorem Started.root (h : Started image s) (root : Node) (index : List (PathText × ℕ)) :
    Tidy image { s with nodes := s.nodes ++ [root], pathIndex := index } := by
  refine { h.1 with nodes := ?_ }
  rw [h.2]
  exact Nat.le_of_ble_eq_true rfl

theorem Started.withInfo (h : Started image s) (i : GdfxImageInfo) :
    Started image { s with info := i } := ⟨⟨h.1.1, h.1.2, h.1.3, h.1.4, h.1.5⟩, h.2⟩

theorem tidy_parseRoot (fuel : ℕ) (hs : Started image s) :
    Tidy image (parseRoot fuel image info s).2 := by
  unfold parseRoot
  refine Keeps.bind_apply (keeps_require _ _) (fun _ h => h.1) (fun _ s hs => ?_) hs
  cases sectorInside image info.gamePartitionOffset info.rootSector info.rootSize with
  | none => exact hs.1
  | some rootOffset =>
      exact (keeps_parseDirectory (fun s₁ c => keeps_parseEntryTree fuel c s₁) _
        ⟨hs.root _ _, Extends.refl _⟩).1

/-- **The parse of an image is in its bounds**, whatever the fuel. -/
theorem tidy_parseImage (fuel : ℕ) (image : Image) :
    Tidy image (parseImage fuel image {}).2 := by
  unfold parseImage
  refine Keeps.bind_apply (keeps_require _ _) (fun _ h => h.1) (fun _ s hs => ?_) started_empty
  refine Keeps.bind_apply (keeps_change fun s hs => hs.withInfo _) (fun _ h => h.1)
    (fun _ s hs => ?_) hs
  iterate 2
    refine Keeps.bind_apply (keeps_require _ _) (fun _ h => h.1) (fun _ s hs => ?_) hs
  refine Keeps.bind_apply (keeps_findPartition keeps_readExact_started _) (fun _ h => h.1)
    (fun found s hs => ?_) hs
  cases found with
  | none => exact hs.1
  | some found =>
      exact Keeps.bind_apply (keeps_change fun s hs => hs.withInfo _) (fun _ h => h.1)
        (fun _ s hs => tidy_parseRoot fuel hs) hs

theorem goes_parseRoot {fuel : ℕ} (hfuel : parseFuel ≤ fuel) (hs : Started image s) :
    Goes (parseRoot fuel image info) s fun _ _ => True := by
  unfold parseRoot
  refine goes_require_bind fun _ => ?_
  cases sectorInside image info.gamePartitionOffset info.rootSector info.rootSize with
  | none => exact goes_fail
  | some rootOffset =>
      refine Goes.bind (goes_change (goes_parseDirectory ?_ (hs.root _ _)
        fun s c => goes_parseEntryTree fuel c s))
      rw [Nat.sub_zero]
      exact hfuel

/-- **Every image is parsed with fuel enough.** -/
theorem goes_parseImage {fuel : ℕ} (hfuel : parseFuel ≤ fuel) (image : Image) :
    Goes (parseImage fuel image) {} fun _ _ => True := by
  unfold parseImage
  refine goes_require_bind fun _ => Goes.bind (goes_change ?_)
  refine goes_require_bind fun _ => goes_require_bind fun _ => Goes.bind ?_
  refine ((goes_findPartition _).keep (keeps_findPartition keeps_readExact_started _)
    (started_empty.withInfo _)).mono fun found s hs => ?_
  cases found with
  | none => exact goes_fail
  | some found => exact Goes.bind (goes_change (goes_parseRoot hfuel (hs.2.withInfo _)))

theorem refines_parseRoot {fuel fuel' : ℕ} (hle : fuel ≤ fuel') :
    Refines (parseRoot fuel' image info) (parseRoot fuel image info) := by
  unfold parseRoot
  refine Refines.rfl.bind fun _ => ?_
  cases sectorInside image info.gamePartitionOffset info.rootSector info.rootSize with
  | none => exact Refines.rfl
  | some rootOffset =>
      exact Refines.rfl.bind fun _ => refines_parseDirectory (refines_parseEntryTree hle) _ _ _ _

theorem refines_parseImage {fuel fuel' : ℕ} (hle : fuel ≤ fuel') (image : Image) :
    Refines (parseImage fuel' image) (parseImage fuel image) := by
  unfold parseImage
  refine Refines.rfl.bind fun _ => Refines.rfl.bind fun _ => Refines.rfl.bind fun _ =>
    Refines.rfl.bind fun _ => Refines.rfl.bind fun found => ?_
  cases found with
  | none => exact Refines.rfl
  | some found => exact Refines.rfl.bind fun _ => refines_parseRoot hle

/-- A source that has no node and answers every request with an error. -/
structure GdfxImageSource.Unusable (source : GdfxImageSource) : Prop where
  nodes : source.nodes = []
  pathIndex : source.pathIndex = []
  stat : ∀ path, source.stat path = .error .ioError
  list : ∀ path, source.list path = .error .ioError
  readAt : ∀ path offset length, source.readAt path offset length = .error .ioError
  diskSpace : source.diskSpace = .error .ioError

/-- What a parse is bounded by: the reads are in the image, no directory has an ordinal
visited twice, and the depths and the nodes are below their limits. -/
structure Initialized.Bounded (image : Image) (r : Initialized) : Prop where
  finished : r.outcome ≠ none
  reads : ∀ read ∈ r.parse.reads, read.1 + read.2 ≤ image.size
  visits : r.parse.visits.Nodup
  depths : ∀ depth ∈ r.parse.depths, depth < kMaxDirectoryDepth
  nodes : r.parse.nodes.length ≤ kMaxNodes
  unusable : ∀ e, r.outcome = some (.error e) → r.source.Unusable

/-- **Every image is parsed in bounds**: whatever its links are, the parse finishes, with
the same result for every fuel that is enough, and an error leaves nothing to use. -/
theorem initializeSource_bounded (image : Image) :
    ∃ r : Initialized, r.Bounded image ∧
      ∀ fuel, parseFuel ≤ fuel → initializeSource fuel image = r := by
  have hgoes := goes_parseImage le_rfl image
  have htidy := tidy_parseImage parseFuel image
  refine ⟨initializeSource parseFuel image, ?_, fun fuel hle => ?_⟩
  · unfold initializeSource
    rcases hparse : parseImage parseFuel image {} with ⟨_ | e | ⟨⟩, s⟩
    · exact absurd (congrArg Prod.fst hparse) hgoes.1
    · rw [hparse] at htidy
      exact ⟨nofun, htidy.reads, htidy.nodup, htidy.depths, htidy.nodes, fun _ _ =>
        ⟨rfl, rfl, fun _ => rfl, fun _ => rfl, fun _ _ _ => rfl, rfl⟩⟩
    · rw [hparse] at htidy
      exact ⟨nofun, htidy.reads, htidy.nodup, htidy.depths, htidy.nodes, nofun⟩
  · unfold initializeSource
    rw [refines_parseImage hle image {} hgoes.1]

end Gdfx
end Filesystem
end XenonRecomp
