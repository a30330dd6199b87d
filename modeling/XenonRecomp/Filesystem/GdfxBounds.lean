/-
# The parse of a disc image stays in its bounds

Whatever links an image has, `parse_entry_tree` marks an ordinal before it follows
them and never unmarks one.  `Tidy` is what every step keeps of the log: reads
inside the image, no visit twice, depths and nodes below their limits.  `Extends`
is how the marks grow.  Both hold after every call, whatever its fuel
(`keeps_parseEntryTree`); that some fuel is enough for every image is proved in
`XenonRecomp.Filesystem.GdfxTermination`.
-/

import Mathlib.Order.Interval.Finset.Nat
import XenonRecomp.Filesystem.GdfxImage

namespace XenonRecomp
namespace Filesystem
namespace Gdfx

open ParseM (fail stuck state change require whenever)

namespace ParseM

variable {α β : Type} {J : ParseState → Prop} {m m' : ParseM α} {f f' : α → ParseM β}
  {s : ParseState}

/-- A step keeps a property of the state. -/
def Keeps (J : ParseState → Prop) (m : ParseM α) : Prop := ∀ s, J s → J (m s).2

/-- A step never runs out of fuel. -/
def Total (m : ParseM α) : Prop := ∀ s, (m s).1 ≠ none

theorem bind_apply (m : ParseM α) (f : α → ParseM β) (s : ParseState) :
    (m >>= f) s = match m s with
      | (some (.ok a), s) => f a s
      | (some (.error e), s) => (some (.error e), s)
      | (none, s) => (none, s) := rfl

theorem Keeps.bind (hm : Keeps J m) (hf : ∀ a, Keeps J (f a)) : Keeps J (m >>= f) := by
  intro s hs
  have hms := hm s hs
  rw [bind_apply]
  rcases hres : m s with ⟨_ | e | a, s'⟩ <;> rw [hres] at hms
  · exact hms
  · exact hms
  · exact hf a s' hms

/-- A step that keeps one property, then a step from it to another one. -/
theorem Keeps.bind_apply {J' : ParseState → Prop} (hm : Keeps J m) (hJ : ∀ s, J s → J' s)
    (hf : ∀ a s, J s → J' (f a s).2) (hs : J s) : J' ((m >>= f) s).2 := by
  have hms := hm s hs
  rw [ParseM.bind_apply]
  rcases hres : m s with ⟨_ | e | a, s'⟩ <;> rw [hres] at hms
  · exact hJ _ hms
  · exact hJ _ hms
  · exact hf a s' hms

theorem keeps_pure (a : α) : Keeps J (pure a) := fun _ hs => hs
theorem keeps_fail (e : FsError) : Keeps J (fail e : ParseM α) := fun _ hs => hs
theorem keeps_stuck : Keeps J (stuck : ParseM α) := fun _ hs => hs
theorem keeps_require (ok : Bool) (e : FsError) : Keeps J (require ok e) := by
  intro s hs
  unfold require
  split <;> exact hs

theorem keeps_whenever {c : Bool} {m : ParseM Unit} (hm : c = true → Keeps J m) :
    Keeps J (whenever c m) := by
  intro s hs
  unfold whenever
  split
  · next hc => exact hm hc s hs
  · exact hs

theorem keeps_change {g : ParseState → ParseState} (hg : ∀ s, J s → J (g s)) :
    Keeps J (change g) := fun s hs => hg s hs

/-- The steps after a look at the state. -/
theorem keeps_state_bind {f : ParseState → ParseM β} (hf : ∀ s, J s → J (f s s).2) :
    Keeps J (state >>= f) := fun s hs => hf s hs

theorem require_bind_apply (ok : Bool) (e : FsError) (f : Unit → ParseM β) (s : ParseState) :
    (require ok e >>= f) s = if ok then f () s else (some (.error e), s) := by
  rw [bind_apply]
  unfold require
  cases ok <;> rfl

/-- The steps after a requirement may use it. -/
theorem keeps_require_bind {ok : Bool} {e : FsError} {f : Unit → ParseM β} (hs : J s)
    (hf : ok = true → J (f () s).2) : J ((require ok e >>= f) s).2 := by
  rw [require_bind_apply]
  split
  · next hok => exact hf hok
  · exact hs

theorem Total.bind (hm : Total m) (hf : ∀ a, Total (f a)) : Total (m >>= f) := by
  intro s
  have hms := hm s
  rw [bind_apply]
  rcases hres : m s with ⟨_ | e | a, s'⟩ <;> rw [hres] at hms
  · exact absurd rfl hms
  · exact nofun
  · exact hf a s'

theorem total_pure (a : α) : Total (pure a : ParseM α) := fun _ => nofun
theorem total_fail (e : FsError) : Total (fail e : ParseM α) := fun _ => nofun
theorem total_state : Total state := fun _ => nofun
theorem total_change (g : ParseState → ParseState) : Total (change g) := fun _ => nofun

theorem total_require (ok : Bool) (e : FsError) : Total (require ok e) := by
  intro s
  unfold require
  split <;> exact nofun

/-- A sequence does not run out of fuel when neither part does. -/
theorem bind_ne_none (hm : (m s).1 ≠ none)
    (hf : ∀ a s', m s = (some (.ok a), s') → (f a s').1 ≠ none) : ((m >>= f) s).1 ≠ none := by
  rw [bind_apply]
  rcases hms : m s with ⟨_ | e | a, s'⟩
  · exact absurd (congrArg Prod.fst hms) hm
  · exact nofun
  · exact hf a s' hms

/-- Where `m` does not run out of fuel, `m'` does the same. -/
def Refines (m' m : ParseM α) : Prop := ∀ s, (m s).1 ≠ none → m' s = m s

theorem Refines.rfl : Refines m m := fun _ _ => Eq.refl _

theorem Refines.bind (hm : Refines m' m) (hf : ∀ a, Refines (f' a) (f a)) :
    Refines (m' >>= f') (m >>= f) := by
  intro s hne
  rw [bind_apply] at hne ⊢
  rw [bind_apply]
  have hms := hm s
  rcases hres : m s with ⟨_ | e | a, s'⟩
  · rw [hres] at hne
    exact absurd (Eq.refl _) hne
  · rw [hms (by rw [hres]; exact nofun), hres]
  · rw [hms (by rw [hres]; exact nofun), hres]
    rw [hres] at hne
    exact hf a s' hne

theorem refines_whenever {c : Bool} {m m' : ParseM Unit} (hm : Refines m' m) :
    Refines (whenever c m') (whenever c m) := by
  unfold whenever
  split
  · exact hm
  · exact Refines.rfl

end ParseM

open ParseM

/-! ### What every step keeps -/

/-- The log and the nodes are in their bounds, and a visited ordinal is marked. -/
structure Tidy (image : Image) (s : ParseState) : Prop where
  reads : ∀ r ∈ s.reads, r.1 + r.2 ≤ image.size
  depths : ∀ k ∈ s.depths, k < kMaxDirectoryDepth
  nodes : s.nodes.length ≤ kMaxNodes
  nodup : s.visits.Nodup
  marked : ∀ v ∈ s.visits, v.1 < s.directories ∧ s.visitState v.1 v.2 ≠ 0

/-- A later state: directories are only added, and marks only set. -/
structure Extends (s₀ s : ParseState) : Prop where
  directories : s₀.directories ≤ s.directories
  visited : ∀ d < s₀.directories, ∀ o, s₀.visitState d o ≠ 0 → s.visitState d o ≠ 0

variable {image : Image} {info : GdfxImageInfo} {s s₀ s₁ : ParseState} {c : EntryCall}

theorem Extends.refl (s : ParseState) : Extends s s := ⟨le_rfl, fun _ _ _ h => h⟩

theorem Extends.trans (h : Extends s₀ s₁) (h' : Extends s₁ s) : Extends s₀ s where
  directories := h.directories.trans h'.directories
  visited := fun d hd o ho => h'.visited d (hd.trans_le h.directories) o (h.visited d hd o ho)

/-- Both, for the states of one parse. -/
def Fine (image : Image) (s₀ s : ParseState) : Prop := Tidy image s ∧ Extends s₀ s

/-- A read changes the log of the reads only, by one inside the image. -/
theorem keeps_readExact_of {J : ParseState → Prop} (offset length : ℕ)
    (hJ : ∀ s, J s → offset + length ≤ image.size →
      J { s with reads := s.reads ++ [(offset, length)] }) :
    Keeps J (readExact image offset length) := by
  unfold readExact
  split
  · exact keeps_pure _
  split
  · exact keeps_fail _
  next hbounds =>
  refine (keeps_change fun s hs => hJ s hs (by omega)).bind fun _ => ?_
  split
  · exact keeps_fail _
  · exact keeps_pure _

theorem Tidy.read (h : Tidy image s) {offset length : ℕ} (hin : offset + length ≤ image.size) :
    Tidy image { s with reads := s.reads ++ [(offset, length)] } := by
  refine { h with reads := fun r hr => ?_ }
  rcases List.mem_append.mp hr with hr | hr
  · exact h.reads r hr
  · obtain rfl := List.mem_singleton.mp hr
    exact hin

theorem keeps_readExact (offset length : ℕ) :
    Keeps (Fine image s₀) (readExact image offset length) :=
  keeps_readExact_of offset length fun _ hs hin =>
    ⟨hs.1.read hin, ⟨hs.2.directories, hs.2.visited⟩⟩

/-- A mark that is set does not take another away. -/
theorem marked_update {visits : ℕ → ℕ → ℕ} (i j : ℕ) {n : ℕ} (hn : n ≠ 0) (d o : ℕ)
    (ho : visits d o ≠ 0) :
    Function.update visits i (Function.update (visits i) j n) d o ≠ 0 := by
  by_cases hdd : d = i
  · subst hdd
    by_cases hoo : o = j
    · simpa [hoo] using hn
    · simpa [hoo] using ho
  · simpa [hdd] using ho

/-- Marking an unmarked ordinal of a directory that has been started. -/
theorem Fine.mark (h : Fine image s₀ s) (hd : c.directory < s.directories) {n : ℕ} (hn : n ≠ 0)
    (hfree : s.visitState c.directory c.ordinal = 0) :
    Fine image s₀ { s with
      visitState := Function.update s.visitState c.directory
        (Function.update (s.visitState c.directory) c.ordinal n)
      visits := s.visits ++ [(c.directory, c.ordinal)] } := by
  obtain ⟨htidy, hext⟩ := h
  refine ⟨⟨htidy.reads, htidy.depths, htidy.nodes, ?_, ?_⟩,
    ⟨hext.directories, fun d hlt o ho => marked_update _ _ hn d o (hext.visited d hlt o ho)⟩⟩
  · refine htidy.nodup.append (List.nodup_singleton _) fun v hv hv' => ?_
    obtain rfl := List.mem_singleton.mp hv'
    exact (htidy.marked _ hv).2 hfree
  · intro v hv
    rcases List.mem_append.mp hv with hv | hv
    · exact ⟨(htidy.marked v hv).1, marked_update _ _ hn _ _ (htidy.marked v hv).2⟩
    · obtain rfl := List.mem_singleton.mp hv
      exact ⟨hd, by simpa using hn⟩

theorem keeps_readHeader (hd : c.directory < s₀.directories) :
    Keeps (Fine image s₀) (readHeader image c) := by
  unfold readHeader
  refine (keeps_require _ _).bind fun _ => keeps_state_bind fun s hs =>
    keeps_require_bind hs fun hfree => ?_
  have hmark := hs.mark (hd.trans_le hs.2.directories) one_ne_zero (by simpa using hfree)
  refine Keeps.bind (keeps_readExact _ _) (fun header => ?_) _ hmark
  exact (keeps_require _ _).bind fun _ => keeps_pure _

theorem keeps_readName (h : EntryHeader) : Keeps (Fine image s₀) (readName image c h) :=
  (keeps_readExact _ _).bind fun _ => (keeps_require _ _).bind fun _ =>
    (keeps_require _ _).bind fun _ => keeps_pure _

/-- A node beside its parent, below the limit. -/
theorem Fine.addNode (h : Fine image s₀ s) (hroom : s.nodes.length < kMaxNodes) (node : Node)
    (parent : ℕ) (f : Node → Node) (index : List (PathText × ℕ)) :
    Fine image s₀ { s with nodes := (s.nodes ++ [node]).modify parent f, pathIndex := index } := by
  obtain ⟨htidy, hext⟩ := h
  refine ⟨{ htidy with nodes := ?_ }, ⟨hext.directories, hext.visited⟩⟩
  rw [List.length_modify, List.length_append]
  exact hroom

theorem keeps_addNode (h : EntryHeader) (name : PathText) :
    Keeps (Fine image s₀) (addNode image info c h name) := by
  unfold addNode
  refine keeps_state_bind fun s hs => keeps_require_bind hs fun hroom => ?_
  refine keeps_require_bind hs fun _ => keeps_require_bind hs fun _ => ?_
  rw [Bool.and_eq_true, decide_eq_true_iff] at hroom
  exact hs.addNode hroom.1 _ _ _ _

/-- A directory that is started has a vector of its own. -/
theorem Fine.start (h : Fine image s₀ s) {depth : ℕ} (hdepth : depth < kMaxDirectoryDepth) :
    Fine image s₀ { s with
      visitState := Function.update s.visitState s.directories fun _ => 0
      directories := s.directories + 1
      depths := s.depths ++ [depth] } := by
  obtain ⟨htidy, hext⟩ := h
  have hkeep : ∀ d < s.directories, ∀ o, s.visitState d o ≠ 0 →
      Function.update s.visitState s.directories (fun _ => 0) d o ≠ 0 := by
    intro d hd o ho
    simpa [hd.ne] using ho
  refine ⟨⟨htidy.reads, ?_, htidy.nodes, htidy.nodup, fun v hv => ?_⟩,
    ⟨hext.directories.trans (Nat.le_succ _), fun d hd o ho => ?_⟩⟩
  · intro k hk
    rcases List.mem_append.mp hk with hk | hk
    · exact htidy.depths k hk
    · obtain rfl := List.mem_singleton.mp hk
      exact hdepth
  · obtain ⟨hd, ho⟩ := htidy.marked v hv
    exact ⟨Nat.lt_succ_of_lt hd, hkeep _ hd _ ho⟩
  · exact hkeep d (hd.trans_le hext.directories) o (hext.visited d hd o ho)

theorem keeps_parseDirectory {parse : EntryCall → ParseM Unit} {offset size parent depth : ℕ}
    (hparse : ∀ s₁ c, c.directory < s₁.directories → Keeps (Fine image s₁) (parse c)) :
    Keeps (Fine image s₀) (parseDirectory parse image offset size parent depth) := by
  unfold parseDirectory
  refine keeps_state_bind fun s hs => keeps_require_bind hs fun hok => ?_
  have hdepth : depth < kMaxDirectoryDepth := by
    simp only [Bool.and_eq_true, decide_eq_true_eq] at hok
    exact hok.1.1.1.1.1
  obtain ⟨htidy, hext⟩ := hs.start hdepth
  obtain ⟨htidy', hext'⟩ := hparse _
    { directoryOffset := offset, directorySize := size, ordinal := 0, parentIndex := parent,
      depth, directory := s.directories } (Nat.lt_succ_self _) _ ⟨htidy, Extends.refl _⟩
  exact ⟨htidy', hext.trans hext'⟩

theorem keeps_parseChild {parse : EntryCall → ParseM Unit} (h : EntryHeader) (index : ℕ)
    (hparse : ∀ s₁ c, c.directory < s₁.directories → Keeps (Fine image s₁) (parse c)) :
    Keeps (Fine image s₀) (parseChild parse image info c h index) := by
  unfold parseChild
  split
  · exact keeps_fail _
  · exact keeps_parseDirectory hparse

/-- Setting a mark to another one. -/
theorem keeps_done (c : EntryCall) (n : ℕ) (hn : n ≠ 0) :
    Keeps (Fine image s₀) (change fun s => { s with
      visitState := Function.update s.visitState c.directory
        (Function.update (s.visitState c.directory) c.ordinal n) }) := by
  refine keeps_change fun s ⟨htidy, hext⟩ => ?_
  exact ⟨{ htidy with marked := fun v hv =>
      ⟨(htidy.marked v hv).1, marked_update _ _ hn _ _ (htidy.marked v hv).2⟩ },
    ⟨hext.directories, fun d hlt o ho => marked_update _ _ hn d o (hext.visited d hlt o ho)⟩⟩

/-- **The entry tree keeps its bounds**, whatever its links are. -/
theorem keeps_parseEntryTree (fuel : ℕ) (c : EntryCall) (s₀ : ParseState)
    (hd : c.directory < s₀.directories) :
    Keeps (Fine image s₀) (parseEntryTree image info fuel c) := by
  induction fuel generalizing c s₀ with
  | zero => exact keeps_stuck
  | succ fuel ih =>
      rw [parseEntryTree]
      refine (keeps_readHeader hd).bind fun h => ?_
      refine (keeps_whenever fun _ => ih { c with ordinal := h.left } s₀ hd).bind fun _ => ?_
      refine (keeps_readName h).bind fun name => (keeps_addNode h name).bind fun index => ?_
      refine (keeps_whenever fun _ => keeps_parseChild h index fun s₁ c₁ => ih c₁ s₁).bind
        fun _ => ?_
      refine (keeps_whenever fun _ => ih { c with ordinal := h.right } s₀ hd).bind fun _ => ?_
      exact keeps_done c 2 two_ne_zero

end Gdfx
end Filesystem
end XenonRecomp
