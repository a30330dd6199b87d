/-
# The entry map is sound

What the ownership passes leave, for functions as discovery produces them
(`Discovered`): addresses are published once, an entry that stands for compiled
code names a function that was kept and has a block there, an absorbed function
leaves such an entry, and a branch ends in its own function, at a published
entry, or in the report (`EntryIntegrity`).

The passes agree on owners because a function that absorbs another is one the
pass never removes: with evidence of its own, or with no block of another
function at its start.
-/

import XenonRecomp.Recomp.Ownership
import Mathlib.Data.List.Destutter

namespace XenonRecomp
namespace Recomp

open Cpu Library.Folds

/-! ### What is proved of the passes -/

/-- What discovery promises of the functions it hands over: one record for each
start, compiled code has a block at its start in its own ranges, there is
intermediate code only where it was compiled, and the addresses of runtime
helpers are no functions. -/
structure Discovered (functions : List DiscoveredFunction) (helpers : List GuestAddress) :
    Prop where
  starts_nodup : (functions.map DiscoveredFunction.guestStart).Nodup
  compiled_start : ∀ f ∈ functions, f.isOwner = true →
    f.ownsAddress f.guestStart = true ∧ f.hasBlockEntry f.guestStart = true
  uncompiled : ∀ f ∈ functions, f.compiled = false → f.ir.blocks = []
  no_helper : ∀ f ∈ functions, f.guestStart ∉ helpers

/-- An entry that stands for compiled code names a function that owns the
address and has a block there. -/
def Owned (functions : List DiscoveredFunction) (entry : GuestEntryPoint) : Prop :=
  entry.kind = .function ∨ entry.kind = .alternateBlock →
    ∃ f ∈ functions, f.guestStart = entry.ownerFunction ∧ f.compiled = true ∧
      f.ownsAddress entry.address = true ∧ f.hasBlockEntry entry.address = true

/-- The soundness of the report `after` the passes on the functions `before`. -/
structure EntryIntegrity (before : List DiscoveredFunction) (after : AnalysisReport) : Prop where
  unique : (after.entries.map GuestEntryPoint.address).Nodup
  owned : ∀ entry ∈ after.entries, Owned after.functions entry
  absorbed : ∀ f ∈ before, f ∉ after.functions → f.hasSemanticBoundaryEvidence = false ∧
    ∃ entry ∈ after.entries, entry.address = f.guestStart ∧ entry.kind = .alternateBlock
  branches : ∀ f ∈ after.functions, ∀ branch ∈ f.branches, branch.linked = false →
    f.ownsAddress branch.target = true ∨
    (∃ entry ∈ after.entries, entry.address = branch.target) ∨
    ∃ u ∈ after.unresolved, u.address = branch.site ∧ u.target = branch.target

/-! ### Duplicates -/

/-- A function starts there, and is compiled if that is asked for. -/
def StartsAt (functions : List DiscoveredFunction) (a : GuestAddress) (compiled : Bool) : Prop :=
  ∃ f ∈ functions, f.guestStart = a ∧ (compiled = true → f.compiled = true)

theorem startsAt_mergeDuplicate (state : List DiscoveredFunction × List String)
    (f : DiscoveredFunction) (a : GuestAddress) (compiled : Bool) :
    StartsAt (mergeDuplicate state f).1 a compiled ↔
      StartsAt state.1 a compiled ∨ StartsAt [f] a compiled := by
  obtain ⟨kept, warnings⟩ := state
  cases kept with
  | nil => simp [mergeDuplicate, StartsAt]
  | cons k rest =>
    by_cases heq : k.guestStart = f.guestStart
    · cases hk : k.compiled <;> cases hf : f.compiled <;>
        simp [mergeDuplicate, StartsAt, heq, hk, hf] <;> grind
    · simp [mergeDuplicate, StartsAt, heq, or_comm]

theorem startsAt_foldl (functions : List DiscoveredFunction)
    (state : List DiscoveredFunction × List String) (a : GuestAddress) (compiled : Bool) :
    StartsAt (functions.foldl mergeDuplicate state).1 a compiled ↔
      StartsAt state.1 a compiled ∨ StartsAt functions a compiled := by
  induction functions generalizing state with
  | nil => simp [StartsAt]
  | cons f functions ih =>
    rw [List.foldl_cons, ih, startsAt_mergeDuplicate, or_assoc]
    simp [StartsAt]

/-- The starts that are left: those that differ from the one before. -/
theorem starts_foldl (functions : List DiscoveredFunction) (k : DiscoveredFunction)
    (rest : List DiscoveredFunction) (warnings : List String) :
    ((functions.foldl mergeDuplicate (k :: rest, warnings)).1.map
        DiscoveredFunction.guestStart).reverse =
      (rest.map DiscoveredFunction.guestStart).reverse ++
        (functions.map DiscoveredFunction.guestStart).destutter' (· ≠ ·) k.guestStart := by
  induction functions generalizing k rest warnings with
  | nil => simp
  | cons f functions ih =>
    rw [List.foldl_cons, List.map_cons, mergeDuplicate]
    by_cases heq : k.guestStart = f.guestStart
    · rw [List.destutter'_cons_neg _ (not_not.mpr heq)]
      simp only [heq, if_true]
      split <;> exact ih _ _ _
    · rw [List.destutter'_cons_pos _ heq]
      simp [heq, ih]

/-- **Merging duplicates leaves one record for each start**, loses none, and keeps a
compiled one if there is one. -/
theorem deduplicate_starts {functions : List DiscoveredFunction} {warnings : List String}
    (hsorted : functions.Pairwise fun a b => a.guestStart ≤ b.guestStart) :
    ((deduplicateFunctionsByAddress functions warnings).1.map
        DiscoveredFunction.guestStart).Pairwise (· < ·) ∧
      ∀ a compiled, StartsAt (deduplicateFunctionsByAddress functions warnings).1 a compiled ↔
        StartsAt functions a compiled := by
  constructor
  · cases functions with
    | nil => exact List.Pairwise.nil
    | cons f functions =>
      have hstarts := starts_foldl functions f [] warnings
      have hle := (List.pairwise_map.mpr hsorted).sublist
        (List.destutter'_sublist (functions.map DiscoveredFunction.guestStart) (· ≠ ·) f.guestStart)
      have hne := List.isChain_destutter' (· ≠ ·)
        (functions.map DiscoveredFunction.guestStart) f.guestStart
      show ((functions.foldl mergeDuplicate ([f], warnings)).1.reverse.map _).Pairwise _
      rw [List.map_reverse, hstarts]
      exact (List.isChain_iff_getElem.mpr fun i hi =>
        BitVec.lt_of_le_ne (hle.isChain.getElem i hi) (hne.getElem i hi)).pairwise
  · intro a compiled
    have hstart := startsAt_foldl functions ([], warnings) a compiled
    simpa [StartsAt, deduplicateFunctionsByAddress] using hstart

/-! ### Absorption -/

section absorption

variable {functions : List DiscoveredFunction} {state : Absorption}
  {victim owner : DiscoveredFunction × ℕ}

/-- A number is that of one function. -/
theorem zipIdx_unique (hv : victim ∈ functions.zipIdx) (ho : owner ∈ functions.zipIdx)
    (h : victim.2 = owner.2) : victim.1 = owner.1 := by
  have h₁ := List.mem_zipIdx_iff_getElem?.mp hv
  have h₂ := List.mem_zipIdx_iff_getElem?.mp ho
  rw [h, h₂] at h₁
  exact (Option.some.inj h₁).symm

/-- What absorbing one function into another needs of the two. -/
structure Absorbs (functions : List DiscoveredFunction)
    (victim owner : DiscoveredFunction × ℕ) : Prop where
  victim_mem : victim ∈ functions.zipIdx
  owner_mem : owner ∈ functions.zipIdx
  ne : victim.2 ≠ owner.2
  weak : isWeak victim.1 = true
  isOwner : owner.1.isOwner = true
  owns : owner.1.ownsAddress victim.1.guestStart = true
  block : owner.1.hasBlockEntry victim.1.guestStart = true
  stable : owner.1.hasSemanticBoundaryEvidence = true ∨ isRoot functions owner = true

/-- **A function that absorbs another is not absorbed**: it has evidence, or no
other function has a block at its start. -/
theorem Absorbs.owner_stays {victim' owner' : DiscoveredFunction × ℕ}
    (h : Absorbs functions victim owner) (h' : Absorbs functions victim' owner') :
    owner.2 ≠ victim'.2 := by
  intro heq
  have hsame := zipIdx_unique h.owner_mem h'.victim_mem heq
  have hweak := h'.weak
  simp only [isWeak, Bool.and_eq_true, Bool.not_eq_true'] at hweak
  rcases h.stable with hev | hroot
  · rw [hsame, hweak.2] at hev
    cases hev
  · simp only [isRoot, Bool.and_eq_true, List.all_eq_true, beq_iff_eq] at hroot
    have hk : owner'.2 ∈ blockStarts functions owner.1.guestStart := by
      rw [hsame]
      refine List.mem_map.mpr ⟨owner', List.mem_filter.mpr ⟨h'.owner_mem, ?_⟩, rfl⟩
      show (owner'.1.isOwner && (owner'.1.hasBlockEntry victim'.1.guestStart &&
        owner'.1.ownsAddress victim'.1.guestStart)) = true
      rw [h'.isOwner, h'.block, h'.owns]
      rfl
    exact h'.ne (heq.symm.trans (hroot.2 _ hk).symm)

/-- What the loop of `absorb_weak_functions` has done so far. -/
structure AbsorptionOk (functions : List DiscoveredFunction) (state : Absorption) : Prop where
  absorbed : ∀ i ∈ state.absorbed, ∃ victim owner, victim.2 = i ∧
    Absorbs functions victim owner ∧ absorbedEntry victim.1 owner.1 ∈ state.entries
  entries : ∀ entry ∈ state.entries, ∃ victim owner, victim.2 ∈ state.absorbed ∧
    Absorbs functions victim owner ∧ entry = absorbedEntry victim.1 owner.1

/-- One turn of the loop. -/
theorem AbsorptionOk.step (h : AbsorptionOk functions state) (hv : victim ∈ functions.zipIdx) :
    AbsorptionOk functions (absorbStep functions state victim) := by
  unfold absorbStep
  split
  · next hweak =>
    split
    · exact h
    · next owner howner =>
      obtain ⟨hmem, hcan⟩ := List.mem_filter.mp (strongest_mem howner)
      simp only [canAbsorb, Bool.and_eq_true, Bool.or_eq_true, Bool.not_eq_true',
        beq_eq_false_iff_ne] at hcan
      obtain ⟨⟨⟨hne, -⟩, ⟨hown, howns⟩, hblock⟩, hstable⟩ := hcan
      have habs : Absorbs functions victim owner :=
        ⟨hv, hmem, hne, hweak, hown, howns, hblock, hstable⟩
      refine ⟨fun i hi => ?_, fun entry he => ?_⟩
      · rcases List.mem_cons.mp hi with rfl | hi
        · exact ⟨victim, owner, rfl, habs, List.mem_append_right _ (List.mem_singleton.mpr rfl)⟩
        · obtain ⟨v, o, hi, hvo, hin⟩ := h.absorbed i hi
          exact ⟨v, o, hi, hvo, List.mem_append_left _ hin⟩
      · rcases List.mem_append.mp he with he | he
        · obtain ⟨v, o, hi, hvo, heq⟩ := h.entries entry he
          exact ⟨v, o, List.mem_cons_of_mem _ hi, hvo, heq⟩
        · exact ⟨victim, owner, List.mem_cons_self, habs, List.mem_singleton.mp he⟩
  · exact h

/-- **The whole loop.** -/
theorem absorptionOk (functions : List DiscoveredFunction) :
    AbsorptionOk functions (absorption functions) :=
  List.foldlRecOn functions.zipIdx (absorbStep functions)
    (motive := AbsorptionOk functions) ⟨nofun, nofun⟩ fun _ h _ hv => h.step hv

end absorption

/-! ### The functions that remain -/

section remaining

variable {report : AnalysisReport} {f : DiscoveredFunction} {helpers : List GuestAddress}

/-- A function remains if it is not absorbed. -/
theorem mem_remaining :
    f ∈ (absorbWeakFunctions report).1.functions ↔
      ∃ i, (f, i) ∈ report.functions.zipIdx ∧ i ∉ (absorption report.functions).absorbed := by
  constructor
  · intro h
    obtain ⟨⟨g, i⟩, hmem, rfl⟩ := List.mem_map.mp h
    obtain ⟨hz, hi⟩ := List.mem_filter.mp hmem
    exact ⟨i, hz, by simpa using hi⟩
  · rintro ⟨i, hz, hi⟩
    exact List.mem_map.mpr ⟨(f, i), List.mem_filter.mpr ⟨hz, by simpa using hi⟩, rfl⟩

theorem mem_of_mem_remaining (h : f ∈ (absorbWeakFunctions report).1.functions) :
    f ∈ report.functions := by
  obtain ⟨i, hz, -⟩ := mem_remaining.mp h
  exact List.mem_of_getElem? (List.mem_zipIdx_iff_getElem?.mp hz)

/-- Starts stay unique. -/
theorem remaining_nodup (h : (report.functions.map DiscoveredFunction.guestStart).Nodup) :
    ((absorbWeakFunctions report).1.functions.map DiscoveredFunction.guestStart).Nodup := by
  refine h.sublist (List.Sublist.map _ ?_)
  have hsub : ((report.functions.zipIdx.filter fun f =>
      !(absorption report.functions).absorbed.contains f.2).map Prod.fst).Sublist
      (report.functions.zipIdx.map Prod.fst) := List.filter_sublist.map _
  rwa [List.zipIdx_map_fst] at hsub

/-- A function that does not remain was absorbed. -/
theorem exists_absorbs (hf : f ∈ report.functions)
    (hgone : f ∉ (absorbWeakFunctions report).1.functions) :
    ∃ i owner, Absorbs report.functions (f, i) owner ∧
      absorbedEntry f owner.1 ∈ (absorbWeakFunctions report).2 := by
  obtain ⟨i, hi⟩ := List.mem_iff_getElem?.mp hf
  have hz : (f, i) ∈ report.functions.zipIdx := List.mem_zipIdx_iff_getElem?.mpr hi
  have habs : i ∈ (absorption report.functions).absorbed := by
    by_contra h
    exact hgone (mem_remaining.mpr ⟨i, hz, h⟩)
  obtain ⟨victim, owner, rfl, hvo, hentry⟩ := (absorptionOk report.functions).absorbed i habs
  obtain rfl : victim.1 = f := zipIdx_unique hvo.victim_mem hz rfl
  exact ⟨victim.2, owner, hvo, hentry⟩

/-- **The owner of an absorbed function remains.** -/
theorem absorber_remains {victim owner : DiscoveredFunction × ℕ}
    (h : Absorbs report.functions victim owner) :
    owner.1 ∈ (absorbWeakFunctions report).1.functions := by
  refine mem_remaining.mpr ⟨owner.2, h.owner_mem, fun habs => ?_⟩
  obtain ⟨v, o, hi, hvo, -⟩ := (absorptionOk report.functions).absorbed _ habs
  exact h.owner_stays hvo hi.symm

/-- The entries of the absorbed functions. -/
theorem absorbedEntries_cases {entry : GuestEntryPoint}
    (h : entry ∈ (absorbWeakFunctions report).2) :
    ∃ victim owner, Absorbs report.functions victim owner ∧
      entry = absorbedEntry victim.1 owner.1 := by
  obtain ⟨v, o, -, hvo, rfl⟩ := (absorptionOk report.functions).entries entry h
  exact ⟨v, o, hvo, rfl⟩

/-- The promise holds of the functions that remain. -/
theorem Discovered.remaining (h : Discovered report.functions helpers) :
    Discovered (absorbWeakFunctions report).1.functions helpers where
  starts_nodup := remaining_nodup h.starts_nodup
  compiled_start f hf := h.compiled_start f (mem_of_mem_remaining hf)
  uncompiled f hf := h.uncompiled f (mem_of_mem_remaining hf)
  no_helper f hf := h.no_helper f (mem_of_mem_remaining hf)

end remaining

/-! ### The entries that are added -/

section entries

variable {functions : List DiscoveredFunction} {helpers : List GuestAddress}
  {entry : GuestEntryPoint}

/-- The strongest owner is an owner. -/
theorem findStrongestOwner_spec {target : GuestAddress} {owner : DiscoveredFunction}
    (h : findStrongestOwner functions target = some owner) :
    owner ∈ functions ∧ owner.isOwner = true ∧ owner.ownsAddress target = true := by
  obtain ⟨hmem, hcond⟩ := List.mem_filter.mp (strongest_mem h)
  rw [Bool.and_eq_true] at hcond
  exact ⟨hmem, hcond⟩

theorem compiled_of_isOwner {f : DiscoveredFunction} (h : f.isOwner = true) :
    f.compiled = true := by
  simp only [DiscoveredFunction.isOwner, Bool.and_eq_true] at h
  exact h.1

/-- In what discovery hands over, a function with a block was compiled. -/
theorem Discovered.compiled_of_block (h : Discovered functions helpers) {f : DiscoveredFunction}
    (hf : f ∈ functions) {address : GuestAddress} (hb : f.hasBlockEntry address = true) :
    f.compiled = true := by
  by_contra hc
  rw [Bool.not_eq_true] at hc
  rw [DiscoveredFunction.hasBlockEntry, h.uncompiled f hf hc] at hb
  cases hb

theorem startEntry_address {f : DiscoveredFunction} (h : startEntry f = some entry) :
    entry.address = f.guestStart := by
  unfold startEntry at h
  split_ifs at h <;> cases h <;> rfl

theorem startEntry_owned (hd : Discovered functions helpers) {f : DiscoveredFunction}
    (hf : f ∈ functions) (h : startEntry f = some entry) : Owned functions entry := by
  unfold startEntry at h
  dsimp only at h
  split_ifs at h with hthunk hcompiled hnative
  · cases h
    rintro (hk | hk) <;> cases hk
  · cases h
    rintro (hk | hk) <;> cases hk
  · cases h
    have hown : f.isOwner = true := by simp [DiscoveredFunction.isOwner, hcompiled, hnative]
    obtain ⟨howns, hblock⟩ := hd.compiled_start f hf hown
    exact fun _ => ⟨f, hf, rfl, hcompiled, howns, hblock⟩

theorem blockEntry_owned {owner : DiscoveredFunction} {address : GuestAddress}
    {sources : List DiscoverySource} {confidence : ℕ} (hmem : owner ∈ functions)
    (hcompiled : owner.compiled = true) (howns : owner.ownsAddress address = true)
    (hblock : owner.hasBlockEntry address = true) :
    Owned functions (blockEntry owner address sources confidence) :=
  fun _ => ⟨owner, hmem, rfl, hcompiled, howns, hblock⟩

theorem branchEntry_cases {source : DiscoveredFunction} {branch : BranchReference}
    (h : branchEntry functions source branch = some entry) :
    ∃ owner sources confidence, findStrongestOwner functions branch.target = some owner ∧
      owner.hasBlockEntry branch.target = true ∧
      entry = blockEntry owner branch.target sources confidence := by
  unfold branchEntry at h
  split at h
  · cases h
  split at h
  · cases h
  next owner howner =>
    split at h
    · cases h
    next hcond =>
      push Not at hcond
      exact ⟨owner, _, _, howner, by simpa using hcond.2.2, (Option.some.inj h).symm⟩

theorem observationEntry_cases {observation : AdaptiveObservation}
    (h : observationEntry functions observation = some entry) :
    ∃ owner sources confidence, observedOwner functions observation = some owner ∧
      owner.hasBlockEntry observation.address = true ∧
      entry = blockEntry owner observation.address sources confidence := by
  unfold observationEntry at h
  split at h
  · cases h
  next owner howner =>
    split at h
    · cases h
    next hcond =>
      push Not at hcond
      exact ⟨owner, _, _, howner, by simpa using hcond.2, (Option.some.inj h).symm⟩

/-- The owner of an observed address owns it. -/
theorem observedOwner_spec {observation : AdaptiveObservation} {owner : DiscoveredFunction}
    (h : observedOwner functions observation = some owner) :
    owner ∈ functions ∧ owner.ownsAddress observation.address = true := by
  rcases Option.or_eq_some_iff.mp h with h | ⟨-, h⟩
  · obtain ⟨hint, -, hfind⟩ := Option.bind_eq_some_iff.mp h
    have hcond := List.find?_some hfind
    simp only [Bool.and_eq_true] at hcond
    exact ⟨List.mem_of_find?_eq_some hfind, hcond.1.2⟩
  · obtain ⟨hmem, -, howns⟩ := findStrongestOwner_spec h
    exact ⟨hmem, howns⟩

/-- **Every entry that is added is owned.** -/
theorem entrySources_owned (hd : Discovered functions helpers)
    {absorbedEntries : List GuestEntryPoint}
    (habs : ∀ entry ∈ absorbedEntries, Owned functions entry)
    {observations : List AdaptiveObservation}
    (h : entry ∈ entrySources functions absorbedEntries observations helpers) :
    Owned functions entry := by
  simp only [entrySources, List.mem_append, List.mem_filterMap, List.mem_flatMap,
    List.mem_map] at h
  rcases h with (((⟨f, hf, h⟩ | h) | ⟨f, -, branch, -, h⟩) | ⟨observation, -, h⟩) | ⟨a, -, rfl⟩
  · exact startEntry_owned hd hf h
  · exact habs entry h
  · obtain ⟨owner, _, _, howner, hblock, rfl⟩ := branchEntry_cases h
    obtain ⟨hmem, hown, howns⟩ := findStrongestOwner_spec howner
    exact blockEntry_owned hmem (compiled_of_isOwner hown) howns hblock
  · obtain ⟨owner, _, _, howner, hblock, rfl⟩ := observationEntry_cases h
    obtain ⟨hmem, howns⟩ := observedOwner_spec howner
    exact blockEntry_owned hmem (hd.compiled_of_block hmem hblock) howns hblock
  · rintro (hk | hk) <;> cases hk

/-- At an address that is no start and no helper, only block entries are
added. -/
theorem entrySources_kind {absorbedEntries : List GuestEntryPoint}
    (habs : ∀ entry ∈ absorbedEntries, entry.kind = .alternateBlock)
    {observations : List AdaptiveObservation} {address : GuestAddress}
    (hstart : ∀ f ∈ functions, f.guestStart ≠ address) (hhelper : address ∉ helpers)
    (h : entry ∈ entrySources functions absorbedEntries observations helpers)
    (haddress : entry.address = address) : entry.kind = .alternateBlock := by
  simp only [entrySources, List.mem_append, List.mem_filterMap, List.mem_flatMap,
    List.mem_map] at h
  rcases h with (((⟨f, hf, h⟩ | h) | ⟨f, -, branch, -, h⟩) | ⟨observation, -, h⟩) | ⟨a, ha, rfl⟩
  · exact absurd ((startEntry_address h).symm.trans haddress) (hstart f hf)
  · exact habs entry h
  · obtain ⟨owner, _, _, -, -, rfl⟩ := branchEntry_cases h
    rfl
  · obtain ⟨owner, _, _, -, -, rfl⟩ := observationEntry_cases h
    rfl
  · exact absurd (haddress ▸ ha) hhelper

end entries

/-! ### The map -/

section map

variable {l : List GuestEntryPoint} {P : GuestEntryPoint → Prop}

theorem mergeEntry_address (existing entry : GuestEntryPoint)
    (h : existing.address = entry.address) : (mergeEntry existing entry).address = entry.address := by
  unfold mergeEntry
  split_ifs <;> exact h

/-- A merged entry stands for what one of the two stands for. -/
theorem mergeEntry_cases (existing entry : GuestEntryPoint) :
    ((mergeEntry existing entry).kind = existing.kind ∧
      (mergeEntry existing entry).ownerFunction = existing.ownerFunction) ∨
    ((mergeEntry existing entry).kind = entry.kind ∧
      (mergeEntry existing entry).ownerFunction = entry.ownerFunction) := by
  unfold mergeEntry
  split_ifs
  · exact .inr ⟨rfl, rfl⟩
  · exact .inl ⟨rfl, rfl⟩

/-- Addresses are published once. -/
theorem foldl_addEntry_nodup (l : List GuestEntryPoint) :
    ((l.foldl addEntry []).map GuestEntryPoint.address).Nodup :=
  List.foldlRecOn l addEntry
    (motive := fun entries => (entries.map GuestEntryPoint.address).Nodup) List.nodup_nil
    fun _ h _ _ => nodup_keys_upsert mergeEntry_address h

/-- What holds of every entry added, and of two merged, holds of the map. -/
theorem forall_foldl_addEntry (hl : ∀ entry ∈ l, P entry)
    (hmerge : ∀ x entry, x.address = entry.address → P x → P entry → P (mergeEntry x entry)) :
    ∀ entry ∈ l.foldl addEntry [], P entry :=
  List.foldlRecOn l addEntry (motive := fun entries => ∀ entry ∈ entries, P entry) nofun
    fun _ h entry he => forall_mem_upsert (hl entry he)
      (fun x hx hPx => hmerge x entry hx hPx (hl entry he)) h

/-- The addresses published are those of the entries added. -/
theorem mem_foldl_addEntry_address {address : GuestAddress} :
    address ∈ (l.foldl addEntry []).map GuestEntryPoint.address ↔
      address ∈ l.map GuestEntryPoint.address := by
  suffices ∀ (l entries : List GuestEntryPoint),
      address ∈ (l.foldl addEntry entries).map GuestEntryPoint.address ↔
        address ∈ entries.map GuestEntryPoint.address ∨
          address ∈ l.map GuestEntryPoint.address by
    simpa using this l []
  intro l
  induction l with
  | nil => simp
  | cons entry l ih =>
    intro entries
    rw [List.foldl_cons, ih, addEntry, mem_keys_upsert mergeEntry_address, List.map_cons,
      List.mem_cons]
    tauto

end map

/-! ### The three passes -/

section passes

variable {report : AnalysisReport} {observations : List AdaptiveObservation}
  {helpers : List GuestAddress} {index : ExecutableRangeIndex} {entry : GuestEntryPoint}

/-- The entries added for a report. -/
def addedEntries (report : AnalysisReport) (observations : List AdaptiveObservation)
    (helpers : List GuestAddress) : List GuestEntryPoint :=
  entrySources (absorbWeakFunctions report).1.functions (absorbWeakFunctions report).2
    observations helpers

theorem mem_reconciled_entries :
    entry ∈ (reconcileOwnership report observations helpers index).entries ↔
      entry ∈ (addedEntries report observations helpers).foldl addEntry [] :=
  List.mem_insertionSort _

theorem exists_reconciled_entry {address : GuestAddress}
    (h : ∃ entry ∈ addedEntries report observations helpers, entry.address = address) :
    ∃ entry ∈ (reconcileOwnership report observations helpers index).entries,
      entry.address = address := by
  have hmem := mem_foldl_addEntry_address.mpr (List.mem_map.mpr h)
  obtain ⟨entry, he, ha⟩ := List.mem_map.mp hmem
  exact ⟨entry, mem_reconciled_entries.mpr he, ha⟩

/-- The start of a compiled function is published. -/
theorem exists_start_entry {f : DiscoveredFunction}
    (hf : f ∈ (absorbWeakFunctions report).1.functions) (hc : f.compiled = true) :
    ∃ entry ∈ (reconcileOwnership report observations helpers index).entries,
      entry.address = f.guestStart := by
  obtain ⟨entry, he⟩ : ∃ entry, startEntry f = some entry := by
    unfold startEntry
    dsimp only
    rw [if_pos hc]
    split_ifs <;> exact ⟨_, rfl⟩
  refine exists_reconciled_entry ⟨entry, ?_, startEntry_address he⟩
  unfold addedEntries entrySources
  simp only [List.mem_append, List.mem_filterMap]
  exact .inl (.inl (.inl (.inl ⟨f, hf, he⟩)))

/-- The entries the absorption leaves are owned by functions that remain. -/
theorem absorbedEntries_owned {entry : GuestEntryPoint}
    (h : entry ∈ (absorbWeakFunctions report).2) :
    Owned (absorbWeakFunctions report).1.functions entry := by
  obtain ⟨victim, owner, habs, rfl⟩ := absorbedEntries_cases h
  exact fun _ => ⟨owner.1, absorber_remains habs, rfl, compiled_of_isOwner habs.isOwner,
    habs.owns, habs.block⟩

/-- A branch that is not diagnosed ends in its own function or at an entry. -/
theorem diagnoseBranch_eq_none
    (hstarts : ((absorbWeakFunctions report).1.functions.map
      DiscoveredFunction.guestStart).Nodup)
    {f : DiscoveredFunction} (hf : f ∈ (absorbWeakFunctions report).1.functions)
    {branch : BranchReference} (hlinked : branch.linked = false)
    (h : diagnoseBranch (buildGuestEntryMap (absorbWeakFunctions report).1
      (absorbWeakFunctions report).2 observations helpers) index f branch = none) :
    f.ownsAddress branch.target = true ∨
      ∃ entry ∈ (reconcileOwnership report observations helpers index).entries,
        entry.address = branch.target := by
  unfold diagnoseBranch at h
  rw [if_neg (by simp [hlinked])] at h
  split at h
  · cases h
  split at h
  · cases h
  next owner howner =>
    obtain ⟨hmem, hown, howns⟩ := findStrongestOwner_spec howner
    split at h
    · next hcond =>
      rcases hcond with hsame | hstart
      · obtain rfl : owner = f := List.inj_on_of_nodup_map hstarts hmem hf hsame
        exact .inl howns
      · obtain ⟨entry, he, ha⟩ := @exists_start_entry _ observations
          helpers index _ hmem (compiled_of_isOwner hown)
        exact .inr ⟨entry, he, ha.trans hstart.symm⟩
    · split at h
      · next hany =>
        obtain ⟨entry, he, hcond⟩ := List.any_eq_true.mp hany
        simp only [Bool.and_eq_true, beq_iff_eq] at hcond
        exact .inr ⟨entry, he, hcond.1⟩
      · cases h

/-- **Every static edge ends at a real entry or is reported**, for the functions
discovery hands over. -/
theorem reconcileOwnership_integrity (report : AnalysisReport)
    (observations : List AdaptiveObservation) (helpers : List GuestAddress)
    (index : ExecutableRangeIndex) (hd : Discovered report.functions helpers) :
    EntryIntegrity report.functions (reconcileOwnership report observations helpers index) where
  unique := by
    have hperm := (List.perm_insertionSort (fun a b : GuestEntryPoint => a.address ≤ b.address)
      ((addedEntries report observations helpers).foldl addEntry [])).map GuestEntryPoint.address
    exact hperm.nodup_iff.mpr (foldl_addEntry_nodup _)
  owned entry he := by
    refine forall_foldl_addEntry (P := Owned (absorbWeakFunctions report).1.functions)
      (fun entry he => entrySources_owned hd.remaining (fun _ => absorbedEntries_owned) he)
      (fun x entry haddress hx hentry => ?_) entry (mem_reconciled_entries.mp he)
    unfold Owned at *
    rw [mergeEntry_address x entry haddress]
    rcases mergeEntry_cases x entry with ⟨hk, ho⟩ | ⟨hk, ho⟩
    · rw [hk, ho, ← haddress]
      exact hx
    · rw [hk, ho]
      exact hentry
  absorbed f hf hgone := by
    obtain ⟨i, owner, habs, hentry⟩ := exists_absorbs hf hgone
    have hweak := habs.weak
    simp only [isWeak, Bool.and_eq_true, Bool.not_eq_true'] at hweak
    refine ⟨hweak.2, ?_⟩
    obtain ⟨entry, he, ha⟩ := @exists_reconciled_entry _ observations
      helpers index f.guestStart
      ⟨absorbedEntry f owner.1, by
        unfold addedEntries entrySources
        simp only [List.mem_append]
        exact .inl (.inl (.inl (.inr hentry))), rfl⟩
    refine ⟨entry, he, ha, ?_⟩
    -- No other entry is added at the start of a function that is gone.
    have hstart : ∀ g ∈ (absorbWeakFunctions report).1.functions,
        g.guestStart ≠ f.guestStart := by
      intro g hg hsame
      obtain rfl := List.inj_on_of_nodup_map hd.starts_nodup (mem_of_mem_remaining hg) hf hsame
      exact hgone hg
    refine forall_foldl_addEntry
      (P := fun entry => entry.address = f.guestStart → entry.kind = .alternateBlock)
      (fun entry he => entrySources_kind (fun entry he => ?_) hstart (hd.no_helper f hf) he)
      (fun x entry haddress hx hentry hmerged => ?_) entry (mem_reconciled_entries.mp he) ha
    · obtain ⟨_, _, -, rfl⟩ := absorbedEntries_cases he
      rfl
    · rw [mergeEntry_address x entry haddress] at hmerged
      rcases mergeEntry_cases x entry with ⟨hk, -⟩ | ⟨hk, -⟩
      · rw [hk]
        exact hx (haddress.trans hmerged)
      · rw [hk]
        exact hentry hmerged
  branches f hf branch hbranch hlinked := by
    cases hdiag : diagnoseBranch (buildGuestEntryMap (absorbWeakFunctions report).1
      (absorbWeakFunctions report).2 observations helpers) index f branch with
    | none =>
      rcases diagnoseBranch_eq_none (remaining_nodup hd.starts_nodup) hf hlinked
        hdiag with h | h
      · exact .inl h
      · exact .inr (.inl h)
    | some u =>
      refine .inr (.inr ⟨u, List.mem_append_right _ (List.mem_flatMap.mpr
        ⟨f, hf, List.mem_filterMap.mpr ⟨branch, hbranch, hdiag⟩⟩), ?_⟩)
      unfold diagnoseBranch at hdiag
      split_ifs at hdiag
      · cases hdiag
        exact ⟨rfl, rfl⟩
      · split at hdiag
        · cases hdiag
          exact ⟨rfl, rfl⟩
        · split_ifs at hdiag
          cases hdiag
          exact ⟨rfl, rfl⟩

end passes

/-- A compiled function in one range, with blocks at the given addresses. -/
def functionWith (start stop : GuestAddress) (sources : List DiscoverySource)
    (blocks : List GuestAddress) : DiscoveredFunction where
  guestStart := start
  guestEnd := stop
  ranges := [start, stop]
  name := "sub"
  sources
  branches := []
  authority := .inferredBranch
  confidence := confidenceForSources sources
  compiled := true
  ir := ⟨start, blocks.map fun a => ⟨a, [], a + 4, [], [], false, false, false⟩⟩
  nativeReplacement := false
  importThunk := false

/-- Two records of one function become one. -/
theorem deduplicate_starts_twice :
    ((deduplicateFunctionsByAddress [functionWith 0x1000 0x1010 [.directBranch] [0x1000],
      functionWith 0x1000 0x1010 [.directCall] [0x1000], functionWith 0x2000 0x2010 [] []] []).1.map
        DiscoveredFunction.guestStart).Pairwise (· < ·) :=
  (deduplicate_starts (by decide)).1

/-- A function called directly, and a loop header in it that was taken for
another. -/
theorem reconcileOwnership_integrity_absorbed :
    EntryIntegrity
      [functionWith 0x1000 0x1010 [.directCall] [0x1000, 0x1008],
        functionWith 0x1008 0x1010 [.directBranch] [0x1008]]
      (reconcileOwnership
        ⟨[functionWith 0x1000 0x1010 [.directCall] [0x1000, 0x1008],
          functionWith 0x1008 0x1010 [.directBranch] [0x1008]], [], [], []⟩
        [] [0x2000] ⟨[], List.Pairwise.nil⟩) :=
  reconcileOwnership_integrity
    ⟨[functionWith 0x1000 0x1010 [.directCall] [0x1000, 0x1008],
      functionWith 0x1008 0x1010 [.directBranch] [0x1008]], [], [], []⟩
    [] [0x2000] ⟨[], List.Pairwise.nil⟩
    ⟨by decide, by decide, by decide, by decide⟩

/-- What discovery promises is needed: a compiled function outside its ranges is
published at its start, an observation may name a function that was not
compiled, and a runtime helper takes the entry of an absorbed function over. -/
theorem reconcileOwnership_needs_discovered :
    ¬EntryIntegrity [{ functionWith 0x1000 0x1010 [] [] with ranges := [0x2000, 0x2010] }]
        (reconcileOwnership
          ⟨[{ functionWith 0x1000 0x1010 [] [] with ranges := [0x2000, 0x2010] }], [], [], []⟩
          [] [] ⟨[], List.Pairwise.nil⟩) ∧
      ¬EntryIntegrity [{ functionWith 0x1000 0x1010 [] [0x1008] with compiled := false }]
        (reconcileOwnership
          ⟨[{ functionWith 0x1000 0x1010 [] [0x1008] with compiled := false }], [], [], []⟩
          [⟨0x1008, some 0x1000⟩] [] ⟨[], List.Pairwise.nil⟩) ∧
      ¬EntryIntegrity
        [functionWith 0x1000 0x1010 [.directCall] [0x1000, 0x1008],
          functionWith 0x1008 0x1010 [.directBranch] [0x1008]]
        (reconcileOwnership
          ⟨[functionWith 0x1000 0x1010 [.directCall] [0x1000, 0x1008],
            functionWith 0x1008 0x1010 [.directBranch] [0x1008]], [], [], []⟩
          [] [0x1008] ⟨[], List.Pairwise.nil⟩) := by
  refine ⟨fun h => ?_, fun h => ?_, fun h => ?_⟩
  · have := h.owned
    unfold Owned at this
    revert this
    decide
  · have := h.owned
    unfold Owned at this
    revert this
    decide
  · have := (h.absorbed (functionWith 0x1008 0x1010 [.directBranch] [0x1008]) (by decide)
      (by decide)).2
    revert this
    decide

end Recomp
end XenonRecomp
