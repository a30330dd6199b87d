/-
# The identity of learned data

What `knowledge_base_fingerprint` and `adaptive_observation_fingerprint` feed to their
hash identifies the set of the learned facts, up to one slip: the knowledge records are
sorted and made unique by a tuple without the counts of their fingerprints, and the
counts are fed.  Of two records that agree on the tuple only one is fed, the one that
the sort happens to leave first.
-/

import XenonRecomp.Recomp.KnowledgeBase

namespace XenonRecomp
namespace Recomp
namespace Knowledge

open Library Library.CanonicalList Library.PrefixCode

/-! ### Values and strings -/

theorem delimits_valueBytes {n w : ℕ} (hw : w = 8 * n) :
    Delimits (fun _ => True) (valueBytes (w := w)) := by
  intro v v' s t _ _ h
  have hn : w / 8 = n := by omega
  rw [valueBytes, valueBytes, hn] at h
  have hlt : ∀ x : BitVec w, x.toNat < 256 ^ n := by
    intro x
    have hpow : 2 ^ w = 256 ^ n := by rw [hw, pow_mul]; rfl
    exact hpow ▸ x.isLt
  obtain ⟨hnat, hst⟩ := Delimits.littleEndian n _ _ s t (hlt v) (hlt v') h
  exact ⟨BitVec.eq_of_toNat_eq hnat, hst⟩

theorem Text.order_injective : Function.Injective Text.order :=
  List.map_injective_iff.mpr fun _ _ => BitVec.eq_of_toNat_eq

theorem KnowledgeKind.value_injective : Function.Injective KnowledgeKind.value := by
  intro k k' h
  cases k <;> cases k' <;> first | rfl | exact absurd h (by decide)

theorem AdaptiveObservationKind.value_injective :
    Function.Injective AdaptiveObservationKind.value := by
  intro k k' h
  cases k <;> cases k' <;> first | rfl | exact absurd h (by decide)

/-! ### Feeds of lists -/

section ListFeed

variable {α κ : Type*} [LinearOrder κ]

/-- A header, the number of the members and their codes; nothing for an empty list. -/
def listFeed (header : List Byte) (code : α → List Byte) (s : List α) : Option (List Byte) :=
  if s.isEmpty then none
  else some (header ++ (littleEndian 8 s.length ++ s.flatMap code))

variable {header : List Byte} {code : α → List Byte} {valid : α → Prop} {key : α → κ}

theorem listFeed_injective (hcode : Delimits valid code) (hne : ∀ a, code a ≠ [])
    {s t : List α} (hs : ∀ a ∈ s, valid a) (ht : ∀ a ∈ t, valid a)
    (h : listFeed header code s = listFeed header code t) : s = t := by
  unfold listFeed at h
  split at h <;> split at h
  · next hnil hnil' => rw [List.isEmpty_iff.mp hnil, List.isEmpty_iff.mp hnil']
  · exact absurd h (by simp only [reduceCtorEq, not_false_eq_true])
  · exact absurd h (by simp only [reduceCtorEq, not_false_eq_true])
  · have hbytes := List.append_cancel_left (Option.some.inj h)
    have hmembers := (List.append_inj hbytes (by rw [length_littleEndian, length_littleEndian])).2
    exact hcode.flatMap_injective hne hs ht hmembers

/-- The bytes may be fed for the list. -/
def Fed (key : α → κ) (header : List Byte) (code : α → List Byte) (xs : List α)
    (feed : Option (List Byte)) : Prop :=
  ∃ s, Selection key xs s ∧ listFeed header code s = feed

/-- What is fed identifies the members exactly if the selections do. -/
theorem fed_identifies_iff (hcode : Delimits valid code) (hne : ∀ a, code a ≠ [])
    {xs ys : List α} (hxs : ∀ a ∈ xs, valid a) (hys : ∀ a ∈ ys, valid a) :
    (∀ s t, Fed key header code xs s → Fed key header code ys t →
        (s = t ↔ ∀ a, a ∈ xs ↔ a ∈ ys)) ↔
      (Overlap key xs ys → Consistent key xs ∧ Consistent key ys) := by
  have hinj : ∀ s t, Selection key xs s → Selection key ys t →
      (s = t ↔ listFeed header code s = listFeed header code t) := fun s t hs ht =>
    ⟨congrArg _, listFeed_injective hcode hne (fun a ha => hxs a (hs.subset a ha))
      fun a ha => hys a (ht.subset a ha)⟩
  rw [← canonical_iff]
  constructor
  · intro h s t hs ht
    exact (hinj s t hs ht).trans (h _ _ ⟨s, hs, rfl⟩ ⟨t, ht, rfl⟩)
  · rintro h _ _ ⟨s, hs, rfl⟩ ⟨t, ht, rfl⟩
    exact (hinj s t hs ht).symm.trans (h s t hs ht)

end ListFeed

/-! ### Knowledge records -/

/-- What `match_knowledge` compares and reports of a record with a valid fingerprint. -/
structure Identity where
  kind : KnowledgeKind
  family : Text
  label : Text
  instructionShapeHash : BitVec 64
  entryAnchorHash : BitVec 64
  cfgShapeHash : BitVec 64
  constantShapeHash : BitVec 64
  callNeighborhoodHash : BitVec 64
  instructionCount : BitVec 32
  entryAnchorInstructions : BitVec 32
  blockCount : BitVec 32
  externalCallCount : BitVec 32
  confidence : BitVec 32
  curated : Bool
deriving DecidableEq

namespace Identity

/-- The canonical record with this identity, of the version and size of `fp`. -/
def canonical (e : Identity) (fp : FunctionFingerprint) : Canonical where
  kind := e.kind
  family := e.family
  label := e.label
  fp :=
    { fp with
      instructionShapeHash := e.instructionShapeHash
      entryAnchorHash := e.entryAnchorHash
      cfgShapeHash := e.cfgShapeHash
      constantShapeHash := e.constantShapeHash
      callNeighborhoodHash := e.callNeighborhoodHash
      instructionCount := e.instructionCount
      entryAnchorInstructions := e.entryAnchorInstructions
      blockCount := e.blockCount
      externalCallCount := e.externalCallCount }
  confidence := e.confidence
  curated := e.curated

/-- The tuple that the record is sorted by. -/
def key (e : Identity) : List (List ℕ) := (e.canonical {}).key

/-- The bytes that are mixed in for the record. -/
def bytes (e : Identity) : List Byte := (e.canonical {}).bytes

/-- The strings are short enough for the length before them. -/
def Short (e : Identity) : Prop :=
  e.family.length < 2 ^ 32 ∧ e.label.length < 2 ^ 32

theorem delimits_bytes : Delimits Short bytes := by
  intro e f s t he hf h
  have h8 := delimits_valueBytes (w := 8) (n := 1) rfl
  have h32 := delimits_valueBytes (w := 32) (n := 4) rfl
  have h64 := delimits_valueBytes (w := 64) (n := 8) rfl
  have htext := Delimits.counted 4
  simp only [bytes, canonical, Canonical.bytes, List.append_assoc] at h
  obtain ⟨hkind, h⟩ := h8 _ _ _ _ trivial trivial h
  obtain ⟨hfamily, h⟩ := htext _ _ _ _ he.1 hf.1 h
  obtain ⟨hlabel, h⟩ := htext _ _ _ _ he.2 hf.2 h
  obtain ⟨hshape, h⟩ := h64 _ _ _ _ trivial trivial h
  obtain ⟨hanchor, h⟩ := h64 _ _ _ _ trivial trivial h
  obtain ⟨hcfg, h⟩ := h64 _ _ _ _ trivial trivial h
  obtain ⟨hconstant, h⟩ := h64 _ _ _ _ trivial trivial h
  obtain ⟨hneighborhood, h⟩ := h64 _ _ _ _ trivial trivial h
  obtain ⟨hcount, h⟩ := h32 _ _ _ _ trivial trivial h
  obtain ⟨hanchored, h⟩ := h32 _ _ _ _ trivial trivial h
  obtain ⟨hblocks, h⟩ := h32 _ _ _ _ trivial trivial h
  obtain ⟨hcalls, h⟩ := h32 _ _ _ _ trivial trivial h
  obtain ⟨hconfidence, h⟩ := h32 _ _ _ _ trivial trivial h
  obtain ⟨hcurated, h⟩ := h8 _ _ _ _ trivial trivial h
  have hbool : e.curated = f.curated := by
    revert hcurated
    generalize e.curated = c
    generalize f.curated = d
    revert c d
    decide
  have hkind := KnowledgeKind.value_injective hkind
  cases e
  cases f
  simp only at *
  subst_vars
  exact ⟨rfl, rfl⟩

theorem bytes_ne_nil (e : Identity) : e.bytes ≠ [] := by
  refine List.ne_nil_of_length_pos ?_
  rw [bytes, Canonical.bytes, List.length_append, valueBytes, length_littleEndian]
  exact Nat.le_add_right _ _

/-- What is fed to the hash for records that were sorted and made unique. -/
def feed (s : List Identity) : Option (List Byte) :=
  listFeed (valueBytes FunctionFingerprint.kVersion) bytes s

end Identity

/-- The identity of a canonical record. -/
def Canonical.identity (r : Canonical) : Identity where
  kind := r.kind
  family := r.family
  label := r.label
  instructionShapeHash := r.fp.instructionShapeHash
  entryAnchorHash := r.fp.entryAnchorHash
  cfgShapeHash := r.fp.cfgShapeHash
  constantShapeHash := r.fp.constantShapeHash
  callNeighborhoodHash := r.fp.callNeighborhoodHash
  instructionCount := r.fp.instructionCount
  entryAnchorInstructions := r.fp.entryAnchorInstructions
  blockCount := r.fp.blockCount
  externalCallCount := r.fp.externalCallCount
  confidence := r.confidence
  curated := r.curated

/-- The identities of the records with a valid fingerprint. -/
def identities (records : List KnowledgeRecord) : List Identity :=
  (canonicalRecords records).map Canonical.identity

/-- The same identities occur in the lists of records. -/
def SameIdentities (A B : List KnowledgeRecord) : Prop :=
  ∀ e, e ∈ identities A ↔ e ∈ identities B

theorem canonicalFeed_eq (sorted : List Canonical) :
    canonicalFeed sorted = Identity.feed (unique Identity.key (sorted.map Canonical.identity)) := by
  have hbytes : ∀ s : List Canonical,
      (s.map Canonical.identity).flatMap Identity.bytes = s.flatMap Canonical.bytes :=
    fun s => List.flatMap_map ..
  rw [unique_map, Identity.feed, listFeed, List.isEmpty_map, List.length_map, hbytes]
  rfl

/-- The feeds of a list of records are those of its selections. -/
theorem knowledgeFeed_iff (records : List KnowledgeRecord) (feed : Option (List Byte)) :
    KnowledgeFeed records feed ↔
      Fed Identity.key (valueBytes FunctionFingerprint.kVersion) Identity.bytes
        (identities records) feed := by
  constructor
  · rintro ⟨sorted, hsorts, rfl⟩
    have hmap : Sorts Identity.key (identities records) (sorted.map Canonical.identity) :=
      Sorts.map Canonical.identity hsorts
    exact ⟨_, hmap.selection, (canonicalFeed_eq sorted).symm⟩
  · rintro ⟨s, hs, rfl⟩
    obtain ⟨sorted, hsorts, rfl⟩ := hs.reached
    obtain ⟨lifted, hlifted, rfl⟩ := Sorts.of_map Canonical.identity hsorts
    exact ⟨lifted, hlifted, canonicalFeed_eq lifted⟩

/-- Strings that a line of a knowledge base file can hold. -/
def KnowledgeRecord.Short (record : KnowledgeRecord) : Prop :=
  record.family.length < 2 ^ 32 ∧ record.label.length < 2 ^ 32

theorem short_of_mem {A : List KnowledgeRecord} (hA : ∀ record ∈ A, record.Short)
    {e : Identity} (he : e ∈ identities A) : e.Short := by
  obtain ⟨r, hr, rfl⟩ := List.mem_map.mp he
  obtain ⟨record, hrecord, rfl⟩ := List.mem_map.mp hr
  exact hA record (List.mem_filter.mp hrecord).1

/-- The feed identifies the records exactly if no identity can be replaced by another one
with the same tuple. -/
theorem knowledgeFeed_identifies_iff {A B : List KnowledgeRecord}
    (hA : ∀ record ∈ A, record.Short) (hB : ∀ record ∈ B, record.Short) :
    (∀ s t, KnowledgeFeed A s → KnowledgeFeed B t → (s = t ↔ SameIdentities A B)) ↔
      (Overlap Identity.key (identities A) (identities B) →
        Consistent Identity.key (identities A) ∧ Consistent Identity.key (identities B)) := by
  simp only [knowledgeFeed_iff]
  exact fed_identifies_iff Identity.delimits_bytes Identity.bytes_ne_nil
    (fun e he => short_of_mem hA he) fun e he => short_of_mem hB he

/-! ### Adaptive observations -/

namespace Fact

theorem key_injective : Function.Injective key := by
  intro f g h
  simp only [key, List.cons.injEq, and_true, BitVec.toNat_inj,
    AdaptiveObservationKind.value_injective.eq_iff, Text.order_injective.eq_iff] at h
  obtain ⟨haddress, hsite, hkind, hlist, hhash⟩ := h
  have hmap : f.ownerHint.map BitVec.toNat = g.ownerHint.map BitVec.toNat := by
    simpa only [Option.head?_toList] using congrArg List.head? hlist
  have howner := Option.map_injective (fun _ _ => BitVec.eq_of_toNat_eq) hmap
  cases f
  cases g
  simp only at *
  subst_vars
  rfl

theorem delimits_bytes : Delimits (fun fact => 0 ∉ fact.imageHash) bytes := by
  intro f g s t hf hg h
  have h8 := delimits_valueBytes (w := 8) (n := 1) rfl
  have h32 := delimits_valueBytes (w := 32) (n := 4) rfl
  simp only [bytes, List.append_assoc] at h
  obtain ⟨haddress, h⟩ := h32 _ _ _ _ trivial trivial h
  obtain ⟨hsite, h⟩ := h32 _ _ _ _ trivial trivial h
  obtain ⟨hkind, h⟩ := h8 _ _ _ _ trivial trivial h
  obtain ⟨howner, h⟩ := h32.flagged _ _ _ _ (fun _ _ => trivial) (fun _ _ => trivial) h
  obtain ⟨hhash, h⟩ := Delimits.terminated 0 _ _ s t hf hg
    (by simpa only [List.append_assoc] using h)
  have hkind := AdaptiveObservationKind.value_injective hkind
  cases f
  cases g
  simp only at *
  subst_vars
  exact ⟨rfl, rfl⟩

theorem bytes_ne_nil (fact : Fact) : fact.bytes ≠ [] := by
  refine List.ne_nil_of_length_pos ?_
  rw [bytes, List.length_append, valueBytes, length_littleEndian]
  exact Nat.lt_of_lt_of_le (by decide) (Nat.le_add_right _ _)

end Fact

/-- The same facts are observed. -/
def SameFacts (O P : List AdaptiveObservation) : Prop :=
  ∀ fact, fact ∈ O.map AdaptiveObservation.fact ↔ fact ∈ P.map AdaptiveObservation.fact

theorem consistent_facts (facts : List Fact) : Consistent Fact.key facts :=
  fun _ _ _ _ h => Fact.key_injective h

/-- The feeds of a list of observations are those of the selections of its facts. -/
theorem adaptiveFeed_iff (O : List AdaptiveObservation) (feed : Option (List Byte)) :
    AdaptiveFeed O feed ↔
      Fed Fact.key [] Fact.bytes (O.map AdaptiveObservation.fact) feed := by
  cases O with
  | nil =>
    rw [AdaptiveFeed, List.isEmpty_nil, if_pos rfl]
    constructor
    · rintro rfl
      exact ⟨[], ⟨List.Pairwise.nil, fun _ h => h, fun _ h => absurd h List.not_mem_nil⟩, rfl⟩
    · rintro ⟨s, hs, rfl⟩
      rw [List.eq_nil_iff_forall_not_mem.mpr fun a ha => List.not_mem_nil (hs.subset a ha)]
      rfl
  | cons o O =>
    have hsome : ∀ s, Selection Fact.key ((o :: O).map AdaptiveObservation.fact) s →
        listFeed [] Fact.bytes s = some (littleEndian 8 s.length ++ s.flatMap Fact.bytes) := by
      intro s hs
      obtain ⟨b, hb, -⟩ := hs.covers o.fact List.mem_cons_self
      rw [listFeed, if_neg fun hnil => List.not_mem_nil (List.isEmpty_iff.mp hnil ▸ hb)]
      rfl
    rw [AdaptiveFeed, List.isEmpty_cons, if_neg Bool.false_ne_true]
    constructor
    · rintro ⟨sorted, hsorts, rfl⟩
      exact ⟨_, hsorts.selection, hsome _ hsorts.selection⟩
    · rintro ⟨s, hs, rfl⟩
      obtain ⟨sorted, hsorts, rfl⟩ := hs.reached
      exact ⟨sorted, hsorts, (hsome _ hs).symm⟩

/-- The feed identifies the facts. -/
theorem adaptiveFeed_identifies {O P : List AdaptiveObservation}
    (hO : ∀ observation ∈ O, 0 ∉ observation.imageHash)
    (hP : ∀ observation ∈ P, 0 ∉ observation.imageHash) (s t : Option (List Byte))
    (hs : AdaptiveFeed O s) (ht : AdaptiveFeed P t) : s = t ↔ SameFacts O P := by
  have hvalid : ∀ Q : List AdaptiveObservation, (∀ o ∈ Q, 0 ∉ o.imageHash) →
      ∀ fact ∈ Q.map AdaptiveObservation.fact, 0 ∉ fact.imageHash := by
    intro Q hQ fact hfact
    obtain ⟨o, ho, rfl⟩ := List.mem_map.mp hfact
    exact hQ o ho
  exact (fed_identifies_iff Fact.delimits_bytes Fact.bytes_ne_nil (hvalid O hO) (hvalid P hP)).mpr
    (fun _ => ⟨consistent_facts _, consistent_facts _⟩) s t
    ((adaptiveFeed_iff O s).mp hs) ((adaptiveFeed_iff P t).mp ht)

/-! ### Both fingerprints -/

/-- **The feeds of both fingerprints are functions of the learned facts, and tell different
facts apart, exactly if no knowledge record can stand in for another one that differs from
it in a count only.** -/
theorem learned_feeds_canonical_iff (A B : List KnowledgeRecord) (O P : List AdaptiveObservation)
    (hA : ∀ record ∈ A, record.Short) (hB : ∀ record ∈ B, record.Short)
    (hO : ∀ observation ∈ O, 0 ∉ observation.imageHash)
    (hP : ∀ observation ∈ P, 0 ∉ observation.imageHash) :
    ((∀ s t, KnowledgeFeed A s → KnowledgeFeed B t → (s = t ↔ SameIdentities A B)) ∧
        ∀ s t, AdaptiveFeed O s → AdaptiveFeed P t → (s = t ↔ SameFacts O P)) ↔
      (Overlap Identity.key (identities A) (identities B) →
        Consistent Identity.key (identities A) ∧ Consistent Identity.key (identities B)) := by
  rw [knowledgeFeed_identifies_iff hA hB]
  exact and_iff_left (adaptiveFeed_identifies hO hP)

/-- A record of a function of four instructions. -/
def fourWords : KnowledgeRecord where
  fingerprint := { instructionShapeHash := 1, entryAnchorHash := 1, instructionCount := 4 }

/-- The same record, of a function of five instructions. -/
def fiveWords : KnowledgeRecord where
  fingerprint := { instructionShapeHash := 1, entryAnchorHash := 1, instructionCount := 5 }

theorem learned_feeds_canonical_fourWords :
    ((∀ s t, KnowledgeFeed [fourWords] s → KnowledgeFeed [fiveWords, fiveWords] t →
          (s = t ↔ SameIdentities [fourWords] [fiveWords, fiveWords])) ∧
        ∀ s t, AdaptiveFeed [{ address := 8 }] s → AdaptiveFeed [{ address := 8, hits := 3 }] t →
          (s = t ↔ SameFacts [{ address := 8 }] [{ address := 8, hits := 3 }])) ↔
      (Overlap Identity.key (identities [fourWords]) (identities [fiveWords, fiveWords]) →
        Consistent Identity.key (identities [fourWords]) ∧
          Consistent Identity.key (identities [fiveWords, fiveWords])) := by
  refine learned_feeds_canonical_iff [fourWords] [fiveWords, fiveWords] _ _ ?_ ?_ ?_ ?_
  · intro record h
    rw [List.mem_singleton.mp h]
    exact ⟨by decide, by decide⟩
  · intro record h
    rw [List.eq_of_mem_replicate (n := 2) h]
    exact ⟨by decide, by decide⟩
  · intro observation h
    rw [List.mem_singleton.mp h]
    exact List.not_mem_nil
  · intro observation h
    rw [List.mem_singleton.mp h]
    exact List.not_mem_nil

/-- Two orders of the same two records feed different bytes. -/
theorem learned_feeds_depend_on_order :
    ∃ s t, KnowledgeFeed [fourWords, fiveWords] s ∧ KnowledgeFeed [fiveWords, fourWords] t ∧
      s ≠ t := by
  refine ⟨_, _, ⟨_, ⟨.refl _, ?_⟩, rfl⟩, ⟨_, ⟨.refl _, ?_⟩, rfl⟩, ?_⟩
  · exact List.pairwise_pair.mpr (le_of_eq (by decide))
  · exact List.pairwise_pair.mpr (le_of_eq (by decide))
  · decide

end Knowledge
end Recomp
end XenonRecomp
