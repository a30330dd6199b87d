/-
# The owner of a chunk's words

A `FunctionChunk` gives a range of an image to a function elsewhere.
`canonicalize_candidate` (`analysis/discovery/candidate_filters.cpp`) sends a candidate
that lies in a chunk on to the chunk's parent, and `ingest_function_chunks`
(`analysis/control_flow/function_chunks.cpp`) stitches the chunks of a function into its
body.  What the scan records of a single instruction is in `BranchRecording`.

The redirects are bounded, since a hint set may be cyclic: the chunks of two functions
may contain the starts of each other.  Where they end, they end for good, and the words
stitched into a function lead to it, unless a hint makes a function of them.
-/

import XenonRecomp.Recomp.HintSet
import XenonRecomp.Recomp.KnowledgeAnchors

namespace XenonRecomp
namespace Recomp

open Cpu Knowledge Library.PrefixCode

/-! ### Redirects -/

section Redirects

variable {α : Type*} (next : α → Option α)

/-- Goes on from redirect to redirect, `fuel` times at most; `true` says that it was cut
short. -/
def follow : ℕ → α → α × Bool
  | 0, a => (a, true)
  | fuel + 1, a =>
    match next a with
    | none => (a, false)
    | some b => follow fuel b

/-- Where exactly `n` redirects lead, if there are as many. -/
def redirects : ℕ → α → Option α
  | 0, a => some a
  | n + 1, a => (next a).bind (redirects n)

variable {next} {a r : α}

/-- The bound is hit exactly if there are as many redirects. -/
theorem follow_cut_iff (fuel : ℕ) (a : α) :
    (follow next fuel a).2 = true ↔ (redirects next fuel a).isSome = true := by
  induction fuel generalizing a with
  | zero => exact ⟨fun _ => rfl, fun _ => rfl⟩
  | succ fuel ih =>
    rw [follow, redirects]
    cases next a with
    | none => exact ⟨fun h => absurd h Bool.false_ne_true, fun h => absurd h Bool.false_ne_true⟩
    | some b => exact ih b

theorem next_eq_none_of_follow {fuel : ℕ} (h : follow next fuel a = (r, false)) :
    next r = none := by
  induction fuel generalizing a with
  | zero => exact absurd (congrArg Prod.snd h) Bool.noConfusion
  | succ fuel ih =>
    rw [follow] at h
    cases hnext : next a with
    | none =>
      rw [hnext] at h
      exact (Prod.mk.inj h).1 ▸ hnext
    | some b =>
      rw [hnext] at h
      exact ih h

theorem follow_of_none (h : next a = none) (fuel : ℕ) : follow next (fuel + 1) a = (a, false) := by
  rw [follow, h]

end Redirects

/-! ### Candidates -/

/-- `has_independent_function_hint`. -/
def hasIndependentFunctionHint (hints : AnalysisHintSetV2) (address : GuestAddress) : Bool :=
  hints.functions.any fun hint => hint.address == address && !hint.parentFunction.isSome

/-- The chunk that owns an address: the first one it lies in. -/
def owningChunk (hints : AnalysisHintSetV2) (address : GuestAddress) : Option FunctionChunk :=
  hints.chunks.find? fun chunk => decide (chunk.start ≤ address ∧ address < chunk.stop)

/-- Where one round of `canonicalize_candidate` sends an address, unless it returns it. -/
def redirect (hints : AnalysisHintSetV2) (address : GuestAddress) : Option GuestAddress :=
  match owningChunk hints address with
  | none => none
  | some chunk =>
    if hasIndependentFunctionHint hints address then none
    else if chunk.parentFunction = address then none
    else some chunk.parentFunction

/-- `canonicalize_candidate`: the address, and `cyclic`. -/
def canonicalizeCandidate (hints : Option AnalysisHintSetV2) (start : GuestAddress) :
    GuestAddress × Bool :=
  match hints with
  | none => (start, false)
  | some hints => follow (redirect hints) 256 start

/-- `instruction_pattern_match`. -/
def instructionPatternMatch (hints : AnalysisHintSetV2) (address : GuestAddress)
    (word : BitVec 32) : Option InstructionPatternHint :=
  hints.instructionPatterns.find? fun pattern =>
    word &&& pattern.mask == pattern.value &&& pattern.mask &&
      match pattern.scopeStart, pattern.scopeStop with
      | some start, some stop => decide (start ≤ address ∧ address < stop)
      | _, _ => true

/-- `classify_decode_failure`. -/
def classifyDecodeFailure (word : BitVec 32) : String :=
  let known := opcodeCatalog.filter fun opcode =>
    opcode.pattern.extractLsb' 26 6 == word.extractLsb' 26 6
  if known.isEmpty then "invalid-ppc"
  else if known.any fun opcode => opcode.group == .Vector then "unsupported-vmx"
  else "unsupported-ppc"

/-! ### The chunks of a function -/

/-- An entry of `ExecutableRangeIndex` with its section. -/
structure SectionEntry where
  first : GuestAddress
  stop : GuestAddress
  sect : XexSection

/-- `ExecutableRangeIndex`. -/
structure SectionIndex where
  entries : List SectionEntry
  sorted : entries.Pairwise fun a b => a.first ≤ b.first

/-- `executable_section`. -/
def SectionIndex.executableSection (index : SectionIndex) (address : GuestAddress) :
    Option XexSection :=
  (((index.entries.takeWhile fun e => decide (e.first ≤ address)).getLast?.filter
    fun e => decide (e.first ≤ address ∧ address < e.stop)).map SectionEntry.sect).filter
      XexSection.executable

/-- `be32`. -/
def be32 (bytes : List Byte) (offset : ℕ) : BitVec 32 :=
  if bytes.length < offset + 4 then 0 else wordAt bytes offset

/-- What the scan of one chunk has written down. -/
structure ChunkScan where
  words : List (BitVec 32) := []
  endUsed : GuestAddress
  patternMatches : ℕ := 0
  warnings : List String := []
  unresolved : List UnresolvedReference := []
  error : String := ""

/-- The pattern that a scan stops at: the first word of a chunk is not compared. -/
def stopPattern (hints : AnalysisHintSetV2) (chunk : FunctionChunk) (address : GuestAddress)
    (word : BitVec 32) : Option InstructionPatternHint :=
  if address ≠ chunk.start then instructionPatternMatch hints address word else none

/-- One word of a chunk: what is written down of it, and whether the scan goes on. -/
def scanWord (hints : AnalysisHintSetV2) (chunk : FunctionChunk) (address : GuestAddress)
    (word : BitVec 32) (scan : ChunkScan) : ChunkScan × Bool :=
  match stopPattern hints chunk address word, Decoder.decode address word with
  | some pattern, _ =>
    ({ scan with
        patternMatches := scan.patternMatches + 1
        warnings := scan.warnings ++
          ["FunctionChunk scan stopped at instruction-pattern match 0x" ++ hexString address ++
            (if pattern.reason = "" then "" else " (" ++ pattern.reason ++ ")")]
        endUsed := address }, false)
  | none, none =>
    let classification := classifyDecodeFailure word
    let error :=
      (if classification = "invalid-ppc" then "invalid PPC in FunctionChunk at 0x"
        else "unsupported PPC encoding in FunctionChunk at 0x") ++ hexString address
    ({ scan with
        error := error
        unresolved := scan.unresolved ++ [⟨address, word, classification, error⟩] }, false)
  | none, some _ => ({ scan with words := scan.words ++ [word] }, true)

/-- The loop over the words of a chunk, of `remaining` more words. -/
def scanChunk (hints : AnalysisHintSetV2) (sect : XexSection) (chunk : FunctionChunk) :
    ℕ → GuestAddress → ChunkScan → ChunkScan
  | 0, _, scan => scan
  | remaining + 1, address, scan =>
    let chunkOffset := (chunk.start - sect.virtualAddress).toNat
    let word := be32 sect.bytes (chunkOffset + (address - chunk.start).toNat)
    match scanWord hints chunk address word scan with
    | (scan, true) => scanChunk hints sect chunk remaining (address + 4) scan
    | (scan, false) => scan

/-- What `ingest_function_chunks` writes down. -/
structure ChunkIngest where
  chunkWords : List (List (BitVec 32)) := []
  childRanges : List (GuestAddress × GuestAddress) := []
  patternMatches : ℕ := 0
  warnings : List String := []
  unresolved : List UnresolvedReference := []
  error : String := ""

/-- The range of the chunk lies in the bytes of the section, on whole words. -/
def FunctionChunk.fits (chunk : FunctionChunk) (sect : XexSection) : Bool :=
  !(chunk.stop ≤ chunk.start || chunk.start &&& 3 != 0 || chunk.stop &&& 3 != 0 ||
    decide (sect.bytes.length < (chunk.start - sect.virtualAddress).toNat +
      (chunk.stop.toNat - chunk.start.toNat)))

/-- The loop of `ingest_function_chunks`. -/
def ingestChunks (hints : AnalysisHintSetV2) (index : SectionIndex) (start : GuestAddress) :
    List FunctionChunk → ChunkIngest → ChunkIngest
  | [], ingest => ingest
  | chunk :: chunks, ingest =>
    if chunk.parentFunction ≠ start then ingestChunks hints index start chunks ingest
    else if hasIndependentFunctionHint hints chunk.start then
      ingestChunks hints index start chunks
        { ingest with
          warnings := ingest.warnings ++
            ["FunctionChunk at 0x" ++ hexString chunk.start ++ " declares parent 0x" ++
              hexString start ++ " but 0x" ++ hexString chunk.start ++
              " also has its own independent FunctionHint; excluded from the parent's merged " ++
              "body so each guest address compiles under exactly one canonical function"] }
    else
      match (index.executableSection chunk.start).filter chunk.fits with
      | none =>
        let error := "FunctionChunk range is outside executable section bytes"
        { ingest with
          error := error
          unresolved := ingest.unresolved ++ [⟨chunk.start, chunk.stop, "function-chunk", error⟩] }
      | some sect =>
        let scan := scanChunk hints sect chunk ((chunk.stop.toNat - chunk.start.toNat) / 4)
          chunk.start { endUsed := chunk.stop, error := ingest.error }
        let ingest :=
          { ingest with
            chunkWords := ingest.chunkWords ++ [scan.words]
            patternMatches := ingest.patternMatches + scan.patternMatches
            warnings := ingest.warnings ++ scan.warnings
            unresolved := ingest.unresolved ++ scan.unresolved
            error := scan.error }
        if scan.error ≠ "" then ingest
        else ingestChunks hints index start chunks
          { ingest with childRanges := ingest.childRanges ++ [(chunk.start, scan.endUsed)] }

/-- `ingest_function_chunks`, for a function whose scan has met an error or none. -/
def ingestFunctionChunks (hints : Option AnalysisHintSetV2) (index : SectionIndex)
    (start : GuestAddress) (error : String) : ChunkIngest :=
  match hints with
  | none => { error := error }
  | some hints => ingestChunks hints index start hints.chunks { error := error }

/-! ### Stitched ranges -/

variable {hints : AnalysisHintSetV2} {index : SectionIndex} {sect : XexSection}
  {chunk : FunctionChunk} {start : GuestAddress}

theorem scanWord_endUsed (hints : AnalysisHintSetV2) (chunk : FunctionChunk)
    (address : GuestAddress) (word : BitVec 32) (scan : ChunkScan) :
    (scanWord hints chunk address word scan).1.endUsed = scan.endUsed ∨
      (scanWord hints chunk address word scan).1.endUsed = address := by
  unfold scanWord
  split
  · exact .inr rfl
  · exact .inl rfl
  · exact .inl rfl

/-- A scan ends in its chunk. -/
theorem scanChunk_endUsed (remaining : ℕ) (address : GuestAddress) (scan : ChunkScan)
    (haddress : address.toNat + 4 * remaining ≤ chunk.stop.toNat)
    (hend : scan.endUsed.toNat ≤ chunk.stop.toNat) :
    (scanChunk hints sect chunk remaining address scan).endUsed.toNat ≤ chunk.stop.toNat := by
  induction remaining generalizing address scan with
  | zero => exact hend
  | succ remaining ih =>
    have hnext : (address + 4).toNat = (address.toNat + 4) % 2 ^ 32 := BitVec.toNat_add address 4
    have hlt := chunk.stop.isLt
    have hword : ∀ word next more, scanWord hints chunk address word scan = (next, more) →
        next.endUsed.toNat ≤ chunk.stop.toNat := by
      intro word next more hscan
      have h := scanWord_endUsed hints chunk address word scan
      rw [hscan] at h
      rcases h with h | h
      · exact h ▸ hend
      · rw [show next.endUsed = address from h]
        omega
    rw [scanChunk]
    split
    · next next hscan => exact ih (address + 4) next (by omega) (hword _ next true hscan)
    · next next hscan => exact hword _ next false hscan

/-- **A stitched range begins a chunk of the function and ends in it.** -/
theorem mem_childRanges (chunks : List FunctionChunk) (ingest : ChunkIngest)
    {range : GuestAddress × GuestAddress}
    (h : range ∈ (ingestChunks hints index start chunks ingest).childRanges) :
    range ∈ ingest.childRanges ∨ ∃ chunk ∈ chunks, chunk.parentFunction = start ∧
      range.1 = chunk.start ∧ range.2.toNat ≤ chunk.stop.toNat ∧
      hasIndependentFunctionHint hints chunk.start = false := by
  induction chunks generalizing ingest with
  | nil => exact .inl h
  | cons chunk chunks ih =>
    have hmore : ∀ ingest', (range ∈ ingest'.childRanges → range ∈ ingest.childRanges) →
        range ∈ (ingestChunks hints index start chunks ingest').childRanges →
        range ∈ ingest.childRanges ∨ ∃ c ∈ chunk :: chunks, c.parentFunction = start ∧
          range.1 = c.start ∧ range.2.toNat ≤ c.stop.toNat ∧
          hasIndependentFunctionHint hints c.start = false := by
      intro ingest' hsame h
      rcases ih ingest' h with h | ⟨c, hc, hrest⟩
      · exact .inl (hsame h)
      · exact .inr ⟨c, List.mem_cons_of_mem _ hc, hrest⟩
    rw [ingestChunks] at h
    by_cases hparent : chunk.parentFunction ≠ start
    · rw [if_pos hparent] at h
      exact hmore ingest id h
    · rw [if_neg hparent] at h
      by_cases hown : hasIndependentFunctionHint hints chunk.start = true
      · rw [if_pos hown] at h
        refine hmore _ ?_ h
        exact id
      · rw [if_neg hown] at h
        split at h
        · exact .inl h
        · next sect hsect =>
          simp only at h
          split at h
          · exact .inl h
          · rcases ih _ h with h | ⟨c, hc, hrest⟩
            · rcases List.mem_append.mp h with h | h
              · exact .inl h
              · have hfits := (Option.filter_eq_some_iff.mp hsect).2
                simp only [FunctionChunk.fits, Bool.not_eq_true', Bool.or_eq_false_iff,
                  decide_eq_false_iff_not, BitVec.not_le, BitVec.lt_def] at hfits
                refine .inr ⟨chunk, List.mem_cons_self, not_not.mp hparent, ?_, ?_,
                  Bool.eq_false_iff.mpr hown⟩
                · rw [List.mem_singleton.mp h]
                · rw [List.mem_singleton.mp h]
                  exact scanChunk_endUsed _ chunk.start _ (by omega) le_rfl
            · exact .inr ⟨c, List.mem_cons_of_mem _ hc, hrest⟩

/-! ### The owner -/

variable {address parent raw : GuestAddress} {range : GuestAddress × GuestAddress}

/-- The redirects of a candidate end where there is none. -/
theorem redirect_of_canonical (h : canonicalizeCandidate (some hints) raw = (parent, false)) :
    redirect hints parent = none :=
  next_eq_none_of_follow h

theorem canonicalize_of_redirect_none (h : redirect hints address = none) :
    canonicalizeCandidate (some hints) address = (address, false) :=
  follow_of_none h 255

/-- An address in a chunk is sent on to the parent of the chunk, whichever chunk it is. -/
theorem redirect_of_mem_chunk (hvalid : validateHintSet hints = []) (hchunk : chunk ∈ hints.chunks)
    (haddress : chunk.start ≤ address ∧ address < chunk.stop)
    (hown : hasIndependentFunctionHint hints address = false) :
    redirect hints address =
      if chunk.parentFunction = address then none else some chunk.parentFunction := by
  rw [redirect]
  cases hfirst : owningChunk hints address with
  | none =>
    have hnone := List.find?_eq_none.mp hfirst chunk hchunk
    rw [decide_eq_true_eq] at hnone
    exact absurd haddress hnone
  | some first =>
    have hin := List.find?_some hfirst
    rw [decide_eq_true_eq] at hin
    have hparent := parent_eq_of_common hvalid (List.mem_of_find?_eq_some hfirst) hchunk hin haddress
    simp only
    rw [if_neg (by rw [hown]; exact Bool.false_ne_true), hparent]

/-- The words of a chunk lead to where its parent leads, if that is the parent itself. -/
theorem canonicalize_of_mem_chunk (hvalid : validateHintSet hints = [])
    (hchunk : chunk ∈ hints.chunks) (haddress : chunk.start ≤ address ∧ address < chunk.stop)
    (hown : hasIndependentFunctionHint hints address = false)
    (hparent : redirect hints chunk.parentFunction = none) :
    canonicalizeCandidate (some hints) address = (chunk.parentFunction, false) := by
  have hredirect := redirect_of_mem_chunk hvalid hchunk haddress hown
  by_cases hself : chunk.parentFunction = address
  · rw [if_pos hself] at hredirect
    rw [canonicalize_of_redirect_none hredirect, hself]
  · rw [if_neg hself] at hredirect
    change follow (redirect hints) 256 address = _
    rw [follow, hredirect]
    exact follow_of_none hparent 254

/-- **The owner of an address is found where the redirects end, and the words stitched into
a function that is its own owner are owned by it, those with a hint of their own aside.** -/
theorem chunk_ownership (hints : AnalysisHintSetV2) (hvalid : validateHintSet hints = []) :
    (∀ address, (canonicalizeCandidate (some hints) address).2 = true ↔
        (redirects (redirect hints) 256 address).isSome = true) ∧
      (∀ address owner, canonicalizeCandidate (some hints) address = (owner, false) →
        canonicalizeCandidate (some hints) owner = (owner, false)) ∧
      ∀ (index : SectionIndex) (error : String) (raw parent : GuestAddress),
        canonicalizeCandidate (some hints) raw = (parent, false) →
        ∀ range ∈ (ingestFunctionChunks (some hints) index parent error).childRanges,
          ∀ address, range.1 ≤ address → address < range.2 →
            (address = range.1 ∨ hasIndependentFunctionHint hints address = false) →
            canonicalizeCandidate (some hints) address = (parent, false) := by
  refine ⟨follow_cut_iff 256, fun address owner h => ?_, ?_⟩
  · exact canonicalize_of_redirect_none (redirect_of_canonical h)
  · intro index error raw parent hraw range hrange address hlow hhigh hown
    rcases mem_childRanges hints.chunks _ hrange with h | ⟨chunk, hchunk, rfl, hstart, hstop, hfirst⟩
    · exact absurd h List.not_mem_nil
    · have haddress : chunk.start ≤ address ∧ address < chunk.stop := by
        rw [hstart] at hlow
        simp only [BitVec.le_def, BitVec.lt_def] at hlow hhigh ⊢
        omega
      refine canonicalize_of_mem_chunk hvalid hchunk haddress ?_ (redirect_of_canonical hraw)
      rcases hown with rfl | hown
      · rw [hstart]
        exact hfirst
      · exact hown

/-! ### Hint sets that are accepted -/

/-- Two parts of a function that each declare a chunk at the start of the other. -/
def crossedHints : AnalysisHintSetV2 where
  functions :=
    [{ address := 0x1000 }, { address := 0x2000, parentFunction := some 0x1000 },
      { address := 0x3000, parentFunction := some 0x1000 }]
  chunks := [⟨0x2000, 0x2010, 0x3000⟩, ⟨0x3000, 0x3010, 0x2000⟩]

/-- A chunk with a function of its own in the middle. -/
def piercedHints : AnalysisHintSetV2 where
  functions := [{ address := 0x1000 }, { address := 0x2008 }]
  chunks := [⟨0x2000, 0x2010, 0x1000⟩]

/-- A section of four words `ori r0, r0, 0`. -/
def nopSection : XexSection where
  virtualAddress := 0x2000
  executable := true
  bytes := [0x60, 0, 0, 0, 0x60, 0, 0, 0, 0x60, 0, 0, 0, 0x60, 0, 0, 0]

/-- The index of an image with one section. -/
def nopIndex : SectionIndex where
  entries := [⟨0x2000, 0x2010, nopSection⟩]
  sorted := List.pairwise_singleton _ _

theorem chunk_ownership_pierced :
    validateHintSet piercedHints = [] ∧
      canonicalizeCandidate (some piercedHints) 0x2004 = (0x1000, false) :=
  ⟨by decide,
    (chunk_ownership piercedHints (by decide)).2.2 nopIndex "" 0x1000 0x1000
      (by set_option maxRecDepth 40000 in decide) (0x2000, 0x2010)
      (by set_option maxRecDepth 40000 in decide) 0x2004 (by decide) (by decide)
      (.inr (by decide))⟩

/-- An accepted set can send a candidate in circles, and a word of a stitched chunk can be a
function of its own. -/
theorem chunk_ownership_fails :
    (validateHintSet crossedHints = [] ∧
        (canonicalizeCandidate (some crossedHints) 0x2000).2 = true) ∧
      validateHintSet piercedHints = [] ∧
      canonicalizeCandidate (some piercedHints) 0x1000 = (0x1000, false) ∧
      (0x2000, 0x2010) ∈
        (ingestFunctionChunks (some piercedHints) nopIndex 0x1000 "").childRanges ∧
      canonicalizeCandidate (some piercedHints) 0x2008 = (0x2008, false) := by
  refine ⟨⟨?_, ?_⟩, ?_, ?_, ?_, ?_⟩ <;> set_option maxRecDepth 40000 in decide

end Recomp
end XenonRecomp
