/-
# Title-update patches

`apply_delta_patch_records` of `src/xbox/xex/compression/xex_lzx.cpp`,
`walk_compressed_block_chain` of `body_decompression.cpp`, and `splice_delta_region` and
`apply_image_delta` of `title_updates/image_delta.cpp`.  Every access to a buffer goes through
`fetch` or `store`, which fail where the access leaves the buffer; SHA-1 is a parameter.  The
edits that a record chain describes are read from it without looking at the image
(`Describes`), and what they make of an image is `applyAll`.
-/

import Mathlib.Data.List.GetD
import XenonRecomp.Library.ByteSpans
import XenonRecomp.Xex.LzxProgress

namespace XenonRecomp
namespace Xex
namespace Title

open Library.ByteSpans

/-- Why a call fails: an access outside a buffer, a loop that does not end, or an error that
the code reports. -/
inductive Failure where
  | outside
  | endless
  | message (error : String)
  deriving DecidableEq

/-- A computation that may fail. -/
abbrev Checked := Except Failure

/-- Read a part of a buffer. -/
def fetch (bytes : List UInt8) (offset n : ℕ) : Checked (List UInt8) :=
  if offset + n ≤ bytes.length then .ok (slice bytes offset n) else .error .outside

/-- Write a part of a buffer. -/
def store (dest : List UInt8) (offset : ℕ) (bytes : List UInt8) : Checked (List UInt8) :=
  if offset + bytes.length ≤ dest.length then .ok (overwrite dest offset bytes)
  else .error .outside

/-- A big-endian number. -/
def beNumber (bytes : List UInt8) : ℕ := bytes.foldl (fun n b => n * 256 + b.toNat) 0

/-! ### Record chains -/

def kRecordHeaderSize : ℕ := 12

/-- The header of a record. -/
structure RecordHeader where
  oldAddr : ℕ
  newAddr : ℕ
  uncompressedLen : ℕ
  compressedLen : ℕ
  deriving DecidableEq

/-- `delta_read_be32` and `delta_read_be16`, for 4 and for 2 bytes. -/
def deltaReadBe (n : ℕ) (bytes : List UInt8) (offset : ℕ) : Checked ℕ :=
  (fetch bytes offset n).map beNumber

def readHeader (records : List UInt8) (cursor : ℕ) : Checked RecordHeader := do
  let oldAddr ← deltaReadBe 4 records cursor
  let newAddr ← deltaReadBe 4 records (cursor + 4)
  let uncompressedLen ← deltaReadBe 2 records (cursor + 8)
  let compressedLen ← deltaReadBe 2 records (cursor + 10)
  pure ⟨oldAddr, newAddr, uncompressedLen, compressedLen⟩

/-- The last record of a chain. -/
def RecordHeader.IsTerminator (h : RecordHeader) : Prop :=
  h.oldAddr = 0 ∧ h.newAddr = 0 ∧ h.uncompressedLen = 0 ∧ h.compressedLen = 0

instance (h : RecordHeader) : Decidable h.IsTerminator := inferInstanceAs (Decidable (_ ∧ _))

/-- `fits_dest`. -/
def FitsDest (dest : List UInt8) (addr length : ℕ) : Prop := addr + length ≤ dest.length

instance (dest : List UInt8) (addr length : ℕ) : Decidable (FitsDest dest addr length) :=
  inferInstanceAs (Decidable (_ ≤ _))

/-- What the loop does with a record: the cursor behind it and the buffer after it. -/
def applyRecord (records : List UInt8) (windowBits cursor : ℕ) (h : RecordHeader)
    (dest : List UInt8) : Checked (ℕ × List UInt8) :=
  if h.compressedLen = 0 then
    if ¬ FitsDest dest h.newAddr h.uncompressedLen then
      .error (.message "XEXP delta-patch fill record is out of bounds.")
    else do
      let dest ← store dest h.newAddr (List.replicate h.uncompressedLen 0)
      pure (cursor + kRecordHeaderSize, dest)
  else if h.compressedLen = 1 then
    if ¬ FitsDest dest h.oldAddr h.uncompressedLen ∨
        ¬ FitsDest dest h.newAddr h.uncompressedLen then
      .error (.message "XEXP delta-patch copy record is out of bounds.")
    else do
      let snapshot ← fetch dest h.oldAddr h.uncompressedLen
      let dest ← store dest h.newAddr snapshot
      pure (cursor + kRecordHeaderSize, dest)
  else if records.length < cursor + kRecordHeaderSize + h.compressedLen then
    .error (.message "XEXP delta-patch record payload is truncated.")
  else if ¬ FitsDest dest h.oldAddr h.uncompressedLen ∨
      ¬ FitsDest dest h.newAddr h.uncompressedLen then
    .error (.message "XEXP delta-patch LZX record is out of bounds.")
  else do
    let reference ← fetch dest h.oldAddr h.uncompressedLen
    let payload ← fetch records (cursor + kRecordHeaderSize) h.compressedLen
    match Lzx.decode payload windowBits reference (List.replicate h.uncompressedLen 0) with
    | .error error => .error (.message ("XEXP delta-patch LZX record failed: " ++ error))
    | .ok output =>
        let dest ← store dest h.newAddr output
        pure (cursor + kRecordHeaderSize + h.compressedLen, dest)

/-- The loop of `apply_delta_patch_records`. -/
def recordLoop (records : List UInt8) (windowBits : ℕ) :
    ℕ → ℕ → List UInt8 → Checked (List UInt8)
  | 0, _, _ => .error .endless
  | fuel + 1, cursor, dest =>
      if cursor + kRecordHeaderSize ≤ records.length then do
        let h ← readHeader records cursor
        if h.IsTerminator then pure dest
        else
          let (cursor, dest) ← applyRecord records windowBits cursor h dest
          recordLoop records windowBits fuel cursor dest
      else pure dest

/-- `apply_delta_patch_records`: the buffer after a chain that succeeds. -/
def applyDeltaPatchRecords (records : List UInt8) (windowBits : ℕ) (dest : List UInt8) :
    Checked (List UInt8) :=
  recordLoop records windowBits (records.length + 1) 0 dest

/-! ### What a chain says -/

/-- An edit of an image. -/
inductive Patch where
  | fill (target length : ℕ)
  | copy (source target length : ℕ)
  | lzx (source target length : ℕ) (payload : List UInt8)

namespace Patch

def target : Patch → ℕ
  | .fill target _ => target
  | .copy _ target _ => target
  | .lzx _ target _ _ => target

def length : Patch → ℕ
  | .fill _ length => length
  | .copy _ _ length => length
  | .lzx _ _ length _ => length

/-- The bytes an edit puts in its place, from the image as it was just before it. -/
def bytes (windowBits : ℕ) (image : List UInt8) : Patch → Option (List UInt8)
  | .fill _ length => some (List.replicate length 0)
  | .copy source _ length =>
      if source + length ≤ image.length then some (slice image source length) else none
  | .lzx source _ length payload =>
      if source + length ≤ image.length then
        (Lzx.decode payload windowBits (slice image source length)
          (List.replicate length 0)).toOption
      else none

/-- The image after an edit that fits into it. -/
def apply (windowBits : ℕ) (image : List UInt8) (p : Patch) : Option (List UInt8) :=
  if p.target + p.length ≤ image.length then
    (p.bytes windowBits image).map (overwrite image p.target)
  else none

/-- The place is one that the edit writes. -/
def Covers (p : Patch) (i : ℕ) : Prop := p.target ≤ i ∧ i < p.target + p.length

end Patch

/-- The image after edits, one after the other. -/
def applyAll (windowBits : ℕ) : List Patch → List UInt8 → Option (List UInt8)
  | [], image => some image
  | p :: ps, image => (p.apply windowBits image).bind (applyAll windowBits ps)

/-- The header of the record at a place. -/
def headerAt (records : List UInt8) (cursor : ℕ) : RecordHeader where
  oldAddr := beNumber (slice records cursor 4)
  newAddr := beNumber (slice records (cursor + 4) 4)
  uncompressedLen := beNumber (slice records (cursor + 8) 2)
  compressedLen := beNumber (slice records (cursor + 10) 2)

/-- The edit that the record at a place describes, and the place of the next record. -/
def patchAt (records : List UInt8) (cursor : ℕ) (h : RecordHeader) : Option (Patch × ℕ) :=
  if h.compressedLen = 0 then some (.fill h.newAddr h.uncompressedLen, cursor + kRecordHeaderSize)
  else if h.compressedLen = 1 then
    some (.copy h.oldAddr h.newAddr h.uncompressedLen, cursor + kRecordHeaderSize)
  else if cursor + kRecordHeaderSize + h.compressedLen ≤ records.length then
    some (.lzx h.oldAddr h.newAddr h.uncompressedLen
      (slice records (cursor + kRecordHeaderSize) h.compressedLen),
      cursor + kRecordHeaderSize + h.compressedLen)
  else none

/-- The edits that the records from a place on describe, up to the terminator or to the end
of the records. -/
inductive Describes (records : List UInt8) : ℕ → List Patch → Prop
  | finish {cursor : ℕ} (h : records.length < cursor + kRecordHeaderSize) :
      Describes records cursor []
  | terminator {cursor : ℕ} (h : cursor + kRecordHeaderSize ≤ records.length)
      (hlast : (headerAt records cursor).IsTerminator) : Describes records cursor []
  | record {cursor next : ℕ} {p : Patch} {ps : List Patch}
      (h : cursor + kRecordHeaderSize ≤ records.length)
      (hmore : ¬ (headerAt records cursor).IsTerminator)
      (hpatch : patchAt records cursor (headerAt records cursor) = some (p, next))
      (hrest : Describes records next ps) : Describes records cursor (p :: ps)

variable {records dest dest' : List UInt8} {windowBits cursor : ℕ}

theorem fetch_eq {bytes : List UInt8} {offset n : ℕ} (h : offset + n ≤ bytes.length) :
    fetch bytes offset n = .ok (slice bytes offset n) := if_pos h

theorem store_eq {bytes : List UInt8} {offset : ℕ} (h : offset + bytes.length ≤ dest.length) :
    store dest offset bytes = .ok (overwrite dest offset bytes) := if_pos h

theorem readHeader_eq (h : cursor + kRecordHeaderSize ≤ records.length) :
    readHeader records cursor = .ok (headerAt records cursor) := by
  rw [kRecordHeaderSize] at h
  rw [readHeader, deltaReadBe, deltaReadBe, deltaReadBe, deltaReadBe, fetch_eq (by omega),
    fetch_eq (by omega), fetch_eq (by omega), fetch_eq (by omega)]
  rfl

/-- A decoded buffer keeps its length. -/
theorem length_decode {payload reference output result : List UInt8}
    (h : Lzx.decode payload windowBits reference output = .ok result) :
    result.length = output.length := by
  rw [Lzx.decode, Lzx.decodeRun] at h
  split at h
  · cases h
  · cases hrun : Lzx.decodeBlocks reference (.init payload windowBits output) with
    | error error =>
      rw [hrun] at h
      cases h
    | ok s =>
      rw [hrun] at h
      cases h
      exact (Lzx.decodeBlocks_fills (Nat.zero_le _) hrun).2

theorem Patch.length_bytes {p : Patch} {image bytes : List UInt8}
    (h : p.bytes windowBits image = some bytes) : bytes.length = p.length := by
  cases p with
  | fill target length =>
    cases h
    exact List.length_replicate
  | copy source target length =>
    rw [Patch.bytes] at h
    split at h
    · next hfits =>
      cases h
      exact length_slice hfits
    · cases h
  | lzx source target length payload =>
    rw [Patch.bytes] at h
    split at h
    · cases hdecode : Lzx.decode payload windowBits (slice image source length)
          (List.replicate length 0) with
      | error error =>
        rw [hdecode] at h
        cases h
      | ok output =>
        rw [hdecode] at h
        cases h
        exact (length_decode hdecode).trans List.length_replicate
    · cases h

/-- An edit that does not fit, or whose bytes cannot be made, is none. -/
theorem Patch.apply_eq_none {p : Patch} {image : List UInt8}
    (h : ¬ FitsDest image p.target p.length ∨ p.bytes windowBits image = none) :
    p.apply windowBits image = none := by
  rw [Patch.apply]
  split
  · next hfits => rw [h.resolve_left (fun hnot => hnot hfits), Option.map_none]
  · rfl

theorem store_bytes (windowBits : ℕ) {p : Patch} {image bytes : List UInt8}
    (hfits : FitsDest image p.target p.length) (h : p.bytes windowBits image = some bytes) :
    ∃ image', p.apply windowBits image = some image' ∧ store image p.target bytes = .ok image' := by
  have hlength : p.target + p.length ≤ image.length := hfits
  refine ⟨overwrite image p.target bytes, ?_, store_eq ?_⟩
  · rw [Patch.apply, if_pos hlength, h, Option.map_some]
  · rw [Patch.length_bytes h]
    exact hfits

/-- **A record does what it describes**, or the code reports an error. -/
theorem applyRecord_spec (records : List UInt8) (windowBits cursor : ℕ) (h : RecordHeader)
    (dest : List UInt8) :
    (∃ p next dest', patchAt records cursor h = some (p, next) ∧
      p.apply windowBits dest = some dest' ∧
      applyRecord records windowBits cursor h dest = .ok (next, dest')) ∨
    ((∀ p next, patchAt records cursor h = some (p, next) → p.apply windowBits dest = none) ∧
      ∃ error, applyRecord records windowBits cursor h dest = .error (.message error)) := by
  by_cases h0 : h.compressedLen = 0
  · have hpatch : patchAt records cursor h =
        some (.fill h.newAddr h.uncompressedLen, cursor + kRecordHeaderSize) := if_pos h0
    rw [hpatch, applyRecord, if_pos h0]
    by_cases hfits : FitsDest dest h.newAddr h.uncompressedLen
    · obtain ⟨dest', happly, hstore⟩ := store_bytes windowBits
        (p := .fill h.newAddr h.uncompressedLen) hfits rfl
      rw [if_neg (not_not.mpr hfits)]
      exact .inl ⟨_, _, dest', rfl, happly, congrArg (· >>= fun dest =>
        Except.ok (cursor + kRecordHeaderSize, dest)) hstore⟩
    · rw [if_pos hfits]
      refine .inr ⟨fun p next heq => ?_, _, rfl⟩
      cases heq
      exact Patch.apply_eq_none (.inl hfits)
  by_cases h1 : h.compressedLen = 1
  · have hpatch : patchAt records cursor h =
        some (.copy h.oldAddr h.newAddr h.uncompressedLen, cursor + kRecordHeaderSize) := by
      rw [patchAt, if_neg h0, if_pos h1]
    rw [hpatch, applyRecord, if_neg h0, if_pos h1]
    by_cases hfits : ¬ FitsDest dest h.oldAddr h.uncompressedLen ∨
        ¬ FitsDest dest h.newAddr h.uncompressedLen
    · rw [if_pos hfits]
      refine .inr ⟨fun p next heq => ?_, _, rfl⟩
      cases heq
      refine Patch.apply_eq_none (hfits.symm.imp_right fun hold => ?_)
      exact if_neg hold
    · rw [if_neg hfits]
      obtain ⟨hold, hnew⟩ := not_or.mp hfits
      have hsource : h.oldAddr + h.uncompressedLen ≤ dest.length := not_not.mp hold
      obtain ⟨dest', happly, hstore⟩ := store_bytes windowBits
        (p := .copy h.oldAddr h.newAddr h.uncompressedLen) (not_not.mp hnew) (if_pos hsource)
      refine .inl ⟨_, _, dest', rfl, happly, ?_⟩
      rw [fetch_eq hsource]
      exact congrArg (· >>= fun dest => Except.ok (cursor + kRecordHeaderSize, dest)) hstore
  rw [applyRecord, if_neg h0, if_neg h1]
  by_cases hcut : records.length < cursor + kRecordHeaderSize + h.compressedLen
  · rw [if_pos hcut]
    refine .inr ⟨fun p next heq => ?_, _, rfl⟩
    rw [patchAt, if_neg h0, if_neg h1, if_neg (not_le.mpr hcut)] at heq
    cases heq
  · have hpatch : patchAt records cursor h = some (.lzx h.oldAddr h.newAddr h.uncompressedLen
        (slice records (cursor + kRecordHeaderSize) h.compressedLen),
        cursor + kRecordHeaderSize + h.compressedLen) := by
      rw [patchAt, if_neg h0, if_neg h1, if_pos (not_lt.mp hcut)]
    rw [hpatch, if_neg hcut]
    by_cases hfits : ¬ FitsDest dest h.oldAddr h.uncompressedLen ∨
        ¬ FitsDest dest h.newAddr h.uncompressedLen
    · rw [if_pos hfits]
      refine .inr ⟨fun p next heq => ?_, _, rfl⟩
      cases heq
      refine Patch.apply_eq_none (hfits.symm.imp_right fun hold => ?_)
      exact if_neg hold
    · rw [if_neg hfits]
      obtain ⟨hold, hnew⟩ := not_or.mp hfits
      have hsource : h.oldAddr + h.uncompressedLen ≤ dest.length := not_not.mp hold
      rw [fetch_eq hsource, fetch_eq (not_lt.mp hcut)]
      cases hdecode : Lzx.decode (slice records (cursor + kRecordHeaderSize) h.compressedLen)
          windowBits (slice dest h.oldAddr h.uncompressedLen)
          (List.replicate h.uncompressedLen 0) with
      | error error =>
        refine .inr ⟨fun p next heq => ?_, "XEXP delta-patch LZX record failed: " ++ error, ?_⟩
        · cases heq
          refine Patch.apply_eq_none (.inr ?_)
          rw [Patch.bytes, if_pos hsource, hdecode]
          rfl
        · change (match Lzx.decode _ _ _ _ with | .error _ => _ | .ok _ => _) = _
          rw [hdecode]
      | ok output =>
        obtain ⟨dest', happly, hstore⟩ := store_bytes windowBits
          (p := .lzx h.oldAddr h.newAddr h.uncompressedLen
            (slice records (cursor + kRecordHeaderSize) h.compressedLen))
          (not_not.mp hnew) (show _ = some output by
            rw [Patch.bytes, if_pos hsource, hdecode]
            rfl)
        refine .inl ⟨_, _, dest', rfl, happly, ?_⟩
        change (match Lzx.decode _ _ _ _ with | .error _ => _ | .ok _ => _) = _
        rw [hdecode]
        exact congrArg (· >>= fun dest =>
          Except.ok (cursor + kRecordHeaderSize + h.compressedLen, dest)) hstore

theorem lt_of_patchAt {h : RecordHeader} {p : Patch} {next : ℕ}
    (hpatch : patchAt records cursor h = some (p, next)) : cursor < next := by
  rw [patchAt] at hpatch
  split at hpatch
  · cases hpatch
    exact Nat.lt_add_of_pos_right (by decide)
  · split at hpatch
    · cases hpatch
      exact Nat.lt_add_of_pos_right (by decide)
    · split at hpatch
      · cases hpatch
        exact lt_of_lt_of_le (Nat.lt_add_of_pos_right (by decide)) (Nat.le_add_right _ _)
      · cases hpatch

/-- A chain describes one list of edits. -/
theorem Describes.unique {ps qs : List Patch} (hp : Describes records cursor ps)
    (hq : Describes records cursor qs) : ps = qs := by
  induction hp generalizing qs with
  | finish h =>
    cases hq with
    | finish => rfl
    | terminator h' => exact absurd h' (not_le.mpr h)
    | record h' => exact absurd h' (not_le.mpr h)
  | terminator h hlast =>
    cases hq with
    | finish h' => exact absurd h (not_le.mpr h')
    | terminator => rfl
    | record _ hmore => exact absurd hlast hmore
  | record h hmore hpatch _ ih =>
    cases hq with
    | finish h' => exact absurd h (not_le.mpr h')
    | terminator _ hlast => exact absurd hlast hmore
    | record _ _ hpatch' hrest =>
      rw [hpatch] at hpatch'
      cases hpatch'
      rw [ih hrest]

/-- One round of the loop. -/
theorem recordLoop_succ {fuel : ℕ} (hin : cursor + kRecordHeaderSize ≤ records.length)
    (hmore : ¬ (headerAt records cursor).IsTerminator) :
    recordLoop records windowBits (fuel + 1) cursor dest =
      (applyRecord records windowBits cursor (headerAt records cursor) dest >>=
        fun r => recordLoop records windowBits fuel r.1 r.2) := by
  rw [recordLoop, if_pos hin, readHeader_eq hin]
  exact if_neg hmore

/-- **The loop over the records.**  It ends, it stays inside the buffers, and it succeeds with
the image that the edits make, one after the other. -/
theorem recordLoop_spec (records : List UInt8) (windowBits : ℕ) {fuel : ℕ} :
    ∀ {cursor : ℕ} {dest : List UInt8}, records.length - cursor < fuel →
      (∃ ps dest', Describes records cursor ps ∧ applyAll windowBits ps dest = some dest' ∧
        recordLoop records windowBits fuel cursor dest = .ok dest') ∨
      ((∀ ps, Describes records cursor ps → applyAll windowBits ps dest = none) ∧
        ∃ error, recordLoop records windowBits fuel cursor dest = .error (.message error)) := by
  induction fuel with
  | zero => exact fun hfuel => absurd hfuel (Nat.not_lt_zero _)
  | succ fuel ih =>
    intro cursor dest hfuel
    by_cases hin : cursor + kRecordHeaderSize ≤ records.length
    · by_cases hlast : (headerAt records cursor).IsTerminator
      · refine .inl ⟨[], dest, .terminator hin hlast, rfl, ?_⟩
        rw [recordLoop, if_pos hin, readHeader_eq hin]
        exact if_pos hlast
      · have hinv : ∀ ps, Describes records cursor ps → ∃ p next rest,
            patchAt records cursor (headerAt records cursor) = some (p, next) ∧
              Describes records next rest ∧ ps = p :: rest := fun ps hps => by
          cases hps with
          | finish h => exact absurd hin (not_le.mpr h)
          | terminator _ h => exact absurd h hlast
          | record _ _ hpatch hrest => exact ⟨_, _, _, hpatch, hrest, rfl⟩
        rw [recordLoop_succ hin hlast]
        rcases applyRecord_spec records windowBits cursor (headerAt records cursor) dest with
          ⟨p, next, image, hpatch, happly, hrun⟩ | ⟨hnone, error, hrun⟩
        · have hlt := lt_of_patchAt hpatch
          have hhead : kRecordHeaderSize = 12 := rfl
          rw [hrun]
          rcases @ih next image (by omega) with
            ⟨ps, dest', hps, happlyAll, hloop⟩ | ⟨hfail, error, hloop⟩
          · refine .inl ⟨p :: ps, dest', .record hin hlast hpatch hps, ?_, hloop⟩
            rw [applyAll, happly, Option.bind_some, happlyAll]
          · refine .inr ⟨fun qs hqs => ?_, error, hloop⟩
            obtain ⟨p', next', rest, hpatch', hrest, rfl⟩ := hinv qs hqs
            rw [hpatch] at hpatch'
            cases hpatch'
            rw [applyAll, happly, Option.bind_some, hfail rest hrest]
        · rw [hrun]
          refine .inr ⟨fun qs hqs => ?_, error, rfl⟩
          obtain ⟨p, next, rest, hpatch, -, rfl⟩ := hinv qs hqs
          rw [applyAll, hnone p next hpatch, Option.bind_none]
    · refine .inl ⟨[], dest, .finish (not_le.mp hin), rfl, ?_⟩
      rw [recordLoop, if_neg hin]
      rfl

/-- An edit changes its own place only. -/
theorem Patch.apply_frame {p : Patch} {image image' : List UInt8}
    (h : p.apply windowBits image = some image') :
    image'.length = image.length ∧ ∀ i, ¬ p.Covers i → image'[i]? = image[i]? := by
  rw [Patch.apply] at h
  split at h
  · next hfits =>
    obtain ⟨bytes, hbytes, rfl⟩ := Option.map_eq_some_iff.mp h
    have hlength := Patch.length_bytes hbytes
    rw [← hlength] at hfits
    refine ⟨length_overwrite hfits, fun i hi => ?_⟩
    rw [getElem?_overwrite hfits, if_neg]
    rwa [Patch.Covers, ← hlength] at hi
  · cases h

/-- **What no edit covers stays.** -/
theorem applyAll_frame {ps : List Patch} {image image' : List UInt8}
    (h : applyAll windowBits ps image = some image') :
    image'.length = image.length ∧
      ∀ i, (∀ p ∈ ps, ¬ p.Covers i) → image'[i]? = image[i]? := by
  induction ps generalizing image with
  | nil =>
    cases h
    exact ⟨rfl, fun _ _ => rfl⟩
  | cons p ps ih =>
    obtain ⟨next, hnext, hrest⟩ := Option.bind_eq_some_iff.mp h
    obtain ⟨hlength, hframe⟩ := p.apply_frame hnext
    obtain ⟨hlength', hframe'⟩ := ih hrest
    refine ⟨hlength'.trans hlength, fun i hi => ?_⟩
    rw [hframe' i fun q hq => hi q (List.mem_cons_of_mem _ hq),
      hframe i (hi p List.mem_cons_self)]

theorem applyAll_append (ps qs : List Patch) (image : List UInt8) :
    applyAll windowBits (ps ++ qs) image =
      (applyAll windowBits ps image).bind (applyAll windowBits qs) := by
  induction ps generalizing image with
  | nil => rfl
  | cons p ps ih =>
    rw [List.cons_append, applyAll, applyAll, Option.bind_assoc]
    exact congrArg _ (funext ih)

/-- **A record chain**: it ends, it stays inside the records and the image, and where it
succeeds the image is what the edits make of it. -/
theorem applyDeltaPatchRecords_spec (records : List UInt8) (windowBits : ℕ) (dest : List UInt8) :
    (∃ ps dest', Describes records 0 ps ∧ applyAll windowBits ps dest = some dest' ∧
      applyDeltaPatchRecords records windowBits dest = .ok dest') ∨
    ((∀ ps, Describes records 0 ps → applyAll windowBits ps dest = none) ∧
      ∃ error, applyDeltaPatchRecords records windowBits dest = .error (.message error)) :=
  recordLoop_spec records windowBits (by omega)

/-- A fill of two bytes, and no terminator. -/
example : applyDeltaPatchRecords [0, 0, 0, 0, 0, 0, 0, 1, 0, 2, 0, 0] 15 [7, 7, 7, 7] =
    .ok [7, 0, 0, 7] := by decide

/-! ### The image -/

def kMaxReasonableImageBytes : ℕ := 512 * 1024 * 1024

/-- The fields of `XexDeltaPatchDescriptor` that the image part reads. -/
structure XexDeltaPatchDescriptor where
  deltaImageSourceOffset : ℕ
  deltaImageTargetOffset : ℕ
  deltaImageSourceSize : ℕ

/-- `splice_delta_region`. -/
def spliceDeltaRegion (source : List UInt8) (sourceOffset size : ℕ) (dest : List UInt8)
    (targetOffset : ℕ) (what : String) : Checked (List UInt8) :=
  if source.length < sourceOffset ∨ source.length - sourceOffset < size then
    .error (.message ("XEXP " ++ what ++ " source range is outside its source data."))
  else if dest.length < targetOffset ∨ dest.length - targetOffset < size then
    .error (.message ("XEXP " ++ what ++ " target range is outside its target buffer."))
  else do
    let snapshot ← fetch source sourceOffset size
    store dest targetOffset snapshot

/-- `range_valid`. -/
def rangeValid (offset length size : ℕ) : Prop := offset ≤ size ∧ length ≤ size - offset

instance (offset length size : ℕ) : Decidable (rangeValid offset length size) :=
  inferInstanceAs (Decidable (_ ∧ _))

/-- The loop of `walk_compressed_block_chain`, with what the callback keeps. -/
def walkCompressedBlockChain {S : Type} (sha1 : List UInt8 → List UInt8) (body : List UInt8)
    (onPayload : List UInt8 → S → Checked S) : ℕ → ℕ → S → Checked S
  | 0, _, _ => .error .endless
  | fuel + 1, cursor, s =>
      if ¬ rangeValid cursor 4 body.length then
        .error (.message "XEX compressed-block chain is truncated.")
      else do
        let blockSize ← (fetch body cursor 4).map beNumber
        if blockSize = 0 then pure s
        else if blockSize < 24 ∨ ¬ rangeValid cursor blockSize body.length then
          .error (.message "XEX compressed-block size is invalid.")
        else
          let storedHash ← fetch body (cursor + 4) 20
          let payload ← fetch body (cursor + 24) (blockSize - 24)
          if sha1 payload ≠ storedHash then
            .error (.message
              "XEX compressed-block SHA1 digest mismatch (corrupt or truncated data).")
          else
            let s ← onPayload payload s
            walkCompressedBlockChain sha1 body onPayload fuel (cursor + blockSize) s

/-- The callback of `apply_image_delta`. -/
def patchPayload (windowBits : ℕ) (payload working : List UInt8) : Checked (List UInt8) :=
  match applyDeltaPatchRecords payload windowBits working with
  | .error (.message error) =>
      .error (.message ("XEXP image-delta record chain failed: " ++ error))
  | result => result

/-- The region of the base that `apply_image_delta` splices, if there is one. -/
def spliceBase (referenceImage : List UInt8) (deltaPatch : XexDeltaPatchDescriptor)
    (working : List UInt8) : Checked (List UInt8) :=
  if deltaPatch.deltaImageSourceSize ≠ 0 then
    spliceDeltaRegion referenceImage deltaPatch.deltaImageSourceOffset
      deltaPatch.deltaImageSourceSize working deltaPatch.deltaImageTargetOffset "image-delta"
  else .ok working

/-- The part of `apply_image_delta` before the record chains: the base image, the region
that is spliced into it, and zeros from the end of the target on. -/
def workingImage (referenceImage : List UInt8) (deltaPatch : XexDeltaPatchDescriptor)
    (targetSize : ℕ) : Checked (List UInt8) := do
  let workingSize := max referenceImage.length targetSize
  let working ← store (List.replicate workingSize 0) 0 referenceImage
  let working ← spliceBase referenceImage deltaPatch working
  if targetSize < workingSize then
    store working targetSize (List.replicate (workingSize - targetSize) 0)
  else pure working

/-- `apply_image_delta` up to the last step, which hands the image over. -/
def imageDelta (sha1 : List UInt8 → List UInt8) (body : List UInt8) (windowBits : ℕ)
    (referenceImage : List UInt8) (deltaPatch : XexDeltaPatchDescriptor) (targetSize : ℕ) :
    Checked (List UInt8) :=
  if referenceImage = [] then
    .error (.message "XEX_COMPRESSION_DELTA requires a base reference image.")
  else if targetSize = 0 ∨ kMaxReasonableImageBytes < targetSize then
    .error (.message "XEX_COMPRESSION_DELTA target image size is invalid.")
  else if kMaxReasonableImageBytes < max referenceImage.length targetSize then
    .error (.message "XEX_COMPRESSION_DELTA working image size is invalid.")
  else do
    let working ← workingImage referenceImage deltaPatch targetSize
    let working ← walkCompressedBlockChain sha1 body (patchPayload windowBits)
      (body.length + 1) 0 working
    pure (working.take targetSize)

/-- `apply_image_delta`: whether it succeeds, the image it hands over, and its error. -/
def applyImageDelta (sha1 : List UInt8 → List UInt8) (body : List UInt8) (windowBits : ℕ)
    (referenceImage : List UInt8) (deltaPatch : XexDeltaPatchDescriptor) (targetSize : ℕ)
    (outEffective : List UInt8) : Bool × List UInt8 × Option Failure :=
  match imageDelta sha1 body windowBits referenceImage deltaPatch targetSize with
  | .ok working => (true, working, none)
  | .error failure => (false, outEffective, some failure)

/-- The payloads of the blocks from a place on, each with the hash that is stored for it. -/
inductive Blocks (sha1 : List UInt8 → List UInt8) (body : List UInt8) :
    ℕ → List (List UInt8) → Prop
  | terminator {cursor : ℕ} (h : cursor + 4 ≤ body.length)
      (hlast : beNumber (slice body cursor 4) = 0) : Blocks sha1 body cursor []
  | block {cursor size : ℕ} {payloads : List (List UInt8)} (h : cursor + size ≤ body.length)
      (hsize : beNumber (slice body cursor 4) = size) (hheader : 24 ≤ size)
      (hhash : sha1 (slice body (cursor + 24) (size - 24)) = slice body (cursor + 4) 20)
      (hrest : Blocks sha1 body (cursor + size) payloads) :
      Blocks sha1 body cursor (slice body (cursor + 24) (size - 24) :: payloads)

/-- The base image with the spliced region, zero from the end of the target on. -/
def splicedBase (referenceImage : List UInt8) (deltaPatch : XexDeltaPatchDescriptor)
    (targetSize : ℕ) : List UInt8 :=
  (List.range (max referenceImage.length targetSize)).map fun i =>
    if targetSize ≤ i then 0
    else if deltaPatch.deltaImageTargetOffset ≤ i ∧
        i < deltaPatch.deltaImageTargetOffset + deltaPatch.deltaImageSourceSize then
      referenceImage.getD (deltaPatch.deltaImageSourceOffset +
        (i - deltaPatch.deltaImageTargetOffset)) 0
    else referenceImage.getD i 0

/-- The callback on payloads, one after the other. -/
def payloadsRun {S : Type} (onPayload : List UInt8 → S → Checked S) :
    List (List UInt8) → S → Checked S
  | [], s => .ok s
  | payload :: payloads, s => onPayload payload s >>= payloadsRun onPayload payloads

section chain

variable {S : Type} {sha1 : List UInt8 → List UInt8} {body : List UInt8}
  {onPayload : List UInt8 → S → Checked S}

/-- **The walk over the blocks.**  With a callback that stays inside its buffers it ends, stays
inside the body, and succeeds with what the callback makes of the payloads. -/
theorem walkCompressedBlockChain_spec
    (hcallback : ∀ payload s, (∃ s', onPayload payload s = .ok s') ∨
      ∃ error, onPayload payload s = .error (.message error)) {fuel : ℕ} :
    ∀ {cursor : ℕ} {s : S}, body.length - cursor < fuel →
      (∃ payloads s', Blocks sha1 body cursor payloads ∧
        payloadsRun onPayload payloads s = .ok s' ∧
        walkCompressedBlockChain sha1 body onPayload fuel cursor s = .ok s') ∨
      ((∀ payloads s', Blocks sha1 body cursor payloads →
          payloadsRun onPayload payloads s ≠ .ok s') ∧
        ∃ error, walkCompressedBlockChain sha1 body onPayload fuel cursor s =
          .error (.message error)) := by
  induction fuel with
  | zero => exact fun hfuel => absurd hfuel (Nat.not_lt_zero _)
  | succ fuel ih =>
    intro cursor s hfuel
    rw [walkCompressedBlockChain]
    by_cases hword : rangeValid cursor 4 body.length
    · have hin : cursor + 4 ≤ body.length := by
        obtain ⟨hle, hroom⟩ := hword
        omega
      rw [if_neg (not_not.mpr hword), fetch_eq hin]
      obtain ⟨size, hsize⟩ : ∃ size, beNumber (slice body cursor 4) = size := ⟨_, rfl⟩
      change (∃ _ _, _ ∧ _ ∧ (if beNumber (slice body cursor 4) = 0 then _ else _) = _) ∨ _ ∧
        ∃ _, (if beNumber (slice body cursor 4) = 0 then _ else _) = _
      rw [hsize]
      by_cases hlast : size = 0
      · rw [if_pos hlast]
        exact .inl ⟨[], s, .terminator hin (hsize.trans hlast), rfl, rfl⟩
      · rw [if_neg hlast]
        have hinv : ∀ payloads, Blocks sha1 body cursor payloads → ∃ rest,
            cursor + size ≤ body.length ∧ 24 ≤ size ∧
            sha1 (slice body (cursor + 24) (size - 24)) = slice body (cursor + 4) 20 ∧
            Blocks sha1 body (cursor + size) rest ∧
            payloads = slice body (cursor + 24) (size - 24) :: rest := fun payloads hblocks => by
          cases hblocks with
          | terminator _ hzero => exact absurd (hsize.symm.trans hzero) hlast
          | block h hsize' hheader hhash hrest =>
            rw [hsize] at hsize'
            cases hsize'
            exact ⟨_, h, hheader, hhash, hrest, rfl⟩
        by_cases hbad : size < 24 ∨ ¬ rangeValid cursor size body.length
        · rw [if_pos hbad]
          refine .inr ⟨fun payloads s' hblocks => ?_, _, rfl⟩
          obtain ⟨-, hfits, hheader, -⟩ := hinv payloads hblocks
          exact (hbad.elim (fun h => by omega) fun h => h ⟨by omega, by omega⟩).elim
        · rw [if_neg hbad]
          obtain ⟨hheader, hvalid⟩ := not_or.mp hbad
          obtain ⟨hle, hroom⟩ := not_not.mp hvalid
          rw [fetch_eq (by omega), fetch_eq (by omega)]
          obtain ⟨payload, hpayload⟩ :
              ∃ payload, slice body (cursor + 24) (size - 24) = payload := ⟨_, rfl⟩
          rw [hpayload] at hinv ⊢
          change (∃ _ _, _ ∧ _ ∧ (if sha1 payload ≠ slice body (cursor + 4) 20 then _ else _) = _) ∨
            _ ∧ ∃ _, (if sha1 payload ≠ slice body (cursor + 4) 20 then _ else _) = _
          by_cases hhash : sha1 payload = slice body (cursor + 4) 20
          · rw [if_neg (not_not.mpr hhash)]
            rcases hcallback payload s with ⟨next, hnext⟩ | ⟨error, herror⟩
            · rw [hnext]
              rcases @ih (cursor + size) next (by omega) with
                ⟨payloads, s', hblocks, hrun, hwalk⟩ | ⟨hfail, error, hwalk⟩
              · refine .inl ⟨payload :: payloads, s', ?_, ?_, hwalk⟩
                · rw [← hpayload]
                  exact .block (by omega) hsize (not_lt.mp hheader) (hpayload ▸ hhash) hblocks
                · rw [payloadsRun, hnext]
                  exact hrun
              · refine .inr ⟨fun payloads s' hblocks => ?_, error, hwalk⟩
                obtain ⟨rest, -, -, -, hrest, rfl⟩ := hinv payloads hblocks
                rw [payloadsRun, hnext]
                exact hfail rest s' hrest
            · rw [herror]
              refine .inr ⟨fun payloads s' hblocks hrun => ?_, error, rfl⟩
              obtain ⟨rest, -, -, -, -, rfl⟩ := hinv payloads hblocks
              rw [payloadsRun, herror] at hrun
              cases hrun
          · rw [if_pos hhash]
            refine .inr ⟨fun payloads s' hblocks => ?_, _, rfl⟩
            obtain ⟨-, -, -, hmatch, -⟩ := hinv payloads hblocks
            exact absurd hmatch hhash
    · rw [if_pos hword]
      refine .inr ⟨fun payloads s' hblocks => ?_, _, rfl⟩
      have hshort : ¬ cursor + 4 ≤ body.length := fun h => hword ⟨by omega, by omega⟩
      cases hblocks with
      | terminator h => exact absurd h hshort
      | block h _ hheader => exact absurd (by omega) hshort

end chain

/-- The callback does what the record chain of the payload describes. -/
theorem patchPayload_spec (windowBits : ℕ) (payload working : List UInt8) :
    (∃ ps working', Describes payload 0 ps ∧ applyAll windowBits ps working = some working' ∧
      patchPayload windowBits payload working = .ok working') ∨
    ((∀ ps, Describes payload 0 ps → applyAll windowBits ps working = none) ∧
      ∃ error, patchPayload windowBits payload working = .error (.message error)) := by
  rcases applyDeltaPatchRecords_spec payload windowBits working with
    ⟨ps, working', hps, happly, hrun⟩ | ⟨hnone, error, hrun⟩
  · refine .inl ⟨ps, working', hps, happly, ?_⟩
    rw [patchPayload, hrun]
  · refine .inr ⟨hnone, "XEXP image-delta record chain failed: " ++ error, ?_⟩
    rw [patchPayload, hrun]

/-- The payloads patch the image with all their edits. -/
theorem payloadsRun_patchPayload {payloads : List (List UInt8)} {working working' : List UInt8}
    (h : payloadsRun (patchPayload windowBits) payloads working = .ok working') :
    ∃ pss, List.Forall₂ (fun payload ps => Describes payload 0 ps) payloads pss ∧
      applyAll windowBits pss.flatten working = some working' := by
  induction payloads generalizing working with
  | nil =>
    cases h
    exact ⟨[], .nil, rfl⟩
  | cons payload payloads ih =>
    rcases patchPayload_spec windowBits payload working with
      ⟨ps, next, hps, happly, hrun⟩ | ⟨-, error, hrun⟩
    · rw [payloadsRun, hrun] at h
      obtain ⟨pss, hpss, hrest⟩ := ih h
      refine ⟨ps :: pss, .cons hps hpss, ?_⟩
      rw [List.flatten_cons, applyAll_append, happly]
      exact hrest
    · rw [payloadsRun, hrun] at h
      cases h

section image

variable {referenceImage : List UInt8} {deltaPatch : XexDeltaPatchDescriptor} {targetSize : ℕ}

theorem getElem?_splicedBase {i : ℕ} (hi : i < max referenceImage.length targetSize) :
    (splicedBase referenceImage deltaPatch targetSize)[i]? = some
      (if targetSize ≤ i then 0
      else if deltaPatch.deltaImageTargetOffset ≤ i ∧
          i < deltaPatch.deltaImageTargetOffset + deltaPatch.deltaImageSourceSize then
        referenceImage.getD (deltaPatch.deltaImageSourceOffset +
          (i - deltaPatch.deltaImageTargetOffset)) 0
      else referenceImage.getD i 0) := by
  rw [splicedBase, List.getElem?_map, List.getElem?_range hi, Option.map_some]

theorem length_splicedBase :
    (splicedBase referenceImage deltaPatch targetSize).length =
      max referenceImage.length targetSize := by
  rw [splicedBase, List.length_map, List.length_range]

theorem spliceDeltaRegion_spec (source : List UInt8) (sourceOffset size : ℕ) (dest : List UInt8)
    (targetOffset : ℕ) (what : String) :
    (sourceOffset + size ≤ source.length ∧ targetOffset + size ≤ dest.length ∧
      spliceDeltaRegion source sourceOffset size dest targetOffset what =
        .ok (overwrite dest targetOffset (slice source sourceOffset size))) ∨
    ∃ error, spliceDeltaRegion source sourceOffset size dest targetOffset what =
      .error (.message error) := by
  rw [spliceDeltaRegion]
  by_cases hsource : source.length < sourceOffset ∨ source.length - sourceOffset < size
  · exact .inr ⟨_, if_pos hsource⟩
  · rw [if_neg hsource]
    by_cases htarget : dest.length < targetOffset ∨ dest.length - targetOffset < size
    · exact .inr ⟨_, if_pos htarget⟩
    · rw [if_neg htarget]
      have hin : sourceOffset + size ≤ source.length := by omega
      have hout : targetOffset + size ≤ dest.length := by omega
      refine .inl ⟨hin, hout, ?_⟩
      rw [fetch_eq hin]
      exact store_eq (by rwa [length_slice hin])

/-- The base image in a buffer of its own. -/
theorem copyBase_spec (referenceImage : List UInt8) {workingSize : ℕ}
    (h : referenceImage.length ≤ workingSize) :
    ∃ working, store (List.replicate workingSize 0) 0 referenceImage = .ok working ∧
      working.length = workingSize ∧
      ∀ i < workingSize, working[i]? = some (referenceImage.getD i 0) := by
  have hfits : 0 + referenceImage.length ≤ (List.replicate workingSize (0 : UInt8)).length := by
    rwa [Nat.zero_add, List.length_replicate]
  refine ⟨_, store_eq hfits, (length_overwrite hfits).trans List.length_replicate,
    fun i hi => ?_⟩
  rw [getElem?_overwrite hfits, Nat.zero_add, Nat.sub_zero]
  by_cases hin : i < referenceImage.length
  · rw [if_pos ⟨Nat.zero_le _, hin⟩, List.getElem?_eq_getElem hin, List.getD_eq_getElem _ _ hin]
  · rw [if_neg fun h => hin h.2, List.getElem?_replicate_of_lt hi,
      List.getD_eq_default _ _ (not_lt.mp hin)]

/-- The region that is spliced into a copy of the base. -/
theorem spliceBase_spec {working : List UInt8} (deltaPatch : XexDeltaPatchDescriptor)
    (hbytes : ∀ i < working.length, working[i]? = some (referenceImage.getD i 0)) :
    (∃ spliced, spliceBase referenceImage deltaPatch working = .ok spliced ∧
      spliced.length = working.length ∧
      ∀ i < working.length, spliced[i]? = some
        (if deltaPatch.deltaImageTargetOffset ≤ i ∧
            i < deltaPatch.deltaImageTargetOffset + deltaPatch.deltaImageSourceSize then
          referenceImage.getD (deltaPatch.deltaImageSourceOffset +
            (i - deltaPatch.deltaImageTargetOffset)) 0
        else referenceImage.getD i 0)) ∨
    ∃ error, spliceBase referenceImage deltaPatch working = .error (.message error) := by
  rw [spliceBase]
  by_cases hsize : deltaPatch.deltaImageSourceSize ≠ 0
  · rw [if_pos hsize]
    rcases spliceDeltaRegion_spec referenceImage deltaPatch.deltaImageSourceOffset
        deltaPatch.deltaImageSourceSize working deltaPatch.deltaImageTargetOffset "image-delta" with
      ⟨hin, hout, hrun⟩ | herror
    · have hlength := length_slice hin
      have hfits : deltaPatch.deltaImageTargetOffset + (slice referenceImage
          deltaPatch.deltaImageSourceOffset deltaPatch.deltaImageSourceSize).length ≤
            working.length := by rwa [hlength]
      refine .inl ⟨_, hrun, length_overwrite hfits, fun i hi => ?_⟩
      rw [getElem?_overwrite hfits, hlength]
      split
      · next hcovered =>
        have hplace : deltaPatch.deltaImageSourceOffset +
            (i - deltaPatch.deltaImageTargetOffset) < referenceImage.length := by omega
        rw [getElem?_slice, if_pos (by omega), List.getElem?_eq_getElem hplace,
          List.getD_eq_getElem _ _ hplace]
      · exact hbytes i hi
    · exact .inr herror
  · rw [if_neg hsize]
    refine .inl ⟨working, rfl, rfl, fun i hi => ?_⟩
    rw [if_neg (by omega)]
    exact hbytes i hi

/-- **The image before the record chains** is the spliced base, or the splice reports an
error. -/
theorem workingImage_spec (referenceImage : List UInt8) (deltaPatch : XexDeltaPatchDescriptor)
    (targetSize : ℕ) :
    workingImage referenceImage deltaPatch targetSize =
        .ok (splicedBase referenceImage deltaPatch targetSize) ∨
      ∃ error, workingImage referenceImage deltaPatch targetSize = .error (.message error) := by
  obtain ⟨working, hcopy, hlength, hbytes⟩ := copyBase_spec referenceImage
    (Nat.le_max_left referenceImage.length targetSize)
  rw [← hlength] at hbytes
  dsimp only [workingImage]
  rw [hcopy]
  change (spliceBase referenceImage deltaPatch working >>= _) = _ ∨
    ∃ _, (spliceBase referenceImage deltaPatch working >>= _) = _
  rcases spliceBase_spec deltaPatch hbytes with
    ⟨spliced, hsplice, hlength', hbytes'⟩ | ⟨error, hsplice⟩
  · left
    rw [hsplice]
    rw [hlength] at hlength' hbytes'
    change (if targetSize < max referenceImage.length targetSize then _ else _) = _
    split
    · next hlong =>
      have hfits : targetSize + (List.replicate (max referenceImage.length targetSize - targetSize)
          (0 : UInt8)).length ≤ spliced.length := by
        rw [List.length_replicate, hlength']
        omega
      rw [store_eq hfits]
      refine congrArg Except.ok (List.ext_getElem? fun i => ?_)
      rw [getElem?_overwrite hfits, List.length_replicate]
      by_cases hi : i < max referenceImage.length targetSize
      · rw [getElem?_splicedBase hi]
        by_cases htail : targetSize ≤ i
        · rw [if_pos ⟨htail, by omega⟩, if_pos htail, List.getElem?_replicate_of_lt (by omega)]
        · rw [if_neg fun h => htail h.1, if_neg htail]
          exact hbytes' i hi
      · rw [if_neg (by omega), List.getElem?_eq_none (by omega),
          List.getElem?_eq_none (by rw [length_splicedBase]; omega)]
    · next hshort =>
      refine congrArg Except.ok (List.ext_getElem? fun i => ?_)
      by_cases hi : i < max referenceImage.length targetSize
      · rw [getElem?_splicedBase hi, if_neg (by omega)]
        exact hbytes' i hi
      · rw [List.getElem?_eq_none (by omega),
          List.getElem?_eq_none (by rw [length_splicedBase]; omega)]
  · right
    rw [hsplice]
    exact ⟨error, rfl⟩

end image

/-- The image that an update makes: that of all the edits of the blocks, of which the hashes
are right, from the spliced base on, cut to the size of the target. -/
def Patched (sha1 : List UInt8 → List UInt8) (body : List UInt8) (windowBits : ℕ)
    (referenceImage : List UInt8) (deltaPatch : XexDeltaPatchDescriptor) (targetSize : ℕ)
    (image : List UInt8) : Prop :=
  ∃ payloads pss final, Blocks sha1 body 0 payloads ∧
    List.Forall₂ (fun payload ps => Describes payload 0 ps) payloads pss ∧
    applyAll windowBits pss.flatten (splicedBase referenceImage deltaPatch targetSize) =
      some final ∧
    image = final.take targetSize

/-- A body has one list of blocks. -/
theorem Blocks.unique {sha1 : List UInt8 → List UInt8} {body : List UInt8} {cursor : ℕ}
    {xs ys : List (List UInt8)} (hx : Blocks sha1 body cursor xs)
    (hy : Blocks sha1 body cursor ys) : xs = ys := by
  induction hx generalizing ys with
  | terminator _ hlast =>
    cases hy with
    | terminator => rfl
    | block _ hsize hheader => omega
  | block _ hsize hheader _ _ ih =>
    cases hy with
    | terminator _ hlast => omega
    | block _ hsize' _ _ hrest =>
      rw [hsize] at hsize'
      cases hsize'
      rw [ih hrest]

/-- An update has one image. -/
theorem Patched.unique {sha1 : List UInt8 → List UInt8} {body referenceImage x y : List UInt8}
    {deltaPatch : XexDeltaPatchDescriptor} {targetSize : ℕ}
    (hx : Patched sha1 body windowBits referenceImage deltaPatch targetSize x)
    (hy : Patched sha1 body windowBits referenceImage deltaPatch targetSize y) : x = y := by
  obtain ⟨payloads, pss, final, hblocks, hpss, happly, rfl⟩ := hx
  obtain ⟨payloads', qss, final', hblocks', hqss, happly', rfl⟩ := hy
  cases hblocks.unique hblocks'
  have hsame : pss = qss := by
    clear happly happly' hblocks hblocks'
    induction hpss generalizing qss with
    | nil =>
      cases hqss
      rfl
    | cons hps _ ih =>
      cases hqss with
      | cons hqs hrest => rw [hps.unique hqs, ih _ hrest]
  cases hsame
  rw [happly] at happly'
  cases happly'
  rfl

/-- The image part ends, stays inside its buffers, and makes the image of the update. -/
theorem imageDelta_spec (sha1 : List UInt8 → List UInt8) (body : List UInt8) (windowBits : ℕ)
    (referenceImage : List UInt8) (deltaPatch : XexDeltaPatchDescriptor) (targetSize : ℕ) :
    (∃ image, imageDelta sha1 body windowBits referenceImage deltaPatch targetSize = .ok image ∧
      Patched sha1 body windowBits referenceImage deltaPatch targetSize image) ∨
    ∃ error, imageDelta sha1 body windowBits referenceImage deltaPatch targetSize =
      .error (.message error) := by
  rw [imageDelta]
  iterate 3
    split
    · exact .inr ⟨_, rfl⟩
  rcases workingImage_spec referenceImage deltaPatch targetSize with hbase | ⟨error, hbase⟩
  · rw [hbase]
    have hcallback : ∀ payload working,
        (∃ working', patchPayload windowBits payload working = .ok working') ∨
          ∃ error, patchPayload windowBits payload working = .error (.message error) :=
      fun payload working => by
        rcases patchPayload_spec windowBits payload working with
          ⟨_, working', -, -, hrun⟩ | ⟨-, herror⟩
        · exact .inl ⟨working', hrun⟩
        · exact .inr herror
    rcases @walkCompressedBlockChain_spec _ sha1 body _ hcallback (body.length + 1) 0
        (splicedBase referenceImage deltaPatch targetSize) (by omega) with
      ⟨payloads, final, hblocks, hrun, hwalk⟩ | ⟨-, error, hwalk⟩
    · obtain ⟨pss, hpss, happly⟩ := payloadsRun_patchPayload hrun
      refine .inl ⟨final.take targetSize, ?_, payloads, pss, final, hblocks, hpss, happly, rfl⟩
      change (walkCompressedBlockChain _ _ _ _ _ _ >>= _) = _
      rw [hwalk]
      rfl
    · refine .inr ⟨error, ?_⟩
      change (walkCompressedBlockChain _ _ _ _ _ _ >>= _) = _
      rw [hwalk]
      rfl
  · rw [hbase]
    exact .inr ⟨error, rfl⟩

/-- **Title-update patching.**  A record chain stays inside the records and the image, and
where it succeeds the image is that of its edits, one after the other, of which each sees the
bytes just before it; what no edit covers stays.  The image of an update has the size of the
target and is that of all the edits of its blocks from the spliced base on; where the update
fails the caller's image stays. -/
theorem title_update_exact (sha1 : List UInt8 → List UInt8) (windowBits : ℕ) :
    (∀ records dest,
      ((∃ dest', applyDeltaPatchRecords records windowBits dest = .ok dest') ∨
        ∃ error, applyDeltaPatchRecords records windowBits dest = .error (.message error)) ∧
      ∀ dest', applyDeltaPatchRecords records windowBits dest = .ok dest' →
        ∃ ps, Describes records 0 ps ∧ (∀ qs, Describes records 0 qs → qs = ps) ∧
          applyAll windowBits ps dest = some dest' ∧ dest'.length = dest.length ∧
          ∀ i, (∀ p ∈ ps, ¬ p.Covers i) → dest'[i]? = dest[i]?) ∧
    (∀ body referenceImage deltaPatch targetSize outEffective,
      (∃ image, applyImageDelta sha1 body windowBits referenceImage deltaPatch targetSize
          outEffective = (true, image, none) ∧ image.length = targetSize ∧
        Patched sha1 body windowBits referenceImage deltaPatch targetSize image ∧
        ∀ other, Patched sha1 body windowBits referenceImage deltaPatch targetSize other →
          other = image) ∨
      ∃ error, applyImageDelta sha1 body windowBits referenceImage deltaPatch targetSize
        outEffective = (false, outEffective, some (.message error))) := by
  refine ⟨fun records dest => ?_, fun body referenceImage deltaPatch targetSize outEffective => ?_⟩
  · rcases applyDeltaPatchRecords_spec records windowBits dest with
      ⟨ps, dest', hps, happly, hrun⟩ | ⟨-, herror⟩
    · refine ⟨.inl ⟨dest', hrun⟩, fun result hresult => ?_⟩
      rw [hrun] at hresult
      cases hresult
      obtain ⟨hlength, hframe⟩ := applyAll_frame happly
      exact ⟨ps, hps, fun qs hqs => hqs.unique hps, happly, hlength, hframe⟩
    · refine ⟨.inr herror, fun result hresult => ?_⟩
      obtain ⟨error, herror⟩ := herror
      rw [herror] at hresult
      cases hresult
  · rcases imageDelta_spec sha1 body windowBits referenceImage deltaPatch targetSize with
      ⟨image, hrun, hpatched⟩ | ⟨error, hrun⟩
    · refine .inl ⟨image, ?_, ?_, hpatched, fun _ hother => hother.unique hpatched⟩
      · rw [applyImageDelta, hrun]
      · obtain ⟨_, _, final, -, -, happly, rfl⟩ := hpatched
        rw [List.length_take, (applyAll_frame happly).1, length_splicedBase]
        omega
    · refine .inr ⟨error, ?_⟩
      rw [applyImageDelta, hrun]

end Title
end Xex
end XenonRecomp
