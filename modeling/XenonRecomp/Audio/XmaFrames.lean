/-
# Frames in linked packets

The payloads of the packets that skip counts link are one stream of bits, and a well-formed
sequence carries frames in it, one behind the other.  `gather_frame` copies the bits of a
frame across any packets, and the next frame is where the stream goes on, provided that
the length of the frame was read right: it is read from the 15 bits that lie next to each
other in the input, and these are its own unless a packet ends between them.
-/

import XenonRecomp.Audio.XmaPackets

namespace XenonRecomp
namespace Audio

open Library.BitString

/-! ### The stream of bits -/

/-- The bits of a packet behind its header. -/
def payloadBits : ℕ := kBitsPerPacket - 32

/-- The packets of the input. -/
def packetCount (input : XmaBytes) : ℕ := input.length / kXmaPacketBytes

/-- The packets that are linked from a first one on. -/
def link (input : XmaBytes) (first : ℕ) : ℕ → ℕ
  | 0 => first
  | k + 1 => linkedPacket input (link input first k)

/-- The place in the input of a bit of the stream. -/
def place (input : XmaBytes) (first position : ℕ) : ℕ :=
  link input first (position / payloadBits) * kBitsPerPacket + 32 + position % payloadBits

/-- A bit of the stream. -/
def streamBit (input : XmaBytes) (first position : ℕ) : Bool :=
  bitAt input (place input first position)

/-- Where the `i`th frame begins in the stream. -/
def start (lead : ℕ) (frames : List (List Bool)) (i : ℕ) : ℕ :=
  lead + ((frames.take i).map List.length).sum

/-- The offset in the header of the `k`th linked packet is that of the first frame that
starts in it, or outside the packet. -/
def OffsetOfFirst (input : XmaBytes) (first lead : ℕ) (frames : List (List Bool)) (k : ℕ) : Prop :=
  let offset := (headerAt input (link input first k)).firstFrameOffsetBits.toNat
  (∃ i < frames.length, start lead frames i / payloadBits = k ∧
    (∀ j < i, start lead frames j / payloadBits ≠ k) ∧
    offset = 32 + start lead frames i % payloadBits) ∨
  (∀ i < frames.length, start lead frames i / payloadBits ≠ k) ∧ kBitsPerPacket ≤ offset

/-- Frames in the stream of the input, `lead` bits behind its beginning: each begins with
its length and ends in a bit that says whether another frame starts in the packet where it
ends.  The offsets are those of the packets behind the one the first frame starts in. -/
structure Carries (input : XmaBytes) (first lead : ℕ) (frames : List (List Bool)) : Prop where
  inside : ∀ i f, frames[i]? = some f → ∀ j < f.length,
    link input first ((start lead frames i + j) / payloadBits) < packetCount input
  bits : ∀ i f, frames[i]? = some f → ∀ j < f.length,
    streamBit input first (start lead frames i + j) = f.getD j false
  lengths : ∀ f ∈ frames, 16 ≤ f.length ∧ f.length < kMaxFrameBits ∧
    number (f.take 15) = f.length
  follows : ∀ i f, frames[i]? = some f →
    f.getD (f.length - 1) false =
      decide (i + 1 < frames.length ∧ start lead frames (i + 1) / payloadBits =
        (start lead frames (i + 1) - 1) / payloadBits)
  offsets : ∀ k, lead / payloadBits < k → link input first k < packetCount input →
    OffsetOfFirst input first lead frames k

/-- A well-formed packet sequence: whole packets that carry frames, with the offset in
every header. -/
structure WellFormed (input : XmaBytes) (first lead : ℕ) (frames : List (List Bool)) : Prop where
  whole : input.length = packetCount input * kXmaPacketBytes
  carries : Carries input first lead frames
  headers : ∀ k, link input first k < packetCount input →
    OffsetOfFirst input first lead frames k

/-- The 15 bits that lie next to each other in the input, from a place on, are a length. -/
def LengthAt (input : XmaBytes) (offset size : ℕ) : Prop :=
  offset + 15 ≤ input.length * 8 ∧
    number ((List.range 15).map fun j => bitAt input (offset + j)) = size

/-- The length of the frame can be read where the code reads it. -/
def LengthReadable (input : XmaBytes) (first lead : ℕ) (frames : List (List Bool)) (i : ℕ) : Prop :=
  ∀ f, frames[i]? = some f → LengthAt input (place input first (start lead frames i)) f.length

variable {input : XmaBytes} {first lead : ℕ} {frames : List (List Bool)} {f : List Bool}

/-! ### Places -/

theorem payloadBits_eq : payloadBits = 16352 := rfl

theorem kBitsPerPacket_eq : kBitsPerPacket = 16384 := rfl

/-- Inside a packet the stream is the input. -/
theorem place_add {position i : ℕ} (h : position % payloadBits + i < payloadBits) :
    place input first (position + i) = place input first position + i := by
  rw [payloadBits_eq] at h
  have hdiv : (position + i) / 16352 = position / 16352 := by omega
  have hmod : (position + i) % 16352 = position % 16352 + i := by omega
  rw [place, place, payloadBits_eq, hdiv, hmod, Nat.add_assoc _ _ i]

theorem place_bounds (input : XmaBytes) (first position : ℕ) :
    link input first (position / payloadBits) * kBitsPerPacket + 32 ≤
        place input first position ∧
      place input first position <
        (link input first (position / payloadBits) + 1) * kBitsPerPacket := by
  have hmod := Nat.mod_lt position (show 0 < payloadBits by decide)
  rw [place, kBitsPerPacket_eq]
  rw [payloadBits_eq] at hmod ⊢
  omega

theorem place_lt_input {position : ℕ}
    (h : link input first (position / payloadBits) < packetCount input) :
    place input first position < input.length * 8 := by
  have hbounds := (place_bounds input first position).2
  rw [packetCount] at h
  rw [kBitsPerPacket_eq] at hbounds
  simp only [kXmaPacketBytes] at h
  omega

/-- The packet of a place. -/
theorem place_div (input : XmaBytes) (first position : ℕ) :
    place input first position / kBitsPerPacket = link input first (position / payloadBits) := by
  have hbounds := place_bounds input first position
  rw [kBitsPerPacket_eq] at hbounds ⊢
  omega

/-! ### Bits that are read and copied -/

theorem readBit_eq {data : XmaBytes} {offset : ℕ} (h : offset < data.length * 8) :
    readBit data offset = some (bitAt data offset) := by
  rw [readBit, if_neg (by omega)]

theorem readBits_eq {data : XmaBytes} {offset count : ℕ} (hcount : count ≤ 32)
    (h : offset + count ≤ data.length * 8) :
    readBits data offset count =
      some (number ((List.range count).map fun i => bitAt data (offset + i))) := by
  rw [readBits, if_neg (by omega)]
  have hrun : ∀ n ≤ count, (List.range n).foldlM (fun out i =>
      (readBit data (offset + i)).map fun bit => out <<< 1 ||| bit.toNat) 0 =
        some (number ((List.range n).map fun i => bitAt data (offset + i))) := by
    intro n hn
    induction n with
    | zero => rfl
    | succ n ih =>
      rw [List.range_succ, List.foldlM_append, ih (by omega), List.map_append, List.map_singleton,
        number_concat]
      change ((readBit data (offset + n)).map fun bit => _ <<< 1 ||| bit.toNat).bind some = _
      rw [readBit_eq (by omega)]
      rfl
  exact hrun count le_rfl

theorem readBits_iff {offset size : ℕ} :
    readBits input offset 15 = some size ↔ LengthAt input offset size := by
  by_cases h : offset + 15 ≤ input.length * 8
  · rw [readBits_eq (by decide) h, Option.some.injEq]
    exact (and_iff_right h).symm
  · have hguard : 32 < 15 ∨ input.length * 8 < offset + 15 := .inr (not_le.mp h)
    rw [readBits, if_pos hguard]
    exact iff_of_false (Option.some_ne_none size).symm fun hat => h hat.1

theorem appendBit_eq {data : XmaBytes} {offset : ℕ} (h : offset < 8 * data.length) (bit : Bool) :
    appendBit data offset bit = orBit data offset bit := by
  rw [appendBit, if_neg (by omega)]

/-- **What is copied**: the bits of the source, behind those that were there. -/
theorem copyBits_eq {packed : XmaBytes} {sourceBit copied take : ℕ}
    (hsource : sourceBit + take ≤ input.length * 8) (hpacked : copied + take ≤ 8 * packed.length) :
    ∃ packed', copyBits input sourceBit copied take packed = some packed' ∧
      packed'.length = packed.length ∧
      ∀ j, bitAt packed' j = (bitAt packed j ||
        (decide (copied ≤ j ∧ j < copied + take) && bitAt input (sourceBit + (j - copied)))) := by
  induction take generalizing sourceBit copied packed with
  | zero =>
    refine ⟨packed, rfl, rfl, fun j => ?_⟩
    rw [decide_eq_false (by omega), Bool.false_and, Bool.or_false]
  | succ take ih =>
    have hlength : (appendBit packed copied (bitAt input sourceBit)).length = packed.length := by
      rw [appendBit_eq (by omega), length_orBit]
    obtain ⟨packed', hrun, hlength', hbits⟩ :
        ∃ packed', copyBits input (sourceBit + 1) (copied + 1) take
          (appendBit packed copied (bitAt input sourceBit)) = some packed' ∧ _ ∧ ∀ j, _ :=
      ih (by omega) (by omega)
    refine ⟨packed', ?_, hlength'.trans hlength, fun j => ?_⟩
    · rw [copyBits, readBit_eq (by omega)]
      exact hrun
    · rw [hbits, appendBit_eq (by omega), bitAt_orBit (by omega), Bool.or_assoc]
      congr 1
      by_cases hj : j = copied
      · rw [hj, decide_eq_true rfl, decide_eq_false (by omega), decide_eq_true (by omega),
          Nat.sub_self, Bool.false_and, Bool.or_false]
        rfl
      · rw [decide_eq_false hj, Bool.false_and, Bool.false_or]
        by_cases hrange : copied + 1 ≤ j ∧ j < copied + 1 + take
        · rw [decide_eq_true hrange, decide_eq_true (by omega),
            show sourceBit + 1 + (j - (copied + 1)) = sourceBit + (j - copied) by omega]
        · rw [decide_eq_false hrange, decide_eq_false (by omega), Bool.false_and, Bool.false_and]

/-! ### Gathering a frame -/

/-- A round of the loop, in a packet of the input and behind its header. -/
theorem gatherLoop_step {frameBits sourceBit copied packetIndex : ℕ} {packed : XmaBytes}
    (hpacket : packetIndex < packetCount input)
    (hsource : packetIndex * kBitsPerPacket + 32 ≤ sourceBit) :
    gatherLoop input frameBits sourceBit copied packetIndex packed =
      match copyBits input sourceBit copied (min (frameBits - copied)
        (packetIndex * kBitsPerPacket + kBitsPerPacket - sourceBit)) packed with
      | none => none
      | some packed =>
        if copied + min (frameBits - copied)
            (packetIndex * kBitsPerPacket + kBitsPerPacket - sourceBit) = frameBits then
          some (packed, packetIndex, sourceBit + min (frameBits - copied)
            (packetIndex * kBitsPerPacket + kBitsPerPacket - sourceBit))
        else if input.length < (linkedPacket input packetIndex + 1) * kXmaPacketBytes then none
        else gatherLoop input frameBits (linkedPacket input packetIndex * kBitsPerPacket + 32)
          (copied + min (frameBits - copied)
            (packetIndex * kBitsPerPacket + kBitsPerPacket - sourceBit))
          (linkedPacket input packetIndex) packed := by
  have hinput : ¬ input.length < (packetIndex + 1) * kXmaPacketBytes := by
    rw [packetCount] at hpacket
    simp only [kXmaPacketBytes] at hpacket ⊢
    omega
  have hheader : ¬ sourceBit < packetIndex * kBitsPerPacket + 32 := not_lt.mpr hsource
  rw [gatherLoop, if_neg hinput]
  simp only [if_neg hheader] <;> rfl

/-- **The loop copies the stream**: from any bit of a frame on, it goes on to its end. -/
theorem gatherLoop_eq {size position : ℕ}
    (hinside : ∀ j < size, link input first ((position + j) / payloadBits) < packetCount input) :
    ∀ {copied : ℕ} {packed : XmaBytes}, copied < size → packed.length = (size + 7) / 8 →
      (∀ j, bitAt packed j = (decide (j < copied) && streamBit input first (position + j))) →
      ∃ packed', gatherLoop input size (place input first (position + copied)) copied
          (link input first ((position + copied) / payloadBits)) packed =
            some (packed', link input first ((position + size - 1) / payloadBits),
              place input first (position + size - 1) + 1) ∧
        packed'.length = (size + 7) / 8 ∧
        ∀ j, bitAt packed' j = (decide (j < size) && streamBit input first (position + j)) := by
  intro copied packed hcopied hlength hbits
  obtain ⟨n, hn⟩ : ∃ n, n = size - copied := ⟨_, rfl⟩
  induction n using Nat.strong_induction_on generalizing copied packed with
  | _ n ih =>
    have hpacket := hinside copied hcopied
    have hplace := place_bounds input first (position + copied)
    have hmod := Nat.mod_lt (position + copied) (show 0 < payloadBits by decide)
    obtain ⟨p, hp⟩ : ∃ p, p = link input first ((position + copied) / payloadBits) := ⟨_, rfl⟩
    obtain ⟨room, hroom⟩ : ∃ room, room = payloadBits - (position + copied) % payloadBits :=
      ⟨_, rfl⟩
    have hrest : p * kBitsPerPacket + kBitsPerPacket - place input first (position + copied) =
        room := by
      rw [place, ← hp, hroom, payloadBits_eq, kBitsPerPacket_eq]
      rw [payloadBits_eq] at hmod
      omega
    obtain ⟨take, htake⟩ : ∃ take, take = min (size - copied) room := ⟨_, rfl⟩
    -- The bits that are copied lie in this packet.
    have hcopy : ∀ i < take, place input first (position + copied + i) =
        place input first (position + copied) + i :=
      fun i hi => place_add (by omega)
    have hinput : place input first (position + copied) + take ≤ input.length * 8 := by
      have hlast := hcopy (take - 1) (by omega)
      have hlink := hinside (copied + (take - 1)) (by omega)
      rw [← Nat.add_assoc] at hlink
      have hlt := place_lt_input hlink
      omega
    obtain ⟨packed', hrun, hlength', hbits'⟩ := copyBits_eq hinput
      (show copied + take ≤ 8 * packed.length by omega)
    have hstream : ∀ j, bitAt packed' j =
        (decide (j < copied + take) && streamBit input first (position + j)) := by
      intro j
      rw [hbits', hbits]
      by_cases hold : j < copied
      · rw [decide_eq_true hold, decide_eq_true (show j < copied + take by omega),
          decide_eq_false (by omega), Bool.false_and, Bool.or_false]
      · rw [decide_eq_false hold, Bool.false_and, Bool.false_or]
        by_cases hnew : j < copied + take
        · rw [decide_eq_true (show copied ≤ j ∧ j < copied + take by omega),
            decide_eq_true hnew, streamBit, ← hcopy (j - copied) (by omega),
            show position + copied + (j - copied) = position + j by omega]
        · rw [decide_eq_false (by omega), decide_eq_false hnew, Bool.false_and, Bool.false_and]
    rw [← hp] at hpacket hplace ⊢
    rw [gatherLoop_step hpacket hplace.1, hrest, ← htake, hrun]
    by_cases hdone : copied + take = size
    · refine ⟨packed', ?_, hlength'.trans hlength, hdone ▸ hstream⟩
      have hlast : position + size - 1 = position + copied + (take - 1) := by omega
      have hdiv : (position + copied + (take - 1)) / payloadBits =
          (position + copied) / payloadBits := by
        rw [payloadBits_eq] at hmod hroom ⊢
        omega
      change (if copied + take = size then _ else _) = _
      have hone : take - 1 + 1 = take := by omega
      rw [if_pos hdone, hlast, hdiv, ← hp, hcopy (take - 1) (by omega), Nat.add_assoc, hone]
    · -- The packet is used up, and the stream goes on in the linked one.
      have hnext : (position + (copied + take)) / payloadBits =
          (position + copied) / payloadBits + 1 ∧
            (position + (copied + take)) % payloadBits = 0 := by
        rw [payloadBits_eq] at hmod hroom ⊢
        omega
      have hlink : link input first ((position + (copied + take)) / payloadBits) =
          linkedPacket input p := by
        rw [hnext.1, link, ← hp]
      have hgo : linkedPacket input p * kBitsPerPacket + 32 =
          place input first (position + (copied + take)) := by
        rw [place, hlink, hnext.2]
      have hinside' := hinside (copied + take) (by omega)
      rw [hlink] at hinside'
      have hfits : ¬ input.length < (linkedPacket input p + 1) * kXmaPacketBytes := by
        rw [packetCount] at hinside'
        simp only [kXmaPacketBytes] at hinside' ⊢
        omega
      change ∃ packed'', (if copied + take = size then _ else _) = _ ∧ _
      rw [if_neg hdone, if_neg hfits, hgo, ← hlink]
      exact ih (size - (copied + take)) (by omega) (by omega) (hlength'.trans hlength) hstream rfl

/-- The frame that is handed to the codec has these bits, and zeros behind them. -/
structure Holds (frame : GatheredFrame) (bits : List Bool) : Prop where
  size : frame.frameBits = bits.length
  length : frame.packedBits.length = (bits.length + 7) / 8
  bit : ∀ j, bitAt frame.packedBits j = bits.getD j false

/-- The bits of a frame lie in the stream from a position on. -/
structure LiesAt (input : XmaBytes) (first position : ℕ) (f : List Bool) : Prop where
  inside : ∀ j < f.length, link input first ((position + j) / payloadBits) < packetCount input
  bits : ∀ j < f.length, streamBit input first (position + j) = f.getD j false
  size : 16 ≤ f.length ∧ f.length < kMaxFrameBits

theorem Carries.liesAt (h : Carries input first lead frames) {i : ℕ} (hi : frames[i]? = some f) :
    LiesAt input first (start lead frames i) f := by
  have hlength := h.lengths f (List.mem_of_getElem? hi)
  exact ⟨h.inside i f hi, h.bits i f hi, hlength.1, hlength.2.1⟩

theorem gatherFrame_frameBits {startBit : ℕ} {frame : GatheredFrame}
    (h : gatherFrame input startBit = some frame) :
    readBits input startBit 15 = some frame.frameBits := by
  rw [gatherFrame] at h
  split at h
  · cases h
  · cases hread : readBits input startBit 15 with
    | none =>
      rw [hread] at h
      cases h
    | some frameBits =>
      rw [hread] at h
      change (if frameBits < 16 ∨ kMaxFrameBits ≤ frameBits then none else _) = _ at h
      split at h
      · cases h
      · split at h
        · cases h
        · rw [← Option.some.inj h]

/-- **A frame is gathered as it is** when its length is read right, wherever packets end in
it; and what is said to follow is its last bit. -/
theorem gatherFrame_eq {position : ℕ} (h : LiesAt input first position f)
    (hread : readBits input (place input first position) 15 = some f.length) :
    ∃ frame, gatherFrame input (place input first position) = some frame ∧ Holds frame f ∧
      frame.finalPacket = link input first ((position + f.length - 1) / payloadBits) ∧
      frame.finalSourceBit = place input first (position + f.length - 1) + 1 ∧
      frame.followsInPacket = f.getD (f.length - 1) false := by
  obtain ⟨hmin, hmax⟩ := h.size
  have hpacket := h.inside 0 (by omega)
  have hplace := place_lt_input hpacket
  obtain ⟨packed, hrun, hlength, hbits⟩ := gatherLoop_eq h.inside
    (show 0 < f.length by omega) (List.length_replicate (n := (f.length + 7) / 8))
    (fun j => by rw [bitAt_replicate_zero, decide_eq_false (Nat.not_lt_zero j), Bool.false_and])
  have hbit : ∀ j, bitAt packed j = f.getD j false := by
    intro j
    rw [hbits]
    by_cases hj : j < f.length
    · rw [decide_eq_true hj, Bool.true_and, h.bits j hj]
    · rw [decide_eq_false hj, Bool.false_and, List.getD_eq_default _ _ (not_lt.mp hj)]
  have hguard : ¬ (input.length < kXmaPacketBytes ∨
      input.length * 8 ≤ place input first position) := by
    rw [packetCount] at hpacket
    simp only [kXmaPacketBytes] at hpacket ⊢
    rw [Nat.add_zero] at hplace
    omega
  have hsize : ¬ (f.length < 16 ∨ kMaxFrameBits ≤ f.length) := by omega
  have hlast : readBit packed (f.length - 1) = some (f.getD (f.length - 1) false) := by
    rw [readBit_eq (by omega), hbit]
  rw [Nat.add_zero] at hrun
  refine ⟨⟨packed, f.length, _, _, (readBit packed (f.length - 1)).getD false⟩, ?_,
    ⟨rfl, hlength, hbit⟩, rfl, rfl, ?_⟩
  · rw [gatherFrame, if_neg hguard, hread]
    change (if f.length < 16 ∨ kMaxFrameBits ≤ f.length then none else _) = _
    rw [if_neg hsize, place_div, hrun]
  · change (readBit packed (f.length - 1)).getD false = _
    rw [hlast]
    rfl

/-- **A frame is gathered exactly when its length is read right.** -/
theorem gatherFrame_iff {position : ℕ} (h : LiesAt input first position f) :
    (∃ frame, gatherFrame input (place input first position) = some frame ∧ Holds frame f) ↔
      readBits input (place input first position) 15 = some f.length := by
  constructor
  · rintro ⟨frame, hframe, hholds⟩
    rw [gatherFrame_frameBits hframe, hholds.size]
  · intro hread
    obtain ⟨frame, hframe, hholds, -⟩ := gatherFrame_eq h hread
    exact ⟨frame, hframe, hholds⟩

/-- The length is read right when no packet ends in it. -/
theorem LiesAt.lengthAt {position : ℕ} (h : LiesAt input first position f)
    (hnumber : number (f.take 15) = f.length) (hroom : position % payloadBits + 15 ≤ payloadBits) :
    LengthAt input (place input first position) f.length := by
  obtain ⟨hmin, -⟩ := h.size
  have hplaces : ∀ i < 15, place input first (position + i) = place input first position + i :=
    fun i hi => place_add (by omega)
  have hlast := place_lt_input (h.inside 14 (by omega))
  rw [hplaces 14 (by decide)] at hlast
  refine ⟨by omega, ?_⟩
  have hbits : (List.range 15).map (fun i => bitAt input (place input first position + i)) =
      f.take 15 := by
    refine List.ext_getElem (by simp; omega) fun i hi hi' => ?_
    have hi15 : i < 15 := by simpa using hi
    rw [List.getElem_map, List.getElem_range, List.getElem_take, ← hplaces i hi15]
    have hbit := h.bits i (by omega)
    rw [List.getD_eq_getElem _ _ (by omega)] at hbit
    exact hbit
  rw [hbits, hnumber]

/-! ### Arbitrary bytes -/

/-- A frame of the input: its size, its bytes, and where it ends. -/
structure Within (input : XmaBytes) (frame : GatheredFrame) : Prop where
  size : 16 ≤ frame.frameBits ∧ frame.frameBits < kMaxFrameBits
  length : frame.packedBits.length = (frame.frameBits + 7) / 8
  packet : frame.finalPacket < packetCount input
  bit : frame.finalSourceBit ≤ (frame.finalPacket + 1) * kBitsPerPacket

theorem length_copyBits {packed packed' : XmaBytes} {sourceBit copied take : ℕ}
    (hroom : copied + take ≤ 8 * packed.length)
    (h : copyBits input sourceBit copied take packed = some packed') :
    packed'.length = packed.length := by
  induction take generalizing sourceBit copied packed with
  | zero => rw [← Option.some.inj h]
  | succ take ih =>
    rw [copyBits] at h
    cases hbit : readBit input sourceBit with
    | none =>
      rw [hbit] at h
      cases h
    | some bit =>
      rw [hbit] at h
      have hlength : (appendBit packed copied bit).length = packed.length := by
        rw [appendBit_eq (by omega), length_orBit]
      rw [← hlength]
      exact ih (by omega) h

/-- The loop ends in a packet of the input. -/
theorem gatherLoop_within {frameBits sourceBit copied packetIndex : ℕ}
    {packed packed' : XmaBytes} {finalPacket finalSourceBit : ℕ}
    (hcopied : copied ≤ frameBits) (hroom : frameBits ≤ 8 * packed.length)
    (hsource : sourceBit ≤ (packetIndex + 1) * kBitsPerPacket)
    (h : gatherLoop input frameBits sourceBit copied packetIndex packed =
      some (packed', finalPacket, finalSourceBit)) :
    packed'.length = packed.length ∧ finalPacket < packetCount input ∧
      finalSourceBit ≤ (finalPacket + 1) * kBitsPerPacket := by
  obtain ⟨n, hn⟩ : ∃ n, n = input.length - packetIndex := ⟨_, rfl⟩
  induction n using Nat.strong_induction_on generalizing sourceBit copied packetIndex packed with
  | _ n ih =>
    rw [gatherLoop] at h
    by_cases hinput : input.length < (packetIndex + 1) * kXmaPacketBytes
    · rw [if_pos hinput] at h
      cases h
    rw [if_neg hinput] at h
    have hlt := lt_linkedPacket input packetIndex
    obtain ⟨source, hsrc⟩ : ∃ source, source = if sourceBit < packetIndex * kBitsPerPacket + 32 then
      packetIndex * kBitsPerPacket + 32 else sourceBit := ⟨_, rfl⟩
    have hle : source ≤ (packetIndex + 1) * kBitsPerPacket := by
      rw [hsrc]
      split
      · rw [kBitsPerPacket_eq]
        omega
      · exact hsource
    simp only [← hsrc] at h
    obtain ⟨take, htake⟩ : ∃ take, take = min (frameBits - copied)
      (packetIndex * kBitsPerPacket + kBitsPerPacket - source) := ⟨_, rfl⟩
    have htakes : copied + take ≤ frameBits := by omega
    have hend : source + take ≤ (packetIndex + 1) * kBitsPerPacket := by
      rw [kBitsPerPacket_eq] at hle htake ⊢
      omega
    rw [← htake] at h
    cases hcopy : copyBits input source copied take packed with
    | none =>
      rw [hcopy] at h
      cases h
    | some copy =>
      rw [hcopy] at h
      have hlength := length_copyBits (htakes.trans hroom) hcopy
      change (if copied + take = frameBits then _ else _) = _ at h
      by_cases hdone : copied + take = frameBits
      · rw [if_pos hdone] at h
        cases h
        refine ⟨hlength, ?_, hend⟩
        rw [packetCount]
        simp only [kXmaPacketBytes] at hinput ⊢
        omega
      · rw [if_neg hdone] at h
        by_cases hnext : input.length < (linkedPacket input packetIndex + 1) * kXmaPacketBytes
        · rw [if_pos hnext] at h
          cases h
        · rw [if_neg hnext] at h
          rw [← hlength] at hroom ⊢
          refine ih _ ?_ htakes hroom ?_ h rfl
          · simp only [kXmaPacketBytes] at hnext
            omega
          · rw [kBitsPerPacket_eq]
            omega

/-- **Whatever the bytes are**, a frame that is gathered is one of the input. -/
theorem gatherFrame_within {startBit : ℕ} {frame : GatheredFrame}
    (h : gatherFrame input startBit = some frame) : Within input frame := by
  have hread := gatherFrame_frameBits h
  rw [gatherFrame, hread] at h
  split at h
  · cases h
  · change (if frame.frameBits < 16 ∨ kMaxFrameBits ≤ frame.frameBits then none else _) = _ at h
    by_cases hsize : frame.frameBits < 16 ∨ kMaxFrameBits ≤ frame.frameBits
    · rw [if_pos hsize] at h
      cases h
    · rw [if_neg hsize] at h
      obtain ⟨packed, hpacked⟩ : ∃ packed : XmaBytes,
        packed = List.replicate ((frame.frameBits + 7) / 8) 0 := ⟨_, rfl⟩
      have hlength : packed.length = (frame.frameBits + 7) / 8 := by
        rw [hpacked, List.length_replicate]
      rw [← hpacked] at h
      cases hrun : gatherLoop input frame.frameBits startBit 0 (startBit / kBitsPerPacket) packed with
      | none =>
        rw [hrun] at h
        cases h
      | some result =>
        obtain ⟨packed', finalPacket, finalSourceBit⟩ := result
        rw [hrun] at h
        obtain ⟨hlength', hpacket, hbit⟩ := gatherLoop_within (Nat.zero_le _)
          (show frame.frameBits ≤ 8 * packed.length by omega)
          (by rw [kBitsPerPacket_eq]; omega) hrun
        have hframe := Option.some.inj h
        rw [not_or, not_lt, not_le] at hsize
        refine ⟨hsize, ?_, ?_, ?_⟩
        · rw [← hlength, ← hlength', ← hframe]
        · rw [← hframe]
          exact hpacket
        · rw [← hframe]
          exact hbit

end Audio
end XenonRecomp
