/-
# The walk from frame to frame

What a pass stores denotes the start of the next frame: in the same buffer, or, with the
buffer used up, at its place in the other one.  A well-formed sequence stays one when its
first frame is taken off, when it is counted from a later packet, and when the packets in
front of that packet are gone, so that from the first frame on every frame is gathered
once and in order.
-/

import XenonRecomp.Audio.XmaFrames

namespace XenonRecomp
namespace Audio

open Library.BitString

variable {input u v : XmaBytes} {first lead m a : ℕ} {frames fs : List (List Bool)}
  {f : List Bool}

/-! ### Without the first frame -/

@[simp] theorem start_zero (lead : ℕ) (frames : List (List Bool)) : start lead frames 0 = lead := rfl

theorem start_succ (lead : ℕ) (f : List Bool) (fs : List (List Bool)) (i : ℕ) :
    start lead (f :: fs) (i + 1) = start (lead + f.length) fs i := by
  rw [start, start, List.take_succ_cons, List.map_cons, List.sum_cons, Nat.add_assoc]

theorem OffsetOfFirst.tail {k : ℕ} (h : OffsetOfFirst input first lead (f :: fs) k)
    (hk : lead / payloadBits ≠ k) : OffsetOfFirst input first (lead + f.length) fs k := by
  rcases h with ⟨i, hi, hstart, hbefore, hoffset⟩ | ⟨hnone, hoffset⟩
  · cases i with
    | zero => exact absurd hstart hk
    | succ i =>
      rw [start_succ] at hstart hoffset
      refine .inl ⟨i, Nat.lt_of_succ_lt_succ hi, hstart, fun j hj => ?_, hoffset⟩
      have hne := hbefore (j + 1) (Nat.succ_lt_succ hj)
      rwa [start_succ] at hne
  · refine .inr ⟨fun i hi => ?_, hoffset⟩
    have hne := hnone (i + 1) (Nat.succ_lt_succ hi)
    rwa [start_succ] at hne

/-- The frames behind the first one are carried too. -/
theorem Carries.tail (h : Carries input first lead (f :: fs)) :
    Carries input first (lead + f.length) fs where
  inside i g hi := by
    have hinside := h.inside (i + 1) g hi
    rwa [start_succ] at hinside
  bits i g hi := by
    have hbits := h.bits (i + 1) g hi
    rwa [start_succ] at hbits
  lengths g hg := h.lengths g (List.mem_cons_of_mem f hg)
  follows i g hi := by
    have hfollows := h.follows (i + 1) g hi
    rw [start_succ, List.length_cons] at hfollows
    rw [hfollows, decide_eq_decide]
    omega
  offsets k hk hpacket := by
    have hlt : lead / payloadBits < k := by
      rw [payloadBits_eq] at hk ⊢
      omega
    exact (h.offsets k hlt hpacket).tail hlt.ne

/-! ### Counted from a later packet -/

theorem link_add (input : XmaBytes) (first a b : ℕ) :
    link input (link input first a) b = link input first (a + b) := by
  induction b with
  | zero => rfl
  | succ b ih => rw [link, ih, Nat.add_succ, link]

/-- A link leads forward. -/
theorem le_link (input : XmaBytes) (first k : ℕ) : first + k ≤ link input first k := by
  induction k with
  | zero => exact le_rfl
  | succ k ih =>
    have hlt := lt_linkedPacket input (link input first k)
    rw [link]
    omega

theorem div_shift (a q : ℕ) : (a * payloadBits + q) / payloadBits = a + q / payloadBits := by
  rw [payloadBits_eq]
  omega

theorem place_shift (input : XmaBytes) (first a q : ℕ) :
    place input first (a * payloadBits + q) = place input (link input first a) q := by
  have hmod : (a * payloadBits + q) % payloadBits = q % payloadBits := by
    rw [payloadBits_eq]
    omega
  rw [place, place, div_shift, link_add, hmod]

theorem start_shift (a q : ℕ) (frames : List (List Bool)) (i : ℕ) :
    start (a * payloadBits + q) frames i = a * payloadBits + start q frames i :=
  Nat.add_assoc _ _ _

theorem OffsetOfFirst.shift {q k : ℕ}
    (h : OffsetOfFirst input first (a * payloadBits + q) frames (a + k)) :
    OffsetOfFirst input (link input first a) q frames k := by
  have hmod : ∀ n, (a * payloadBits + n) % payloadBits = n % payloadBits := by
    intro n
    rw [payloadBits_eq]
    omega
  rw [OffsetOfFirst, ← link_add] at h
  simp only [start_shift, div_shift, hmod, Nat.add_left_cancel_iff, ne_eq] at h
  exact h

/-- A frame ends where the next one begins. -/
theorem start_next {i : ℕ} (hi : frames[i]? = some f) :
    start lead frames (i + 1) = start lead frames i + f.length := by
  rw [start, start, List.take_add_one, hi, List.map_append, List.sum_append, Nat.add_assoc]
  rfl

/-- Frames are carried by the stream that begins with a later packet. -/
theorem Carries.shift {q : ℕ} (h : Carries input first (a * payloadBits + q) frames) :
    Carries input (link input first a) q frames where
  inside i g hi j hj := by
    have hinside := h.inside i g hi j hj
    rwa [start_shift, Nat.add_assoc, div_shift, ← link_add] at hinside
  bits i g hi j hj := by
    have hbits := h.bits i g hi j hj
    rwa [start_shift, Nat.add_assoc, streamBit, place_shift] at hbits
  lengths := h.lengths
  follows i g hi := by
    have hpos : 16 ≤ start q frames (i + 1) := by
      have hlength := (h.lengths g (List.mem_of_getElem? hi)).1
      rw [start_next hi]
      omega
    have hlast : a * payloadBits + start q frames (i + 1) - 1 =
        a * payloadBits + (start q frames (i + 1) - 1) := by omega
    have hfollows := h.follows i g hi
    rw [start_shift, hlast, div_shift, div_shift] at hfollows
    simp only [Nat.add_left_cancel_iff] at hfollows
    exact hfollows
  offsets k hk hpacket := by
    refine (h.offsets (a + k) ?_ ?_).shift
    · rw [div_shift]
      omega
    · rwa [← link_add]

/-! ### Without the packets in front -/

theorem headerAt_append (hu : u.length = m * kXmaPacketBytes) (p : ℕ) :
    headerAt (u ++ v) (m + p) = headerAt v p := by
  have hdrop : (m + p) * kXmaPacketBytes = u.length + p * kXmaPacketBytes := by
    rw [hu, Nat.add_mul]
  rw [headerAt, headerAt, hdrop, List.drop_append, List.drop_eq_nil_of_le (Nat.le_add_right _ _),
    List.nil_append, Nat.add_sub_cancel_left]

theorem link_append (hu : u.length = m * kXmaPacketBytes) (p k : ℕ) :
    link (u ++ v) (m + p) k = m + link v p k := by
  induction k with
  | zero => rfl
  | succ k ih =>
    rw [link, link, ih, linkedPacket, linkedPacket, headerAt_append hu]
    omega

theorem packetCount_append (hu : u.length = m * kXmaPacketBytes) :
    packetCount (u ++ v) = m + packetCount v := by
  rw [packetCount, packetCount, List.length_append, hu]
  simp only [kXmaPacketBytes]
  omega

theorem place_append (hu : u.length = m * kXmaPacketBytes) (p position : ℕ) :
    place (u ++ v) (m + p) position = 8 * u.length + place v p position := by
  rw [place, place, link_append hu, hu, kBitsPerPacket]
  simp only [kXmaPacketBytes]
  omega

theorem streamBit_append (hu : u.length = m * kXmaPacketBytes) (p position : ℕ) :
    streamBit (u ++ v) (m + p) position = streamBit v p position := by
  rw [streamBit, streamBit, place_append hu, bitAt_append_right]

/-- Frames in the packets of the second part are carried by that part. -/
theorem Carries.right (hu : u.length = m * kXmaPacketBytes) {p : ℕ}
    (h : Carries (u ++ v) (m + p) lead frames) : Carries v p lead frames where
  inside i g hi j hj := by
    have hinside := h.inside i g hi j hj
    rw [link_append hu, packetCount_append hu] at hinside
    exact Nat.lt_of_add_lt_add_left hinside
  bits i g hi j hj := by
    rw [← streamBit_append hu]
    exact h.bits i g hi j hj
  lengths := h.lengths
  follows := h.follows
  offsets k hk hpacket := by
    have hoffset := h.offsets k hk (by
      rw [link_append hu, packetCount_append hu]
      exact Nat.add_lt_add_left hpacket m)
    rw [OffsetOfFirst, link_append hu, headerAt_append hu] at hoffset
    exact hoffset

theorem readBits_append {offset count : ℕ} :
    readBits (u ++ v) (8 * u.length + offset) count = readBits v offset count := by
  have hguard : (32 < count ∨ (u ++ v).length * 8 < 8 * u.length + offset + count) ↔
      (32 < count ∨ v.length * 8 < offset + count) := by
    rw [List.length_append]
    omega
  have hbit : ∀ i, readBit (u ++ v) (8 * u.length + offset + i) = readBit v (offset + i) := by
    intro i
    have hinside : (u ++ v).length * 8 ≤ 8 * u.length + offset + i ↔
        v.length * 8 ≤ offset + i := by
      rw [List.length_append]
      omega
    rw [readBit, readBit, Nat.add_assoc, bitAt_append_right]
    rw [Nat.add_assoc] at hinside
    simp only [hinside]
  rw [readBits, readBits]
  simp only [hguard, hbit]

/-! ### Lengths that can be read -/

theorem LengthReadable.tail_iff {i : ℕ} :
    LengthReadable input first lead (f :: fs) (i + 1) ↔
      LengthReadable input first (lead + f.length) fs i := by
  rw [LengthReadable, LengthReadable, start_succ, List.getElem?_cons_succ]

theorem LengthReadable.shift_iff {q i : ℕ} :
    LengthReadable input first (a * payloadBits + q) frames i ↔
      LengthReadable input (link input first a) q frames i := by
  rw [LengthReadable, LengthReadable, start_shift, place_shift]

theorem LengthReadable.right_iff (hu : u.length = m * kXmaPacketBytes) {p i : ℕ} :
    LengthReadable (u ++ v) (m + p) lead frames i ↔ LengthReadable v p lead frames i := by
  simp only [LengthReadable, ← readBits_iff, place_append hu, readBits_append]

/-! ### The next frame -/

/-- Behind the last frame the headers point outside their packets. -/
theorem nextPacketFrameOffset_none {k : ℕ}
    (h : link input first k < packetCount input →
      kBitsPerPacket ≤ (headerAt input (link input first k)).firstFrameOffsetBits.toNat) :
    nextPacketFrameOffset input (link input first k) = input.length * 8 := by
  rw [nextPacketFrameOffset]
  split
  · rfl
  · have hpacket : link input first k < packetCount input := by
      rw [packetCount]
      simp only [kXmaPacketBytes] at *
      omega
    exact if_pos (h hpacket)

/-- A frame that begins a packet is where its header points. -/
theorem nextPacketFrameOffset_start {k : ℕ} (hpacket : link input first k < packetCount input)
    (hoffset : (headerAt input (link input first k)).firstFrameOffsetBits.toNat = 32) :
    nextPacketFrameOffset input (link input first k) = place input first (k * payloadBits) := by
  have hinput : ¬ input.length < (link input first k + 1) * kXmaPacketBytes := by
    rw [packetCount] at hpacket
    simp only [kXmaPacketBytes] at hpacket ⊢
    omega
  have hsmall : ¬ kBitsPerPacket ≤ 32 := by decide
  have hplace := place_shift input first k 0
  rw [Nat.add_zero] at hplace
  rw [nextPacketFrameOffset, if_neg hinput]
  simp only [hoffset, if_neg hsmall]
  rw [hplace, place, Nat.zero_div, Nat.zero_mod, link, Nat.add_zero]

/-- **Where the code goes on is the start of the next frame**, or the end of the input
behind the last one. -/
theorem nextFrameBit_eq (h : Carries input first lead (f :: fs)) {frame : GatheredFrame}
    (hpacket : frame.finalPacket = link input first ((lead + f.length - 1) / payloadBits))
    (hbit : frame.finalSourceBit = place input first (lead + f.length - 1) + 1)
    (hfollows : frame.followsInPacket = f.getD (f.length - 1) false) :
    nextFrameBit input frame =
      if fs = [] then input.length * 8 else place input first (lead + f.length) := by
  have hlength := (h.lengths f List.mem_cons_self).1
  have hlast := h.follows 0 f rfl
  rw [← hfollows, start_succ, start_zero, List.length_cons] at hlast
  obtain ⟨k, hk⟩ : ∃ k, k = (lead + f.length - 1) / payloadBits := ⟨_, rfl⟩
  have hlead : lead / payloadBits ≤ k := by
    rw [hk, payloadBits_eq]
    omega
  rw [← hk] at hpacket hlast
  have hlinked : linkedPacket input frame.finalPacket = link input first (k + 1) := by
    rw [hpacket, link]
  rw [nextFrameBit, hlinked, hbit, hpacket]
  cases fs with
  | nil =>
    have hno : frame.followsInPacket = false := by
      rw [hlast, decide_eq_false]
      exact fun hlt => absurd hlt.1 (lt_irrefl 1)
    rw [hno, if_neg fun hyes => Bool.false_ne_true hyes.1, if_pos rfl]
    refine nextPacketFrameOffset_none fun hin => ?_
    rcases h.offsets (k + 1) (Nat.lt_succ_of_le hlead) hin with ⟨i, hi, hstart, -⟩ | ⟨-, hout⟩
    · have hzero : i = 0 := Nat.lt_one_iff.mp hi
      rw [hzero, start_zero] at hstart
      omega
    · exact hout
  | cons g gs =>
    rw [if_neg (List.cons_ne_nil g gs)]
    by_cases hsame : (lead + f.length) / payloadBits = k
    · have hyes : frame.followsInPacket = true := by
        rw [hlast, decide_eq_true_eq, List.length_cons]
        exact ⟨by omega, hsame⟩
      have hstep : place input first (lead + f.length) =
          place input first (lead + f.length - 1) + 1 := by
        rw [← place_add, Nat.sub_add_cancel (by omega)]
        rw [payloadBits_eq] at hk hsame ⊢
        omega
      have hbounds := (place_bounds input first (lead + f.length)).2
      rw [hsame, hstep] at hbounds
      rw [if_pos ⟨hyes, hbounds⟩, hstep]
    · have hno : frame.followsInPacket = false := by
        rw [hlast, decide_eq_false]
        exact fun heq => hsame heq.2
      have hbegin : lead + f.length = (k + 1) * payloadBits := by
        rw [payloadBits_eq] at hk hsame ⊢
        omega
      have hdiv : (lead + f.length) / payloadBits = k + 1 := by
        rw [hbegin]
        exact Nat.mul_div_cancel _ (by decide)
      have hsecond : start lead (f :: g :: gs) 1 = lead + f.length := by
        rw [start_succ, start_zero]
      have hin := h.inside 1 g rfl 0 (by have hg := (h.lengths g (by simp)).1; omega)
      rw [hsecond, Nat.add_zero, hdiv] at hin
      rw [hno, if_neg fun hyes => Bool.false_ne_true hyes.1, hbegin]
      refine nextPacketFrameOffset_start hin ?_
      rcases h.offsets (k + 1) (Nat.lt_succ_of_le hlead) hin with
        ⟨i, hi, hstart, hbefore, hoffset⟩ | ⟨hnone, -⟩
      · have hone : i = 1 := by
          rcases Nat.lt_trichotomy i 1 with hlt | heq | hgt
          · rw [Nat.lt_one_iff.mp hlt, start_zero] at hstart
            omega
          · exact heq
          · exact absurd (hsecond ▸ hdiv) (hbefore 1 hgt)
        rw [hoffset, hone, hsecond, hbegin, Nat.mul_mod_left]
      · exact absurd (hsecond ▸ hdiv) (hnone 1 (by simp))

end Audio
end XenonRecomp
