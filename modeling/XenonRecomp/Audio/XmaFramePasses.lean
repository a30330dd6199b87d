/-
# Every frame once and in order

A context whose two buffers hold a well-formed sequence, with the offset at its first
frame, hands the frames to the codec one in each pass, and is without input behind the
last one, if and only if the code reads the length of every frame right.
-/

import XenonRecomp.Audio.XmaFrameWalk

namespace XenonRecomp
namespace Audio

open Library.BitString

/-- The passes of a context in each of which the codec takes a frame: the frames, and the
context behind them. -/
def framePasses (copy : PhysicalReader) :
    ℕ → XmaContextData → Option (List GatheredFrame × XmaContextData)
  | 0, data => some ([], data)
  | n + 1, data =>
    match inputPass copy data with
    | .decoded frame data => (framePasses copy n data).map fun run => (frame :: run.1, run.2)
    | _ => none

/-- A valid buffer, as it is copied. -/
structure BufferHolds (copy : PhysicalReader) (data : XmaContextData) (buffer : Bool)
    (bytes : XmaBytes) : Prop where
  valid : data.bufferValid buffer = true
  ptr : data.bufferPtr buffer ≠ 0
  packets : data.bufferPackets buffer ≠ 0
  field : (data.bufferPackets buffer).toNat < 4096
  read : readBuffer copy data buffer = some bytes
  length : bytes.length = (data.bufferPackets buffer).toNat * kXmaPacketBytes

/-- There is nothing in a buffer. -/
def NoInput (data : XmaContextData) (buffer : Bool) : Prop :=
  ¬ (data.bufferValid buffer ∧ data.bufferPtr buffer ≠ 0 ∧ data.bufferPackets buffer ≠ 0)

/-- The input of a context, divided between its buffers. -/
structure InputHolds (copy : PhysicalReader) (data : XmaContextData) (current next : XmaBytes) :
    Prop where
  current : BufferHolds copy data data.currentBuffer current
  next : BufferHolds copy data (!data.currentBuffer) next ∨
    NoInput data (!data.currentBuffer) ∧ next = []
  noLoop : data.loopCount = 0

/-- A context whose offset denotes the first of the frames in its input. -/
structure InputAt (copy : PhysicalReader) (data : XmaContextData) (current next : XmaBytes)
    (first lead : ℕ) (frames : List (List Bool)) : Prop where
  input : InputHolds copy data current next
  carries : Carries (current ++ next) first lead frames
  offset : data.inputBufferReadOffset.toNat = place (current ++ next) first lead
  here : place (current ++ next) first lead < current.length * 8

/-- There is nothing in either buffer. -/
def Spent (data : XmaContextData) : Prop := ∀ buffer, NoInput data buffer

variable {copy : PhysicalReader} {data : XmaContextData} {current next : XmaBytes}
  {first lead : ℕ} {f : List Bool} {fs : List (List Bool)} {buffer : Bool}

/-! ### Contexts -/

namespace XmaContextData

@[simp] theorem bufferValid_invalidate (d : XmaContextData) (b c : Bool) :
    (d.invalidate b).bufferValid c = (d.bufferValid c && (c != b)) := by
  cases b <;> cases c <;> simp [invalidate, bufferValid]

@[simp] theorem bufferPtr_invalidate (d : XmaContextData) (b c : Bool) :
    (d.invalidate b).bufferPtr c = d.bufferPtr c := by
  cases b <;> cases c <;> rfl

@[simp] theorem bufferPackets_invalidate (d : XmaContextData) (b c : Bool) :
    (d.invalidate b).bufferPackets c = d.bufferPackets c := by
  cases b <;> cases c <;> rfl

@[simp] theorem loopCount_invalidate (d : XmaContextData) (b : Bool) :
    (d.invalidate b).loopCount = d.loopCount := by
  cases b <;> rfl

@[simp] theorem bufferValid_moveTo (d : XmaContextData) (b c : Bool) (offset : BitVec 32) :
    (d.moveTo b offset).bufferValid c = d.bufferValid c := rfl

end XmaContextData

theorem noInput_invalidate (d : XmaContextData) (b : Bool) : NoInput (d.invalidate b) b := by
  simp [NoInput]

theorem NoInput.invalidate {d : XmaContextData} {c : Bool} (h : NoInput d c) (b : Bool) :
    NoInput (d.invalidate b) c := by
  rintro ⟨hvalid, hrest⟩
  rw [XmaContextData.bufferValid_invalidate, Bool.and_eq_true] at hvalid
  rw [XmaContextData.bufferPtr_invalidate, XmaContextData.bufferPackets_invalidate] at hrest
  exact h ⟨hvalid.1, hrest⟩

/-- What is held is a matter of the valid bit, the address and the count alone. -/
theorem BufferHolds.congr {d d' : XmaContextData} {bytes : XmaBytes}
    (h : BufferHolds copy d buffer bytes) (hvalid : d'.bufferValid buffer = d.bufferValid buffer)
    (hptr : d'.bufferPtr buffer = d.bufferPtr buffer)
    (hpackets : d'.bufferPackets buffer = d.bufferPackets buffer) :
    BufferHolds copy d' buffer bytes where
  valid := hvalid.trans h.valid
  ptr := by
    rw [hptr]
    exact h.ptr
  packets := by
    rw [hpackets]
    exact h.packets
  field := by
    rw [hpackets]
    exact h.field
  read := by
    rw [readBuffer, hptr, hpackets]
    exact h.read
  length := by
    rw [hpackets]
    exact h.length

/-- Without input no pass finds a frame. -/
theorem Spent.inputPass_ne (h : Spent data) (copy : PhysicalReader) (frame : GatheredFrame)
    (after : XmaContextData) : inputPass copy data ≠ .decoded frame after := by
  have hmoved : ∀ b offset, Spent (data.moveTo b offset) := fun b offset buffer => h buffer
  obtain ⟨d, hd, hspent⟩ : ∃ d, d = (if data.bufferValid data.currentBuffer then data
      else data.moveTo (!data.currentBuffer) 32) ∧ Spent d := by
    refine ⟨_, rfl, ?_⟩
    split
    · exact h
    · exact hmoved _ _
  rw [inputPass]
  split
  · exact InputPass.noConfusion
  · simp only [← hd]
    split
    · exact InputPass.noConfusion
    · next hvalid =>
      have hno := hspent d.currentBuffer
      rw [NoInput] at hno
      rw [if_pos]
      · exact InputPass.noConfusion
      · by_contra hor
        rw [not_or] at hor
        refine hno ⟨?_, hor⟩
        simpa using hvalid

/-! ### One pass -/

/-- The context of a frame, with the metadata of the packet where it starts. -/
def inPacket (data : XmaContextData) (input : XmaBytes) (startBit : ℕ) : XmaContextData :=
  { data with packetMetadata := (headerAt input (startBit / kBitsPerPacket)).metadata }

/-- A pass reads both buffers. -/
theorem InputHolds.inputPass_eq (h : InputHolds copy data current next) :
    inputPass copy data =
      decodeInput data data.currentBuffer current.length (current ++ next) := by
  have hvalid := h.current.valid
  have hsome : ¬ (!data.inputBuffer0Valid && !data.inputBuffer1Valid) = true := by
    rw [XmaContextData.bufferValid] at hvalid
    cases hb : data.currentBuffer <;> rw [hb] at hvalid <;> simp_all
  have hthere : ¬ (data.bufferPtr data.currentBuffer = 0 ∨
      data.bufferPackets data.currentBuffer = 0) :=
    not_or.mpr ⟨h.current.ptr, h.current.packets⟩
  have hnext : nextInput copy data (!data.currentBuffer) = some next := by
    rw [nextInput]
    rcases h.next with hbuffer | ⟨hno, hnil⟩
    · rw [if_pos ⟨hbuffer.valid, hbuffer.ptr, hbuffer.packets⟩]
      exact hbuffer.read
    · rw [if_neg hno, hnil]
  rw [inputPass, if_neg hsome]
  simp only [hvalid, if_true, Bool.not_true, Bool.false_eq_true, if_false, if_neg hthere,
    h.current.read, hnext]

theorem followLoop_of_zero (h : data.loopCount = 0) (startBit nextBit : ℕ) :
    followLoop data startBit nextBit = (nextBit, data) := by
  rw [followLoop]
  simp only [h, ne_eq, not_true_eq_false, false_and, or_self, if_false]

/-- A pass gathers the frame that the offset denotes. -/
theorem InputAt.inputPass_eq {frames : List (List Bool)}
    (h : InputAt copy data current next first lead frames) :
    inputPass copy data =
      match gatherFrame (current ++ next) (place (current ++ next) first lead) with
      | none => .failed
          { inPacket data (current ++ next) (place (current ++ next) first lead) with
            parserErrorStatus := 1
            parserErrorSet := true }
      | some frame => .decoded frame
          (storeNext (inPacket data (current ++ next) (place (current ++ next) first lead))
            data.currentBuffer current.length (current ++ next).length
            (nextFrameBit (current ++ next) frame)) := by
  obtain ⟨input, hinput⟩ : ∃ input, input = current ++ next := ⟨_, rfl⟩
  obtain ⟨startBit, hstart⟩ : ∃ startBit, startBit = place input first lead := ⟨_, rfl⟩
  have hbounds := (place_bounds input first lead).1
  have hmod : ¬ startBit % kBitsPerPacket = 0 := by
    have hlead := Nat.mod_lt lead (show 0 < payloadBits by decide)
    rw [hstart, place, kBitsPerPacket_eq]
    rw [payloadBits_eq] at hlead ⊢
    omega
  have hmax : max 32 data.inputBufferReadOffset.toNat = startBit := by
    rw [h.offset, ← hinput, ← hstart]
    exact max_eq_right (by omega)
  have hin : ¬ input.length * 8 ≤ startBit := by
    have hhere := h.here
    rw [← hinput, ← hstart] at hhere
    rw [hinput, List.length_append]
    omega
  rw [h.input.inputPass_eq, ← hinput, ← hstart, decodeInput]
  simp only [hmax, if_neg hmod, if_neg hin]
  cases gatherFrame input startBit with
  | none => rfl
  | some frame =>
    have hzero : (inPacket data input startBit).loopCount = 0 := h.input.noLoop
    have hloop := followLoop_of_zero hzero startBit (nextFrameBit input frame)
    change InputPass.decoded frame (storeNext
      (followLoop (inPacket data input startBit) startBit (nextFrameBit input frame)).2
      data.currentBuffer current.length input.length
      (followLoop (inPacket data input startBit) startBit (nextFrameBit input frame)).1) = _
    rw [hloop]

/-- The offset is stored as it is. -/
theorem toNat_readOffset {n : ℕ} (h : n < 2 ^ 26) :
    (BitVec.ofNat 32 n &&& 0x03FFFFFF).toNat = n := by
  have hmask : (0x03FFFFFF : BitVec 32).toNat = 2 ^ 26 - 1 := rfl
  rw [BitVec.toNat_and, hmask, Nat.and_two_pow_sub_one_eq_mod, BitVec.toNat_ofNat]
  omega

theorem BufferHolds.bits_lt {bytes : XmaBytes} (h : BufferHolds copy data buffer bytes) :
    bytes.length * 8 < 2 ^ 26 := by
  have hfield := h.field
  rw [h.length, kXmaPacketBytes]
  omega

/-- A context at the frames behind the first one, whose lengths can be read if they could
be before. -/
def AtRest (copy : PhysicalReader) (data : XmaContextData) (input : XmaBytes) (first lead : ℕ)
    (fs : List (List Bool)) : Prop :=
  ∃ current next first' lead', InputAt copy data current next first' lead' fs ∧
    ∀ i, LengthReadable (current ++ next) first' lead' fs i ↔ LengthReadable input first lead fs i

/-- A place in the second buffer, counted from there: its packet, and the bits in front. -/
theorem exists_right_place {position m : ℕ} (hu : current.length = m * kXmaPacketBytes)
    (hbehind : current.length * 8 ≤ place (current ++ next) first position) :
    ∃ p, link (current ++ next) first (position / payloadBits) = m + p ∧
      place (current ++ next) first position =
        8 * current.length + place next p (position % payloadBits) := by
  have hbounds := (place_bounds (current ++ next) first position).2
  have hle : m ≤ link (current ++ next) first (position / payloadBits) := by
    rw [hu] at hbehind
    simp only [kXmaPacketBytes, kBitsPerPacket] at hbehind hbounds
    omega
  obtain ⟨p, hp⟩ := Nat.exists_eq_add_of_le hle
  have hshift := place_shift (current ++ next) first (position / payloadBits)
    (position % payloadBits)
  have hdiv : position / payloadBits * payloadBits + position % payloadBits = position := by
    rw [Nat.mul_comm]
    exact Nat.div_add_mod _ _
  rw [hdiv, hp, place_append hu] at hshift
  exact ⟨p, hp, hshift⟩

/-- **What is stored denotes the next frame**, in the same buffer or in the other one. -/
theorem storeNext_atRest (h : InputAt copy data current next first lead (f :: fs)) (hfs : fs ≠ [])
    {startBit : ℕ} :
    AtRest copy (storeNext (inPacket data (current ++ next) startBit) data.currentBuffer
      current.length (current ++ next).length
      (place (current ++ next) first (lead + f.length))) (current ++ next) first
        (lead + f.length) fs := by
  obtain ⟨g, gs, rfl⟩ := List.exists_cons_of_ne_nil hfs
  have hcarries := h.carries.tail
  obtain ⟨position, hposition⟩ : ∃ position, position = lead + f.length := ⟨_, rfl⟩
  have hin := hcarries.inside 0 g rfl 0
    (by have hg := (hcarries.lengths g List.mem_cons_self).1; omega)
  rw [start_zero, Nat.add_zero] at hin
  have hplace := place_lt_input hin
  rw [← hposition] at hcarries hplace ⊢
  rw [storeNext, if_neg (not_le.mpr hplace)]
  have hlength := h.input.current.length
  by_cases hbehind : current.length * 8 ≤ place (current ++ next) first position
  · rw [if_pos hbehind]
    obtain ⟨p, hp, hright⟩ := exists_right_place hlength hbehind
    have hnext : BufferHolds copy data (!data.currentBuffer) next := by
      rcases h.input.next with hbuffer | ⟨-, hnil⟩
      · exact hbuffer
      · rw [hnil, List.append_nil] at hplace hbehind
        omega
    have hdiv : position / payloadBits * payloadBits + position % payloadBits = position := by
      rw [Nat.mul_comm]
      exact Nat.div_add_mod _ _
    rw [List.length_append] at hplace
    have hhere : place next p (position % payloadBits) < next.length * 8 := by omega
    have hoffset : place (current ++ next) first position - current.length * 8 =
        place next p (position % payloadBits) := by omega
    rw [← hdiv] at hcarries
    have hrest := hcarries.shift
    rw [hp] at hrest
    refine ⟨next, [], p, position % payloadBits, ⟨⟨?_, .inr ⟨?_, rfl⟩, ?_⟩, ?_, ?_, ?_⟩, fun i => ?_⟩
    · refine hnext.congr ?_ ?_ ?_
      · have hne : ((!data.currentBuffer) != data.currentBuffer) = true := by
          cases data.currentBuffer <;> rfl
        rw [XmaContextData.bufferValid_moveTo, XmaContextData.bufferValid_invalidate, hne,
          Bool.and_true]
        rfl
      · exact XmaContextData.bufferPtr_invalidate _ _ _
      · exact XmaContextData.bufferPackets_invalidate _ _ _
    · have hno := noInput_invalidate (inPacket data (current ++ next) startBit) data.currentBuffer
      change NoInput _ (!!data.currentBuffer)
      rw [Bool.not_not]
      exact hno
    · exact (XmaContextData.loopCount_invalidate _ _).trans h.input.noLoop
    · rw [List.append_nil]
      exact hrest.right hlength
    · rw [List.append_nil, hoffset]
      exact toNat_readOffset (hhere.trans hnext.bits_lt)
    · rw [List.append_nil]
      exact hhere
    · rw [List.append_nil, ← LengthReadable.right_iff hlength, ← hp, ← LengthReadable.shift_iff, hdiv]
  · rw [if_neg hbehind]
    refine ⟨current, next, first, position, ⟨⟨?_, ?_, h.input.noLoop⟩, hcarries, ?_, ?_⟩,
      fun i => Iff.rfl⟩
    · exact h.input.current.congr rfl rfl rfl
    · exact h.input.next.imp_left fun hnext => hnext.congr rfl rfl rfl
    · exact toNat_readOffset ((not_le.mp hbehind).trans h.input.current.bits_lt)
    · exact not_le.mp hbehind

/-- **Behind the last frame the input is used up.** -/
theorem storeNext_spent (h : InputHolds copy data current next) (input : XmaBytes)
    (startBit : ℕ) :
    Spent (storeNext (inPacket data input startBit) data.currentBuffer current.length
      (current ++ next).length ((current ++ next).length * 8)) := by
  rw [storeNext, if_pos le_rfl, List.length_append]
  intro buffer
  have hfirst := noInput_invalidate (inPacket data input startBit) data.currentBuffer
  by_cases hbuffer : buffer = data.currentBuffer
  · rw [hbuffer]
    split
    · exact hfirst.invalidate _
    · exact hfirst
  · have hother : buffer = !data.currentBuffer := Bool.eq_not_of_ne hbuffer
    rw [hother]
    split
    · exact noInput_invalidate _ _
    · next hshort =>
      rcases h.next with hnext | ⟨hno, -⟩
      · have hpackets : (data.bufferPackets (!data.currentBuffer)).toNat ≠ 0 :=
          fun hzero => hnext.packets (BitVec.eq_of_toNat_eq hzero)
        have hlength := hnext.length
        rw [kXmaPacketBytes] at hlength
        omega
      · have hsame : NoInput (inPacket data input startBit) (!data.currentBuffer) := hno
        exact hsame.invalidate _

/-- **A pass over a frame whose length can be read** hands it to the codec. -/
theorem InputAt.pass (h : InputAt copy data current next first lead (f :: fs))
    (hread : LengthReadable (current ++ next) first lead (f :: fs) 0) :
    ∃ frame after, inputPass copy data = .decoded frame after ∧ Holds frame f ∧
      (fs = [] → Spent after) ∧
      (fs ≠ [] → AtRest copy after (current ++ next) first (lead + f.length) fs) := by
  obtain ⟨frame, hgather, hholds, hpacket, hbit, hfollows⟩ :=
    gatherFrame_eq (h.carries.liesAt (i := 0) rfl) (readBits_iff.mpr (hread f rfl))
  rw [start_zero] at hgather hpacket hbit
  have hnext := nextFrameBit_eq h.carries hpacket hbit hfollows
  have hpass := h.inputPass_eq
  rw [hgather] at hpass
  refine ⟨frame, _, hpass, hholds, fun hfs => ?_, fun hfs => ?_⟩
  · rw [hnext, if_pos hfs]
    exact storeNext_spent h.input _ _
  · rw [hnext, if_neg hfs]
    exact storeNext_atRest h hfs

/-- **A pass that hands over the frame** has read its length. -/
theorem InputAt.readable_of_pass (h : InputAt copy data current next first lead (f :: fs))
    {frame : GatheredFrame} {after : XmaContextData}
    (hpass : inputPass copy data = .decoded frame after) (hholds : Holds frame f) :
    LengthReadable (current ++ next) first lead (f :: fs) 0 := by
  rw [h.inputPass_eq] at hpass
  cases hgather : gatherFrame (current ++ next) (place (current ++ next) first lead) with
  | none =>
    rw [hgather] at hpass
    cases hpass
  | some gathered =>
    rw [hgather] at hpass
    have hframe : gathered = frame := (InputPass.decoded.inj hpass).1
    intro g hg
    rw [← Option.some.inj hg, start_zero, ← readBits_iff, gatherFrame_frameBits hgather, hframe,
      hholds.size]

/-! ### All passes -/

theorem framePasses_succ {n : ℕ} {out : List GatheredFrame} {last : XmaContextData} :
    framePasses copy (n + 1) data = some (out, last) ↔
      ∃ frame after rest, inputPass copy data = .decoded frame after ∧
        framePasses copy n after = some (rest, last) ∧ out = frame :: rest := by
  rw [framePasses]
  constructor
  · intro h
    cases hpass : inputPass copy data with
    | decoded frame after =>
      rw [hpass] at h
      obtain ⟨⟨rest, last'⟩, hrest, heq⟩ := Option.map_eq_some_iff.mp h
      cases heq
      exact ⟨frame, after, rest, rfl, hrest, rfl⟩
    | idle _ =>
      rw [hpass] at h
      cases h
    | switched _ =>
      rw [hpass] at h
      cases h
    | failed _ =>
      rw [hpass] at h
      cases h
  · rintro ⟨frame, after, rest, hpass, hrest, rfl⟩
    rw [hpass]
    exact Option.map_eq_some_iff.mpr ⟨(rest, last), hrest, rfl⟩

/-- **Every frame is handed over once and in order, and nothing behind the last, exactly
when the length of every frame can be read where the code reads it.** -/
theorem framePasses_iff (h : InputAt copy data current next first lead (f :: fs)) :
    (∃ out last, framePasses copy (f :: fs).length data = some (out, last) ∧
        List.Forall₂ Holds out (f :: fs) ∧
        ∀ frame after, inputPass copy last ≠ .decoded frame after) ↔
      ∀ i, LengthReadable (current ++ next) first lead (f :: fs) i := by
  induction fs generalizing data current next first lead f with
  | nil =>
    constructor
    · rintro ⟨out, last, hrun, hout, -⟩ i
      cases i with
      | zero =>
        obtain ⟨frame, after, rest, hpass, -, rfl⟩ := framePasses_succ.mp hrun
        exact h.readable_of_pass hpass (List.forall₂_cons.mp hout).1
      | succ i => exact fun g hg => absurd hg (by simp)
    · intro hread
      obtain ⟨frame, after, hpass, hholds, hspent, -⟩ := h.pass (hread 0)
      exact ⟨[frame], after, framePasses_succ.mpr ⟨frame, after, [], hpass, rfl, rfl⟩,
        .cons hholds .nil, (hspent rfl).inputPass_ne copy⟩
  | cons g gs ih =>
    constructor
    · rintro ⟨out, last, hrun, hout, hspent⟩
      obtain ⟨frame, after, rest, hpass, hrest, rfl⟩ := framePasses_succ.mp hrun
      obtain ⟨hholds, hout⟩ := List.forall₂_cons.mp hout
      have hzero := h.readable_of_pass hpass hholds
      obtain ⟨frame', after', hpass', -, -, hatRest⟩ := h.pass hzero
      have hafter : after' = after := (InputPass.decoded.inj (hpass'.symm.trans hpass)).2
      obtain ⟨current', next', first', lead', hat, hreadable⟩ := hatRest (List.cons_ne_nil g gs)
      rw [hafter] at hat
      intro i
      cases i with
      | zero => exact hzero
      | succ i =>
        rw [LengthReadable.tail_iff, ← hreadable]
        exact (ih hat).mp ⟨rest, last, hrest, hout, hspent⟩ i
    · intro hread
      obtain ⟨frame, after, hpass, hholds, -, hatRest⟩ := h.pass (hread 0)
      obtain ⟨current', next', first', lead', hat, hreadable⟩ := hatRest (List.cons_ne_nil g gs)
      obtain ⟨rest, last, hrest, hout, hspent⟩ := (ih hat).mpr fun i => by
        rw [hreadable, ← LengthReadable.tail_iff]
        exact hread (i + 1)
      exact ⟨frame :: rest, last, framePasses_succ.mpr ⟨frame, after, rest, hpass, hrest, rfl⟩,
        .cons hholds hout, hspent⟩

/-- **Frame walking.**  Of arbitrary bytes only frames inside the input are gathered.  From
a context at the first frame of a well-formed sequence, however it is divided between the
buffers and wherever packets end: a frame is gathered, with its bits, exactly when the 15
bits that lie next to each other in the input at its start are its length, as they are
unless it starts in the last 14 bits of a packet; then the context that is stored is at
the next frame, or without input behind the last; and all frames are handed over once and
in order exactly when this is so for every frame. -/
theorem xma_frames_walked (hinput : InputHolds copy data current next)
    (hformed : WellFormed (current ++ next) first lead (f :: fs))
    (hoffset : data.inputBufferReadOffset.toNat = place (current ++ next) first lead)
    (hhere : place (current ++ next) first lead < current.length * 8) :
    (∀ (bytes : XmaBytes) (startBit : ℕ) (frame : GatheredFrame),
      gatherFrame bytes startBit = some frame → Within bytes frame) ∧
    (∀ (i : ℕ) (g : List Bool), (f :: fs)[i]? = some g →
      ((∃ frame, gatherFrame (current ++ next)
          (place (current ++ next) first (start lead (f :: fs) i)) = some frame ∧
            Holds frame g) ↔ LengthReadable (current ++ next) first lead (f :: fs) i)) ∧
    (∀ i, start lead (f :: fs) i % payloadBits + 15 ≤ payloadBits →
      LengthReadable (current ++ next) first lead (f :: fs) i) ∧
    (LengthReadable (current ++ next) first lead (f :: fs) 0 →
      ∃ frame after, inputPass copy data = .decoded frame after ∧ Holds frame f ∧
        (fs = [] → Spent after) ∧
        (fs ≠ [] → AtRest copy after (current ++ next) first (lead + f.length) fs)) ∧
    ((∃ out last, framePasses copy (f :: fs).length data = some (out, last) ∧
        List.Forall₂ Holds out (f :: fs) ∧
        ∀ frame after, inputPass copy last ≠ .decoded frame after) ↔
      ∀ i, LengthReadable (current ++ next) first lead (f :: fs) i) := by
  have hcarries := hformed.carries
  have hat : InputAt copy data current next first lead (f :: fs) :=
    ⟨hinput, hcarries, hoffset, hhere⟩
  refine ⟨fun _ _ _ => gatherFrame_within, fun i g hi => ?_, fun i hroom g hi => ?_, hat.pass,
    framePasses_iff hat⟩
  · have hone : LengthReadable (current ++ next) first lead (f :: fs) i ↔ LengthAt
        (current ++ next) (place (current ++ next) first (start lead (f :: fs) i)) g.length := by
      rw [LengthReadable, hi]
      exact ⟨fun h => h g rfl, fun h g' hg' => Option.some.inj hg' ▸ h⟩
    rw [hone, ← readBits_iff]
    exact gatherFrame_iff (hcarries.liesAt hi)
  · exact (hcarries.liesAt hi).lengthAt (hcarries.lengths g (List.mem_of_getElem? hi)).2.2 hroom

/-! ### Two packets in two buffers -/

/-- A context with a packet in each of its buffers. -/
def twoPacketContext (offset : BitVec 32) : XmaContextData :=
  { XmaContextData.decode (fun _ => 0) 0 with
    inputBuffer0Valid := true
    inputBuffer1Valid := true
    inputBuffer0Ptr := 0x1000
    inputBuffer1Ptr := 0x2000
    inputBuffer0PacketCount := 1
    inputBuffer1PacketCount := 1
    inputBufferReadOffset := offset }

/-- Memory with a packet for each buffer. -/
def twoPacketMemory (packet0 packet1 : XmaBytes) : PhysicalReader := fun ptr size =>
  if ptr = 0x1000 then some (packet0.take size) else some (packet1.take size)

theorem twoPacket_inputHolds {packet0 packet1 : XmaBytes} (h0 : packet0.length = kXmaPacketBytes)
    (h1 : packet1.length = kXmaPacketBytes) (offset : BitVec 32) :
    InputHolds (twoPacketMemory packet0 packet1) (twoPacketContext offset) packet0 packet1 := by
  have hpackets : ∀ b, (twoPacketContext offset).bufferPackets b = 1 := fun b => by
    cases b <;> rfl
  have hsize : ∀ b, ((twoPacketContext offset).bufferPackets b).toNat * kXmaPacketBytes =
      kXmaPacketBytes := fun b => by
    rw [hpackets]
    exact Nat.one_mul _
  have hholds : ∀ b, BufferHolds (twoPacketMemory packet0 packet1) (twoPacketContext offset) b
      (if b then packet1 else packet0) := fun b =>
    { valid := by cases b <;> rfl
      ptr := by
        have hptr : (twoPacketContext offset).bufferPtr b = if b then 0x2000 else 0x1000 := by
          cases b <;> rfl
        rw [hptr]
        cases b <;> decide
      packets := by
        rw [hpackets]
        decide
      field := by
        rw [hpackets]
        decide
      read := by
        rw [readBuffer, hsize]
        cases b with
        | false => exact congrArg some (List.take_of_length_le h0.le)
        | true => exact congrArg some (List.take_of_length_le h1.le)
      length := by
        rw [hsize]
        cases b with
        | false => exact h0
        | true => exact h1 }
  exact ⟨hholds false, .inl (hholds true), rfl⟩

/-- A packet: its first bytes, zeros, and its last bytes. -/
def samplePacket (front : XmaBytes) (zeros : ℕ) (back : XmaBytes) : XmaBytes :=
  front ++ List.replicate zeros 0 ++ back

theorem length_samplePacket {front back : XmaBytes} {zeros : ℕ}
    (h : front.length + zeros + back.length = kXmaPacketBytes) :
    (samplePacket front zeros back).length = kXmaPacketBytes := by
  rw [samplePacket, List.length_append, List.length_append, List.length_replicate, h]

section boundary

variable (front0 back0 front1 back1 : XmaBytes) (zeros0 zeros1 : ℕ)

/-- The bits where one packet ends and the other begins. -/
theorem bitAt_boundary (h0 : front0.length + zeros0 + back0.length = kXmaPacketBytes) {j : ℕ}
    (hj : j < 8 * (back0.length + front1.length)) :
    bitAt (samplePacket front0 zeros0 back0 ++ samplePacket front1 zeros1 back1)
      (kBitsPerPacket - 8 * back0.length + j) = bitAt (back0 ++ front1) j := by
  have hlist : samplePacket front0 zeros0 back0 ++ samplePacket front1 zeros1 back1 =
      (front0 ++ List.replicate zeros0 0) ++
        ((back0 ++ front1) ++ (List.replicate zeros1 0 ++ back1)) := by
    simp only [samplePacket, List.append_assoc]
  have hlength : 8 * (front0 ++ List.replicate zeros0 (0 : BitVec 8)).length =
      kBitsPerPacket - 8 * back0.length := by
    rw [List.length_append, List.length_replicate, kBitsPerPacket]
    omega
  rw [hlist, ← hlength, bitAt_append_right, bitAt_append_left (by rwa [List.length_append])]

/-- Without a skip the second packet is linked to the first. -/
theorem link_two {input : XmaBytes} (hskip : (headerAt input 0).skipCount = 0) {position : ℕ}
    (h : position < 2 * payloadBits) :
    link input 0 (position / payloadBits) = position / payloadBits := by
  rw [payloadBits_eq] at h ⊢
  rcases (show position / 16352 = 0 ∨ position / 16352 = 1 by omega) with h0 | h1
  · rw [h0, link]
  · rw [h1, link, link, linkedPacket, hskip]
    rfl

/-- The stream where one packet ends and the other begins. -/
theorem streamBit_boundary (h0 : front0.length + zeros0 + back0.length = kXmaPacketBytes)
    (hback : back0.length ≤ 2044) (hfront : 4 ≤ front1.length) (hsmall : front1.length ≤ 2048)
    (hskip : (headerAt (samplePacket front0 zeros0 back0 ++ samplePacket front1 zeros1 back1)
      0).skipCount = 0) {j : ℕ} (hj : j < 8 * (back0.length + (front1.length - 4))) :
    streamBit (samplePacket front0 zeros0 back0 ++ samplePacket front1 zeros1 back1) 0
      (payloadBits - 8 * back0.length + j) = bitAt (back0 ++ front1.drop 4) j := by
  have hlink := link_two hskip
    (show payloadBits - 8 * back0.length + j < 2 * payloadBits by rw [payloadBits_eq]; omega)
  rw [streamBit, place, hlink]
  by_cases hfirst : j < 8 * back0.length
  · have hplace : (payloadBits - 8 * back0.length + j) / payloadBits * kBitsPerPacket + 32 +
        (payloadBits - 8 * back0.length + j) % payloadBits =
          kBitsPerPacket - 8 * back0.length + j := by
      rw [payloadBits_eq, kBitsPerPacket_eq]
      omega
    rw [hplace, bitAt_boundary front0 back0 front1 back1 zeros0 zeros1 h0 (by omega),
      bitAt_append_left hfirst, bitAt_append_left hfirst]
  · obtain ⟨i, rfl⟩ := Nat.exists_eq_add_of_le (not_lt.mp hfirst)
    have hplace : (payloadBits - 8 * back0.length + (8 * back0.length + i)) / payloadBits *
        kBitsPerPacket + 32 + (payloadBits - 8 * back0.length + (8 * back0.length + i)) %
          payloadBits = kBitsPerPacket - 8 * back0.length + (8 * back0.length + (32 + i)) := by
      rw [payloadBits_eq, kBitsPerPacket_eq]
      omega
    have hheader : 8 * (front1.take 4).length = 32 := by
      rw [List.length_take]
      omega
    have hrest : bitAt front1 (32 + i) = bitAt (front1.drop 4) i := by
      conv_lhs => rw [← List.take_append_drop 4 front1, ← hheader]
      exact bitAt_append_right i
    rw [hplace, bitAt_boundary front0 back0 front1 back1 zeros0 zeros1 h0 (by omega),
      bitAt_append_right, bitAt_append_right, hrest]

end boundary

/-- The links of two packets that skip none. -/
theorem twoPacket_link {packet0 packet1 : XmaBytes} (h0 : packet0.length = kXmaPacketBytes)
    (h1 : packet1.length = kXmaPacketBytes) {k : ℕ}
    (hk : link (packet0 ++ packet1) 0 k < packetCount (packet0 ++ packet1)) : k = 0 ∨ k = 1 := by
  have hle := le_link (packet0 ++ packet1) 0 k
  have hcount : packetCount (packet0 ++ packet1) = 2 := by
    rw [packetCount, List.length_append, h0, h1]
    rfl
  omega

theorem twoPacket_inside {packet0 packet1 : XmaBytes} (h0 : packet0.length = kXmaPacketBytes)
    (h1 : packet1.length = kXmaPacketBytes)
    (hskip : (headerAt (packet0 ++ packet1) 0).skipCount = 0) {position : ℕ}
    (h : position < 2 * payloadBits) :
    link (packet0 ++ packet1) 0 (position / payloadBits) < packetCount (packet0 ++ packet1) := by
  have hcount : packetCount (packet0 ++ packet1) = 2 := by
    rw [packetCount, List.length_append, h0, h1]
    rfl
  rw [link_two hskip h, hcount]
  exact Nat.div_lt_of_lt_mul (by rwa [Nat.mul_comm])

/-- The headers of two packets. -/
theorem twoPacket_header {packet0 packet1 : XmaBytes} (h0 : packet0.length = kXmaPacketBytes) :
    headerAt (packet0 ++ packet1) 1 = headerAt packet1 0 :=
  headerAt_append (m := 1) (h0.trans (Nat.one_mul _).symm) 0

/-- A frame behind the other, its last bits in the second packet. -/
def sampleFrames : List (List Bool) :=
  [[false, false, false, false, false, false, false, false, false, false, true, false, false, false,
      false, true],
    [false, false, false, false, false, false, false, false, false, false, true, true, false, false,
      false, true, false, true, true, false, false, true, true, false]]

def samplePacket0 : XmaBytes :=
  samplePacket [0x09, 0xFD, 0xE0, 0x00] 2039 [0x00, 0x02, 0x10, 0x03, 0x16]

def samplePacket1 : XmaBytes := samplePacket [0x03, 0xFF, 0xF8, 0x00, 0x60] 2043 []

theorem length_samplePacket0 : samplePacket0.length = kXmaPacketBytes :=
  length_samplePacket (by decide)

theorem length_samplePacket1 : samplePacket1.length = kXmaPacketBytes :=
  length_samplePacket (by decide)

theorem sample_header0 : headerAt (samplePacket0 ++ samplePacket1) 0 = ⟨2, 0x3FDC, 0, 0⟩ := by
  decide

theorem sample_header1 : headerAt (samplePacket0 ++ samplePacket1) 1 = ⟨0, 0x801F, 0, 0⟩ := by
  rw [twoPacket_header length_samplePacket0]
  decide

theorem sample_skip : (headerAt (samplePacket0 ++ samplePacket1) 0).skipCount = 0 := by
  rw [sample_header0]

theorem sample_headers {k : ℕ}
    (hk : link (samplePacket0 ++ samplePacket1) 0 k < packetCount (samplePacket0 ++ samplePacket1)) :
    OffsetOfFirst (samplePacket0 ++ samplePacket1) 0 16316 sampleFrames k := by
  rcases twoPacket_link length_samplePacket0 length_samplePacket1 hk with rfl | rfl
  · refine .inl ⟨0, by decide, by decide, fun j hj => absurd hj (Nat.not_lt_zero j), ?_⟩
    rw [link, sample_header0]
    decide
  · refine .inr ⟨by decide, ?_⟩
    rw [link, link, linkedPacket, sample_header0]
    change _ ≤ (headerAt _ 1).firstFrameOffsetBits.toNat
    rw [sample_header1]
    decide

/-- The bits of the stream from the last bytes of the first packet on. -/
theorem sample_bits {position : ℕ} (h : 16312 ≤ position) (hend : position < 16360) :
    streamBit (samplePacket0 ++ samplePacket1) 0 position =
      bitAt [0x00, 0x02, 0x10, 0x03, 0x16, 0x60] (position - 16312) := by
  have hbit : streamBit (samplePacket0 ++ samplePacket1) 0 (16352 - 40 + (position - 16312)) =
      bitAt [0x00, 0x02, 0x10, 0x03, 0x16, 0x60] (position - 16312) :=
    streamBit_boundary [0x09, 0xFD, 0xE0, 0x00] [0x00, 0x02, 0x10, 0x03, 0x16]
      [0x03, 0xFF, 0xF8, 0x00, 0x60] [] 2039 2043 (by decide) (by decide) (by decide)
      (by decide) sample_skip
      (show position - 16312 < 48 by omega)
  rwa [show 16352 - 40 + (position - 16312) = position by omega] at hbit

theorem sample_carries : Carries (samplePacket0 ++ samplePacket1) 0 16316 sampleFrames where
  inside i g hi j hj := by
    refine twoPacket_inside length_samplePacket0 length_samplePacket1 sample_skip ?_
    rw [payloadBits_eq]
    rcases i with _ | _ | i
    · cases hi
      have hlength : j < 16 := hj
      change 16316 + j < _
      omega
    · cases hi
      have hlength : j < 24 := hj
      change 16332 + j < _
      omega
    · cases hi
  bits i g hi j hj := by
    rcases i with _ | _ | i
    · cases hi
      have hlength : j < 16 := hj
      change streamBit _ _ (16316 + j) = _
      rw [sample_bits (by omega) (by omega), show 16316 + j - 16312 = 4 + j by omega]
      revert j
      decide
    · cases hi
      have hlength : j < 24 := hj
      change streamBit _ _ (16332 + j) = _
      rw [sample_bits (by omega) (by omega), show 16332 + j - 16312 = 20 + j by omega]
      revert j
      decide
    · cases hi
  lengths := by decide
  follows i g hi := by
    rcases i with _ | _ | i
    · cases hi
      decide
    · cases hi
      decide
    · cases hi
  offsets k _ hk := sample_headers hk

/-- Two packets are whole packets. -/
theorem twoPacket_whole {packet0 packet1 : XmaBytes} (h0 : packet0.length = kXmaPacketBytes)
    (h1 : packet1.length = kXmaPacketBytes) :
    (packet0 ++ packet1).length = packetCount (packet0 ++ packet1) * kXmaPacketBytes := by
  rw [packetCount, List.length_append, h0, h1]
  rfl

theorem sample_wellFormed : WellFormed (samplePacket0 ++ samplePacket1) 0 16316 sampleFrames where
  whole := twoPacket_whole length_samplePacket0 length_samplePacket1
  carries := sample_carries
  headers _ hk := sample_headers hk

/-- **Two frames in two buffers** are handed over in order. -/
theorem xma_frames_walked_sample :
    ∃ out last, framePasses (twoPacketMemory samplePacket0 samplePacket1) 2
        (twoPacketContext 16348) = some (out, last) ∧ List.Forall₂ Holds out sampleFrames ∧
      ∀ frame after, inputPass (twoPacketMemory samplePacket0 samplePacket1) last ≠
        .decoded frame after := by
  have hplace : place (samplePacket0 ++ samplePacket1) 0 16316 = 16348 := by
    rw [place, link_two sample_skip (by decide)]
    decide
  have hwalk := xma_frames_walked
    (twoPacket_inputHolds length_samplePacket0 length_samplePacket1 16348) sample_wellFormed
    (hplace ▸ by decide) (by rw [hplace, length_samplePacket0]; decide)
  refine hwalk.2.2.2.2.mpr fun i => ?_
  rcases i with _ | _ | i
  · exact hwalk.2.2.1 0 (by decide)
  · exact hwalk.2.2.1 1 (by decide)
  · intro g hg
    cases hg

/-! ### A length in two packets -/

def splitFrame : List Bool :=
  [false, false, false, false, false, false, false, false, false, false, true, false, false, false,
    false, false]

def splitPacket0 : XmaBytes := samplePacket [0x05, 0xFE, 0xC8, 0x00] 2043 [0x00]

def splitPacket1 : XmaBytes := samplePacket [0x03, 0xFF, 0xF8, 0x00, 0x10, 0x00] 2042 []

theorem length_splitPacket0 : splitPacket0.length = kXmaPacketBytes :=
  length_samplePacket (by decide)

theorem length_splitPacket1 : splitPacket1.length = kXmaPacketBytes :=
  length_samplePacket (by decide)

theorem split_header0 : headerAt (splitPacket0 ++ splitPacket1) 0 = ⟨1, 0x3FF9, 0, 0⟩ := by
  decide

theorem split_header1 : headerAt (splitPacket0 ++ splitPacket1) 1 = ⟨0, 0x801F, 0, 0⟩ := by
  rw [twoPacket_header length_splitPacket0]
  decide

theorem split_skip : (headerAt (splitPacket0 ++ splitPacket1) 0).skipCount = 0 := by
  rw [split_header0]

theorem split_headers {k : ℕ}
    (hk : link (splitPacket0 ++ splitPacket1) 0 k < packetCount (splitPacket0 ++ splitPacket1)) :
    OffsetOfFirst (splitPacket0 ++ splitPacket1) 0 16345 [splitFrame] k := by
  rcases twoPacket_link length_splitPacket0 length_splitPacket1 hk with rfl | rfl
  · refine .inl ⟨0, by decide, by decide, fun j hj => absurd hj (Nat.not_lt_zero j), ?_⟩
    rw [link, split_header0]
    decide
  · refine .inr ⟨by decide, ?_⟩
    rw [link, link, linkedPacket, split_header0]
    change _ ≤ (headerAt _ 1).firstFrameOffsetBits.toNat
    rw [split_header1]
    decide

/-- The bits of the stream from the last byte of the first packet on. -/
theorem split_bits {position : ℕ} (h : 16344 ≤ position) (hend : position < 16368) :
    streamBit (splitPacket0 ++ splitPacket1) 0 position =
      bitAt [0x00, 0x10, 0x00] (position - 16344) := by
  have hbit : streamBit (splitPacket0 ++ splitPacket1) 0 (16352 - 8 + (position - 16344)) =
      bitAt [0x00, 0x10, 0x00] (position - 16344) :=
    streamBit_boundary [0x05, 0xFE, 0xC8, 0x00] [0x00] [0x03, 0xFF, 0xF8, 0x00, 0x10, 0x00] [] 2043
      2042 (by decide) (by decide) (by decide) (by decide) split_skip
      (show position - 16344 < 24 by omega)
  rwa [show 16352 - 8 + (position - 16344) = position by omega] at hbit

theorem split_carries : Carries (splitPacket0 ++ splitPacket1) 0 16345 [splitFrame] where
  inside i g hi j hj := by
    refine twoPacket_inside length_splitPacket0 length_splitPacket1 split_skip ?_
    rw [payloadBits_eq]
    rcases i with _ | i
    · cases hi
      have hlength : j < 16 := hj
      change 16345 + j < _
      omega
    · cases hi
  bits i g hi j hj := by
    rcases i with _ | i
    · cases hi
      have hlength : j < 16 := hj
      change streamBit _ _ (16345 + j) = _
      rw [split_bits (by omega) (by omega), show 16345 + j - 16344 = 1 + j by omega]
      revert j
      decide
    · cases hi
  lengths := by decide
  follows i g hi := by
    rcases i with _ | i
    · cases hi
      decide
    · cases hi
  offsets k _ hk := split_headers hk

theorem split_wellFormed : WellFormed (splitPacket0 ++ splitPacket1) 0 16345 [splitFrame] where
  whole := twoPacket_whole length_splitPacket0 length_splitPacket1
  carries := split_carries
  headers _ hk := split_headers hk

/-- The number that is read across the header of the second packet. -/
theorem split_read : readBits (splitPacket0 ++ splitPacket1) 16377 15 = some 3 := by
  refine readBits_iff.mpr ⟨?_, ?_⟩
  · rw [List.length_append, length_splitPacket0, length_splitPacket1]
    decide
  · have hbits : ∀ j ∈ List.range 15, bitAt (splitPacket0 ++ splitPacket1) (16377 + j) =
        bitAt [0x00, 0x03, 0xFF, 0xF8, 0x00, 0x10, 0x00] (1 + j) := fun j hj => by
      have hbit := bitAt_boundary [0x05, 0xFE, 0xC8, 0x00] [0x00]
        [0x03, 0xFF, 0xF8, 0x00, 0x10, 0x00] [] 2043 2042 (by decide)
        (show 1 + j < 56 by have := List.mem_range.mp hj; omega)
      rwa [show kBitsPerPacket - 8 * [(0x00 : BitVec 8)].length + (1 + j) = 16377 + j by
        rw [kBitsPerPacket_eq, List.length_singleton]; omega] at hbit
    rw [List.map_congr_left hbits]
    decide

/-- **A frame whose length is split between two packets is lost**: the length is read
across the header of the second packet, and the pass fails. -/
theorem xma_frame_lost :
    WellFormed (splitPacket0 ++ splitPacket1) 0 16345 [splitFrame] ∧
      InputHolds (twoPacketMemory splitPacket0 splitPacket1) (twoPacketContext 16377) splitPacket0
        splitPacket1 ∧
      (twoPacketContext 16377).inputBufferReadOffset.toNat =
        place (splitPacket0 ++ splitPacket1) 0 16345 ∧
      place (splitPacket0 ++ splitPacket1) 0 16345 < splitPacket0.length * 8 ∧
      gatherFrame (splitPacket0 ++ splitPacket1) (place (splitPacket0 ++ splitPacket1) 0 16345) =
        none ∧
      framePasses (twoPacketMemory splitPacket0 splitPacket1) 1 (twoPacketContext 16377) = none := by
  have hinput := twoPacket_inputHolds length_splitPacket0 length_splitPacket1 16377
  have hplace : place (splitPacket0 ++ splitPacket1) 0 16345 = 16377 := by
    rw [place, link_two split_skip (by decide)]
    decide
  have hoffset : (twoPacketContext 16377).inputBufferReadOffset.toNat =
      place (splitPacket0 ++ splitPacket1) 0 16345 := hplace ▸ by decide
  have hhere : place (splitPacket0 ++ splitPacket1) 0 16345 < splitPacket0.length * 8 := by
    rw [hplace, length_splitPacket0]
    decide
  have hnone : gatherFrame (splitPacket0 ++ splitPacket1)
      (place (splitPacket0 ++ splitPacket1) 0 16345) = none := by
    rw [hplace, gatherFrame, split_read]
    split
    · rfl
    · exact if_pos (by decide)
  have hpass := InputAt.inputPass_eq
    ⟨hinput, split_wellFormed.carries, hoffset, hhere⟩
  rw [hnone] at hpass
  refine ⟨split_wellFormed, hinput, hoffset, hhere, hnone, ?_⟩
  rw [framePasses, hpass]

end Audio
end XenonRecomp
