/-
# Depth words lose nothing

A code is turned into the float of its value (`value_float20e4ToFloat32`), so by
either rounding the float gives the code back, and so do the words that hold a
depth and a stencil value.  With `Gpu.DepthRounding` this is all that the
conversion promises; rounding to the nearest code fails for the floats of
`TieBitsDropped` only.
-/

import XenonRecomp.Gpu.DepthRounding

namespace XenonRecomp
namespace Gpu

open Library.CodeRounding

/-- The fields of a word put together by the conversion to a float. -/
theorem toNat_float32_fields {e m : ℕ} (he : e < 256) (hm : m < 2 ^ 20) :
    ((BitVec.ofNat 32 e <<< 23) ||| (BitVec.ofNat 32 m <<< 3)).toNat = e * 2 ^ 23 + m * 8 := by
  have hor := Nat.two_pow_add_eq_or_of_lt (show m * 8 < 2 ^ 23 by omega) e
  rw [BitVec.toNat_or, BitVec.toNat_shiftLeft, BitVec.toNat_shiftLeft, BitVec.toNat_ofNat,
    BitVec.toNat_ofNat, Nat.shiftLeft_eq, Nat.shiftLeft_eq, Nat.mod_eq_of_lt (by omega),
    Nat.mod_eq_of_lt (by omega), Nat.mod_eq_of_lt (by omega), Nat.mod_eq_of_lt (by omega),
    Nat.mul_comm e, ← hor]

/-- The value of a float with these fields. -/
theorem magnitude_fields {bits : BitVec 32} {e m : ℕ} (he : 0 < e) (hlt : e < 256)
    (hm : m < 2 ^ 20) (hbits : bits.toNat = e * 2 ^ 23 + m * 8) :
    Float32.magnitude bits = 8 * (2 ^ 20 + m) * 2 ^ (e - 1) := by
  have hexponent : Float32.exponent bits = e := by
    unfold Float32.exponent
    omega
  have hfraction : Float32.fraction bits = m * 8 := by
    unfold Float32.fraction
    omega
  rw [Float32.magnitude, hexponent, hfraction, if_neg (by omega)]
  congr 1
  ring

/-- A code's float: its exponent and mantissa, after the leading zeros of a denormal
code are shifted out. -/
theorem toNat_float20e4ToFloat32 {code : BitVec 32} (hpos : 0 < code)
    (hle : code ≤ kFloat20e4Mask) :
    ∃ e m, 92 < e ∧ e < 128 ∧ m < 2 ^ 20 ∧
      (float20e4ToFloat32 code).toNat = e * 2 ^ 23 + m * 8 ∧
      codeMagnitude code.toNat * 2 ^ 112 = (2 ^ 20 + m) * 2 ^ (e - 1) := by
  have hn : 0 < code.toNat := by bv_omega
  have hlt : code.toNat < 2 ^ 24 := Nat.lt_succ_of_le hle
  have hmask : code &&& kFloat20e4Mask = code := by
    refine BitVec.eq_of_toNat_eq ?_
    rw [BitVec.toNat_and]
    exact (Nat.and_two_pow_sub_one_eq_mod _ 24).trans (Nat.mod_eq_of_lt hlt)
  have hmantissa : (code &&& 0x000FFFFF).toNat = code.toNat % 2 ^ 20 := by
    rw [BitVec.toNat_and]
    exact Nat.and_two_pow_sub_one_eq_mod _ 20
  have hexponent : (code >>> 20).toNat = code.toNat / 2 ^ 20 := by
    rw [BitVec.toNat_ushiftRight, Nat.shiftRight_eq_div_pow]
  have hne : code ≠ 0 := by bv_omega
  rw [float20e4ToFloat32, hmask]
  dsimp only
  rw [if_neg hne, hexponent]
  by_cases hzero : code.toNat / 2 ^ 20 = 0
  · -- a denormal code: the shift brings its leading bit to the implicit one's place
    have hsmall : (code &&& 0x000FFFFF).toNat = code.toNat := by
      rw [hmantissa]
      omega
    have hnonzero : code &&& 0x000FFFFF ≠ 0#32 := by
      intro h
      rw [h, BitVec.toNat_zero] at hsmall
      omega
    have hlow := BitVec.two_pow_sub_clz_le_toNat_of_ne_zero (by decide) hnonzero
    have hhigh := BitVec.toNat_lt_two_pow_sub_clz (x := code &&& 0x000FFFFF)
    have hclz : (code &&& 0x000FFFFF).clz.toNat < 32 := BitVec.clz_lt_iff_ne_zero.2 hnonzero
    rw [hsmall] at hlow hhigh
    generalize (code &&& 0x000FFFFF).clz.toNat = zeros at *
    have hzeros : 11 < zeros := by
      by_contra hle
      have := Nat.pow_le_pow_right (show 0 < 2 by decide) (show 20 ≤ 32 - 1 - zeros by omega)
      omega
    have hscaled : 2 ^ 20 ≤ code.toNat * 2 ^ (zeros - 11) ∧
        code.toNat * 2 ^ (zeros - 11) < 2 ^ 21 := by
      constructor
      · calc 2 ^ 20 = 2 ^ (32 - 1 - zeros) * 2 ^ (zeros - 11) := by
              rw [← Nat.pow_add]
              congr 1
              omega
          _ ≤ code.toNat * 2 ^ (zeros - 11) := Nat.mul_le_mul_right _ hlow
      · calc code.toNat * 2 ^ (zeros - 11) < 2 ^ (32 - zeros) * 2 ^ (zeros - 11) :=
              Nat.mul_lt_mul_of_pos_right hhigh (Nat.two_pow_pos _)
          _ = 2 ^ 21 := by
              rw [← Nat.pow_add]
              congr 1
              omega
    have hshifted : ((code &&& 0x000FFFFF) <<< (zeros - (32 - 21)) &&& 0x000FFFFF) =
        BitVec.ofNat 32 (code.toNat * 2 ^ (zeros - 11) - 2 ^ 20) := by
      refine BitVec.eq_of_toNat_eq ?_
      rw [BitVec.toNat_and, BitVec.toNat_shiftLeft, hsmall, Nat.shiftLeft_eq, BitVec.toNat_ofNat]
      change code.toNat * 2 ^ (zeros - 11) % 2 ^ 32 &&& (2 ^ 20 - 1) = _
      rw [Nat.and_two_pow_sub_one_eq_mod]
      omega
    have hofInt : BitVec.ofInt 32 (1 - ((zeros - (32 - 21) : ℕ) : ℤ) + 112) =
        BitVec.ofNat 32 (124 - zeros) := by
      rw [← BitVec.ofInt_natCast]
      congr 1
      omega
    rw [if_pos (by exact_mod_cast hzero), hshifted, hofInt]
    refine ⟨124 - zeros, code.toNat * 2 ^ (zeros - 11) - 2 ^ 20, by omega, by omega, by omega,
      toNat_float32_fields (by omega) (by omega), ?_⟩
    rw [codeMagnitude, if_pos hzero, Nat.add_sub_cancel' hscaled.1, Nat.mul_assoc,
      ← Nat.pow_add]
    congr 2
    omega
  · rw [if_neg (by exact_mod_cast hzero)]
    have hofInt : BitVec.ofInt 32 ((code.toNat / 2 ^ 20 : ℕ) + 112 : ℤ) =
        BitVec.ofNat 32 (code.toNat / 2 ^ 20 + 112) := by
      rw [← BitVec.ofInt_natCast]
      push_cast
      rfl
    have hofNat : code &&& 0x000FFFFF = BitVec.ofNat 32 (code.toNat % 2 ^ 20) := by
      rw [← hmantissa, BitVec.ofNat_toNat, BitVec.setWidth_eq]
    rw [hofInt, hofNat]
    refine ⟨code.toNat / 2 ^ 20 + 112, code.toNat % 2 ^ 20, by omega, by omega, by omega,
      toNat_float32_fields (by omega) (by omega), ?_⟩
    rw [codeMagnitude, if_neg hzero, Nat.mul_assoc, ← Nat.pow_add]
    congr 2
    omega

/-- **The float of a code has the code's value.** -/
theorem value_float20e4ToFloat32 {code : BitVec 32} (hpos : 0 < code)
    (hle : code ≤ kFloat20e4Mask) :
    Float32.PositiveFinite (float20e4ToFloat32 code) ∧
      Float32.value (float20e4ToFloat32 code) = codeValue code.toNat := by
  obtain ⟨e, m, he, hlt, hm, hbits, hvalue⟩ := toNat_float20e4ToFloat32 hpos hle
  refine ⟨⟨by bv_omega, by bv_omega⟩, ?_⟩
  rw [Float32.value, codeValue_eq, magnitude_fields (by omega) (by omega) hm hbits,
    Nat.mul_assoc, ← hvalue, Nat.mul_assoc]

/-- A float that drops bits of a tie lies between two codes. -/
theorem ne_codeValue_of_tieBitsDropped {value : BitVec 32} (h : TieBitsDropped value)
    (code : ℕ) : Float32.value value ≠ codeValue code := by
  intro heq
  have hhigh : value < 0x3FFFFFF8 := by
    have hlow := h.1
    bv_omega
  obtain ⟨remainder, hb⟩ := exists_bracketed hhigh
  obtain ⟨hsixteen, hne⟩ := hb.dropped.1 h
  have hmiddle := hb.compare_middle.2.2 (Or.inr ⟨by omega, hne⟩)
  have hu := hb.lt_codeValue
  have hl : codeValue ((rebias value).toNat / 8) < Float32.value value := by linarith
  rw [heq] at hl hu
  have hgt := strictMono_codeValue.lt_iff_lt.1 hl
  have hlt := strictMono_codeValue.lt_iff_lt.1 hu
  omega

/-- **A code's float gives the code back**, by either rounding. -/
theorem float32To20e4_float20e4ToFloat32 (rounding : Float20e4Rounding) {code : BitVec 32}
    (hle : code ≤ kFloat20e4Mask) :
    float32To20e4 (float20e4ToFloat32 code) rounding = code := by
  by_cases hzero : code = 0
  · subst hzero
    cases rounding <;> rfl
  · have hpos : 0 < code := by bv_omega
    obtain ⟨hfinite, hvalue⟩ := value_float20e4ToFloat32 hpos hle
    have hcode : code.toNat ≤ topCode := hle
    refine BitVec.eq_of_toNat_eq ?_
    cases rounding with
    | truncate =>
      have hdown := roundsDown_float32To20e4 hfinite
      rw [hvalue] at hdown
      exact hdown.unique (roundsDown_value strictMono_codeValue hcode)
    | nearestEven =>
      have hkept : ¬ TieBitsDropped (float20e4ToFloat32 code) := fun hdropped =>
        ne_codeValue_of_tieBitsDropped hdropped code.toNat hvalue
      have heven := (roundsToEven_float32To20e4_iff hfinite).2 hkept
      rw [hvalue] at heven
      exact heven.eq_of_value strictMono_codeValue hcode

theorem and_mask_le (bits : BitVec 32) : bits &&& 0x00FFFFFF ≤ kFloat20e4Mask := by
  rw [BitVec.le_def, BitVec.toNat_and]
  exact Nat.and_le_right

/-- **A quantised depth stays**, however it is quantised again. -/
theorem quantizeFloat20e4_idem (value : BitVec 32) (rounding rounding' : Float20e4Rounding) :
    quantizeFloat20e4 (quantizeFloat20e4 value rounding) rounding' =
      quantizeFloat20e4 value rounding := by
  have hle : float32To20e4 value rounding ≤ kFloat20e4Mask := by
    unfold float32To20e4
    split
    · decide
    · split
      · exact BitVec.le_refl _
      · exact and_mask_le _
  rw [quantizeFloat20e4, quantizeFloat20e4, float32To20e4_float20e4ToFloat32 rounding' hle]

/-- The depth and stencil fields of a word make up the word. -/
theorem fields_or (packed : BitVec 32) :
    (packed &&& (0x00FFFFFF : BitVec 32)) ||| (((packed >>> 24).setWidth 8).setWidth 32 <<< 24) = packed := by
  have hlow : (packed &&& (0x00FFFFFF : BitVec 32)).toNat = packed.toNat % 2 ^ 24 := by
    rw [BitVec.toNat_and]
    exact Nat.and_two_pow_sub_one_eq_mod _ 24
  have hhigh : (((packed >>> 24).setWidth 8).setWidth 32 <<< 24).toNat =
      2 ^ 24 * (packed.toNat / 2 ^ 24) := by
    rw [BitVec.toNat_shiftLeft, BitVec.toNat_setWidth, BitVec.toNat_setWidth,
      BitVec.toNat_ushiftRight, Nat.shiftRight_eq_div_pow, Nat.shiftLeft_eq]
    omega
  refine BitVec.eq_of_toNat_eq ?_
  rw [BitVec.toNat_or, hlow, hhigh, Nat.or_comm,
    ← Nat.two_pow_add_eq_or_of_lt (Nat.mod_lt _ (Nat.two_pow_pos 24)), Nat.div_add_mod]

/-- **Unpacking a word and packing it again gives the word back.** -/
theorem pack_unpack (rounding : Float20e4Rounding) (packed : BitVec 32) :
    packDepthStencil .d24fs8 (unpackDepthStencil .d24fs8 packed).depth
      (unpackDepthStencil .d24fs8 packed).stencil rounding = packed := by
  simp only [packDepthStencil, unpackDepthStencil, if_true]
  rw [float32To20e4_float20e4ToFloat32 rounding (and_mask_le _), fields_or]

/-- A code's float is far from the smallest ones: halving it lowers its exponent. -/
theorem half_float20e4ToFloat32 {code : BitVec 32} (hpos : 0 < code) (hle : code ≤ kFloat20e4Mask) :
    Float32.half (float20e4ToFloat32 code) = float20e4ToFloat32 code - 0x00800000 := by
  obtain ⟨e, m, he, hlt, hm, hbits, -⟩ := toNat_float20e4ToFloat32 hpos hle
  have hexponent : Float32.exponent (float20e4ToFloat32 code) = e := by
    unfold Float32.exponent
    omega
  rw [Float32.half, hexponent, if_neg (by omega), if_pos (by omega)]

/-- Halving and doubling a code's float changes nothing. -/
theorem twice_half_float20e4ToFloat32 {code : BitVec 32} (hle : code ≤ kFloat20e4Mask) :
    Float32.twice (Float32.half (float20e4ToFloat32 code)) = float20e4ToFloat32 code := by
  by_cases hzero : code = 0
  · subst hzero
    decide
  · have hpos : 0 < code := by bv_omega
    obtain ⟨e, m, he, hlt, hm, hbits, -⟩ := toNat_float20e4ToFloat32 hpos hle
    have hhalved : Float32.exponent (float20e4ToFloat32 code - 0x00800000) = e - 1 := by
      unfold Float32.exponent
      bv_omega
    rw [half_float20e4ToFloat32 hpos hle, Float32.twice, hhalved, if_neg (by omega), if_neg (by omega), if_pos (by omega), BitVec.sub_add_cancel]

/-- **A word goes to the host's depth range and back unchanged.** -/
theorem hostToDepthStencil_depthStencilToHost (rounding : Float20e4Rounding)
    (packed : BitVec 32) :
    hostToDepthStencil .d24fs8 (depthStencilToHost .d24fs8 packed).depth
      (depthStencilToHost .d24fs8 packed).stencil rounding = packed := by
  have hpack := pack_unpack rounding packed
  simp only [hostToDepthStencil, depthStencilToHost, unpackDepthStencil, if_true] at hpack ⊢
  rw [twice_half_float20e4ToFloat32 (and_mask_le _)]
  exact hpack

/-- Floats are in the order of their exponents and significands. -/
theorem significand_lt {a b j k : ℕ} (ha : 2 ^ 23 ≤ a ∧ a < 2 ^ 24) (hb : 2 ^ 23 ≤ b ∧ b < 2 ^ 24)
    (h : a * 2 ^ j < b * 2 ^ k) : j * 2 ^ 23 + a < k * 2 ^ 23 + b := by
  by_contra hge
  rcases (show k < j ∨ k = j ∧ b ≤ a by omega) with hlt | ⟨rfl, hle⟩
  · have hpow : 2 ^ (k + 1) ≤ 2 ^ j := Nat.pow_le_pow_right (by decide) hlt
    have hlow := Nat.mul_le_mul_right (2 ^ k) hb.2.le
    have hhigh := Nat.mul_le_mul ha.1 hpow
    rw [Nat.pow_succ] at hhigh
    omega
  · exact absurd h (not_lt.2 (Nat.mul_le_mul_right _ hle))

/-- The host's depths of the codes are in the codes' order. -/
theorem half_float20e4ToFloat32_lt {c d : BitVec 32} (hlt : c < d) (hd : d ≤ kFloat20e4Mask) :
    Float32.half (float20e4ToFloat32 c) < Float32.half (float20e4ToFloat32 d) := by
  obtain ⟨e, m, he, -, hm, hbits, hvalue⟩ := toNat_float20e4ToFloat32 (by bv_omega) hd
  rw [half_float20e4ToFloat32 (by bv_omega) hd]
  by_cases hzero : c = 0
  · subst hzero
    rw [show Float32.half (float20e4ToFloat32 0) = 0 by decide]
    bv_omega
  · obtain ⟨e', m', he', -, hm', hbits', hvalue'⟩ :=
      toNat_float20e4ToFloat32 (show 0 < c by bv_omega) (by bv_omega)
    have hcodes := strictMono_codeValue (BitVec.lt_def.1 hlt)
    rw [codeValue_eq, codeValue_eq, ratio_lt_iff, Nat.mul_assoc, hvalue', Nat.mul_assoc, hvalue,
      ← Nat.mul_assoc, ← Nat.mul_assoc] at hcodes
    have hfloats := significand_lt (by omega) (by omega) hcodes
    rw [half_float20e4ToFloat32 (by bv_omega) (by bv_omega)]
    bv_omega

/-- **The host compares depths as the guest does.** -/
theorem depthStencilToHost_lt_iff (p q : BitVec 32) :
    (depthStencilToHost .d24fs8 p).depth < (depthStencilToHost .d24fs8 q).depth ↔
      p &&& 0x00FFFFFF < q &&& 0x00FFFFFF := by
  have hp := and_mask_le p
  have hq := and_mask_le q
  simp only [depthStencilToHost, unpackDepthStencil, if_true]
  generalize p &&& 0x00FFFFFF = c at *
  generalize q &&& 0x00FFFFFF = d at *
  refine ⟨fun h => ?_, fun h => half_float20e4ToFloat32_lt h hq⟩
  by_contra hge
  by_cases heq : c = d
  · exact BitVec.lt_irrefl _ (heq ▸ h)
  · have hgt := half_float20e4ToFloat32_lt (show d < c by bv_omega) hp
    bv_omega

/-- **What the depth conversion promises.**  Rounding to the nearest code finds it for
every float but those that `TieBitsDropped` names, truncation rounds down, both keep
the order, and a code, or a word with a depth and a stencil value, is got back from
its float by either. -/
theorem float20e4_rounds_iff (value : BitVec 32) :
    (Float32.PositiveFinite value →
      (RoundsToEven codeValue topCode (Float32.value value)
        (float32To20e4 value .nearestEven).toNat ↔ ¬ TieBitsDropped value)) ∧
    (Float32.PositiveFinite value →
      RoundsDown codeValue topCode (Float32.value value)
        (float32To20e4 value .truncate).toNat) ∧
    (∀ rounding x y, Float32.PositiveFinite x → Float32.PositiveFinite y →
      Float32.value x ≤ Float32.value y →
        float32To20e4 x rounding ≤ float32To20e4 y rounding) ∧
    (∀ rounding code, code ≤ kFloat20e4Mask →
      float32To20e4 (float20e4ToFloat32 code) rounding = code) ∧
    (∀ rounding packed, packDepthStencil .d24fs8 (unpackDepthStencil .d24fs8 packed).depth
      (unpackDepthStencil .d24fs8 packed).stencil rounding = packed) ∧
    (∀ rounding packed, hostToDepthStencil .d24fs8 (depthStencilToHost .d24fs8 packed).depth
      (depthStencilToHost .d24fs8 packed).stencil rounding = packed) :=
  ⟨fun h => roundsToEven_float32To20e4_iff h, fun h => roundsDown_float32To20e4 h,
    fun rounding _ _ hx hy hxy => float32To20e4_mono hx hy hxy rounding,
    fun rounding _ hle => float32To20e4_float20e4ToFloat32 rounding hle,
    pack_unpack, hostToDepthStencil_depthStencilToHost⟩

/-- The float `0.3` is rounded to the nearest code. -/
theorem float20e4_rounds_thirdTenth :
    RoundsToEven codeValue topCode (Float32.value 0x3E99999A)
      (float32To20e4 0x3E99999A .nearestEven).toNat :=
  ((float20e4_rounds_iff 0x3E99999A).1 (by decide)).2 (by decide)

/-- **The float just above half the smallest code is rounded to zero**: the bit that
puts it above the tie is shifted out before the rounding looks. -/
theorem float20e4_misrounds_half :
    ¬ ∀ value, Float32.PositiveFinite value →
      RoundsToEven codeValue topCode (Float32.value value)
        (float32To20e4 value .nearestEven).toNat := by
  intro h
  have hfinite : Float32.PositiveFinite 0x2E000001 := by decide
  exact (roundsToEven_float32To20e4_iff hfinite).1 (h 0x2E000001 hfinite) (by decide)

end Gpu
end XenonRecomp
