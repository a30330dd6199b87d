/-
# The native replacements compute the C functions

For every state and memory in which the C function is defined, a replacement leaves the
value of the function in r3 and the bytes it writes in memory, and changes nothing else.
Two bounds belong to the statement: `strlen`, `strstr` and `strrchr` look at the first
65535 characters of a string only, and a checked copy that is refused leaves the
destination as it was, where the C function clears it.
-/

import XenonRecomp.Recomp.NativeScans

namespace XenonRecomp
namespace Recomp
namespace NativeReplacements

open Cpu Machine Library Library.ByteMemory

/-- A native replacement. -/
abbrev NativeFunction := ExecutionContext → Option (ExecutionContext × ExecutionResult)

/-! ### Contracts -/

/-- The function returns to its caller with a result in r3 and a memory, and no other
register changes. -/
def Yields (f : NativeFunction) (context : ExecutionContext) (result : BitVec 64)
    (memory : GuestMemory) : Prop :=
  ∃ after, f context = some (after, ⟨.return, (context.state.lr &&& ~~~3).setWidth 32, 0⟩) ∧
    after.memory = memory ∧ after.state.gpr 3 = result ∧
    (∀ reg ≠ 3, after.state.gpr reg = context.state.gpr reg) ∧
    after.state = { context.state with gpr := after.state.gpr }

/-- `memcpy` and `memmove`. -/
def Copies (f : NativeFunction) : Prop :=
  ∀ context : ExecutionContext,
    context.memory.CanRead (context.arg 4) (context.arg 5).toNat →
    context.memory.CanWrite (context.arg 3) (context.arg 5).toNat →
    Yields f context ((context.arg 3).setWidth 64)
      (context.memory.put (context.arg 3)
        (context.memory.get (context.arg 4) (context.arg 5).toNat))

/-- `memset`. -/
def Fills (f : NativeFunction) : Prop :=
  ∀ context : ExecutionContext,
    context.memory.CanWrite (context.arg 3) (context.arg 5).toNat →
    Yields f context ((context.arg 3).setWidth 64)
      (context.memory.put (context.arg 3)
        (List.replicate (context.arg 5).toNat (context.byteArg 4)))

/-- `memcmp`. -/
def Compares (f : NativeFunction) : Prop :=
  ∀ context : ExecutionContext,
    context.memory.CanRead (context.arg 3) (context.arg 5).toNat →
    context.memory.CanRead (context.arg 4) (context.arg 5).toNat →
    ∃ result : BitVec 64,
      HasSign (context.memory.get (context.arg 3) (context.arg 5).toNat)
        (context.memory.get (context.arg 4) (context.arg 5).toNat)
        (result.setWidth 32).toInt ∧
      Yields f context result context.memory

/-- `strncmp`, of the strings up to their ends or the given count. -/
def ComparesStrings (f : NativeFunction) : Prop :=
  ∀ context : ExecutionContext,
    let lhs := context.memory.cut (context.arg 3) (context.arg 5).toNat
    let rhs := context.memory.cut (context.arg 4) (context.arg 5).toNat
    context.memory.CanRead (context.arg 3) lhs.length →
    context.memory.CanRead (context.arg 4) rhs.length →
    ∃ result : BitVec 64, HasSign lhs rhs (result.setWidth 32).toInt ∧
      Yields f context result context.memory

/-- `strncpy`. -/
def CopiesString (f : NativeFunction) : Prop :=
  ∀ context : ExecutionContext,
    let count := (context.arg 5).toNat
    context.memory.CanRead (context.arg 4) (context.memory.cut (context.arg 4) count).length →
    context.memory.CanWrite (context.arg 3) count →
    Apart context.memory (context.arg 3) (context.arg 4) count →
    Yields f context ((context.arg 3).setWidth 64)
      (context.memory.put (context.arg 3) (padded context.memory (context.arg 4) count))

/-- `strlen`, of what is seen of the string. -/
def Measures (seen : List (BitVec 8) → List (BitVec 8)) (f : NativeFunction) : Prop :=
  ∀ (context : ExecutionContext) (text : List (BitVec 8)),
    context.memory.IsString (context.arg 3) text →
    Yields f context (BitVec.ofNat 64 (seen text).length) context.memory

/-- `strchr`; the end of the string belongs to it. -/
def FindsByte (f : NativeFunction) : Prop :=
  ∀ (context : ExecutionContext) (text : List (BitVec 8)),
    context.memory.IsString (context.arg 3) text →
    ∃ r, FirstAt (context.byteArg 4) (text ++ [0]) r ∧
      Yields f context ((place (context.arg 3) r).setWidth 64) context.memory

/-- `strstr`, of what is seen of the strings. -/
def FindsText (seen : List (BitVec 8) → List (BitVec 8)) (f : NativeFunction) : Prop :=
  ∀ (context : ExecutionContext) (haystack needle : List (BitVec 8)),
    context.memory.IsString (context.arg 3) haystack →
    context.memory.IsString (context.arg 4) needle →
    ∃ r, FirstOccurrence (seen needle) (seen haystack) r ∧
      Yields f context ((place (context.arg 3) r).setWidth 64) context.memory

/-- `strrchr`, of what is seen of the string; its end belongs to it. -/
def FindsLastByte (seen : List (BitVec 8) → List (BitVec 8)) (f : NativeFunction) : Prop :=
  ∀ (context : ExecutionContext) (text : List (BitVec 8)),
    context.memory.IsString (context.arg 3) text →
    ∃ r, LastAt (context.byteArg 4) (seen text ++ [0]) r ∧
      Yields f context ((place (context.arg 3) r).setWidth 64) context.memory

/-- `memcpy_s` and `memmove_s`: a copy that fits, else ERANGE and what a refusal leaves of
the destination. -/
def CopiesChecked (refused : GuestMemory → GuestAddress → ℕ → GuestMemory)
    (f : NativeFunction) : Prop :=
  ∀ context : ExecutionContext,
    let dst := context.arg 3
    let dstSize := (context.arg 4).toNat
    let count := (context.arg 6).toNat
    (count ≤ dstSize → context.memory.CanRead (context.arg 5) count →
      context.memory.CanWrite dst count →
      Yields f context 0
        (context.memory.put dst (context.memory.get (context.arg 5) count))) ∧
    (dstSize < count → Yields f context 34 (refused context.memory dst dstSize))

/-- `strcpy_s`: a copy that fits with its end, else ERANGE and an empty string. -/
def CopiesStringChecked (f : NativeFunction) : Prop :=
  ∀ (context : ExecutionContext) (text : List (BitVec 8)),
    let dst := context.arg 3
    let dstSize := (context.arg 4).toNat
    context.memory.IsString (context.arg 5) text →
    (text.length < dstSize → context.memory.CanWrite dst (text.length + 1) →
      Yields f context 0 (context.memory.put dst (text ++ [0]))) ∧
    (dstSize ≤ text.length → context.memory.CanWrite dst (min dstSize 1) →
      Yields f context 34 (context.memory.put dst (List.replicate (min dstSize 1) 0)))

/-! ### The replacements -/

variable {context : ExecutionContext} {memory : GuestMemory} {f : NativeFunction}

theorem yields_of_finish {result : BitVec 64} (h : f context = some (finish context result memory)) :
    Yields f context result memory := by
  refine ⟨_, h, rfl, ?_, fun reg hreg => ?_, rfl⟩
  · exact Function.update_self (3 : BitVec 5) result context.state.gpr
  · exact Function.update_of_ne hreg _ _

theorem memcpyV2_copies : Copies memcpyV2 := by
  intro context hread hwrite
  have hlt := (context.arg 5).isLt
  refine yields_of_finish ?_
  rw [memcpyV2, readBytes_eq hread]
  change (context.memory.writeBytes _ _).bind _ = _
  rw [writeBytes_eq (by rwa [length_get]) (by rw [length_get]; omega)]
  rfl

theorem memsetV2_fills : Fills memsetV2 := by
  intro context hwrite
  have hlt := (context.arg 5).isLt
  refine yields_of_finish ?_
  rw [memsetV2, fillBytes_eq hwrite (by omega)]
  rfl

/-- The result of a comparison has its sign as a 32-bit number. -/
theorem hasSign_signedResult {u v : List (BitVec 8)} (h : Aligned u v) :
    HasSign u v ((signedResult (compareBytes u v)).setWidth 32).toInt := by
  obtain ⟨hlow, hhigh⟩ := compareBytes_bounds u v
  rw [toInt_signedResult hlow hhigh]
  exact compareBytes_sign h

theorem memcmpV2_compares : Compares memcmpV2 := by
  intro context hlhs hrhs
  refine ⟨_, hasSign_signedResult (aligned_of_length_eq (by rw [length_get, length_get])),
    yields_of_finish ?_⟩
  rw [memcmpV2, readBytes_eq hlhs, readBytes_eq hrhs]
  rfl

theorem strncmpV2_compares : ComparesStrings strncmpV2 := by
  intro context lhs rhs hlhs hrhs
  refine ⟨_, hasSign_signedResult (aligned_cut _ _ _), yields_of_finish ?_⟩
  rw [strncmpV2, compareStrings_eq hlhs hrhs]
  rfl

theorem strncpyV2_copies : CopiesString strncpyV2 := by
  intro context count hread hwrite hapart
  have hlt := (context.arg 5).isLt
  refine yields_of_finish ?_
  rw [strncpyV2, copyString_eq hread hwrite hapart (by omega)]
  rfl

/-- What the bounded reader sees of a string. -/
def seen (text : List (BitVec 8)) : List (BitVec 8) := text.take defaultMaxLength

theorem strlenV2_measures : Measures seen strlenV2 := by
  intro context text htext
  refine yields_of_finish ?_
  rw [strlenV2, readGuestCstring_eq htext]
  rfl

theorem strchrV2_finds : FindsByte strchrV2 := by
  intro context text htext
  obtain ⟨r, hr, heq⟩ := searchByte_eq htext htext.length_lt (context.byteArg 4)
  refine ⟨r, hr, yields_of_finish ?_⟩
  rw [strchrV2, heq]
  rfl

theorem strstrV2_finds : FindsText seen strstrV2 := by
  intro context haystack needle hhaystack hneedle
  have hrun : strstrV2 context = some (finish context
      ((if (seen needle).isEmpty then context.arg 3
        else (find (seen haystack) (seen needle)).elim 0
          fun position => context.arg 3 + BitVec.ofNat 32 position).setWidth 64)
      context.memory) := by
    rw [strstrV2, readGuestCstring_eq hhaystack, readGuestCstring_eq hneedle,
      Option.bind_eq_bind, Option.bind_some, Option.bind_some, seen, seen]
    cases find (haystack.take defaultMaxLength) (needle.take defaultMaxLength) <;> rfl
  by_cases hempty : seen needle = []
  · refine ⟨some 0, ⟨hempty ▸ List.nil_prefix, fun j hj => absurd hj (Nat.not_lt_zero j)⟩,
      yields_of_finish ?_⟩
    rw [hrun, hempty, place, BitVec.add_zero]
    rfl
  · refine ⟨_, find_spec (seen haystack) (seen needle), yields_of_finish ?_⟩
    rw [hrun, if_neg (by rwa [List.isEmpty_iff])]
    cases find (seen haystack) (seen needle) <;> rfl

theorem LastAt.append_zero {text : List (BitVec 8)} {c : BitVec 8} {r : Option ℕ}
    (h : LastAt c text r) (hc : c ≠ 0) : LastAt c (text ++ [0]) r := by
  have hnot : ∀ j : ℕ, (text ++ [0])[j]? = some c → text[j]? = some c := by
    intro j hj
    rcases lt_or_ge j text.length with hlt | hge
    · rwa [List.getElem?_append_left hlt] at hj
    · rw [List.getElem?_append_right hge] at hj
      have hmem := List.mem_of_getElem? hj
      exact absurd (List.mem_singleton.mp hmem) hc
  cases r with
  | none =>
    intro hmem
    obtain ⟨j, hj⟩ := List.getElem?_of_mem hmem
    exact h (List.mem_of_getElem? (hnot j hj))
  | some i =>
    refine ⟨?_, fun j hij hj => h.2 j hij (hnot j hj)⟩
    obtain ⟨hlt, -⟩ := List.getElem?_eq_some_iff.mp h.1
    rw [List.getElem?_append_left hlt]
    exact h.1

/-- The end of a string is the last zero in it. -/
theorem lastAt_end (text : List (BitVec 8)) : LastAt 0 (text ++ [0]) (some text.length) := by
  refine ⟨?_, fun j hj hsome => ?_⟩
  · rw [List.getElem?_append_right le_rfl, Nat.sub_self]
    rfl
  · obtain ⟨hlt, -⟩ := List.getElem?_eq_some_iff.mp hsome
    rw [List.length_append, List.length_singleton] at hlt
    omega

theorem strrchrV2_finds : FindsLastByte seen strrchrV2 := by
  intro context text htext
  have hrun : strrchrV2 context = some (finish context
      (((findLastOf (seen text) (context.byteArg 4)).elim
        (if context.byteArg 4 = 0 then context.arg 3 + BitVec.ofNat 32 (seen text).length else 0)
        fun position => context.arg 3 + BitVec.ofNat 32 position).setWidth 64)
      context.memory) := by
    rw [strrchrV2, readGuestCstring_eq htext, Option.bind_eq_bind, Option.bind_some, seen]
    cases findLastOf (text.take defaultMaxLength) (context.byteArg 4) <;> rfl
  have hfind := findLastOf_spec (seen text) (context.byteArg 4)
  by_cases hc : context.byteArg 4 = 0
  · refine ⟨some (seen text).length, hc ▸ lastAt_end (seen text), yields_of_finish ?_⟩
    have hnone : findLastOf (seen text) (context.byteArg 4) = none := by
      cases hr : findLastOf (seen text) (context.byteArg 4) with
      | none => rfl
      | some i =>
        rw [hr] at hfind
        have hmem := List.mem_of_mem_take (List.mem_of_getElem? hfind.1)
        exact absurd (hc ▸ hmem) htext.zero_notMem
    rw [hrun, hnone, if_pos hc]
    rfl
  · refine ⟨_, LastAt.append_zero hfind hc, yields_of_finish ?_⟩
    rw [hrun]
    cases findLastOf (seen text) (context.byteArg 4) with
    | none =>
      rw [if_neg hc]
      rfl
    | some i => rfl

/-- A refused copy leaves the destination as it was. -/
def unchanged (memory : GuestMemory) (_ : GuestAddress) (_ : ℕ) : GuestMemory := memory

theorem memcpyCheckedV2_copies : CopiesChecked unchanged memcpyCheckedV2 := by
  intro context dst dstSize count
  refine ⟨fun hle hread hwrite => yields_of_finish ?_, fun hlt => yields_of_finish ?_⟩
  · have hlt := (context.arg 6).isLt
    have hfits : ¬ context.arg 4 < context.arg 6 := by
      rw [BitVec.lt_def]
      omega
    rw [memcpyCheckedV2, if_neg hfits, readBytes_eq hread]
    change (context.memory.writeBytes _ _).bind _ = _
    rw [writeBytes_eq (by rwa [length_get]) (by rw [length_get]; omega)]
    rfl
  · have hexceeds : context.arg 4 < context.arg 6 := BitVec.lt_def.mpr hlt
    rw [memcpyCheckedV2, if_pos hexceeds]
    rfl

theorem strcpyCheckedV2_copies : CopiesStringChecked strcpyCheckedV2 := by
  intro context text dst dstSize htext
  have hlen := htext.length_lt
  refine ⟨fun hfits hwrite => yields_of_finish ?_, fun hlong hwrite => yields_of_finish ?_⟩
  · have hbound : ¬ (context.arg 4 = 0 ∨ (context.arg 4).toNat < text.length + 1) := by
      rintro (hzero | hlt)
      · have hnot : dstSize = 0 := congrArg BitVec.toNat hzero
        omega
      · exact absurd hlt (by omega)
    have htake : text.take (context.arg 4).toNat = text := List.take_of_length_le hfits.le
    have hbytes : context.memory.CanWrite (context.arg 3) text.length :=
      fun i hi => hwrite i (by omega)
    have hend : (context.memory.put (context.arg 3) text).writable
        (context.arg 3 + BitVec.ofNat 32 text.length) = true :=
      hwrite text.length (Nat.lt_succ_self _)
    rw [strcpyCheckedV2, readGuestCstring_eq htext, htake]
    refine (if_neg hbound).trans ?_
    rw [writeBytes_eq hbytes hlen.le]
    change ((context.memory.put (context.arg 3) text).write8 _ 0).bind _ = _
    rw [write8_eq hend, put_append _ _ _ hlen]
    rfl
  · have htake : (text.take (context.arg 4).toNat).length = dstSize := by
      rw [List.length_take]
      exact min_eq_left hlong
    have hbound : context.arg 4 = 0 ∨
        (context.arg 4).toNat < (text.take (context.arg 4).toNat).length + 1 :=
      .inr (htake ▸ Nat.lt_succ_self _)
    rw [strcpyCheckedV2, readGuestCstring_eq htext]
    refine (if_pos hbound).trans ?_
    by_cases hpos : 0 < context.arg 4
    · have hone : min dstSize 1 = 1 := min_eq_right (BitVec.lt_def.mp hpos)
      rw [hone] at hwrite ⊢
      have hfirst : context.memory.writable (context.arg 3) = true := (canWrite_succ.mp hwrite).1
      rw [if_pos hpos, write8_eq hfirst]
      rfl
    · have hnone : min dstSize 1 = 0 := by
        rw [BitVec.lt_def] at hpos
        exact Nat.min_eq_zero_iff.mpr (.inl (Nat.eq_zero_of_not_pos hpos))
      rw [if_neg hpos, hnone]
      rfl

/-- **Every native replacement computes its C function**, of the part of a string that
`strlen`, `strstr` and `strrchr` see, and with the destination of a refused checked copy
unchanged. -/
theorem native_replacements_compute :
    Copies memcpyV2 ∧ Copies memmoveV2 ∧ Fills memsetV2 ∧ Compares memcmpV2 ∧
      Measures seen strlenV2 ∧ ComparesStrings strncmpV2 ∧ CopiesString strncpyV2 ∧
      FindsByte strchrV2 ∧ FindsText seen strstrV2 ∧ FindsLastByte seen strrchrV2 ∧
      CopiesChecked unchanged memcpyCheckedV2 ∧ CopiesChecked unchanged memmoveCheckedV2 ∧
      CopiesStringChecked strcpyCheckedV2 :=
  ⟨memcpyV2_copies, memcpyV2_copies, memsetV2_fills, memcmpV2_compares, strlenV2_measures,
    strncmpV2_compares, strncpyV2_copies, strchrV2_finds, strstrV2_finds, strrchrV2_finds,
    memcpyCheckedV2_copies, memcpyCheckedV2_copies, strcpyCheckedV2_copies⟩

/-- 65536 characters from address 0 on, with a zero behind them. -/
def longString : GuestMemory :=
  ⟨fun a => if a.toNat < 0x10000 then 1 else 0, fun _ => true, fun _ => true⟩

/-- A call with dst 0 of size 1 and a count of 2. -/
def longStringCall : ExecutionContext :=
  ⟨(CpuState.zero.setGpr 4 1).setGpr 6 2, longString⟩

theorem longString_isString : longString.IsString 0 (List.replicate 0x10000 1) := by
  refine isString_replicate (m := longString) (by decide) (fun _ _ => rfl) (fun i hi => ?_) rfl
  have hplace : 0 + BitVec.ofNat 32 i = BitVec.ofNat 32 i := BitVec.zero_add _
  rw [hplace]
  refine if_pos ?_
  rw [BitVec.toNat_ofNat, Nat.mod_eq_of_lt (by omega)]
  exact hi

/-- The length of the whole string is not the result of `strlen`, and a checked copy that
is refused does not clear its destination. -/
theorem native_replacements_stop_early :
    ¬ Measures id strlenV2 ∧
      ¬ CopiesChecked (fun memory dst size => memory.put dst (List.replicate size 0))
        memcpyCheckedV2 := by
  constructor
  · intro h
    obtain ⟨after, hrun, -, hresult, -⟩ := h longStringCall _ longString_isString
    obtain ⟨after', hrun', -, hresult', -⟩ :=
      strlenV2_measures longStringCall _ longString_isString
    obtain ⟨rfl, -⟩ := Prod.mk.inj (Option.some.inj (hrun.symm.trans hrun'))
    rw [hresult, seen, List.length_take, id, List.length_replicate] at hresult'
    revert hresult'
    decide
  · intro h
    have hexceeds : (longStringCall.arg 4).toNat < (longStringCall.arg 6).toNat := by decide
    obtain ⟨after, hrun, hmemory, -⟩ := (h longStringCall).2 hexceeds
    obtain ⟨after', hrun', hmemory', -⟩ := (memcpyCheckedV2_copies longStringCall).2 hexceeds
    obtain ⟨rfl, -⟩ := Prod.mk.inj (Option.some.inj (hrun.symm.trans hrun'))
    have hbyte := congrArg (fun memory => memory.byte 0) (hmemory.symm.trans hmemory')
    revert hbyte
    decide

end NativeReplacements
end Recomp
end XenonRecomp
