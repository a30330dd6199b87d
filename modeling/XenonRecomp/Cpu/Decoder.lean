/-
# The decoder

`src/cpu/ppc/decoder/decoder.cpp`.  The catalogue is split by the six primary
opcode bits; each bucket is put in order of specificity by exchanging entries
(`make_decode_index`), and `decode` takes the first entry of the word's bucket
whose fixed bits agree with the word.

What the rest of the development uses of the decoder is `decode_mem`: a decoded
instruction carries its own address and word and a row of the catalogue.
-/

import XenonRecomp.Cpu.Instruction

namespace XenonRecomp
namespace Cpu
namespace Decoder

/-- `std::popcount`. -/
def popcount (w : BitVec 32) : ℕ := (List.range 32).countP fun k => w.getLsbD k

/-- The number of bits a row fixes: the popcount of its mask. -/
def specificity (op : OpcodeInfo) : ℕ := popcount (maskForFormat op.format)

/-- One pass of the inner loop of `make_decode_index`: `x` stands at position
`i`, and every later entry that fixes more bits changes places with it. -/
def exchange : OpcodeInfo → List OpcodeInfo → OpcodeInfo × List OpcodeInfo
  | x, [] => (x, [])
  | x, y :: ys =>
    if specificity x < specificity y then
      ((exchange y ys).1, x :: (exchange y ys).2)
    else
      ((exchange x ys).1, y :: (exchange x ys).2)

/-- The outer loop of `make_decode_index`, over a bucket of at most `n` entries. -/
def sortBySpecificity : ℕ → List OpcodeInfo → List OpcodeInfo
  | _, [] => []
  | 0, ops => ops
  | n + 1, x :: xs => (exchange x xs).1 :: sortBySpecificity n (exchange x xs).2

/-- `kDecodeIndex.buckets[primary]`. -/
def bucket (primary : BitVec 6) : List OpcodeInfo :=
  sortBySpecificity opcodeCatalog.length
    (opcodeCatalog.filter fun op => op.pattern.extractLsb' 26 6 == primary)

/-- The word agrees with the row on the bits the row fixes. -/
def wordMatches (word : BitVec 32) (op : OpcodeInfo) : Bool :=
  word &&& maskForFormat op.format == op.pattern &&& maskForFormat op.format

/-- `Decoder::decode`; `none` is a null `info`. -/
def decode (address : GuestAddress) (word : BitVec 32) : Option DecodedInstruction :=
  ((bucket (word.extractLsb' 26 6)).find? (wordMatches word)).map fun op => ⟨address, word, op⟩

theorem exchange_perm (x : OpcodeInfo) (xs : List OpcodeInfo) :
    List.Perm ((exchange x xs).1 :: (exchange x xs).2) (x :: xs) := by
  induction xs generalizing x with
  | nil => exact List.Perm.refl _
  | cons y ys ih =>
    unfold exchange
    split_ifs
    · exact (List.Perm.swap _ _ _).trans ((ih y).cons x)
    · exact (List.Perm.swap _ _ _).trans (((ih x).cons y).trans (List.Perm.swap _ _ _))

theorem sortBySpecificity_perm (n : ℕ) (ops : List OpcodeInfo) :
    List.Perm (sortBySpecificity n ops) ops := by
  induction n generalizing ops with
  | zero => cases ops <;> exact List.Perm.refl _
  | succ n ih =>
    cases ops with
    | nil => exact List.Perm.refl _
    | cons x xs => exact ((ih _).cons _).trans (exchange_perm x xs)

/-- **What `decode` returns is the word under a row of the catalogue.** -/
theorem decode_mem {address : GuestAddress} {word : BitVec 32} {i : DecodedInstruction}
    (h : decode address word = some i) :
    i.address = address ∧ i.word = word ∧ i.info ∈ opcodeCatalog ∧
      wordMatches word i.info = true := by
  obtain ⟨op, hop, rfl⟩ := Option.map_eq_some_iff.1 h
  have hmem := (sortBySpecificity_perm _ _).mem_iff.1 (List.mem_of_find?_eq_some hop)
  exact ⟨rfl, rfl, (List.mem_filter.1 hmem).1, List.find?_some hop⟩

end Decoder
end Cpu
end XenonRecomp
