/-
# What holds of everything the LZX decoder reads

The trees, the symbols and the headers are read by programs made of reads of
some bits, of looks at the flag, and of errors.  What holds of these and passes
to sequences holds of all of them; it is proved once, for any such property.
-/

import XenonRecomp.Xex.LzxDecoder

namespace XenonRecomp
namespace Xex
namespace Lzx

open Library.Loop

/-- The two parts of a sequence of reads that succeeded. -/
theorem bind_ok {α β : Type} {m : DecodeM α} {f : α → DecodeM β} {r r' : BitReader} {b : β} :
    (m >>= f) r = .ok (b, r') ↔ ∃ a r₁, m r = .ok (a, r₁) ∧ f a r₁ = .ok (b, r') := by
  have hbind : (m >>= f) r = (m r >>= fun p => f p.1 p.2) := rfl
  rw [hbind, bind_eq_ok]
  constructor
  · rintro ⟨⟨a, r₁⟩, hm, hf⟩
    exact ⟨a, r₁, hm, hf⟩
  · rintro ⟨a, r₁, hm, hf⟩
    exact ⟨(a, r₁), hm, hf⟩

/-- A property of programs that holds of the reads and of what is made of them. -/
structure ReadRule (Q : ∀ α : Type, DecodeM α → Prop) : Prop where
  pure : ∀ {α : Type} (a : α), Q α (pure a)
  throw : ∀ {α : Type} (error : String), Q α (throw error)
  bind : ∀ {α β : Type} {m : DecodeM α} {f : α → DecodeM β}, Q α m → (∀ a, Q β (f a)) →
    Q β (m >>= f)
  read : ∀ n, Q ℕ (read n)
  outOfData : Q Bool outOfData

namespace ReadRule

variable {Q : ∀ α : Type, DecodeM α → Prop} (hQ : ReadRule Q)
include hQ

theorem whileM {α : Type} {condition : α → Bool} {body : α → DecodeM α}
    (hbody : ∀ a, Q α (body a)) : ∀ (fuel : ℕ) (a : α), Q α (whileM condition body fuel a) := by
  intro fuel
  induction fuel with
  | zero => exact fun a => hQ.pure a
  | succ fuel ih =>
    intro a
    rw [Library.Loop.whileM]
    split
    · exact hQ.bind (hbody a) ih
    · exact hQ.pure a

/-- What stops where the flag is up, and goes on where it is not. -/
theorem unlessEnded {α : Type} (error : String) {m : DecodeM α} (hm : Q α m) :
    Q α (do
      if ← Lzx.outOfData then MonadExcept.throw error
      m) := by
  refine hQ.bind hQ.outOfData fun ended => ?_
  cases ended with
  | true => exact hQ.bind (hQ.throw error) fun _ => hm
  | false => exact hm

theorem readMany (width : ℕ) : ∀ count, Q _ (readMany width count)
  | 0 => hQ.pure []
  | count + 1 => hQ.bind (hQ.read width) fun _ => hQ.bind (readMany width count) fun _ => hQ.pure _

theorem buildTable (error : String) (lengths : List ℕ) : Q _ (buildTable error lengths) := by
  unfold Lzx.buildTable
  split
  · exact hQ.pure _
  · exact hQ.throw error

theorem decode (t : HuffmanTable) (error : String) : Q _ (t.decode error) := by
  suffices h : ∀ lengths length code, Q _ (t.decodeFrom error lengths length code) from
    h kMaxCodeLength 1 0
  intro lengths
  induction lengths with
  | zero => exact fun _ _ => hQ.throw error
  | succ lengths ih =>
    intro length code
    refine hQ.bind (hQ.read 1) fun bit => ?_
    dsimp only
    split
    · exact hQ.pure _
    · exact hQ.unlessEnded error (ih _ _)

theorem readPretreeAndLengths (error : String) (lengths : List ℕ) (start stop : ℕ) :
    Q _ (readPretreeAndLengths error lengths start stop) := by
  have hsymbol : ∀ pretree symbol i lengths,
      Q _ (applySymbol pretree error stop symbol i lengths) := by
    intro pretree symbol i lengths
    unfold applySymbol
    split
    · exact hQ.bind (hQ.read 4) fun _ => hQ.pure _
    split
    · exact hQ.bind (hQ.read 5) fun _ => hQ.pure _
    split
    · exact hQ.bind (hQ.read 1) fun _ => hQ.bind (hQ.decode pretree error) fun _ => hQ.pure _
    · exact hQ.pure _
  have hlengths : ∀ pretree p, Q _ (readLengths pretree error stop p) := fun pretree p =>
    hQ.bind (hQ.decode pretree error) fun symbol => hQ.bind (hsymbol _ _ _ _) fun next =>
      hQ.unlessEnded error (hQ.pure next)
  exact hQ.bind (hQ.readMany 4 _) fun _ => hQ.bind (hQ.buildTable error _) fun pretree =>
    hQ.bind (hQ.whileM (hlengths pretree) _ _) fun _ => hQ.pure _

theorem readTrees (aligned : Bool) (mainTreeSize : ℕ) (mainLengths lengthLengths : List ℕ) :
    Q _ (readTrees aligned mainTreeSize mainLengths lengthLengths) := by
  have haligned : Q _ (readAlignedTree aligned) := by
    unfold readAlignedTree
    split
    · exact hQ.bind (hQ.readMany 3 _) fun _ => hQ.bind (hQ.buildTable _ _) fun _ => hQ.pure _
    · exact hQ.pure none
  refine hQ.bind haligned fun _ => ?_
  iterate 3
    refine hQ.bind (hQ.readPretreeAndLengths _ _ _ _) fun _ => ?_
  exact hQ.bind (hQ.buildTable _ _) fun _ => hQ.bind (hQ.buildTable _ _) fun _ => hQ.pure _

theorem readToken (trees : BlockTrees) (offsets : ℕ × ℕ × ℕ) : Q _ (readToken trees offsets) := by
  have hlength : ∀ header, Q _ (readLength trees header) := fun header => by
    unfold readLength
    split
    · exact hQ.bind (hQ.decode _ _) fun _ => hQ.pure _
    · exact hQ.pure _
  have hextra : ∀ footerBits, Q _ (readExtra trees footerBits) := fun footerBits => by
    unfold readExtra
    split
    · split
      · exact hQ.bind (hQ.read _) fun _ => hQ.bind (hQ.decode _ _) fun _ => hQ.pure _
      · exact hQ.read _
    · exact hQ.read _
  have hdistance : ∀ slot, Q _ (readDistance trees offsets slot) := fun slot => by
    unfold readDistance
    dsimp only
    iterate 3
      split
      · exact hQ.pure _
    split
    · exact hQ.throw _
    · exact hQ.bind (hextra _) fun _ => hQ.pure _
  have hmatch : ∀ symbol, Q _ (readMatch trees offsets symbol) := fun symbol =>
    hQ.bind (hlength _) fun _ => hQ.bind (hdistance _) fun _ => hQ.unlessEnded _ (hQ.pure _)
  refine hQ.bind (hQ.decode _ _) fun symbol => ?_
  split
  · exact hQ.pure _
  · exact hQ.bind (hmatch symbol) fun _ => hQ.pure _

theorem readBlockHeader : Q _ readBlockHeader :=
  hQ.bind (hQ.read 3) fun _ => hQ.unlessEnded _ (hQ.bind (hQ.read 8) fun _ =>
    hQ.bind (hQ.read 16) fun _ => hQ.pure _)

end ReadRule

end Lzx
end Xex
end XenonRecomp
