/-
# The IR builder

`ir::Builder` of `include/xenon/cpu/ir.hpp` and `src/cpu/ir/ir.cpp`.  An action
of the builder appends operations to a block, numbers their results from the
block's next free value and tags them with the guest instruction being lifted.
It cannot look at what the block already holds, so it is a function of that
instruction and of the next free number, to a result, the number that is free
afterwards and the operations it appends.
-/

import XenonRecomp.Ir.Basic

namespace XenonRecomp
namespace Ir

open Cpu

/-- What an action leaves: its result, the next free value number and the
operations it appended. -/
structure Built (α : Type) where
  result : α
  next : ValueId
  code : List Instruction

/-- An action of the builder, lifting a guest instruction. -/
def Build (α : Type) : Type := DecodedInstruction → ValueId → Built α

namespace Build

variable {α β : Type}

/-- Nothing appended. -/
def done (x : α) : Build α := fun _ n => ⟨x, n, []⟩

/-- One action after another. -/
def andThen (a : Build α) (f : α → Build β) : Build β := fun g n =>
  let r := a g n
  let s := f r.result g r.next
  ⟨s.result, s.next, r.code ++ s.code⟩

instance : Monad Build where
  pure := done
  bind := andThen

instance : LawfulMonad Build := LawfulMonad.mk' _
  (by
    intro α x
    funext g n
    change (⟨_, _, (x g n).code ++ []⟩ : Built α) = x g n
    rw [List.append_nil]
    rfl)
  (fun _ _ => rfl)
  (by
    intro α β γ x f k
    funext g n
    change (⟨_, _, _ ++ _ ++ _⟩ : Built γ) = ⟨_, _, _ ++ (_ ++ _)⟩
    rw [List.append_assoc]
    rfl)

end Build

/-- `Builder::emit`.  The number it returns names the result; for a void
operation it names nothing. -/
def emit (op : Op) (type : IrType) (args : List ValueId) (imm0 : BitVec 64 := 0)
    (imm1 : BitVec 64 := 0) : Build ValueId := fun guest n =>
  let isVoid := type = .void
  { result := n
    next := if isVoid then n else n + 1
    code :=
      [{ op := op, type := type, result := if isVoid then none else some n, args := args,
         imm0 := imm0, imm1 := imm1, guestAddress := guest.address, guestWord := guest.word,
         guestMnemonic := guest.mnemonic }] }

/-- `emit` of a void operation. -/
def emitVoid (op : Op) (args : List ValueId) (imm0 : BitVec 64 := 0) (imm1 : BitVec 64 := 0) :
    Build Unit := do
  let _ ← emit op .void args imm0 imm1

/-- `constant_i64`. -/
def constantI64 (value : BitVec 64) : Build ValueId := emit .constant .i64 [] value

/-- `constant_i32`. -/
def constantI32 (value : BitVec 32) : Build ValueId := emit .constant .i32 [] (value.setWidth 64)

/-- `constant_i1`. -/
def constantI1 (value : Bool) : Build ValueId :=
  emit .constant .i1 [] (if value then 1 else 0)

/-- `read_gpr`. -/
def readGpr (reg : BitVec 5) : Build ValueId := emit .readGpr .i64 [] (reg.setWidth 64)

/-- `write_gpr`. -/
def writeGpr (reg : BitVec 5) (value : ValueId) : Build Unit :=
  emitVoid .writeGpr [value] (reg.setWidth 64)

/-- `read_fpr_bits`. -/
def readFprBits (reg : BitVec 5) : Build ValueId := emit .readFprBits .i64 [] (reg.setWidth 64)

/-- `write_fpr_bits`. -/
def writeFprBits (reg : BitVec 5) (value : ValueId) : Build Unit :=
  emitVoid .writeFprBits [value] (reg.setWidth 64)

/-- `read_vector`. -/
def readVector (reg : BitVec 7) : Build ValueId := emit .readVector .v128 [] (reg.setWidth 64)

/-- `write_vector`. -/
def writeVector (reg : BitVec 7) (value : ValueId) : Build Unit :=
  emitVoid .writeVector [value] (reg.setWidth 64)

/-- `read_lr`. -/
def readLr : Build ValueId := emit .readLR .i64 []

/-- `write_lr`. -/
def writeLr (value : ValueId) : Build Unit := emitVoid .writeLR [value]

/-- `read_ctr`. -/
def readCtr : Build ValueId := emit .readCTR .i64 []

/-- `write_ctr`. -/
def writeCtr (value : ValueId) : Build Unit := emitVoid .writeCTR [value]

end Ir
end XenonRecomp
