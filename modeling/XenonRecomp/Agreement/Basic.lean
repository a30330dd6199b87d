/-
# Two implementations of one instruction

The interpreter executes a guest instruction directly; the lifter turns it into
code.  They agree when both make the same calls of the host and leave the same
state.  Hosts are logged: a logged host records the calls it receives, so that
equal runs make equal calls.

A conditional branch ends in a transfer of control that the two leave to others;
`emittedDecision` is what the code does up to that point, and the operands of the
transfer.
-/

import XenonRecomp.Emission.StateRules
import XenonRecomp.Cpu.Decoder

namespace XenonRecomp

namespace Machine

variable {σ : Type}

/-- A host that also records the calls it receives. -/
def Host.logged (h : Host σ) : Host (σ × List Request) where
  answer r s := ((h.answer r s.1).1, ((h.answer r s.1).2, s.2 ++ [r]))
  float := h.float

/-- A state with an empty record. -/
def State.logged (m : State σ) : State (σ × List Request) := ⟨m.cpu, (m.host, [])⟩

end Machine

namespace Agreement

open Cpu Ir Machine Run Emission Lifter

variable {σ : Type} (h : Host σ)

/-- An interpreter that does what a lifted instruction does agrees with it. -/
theorem agrees_of {i : DecodedInstruction} {x : Run σ Unit} {a : Build Unit} {e : Run σ Bool}
    (he : e = x >>= fun _ => pure true) (hl : liftGroup i = (a >>= fun _ => pure true))
    (hx : ∀ m, x m = (denote h a i 0 Env.empty >>= fun _ => pure ()) m) :
    e = runLifted h i >>= fun _ => pure true := by
  rw [he, runLifted_eq h hl, funext hx]

section perform

variable {α β : Type} {g : DecodedInstruction} {n : ValueId} {env : Env}

/-- Run an action for what it does to the machine. -/
def perform (a : Build α) (g : DecodedInstruction) (n : ValueId) (env : Env) : Run σ Unit :=
  denote h a g n env >>= fun _ => pure ()

@[simp] theorem perform_bind (a : Build α) (f : α → Build β) :
    perform h (a >>= f) g n env =
      denote h a g n env >>= fun t => perform h (f t.1) g t.2.1 t.2.2 := by
  simp only [perform, denote_bind, bind_assoc]

@[simp] theorem perform_pure (x : α) : perform h (pure x) g n env = pure () := rfl

@[simp] theorem perform_writeGpr (reg : BitVec 5) {a : ValueId} {x : BitVec 64}
    (ha : env a = some (.i64 x)) :
    perform h (writeGpr reg a) g n env = modifyCpu (·.setGpr reg x) := by
  rw [perform, denote_writeGpr h reg ha, bind_assoc]
  rfl

end perform

/-- To agree as instructions is to agree as computations. -/
theorem accepted_iff (x y : Run σ Unit) (m : State σ) :
    (x >>= fun _ => pure true) m = (y >>= fun _ => pure true) m ↔ x m = y m := by
  rw [bind_apply, bind_apply]
  rcases x m with ⟨_ | _, _⟩ <;> rcases y m with ⟨_ | _, _⟩ <;> simp

/-- The calls a run made of a logged host. -/
def calls {α : Type} (x : Run (σ × List Request) α) (m : State σ) : List Request :=
  (x m.logged).2.host.2

/-- One call, and then none. -/
theorem calls_ask {α : Type} {r : Request} {f : r.Reply → Run (σ × List Request) α}
    {m : State σ} (hf : ∀ a s, (f a s).2.host = s.host) :
    ((ask h.logged r >>= f) m.logged).2.host.2 = [r] := by
  rw [ask_bind]
  simp only [Host.logged, State.logged]
  rcases h.answer r m.host with ⟨_ | _, _⟩
  · rfl
  · simp only [hf]
    rfl

/-- The operands of a conditional transfer: is it taken, and to which word. -/
def transferOperands (env : Env) (c t : ValueId) : Run σ (Bool × GuestAddress) := do
  let taken ← ofOption ((env c).bind Value.bool?)
  let target ← ofOption ((env t).bind Value.u64?)
  pure (taken, target.setWidth 32 &&& ~~~3)

/-- The decision of a lifted conditional branch: all but its last operation run,
and the operands of that one say what it will do. -/
def emittedDecision (i : DecodedInstruction) : Run σ (Bool × GuestAddress) :=
  match lift i 0 with
  | some r => do
      let env ← runCode h r.code.dropLast Env.empty
      match r.code.getLast?.map Instruction.args with
      | some [c, t] => transferOperands env c t
      | _ => exit .stuck
  | none => exit .stuck

/-- The decision, when the lifter ends with the transfer. -/
theorem emittedDecision_eq {i : DecodedInstruction} {a : Build (ValueId × ValueId)} {op : Op}
    {i0 i1 : BitVec 64}
    (hl : liftGroup i = a >>= fun r => emitVoid op [r.1, r.2] i0 i1 >>= fun _ => pure true) :
    emittedDecision h i =
      denote h a i 0 Env.empty >>= fun r => transferOperands r.2.2 r.1.1 r.1.2 := by
  have hcode : (liftGroup i i 0).code = (a i 0).code ++ [emitted i op .void none
      [(a i 0).result.1, (a i 0).result.2] i0 i1] := by
    rw [hl]
    rfl
  have hresult : (liftGroup i i 0).result = true := by rw [hl]; rfl
  simp only [emittedDecision, lift, hresult, if_true, hcode, List.dropLast_concat,
    List.getLast?_concat, Option.map_some, emitted, denote, bind_assoc, pure_bind]

end Agreement
end XenonRecomp
