/-
# What lifted code computes

A lifter builds code; `denote` runs the code that an action builds, right from
where it starts numbering, so a sequence of actions can be run one action at a
time without looking at the code.  For each operation that the lifters emit there
is one rule: with operands of the types the lifters give it, it declares a value
or updates the state.  The rules are simp lemmas, and simplifying a lifter with
them executes it symbolically.
-/

import XenonRecomp.Emission.Exec
import XenonRecomp.Lifter.Lift

namespace XenonRecomp

namespace Emission

open Cpu Ir Machine Run

variable {σ α β : Type} (h : Host σ)

/-- Run the code that an action builds: its result, the next free number and the
variables declared. -/
def denote (a : Build α) (g : DecodedInstruction) (n : ValueId) (env : Env) :
    Run σ (α × ValueId × Env) := do
  let env' ← runCode h (a g n).code env
  pure ((a g n).result, (a g n).next, env')

@[simp] theorem denote_pure (x : α) (g : DecodedInstruction) (n : ValueId) (env : Env) :
    denote h (pure x) g n env = pure (x, n, env) := rfl

/-- A sequence of actions runs action by action. -/
@[simp] theorem denote_bind (a : Build α) (f : α → Build β) (g : DecodedInstruction)
    (n : ValueId) (env : Env) :
    denote h (a >>= f) g n env =
      denote h a g n env >>= fun r => denote h (f r.1) g r.2.1 r.2.2 := by
  simp only [denote, bind_assoc, pure_bind]
  change (runCode h ((a g n).code ++ (f (a g n).result g (a g n).next).code) env >>= _) = _
  rw [runCode_append, bind_assoc]
  rfl

@[simp] theorem denote_map (f : α → β) (a : Build α) (g : DecodedInstruction) (n : ValueId)
    (env : Env) :
    denote h (f <$> a) g n env =
      denote h a g n env >>= fun r => pure (f r.1, r.2.1, r.2.2) := by
  rw [← bind_pure_comp, denote_bind]
  rfl

/-- The code of one guest instruction, run alone. -/
def runLifted (i : DecodedInstruction) : Run σ Unit :=
  match Lifter.lift i 0 with
  | some r => do
      let _ ← runCode h r.code Env.empty
      pure ()
  | none => exit .stuck

/-- Running a lifted instruction is running the action its lifter takes. -/
theorem runLifted_eq {i : DecodedInstruction} {a : Build Unit}
    (ha : Lifter.liftGroup i = (a >>= fun _ => pure true)) :
    runLifted h i = denote h a i 0 Env.empty >>= fun _ => pure () := by
  have hcode : (Lifter.liftGroup i i 0).code = (a i 0).code := by
    rw [ha]
    exact List.append_nil _
  have hresult : (Lifter.liftGroup i i 0).result = true := by rw [ha]; rfl
  simp only [runLifted, Lifter.lift, hresult, if_true, hcode, denote, bind_assoc, pure_bind]

section rules

variable {g : DecodedInstruction} {n : ValueId} {env : Env}

/-- The operation that `emit` appends. -/
def emitted (g : DecodedInstruction) (op : Op) (t : IrType) (r : Option ValueId)
    (args : List ValueId) (imm0 imm1 : BitVec 64) : Instruction :=
  ⟨op, t, r, args, imm0, imm1, g.address, g.word, g.mnemonic⟩

/-- An emitted operation of a value type runs and declares its value. -/
theorem denote_emit {op : Op} {t : IrType} {args : List ValueId} {i0 i1 : BitVec 64}
    (ht : t ≠ .void) :
    denote h (emit op t args i0 i1) g n env =
      (ofOption (args.mapM env) >>= fun vals =>
        exec h (emitted g op t (some n) args i0 i1) vals >>= fun v =>
          match v with
          | some v => if v.type = t then pure (n, n + 1, env.set n v) else exit .stuck
          | none => exit .stuck) := by
  simp only [denote, emit, ht, if_false, runCode, runOne, bind_assoc]
  refine bind_congr fun vals => bind_congr fun v => ?_
  cases v with
  | none => rfl
  | some v =>
    by_cases hv : v.type = t
    · simp only [hv, if_true, pure_bind]
    · simp only [hv, if_false, exit_bind]

/-- An emitted void operation runs. -/
theorem denote_emitVoid {op : Op} {args : List ValueId} {i0 i1 : BitVec 64} :
    denote h (emitVoid op args i0 i1) g n env =
      (ofOption (args.mapM env) >>= fun vals =>
        exec h (emitted g op .void none args i0 i1) vals >>= fun _ => pure ((), n, env)) := by
  simp only [emitVoid, denote_bind, denote_pure]
  simp only [denote, emit, if_true, runCode, runOne, bind_assoc, pure_bind]
  rfl

/-- The rule of an operation on values. -/
theorem denote_value {op : Op} {t : IrType} {args : List ValueId} {i0 i1 : BitVec 64}
    {vals : List Value} {v : Value} (hc : opClass op = .value) (ht : t ≠ .void)
    (hargs : args.mapM env = some vals)
    (hv : evalPure h.float (emitted g op t (some n) args i0 i1) vals = some v)
    (hvt : v.type = t) :
    denote h (emit op t args i0 i1) g n env = pure (n, n + 1, env.set n v) := by
  have hx : exec h (emitted g op t (some n) args i0 i1) vals = pure (some v) := by
    simp only [exec, emitted] at hv ⊢
    rw [hc]
    simp only [hv, ofOption_some, map_pure]
  rw [denote_emit h ht, hargs, ofOption_some, pure_bind, hx, pure_bind]
  simp only [hvt, if_true]

/-- The rule of a read of the state. -/
theorem denote_read {op : Op} {t : IrType} {i0 i1 : BitVec 64} {v : CpuState → Value}
    (hc : opClass op = .read) (ht : t ≠ .void)
    (hv : ∀ s, readState (emitted g op t (some n) [] i0 i1) s = some (v s))
    (hvt : ∀ s, (v s).type = t) :
    denote h (emit op t [] i0 i1) g n env =
      getCpu >>= fun s => pure (n, n + 1, env.set n (v s)) := by
  rw [denote_emit h ht]
  simp only [List.mapM_nil, Option.pure_def, ofOption_some, pure_bind, exec, emitted] at hv ⊢
  rw [hc]
  simp only [hv, ofOption_some, map_pure, bind_assoc, pure_bind, hvt, if_true]

/-- The rule of a write of the state. -/
theorem denote_write {op : Op} {args : List ValueId} {i0 i1 : BitVec 64} {vals : List Value}
    {f : CpuState → CpuState} (hc : opClass op = .write) (hargs : args.mapM env = some vals)
    (hv : ∀ s, writeState (emitted g op .void none args i0 i1) vals s = some (f s)) :
    denote h (emitVoid op args i0 i1) g n env =
      modifyCpu f >>= fun _ => pure ((), n, env) := by
  rw [denote_emitVoid, hargs]
  simp only [ofOption_some, pure_bind, exec, emitted] at hv ⊢
  rw [hc]
  simp only [hv, ofOption_some, pure_bind, bind_assoc]
  rfl

/-- The rule of a call of the host that declares a value. -/
theorem denote_host {op : Op} {t : IrType} {args : List ValueId} {i0 i1 : BitVec 64}
    {vals : List Value} {x : Run σ (BitVec 64)} {v : BitVec 64 → Value}
    (hc : opClass op = .host) (ht : t ≠ .void) (hargs : args.mapM env = some vals)
    (hx : execHost h (emitted g op t (some n) args i0 i1) vals = (some ∘ v) <$> x)
    (hvt : ∀ a, (v a).type = t) :
    denote h (emit op t args i0 i1) g n env =
      x >>= fun a => pure (n, n + 1, env.set n (v a)) := by
  rw [denote_emit h ht, hargs, ofOption_some, pure_bind]
  simp only [exec, emitted] at hx ⊢
  rw [hc]
  simp only [hx, Function.comp_def, map_eq_pure_bind, bind_assoc, pure_bind, hvt, if_true]

end rules

end Emission
end XenonRecomp
