/-
# Rules of the vector operations

A vector operation is emitted as a template of its operands or as a call of the
semantic function; `vectorOutcome` is what either leaves.  Where a template
stands for a semantic function it computes the same vector and saturates no lane.
-/

import XenonRecomp.Emission.StateRules

namespace XenonRecomp
namespace Emission

open Cpu Ir Machine Run

variable {σ : Type} (h : Host σ) {g : DecodedInstruction} {n : ValueId} {env : Env}
  {a b : ValueId} {i0 i1 : BitVec 64} {x y : BitVec 64}

/-- The vector an operation declares and the state it leaves. -/
def vectorOutcome (float : FloatOps) (i : Instruction) (vs : List Vector128) (s : CpuState) :
    Vector128 × CpuState :=
  match nativeVector i (vs.getD 0 .zero) (vs.getD 1 .zero) (vs.getD 2 .zero) with
  | some v => (v, s)
  | none => Aot.executeVectorState float i.guestMnemonic i.guestWord s (vs.getD 0 .zero)
      (vs.getD 1 .zero) (vs.getD 2 .zero)

theorem mapM_v128 (vs : List Vector128) : (vs.map Value.v128).mapM Value.v128? = some vs := by
  induction vs with
  | nil => rfl
  | cons v vs ih => simp [List.mapM_cons, ih]

theorem vectorResult_v128 (float : FloatOps) (i : Instruction) (vs : List Vector128)
    (s : CpuState) :
    vectorResult float i (vs.map Value.v128) s =
      some (.v128 (vectorOutcome float i vs s).1, (vectorOutcome float i vs s).2) := by
  simp only [vectorResult, vectorOutcome, mapM_v128, Option.bind_eq_bind, Option.bind_some]
  cases nativeVector i (vs.getD 0 .zero) (vs.getD 1 .zero) (vs.getD 2 .zero) <;> rfl

/-- The rule of a vector operation. -/
theorem denote_vector {op : Op} {args : List ValueId} {vs : List Vector128}
    (hc : opClass op = .vector) (hargs : args.mapM env = some (vs.map Value.v128)) :
    denote h (emit op .v128 args i0 i1) g n env =
      getCpu >>= fun s =>
        setCpu (vectorOutcome h.float (emitted g op .v128 (some n) args i0 i1) vs s).2 >>= fun _ =>
          pure (n, n + 1, env.set n
            (.v128 (vectorOutcome h.float (emitted g op .v128 (some n) args i0 i1) vs s).1)) := by
  rw [denote_emit h (by decide), hargs, ofOption_some, pure_bind]
  simp only [exec]
  rw [show opClass (emitted g op .v128 (some n) args i0 i1).op = .vector from hc]
  simp only [vectorResult_v128, ofOption_some, bind_assoc, pure_bind]
  rfl

section loadShift

variable (ha : env a = some (.i64 x)) (hb : env b = some (.i64 y))
include ha hb

@[simp] theorem denote_vMakeLoadShiftLeft :
    denote h (emit .vMakeLoadShiftLeft .v128 [a, b] i0 i1) g n env =
      pure (n, n + 1, env.set n (.v128 (Aot.vectorLoadShiftLeft (x + y)))) :=
  denote_value h rfl (by decide) (mapM_two ha hb) rfl rfl

@[simp] theorem denote_vMakeLoadShiftRight :
    denote h (emit .vMakeLoadShiftRight .v128 [a, b] i0 i1) g n env =
      pure (n, n + 1, env.set n (.v128 (Aot.vectorLoadShiftRight (x + y)))) :=
  denote_value h rfl (by decide) (mapM_two ha hb) rfl rfl

end loadShift

end Emission
end XenonRecomp
