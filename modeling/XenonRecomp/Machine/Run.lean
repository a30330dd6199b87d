/-
# Running guest code

The state of a run is the processor and the host.  `Run` is the monad both the
compiled operations and the interpreter are written in: a computation ends with
a value, or it leaves early with a fault, with the result it returns to its
caller, or stuck because the code was not well formed.  Whatever way it ends,
the processor state at that point is there to be seen.
-/

import XenonRecomp.Machine.Host

namespace XenonRecomp
namespace Machine

open Cpu

/-- The processor and the host. -/
structure State (σ : Type) where
  cpu : CpuState
  host : σ

/-- Why a computation left early. -/
inductive Exit where
  | fault (f : Fault)
  | flow (r : ExecutionResult)
  | stuck
deriving DecidableEq, Repr

/-- A computation over the processor and the host. -/
def Run (σ α : Type) : Type := State σ → Except Exit α × State σ

namespace Run

variable {σ α β γ : Type}

/-- A computation that ends at once. -/
def done (a : α) : Run σ α := fun m => (.ok a, m)

/-- One computation after another, unless the first left early. -/
def andThen (x : Run σ α) (f : α → Run σ β) : Run σ β := fun m =>
  match x m with
  | (.ok a, m') => f a m'
  | (.error e, m') => (.error e, m')

instance : Monad (Run σ) where
  pure := done
  bind := andThen

@[simp] theorem pure_apply (a : α) (m : State σ) : (pure a : Run σ α) m = (.ok a, m) := rfl

theorem bind_apply (x : Run σ α) (f : α → Run σ β) (m : State σ) :
    (x >>= f) m = match x m with
      | (.ok a, m') => f a m'
      | (.error e, m') => (.error e, m') := rfl

/-- After a computation that ended with a value comes the rest. -/
@[simp] theorem bind_of_ok {x : Run σ α} {f : α → Run σ β} {m m' : State σ} {a : α}
    (h : x m = (.ok a, m')) : (x >>= f) m = f a m' := by
  rw [bind_apply, h]

instance : LawfulMonad (Run σ) := LawfulMonad.mk' _
  (by
    intro α x
    funext m
    change (match x m with | (.ok a, m') => _ | (.error e, m') => _) = x m
    rcases x m with ⟨_ | _, _⟩ <;> rfl)
  (fun _ _ => rfl)
  (by
    intro α β γ x f g
    funext m
    simp only [bind_apply]
    rcases x m with ⟨_ | _, _⟩ <;> rfl)

/-- Leave early. -/
def exit (e : Exit) : Run σ α := fun m => (.error e, m)

@[simp] theorem exit_apply (e : Exit) (m : State σ) :
    (exit e : Run σ α) m = (.error e, m) := rfl

/-- The processor state. -/
def getCpu : Run σ CpuState := fun m => (.ok m.cpu, m)

@[simp] theorem getCpu_apply (m : State σ) : (getCpu : Run σ CpuState) m = (.ok m.cpu, m) := rfl

/-- Replace the processor state. -/
def setCpu (s : CpuState) : Run σ Unit := fun m => (.ok (), { m with cpu := s })

@[simp] theorem setCpu_apply (s : CpuState) (m : State σ) :
    (setCpu s : Run σ Unit) m = (.ok (), { m with cpu := s }) := rfl

/-- Update the processor state. -/
def modifyCpu (f : CpuState → CpuState) : Run σ Unit := fun m => (.ok (), { m with cpu := f m.cpu })

@[simp] theorem modifyCpu_apply (f : CpuState → CpuState) (m : State σ) :
    (modifyCpu f : Run σ Unit) m = (.ok (), { m with cpu := f m.cpu }) := rfl

/-- Ask the host; a fault leaves. -/
def ask (h : Host σ) (r : Request) : Run σ r.Reply := fun m =>
  match h.answer r m.host with
  | (.ok a, host) => (.ok a, { m with host := host })
  | (.error f, host) => (.error (.fault f), { m with host := host })

/-- A function of the state that is not a computation of its own. -/
def ofOption (x : Option α) : Run σ α :=
  match x with
  | some a => pure a
  | none => exit .stuck

@[simp] theorem ofOption_some (a : α) : (ofOption (some a) : Run σ α) = pure a := rfl

@[simp] theorem getCpu_bind (f : CpuState → Run σ β) (m : State σ) :
    (getCpu >>= f) m = f m.cpu m := rfl

@[simp] theorem setCpu_bind (s : CpuState) (f : Unit → Run σ β) (m : State σ) :
    (setCpu s >>= f) m = f () { m with cpu := s } := rfl

@[simp] theorem modifyCpu_bind (u : CpuState → CpuState) (f : Unit → Run σ β) (m : State σ) :
    (modifyCpu u >>= f) m = f () { m with cpu := u m.cpu } := rfl

/-- An update that looks at the state first is one update. -/
theorem getCpu_modifyCpu (u : CpuState → CpuState → CpuState) :
    (getCpu >>= fun s => modifyCpu (u s) : Run σ Unit) = modifyCpu fun s => u s s := rfl

@[simp] theorem exit_bind (e : Exit) (f : α → Run σ β) :
    (exit e >>= f : Run σ β) = exit e := rfl

@[simp] theorem map_getCpu (f : CpuState → β) (m : State σ) :
    (f <$> (getCpu : Run σ CpuState)) m = (.ok (f m.cpu), m) := rfl

@[simp] theorem map_setCpu (f : Unit → β) (s : CpuState) (m : State σ) :
    (f <$> (setCpu s : Run σ Unit)) m = (.ok (f ()), { m with cpu := s }) := rfl

@[simp] theorem map_modifyCpu (f : Unit → β) (u : CpuState → CpuState) (m : State σ) :
    (f <$> (modifyCpu u : Run σ Unit)) m = (.ok (f ()), { m with cpu := u m.cpu }) := rfl

@[simp] theorem map_exit (f : α → β) (e : Exit) : (f <$> (exit e : Run σ α)) = exit e := rfl

/-- Asking, then going on: the rest runs on the answer, a fault ends. -/
theorem ask_bind (h : Host σ) (r : Request) (f : r.Reply → Run σ β) (m : State σ) :
    (ask h r >>= f) m = match h.answer r m.host with
      | (.ok a, host) => f a { m with host := host }
      | (.error e, host) => (.error (.fault e), { m with host := host }) := by
  rw [bind_apply, ask]
  rcases h.answer r m.host with ⟨_ | _, _⟩ <;> rfl

/-- Two continuations that agree after every answer agree. -/
theorem ask_bind_congr {h : Host σ} {r : Request} {f k : r.Reply → Run σ β} {m : State σ}
    (hfk : ∀ a host, f a { m with host := host } = k a { m with host := host }) :
    (ask h r >>= f) m = (ask h r >>= k) m := by
  rw [ask_bind, ask_bind]
  rcases h.answer r m.host with ⟨_ | _, _⟩
  · rfl
  · exact hfk _ _

end Run

end Machine
end XenonRecomp
