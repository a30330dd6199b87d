/-
# Programs with a log

A program changes a state, may fail, and logs what it does; what it logged
before it failed stays in the log.  Acceptance of the log by a monitor, an
automaton that reads it entry by entry (`Accepts`), composes along `bind`.
-/

import Mathlib.Algebra.Order.Ring.Int

namespace Library

/-- A program over states `S` with failures `F` and log entries `L`. -/
def Logged (S F L α : Type) : Type :=
  S → Except F α × S × List L

namespace Logged

variable {S F L α β : Type}

protected def pure (a : α) : Logged S F L α :=
  fun s => (.ok a, s, [])

protected def bind (m : Logged S F L α) (f : α → Logged S F L β) : Logged S F L β :=
  fun s =>
    match m s with
    | (.ok a, s', log) =>
        let (result, s'', log') := f a s'
        (result, s'', log ++ log')
    | (.error e, s', log) => (.error e, s', log)

instance : Monad (Logged S F L) where
  pure := Logged.pure
  bind := Logged.bind

/-- The state. -/
def get : Logged S F L S :=
  fun s => (.ok s, s, [])

/-- Changes the state. -/
def modify (f : S → S) : Logged S F L Unit :=
  fun s => (.ok (), f s, [])

/-- Logs one entry. -/
def log (l : L) : Logged S F L Unit :=
  fun s => (.ok (), s, [l])

/-- Fails. -/
def fail (e : F) : Logged S F L α :=
  fun s => (.error e, s, [])

/-- The program, where the condition holds. -/
def onlyIf (condition : Prop) [Decidable condition] (m : Logged S F L Unit) : Logged S F L Unit :=
  if condition then m else Logged.pure ()

/-- A program for each element of a list, in order. -/
def each (l : List β) (f : β → Logged S F L Unit) : Logged S F L Unit :=
  match l with
  | [] => Logged.pure ()
  | b :: l => Logged.bind (f b) fun _ => each l f

theorem bind_ok {m : Logged S F L α} {f : α → Logged S F L β} {s s' : S} {a : α} {es : List L}
    (h : m s = (.ok a, s', es)) :
    (m >>= f) s = ((f a s').1, (f a s').2.1, es ++ (f a s').2.2) := by
  change Logged.bind m f s = _
  rw [Logged.bind, h]

theorem bind_error {m : Logged S F L α} {f : α → Logged S F L β} {s s' : S} {e : F} {es : List L}
    (h : m s = (.error e, s', es)) : (m >>= f) s = (.error e, s', es) := by
  change Logged.bind m f s = _
  rw [Logged.bind, h]

/-- What a sequence did: either its first part failed, or both parts ran. -/
theorem bind_cases (m : Logged S F L α) (f : α → Logged S F L β) (s : S) :
    (∃ e s' es, m s = (.error e, s', es) ∧ (m >>= f) s = (.error e, s', es)) ∨
      ∃ a s' es, m s = (.ok a, s', es) ∧
        (m >>= f) s = ((f a s').1, (f a s').2.1, es ++ (f a s').2.2) := by
  rcases h : m s with ⟨result, s', es⟩
  cases result with
  | error e => exact .inl ⟨e, s', es, rfl, bind_error h⟩
  | ok a => exact .inr ⟨a, s', es, rfl, bind_ok h⟩

/-! ### Monitors -/

/-- A monitor reads one entry: it moves on, or refuses. -/
abbrev Monitor (Q L : Type) : Type := Q → L → Option Q

/-- The monitor after a log. -/
def Monitor.after {Q : Type} (mon : Monitor Q L) (q : Q) : List L → Option Q
  | [] => some q
  | l :: log => (mon q l).bind fun q => mon.after q log

theorem Monitor.after_append {Q : Type} (mon : Monitor Q L) (q : Q) (es es' : List L) :
    mon.after q (es ++ es') = (mon.after q es).bind fun q => mon.after q es' := by
  induction es generalizing q with
  | nil => rfl
  | cons l es ih =>
      change (mon q l).bind _ = ((mon q l).bind _).bind _
      cases mon q l with
      | none => rfl
      | some q => exact ih q

/-- From a monitor state of `I`, the monitor accepts every log of the program, and ends in
a state of `J`. -/
def Accepts {Q : Type} (mon : Monitor Q L) (I J : Q → Prop) (m : Logged S F L α) : Prop :=
  ∀ s q, I q → ∃ q', mon.after q (m s).2.2 = some q' ∧ J q'

section Accepts

variable {Q : Type} {mon : Monitor Q L} {I J K : Q → Prop}

theorem Accepts.silent {m : Logged S F L α} (hm : ∀ s, (m s).2.2 = []) (hIJ : ∀ q, I q → J q) :
    Accepts mon I J m := by
  intro s q hq
  rw [hm s]
  exact ⟨q, rfl, hIJ q hq⟩

theorem Accepts.weaken {I' J' : Q → Prop} {m : Logged S F L α} (hm : Accepts mon I J m)
    (hI : ∀ q, I' q → I q) (hJ : ∀ q, J q → J' q) : Accepts mon I' J' m := by
  intro s q hq
  obtain ⟨q', hafter, hq'⟩ := hm s q (hI q hq)
  exact ⟨q', hafter, hJ q' hq'⟩

theorem Accepts.bind {m : Logged S F L α} {f : α → Logged S F L β} (hm : Accepts mon I J m)
    (hf : ∀ a, Accepts mon J K (f a)) (hJK : ∀ q, J q → K q) : Accepts mon I K (m >>= f) := by
  intro s q hq
  obtain ⟨q', hafter, hq'⟩ := hm s q hq
  rcases bind_cases m f s with ⟨e, s', es, h, hbind⟩ | ⟨a, s', es, h, hbind⟩
  · rw [h] at hafter
    rw [hbind]
    exact ⟨q', hafter, hJK q' hq'⟩
  · rw [h] at hafter
    rw [hbind]
    obtain ⟨q'', hafter', hq''⟩ := hf a s' q' hq'
    refine ⟨q'', ?_, hq''⟩
    dsimp only at hafter ⊢
    rw [Monitor.after_append, hafter]
    exact hafter'

theorem Accepts.onlyIf {m : Logged S F L Unit} (hm : Accepts mon I I m) (condition : Prop)
    [Decidable condition] : Accepts mon I I (Logged.onlyIf condition m) := by
  unfold Logged.onlyIf
  split_ifs
  · exact hm
  · exact .silent (fun _ => rfl) fun _ h => h

theorem Accepts.each {f : β → Logged S F L Unit} (hf : ∀ b, Accepts mon I I (f b))
    (l : List β) : Accepts mon I I (Logged.each l f) := by
  induction l with
  | nil => exact .silent (fun _ => rfl) fun _ h => h
  | cons b l ih => exact Accepts.bind (hf b) (fun _ => ih) fun _ h => h

theorem Accepts.log {l : L} (h : ∀ q, I q → ∃ q', mon q l = some q' ∧ J q') :
    Accepts mon I J (Logged.log l : Logged S F L Unit) := by
  intro s q hq
  obtain ⟨q', hstep, hq'⟩ := h q hq
  refine ⟨q', ?_, hq'⟩
  change (mon q l).bind _ = _
  rw [hstep]
  rfl

end Accepts

end Logged
end Library
