import Mathlib.Logic.Function.Iterate
import Mathlib.Logic.Relation

/-!
# Runs of a machine

A machine is given by the step from each of its states to the next, and is at its end where there is
none. `runFor` takes a number of steps, and `Reaches` any number of them. What a state comes to is
found along `Reaches`, where paths are put together, and what holds at every moment along `runFor`,
by induction on the moment (`runFor_keeps`).
-/

namespace Formulary

variable {State : Type} {step : State → Option State} {s t : State}

/-- The state after `n` steps, or the one at the end if that comes first. -/
def runFor (step : State → Option State) (n : Nat) (s : State) : State :=
  (fun s => (step s).getD s)^[n] s

/-- From the first state the machine comes to the second. -/
abbrev Reaches (step : State → Option State) : State → State → Prop :=
  Relation.ReflTransGen fun s t => step s = some t

theorem runFor_succ (step : State → Option State) (n : Nat) (s : State) :
    runFor step (n + 1) s = (step (runFor step n s)).getD (runFor step n s) :=
  Function.iterate_succ_apply' ..

theorem exists_runFor_of_reaches (h : Reaches step s t) : ∃ n, runFor step n s = t := by
  induction h with
  | refl => exact ⟨0, rfl⟩
  | tail _ hstep ih =>
    obtain ⟨n, rfl⟩ := ih
    exact ⟨n + 1, by rw [runFor_succ, hstep, Option.getD_some]⟩

/-- What each step keeps, a run keeps. -/
theorem runFor_keeps {P : State → Prop} (hstep : ∀ s t, P s → step s = some t → P t) (h : P s)
    (n : Nat) : P (runFor step n s) := by
  induction n with
  | zero => exact h
  | succ n ih =>
    rw [runFor_succ]
    cases hnext : step (runFor step n s) with
    | none => exact ih
    | some next => exact hstep _ next ih hnext

end Formulary
