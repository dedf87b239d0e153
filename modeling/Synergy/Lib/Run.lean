import Mathlib.Data.Option.Basic

/-!
# Runs of a guarded step function

A system is a partial step function over events. What is proved of it is proved of its runs,
and often only of those runs whose events all meet a condition when their turn comes; so the
condition is a parameter of `Run`. `Run.invariant` is the one induction over runs.
-/

set_option autoImplicit false

namespace Synergy.Lib

variable {σ ε : Type} {step : σ → ε → Option σ} {ok : σ → ε → Prop} {s₀ s : σ}

/-- The states reached by events that are all `ok` when their turn comes. -/
inductive Run (step : σ → ε → Option σ) (ok : σ → ε → Prop) (s₀ : σ) : σ → Prop
  | nil : Run step ok s₀ s₀
  | snoc {s s' : σ} {ev : ε} (run : Run step ok s₀ s) (allowed : ok s ev)
      (happens : step s ev = some s') : Run step ok s₀ s'

/-- `step`, or nothing where the event cannot happen. -/
def exec (step : σ → ε → Option σ) (s : σ) (ev : ε) : σ := (step s ev).getD s

theorem step_eq_exec {ev : ε} (h : (step s ev).isSome) : step s ev = some (exec step s ev) := by
  unfold exec
  rw [← Option.some_get h, Option.getD_some]

/-- One event after the other. -/
def execs (step : σ → ε → Option σ) (s : σ) (evs : List ε) : σ := evs.foldl (exec step) s

/-- Every event is `ok` when its turn comes. -/
def AllOk (step : σ → ε → Option σ) (ok : σ → ε → Prop) : σ → List ε → Prop
  | _, [] => True
  | s, ev :: evs => ok s ev ∧ AllOk step ok (exec step s ev) evs

instance AllOk.decidable [∀ s ev, Decidable (ok s ev)] :
    (s : σ) → (evs : List ε) → Decidable (AllOk step ok s evs)
  | _, [] => isTrue trivial
  | s, ev :: evs =>
    @instDecidableAnd _ _ (inferInstanceAs (Decidable (ok s ev)))
      (AllOk.decidable (exec step s ev) evs)

theorem allOk_of_forall (h : ∀ s ev, ok s ev) (s : σ) (evs : List ε) : AllOk step ok s evs := by
  induction evs generalizing s with
  | nil => trivial
  | cons ev evs ih => exact ⟨h s ev, ih _⟩

namespace Run

/-- What holds at first and is kept by every step of a run holds in all its states. -/
theorem invariant {I : σ → Prop} (h : Run step ok s₀ s) (init : I s₀)
    (next : ∀ s s' ev, Run step ok s₀ s → I s → ok s ev → step s ev = some s' → I s') : I s := by
  induction h with
  | nil => exact init
  | snoc hrun hok hstep ih => exact next _ _ _ hrun ih hok hstep

theorem mono {ok' : σ → ε → Prop} (h : Run step ok s₀ s) (himp : ∀ s ev, ok s ev → ok' s ev) :
    Run step ok' s₀ s :=
  h.invariant .nil fun _ _ _ _ hrun hok hstep => hrun.snoc (himp _ _ hok) hstep

theorem exec (h : Run step ok s₀ s) {ev : ε} (allowed : ok s ev) :
    Run step ok s₀ (Lib.exec step s ev) := by
  unfold Lib.exec
  cases hstep : step s ev with
  | none => exact h
  | some s' => exact h.snoc allowed hstep

theorem execs (h : Run step ok s₀ s) {evs : List ε} (allowed : AllOk step ok s evs) :
    Run step ok s₀ (Lib.execs step s evs) := by
  induction evs generalizing s with
  | nil => exact h
  | cons ev evs ih => exact ih (h.exec allowed.1) allowed.2

end Run

end Synergy.Lib
