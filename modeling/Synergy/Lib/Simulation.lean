import Synergy.Lib.Run

/-!
# Simulation

One guarded system does what another does if each of its steps is a step of the other or leaves the
other where it is, up to a relation of their states. `Run.simulate` is the induction over its runs;
what a step needs to know of the state before it is a part of the relation.
-/

set_option autoImplicit false

namespace Synergy.Lib

variable {σ ε τ δ : Type} {step : σ → ε → Option σ} {ok : σ → ε → Prop}
  {step' : τ → δ → Option τ} {ok' : τ → δ → Prop} {s₀ s : σ} {t₀ : τ} {R : σ → τ → Prop}

/-- At most one step, which is `ok`. -/
inductive AtMostOne (step' : τ → δ → Option τ) (ok' : τ → δ → Prop) (t : τ) : τ → Prop
  | stays : AtMostOne step' ok' t t
  | moves {t' : τ} {ev : δ} (allowed : ok' t ev) (happens : step' t ev = some t') :
    AtMostOne step' ok' t t'

theorem AtMostOne.run {t t' : τ} (h : AtMostOne step' ok' t t') (hrun : Run step' ok' t₀ t) :
    Run step' ok' t₀ t' := by
  cases h with
  | stays => exact hrun
  | moves allowed happens => exact hrun.snoc allowed happens

/-- Runs of the one are runs of the other. -/
theorem Run.simulate (h : Run step ok s₀ s) (init : R s₀ t₀)
    (next : ∀ s s' ev t, R s t → ok s ev → step s ev = some s' →
      ∃ t', AtMostOne step' ok' t t' ∧ R s' t') :
    ∃ t, Run step' ok' t₀ t ∧ R s t := by
  induction h with
  | nil => exact ⟨t₀, .nil, init⟩
  | snoc hrun hok hstep ih =>
    obtain ⟨t, ht, hrel⟩ := ih
    obtain ⟨t', hmoves, hrel'⟩ := next _ _ _ _ hrel hok hstep
    exact ⟨t', hmoves.run ht, hrel'⟩

end Synergy.Lib
