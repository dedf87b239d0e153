import Mathlib

/-!
# Logs that mirror a condition

A log of rises (`true`) and falls (`false`) mirrors a condition when it starts with a rise,
alternates, and ends with a rise exactly while the condition holds. The three ways to go on
are to keep the condition and log nothing, to log its rise, and to log its fall.
-/

set_option autoImplicit false

namespace Synergy.Lib

structure Mirrors (log : List Bool) (on : Prop) : Prop where
  starts : log.head? ≠ some false
  alternates : log.IsChain (· ≠ ·)
  ends : log.getLast? = some true ↔ on

namespace Mirrors

variable {log : List Bool} {on on' : Prop}

theorem nil (h : ¬on) : Mirrors [] on :=
  ⟨by simp, List.isChain_nil, by simpa using h⟩

theorem keep (h : Mirrors log on) (hiff : on ↔ on') : Mirrors log on' :=
  ⟨h.starts, h.alternates, h.ends.trans hiff⟩

theorem rise (h : Mirrors log on) (hoff : ¬on) (hon : on') : Mirrors (log ++ [true]) on' := by
  have hlast : log.getLast? ≠ some true := fun e => hoff (h.ends.mp e)
  refine ⟨?_, List.isChain_append.mpr ⟨h.alternates, List.isChain_singleton _, ?_⟩, by simpa⟩
  · cases log with
    | nil => simp
    | cons b log => exact h.starts
  · rintro b hb c hc rfl
    simp only [List.head?_cons, Option.mem_some_iff] at hc
    exact hlast (hc ▸ hb)

theorem fall (h : Mirrors log on) (hon : on) (hoff : ¬on') : Mirrors (log ++ [false]) on' := by
  have hlast : log.getLast? = some true := h.ends.mpr hon
  refine ⟨?_, List.isChain_append.mpr ⟨h.alternates, List.isChain_singleton _, ?_⟩, by simpa⟩
  · cases log with
    | nil => simp at hlast
    | cons b log => exact h.starts
  · rintro b hb c hc rfl
    rw [Option.mem_def, hlast] at hb
    simp only [List.head?_cons, Option.mem_some_iff] at hc
    simp [← hc] at hb

end Mirrors

end Synergy.Lib
