import Mathlib.Data.List.Infix
import Mathlib.Order.Lattice

/-!
# What is delivered, one after the other

Something is delivered a list of values, and what is said of it is said after each of them, that is,
for every prefix of the list. `forall_prefix_iff` turns a condition on single deliveries that is
exact for one step into one that is exact for the whole list.

Where the values carry a version, the one that should be remembered is the `Newest`: of those with
the highest version, the one that was delivered last.
-/

set_option autoImplicit false

namespace Synergy.Lib

variable {α β : Type}

/-- What every delivery keeps if and only if it is `ok`, holds after each of a list of deliveries if
and only if all of them are. -/
theorem forall_prefix_iff {P : List α → Prop} {ok : List α → α → Prop} {l : List α} (nil : P [])
    (step : ∀ before x, before ++ [x] <+: l → P before → (P (before ++ [x]) ↔ ok before x)) :
    (∀ before, before <+: l → P before) ↔ ∀ before x, before ++ [x] <+: l → ok before x := by
  constructor
  · intro h before x hpre
    exact (step before x hpre (h before ((List.prefix_append before [x]).trans hpre))).mp
      (h (before ++ [x]) hpre)
  · intro h before
    induction before using List.reverseRecOn with
    | nil =>
      intro _
      exact nil
    | append_singleton before x ih =>
      intro hpre
      exact (step before x hpre (ih ((List.prefix_append before [x]).trans hpre))).mpr
        (h before x hpre)

section Newest

variable [LinearOrder β] {version : α → β} {l : List α} {a x : α}

/-- `a` is the last of those in `l` that have the highest version. -/
def Newest (version : α → β) (l : List α) (a : α) : Prop :=
  ∃ before after, l = before ++ a :: after ∧ (∀ x ∈ before, version x ≤ version a) ∧
    ∀ x ∈ after, version x < version a

namespace Newest

theorem le (h : Newest version l a) (hx : x ∈ l) : version x ≤ version a := by
  obtain ⟨before, after, rfl, hbefore, hafter⟩ := h
  rcases List.mem_append.mp hx with hx | hx
  · exact hbefore x hx
  · rcases List.mem_cons.mp hx with rfl | hx
    · exact le_refl _
    · exact le_of_lt (hafter x hx)

/-- The last one is the newest if none has a higher version. -/
theorem last (h : ∀ y ∈ l, version y ≤ version x) : Newest version (l ++ [x]) x :=
  ⟨l, [], rfl, h, fun _ hy => absurd hy (by simp)⟩

/-- It stays the newest when something older is delivered. -/
theorem append_older (h : Newest version l a) (hx : version x < version a) :
    Newest version (l ++ [x]) a := by
  obtain ⟨before, after, rfl, hbefore, hafter⟩ := h
  refine ⟨before, after ++ [x], by simp, hbefore, fun y hy => ?_⟩
  rcases List.mem_append.mp hy with hy | hy
  · exact hafter y hy
  · rw [List.mem_singleton.mp hy]
    exact hx

end Newest

end Newest

end Synergy.Lib
