import Mathlib.Data.List.MinMax

/-!
# Longest match

Of several alternatives, each with the lengths at which it matches the front of an input, a
scanner takes the longest match, and of several longest ones the first. Where at most one
alternative matches at all (`longest_of_only`), the choice is that alternative's longest match.
-/

set_option autoImplicit false

namespace Synergy.Lib

variable {α : Type} {ends : α → List Nat} {alts : List α} {a : α} {n : Nat}

/-- Every match of every alternative. -/
def candidates (ends : α → List Nat) (alts : List α) : List (α × Nat) :=
  alts.flatMap fun a => (ends a).map fun n => (a, n)

/-- The first longest match. -/
def longest (ends : α → List Nat) (alts : List α) : Option (α × Nat) :=
  (candidates ends alts).argmax Prod.snd

theorem mem_candidates : (a, n) ∈ candidates ends alts ↔ a ∈ alts ∧ n ∈ ends a := by
  simp [candidates]

theorem longest_eq_none : longest ends alts = none ↔ ∀ a ∈ alts, ends a = [] := by
  simp [longest, List.argmax_eq_none, candidates]

theorem longest_mem (h : longest ends alts = some (a, n)) : a ∈ alts ∧ n ∈ ends a :=
  mem_candidates.mp (List.argmax_mem h)

theorem le_of_longest {b : α} {m : Nat} (h : longest ends alts = some (a, n)) (hb : b ∈ alts)
    (hm : m ∈ ends b) : m ≤ n :=
  List.le_of_mem_argmax (mem_candidates.mpr ⟨hb, hm⟩) h

/-- Where only one alternative matches, its longest match is taken. -/
theorem longest_of_only (ha : a ∈ alts) (hn : n ∈ ends a) (hmax : ∀ m ∈ ends a, m ≤ n)
    (honly : ∀ b ∈ alts, b ≠ a → ends b = []) : longest ends alts = some (a, n) := by
  cases hl : longest ends alts with
  | none =>
    rw [longest_eq_none.mp hl a ha] at hn
    exact absurd hn (by simp)
  | some best =>
    obtain ⟨b, m⟩ := best
    obtain ⟨hb, hm⟩ := longest_mem hl
    have heq : b = a := by
      by_contra hne
      rw [honly b hb hne] at hm
      exact absurd hm (by simp)
    subst heq
    have hle : m ≤ n := hmax m hm
    have hge : n ≤ m := le_of_longest hl ha hn
    rw [Nat.le_antisymm hle hge]

end Synergy.Lib
