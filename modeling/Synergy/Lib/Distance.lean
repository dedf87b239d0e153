import Mathlib

/-!
# Offers and distances

What a routing protocol computes, without the protocol. Every vertex of a graph *offers* a
target at some costs. Two properties make the offers distances: an offer is backed by a
cheaper one next door (`Descends`), so following offers downhill arrives; and an offer is
matched next door at one more (`Spreads`). The first bounds every offer from below by the
distance and holds of networks that are still talking; the second bounds the best offer
from above and is what is gained when they fall silent.
-/

set_option autoImplicit false

namespace Synergy.Lib

variable {V : Type} {G : SimpleGraph V} {d : V} {offers : V → ℕ → Prop}

/-- An offer is backed by a cheaper one of a neighbour. -/
def Descends (G : SimpleGraph V) (d : V) (offers : V → ℕ → Prop) : Prop :=
  ∀ i k, offers i k → i ≠ d → ∃ j, G.Adj i j ∧ ∃ k', k' < k ∧ offers j k'

/-- The target offers itself, and an offer is matched by every neighbour at one more. -/
structure Spreads (G : SimpleGraph V) (d : V) (offers : V → ℕ → Prop) : Prop where
  target : offers d 0
  next : ∀ i j k, G.Adj i j → offers i k → offers j (k + 1)

theorem Descends.exists_walk (h : Descends G d offers) {i : V} {k : ℕ} (hi : offers i k) :
    ∃ p : G.Walk i d, p.length ≤ k := by
  induction k using Nat.strong_induction_on generalizing i with
  | _ k ih =>
    by_cases hd : i = d
    · subst hd
      exact ⟨.nil, Nat.zero_le k⟩
    · obtain ⟨j, hadj, k', hlt, hj⟩ := h i k hi hd
      obtain ⟨p, hp⟩ := ih k' hlt hj
      refine ⟨.cons hadj p, ?_⟩
      rw [SimpleGraph.Walk.length_cons]
      omega

theorem Descends.reachable (h : Descends G d offers) {i : V} {k : ℕ} (hi : offers i k) :
    G.Reachable i d := by
  obtain ⟨p, -⟩ := h.exists_walk hi
  exact p.reachable

theorem Descends.dist_le (h : Descends G d offers) {i : V} {k : ℕ} (hi : offers i k) :
    G.dist i d ≤ k := by
  obtain ⟨p, hp⟩ := h.exists_walk hi
  exact (SimpleGraph.dist_le p).trans hp

theorem Spreads.offers_of_walk (h : Spreads G d offers) {i : V} (p : G.Walk i d) :
    offers i p.length := by
  induction p with
  | nil => exact h.target
  | cons hadj p ih => exact h.next _ _ _ hadj.symm (ih h)

theorem Spreads.offers_dist (h : Spreads G d offers) {i : V} (hi : G.Reachable i d) :
    offers i (G.dist i d) := by
  obtain ⟨p, hp⟩ := hi.exists_walk_length_eq_dist
  exact hp ▸ h.offers_of_walk p

end Synergy.Lib
