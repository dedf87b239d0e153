import Synergy.Lib.Distance
import Synergy.Lib.Trail

/-!
# Going nearer

A partial function on the vertices of a graph that leads to a neighbour nearer to the target,
wherever there is a way to it. Following it takes as many steps as the distance says, and every
place on the way is as far off as there are steps left.
-/

set_option autoImplicit false

namespace Synergy.Lib

variable {V : Type} {G : SimpleGraph V} {d : V} {f : V → Option V}

def Approaches (G : SimpleGraph V) (d : V) (f : V → Option V) : Prop :=
  ∀ i, G.Reachable i d → i ≠ d → ∃ j, f i = some j ∧ G.Adj i j ∧ G.dist j d < G.dist i d

/-- One step less to go. -/
theorem Approaches.exists_next (h : Approaches G d f) {i : V} (hr : G.Reachable i d) (hne : i ≠ d) :
    ∃ j, f i = some j ∧ G.Reachable j d ∧ G.dist j d + 1 = G.dist i d := by
  obtain ⟨j, hj, hadj, hlt⟩ := h i hr hne
  have hrj : G.Reachable j d := hadj.symm.reachable.trans hr
  obtain ⟨p, hp⟩ := hrj.exists_walk_length_eq_dist
  have hle : G.dist i d ≤ G.dist j d + 1 := by
    rw [← hp]
    exact SimpleGraph.dist_le (.cons hadj p)
  exact ⟨j, hj, hrj, by omega⟩

/-- Where the trail is after `k` steps. -/
theorem Approaches.trail (h : Approaches G d f) {i : V} (hr : G.Reachable i d) {k : ℕ}
    (hk : k ≤ G.dist i d) :
    ∃ j, trail f (some i) k = some j ∧ G.Reachable j d ∧ G.dist j d + k = G.dist i d := by
  induction k with
  | zero => exact ⟨i, rfl, hr, rfl⟩
  | succ k ih =>
    obtain ⟨j, hj, hrj, hdist⟩ := ih (by omega)
    have hne : j ≠ d := by
      rintro rfl
      rw [SimpleGraph.dist_self] at hdist
      omega
    obtain ⟨l, hl, hrl, hdist'⟩ := h.exists_next hrj hne
    refine ⟨l, ?_, hrl, by omega⟩
    show (Lib.trail f (some i) k).bind f = some l
    rw [hj]
    exact hl

/-- Where the trail starts is one step behind. -/
theorem trail_some_succ (f : V → Option V) (i : V) (k : ℕ) :
    trail f (some i) (k + 1) = trail f (f i) k := by
  induction k with
  | zero => rfl
  | succ k ih =>
    show (trail f (some i) (k + 1)).bind f = (trail f (f i) k).bind f
    rw [ih]

end Synergy.Lib
