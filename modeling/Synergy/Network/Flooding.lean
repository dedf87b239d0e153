import Synergy.Lib.Replacement
import Synergy.Network.Links

/-!
# Flooding dies out

Nothing is assumed here: any tables, any wiring, any messages with any contents, delivered in
any order. A table is no measure, since a revocation undoes what an advertisement did. What
descends is on the messages alone. Every relayed route has one more router in front of it,
and that router was not on it before, or the route would have been dropped: so the ids that
are *not* on the way of a route get fewer with every hop.
-/

set_option autoImplicit false

namespace Synergy

open Lib

/-- How many ids are not on a list. -/
def unvisited (path : List UInt32) : ℕ := (path.toFinset)ᶜ.card

theorem unvisited_cons_lt {a : UInt32} {path : List UInt32} (h : a ∉ path) :
    unvisited (a :: path) < unvisited path := by
  refine Finset.card_lt_card (Finset.compl_ssubset_compl.mpr ?_)
  rw [List.toFinset_cons]
  exact Finset.ssubset_insert (by simpa using h)

/-- The most hops that any route of the message can still make. -/
def RouteMessage.hopsLeft (m : RouteMessage) : ℕ :=
  m.routes.toFinset.sup fun r => unvisited (m.sender :: r.path)

theorem Router.Relays.hopsLeft_lt {r : Router} {m m' : RouteMessage} (h : r.Relays m m') :
    m'.hopsLeft < m.hopsLeft := by
  -- each relayed route can make fewer hops than the route it came from
  have hlt : ∀ x ∈ m'.routes, unvisited (m'.sender :: x.path) < m.hopsLeft := by
    intro x hx
    obtain ⟨y, hy, hloop, rfl⟩ := h.routes x hx
    rw [Router.loops_iff, not_or] at hloop
    have hnew : r.id ∉ m.sender :: y.path := by
      rw [List.mem_cons, not_or]
      exact ⟨h.foreign.symm, hloop.2⟩
    have hle : unvisited (m.sender :: y.path) ≤ m.hopsLeft :=
      Finset.le_sup (f := fun r => unvisited (m.sender :: r.path)) (List.mem_toFinset.mpr hy)
    rw [h.sender]
    exact (unvisited_cons_lt hnew).trans_le hle
  obtain ⟨x, hx⟩ := List.exists_mem_of_ne_nil _ h.nonempty
  have hpos : ⊥ < m.hopsLeft := (Nat.zero_le _).trans_lt (hlt x hx)
  exact (Finset.sup_lt_iff hpos).mpr fun x hx => hlt x (List.mem_toFinset.mp hx)

namespace Network

variable {ι : Type} [DecidableEq ι]

/-- One message in flight, any of them, is delivered. -/
def Delivers (w : Wiring ι) (n n' : Network ι) : Prop :=
  ∃ before p m after, n.flight = before ++ (p, m) :: after ∧
    n' = receive w { n with flight := before ++ after } p m

theorem replaces_of_delivers {w : Wiring ι} {n n' : Network ι} (h : Delivers w n n') :
    Replaces (fun x : Port ι × RouteMessage => x.2.hopsLeft) n.flight n'.flight := by
  obtain ⟨before, p, m, after, hsplit, rfl⟩ := h
  refine ⟨before, (p, m), after, _, hsplit, rfl, fun x hx => ?_⟩
  obtain ⟨s, hs, rfl⟩ := List.mem_map.mp hx
  exact (Router.relays_of_mem_integrate hs).hopsLeft_lt

/-- **Flooding dies out.** -/
theorem flooding_dies_out (w : Wiring ι) (states : ℕ → Network ι) :
    ¬∀ k, Delivers w (states k) (states (k + 1)) := by
  intro h
  exact not_replaces_forever _ (fun k => (states k).flight) fun k => replaces_of_delivers (h k)

end Network

end Synergy
