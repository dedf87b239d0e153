import Synergy.Network.Forwarding

/-!
# What a silent network knows

A network that has only grown and has nothing left in flight. Half of `Promises` says that
offers descend, the other half that they spread, so the offers of a destination are the
costs from the distance up (`Lib.offers_iff`), and the first entry of every table is a
shortest route. The limit of three routes per destination does not show: it drops the
longest ones.
-/

set_option autoImplicit false

namespace Synergy

open Lib

namespace Network

variable {ι : Type} [DecidableEq ι] {w : Wiring ι} {ids : ι → UInt32} {n : Network ι}

theorem descends_offers (hinj : Function.Injective ids)
    (hrun : GrowthRun w (Network.start ids) n) (d : ι) :
    Descends (n.links w) d (n.Offers (ids d)) := by
  intro i k hoffer hne
  have haway : (n.routers i).id ≠ ids d := by
    rw [hrun.linked.id_eq]
    exact hinj.ne hne
  obtain ⟨j, -, hadj, k', hk', hnext⟩ :=
    (hrun.promises hinj).exists_hop hinj hrun.linked hrun.pathsIntact hoffer haway
  obtain ⟨c, hc, hle⟩ := offers_iff_cheapest.mp hoffer
  obtain rfl := Option.some.inj (hk'.symm.trans hc)
  exact ⟨j, hadj, k', hle, hnext⟩

theorem spreads_offers (hinj : Function.Injective ids)
    (hrun : GrowthRun w (Network.start ids) n) (hquiet : n.Quiet) (d : ι) :
    Spreads (n.links w) d (n.Offers (ids d)) := by
  have hprom := hrun.promises hinj
  refine ⟨Or.inl (hrun.linked.id_eq d), ?_⟩
  rintro i j k ⟨-, p, hlive, -, rfl, rfl⟩ hoffer
  -- some route of `p`'s router makes the offer, and the other end has been told of it
  obtain ⟨x, hknows, hdest, hcost⟩ : ∃ x, (n.routers p.router).Knows x ∧ x.dest = ids d ∧
      x.cost.toNat ≤ k := by
    rcases hoffer with hid | ⟨e, he, hd, hk⟩
    · exact ⟨_, Router.knows_iff.mpr (Or.inl rfl), hid, Nat.zero_le k⟩
    · exact ⟨e.toRoute, Router.knows_iff.mpr (Or.inr ⟨e, he, rfl⟩), hd, hk⟩
  rcases hprom.told p hlive x hknows with ⟨m, hm, -⟩ | hpath | htold
  · rw [quiet_iff.mp hquiet p] at hm
    exact absurd hm List.not_mem_nil
  · -- the other end is on the path, so it is nearer than this one
    obtain ⟨before, after, hsplit⟩ := List.append_of_mem hpath
    rw [hrun.linked.id_eq] at hsplit
    have hsuffix : (ids (w.peer p).router :: after) <:+ ids p.router :: x.path :=
      ⟨ids p.router :: before, by rw [hsplit, List.cons_append]⟩
    obtain ⟨j, hj, hback⟩ := hprom.backed_of_knows hrun.pathsIntact hknows _ _ hsuffix
    obtain rfl := hinj hj
    rw [hdest] at hback
    refine hback.mono ?_
    have hlength : after.length < x.path.length := by
      rw [hsplit, List.length_append, List.length_cons]
      omega
    rw [(sendable_of_knows hrun.pathsIntact hknows).cost_eq] at hcost
    omega
  · rw [hdest] at htold
    exact htold.mono (Nat.add_le_add_right hcost 1)

/-- Where a message for `d` is after `k` hops. -/
def relay (w : Wiring ι) (n : Network ι) (d : UInt32) : ℕ → ι → Option ι
  | 0, i => some i
  | k + 1, i => (hop w n d i).bind (relay w n d k)

theorem cheapest_eq_dist (hinj : Function.Injective ids)
    (hrun : GrowthRun w (Network.start ids) n) (hquiet : n.Quiet) {i d : ι}
    (hr : (n.links w).Reachable i d) : n.cheapest (ids d) i = some ((n.links w).dist i d) := by
  have hdown := descends_offers hinj hrun d
  have hup := spreads_offers hinj hrun hquiet d
  obtain ⟨c, hc, hle⟩ := offers_iff_cheapest.mp (hup.offers_dist hr)
  have hge : (n.links w).dist i d ≤ c := hdown.dist_le (offers_iff_cheapest.mpr ⟨c, hc, le_rfl⟩)
  rw [hc, le_antisymm hle hge]

theorem relay_dist (hinj : Function.Injective ids) (hrun : GrowthRun w (Network.start ids) n)
    (hquiet : n.Quiet) {d : ι} (k : ℕ) {i : ι} (hr : (n.links w).Reachable i d)
    (hk : (n.links w).dist i d = k) : relay w n (ids d) k i = some d ∧
      ∀ k', k' < k → ∃ j, relay w n (ids d) k' i = some j ∧ j ≠ d := by
  induction k generalizing i with
  | zero =>
    obtain rfl := hr.dist_eq_zero_iff.mp hk
    exact ⟨rfl, fun k' hk' => absurd hk' (Nat.not_lt_zero k')⟩
  | succ k ih =>
    have hne : i ≠ d := by
      rintro rfl
      rw [SimpleGraph.dist_self] at hk
      exact absurd hk (Nat.succ_ne_zero k).symm
    have haway : (n.routers i).id ≠ ids d := by
      rw [hrun.linked.id_eq]
      exact hinj.ne hne
    have hoffer := (spreads_offers hinj hrun hquiet d).offers_dist hr
    obtain ⟨j, hj, hadj, k', hk', hnext⟩ :=
      (hrun.promises hinj).exists_hop hinj hrun.linked hrun.pathsIntact hoffer haway
    obtain rfl : k' = k := by
      rw [cheapest_eq_dist hinj hrun hquiet hr, hk] at hk'
      exact Nat.succ.inj (Option.some.inj hk').symm
    -- one hop nearer, and no more than one
    have hdown := descends_offers hinj hrun d
    have hrj : (n.links w).Reachable j d := hdown.reachable hnext
    have hle : (n.links w).dist j d ≤ k' := hdown.dist_le hnext
    have hge : (n.links w).dist i d ≤ (n.links w).dist j d + 1 := by
      obtain ⟨p, hp⟩ := hrj.exists_walk_length_eq_dist
      rw [← hp]
      exact SimpleGraph.dist_le (.cons hadj p)
    obtain ⟨harrive, hbefore⟩ := ih hrj (by omega)
    refine ⟨by rw [relay, hj]; exact harrive, fun m hm => ?_⟩
    cases m with
    | zero => exact ⟨i, rfl, hne⟩
    | succ m =>
      obtain ⟨v, hv, hvd⟩ := hbefore m (by omega)
      exact ⟨v, by rw [relay, hj]; exact hv, hvd⟩

/-- **Shortest routes.** A network that has grown and fallen silent: a router has a route to
    another one exactly when they are joined, its cheapest route costs the distance, and
    forwarding takes exactly that many hops. -/
theorem routes_shortest (hinj : Function.Injective ids)
    (hrun : GrowthRun w (Network.start ids) n) (hquiet : n.Quiet) {a d : ι} (hne : a ≠ d) :
    ((∃ e ∈ (n.routers a).routeTable, e.dest = ids d) ↔ (n.links w).Reachable a d) ∧
    ((n.links w).Reachable a d →
      (∃ e ∈ (n.routers a).routeTable, e.dest = ids d ∧
        e.cost.toNat = (n.links w).dist a d) ∧
      (∀ e ∈ (n.routers a).routeTable, e.dest = ids d →
        (n.links w).dist a d ≤ e.cost.toNat) ∧
      relay w n (ids d) ((n.links w).dist a d) a = some d ∧
      ∀ k < (n.links w).dist a d, ∃ j, relay w n (ids d) k a = some j ∧ j ≠ d) := by
  have hdown := descends_offers hinj hrun d
  have hup := spreads_offers hinj hrun hquiet d
  have haway : (n.routers a).id ≠ ids d := by
    rw [hrun.linked.id_eq]
    exact hinj.ne hne
  have hentry : ∀ e ∈ (n.routers a).routeTable, e.dest = ids d →
      n.Offers (ids d) a e.cost.toNat := fun e he hd => Or.inr ⟨e, he, hd, le_rfl⟩
  have hexists : (n.links w).Reachable a d → ∃ e ∈ (n.routers a).routeTable, e.dest = ids d ∧
      e.cost.toNat ≤ (n.links w).dist a d := fun hr =>
    (hup.offers_dist hr).resolve_left haway
  refine ⟨⟨?_, fun hr => ?_⟩, fun hr => ⟨?_, fun e he hd => hdown.dist_le (hentry e he hd), ?_⟩⟩
  · rintro ⟨e, he, hd⟩
    exact hdown.reachable (hentry e he hd)
  · obtain ⟨e, he, hd, -⟩ := hexists hr
    exact ⟨e, he, hd⟩
  · obtain ⟨e, he, hd, hle⟩ := hexists hr
    exact ⟨e, he, hd, le_antisymm hle (hdown.dist_le (hentry e he hd))⟩
  · exact relay_dist hinj hrun hquiet _ hr rfl

/-- The closed chain, settled. -/
theorem routes_shortest_closedChain :
    let n := settle closingChain 32 closedChain
    ((∃ e ∈ (n.routers 0).routeTable, e.dest = 4) ↔ (n.links closingChain).Reachable 0 3) ∧
    ((n.links closingChain).Reachable 0 3 →
      (∃ e ∈ (n.routers 0).routeTable, e.dest = 4 ∧
        e.cost.toNat = (n.links closingChain).dist 0 3) ∧
      (∀ e ∈ (n.routers 0).routeTable, e.dest = 4 →
        (n.links closingChain).dist 0 3 ≤ e.cost.toNat) ∧
      relay closingChain n 4 ((n.links closingChain).dist 0 3) 0 = some 3 ∧
      ∀ k < (n.links closingChain).dist 0 3, ∃ j, relay closingChain n 4 k 0 = some j ∧ j ≠ 3) :=
  @routes_shortest _ _ _ ![1, 2, 3, 4] _ (by decide)
    (closedChain_run.settle 32 fun _ _ _ _ => trivial) (by decide +kernel) 0 3 (by decide)

end Network

end Synergy
