import Synergy.Lib.Smallest
import Synergy.Router.Calls

/-!
# The table as a merge

Among the routes to one destination the key of the table orders by cost and then by path: `rank`.
In these terms `integrate(Route)` computes the three smallest of the old ranks and the new one, and
leaves everything else alone (`Integrated`). The three smallest of a union do not depend on the
order in which it is made up, so neither does the table after any number of advertisements.
-/

set_option autoImplicit false

namespace Synergy

open Lib

/-- What orders the routes to one destination: the cost, then the path. -/
def Route.rank (r : Route) : UInt32 ×ₗ List UInt32 := toLex (r.cost, r.path)

theorem Route.key_eq (r : Route) : r.key = toLex (r.dest, r.rank) := rfl

theorem Route.rank_le_iff {a b : Route} (hd : a.dest = b.dest) :
    a.rank ≤ b.rank ↔ a.key ≤ b.key := by
  rw [Route.key_eq, Route.key_eq, Prod.Lex.toLex_le_toLex]
  constructor
  · intro h
    exact Or.inr ⟨hd, h⟩
  · rintro (h | ⟨-, h⟩)
    · exact absurd hd h.ne
    · exact h

theorem Route.eq_of_rank_eq {a b : Route} (hd : a.dest = b.dest) (h : a.rank = b.rank) :
    a = b := by
  refine Route.key_injective ?_
  rw [Route.key_eq, Route.key_eq, hd, h]

namespace RouteTable

variable {t t' : RouteTable} {entry e e' : RouteTableEntry} {b : Bool} {d : UInt32}

/-- The ranks of the routes to `d`. -/
def keysTo (t : RouteTable) (d : UInt32) : Finset (UInt32 ×ₗ List UInt32) :=
  ((t.routesTo d).map fun e => e.rank).toFinset

theorem mem_keysTo {k : UInt32 ×ₗ List UInt32} :
    k ∈ t.keysTo d ↔ ∃ e ∈ t, e.dest = d ∧ e.rank = k := by
  rw [keysTo, List.mem_toFinset, List.mem_map]
  simp only [mem_routesTo, and_assoc]

theorem rank_mem_keysTo_iff : entry.rank ∈ t.keysTo entry.dest ↔ t.hasKey entry.key := by
  rw [mem_keysTo, UniqueIndex.hasKey_iff]
  constructor
  · rintro ⟨e, he, hd, hk⟩
    exact ⟨e, he, congrArg Route.key (Route.eq_of_rank_eq hd hk)⟩
  · rintro ⟨e, he, hk⟩
    have hroute := RouteTableEntry.toRoute_eq_of_key_eq hk
    exact ⟨e, he, congrArg Route.dest hroute, congrArg Route.rank hroute⟩

theorem card_keysTo (t : RouteTable) (d : UInt32) : (t.keysTo d).card = (t.routesTo d).length := by
  have hnodup : ((t.routesTo d).map fun e => e.rank).Nodup := by
    refine List.Nodup.map_on (fun x hx y hy h => ?_) (t.nodup.filter _)
    obtain ⟨hx, hxd⟩ := mem_routesTo.mp hx
    obtain ⟨hy, hyd⟩ := mem_routesTo.mp hy
    have hroute : x.toRoute = y.toRoute := Route.eq_of_rank_eq (hxd.trans hyd.symm) h
    exact UniqueIndex.eq_of_key_eq hx hy (congrArg Route.key hroute)
  rw [keysTo, List.toFinset_card_of_nodup hnodup, List.length_map]

theorem keysTo_eq_empty_iff : t.keysTo d = ∅ ↔ ¬t.hasRouteTo d := by
  rw [hasRouteTo_iff, Finset.eq_empty_iff_forall_notMem]
  constructor
  · rintro h ⟨e, he, hd⟩
    exact h e.rank (mem_keysTo.mpr ⟨e, he, hd, rfl⟩)
  · intro h k hk
    obtain ⟨e, he, hd, -⟩ := mem_keysTo.mp hk
    exact h ⟨e, he, hd⟩

theorem newDestination_iff_hasRouteTo : t.newDestination entry ↔ ¬t.hasRouteTo entry.dest := by
  rw [newDestination_iff, ← keysTo_eq_empty_iff, ← Finset.card_eq_zero, card_keysTo,
    List.length_eq_zero_iff]

theorem keysTo_insert (h : ¬t.hasKey entry.key) :
    keysTo (t.insert entry) entry.dest = insert entry.rank (t.keysTo entry.dest) := by
  ext k
  rw [Finset.mem_insert, mem_keysTo, mem_keysTo]
  constructor
  · rintro ⟨e, he, hd, rfl⟩
    rcases (mem_insert h).mp he with rfl | he
    · exact Or.inl rfl
    · exact Or.inr ⟨e, he, hd, rfl⟩
  · rintro (rfl | ⟨e, he, hd, rfl⟩)
    · exact ⟨entry, (mem_insert h).mpr (Or.inl rfl), rfl, rfl⟩
    · exact ⟨e, (mem_insert h).mpr (Or.inr he), hd, rfl⟩

theorem keysTo_eraseKey (hd : e.dest = d) :
    keysTo (t.eraseKey e.key) d = (t.keysTo d).erase e.rank := by
  ext k
  rw [Finset.mem_erase, mem_keysTo, mem_keysTo]
  constructor
  · rintro ⟨x, hx, hxd, rfl⟩
    obtain ⟨hx, hne⟩ := UniqueIndex.mem_eraseKey.mp hx
    refine ⟨fun hk => hne ?_, x, hx, hxd, rfl⟩
    exact congrArg Route.key (Route.eq_of_rank_eq (hxd.trans hd.symm) hk)
  · rintro ⟨hne, x, hx, hxd, rfl⟩
    refine ⟨x, UniqueIndex.mem_eraseKey.mpr ⟨hx, fun hk => hne ?_⟩, hxd, rfl⟩
    exact congrArg Route.rank (RouteTableEntry.toRoute_eq_of_key_eq hk)

/-! ## One route -/

theorem rank_le_of_mem (h : ∀ x ∈ t.routesTo d, x.key ≤ e.key) (hd : e.dest = d)
    {k : UInt32 ×ₗ List UInt32} (hk : k ∈ t.keysTo d) : k ≤ e.rank := by
  obtain ⟨x, hx, hxd, rfl⟩ := mem_keysTo.mp hk
  exact (Route.rank_le_iff (hxd.trans hd.symm)).mpr (h x (mem_routesTo.mpr ⟨hx, hxd⟩))

/-- The three smallest of the old ranks and the new one. -/
theorem keysTo_integrate (h : IntegrateCase t entry (t', b))
    (hlimit : (t.routesTo entry.dest).length ≤ kDestRouteLimit) :
    t'.keysTo entry.dest =
      smallest kDestRouteLimit (insert entry.rank (t.keysTo entry.dest)) := by
  rw [← card_keysTo] at hlimit
  cases h with
  | duplicate key =>
    rw [Finset.insert_eq_of_mem (rank_mem_keysTo_iff.mpr key), smallest_eq_self hlimit]
  | room key len =>
    rw [← card_keysTo] at len
    have hout : entry.rank ∉ t.keysTo entry.dest := fun hk => key (rank_mem_keysTo_iff.mp hk)
    rw [keysTo_insert key, smallest_eq_self]
    rw [Finset.card_insert_of_notMem hout]
    omega
  | bump key len last mem greatest lt =>
    rw [← card_keysTo] at len
    obtain ⟨hlast, hd⟩ := mem_routesTo.mp mem
    have hout : entry.rank ∉ t.keysTo entry.dest := fun hk => key (rank_mem_keysTo_iff.mp hk)
    have hmem : last.rank ∈ t.keysTo entry.dest := mem_keysTo.mpr ⟨last, hlast, hd, rfl⟩
    have hle : entry.rank ≤ last.rank := (Route.rank_le_iff hd.symm).mpr lt.le
    rw [keysTo_eraseKey hd, keysTo_insert key]
    refine (smallest_eq_erase (Finset.mem_insert_of_mem hmem) (fun k hk => ?_) ?_).symm
    · rcases Finset.mem_insert.mp hk with rfl | hk
      · exact hle
      · exact rank_le_of_mem greatest hd hk
    · rw [Finset.card_insert_of_notMem hout, len]
  | full key len worst =>
    rw [← card_keysTo] at len
    have hout : entry.rank ∉ t.keysTo entry.dest := fun hk => key (rank_mem_keysTo_iff.mp hk)
    rw [smallest_eq_erase (Finset.mem_insert_self entry.rank _) (fun k hk => ?_)
      (by rw [Finset.card_insert_of_notMem hout, len]), Finset.erase_insert hout]
    rcases Finset.mem_insert.mp hk with rfl | hk
    · exact le_rfl
    · exact rank_le_of_mem (fun x hx => (worst x hx).le) rfl hk

theorem routesTo_integrate_of_ne (h : IntegrateCase t entry (t', b)) (hd : d ≠ entry.dest) :
    t'.routesTo d = t.routesTo d := by
  cases h with
  | duplicate _ => rfl
  | full _ _ _ => rfl
  | room key _ => rw [routesTo_insert key, if_neg hd.symm]
  | bump key _ last mem _ _ =>
    have hrange :
        routesTo ((t.insert entry).eraseKey last.key) d = routesTo (t.insert entry) d := by
      refine UniqueIndex.range_eraseKey fun x hx hk hxd => hd ?_
      have hdest := congrArg Route.dest (RouteTableEntry.toRoute_eq_of_key_eq hk)
      rw [← hxd, ← (mem_routesTo.mp mem).2, hdest]
    rw [hrange, routesTo_insert key, if_neg hd.symm]

theorem not_hasKey_of_installed (h : IntegrateCase t entry (t', true)) : ¬t.hasKey entry.key := by
  cases h with
  | room key _ => exact key
  | bump key _ _ _ _ _ => exact key

/-- An entry that stays keeps its connection. -/
theorem eq_of_key_eq_integrate (h : IntegrateCase t entry (t', b)) (he : e ∈ t) (he' : e' ∈ t')
    (hk : e'.key = e.key) : e' = e := by
  rcases mem_of_mem_integrate h he' with hold | ⟨rfl, rfl⟩
  · exact UniqueIndex.eq_of_key_eq hold he hk
  · exact absurd (UniqueIndex.hasKey_iff.mpr ⟨e, he, hk.symm⟩) (not_hasKey_of_installed h)

theorem installed_iff (h : IntegrateCase t entry (t', b)) :
    b = true ↔ entry.rank ∉ t.keysTo entry.dest ∧ entry.rank ∈ t'.keysTo entry.dest := by
  rw [rank_mem_keysTo_iff]
  constructor
  · rintro rfl
    exact ⟨not_hasKey_of_installed h, mem_keysTo.mpr ⟨entry, mem_of_installed h, rfl, rfl⟩⟩
  · rintro ⟨hout, hin⟩
    by_contra hb
    obtain rfl := Bool.eq_false_iff.mpr hb
    rw [integrate_of_not_installed h, rank_mem_keysTo_iff] at hin
    exact hout hin

theorem installed_of_newDestination (h : IntegrateCase t entry (t', b))
    (hnew : t.newDestination entry) : b = true := by
  rw [newDestination_iff] at hnew
  have hlen : (t.routesTo entry.dest).length ≠ kDestRouteLimit := by
    rw [hnew]
    decide
  cases h with
  | duplicate key =>
    have hk := rank_mem_keysTo_iff.mpr key
    rw [keysTo, hnew] at hk
    exact absurd hk (by simp)
  | room _ _ => rfl
  | bump _ len _ _ _ _ => rfl
  | full _ len _ => exact absurd len hlen

end RouteTable

namespace Router

/-- What `integrate(Route)` has done when it returns `installed`. -/
structure Integrated (r : Router) (route : Route) (r' : Router) (installed : Bool) : Prop where
  keys : r'.routeTable.keysTo route.dest =
    smallest kDestRouteLimit (insert route.rank (r.routeTable.keysTo route.dest))
  others : ∀ d, d ≠ route.dest → r'.routeTable.routesTo d = r.routeTable.routesTo d
  /-- An old entry that stays is the old entry, connection and all. -/
  kept : ∀ e ∈ r.routeTable, ∀ e' ∈ r'.routeTable, e'.key = e.key → e' = e
  installed_iff : installed = true ↔ route.rank ∉ r.routeTable.keysTo route.dest ∧
    route.rank ∈ r'.routeTable.keysTo route.dest
  signals : r'.signals =
    r.signals ++ if r.routeTable.hasRouteTo route.dest then [] else [.reachable route.dest]

/-- At most three entries for each destination. -/
def WithinLimit (r : Router) : Prop := ∀ d, (r.routeTable.routesTo d).length ≤ kDestRouteLimit

theorem signals_integrateRoute (r : Router) (route : Route) (source : Connection) :
    (r.integrateRoute route source).1.signals = r.signals ++
      if r.routeTable.hasRouteTo route.dest then [] else [.reachable route.dest] := by
  have hcase := RouteTable.integrate_cases r.routeTable { route with connection := source }
  have hnew : r.routeTable.newDestination { route with connection := source } ↔
      ¬r.routeTable.hasRouteTo route.dest := RouteTable.newDestination_iff_hasRouteTo
  show r.signals ++ (if r.routeTable.newDestination { route with connection := source } &&
    (r.routeTable.integrate { route with connection := source }).2
    then [.reachable route.dest] else []) = _
  by_cases hroute : r.routeTable.hasRouteTo route.dest
  · have hold : ¬r.routeTable.newDestination { route with connection := source } :=
      fun h => hnew.mp h hroute
    simp [hroute, hold]
  · have hfirst := hnew.mpr hroute
    have hin : (r.routeTable.integrate { route with connection := source }).2 = true :=
      RouteTable.installed_of_newDestination hcase hfirst
    simp [hroute, hfirst, hin]

/-- **The best three**: `integrate(Route)` keeps the three smallest routes to the destination, by
cost and then by path, and changes nothing else. -/
theorem integrateRoute_integrated (r : Router) (h : r.WithinLimit) (route : Route)
    (source : Connection) :
    Integrated r route (r.integrateRoute route source).1 (r.integrateRoute route source).2 := by
  have hcase := RouteTable.integrate_cases r.routeTable { route with connection := source }
  have hinstalled := RouteTable.installed_iff hcase
  exact {
    keys := RouteTable.keysTo_integrate hcase (h route.dest)
    others := fun d hd => RouteTable.routesTo_integrate_of_ne hcase hd
    kept := fun e he e' he' hk => RouteTable.eq_of_key_eq_integrate hcase he he' hk
    installed_iff := hinstalled
    signals := signals_integrateRoute r route source }

theorem threeWays_withinLimit : threeWays.WithinLimit := by
  intro d
  by_cases hd : d = 2
  · subst hd
    decide
  · -- of the four entries, at most the last is for another destination
    have hfilter : threeWays.routeTable.routesTo d =
        [⟨⟨3, 1, [3]⟩, ⟨8, 30, 10⟩⟩].filter (·.dest = d) := by
      simp [RouteTable.routesTo, UniqueIndex.range, threeWays, Ne.symm hd]
    rw [hfilter]
    exact (List.length_filter_le ..).trans (by decide)

/-- A shorter route to 2 pushes out the last of the three. -/
theorem integrateRoute_integrated_evicts :
    Integrated threeWays ⟨2, 1, [2]⟩ (threeWays.integrateRoute ⟨2, 1, [2]⟩ ⟨7, 20, 10⟩).1
      (threeWays.integrateRoute ⟨2, 1, [2]⟩ ⟨7, 20, 10⟩).2 :=
  integrateRoute_integrated threeWays threeWays_withinLimit ⟨2, 1, [2]⟩ ⟨7, 20, 10⟩

example : ((threeWays.integrateRoute ⟨2, 1, [2]⟩ ⟨7, 20, 10⟩).1.routeTable.routesTo 2).map
    (·.toRoute) = [⟨2, 1, [2]⟩, ⟨2, 2, [3, 2]⟩, ⟨2, 3, [3, 4, 2]⟩] := by
  decide +kernel

/-! ## Many routes -/

/-- A route to install, and the connection it came on. -/
abbrev Offer := Route × Connection

/-- `integrate(Route)` on one after the other. -/
def integrateAll (r : Router) (offers : List Offer) : Router :=
  offers.foldl (fun r offer => (r.integrateRoute offer.1 offer.2).1) r

@[simp] theorem integrateAll_nil (r : Router) : r.integrateAll [] = r := rfl

@[simp] theorem integrateAll_cons (r : Router) (offer : Offer) (offers : List Offer) :
    r.integrateAll (offer :: offers) =
      ((r.integrateRoute offer.1 offer.2).1).integrateAll offers := rfl

theorem integrateAll_append (r : Router) (before after : List Offer) :
    r.integrateAll (before ++ after) = (r.integrateAll before).integrateAll after :=
  List.foldl_append

@[simp] theorem integrateRoute_id (r : Router) (route : Route) (source : Connection) :
    (r.integrateRoute route source).1.id = r.id := rfl

@[simp] theorem integrateAll_id (r : Router) (offers : List Offer) :
    (r.integrateAll offers).id = r.id := by
  induction offers generalizing r with
  | nil => rfl
  | cons offer offers ih => rw [integrateAll_cons, ih, integrateRoute_id]

theorem WithinLimit.integrateRoute {r : Router} (h : r.WithinLimit) (route : Route)
    (source : Connection) : (r.integrateRoute route source).1.WithinLimit := by
  intro d
  have hcase := RouteTable.integrate_cases r.routeTable { route with connection := source }
  exact RouteTable.length_routesTo_integrate hcase d (h d)

theorem hasRouteTo_integrateRoute {r : Router} (route : Route) (source : Connection)
    (d : UInt32) : (r.integrateRoute route source).1.routeTable.hasRouteTo d ↔
      r.routeTable.hasRouteTo d ∨ d = route.dest := by
  have hcase := RouteTable.integrate_cases r.routeTable { route with connection := source }
  rw [RouteTable.hasRouteTo_iff, RouteTable.hasRouteTo_iff]
  exact RouteTable.hasRouteTo_integrate hcase d

/-- The ranks on offer for `d`. -/
def offersTo (offers : List Offer) (d : UInt32) : Finset (UInt32 ×ₗ List UInt32) :=
  ((offers.filter fun offer => offer.1.dest = d).map fun offer => offer.1.rank).toFinset

theorem mem_offersTo {offers : List Offer} {d : UInt32} {k : UInt32 ×ₗ List UInt32} :
    k ∈ offersTo offers d ↔ ∃ offer ∈ offers, offer.1.dest = d ∧ offer.1.rank = k := by
  simp [offersTo, and_assoc]

theorem offersTo_cons_self (offer : Offer) (offers : List Offer) :
    offersTo (offer :: offers) offer.1.dest =
      insert offer.1.rank (offersTo offers offer.1.dest) := by
  simp [offersTo]

theorem offersTo_cons_of_ne {offer : Offer} {d : UInt32} (h : d ≠ offer.1.dest)
    (offers : List Offer) : offersTo (offer :: offers) d = offersTo offers d := by
  simp [offersTo, h.symm]

/-- After any number of offers: the three smallest of all that there ever was. -/
theorem keysTo_integrateAll {r : Router} (h : r.WithinLimit) (offers : List Offer) (d : UInt32) :
    (r.integrateAll offers).routeTable.keysTo d =
      smallest kDestRouteLimit (r.routeTable.keysTo d ∪ offersTo offers d) := by
  induction offers generalizing r with
  | nil =>
    have hcard : (r.routeTable.keysTo d).card ≤ kDestRouteLimit := by
      rw [RouteTable.card_keysTo]
      exact h d
    have hnone : offersTo [] d = ∅ := rfl
    rw [integrateAll_nil, hnone, Finset.union_empty, smallest_eq_self hcard]
  | cons offer offers ih =>
    have hone := integrateRoute_integrated r h offer.1 offer.2
    rw [integrateAll_cons, ih (h.integrateRoute offer.1 offer.2)]
    by_cases hd : d = offer.1.dest
    · subst hd
      rw [hone.keys, smallest_union, offersTo_cons_self, Finset.insert_union,
        Finset.union_insert]
    · rw [RouteTable.keysTo, hone.others d hd, offersTo_cons_of_ne hd]
      rfl

/-- Every destination that is new is signalled, once, when the first offer for it comes. -/
theorem signals_integrateAll (r : Router) (offers : List Offer) :
    ∃ ds : List UInt32, (r.integrateAll offers).signals = r.signals ++ ds.map .reachable ∧
      ds.Nodup ∧
      ∀ d, d ∈ ds ↔ ¬r.routeTable.hasRouteTo d ∧ ∃ offer ∈ offers, offer.1.dest = d := by
  induction offers generalizing r with
  | nil => exact ⟨[], by simp, List.nodup_nil, by simp⟩
  | cons offer offers ih =>
    obtain ⟨ds, hsignals, hnodup, hmem⟩ := ih (r.integrateRoute offer.1 offer.2).1
    have hreach := hasRouteTo_integrateRoute (r := r) offer.1 offer.2
    rw [signals_integrateRoute] at hsignals
    by_cases hold : r.routeTable.hasRouteTo offer.1.dest
    · refine ⟨ds, by simpa [hold] using hsignals, hnodup, fun d => ?_⟩
      rw [hmem, hreach]
      constructor
      · rintro ⟨hnot, x, hx, hd⟩
        exact ⟨fun h => hnot (Or.inl h), x, List.mem_cons_of_mem _ hx, hd⟩
      · rintro ⟨hnot, x, hx, rfl⟩
        rcases List.mem_cons.mp hx with rfl | hx
        · exact absurd hold hnot
        · refine ⟨fun h => h.elim hnot fun hd => hnot (hd ▸ hold), x, hx, rfl⟩
    · refine ⟨offer.1.dest :: ds, by simpa [hold] using hsignals, ?_, fun d => ?_⟩
      · refine List.nodup_cons.mpr ⟨fun hin => ((hmem _).mp hin).1 ?_, hnodup⟩
        exact (hreach _).mpr (Or.inr rfl)
      · rw [List.mem_cons, hmem, hreach]
        constructor
        · rintro (rfl | ⟨hnot, x, hx, hd⟩)
          · exact ⟨hold, offer, List.mem_cons_self, rfl⟩
          · exact ⟨fun h => hnot (Or.inl h), x, List.mem_cons_of_mem _ hx, hd⟩
        · rintro ⟨hnot, x, hx, rfl⟩
          by_cases hd : x.1.dest = offer.1.dest
          · exact Or.inl hd
          · rcases List.mem_cons.mp hx with rfl | hx
            · exact Or.inl rfl
            · exact Or.inr ⟨fun h => h.elim hnot hd, x, hx, rfl⟩

/-! ## Many messages -/

/-- An advertisement, and the connection it came on. -/
abbrev Arrival := RouteAdvertisement × Connection

/-- The router after a sequence of advertisements. -/
def integrateAdvertisements (r : Router) (arrivals : List Arrival) : Router :=
  arrivals.foldl (fun r arrival => (r.integrateAdvertisement arrival.1 arrival.2).1) r

/-- The routes of a message that the router tries to install, as it does so. -/
def offersOf (r : Router) (arrival : Arrival) : List Offer :=
  if arrival.1.sender = r.id then []
  else (arrival.1.routes.filter fun route => !r.loops route).map fun route =>
    (extend arrival.1.sender route, arrival.2)

theorem mem_offersOf {r : Router} {arrival : Arrival} {offer : Offer} :
    offer ∈ r.offersOf arrival ↔ arrival.1.sender ≠ r.id ∧ offer.2 = arrival.2 ∧
      ∃ route ∈ arrival.1.routes, ¬r.loops route ∧ offer.1 = extend arrival.1.sender route := by
  obtain ⟨route, source⟩ := offer
  rw [offersOf]
  split
  · rename_i hs
    simp [hs]
  · rename_i hs
    simp only [List.mem_map, List.mem_filter, Prod.mk.injEq, Bool.not_eq_true']
    constructor
    · rintro ⟨x, ⟨hx, hloop⟩, rfl, rfl⟩
      exact ⟨hs, rfl, x, hx, by simpa using hloop, rfl⟩
    · rintro ⟨_, rfl, x, hx, hloop, rfl⟩
      exact ⟨x, ⟨hx, by simpa using hloop⟩, rfl, rfl⟩

theorem offersOf_congr {r r' : Router} (h : r'.id = r.id) (arrival : Arrival) :
    r'.offersOf arrival = r.offersOf arrival := by
  have hloops : ∀ route, r'.loops route = r.loops route := loops_congr h
  simp only [offersOf, h, hloops]

theorem foldl_installRoute (sender : UInt32) (source : Connection) (s : AdvertLoop)
    (routes : List Route) : (routes.foldl (installRoute sender source) s).router =
      s.router.integrateAll ((routes.filter fun route => !s.router.loops route).map
        fun route => (extend sender route, source)) := by
  induction routes generalizing s with
  | nil => rfl
  | cons route routes ih =>
    rw [List.foldl_cons, ih]
    by_cases hloop : s.router.loops route
    · have hskip : installRoute sender source s route = s := by rw [installRoute, if_pos hloop]
      rw [hskip, List.filter_cons_of_neg (by simp [hloop])]
    · have hrouter : (installRoute sender source s route).router =
          (s.router.integrateRoute (extend sender route) source).1 := by
        rw [installRoute, if_neg hloop]
      have hloops : ∀ x, (s.router.integrateRoute (extend sender route) source).1.loops x =
          s.router.loops x := loops_congr rfl
      rw [hrouter, List.filter_cons_of_pos (by simp [hloop]), List.map_cons, integrateAll_cons]
      simp only [hloops]

theorem integrateAdvertisement_eq (r : Router) (arrival : Arrival) :
    (r.integrateAdvertisement arrival.1 arrival.2).1 = r.integrateAll (r.offersOf arrival) := by
  rw [integrateAdvertisement, offersOf]
  split
  · rfl
  · exact foldl_installRoute _ _ _ _

theorem integrateAdvertisements_eq (r : Router) (arrivals : List Arrival) :
    r.integrateAdvertisements arrivals = r.integrateAll (arrivals.flatMap r.offersOf) := by
  induction arrivals generalizing r with
  | nil => rfl
  | cons arrival arrivals ih =>
    have hsame : (r.integrateAll (r.offersOf arrival)).offersOf = r.offersOf :=
      funext (offersOf_congr (integrateAll_id r _))
    calc r.integrateAdvertisements (arrival :: arrivals)
        = (r.integrateAdvertisement arrival.1 arrival.2).1.integrateAdvertisements arrivals := rfl
      _ = (r.integrateAll (r.offersOf arrival)).integrateAll (arrivals.flatMap r.offersOf) := by
        rw [integrateAdvertisement_eq, ih, hsame]
      _ = r.integrateAll ((arrival :: arrivals).flatMap r.offersOf) := by
        rw [List.flatMap_cons, integrateAll_append]

/-- The same message, with its routes in another order. -/
structure SameMessage (a b : Arrival) : Prop where
  sender : a.1.sender = b.1.sender
  routes : a.1.routes.Perm b.1.routes
  source : a.2 = b.2

/-- The same messages in another order, each with its routes in another order. -/
def Reordered (arrivals arrivals' : List Arrival) : Prop :=
  ∃ between, arrivals.Perm between ∧ List.Forall₂ SameMessage between arrivals'

theorem SameMessage.mem_offersOf {a b : Arrival} (h : SameMessage a b) (r : Router)
    (offer : Offer) : offer ∈ r.offersOf a ↔ offer ∈ r.offersOf b := by
  rw [Router.mem_offersOf, Router.mem_offersOf, h.sender, h.source]
  simp only [h.routes.mem_iff]

theorem Reordered.mem_offers {arrivals arrivals' : List Arrival} (h : Reordered arrivals arrivals')
    (r : Router) (offer : Offer) :
    offer ∈ arrivals.flatMap r.offersOf ↔ offer ∈ arrivals'.flatMap r.offersOf := by
  obtain ⟨between, hperm, hsame⟩ := h
  rw [(hperm.flatMap_right r.offersOf).mem_iff]
  clear hperm
  induction hsame with
  | nil => rfl
  | cons hhead _ ih =>
    rw [List.flatMap_cons, List.flatMap_cons, List.mem_append, List.mem_append,
      hhead.mem_offersOf r, ih]

/-- **The order of advertisements does not matter**: the same messages in any order, with their
routes in any order, leave the same routes in the table and make the same destinations reachable,
each signalled once. -/
theorem integrateAdvertisements_reordered (r : Router) (hlimit : r.WithinLimit)
    {arrivals arrivals' : List Arrival} (h : Reordered arrivals arrivals') :
    (∀ route : Route, (∃ e ∈ (r.integrateAdvertisements arrivals).routeTable, e.toRoute = route) ↔
      ∃ e ∈ (r.integrateAdvertisements arrivals').routeTable, e.toRoute = route) ∧
    ∃ ds ds' : List UInt32,
      (r.integrateAdvertisements arrivals).signals = r.signals ++ ds.map .reachable ∧
      (r.integrateAdvertisements arrivals').signals = r.signals ++ ds'.map .reachable ∧
      ds.Nodup ∧ ds'.Nodup ∧ ∀ d, d ∈ ds ↔ d ∈ ds' := by
  rw [integrateAdvertisements_eq, integrateAdvertisements_eq]
  have hoffers := h.mem_offers r
  constructor
  · intro route
    have hkeys : ∀ t : RouteTable, (∃ e ∈ t, e.toRoute = route) ↔
        route.rank ∈ t.keysTo route.dest := by
      intro t
      rw [RouteTable.mem_keysTo]
      refine exists_congr fun e => and_congr_right fun _ => ⟨?_, ?_⟩
      · rintro rfl
        exact ⟨rfl, rfl⟩
      · rintro ⟨hd, hk⟩
        exact Route.eq_of_rank_eq hd hk
    have hto : offersTo (arrivals.flatMap r.offersOf) route.dest =
        offersTo (arrivals'.flatMap r.offersOf) route.dest := by
      ext k
      simp only [mem_offersTo, hoffers]
    rw [hkeys, hkeys, keysTo_integrateAll hlimit, keysTo_integrateAll hlimit, hto]
  · obtain ⟨ds, hsignals, hnodup, hmem⟩ := signals_integrateAll r (arrivals.flatMap r.offersOf)
    obtain ⟨ds', hsignals', hnodup', hmem'⟩ :=
      signals_integrateAll r (arrivals'.flatMap r.offersOf)
    refine ⟨ds, ds', hsignals, hsignals', hnodup, hnodup', fun d => ?_⟩
    rw [hmem, hmem']
    simp only [hoffers]

/-- Two neighbours, heard in either order. -/
theorem integrateAdvertisements_reordered_two :
    ∃ ds ds' : List UInt32, ((started 1).integrateAdvertisements
        [(⟨2, [⟨2, 0, []⟩, ⟨4, 1, [4]⟩]⟩, ⟨7, 20, 10⟩), (⟨3, [⟨3, 0, []⟩]⟩, ⟨8, 30, 10⟩)]).signals =
      (started 1).signals ++ ds.map .reachable ∧
    ((started 1).integrateAdvertisements
        [(⟨3, [⟨3, 0, []⟩]⟩, ⟨8, 30, 10⟩), (⟨2, [⟨4, 1, [4]⟩, ⟨2, 0, []⟩]⟩, ⟨7, 20, 10⟩)]).signals =
      (started 1).signals ++ ds'.map .reachable ∧
    ds.Nodup ∧ ds'.Nodup ∧ ∀ d, d ∈ ds ↔ d ∈ ds' := by
  refine (integrateAdvertisements_reordered (started 1) (fun _ => Nat.zero_le _) ?_).2
  refine ⟨_, List.Perm.swap _ _ _, ?_⟩
  refine .cons ⟨rfl, List.Perm.refl _, rfl⟩ (.cons ⟨rfl, List.Perm.swap _ _ _, rfl⟩ .nil)

end Router

end Synergy
