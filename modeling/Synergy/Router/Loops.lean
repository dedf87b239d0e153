import Synergy.Router.Integrate

/-!
# What a route message does

The loops of `integrate (RouteAdvertisement&)` and `integrate (RouteRevocation&)`, one
iteration at a time and then over the whole message. An iteration of the first has three
outcomes (`InstallCase`); the second is exact (`RevocationLoop.Spec`): what it removes is
what the message, seen one hop further, lists.
-/

set_option autoImplicit false

namespace Synergy

open Lib

namespace Router

@[simp] theorem extend_dest (sender : UInt32) (route : Route) :
    (extend sender route).dest = route.dest := rfl

@[simp] theorem extend_cost (sender : UInt32) (route : Route) :
    (extend sender route).cost = route.cost + 1 := rfl

@[simp] theorem extend_path (sender : UInt32) (route : Route) :
    (extend sender route).path = sender :: route.path := rfl

theorem extend_injective (sender : UInt32) : Function.Injective (extend sender) := by
  intro a b h
  obtain ⟨hdest, hcost, hpath⟩ := Route.mk.injEq .. ▸ h
  cases a
  cases b
  simp_all

theorem loops_iff {r : Router} {route : Route} :
    r.loops route ↔ route.dest = r.id ∨ r.id ∈ route.path := by
  simp [loops]

theorem loops_congr {r r' : Router} (h : r.id = r'.id) (route : Route) :
    r.loops route = r'.loops route := by
  simp [loops, h]

/-! ## Advertisements -/

/-- The entry an advertised route becomes. -/
def entryOf (sender : UInt32) (source : Connection) (route : Route) : RouteTableEntry :=
  { extend sender route with connection := source }

@[simp] theorem entryOf_toRoute (sender : UInt32) (source : Connection) (route : Route) :
    (entryOf sender source route).toRoute = extend sender route := rfl

@[simp] theorem entryOf_connection (sender : UInt32) (source : Connection) (route : Route) :
    (entryOf sender source route).connection = source := rfl

/-- The state after an installation. -/
def AdvertLoop.install (s : AdvertLoop) (entry : RouteTableEntry) (table : RouteTable) :
    AdvertLoop :=
  { router := { s.router with
      routeTable := table
      signals := s.router.signals ++
        if s.router.routeTable.newDestination entry then [.reachable entry.dest] else [] }
    routes := s.routes ++ [entry.toRoute]
    routesUpdated := true }

/-- The outcomes of one iteration. -/
inductive InstallCase (sender : UInt32) (source : Connection) (s : AdvertLoop) (route : Route) :
    AdvertLoop → Prop
  | skipped (loop : s.router.loops route) : InstallCase sender source s route s
  | rejected (noLoop : ¬s.router.loops route)
      (table : RouteTable.IntegrateCase s.router.routeTable (entryOf sender source route)
        (s.router.routeTable, false)) : InstallCase sender source s route s
  | installed (noLoop : ¬s.router.loops route) (t : RouteTable)
      (table : RouteTable.IntegrateCase s.router.routeTable (entryOf sender source route)
        (t, true)) :
      InstallCase sender source s route (s.install (entryOf sender source route) t)

theorem installRoute_cases (sender : UInt32) (source : Connection) (s : AdvertLoop)
    (route : Route) : InstallCase sender source s route (installRoute sender source s route) := by
  by_cases hloop : s.router.loops route
  · rw [installRoute, if_pos hloop]
    exact .skipped hloop
  have hcase := RouteTable.integrate_cases s.router.routeTable (entryOf sender source route)
  have hassert := RouteTable.rankAssertions_hold s.router.routeTable (entryOf sender source route)
  have heq : installRoute sender source s route =
      { router := { s.router with
          routeTable := (s.router.routeTable.integrate (entryOf sender source route)).1
          signals := s.router.signals ++
            if s.router.routeTable.newDestination (entryOf sender source route) &&
              (s.router.routeTable.integrate (entryOf sender source route)).2
            then [.reachable route.dest] else []
          assertsHeld := s.router.assertsHeld &&
            s.router.routeTable.rankAssertions (entryOf sender source route) }
        routes := if (s.router.routeTable.integrate (entryOf sender source route)).2
          then s.routes ++ [extend sender route] else s.routes
        routesUpdated := s.routesUpdated ||
          (s.router.routeTable.integrate (entryOf sender source route)).2 } := by
    rw [installRoute, if_neg hloop]
    rfl
  rw [heq, hassert]
  generalize s.router.routeTable.integrate (entryOf sender source route) = result at hcase ⊢
  obtain ⟨t, b⟩ := result
  cases b with
  | false =>
    obtain rfl := RouteTable.integrate_of_not_installed hcase
    have hsame : InstallCase sender source s route s := .rejected hloop hcase
    simpa using hsame
  | true =>
    have hnew : InstallCase sender source s route
        (s.install (entryOf sender source route) t) := .installed hloop t hcase
    simpa [AdvertLoop.install] using hnew

theorem advertLoop_concat (r : Router) (sender : UInt32) (source : Connection)
    (routes : List Route) (route : Route) :
    r.advertLoop sender source (routes ++ [route]) =
      installRoute sender source (r.advertLoop sender source routes) route := by
  simp [advertLoop]

/-- What holds of the loop after any number of iterations, whatever the table and the
    message. -/
structure AdvertLoop.Spec (r : Router) (sender : UInt32) (source : Connection)
    (routes : List Route) (s : AdvertLoop) : Prop where
  id : s.router.id = r.id
  running : s.router.running = r.running
  connections : s.router.connections = r.connections
  asserts : s.router.assertsHeld = r.assertsHeld
  updated : s.routesUpdated = true ↔ s.routes ≠ []
  /-- Only routes of the message that do not loop are passed on, one hop longer. -/
  fresh : ∀ n ∈ s.routes, ∃ route ∈ routes, ¬r.loops route ∧ n = extend sender route
  /-- A new entry is one of those, on this connection. -/
  mem : ∀ e ∈ s.router.routeTable,
    e ∈ r.routeTable ∨ (e.toRoute ∈ s.routes ∧ e.connection = source)
  keeps : ∀ e ∈ r.routeTable, ∃ y ∈ s.router.routeTable, y.dest = e.dest ∧ y.cost ≤ e.cost
  offers : ∀ route ∈ routes, ¬r.loops route →
    ∃ y ∈ s.router.routeTable, y.dest = route.dest ∧ y.cost ≤ route.cost + 1
  limit : ∀ d, (r.routeTable.routesTo d).length ≤ kDestRouteLimit →
    (s.router.routeTable.routesTo d).length ≤ kDestRouteLimit

namespace AdvertLoop.Spec

variable {r : Router} {sender : UInt32} {source : Connection} {routes : List Route}
  {s : AdvertLoop} {route : Route}

theorem fresh_append (h : Spec r sender source routes s) (route : Route) :
    ∀ n ∈ s.routes, ∃ x ∈ routes ++ [route], ¬r.loops x ∧ n = extend sender x := by
  intro n hn
  obtain ⟨x, hx, hxl, he⟩ := h.fresh n hn
  exact ⟨x, List.mem_append_left _ hx, hxl, he⟩

/-- A route that is not installed. -/
theorem skip (h : Spec r sender source routes s)
    (hoffered : ¬r.loops route →
      ∃ y ∈ s.router.routeTable, y.dest = route.dest ∧ y.cost ≤ route.cost + 1) :
    Spec r sender source (routes ++ [route]) s := by
  refine { h with fresh := h.fresh_append route, offers := fun x hx hxl => ?_ }
  rcases List.mem_append.mp hx with hx | hx
  · exact h.offers x hx hxl
  · rw [List.mem_singleton.mp hx] at hxl ⊢
    exact hoffered hxl

theorem install (h : Spec r sender source routes s) (hloop : ¬r.loops route) {t : RouteTable}
    (htable : RouteTable.IntegrateCase s.router.routeTable (entryOf sender source route)
      (t, true)) :
    Spec r sender source (routes ++ [route]) (s.install (entryOf sender source route) t) := by
  -- what was known of the earlier routes still holds when the table only got cheaper
  have hcheaper : ∀ d c, (∃ y ∈ s.router.routeTable, y.dest = d ∧ y.cost ≤ c) →
      ∃ y ∈ t, y.dest = d ∧ y.cost ≤ c := by
    rintro d c ⟨y, hy, rfl, hc⟩
    obtain ⟨z, hz, hzd, hzc⟩ := RouteTable.cost_le_of_mem htable hy
    exact ⟨z, hz, hzd, hzc.trans hc⟩
  refine { id := h.id, running := h.running, connections := h.connections
           asserts := h.asserts, updated := by simp [AdvertLoop.install]
           fresh := fun n hn => ?_, mem := fun e he => ?_
           keeps := fun e he => hcheaper _ _ (h.keeps e he), offers := fun x hx hxl => ?_
           limit := fun d hd => RouteTable.length_routesTo_integrate htable d (h.limit d hd) }
  · rcases List.mem_append.mp hn with hn | hn
    · exact h.fresh_append route n hn
    · exact ⟨route, by simp, hloop, List.mem_singleton.mp hn⟩
  · rcases RouteTable.mem_of_mem_integrate htable he with he | ⟨rfl, -⟩
    · rcases h.mem e he with hold | ⟨hnew, hc⟩
      · exact Or.inl hold
      · exact Or.inr ⟨List.mem_append_left _ hnew, hc⟩
    · exact Or.inr ⟨by simp [AdvertLoop.install], rfl⟩
  · rcases List.mem_append.mp hx with hx | hx
    · exact hcheaper _ _ (h.offers x hx hxl)
    · rw [List.mem_singleton.mp hx]
      exact RouteTable.cost_le_of_integrate htable

end AdvertLoop.Spec

theorem advertLoop_spec (r : Router) (sender : UInt32) (source : Connection)
    (routes : List Route) :
    AdvertLoop.Spec r sender source routes (r.advertLoop sender source routes) := by
  induction routes using List.reverseRecOn with
  | nil =>
    exact { id := rfl, running := rfl, connections := rfl, asserts := rfl
            updated := by simp [advertLoop]
            fresh := by simp [advertLoop]
            mem := fun e he => Or.inl he
            keeps := fun e he => ⟨e, he, rfl, le_rfl⟩
            offers := by simp
            limit := fun _ h => h }
  | append_singleton routes route ih =>
    rw [advertLoop_concat]
    generalize r.advertLoop sender source routes = s at ih ⊢
    have hloops : s.router.loops route = r.loops route := loops_congr ih.id route
    have hcase := installRoute_cases sender source s route
    generalize installRoute sender source s route = s' at hcase
    cases hcase with
    | skipped loop => exact ih.skip fun hnot => absurd (hloops ▸ loop) hnot
    | rejected noLoop table => exact ih.skip fun _ => RouteTable.cost_le_of_integrate table
    | installed noLoop t table => exact ih.install (hloops ▸ noLoop) table

/-! ## Revocations -/

theorem hasKey_extend_iff {t : RouteTable} {n : Route} :
    t.hasKey n.key ↔ ∃ e ∈ t, e.toRoute = n := by
  rw [UniqueIndex.hasKey_iff]
  constructor
  · rintro ⟨e, he, hk⟩
    exact ⟨e, he, Route.key_injective hk⟩
  · rintro ⟨e, he, rfl⟩
    exact ⟨e, he, rfl⟩

theorem revocationLoop_concat (r : Router) (sender : UInt32) (routes : List Route)
    (route : Route) : r.revocationLoop sender (routes ++ [route]) =
      revokeRoute sender (r.revocationLoop sender routes) route := by
  simp [revocationLoop]

structure RevocationLoop.Spec (r : Router) (sender : UInt32) (routes : List Route)
    (s : RevocationLoop) : Prop where
  id : s.router.id = r.id
  running : s.router.running = r.running
  connections : s.router.connections = r.connections
  asserts : s.router.assertsHeld = r.assertsHeld
  signals : s.router.signals = r.signals
  /-- The relayed list: every route that does not loop, one hop longer, held or not. -/
  routes_eq : s.routes = (routes.filter fun x => !r.loops x).map (extend sender)
  mem : ∀ e, e ∈ s.router.routeTable ↔ e ∈ r.routeTable ∧ e.toRoute ∉ s.routes
  dests : ∀ d, d ∈ s.destsEffected ↔ ∃ e ∈ r.routeTable, e.dest = d ∧ e.toRoute ∈ s.routes
  updated : s.routesUpdated = true ↔ ∃ e ∈ r.routeTable, e.toRoute ∈ s.routes

/-- The state after the revocation of a route that the table holds. -/
def RevocationLoop.erase (s : RevocationLoop) (newRoute : Route) : RevocationLoop :=
  { router := { s.router with routeTable := s.router.routeTable.eraseKey newRoute.key }
    routes := s.routes ++ [newRoute]
    destsEffected := s.destsEffected ++ [newRoute.dest]
    routesUpdated := true }

/-- The outcomes of one iteration. -/
inductive RevokeCase (sender : UInt32) (s : RevocationLoop) (route : Route) :
    RevocationLoop → Prop
  | skipped (loop : s.router.loops route) : RevokeCase sender s route s
  | erased (noLoop : ¬s.router.loops route)
      (held : s.router.routeTable.hasKey (extend sender route).key) :
      RevokeCase sender s route (s.erase (extend sender route))
  | relayed (noLoop : ¬s.router.loops route)
      (missing : ¬s.router.routeTable.hasKey (extend sender route).key) :
      RevokeCase sender s route { s with routes := s.routes ++ [extend sender route] }

theorem revokeRoute_cases (sender : UInt32) (s : RevocationLoop) (route : Route) :
    RevokeCase sender s route (revokeRoute sender s route) := by
  unfold revokeRoute
  split
  · rename_i hloop
    exact .skipped hloop
  · rename_i hloop
    dsimp only
    split
    · rename_i hheld
      exact .erased hloop hheld
    · rename_i hmissing
      exact .relayed hloop hmissing

namespace RevocationLoop.Spec

variable {r : Router} {sender : UInt32} {routes : List Route} {s : RevocationLoop} {route : Route}

theorem skip (h : Spec r sender routes s) (hloop : r.loops route) :
    Spec r sender (routes ++ [route]) s :=
  { h with routes_eq := by simp [h.routes_eq, hloop] }

theorem routes_append (h : Spec r sender routes s) (hloop : ¬r.loops route) :
    s.routes ++ [extend sender route] =
      ((routes ++ [route]).filter fun x => !r.loops x).map (extend sender) := by
  simp [h.routes_eq, hloop]

theorem erase (h : Spec r sender routes s) (hloop : ¬r.loops route)
    (hheld : s.router.routeTable.hasKey (extend sender route).key) :
    Spec r sender (routes ++ [route]) (s.erase (extend sender route)) := by
  obtain ⟨e₀, he₀, hr₀⟩ := hasKey_extend_iff.mp hheld
  have he₀r : e₀ ∈ r.routeTable := ((h.mem e₀).mp he₀).1
  have hd₀ : e₀.dest = route.dest := by rw [hr₀, extend_dest]
  have hmem₀ : e₀.toRoute ∈ s.routes ++ [extend sender route] := by simp [hr₀]
  refine { h with routes_eq := h.routes_append hloop, mem := fun e => ?_, dests := fun d => ?_
                  updated := ⟨fun _ => ⟨e₀, he₀r, hmem₀⟩, fun _ => rfl⟩ }
  · have hke : e.key ≠ (extend sender route).key ↔ e.toRoute ≠ extend sender route :=
      Route.key_injective.ne_iff
    show e ∈ s.router.routeTable.eraseKey (extend sender route).key ↔
      e ∈ r.routeTable ∧ e.toRoute ∉ s.routes ++ [extend sender route]
    rw [UniqueIndex.mem_eraseKey, h.mem, hke, List.mem_append, List.mem_singleton, not_or,
      and_assoc]
  · show d ∈ s.destsEffected ++ [(extend sender route).dest] ↔
      ∃ e ∈ r.routeTable, e.dest = d ∧ e.toRoute ∈ s.routes ++ [extend sender route]
    rw [List.mem_append, List.mem_singleton, h.dests, extend_dest]
    constructor
    · rintro (⟨e, he, hd, hm⟩ | rfl)
      · exact ⟨e, he, hd, List.mem_append_left _ hm⟩
      · exact ⟨e₀, he₀r, hd₀, hmem₀⟩
    · rintro ⟨e, he, rfl, hm⟩
      rcases List.mem_append.mp hm with hm | hm
      · exact Or.inl ⟨e, he, rfl, hm⟩
      · exact Or.inr (by rw [List.mem_singleton.mp hm, extend_dest])

theorem relay (h : Spec r sender routes s) (hloop : ¬r.loops route)
    (hmissing : ¬s.router.routeTable.hasKey (extend sender route).key) :
    Spec r sender (routes ++ [route]) { s with routes := s.routes ++ [extend sender route] } := by
  -- nothing in the table is the revoked route, unless it went earlier in the message
  have hgone : ∀ e ∈ r.routeTable, e.toRoute = extend sender route → e.toRoute ∈ s.routes := by
    intro e he hr
    by_contra hn
    exact hmissing (hasKey_extend_iff.mpr ⟨e, (h.mem e).mpr ⟨he, hn⟩, hr⟩)
  have hiff : ∀ e ∈ r.routeTable,
      e.toRoute ∈ s.routes ++ [extend sender route] ↔ e.toRoute ∈ s.routes := by
    intro e he
    rw [List.mem_append, List.mem_singleton]
    exact ⟨fun hor => hor.elim (fun hold => hold) (hgone e he), Or.inl⟩
  refine { h with routes_eq := h.routes_append hloop, mem := fun e => ?_, dests := fun d => ?_
                  updated := ?_ }
  · rw [h.mem]
    exact and_congr_right fun he => not_congr (hiff e he).symm
  · rw [h.dests]
    exact exists_congr fun e => and_congr_right fun he => and_congr_right fun _ =>
      (hiff e he).symm
  · rw [h.updated]
    exact exists_congr fun e => and_congr_right fun he => (hiff e he).symm

end RevocationLoop.Spec

theorem revocationLoop_spec (r : Router) (sender : UInt32) (routes : List Route) :
    RevocationLoop.Spec r sender routes (r.revocationLoop sender routes) := by
  induction routes using List.reverseRecOn with
  | nil => constructor <;> simp [revocationLoop]
  | append_singleton routes route ih =>
    rw [revocationLoop_concat]
    generalize r.revocationLoop sender routes = s at ih ⊢
    have hloops : s.router.loops route = r.loops route := loops_congr ih.id route
    have hcase := revokeRoute_cases sender s route
    generalize revokeRoute sender s route = s' at hcase
    cases hcase with
    | skipped loop => exact ih.skip (hloops ▸ loop)
    | erased noLoop held => exact ih.erase (hloops ▸ noLoop) held
    | relayed noLoop missing => exact ih.relay (hloops ▸ noLoop) missing

end Router

end Synergy
