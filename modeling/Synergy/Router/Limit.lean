import Synergy.Router.Sends

/-!
# When the limit bites

A message makes the router call `integrate(Route)` once for every route that does not loop,
each time on the table the earlier calls have left. `integrateCalls` is that sequence of
calls. Two of its calls are worth telling from the others: those where a new route meets a
full range, and among them those where it drives an installed route out, without a word to
anybody. A message none of whose calls for `d` is of the second kind loses no route to `d`;
a message none of whose calls for `d` is of the first kind misses none either.
-/

set_option autoImplicit false

namespace Synergy

open Lib

namespace RouteTable

/-- A new route for a destination that has its three already. -/
def overflows (t : RouteTable) (entry : RouteTableEntry) : Bool :=
  t.routeLimitReached entry && !t.hasKey entry.key

/-- An installed route makes way for `entry`: the branch `rank_installed < rank_higher`. -/
def bumps (t : RouteTable) (entry : RouteTableEntry) : Bool :=
  t.overflows entry && decide (t.rankInstalled entry < t.rankHigher entry)

variable {t t' : RouteTable} {entry : RouteTableEntry} {b : Bool}

theorem overflows_iff : t.overflows entry ↔
    (t.routesTo entry.dest).length = kDestRouteLimit ∧ ¬t.hasKey entry.key := by
  rw [overflows, Bool.and_eq_true, routeLimitReached_iff, Bool.not_eq_true', Bool.not_eq_true]

theorem bumps_of_lt (key : ¬t.hasKey entry.key)
    (len : (t.routesTo entry.dest).length = kDestRouteLimit) {last : RouteTableEntry}
    (mem : last ∈ t.routesTo entry.dest) (lt : entry.key < last.key) : t.bumps entry := by
  rw [bumps, Bool.and_eq_true, overflows_iff, decide_eq_true_eq]
  exact ⟨⟨len, key⟩, (rankInstalled_lt_iff key).mpr ⟨last, mem, lt⟩⟩

/-- Unless it bumps one of them, an installation keeps the routes to its destination, and it
    never touches any others. -/
theorem mem_integrate_of_mem (h : IntegrateCase t entry (t', b)) {d : UInt32}
    (hbump : entry.dest = d → ¬t.bumps entry) {e : RouteTableEntry} (he : e ∈ t)
    (hd : e.dest = d) : e ∈ t' := by
  cases h with
  | duplicate _ => exact he
  | room key _ => exact (mem_insert key).mpr (Or.inr he)
  | full _ _ _ => exact he
  | bump key len last mem _ lt =>
    refine UniqueIndex.mem_eraseKey.mpr ⟨(mem_insert key).mpr (Or.inr he), fun hk => ?_⟩
    have hlast : entry.dest = d := by
      have hdest := congrArg Route.dest (RouteTableEntry.toRoute_eq_of_key_eq hk)
      rw [← hd, hdest]
      exact (mem_routesTo.mp mem).2.symm
    exact hbump hlast (bumps_of_lt key len mem lt)

/-- Where there is room, the route is in the table afterwards. -/
theorem exists_mem_integrate (h : IntegrateCase t entry (t', b)) (hroom : ¬t.overflows entry) :
    ∃ e ∈ t', e.toRoute = entry.toRoute := by
  cases h with
  | duplicate key =>
    obtain ⟨y, hy, hk⟩ := UniqueIndex.hasKey_iff.mp key
    exact ⟨y, hy, RouteTableEntry.toRoute_eq_of_key_eq hk⟩
  | room key len => exact ⟨entry, mem_of_installed (.room key len), rfl⟩
  | bump key len _ _ _ _ => exact absurd (overflows_iff.mpr ⟨len, key⟩) hroom
  | full key len _ => exact absurd (overflows_iff.mpr ⟨len, key⟩) hroom

end RouteTable

namespace Router

/-- The calls of `integrate(Route)` that the loop makes from here on: the table each of them
    finds, and the entry it is to install. -/
def loopCalls (sender : UInt32) (source : Connection) :
    AdvertLoop → List Route → List (RouteTable × RouteTableEntry)
  | _, [] => []
  | s, route :: routes =>
    (if s.router.loops route then [] else [(s.router.routeTable, entryOf sender source route)]) ++
      loopCalls sender source (installRoute sender source s route) routes

/-- The calls of `integrate(Route)` that a message leads to. -/
def integrateCalls (r : Router) (m : RouteMessage) (source : Connection) :
    List (RouteTable × RouteTableEntry) :=
  match m with
  | .advertisement ra =>
    if ra.sender = r.id then []
    else loopCalls ra.sender source { router := r, routes := [], routesUpdated := false } ra.routes
  | .revocation _ => []

/-- None of the calls bumps a route to `d`. -/
def KeepsRoutes (d : UInt32) (calls : List (RouteTable × RouteTableEntry)) : Prop :=
  ∀ c ∈ calls, c.2.dest = d → ¬c.1.bumps c.2

/-- None of the calls is for a fourth route to `d`. -/
def HasRoom (d : UInt32) (calls : List (RouteTable × RouteTableEntry)) : Prop :=
  ∀ c ∈ calls, c.2.dest = d → ¬c.1.overflows c.2

instance (d : UInt32) (calls : List (RouteTable × RouteTableEntry)) :
    Decidable (KeepsRoutes d calls) :=
  inferInstanceAs (Decidable (∀ c ∈ calls, c.2.dest = d → ¬c.1.bumps c.2))

instance (d : UInt32) (calls : List (RouteTable × RouteTableEntry)) :
    Decidable (HasRoom d calls) :=
  inferInstanceAs (Decidable (∀ c ∈ calls, c.2.dest = d → ¬c.1.overflows c.2))

theorem HasRoom.keepsRoutes {d : UInt32} {calls : List (RouteTable × RouteTableEntry)}
    (h : HasRoom d calls) : KeepsRoutes d calls := by
  intro c hc hd hbump
  refine h c hc hd ?_
  rw [RouteTable.bumps, Bool.and_eq_true] at hbump
  exact hbump.1

section Loop

variable {sender : UInt32} {source : Connection} {s : AdvertLoop} {d : UInt32}

theorem loopCalls_cons {route : Route} {routes : List Route} (h : ¬s.router.loops route) :
    loopCalls sender source s (route :: routes) =
      (s.router.routeTable, entryOf sender source route) ::
        loopCalls sender source (installRoute sender source s route) routes := by
  rw [loopCalls, if_neg h]
  rfl

theorem keepsRoutes_tail {route : Route} {routes : List Route}
    (h : KeepsRoutes d (loopCalls sender source s (route :: routes))) :
    KeepsRoutes d (loopCalls sender source (installRoute sender source s route) routes) := by
  intro c hc
  refine h c ?_
  rw [loopCalls]
  exact List.mem_append_right _ hc

/-- One iteration that bumps no route to `d` keeps them all. -/
theorem mem_installRoute {route : Route} {routes : List Route}
    (h : KeepsRoutes d (loopCalls sender source s (route :: routes))) {e : RouteTableEntry}
    (he : e ∈ s.router.routeTable) (hd : e.dest = d) :
    e ∈ (installRoute sender source s route).router.routeTable := by
  have hcase := installRoute_cases sender source s route
  generalize hs' : installRoute sender source s route = s' at hcase
  cases hcase with
  | skipped _ => exact he
  | rejected _ _ => exact he
  | installed noLoop t table =>
    refine RouteTable.mem_integrate_of_mem table (fun hd' => ?_) he hd
    refine h (_, entryOf sender source route) ?_ hd'
    rw [loopCalls_cons noLoop]
    exact List.mem_cons_self

/-- The loop keeps every route to `d`. -/
theorem mem_foldl (routes : List Route) (h : KeepsRoutes d (loopCalls sender source s routes))
    {e : RouteTableEntry} (he : e ∈ s.router.routeTable) (hd : e.dest = d) :
    e ∈ (routes.foldl (installRoute sender source) s).router.routeTable := by
  induction routes generalizing s with
  | nil => exact he
  | cons route routes ih => exact ih (keepsRoutes_tail h) (mem_installRoute h he hd)

/-- Every route to `d` that it passes on is in the table in the end. -/
theorem foldl_sent (routes : List Route) (h : KeepsRoutes d (loopCalls sender source s routes))
    (hsent : ∀ x ∈ s.routes, x.dest = d → ∃ e ∈ s.router.routeTable, e.toRoute = x) :
    ∀ x ∈ (routes.foldl (installRoute sender source) s).routes, x.dest = d →
      ∃ e ∈ (routes.foldl (installRoute sender source) s).router.routeTable, e.toRoute = x := by
  induction routes generalizing s with
  | nil => exact hsent
  | cons route routes ih =>
    refine ih (keepsRoutes_tail h) fun x hx hd => ?_
    have hkeep := fun e => @mem_installRoute sender source s d route routes h e
    have hcase := installRoute_cases sender source s route
    generalize installRoute sender source s route = s' at hcase hx hkeep ⊢
    have hold : x ∈ s.routes → ∃ e ∈ s'.router.routeTable, e.toRoute = x := by
      intro hx
      obtain ⟨e, he, rfl⟩ := hsent x hx hd
      exact ⟨e, hkeep e he hd, rfl⟩
    cases hcase with
    | skipped _ => exact hold hx
    | rejected _ _ => exact hold hx
    | installed _ t table =>
      rcases List.mem_append.mp hx with hx | hx
      · exact hold hx
      · exact ⟨_, RouteTable.mem_of_installed table, (List.mem_singleton.mp hx).symm⟩

/-- With room for all of them, every route to `d` that does not loop is there in the end. -/
theorem foldl_takes (routes : List Route) (h : HasRoom d (loopCalls sender source s routes))
    {route : Route} (hr : route ∈ routes) (hd : route.dest = d) (hloop : ¬s.router.loops route) :
    ∃ e ∈ (routes.foldl (installRoute sender source) s).router.routeTable,
      e.toRoute = extend sender route := by
  induction routes generalizing s with
  | nil => exact absurd hr List.not_mem_nil
  | cons first routes ih =>
    have htail : HasRoom d
        (loopCalls sender source (installRoute sender source s first) routes) := by
      intro c hc
      refine h c ?_
      rw [loopCalls]
      exact List.mem_append_right _ hc
    have hid : (installRoute sender source s first).router.id = s.router.id := by
      have hcase := installRoute_cases sender source s first
      generalize installRoute sender source s first = s' at hcase
      cases hcase <;> rfl
    rcases List.mem_cons.mp hr with rfl | hr
    · -- there is room, so it is there after its own iteration, and it stays
      have hcase := installRoute_cases sender source s route
      have hroom : ¬s.router.routeTable.overflows (entryOf sender source route) := by
        refine h (_, entryOf sender source route) ?_ hd
        rw [loopCalls_cons hloop]
        exact List.mem_cons_self
      have hthere : ∃ e ∈ (installRoute sender source s route).router.routeTable,
          e.toRoute = extend sender route := by
        generalize installRoute sender source s route = s' at hcase
        cases hcase with
        | skipped loop => exact absurd loop hloop
        | rejected _ table => exact RouteTable.exists_mem_integrate table hroom
        | installed _ t table => exact RouteTable.exists_mem_integrate table hroom
      obtain ⟨e, he, hroute⟩ := hthere
      exact ⟨e, mem_foldl routes htail.keepsRoutes he (by rw [hroute, extend_dest, hd]), hroute⟩
    · exact ih htail hr (by rwa [loops_congr hid])

end Loop

/-! ## The whole message -/

section Message

variable {r : Router} {ra : RouteAdvertisement} {source : Connection} {d : UInt32}

theorem integrateCalls_foreign (h : ra.sender ≠ r.id) (source : Connection) :
    r.integrateCalls (.advertisement ra) source = loopCalls ra.sender source
      { router := r, routes := [], routesUpdated := false } ra.routes :=
  if_neg h

theorem mem_advertLoop (hforeign : ra.sender ≠ r.id)
    (h : KeepsRoutes d (r.integrateCalls (.advertisement ra) source)) {e : RouteTableEntry}
    (he : e ∈ r.routeTable) (hd : e.dest = d) :
    e ∈ (r.advertLoop ra.sender source ra.routes).router.routeTable := by
  rw [integrateCalls_foreign hforeign] at h
  exact mem_foldl ra.routes h he hd

theorem advertLoop_sent (hforeign : ra.sender ≠ r.id)
    (h : KeepsRoutes d (r.integrateCalls (.advertisement ra) source)) {x : Route}
    (hx : x ∈ (r.advertLoop ra.sender source ra.routes).routes) (hd : x.dest = d) :
    ∃ e ∈ (r.advertLoop ra.sender source ra.routes).router.routeTable, e.toRoute = x := by
  rw [integrateCalls_foreign hforeign] at h
  exact foldl_sent ra.routes h (by simp) x hx hd

theorem advertLoop_takes (hforeign : ra.sender ≠ r.id)
    (h : HasRoom d (r.integrateCalls (.advertisement ra) source)) {route : Route}
    (hr : route ∈ ra.routes) (hd : route.dest = d) (hloop : ¬r.loops route) :
    ∃ e ∈ (r.advertLoop ra.sender source ra.routes).router.routeTable,
      e.toRoute = extend ra.sender route := by
  rw [integrateCalls_foreign hforeign] at h
  exact foldl_takes ra.routes h hr hd hloop

/-- What the router knows of `d` afterwards is what it knew and what it passes on. -/
theorem knows_integrateAdvertisement (hforeign : ra.sender ≠ r.id)
    (h : KeepsRoutes d (r.integrateCalls (.advertisement ra) source)) {x : Route}
    (hd : x.dest = d) : (r.integrateAdvertisement ra source).1.Knows x ↔
      r.Knows x ∨ x ∈ (r.relayedAdvert ra source).routes := by
  have spec := advertLoop_spec r ra.sender source ra.routes
  rw [integrateAdvertisement_fst hforeign, knows_iff, knows_iff, spec.id]
  constructor
  · rintro (hown | ⟨e, he, rfl⟩)
    · exact Or.inl (Or.inl hown)
    · rcases spec.mem e he with he | ⟨hnew, -⟩
      · exact Or.inl (Or.inr ⟨e, he, rfl⟩)
      · exact Or.inr hnew
  · rintro ((hown | ⟨e, he, rfl⟩) | hnew)
    · exact Or.inl hown
    · exact Or.inr ⟨e, mem_advertLoop hforeign h he hd, rfl⟩
    · exact Or.inr (advertLoop_sent hforeign h hnew hd)

end Message

end Router

end Synergy
