import Synergy.Lib.Flight
import Synergy.Router.Calls

/-!
# What an operation sends on one connection

Each operation sends at most one message on any connection, and never one on a connection
that is not in `connections_`. The lemmas here say which, connection by connection, and what
an operation leaves of the connections themselves.
-/

set_option autoImplicit false

namespace Synergy

open Lib

namespace Router

theorem queue_flood (r : Router) (m : RouteMessage) (source : UInt32) (c : Connection)
    [Decidable (r.running = true ∧ c ∈ r.connections ∧ c.id ≠ source)] :
    Flight.queue c (r.flood m source) =
      if r.running = true ∧ c ∈ r.connections ∧ c.id ≠ source then [m] else [] := by
  unfold flood
  by_cases hr : r.running = true
  · have hnodup : (r.connections.toList.filter fun c => c.id ≠ source).Nodup :=
      r.connections.nodup.filter _
    rw [if_pos hr, Flight.queue_map_same hnodup]
    simp [hr, List.mem_filter, UniqueIndex.mem_def]
  · rw [if_neg hr, if_neg fun h => hr h.1]
    rfl

theorem queue_broadcast (r : Router) (m : RouteMessage) (c : Connection)
    [Decidable (r.running = true ∧ c ∈ r.connections)] :
    Flight.queue c (r.broadcast m) = if r.running = true ∧ c ∈ r.connections then [m] else [] := by
  unfold broadcast
  by_cases hr : r.running = true
  · rw [if_pos hr, Flight.queue_map_same r.connections.nodup]
    simp [hr, UniqueIndex.mem_def]
  · rw [if_neg hr, if_neg fun h => hr h.1]
    rfl

/-! ## `add` -/

theorem add_of_fresh {r : Router} {c : Connection} (h : ¬r.connections.hasKey c.key) :
    r.add c = ({ r with connections := r.connections.insert c },
      [(c, .advertisement r.connectedAdvert)]) := by
  unfold add
  rw [if_neg h]
  rfl

@[simp] theorem add_routeTable (r : Router) (c : Connection) :
    (r.add c).1.routeTable = r.routeTable := by
  unfold add
  split <;> rfl

@[simp] theorem add_id (r : Router) (c : Connection) : (r.add c).1.id = r.id := by
  unfold add
  split <;> rfl

/-! ## `integrate` -/

theorem integrateAdvertisement_own {r : Router} {ra : RouteAdvertisement} {source : Connection}
    (h : ra.sender = r.id) : r.integrateAdvertisement ra source = (r, []) := by
  rw [integrateAdvertisement, if_pos h]

theorem integrateRevocation_own {r : Router} {rr : RouteRevocation} {source : Connection}
    (h : rr.sender = r.id) : r.integrateRevocation rr source = (r, []) := by
  rw [integrateRevocation, if_pos h]

/-- A router does nothing about a message of its own. -/
theorem integrate_own {r : Router} {m : RouteMessage} (h : m.sender = r.id)
    (source : Connection) : r.integrate m source = (r, []) := by
  cases m with
  | advertisement ra => exact integrateAdvertisement_own h
  | revocation rr => exact integrateRevocation_own h

/-- The advertisement that an advertisement is passed on as. -/
def relayedAdvert (r : Router) (ra : RouteAdvertisement) (source : Connection) :
    RouteAdvertisement :=
  { sender := r.id, routes := (r.advertLoop ra.sender source ra.routes).routes }

/-- The revocation that a revocation is passed on as. -/
def relayedRevocation (r : Router) (rr : RouteRevocation) : RouteRevocation :=
  { sender := r.id, routes := (r.revocationLoop rr.sender rr.routes).routes }

theorem mem_relayedRevocation {r : Router} {rr : RouteRevocation} {x : Route} :
    x ∈ (r.relayedRevocation rr).routes ↔
      ∃ y ∈ rr.routes, ¬r.loops y ∧ x = extend rr.sender y := by
  show x ∈ (r.revocationLoop rr.sender rr.routes).routes ↔ _
  rw [(revocationLoop_spec r rr.sender rr.routes).routes_eq, List.mem_map]
  constructor
  · rintro ⟨y, hy, rfl⟩
    obtain ⟨hy, hloop⟩ := List.mem_filter.mp hy
    exact ⟨y, hy, by simpa using hloop, rfl⟩
  · rintro ⟨y, hy, hloop, rfl⟩
    exact ⟨y, List.mem_filter.mpr ⟨hy, by simpa using hloop⟩, rfl⟩

@[simp] theorem integrateAdvertisement_fst {r : Router} {ra : RouteAdvertisement}
    {source : Connection} (h : ra.sender ≠ r.id) :
    (r.integrateAdvertisement ra source).1 =
      (r.advertLoop ra.sender source ra.routes).router := by
  rw [integrateAdvertisement, if_neg h]

@[simp] theorem integrateRevocation_routeTable {r : Router} {rr : RouteRevocation}
    {source : Connection} (h : rr.sender ≠ r.id) :
    (r.integrateRevocation rr source).1.routeTable =
      (r.revocationLoop rr.sender rr.routes).router.routeTable := by
  rw [integrateRevocation, if_neg h]
  rfl

theorem integrateRevocation_snd {r : Router} {rr : RouteRevocation} {source : Connection}
    (h : rr.sender ≠ r.id) : (r.integrateRevocation rr source).2 =
      if (r.revocationLoop rr.sender rr.routes).routesUpdated
      then (r.revocationLoop rr.sender rr.routes).router.flood
        (.revocation (r.relayedRevocation rr)) source.id else [] := by
  rw [integrateRevocation, if_neg h]
  rfl

theorem queue_integrateAdvertisement {r : Router} {ra : RouteAdvertisement}
    {source : Connection} (h : ra.sender ≠ r.id) (c : Connection)
    [Decidable ((r.advertLoop ra.sender source ra.routes).routes ≠ [] ∧ r.running = true ∧
      c ∈ r.connections ∧ c.id ≠ source.id)] :
    Flight.queue c (r.integrateAdvertisement ra source).2 =
      if (r.advertLoop ra.sender source ra.routes).routes ≠ [] ∧ r.running = true ∧
        c ∈ r.connections ∧ c.id ≠ source.id
      then [.advertisement (r.relayedAdvert ra source)] else [] := by
  classical
  have spec := advertLoop_spec r ra.sender source ra.routes
  have heq : (r.integrateAdvertisement ra source).2 =
      if (r.advertLoop ra.sender source ra.routes).routesUpdated
      then (r.advertLoop ra.sender source ra.routes).router.flood
        (.advertisement (r.relayedAdvert ra source)) source.id else [] := by
    rw [integrateAdvertisement, if_neg h]
    rfl
  rw [heq]
  by_cases hu : (r.advertLoop ra.sender source ra.routes).routes = []
  · have hf : ¬(r.advertLoop ra.sender source ra.routes).routesUpdated = true :=
      fun ht => spec.updated.mp ht hu
    rw [if_neg hf, if_neg fun hc => hc.1 hu]
    rfl
  · rw [if_pos (spec.updated.mpr hu), queue_flood, spec.running, spec.connections]
    simp [hu]

theorem queue_integrateRevocation {r : Router} {rr : RouteRevocation}
    {source : Connection} (h : rr.sender ≠ r.id) (c : Connection)
    [Decidable ((∃ e ∈ r.routeTable, e.toRoute ∈ (r.relayedRevocation rr).routes) ∧
      r.running = true ∧ c ∈ r.connections ∧ c.id ≠ source.id)] :
    Flight.queue c (r.integrateRevocation rr source).2 =
      if (∃ e ∈ r.routeTable, e.toRoute ∈ (r.relayedRevocation rr).routes) ∧
        r.running = true ∧ c ∈ r.connections ∧ c.id ≠ source.id
      then [.revocation (r.relayedRevocation rr)] else [] := by
  classical
  have spec := revocationLoop_spec r rr.sender rr.routes
  rw [integrateRevocation_snd h]
  by_cases hu : (r.revocationLoop rr.sender rr.routes).routesUpdated = true
  · rw [if_pos hu, queue_flood, spec.running, spec.connections]
    have hex := spec.updated.mp hu
    simp only [relayedRevocation, hex, true_and]
  · rw [if_neg hu, if_neg fun hc => hu (spec.updated.mpr hc.1)]
    rfl

theorem mem_flood {r : Router} {m : RouteMessage} {source : UInt32} {s : Connection × RouteMessage}
    (h : s ∈ r.flood m source) : s.2 = m := by
  unfold flood at h
  split at h
  · obtain ⟨c, -, rfl⟩ := List.mem_map.mp h
    rfl
  · exact absurd h (by simp)

theorem mem_broadcast {r : Router} {m : RouteMessage} {s : Connection × RouteMessage}
    (h : s ∈ r.broadcast m) : s.2 = m := by
  unfold broadcast at h
  split at h
  · obtain ⟨c, -, rfl⟩ := List.mem_map.mp h
    rfl
  · exact absurd h (by simp)

/-- `m'` passes on some of the routes of `m`, one hop longer, and none that loops. -/
structure Relays (r : Router) (m m' : RouteMessage) : Prop where
  foreign : m.sender ≠ r.id
  sender : m'.sender = r.id
  nonempty : m'.routes ≠ []
  routes : ∀ x ∈ m'.routes, ∃ y ∈ m.routes, ¬r.loops y ∧ x = extend m.sender y

/-- Whatever an arriving message makes the router send relays that message. -/
theorem relays_of_mem_integrate {r : Router} {m : RouteMessage} {source : Connection}
    {s : Connection × RouteMessage} (h : s ∈ (r.integrate m source).2) : r.Relays m s.2 := by
  cases m with
  | advertisement ra =>
    change s ∈ (r.integrateAdvertisement ra source).2 at h
    by_cases hs : ra.sender = r.id
    · rw [integrateAdvertisement_own hs] at h
      exact absurd h (by simp)
    · have spec := advertLoop_spec r ra.sender source ra.routes
      rw [integrateAdvertisement, if_neg hs] at h
      simp only at h
      split at h
      · rename_i hu
        rw [mem_flood h]
        exact ⟨hs, rfl, spec.updated.mp hu, spec.fresh⟩
      · exact absurd h (by simp)
  | revocation rr =>
    change s ∈ (r.integrateRevocation rr source).2 at h
    by_cases hs : rr.sender = r.id
    · rw [integrateRevocation_own hs] at h
      exact absurd h (by simp)
    · have spec := revocationLoop_spec r rr.sender rr.routes
      rw [integrateRevocation, if_neg hs] at h
      simp only at h
      split at h
      · rename_i hu
        obtain ⟨e, -, he⟩ := spec.updated.mp hu
        rw [mem_flood h]
        exact ⟨hs, rfl, List.ne_nil_of_mem he, fun x hx => mem_relayedRevocation.mp hx⟩
      · exact absurd h (by simp)

/-- An entry that was not there before was advertised by the message. -/
theorem mem_integrate_routeTable {r : Router} {m : RouteMessage} {source : Connection}
    {e : RouteTableEntry} (h : e ∈ (r.integrate m source).1.routeTable) :
    e ∈ r.routeTable ∨ (m.sender ≠ r.id ∧ e.connection = source ∧
      ∃ y ∈ m.routes, ¬r.loops y ∧ e.toRoute = extend m.sender y) := by
  cases m with
  | advertisement ra => exact @mem_call r (.advertisement ra source) e h
  | revocation rr => exact (@mem_call r (.revocation rr source) e h).imp_right False.elim

/-- Route messages change the table and nothing else of what a router is. -/
theorem integrate_keeps (r : Router) (m : RouteMessage) (source : Connection) :
    (r.integrate m source).1.connections = r.connections ∧
      (r.integrate m source).1.running = r.running := by
  cases m with
  | advertisement ra =>
    show (r.integrateAdvertisement ra source).1.connections = _ ∧
      (r.integrateAdvertisement ra source).1.running = _
    by_cases hs : ra.sender = r.id
    · rw [integrateAdvertisement_own hs]
      exact ⟨rfl, rfl⟩
    · have hspec := advertLoop_spec r ra.sender source ra.routes
      rw [integrateAdvertisement_fst hs]
      exact ⟨hspec.connections, hspec.running⟩
  | revocation rr =>
    show (r.integrateRevocation rr source).1.connections = _ ∧
      (r.integrateRevocation rr source).1.running = _
    by_cases hs : rr.sender = r.id
    · rw [integrateRevocation_own hs]
      exact ⟨rfl, rfl⟩
    · have hspec := revocationLoop_spec r rr.sender rr.routes
      rw [integrateRevocation, if_neg hs]
      exact ⟨hspec.connections, hspec.running⟩

@[simp] theorem integrate_connections (r : Router) (m : RouteMessage)
    (source : Connection) : (r.integrate m source).1.connections = r.connections :=
  (integrate_keeps r m source).1

@[simp] theorem integrate_running (r : Router) (m : RouteMessage)
    (source : Connection) : (r.integrate m source).1.running = r.running :=
  (integrate_keeps r m source).2

@[simp] theorem integrate_id (r : Router) (m : RouteMessage) (source : Connection) :
    (r.integrate m source).1.id = r.id := by
  cases m with
  | advertisement ra => exact id_call r (.advertisement ra source)
  | revocation rr => exact id_call r (.revocation rr source)

/-- Nothing is sent on a connection the router does not have. -/
theorem queue_integrate_of_not_mem {r : Router} {c : Connection} (h : c ∉ r.connections)
    (m : RouteMessage) (source : Connection) : Flight.queue c (r.integrate m source).2 = [] := by
  classical
  cases m with
  | advertisement ra =>
    show Flight.queue c (r.integrateAdvertisement ra source).2 = []
    by_cases hs : ra.sender = r.id
    · rw [integrateAdvertisement_own hs]
      rfl
    · rw [queue_integrateAdvertisement hs, if_neg fun hc => h hc.2.2.1]
  | revocation rr =>
    show Flight.queue c (r.integrateRevocation rr source).2 = []
    by_cases hs : rr.sender = r.id
    · rw [integrateRevocation_own hs]
      rfl
    · rw [queue_integrateRevocation hs, if_neg fun hc => h hc.2.2.1]

/-! ## `remove` -/

theorem mem_deadRoutes {r : Router} {c : Connection} {e : RouteTableEntry} :
    e ∈ r.deadRoutes c ↔ e ∈ r.routeTable ∧ e.connection.id = c.id := by
  rw [deadRoutes, List.mem_filter, decide_eq_true_eq, UniqueIndex.mem_def]

/-- The revocation that goes out when a connection is lost. -/
def lostRoutes (r : Router) (dead : List RouteTableEntry) : RouteRevocation :=
  { sender := r.id, routes := dead.map fun e => e.toRoute }

theorem mem_remove_routeTable {r : Router} {c : Connection} {dead : List RouteTableEntry}
    {e : RouteTableEntry} : e ∈ (r.remove c dead).1.routeTable ↔
      e ∈ r.routeTable ∧ e.connection.id ≠ c.id := by
  show e ∈ r.routeTable.eraseIf _ ↔ _
  rw [UniqueIndex.mem_eraseIf, decide_eq_false_iff_not]

theorem mem_remove_connections {r : Router} {c : Connection} {dead : List RouteTableEntry}
    {c' : Connection} : c' ∈ (r.remove c dead).1.connections ↔
      c' ∈ r.connections ∧ c' ≠ c := by
  show c' ∈ r.connections.eraseIf _ ↔ _
  rw [UniqueIndex.mem_eraseIf, decide_eq_false_iff_not]

theorem queue_remove (r : Router) (k : Connection) (dead : List RouteTableEntry)
    (c : Connection) [Decidable (dead ≠ [] ∧ r.running = true ∧ c ∈ r.connections ∧ c ≠ k)] :
    Flight.queue c (r.remove k dead).2 =
      if dead ≠ [] ∧ r.running = true ∧ c ∈ r.connections ∧ c ≠ k
      then [.revocation (r.lostRoutes dead)] else [] := by
  classical
  cases dead with
  | nil => simp [remove]
  | cons e dead =>
    have heq : (r.remove k (e :: dead)).2 =
        (r.remove k []).1.broadcast (.revocation (r.lostRoutes (e :: dead))) := rfl
    have hrunning : (r.remove k []).1.running = r.running := rfl
    rw [heq, queue_broadcast, mem_remove_connections, hrunning]
    simp

/-! ## What a router knows -/

/-- What the router would tell a new neighbour: its own route and those of its table. -/
def Knows (r : Router) (x : Route) : Prop := x ∈ r.connectedAdvert.routes

theorem knows_iff {r : Router} {x : Route} :
    r.Knows x ↔
      x = { dest := r.id, cost := 0, path := [] } ∨ ∃ e ∈ r.routeTable, e.toRoute = x := by
  unfold Knows connectedAdvert getKnownRoutes
  rw [List.mem_cons, List.mem_map]
  rfl

theorem knows_congr {r r' : Router} (hid : r'.id = r.id) (htable : r'.routeTable = r.routeTable)
    (x : Route) : r'.Knows x ↔ r.Knows x := by
  rw [knows_iff, knows_iff, hid, htable]

/-- A router forgets what it revokes, and nothing else. -/
theorem knows_revoked {r r' : Router} (hid : r'.id = r.id) {revoked : List Route}
    (hpath : ∀ x ∈ revoked, x.path ≠ [])
    (htable : ∀ e, e ∈ r'.routeTable ↔ e ∈ r.routeTable ∧ e.toRoute ∉ revoked) (x : Route) :
    r'.Knows x ↔ r.Knows x ∧ x ∉ revoked := by
  rw [knows_iff, knows_iff, hid]
  constructor
  · rintro (rfl | ⟨e, he, rfl⟩)
    · exact ⟨Or.inl rfl, fun hmem => hpath _ hmem rfl⟩
    · obtain ⟨he, hmem⟩ := (htable e).mp he
      exact ⟨Or.inr ⟨e, he, rfl⟩, hmem⟩
  · rintro ⟨rfl | ⟨e, he, rfl⟩, hmem⟩
    · exact Or.inl rfl
    · exact Or.inr ⟨e, (htable e).mpr ⟨he, hmem⟩, rfl⟩

theorem knows_integrateRevocation {r : Router} {rr : RouteRevocation} {source : Connection}
    (h : rr.sender ≠ r.id) (x : Route) : (r.integrateRevocation rr source).1.Knows x ↔
      r.Knows x ∧ x ∉ (r.relayedRevocation rr).routes := by
  have spec := revocationLoop_spec r rr.sender rr.routes
  have hid : (r.integrateRevocation rr source).1.id = r.id := integrate_id r (.revocation rr) source
  refine knows_revoked hid (fun y hy => ?_) (fun e => ?_) x
  · obtain ⟨z, -, -, rfl⟩ := mem_relayedRevocation.mp hy
    exact List.cons_ne_nil _ _
  · rw [integrateRevocation_routeTable h]
    exact spec.mem e

theorem knows_remove {r : Router} {c : Connection} {dead : List RouteTableEntry}
    (hperm : dead.Perm (r.deadRoutes c)) (hpath : ∀ e ∈ r.routeTable, e.path ≠ []) (x : Route) :
    (r.remove c dead).1.Knows x ↔ r.Knows x ∧ x ∉ (r.lostRoutes dead).routes := by
  have hdead : ∀ e, e ∈ dead ↔ e ∈ r.routeTable ∧ e.connection.id = c.id := fun e =>
    hperm.mem_iff.trans mem_deadRoutes
  have hid : (r.remove c dead).1.id = r.id := rfl
  refine knows_revoked hid (fun y hy => ?_) (fun e => ?_) x
  · obtain ⟨e, he, rfl⟩ := List.mem_map.mp hy
    exact hpath e ((hdead e).mp he).1
  · rw [mem_remove_routeTable]
    refine and_congr_right fun he => not_congr ⟨fun hid => ?_, fun hmem => ?_⟩
    · exact List.mem_map.mpr ⟨e, (hdead e).mpr ⟨he, hid⟩, rfl⟩
    · -- one key, one entry
      obtain ⟨e', he', heq⟩ := List.mem_map.mp hmem
      obtain ⟨he', hid⟩ := (hdead e').mp he'
      rwa [← UniqueIndex.eq_of_key_eq he' he (congrArg Route.key heq)]

end Router

end Synergy
