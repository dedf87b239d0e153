import Synergy.Network.Links

/-!
# Paths are what they say they are

In a network of routers that all run this code, the path of a route is the list of routers
it came through, nearest first, and its cost is their number. The invariant has to speak of
tables and of messages in flight at once, and it is one predicate for both: `RouteIntact`,
about a route as it stands at one router. What arrives and does not loop is intact one hop
further (`RouteIntact.of_extend`), and everything a router ever sends is its own route, a
route of its table, or one that has just arrived.

Nothing is assumed of the order of steps, so these are invariants of `Local`.
-/

set_option autoImplicit false

namespace Synergy

open Lib

namespace Network

variable {ι : Type} [DecidableEq ι] {w : Wiring ι} {ids : ι → UInt32} {n n' : Network ι}

/-- `r`, held at router `i` and learned over connection `c`, is the trace of a simple path. -/
structure RouteIntact (w : Wiring ι) (ids : ι → UInt32) (i : ι) (c : Connection) (r : Route) :
    Prop where
  cost : r.cost.toNat = r.path.length
  nodup : r.path.Nodup
  not_on_path : ids i ∉ r.path
  head : r.path.head? = some (ids (w.peer ⟨i, c⟩).router)
  last : r.path.getLast? = some r.dest

/-- A route that router `i` may send: its own, or one it could hold. -/
def Sendable (w : Wiring ι) (ids : ι → UInt32) (i : ι) (r : Route) : Prop :=
  r = { dest := ids i, cost := 0, path := [] } ∨ ∃ c, RouteIntact w ids i c r

structure MessageIntact (w : Wiring ι) (ids : ι → UInt32) (p : Port ι) (m : RouteMessage) :
    Prop where
  sender : m.sender = ids p.router
  routes : ∀ r ∈ m.routes, Sendable w ids p.router r

structure PathsIntact (w : Wiring ι) (ids : ι → UInt32) (n : Network ι) : Prop where
  id_eq : ∀ i, (n.routers i).id = ids i
  table : ∀ i, ∀ e ∈ n.table i, RouteIntact w ids i e.connection e.toRoute
  flight : ∀ x ∈ n.flight, MessageIntact w ids x.1 x.2

/-! ## One hop -/

/-- There are only `2 ^ 32` ids, so the cost of a path without repetitions has room for one
    more hop. -/
theorem toNat_cost_succ {a b : UInt32} {path : List UInt32} {cost : UInt32}
    (hcost : cost.toNat = path.length) (hnodup : (a :: b :: path).Nodup) :
    (cost + 1).toNat = (b :: path).length := by
  have hcard : Fintype.card UInt32 = 2 ^ 32 := by
    rw [← FinEnum.card_eq_fintypeCard]
    rfl
  have hle : (a :: b :: path).length ≤ 2 ^ 32 := hcard ▸ hnodup.length_le_card
  simp only [List.length_cons] at hle ⊢
  rw [UInt32.toNat_add, hcost]
  exact Nat.mod_eq_of_lt (by simp only [UInt32.reduceToNat]; omega)

omit [DecidableEq ι] in
theorem RouteIntact.of_extend {p : Port ι} {r : Route} (hr : Sendable w ids p.router r)
    (hforeign : ids p.router ≠ ids (w.peer p).router) (hdest : r.dest ≠ ids (w.peer p).router)
    (hpath : ids (w.peer p).router ∉ r.path) :
    RouteIntact w ids (w.peer p).router (w.peer p).conn (Router.extend (ids p.router) r) := by
  have hhead : (Router.extend (ids p.router) r).path.head? =
      some (ids (w.peer (w.peer p)).router) := by
    rw [w.peer_peer]
    rfl
  have hoff : ids (w.peer p).router ∉ ids p.router :: r.path := by
    rw [List.mem_cons, not_or]
    exact ⟨hforeign.symm, hpath⟩
  rcases hr with rfl | ⟨c, hr⟩
  · exact ⟨rfl, List.nodup_singleton _, hoff, hhead, rfl⟩
  · have hnodup : (ids p.router :: r.path).Nodup := List.nodup_cons.mpr ⟨hr.not_on_path, hr.nodup⟩
    refine ⟨?_, hnodup, hoff, hhead, ?_⟩
    · exact toNat_cost_succ hr.cost (List.nodup_cons.mpr ⟨hoff, hnodup⟩)
    · show (ids p.router :: r.path).getLast? = some r.dest
      rw [List.getLast?_cons, hr.last]
      rfl

/-! ## One step -/

namespace PathsIntact

omit [DecidableEq ι] in
theorem start (w : Wiring ι) (ids : ι → UInt32) : PathsIntact w ids (start ids) where
  id_eq _ := rfl
  table _ e he := absurd he (UniqueIndex.not_mem_empty e)
  flight _ hx := absurd hx List.not_mem_nil

/-- It is enough to look at the router that acts and at what it sends. -/
theorem act (h : PathsIntact w ids n) {i : ι} {out : Router × Sends} (hid : out.1.id = ids i)
    (htable : ∀ e ∈ out.1.routeTable, RouteIntact w ids i e.connection e.toRoute)
    (hsends : ∀ s ∈ out.2, MessageIntact w ids ⟨i, s.1⟩ s.2) : PathsIntact w ids (n.act i out) := by
  refine ⟨fun j => ?_, fun j e he => ?_, fun x hx => ?_⟩
  · rw [routers_act]
    split
    · rename_i hj
      rw [hid, hj]
    · exact h.id_eq j
  · unfold Network.table at he
    rw [routers_act] at he
    split at he
    · rename_i hj
      rw [hj]
      exact htable e he
    · exact h.table j e he
  · rcases List.mem_append.mp hx with hx | hx
    · exact h.flight x hx
    · obtain ⟨s, hs, rfl⟩ := List.mem_map.mp hx
      exact hsends s hs

theorem addEnd (h : PathsIntact w ids n) (p : Port ι) : PathsIntact w ids (n.addEnd p) := by
  have hid := h.id_eq p.router
  refine h.act (by rw [Router.add_id, hid]) (fun e he => ?_) fun s hs => ?_
  · rw [Router.add_routeTable] at he
    exact h.table p.router e he
  · unfold Router.add at hs
    split at hs
    · exact absurd hs (by simp)
    · obtain rfl := List.mem_singleton.mp hs
      refine ⟨hid, fun r hr => ?_⟩
      rcases List.mem_cons.mp hr with rfl | hr
      · exact Or.inl (by simp [hid])
      · obtain ⟨e, he, rfl⟩ := List.mem_map.mp hr
        exact Or.inr ⟨e.connection, h.table p.router e he⟩

theorem removeEnd (h : PathsIntact w ids n) (p : Port ι) {dead : List RouteTableEntry}
    (hdead : dead.Perm ((n.routers p.router).deadRoutes p.conn)) :
    PathsIntact w ids (n.removeEnd p dead) := by
  have hid := h.id_eq p.router
  refine h.act hid (fun e he => ?_) fun s hs => ?_
  · exact h.table p.router e (Router.mem_remove_routeTable.mp he).1
  · unfold Router.remove at hs
    simp only at hs
    split at hs
    · exact absurd hs (by simp)
    · rw [Router.mem_broadcast hs]
      refine ⟨hid, fun r hr => ?_⟩
      obtain ⟨e, he, rfl⟩ := List.mem_map.mp hr
      have hmem := (Router.mem_deadRoutes.mp (hdead.mem_iff.mp he)).1
      exact Or.inr ⟨e.connection, h.table p.router e hmem⟩

theorem receive (h : PathsIntact w ids n) {p : Port ι} {m : RouteMessage}
    (hm : MessageIntact w ids p m) : PathsIntact w ids (receive w n p m) := by
  have hid := h.id_eq (w.peer p).router
  -- a route of the message that the receiver takes, seen from there
  have hop : ∀ y ∈ m.routes, m.sender ≠ (n.routers (w.peer p).router).id →
      ¬(n.routers (w.peer p).router).loops y →
      RouteIntact w ids (w.peer p).router (w.peer p).conn (Router.extend m.sender y) := by
    intro y hy hforeign hloop
    rw [Router.loops_iff, not_or, hid] at hloop
    rw [hid] at hforeign
    rw [hm.sender] at hforeign ⊢
    exact RouteIntact.of_extend (hm.routes y hy) hforeign hloop.1 hloop.2
  refine h.act (by rw [Router.integrate_id, hid]) (fun e he => ?_) fun s hs => ?_
  · rcases Router.mem_integrate_routeTable he with he | ⟨hforeign, hc, y, hy, hloop, heq⟩
    · exact h.table (w.peer p).router e he
    · rw [heq, hc]
      exact hop y hy hforeign hloop
  · have hrel := Router.relays_of_mem_integrate hs
    refine ⟨hrel.sender.trans hid, fun x hx => ?_⟩
    obtain ⟨y, hy, hloop, rfl⟩ := hrel.routes x hx
    exact Or.inr ⟨(w.peer p).conn, hop y hy hrel.foreign hloop⟩

omit [DecidableEq ι] in
theorem of_flight_subset (h : PathsIntact w ids n) {flight : List (Port ι × RouteMessage)}
    (hsub : ∀ x ∈ flight, x ∈ n.flight) : PathsIntact w ids { n with flight := flight } :=
  ⟨h.id_eq, h.table, fun x hx => h.flight x (hsub x hx)⟩

omit [DecidableEq ι] in
/-- One message less is in flight. -/
theorem of_split (h : PathsIntact w ids n) {before after : List (Port ι × RouteMessage)}
    {x : Port ι × RouteMessage} (split : n.flight = before ++ x :: after) :
    PathsIntact w ids { n with flight := before ++ after } := by
  refine h.of_flight_subset fun y hy => ?_
  rw [split]
  rcases List.mem_append.mp hy with hy | hy
  · exact List.mem_append_left _ hy
  · exact List.mem_append_right _ (List.mem_cons_of_mem _ hy)

theorem of_taken (h : PathsIntact w ids n) {p : Port ι} {m : RouteMessage}
    {rest : List (Port ι × RouteMessage)} (taken : Flight.Taken p n.flight m rest) :
    PathsIntact w ids { n with flight := rest } := by
  obtain ⟨before, after, hsplit, rfl⟩ := taken.split
  exact h.of_split hsplit

theorem ofLocal (h : PathsIntact w ids n) (hstep : Local w n n') : PathsIntact w ids n' := by
  cases hstep with
  | add p => exact h.addEnd p
  | remove p dead perm => exact h.removeEnd p perm
  | deliver before after p m split =>
    have hm : MessageIntact w ids p m := h.flight (p, m) (by rw [split]; simp)
    exact (h.of_split split).receive hm
  | lose flight sub => exact h.of_flight_subset fun x hx => sub.subset hx

theorem ofLocals (h : PathsIntact w ids n) (hsteps : Relation.ReflTransGen (Local w) n n') :
    PathsIntact w ids n' := by
  induction hsteps with
  | refl => exact h
  | tail _ hstep ih => exact ih.ofLocal hstep

end PathsIntact

/-- The other end of an entry's connection is a neighbour. -/
theorem adj_of_mem (hlinked : Linked w ids n) (hpaths : PathsIntact w ids n) {i : ι}
    {e : RouteTableEntry} (he : e ∈ n.table i) :
    (n.links w).Adj i (w.peer ⟨i, e.connection⟩).router := by
  have hlive := hlinked.live_of_mem he
  have hintact := hpaths.table i e he
  refine ⟨fun heq => hintact.not_on_path ?_, ⟨i, e.connection⟩, hlive,
    hlinked.live_peer _ hlive, rfl, rfl⟩
  rw [congrArg ids heq]
  exact List.mem_of_mem_head? hintact.head

theorem Run.pathsIntact {ok : Network ι → Event ι → Prop}
    (h : Run w ok (Network.start ids) n) : PathsIntact w ids n :=
  (PathsIntact.start w ids).ofLocals h.locals

/-- **Path integrity**, under connects, disconnects, deliveries and losses in any order. -/
theorem path_integrity (h : Relation.ReflTransGen (Local w) (Network.start ids) n) :
    PathsIntact w ids n :=
  (PathsIntact.start w ids).ofLocals h

/-- Two routers and the connections between them. -/
def pair : Wiring (Fin 2) := .ofLinks fun _ => (0, 1)

/-- The first router's end of their `k`-th connection. -/
def pairPort (k : ℕ) : Port (Fin 2) := .near 0 k

/-- Two routers that have just been connected. -/
def newPair : Network (Fin 2) := (Network.start ![1, 2]).exec pair (.connect (pairPort 1))

/-- The adverts of both have been delivered. -/
theorem path_integrity_pair : PathsIntact pair ![1, 2] (settle pair 2 newPair) := by
  have hrun : Run pair (fun _ _ => True) (Network.start ![1, 2]) newPair := Run.nil.exec trivial
  exact path_integrity (hrun.settle 2 fun _ _ _ _ => trivial).locals

end Network

end Synergy
