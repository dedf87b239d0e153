import Synergy.Lib.Hearsay
import Synergy.Router.Limit
import Synergy.Network.PathIntegrity

/-!
# What the other end will hold

For networks in which connections break as well. Take a port `q` and a route `x` that the
other end has a use for. The other end holds `x` or not, and there are messages on the way
to it; `Expects` is what it will hold when it has read them. Whether that is what `q`'s own
router knows is the whole question: that it is no less is completeness, that it is no more
is that nothing stale stays behind. Neither is proved here, because neither is true without
conditions. What is proved here is the sending half, which serves both: whatever an
operation does to the knowledge of a router, it tells all ports that care (`Announces`), as
long as the limit bumps nothing.
-/

set_option autoImplicit false

namespace Synergy

open Lib

/-- What a message says of a route: it is there, it is gone, or nothing. -/
def RouteMessage.word (x : Route) : RouteMessage → Option Bool
  | .advertisement ra => if x ∈ ra.routes then some true else none
  | .revocation rr => if x ∈ rr.routes then some false else none

theorem heardOne_advertisement (x : Route) (ra : RouteAdvertisement) (P : Prop) :
    HeardOne (RouteMessage.word x) (.advertisement ra) P ↔ P ∨ x ∈ ra.routes := by
  unfold HeardOne RouteMessage.word
  by_cases h : x ∈ ra.routes
  · simp [h]
  · simp [h]

theorem heardOne_revocation (x : Route) (rr : RouteRevocation) (P : Prop) :
    HeardOne (RouteMessage.word x) (.revocation rr) P ↔ P ∧ x ∉ rr.routes := by
  unfold HeardOne RouteMessage.word
  by_cases h : x ∈ rr.routes
  · simp [h]
  · simp [h]

namespace Network

variable {ι : Type} [DecidableEq ι] {w : Wiring ι} {ids : ι → UInt32} {n n' : Network ι}

/-- `x` is neither a route to the other end of `q` nor one through it. -/
structure Welcome (w : Wiring ι) (ids : ι → UInt32) (q : Port ι) (x : Route) : Prop where
  dest : x.dest ≠ ids (w.peer q).router
  path : ids (w.peer q).router ∉ x.path

/-- The other end of `q` holds `x` over this connection. -/
def Held (w : Wiring ι) (ids : ι → UInt32) (n : Network ι) (q : Port ι) (x : Route) : Prop :=
  ∃ e ∈ n.table (w.peer q).router, e.connection = (w.peer q).conn ∧
    e.toRoute = Router.extend (ids q.router) x

/-- The other end of `q` will hold `x` when it has read what is on the way. -/
def Expects (w : Wiring ι) (ids : ι → UInt32) (n : Network ι) (q : Port ι) (x : Route) : Prop :=
  Heard (RouteMessage.word x) (n.queue q) (Held w ids n q x)

/-- Whatever the router of `q` learns or forgets of `d` on the way from `n` to `n'`, the other
    end of `q` is told, where it has a use for it. -/
def Announces (w : Wiring ι) (ids : ι → UInt32) (d : UInt32) (n n' : Network ι) (q : Port ι) :
    Prop :=
  ∃ sent, n'.queue q = n.queue q ++ sent ∧ ∀ x : Route, x.dest = d → Welcome w ids q x →
    ((n'.routers q.router).Knows x ↔
      Heard (RouteMessage.word x) sent ((n.routers q.router).Knows x))

/-! ## Every operation announces -/

theorem announces_addEnd (d : UInt32) {p : Port ι}
    (hkey : ¬(n.routers p.router).connections.hasKey p.conn.key) (q : Port ι) :
    Announces w ids d n (n.addEnd p) q := by
  have hknows : ∀ x, ((n.addEnd p).routers q.router).Knows x ↔ (n.routers q.router).Knows x :=
    Router.knows_congr (by rw [id_addEnd]) (table_addEnd n p q.router)
  refine ⟨_, queue_addEnd hkey q, fun x _ _ => (hknows x).trans ?_⟩
  by_cases hq : q = p
  · subst hq
    rw [if_pos rfl, heard_cons, heard_nil, heardOne_advertisement]
    exact ⟨Or.inl, fun h => h.elim id id⟩
  · rw [if_neg hq, heard_nil]

theorem announces_removeEnd (d : UInt32) (hs : ∀ i, (n.routers i).Sound (ids i))
    (hpaths : PathsIntact w ids n) {p q : Port ι} {dead : List RouteTableEntry}
    (hdead : dead.Perm ((n.routers p.router).deadRoutes p.conn)) (hlive : n.Live q)
    (hne : q ≠ p) : Announces w ids d n (n.removeEnd p dead) q := by
  classical
  refine ⟨_, queue_removeEnd hs p dead q, fun x _ _ => ?_⟩
  by_cases hr : q.router = p.router
  · have hknows : ((n.removeEnd p dead).routers q.router).Knows x ↔
        (n.routers q.router).Knows x ∧
          x ∉ ((n.routers p.router).lostRoutes dead).routes := by
      unfold removeEnd
      rw [hr, routers_act_self]
      refine Router.knows_remove hdead (fun e he => ?_) x
      exact List.ne_nil_of_mem (List.mem_of_mem_head? (hpaths.table p.router e he).head)
    rw [hknows]
    by_cases hnil : dead = []
    · rw [if_neg fun h => h.2.1 hnil, heard_nil, hnil]
      exact and_iff_left List.not_mem_nil
    · rw [if_pos ⟨hr, hnil, hlive, hne⟩, heard_cons, heard_nil, heardOne_revocation]
  · have hsame : (n.removeEnd p dead).routers q.router = n.routers q.router :=
      routers_act_of_ne hr _ _
    rw [if_neg fun h => hr h.1, heard_nil, hsame]

theorem announces_receive {d : UInt32} (hs : ∀ i, (n.routers i).Sound (ids i)) {p q : Port ι}
    {m : RouteMessage} (hpeer : n.Live (w.peer p)) (hsender : m.sender = ids p.router)
    (hkeeps : Router.KeepsRoutes d
      ((n.routers (w.peer p).router).integrateCalls m (w.peer p).conn))
    (hlive : n.Live q) : Announces w ids d n (receive w n p m) q := by
  classical
  by_cases hown : m.sender = ids (w.peer p).router
  · rw [receive_own w (hown.trans (hs _).id_eq.symm)]
    exact ⟨[], (List.append_nil _).symm, fun x _ _ => Iff.rfl⟩
  have hforeign : m.sender ≠ (n.routers (w.peer p).router).id := by rwa [(hs _).id_eq]
  by_cases hr : q.router = (w.peer p).router
  swap
  · have hsame : (receive w n p m).routers q.router = n.routers q.router :=
      routers_act_of_ne hr _ _
    refine ⟨[], ?_, fun x _ _ => by rw [hsame, heard_nil]⟩
    unfold receive
    rw [queue_act, if_neg hr]
  -- the source is not told, and has no use for what came from it
  have hback : ∀ y : Route, Welcome w ids q (Router.extend m.sender y) → q ≠ w.peer p := by
    rintro y hy rfl
    apply hy.path
    rw [w.peer_peer, hsender]
    exact List.mem_cons_self
  have hrouter : (receive w n p m).routers q.router =
      ((n.routers (w.peer p).router).integrate m (w.peer p).conn).1 := by
    unfold receive
    rw [hr, routers_act_self]
  cases m with
  | advertisement ra =>
    refine ⟨_, queue_receive_advertisement hs hpeer hown q, fun x hd hx => ?_⟩
    have hknows := Router.knows_integrateAdvertisement hforeign hkeeps hd
    rw [hrouter, hr]
    refine hknows.trans ?_
    split
    · rw [heard_cons, heard_nil, heardOne_advertisement]
    · rename_i hnot
      rw [heard_nil]
      refine or_iff_left fun hmem => hnot ⟨List.ne_nil_of_mem hmem, rfl, hlive, ?_⟩
      obtain ⟨y, -, -, rfl⟩ := (Router.advertLoop_spec _ ra.sender _ ra.routes).fresh x hmem
      exact hback y hx
  | revocation rr =>
    refine ⟨_, queue_receive_revocation hs hpeer hown q, fun x hd hx => ?_⟩
    have hknows := @Router.knows_integrateRevocation _ _ (w.peer p).conn hforeign x
    rw [hrouter, hr]
    refine hknows.trans ?_
    split
    · rw [heard_cons, heard_nil, heardOne_revocation]
    · rename_i hnot
      rw [heard_nil]
      refine and_iff_left_of_imp fun hold hmem => ?_
      obtain ⟨y, -, -, rfl⟩ := Router.mem_relayedRevocation.mp hmem
      rcases Router.knows_iff.mp hold with hnil | ⟨e, he, hroute⟩
      · exact absurd (congrArg Route.path hnil) (List.cons_ne_nil _ _)
      · exact hnot ⟨⟨e, he, hroute ▸ hmem⟩, rfl, hlive, hback y hx⟩

end Network

end Synergy
