import Synergy.Network.Network
import Synergy.Router.Sends

/-!
# What an event does to queues, tables and links

The frame of every later proof. `act` changes one router and appends to the queues of that
router's ports, and everything else is unchanged; the three operations are instances. On top
of it stands `Linked`, the invariant that needs to be known before anything can be said of
routes: the routers are who they are, connection ids tell connections apart, a port is live
when its peer is, and neither a message nor a route survives the connection it depends on.
-/

set_option autoImplicit false

namespace Synergy

open Lib

/-! ## One router -/

/-- What a running router keeps whatever it is told, as long as connection ids are fresh and
    messages come in on connections it has. -/
structure Router.Sound (id : UInt32) (r : Router) : Prop where
  id_eq : r.id = id
  running : r.running = true
  conn_inj : ∀ c ∈ r.connections, ∀ c' ∈ r.connections, c.id = c'.id → c = c'
  attached : ∀ e ∈ r.routeTable, e.connection ∈ r.connections

namespace Router.Sound

variable {id : UInt32} {r : Router}

theorem started (id : UInt32) : Sound id (Router.started id) where
  id_eq := rfl
  running := rfl
  conn_inj c hc := absurd hc (UniqueIndex.not_mem_empty c)
  attached e he := absurd he (UniqueIndex.not_mem_empty e)

theorem add (h : Sound id r) {c : Connection} (hkey : ¬r.connections.hasKey c.key)
    (hid : ∀ c' ∈ r.connections, c'.id ≠ c.id) : Sound id (r.add c).1 := by
  rw [add_of_fresh hkey]
  refine ⟨h.id_eq, h.running, fun a ha b hb hab => ?_, fun e he => ?_⟩
  · rcases (UniqueIndex.mem_insert hkey).mp ha with rfl | hold <;>
      rcases (UniqueIndex.mem_insert hkey).mp hb with rfl | hold'
    · rfl
    · exact absurd hab.symm (hid b hold')
    · exact absurd hab (hid a hold)
    · exact h.conn_inj a hold b hold' hab
  · exact (UniqueIndex.mem_insert hkey).mpr (Or.inr (h.attached e he))

theorem remove (h : Sound id r) (c : Connection) (dead : List RouteTableEntry) :
    Sound id (r.remove c dead).1 := by
  refine ⟨h.id_eq, h.running, fun a ha b hb => ?_, fun e he => ?_⟩
  · exact h.conn_inj a (mem_remove_connections.mp ha).1 b (mem_remove_connections.mp hb).1
  · obtain ⟨he, hne⟩ := mem_remove_routeTable.mp he
    refine mem_remove_connections.mpr ⟨h.attached e he, ?_⟩
    intro heq
    exact hne (congrArg Connection.id heq)

theorem integrate (h : Sound id r) (m : RouteMessage) {source : Connection}
    (hsource : source ∈ r.connections) : Sound id (r.integrate m source).1 := by
  cases m with
  | advertisement ra =>
    by_cases hs : ra.sender = r.id
    · show Sound id (r.integrateAdvertisement ra source).1
      rw [integrateAdvertisement_own hs]
      exact h
    · have spec := advertLoop_spec r ra.sender source ra.routes
      show Sound id (r.integrateAdvertisement ra source).1
      rw [integrateAdvertisement_fst hs]
      refine ⟨spec.id.trans h.id_eq, spec.running.trans h.running, ?_, fun e he => ?_⟩
      · rw [spec.connections]
        exact h.conn_inj
      · rw [spec.connections]
        rcases spec.mem e he with he | ⟨-, rfl⟩
        · exact h.attached e he
        · exact hsource
  | revocation rr =>
    by_cases hs : rr.sender = r.id
    · show Sound id (r.integrateRevocation rr source).1
      rw [integrateRevocation_own hs]
      exact h
    · have spec := revocationLoop_spec r rr.sender rr.routes
      have heq : (r.integrateRevocation rr source).1 =
          (r.revocationLoop rr.sender rr.routes).router.signalUnreachable
            (r.revocationLoop rr.sender rr.routes).destsEffected := by
        rw [integrateRevocation, if_neg hs]
      show Sound id (r.integrateRevocation rr source).1
      rw [heq]
      refine ⟨spec.id.trans h.id_eq, spec.running.trans h.running, ?_, fun e he => ?_⟩
      · rw [signalUnreachable_connections, spec.connections]
        exact h.conn_inj
      · rw [signalUnreachable_connections, spec.connections]
        exact h.attached e ((spec.mem e).mp he).1

end Router.Sound

namespace Network

variable {ι : Type} [DecidableEq ι] {w : Wiring ι} {n n' : Network ι}

/-- The route table of router `i`. -/
abbrev table (n : Network ι) (i : ι) : RouteTable := (n.routers i).routeTable

/-! ## The frame -/

theorem routers_act (n : Network ι) (i : ι) (out : Router × Sends) (j : ι) :
    (n.act i out).routers j = if j = i then out.1 else n.routers j :=
  Function.update_apply n.routers i out.1 j

@[simp] theorem routers_act_self (n : Network ι) (i : ι) (out : Router × Sends) :
    (n.act i out).routers i = out.1 := by
  rw [routers_act, if_pos rfl]

theorem routers_act_of_ne {i j : ι} (h : j ≠ i) (n : Network ι) (out : Router × Sends) :
    (n.act i out).routers j = n.routers j := by
  rw [routers_act, if_neg h]

theorem queue_act (n : Network ι) (i : ι) (out : Router × Sends) (q : Port ι) :
    (n.act i out).queue q =
      n.queue q ++ if q.router = i then Flight.queue q.conn out.2 else [] := by
  unfold queue act
  rw [Flight.queue_append]
  congr 1
  split
  · rename_i h
    subst h
    have hinj : Function.Injective fun c : Connection => (⟨q.router, c⟩ : Port ι) := by
      intro a b hab
      exact (Port.mk.injEq _ _ _ _ ▸ hab).2
    exact Flight.queue_map_tag _ hinj q.conn out.2
  · rename_i h
    refine List.eq_nil_iff_forall_not_mem.mpr fun m hm => ?_
    obtain ⟨s, -, hs⟩ := List.mem_map.mp (Flight.mem_queue.mp hm)
    exact h (congrArg (fun x => x.1.router) hs).symm

theorem mem_queue {q : Port ι} {m : RouteMessage} : m ∈ n.queue q ↔ (q, m) ∈ n.flight :=
  Flight.mem_queue

theorem quiet_iff : n.Quiet ↔ ∀ q, n.queue q = [] := by
  unfold Quiet
  constructor
  · intro h q
    unfold queue
    rw [h]
    rfl
  · intro h
    refine List.eq_nil_iff_forall_not_mem.mpr ?_
    rintro ⟨q, m⟩ hm
    have hin : m ∈ n.queue q := mem_queue.mpr hm
    rw [h q] at hin
    exact absurd hin (by simp)

theorem queue_addEnd {p : Port ι} (h : ¬(n.routers p.router).connections.hasKey p.conn.key)
    (q : Port ι) : (n.addEnd p).queue q = n.queue q ++
      if q = p then [.advertisement (n.routers p.router).connectedAdvert] else [] := by
  unfold addEnd
  rw [queue_act, Router.add_of_fresh h]
  congr 1
  by_cases hr : q.router = p.router
  · rw [if_pos hr]
    by_cases hc : q = p
    · subst hc
      rw [if_pos rfl]
      exact Flight.queue_cons_self _ _ _
    · have hne : p.conn ≠ q.conn := by
        intro hc'
        apply hc
        cases p
        cases q
        simp only at hr hc'
        rw [hr, hc']
      rw [if_neg hc]
      exact Flight.queue_cons_of_ne hne []
  · rw [if_neg hr, if_neg fun h => hr (congrArg Port.router h)]

@[simp] theorem table_addEnd (n : Network ι) (p : Port ι) (i : ι) :
    (n.addEnd p).table i = n.table i := by
  unfold table addEnd
  rw [routers_act]
  split
  · rename_i h
    rw [h, Router.add_routeTable]
  · rfl

@[simp] theorem id_addEnd (n : Network ι) (p : Port ι) (i : ι) :
    ((n.addEnd p).routers i).id = (n.routers i).id := by
  unfold addEnd
  rw [routers_act]
  split
  · rename_i hi
    rw [Router.add_id, hi]
  · rfl

theorem live_addEnd {p : Port ι} (h : ¬(n.routers p.router).connections.hasKey p.conn.key)
    (q : Port ι) : (n.addEnd p).Live q ↔ q = p ∨ n.Live q := by
  unfold Live addEnd
  rw [routers_act, Router.add_of_fresh h]
  split
  · rename_i hr
    show q.conn ∈ UniqueIndex.insert _ _ ↔ _
    rw [UniqueIndex.mem_insert h, hr]
    refine or_congr_left ⟨fun hc => ?_, fun hq => congrArg Port.conn hq⟩
    cases p
    cases q
    simp only at hr hc
    rw [hr, hc]
  · rename_i hr
    constructor
    · exact Or.inr
    · rintro (rfl | hl)
      · exact absurd rfl hr
      · exact hl

theorem mem_of_mem_removeEnd {p : Port ι} {dead : List RouteTableEntry} {i : ι}
    {e : RouteTableEntry} (h : e ∈ (n.removeEnd p dead).table i) : e ∈ n.table i := by
  unfold table removeEnd at h
  rw [routers_act] at h
  split at h
  · rename_i hi
    rw [hi]
    exact (Router.mem_remove_routeTable.mp h).1
  · exact h

theorem mem_removeEnd {p : Port ι} {dead : List RouteTableEntry} {i : ι} {e : RouteTableEntry}
    (h : e ∈ n.table i) (hne : i = p.router → e.connection.id ≠ p.conn.id) :
    e ∈ (n.removeEnd p dead).table i := by
  unfold table removeEnd
  rw [routers_act]
  split
  · rename_i hi
    rw [hi] at h
    exact Router.mem_remove_routeTable.mpr ⟨h, hne hi⟩
  · exact h

theorem live_removeEnd (n : Network ι) (p : Port ι) (dead : List RouteTableEntry)
    (q : Port ι) : (n.removeEnd p dead).Live q ↔ n.Live q ∧ q ≠ p := by
  unfold Live removeEnd
  rw [routers_act]
  split
  · rename_i hr
    rw [Router.mem_remove_connections, hr]
    refine and_congr_right fun _ => not_congr ⟨fun hc => ?_, fun hq => congrArg Port.conn hq⟩
    cases p
    cases q
    simp only at hr hc
    rw [hr, hc]
  · rename_i hr
    constructor
    · intro hl
      refine ⟨hl, ?_⟩
      rintro rfl
      exact hr rfl
    · exact And.left

theorem live_receive (w : Wiring ι) (n : Network ι) (p : Port ι) (m : RouteMessage)
    (q : Port ι) : (receive w n p m).Live q ↔ n.Live q := by
  unfold Live receive
  rw [routers_act]
  split
  · rename_i hr
    rw [Router.integrate_connections, hr]
  · rfl

theorem receive_own (w : Wiring ι) {p : Port ι} {m : RouteMessage}
    (h : m.sender = (n.routers (w.peer p).router).id) : receive w n p m = n := by
  unfold receive act
  rw [Router.integrate_own h, Function.update_eq_self, List.map_nil, List.append_nil]

theorem table_receive_of_ne {w : Wiring ι} {p : Port ι} {i : ι} (h : i ≠ (w.peer p).router)
    (n : Network ι) (m : RouteMessage) : (receive w n p m).table i = n.table i := by
  unfold table receive
  rw [routers_act_of_ne h]

theorem table_receive_advertisement (w : Wiring ι) (n : Network ι) (p : Port ι)
    {ra : RouteAdvertisement} (h : ra.sender ≠ (n.routers (w.peer p).router).id) :
    (receive w n p (.advertisement ra)).table (w.peer p).router =
      ((n.routers (w.peer p).router).advertLoop ra.sender (w.peer p).conn
        ra.routes).router.routeTable := by
  unfold table receive
  rw [routers_act_self]
  exact congrArg Router.routeTable (Router.integrateAdvertisement_fst h)

theorem table_receive_revocation (w : Wiring ι) (n : Network ι) (p : Port ι)
    {rr : RouteRevocation} (h : rr.sender ≠ (n.routers (w.peer p).router).id) :
    (receive w n p (.revocation rr)).table (w.peer p).router =
      ((n.routers (w.peer p).router).revocationLoop rr.sender rr.routes).router.routeTable := by
  unfold table receive
  rw [routers_act_self]
  exact Router.integrateRevocation_routeTable h

/-- An entry that was not there before came in on the connection of the message. -/
theorem mem_table_receive {p : Port ι} {m : RouteMessage} {i : ι} {e : RouteTableEntry}
    (h : e ∈ (receive w n p m).table i) : e ∈ n.table i ∨
      (i = (w.peer p).router ∧ e.connection = (w.peer p).conn ∧
        ∃ y ∈ m.routes, e.toRoute = Router.extend m.sender y) := by
  by_cases hi : i = (w.peer p).router
  · subst hi
    unfold table receive at h
    rw [routers_act_self] at h
    rcases Router.mem_integrate_routeTable h with hold | ⟨-, hc, y, hy, -, hroute⟩
    · exact Or.inl hold
    · exact Or.inr ⟨rfl, hc, y, hy, hroute⟩
  · rw [table_receive_of_ne hi] at h
    exact Or.inl h

@[simp] theorem id_receive (w : Wiring ι) (n : Network ι) (p : Port ι) (m : RouteMessage)
    (i : ι) : ((receive w n p m).routers i).id = (n.routers i).id := by
  unfold receive
  rw [routers_act]
  split
  · rename_i hi
    rw [Router.integrate_id, hi]
  · rfl

theorem queue_lose (n : Network ι) (p q : Port ι) :
    (n.lose p).queue q = if q = p then [] else n.queue q := by
  unfold queue lose
  by_cases h : q = p
  · rw [if_pos h, h]
    exact Flight.queue_lose_self p n.flight
  · rw [if_neg h]
    exact Flight.queue_lose_of_ne h n.flight

/-! ## The events -/

omit [DecidableEq ι] in
theorem not_hasKey_of_fresh {p : Port ι} (h : n.Fresh p) :
    ¬(n.routers p.router).connections.hasKey p.conn.key := by
  rw [UniqueIndex.hasKey_iff]
  rintro ⟨c, hc, hk⟩
  exact (h c hc).2 hk

/-- What happened, when something did. -/
inductive StepCase (w : Wiring ι) (n : Network ι) : Event ι → Network ι → Prop
  | connect (p : Port ι) (fresh : n.Fresh p) (freshPeer : (n.addEnd p).Fresh (w.peer p)) :
      StepCase w n (.connect p) ((n.addEnd p).addEnd (w.peer p))
  | disconnect (p : Port ι) (dead dead' : List RouteTableEntry) (live : n.Live p)
      (perm : dead.Perm ((n.routers p.router).deadRoutes p.conn))
      (permPeer : dead'.Perm
        (((n.removeEnd p dead).routers (w.peer p).router).deadRoutes (w.peer p).conn)) :
      StepCase w n (.disconnect p dead dead')
        ((((n.removeEnd p dead).removeEnd (w.peer p) dead').lose p).lose (w.peer p))
  | deliver (p : Port ι) (m : RouteMessage) (rest : List (Port ι × RouteMessage))
      (taken : Flight.Taken p n.flight m rest) :
      StepCase w n (.deliver p) (receive w { n with flight := rest } p m)

theorem step_cases {ev : Event ι} (h : n.step w ev = some n') : StepCase w n ev n' := by
  cases ev with
  | connect p =>
    simp only [step] at h
    split at h
    · rename_i hf
      cases h
      exact .connect p hf.1 hf.2
    · exact absurd h (by simp)
  | disconnect p dead dead' =>
    simp only [step] at h
    split at h
    · rename_i hf
      cases h
      exact .disconnect p dead dead' hf.1 hf.2.1 hf.2.2
    · exact absurd h (by simp)
  | deliver p =>
    unfold step at h
    obtain ⟨⟨m, rest⟩, htake, heq⟩ := Option.map_eq_some_iff.mp h
    subst heq
    exact .deliver p m rest (Flight.taken_of_takeFirst htake)

/-! ## Linked -/

structure Linked (w : Wiring ι) (ids : ι → UInt32) (n : Network ι) : Prop where
  sound : ∀ i, (n.routers i).Sound (ids i)
  live_peer : ∀ p, n.Live p → n.Live (w.peer p)
  flight_live : ∀ p, n.queue p ≠ [] → n.Live p

namespace Linked

variable {ids : ι → UInt32}

theorem id_eq (h : Linked w ids n) (i : ι) : (n.routers i).id = ids i := (h.sound i).id_eq

theorem running (h : Linked w ids n) (i : ι) : (n.routers i).running = true :=
  (h.sound i).running

theorem live_of_mem (h : Linked w ids n) {i : ι} {e : RouteTableEntry} (he : e ∈ n.table i) :
    n.Live ⟨i, e.connection⟩ :=
  (h.sound i).attached e he

theorem start (w : Wiring ι) (ids : ι → UInt32) : Linked w ids (start ids) where
  sound i := Router.Sound.started (ids i)
  live_peer p hp := absurd hp (UniqueIndex.not_mem_empty p.conn)
  flight_live _ hq := absurd rfl hq

theorem of_taken (h : Linked w ids n) {p : Port ι} {m : RouteMessage}
    {rest : List (Port ι × RouteMessage)} (taken : Flight.Taken p n.flight m rest) :
    Linked w ids { n with flight := rest } := by
  refine ⟨h.sound, h.live_peer, fun q hq => ?_⟩
  by_cases hqp : q = p
  · refine h.flight_live q fun hnil => ?_
    unfold queue at hnil
    rw [hqp, taken.head] at hnil
    exact absurd hnil (List.cons_ne_nil _ _)
  · refine h.flight_live q ?_
    unfold queue at hq ⊢
    rwa [← taken.others q hqp]

end Linked

section Sound

variable {ids : ι → UInt32} (hs : ∀ i, (n.routers i).Sound (ids i))

include hs

theorem sound_addEnd {p : Port ι} (hf : n.Fresh p) (i : ι) :
    ((n.addEnd p).routers i).Sound (ids i) := by
  unfold addEnd
  rw [routers_act]
  split
  · rename_i hi
    subst hi
    exact (hs p.router).add (not_hasKey_of_fresh hf) fun c hc => (hf c hc).1
  · exact hs i

theorem sound_removeEnd (p : Port ι) (dead : List RouteTableEntry) (i : ι) :
    ((n.removeEnd p dead).routers i).Sound (ids i) := by
  unfold removeEnd
  rw [routers_act]
  split
  · rename_i hi
    subst hi
    exact (hs p.router).remove p.conn dead
  · exact hs i

theorem sound_receive {p : Port ι} (hlive : n.Live (w.peer p)) (m : RouteMessage) (i : ι) :
    ((receive w n p m).routers i).Sound (ids i) := by
  unfold receive
  rw [routers_act]
  split
  · rename_i hi
    subst hi
    exact (hs (w.peer p).router).integrate m hlive
  · exact hs i

omit [DecidableEq ι] in
/-- Ports of one router are told apart by the ids of their connections. -/
theorem port_eq {p q : Port ι} (hp : n.Live p) (hq : n.Live q) (hr : q.router = p.router)
    (hid : q.conn.id = p.conn.id) : q = p := by
  cases p
  cases q
  simp only at hr hid
  subst hr
  have hc := (hs _).conn_inj _ hq _ hp hid
  simp only at hc
  rw [hc]

omit [DecidableEq ι] in
/-- What `flood` sends on, told by the connections of the router or by its ports. -/
theorem flooded_iff {p q : Port ι} (hlive : n.Live p) (hr : q.router = p.router) :
    ((n.routers p.router).running = true ∧ q.conn ∈ (n.routers p.router).connections ∧
      q.conn.id ≠ p.conn.id) ↔ q.router = p.router ∧ n.Live q ∧ q ≠ p := by
  constructor
  · rintro ⟨-, hc, hne⟩
    refine ⟨hr, by unfold Live; rwa [hr], ?_⟩
    rintro rfl
    exact hne rfl
  · rintro ⟨-, hq, hne⟩
    refine ⟨(hs _).running, by unfold Live at hq; rwa [hr] at hq, fun hid => ?_⟩
    exact hne (port_eq hs hlive hq hr hid)

/-- Every other port of the router hears of what an advertisement made it install. -/
theorem queue_receive_advertisement {p : Port ι} (hlive : n.Live (w.peer p))
    {ra : RouteAdvertisement} (hforeign : ra.sender ≠ ids (w.peer p).router) (q : Port ι)
    [Decidable (((n.routers (w.peer p).router).relayedAdvert ra (w.peer p).conn).routes ≠ [] ∧
      q.router = (w.peer p).router ∧ n.Live q ∧ q ≠ w.peer p)] :
    (receive w n p (.advertisement ra)).queue q = n.queue q ++
      if ((n.routers (w.peer p).router).relayedAdvert ra (w.peer p).conn).routes ≠ [] ∧
        q.router = (w.peer p).router ∧ n.Live q ∧ q ≠ w.peer p
      then [.advertisement ((n.routers (w.peer p).router).relayedAdvert ra (w.peer p).conn)]
      else [] := by
  classical
  have hsender : ra.sender ≠ (n.routers (w.peer p).router).id := by rwa [(hs _).id_eq]
  unfold receive
  rw [queue_act]
  congr 1
  by_cases hr : q.router = (w.peer p).router
  · have hsent := @Router.queue_integrateAdvertisement _ _ (w.peer p).conn hsender q.conn _
    rw [if_pos hr]
    exact hsent.trans (if_congr (and_congr_right fun _ => flooded_iff hs hlive hr) rfl rfl)
  · rw [if_neg hr, if_neg fun h => hr h.2.1]

/-- Every other port hears of a revocation that removed something. -/
theorem queue_receive_revocation {p : Port ι} (hlive : n.Live (w.peer p))
    {rr : RouteRevocation} (hforeign : rr.sender ≠ ids (w.peer p).router) (q : Port ι)
    [Decidable ((∃ e ∈ n.table (w.peer p).router,
      e.toRoute ∈ ((n.routers (w.peer p).router).relayedRevocation rr).routes) ∧
      q.router = (w.peer p).router ∧ n.Live q ∧ q ≠ w.peer p)] :
    (receive w n p (.revocation rr)).queue q = n.queue q ++
      if (∃ e ∈ n.table (w.peer p).router,
          e.toRoute ∈ ((n.routers (w.peer p).router).relayedRevocation rr).routes) ∧
        q.router = (w.peer p).router ∧ n.Live q ∧ q ≠ w.peer p
      then [.revocation ((n.routers (w.peer p).router).relayedRevocation rr)] else [] := by
  classical
  have hsender : rr.sender ≠ (n.routers (w.peer p).router).id := by rwa [(hs _).id_eq]
  unfold receive
  rw [queue_act]
  congr 1
  by_cases hr : q.router = (w.peer p).router
  · have hsent := @Router.queue_integrateRevocation _ _ (w.peer p).conn hsender q.conn _
    rw [if_pos hr]
    exact hsent.trans (if_congr (and_congr_right fun _ => flooded_iff hs hlive hr) rfl rfl)
  · rw [if_neg hr, if_neg fun h => hr h.2.1]

/-- Every other port of the router hears of the loss. -/
theorem queue_removeEnd (p : Port ι) (dead : List RouteTableEntry) (q : Port ι)
    [Decidable (q.router = p.router ∧ dead ≠ [] ∧ n.Live q ∧ q ≠ p)] :
    (n.removeEnd p dead).queue q = n.queue q ++
      if q.router = p.router ∧ dead ≠ [] ∧ n.Live q ∧ q ≠ p
      then [.revocation ((n.routers p.router).lostRoutes dead)] else [] := by
  classical
  unfold removeEnd
  rw [queue_act]
  congr 1
  by_cases hr : q.router = p.router
  · have hconn : q ≠ p ↔ q.conn ≠ p.conn := by
      cases p
      cases q
      simp only at hr
      simp [hr]
    rw [if_pos hr, Router.queue_remove]
    refine if_congr ?_ rfl rfl
    unfold Live
    rw [hconn, hr]
    simp [(hs p.router).running]
  · rw [if_neg hr, if_neg fun h => hr h.1]

end Sound

namespace Linked

variable {ids : ι → UInt32}

theorem connect (h : Linked w ids n) {p : Port ι} (fresh : n.Fresh p)
    (freshPeer : (n.addEnd p).Fresh (w.peer p)) :
    Linked w ids ((n.addEnd p).addEnd (w.peer p)) := by
  have hkey := not_hasKey_of_fresh fresh
  have hkeyPeer := not_hasKey_of_fresh freshPeer
  have hs := sound_addEnd h.sound fresh
  have hlive : ∀ q, ((n.addEnd p).addEnd (w.peer p)).Live q ↔
      q = w.peer p ∨ q = p ∨ n.Live q := by
    intro q
    rw [live_addEnd hkeyPeer, live_addEnd hkey]
  refine ⟨sound_addEnd hs freshPeer, fun q hq => ?_, fun q hq => ?_⟩
  · rcases (hlive q).mp hq with rfl | rfl | hq
    · rw [w.peer_peer]
      exact (hlive p).mpr (Or.inr (Or.inl rfl))
    · exact (hlive (w.peer q)).mpr (Or.inl rfl)
    · exact (hlive _).mpr (Or.inr (Or.inr (h.live_peer q hq)))
  · rw [hlive]
    by_contra hne
    obtain ⟨hpeer, hp, hdead⟩ := not_or.mp hne |>.imp_right not_or.mp
    rw [queue_addEnd hkeyPeer, queue_addEnd hkey, if_neg hpeer, if_neg hp, List.append_nil,
      List.append_nil] at hq
    exact hdead (h.flight_live q hq)

theorem disconnect (h : Linked w ids n) (p : Port ι) (dead dead' : List RouteTableEntry) :
    Linked w ids ((((n.removeEnd p dead).removeEnd (w.peer p) dead').lose p).lose (w.peer p)) := by
  classical
  have hs := sound_removeEnd h.sound p dead
  have hlive : ∀ q,
      ((((n.removeEnd p dead).removeEnd (w.peer p) dead').lose p).lose (w.peer p)).Live q ↔
        n.Live q ∧ q ≠ p ∧ q ≠ w.peer p := by
    intro q
    show ((n.removeEnd p dead).removeEnd (w.peer p) dead').Live q ↔ _
    rw [live_removeEnd, live_removeEnd, and_assoc]
  refine ⟨sound_removeEnd hs (w.peer p) dead', fun q hq => ?_, fun q hq => ?_⟩
  · obtain ⟨hq, hp, hpeer⟩ := (hlive q).mp hq
    refine (hlive _).mpr ⟨h.live_peer q hq, fun he => hpeer ?_, fun he => hp ?_⟩
    · rw [← he, w.peer_peer]
    · rw [← w.peer_peer q, he, w.peer_peer]
  · rw [queue_lose, queue_lose] at hq
    by_cases hpeer : q = w.peer p
    · exact absurd (if_pos hpeer) hq
    · rw [if_neg hpeer] at hq
      by_cases hp : q = p
      · exact absurd (if_pos hp) hq
      · rw [if_neg hp, queue_removeEnd hs, queue_removeEnd h.sound] at hq
        refine (hlive q).mpr ⟨?_, hp, hpeer⟩
        by_contra hdead
        have hdead' : ¬(n.removeEnd p dead).Live q := by
          intro hl
          exact hdead ((live_removeEnd n p dead q).mp hl).1
        rw [if_neg fun hc => hdead hc.2.2.1, if_neg fun hc => hdead' hc.2.2.1, List.append_nil,
          List.append_nil] at hq
        exact hdead (h.flight_live q hq)

theorem deliver (h : Linked w ids n) {p : Port ι} {m : RouteMessage}
    {rest : List (Port ι × RouteMessage)} (taken : Flight.Taken p n.flight m rest) :
    Linked w ids (receive w { n with flight := rest } p m) := by
  have hp : n.Live p := by
    refine h.flight_live p ?_
    unfold queue
    rw [taken.head]
    simp
  have hpeer := h.live_peer p hp
  refine ⟨sound_receive h.sound hpeer m, fun q hq => ?_, fun q hq => ?_⟩
  · exact (live_receive w _ p m _).mpr (h.live_peer q ((live_receive w _ p m q).mp hq))
  · refine (live_receive w _ p m q).mpr ?_
    show n.Live q
    by_contra hdead
    apply hq
    -- nothing was on `q`, and `integrate` sends nothing on a connection that is not there
    have hold : n.queue q = [] := by
      by_contra hne
      exact hdead (h.flight_live q hne)
    have hrest : (Network.mk n.routers rest).queue q = [] := by
      by_cases hqp : q = p
      · exact absurd (hqp ▸ hp) hdead
      · exact (taken.others q hqp).trans hold
    unfold receive
    rw [queue_act, hrest, List.nil_append]
    split
    · rename_i hr
      refine Router.queue_integrate_of_not_mem ?_ _ _
      rw [← hr]
      exact hdead
    · rfl

theorem step {ev : Event ι} (h : Linked w ids n) (hstep : n.step w ev = some n') :
    Linked w ids n' := by
  cases step_cases hstep with
  | connect p fresh freshPeer => exact h.connect fresh freshPeer
  | disconnect p dead dead' live perm permPeer => exact h.disconnect p dead dead'
  | deliver p m rest taken => exact h.deliver taken

end Linked

/-! ## Runs -/

theorem Run.linked {ids : ι → UInt32} {ok : Network ι → Event ι → Prop}
    (h : Run w ok (Network.start ids) n) : Linked w ids n :=
  h.invariant (Linked.start w ids) fun _ _ _ _ hlinked _ hstep => hlinked.step hstep

theorem Run.cut {ok : Network ι → Event ι → Prop} {n₀ : Network ι} (h : Run w ok n₀ n)
    {p : Port ι} (allowed : ∀ dead dead', ok n (.disconnect p dead dead')) :
    Run w ok n₀ (n.cut w p) :=
  h.exec (allowed _ _)

theorem Run.settle {ok : Network ι → Event ι → Prop} {n₀ : Network ι} (h : Run w ok n₀ n)
    (k : ℕ) (allowed : ∀ j < k, ∀ x ∈ (Network.settle w j n).flight.head?,
      ok (Network.settle w j n) (.deliver x.1)) : Run w ok n₀ (Network.settle w k n) := by
  induction k generalizing n with
  | zero => exact h
  | succ k ih =>
    cases hflight : n.flight with
    | nil =>
      unfold Network.settle
      rwa [hflight]
    | cons x rest =>
      have hnext : ∀ j, Network.settle w (j + 1) n =
          Network.settle w j (receive w { n with flight := rest } x.1 x.2) := by
        intro j
        simp only [Network.settle, hflight]
      have hstep : n.step w (.deliver x.1) =
          some (receive w { n with flight := rest } x.1 x.2) := by
        simp [Network.step, hflight, Flight.takeFirst]
      rw [hnext]
      refine ih (h.snoc (allowed 0 k.succ_pos x ?_) hstep) fun j hj => ?_
      · exact congrArg List.head? hflight
      · rw [← hnext]
        exact allowed (j + 1) (Nat.succ_lt_succ hj)

/-- An event of a network of links is made of steps of its ends. -/
theorem locals_of_step {ev : Event ι} (h : n.step w ev = some n') :
    Relation.ReflTransGen (Local w) n n' := by
  cases step_cases h with
  | connect p _ _ => exact .tail (.single (.add n p)) (.add _ (w.peer p))
  | disconnect p dead dead' _ perm permPeer =>
    have hboth : Relation.ReflTransGen (Local w) n
        ((n.removeEnd p dead).removeEnd (w.peer p) dead') :=
      .tail (.single (.remove n p dead perm)) (.remove _ (w.peer p) dead' permPeer)
    have hlost : Relation.ReflTransGen (Local w) n
        (((n.removeEnd p dead).removeEnd (w.peer p) dead').lose p) :=
      hboth.tail (.lose _ (Flight.lose p _) List.filter_sublist)
    exact hlost.tail (.lose _ (Flight.lose (w.peer p) _) List.filter_sublist)
  | deliver p m rest taken =>
    obtain ⟨before, after, hsplit, rfl⟩ := taken.split
    exact .single (.deliver n before after p m hsplit)

theorem Run.locals {ok : Network ι → Event ι → Prop} {n₀ : Network ι} (h : Run w ok n₀ n) :
    Relation.ReflTransGen (Local w) n₀ n :=
  h.invariant .refl fun _ _ _ _ hlocals _ hstep => hlocals.trans (locals_of_step hstep)

end Network

end Synergy
