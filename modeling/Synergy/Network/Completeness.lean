import Synergy.Network.Staleness

/-!
# Routes that survive

The other direction: what a router knows, its neighbours expect to hold (`Complete`). Two
things can be missed. A fourth route to a destination may be turned away, and is not asked
for again when the other three are gone. And a second connection between two routers brings
the same routes as the first, which are duplicates, so the table remembers them for the
first connection only and drops them with it. Where neither happens, the routes along any
simple path of live connections are all there once the network is silent.
-/

set_option autoImplicit false

namespace Synergy

open Lib

namespace Network

variable {ι : Type} [DecidableEq ι] {w : Wiring ι} {ids : ι → UInt32} {n n' : Network ι}
  {d : UInt32}

/-- What the router of `q` knows of `d`, the other end will hold. -/
def Complete (w : Wiring ι) (ids : ι → UInt32) (d : UInt32) (n : Network ι) (q : Port ι) : Prop :=
  ∀ x : Route, x.dest = d → Welcome w ids q x → (n.routers q.router).Knows x → Expects w ids n q x

/-- At most one connection between two routers. -/
def Single (w : Wiring ι) (n : Network ι) : Prop :=
  ∀ p q, n.Live p → n.Live q → p.router ≠ (w.peer p).router → q.router = p.router →
    (w.peer q).router = (w.peer p).router → q = p

/-- A connection is only set up where there is none yet, and nothing that arrives is a fourth
    route to `d`. -/
def Roomy (w : Wiring ι) (d : UInt32) (n : Network ι) : Event ι → Prop
  | .connect p => ∀ c ∈ (n.routers p.router).connections.toList,
      (w.peer ⟨p.router, c⟩).router ≠ (w.peer p).router
  | .deliver p => ∀ m ∈ (n.queue p).head?, Router.HasRoom d
      ((n.routers (w.peer p).router).integrateCalls m (w.peer p).conn)
  | .disconnect _ _ _ => True

instance (w : Wiring ι) (d : UInt32) (n : Network ι) :
    (ev : Event ι) → Decidable (Roomy w d n ev)
  | .connect p => inferInstanceAs (Decidable (∀ c ∈ (n.routers p.router).connections.toList,
      (w.peer ⟨p.router, c⟩).router ≠ (w.peer p).router))
  | .deliver p => inferInstanceAs (Decidable (∀ m ∈ (n.queue p).head?, Router.HasRoom d
      ((n.routers (w.peer p).router).integrateCalls m (w.peer p).conn)))
  | .disconnect _ _ _ => inferInstanceAs (Decidable True)

/-! ## One connection at most -/

omit [DecidableEq ι] in
theorem Single.of_live (h : Single w n) (hlive : ∀ q, n'.Live q → n.Live q) : Single w n' :=
  fun p q hp hq => h p q (hlive p hp) (hlive q hq)

theorem Single.step {ev : Event ι} (h : Single w n) (hlinked : Linked w ids n)
    (hok : Roomy w d n ev) (hstep : n.step w ev = some n') : Single w n' := by
  cases step_cases hstep with
  | connect p fresh freshPeer =>
    have hlive : ∀ q, ((n.addEnd p).addEnd (w.peer p)).Live q →
        q = w.peer p ∨ q = p ∨ n.Live q := fun q hq =>
      ((live_addEnd (not_hasKey_of_fresh freshPeer) q).mp hq).imp_right
        (live_addEnd (not_hasKey_of_fresh fresh) q).mp
    -- no old connection joins the routers that the new one joins
    have hnear : ∀ q, n.Live q → q.router = p.router →
        (w.peer q).router ≠ (w.peer p).router := by
      intro q hq hr
      have hport : q = ⟨p.router, q.conn⟩ := by rw [← hr]
      rw [hport]
      refine hok q.conn ?_
      rw [← hr]
      exact hq
    have hfar : ∀ q, n.Live q → q.router = (w.peer p).router →
        (w.peer q).router ≠ (w.peer (w.peer p)).router := by
      intro q hq hr hback
      rw [w.peer_peer] at hback
      refine hnear (w.peer q) (hlinked.live_peer q hq) hback ?_
      rw [w.peer_peer, hr]
    intro a b ha hb hne hr hpeer
    rcases hlive a ha with rfl | rfl | hold
    · rcases hlive b hb with rfl | rfl | hold'
      · rfl
      · rw [w.peer_peer] at hne
        exact absurd hr.symm hne
      · exact absurd hpeer (hfar b hold' hr)
    · rcases hlive b hb with rfl | rfl | hold'
      · exact absurd hr.symm hne
      · rfl
      · exact absurd hpeer (hnear b hold' hr)
    · rcases hlive b hb with rfl | rfl | hold'
      · exact absurd hpeer.symm (hfar a hold hr.symm)
      · exact absurd hpeer.symm (hnear a hold hr.symm)
      · exact h a b hold hold' hne hr hpeer
  | disconnect p dead dead' _ _ _ =>
    refine h.of_live fun q hq => ?_
    exact ((live_removeEnd n p dead q).mp ((live_removeEnd _ (w.peer p) dead' q).mp hq).1).1
  | deliver p m rest _ => exact h.of_live fun q hq => (live_receive w _ p m q).mp hq

theorem Run.single (hrun : Run w (Roomy w d) (Network.start ids) n) : Single w n := by
  refine hrun.invariant (fun p _ hp => absurd hp (UniqueIndex.not_mem_empty p.conn)) ?_
  intro n n' ev hrun h hok hstep
  exact h.step (Run.linked hrun) hok hstep

/-- Where there is one connection, an entry is held over it. -/
theorem held_of_mem (hinj : Function.Injective ids) (hlinked : Linked w ids n)
    (hpaths : PathsIntact w ids n) (hsingle : Single w n) {q : Port ι} (hlive : n.Live q)
    (hne : q.router ≠ (w.peer q).router) {e : RouteTableEntry}
    (he : e ∈ n.table (w.peer q).router) {x : Route}
    (hroute : e.toRoute = Router.extend (ids q.router) x) : Held w ids n q x := by
  refine ⟨e, he, ?_, hroute⟩
  have hhead := (hpaths.table _ e he).head
  rw [hroute] at hhead
  have hback : q.router = (w.peer ⟨(w.peer q).router, e.connection⟩).router :=
    hinj (Option.some.inj hhead)
  have hsame := hsingle (w.peer q) ⟨(w.peer q).router, e.connection⟩ (hlinked.live_peer q hlive)
    (hlinked.live_of_mem he) (by rw [w.peer_peer]; exact hne.symm) rfl
    (by rw [w.peer_peer]; exact hback.symm)
  exact congrArg Port.conn hsame

/-! ## The receiving end -/

/-- A message keeps what the other end of `q` holds over another connection. -/
theorem Held.receive_ne (hinj : Function.Injective ids) (hsingle : Single w n) {p q : Port ι}
    (hp : n.Live p) (hq : n.Live q) (hqp : q ≠ p) (hne : q.router ≠ (w.peer q).router)
    {m : RouteMessage} (hm : MessageIntact w ids p m)
    (hroom : Router.HasRoom d
      ((n.routers (w.peer p).router).integrateCalls m (w.peer p).conn))
    {x : Route} (hd : x.dest = d) (h : Held w ids n q x) :
    Held w ids (Network.receive w n p m) q x := by
  obtain ⟨e, he, hc, hroute⟩ := h
  refine ⟨e, ?_, hc, hroute⟩
  by_cases hr : (w.peer q).router = (w.peer p).router
  swap
  · rwa [table_receive_of_ne hr]
  by_cases hown : m.sender = (n.routers (w.peer p).router).id
  · rwa [receive_own w hown]
  rw [hr] at he ⊢
  have hed : e.dest = d := by rw [hroute, Router.extend_dest, hd]
  cases m with
  | advertisement ra =>
    rw [table_receive_advertisement w n p hown]
    exact Router.mem_advertLoop hown hroom.keepsRoutes he hed
  | revocation rr =>
    rw [table_receive_revocation w n p hown]
    refine ((Router.revocationLoop_spec _ rr.sender rr.routes).mem e).mpr ⟨he, fun hmem => hqp ?_⟩
    -- a route over `q` is revoked over `q`
    obtain ⟨y, -, -, hy⟩ := Router.mem_relayedRevocation.mp hmem
    have hids : ids q.router = ids p.router := by
      have hpath := congrArg Route.path (hroute.symm.trans hy)
      exact (List.cons.inj hpath).1.trans hm.sender
    exact hsingle p q hp hq (by rw [← hinj hids, ← hr]; exact hne) (hinj hids) hr

/-- What the other end of `q` is told it holds afterwards, and what it held it keeps. -/
theorem Held.receive_self (hinj : Function.Injective ids) (hlinked : Linked w ids n)
    (hpaths : PathsIntact w ids n) (hsingle : Single w n) {q : Port ι} (hq : n.Live q)
    (hne : q.router ≠ (w.peer q).router) {m : RouteMessage} (hm : MessageIntact w ids q m)
    (hroom : Router.HasRoom d
      ((n.routers (w.peer q).router).integrateCalls m (w.peer q).conn))
    {x : Route} (hd : x.dest = d) (hx : Welcome w ids q x)
    (h : HeardOne (RouteMessage.word x) m (Held w ids n q x)) :
    Held w ids (Network.receive w n q m) q x := by
  have hsender : m.sender = ids q.router := hm.sender
  have hown : m.sender ≠ (n.routers (w.peer q).router).id := by
    rw [hlinked.id_eq, hsender]
    exact hinj.ne hne
  cases m with
  | advertisement ra =>
    rcases (heardOne_advertisement x ra _).mp h with ⟨e, he, hc, hroute⟩ | hmem
    · have hed : e.dest = d := by rw [hroute, Router.extend_dest, hd]
      refine ⟨e, ?_, hc, hroute⟩
      rw [table_receive_advertisement w n q hown]
      exact Router.mem_advertLoop hown hroom.keepsRoutes he hed
    · have hloop : ¬(n.routers (w.peer q).router).loops x := by
        rw [Router.loops_iff, hlinked.id_eq, not_or]
        exact ⟨hx.dest, hx.path⟩
      obtain ⟨e, he, hroute⟩ := Router.advertLoop_takes hown hroom hmem hd hloop
      have hextend : e.toRoute = Router.extend (ids q.router) x := by
        rw [hroute, ← hsender]
        rfl
      have hmem' : e ∈ (receive w n q (.advertisement ra)).table (w.peer q).router := by
        rwa [table_receive_advertisement w n q hown]
      rcases mem_table_receive hmem' with hold | ⟨-, hc, -⟩
      · -- there was such an entry, and it can only have been over this connection
        obtain ⟨f, hf, hfc, hfroute⟩ := held_of_mem hinj hlinked hpaths hsingle hq hne hold hextend
        refine ⟨f, ?_, hfc, hfroute⟩
        rw [table_receive_advertisement w n q hown]
        refine Router.mem_advertLoop hown hroom.keepsRoutes hf ?_
        rw [hfroute, Router.extend_dest, hd]
      · exact ⟨e, hmem', hc, hextend⟩
  | revocation rr =>
    obtain ⟨⟨e, he, hc, hroute⟩, hkept⟩ := (heardOne_revocation x rr _).mp h
    refine ⟨e, ?_, hc, hroute⟩
    rw [table_receive_revocation w n q hown]
    refine ((Router.revocationLoop_spec _ rr.sender rr.routes).mem e).mpr ⟨he, fun hmem => hkept ?_⟩
    obtain ⟨y, hy, -, heq⟩ := Router.mem_relayedRevocation.mp hmem
    rw [hroute, ← hsender] at heq
    exact Router.extend_injective _ heq ▸ hy

/-! ## One step -/

/-- The sending end announces, and the receiving end holds no less than `P`. -/
theorem Complete.of_announces {q : Port ι} (ha : Announces w ids d n n' q) {P : Route → Prop}
    (hheld : ∀ x : Route, x.dest = d → Welcome w ids q x → P x → Held w ids n' q x)
    (h : ∀ x : Route, x.dest = d → Welcome w ids q x → (n.routers q.router).Knows x →
      Heard (RouteMessage.word x) (n.queue q) (P x)) : Complete w ids d n' q := by
  obtain ⟨sent, hqueue, hknows⟩ := ha
  intro x hd hx hknown
  unfold Expects
  rw [hqueue, heard_append]
  refine ((hknows x hd hx).mp hknown).mono fun hbefore => ?_
  exact (h x hd hx hbefore).mono (hheld x hd hx)

theorem Complete.addEnd {p q : Port ι} (h : Complete w ids d n q) (hfresh : n.Fresh p) :
    Complete w ids d (n.addEnd p) q := by
  refine Complete.of_announces (announces_addEnd d (not_hasKey_of_fresh hfresh) q)
    (P := Held w ids n q) (fun x _ _ hheld => ?_) h
  unfold Held
  rwa [table_addEnd]

/-- The advert of a new connection says all there is. -/
theorem complete_addEnd {p : Port ι} (hfresh : n.Fresh p) : Complete w ids d (n.addEnd p) p := by
  intro x _ _ hknown
  rw [Router.knows_congr (id_addEnd n p p.router) (table_addEnd n p p.router)] at hknown
  unfold Expects
  rw [queue_addEnd (not_hasKey_of_fresh hfresh), if_pos rfl, heard_append, heard_cons, heard_nil,
    heardOne_advertisement]
  exact Or.inr hknown

theorem Complete.removeEnd {p q : Port ι} (h : Complete w ids d n q)
    (hs : ∀ i, (n.routers i).Sound (ids i)) (hpaths : PathsIntact w ids n)
    {dead : List RouteTableEntry} (hdead : dead.Perm ((n.routers p.router).deadRoutes p.conn))
    (hlive : n.Live q) (hne : q ≠ p)
    (hfar : (w.peer q).router = p.router → (w.peer q).conn.id ≠ p.conn.id) :
    Complete w ids d (n.removeEnd p dead) q := by
  refine Complete.of_announces (announces_removeEnd d hs hpaths hdead hlive hne)
    (P := Held w ids n q) (fun x _ _ hheld => ?_) h
  obtain ⟨e, he, hc, hroute⟩ := hheld
  exact ⟨e, mem_removeEnd he (hc ▸ hfar), hc, hroute⟩

theorem Complete.lose {p q : Port ι} (h : Complete w ids d n q) (hne : q ≠ p) :
    Complete w ids d (n.lose p) q := by
  intro x hd hx hknown
  unfold Expects
  rw [queue_lose, if_neg hne]
  exact h x hd hx hknown

theorem Complete.receive (hinj : Function.Injective ids) {p q : Port ι} {m : RouteMessage}
    {rest : List (Port ι × RouteMessage)} (taken : Flight.Taken p n.flight m rest)
    (h : Complete w ids d n q) (hlinked : Linked w ids n) (hpaths : PathsIntact w ids n)
    (hsingle : Single w n) (hm : MessageIntact w ids p m) (hp : n.Live p)
    (hroom : Router.HasRoom d
      ((n.routers (w.peer p).router).integrateCalls m (w.peer p).conn))
    (hlive : n.Live q) (hne : q.router ≠ (w.peer q).router) :
    Complete w ids d (Network.receive w { n with flight := rest } p m) q := by
  have ha : Announces w ids d { n with flight := rest }
      (Network.receive w { n with flight := rest } p m) q :=
    announces_receive (n := { n with flight := rest }) hlinked.sound (hlinked.live_peer p hp)
      hm.sender hroom.keepsRoutes hlive
  have hlinked' : Linked w ids { n with flight := rest } := hlinked.of_taken taken
  have hpaths' : PathsIntact w ids { n with flight := rest } := hpaths.of_taken taken
  by_cases hqp : q = p
  · subst hqp
    refine Complete.of_announces ha
      (P := fun x => HeardOne (RouteMessage.word x) m (Held w ids n q x))
      (fun x hd hx hheard => ?_) fun x hd hx hknown => ?_
    · exact Held.receive_self (n := { n with flight := rest }) hinj hlinked' hpaths' hsingle
        hlive hne hm hroom hd hx hheard
    · have hheard := h x hd hx hknown
      unfold Expects queue at hheard
      rw [taken.head] at hheard
      exact hheard
  · refine Complete.of_announces ha (P := Held w ids n q)
      (fun x hd _ hheld => ?_) fun x hd hx hknown => ?_
    · exact Held.receive_ne (n := { n with flight := rest }) hinj hsingle hp hlive hqp hne hm hroom
        hd hheld
    · have hheard := h x hd hx hknown
      unfold Expects queue at hheard
      rw [← taken.others q hqp] at hheard
      exact hheard

/-- Over every connection between two routers. -/
def CompleteLinks (w : Wiring ι) (ids : ι → UInt32) (d : UInt32) (n : Network ι) : Prop :=
  ∀ q, n.Live q → q.router ≠ (w.peer q).router → Complete w ids d n q

theorem CompleteLinks.step {ev : Event ι} (hinj : Function.Injective ids)
    (h : CompleteLinks w ids d n) (hlinked : Linked w ids n) (hpaths : PathsIntact w ids n)
    (hsingle : Single w n) (hok : Roomy w d n ev) (hstep : n.step w ev = some n') :
    CompleteLinks w ids d n' := by
  intro q hlive' hne
  cases step_cases hstep with
  | connect p fresh freshPeer =>
    rcases (live_addEnd (not_hasKey_of_fresh freshPeer) q).mp hlive' with rfl | hlive₁
    · exact complete_addEnd freshPeer
    rcases (live_addEnd (not_hasKey_of_fresh fresh) q).mp hlive₁ with rfl | hlive
    · exact (complete_addEnd fresh).addEnd freshPeer
    · exact ((h q hlive hne).addEnd fresh).addEnd freshPeer
  | disconnect p dead dead' hp perm permPeer =>
    obtain ⟨hlive₁, hpeer⟩ := (live_removeEnd _ (w.peer p) dead' q).mp hlive'
    obtain ⟨hlive, hqp⟩ := (live_removeEnd n p dead q).mp hlive₁
    have hback := hlinked.live_peer q hlive
    have hfar : ∀ p', n.Live p' → w.peer q ≠ p' → (w.peer q).router = p'.router →
        (w.peer q).conn.id ≠ p'.conn.id := by
      intro p' hp' hne' hr hid
      exact hne' (port_eq hlinked.sound hp' hback hr hid)
    have h₁ := (h q hlive hne).removeEnd hlinked.sound hpaths perm hlive hqp
      (hfar p hp fun heq => hpeer (by rw [← heq, w.peer_peer]))
    have h₂ := h₁.removeEnd (sound_removeEnd hlinked.sound p dead) (hpaths.removeEnd p perm)
      permPeer hlive₁ hpeer
      (hfar _ (hlinked.live_peer p hp) fun heq => hqp (by rw [← w.peer_peer q, heq, w.peer_peer]))
    exact (h₂.lose hqp).lose hpeer
  | deliver p m rest taken =>
    have hin : m ∈ n.queue p := by
      unfold queue
      rw [taken.head]
      exact List.mem_cons_self
    have hp := hlinked.flight_live p (List.ne_nil_of_mem hin)
    have hm : MessageIntact w ids p m := hpaths.flight (p, m) (mem_queue.mp hin)
    have hroom := hok m (by unfold queue; rw [taken.head]; rfl)
    have hlive : n.Live q := (live_receive w _ p m q).mp hlive'
    exact Complete.receive hinj taken (h q hlive hne) hlinked hpaths hsingle hm hp hroom hlive hne

theorem Run.completeLinks (hinj : Function.Injective ids)
    (hrun : Run w (Roomy w d) (Network.start ids) n) : CompleteLinks w ids d n := by
  refine hrun.invariant (fun q hq => absurd hq (UniqueIndex.not_mem_empty q.conn)) ?_
  intro n n' ev hrun h hok hstep
  exact h.step hinj (Run.linked hrun) (Run.pathsIntact hrun) (Run.single hrun) hok hstep

/-! ## Silence -/

/-- In a silent network, what a router knows its neighbours hold. -/
theorem knows_of_adj (h : CompleteLinks w ids d n) (hquiet : n.Quiet) {i j : ι}
    (hadj : (n.links w).Adj i j) {x : Route} (hd : x.dest = d)
    (hdest : x.dest ≠ ids j) (hpath : ids j ∉ x.path) (hknows : (n.routers i).Knows x) :
    (n.routers j).Knows (Router.extend (ids i) x) := by
  obtain ⟨hne, q, hlive, -, rfl, rfl⟩ := hadj
  have hexpects := h q hlive hne x hd ⟨hdest, hpath⟩ hknows
  unfold Expects at hexpects
  rw [quiet_iff.mp hquiet, heard_nil] at hexpects
  obtain ⟨e, he, -, hroute⟩ := hexpects
  exact Router.knows_iff.mpr (Or.inr ⟨e, he, hroute⟩)

/-- The route that a simple path to a router stands for is known at its other end. -/
theorem exists_knows (hinj : Function.Injective ids) (hlinked : Linked w ids n) {a t : ι}
    (h : CompleteLinks w ids (ids t) n) (hquiet : n.Quiet) (p : (n.links w).Walk a t)
    (hp : p.IsPath) : ∃ x : Route, x.dest = ids t ∧ x.path = p.support.tail.map ids ∧
      (n.routers a).Knows x := by
  induction p with
  | nil =>
    refine ⟨{ dest := _, cost := 0, path := [] }, rfl, rfl, Router.knows_iff.mpr (Or.inl ?_)⟩
    rw [hlinked.id_eq]
  | @cons a b t hadj p ih =>
    obtain ⟨hp, hnot⟩ := (SimpleGraph.Walk.cons_isPath_iff hadj p).mp hp
    obtain ⟨x, hd, hpath, hknows⟩ := ih h hp
    refine ⟨Router.extend (ids b) x, hd, ?_, ?_⟩
    · rw [Router.extend_path, hpath, SimpleGraph.Walk.support_cons, List.tail_cons,
        ← List.map_cons, SimpleGraph.Walk.cons_tail_support]
    · refine knows_of_adj h hquiet hadj.symm hd ?_ ?_ hknows
      · rw [hd]
        refine hinj.ne fun heq => hnot ?_
        rw [← heq]
        exact p.end_mem_support
      · rw [hpath]
        intro hmem
        obtain ⟨c, hc, heq⟩ := List.mem_map.mp hmem
        exact hnot (hinj heq ▸ List.mem_of_mem_tail hc)

/-- **Routes survive**, in a silent network, where no route to `t` was ever turned away and no
    two routers have more than one connection. -/
theorem routes_complete (hinj : Function.Injective ids) {a t : ι}
    (hrun : Run w (Roomy w (ids t)) (Network.start ids) n) (hquiet : n.Quiet) (hne : a ≠ t)
    (hreach : (n.links w).Reachable a t) : ∃ e ∈ (n.routers a).routeTable, e.dest = ids t := by
  obtain ⟨p, hp⟩ := hreach.exists_isPath
  obtain ⟨x, hd, -, hknows⟩ :=
    exists_knows hinj hrun.linked (hrun.completeLinks hinj) hquiet p hp
  rcases Router.knows_iff.mp hknows with rfl | ⟨e, he, rfl⟩
  · rw [hrun.linked.id_eq] at hd
    exact absurd (hinj hd) hne
  · exact ⟨e, he, hd⟩

/-- Three routers with the ids 1, 2 and 3, connected with each other. -/
def triangle : Wiring (Fin 3) :=
  .ofLinks fun k => [(0, 0), (0, 1), (1, 2), (2, 0)].getD k.toNat (0, 0)

def newTriangle : Network (Fin 3) :=
  (((Network.start ![1, 2, 3]).exec triangle (.connect (.near 0 1))).exec triangle
    (.connect (.near 1 2))).exec triangle (.connect (.near 2 3))

/-- All know each other, and then the connection between routers 0 and 1 breaks. -/
def brokenTriangle : Network (Fin 3) :=
  settle triangle 9 ((settle triangle 9 newTriangle).cut triangle (.near 0 1))

theorem brokenTriangle_run :
    Run triangle (Roomy triangle 2) (Network.start ![1, 2, 3]) brokenTriangle := by
  have hnew : Run triangle (Roomy triangle 2) (Network.start ![1, 2, 3]) newTriangle := by
    refine ((Run.nil.exec ?_).exec ?_).exec ?_
    · decide +kernel
    · decide +kernel
    · decide +kernel
  refine ((hnew.settle 9 ?_).cut fun _ _ => trivial).settle 9 ?_
  · decide +kernel
  · decide +kernel

theorem routes_complete_brokenTriangle :
    ∃ e ∈ (brokenTriangle.routers 0).routeTable, e.dest = 2 := by
  have hfirst : (brokenTriangle.links triangle).Adj 0 2 :=
    ⟨by decide, .far 0 3, by decide +kernel, by decide +kernel, rfl, by decide +kernel⟩
  have hsecond : (brokenTriangle.links triangle).Adj 2 1 :=
    ⟨by decide, .far 2 2, by decide +kernel, by decide +kernel, rfl, by decide +kernel⟩
  have hinj : Function.Injective ![(1 : UInt32), 2, 3] := by decide +kernel
  exact routes_complete (t := 1) hinj brokenTriangle_run (by decide +kernel) (by decide)
    (hfirst.reachable.trans hsecond.reachable)

/-- Two routers with two connections. -/
def newDouble : Network (Fin 2) := newPair.exec pair (.connect (pairPort 2))

/-- The adverts over both have been delivered, and then the first connection breaks. -/
def brokenDouble : Network (Fin 2) :=
  settle pair 9 ((settle pair 9 newDouble).cut pair (pairPort 1))

/-- Routers 1 to 4 have a connection to router 0 and one to router 5. -/
def fourWays : Wiring (Fin 6) :=
  .ofLinks fun k => [(0, 0), (1, 5), (2, 5), (3, 5), (4, 5), (0, 1), (0, 2), (0, 3),
    (0, 4)].getD k.toNat (0, 0)

private def joinWays (n : Network (Fin 6)) (i : Fin 6) (k : ℕ) : Network (Fin 6) :=
  n.exec fourWays (.connect (.near i k))

/-- Router 0 has four ways to router 5 and keeps three of them. -/
def newFourWays : Network (Fin 6) :=
  settle fourWays 200 (joinWays (joinWays (joinWays (joinWays (joinWays (joinWays (joinWays
    (joinWays (Network.start ![1, 2, 3, 4, 5, 6]) 1 1) 2 2) 3 3) 4 4) 0 5) 0 6) 0 7) 0 8)

/-- The three that it kept are gone. -/
def fourthWay : Network (Fin 6) :=
  settle fourWays 99 (((newFourWays.cut fourWays (.near 1 1)).cut fourWays (.near 2 2)).cut
    fourWays (.near 3 3))

private theorem joinWays_run {n : Network (Fin 6)}
    (h : Run fourWays (fun _ _ => True) (Network.start ![1, 2, 3, 4, 5, 6]) n) (i : Fin 6)
    (k : ℕ) :
    Run fourWays (fun _ _ => True) (Network.start ![1, 2, 3, 4, 5, 6]) (joinWays n i k) :=
  h.exec trivial

theorem brokenDouble_run :
    Run pair (fun _ _ => True) (Network.start ![1, 2]) brokenDouble := by
  have hnew : Run pair (fun _ _ => True) (Network.start ![1, 2]) newDouble :=
    (Run.nil.exec trivial).exec trivial
  exact ((hnew.settle 9 fun _ _ _ _ => trivial).cut fun _ _ => trivial).settle 9
    fun _ _ _ _ => trivial

theorem fourthWay_run :
    Run fourWays (fun _ _ => True) (Network.start ![1, 2, 3, 4, 5, 6]) fourthWay := by
  have hnew : Run fourWays (fun _ _ => True) (Network.start ![1, 2, 3, 4, 5, 6]) newFourWays := by
    have houter := joinWays_run (joinWays_run (joinWays_run (joinWays_run .nil 1 1) 2 2) 3 3) 4 4
    have hinner := joinWays_run (joinWays_run (joinWays_run (joinWays_run houter 0 5) 0 6) 0 7) 0 8
    exact hinner.settle 200 fun _ _ _ _ => trivial
  exact (((hnew.cut fun _ _ => trivial).cut fun _ _ => trivial).cut fun _ _ => trivial).settle 99
    fun _ _ _ _ => trivial

/-- The connections of the fourth neighbour are alive, and router 0 has no route. -/
theorem fourthWay_settled :
    fourthWay.Quiet ∧
    (fourthWay.Live (.near 0 8) ∧ fourthWay.Live (fourWays.peer (.near 0 8))) ∧
    (fourthWay.Live (.near 4 4) ∧ fourthWay.Live (fourWays.peer (.near 4 4))) ∧
    ∀ e ∈ (fourthWay.routers 0).routeTable.toList, e.dest ≠ 6 := by
  decide +kernel

/-- Live connections lead to router `t` and the table of router `a` has no route there. -/
def Misses (w : Wiring ι) (ids : ι → UInt32) (n : Network ι) (a t : ι) : Prop :=
  a ≠ t ∧ (n.links w).Reachable a t ∧ ∀ e ∈ (n.routers a).routeTable, e.dest ≠ ids t

/-- The connection that is left leads to the other router, and one of the four neighbours is
    still connected with router 5, but nothing is in flight and router 0 has no route. -/
theorem routes_missing :
    (Run pair (fun _ _ => True) (Network.start ![1, 2]) brokenDouble ∧
      brokenDouble.Quiet ∧ Misses pair ![1, 2] brokenDouble 0 1) ∧
    (Run fourWays (fun _ _ => True) (Network.start ![1, 2, 3, 4, 5, 6]) fourthWay ∧
      fourthWay.Quiet ∧ Misses fourWays ![1, 2, 3, 4, 5, 6] fourthWay 0 5) := by
  obtain ⟨hquiet, hnear, hfar, hnone⟩ := fourthWay_settled
  refine ⟨⟨brokenDouble_run, by decide +kernel, by decide, ?_, ?_⟩,
    ⟨fourthWay_run, hquiet, by decide, ?_, hnone⟩⟩
  · have hadj : (brokenDouble.links pair).Adj 0 1 :=
      ⟨by decide, .near 0 2, by decide +kernel, by decide +kernel, rfl, by decide +kernel⟩
    exact hadj.reachable
  · have hnone : ∀ e ∈ (brokenDouble.routers 0).routeTable.toList, e.dest ≠ 2 := by decide +kernel
    exact hnone
  · have hfirst : (fourthWay.links fourWays).Adj 0 4 :=
      ⟨by decide, .near 0 8, hnear.1, hnear.2, rfl, by decide +kernel⟩
    have hsecond : (fourthWay.links fourWays).Adj 4 5 :=
      ⟨by decide, .near 4 4, hfar.1, hfar.2, rfl, by decide +kernel⟩
    exact hfirst.reachable.trans hsecond.reachable

end Network

end Synergy
