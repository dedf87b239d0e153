import Synergy.Network.Expectations

/-!
# Routes that outlive their links

When nothing bumps a route, what a neighbour expects to hold is no more than what it was
told by a router that knows it (`Truthful`). Routers tell all their ports whatever changes,
so only the receiving end is left to look at: an entry is put there by an advertisement, on
the connection it came in on, and a revocation on that connection takes it away again. In a
silent network every entry is then backed by an entry next door, and so on to the
destination.

The limit breaks this. `integrate(Route)` erases the bumped route and tells nobody, so a
neighbour that learned it keeps it; when a link under it breaks, the revocation that would
have reached the neighbour is stopped where the route no longer is. `staleNetwork` is such a
run.
-/

set_option autoImplicit false

namespace Synergy

open Lib

namespace Network

variable {ι : Type} [DecidableEq ι] {w : Wiring ι} {ids : ι → UInt32} {n n' : Network ι}
  {d : UInt32}

/-- What the other end of `q` will hold of `d`, the router of `q` knows. -/
def Truthful (w : Wiring ι) (ids : ι → UInt32) (d : UInt32) (n : Network ι) (q : Port ι) : Prop :=
  ∀ x : Route, x.dest = d → Welcome w ids q x → Expects w ids n q x → (n.routers q.router).Knows x

/-! ## The receiving end -/

theorem Held.live (hlinked : Linked w ids n) {q : Port ι} {x : Route} (h : Held w ids n q x) :
    n.Live q := by
  obtain ⟨e, he, hc, -⟩ := h
  have hlive := hlinked.live_of_mem he
  rw [hc] at hlive
  have hback := hlinked.live_peer (w.peer q) hlive
  rwa [w.peer_peer] at hback

/-- Nothing is expected over a connection that is not there. -/
theorem Expects.live (hlinked : Linked w ids n) {q : Port ι} {x : Route}
    (h : Expects w ids n q x) : n.Live q := by
  by_contra hdead
  have hnil : n.queue q = [] := by
    by_contra hne
    exact hdead (hlinked.flight_live q hne)
  unfold Expects at h
  rw [hnil, heard_nil] at h
  exact hdead (h.live hlinked)

/-- A message on `p` puts nothing into the table over another connection. -/
theorem Held.of_receive_ne {p q : Port ι} (hne : q ≠ p) {m : RouteMessage} {x : Route}
    (h : Held w ids (receive w n p m) q x) : Held w ids n q x := by
  obtain ⟨e, he, hc, hroute⟩ := h
  rcases mem_table_receive he with hold | ⟨hr, hconn, -⟩
  · exact ⟨e, hold, hc, hroute⟩
  · apply absurd _ hne
    have hsame : w.peer q = w.peer p := by
      have hconn : (w.peer q).conn = (w.peer p).conn := hc.symm.trans hconn
      cases hpq : w.peer q
      cases hpp : w.peer p
      rw [hpq, hpp] at hr hconn
      simp only at hr hconn
      rw [hr, hconn]
    rw [← w.peer_peer q, hsame, w.peer_peer]

/-- What the other end of `q` holds after `m` has arrived, `m` told it or it held before. -/
theorem Held.of_receive (hpaths : PathsIntact w ids n) {q : Port ι} {m : RouteMessage}
    (hm : MessageIntact w ids q m) {x : Route} (hx : Welcome w ids q x)
    (h : Held w ids (receive w n q m) q x) :
    HeardOne (RouteMessage.word x) m (Held w ids n q x) := by
  obtain ⟨e, he, hc, hroute⟩ := h
  have hold : e ∈ n.table (w.peer q).router → Held w ids n q x := fun he => ⟨e, he, hc, hroute⟩
  have hsender : m.sender = ids q.router := hm.sender
  cases m with
  | advertisement ra =>
    rw [heardOne_advertisement]
    rcases mem_table_receive he with he | ⟨-, -, y, hy, heq⟩
    · exact Or.inl (hold he)
    · rw [hroute, hsender] at heq
      exact Or.inr (Router.extend_injective _ heq ▸ hy)
  | revocation rr =>
    -- no entry goes through its own router, so the message is not the receiver's own
    have hforeign : rr.sender ≠ (n.routers (w.peer q).router).id := by
      rw [hpaths.id_eq]
      intro heq
      apply ((hpaths.receive hm).table _ e he).not_on_path
      rw [hroute, ← heq, ← hsender]
      exact List.mem_cons_self
    have hloop : ¬(n.routers (w.peer q).router).loops x := by
      rw [Router.loops_iff, hpaths.id_eq, not_or]
      exact ⟨hx.dest, hx.path⟩
    rw [table_receive_revocation w n q hforeign] at he
    have htable := ((Router.revocationLoop_spec _ rr.sender rr.routes).mem e).mp he
    rw [heardOne_revocation]
    refine ⟨hold htable.1, fun hrevoked => htable.2 ?_⟩
    refine Router.mem_relayedRevocation.mpr ⟨x, hrevoked, hloop, ?_⟩
    rw [hroute, ← hsender]
    rfl

/-! ## One step -/

/-- The sending end announces, and the receiving end holds no more than `P`. -/
theorem Truthful.of_announces {q : Port ι} (ha : Announces w ids d n n' q) {P : Route → Prop}
    (hheld : ∀ x, Welcome w ids q x → Held w ids n' q x → P x)
    (h : ∀ x : Route, x.dest = d → Welcome w ids q x →
      Heard (RouteMessage.word x) (n.queue q) (P x) → (n.routers q.router).Knows x) :
    Truthful w ids d n' q := by
  obtain ⟨sent, hqueue, hknows⟩ := ha
  intro x hd hx hexpects
  unfold Expects at hexpects
  rw [hqueue, heard_append] at hexpects
  refine (hknows x hd hx).mpr (hexpects.mono fun hbefore => ?_)
  exact h x hd hx (hbefore.mono (hheld x hx))

theorem Truthful.addEnd {p q : Port ι} (h : Truthful w ids d n q) (hfresh : n.Fresh p) :
    Truthful w ids d (n.addEnd p) q := by
  refine Truthful.of_announces (announces_addEnd d (not_hasKey_of_fresh hfresh) q)
    (P := Held w ids n q) (fun x _ hheld => ?_) h
  unfold Held at hheld
  rwa [table_addEnd] at hheld

theorem Truthful.removeEnd {p q : Port ι} (h : Truthful w ids d n q)
    (hs : ∀ i, (n.routers i).Sound (ids i)) (hpaths : PathsIntact w ids n)
    {dead : List RouteTableEntry} (hdead : dead.Perm ((n.routers p.router).deadRoutes p.conn))
    (hlive : n.Live q) (hne : q ≠ p) : Truthful w ids d (n.removeEnd p dead) q := by
  refine Truthful.of_announces (announces_removeEnd d hs hpaths hdead hlive hne)
    (P := Held w ids n q) (fun x _ hheld => ?_) h
  obtain ⟨e, he, hc, hroute⟩ := hheld
  exact ⟨e, mem_of_mem_removeEnd he, hc, hroute⟩

theorem Truthful.lose {p q : Port ι} (h : Truthful w ids d n q) (hne : q ≠ p) :
    Truthful w ids d (n.lose p) q := by
  intro x hd hx hexpects
  unfold Expects at hexpects
  rw [queue_lose, if_neg hne] at hexpects
  exact h x hd hx hexpects

/-- Nothing that arrives bumps a route to `d`. -/
def Unbumped (w : Wiring ι) (d : UInt32) (n : Network ι) : Event ι → Prop
  | .deliver p => ∀ m ∈ (n.queue p).head?, Router.KeepsRoutes d
      ((n.routers (w.peer p).router).integrateCalls m (w.peer p).conn)
  | _ => True

instance (w : Wiring ι) (d : UInt32) (n : Network ι) :
    (ev : Event ι) → Decidable (Unbumped w d n ev)
  | .deliver p => inferInstanceAs (Decidable (∀ m ∈ (n.queue p).head?, Router.KeepsRoutes d
      ((n.routers (w.peer p).router).integrateCalls m (w.peer p).conn)))
  | .connect _ | .disconnect _ _ _ => inferInstanceAs (Decidable True)

theorem Truthful.receive {p q : Port ι} {m : RouteMessage}
    {rest : List (Port ι × RouteMessage)} (taken : Flight.Taken p n.flight m rest)
    (h : Truthful w ids d n q) (hlinked : Linked w ids n) (hpaths : PathsIntact w ids n)
    (hm : MessageIntact w ids p m) (hpeer : n.Live (w.peer p))
    (hkeeps : Router.KeepsRoutes d
      ((n.routers (w.peer p).router).integrateCalls m (w.peer p).conn))
    (hlive : n.Live q) :
    Truthful w ids d (Network.receive w { n with flight := rest } p m) q := by
  have ha : Announces w ids d { n with flight := rest }
      (Network.receive w { n with flight := rest } p m) q :=
    announces_receive (n := { n with flight := rest }) hlinked.sound hpeer hm.sender hkeeps hlive
  have hpaths' : PathsIntact w ids { n with flight := rest } := hpaths.of_taken taken
  by_cases hqp : q = p
  · subst hqp
    refine Truthful.of_announces ha
      (P := fun x => HeardOne (RouteMessage.word x) m (Held w ids n q x))
      (fun x hx hheld => Held.of_receive hpaths' hm hx hheld) fun x hd hx hheard => ?_
    refine h x hd hx ?_
    unfold Expects queue
    rw [taken.head]
    exact hheard
  · refine Truthful.of_announces ha (P := Held w ids n q)
      (fun x _ hheld => Held.of_receive_ne hqp hheld) fun x hd hx hheard => ?_
    refine h x hd hx ?_
    unfold Expects queue
    rw [← taken.others q hqp]
    exact hheard

theorem Truthful.step {ev : Event ι} (h : ∀ q, Truthful w ids d n q) (hlinked : Linked w ids n)
    (hpaths : PathsIntact w ids n) (hok : Unbumped w d n ev) (hstep : n.step w ev = some n')
    (q : Port ι) : Truthful w ids d n' q := by
  -- where there is no connection nothing is expected
  by_cases hlive' : n'.Live q
  swap
  · intro x _ _ hexpects
    exact absurd (hexpects.live (hlinked.step hstep)) hlive'
  cases step_cases hstep with
  | connect p fresh freshPeer => exact ((h q).addEnd fresh).addEnd freshPeer
  | disconnect p dead dead' _ perm permPeer =>
    have hlive₁ : (n.removeEnd p dead).Live q :=
      ((live_removeEnd _ (w.peer p) dead' q).mp hlive').1
    have hpeer : q ≠ w.peer p := ((live_removeEnd _ (w.peer p) dead' q).mp hlive').2
    obtain ⟨hlive, hp⟩ := (live_removeEnd n p dead q).mp hlive₁
    have h₁ := (h q).removeEnd hlinked.sound hpaths perm hlive hp
    have h₂ := h₁.removeEnd (sound_removeEnd hlinked.sound p dead) (hpaths.removeEnd p perm)
      permPeer hlive₁ hpeer
    exact (h₂.lose hp).lose hpeer
  | deliver p m rest taken =>
    have hin : m ∈ n.queue p := by
      unfold queue
      rw [taken.head]
      exact List.mem_cons_self
    have hpeer := hlinked.live_peer p (hlinked.flight_live p (List.ne_nil_of_mem hin))
    have hm : MessageIntact w ids p m := hpaths.flight (p, m) (mem_queue.mp hin)
    have hkeeps := hok m (by unfold queue; rw [taken.head]; rfl)
    exact Truthful.receive taken (h q) hlinked hpaths hm hpeer hkeeps
      ((live_receive w _ p m q).mp hlive')

theorem Run.truthful (hrun : Run w (Unbumped w d) (Network.start ids) n) (q : Port ι) :
    Truthful w ids d n q := by
  refine hrun.invariant (I := fun n => ∀ q, Truthful w ids d n q) ?_ ?_ q
  · intro q x _ _ hexpects
    exact absurd (hexpects.live (Linked.start w ids)) (UniqueIndex.not_mem_empty _)
  · intro n n' ev hrun h hok hstep
    exact Truthful.step h (Run.linked hrun) (Run.pathsIntact hrun) hok hstep

/-! ## Silence -/

/-- The ids of two routers joined by a live connection. -/
def Joined (w : Wiring ι) (ids : ι → UInt32) (n : Network ι) (x y : UInt32) : Prop :=
  ∃ i j, ids i = x ∧ ids j = y ∧ (n.links w).Adj i j

/-- Every link that an entry of router `i` relies on is there. -/
structure BackedByLinks (w : Wiring ι) (ids : ι → UInt32) (n : Network ι) (i : ι)
    (e : RouteTableEntry) : Prop where
  live : n.Live ⟨i, e.connection⟩
  head : e.path.head? = some (ids (w.peer ⟨i, e.connection⟩).router)
  links : e.path.IsChain (Joined w ids n)
  last : e.path.getLast? = some e.dest

/-- An entry is one hop more than a route that its neighbour knows. -/
theorem knows_of_mem (hpaths : PathsIntact w ids n)
    (hquiet : n.Quiet) (h : ∀ q, Truthful w ids d n q) {i : ι} {e : RouteTableEntry}
    (he : e ∈ n.table i) (hd : e.dest = d) :
    ∃ x, (n.routers (w.peer ⟨i, e.connection⟩).router).Knows x ∧
      e.toRoute = Router.extend (ids (w.peer ⟨i, e.connection⟩).router) x := by
  have hintact := hpaths.table i e he
  have hroute : e.toRoute = Router.extend (ids (w.peer ⟨i, e.connection⟩).router)
      { dest := e.dest, cost := e.cost - 1, path := e.path.tail } := by
    have hpath : ids (w.peer ⟨i, e.connection⟩).router :: e.path.tail = e.path :=
      List.cons_head?_tail hintact.head
    unfold Router.extend
    rw [hpath, UInt32.sub_add_cancel]
  refine ⟨{ dest := e.dest, cost := e.cost - 1, path := e.path.tail },
    h _ _ hd ⟨?_, fun hmem => ?_⟩ ?_, hroute⟩
  · rw [w.peer_peer]
    intro heq
    apply hintact.not_on_path
    rw [← heq]
    exact List.mem_of_mem_getLast? hintact.last
  · rw [w.peer_peer] at hmem
    exact hintact.not_on_path (List.mem_of_mem_tail hmem)
  · unfold Expects
    rw [quiet_iff.mp hquiet, heard_nil]
    exact ⟨e, by rwa [w.peer_peer], by rw [w.peer_peer], hroute⟩

/-- **No stale routes**, in a silent network, to a destination no route to which was ever
    bumped. -/
theorem routes_backed (hrun : Run w (Unbumped w d) (Network.start ids) n) (hquiet : n.Quiet)
    {i : ι} {e : RouteTableEntry} (he : e ∈ (n.routers i).routeTable) (hd : e.dest = d) :
    BackedByLinks w ids n i e := by
  have hlinked := hrun.linked
  have hpaths := hrun.pathsIntact
  have hintact := hpaths.table i e he
  refine ⟨hlinked.live_of_mem he, hintact.head, ?_, hintact.last⟩
  -- along the path, from the router the entry came from
  generalize hk : e.path.length = k
  induction k using Nat.strong_induction_on generalizing i e with
  | _ k ih =>
    obtain ⟨x, hknows, hroute⟩ := knows_of_mem hpaths hquiet hrun.truthful he hd
    rw [hroute, Router.extend_path]
    rcases Router.knows_iff.mp hknows with rfl | ⟨f, hf, rfl⟩
    · exact List.isChain_singleton _
    · have hfd : f.dest = d := by
        rw [← hd, hroute, Router.extend_dest]
      have hlt : f.path.length < k := by
        rw [← hk, hroute, Router.extend_path, List.length_cons]
        exact Nat.lt_succ_self _
      have hfintact := hpaths.table _ f hf
      refine List.isChain_cons.mpr ⟨fun y hy => ?_, ih _ hlt hf hfd hfintact rfl⟩
      rw [hfintact.head] at hy
      exact ⟨_, _, rfl, Option.some.inj hy, adj_of_mem hlinked hpaths hf⟩

theorem routes_backed_pair :
    BackedByLinks pair ![1, 2]
      ((newPair.exec pair (.deliver (.near 0 1))).exec pair (.deliver (.far 1 1))) 0
      ⟨⟨2, 1, [2]⟩, ⟨1, 3, 2⟩⟩ := by
  have hrun : Run pair (Unbumped pair 2) (Network.start ![1, 2]) newPair := Run.nil.exec trivial
  refine routes_backed ((hrun.exec ?_).exec ?_) ?_ ?_ rfl
  · decide +kernel
  · decide +kernel
  · decide +kernel
  · show _ ∈ UniqueIndex.toList _
    decide +kernel

/-- Routers 0 to 6 have the ids 1 to 7. Router 0 hears of router 6 over 1, 4 and 5 first. -/
def staleWiring : Wiring (Fin 7) :=
  .ofLinks fun k => [(0, 0), (6, 5), (5, 4), (4, 1), (1, 0), (1, 2), (2, 0), (1, 3), (3, 0),
    (0, 6)].getD k.toNat (0, 0)

private def join (n : Network (Fin 7)) (i : Fin 7) (k : ℕ) : Network (Fin 7) :=
  n.exec staleWiring (.connect (.near i k))

private def chainNetwork : Network (Fin 7) :=
  settle staleWiring 20
    (join (join (join (join (Network.start ![1, 2, 3, 4, 5, 6, 7]) 6 1) 5 2) 4 3) 1 4)

private def meshNetwork : Network (Fin 7) :=
  settle staleWiring 80 (join (join (join (join chainNetwork 1 5) 2 6) 1 7) 3 8)

/-- The last connection is one between router 0 and router 6 themselves. Through it router 1
    gets three routes to 6 that are better than the one over 4 and 5. -/
def bumpedNetwork : Network (Fin 7) := settle staleWiring 30 (join meshNetwork 0 9)

/-- The connection between routers 1 and 4 breaks, and the news travels. -/
def staleNetwork : Network (Fin 7) :=
  settle staleWiring 30 (bumpedNetwork.cut staleWiring (.near 4 3))

private theorem join_run {n : Network (Fin 7)}
    (h : Run staleWiring (fun _ _ => True) (Network.start ![1, 2, 3, 4, 5, 6, 7]) n)
    (i : Fin 7) (k : ℕ) :
    Run staleWiring (fun _ _ => True) (Network.start ![1, 2, 3, 4, 5, 6, 7]) (join n i k) :=
  h.exec trivial

theorem staleNetwork_run :
    Run staleWiring (fun _ _ => True) (Network.start ![1, 2, 3, 4, 5, 6, 7]) staleNetwork := by
  have hchain := (join_run (join_run (join_run (join_run .nil 6 1) 5 2) 4 3) 1 4).settle 20
    fun _ _ _ _ => trivial
  have hmesh := (join_run (join_run (join_run (join_run hchain 1 5) 2 6) 1 7) 3 8).settle 80
    fun _ _ _ _ => trivial
  have hbumped := (join_run hmesh 0 9).settle 30 fun _ _ _ _ => trivial
  exact (hbumped.cut fun _ _ => trivial).settle 30 fun _ _ _ _ => trivial

/-- Router 0 has its route over 1 and 4, and no connection of router 1 leads to 4. -/
theorem staleNetwork_settled :
    staleNetwork.Quiet ∧
    ⟨⟨7, 4, [2, 5, 6, 7]⟩, ⟨4, 8, 9⟩⟩ ∈ (staleNetwork.routers 0).routeTable.toList ∧
    ∀ c ∈ (staleNetwork.routers 1).connections.toList, (staleWiring.peer ⟨1, c⟩).router ≠ 4 := by
  decide +kernel

/-- Nothing is in flight, routers 1 and 4 are not connected, and router 0 still has the route
    to 6 that goes from one to the other. -/
theorem stale_route :
    Run staleWiring (fun _ _ => True) (Network.start ![1, 2, 3, 4, 5, 6, 7]) staleNetwork ∧
    staleNetwork.Quiet ∧
    ∃ e ∈ (staleNetwork.routers 0).routeTable,
      ¬BackedByLinks staleWiring ![1, 2, 3, 4, 5, 6, 7] staleNetwork 0 e := by
  obtain ⟨hquiet, hmem, hnone⟩ := staleNetwork_settled
  refine ⟨staleNetwork_run, hquiet, ⟨⟨7, 4, [2, 5, 6, 7]⟩, ⟨4, 8, 9⟩⟩, ?_, fun h => ?_⟩
  · exact UniqueIndex.mem_def.mpr hmem
  · have hinj : Function.Injective ![(1 : UInt32), 2, 3, 4, 5, 6, 7] := by decide +kernel
    obtain ⟨i, j, hi, hj, -, p, hlive, -, rfl, rfl⟩ := (List.isChain_cons.mp h.links).1 5 rfl
    have hp : p.router = 1 := @hinj p.router 1 hi
    have hpeer : (staleWiring.peer p).router = 4 := @hinj _ 4 hj
    unfold Live at hlive
    rw [hp] at hlive
    have hport : p = ⟨1, p.conn⟩ := by rw [← hp]
    rw [hport] at hpeer
    exact hnone p.conn hlive hpeer

end Network

end Synergy
