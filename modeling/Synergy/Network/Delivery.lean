import Synergy.Lib.Approach
import Synergy.Network.Reachability
import Synergy.Network.Relaying
import Synergy.Router.Notify

/-!
# A notice to everyone

What a node has to tell goes out through `Router::notifyOtherNodes`: one frame to each destination
of the table, which the routers on the way hand on by their own tables. After connections have been
set up and broken, and once the network is silent, the frames arrive: each router that is joined to
the one that tells gets exactly one, over as few hops as there are, and nobody else gets any.

Three facts make it so. Nothing in a table is about a router that does not exist (`Peopled`). What
a router knows of another one is what the next router knows, and one hop more (`Truthful`), so the
first entries descend; and no shorter way is missed (`CompleteLinks`), so they descend as fast as
the links allow.
-/

set_option autoImplicit false

namespace Synergy

open Lib Framing

namespace Network

variable {ι : Type} [DecidableEq ι] {w : Wiring ι} {ids : ι → UInt32} {n n' : Network ι}

/-! ## Only routers that exist are known -/

/-- Every route leads to a router of the network. -/
structure Peopled (ids : ι → UInt32) (n : Network ι) : Prop where
  id_eq : ∀ i, (n.routers i).id = ids i
  table : ∀ i, ∀ e ∈ n.table i, e.dest ∈ Set.range ids
  flight : ∀ x ∈ n.flight, ∀ r ∈ x.2.routes, r.dest ∈ Set.range ids

namespace Peopled

omit [DecidableEq ι] in
theorem start (ids : ι → UInt32) : Peopled ids (start ids) where
  id_eq _ := rfl
  table _ e he := absurd he (UniqueIndex.not_mem_empty e)
  flight _ hx := absurd hx List.not_mem_nil

theorem act (h : Peopled ids n) {i : ι} {out : Router × Sends} (hid : out.1.id = ids i)
    (htable : ∀ e ∈ out.1.routeTable, e.dest ∈ Set.range ids)
    (hsends : ∀ s ∈ out.2, ∀ r ∈ s.2.routes, r.dest ∈ Set.range ids) :
    Peopled ids (n.act i out) := by
  refine ⟨fun j => ?_, fun j e he => ?_, fun x hx => ?_⟩
  · rw [routers_act]
    split
    · rename_i hj
      rw [hid, hj]
    · exact h.id_eq j
  · unfold Network.table at he
    rw [routers_act] at he
    split at he
    · exact htable e he
    · exact h.table j e he
  · rcases List.mem_append.mp hx with hx | hx
    · exact h.flight x hx
    · obtain ⟨s, hs, rfl⟩ := List.mem_map.mp hx
      exact hsends s hs

theorem addEnd (h : Peopled ids n) (p : Port ι) : Peopled ids (n.addEnd p) := by
  have hid := h.id_eq p.router
  refine h.act (by rw [Router.add_id, hid]) (fun e he => ?_) fun s hs => ?_
  · rw [Router.add_routeTable] at he
    exact h.table p.router e he
  · unfold Router.add at hs
    split at hs
    · exact absurd hs (by simp)
    · obtain rfl := List.mem_singleton.mp hs
      intro r hr
      rcases List.mem_cons.mp hr with rfl | hr
      · exact ⟨p.router, hid.symm⟩
      · obtain ⟨e, he, rfl⟩ := List.mem_map.mp hr
        exact h.table p.router e he

theorem removeEnd (h : Peopled ids n) (p : Port ι) {dead : List RouteTableEntry}
    (hdead : dead.Perm ((n.routers p.router).deadRoutes p.conn)) :
    Peopled ids (n.removeEnd p dead) := by
  refine h.act (h.id_eq p.router) (fun e he => ?_) fun s hs => ?_
  · exact h.table p.router e (Router.mem_remove_routeTable.mp he).1
  · unfold Router.remove at hs
    simp only at hs
    split at hs
    · exact absurd hs (by simp)
    · rw [Router.mem_broadcast hs]
      intro r hr
      obtain ⟨e, he, rfl⟩ := List.mem_map.mp hr
      exact h.table p.router e (Router.mem_deadRoutes.mp (hdead.mem_iff.mp he)).1

theorem receive (h : Peopled ids n) {p : Port ι} {m : RouteMessage}
    (hm : ∀ r ∈ m.routes, r.dest ∈ Set.range ids) : Peopled ids (receive w n p m) := by
  refine h.act (by rw [Router.integrate_id, h.id_eq]) (fun e he => ?_) fun s hs => ?_
  · rcases Router.mem_integrate_routeTable he with he | ⟨-, -, y, hy, -, heq⟩
    · exact h.table (w.peer p).router e he
    · have hdest : e.dest = y.dest := by rw [heq, Router.extend_dest]
      exact hdest ▸ hm y hy
  · intro x hx
    obtain ⟨y, hy, -, rfl⟩ := (Router.relays_of_mem_integrate hs).routes x hx
    exact hm y hy

omit [DecidableEq ι] in
theorem of_flight_subset (h : Peopled ids n) {flight : List (Port ι × RouteMessage)}
    (hsub : ∀ x ∈ flight, x ∈ n.flight) : Peopled ids { n with flight := flight } :=
  ⟨h.id_eq, h.table, fun x hx => h.flight x (hsub x hx)⟩

theorem ofLocal (h : Peopled ids n) (hstep : Local w n n') : Peopled ids n' := by
  cases hstep with
  | add p => exact h.addEnd p
  | remove p dead perm => exact h.removeEnd p perm
  | deliver before after p m split =>
    have hsub : ∀ x ∈ before ++ after, x ∈ n.flight := by
      intro x hx
      rw [split]
      rcases List.mem_append.mp hx with hx | hx
      · exact List.mem_append_left _ hx
      · exact List.mem_append_right _ (List.mem_cons_of_mem _ hx)
    exact (h.of_flight_subset hsub).receive (h.flight (p, m) (by rw [split]; simp))
  | lose flight sub => exact h.of_flight_subset fun x hx => sub.subset hx

theorem ofLocals (h : Peopled ids n) (hsteps : Relation.ReflTransGen (Local w) n n') :
    Peopled ids n' := by
  induction hsteps with
  | refl => exact h
  | tail _ hstep ih => exact ih.ofLocal hstep

end Peopled

theorem Run.peopled {ok : Network ι → Event ι → Prop}
    (hrun : Run w ok (Network.start ids) n) : Peopled ids n :=
  (Peopled.start ids).ofLocals hrun.locals

/-! ## Distances in a silent network -/

section Silent

variable {t : ι}

/-- An offer is backed by a cheaper one at the other end of the connection. -/
theorem offers_of_entry (hlinked : Linked w ids n) (hpaths : PathsIntact w ids n)
    (hquiet : n.Quiet) (htruthful : ∀ q, Truthful w ids (ids t) n q) {i : ι} {e : RouteTableEntry}
    (he : e ∈ n.table i) (hd : e.dest = ids t) :
    (n.links w).Adj i (w.peer ⟨i, e.connection⟩).router ∧
      ∃ k, k + 1 = e.cost.toNat ∧ n.Offers (ids t) (w.peer ⟨i, e.connection⟩).router k := by
  refine ⟨adj_of_mem hlinked hpaths he, ?_⟩
  obtain ⟨x, hknows, hroute⟩ := knows_of_mem hpaths hquiet htruthful he hd
  have hdest : x.dest = ids t := by
    rw [← hd, hroute, Router.extend_dest]
  refine ⟨x.cost.toNat, ?_, hdest ▸ offers_of_knows hknows⟩
  rw [(sendable_of_knows hpaths hknows).cost_eq, (hpaths.table i e he).cost, hroute,
    Router.extend_path, List.length_cons]

/-- So the offers bound the distances from above. -/
theorem descends_of_truthful (hlinked : Linked w ids n) (hpaths : PathsIntact w ids n)
    (hquiet : n.Quiet) (htruthful : ∀ q, Truthful w ids (ids t) n q)
    (hinj : Function.Injective ids) : Descends (n.links w) t (n.Offers (ids t)) := by
  intro i k hoffer hne
  rcases hoffer with hid | ⟨e, he, hd, hcost⟩
  · rw [hlinked.id_eq] at hid
    exact absurd (hinj hid) hne
  · obtain ⟨hadj, k', hk', hoffer⟩ := offers_of_entry hlinked hpaths hquiet htruthful he hd
    exact ⟨_, hadj, k', by omega, hoffer⟩

/-- And no shorter way is missed. -/
theorem offers_dist_of_complete (hinj : Function.Injective ids) (hlinked : Linked w ids n)
    (hpaths : PathsIntact w ids n) (hcomplete : CompleteLinks w ids (ids t) n) (hquiet : n.Quiet)
    {i : ι} (hr : (n.links w).Reachable i t) : n.Offers (ids t) i ((n.links w).dist i t) := by
  obtain ⟨p, hp, hlength⟩ := hr.exists_path_of_dist
  obtain ⟨x, hd, hpath, hknows⟩ := exists_knows hinj hlinked hcomplete hquiet p hp
  have hcost : x.cost.toNat = (n.links w).dist i t := by
    rw [(sendable_of_knows hpaths hknows).cost_eq, hpath, List.length_map, List.length_tail,
      SimpleGraph.Walk.length_support, ← hlength]
    rfl
  have hoffer := offers_of_knows hknows
  rwa [hd, hcost] at hoffer

/-- Each router hands a frame on to one that is nearer. -/
theorem hop_approaches (hinj : Function.Injective ids)
    (hrun : Run w (Roomy w (ids t)) (Network.start ids) n) (hquiet : n.Quiet) :
    Approaches (n.links w) t (hop w n (ids t)) := by
  have hlinked := hrun.linked
  have hpaths := hrun.pathsIntact
  have htruthful := hrun.unbumped.truthful
  intro i hr hne
  have haway : (n.routers i).id ≠ ids t := by
    rw [hlinked.id_eq]
    exact hinj.ne hne
  obtain ⟨c, hc, hle⟩ := offers_iff_cheapest.mp
    (offers_dist_of_complete hinj hlinked hpaths (hrun.completeLinks hinj) hquiet hr)
  -- the first entry is the cheapest
  unfold cheapest at hc
  rw [if_neg haway] at hc
  obtain ⟨e, he, rfl⟩ := Option.map_eq_some_iff.mp hc
  obtain ⟨hmem, hd, -⟩ := UniqueIndex.find?_some he
  obtain ⟨hadj, k, hk, hoffer⟩ :=
    offers_of_entry hlinked hpaths hquiet htruthful hmem (of_decide_eq_true hd)
  have hdist := (descends_of_truthful hlinked hpaths hquiet htruthful hinj).dist_le hoffer
  refine ⟨_, ?_, hadj, by omega⟩
  unfold hop Router.forward
  rw [he]
  rfl

end Silent

/-! ## What becomes of a frame -/

variable {Table : Alternative → Type}

/-- The handler of `on_message` where the frame is for the router itself: the source that it gives
to `on_receive`. -/
def received (n : Network ι) (b : Arrival ι) : Option UInt32 :=
  let header := b.header.relayed
  if header.dest ≠ (n.routers b.router).id ∧ header.dest ≠ 0xFFFFFFFF then none
  else some header.source

/-- Where a frame that router `a` sends arrives, hop after hop. -/
def arrivals (w : Wiring ι) (n : Network ι) (a : ι) (x : Sent Table) :
    ℕ → Option (Arrival ι) :=
  trail (onMessage w n) (some ⟨(w.peer ⟨a, x.connection⟩).router, x.header⟩)

/-- The frame is received at `t` and nowhere else, after so many routers have handed it on. -/
structure Delivered (w : Wiring ι) (n : Network ι) (a t : ι) (x : Sent Table) (k : ℕ) :
    Prop where
  received : ∃ b, arrivals w n a x k = some b ∧ b.router = t ∧
    n.received b = some (n.routers a).id
  handedOn : ∀ j < k, ∃ b, arrivals w n a x j = some b ∧ n.received b = none
  ends : arrivals w n a x (k + 1) = none

/-- Each of the routers that are joined to `a` receives one frame with the message, over as few
hops as there are, and no other router does. -/
structure Noticed (w : Wiring ι) (ids : ι → UInt32) (n : Network ι) (a : ι)
    (message : Framing.Message Table) (sent : List (Sent Table)) : Prop where
  once : (sent.map fun x => x.header.dest).Nodup
  all : ∀ t, a ≠ t → (n.links w).Reachable a t → ids t ∈ sent.map fun x => x.header.dest
  delivered : ∀ x ∈ sent, x.message = message ∧ ∃ t k, a ≠ t ∧ x.header.dest = ids t ∧
    (n.links w).Reachable a t ∧ (n.links w).dist a t = k + 1 ∧ Delivered w n a t x k

theorem relayed_iterate_source (header : Framing.MessageHeader) (k : ℕ) :
    (Framing.MessageHeader.relayed^[k] header).source = header.source := by
  induction k with
  | zero => rfl
  | succ k ih =>
    rw [Function.iterate_succ_apply', ← ih]
    unfold Framing.MessageHeader.relayed
    split <;> rfl

section Frame

variable {a t : ι} {message : Framing.Message Table} {x : Sent Table}

omit [DecidableEq ι] in
theorem forward_of_send {d : UInt32} (hsend : (n.routers a).send message d = some x) :
    forward w n a x.header = some ⟨(w.peer ⟨a, x.connection⟩).router, x.header⟩ ∧
      x.header.dest = d ∧ x.header.source = (n.routers a).id := by
  obtain ⟨connection, hforward, rfl⟩ := Option.map_eq_some_iff.mp hsend
  refine ⟨?_, rfl, rfl⟩
  show ((n.routers a).forward _).map _ = _
  rw [hforward]
  rfl

omit [DecidableEq ι] in
/-- The frame goes where the first entries lead, from its sender on. -/
theorem arrivals_eq {d : UInt32} (hsend : (n.routers a).send message d = some x)
    (haway : d ≠ (n.routers a).id) (hd : d ≠ 0xFFFFFFFF) (k : ℕ) : arrivals w n a x k =
      (trail (passOn w n d) (some a) (k + 1)).map fun i =>
        ⟨i, Framing.MessageHeader.relayed^[k] x.header⟩ := by
  obtain ⟨hfirst, hdest, -⟩ := forward_of_send (w := w) hsend
  unfold arrivals
  rw [← hfirst, course_eq, trail_some_succ, hdest]
  unfold firstEntries passOn
  rw [if_pos ⟨haway, hd⟩]

omit [DecidableEq ι] in
theorem received_eq {i : ι} {header : Framing.MessageHeader} (hd : header.dest ≠ 0xFFFFFFFF) :
    n.received ⟨i, header⟩ =
      if header.dest = (n.routers i).id then some header.relayed.source else none := by
  unfold received
  simp only [relayed_dest]
  by_cases hid : header.dest = (n.routers i).id
  · rw [if_pos hid, if_neg fun h => h.1 hid]
  · rw [if_neg hid, if_pos ⟨hid, hd⟩]

/-- A frame that is passed on goes where it is forwarded. -/
theorem passOn_approaches (hinj : Function.Injective ids)
    (hrun : Run w (Roomy w (ids t)) (Network.start ids) n) (hquiet : n.Quiet)
    (hd : ids t ≠ 0xFFFFFFFF) : Approaches (n.links w) t (passOn w n (ids t)) := by
  intro i hr hne
  obtain ⟨j, hj, hnearer⟩ := hop_approaches hinj hrun hquiet i hr hne
  have haway : ids t ≠ (n.routers i).id := by
    rw [hrun.linked.id_eq]
    exact hinj.ne hne.symm
  refine ⟨j, ?_, hnearer⟩
  unfold passOn
  rw [if_pos ⟨haway, hd⟩, hj]

/-- What is sent to a router that is joined to the sender arrives there. -/
theorem delivered_of_send (hinj : Function.Injective ids)
    (hrun : Run w (Roomy w (ids t)) (Network.start ids) n) (hquiet : n.Quiet)
    (hd : ids t ≠ 0xFFFFFFFF) (hne : a ≠ t) (hr : (n.links w).Reachable a t)
    (hsend : (n.routers a).send message (ids t) = some x) :
    ∃ k, (n.links w).dist a t = k + 1 ∧ Delivered w n a t x k := by
  have happroaches := passOn_approaches hinj hrun hquiet hd
  have hids := hrun.linked.id_eq
  have haway : ids t ≠ (n.routers a).id := by
    rw [hids]
    exact hinj.ne hne.symm
  obtain ⟨-, hdest, hsource⟩ := forward_of_send (w := w) hsend
  have hpos : (n.links w).dist a t ≠ 0 := fun h => hne (hr.dist_eq_zero_iff.mp h)
  obtain ⟨k, hk⟩ := Nat.exists_eq_succ_of_ne_zero hpos
  -- after `j` hops more than one the frame is as far off as that leaves
  have hcourse : ∀ j ≤ k, ∃ i, arrivals w n a x j =
      some ⟨i, Framing.MessageHeader.relayed^[j] x.header⟩ ∧ (n.links w).Reachable i t ∧
        (n.links w).dist i t + j = k := by
    intro j hj
    obtain ⟨i, hi, hri, hdist⟩ := happroaches.trail (k := j + 1) hr (by omega)
    refine ⟨i, ?_, hri, by omega⟩
    rw [arrivals_eq hsend haway hd, hi]
    rfl
  have hfor : ∀ j, (Framing.MessageHeader.relayed^[j] x.header).dest = ids t := fun j => by
    rw [relayed_iterate_dest, hdest]
  obtain ⟨i, hlast, hri, hdist⟩ := hcourse k le_rfl
  obtain rfl : i = t := hri.dist_eq_zero_iff.mp (by omega)
  refine ⟨k, hk, ⟨⟨_, hlast, rfl, ?_⟩, ?_, ?_⟩⟩
  · rw [received_eq (by rw [hfor]; exact hd), if_pos (by rw [hfor, hids])]
    show some (Framing.MessageHeader.relayed _).source = _
    rw [← Function.iterate_succ_apply' Framing.MessageHeader.relayed,
      relayed_iterate_source, hsource]
  · intro j hj
    obtain ⟨v, hv, hrv, hdistv⟩ := hcourse j hj.le
    refine ⟨_, hv, ?_⟩
    rw [received_eq (by rw [hfor]; exact hd), if_neg]
    rw [hfor, hids]
    refine hinj.ne ?_
    rintro rfl
    rw [SimpleGraph.dist_self] at hdistv
    omega
  · show (arrivals w n a x k).bind (onMessage w n) = none
    rw [hlast]
    show onMessage w n _ = none
    unfold onMessage
    rw [if_neg]
    intro h
    apply h.1
    rw [relayed_dest, hfor, hids]

end Frame

/-! ## The notice -/

omit [DecidableEq ι] in
/-- Where no id is the broadcast address, no destination of a table is. -/
theorem notifies_of_ids (hids : ∀ i, ids i ≠ 0xFFFFFFFF) (h : Peopled ids n) (a : ι)
    (message : Framing.Message Table) :
    Router.Notifies (n.routers a) message ((n.routers a).notifyOtherNodes message) := by
  have hfirst : ∀ d ∈ (n.routers a).dests, d ≠ 0xFFFFFFFF := by
    intro d hd
    obtain ⟨e, he, rfl⟩ := Router.mem_dests.mp hd
    obtain ⟨t, ht⟩ := h.table a e he
    rw [← ht]
    exact hids t
  cases hdests : (n.routers a).dests with
  | nil =>
    exact Router.notifies_of_changes message (hdests ▸ List.nodup_nil) fun d => by
      rw [hdests]
      rfl
  | cons d ds =>
    have hmem : d ∈ (n.routers a).dests := by
      rw [hdests]
      exact List.mem_cons_self
    obtain ⟨hnodup, hall⟩ := Router.changes_from_last Router.sorted_dests
      (fun d _ => Router.le_neg_one d) ⟨d, hmem, hfirst d hmem⟩
    exact Router.notifies_of_changes message hnodup hall

/-- **A notice reaches everyone who is joined, once.** Connections have been set up and broken, and
the network is silent: `notifyOtherNodes` sends one frame to each router that is joined to the
sender, it is received there and nowhere else after as many hops as the way is long, and nothing is
sent to any other. No delivered message may have brought a fourth route, no two routers may have
more than one connection, and the broadcast address is nobody's id. -/
theorem notice_reaches_joined (hinj : Function.Injective ids) (hids : ∀ i, ids i ≠ 0xFFFFFFFF)
    (hrun : Run w (fun n ev => ∀ t, Roomy w (ids t) n ev) (Network.start ids) n)
    (hquiet : n.Quiet) (a : ι) (message : Framing.Message Table) :
    Noticed w ids n a message ((n.routers a).notifyOtherNodes message) := by
  have hroomy : ∀ t, Run w (Roomy w (ids t)) (Network.start ids) n :=
    fun t => hrun.mono fun _ _ hok => hok t
  have hnotifies := notifies_of_ids hids hrun.peopled a message
  refine ⟨hnotifies.once, fun t hne hr => ?_, fun x hx => ?_⟩
  · exact (hnotifies.every _).mpr ((reaches_iff_reachable hinj (hroomy t) hquiet hne).mpr hr)
  · obtain ⟨e, he, hdest⟩ := (hnotifies.every _).mp (List.mem_map_of_mem hx)
    obtain ⟨t, ht⟩ := hrun.peopled.table a e he
    have hne : a ≠ t := by
      rintro rfl
      have hintact := hrun.pathsIntact.table a e he
      exact hintact.not_on_path (ht ▸ List.mem_of_mem_getLast? hintact.last)
    have hr := (reaches_iff_reachable hinj (hroomy t) hquiet hne).mp ⟨e, he, ht.symm⟩
    -- the frame is the one that `send` makes for its destination
    rw [Router.notifyOtherNodes_eq] at hx
    obtain ⟨d, -, hsend⟩ := List.mem_filterMap.mp hx
    obtain ⟨hmessage, -, -⟩ := Router.send_spec hsend
    obtain rfl : d = ids t := by
      rw [ht, hdest]
      exact (forward_of_send (w := w) hsend).2.1.symm
    obtain ⟨k, hk, hdelivered⟩ :=
      delivered_of_send hinj (hroomy t) hquiet (hids t) hne hr hsend
    exact ⟨hmessage, t, k, hne, (hdest.symm.trans ht.symm), hr, hk, hdelivered⟩

theorem brokenTriangle_roomy :
    Run triangle (fun n ev => ∀ t, Roomy triangle (![1, 2, 3] t) n ev) (Network.start ![1, 2, 3])
      brokenTriangle := by
  have hnew : Run triangle (fun n ev => ∀ t, Roomy triangle (![1, 2, 3] t) n ev)
      (Network.start ![1, 2, 3]) newTriangle := by
    refine ((Run.nil.exec ?_).exec ?_).exec ?_
    · decide +kernel
    · decide +kernel
    · decide +kernel
  refine ((hnew.settle 9 ?_).cut fun _ _ _ => trivial).settle 9 ?_
  · decide +kernel
  · decide +kernel

/-- Of the broken triangle: router 0 claims the keyboard, and 2 hands the claim on to 1. -/
theorem notice_reaches_joined_brokenTriangle :
    Noticed triangle ![1, 2, 3] brokenTriangle 0 Router.claim
      ((brokenTriangle.routers 0).notifyOtherNodes Router.claim) := by
  have hinj : Function.Injective ![(1 : UInt32), 2, 3] := by decide +kernel
  exact notice_reaches_joined hinj (by decide +kernel) brokenTriangle_roomy (by decide +kernel) 0
    Router.claim

end Network

end Synergy
