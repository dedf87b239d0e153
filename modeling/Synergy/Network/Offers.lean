import Synergy.Lib.Distance
import Synergy.Network.PathIntegrity

/-!
# What adverts promise

Networks that only grow: connections are set up, adverts are delivered, nothing breaks. A
router *offers* a destination at a cost when it is the destination or has a route that
cheap. Under growth an offer is never withdrawn, the limit of three routes included, since
a bumped route leaves cheaper ones behind (`Offers.grow`).

`Promises` is the invariant. Its first half looks upstream: whatever a path says of a router
on it, that router still offers. Its second half looks downstream: whatever a router knows,
each neighbour has been told, is about to be, or has no use for.
-/

set_option autoImplicit false

namespace Synergy

open Lib

namespace Network

variable {ι : Type} [DecidableEq ι] {w : Wiring ι} {ids : ι → UInt32} {n n' : Network ι}

/-- `i` is the destination `d`, or has a route to it at cost `k` or less. -/
def Offers (n : Network ι) (d : UInt32) (i : ι) (k : ℕ) : Prop :=
  (n.routers i).id = d ∨ ∃ e ∈ n.table i, e.dest = d ∧ e.cost.toNat ≤ k

omit [DecidableEq ι] in
theorem Offers.mono {d : UInt32} {i : ι} {k k' : ℕ} (h : n.Offers d i k) (hle : k ≤ k') :
    n.Offers d i k' := by
  rcases h with h | ⟨e, he, hd, hk⟩
  · exact Or.inl h
  · exact Or.inr ⟨e, he, hd, hk.trans hle⟩

omit [DecidableEq ι] in
theorem offers_of_knows {i : ι} {x : Route} (h : (n.routers i).Knows x) :
    n.Offers x.dest i x.cost.toNat := by
  rcases Router.knows_iff.mp h with rfl | ⟨e, he, rfl⟩
  · exact Or.inl rfl
  · exact Or.inr ⟨e, he, rfl, le_rfl⟩

/-- Every router keeps its id, and every route, or a cheaper one. -/
def Grown (n n' : Network ι) : Prop :=
  ∀ i, (n'.routers i).id = (n.routers i).id ∧
    ∀ e ∈ n.table i, ∃ y ∈ n'.table i, y.dest = e.dest ∧ y.cost ≤ e.cost

omit [DecidableEq ι] in
theorem Offers.grow {d : UInt32} {i : ι} {k : ℕ} (h : n.Offers d i k) (hg : Grown n n') :
    n'.Offers d i k := by
  rcases h with h | ⟨e, he, hd, hk⟩
  · exact Or.inl ((hg i).1.trans h)
  · obtain ⟨y, hy, hyd, hyc⟩ := (hg i).2 e he
    exact Or.inr ⟨y, hy, hyd.trans hd, (UInt32.le_iff_toNat_le.mp hyc).trans hk⟩

omit [DecidableEq ι] in
theorem Grown.trans {n₁ n₂ n₃ : Network ι} (h₁₂ : Grown n₁ n₂) (h₂₃ : Grown n₂ n₃) :
    Grown n₁ n₃ := by
  intro i
  refine ⟨(h₂₃ i).1.trans (h₁₂ i).1, fun e he => ?_⟩
  obtain ⟨y, hy, hyd, hyc⟩ := (h₁₂ i).2 e he
  obtain ⟨z, hz, hzd, hzc⟩ := (h₂₃ i).2 y hy
  exact ⟨z, hz, hzd.trans hyd, hzc.trans hyc⟩

theorem grown_addEnd (n : Network ι) (p : Port ι) : Grown n (n.addEnd p) := by
  intro i
  exact ⟨id_addEnd n p i, fun e he => ⟨e, by rwa [table_addEnd], rfl, le_rfl⟩⟩

theorem grown_receive (w : Wiring ι) (n : Network ι) (p : Port ι) (ra : RouteAdvertisement) :
    Grown n (receive w n p (.advertisement ra)) := by
  intro i
  refine ⟨id_receive w n p _ i, fun e he => ?_⟩
  by_cases hi : i = (w.peer p).router
  · subst hi
    by_cases hs : ra.sender = (n.routers (w.peer p).router).id
    · rw [receive_own w (m := .advertisement ra) hs]
      exact ⟨e, he, rfl, le_rfl⟩
    · rw [table_receive_advertisement w n p hs]
      exact (Router.advertLoop_spec _ ra.sender _ ra.routes).keeps e he
  · rw [table_receive_of_ne hi]
    exact ⟨e, he, rfl, le_rfl⟩

/-! ## Deliveries -/

/-- What the delivery of another router's advertisement on `p` does: the far end installs some of
    its routes, and passes them on as `relayed`. -/
structure Delivery (w : Wiring ι) (n n' : Network ι) (p : Port ι)
    (ra relayed : RouteAdvertisement) : Prop where
  grown : Grown n n'
  live : ∀ q, n'.Live q ↔ n.Live q
  kept : ∀ q, ∀ m ∈ n.queue q, m ∈ n'.queue q
  flight : ∀ q, ∀ m ∈ n'.queue q,
    m ∈ n.queue q ∨ q.router = (w.peer p).router ∧ m = .advertisement relayed
  sent : ∀ q, n.Live q → q.router = (w.peer p).router → q ≠ w.peer p → relayed.routes ≠ [] →
    .advertisement relayed ∈ n'.queue q
  table : ∀ i, ∀ e ∈ n'.table i,
    e ∈ n.table i ∨ i = (w.peer p).router ∧ e.toRoute ∈ relayed.routes
  fresh : ∀ x ∈ relayed.routes,
    ∃ y ∈ ra.routes, ¬(n.routers (w.peer p).router).loops y ∧ x = Router.extend ra.sender y
  offers : ∀ y ∈ ra.routes, ¬(n.routers (w.peer p).router).loops y →
    ∃ z ∈ n'.table (w.peer p).router, z.dest = y.dest ∧ z.cost ≤ y.cost + 1

theorem delivery (hs : ∀ i, (n.routers i).Sound (ids i)) {p : Port ι}
    (hlive : n.Live (w.peer p)) {ra : RouteAdvertisement}
    (hforeign : ra.sender ≠ ids (w.peer p).router) :
    Delivery w n (receive w n p (.advertisement ra)) p ra
      ((n.routers (w.peer p).router).relayedAdvert ra (w.peer p).conn) := by
  classical
  have hsender : ra.sender ≠ (n.routers (w.peer p).router).id := by rwa [(hs _).id_eq]
  have spec := Router.advertLoop_spec (n.routers (w.peer p).router) ra.sender (w.peer p).conn
    ra.routes
  have htable := table_receive_advertisement w n p hsender
  have hsends := @queue_receive_advertisement _ _ w n ids hs p hlive ra hforeign
  constructor
  · exact grown_receive w n p ra
  · exact live_receive w n p (.advertisement ra)
  · intro q m hm
    rw [hsends]
    exact List.mem_append_left _ hm
  · intro q m hm
    rw [hsends] at hm
    rcases List.mem_append.mp hm with hm | hm
    · exact Or.inl hm
    · split at hm
      · rename_i hc
        exact Or.inr ⟨hc.2.1, List.mem_singleton.mp hm⟩
      · exact absurd hm (by simp)
  · intro q hq hr hqp hne
    rw [hsends, if_pos ⟨hne, hr, hq, hqp⟩]
    exact List.mem_append_right _ (List.mem_singleton.mpr rfl)
  · intro i e he
    by_cases hi : i = (w.peer p).router
    · subst hi
      rw [htable] at he
      exact (spec.mem e he).imp_right fun hnew => ⟨rfl, hnew.1⟩
    · rw [table_receive_of_ne hi] at he
      exact Or.inl he
  · exact spec.fresh
  · intro y hy hloop
    rw [htable]
    exact spec.offers y hy hloop

/-! ## The invariant -/

/-- Every router on the path offers `d` at what the path says. -/
def Backed (ids : ι → UInt32) (n : Network ι) (d : UInt32) (path : List UInt32) : Prop :=
  ∀ x q, (x :: q) <:+ path → ∃ j, ids j = x ∧ n.Offers d j q.length

/-- The other end of `p` is about to hear of `x`, or is on its path, or can do as well. -/
def Told (w : Wiring ι) (n : Network ι) (p : Port ι) (x : Route) : Prop :=
  (∃ m ∈ n.queue p, x ∈ m.routes) ∨ (n.routers (w.peer p).router).id ∈ x.path ∨
    n.Offers x.dest (w.peer p).router (x.cost.toNat + 1)

structure Promises (w : Wiring ι) (ids : ι → UInt32) (n : Network ι) : Prop where
  adverts : ∀ p, ∀ m ∈ n.queue p, ∃ ra, m = .advertisement ra
  entry_backed : ∀ i, ∀ e ∈ n.table i, Backed ids n e.dest e.path
  flight_backed : ∀ p, ∀ m ∈ n.queue p, ∀ x ∈ m.routes,
    Backed ids n x.dest (ids p.router :: x.path)
  told : ∀ p, n.Live p → ∀ x, (n.routers p.router).Knows x → Told w n p x

omit [DecidableEq ι] in
theorem Backed.grow {d : UInt32} {path : List UInt32} (h : Backed ids n d path)
    (hg : Grown n n') : Backed ids n' d path := by
  intro x q hq
  obtain ⟨j, hj, ho⟩ := h x q hq
  exact ⟨j, hj, ho.grow hg⟩

omit [DecidableEq ι] in
theorem Backed.cons {d : UInt32} {path : List UInt32} {i : ι} (h : Backed ids n d path)
    (hi : n.Offers d i path.length) : Backed ids n d (ids i :: path) := by
  intro x q hq
  rcases List.suffix_cons_iff.mp hq with heq | hq
  · obtain ⟨rfl, rfl⟩ := List.cons.injEq .. ▸ heq
    exact ⟨i, rfl, hi⟩
  · exact h x q hq

omit [DecidableEq ι] in
theorem Sendable.cost_eq {i : ι} {x : Route} (h : Sendable w ids i x) :
    x.cost.toNat = x.path.length := by
  rcases h with rfl | ⟨c, hc⟩
  · rfl
  · exact hc.cost

omit [DecidableEq ι] in
theorem sendable_of_knows (h : PathsIntact w ids n) {i : ι} {x : Route}
    (hx : (n.routers i).Knows x) : Sendable w ids i x := by
  rcases Router.knows_iff.mp hx with rfl | ⟨e, he, rfl⟩
  · exact Or.inl (by rw [h.id_eq i])
  · exact Or.inr ⟨e.connection, h.table i e he⟩

namespace Promises

theorem start (w : Wiring ι) (ids : ι → UInt32) : Promises w ids (start ids) where
  adverts _ _ hm := absurd hm List.not_mem_nil
  entry_backed _ e he := absurd he (UniqueIndex.not_mem_empty e)
  flight_backed _ _ hm := absurd hm List.not_mem_nil
  told p hp := absurd hp (UniqueIndex.not_mem_empty p.conn)

/-- What a router knows is backed, itself in front. -/
theorem backed_of_knows (h : Promises w ids n) (hpaths : PathsIntact w ids n) {i : ι}
    {x : Route} (hx : (n.routers i).Knows x) : Backed ids n x.dest (ids i :: x.path) := by
  have hoffer : n.Offers x.dest i x.path.length := by
    rw [← (sendable_of_knows hpaths hx).cost_eq]
    exact offers_of_knows hx
  refine Backed.cons ?_ hoffer
  rcases Router.knows_iff.mp hx with rfl | ⟨e, he, rfl⟩
  · intro y q hq
    exact absurd (List.suffix_nil.mp hq) (by simp)
  · exact h.entry_backed i e he

theorem addEnd (h : Promises w ids n) (hpaths : PathsIntact w ids n) {p : Port ι}
    (hfresh : n.Fresh p) : Promises w ids (n.addEnd p) := by
  have hkey := not_hasKey_of_fresh hfresh
  have hg := grown_addEnd n p
  have hknows : ∀ i x, ((n.addEnd p).routers i).Knows x ↔ (n.routers i).Knows x := fun i =>
    Router.knows_congr (id_addEnd n p i) (table_addEnd n p i)
  refine ⟨fun q m hm => ?_, fun i e he => ?_, fun q m hm x hx => ?_, fun q hq x hx => ?_⟩
  · rw [queue_addEnd hkey] at hm
    rcases List.mem_append.mp hm with hm | hm
    · exact h.adverts q m hm
    · split at hm
      · exact ⟨_, List.mem_singleton.mp hm⟩
      · exact absurd hm (by simp)
  · rw [table_addEnd] at he
    exact (h.entry_backed i e he).grow hg
  · rw [queue_addEnd hkey] at hm
    rcases List.mem_append.mp hm with hm | hm
    · exact (h.flight_backed q m hm x hx).grow hg
    · split at hm
      · rename_i hq
        rw [List.mem_singleton.mp hm] at hx
        subst hq
        exact (h.backed_of_knows hpaths hx).grow hg
      · exact absurd hm (by simp)
  · rw [hknows] at hx
    rcases (live_addEnd hkey q).mp hq with rfl | hq
    · -- the advert of the new connection lists everything
      refine Or.inl ⟨.advertisement (n.routers q.router).connectedAdvert, ?_, hx⟩
      rw [queue_addEnd hkey, if_pos rfl]
      exact List.mem_append_right _ (List.mem_singleton.mpr rfl)
    · rcases h.told q hq x hx with ⟨m, hm, hmx⟩ | hpath | hoffer
      · refine Or.inl ⟨m, ?_, hmx⟩
        rw [queue_addEnd hkey]
        exact List.mem_append_left _ hm
      · exact Or.inr (Or.inl (by rwa [(hg _).1]))
      · exact Or.inr (Or.inr (hoffer.grow hg))

/-- The two ends of `p` are one router, which knows what it says. -/
theorem receive_own (h : Promises w ids n) {p : Port ι} (hself : p.router = (w.peer p).router)
    {m : RouteMessage} {rest : List (Port ι × RouteMessage)}
    (taken : Flight.Taken p n.flight m rest) : Promises w ids { n with flight := rest } where
  adverts q m' hm' := h.adverts q m' (taken.mem_queue hm')
  entry_backed := h.entry_backed
  flight_backed q m' hm' := h.flight_backed q m' (taken.mem_queue hm')
  told q hq x hx := by
    rcases h.told q hq x hx with ⟨m', hm', hmx⟩ | hsettled
    · by_cases hqp : q = p
      · subst hqp
        refine Or.inr (Or.inr (Offers.mono ?_ (Nat.le_succ _)))
        rw [← hself]
        exact offers_of_knows hx
      · refine Or.inl ⟨m', ?_, hmx⟩
        rw [queue, taken.others q hqp]
        exact hm'
    · exact Or.inr hsettled

section

variable {p : Port ι} {ra relayed : RouteAdvertisement} {rest : List (Port ι × RouteMessage)}

/-- What is passed on is backed, the receiver not included. -/
theorem relayed_backed (h : Promises w ids n)
    (hd : Delivery w { n with flight := rest } n' p ra relayed)
    (hin : .advertisement ra ∈ n.queue p) (hsender : ra.sender = ids p.router) {x : Route}
    (hx : x ∈ relayed.routes) : Backed ids n' x.dest x.path := by
  obtain ⟨y, hy, -, rfl⟩ := hd.fresh x hx
  have hback := (h.flight_backed p _ hin y hy).grow hd.grown
  rwa [← hsender] at hback

/-- What is passed on is backed by the receiver too, which has installed it or something
    cheaper. -/
theorem relayed_backed_cons (h : Promises w ids n)
    (hd : Delivery w { n with flight := rest } n' p ra relayed)
    (hin : .advertisement ra ∈ n.queue p) (hsender : ra.sender = ids p.router) {x : Route}
    (hx : x ∈ relayed.routes) (hcost : x.cost.toNat = x.path.length) :
    Backed ids n' x.dest (ids (w.peer p).router :: x.path) := by
  apply (h.relayed_backed hd hin hsender hx).cons
  obtain ⟨y, hy, hloop, rfl⟩ := hd.fresh x hx
  obtain ⟨z, hz, hzd, hzc⟩ := hd.offers y hy hloop
  refine Or.inr ⟨z, hz, hzd, ?_⟩
  rw [← hcost]
  exact UInt32.le_iff_toNat_le.mp hzc

/-- What was told stays told; what has just arrived is now known, or loops. -/
theorem told_of_knows (h : Promises w ids n)
    (hd : Delivery w { n with flight := rest } n' p ra relayed)
    (taken : Flight.Taken p n.flight (.advertisement ra) rest) {q : Port ι} (hq : n.Live q)
    {x : Route} (hx : (n.routers q.router).Knows x) : Told w n' q x := by
  rcases h.told q hq x hx with ⟨m, hm, hmx⟩ | hpath | hoffer
  · by_cases hqp : q = p
    · subst hqp
      have hqueue : n.queue q = .advertisement ra :: Flight.queue q rest := taken.head
      rw [hqueue] at hm
      rcases List.mem_cons.mp hm with rfl | hm
      · by_cases hloop : (n.routers (w.peer q).router).loops x = true
        · rcases Router.loops_iff.mp hloop with hdest | hpath
          · exact Or.inr (Or.inr (Or.inl ((hd.grown _).1.trans hdest.symm)))
          · exact Or.inr (Or.inl (by rwa [(hd.grown _).1]))
        · obtain ⟨z, hz, hzd, hzc⟩ := hd.offers x hmx hloop
          refine Or.inr (Or.inr (Or.inr ⟨z, hz, hzd, ?_⟩))
          refine (UInt32.le_iff_toNat_le.mp hzc).trans ?_
          rw [UInt32.toNat_add]
          exact Nat.mod_le _ _
      · exact Or.inl ⟨m, hd.kept q m hm, hmx⟩
    · refine Or.inl ⟨m, hd.kept q m ?_, hmx⟩
      rw [queue, taken.others q hqp]
      exact hm
  · exact Or.inr (Or.inl (by rwa [(hd.grown _).1]))
  · exact Or.inr (Or.inr (hoffer.grow hd.grown))

/-- A new route: the others are told of it, and the neighbour it came from is on its path. -/
theorem told_of_relayed (hd : Delivery w { n with flight := rest } n' p ra relayed)
    (hsender : ra.sender = ids p.router) (hid : ∀ i, (n.routers i).id = ids i) {q : Port ι}
    (hq : n.Live q) (hr : q.router = (w.peer p).router) {x : Route} (hx : x ∈ relayed.routes) :
    Told w n' q x := by
  by_cases hqp : q = w.peer p
  · obtain ⟨y, -, -, rfl⟩ := hd.fresh x hx
    refine Or.inr (Or.inl ?_)
    rw [hqp, w.peer_peer, (hd.grown _).1]
    show (n.routers p.router).id ∈ _
    rw [hid, ← hsender]
    exact List.mem_cons_self
  · exact Or.inl ⟨_, hd.sent q hq hr hqp (List.ne_nil_of_mem hx), hx⟩

end

/-- An advertisement `ra` arrives, sent on `p`. -/
theorem receive (h : Promises w ids n) (hinj : Function.Injective ids) (hlinked : Linked w ids n)
    (hpaths : PathsIntact w ids n) {p : Port ι} {m : RouteMessage}
    {rest : List (Port ι × RouteMessage)} (taken : Flight.Taken p n.flight m rest) :
    Promises w ids (Network.receive w { n with flight := rest } p m) := by
  have hqueue : n.queue p = m :: Flight.queue p rest := taken.head
  have hin : m ∈ n.queue p := by rw [hqueue]; exact List.mem_cons_self
  obtain ⟨ra, rfl⟩ := h.adverts p m hin
  have hmsg := hpaths.flight _ (mem_queue.mp hin)
  have hsender : ra.sender = ids p.router := hmsg.sender
  have hpeer : n.Live (w.peer p) :=
    hlinked.live_peer p (hlinked.flight_live p (List.ne_nil_of_mem hin))
  by_cases hown : ra.sender = ids (w.peer p).router
  · rw [Network.receive_own (n := { n with flight := rest }) w (m := .advertisement ra)
      (hown.trans (hlinked.id_eq _).symm)]
    exact h.receive_own (hinj (hsender.symm.trans hown)) taken
  have hpaths' : PathsIntact w ids
      (Network.receive w { n with flight := rest } p (.advertisement ra)) := by
    refine PathsIntact.receive (hpaths.of_flight_subset fun x hx => ?_) hmsg
    exact mem_queue.mp (taken.mem_queue (Flight.mem_queue.mpr hx))
  have hd := delivery (n := { n with flight := rest }) hlinked.sound hpeer hown
  generalize (n.routers (w.peer p).router).relayedAdvert ra (w.peer p).conn = relayed at hd
  generalize Network.receive w { n with flight := rest } p (.advertisement ra) = n' at hpaths' hd
  constructor
  · intro q m' hm'
    rcases hd.flight q m' hm' with hm' | ⟨-, rfl⟩
    · exact h.adverts q m' (taken.mem_queue hm')
    · exact ⟨_, rfl⟩
  · intro i e he
    rcases hd.table i e he with he | ⟨-, he⟩
    · exact (h.entry_backed i e he).grow hd.grown
    · exact h.relayed_backed hd hin hsender he
  · intro q m' hm' x hx
    rcases hd.flight q m' hm' with hold | ⟨hr, rfl⟩
    · exact (h.flight_backed q m' (taken.mem_queue hold) x hx).grow hd.grown
    · rw [hr]
      exact h.relayed_backed_cons hd hin hsender hx
        ((hpaths'.flight _ (mem_queue.mp hm')).routes x hx).cost_eq
  · intro q hq x hx
    have hq' : n.Live q := (hd.live q).mp hq
    rcases Router.knows_iff.mp hx with rfl | ⟨e, he, rfl⟩
    · apply h.told_of_knows hd taken hq'
      rw [Router.knows_iff, (hd.grown _).1]
      exact Or.inl rfl
    · rcases hd.table _ e he with he | ⟨hr, he⟩
      · exact h.told_of_knows hd taken hq' (Router.knows_iff.mpr (Or.inr ⟨e, he, rfl⟩))
      · exact told_of_relayed hd hsender hlinked.id_eq hq' hr he

theorem step (h : Promises w ids n) (hinj : Function.Injective ids) (hlinked : Linked w ids n)
    (hpaths : PathsIntact w ids n) {ev : Event ι} (hgrows : ev.Grows)
    (hstep : n.step w ev = some n') : Promises w ids n' := by
  cases step_cases hstep with
  | connect p fresh freshPeer =>
    exact (h.addEnd hpaths fresh).addEnd (hpaths.addEnd p) freshPeer
  | disconnect p dead dead' _ _ _ => exact absurd hgrows not_false
  | deliver p m rest taken => exact h.receive hinj hlinked hpaths taken

end Promises

/-- A run in which nothing breaks. -/
abbrev GrowthRun (w : Wiring ι) : Network ι → Network ι → Prop := Run w fun _ ev => ev.Grows

theorem Run.promises (hinj : Function.Injective ids) (h : GrowthRun w (Network.start ids) n) :
    Promises w ids n := by
  refine h.invariant (Promises.start w ids) ?_
  intro n n' ev hrun h hgrows hstep
  exact h.step hinj (Run.linked hrun) (Run.pathsIntact hrun) hgrows hstep

end Network

end Synergy
