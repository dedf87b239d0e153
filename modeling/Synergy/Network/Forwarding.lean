import Synergy.Network.Offers

/-!
# Following the first entry

`Router::forward` sends a message on the connection of the first entry for its destination.
Whoever is at the other end offers that destination for at least one less
(`Promises.exists_hop`), and that is all there is to relaying: with a frozen network the
cheapest costs descend along the way, and in a growing one they descend as they are met,
since an offer only gets better while the message travels.
-/

set_option autoImplicit false

namespace Synergy

open Lib

namespace Network

variable {ι : Type} [DecidableEq ι] {w : Wiring ι} {ids : ι → UInt32} {n n' : Network ι}

/-- Where router `i` forwards a message for `d`. -/
def hop (w : Wiring ι) (n : Network ι) (d : UInt32) (i : ι) : Option ι :=
  ((n.routers i).forward d).map fun c => (w.peer ⟨i, c⟩).router

/-- The cost of the first entry for `d`, which is the cheapest; nothing at `d` itself. -/
def cheapest (n : Network ι) (d : UInt32) (i : ι) : Option ℕ :=
  if (n.routers i).id = d then some 0
  else ((n.table i).find? fun e => e.dest = d).map fun e => e.cost.toNat

omit [DecidableEq ι] in
theorem offers_iff_cheapest {d : UInt32} {i : ι} {k : ℕ} :
    n.Offers d i k ↔ ∃ c, n.cheapest d i = some c ∧ c ≤ k := by
  unfold cheapest
  by_cases hid : (n.routers i).id = d
  · rw [if_pos hid]
    exact ⟨fun _ => ⟨0, rfl, Nat.zero_le k⟩, fun _ => Or.inl hid⟩
  rw [if_neg hid]
  constructor
  · rintro (h | ⟨e, he, hd, hk⟩)
    · exact absurd h hid
    · have hsome : ((n.table i).find? fun e => e.dest = d).isSome :=
        UniqueIndex.find?_isSome.mpr ⟨e, he, decide_eq_true hd⟩
      obtain ⟨f, hf⟩ := Option.isSome_iff_exists.mp hsome
      obtain ⟨-, hfd, hleast⟩ := UniqueIndex.find?_some hf
      have hle := hleast e he (decide_eq_true hd)
      have hcost := Route.cost_le_of_key_le ((of_decide_eq_true hfd).trans hd.symm) hle
      exact ⟨f.cost.toNat, by rw [hf]; rfl, (UInt32.le_iff_toNat_le.mp hcost).trans hk⟩
  · rintro ⟨c, hc, hk⟩
    obtain ⟨f, hf, rfl⟩ := Option.map_eq_some_iff.mp hc
    obtain ⟨hmem, hfd, -⟩ := UniqueIndex.find?_some hf
    exact Or.inr ⟨f, hmem, of_decide_eq_true hfd, hk⟩

/-- A router with an offer forwards, and the next one offers less. -/
theorem Promises.exists_hop (h : Promises w ids n) (hinj : Function.Injective ids)
    (hlinked : Linked w ids n) (hpaths : PathsIntact w ids n) {d : UInt32} {i : ι} {k : ℕ}
    (hoffer : n.Offers d i k) (haway : (n.routers i).id ≠ d) :
    ∃ j, hop w n d i = some j ∧ (n.links w).Adj i j ∧
      ∃ k', n.cheapest d i = some (k' + 1) ∧ n.Offers d j k' := by
  obtain ⟨c, hc, -⟩ := offers_iff_cheapest.mp hoffer
  unfold cheapest at hc ⊢
  rw [if_neg haway] at hc ⊢
  obtain ⟨e, he, -⟩ := Option.map_eq_some_iff.mp hc
  obtain ⟨hmem, hd, -⟩ := UniqueIndex.find?_some he
  have hd := of_decide_eq_true hd
  have hintact := hpaths.table i e hmem
  -- the head of the path is the router at the other end, and it offers what the path says
  obtain ⟨x, q, hpath⟩ := List.exists_cons_of_ne_nil
    (List.ne_nil_of_mem (List.mem_of_mem_head? hintact.head))
  have hx : x = ids (w.peer ⟨i, e.connection⟩).router := by
    have hhead := hintact.head
    rw [hpath] at hhead
    exact Option.some.inj hhead
  obtain ⟨j, hj, hback⟩ := h.entry_backed i e hmem x q (by rw [hpath])
  obtain rfl := hinj (hj.trans hx)
  refine ⟨_, ?_, adj_of_mem hlinked hpaths hmem, q.length, ?_, by rwa [hd] at hback⟩
  · unfold hop Router.forward
    rw [he]
    rfl
  · rw [he, Option.map_some, hintact.cost, hpath]
    rfl

/-! ## Relaying while the network grows -/

/-- A message for `d` on its way: where it has been and what the cheapest cost was when it
    came there, latest first. `between` is what may happen to the network meanwhile. -/
inductive Journey (w : Wiring ι) (d : UInt32) (between : Network ι → Network ι → Prop) (a : ι)
    (n₀ : Network ι) : Network ι → List (ι × Option ℕ) → Prop
  | start : Journey w d between a n₀ n₀ [(a, n₀.cheapest d a)]
  | hop {n : Network ι} {i j : ι} {c : Option ℕ} {visits : List (ι × Option ℕ)}
      (journey : Journey w d between a n₀ n ((i, c) :: visits))
      (away : (n.routers i).id ≠ d) (next : Network.hop w n d i = some j) :
      Journey w d between a n₀ n ((j, n.cheapest d j) :: (i, c) :: visits)
  | between {n n' : Network ι} {visits : List (ι × Option ℕ)}
      (journey : Journey w d between a n₀ n visits) (step : between n n') :
      Journey w d between a n₀ n' visits

/-- The network grows by one event. -/
def GrowsTo (w : Wiring ι) (n n' : Network ι) : Prop := ∃ ev, ev.Grows ∧ n.step w ev = some n'

/-- A journey with `budget` hops to spend: the costs met descend, the hops stay within the
    budget, and as long as it has not arrived there is a hop left and a router to make it. -/
structure OnCourse (w : Wiring ι) (d : UInt32) (budget : ℕ) (n : Network ι)
    (visits : List (ι × Option ℕ)) : Prop where
  costs : ∃ costs : List ℕ, visits.map Prod.snd = costs.map some ∧ costs.Pairwise (· < ·)
  hops : visits.length ≤ budget + 1
  onward : ∀ v ∈ visits.head?, (n.routers v.1).id = d ∨
    (visits.length ≤ budget ∧ ∃ j, hop w n d v.1 = some j)

theorem grown_of_growsTo (hprom : Promises w ids n)
    (h : GrowsTo w n n') : Grown n n' := by
  obtain ⟨ev, hgrows, hstep⟩ := h
  cases step_cases hstep with
  | connect p _ _ => exact (grown_addEnd n p).trans (grown_addEnd _ _)
  | disconnect _ _ _ _ _ _ => exact absurd hgrows not_false
  | deliver p m rest taken =>
    obtain ⟨ra, rfl⟩ :=
      hprom.adverts p m (by unfold queue; rw [taken.head]; exact List.mem_cons_self)
    exact grown_receive w { n with flight := rest } p ra

/-- The invariant of a journey: the router it is at still offers what it offered on arrival. -/
private structure Charted (w : Wiring ι) (ids : ι → UInt32) (d : UInt32) (budget : ℕ)
    (n : Network ι) (visits : List (ι × Option ℕ)) : Prop where
  run : GrowthRun w (Network.start ids) n
  course : ∃ i c rest costs, visits = (i, some c) :: rest ∧ rest.map Prod.snd = costs.map some ∧
    (c :: costs).Pairwise (· < ·) ∧ c + rest.length ≤ budget ∧ n.Offers d i c

private theorem Charted.hop (hinj : Function.Injective ids) {d : UInt32} {budget : ℕ} {i j : ι}
    {c : Option ℕ} {visits : List (ι × Option ℕ)}
    (h : Charted w ids d budget n ((i, c) :: visits)) (haway : (n.routers i).id ≠ d)
    (hnext : Network.hop w n d i = some j) :
    Charted w ids d budget n ((j, n.cheapest d j) :: (i, c) :: visits) := by
  obtain ⟨_, c, rest, costs, heq, hcosts, hlt, hbudget, hoffer⟩ := h.course
  cases heq
  obtain ⟨j', hj', -, k', hk', hnextOffer⟩ :=
    (h.run.promises hinj).exists_hop hinj h.run.linked h.run.pathsIntact hoffer haway
  obtain rfl : j' = j := Option.some.inj (hj'.symm.trans hnext)
  obtain ⟨c', hc', hle⟩ := offers_iff_cheapest.mp hnextOffer
  -- the cost met now is below what the last router offers now, so below what it did then
  obtain ⟨_, hnow, hthen⟩ := offers_iff_cheapest.mp hoffer
  obtain rfl := Option.some.inj (hk'.symm.trans hnow)
  refine ⟨h.run, j', c', (i, some c) :: visits, c :: costs, by rw [hc'], ?_, ?_, ?_, ?_⟩
  · rw [List.map_cons, List.map_cons, hcosts]
  · refine List.pairwise_cons.mpr ⟨fun x hx => ?_, hlt⟩
    rcases List.mem_cons.mp hx with rfl | hx
    · omega
    · exact lt_trans (by omega) ((List.pairwise_cons.mp hlt).1 x hx)
  · rw [List.length_cons]
    omega
  · exact offers_iff_cheapest.mpr ⟨c', hc', le_rfl⟩

private theorem Journey.charted (hinj : Function.Injective ids) {d : UInt32} {a : ι}
    {n₀ : Network ι} (hrun : GrowthRun w (Network.start ids) n₀) {k : ℕ}
    (hoffer : n₀.Offers d a k) {visits : List (ι × Option ℕ)}
    (h : Journey w d (GrowsTo w) a n₀ n visits) : Charted w ids d k n visits := by
  induction h with
  | start =>
    obtain ⟨c, hc, hle⟩ := offers_iff_cheapest.mp hoffer
    exact ⟨hrun, a, c, [], [], by rw [hc], rfl, List.pairwise_singleton _ _, hle,
      offers_iff_cheapest.mpr ⟨c, hc, le_rfl⟩⟩
  | hop _ haway hnext ih => exact ih.hop hinj haway hnext
  | between _ hstep ih =>
    have hg := grown_of_growsTo (ih.run.promises hinj) hstep
    obtain ⟨i, c, rest, costs, heq, hcosts, hlt, hbudget, hoffer⟩ := ih.course
    obtain ⟨ev, hgrows, hev⟩ := hstep
    exact ⟨ih.run.snoc hgrows hev, i, c, rest, costs, heq, hcosts, hlt, hbudget, hoffer.grow hg⟩

private theorem Charted.onCourse (hinj : Function.Injective ids) {d : UInt32} {budget : ℕ}
    {visits : List (ι × Option ℕ)} (h : Charted w ids d budget n visits) :
    OnCourse w d budget n visits := by
  obtain ⟨i, c, rest, costs, rfl, hcosts, hlt, hbudget, hoffer⟩ := h.course
  refine ⟨⟨c :: costs, ?_, hlt⟩, ?_, fun v hv => ?_⟩
  · rw [List.map_cons, List.map_cons, hcosts]
  · rw [List.length_cons]
    omega
  · obtain rfl := Option.some.inj hv
    by_cases haway : (n.routers i).id = d
    · exact Or.inl haway
    · obtain ⟨j, hj, -, k', hk', -⟩ :=
        (h.run.promises hinj).exists_hop hinj h.run.linked h.run.pathsIntact hoffer haway
      obtain ⟨_, hnow, hle⟩ := offers_iff_cheapest.mp hoffer
      obtain rfl := Option.some.inj (hk'.symm.trans hnow)
      refine Or.inr ⟨?_, j, hj⟩
      rw [List.length_cons]
      omega

omit [DecidableEq ι] in
theorem Journey.mono {d : UInt32} {a : ι} {n₀ : Network ι} {visits : List (ι × Option ℕ)}
    {between between' : Network ι → Network ι → Prop}
    (hle : ∀ m m', between m m' → between' m m') (h : Journey w d between a n₀ n visits) :
    Journey w d between' a n₀ n visits := by
  induction h with
  | start => exact .start
  | hop _ haway hnext ih => exact ih.hop haway hnext
  | between _ hstep ih => exact ih.between (hle _ _ hstep)

omit [DecidableEq ι] in
/-- While nothing happens the costs met are those of one network. -/
theorem Journey.snd_eq {d : UInt32} {a : ι} {n₀ : Network ι} {visits : List (ι × Option ℕ)}
    (h : Journey w d (fun _ _ => False) a n₀ n visits) :
    n = n₀ ∧ visits.map Prod.snd = (visits.map Prod.fst).map (n₀.cheapest d) := by
  induction h with
  | start => exact ⟨rfl, rfl⟩
  | hop _ _ _ ih =>
    obtain ⟨rfl, heq⟩ := ih
    exact ⟨rfl, by rw [List.map_cons, heq]; rfl⟩
  | between _ hstep _ => exact hstep.elim

/-- **Relaying descends.** From a router with a route of cost `k`, whatever is set up or
    delivered on the way: the costs met on arrival strictly decrease, the message is never
    stuck, and it arrives within `k` hops. While nothing is delivered, no router is met twice. -/
theorem relay_descends (hinj : Function.Injective ids) {n₀ : Network ι}
    (hrun : GrowthRun w (Network.start ids) n₀) {a : ι} {e : RouteTableEntry}
    (he : e ∈ (n₀.routers a).routeTable) :
    (∀ n visits, Journey w e.dest (GrowsTo w) a n₀ n visits →
      OnCourse w e.dest e.cost.toNat n visits) ∧
    ∀ n visits, Journey w e.dest (fun _ _ => False) a n₀ n visits →
      (visits.map Prod.fst).Nodup := by
  have hoffer : n₀.Offers e.dest a e.cost.toNat := Or.inr ⟨e, he, rfl, le_rfl⟩
  refine ⟨fun n visits h => (h.charted hinj hrun hoffer).onCourse hinj, fun n visits h => ?_⟩
  obtain ⟨-, hsnd⟩ := h.snd_eq
  have hjourney : Journey w e.dest (GrowsTo w) a n₀ n visits := h.mono fun _ _ => False.elim
  obtain ⟨costs, hcosts, hlt⟩ := ((hjourney.charted hinj hrun hoffer).onCourse hinj).costs
  have hnodup : (visits.map Prod.snd).Nodup := by
    rw [hcosts]
    exact List.Nodup.map (Option.some_injective ℕ) (hlt.imp fun h => h.ne)
  rw [hsnd] at hnodup
  exact hnodup.of_map

/-- A chain of four routers, and one more connection between its ends. -/
def closingChain : Wiring (Fin 4) :=
  .ofLinks fun k => if k = 1 then (0, 1) else if k = 2 then (1, 2) else if k = 3 then (2, 3)
    else (0, 3)

/-- The chain has settled, and its ends have just been joined. -/
def closedChain : Network (Fin 4) :=
  let n := (Network.start ![1, 2, 3, 4]).exec closingChain (.connect (.near 0 1))
  let n := n.exec closingChain (.connect (.near 1 2))
  let n := n.exec closingChain (.connect (.near 2 3))
  (settle closingChain 24 n).exec closingChain (.connect (.near 0 4))

theorem closedChain_run :
    GrowthRun closingChain (Network.start ![1, 2, 3, 4]) closedChain := by
  refine Run.exec ?_ trivial
  refine Run.settle ?_ _ fun _ _ _ _ => trivial
  exact ((Run.nil.exec trivial).exec trivial).exec trivial

theorem relay_descends_closedChain :
    (∀ n visits, Journey closingChain 4 (GrowsTo closingChain) 0 closedChain n visits →
      OnCourse closingChain 4 3 n visits) ∧
    ∀ n visits, Journey closingChain 4 (fun _ _ => False) 0 closedChain n visits →
      (visits.map Prod.fst).Nodup :=
  @relay_descends _ _ _ ![1, 2, 3, 4] (by decide) _ closedChain_run _
    ⟨⟨4, 3, [2, 3, 4]⟩, ⟨1, 3, 2⟩⟩
    (by show _ ∈ (closedChain.routers 0).routeTable.toList; decide +kernel)

/-- A message for router 3 leaves router 0 towards router 1. Then the advert of the new
    connection arrives, and router 1 prefers the way it leads to: back through router 0. -/
theorem relay_revisits : ∃ n visits,
    GrowthRun closingChain (Network.start ![1, 2, 3, 4]) closedChain ∧
    (∃ e ∈ (closedChain.routers 0).routeTable, e.dest = 4) ∧
    Journey closingChain 4 (fun m m' => ∃ p, m.step closingChain (.deliver p) = some m') 0
      closedChain n visits ∧
    ¬(visits.map Prod.fst).Nodup := by
  have hdeliver : ∀ (n : Network (Fin 4)) (p : Port (Fin 4)),
      (n.step closingChain (.deliver p)).isSome →
      ∃ q, n.step closingChain (.deliver q) = some (n.exec closingChain (.deliver p)) := by
    intro n p h
    exact ⟨p, step_eq_exec h⟩
  have hjourney : Journey closingChain 4
      (fun m m' => ∃ p, m.step closingChain (.deliver p) = some m') 0 closedChain _ _ :=
    (((Journey.start.hop (j := 1) (by decide +kernel) (by decide +kernel)).between
      (hdeliver _ (.far 3 4) (by decide +kernel))).between
      (hdeliver _ (.near 0 1) (by decide +kernel))).hop (j := 0) (by decide +kernel)
      (by decide +kernel)
  exact ⟨_, _, closedChain_run, by decide +kernel, hjourney, by decide +kernel⟩

end Network

end Synergy
