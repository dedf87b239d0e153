import Synergy.Router.Sends
import Synergy.Router.Signals

/-!
# A revocation undoes its advertisement

The two loops lengthen a route and tell a loop in the same way, so a revocation of the same routes
by the same sender names exactly the entries that the advertisement can have installed. The entries
that were pushed out meanwhile do not come back: what is left is part of the old table.
-/

set_option autoImplicit false

namespace Synergy

open Lib

namespace Router

/-- What is left when a revocation has followed the advertisement of the same routes: `r` is the
router before both, `r₁` between them and `r₂` after them; `sends` is what the second one sends. -/
structure Undone (r : Router) (ra : RouteAdvertisement) (source : Connection) (r₁ r₂ : Router)
    (sends : Sends) : Prop where
  gone : ∀ route ∈ ra.routes, ∀ e ∈ r₂.routeTable, e.toRoute ≠ extend ra.sender route
  old : ∀ e ∈ r₂.routeTable, e ∈ r.routeTable
  /-- A revocation goes out if an entry went, to everybody but the source. -/
  flooded : (∃ e ∈ r₁.routeTable, e ∉ r₂.routeTable) →
    sends = r₁.flood (.revocation (r₁.relayedRevocation ⟨ra⟩)) source.id
  quiet : (∀ e ∈ r₁.routeTable, e ∈ r₂.routeTable) → sends = []
  /-- One signal for each destination that loses its last entry. -/
  unreachable : ∃ ds : List UInt32, r₂.signals = r₁.signals ++ ds.map .unreachable ∧ ds.Nodup ∧
    ∀ d, d ∈ ds ↔ r₁.Reaches d ∧ ¬r₂.Reaches d

variable {r : Router} {rr : RouteRevocation} {source : Connection}

/-- What the second step removes is what the message lists, one hop longer. -/
theorem mem_integrateRevocation (h : rr.sender ≠ r.id) (e : RouteTableEntry) :
    e ∈ (r.integrateRevocation rr source).1.routeTable ↔
      e ∈ r.routeTable ∧
        ¬∃ route ∈ rr.routes, ¬r.loops route ∧ e.toRoute = extend rr.sender route := by
  rw [integrateRevocation_routeTable h, (revocationLoop_spec r rr.sender rr.routes).mem]
  exact and_congr_right fun _ => not_congr mem_relayedRevocation

theorem sends_integrateRevocation (h : rr.sender ≠ r.id) :
    ((∃ e ∈ r.routeTable, e ∉ (r.integrateRevocation rr source).1.routeTable) →
      (r.integrateRevocation rr source).2 =
        r.flood (.revocation (r.relayedRevocation rr)) source.id) ∧
    ((∀ e ∈ r.routeTable, e ∈ (r.integrateRevocation rr source).1.routeTable) →
      (r.integrateRevocation rr source).2 = []) := by
  have spec := revocationLoop_spec r rr.sender rr.routes
  have hflood : (r.revocationLoop rr.sender rr.routes).router.flood
      (.revocation (r.relayedRevocation rr)) source.id =
        r.flood (.revocation (r.relayedRevocation rr)) source.id := by
    rw [flood, flood, spec.running, spec.connections]
  rw [integrateRevocation_snd h, hflood, integrateRevocation_routeTable h]
  constructor
  · rintro ⟨e, he, hout⟩
    rw [spec.mem, not_and_not_right] at hout
    exact if_pos (spec.updated.mpr ⟨e, he, hout he⟩)
  · intro hall
    refine if_neg fun hupdated => ?_
    obtain ⟨e, he, hin⟩ := spec.updated.mp hupdated
    exact ((spec.mem e).mp (hall e he)).2 hin

theorem signals_integrateRevocation (h : rr.sender ≠ r.id) :
    ∃ ds : List UInt32,
      (r.integrateRevocation rr source).1.signals = r.signals ++ ds.map .unreachable ∧ ds.Nodup ∧
      ∀ d, d ∈ ds ↔ r.Reaches d ∧ ¬(r.integrateRevocation rr source).1.Reaches d := by
  have spec := revocationLoop_spec r rr.sender rr.routes
  have hafter : ∀ d, (r.integrateRevocation rr source).1.Reaches d ↔
      (r.revocationLoop rr.sender rr.routes).router.Reaches d := by
    intro d
    rw [Reaches, Reaches, integrateRevocation_routeTable h]
  have hsignals : (r.integrateRevocation rr source).1 =
      (r.revocationLoop rr.sender rr.routes).router.signalUnreachable
        (r.revocationLoop rr.sender rr.routes).destsEffected := by
    rw [integrateRevocation, if_neg h]
  refine ⟨_, by rw [hsignals, signalUnreachable, spec.signals], (List.nodup_dedup _).filter _,
    fun d => ?_⟩
  rw [mem_unreachableDests, spec.dests, hafter]
  constructor
  · rintro ⟨⟨e, he, hd, _⟩, hnot⟩
    exact ⟨⟨e, he, hd⟩, hnot⟩
  · rintro ⟨⟨e, he, hd⟩, hnot⟩
    refine ⟨⟨e, he, hd, ?_⟩, hnot⟩
    by_contra hkept
    exact hnot ⟨e, (spec.mem e).mpr ⟨he, hkept⟩, hd⟩

/-- **A revocation undoes its advertisement**: with no route to the router itself and none through
it, nothing is left of what the advertisement listed, and nothing that was not there before. -/
theorem integrateRevocation_undone (r : Router) (hself : ∀ e ∈ r.routeTable, e.dest ≠ r.id)
    (hpath : ∀ e ∈ r.routeTable, r.id ∉ e.path) (ra : RouteAdvertisement)
    (hsender : ra.sender ≠ r.id) (source source' : Connection) :
    Undone r ra source' (r.integrateAdvertisement ra source).1
      ((r.integrateAdvertisement ra source).1.integrateRevocation ⟨ra⟩ source').1
      ((r.integrateAdvertisement ra source).1.integrateRevocation ⟨ra⟩ source').2 := by
  have spec := advertLoop_spec r ra.sender source ra.routes
  have hid : (r.integrateAdvertisement ra source).1.id = r.id :=
    integrate_id r (.advertisement ra) source
  have hnew : ∀ e ∈ (r.integrateAdvertisement ra source).1.routeTable, e ∈ r.routeTable ∨
      ∃ route ∈ ra.routes, ¬r.loops route ∧ e.toRoute = extend ra.sender route := by
    intro e he
    rw [integrateAdvertisement_fst hsender] at he
    rcases spec.mem e he with hold | ⟨hin, -⟩
    · exact Or.inl hold
    · exact Or.inr (spec.fresh _ hin)
  generalize (r.integrateAdvertisement ra source).1 = r₁ at hid hnew
  have hforeign : ra.sender ≠ r₁.id := by rwa [hid]
  have hloops : ∀ route, r₁.loops route = r.loops route := loops_congr hid
  have hmem := fun e => @mem_integrateRevocation r₁ ⟨ra⟩ source' hforeign e
  simp only [hloops] at hmem
  have hold : ∀ e ∈ (r₁.integrateRevocation ⟨ra⟩ source').1.routeTable, e ∈ r.routeTable := by
    intro e he
    obtain ⟨he, hnot⟩ := (hmem e).mp he
    exact (hnew e he).resolve_right hnot
  have hsends := @sends_integrateRevocation r₁ ⟨ra⟩ source' hforeign
  refine ⟨fun route hroute e he heq => ?_, hold, hsends.1, hsends.2,
    signals_integrateRevocation hforeign⟩
  by_cases hloop : r.loops route
  · -- the old table has no such entry
    rcases loops_iff.mp hloop with hd | hp
    · exact hself e (hold e he) (by rw [heq, extend_dest, hd])
    · refine hpath e (hold e he) ?_
      rw [heq, extend_path]
      exact List.mem_cons_of_mem _ hp
  · exact ((hmem e).mp he).2 ⟨route, hroute, hloop, heq⟩

/-- The neighbour 2 says who it is, and that it has ways to 5 and back to 1. -/
def introduction : RouteAdvertisement := ⟨2, [⟨2, 0, []⟩, ⟨5, 1, [5]⟩, ⟨1, 1, [1]⟩]⟩

/-- The first of its routes pushes out another one. Then the neighbour takes back what it said. -/
theorem integrateRevocation_undone_neighbour :
    Undone threeWays introduction ⟨7, 20, 10⟩
      (threeWays.integrateAdvertisement introduction ⟨7, 20, 10⟩).1
      ((threeWays.integrateAdvertisement introduction ⟨7, 20, 10⟩).1.integrateRevocation
        ⟨introduction⟩ ⟨7, 20, 10⟩).1
      ((threeWays.integrateAdvertisement introduction ⟨7, 20, 10⟩).1.integrateRevocation
        ⟨introduction⟩ ⟨7, 20, 10⟩).2 := by
  have hself : ∀ e ∈ threeWays.routeTable.toList, e.dest ≠ 1 := by decide
  have hpath : ∀ e ∈ threeWays.routeTable.toList, 1 ∉ e.path := by decide
  exact integrateRevocation_undone threeWays hself hpath introduction (by decide) _ _

/-- What is left are the old routes, without the one pushed out. -/
example :
    let heard := (threeWays.integrateAdvertisement introduction ⟨7, 20, 10⟩).1
    let r := (heard.integrateRevocation ⟨introduction⟩ ⟨7, 20, 10⟩).1
    heard.routeTable.toList.map (·.toRoute) =
        [⟨2, 1, [2]⟩, ⟨2, 2, [3, 2]⟩, ⟨2, 3, [3, 4, 2]⟩, ⟨3, 1, [3]⟩, ⟨5, 2, [2, 5]⟩] ∧
      r.routeTable.toList.map (·.toRoute) = [⟨2, 2, [3, 2]⟩, ⟨2, 3, [3, 4, 2]⟩, ⟨3, 1, [3]⟩] := by
  decide +kernel

end Router

end Synergy
