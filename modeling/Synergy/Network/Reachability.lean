import Synergy.Network.Completeness
import Synergy.Network.Staleness
import Synergy.Router.Signals

/-!
# What the routers say about each other

Each router keeps its signals true to its own table (`Announced`), whatever happens in the
network. What the table is worth is another matter: a route that was bumped can be missing, and one
that was learned before it was bumped can be stale. Where no fourth route ever comes up there is
neither, and then the signals of a silent network tell which routers are joined, after any number
of connections that were set up and broken.
-/

set_option autoImplicit false

namespace Synergy

open Lib

namespace Network

variable {ι : Type} [DecidableEq ι] {w : Wiring ι} {ids : ι → UInt32} {n n' : Network ι}
  {d : UInt32}

/-- Every router has told what its table says. -/
def Announced (n : Network ι) : Prop := ∀ i, (n.routers i).SignalsMirror

theorem Announced.act (h : n.Announced) {i : ι} {out : Router × Sends}
    (hout : out.1.SignalsMirror) : (n.act i out).Announced := by
  intro j
  rw [routers_act]
  split
  · exact hout
  · exact h j

/-- Setting up a connection says nothing. -/
theorem Announced.addEnd (h : n.Announced) (p : Port ι) : (n.addEnd p).Announced := by
  refine h.act fun d => ?_
  unfold Router.add
  split
  · exact h p.router d
  · exact h p.router d

theorem Announced.removeEnd (h : n.Announced) {p : Port ι} {dead : List RouteTableEntry}
    (hdead : dead.Perm ((n.routers p.router).deadRoutes p.conn)) : (n.removeEnd p dead).Announced :=
  h.act (Router.signalsMirror_call (k := .remove p.conn dead) (h p.router) hdead)

theorem Announced.receive (h : n.Announced) (p : Port ι) (m : RouteMessage) :
    (Network.receive w n p m).Announced := by
  refine h.act ?_
  cases m with
  | advertisement ra =>
    exact Router.signalsMirror_call (k := .advertisement ra (w.peer p).conn) (h _) trivial
  | revocation rr =>
    exact Router.signalsMirror_call (k := .revocation rr (w.peer p).conn) (h _) trivial

theorem Announced.ofLocal (h : n.Announced) (hstep : Local w n n') : n'.Announced := by
  cases hstep with
  | add p => exact h.addEnd p
  | remove p dead perm => exact h.removeEnd perm
  | deliver before after p m split => exact Announced.receive h p m
  | lose flight sub => exact h

theorem Announced.ofLocals (h : n.Announced) (hsteps : Relation.ReflTransGen (Local w) n n') :
    n'.Announced := by
  induction hsteps with
  | refl => exact h
  | tail _ hstep ih => exact ih.ofLocal hstep

theorem Run.announced {ok : Network ι → Event ι → Prop}
    (hrun : Run w ok (Network.start ids) n) : n.Announced := by
  have hstart : (Network.start ids).Announced :=
    fun i d => Mirrors.nil fun ⟨e, he, _⟩ => UniqueIndex.not_mem_empty e he
  exact hstart.ofLocals hrun.locals

/-! ## Joined routers -/

/-- Where nothing is a fourth route, nothing is bumped. -/
theorem Run.unbumped (hrun : Run w (Roomy w d) (Network.start ids) n) :
    Run w (Unbumped w d) (Network.start ids) n := by
  apply hrun.mono
  intro n ev hroomy
  cases ev with
  | connect p => trivial
  | disconnect p dead dead' => trivial
  | deliver p => exact fun m hm => (hroomy m hm).keepsRoutes

/-- A route leads, neighbour by neighbour, to its destination. -/
theorem reachable_of_mem (hinj : Function.Injective ids) (hlinked : Linked w ids n)
    (hpaths : PathsIntact w ids n) (hquiet : n.Quiet) {t : ι}
    (htruthful : ∀ q, Truthful w ids (ids t) n q) {i : ι} {e : RouteTableEntry}
    (he : e ∈ n.table i) (hd : e.dest = ids t) : (n.links w).Reachable i t := by
  -- the neighbour's entry has a shorter path
  generalize hk : e.path.length = k
  induction k using Nat.strong_induction_on generalizing i e with
  | _ k ih =>
    have hadj := adj_of_mem hlinked hpaths he
    obtain ⟨x, hknows, hroute⟩ := knows_of_mem hpaths hquiet htruthful he hd
    have hdest : x.dest = ids t := by
      rw [← hd, hroute, Router.extend_dest]
    rcases Router.knows_iff.mp hknows with rfl | ⟨f, hf, rfl⟩
    · rw [hlinked.id_eq] at hdest
      rw [← hinj hdest]
      exact hadj.reachable
    · have hlt : f.path.length < k := by
        rw [← hk, hroute, Router.extend_path, List.length_cons]
        exact Nat.lt_succ_self _
      exact hadj.reachable.trans (ih _ hlt hf hdest rfl)

/-- In a silent network there is a route where there is a way. -/
theorem reaches_iff_reachable (hinj : Function.Injective ids) {a t : ι}
    (hrun : Run w (Roomy w (ids t)) (Network.start ids) n) (hquiet : n.Quiet) (hne : a ≠ t) :
    (n.routers a).Reaches (ids t) ↔ (n.links w).Reachable a t := by
  constructor
  · rintro ⟨e, he, hd⟩
    exact reachable_of_mem hinj hrun.linked hrun.pathsIntact hquiet hrun.unbumped.truthful he hd
  · intro hreach
    obtain ⟨p, hp⟩ := hreach.exists_isPath
    obtain ⟨x, hd, -, hknows⟩ :=
      exists_knows hinj hrun.linked (hrun.completeLinks hinj) hquiet p hp
    rcases Router.knows_iff.mp hknows with rfl | ⟨e, he, rfl⟩
    · rw [hrun.linked.id_eq] at hd
      exact absurd (hinj hd) hne
    · exact ⟨e, he, hd⟩

/-- **The signals tell who is joined.** Through connections that are set up and broken in any
order, the signals of a router about another one alternate, starting with reachable; and when the
network is silent the last one tells whether the two are joined, where no delivered message ever
brought a fourth route and no two routers have more than one connection. -/
theorem signals_mirror_links (hinj : Function.Injective ids) {a t : ι}
    (hrun : Run w (Roomy w (ids t)) (Network.start ids) n) (hquiet : n.Quiet) (hne : a ≠ t) :
    Mirrors ((n.routers a).signalsFor (ids t)) ((n.links w).Reachable a t) :=
  (hrun.announced a (ids t)).keep (reaches_iff_reachable hinj hrun hquiet hne)

/-- Of the broken triangle: the other way round is left. -/
theorem signals_mirror_links_brokenTriangle :
    Mirrors ((brokenTriangle.routers 0).signalsFor (![1, 2, 3] 1))
      ((brokenTriangle.links triangle).Reachable 0 1) := by
  have hinj : Function.Injective ![(1 : UInt32), 2, 3] := by decide +kernel
  exact signals_mirror_links (a := 0) (t := 1) hinj brokenTriangle_run (by decide +kernel)
    (by decide)

end Network

end Synergy
