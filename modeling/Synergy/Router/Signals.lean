import Synergy.Lib.Alternation
import Synergy.Router.Calls

/-!
# The reachability signals mirror the table

Three operations emit them by three rules: the first route to a destination, the affected
destinations of a revocation, and those of a lost connection. For each destination the log
stays a mirror (`Mirrors`) of "there is a route to it".
-/

set_option autoImplicit false

namespace Synergy

open Lib

/-- What a signal says about `d`, if anything: `true` is reachable. -/
def NodeSignal.about (d : UInt32) : NodeSignal → Option Bool
  | .reachable n => if n = d then some true else none
  | .unreachable n => if n = d then some false else none

namespace Router

/-- The signals about `d`, oldest first. -/
def signalsFor (r : Router) (d : UInt32) : List Bool := r.signals.filterMap (NodeSignal.about d)

def Reaches (r : Router) (d : UInt32) : Prop := ∃ e ∈ r.routeTable, e.dest = d

def SignalsMirror (r : Router) : Prop := ∀ d, Mirrors (r.signalsFor d) (r.Reaches d)

/-! ## Reachable -/

theorem signalsFor_install (s : AdvertLoop) (entry : RouteTableEntry) (t : RouteTable)
    (d : UInt32) : (s.install entry t).router.signalsFor d = s.router.signalsFor d ++
      if s.router.routeTable.newDestination entry ∧ entry.dest = d then [true] else [] := by
  simp only [signalsFor, AdvertLoop.install, List.filterMap_append]
  by_cases hn : s.router.routeTable.newDestination entry <;> by_cases hd : entry.dest = d <;>
    simp [hn, hd, NodeSignal.about]

theorem not_reaches_of_newDestination {r : Router} {entry : RouteTableEntry}
    (h : r.routeTable.newDestination entry) : ¬r.Reaches entry.dest := by
  rintro ⟨e, he, hd⟩
  have hmem : e ∈ r.routeTable.routesTo entry.dest := RouteTable.mem_routesTo.mpr ⟨he, hd⟩
  rw [RouteTable.newDestination_iff.mp h] at hmem
  simp at hmem

theorem reaches_of_not_newDestination {r : Router} {entry : RouteTableEntry}
    (h : ¬r.routeTable.newDestination entry) : r.Reaches entry.dest := by
  obtain ⟨e, he⟩ := List.exists_mem_of_ne_nil _ fun hnil =>
    h (RouteTable.newDestination_iff.mpr hnil)
  exact ⟨e, (RouteTable.mem_routesTo.mp he).1, (RouteTable.mem_routesTo.mp he).2⟩

/-- The first route to a destination is signalled, and no other. -/
theorem signalsMirror_install {s : AdvertLoop} {entry : RouteTableEntry} {t : RouteTable}
    (hcase : RouteTable.IntegrateCase s.router.routeTable entry (t, true))
    (h : s.router.SignalsMirror) : (s.install entry t).router.SignalsMirror := by
  intro d
  have hiff : (s.install entry t).router.Reaches d ↔ s.router.Reaches d ∨ d = entry.dest :=
    RouteTable.hasRouteTo_integrate hcase d
  rw [signalsFor_install]
  split
  · rename_i hnew
    obtain ⟨hnew, rfl⟩ := hnew
    exact (h entry.dest).rise (not_reaches_of_newDestination hnew) (hiff.mpr (Or.inr rfl))
  · rename_i hold
    rw [List.append_nil]
    refine (h d).keep ⟨fun hr => hiff.mpr (Or.inl hr), fun hr => ?_⟩
    rcases hiff.mp hr with hr | rfl
    · exact hr
    · exact reaches_of_not_newDestination fun hn => hold ⟨hn, rfl⟩

theorem signalsMirror_advertLoop {r : Router} (h : r.SignalsMirror) (sender : UInt32)
    (source : Connection) (routes : List Route) :
    (r.advertLoop sender source routes).router.SignalsMirror := by
  induction routes using List.reverseRecOn with
  | nil => exact h
  | append_singleton routes route ih =>
    rw [advertLoop_concat]
    have hcase := installRoute_cases sender source (r.advertLoop sender source routes) route
    generalize installRoute sender source (r.advertLoop sender source routes) route = s' at hcase
    cases hcase with
    | skipped _ => exact ih
    | rejected _ _ => exact ih
    | installed _ t table => exact signalsMirror_install table ih

/-! ## Unreachable -/

theorem mem_unreachableDests {r : Router} {ds : List UInt32} {d : UInt32} :
    d ∈ ((ds.insertionSort (· ≤ ·)).dedup.filter fun d => !r.routeTable.hasRouteTo d) ↔
      d ∈ ds ∧ ¬r.Reaches d := by
  rw [List.mem_filter, List.mem_dedup, (List.perm_insertionSort _ ds).mem_iff, Bool.not_eq_true',
    ← Bool.not_eq_true, RouteTable.hasRouteTo_iff]
  rfl

theorem signalsFor_signalUnreachable (r : Router) (ds : List UInt32) (d : UInt32)
    [Decidable (d ∈ ds ∧ ¬r.Reaches d)] : (r.signalUnreachable ds).signalsFor d =
      r.signalsFor d ++ if d ∈ ds ∧ ¬r.Reaches d then [false] else [] := by
  have hnodup : ((ds.insertionSort (· ≤ ·)).dedup.filter
      fun d => !r.routeTable.hasRouteTo d).Nodup := (List.nodup_dedup _).filter _
  have hmem := @mem_unreachableDests r ds d
  simp only [signalsFor, signalUnreachable, List.filterMap_append, List.filterMap_map]
  generalize ((ds.insertionSort (· ≤ ·)).dedup.filter fun d => !r.routeTable.hasRouteTo d)
    = l at hnodup hmem ⊢
  congr 1
  have hone : ∀ l : List UInt32, l.Nodup →
      l.filterMap (NodeSignal.about d ∘ .unreachable) = if d ∈ l then [false] else [] := by
    intro l hl
    induction l with
    | nil => rfl
    | cons x l ih =>
      obtain ⟨hx, hl⟩ := List.nodup_cons.mp hl
      by_cases hxd : x = d
      · subst hxd
        simp [NodeSignal.about, ih hl, hx]
      · simp [NodeSignal.about, ih hl, hxd, Ne.symm hxd]
  rw [hone l hnodup]
  simp only [hmem]

/-- What is signalled is what the removed entries alone used to reach. -/
theorem signalsMirror_signalUnreachable {r r' : Router} {ds : List UInt32}
    (h : r.SignalsMirror) (hsignals : r'.signals = r.signals)
    (hsub : ∀ e ∈ r'.routeTable, e ∈ r.routeTable)
    (hds : ∀ d, d ∈ ds ↔ ∃ e ∈ r.routeTable, e.dest = d ∧ e ∉ r'.routeTable) :
    (r'.signalUnreachable ds).SignalsMirror := by
  classical
  intro d
  have hlog : r'.signalsFor d = r.signalsFor d := by rw [signalsFor, hsignals, signalsFor]
  have hreach : (r'.signalUnreachable ds).Reaches d ↔ r'.Reaches d := Iff.rfl
  rw [signalsFor_signalUnreachable, hlog]
  split
  · rename_i hd
    obtain ⟨e, he, hed, -⟩ := (hds d).mp hd.1
    exact (h d).fall ⟨e, he, hed⟩ fun hr => hd.2 (hreach.mp hr)
  · rename_i hd
    rw [List.append_nil]
    refine (h d).keep ⟨fun ⟨e, he, hed⟩ => ?_, fun ⟨e, he, hed⟩ => ⟨e, hsub e he, hed⟩⟩
    by_cases hin : e ∈ r'.routeTable
    · exact ⟨e, hin, hed⟩
    · exact not_not.mp fun hn => hd ⟨(hds d).mpr ⟨e, he, hed, hin⟩, fun hr => hn (hreach.mpr hr)⟩

/-! ## Any call -/

theorem signals_prefix_advertLoop (r : Router) (sender : UInt32) (source : Connection)
    (routes : List Route) : r.signals <+: (r.advertLoop sender source routes).router.signals := by
  induction routes using List.reverseRecOn with
  | nil => exact List.prefix_rfl
  | append_singleton routes route ih =>
    rw [advertLoop_concat]
    have hcase := installRoute_cases sender source (r.advertLoop sender source routes) route
    generalize installRoute sender source (r.advertLoop sender source routes) route = s' at hcase
    cases hcase with
    | skipped _ => exact ih
    | rejected _ _ => exact ih
    | installed _ t table => exact ih.trans (List.prefix_append _ _)

/-- A call adds to the log and takes nothing back. -/
theorem signals_prefix_call (r : Router) (k : Call) : r.signals <+: (r.call k).signals := by
  cases k with
  | advertisement ra source =>
    simp only [call, integrateAdvertisement]
    split
    · exact List.prefix_rfl
    · exact signals_prefix_advertLoop r _ _ _
  | revocation rr source =>
    simp only [call, integrateRevocation]
    split
    · exact List.prefix_rfl
    · rw [signalUnreachable, ← (revocationLoop_spec r rr.sender rr.routes).signals]
      exact List.prefix_append _ _
  | remove c dead => exact List.prefix_append _ _

theorem signalsMirror_call {r : Router} (h : r.SignalsMirror) {k : Call} (hk : k.Allowed r) :
    (r.call k).SignalsMirror := by
  cases k with
  | advertisement ra source =>
    simp only [call, integrateAdvertisement]
    split
    · exact h
    · exact signalsMirror_advertLoop h _ _ _
  | revocation rr source =>
    simp only [call, integrateRevocation]
    split
    · exact h
    · have spec := revocationLoop_spec r rr.sender rr.routes
      refine signalsMirror_signalUnreachable h spec.signals
        (fun e he => ((spec.mem e).mp he).1) fun d => (spec.dests d).trans ?_
      refine exists_congr fun e => and_congr_right fun he => and_congr_right fun _ => ?_
      rw [spec.mem]
      exact ⟨fun hm hn => hn.2 hm, fun hn => not_not.mp fun hm => hn ⟨he, hm⟩⟩
  | remove c dead =>
    refine signalsMirror_signalUnreachable h rfl
      (fun e he => (UniqueIndex.mem_eraseIf.mp he).1) fun d => ?_
    have hdead : ∀ e, e ∈ dead ↔ e ∈ r.routeTable ∧ e.connection.id = c.id := fun e => by
      rw [hk.mem_iff, deadRoutes, List.mem_filter, decide_eq_true_eq, UniqueIndex.mem_def]
    simp only [List.mem_map, hdead, UniqueIndex.mem_eraseIf, decide_eq_false_iff_not, not_and,
      not_not]
    constructor
    · rintro ⟨e, ⟨he, hc⟩, rfl⟩
      exact ⟨e, he, rfl, fun _ => hc⟩
    · rintro ⟨e, he, rfl, hc⟩
      exact ⟨e, ⟨he, hc he⟩, rfl⟩

/-- **Reachability notifications mirror the table**: for every destination the two signals
    alternate, starting with reachable, and the last one tells whether there is a route. -/
theorem signals_mirror_routeTable (id : UInt32) (running : Bool)
    (connections : ConnectionTable) (calls : List Call)
    (h : Admissible (initial id running connections) calls) (d : UInt32) :
    Mirrors (((initial id running connections).run calls).signalsFor d)
      (∃ e ∈ ((initial id running connections).run calls).routeTable, e.dest = d) := by
  suffices hall : ((initial id running connections).run calls).SignalsMirror from hall d
  induction calls using List.reverseRecOn with
  | nil => exact fun d => Mirrors.nil fun ⟨e, he, _⟩ => UniqueIndex.not_mem_empty e he
  | append_singleton calls k ih =>
    rw [run_concat]
    obtain ⟨hcalls, hk⟩ := admissible_concat.mp h
    exact signalsMirror_call (ih hcalls) hk

/-- A neighbour comes and goes. -/
theorem signals_mirror_routeTable_neighbour :
    Mirrors (((initial 1 true .empty).run
      [.advertisement ⟨2, [⟨2, 0, []⟩]⟩ ⟨7, 20, 10⟩,
        .remove ⟨7, 20, 10⟩ [⟨⟨2, 1, [2]⟩, ⟨7, 20, 10⟩⟩]]).signalsFor 2)
      (∃ e ∈ ((initial 1 true .empty).run
        [.advertisement ⟨2, [⟨2, 0, []⟩]⟩ ⟨7, 20, 10⟩,
          .remove ⟨7, 20, 10⟩ [⟨⟨2, 1, [2]⟩, ⟨7, 20, 10⟩⟩]]).routeTable, e.dest = 2) := by
  refine signals_mirror_routeTable 1 true .empty _ ?_ 2
  exact ⟨trivial, by show List.Perm _ _; decide, trivial⟩

end Router

end Synergy
