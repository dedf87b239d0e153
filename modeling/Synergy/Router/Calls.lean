import Synergy.Router.Loops

/-!
# One router and whatever its peers send

Nothing is assumed of the peers here: a run is any sequence of `integrate` and `remove`
calls, with any messages on any connections. What the table keeps under all of that is
`WellFormed`, and where each of its entries comes from is `InstalledBy`.
-/

set_option autoImplicit false

namespace Synergy

open Lib

namespace Router

inductive Call
  | advertisement (ra : RouteAdvertisement) (source : Connection)
  | revocation (rr : RouteRevocation) (source : Connection)
  | remove (connection : Connection) (dead : List RouteTableEntry)

def call (r : Router) : Call → Router
  | .advertisement ra source => (r.integrateAdvertisement ra source).1
  | .revocation rr source => (r.integrateRevocation rr source).1
  | .remove c dead => (r.remove c dead).1

def run (r : Router) (calls : List Call) : Router := calls.foldl call r

@[simp] theorem run_nil (r : Router) : r.run [] = r := rfl

@[simp] theorem run_concat (r : Router) (calls : List Call) (k : Call) :
    r.run (calls ++ [k]) = (r.run calls).call k := by
  simp [run]

/-- `remove` enumerates the dead routes, in some order. -/
def Call.Allowed (r : Router) : Call → Prop
  | .remove c dead => dead.Perm (r.deadRoutes c)
  | _ => True

/-- Every call of the sequence is allowed when its turn comes. -/
def Admissible (r : Router) : List Call → Prop
  | [] => True
  | k :: calls => k.Allowed r ∧ Admissible (r.call k) calls

theorem admissible_concat {r : Router} {calls : List Call} {k : Call} :
    r.Admissible (calls ++ [k]) ↔ r.Admissible calls ∧ k.Allowed (r.run calls) := by
  induction calls generalizing r with
  | nil => simp [Admissible]
  | cons k' calls ih =>
    rw [List.cons_append, Admissible, ih, Admissible, and_assoc]
    rfl

/-! ## One call -/

@[simp] theorem signalUnreachable_id (r : Router) (ds : List UInt32) :
    (r.signalUnreachable ds).id = r.id := rfl

@[simp] theorem signalUnreachable_running (r : Router) (ds : List UInt32) :
    (r.signalUnreachable ds).running = r.running := rfl

@[simp] theorem signalUnreachable_connections (r : Router) (ds : List UInt32) :
    (r.signalUnreachable ds).connections = r.connections := rfl

@[simp] theorem signalUnreachable_routeTable (r : Router) (ds : List UInt32) :
    (r.signalUnreachable ds).routeTable = r.routeTable := rfl

@[simp] theorem signalUnreachable_assertsHeld (r : Router) (ds : List UInt32) :
    (r.signalUnreachable ds).assertsHeld = r.assertsHeld := rfl

@[simp] theorem id_call (r : Router) (k : Call) : (r.call k).id = r.id := by
  cases k with
  | advertisement ra source =>
    simp only [call, integrateAdvertisement]
    split
    · rfl
    · exact (advertLoop_spec r ra.sender source ra.routes).id
  | revocation rr source =>
    simp only [call, integrateRevocation]
    split
    · rfl
    · exact (revocationLoop_spec r rr.sender rr.routes).id
  | remove c dead => rfl

theorem assertsHeld_call (r : Router) (k : Call) :
    (r.call k).assertsHeld = r.assertsHeld := by
  cases k with
  | advertisement ra source =>
    simp only [call, integrateAdvertisement]
    split
    · rfl
    · exact (advertLoop_spec r ra.sender source ra.routes).asserts
  | revocation rr source =>
    simp only [call, integrateRevocation]
    split
    · rfl
    · exact (revocationLoop_spec r rr.sender rr.routes).asserts
  | remove c dead => rfl

/-- An entry that a call puts into the table. -/
def Call.Installs (r : Router) (e : RouteTableEntry) : Call → Prop
  | .advertisement ra source => ra.sender ≠ r.id ∧ e.connection = source ∧
      ∃ route ∈ ra.routes, ¬r.loops route ∧ e.toRoute = extend ra.sender route
  | _ => False

/-- Only advertisements add entries. -/
theorem mem_call {r : Router} {k : Call} {e : RouteTableEntry}
    (h : e ∈ (r.call k).routeTable) : e ∈ r.routeTable ∨ k.Installs r e := by
  cases k with
  | advertisement ra source =>
    simp only [call, integrateAdvertisement] at h
    split at h
    · exact Or.inl h
    · rename_i hs
      have spec := advertLoop_spec r ra.sender source ra.routes
      rcases spec.mem e h with h | ⟨h, hc⟩
      · exact Or.inl h
      · obtain ⟨route, hr, hl, he⟩ := spec.fresh _ h
        exact Or.inr ⟨hs, hc, route, hr, hl, he⟩
  | revocation rr source =>
    simp only [call, integrateRevocation] at h
    split at h
    · exact Or.inl h
    · exact Or.inl (((revocationLoop_spec r rr.sender rr.routes).mem e).mp h).1
  | remove c dead => exact Or.inl (UniqueIndex.mem_eraseIf.mp h).1

/-- Erasing entries does not lengthen a range. -/
theorem length_routesTo_of_subset {t t' : RouteTable} (h : ∀ e ∈ t', e ∈ t) (d : UInt32) :
    (t'.routesTo d).length ≤ (t.routesTo d).length := by
  have hnodup : (t'.routesTo d).Nodup := t'.nodup.filter _
  refine (hnodup.subperm fun e he => ?_).length_le
  obtain ⟨he, hd⟩ := RouteTable.mem_routesTo.mp he
  exact RouteTable.mem_routesTo.mpr ⟨h e he, hd⟩

theorem limit_call {r : Router} (k : Call) (d : UInt32)
    (h : (r.routeTable.routesTo d).length ≤ kDestRouteLimit) :
    ((r.call k).routeTable.routesTo d).length ≤ kDestRouteLimit := by
  cases k with
  | advertisement ra source =>
    simp only [call, integrateAdvertisement]
    split
    · exact h
    · exact (advertLoop_spec r ra.sender source ra.routes).limit d h
  | revocation rr source =>
    refine (length_routesTo_of_subset (fun e he => ?_) d).trans h
    exact (@mem_call r (.revocation rr source) e he).resolve_right not_false
  | remove c dead =>
    refine (length_routesTo_of_subset (fun e he => ?_) d).trans h
    exact (@mem_call r (.remove c dead) e he).resolve_right not_false

/-! ## Any number of calls -/

structure WellFormed (r : Router) : Prop where
  /-- No two entries with the same destination, cost and path. -/
  distinct : ∀ e ∈ r.routeTable, ∀ e' ∈ r.routeTable, e.toRoute = e'.toRoute → e = e'
  limit : ∀ d, (r.routeTable.routesTo d).length ≤ kDestRouteLimit
  dest_ne : ∀ e ∈ r.routeTable, e.dest ≠ r.id
  not_on_path : ∀ e ∈ r.routeTable, r.id ∉ e.path
  path_ne_nil : ∀ e ∈ r.routeTable, e.path ≠ []
  asserts : r.assertsHeld = true

theorem WellFormed.call {r : Router} (h : WellFormed r) (k : Call) : WellFormed (r.call k) where
  distinct _ he _ he' heq := UniqueIndex.eq_of_key_eq he he' (congrArg Route.key heq)
  limit d := limit_call k d (h.limit d)
  asserts := (assertsHeld_call r k).trans h.asserts
  dest_ne e he := by
    rw [id_call]
    rcases mem_call he with he | hi
    · exact h.dest_ne e he
    · cases k with
      | advertisement ra source =>
        obtain ⟨-, -, route, -, hl, heq⟩ := hi
        rw [heq]
        exact fun hd => hl (loops_iff.mpr (Or.inl hd))
      | _ => exact hi.elim
  not_on_path e he := by
    rw [id_call]
    rcases mem_call he with he | hi
    · exact h.not_on_path e he
    · cases k with
      | advertisement ra source =>
        obtain ⟨hs, -, route, -, hl, heq⟩ := hi
        rw [heq, extend_path, List.mem_cons, not_or]
        exact ⟨Ne.symm hs, fun hp => hl (loops_iff.mpr (Or.inr hp))⟩
      | _ => exact hi.elim
  path_ne_nil e he := by
    rcases mem_call he with he | hi
    · exact h.path_ne_nil e he
    · cases k with
      | advertisement ra source =>
        obtain ⟨-, -, route, -, -, heq⟩ := hi
        simp [heq]
      | _ => exact hi.elim

theorem wellFormed_initial (id : UInt32) (running : Bool) (connections : ConnectionTable) :
    WellFormed (initial id running connections) where
  distinct e he := absurd he (UniqueIndex.not_mem_empty e)
  limit _ := Nat.zero_le _
  dest_ne e he := absurd he (UniqueIndex.not_mem_empty e)
  not_on_path e he := absurd he (UniqueIndex.not_mem_empty e)
  path_ne_nil e he := absurd he (UniqueIndex.not_mem_empty e)
  asserts := rfl

/-- The call that put `e` where it is: an advertisement on `e`'s connection, from the router
    `e`'s path starts with, since which `e` has never left the table. -/
def InstalledBy (r₀ : Router) (calls : List Call) (e : RouteTableEntry) : Prop :=
  ∃ before ra source after, calls = before ++ Call.advertisement ra source :: after ∧
    e ∉ (r₀.run before).routeTable ∧
    (∀ mid, mid <+: after →
      e ∈ (r₀.run (before ++ Call.advertisement ra source :: mid)).routeTable) ∧
    e.connection = source ∧ e.path.head? = some ra.sender

theorem installedBy_run {r₀ : Router} (hempty : r₀.routeTable = .empty) (calls : List Call) :
    ∀ e ∈ (r₀.run calls).routeTable, InstalledBy r₀ calls e := by
  induction calls using List.reverseRecOn with
  | nil =>
    intro e he
    rw [run_nil, hempty] at he
    exact absurd he (UniqueIndex.not_mem_empty e)
  | append_singleton calls k ih =>
    intro e he
    by_cases hold : e ∈ (r₀.run calls).routeTable
    · -- it was there, so it is still there at the end of one more call
      obtain ⟨before, ra, source, after, rfl, hnew, hstays, hc, hp⟩ := ih e hold
      refine ⟨before, ra, source, after ++ [k], by simp, hnew, fun mid hmid => ?_, hc, hp⟩
      rcases List.prefix_concat_iff.mp hmid with rfl | hmid
      · rw [← List.cons_append, ← List.append_assoc]
        exact he
      · exact hstays mid hmid
    · rw [run_concat] at he
      rcases mem_call he with h | hi
      · exact absurd h hold
      · cases k with
        | advertisement ra source =>
          obtain ⟨-, hc, route, -, -, heq⟩ := hi
          refine ⟨calls, ra, source, [], rfl, hold, fun mid hmid => ?_, hc, by simp [heq]⟩
          rw [List.prefix_nil.mp hmid, run_concat]
          exact he
        | _ => exact hi.elim

/-- **The table stays well formed under arbitrary peers**, and every entry is accounted for
    by the advertisement that installed it. -/
theorem routeTable_invariant (id : UInt32) (running : Bool) (connections : ConnectionTable)
    (calls : List Call) :
    WellFormed ((initial id running connections).run calls) ∧
    ((initial id running connections).run calls).id = id ∧
    ∀ e ∈ ((initial id running connections).run calls).routeTable,
      InstalledBy (initial id running connections) calls e := by
  refine ⟨?_, ?_, installedBy_run rfl calls⟩
  · induction calls using List.reverseRecOn with
    | nil => exact wellFormed_initial id running connections
    | append_singleton calls k ih =>
      rw [run_concat]
      exact ih.call k
  · induction calls using List.reverseRecOn with
    | nil => rfl
    | append_singleton calls k ih => rw [run_concat, id_call, ih]

end Router

end Synergy
