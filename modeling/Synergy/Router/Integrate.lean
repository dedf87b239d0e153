import Synergy.Router.Router

/-!
# What installing one route does

`integrate(Route)` counts with ranks: `equal_range` before the insertion, the rank of the new
entry after it. `integrate_cases` is the same function without ranks, in its four cases, and
everything later is proved from it; no other proof unfolds `RouteTable.integrate`.
-/

set_option autoImplicit false

namespace Synergy

open Lib

namespace RouteTable

variable {t : RouteTable} {entry : RouteTableEntry}

/-! ## The ranks -/

theorem rankLower_eq (t : RouteTable) (entry : RouteTableEntry) :
    t.rankLower entry = (t.below (fun e => e.dest) entry.dest).length :=
  UniqueIndex.rank_lower RouteTableEntry.dest_le_of_key_le t entry.dest

theorem rankHigher_eq (t : RouteTable) (entry : RouteTableEntry) :
    t.rankHigher entry = t.rankLower entry + (t.routesTo entry.dest).length := by
  rw [rankLower_eq]
  exact UniqueIndex.rank_upper RouteTableEntry.dest_le_of_key_le t entry.dest

theorem newDestination_iff : t.newDestination entry ↔ t.routesTo entry.dest = [] := by
  simp only [newDestination, rankHigher_eq, decide_eq_true_eq, ← List.length_eq_zero_iff]
  omega

theorem routeLimitReached_iff :
    t.routeLimitReached entry ↔ (t.routesTo entry.dest).length = kDestRouteLimit := by
  rw [routeLimitReached, Bool.and_eq_true, Bool.not_eq_true', ← Bool.not_eq_true,
    newDestination_iff, decide_eq_true_eq, rankHigher_eq, ← List.length_eq_zero_iff,
    kDestRouteLimit]
  omega

theorem rankInstalled_eq (h : ¬t.hasKey entry.key) :
    t.rankInstalled entry = t.rankLower entry +
      ((t.routesTo entry.dest).filter fun e => e.key < entry.key).length := by
  rw [rankLower_eq]
  exact UniqueIndex.rank_inserted RouteTableEntry.dest_le_of_key_le h

/-- Neither assertion can fail, whatever the table holds. -/
theorem rankAssertions_hold (t : RouteTable) (entry : RouteTableEntry) :
    t.rankAssertions entry = true := by
  by_cases h : t.hasKey entry.key
  · simp [rankAssertions, h]
  · have hle : ((t.routesTo entry.dest).filter fun e => e.key < entry.key).length
        ≤ (t.routesTo entry.dest).length := List.length_filter_le _ _
    have hlo : t.rankLower entry ≤ t.rankInstalled entry := by
      rw [rankInstalled_eq h]
      exact Nat.le_add_right _ _
    have hhi : t.rankInstalled entry ≤ t.rankHigher entry := by
      rw [rankInstalled_eq h, rankHigher_eq]
      exact Nat.add_le_add_left hle _
    simp [rankAssertions, hlo, hhi]

/-- The new entry sorts before some entry of a full range: the branch that bumps. -/
theorem rankInstalled_lt_iff (h : ¬t.hasKey entry.key) :
    t.rankInstalled entry < t.rankHigher entry ↔
      ∃ e ∈ t.routesTo entry.dest, entry.key < e.key := by
  rw [rankInstalled_eq h, rankHigher_eq, Nat.add_lt_add_iff_left,
    List.length_filter_lt_length_iff_exists]
  constructor
  · rintro ⟨e, he, hk⟩
    refine ⟨e, he, lt_of_le_of_ne (by simpa using hk) ?_⟩
    exact (UniqueIndex.key_ne_of_not_hasKey h e (mem_routesTo.mp he).1).symm
  · rintro ⟨e, he, hk⟩
    exact ⟨e, he, by simpa using hk.le⟩

/-! ## The four cases -/

theorem routesTo_insert (h : ¬t.hasKey entry.key) (d : UInt32) :
    routesTo (t.insert entry) d = if entry.dest = d
      then (t.routesTo d).orderedInsert (fun x y => x.key ≤ y.key) entry else t.routesTo d :=
  UniqueIndex.range_insert h

theorem mem_insert (h : ¬t.hasKey entry.key) {x : RouteTableEntry} :
    x ∈ t.insert entry ↔ x = entry ∨ x ∈ t :=
  UniqueIndex.mem_insert h

/-- The results of `integrate(Route)`. -/
inductive IntegrateCase (t : RouteTable) (entry : RouteTableEntry) : RouteTable × Bool → Prop
  /-- A route with this destination, cost and path is there already. -/
  | duplicate (key : t.hasKey entry.key) : IntegrateCase t entry (t, false)
  /-- The limit is not reached. -/
  | room (key : ¬t.hasKey entry.key)
      (len : (t.routesTo entry.dest).length ≠ kDestRouteLimit) :
      IntegrateCase t entry (t.insert entry, true)
  /-- The limit is reached and the last route to the destination makes way. -/
  | bump (key : ¬t.hasKey entry.key) (len : (t.routesTo entry.dest).length = kDestRouteLimit)
      (last : RouteTableEntry) (mem : last ∈ t.routesTo entry.dest)
      (greatest : ∀ e ∈ t.routesTo entry.dest, e.key ≤ last.key) (lt : entry.key < last.key) :
      IntegrateCase t entry ((t.insert entry).eraseKey last.key, true)
  /-- The limit is reached and the new route is the worst of the four. -/
  | full (key : ¬t.hasKey entry.key) (len : (t.routesTo entry.dest).length = kDestRouteLimit)
      (worst : ∀ e ∈ t.routesTo entry.dest, e.key < entry.key) : IntegrateCase t entry (t, false)

private theorem eraseAt_rankInstalled (h : ¬t.hasKey entry.key) :
    (t.insert entry).eraseAt (t.rankInstalled entry) = t := by
  have hkey : (t.insert entry).hasKey entry.key :=
    UniqueIndex.hasKey_iff.mpr ⟨entry, (mem_insert h).mpr (Or.inl rfl), rfl⟩
  rw [rankInstalled, UniqueIndex.eraseAt_rankOf hkey, UniqueIndex.eraseKey_insert h]

theorem integrate_cases (t : RouteTable) (entry : RouteTableEntry) :
    IntegrateCase t entry (t.integrate entry) := by
  by_cases hkey : t.hasKey entry.key
  · have heq : t.integrate entry = (t, false) := by
      simp [integrate, hkey, UniqueIndex.insert_of_hasKey hkey]
    rw [heq]
    exact .duplicate hkey
  by_cases hlen : (t.routesTo entry.dest).length = kDestRouteLimit
  swap
  · have heq : t.integrate entry = (t.insert entry, true) := by
      have hlim : t.routeLimitReached entry = false :=
        Bool.eq_false_iff.mpr fun h => hlen (routeLimitReached_iff.mp h)
      simp [integrate, hkey, hlim]
    rw [heq]
    exact .room hkey hlen
  have hlim : t.routeLimitReached entry = true := routeLimitReached_iff.mpr hlen
  by_cases hlt : t.rankInstalled entry < t.rankHigher entry
  swap
  · have heq : t.integrate entry = (t, false) := by
      simp [integrate, hkey, hlim, hlt, eraseAt_rankInstalled hkey]
    rw [heq]
    refine .full hkey hlen fun e he => ?_
    refine lt_of_le_of_ne ?_ (UniqueIndex.key_ne_of_not_hasKey hkey e (mem_routesTo.mp he).1)
    exact not_lt.mp fun h => hlt ((rankInstalled_lt_iff hkey).mpr ⟨e, he, h⟩)
  · -- the last of the four entries of the range, in the table that already holds the new one
    have hmem : ∀ x, x ∈ routesTo (t.insert entry) entry.dest ↔
        x = entry ∨ x ∈ t.routesTo entry.dest := fun x => by
      simp only [mem_routesTo, mem_insert hkey]
      constructor
      · rintro ⟨rfl | hx, hd⟩
        · exact Or.inl rfl
        · exact Or.inr ⟨hx, hd⟩
      · rintro (rfl | ⟨hx, hd⟩)
        · exact ⟨Or.inl rfl, rfl⟩
        · exact ⟨Or.inr hx, hd⟩
    have hne : routesTo (t.insert entry) entry.dest ≠ [] :=
      List.ne_nil_of_mem ((hmem entry).mpr (Or.inl rfl))
    obtain ⟨last, hlast, hmax, hget⟩ :=
      UniqueIndex.exists_last RouteTableEntry.dest_le_of_key_le (t.insert entry) hne
    rw [← UniqueIndex.rank_upper RouteTableEntry.dest_le_of_key_le] at hget
    have heq : t.integrate entry = ((t.insert entry).eraseKey last.key, true) := by
      rw [← UniqueIndex.eraseAt_eq_eraseKey hget]
      simp [integrate, hkey, hlim, hlt]
    obtain ⟨e, he, hek⟩ := (rankInstalled_lt_iff hkey).mp hlt
    have hbelow : entry.key < last.key := hek.trans_le (hmax e ((hmem e).mpr (Or.inr he)))
    rw [heq]
    refine .bump hkey hlen last ?_ (fun x hx => hmax x ((hmem x).mpr (Or.inr hx))) hbelow
    rcases (hmem last).mp hlast with rfl | h
    · exact absurd hbelow (lt_irrefl _)
    · exact h

/-! ## What the cases have in common -/

theorem integrate_of_not_installed {t' : RouteTable} (h : IntegrateCase t entry (t', false)) :
    t' = t := by
  cases h <;> rfl

theorem mem_of_installed {t' : RouteTable} (h : IntegrateCase t entry (t', true)) :
    entry ∈ t' := by
  cases h with
  | room key _ => exact (mem_insert key).mpr (Or.inl rfl)
  | bump key _ last _ _ lt =>
    exact UniqueIndex.mem_eraseKey.mpr ⟨(mem_insert key).mpr (Or.inl rfl), lt.ne⟩

theorem mem_of_mem_integrate {t' : RouteTable} {b : Bool} (h : IntegrateCase t entry (t', b))
    {x : RouteTableEntry} (hx : x ∈ t') : x ∈ t ∨ (x = entry ∧ b = true) := by
  cases h with
  | duplicate _ => exact Or.inl hx
  | room key _ => exact ((mem_insert key).mp hx).symm.imp_right fun h => ⟨h, rfl⟩
  | bump key _ _ _ _ _ =>
    exact ((mem_insert key).mp (UniqueIndex.mem_eraseKey.mp hx).1).symm.imp_right
      fun h => ⟨h, rfl⟩
  | full _ _ _ => exact Or.inl hx

/-- Nothing leaves the table but a bumped route, and a bumped route leaves cheaper ones. -/
theorem cost_le_of_mem {t' : RouteTable} {b : Bool} (h : IntegrateCase t entry (t', b))
    {x : RouteTableEntry} (hx : x ∈ t) : ∃ y ∈ t', y.dest = x.dest ∧ y.cost ≤ x.cost := by
  cases h with
  | duplicate _ => exact ⟨x, hx, rfl, le_rfl⟩
  | room key _ => exact ⟨x, (mem_insert key).mpr (Or.inr hx), rfl, le_rfl⟩
  | full _ _ _ => exact ⟨x, hx, rfl, le_rfl⟩
  | bump key _ last mem _ lt =>
    by_cases hk : x.key = last.key
    · obtain rfl : x = last := UniqueIndex.eq_of_key_eq hx (mem_routesTo.mp mem).1 hk
      have hd : entry.dest = x.dest := (mem_routesTo.mp mem).2.symm
      exact ⟨entry, UniqueIndex.mem_eraseKey.mpr ⟨(mem_insert key).mpr (Or.inl rfl), lt.ne⟩,
        hd, Route.cost_le_of_key_le hd lt.le⟩
    · exact ⟨x, UniqueIndex.mem_eraseKey.mpr ⟨(mem_insert key).mpr (Or.inr hx), hk⟩,
        rfl, le_rfl⟩

/-- Installed or not, the table offers the destination at the new cost or less. -/
theorem cost_le_of_integrate {t' : RouteTable} {b : Bool} (h : IntegrateCase t entry (t', b)) :
    ∃ y ∈ t', y.dest = entry.dest ∧ y.cost ≤ entry.cost := by
  cases h with
  | duplicate key =>
    obtain ⟨y, hy, hk⟩ := UniqueIndex.hasKey_iff.mp key
    have he := RouteTableEntry.toRoute_eq_of_key_eq hk
    exact ⟨y, hy, congrArg Route.dest he, (congrArg Route.cost he).le⟩
  | room key len => exact ⟨entry, mem_of_installed (.room key len), rfl, le_rfl⟩
  | bump key len last mem greatest lt =>
    exact ⟨entry, mem_of_installed (.bump key len last mem greatest lt), rfl, le_rfl⟩
  | full _ len worst =>
    obtain ⟨y, hy⟩ := List.exists_mem_of_length_pos (l := t.routesTo entry.dest)
      (by rw [len]; decide)
    have hd := (mem_routesTo.mp hy).2
    exact ⟨y, (mem_routesTo.mp hy).1, hd, Route.cost_le_of_key_le hd (worst y hy).le⟩

theorem hasRouteTo_integrate {t' : RouteTable} {b : Bool} (h : IntegrateCase t entry (t', b))
    (d : UInt32) : (∃ x ∈ t', x.dest = d) ↔ (∃ x ∈ t, x.dest = d) ∨ d = entry.dest := by
  constructor
  · rintro ⟨x, hx, rfl⟩
    rcases mem_of_mem_integrate h hx with hx | ⟨rfl, -⟩
    · exact Or.inl ⟨x, hx, rfl⟩
    · exact Or.inr rfl
  · rintro (⟨x, hx, rfl⟩ | rfl)
    · obtain ⟨y, hy, hd, -⟩ := cost_le_of_mem h hx
      exact ⟨y, hy, hd⟩
    · obtain ⟨y, hy, hd, -⟩ := cost_le_of_integrate h
      exact ⟨y, hy, hd⟩

/-- The limit holds of every destination, if it did before. -/
theorem length_routesTo_integrate {t' : RouteTable} {b : Bool}
    (h : IntegrateCase t entry (t', b)) (d : UInt32)
    (hle : (t.routesTo d).length ≤ kDestRouteLimit) :
    (t'.routesTo d).length ≤ kDestRouteLimit := by
  cases h with
  | duplicate _ => exact hle
  | full _ _ _ => exact hle
  | room key len =>
    rw [routesTo_insert key]
    split
    · rename_i hd
      subst hd
      rw [List.orderedInsert_length]
      omega
    · exact hle
  | bump key len last mem _ lt =>
    by_cases hd : entry.dest = d
    · -- one in, one out
      subst hd
      have hin : last ∈ routesTo (t.insert entry) entry.dest := by
        rw [routesTo_insert key, if_pos rfl]
        exact (List.mem_orderedInsert _).mpr (Or.inr mem)
      have hlt : (routesTo ((t.insert entry).eraseKey last.key) entry.dest).length
          < (routesTo (t.insert entry) entry.dest).length :=
        UniqueIndex.length_range_eraseKey_lt hin
      rw [routesTo_insert key, if_pos rfl, List.orderedInsert_length] at hlt
      omega
    · have hsub : (routesTo ((t.insert entry).eraseKey last.key) d).length
          ≤ (routesTo (t.insert entry) d).length :=
        UniqueIndex.length_range_eraseKey_le _ _ _
      rw [routesTo_insert key, if_neg hd] at hsub
      exact hsub.trans hle

end RouteTable

end Synergy
