import Synergy.Screens.ConfigGen

/-!
# What the links between screens lead to

Screens of a layout do not overlap, so those that a straight line crosses follow one another along
it, and the order by which a direction sorts them is that of their distances. What is drawn last for
a coordinate is the nearest screen, and it is stored there unless its id is zero.
-/

set_option autoImplicit false

namespace Synergy

open Lib

/-- Screens that do not overlap. -/
def Screen.Apart (a b : Screen) : Prop :=
  a.x + a.width ≤ b.x ∨ b.x + b.width ≤ a.x ∨ a.y + a.height ≤ b.y ∨ b.y + b.height ≤ a.y

/-- Screens that do not overlap, with distinct ids and positive sizes. -/
structure Layout where
  screens : List Screen
  distinct : (screens.map Screen.id).Nodup
  positive : ∀ s ∈ screens, 0 < s.width ∧ 0 < s.height
  apart : screens.Pairwise Screen.Apart

/-- A coordinate within a screen, across a direction. -/
def Aspect.Spans (a : Aspect) (t : Int) : Prop :=
  a.start ≤ t ∧ t ≤ a.stop

/-- A screen that lies in a direction of another one, and whose extent contains the coordinate. -/
structure Candidate (screens : List Screen) (d : Direction) (s : Screen) (t : Int)
    (u : Screen) : Prop where
  mem : u ∈ screens
  beyond : (s.aspect d).far ≤ (u.aspect d).near
  spans : (u.aspect d).Spans t

/-- The closest of them. -/
structure IsNearest (screens : List Screen) (d : Direction) (s : Screen) (t : Int)
    (u : Screen) : Prop extends Candidate screens d s t u where
  nearest : ∀ v, Candidate screens d s t v → (u.aspect d).near ≤ (v.aspect d).near

/-- No screen begins or ends there. -/
def OffBoundary (screens : List Screen) (d : Direction) (t : Int) : Prop :=
  ∀ u ∈ screens, t ≠ (u.aspect d).start ∧ t ≠ (u.aspect d).stop

/-- The edge leads to the nearest screen, and nowhere if there is none. -/
def LinksNearest (screens : List Screen) (edge : ScreenEdge) (d : Direction) (s : Screen)
    (t : Int) : Prop :=
  (∀ u ∈ screens, edge.find t = some u.id ↔ IsNearest screens d s t u) ∧
    (edge.find t = none ↔ ∀ u, ¬Candidate screens d s t u)

/-- The edge of a screen, as `linkScreens` has made it. -/
def Layout.edge (layout : Layout) (sort : SortAlgorithm ScreenLinkMap)
    (i : Fin layout.screens.length) (d : Direction) : ScreenEdge :=
  ((linkScreens sort layout.screens).get
    (i.cast (linkScreens_length sort layout.screens).symm)).edges d

def Direction.opposite : Direction → Direction
  | .up => .down
  | .right => .left
  | .down => .up
  | .left => .right

/-! ## Screens that a straight line crosses -/

section Crossing

variable {a b : Screen} {d : Direction} {t : Int}

theorem Screen.Apart.symm (h : a.Apart b) : b.Apart a := by
  unfold Screen.Apart at *
  omega

theorem Screen.Apart.along (h : a.Apart b)
    (ha : (a.aspect d).start < t ∧ t < (a.aspect d).stop)
    (hb : (b.aspect d).start < t ∧ t < (b.aspect d).stop) :
    (a.aspect d).far ≤ (b.aspect d).near ∨ (b.aspect d).far ≤ (a.aspect d).near := by
  unfold Screen.Apart at h
  cases d <;> simp only [Screen.aspect] at * <;> omega

theorem Screen.near_lt_far (h : 0 < a.width ∧ 0 < a.height) :
    (a.aspect d).near < (a.aspect d).far := by
  cases d <;> simp only [Screen.aspect] <;> omega

theorem Direction.lt_asymm (d : Direction) : ∀ a b, d.lt a b = true → d.lt b a = false := by
  intro a b h
  cases d <;> simp only [Direction.lt, decide_eq_true_eq, decide_eq_false_iff_not] at * <;> omega

theorem Direction.not_lt_trans (d : Direction) :
    ∀ a b c, d.lt a b = false → d.lt b c = false → d.lt a c = false := by
  intro a b c hab hbc
  cases d <;> simp only [Direction.lt, decide_eq_false_iff_not] at * <;> omega

/-- What lies behind a screen is drawn before it. -/
theorem Direction.lt_of_behind (ha : 0 < a.width ∧ 0 < a.height) (hb : 0 < b.width ∧ 0 < b.height)
    (h : (b.aspect d).far ≤ (a.aspect d).near) : d.lt a b = true := by
  cases d <;> simp only [Direction.lt, Screen.aspect, decide_eq_true_eq] at * <;> omega

theorem Direction.opposite_opposite : d.opposite.opposite = d := by
  cases d <;> rfl

@[simp] theorem Screen.aspect_opposite_start :
    (a.aspect d.opposite).start = (a.aspect d).start := by
  cases d <;> rfl

@[simp] theorem Screen.aspect_opposite_stop : (a.aspect d.opposite).stop = (a.aspect d).stop := by
  cases d <;> rfl

@[simp] theorem Screen.aspect_opposite_near : (a.aspect d.opposite).near = -(a.aspect d).far := by
  cases d <;> simp [Screen.aspect, Direction.opposite]

@[simp] theorem Screen.aspect_opposite_far : (a.aspect d.opposite).far = -(a.aspect d).near := by
  cases d <;> simp [Screen.aspect, Direction.opposite]

end Crossing

theorem mem_linkMaps {screens : List Screen} {target : ScreenLinkMap} :
    target ∈ linkMaps screens ↔ screens[target.address]? = some target.screen := by
  unfold linkMaps
  constructor
  · intro h
    obtain ⟨⟨s, k⟩, hp, rfl⟩ := List.mem_map.mp h
    exact List.mk_mem_zipIdx_iff_getElem?.mp hp
  · intro h
    exact List.mem_map.mpr
      ⟨(target.screen, target.address), List.mk_mem_zipIdx_iff_getElem?.mpr h, rfl⟩

namespace Layout

variable {layout : Layout} {sort : SortAlgorithm ScreenLinkMap} {d : Direction} {t : Int}

theorem edge_eq (i : Fin layout.screens.length) : layout.edge sort i d =
    edgeMap sort (linkMaps layout.screens) d ⟨layout.screens[i], i⟩ := by
  unfold Layout.edge
  rw [List.get_eq_getElem, getElem_linkScreens, edges_linkEdges]
  rfl

theorem mem_screens {target : ScreenLinkMap} (h : target ∈ linkMaps layout.screens) :
    target.screen ∈ layout.screens :=
  List.mem_of_getElem? (mem_linkMaps.mp h)

theorem eq_of_screen_eq {a b : ScreenLinkMap} (ha : a ∈ linkMaps layout.screens)
    (hb : b ∈ linkMaps layout.screens) (h : a.screen = b.screen) : a = b := by
  have hadd : a.address = b.address :=
    (List.getElem?_inj (List.getElem?_eq_some_iff.mp (mem_linkMaps.mp ha)).1
      (List.Nodup.of_map _ layout.distinct)).mp
      ((mem_linkMaps.mp ha).trans (h ▸ (mem_linkMaps.mp hb).symm))
  cases a
  cases b
  cases h
  cases hadd
  rfl

theorem apart_of_ne {u v : Screen} (hu : u ∈ layout.screens) (hv : v ∈ layout.screens)
    (hne : u ≠ v) : u.Apart v := by
  obtain ⟨i, hi, rfl⟩ := List.getElem_of_mem hu
  obtain ⟨j, hj, rfl⟩ := List.getElem_of_mem hv
  have hpair := List.pairwise_iff_getElem.mp layout.apart
  rcases Nat.lt_trichotomy i j with hlt | heq | hgt
  · exact hpair _ _ hi hj hlt
  · subst heq
    exact absurd rfl hne
  · exact (hpair _ _ hj hi hgt).symm

theorem strictly_spans (hoff : OffBoundary layout.screens d t) {u : Screen}
    (hu : u ∈ layout.screens) (h : (u.aspect d).Spans t) :
    (u.aspect d).start < t ∧ t < (u.aspect d).stop := by
  have hne := hoff u hu
  unfold Aspect.Spans at h
  omega

/-- Of two screens that the line crosses one lies behind the other. -/
theorem along (hoff : OffBoundary layout.screens d t) {u v : Screen} (hu : u ∈ layout.screens)
    (hv : v ∈ layout.screens) (hne : u ≠ v) (huspans : (u.aspect d).Spans t)
    (hvspans : (v.aspect d).Spans t) :
    (u.aspect d).far ≤ (v.aspect d).near ∨ (v.aspect d).far ≤ (u.aspect d).near :=
  (apart_of_ne hu hv hne).along (strictly_spans hoff hu huspans) (strictly_spans hoff hv hvspans)

/-- A target that is kept and whose extent contains the coordinate lies in the direction. -/
theorem kept_iff (hoff : OffBoundary layout.screens d t) {source target : ScreenLinkMap}
    (hs : source ∈ linkMaps layout.screens) (hspans : (source.screen.aspect d).Spans t)
    (ht : target ∈ linkMaps layout.screens) (htspans : (target.screen.aspect d).Spans t) :
    source.Kept d target ↔ (source.screen.aspect d).far ≤ (target.screen.aspect d).near := by
  have hin := strictly_spans hoff (mem_screens hs) hspans
  have htin := strictly_spans hoff (mem_screens ht) htspans
  have hpos := Screen.near_lt_far (d := d) (layout.positive _ (mem_screens hs))
  have htpos := Screen.near_lt_far (d := d) (layout.positive _ (mem_screens ht))
  constructor
  · intro h
    obtain ⟨hne, hnear, -, -⟩ := h
    have hscreens : source.screen ≠ target.screen := fun heq =>
      hne (congrArg ScreenLinkMap.address (eq_of_screen_eq hs ht heq)).symm
    rcases along hoff (mem_screens hs) (mem_screens ht) hscreens hspans htspans
      with hbeyond | hbefore
    · exact hbeyond
    · omega
  · intro h
    refine ⟨?_, by omega, by omega, by omega⟩
    intro heq
    have hsame : target.screen = source.screen :=
      Option.some.inj ((mem_linkMaps.mp ht).symm.trans (heq ▸ mem_linkMaps.mp hs))
    rw [hsame] at h
    omega

/-- Nothing is drawn outside the extent of the source. -/
theorem find_edge_of_not_spans (i : Fin layout.screens.length)
    (h : ¬((layout.screens[i]).aspect d).Spans t) : (layout.edge sort i d).find t = none := by
  rw [edge_eq]
  refine IntervalMap.find_paint_of_not_covers fun target _ hcovers => h ?_
  exact ⟨(max_le_iff.mp hcovers.1).1, (le_min_iff.mp hcovers.2).1⟩

theorem mem_linkMaps_getElem (i : Fin layout.screens.length) :
    (⟨layout.screens[i], i⟩ : ScreenLinkMap) ∈ linkMaps layout.screens :=
  mem_linkMaps.mpr (List.getElem?_eq_getElem i.isLt)

theorem find_edge_of_no_candidate (hoff : OffBoundary layout.screens d t)
    (i : Fin layout.screens.length)
    (h : ∀ u, ¬Candidate layout.screens d layout.screens[i] t u) :
    (layout.edge sort i d).find t = none := by
  rw [edge_eq]
  refine IntervalMap.find_paint_of_not_covers fun target htarget hcovers => ?_
  obtain ⟨hmem, hkept⟩ := List.mem_filter.mp ((sort.perm _ _).mem_iff.mp htarget)
  have hs := (max_le_iff.mp hcovers.1)
  have ht := (le_min_iff.mp hcovers.2)
  refine h target.screen ⟨mem_screens hmem, ?_, hs.2, ht.2⟩
  exact (kept_iff hoff (mem_linkMaps_getElem i) ⟨hs.1, ht.1⟩ hmem ⟨hs.2, ht.2⟩).mp
    (of_decide_eq_true hkept)

/-- What is drawn last for a coordinate is the nearest screen. -/
theorem find_edge_of_nearest (hoff : OffBoundary layout.screens d t)
    (i : Fin layout.screens.length) (hspans : ((layout.screens[i]).aspect d).Spans t) {u : Screen}
    (hu : IsNearest layout.screens d layout.screens[i] t u) :
    (layout.edge sort i d).find t = IntervalMap.stored u.id := by
  obtain ⟨j, hj, hju⟩ := List.getElem_of_mem hu.mem
  have hb : (⟨u, j⟩ : ScreenLinkMap) ∈ linkMaps layout.screens :=
    mem_linkMaps.mpr (List.getElem?_eq_some_iff.mpr ⟨hj, hju⟩)
  have hs := mem_linkMaps_getElem i
  have hkept := (kept_iff hoff hs hspans hb hu.spans).mpr hu.beyond
  have hsorted := sort.sorted (fun t1 t2 => d.lt t1.screen t2.screen)
    ((linkMaps layout.screens).filter fun target =>
      ScreenLinkMap.Kept d ⟨layout.screens[i], i⟩ target)
    (fun a b => d.lt_asymm _ _) fun a b c => d.not_lt_trans _ _ _
  rw [edge_eq]
  unfold edgeMap linkTargets
  refine IntervalMap.find_paint_of_last (κ := Int) (α := Int) (b := ⟨u, j⟩) hsorted ?_ ?_ ?_
  · exact (sort.perm _ _).mem_iff.mpr (List.mem_filter.mpr ⟨hb, decide_eq_true hkept⟩)
  · exact ⟨max_le hspans.1 hu.spans.1, le_min hspans.2 hu.spans.2⟩
  · intro c hc hcovers hne
    obtain ⟨hcmem, hckept⟩ := List.mem_filter.mp ((sort.perm _ _).mem_iff.mp hc)
    have hcspans : (c.screen.aspect d).Spans t :=
      ⟨(max_le_iff.mp hcovers.1).2, (le_min_iff.mp hcovers.2).2⟩
    have hbeyond := (kept_iff hoff hs hspans hcmem hcspans).mp (of_decide_eq_true hckept)
    have hnear := hu.nearest c.screen ⟨mem_screens hcmem, hbeyond, hcspans⟩
    have hscreens : c.screen ≠ u := fun heq => hne (eq_of_screen_eq hcmem hb heq)
    have hcpos := layout.positive _ (mem_screens hcmem)
    refine Direction.lt_of_behind hcpos (layout.positive _ hu.mem) ?_
    have hfar := Screen.near_lt_far (d := d) hcpos
    rcases along hoff (mem_screens hcmem) hu.mem hscreens hcspans hu.spans with hbefore | hbehind
    · omega
    · exact hbehind

/-- Where there is a candidate, one of them is the nearest. -/
theorem exists_isNearest {screens : List Screen} {s u : Screen}
    (h : Candidate screens d s t u) : ∃ v, IsNearest screens d s t v := by
  classical
  let candidates := screens.toFinset.filter fun v => Candidate screens d s t v
  have hmem : ∀ {v}, Candidate screens d s t v → v ∈ candidates := fun hv =>
    Finset.mem_filter.mpr ⟨List.mem_toFinset.mpr hv.mem, hv⟩
  obtain ⟨v, hv, hmin⟩ :=
    candidates.exists_min_image (fun v => (v.aspect d).near) ⟨u, hmem h⟩
  exact ⟨v, (Finset.mem_filter.mp hv).2, fun w hw => hmin w (hmem hw)⟩

theorem eq_of_id_eq {u v : Screen} (hu : u ∈ layout.screens) (hv : v ∈ layout.screens)
    (h : u.id = v.id) : u = v :=
  List.inj_on_of_nodup_map layout.distinct hu hv h

/-- What the map of an edge holds at a coordinate. -/
theorem find_edge_eq_some_iff (hoff : OffBoundary layout.screens d t)
    (i : Fin layout.screens.length) {id : Int} : (layout.edge sort i d).find t = some id ↔
      ((layout.screens[i]).aspect d).Spans t ∧
        ∃ u, IsNearest layout.screens d layout.screens[i] t u ∧ u.id = id ∧ id ≠ 0 := by
  constructor
  · intro h
    have hspans : ((layout.screens[i]).aspect d).Spans t := by
      by_contra hnot
      simp [find_edge_of_not_spans i hnot] at h
    refine ⟨hspans, ?_⟩
    by_cases hcandidate : ∃ u, Candidate layout.screens d layout.screens[i] t u
    · obtain ⟨u, hu⟩ := hcandidate
      obtain ⟨v, hv⟩ := exists_isNearest hu
      rw [find_edge_of_nearest hoff i hspans hv, IntervalMap.stored] at h
      split at h
      · cases h
      · rename_i hzero
        cases h
        exact ⟨v, hv, rfl, hzero⟩
    · rw [find_edge_of_no_candidate hoff i (not_exists.mp hcandidate)] at h
      cases h
  · rintro ⟨hspans, u, hu, rfl, hzero⟩
    rw [find_edge_of_nearest hoff i hspans hu, IntervalMap.stored, if_neg hzero]

theorem find_edge_eq_id_iff (hoff : OffBoundary layout.screens d t)
    (i : Fin layout.screens.length) {u : Screen} (hu : u ∈ layout.screens) :
    (layout.edge sort i d).find t = some u.id ↔ ((layout.screens[i]).aspect d).Spans t ∧
      IsNearest layout.screens d layout.screens[i] t u ∧ u.id ≠ 0 := by
  rw [find_edge_eq_some_iff hoff i]
  constructor
  · rintro ⟨hspans, v, hv, hid, hzero⟩
    exact ⟨hspans, eq_of_id_eq hv.mem hu hid ▸ hv, hzero⟩
  · rintro ⟨hspans, hnearest, hzero⟩
    exact ⟨hspans, u, hnearest, rfl, hzero⟩

/-- If a screen is the nearest to another one, so is that one to it, the other way. -/
theorem isNearest_opposite (hoff : OffBoundary layout.screens d t) {s u : Screen}
    (hs : s ∈ layout.screens) (hspans : (s.aspect d).Spans t)
    (hu : IsNearest layout.screens d s t u) : IsNearest layout.screens d.opposite u t s := by
  refine ⟨⟨hs, ?_, by simpa [Aspect.Spans] using hspans⟩, ?_⟩
  · have hbeyond := hu.beyond
    simp only [Screen.aspect_opposite_far, Screen.aspect_opposite_near]
    omega
  · intro v hv
    have hvbeyond := hv.beyond
    have hvspans : (v.aspect d).Spans t := by simpa [Aspect.Spans] using hv.spans
    simp only [Screen.aspect_opposite_far, Screen.aspect_opposite_near] at hvbeyond ⊢
    have hvpos := Screen.near_lt_far (d := d) (layout.positive v hv.mem)
    have hspos := Screen.near_lt_far (d := d) (layout.positive s hs)
    by_cases heq : v = s
    · rw [heq]
    · rcases along hoff hv.mem hs heq hvspans hspans with hbefore | hbetween
      · omega
      · have hnearest := hu.nearest v ⟨hv.mem, hbetween, hvspans⟩
        omega

/-- The edge of a screen leads to the nearest screen just where that one's id is not zero. -/
theorem linksNearest_iff (layout : Layout) (sort : SortAlgorithm ScreenLinkMap)
    (i : Fin layout.screens.length) (d : Direction) (t : Int)
    (hwithin : ((layout.screens[i]).aspect d).start < t ∧ t < ((layout.screens[i]).aspect d).stop)
    (hoff : OffBoundary layout.screens d t) :
    LinksNearest layout.screens (layout.edge sort i d) d layout.screens[i] t ↔
      ∀ u, IsNearest layout.screens d layout.screens[i] t u → u.id ≠ 0 := by
  have hspans : ((layout.screens[i]).aspect d).Spans t := ⟨hwithin.1.le, hwithin.2.le⟩
  constructor
  · rintro ⟨hsome, -⟩ u hu
    exact ((find_edge_eq_id_iff hoff i hu.mem).mp ((hsome u hu.mem).mpr hu)).2.2
  · intro hids
    refine ⟨fun u humem => ⟨fun hfind => ?_, fun hu => ?_⟩, fun hnone u hu => ?_, fun hnone => ?_⟩
    · exact ((find_edge_eq_id_iff hoff i humem).mp hfind).2.1
    · exact (find_edge_eq_id_iff hoff i humem).mpr ⟨hspans, hu, hids u hu⟩
    · obtain ⟨v, hv⟩ := exists_isNearest hu
      have hfind : (layout.edge sort i d).find t = some v.id :=
        (find_edge_eq_id_iff hoff i hv.mem).mpr ⟨hspans, hv, hids v hv⟩
      simp [hnone] at hfind
    · exact find_edge_of_no_candidate hoff i hnone

/-- Three screens in a row. -/
def inARow : Layout where
  screens := [{ id := 1, width := 8, height := 8 }, { id := 2, x := 8, width := 8, height := 8 },
    { id := 3, x := 16, width := 8, height := 8 }]
  distinct := by decide
  positive := by decide
  apart := by simp [Screen.Apart]

theorem inARow_linksNearest : LinksNearest inARow.screens
    (inARow.edge (.stable _) ⟨0, by decide⟩ .right) .right inARow.screens[0] 3 :=
  (linksNearest_iff inARow (.stable _) ⟨0, by decide⟩ .right 3 (by decide) (by
    unfold OffBoundary
    decide)).mpr fun u hu => by
      have hids : ∀ u ∈ inARow.screens, u.id ≠ 0 := by decide
      exact hids u hu.mem

/-- Two screens, of which the first has the id that a screen has by default. -/
def besideDefault : Layout where
  screens := [{ id := 0, width := 8, height := 8 }, { id := 1, x := 8, width := 8, height := 8 }]
  distinct := by decide
  positive := by decide
  apart := by simp [Screen.Apart]

theorem besideDefault_offBoundary : OffBoundary besideDefault.screens .left 3 := by
  unfold OffBoundary
  decide

theorem besideDefault_isNearest : IsNearest besideDefault.screens .left besideDefault.screens[1] 3
    besideDefault.screens[0] := by
  refine ⟨⟨by decide, by decide, ⟨by decide, by decide⟩⟩, fun v hv => ?_⟩
  have hnear : ∀ v ∈ besideDefault.screens,
      (besideDefault.screens[1].aspect .left).far ≤ (v.aspect .left).near →
        (besideDefault.screens[0].aspect .left).near ≤ (v.aspect .left).near := by decide
  exact hnear v hv.mem hv.beyond

theorem besideDefault_not_linksNearest :
    ((besideDefault.screens[1].aspect .left).start < 3 ∧
      3 < (besideDefault.screens[1].aspect .left).stop) ∧
    OffBoundary besideDefault.screens .left 3 ∧
    ¬LinksNearest besideDefault.screens (besideDefault.edge (.stable _) ⟨1, by decide⟩ .left) .left
      besideDefault.screens[1] 3 := by
  refine ⟨⟨by decide, by decide⟩, besideDefault_offBoundary, ?_⟩
  rintro ⟨hsome, -⟩
  have hfind := (hsome besideDefault.screens[0] (by decide)).mpr besideDefault_isNearest
  exact ((find_edge_eq_id_iff besideDefault_offBoundary _ (by decide)).mp hfind).2.2 rfl

/-- A link leads back just where neither of two screens that face each other has the id zero. -/
theorem reciprocal_iff (layout : Layout) (sort : SortAlgorithm ScreenLinkMap)
    (i j : Fin layout.screens.length) (d : Direction) (t : Int)
    (hoff : OffBoundary layout.screens d t) :
    ((layout.edge sort i d).find t = some (layout.screens[j]).id ↔
      (layout.edge sort j d.opposite).find t = some (layout.screens[i]).id) ↔
    (((layout.screens[i]).aspect d).Spans t →
      IsNearest layout.screens d layout.screens[i] t layout.screens[j] →
        (layout.screens[i]).id ≠ 0 ∧ (layout.screens[j]).id ≠ 0) := by
  have hoff' : OffBoundary layout.screens d.opposite t := by simpa [OffBoundary] using hoff
  have himem : layout.screens[i] ∈ layout.screens := List.getElem_mem i.isLt
  have hjmem : layout.screens[j] ∈ layout.screens := List.getElem_mem j.isLt
  rw [find_edge_eq_id_iff hoff i hjmem, find_edge_eq_id_iff hoff' j himem]
  have hfacing : ((layout.screens[i]).aspect d).Spans t ∧
        IsNearest layout.screens d layout.screens[i] t layout.screens[j] ↔
      ((layout.screens[j]).aspect d.opposite).Spans t ∧
        IsNearest layout.screens d.opposite layout.screens[j] t layout.screens[i] := by
    constructor
    · rintro ⟨hspans, hnearest⟩
      exact ⟨by simpa [Aspect.Spans] using hnearest.spans,
        isNearest_opposite hoff himem hspans hnearest⟩
    · rintro ⟨hspans, hnearest⟩
      have hback := isNearest_opposite hoff' hjmem hspans hnearest
      rw [Direction.opposite_opposite] at hback
      exact ⟨by simpa [Aspect.Spans] using hnearest.spans, hback⟩
  constructor
  · intro hback hspans hnearest
    obtain ⟨hspans', hnearest'⟩ := hfacing.mp ⟨hspans, hnearest⟩
    by_cases hj : (layout.screens[j]).id = 0
    · by_cases hi : (layout.screens[i]).id = 0
      · have hself := eq_of_id_eq himem hjmem (hi.trans hj.symm)
        have hbeyond := hnearest.beyond
        have hpos := Screen.near_lt_far (d := d) (layout.positive _ himem)
        rw [← hself] at hbeyond
        omega
      · exact absurd hj (hback.mpr ⟨hspans', hnearest', hi⟩).2.2
    · exact ⟨(hback.mp ⟨hspans, hnearest, hj⟩).2.2, hj⟩
  · intro hids
    constructor
    · rintro ⟨hspans, hnearest, -⟩
      obtain ⟨hspans', hnearest'⟩ := hfacing.mp ⟨hspans, hnearest⟩
      exact ⟨hspans', hnearest', (hids hspans hnearest).1⟩
    · rintro ⟨hspans', hnearest', -⟩
      obtain ⟨hspans, hnearest⟩ := hfacing.mpr ⟨hspans', hnearest'⟩
      exact ⟨hspans, hnearest, (hids hspans hnearest).2⟩

theorem inARow_reciprocal :
    (inARow.edge (.stable _) ⟨0, by decide⟩ .right).find 3 = some (inARow.screens[1]).id ↔
      (inARow.edge (.stable _) ⟨1, by decide⟩ .left).find 3 = some (inARow.screens[0]).id :=
  (reciprocal_iff inARow (.stable _) ⟨0, by decide⟩ ⟨1, by decide⟩ .right 3 (by
    unfold OffBoundary
    decide)).mpr fun _ _ => by decide

theorem besideDefault_not_reciprocal :
    (besideDefault.edge (.stable _) ⟨0, by decide⟩ .right).find 3 =
        some (besideDefault.screens[1]).id ∧
      ¬(besideDefault.edge (.stable _) ⟨1, by decide⟩ .left).find 3 =
        some (besideDefault.screens[0]).id := by
  have hoff : OffBoundary besideDefault.screens .right 3 := besideDefault_offBoundary
  have hmem : besideDefault.screens[0] ∈ besideDefault.screens := by decide
  constructor
  · refine (find_edge_eq_id_iff hoff _ (by decide)).mpr ⟨⟨by decide, by decide⟩, ?_, by decide⟩
    exact isNearest_opposite besideDefault_offBoundary (by decide) ⟨by decide, by decide⟩
      besideDefault_isNearest
  · intro hfind
    exact ((find_edge_eq_id_iff besideDefault_offBoundary _ hmem).mp hfind).2.2 rfl

end Layout

end Synergy
