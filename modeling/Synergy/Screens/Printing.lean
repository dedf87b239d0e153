import Synergy.Lib.Segments
import Synergy.Screens.Links

/-!
# What is printed of the links

`printScreenLinks` of `ConfigGen.cpp` goes through the segments of each edge. It prints their
bounds as percentages of the two screens and does not look at whether a bound belongs to its
segment, so it matters here how an interval map keeps what has been drawn, and not only what it
stores for a coordinate.

Percentages are exact here, where the source computes them as `double`.
-/

set_option autoImplicit false

namespace Synergy

open Lib DiscreteInterval

/-- The targets that the function for a direction links. -/
def Direction.targets (source : ScreenLinkMap) (targets : List ScreenLinkMap) :
    Direction → List ScreenLinkMap
  | .up => removeBelow source.screen (removeRight source.screen (removeLeft source.screen
      (removeSource source targets)))
  | .right => removeBelow source.screen (removeAbove source.screen (removeLeft source.screen
      (removeSource source targets)))
  | .down => removeAbove source.screen (removeRight source.screen (removeLeft source.screen
      (removeSource source targets)))
  | .left => removeBelow source.screen (removeAbove source.screen (removeRight source.screen
      (removeSource source targets)))

/-- The ends of the interval for a target. -/
def drawnLower (d : Direction) (source : Screen) (target : ScreenLinkMap) : Int :=
  max (source.aspect d).start (target.screen.aspect d).start

def drawnUpper (d : Direction) (source : Screen) (target : ScreenLinkMap) : Int :=
  min (source.aspect d).stop (target.screen.aspect d).stop

/-- The targets in the order in which they are drawn. -/
def drawnOrder (sort : SortAlgorithm ScreenLinkMap) (targets : List ScreenLinkMap) (d : Direction)
    (source : ScreenLinkMap) : List ScreenLinkMap :=
  sort.sort (fun t1 t2 => d.lt t1.screen t2.screen) (d.targets source targets)

/-- The map of an edge as the source keeps it. -/
def edgeSegments (sort : SortAlgorithm ScreenLinkMap) (targets : List ScreenLinkMap)
    (source : ScreenLinkMap) (d : Direction) : Segments Int :=
  Segments.paint (drawnLower d source.screen) (drawnUpper d source.screen)
    (fun target => target.screen.id) [] (drawnOrder sort targets d source)

/-- Where a screen starts along an edge, and its size. -/
def Direction.origin (s : Screen) : Direction → Int
  | .up | .down => s.x
  | .right | .left => s.y

def Direction.size (s : Screen) : Direction → Int
  | .up | .down => s.width
  | .right | .left => s.height

/-- A coordinate along an edge of a screen, in percent. -/
def Direction.percent (d : Direction) (s : Screen) (t : Int) : ℚ :=
  ((t - d.origin s : Int) : ℚ) * 100 / (d.size s : ℚ)

/-- A line: `direction(srcLower,srcUpper) = target(dstLower,dstUpper)`. -/
structure PrintedLink where
  direction : Direction
  lower : Int
  upper : Int
  target : Screen
  srcLower : ℚ
  srcUpper : ℚ
  dstLower : ℚ
  dstUpper : ℚ

/-- The line of a segment. There is none if its target is not found. -/
def printLink (source : Screen) (targets : List ScreenLinkMap) (d : Direction)
    (link : DiscreteInterval × Int) : Option PrintedLink := do
  let upper := link.1.upper
  let lower := link.1.lower
  let target ← targets.find? fun target => target.screen.id = link.2
  return {
    direction := d
    lower := lower
    upper := upper
    target := target.screen
    srcLower := d.percent source lower
    srcUpper := d.percent source upper
    dstLower := d.percent target.screen lower
    dstUpper := d.percent target.screen upper }

def printEdge (source : Screen) (targets : List ScreenLinkMap) (edges : Direction → Segments Int)
    (d : Direction) : Option (List PrintedLink) :=
  (edges d).mapM (printLink source targets d)

/-- The lines of all four edges. -/
def printScreenLinks (source : Screen) (targets : List ScreenLinkMap)
    (edges : Direction → Segments Int) : Option (List PrintedLink) := do
  let up ← printEdge source targets edges .up
  let right ← printEdge source targets edges .right
  let down ← printEdge source targets edges .down
  let left ← printEdge source targets edges .left
  return up ++ right ++ down ++ left

/-- `linkScreens`, and then `printScreenLinks` for a screen. -/
def printedLinks (sort : SortAlgorithm ScreenLinkMap) (screens : List Screen)
    (i : Fin screens.length) : Option (List PrintedLink) :=
  printScreenLinks screens[i] (linkMaps screens)
    (edgeSegments sort (linkMaps screens) ⟨screens[i], i⟩)

/-! ## The targets of an edge -/

section Targets

variable {sort : SortAlgorithm ScreenLinkMap} {targets : List ScreenLinkMap} {d : Direction}
  {source target : ScreenLinkMap}

/-- What is drawn for an edge is drawn by the function for its direction. -/
theorem edges_linkEdges_targets (sort : SortAlgorithm ScreenLinkMap)
    (targets : List ScreenLinkMap) (source : ScreenLinkMap) (d : Direction) :
    (linkEdges sort targets source).edges d =
      IntervalMap.paint (drawnLower d source.screen) (drawnUpper d source.screen)
        (fun target => target.screen.id) .empty (drawnOrder sort targets d source) := by
  cases d <;> rfl

theorem targets_eq (d : Direction) (source : ScreenLinkMap) (targets : List ScreenLinkMap) :
    d.targets source targets = targets.filter fun target => source.Kept d target := by
  cases d <;>
    simp only [Direction.targets, removeSource, removeLeft, removeRight, removeAbove, removeBelow,
      filter_four] <;>
    refine List.filter_congr fun target _ => ?_ <;>
    simp only [ScreenLinkMap.Kept, Screen.aspect] <;> grind

theorem mem_drawnOrder : target ∈ drawnOrder sort targets d source ↔
    target ∈ targets ∧ source.Kept d target := by
  rw [drawnOrder, (sort.perm _ _).mem_iff, targets_eq, List.mem_filter, decide_eq_true_eq]

/-- Of two targets in this order the second one does not belong before the first. -/
theorem sorted_drawnOrder : (drawnOrder sort targets d source).Pairwise
    fun a c => d.lt c.screen a.screen = false :=
  sort.sorted _ _ (fun _ _ => d.lt_asymm _ _) fun _ _ _ => d.not_lt_trans _ _ _

end Targets

/-! ## Lists of screens -/

/-- Screens with distinct ids and positive sizes; they may overlap. -/
structure ScreenList where
  screens : List Screen
  distinct : (screens.map Screen.id).Nodup
  positive : ∀ s ∈ screens, 0 < s.width ∧ 0 < s.height

theorem Direction.stop_eq (d : Direction) (s : Screen) :
    (s.aspect d).stop = (s.aspect d).start + d.size s := by
  cases d <;> rfl

theorem Direction.start_eq (d : Direction) (s : Screen) : (s.aspect d).start = d.origin s := by
  cases d <;> rfl

theorem Direction.size_pos (d : Direction) {s : Screen} (h : 0 < s.width ∧ 0 < s.height) :
    0 < d.size s := by
  cases d
  · exact h.1
  · exact h.2
  · exact h.1
  · exact h.2

namespace ScreenList

variable {list : ScreenList} {sort : SortAlgorithm ScreenLinkMap} {d : Direction}
  {source target : ScreenLinkMap}

theorem map_id_linkMaps (screens : List Screen) :
    (linkMaps screens).map (fun target => target.screen.id) = screens.map Screen.id := by
  rw [linkMaps, List.map_map]
  have hcomp : ((fun target : ScreenLinkMap => target.screen.id) ∘
      fun p : Screen × ℕ => ⟨p.1, p.2⟩) = Screen.id ∘ Prod.fst := rfl
  rw [hcomp, ← List.map_map, List.zipIdx_map_fst]

theorem distinct_linkMaps :
    ((linkMaps list.screens).map fun target => target.screen.id).Nodup := by
  rw [map_id_linkMaps]
  exact list.distinct

theorem eq_of_id_eq {a b : ScreenLinkMap} (ha : a ∈ linkMaps list.screens)
    (hb : b ∈ linkMaps list.screens) (h : a.screen.id = b.screen.id) : a = b :=
  List.inj_on_of_nodup_map distinct_linkMaps ha hb h

theorem distinct_drawnOrder : ((drawnOrder sort (linkMaps list.screens) d source).map
    fun target => target.screen.id).Nodup :=
  ((sort.perm _ _).map _).nodup_iff.mpr
    (distinct_linkMaps.sublist ((targets_eq d source _ ▸ List.filter_sublist).map _))

theorem size_pos (h : target ∈ linkMaps list.screens) : 0 < d.size target.screen :=
  d.size_pos (list.positive _ (List.mem_of_getElem? (mem_linkMaps.mp h)))

/-- The interval of a target has more than one coordinate. -/
theorem drawn_lt (hs : source ∈ linkMaps list.screens)
    (h : target ∈ drawnOrder sort (linkMaps list.screens) d source) :
    drawnLower d source.screen target < drawnUpper d source.screen target := by
  obtain ⟨hmem, -, -, hstart, hstop⟩ := mem_drawnOrder.mp h
  have hspos := size_pos (d := d) hs
  have htpos := size_pos (d := d) hmem
  have hsstop := d.stop_eq source.screen
  have htstop := d.stop_eq target.screen
  unfold drawnLower drawnUpper
  omega

/-- The segments of an edge. -/
theorem mem_edgeSegments (hs : source ∈ linkMaps list.screens) {k : DiscreteInterval} {v : Int} :
    (k, v) ∈ edgeSegments sort (linkMaps list.screens) source d ↔
      ∃ target ∈ drawnOrder sort (linkMaps list.screens) d source, target.screen.id = v ∧ v ≠ 0 ∧
        ∃ f g, IsRun (fun t => Segments.owner (drawnLower d source.screen)
            (drawnUpper d source.screen) (drawnOrder sort (linkMaps list.screens) d source) t =
              some target) f g ∧
          k = piece (drawnLower d source.screen target) (drawnUpper d source.screen target) f g :=
  Segments.mem_paint distinct_drawnOrder fun _ htarget => (drawn_lt hs htarget).le

/-- The segments of an edge store what the map of the edge stores. -/
theorem find_edgeSegments (hs : source ∈ linkMaps list.screens) (t : Int) :
    (edgeSegments sort (linkMaps list.screens) source d).find t =
      ((linkEdges sort (linkMaps list.screens) source).edges d).find t := by
  rw [edges_linkEdges_targets]
  exact Segments.find_paint distinct_drawnOrder (fun _ htarget => (drawn_lt hs htarget).le) t

theorem ordered_edgeSegments (hs : source ∈ linkMaps list.screens) :
    Segments.Ordered (edgeSegments sort (linkMaps list.screens) source d) :=
  Segments.ordered_paint distinct_drawnOrder fun _ htarget => (drawn_lt hs htarget).le

/-- The target of a segment is found. -/
theorem find_target (h : target ∈ linkMaps list.screens) :
    (linkMaps list.screens).find? (fun t => t.screen.id = target.screen.id) = some target := by
  cases hfind : (linkMaps list.screens).find? fun t => t.screen.id = target.screen.id with
  | none => exact absurd (decide_eq_true rfl) (List.find?_eq_none.mp hfind target h)
  | some found =>
    have hid := of_decide_eq_true (List.find?_some
      (p := fun t : ScreenLinkMap => decide (t.screen.id = target.screen.id)) hfind)
    rw [eq_of_id_eq (List.mem_of_find?_eq_some hfind) h hid]

/-! ### The lines -/

theorem mapM_eq_filterMap {α β : Type} {f : α → Option β} {l : List α}
    (h : ∀ a ∈ l, ∃ b, f a = some b) : l.mapM f = some (l.filterMap f) := by
  induction l with
  | nil => rfl
  | cons a l ih =>
    obtain ⟨b, hb⟩ := h a List.mem_cons_self
    rw [List.mapM_cons, hb, ih fun a' ha' => h a' (List.mem_cons_of_mem _ ha'),
      List.filterMap_cons_some hb]
    rfl

/-- The line of a segment. -/
structure LineOf (list : ScreenList) (source : ScreenLinkMap) (d : Direction)
    (link : DiscreteInterval × Int) (line : PrintedLink) : Prop where
  direction : line.direction = d
  lower : line.lower = link.1.lower
  upper : line.upper = link.1.upper
  target : line.target ∈ list.screens ∧ line.target ≠ source.screen
  id : line.target.id = link.2
  srcLower : line.srcLower = d.percent source.screen line.lower
  srcUpper : line.srcUpper = d.percent source.screen line.upper
  dstLower : line.dstLower = d.percent line.target line.lower
  dstUpper : line.dstUpper = d.percent line.target line.upper
  lt : line.lower < line.upper
  within : ∀ s ∈ [source.screen, line.target],
    (s.aspect d).start ≤ line.lower ∧ line.upper ≤ (s.aspect d).stop

theorem lineOf (hs : source ∈ linkMaps list.screens) {link : DiscreteInterval × Int}
    (h : link ∈ edgeSegments sort (linkMaps list.screens) source d) :
    ∃ line, printLink source.screen (linkMaps list.screens) d link = some line ∧
      LineOf list source d link line := by
  obtain ⟨k, v⟩ := link
  obtain ⟨target, htarget, rfl, -, f, g, ⟨hfg, hin, -, -⟩, rfl⟩ := (mem_edgeSegments hs).mp h
  obtain ⟨hmem, hne, -⟩ := mem_drawnOrder.mp htarget
  have hf := (Segments.owner_mem (hin f le_rfl hfg)).2.1
  have hg := (Segments.owner_mem (hin g hfg le_rfl)).2.2
  obtain ⟨hlower, hlt, hupper⟩ := piece_bounds (drawn_lt hs htarget) hf hfg hg
  have hscreen := List.mem_of_getElem? (mem_linkMaps.mp hmem)
  rw [printLink, find_target hmem]
  refine ⟨_, rfl, rfl, rfl, rfl, ⟨hscreen, fun heq => hne ?_⟩, rfl, rfl, rfl, rfl, rfl, hlt, ?_⟩
  · exact congrArg ScreenLinkMap.address (eq_of_id_eq hmem hs (congrArg Screen.id heq))
  · intro s hs'
    simp only [drawnLower, drawnUpper] at hlower hupper
    rcases List.mem_pair.mp hs' with rfl | rfl
    · exact ⟨(max_le_iff.mp hlower).1, (le_min_iff.mp hupper).1⟩
    · exact ⟨(max_le_iff.mp hlower).2, (le_min_iff.mp hupper).2⟩

/-- The lines of an edge. -/
def edgeLines (sort : SortAlgorithm ScreenLinkMap) (screens : List Screen)
    (source : ScreenLinkMap) (d : Direction) : List PrintedLink :=
  (edgeSegments sort (linkMaps screens) source d).filterMap
    (printLink source.screen (linkMaps screens) d)

theorem printedLinks_eq (sort : SortAlgorithm ScreenLinkMap) (list : ScreenList)
    (i : Fin list.screens.length) : printedLinks sort list.screens i =
      some (edgeLines sort list.screens ⟨list.screens[i], i⟩ .up ++
        edgeLines sort list.screens ⟨list.screens[i], i⟩ .right ++
        edgeLines sort list.screens ⟨list.screens[i], i⟩ .down ++
        edgeLines sort list.screens ⟨list.screens[i], i⟩ .left) := by
  have hs : (⟨list.screens[i], i⟩ : ScreenLinkMap) ∈ linkMaps list.screens :=
    mem_linkMaps.mpr (List.getElem?_eq_getElem i.isLt)
  have hedge : ∀ d, printEdge list.screens[i] (linkMaps list.screens)
      (edgeSegments sort (linkMaps list.screens) ⟨list.screens[i], i⟩) d =
        some (edgeLines sort list.screens ⟨list.screens[i], i⟩ d) := fun d =>
    mapM_eq_filterMap fun link hlink => (lineOf hs hlink).imp fun _ h => h.1
  rw [printedLinks, printScreenLinks, hedge, hedge, hedge, hedge]
  rfl

theorem mem_edgeLines (hs : source ∈ linkMaps list.screens) {line : PrintedLink} :
    line ∈ edgeLines sort list.screens source d ↔
      ∃ link ∈ edgeSegments sort (linkMaps list.screens) source d,
        printLink source.screen (linkMaps list.screens) d link = some line ∧
          LineOf list source d link line := by
  rw [edgeLines, List.mem_filterMap]
  refine exists_congr fun link => and_congr_right fun hlink => ?_
  obtain ⟨line', hline', hof⟩ := lineOf hs hlink
  constructor
  · intro hline
    obtain rfl := Option.some.inj (hline'.symm.trans hline)
    exact ⟨hline, hof⟩
  · exact fun h => h.1

/-- The lines of a direction are those of its edge. -/
theorem filter_edgeLines (hs : source ∈ linkMaps list.screens) (d d' : Direction) :
    (edgeLines sort list.screens source d').filter (fun line => line.direction = d) =
      if d' = d then edgeLines sort list.screens source d' else [] := by
  by_cases heq : d' = d
  · rw [if_pos heq, List.filter_eq_self]
    intro line hline
    obtain ⟨_, -, -, hof⟩ := (mem_edgeLines hs).mp hline
    exact decide_eq_true (hof.direction.trans heq)
  · rw [if_neg heq, List.filter_eq_nil_iff]
    intro line hline hd
    obtain ⟨_, -, -, hof⟩ := (mem_edgeLines hs).mp hline
    exact heq (hof.direction.symm.trans (of_decide_eq_true hd))

theorem filter_allLines (hs : source ∈ linkMaps list.screens) (d : Direction) :
    (edgeLines sort list.screens source .up ++ edgeLines sort list.screens source .right ++
      edgeLines sort list.screens source .down ++ edgeLines sort list.screens source .left).filter
        (fun line => line.direction = d) = edgeLines sort list.screens source d := by
  simp only [List.filter_append, filter_edgeLines hs]
  cases d <;> simp

theorem percent_bounds {s : Screen} {lower upper : Int} (hsize : 0 < d.size s)
    (hlower : (s.aspect d).start ≤ lower) (hlt : lower < upper)
    (hupper : upper ≤ (s.aspect d).stop) :
    0 ≤ d.percent s lower ∧ d.percent s lower < d.percent s upper ∧
      d.percent s upper ≤ 100 := by
  rw [d.stop_eq, d.start_eq] at hupper
  rw [d.start_eq] at hlower
  have hpos : (0 : ℚ) < (d.size s : ℚ) := by exact_mod_cast hsize
  have hlower' : (0 : ℚ) ≤ ((lower - d.origin s : Int) : ℚ) := by
    exact_mod_cast Int.sub_nonneg.mpr hlower
  have hlt' : ((lower - d.origin s : Int) : ℚ) < ((upper - d.origin s : Int) : ℚ) := by
    exact_mod_cast Int.sub_lt_sub_right hlt _
  have hupper' : ((upper - d.origin s : Int) : ℚ) ≤ (d.size s : ℚ) := by
    exact_mod_cast Int.sub_left_le_of_le_add hupper
  unfold Direction.percent
  refine ⟨by positivity, ?_, ?_⟩
  · exact div_lt_div_of_pos_right (by linarith) hpos
  · rw [div_le_iff₀ hpos]
    linarith

/-- **Printed links are well formed.** Each screen's links are printed. Along an edge their bounds
are in order; each of them lies within both screens, so that the percentages are between 0 and 100
and in order; and the target is another screen of the list. -/
theorem printedLinks_wellFormed (list : ScreenList) (sort : SortAlgorithm ScreenLinkMap)
    (i : Fin list.screens.length) :
    ∃ lines, printedLinks sort list.screens i = some lines ∧ ∀ d : Direction,
      (lines.filter fun line => line.direction = d).Pairwise (fun a b => a.upper ≤ b.lower) ∧
      ∀ line ∈ lines, line.direction = d →
        line.lower < line.upper ∧
        (line.target ∈ list.screens ∧ line.target ≠ list.screens[i]) ∧
        (∀ s ∈ [list.screens[i], line.target],
          (s.aspect d).start ≤ line.lower ∧ line.upper ≤ (s.aspect d).stop) ∧
        (0 ≤ line.srcLower ∧ line.srcLower < line.srcUpper ∧ line.srcUpper ≤ 100) ∧
        0 ≤ line.dstLower ∧ line.dstLower < line.dstUpper ∧ line.dstUpper ≤ 100 := by
  have hs : (⟨list.screens[i], i⟩ : ScreenLinkMap) ∈ linkMaps list.screens :=
    mem_linkMaps.mpr (List.getElem?_eq_getElem i.isLt)
  refine ⟨_, printedLinks_eq sort list i, fun d => ?_⟩
  rw [filter_allLines hs]
  constructor
  · rw [edgeLines, List.pairwise_filterMap]
    refine (ordered_edgeSegments hs).pairwise.imp_of_mem fun {p q} hp hq hpq => ?_
    intro a ha b hb
    obtain ⟨_, ha', hofa⟩ := lineOf hs hp
    obtain ⟨_, hb', hofb⟩ := lineOf hs hq
    obtain rfl := Option.some.inj (ha'.symm.trans ha)
    obtain rfl := Option.some.inj (hb'.symm.trans hb)
    rw [hofa.upper, hofb.lower]
    exact hpq.1
  · intro line hline hd
    have hmem : line ∈ edgeLines sort list.screens ⟨list.screens[i], i⟩ d := by
      rw [← filter_allLines hs]
      exact List.mem_filter.mpr ⟨hline, decide_eq_true hd⟩
    obtain ⟨_, -, -, hof⟩ := (mem_edgeLines hs).mp hmem
    have hsource := hof.within list.screens[i] (by simp)
    have htarget := hof.within line.target (by simp)
    have hsize : 0 < d.size line.target := d.size_pos (list.positive _ hof.target.1)
    rw [hof.srcLower, hof.srcUpper, hof.dstLower, hof.dstUpper]
    exact ⟨hof.lt, hof.target, hof.within,
      percent_bounds (size_pos hs) hsource.1 hof.lt hsource.2,
      percent_bounds hsize htarget.1 hof.lt htarget.2⟩

end ScreenList

end Synergy
