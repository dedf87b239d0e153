import Synergy.Screens.Printing

/-!
# Links and the order of the screens

Targets that are level compare equal, and `std::sort` may draw them in any order. They do not
overlap, but the intervals that are drawn for them are closed, so that two that touch share a
coordinate, and the last one gets it. This is not seen in what is printed, since the printed bounds
do not say whether they belong to their segments; unless nothing else is left of a target there. The
coordinate next to the shared one may have been taken by a nearer screen, or be shared too. Then a
sliver of one coordinate is printed if the target has got it, and none if it has not.
-/

set_option autoImplicit false

namespace Synergy

open Lib DiscreteInterval

/-- A screen that the functions that link keep for an edge. -/
structure Faces (screens : List Screen) (d : Direction) (s a : Screen) : Prop where
  mem : a ∈ screens
  ne : a ≠ s
  beyond : (s.aspect d).near < (a.aspect d).far
  left : (s.aspect d).start < (a.aspect d).stop
  right : (a.aspect d).start < (s.aspect d).stop

/-- A coordinate within both of two screens. -/
def Shares (d : Direction) (s a : Screen) (t : Int) : Prop :=
  (s.aspect d).Spans t ∧ (a.aspect d).Spans t

instance (d : Direction) (s a : Screen) (t : Int) : Decidable (Shares d s a t) :=
  inferInstanceAs (Decidable ((_ ≤ _ ∧ _ ≤ _) ∧ _ ≤ _ ∧ _ ≤ _))

/-- A target that is nearer than this one covers the coordinate. -/
def Covered (screens : List Screen) (d : Direction) (s a : Screen) (t : Int) : Prop :=
  ∃ c, Faces screens d s c ∧ d.lt a c = true ∧ Shares d s c t

/-- The coordinate belongs to this target and to a level one, and no nearer one covers it. -/
def Contested (screens : List Screen) (d : Direction) (s a : Screen) (t : Int) : Prop :=
  Shares d s a t ∧ (∃ b, Faces screens d s b ∧ b ≠ a ∧ d.lt a b = false ∧ d.lt b a = false ∧
    Shares d s b t) ∧ ¬Covered screens d s a t

/-- Next to a contested coordinate of a target that can be stored there is one of its own. -/
def Layout.NoSlivers (layout : Layout) : Prop :=
  ∀ d, ∀ s ∈ layout.screens, ∀ a, Faces layout.screens d s a → a.id ≠ 0 → ∀ p q,
    Contested layout.screens d s a p → Shares d s a q → q = p + 1 ∨ q = p - 1 →
      ¬Covered layout.screens d s a q ∧ ¬Contested layout.screens d s a q

/-- Among the lines for an edge of a screen there is one with these bounds and this target. -/
def PrintsSegment (sort : SortAlgorithm ScreenLinkMap) (screens : List Screen)
    (i : Fin screens.length) (d : Direction) (segment : Int × Int × Int) : Prop :=
  ∃ lines, printedLinks sort screens i = some lines ∧
    ∃ line ∈ lines, line.direction = d ∧ (line.lower, line.upper, line.target.id) = segment

/-- The same segments are printed for a screen and an edge, whatever the order of the screens is and
that of targets that compare equal. -/
def Layout.OrderIndependent (layout : Layout) : Prop :=
  ∀ (screens : List Screen) (sort sort' : SortAlgorithm ScreenLinkMap)
    (i : Fin layout.screens.length) (j : Fin screens.length), screens.Perm layout.screens →
    screens.get j = layout.screens.get i → ∀ d segment,
      PrintsSegment sort layout.screens i d segment ↔ PrintsSegment sort' screens j d segment

def Layout.toScreenList (layout : Layout) : ScreenList :=
  ⟨layout.screens, layout.distinct, layout.positive⟩

/-! ## Who gets a coordinate -/

namespace ScreenList

variable {list : ScreenList} {screens : List Screen} {sort : SortAlgorithm ScreenLinkMap}
  {d : Direction} {source target : ScreenLinkMap} {t : Int}

/-- The target that is drawn last of those that cover a coordinate. -/
def owner (sort : SortAlgorithm ScreenLinkMap) (list : ScreenList) (d : Direction)
    (source : ScreenLinkMap) (t : Int) : Option ScreenLinkMap :=
  Segments.owner (drawnLower d source.screen) (drawnUpper d source.screen)
    (drawnOrder sort (linkMaps list.screens) d source) t

theorem drawn_iff {s : Screen} : drawnLower d s target ≤ t ∧ t ≤ drawnUpper d s target ↔
    Shares d s target.screen t := by
  simp only [drawnLower, drawnUpper, max_le_iff, le_min_iff, Shares, Aspect.Spans]
  tauto

theorem exists_linkMap {a : Screen} (h : a ∈ list.screens) :
    ∃ target ∈ linkMaps list.screens, target.screen = a := by
  obtain ⟨j, hj, rfl⟩ := List.getElem_of_mem h
  exact ⟨⟨list.screens[j], j⟩, mem_linkMaps.mpr (List.getElem?_eq_getElem hj), rfl⟩

theorem eq_of_screen_eq {a b : ScreenLinkMap} (ha : a ∈ linkMaps list.screens)
    (hb : b ∈ linkMaps list.screens) (h : a.screen = b.screen) : a = b :=
  eq_of_id_eq ha hb (congrArg Screen.id h)

/-- What is drawn for an edge are the screens that face it. -/
theorem mem_drawnOrder_iff (sort : SortAlgorithm ScreenLinkMap)
    (hmem : ∀ a, a ∈ list.screens ↔ a ∈ screens)
    (hs : source ∈ linkMaps list.screens) (ht : target ∈ linkMaps list.screens) :
    target ∈ drawnOrder sort (linkMaps list.screens) d source ↔
      Faces screens d source.screen target.screen := by
  rw [mem_drawnOrder]
  constructor
  · rintro ⟨-, hne, hbeyond, hleft, hright⟩
    refine ⟨(hmem _).mp (List.mem_of_getElem? (mem_linkMaps.mp ht)), fun heq => hne ?_, hbeyond,
      hleft, hright⟩
    exact congrArg ScreenLinkMap.address (eq_of_screen_eq ht hs heq)
  · intro h
    refine ⟨ht, fun heq => h.ne ?_, h.beyond, h.left, h.right⟩
    have hget := mem_linkMaps.mp ht
    rw [heq] at hget
    exact Option.some.inj (hget.symm.trans (mem_linkMaps.mp hs))

theorem mem_linkMaps_of_drawn (h : target ∈ drawnOrder sort (linkMaps list.screens) d source) :
    target ∈ linkMaps list.screens :=
  (mem_drawnOrder.mp h).1

/-- A target has got only coordinates that no nearer one covers. -/
theorem owner_sound (hmem : ∀ a, a ∈ list.screens ↔ a ∈ screens)
    (hs : source ∈ linkMaps list.screens) (h : owner sort list d source t = some target) :
    target ∈ drawnOrder sort (linkMaps list.screens) d source ∧
      Shares d source.screen target.screen t ∧
      ¬Covered screens d source.screen target.screen t := by
  obtain ⟨hdrawn, hcovers⟩ := Segments.owner_mem h
  refine ⟨hdrawn, drawn_iff.mp hcovers, ?_⟩
  rintro ⟨c, hfaces, hlt, hshares⟩
  obtain ⟨nearer, hnearer, rfl⟩ := exists_linkMap ((hmem c).mpr hfaces.mem)
  have hdrawn' := (mem_drawnOrder_iff sort hmem hs hnearer).mpr hfaces
  obtain ⟨x, hx, hlast⟩ :=
    Segments.exists_owner sorted_drawnOrder hdrawn' (drawn_iff.mpr hshares)
  obtain rfl := Option.some.inj (hx.symm.trans h)
  rcases hlast with rfl | hnot
  · rw [d.lt_asymm _ _ hlt] at hlt
    cases hlt
  · rw [hlt] at hnot
    cases hnot

/-- A target that has not got a coordinate that no nearer one covers has lost it to a level one,
which comes later. -/
theorem owner_level (hmem : ∀ a, a ∈ list.screens ↔ a ∈ screens)
    (hs : source ∈ linkMaps list.screens)
    (htarget : target ∈ drawnOrder sort (linkMaps list.screens) d source)
    (hshares : Shares d source.screen target.screen t)
    (hcovered : ¬Covered screens d source.screen target.screen t) :
    ∃ x, owner sort list d source t = some x ∧ (x = target ∨
      [target, x].Sublist (drawnOrder sort (linkMaps list.screens) d source) ∧
      d.lt target.screen x.screen = false ∧
      Contested screens d source.screen target.screen t) := by
  have hpairwise : (drawnOrder sort (linkMaps list.screens) d source).Pairwise fun a c =>
      [a, c].Sublist (drawnOrder sort (linkMaps list.screens) d source) ∧
        d.lt c.screen a.screen = false :=
    (List.pairwise_iff_forall_sublist.mpr fun h => h).and sorted_drawnOrder
  obtain ⟨x, hx, hlast⟩ := Segments.exists_owner hpairwise htarget (drawn_iff.mpr hshares)
  refine ⟨x, hx, ?_⟩
  by_cases heq : x = target
  · exact Or.inl heq
  · obtain ⟨hsublist, hnot⟩ := hlast.resolve_left heq
    obtain ⟨hdrawn, hcovers⟩ := Segments.owner_mem hx
    have hx' := mem_linkMaps_of_drawn hdrawn
    have hfaces := (mem_drawnOrder_iff _ hmem hs hx').mp hdrawn
    have hlevel : d.lt target.screen x.screen = false := by
      by_contra hlt
      exact hcovered ⟨_, hfaces, Bool.eq_true_of_not_eq_false hlt, drawn_iff.mp hcovers⟩
    refine Or.inr ⟨hsublist, hlevel, hshares, ⟨_, hfaces, fun hscreen => heq ?_, hlevel, hnot,
      drawn_iff.mp hcovers⟩, hcovered⟩
    exact eq_of_screen_eq hx' (mem_linkMaps_of_drawn htarget) hscreen

theorem owner_of_own (hmem : ∀ a, a ∈ list.screens ↔ a ∈ screens)
    (hs : source ∈ linkMaps list.screens)
    (htarget : target ∈ drawnOrder sort (linkMaps list.screens) d source)
    (hshares : Shares d source.screen target.screen t)
    (hcovered : ¬Covered screens d source.screen target.screen t)
    (hcontested : ¬Contested screens d source.screen target.screen t) :
    owner sort list d source t = some target := by
  obtain ⟨x, hx, heq | ⟨-, -, hcontested'⟩⟩ := owner_level hmem hs htarget hshares hcovered
  · rw [hx, heq]
  · exact absurd hcontested' hcontested

/-- Where it is not contested, a target has got what no nearer one covers. -/
theorem owner_eq_some_iff (hmem : ∀ a, a ∈ list.screens ↔ a ∈ screens)
    (hs : source ∈ linkMaps list.screens)
    (htarget : target ∈ drawnOrder sort (linkMaps list.screens) d source)
    (hcontested : ¬Contested screens d source.screen target.screen t) :
    owner sort list d source t = some target ↔ Shares d source.screen target.screen t ∧
      ¬Covered screens d source.screen target.screen t :=
  ⟨fun h => (owner_sound hmem hs h).2, fun ⟨hshares, hcovered⟩ =>
    owner_of_own hmem hs htarget hshares hcovered hcontested⟩

/-- The pieces of a target. -/
theorem piecesOf (hs : source ∈ linkMaps list.screens)
    (htarget : target ∈ drawnOrder sort (linkMaps list.screens) d source)
    (hzero : target.screen.id ≠ 0) :
    PiecesOf (drawnLower d source.screen target) (drawnUpper d source.screen target)
      (fun t => owner sort list d source t = some target)
      (Segments.withValue target.screen.id
        (edgeSegments sort (linkMaps list.screens) source d)) :=
  Segments.piecesOf_paint distinct_drawnOrder (fun _ h => (drawn_lt hs h).le) htarget hzero

/-- What is printed for an edge. -/
theorem printsSegment_iff (sort : SortAlgorithm ScreenLinkMap) (list : ScreenList)
    (i : Fin list.screens.length) (d : Direction) (x y v : Int) :
    PrintsSegment sort list.screens i d (x, y, v) ↔
      ∃ target ∈ drawnOrder sort (linkMaps list.screens) d ⟨list.screens.get i, i⟩,
        target.screen.id = v ∧ v ≠ 0 ∧
        ∃ k ∈ Segments.withValue v
            (edgeSegments sort (linkMaps list.screens) ⟨list.screens.get i, i⟩ d),
          k.lower = x ∧ k.upper = y := by
  have hs : (⟨list.screens.get i, i⟩ : ScreenLinkMap) ∈ linkMaps list.screens :=
    mem_linkMaps.mpr (List.getElem?_eq_getElem i.isLt)
  have hlines : PrintsSegment sort list.screens i d (x, y, v) ↔
      ∃ line ∈ edgeLines sort list.screens ⟨list.screens.get i, i⟩ d,
        (line.lower, line.upper, line.target.id) = (x, y, v) := by
    have hfilter : ∀ line, (line ∈ edgeLines sort list.screens ⟨list.screens.get i, i⟩ .up ++
        edgeLines sort list.screens ⟨list.screens.get i, i⟩ .right ++
        edgeLines sort list.screens ⟨list.screens.get i, i⟩ .down ++
        edgeLines sort list.screens ⟨list.screens.get i, i⟩ .left ∧ line.direction = d) ↔
          line ∈ edgeLines sort list.screens ⟨list.screens.get i, i⟩ d := by
      intro line
      rw [← filter_allLines hs d, List.mem_filter, decide_eq_true_eq]
    rw [PrintsSegment, printedLinks_eq]
    constructor
    · rintro ⟨_, heq, line, hline, hd, hsegment⟩
      cases heq
      exact ⟨line, (hfilter line).mp ⟨hline, hd⟩, hsegment⟩
    · rintro ⟨line, hline, hsegment⟩
      obtain ⟨hline, hd⟩ := (hfilter line).mpr hline
      exact ⟨_, rfl, line, hline, hd, hsegment⟩
  rw [hlines]
  constructor
  · rintro ⟨line, hline, hsegment⟩
    obtain ⟨⟨k, w⟩, hlink, -, hof⟩ := (mem_edgeLines hs).mp hline
    rw [hof.lower, hof.upper, hof.id] at hsegment
    cases hsegment
    obtain ⟨target, htarget, hid, hzero, -⟩ := (mem_edgeSegments hs).mp hlink
    exact ⟨target, htarget, hid, hzero, k, Segments.mem_withValue.mpr hlink, rfl, rfl⟩
  · rintro ⟨target, -, -, -, k, hk, rfl, rfl⟩
    have hlink := Segments.mem_withValue.mp hk
    obtain ⟨line, hprint, hof⟩ := lineOf hs hlink
    refine ⟨line, (mem_edgeLines hs).mpr ⟨_, hlink, hprint, hof⟩, ?_⟩
    rw [hof.lower, hof.upper, hof.id]

end ScreenList

/-! ## No slivers, no difference -/

namespace Layout

variable {layout : Layout} {d : Direction} {s a : Screen} {t : Int}

/-- Level targets that share a coordinate touch there. -/
theorem contested_ends (ha : Faces layout.screens d s a)
    (h : Contested layout.screens d s a t) :
    t = max (s.aspect d).start (a.aspect d).start ∨
      t = min (s.aspect d).stop (a.aspect d).stop := by
  obtain ⟨⟨⟨hst, hst'⟩, hat, hat'⟩, ⟨b, hb, hne, hab, hba, -, hbt, hbt'⟩, -⟩ := h
  have hapart := layout.apart_of_ne ha.mem hb.mem hne.symm
  have hapos := layout.positive a ha.mem
  have hbpos := layout.positive b hb.mem
  unfold Screen.Apart at hapart
  cases d <;> simp only [Direction.lt, decide_eq_false_iff_not, Screen.aspect] at * <;> omega

/-- Without slivers, what is printed for one order of the screens is printed for any other. -/
theorem NoSlivers.prints (hno : layout.NoSlivers) (list list' : ScreenList)
    (hmem : ∀ a, a ∈ list.screens ↔ a ∈ layout.screens)
    (hmem' : ∀ a, a ∈ list'.screens ↔ a ∈ layout.screens)
    {sort sort' : SortAlgorithm ScreenLinkMap} {i : Fin list.screens.length}
    {j : Fin list'.screens.length} (heq : list'.screens.get j = list.screens.get i)
    {segment : Int × Int × Int} (h : PrintsSegment sort list.screens i d segment) :
    PrintsSegment sort' list'.screens j d segment := by
  obtain ⟨x, y, v⟩ := segment
  have hs : (⟨list.screens.get i, i⟩ : ScreenLinkMap) ∈ linkMaps list.screens :=
    mem_linkMaps.mpr (List.getElem?_eq_getElem i.isLt)
  have hs' : (⟨list'.screens.get j, j⟩ : ScreenLinkMap) ∈ linkMaps list'.screens :=
    mem_linkMaps.mpr (List.getElem?_eq_getElem j.isLt)
  rw [ScreenList.printsSegment_iff] at h ⊢
  obtain ⟨target, htarget, rfl, hzero, k, hk, rfl, rfl⟩ := h
  have hfaces := (ScreenList.mem_drawnOrder_iff _ hmem hs
    (ScreenList.mem_linkMaps_of_drawn htarget)).mp htarget
  -- the same screen has another place in the other list, and is drawn there too
  obtain ⟨target', htarget', hscreen⟩ := ScreenList.exists_linkMap ((hmem' _).mpr hfaces.mem)
  have hdrawn' :
      target' ∈ drawnOrder sort' (linkMaps list'.screens) d ⟨list'.screens.get j, j⟩ := by
    rw [ScreenList.mem_drawnOrder_iff _ hmem' hs' htarget', hscreen, heq]
    exact hfaces
  have hpieces := ScreenList.piecesOf hs htarget hzero
  have hpieces' := ScreenList.piecesOf hs' hdrawn' (by rwa [hscreen])
  have hlower : drawnLower d (list'.screens.get j) target' =
      drawnLower d (list.screens.get i) target := by
    rw [drawnLower, drawnLower, hscreen, heq]
  have hupper : drawnUpper d (list'.screens.get j) target' =
      drawnUpper d (list.screens.get i) target := by
    rw [drawnUpper, drawnUpper, hscreen, heq]
  rw [hlower, hupper, hscreen] at hpieces'
  -- the two drawings differ only where screens contend for a coordinate, and that is at an end
  have hagree : ∀ t, ¬Contested layout.screens d (list.screens.get i) target.screen t →
      (ScreenList.owner sort list d ⟨list.screens.get i, i⟩ t = some target ↔
        ScreenList.owner sort' list' d ⟨list'.screens.get j, j⟩ t = some target') := by
    intro t hcontested
    have hcontested' :
        ¬Contested layout.screens d (list'.screens.get j) target'.screen t := by
      rwa [hscreen, heq]
    rw [ScreenList.owner_eq_some_iff hmem hs htarget hcontested,
      ScreenList.owner_eq_some_iff hmem' hs' hdrawn' hcontested', hscreen, heq]
  have hends : ∀ t, Contested layout.screens d (list.screens.get i) target.screen t →
      t = drawnLower d (list.screens.get i) target ∨ t = drawnUpper d (list.screens.get i) target :=
    fun t hcontested => contested_ends hfaces hcontested
  -- next to such an end nobody contends, since that would be a sliver
  have hfirm : ∀ p q, Contested layout.screens d (list.screens.get i) target.screen p →
      drawnLower d (list.screens.get i) target ≤ q → q ≤ drawnUpper d (list.screens.get i) target →
      q = p + 1 ∨ q = p - 1 →
      ScreenList.owner sort list d ⟨list.screens.get i, i⟩ q = some target ∧
        ¬Contested layout.screens d (list.screens.get i) target.screen q := by
    intro p q hp hlq hqu hpq
    have hshares : Shares d (list.screens.get i) target.screen q :=
      ScreenList.drawn_iff.mp ⟨hlq, hqu⟩
    obtain ⟨hcovered, hcontested⟩ :=
      hno d _ ((hmem _).mp (List.getElem_mem i.isLt)) _ hfaces hzero p q hp hshares hpq
    exact ⟨ScreenList.owner_of_own hmem hs htarget hshares hcovered hcontested, hcontested⟩
  obtain ⟨k', hk', hl, hu⟩ := hpieces.same_bounds hpieces' _ (ScreenList.drawn_lt hs htarget)
    hagree hends hfirm hk
  exact ⟨target', hdrawn', congrArg Screen.id hscreen, hzero, k', hk', hl, hu⟩

end Layout

/-! ## A sliver, and a difference -/

namespace ScreenList

variable {list : ScreenList} {screens : List Screen} {d : Direction}
  {source target x : ScreenLinkMap} {t : Int}

/-- A stable sort keeps level targets in the order of the screens. -/
theorem sublist_drawnOrder (h : [x, target].Sublist (linkMaps list.screens))
    (hx : x ∈ drawnOrder (.stable _) (linkMaps list.screens) d source)
    (htarget : target ∈ drawnOrder (.stable _) (linkMaps list.screens) d source)
    (hlevel : d.lt target.screen x.screen = false) :
    [x, target].Sublist (drawnOrder (.stable _) (linkMaps list.screens) d source) := by
  have hkept : [x, target].Sublist (d.targets source (linkMaps list.screens)) := by
    rw [targets_eq]
    have hfilter := h.filter fun t => source.Kept d t
    rwa [List.filter_eq_self.mpr] at hfilter
    intro t ht
    rcases List.mem_pair.mp ht with rfl | rfl
    · exact decide_eq_true (mem_drawnOrder.mp hx).2
    · exact decide_eq_true (mem_drawnOrder.mp htarget).2
  refine List.pair_sublist_mergeSort ?_ ?_ ?_ hkept
  · intro a b c hab hbc
    simp only [Bool.not_eq_true'] at *
    exact d.not_lt_trans _ _ _ hbc hab
  · intro a b
    cases hlt : d.lt b.screen a.screen with
    | false => simp [hlt]
    | true => simp [d.lt_asymm _ _ hlt]
  · simp [hlevel]

/-- Two elements of a list without duplicates are in one order only. -/
theorem not_sublist_swap {α : Type} {a b : α} {l : List α} (hnodup : l.Nodup)
    (h : [a, b].Sublist l) : ¬[b, a].Sublist l := by
  intro h'
  induction l with
  | nil => exact absurd h (by simp)
  | cons c l ih =>
    obtain ⟨hc, hl⟩ := List.nodup_cons.mp hnodup
    cases h with
    | cons _ h =>
      cases h' with
      | cons _ h' => exact ih hl h h'
      | cons_cons _ _ => exact hc (h.subset (by simp))
    | cons_cons _ h =>
      cases h' with
      | cons _ h' => exact hc (h'.subset (by simp))
      | cons_cons _ h' => exact hc (h'.subset (by simp))

/-- The last screen gets whatever no nearer one covers. -/
theorem owner_of_last (hmem : ∀ a, a ∈ list.screens ↔ a ∈ screens)
    (hs : source ∈ linkMaps list.screens)
    (hlast : ∀ x ∈ linkMaps list.screens, x ≠ target → [x, target].Sublist (linkMaps list.screens))
    (htarget : target ∈ drawnOrder (.stable _) (linkMaps list.screens) d source)
    (hshares : Shares d source.screen target.screen t)
    (hcovered : ¬Covered screens d source.screen target.screen t) :
    owner (.stable _) list d source t = some target := by
  obtain ⟨x, hx, heq | ⟨hsublist, hlevel, -⟩⟩ := owner_level hmem hs htarget hshares hcovered
  · rw [hx, heq]
  · have hdrawn := (Segments.owner_mem hx).1
    by_cases heq : x = target
    · rw [hx, heq]
    · have hbefore := sublist_drawnOrder (hlast x (mem_linkMaps_of_drawn hdrawn) heq) hdrawn
        htarget hlevel
      exact absurd hsublist
        (not_sublist_swap (List.Nodup.of_map _ distinct_drawnOrder) hbefore)

/-- The first screen gets nothing that it shares with a level one. -/
theorem own_of_owner_first (hmem : ∀ a, a ∈ list.screens ↔ a ∈ screens)
    (hs : source ∈ linkMaps list.screens)
    (hfirst : ∀ x ∈ linkMaps list.screens, x ≠ target →
      [target, x].Sublist (linkMaps list.screens))
    (h : owner (.stable _) list d source t = some target) :
    ¬Covered screens d source.screen target.screen t ∧
      ¬Contested screens d source.screen target.screen t := by
  obtain ⟨htarget, -, hcovered⟩ := owner_sound hmem hs h
  refine ⟨hcovered, ?_⟩
  rintro ⟨-, ⟨b, hfaces, hne, -, hlevel, hshares⟩, -⟩
  obtain ⟨x, hx, rfl⟩ := exists_linkMap ((hmem b).mpr hfaces.mem)
  have hdrawn := (mem_drawnOrder_iff (.stable _) hmem hs hx).mpr hfaces
  have hxne : x ≠ target := fun heq => hne (congrArg ScreenLinkMap.screen heq)
  have hbefore := sublist_drawnOrder (hfirst x hx hxne) htarget hdrawn hlevel
  obtain ⟨y, hy, hlast⟩ := Segments.exists_owner
    (List.pairwise_iff_forall_sublist.mpr fun h => h) hdrawn (drawn_iff.mpr hshares)
  obtain rfl := Option.some.inj (hy.symm.trans h)
  rcases hlast with heq | hafter
  · exact hxne heq.symm
  · exact not_sublist_swap (List.Nodup.of_map _ distinct_drawnOrder) hbefore hafter

theorem linkMaps_concat (l : List Screen) (a : Screen) :
    linkMaps (l ++ [a]) = linkMaps l ++ [⟨a, l.length⟩] := by
  simp [linkMaps, List.zipIdx_append]

theorem sublist_linkMaps_concat {l : List Screen} {a : Screen} {x : ScreenLinkMap}
    (hx : x ∈ linkMaps (l ++ [a])) (hne : x ≠ ⟨a, l.length⟩) :
    [x, ⟨a, l.length⟩].Sublist (linkMaps (l ++ [a])) := by
  rw [linkMaps_concat] at hx ⊢
  have hmem := (List.mem_append.mp hx).resolve_right fun h => hne (List.mem_singleton.mp h)
  exact (List.singleton_sublist.mpr hmem).append (List.Sublist.refl _)

theorem sublist_linkMaps_cons {l : List Screen} {a : Screen} {x : ScreenLinkMap}
    (hx : x ∈ linkMaps (a :: l)) (hne : x ≠ ⟨a, 0⟩) :
    [⟨a, 0⟩, x].Sublist (linkMaps (a :: l)) := by
  have hcons : linkMaps (a :: l) = ⟨a, 0⟩ :: (l.zipIdx 1).map fun p => ⟨p.1, p.2⟩ := rfl
  rw [hcons] at hx ⊢
  exact (List.singleton_sublist.mpr ((List.mem_cons.mp hx).resolve_left hne)).cons_cons _

end ScreenList

namespace Layout

variable {layout : Layout} {d : Direction} {s a : Screen} {t : Int}

/-- The screens of a layout in another order. -/
def permuted (layout : Layout) (screens : List Screen) (h : screens.Perm layout.screens) :
    ScreenList where
  screens := screens
  distinct := (h.map _).nodup_iff.mpr layout.distinct
  positive s hs := layout.positive s (h.mem_iff.mp hs)

/-- Where the target is the last screen, it is linked at a contested coordinate. -/
theorem prints_of_last (hfaces : Faces layout.screens d s a) (hzero : a.id ≠ 0)
    (hcontested : Contested layout.screens d s a t)
    (hperm : (layout.screens.erase a ++ [a]).Perm layout.screens)
    (j : Fin (layout.screens.erase a ++ [a]).length)
    (hj : (layout.screens.erase a ++ [a])[j] = s) :
    ∃ f g, f ≤ t ∧ t ≤ g ∧
      max (s.aspect d).start (a.aspect d).start ≤ f ∧ g ≤ min (s.aspect d).stop (a.aspect d).stop ∧
      PrintsSegment (.stable _) (layout.screens.erase a ++ [a]) j d
        ((piece (max (s.aspect d).start (a.aspect d).start)
            (min (s.aspect d).stop (a.aspect d).stop) f g).lower,
          (piece (max (s.aspect d).start (a.aspect d).start)
            (min (s.aspect d).stop (a.aspect d).stop) f g).upper, a.id) := by
  subst hj
  let list := layout.permuted _ hperm
  let target : ScreenLinkMap := ⟨a, (layout.screens.erase a).length⟩
  have hs : (⟨list.screens[j], j⟩ : ScreenLinkMap) ∈ linkMaps list.screens :=
    mem_linkMaps.mpr (List.getElem?_eq_getElem j.isLt)
  have ht : target ∈ linkMaps list.screens := by
    rw [show list.screens = layout.screens.erase a ++ [a] from rfl, ScreenList.linkMaps_concat]
    exact List.mem_append_right _ (List.mem_singleton_self _)
  have hmem : ∀ b, b ∈ list.screens ↔ b ∈ layout.screens := fun _ => hperm.mem_iff
  have hdrawn : target ∈ drawnOrder (.stable _) (linkMaps list.screens) d ⟨list.screens[j], j⟩ :=
    (ScreenList.mem_drawnOrder_iff _ hmem hs ht).mpr hfaces
  have howner : ScreenList.owner (.stable _) list d ⟨list.screens[j], j⟩ t = some target :=
    ScreenList.owner_of_last hmem hs
      (fun x hx hne => ScreenList.sublist_linkMaps_concat hx hne) hdrawn hcontested.1
      hcontested.2.2
  have hpieces := ScreenList.piecesOf hs hdrawn hzero
  obtain ⟨k, hk, hhas⟩ := hpieces.complete t howner
  obtain ⟨f, g, ⟨hfg, hin, -, -⟩, rfl⟩ := hpieces.sound k hk
  obtain ⟨hft, htg⟩ := has_piece.mp hhas
  refine ⟨f, g, hft, htg, (hpieces.within f (hin f le_rfl hfg)).1,
    (hpieces.within g (hin g hfg le_rfl)).2, ?_⟩
  exact (ScreenList.printsSegment_iff (.stable _) list j d _ _ _).mpr
    ⟨target, hdrawn, rfl, hzero, _, hk, rfl, rfl⟩

/-- Where it is the first one, its links start and end at coordinates of its own. -/
theorem own_of_prints_first (hfaces : Faces layout.screens d s a)
    (hperm : (a :: layout.screens.erase a).Perm layout.screens)
    (j : Fin (a :: layout.screens.erase a).length) (hj : (a :: layout.screens.erase a)[j] = s)
    {x y : Int} (h : PrintsSegment (.stable _) (a :: layout.screens.erase a) j d (x, y, a.id)) :
    ∃ f g, (∀ t, t = f ∨ t = g → ¬Covered layout.screens d s a t ∧
        ¬Contested layout.screens d s a t) ∧
      x = (piece (max (s.aspect d).start (a.aspect d).start)
        (min (s.aspect d).stop (a.aspect d).stop) f g).lower ∧
      y = (piece (max (s.aspect d).start (a.aspect d).start)
        (min (s.aspect d).stop (a.aspect d).stop) f g).upper := by
  subst hj
  let list := layout.permuted _ hperm
  let target : ScreenLinkMap := ⟨a, 0⟩
  have hs : (⟨list.screens[j], j⟩ : ScreenLinkMap) ∈ linkMaps list.screens :=
    mem_linkMaps.mpr (List.getElem?_eq_getElem j.isLt)
  have ht : target ∈ linkMaps list.screens := List.mem_cons_self
  have hmem : ∀ b, b ∈ list.screens ↔ b ∈ layout.screens := fun _ => hperm.mem_iff
  obtain ⟨found, hfound, hid, hzero, k, hk, rfl, rfl⟩ :=
    (ScreenList.printsSegment_iff (.stable _) list j d _ _ _).mp h
  obtain rfl := ScreenList.eq_of_id_eq (ScreenList.mem_linkMaps_of_drawn hfound) ht hid
  obtain ⟨f, g, ⟨hfg, hin, -, -⟩, rfl⟩ := (ScreenList.piecesOf hs hfound hzero).sound k hk
  have hown : ∀ t, f ≤ t → t ≤ g → ¬Covered layout.screens d list.screens[j] a t ∧
      ¬Contested layout.screens d list.screens[j] a t := fun t hft htg =>
    ScreenList.own_of_owner_first hmem hs
      (fun x hx hne => ScreenList.sublist_linkMaps_cons hx hne) (hin t hft htg)
  refine ⟨f, g, ?_, rfl, rfl⟩
  rintro t (rfl | rfl)
  · exact hown t le_rfl hfg
  · exact hown t hfg le_rfl

/-- Where a target may have a sliver, it has it if it is the last of the screens, and does not have
it if it is the first one. -/
theorem OrderIndependent.noSlivers (h : layout.OrderIndependent) : layout.NoSlivers := by
  intro d s hs a hfaces hzero p q hcontested hshares hpq
  by_contra hsliver
  have hlast : (layout.screens.erase a ++ [a]).Perm layout.screens :=
    List.perm_append_comm.trans (List.perm_cons_erase hfaces.mem).symm
  have hfirst : (a :: layout.screens.erase a).Perm layout.screens :=
    (List.perm_cons_erase hfaces.mem).symm
  obtain ⟨i, hi, rfl⟩ := List.getElem_of_mem hs
  obtain ⟨j, hj, hji⟩ := List.getElem_of_mem (hlast.mem_iff.mpr hs)
  obtain ⟨k, hk, hki⟩ := List.getElem_of_mem (hfirst.mem_iff.mpr hs)
  obtain ⟨f, g, hfp, hpg, hlf, hgu, hprints⟩ :=
    prints_of_last hfaces hzero hcontested hlast ⟨j, hj⟩ hji
  have hprints' := (h _ (.stable _) (.stable _) ⟨i, hi⟩ ⟨k, hk⟩ hfirst hki d _).mp
    ((h _ (.stable _) (.stable _) ⟨i, hi⟩ ⟨j, hj⟩ hlast hji d _).mpr hprints)
  obtain ⟨f', g', hown, hlower, hupper⟩ :=
    own_of_prints_first hfaces hfirst ⟨k, hk⟩ hki hprints'
  have hends := contested_ends hfaces hcontested
  have hp : ¬(p = f' ∨ p = g') := fun hc => (hown p hc).2 hcontested
  have hq : ¬(q = f' ∨ q = g') := fun hc => hsliver (hown q hc)
  obtain ⟨⟨hsq, hqs⟩, haq, hqa⟩ := hshares
  have hlq := max_le hsq haq
  have hqu := le_min hqs hqa
  simp only [piece] at hlower hupper
  -- the bound at the contested coordinate belongs to no link of the first screen
  rcases hends with hpl | hpu
  · rw [← hpl] at hlower hlf hlq
    split at hlower <;> split at hlower <;> omega
  · rw [← hpu] at hupper hgu hqu
    split at hupper <;> split at hupper <;> omega

/-- **The links do not depend on the order of the screens** just where nothing but a sliver could be
lost at a contested coordinate. -/
theorem orderIndependent_iff (layout : Layout) : layout.OrderIndependent ↔ layout.NoSlivers := by
  refine ⟨OrderIndependent.noSlivers, fun hno screens sort sort' i j hperm heq d segment => ?_⟩
  have hmem : ∀ a, a ∈ (layout.permuted screens hperm).screens ↔ a ∈ layout.screens :=
    fun _ => hperm.mem_iff
  have hself : ∀ a, a ∈ layout.toScreenList.screens ↔ a ∈ layout.screens := fun _ => Iff.rfl
  constructor
  · exact fun h => hno.prints layout.toScreenList (layout.permuted screens hperm) hself hmem heq h
  · exact fun h =>
      hno.prints (layout.permuted screens hperm) layout.toScreenList hmem hself heq.symm h

/-- To the right of the first screen there are two that are level, one above the other, and before
the upper one of them another one, which is one unit lower in height. -/
def oneUnitShort : Layout where
  screens := [{ id := 1, width := 1920, height := 1080 },
    { id := 2, x := 3840, width := 1920, height := 540 },
    { id := 3, x := 3840, y := 540, width := 1920, height := 540 },
    { id := 4, x := 1920, width := 1920, height := 539 }]
  distinct := by decide
  positive := by decide
  apart := by simp [Screen.Apart]

theorem oneUnitShort_contested : Contested oneUnitShort.screens .right oneUnitShort.screens[0]
    oneUnitShort.screens[1] 540 := by
  refine ⟨by decide, ⟨oneUnitShort.screens[2], ?_, by decide, by decide, by decide, by decide⟩, ?_⟩
  · exact ⟨by decide, by decide, by decide, by decide, by decide⟩
  · rintro ⟨c, hfaces, hlt, hshares⟩
    have hnone : ∀ c ∈ oneUnitShort.screens, c ≠ oneUnitShort.screens[0] →
        Direction.right.lt oneUnitShort.screens[1] c = true →
          ¬((c.aspect .right).start ≤ 540 ∧ 540 ≤ (c.aspect .right).stop) := by decide
    exact hnone c hfaces.mem hfaces.ne hlt hshares.2

/-- A sliver of the upper one is linked to the first screen, or is not. -/
theorem oneUnitShort_not_orderIndependent : ¬oneUnitShort.OrderIndependent := by
  intro h
  have hfaces : Faces oneUnitShort.screens .right oneUnitShort.screens[0]
      oneUnitShort.screens[1] := ⟨by decide, by decide, by decide, by decide, by decide⟩
  have hnot := (h.noSlivers .right _ (by decide) _ hfaces (by decide) 540 539
    oneUnitShort_contested (by decide) (Or.inr rfl)).1
  exact hnot ⟨oneUnitShort.screens[3], ⟨by decide, by decide, by decide, by decide, by decide⟩,
    by decide, by decide⟩

end Layout

end Synergy
