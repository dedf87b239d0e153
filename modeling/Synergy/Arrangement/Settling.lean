import Synergy.Arrangement.Snapping

/-!
# Calls that leave no trace

`adjustModel` gives up a snap that makes the screen cover another, and means to take it back. What
takes it back is the same move again. It leaves no trace all the same if the screen is put to the
same place beside the others from there.

A second call finds the screen where the first has put it, and that is near enough to the others to
be snapped to them. So it moves the screen once more. It does not where the others are level with
the screen or one icon away, on both axes; and not where the snap is given up and the screen comes
back to where it is.
-/

set_option autoImplicit false

namespace Synergy.Arrangement

namespace ScreenBBArrangement

variable {rescale : Rescaling} {hostname : String} {a : ScreenBBArrangement}
  {model : ScreenListModel} {index : ℕ} {s t : UIScreen}

/-! ## Centred alike -/

/-- Of these screens, either all or none. -/
def AllOrNone (P : UIScreen → Prop) (screens : List UIScreen) : Prop :=
  (∀ s ∈ screens, P s) ∨ ∀ s ∈ screens, ¬P s

/-- Where an update centres the screens, no setter treats one screen unlike another. -/
def RecentersAlike (a : ScreenBBArrangement) (rescale : Rescaling) (model : ScreenListModel) :
    Prop :=
  let a := a.recalculateBoundingBox model.screens
  let a' := a.rescaled rescale
  (a.wasOutside || a.viewTooBig) = true → a.recenters a' false = true →
    AllOrNone (fun s => AcceptsX (s.posX + a'.centeringX.dis)) model.screens ∧
      AllOrNone (fun s => AcceptsY (s.posY + a'.centeringY.dis)) model.screens

instance (P : UIScreen → Prop) [DecidablePred P] (screens : List UIScreen) :
    Decidable (AllOrNone P screens) :=
  inferInstanceAs (Decidable (_ ∨ _))

instance (a : ScreenBBArrangement) (rescale : Rescaling) (model : ScreenListModel) :
    Decidable (a.RecentersAlike rescale model) :=
  inferInstanceAs (Decidable (_ → _ → _ ∧ _))

theorem AllOrNone.exists_shift {accepts : UIScreen → Prop} [DecidablePred accepts]
    {screens : List UIScreen} (h : AllOrNone accepts screens) (pos : UIScreen → Int) (dis : Int) :
    ∃ x, ∀ s ∈ screens, (if accepts s then pos s + dis else pos s) = pos s + x := by
  rcases h with h | h
  · exact ⟨dis, fun s hs => if_pos (h s hs)⟩
  · exact ⟨0, fun s hs => by rw [if_neg (h s hs), add_zero]⟩

/-- If all differences are kept, the distance has been added everywhere or nowhere. -/
theorem AllOrNone.of_differences {accepts : UIScreen → Prop} [DecidablePred accepts]
    {screens : List UIScreen} (pos : UIScreen → Int) (dis : Int)
    (hzero : dis = 0 → ∀ s, accepts s)
    (h : ∀ s ∈ screens, ∀ t ∈ screens, (if accepts s then pos s + dis else pos s) -
      (if accepts t then pos t + dis else pos t) = pos s - pos t) : AllOrNone accepts screens := by
  by_contra hnot
  -- one screen has been moved and another has not, although the distance is not 0
  unfold AllOrNone at hnot
  push Not at hnot
  obtain ⟨⟨s, hs, hrefused⟩, t, ht, haccepted⟩ := hnot
  have hdifference := h s hs t ht
  rw [if_neg hrefused, if_pos haccepted] at hdifference
  exact hrefused (hzero (by omega) s)

theorem RecentersAlike.movedBy (h : a.RecentersAlike rescale model) :
    ∃ x y, MovedBy x y model.screens (a.update rescale model).2.screens := by
  have hrefl : MovedBy 0 0 model.screens model.screens :=
    List.forall₂_same.mpr fun s _ => ⟨(add_zero _).symm, (add_zero _).symm⟩
  simp only [update, checkAdjustment]
  split
  case isFalse => exact ⟨0, 0, hrefl⟩
  case isTrue hadjusts =>
    split
    case isFalse => exact ⟨0, 0, hrefl⟩
    case isTrue hrecenters =>
      obtain ⟨hx, hy⟩ := h (by simpa using hadjusts) hrecenters
      obtain ⟨x, hx⟩ := hx.exists_shift UIScreen.posX _
      obtain ⟨y, hy⟩ := hy.exists_shift UIScreen.posY _
      refine ⟨x, y, List.forall₂_map_right_iff.mpr (List.forall₂_same.mpr fun s hs => ?_)⟩
      exact ⟨UIScreen.posX_setPos.trans (hx s hs), UIScreen.posY_setPos.trans (hy s hs)⟩

end ScreenBBArrangement

/-- No difference of positions between any two screens is changed. -/
def KeepsDifferences (model model' : ScreenListModel) : Prop :=
  ∀ i < model.screens.length, ∀ j < model.screens.length,
    (model'.getScreen i).posX - (model'.getScreen j).posX =
        (model.getScreen i).posX - (model.getScreen j).posX ∧
      (model'.getScreen i).posY - (model'.getScreen j).posY =
        (model.getScreen i).posY - (model.getScreen j).posY

theorem MovedBy.getScreen {x y : Int} {model model' : ScreenListModel} {i : ℕ}
    (h : MovedBy x y model.screens model'.screens) (hlt : i < model.screens.length) :
    (model'.getScreen i).posX = (model.getScreen i).posX + x ∧
      (model'.getScreen i).posY = (model.getScreen i).posY + y := by
  have hlt' : i < model'.screens.length := List.Forall₂.length_eq h ▸ hlt
  rw [ScreenListModel.getScreen_eq hlt, ScreenListModel.getScreen_eq hlt']
  exact List.Forall₂.get h hlt hlt'

theorem KeepsDifferences.of_alone {model model' : ScreenListModel} {index : ℕ}
    (hlt : index < model.screens.length) (h : model.others index = []) :
    KeepsDifferences model model' := by
  have hlength := congrArg List.length h
  rw [ScreenListModel.others, List.length_eraseIdx_of_lt hlt, List.length_nil] at hlength
  intro i hi j hj
  obtain rfl : i = j := by omega
  simp

theorem MovedBy.keepsDifferences {x y : Int} {model model' : ScreenListModel}
    (h : MovedBy x y model.screens model'.screens) : KeepsDifferences model model' := by
  intro i hi j hj
  have hmovedI := h.getScreen hi
  have hmovedJ := h.getScreen hj
  omega

/-- Screens that are not centred alike are moved against each other. -/
theorem ScreenBBArrangement.RecentersAlike.of_keepsDifferences {a : ScreenBBArrangement}
    {rescale : Rescaling} {model : ScreenListModel}
    (h : KeepsDifferences model (a.update rescale model).2) : a.RecentersAlike rescale model := by
  intro hadjusts hrecenters
  set b := (a.recalculateBoundingBox model.screens).rescaled rescale
  have hscreens : (a.update rescale model).2.screens =
      (model.adjustAll b.centeringX.dis b.centeringY.dis).screens := by
    simp only [update, checkAdjustment]
    rw [if_pos (by simpa using hadjusts), if_pos hrecenters]
    rfl
  let moved (s : UIScreen) := s.setPos (s.posX + b.centeringX.dis) (s.posY + b.centeringY.dis)
  have hmoved : ∀ i < model.screens.length,
      (a.update rescale model).2.getScreen i = moved (model.getScreen i) := by
    intro i hi
    dsimp only [moved]
    rw [← ScreenListModel.getScreen_adjustAll hi, ScreenListModel.getScreen, hscreens]
    rfl
  -- from the indices to the screens
  have hdifference : ∀ s ∈ model.screens, ∀ t ∈ model.screens,
      (moved s).posX - (moved t).posX = s.posX - t.posX ∧
        (moved s).posY - (moved t).posY = s.posY - t.posY := by
    intro s hs t ht
    obtain ⟨i, hi, rfl⟩ := List.getElem_of_mem hs
    obtain ⟨j, hj, rfl⟩ := List.getElem_of_mem ht
    have hkept := h i hi j hj
    rwa [hmoved i hi, hmoved j hj, ScreenListModel.getScreen_eq hi,
      ScreenListModel.getScreen_eq hj] at hkept
  simp only [moved, UIScreen.posX_setPos, UIScreen.posY_setPos] at hdifference
  constructor
  · refine .of_differences UIScreen.posX b.centeringX.dis (fun hzero s => ?_)
      fun s hs t ht => (hdifference s hs t ht).1
    rw [hzero, add_zero]
    exact s.visibleX
  · refine .of_differences UIScreen.posY b.centeringY.dis (fun hzero s => ?_)
      fun s hs t ht => (hdifference s hs t ht).2
    rw [hzero, add_zero]
    exact s.visibleY

/-- One screen is put somewhere, then all are moved. Beside another screen, that is noticed. -/
theorem KeepsDifferences.position_eq {x y : Int} {model model' : ScreenListModel} {index : ℕ}
    {s : UIScreen} (hkeeps : KeepsDifferences model model') (hlt : index < model.screens.length)
    (hne : model.others index ≠ [])
    (h : MovedBy x y (model.put index s).screens model'.screens) :
    s.posX = (model.getScreen index).posX ∧ s.posY = (model.getScreen index).posY := by
  have hlength : (model.put index s).screens.length = model.screens.length :=
    ScreenListModel.length_put
  obtain ⟨i, hi, hother⟩ := ScreenListModel.exists_ne hlt hne
  have hdifference := hkeeps i hi index hlt
  have hmovedI := h.getScreen (hlength.symm ▸ hi)
  have hmoved := h.getScreen (hlength.symm ▸ hlt)
  rw [ScreenListModel.getScreen_put_of_ne hother] at hmovedI
  rw [ScreenListModel.getScreen_put hlt] at hmoved
  omega

/-- If moving all screens makes one model of two that differ in one screen, they do not. -/
theorem MovedBy.position_eq {x y x' y' : Int} {model model' : ScreenListModel} {index : ℕ}
    {s t : UIScreen} (hlt : index < model.screens.length) (hne : model.others index ≠ [])
    (hs : MovedBy x y (model.put index s).screens model'.screens)
    (ht : MovedBy x' y' (model.put index t).screens model'.screens) :
    s.posX = t.posX ∧ s.posY = t.posY := by
  have hlt' : index < (model.put index t).screens.length := ScreenListModel.length_put.symm ▸ hlt
  have hne' : (model.put index t).others index ≠ [] := ScreenListModel.others_put.symm ▸ hne
  rw [← ScreenListModel.put_put (t := s)] at hs
  have hposition := ht.keepsDifferences.position_eq hlt' hne' hs
  rwa [ScreenListModel.getScreen_put hlt] at hposition

namespace ScreenBBArrangement

variable {rescale : Rescaling} {hostname : String} {a : ScreenBBArrangement}
  {model : ScreenListModel} {index : ℕ} {s t : UIScreen}

/-! ## An abandoned snap -/

/-- The model is the one that the second part of `adjustModel` makes without the snap. -/
def LeavesNoTrace (a : ScreenBBArrangement) (rescale : Rescaling) (hostname : String)
    (model : ScreenListModel) (index : ℕ) : Prop :=
  (a.adjustModel rescale hostname model index).2 =
    (a.update rescale (a.adjustToBox hostname model index)).2

/-- The position from which `s` is put beside the others, if it takes the place of the screen. -/
def startOf (a : ScreenBBArrangement) (hostname : String) (model : ScreenListModel) (index : ℕ)
    (s : UIScreen) : Int × Int :=
  a.startingPos hostname (model.put index s) s

/-- Where the setters take the place beside the others. -/
def TakesPlace (a : ScreenBBArrangement) (hostname : String) (model : ScreenListModel) (index : ℕ)
    (s : UIScreen) : Prop :=
  let start := a.startOf hostname model index s
  let pos := (BoundingBox.of (model.others index)).beside start.1 start.2
  AcceptsX pos.1 ∧ AcceptsY pos.2

instance (a : ScreenBBArrangement) (hostname : String) (model : ScreenListModel) (index : ℕ)
    (s : UIScreen) : Decidable (a.TakesPlace hostname model index s) :=
  inferInstanceAs (Decidable (_ ∧ _))

/-- The snap does not matter: the setters have refused it, or from either position the screen is put
to the same place beside the others. -/
def Forgets (a : ScreenBBArrangement) (hostname : String) (model : ScreenListModel) (index : ℕ) :
    Prop :=
  let s := model.getScreen index
  s.Stays (snapOffset model index).1 (snapOffset model index).2 ∨
    (BoundingBox.of (model.others index)).SameSpot (a.startOf hostname model index s)
        (a.startOf hostname model index (takenBack model index)) ∧
      a.TakesPlace hostname model index s

instance (a : ScreenBBArrangement) (hostname : String) (model : ScreenListModel) (index : ℕ) :
    Decidable (a.Forgets hostname model index) :=
  inferInstanceAs (Decidable (_ ∨ _))

/-- No setter refuses a place beside the others, nor treats one screen unlike another. -/
structure Unrefused (a : ScreenBBArrangement) (rescale : Rescaling) (hostname : String)
    (model : ScreenListModel) (index : ℕ) : Prop where
  dropped : a.TakesPlace hostname model index (model.getScreen index)
  takenBack : a.TakesPlace hostname model index (takenBack model index)
  fallback : a.RecentersAlike rescale (a.adjustToBox hostname model index)
  adjusted : a.RecentersAlike rescale (a.adjusted hostname model index)

theorem othersBox_lt (hne : model.others index ≠ []) :
    (BoundingBox.of (model.others index)).topLeftX <
        (BoundingBox.of (model.others index)).bottomRightX ∧
      (BoundingBox.of (model.others index)).topLeftY <
        (BoundingBox.of (model.others index)).bottomRightY := by
  obtain ⟨t, ht⟩ := List.exists_mem_of_ne_nil _ hne
  exact (BoundingBox.of_contains ht).lt

theorem besideOthers_eq (hne : model.others index ≠ []) : a.besideOthers hostname model index s =
    let start := a.startOf hostname model index s
    let pos := (BoundingBox.of (model.others index)).beside start.1 start.2
    s.setPos pos.1 pos.2 := by
  have hlt := othersBox_lt hne
  rw [besideOthers, calculateNewPos, newPos, if_neg (by dsimp only [recalculateBoundingBox]; omega)]
  rfl

theorem TakesPlace.besideOthers (hne : model.others index ≠ [])
    (h : a.TakesPlace hostname model index s) :
    let start := a.startOf hostname model index s
    let pos := (BoundingBox.of (model.others index)).beside start.1 start.2
    (a.besideOthers hostname model index s).posX = pos.1 ∧
      (a.besideOthers hostname model index s).posY = pos.2 := by
  rw [besideOthers_eq hne]
  exact ⟨UIScreen.setPos_posX h.1, UIScreen.setPos_posY h.2⟩

theorem besideOthers_takenBack (hne : model.others index ≠ [])
    (h : a.Forgets hostname model index) :
    a.besideOthers hostname model index (takenBack model index) =
      a.besideOthers hostname model index (model.getScreen index) := by
  have hlt := othersBox_lt hne
  rcases h with hstays | ⟨hspot, htakes⟩
  · rw [takenBack_of_stays hstays]
  · rw [besideOthers_eq hne, besideOthers_eq hne]
    dsimp only
    rw [← (BoundingBox.sameSpot_iff hlt.1 hlt.2).mp hspot]
    exact takenBack_setPos htakes.1 htakes.2

/-- **When an abandoned snap leaves no trace.** Otherwise it leaves one, unless a setter refuses
something. -/
theorem adjustModel_leavesNoTrace (hlt : index < model.screens.length)
    (hcanSnap : canSnap model index = true)
    (hcollides : collideWithOthers (snapToOthers model index) index ≠ []) :
    (a.Forgets hostname model index → a.LeavesNoTrace rescale hostname model index) ∧
      (a.Unrefused rescale hostname model index → a.LeavesNoTrace rescale hostname model index →
        a.Forgets hostname model index) := by
  have hsnaps : snaps model index = false := by
    rw [snaps, hcanSnap, Bool.true_and, List.isEmpty_eq_false_iff]
    exact hcollides
  have hne : model.others index ≠ [] := by
    intro hnil
    rw [collideWithOthers, others_snapToOthers, hnil] at hcollides
    exact hcollides rfl
  have hadjusted : a.adjusted hostname model index =
      model.put index (a.besideOthers hostname model index (takenBack model index)) := by
    rw [adjusted_eq hlt, adjustedScreen, if_neg (Bool.eq_false_iff.mp hsnaps)]
  constructor
  · intro h
    rw [LeavesNoTrace, adjustModel, hadjusted, besideOthers_takenBack hne h, adjustToBox_eq hlt]
  · rintro ⟨hdropped, htakenBack, hfallback, hadjusts⟩ htrace
    obtain ⟨x, y, hmoved⟩ := hadjusts.movedBy
    obtain ⟨x', y', hmoved'⟩ := hfallback.movedBy
    rw [LeavesNoTrace, adjustModel, hadjusted, adjustToBox_eq hlt] at htrace
    rw [hadjusted, htrace] at hmoved
    rw [adjustToBox_eq hlt] at hmoved'
    -- the two models differ in this screen only, and all of both have been moved to one place
    have hsame := MovedBy.position_eq hlt hne hmoved hmoved'
    obtain ⟨hx, hy⟩ := hdropped.besideOthers hne
    obtain ⟨hx', hy'⟩ := htakenBack.besideOthers hne
    have hbox := othersBox_lt hne
    refine Or.inr ⟨(BoundingBox.sameSpot_iff hbox.1 hbox.2).mpr (Prod.ext ?_ ?_), hdropped⟩
    · exact hx.symm.trans (hsame.1.symm.trans hx')
    · exact hy.symm.trans (hsame.2.symm.trans hy')

/-- The third is beside the first two and not level with them. -/
def nearlyLevel : ScreenListModel where
  screens := [(UIScreen.ofName "here").setPos 100 100, (UIScreen.ofName "there").setPos 95 200,
    (UIScreen.ofName "elsewhere").setPos 186 110]

theorem adjustModel_leavesNoTrace_nearlyLevel :
    ({} : ScreenBBArrangement).LeavesNoTrace unscaled "here" nearlyLevel 2 :=
  (adjustModel_leavesNoTrace (by decide +kernel) (by decide +kernel) (by decide +kernel)).1
    (by decide +kernel)

/-- Three screens that have been added one after the other. -/
def row : ScreenListModel where
  screens := [(UIScreen.ofName "here").setPos 257 161, (UIScreen.ofName "there").setPos 343 161,
    (UIScreen.ofName "elsewhere").setPos 171 161]

/-- Dropped where it is, the third is moved to the other end of the row. -/
theorem row_leaves_trace :
    canSnap row 2 = true ∧ collideWithOthers (snapToOthers row 2) 2 ≠ [] ∧
      ¬({} : ScreenBBArrangement).LeavesNoTrace unscaled "here" row 2 :=
  ⟨by decide +kernel, by decide +kernel, fun h => absurd
    (congrArg (fun model => (model.getScreen 2).posX) h) (by decide +kernel)⟩

/-! ## A second call -/

/-- Where the screen can be snapped, nothing is left to be done, or nothing that the setters take.
Where it cannot, it is at the side of the box of the others that is the nearest to the position it
is put beside them from, and level with that position. -/
def Settled (a : ScreenBBArrangement) (hostname : String) (model : ScreenListModel) (index : ℕ) :
    Prop :=
  let s := model.getScreen index
  if snaps model index then s.Stays (snapOffset model index).1 (snapOffset model index).2
  else
    let moved := takenBack model index
    let start := a.startOf hostname model index moved
    let box := BoundingBox.of (model.others index)
    let side := box.nearestSide start.1 start.2
    if side.isVertical then s.HoldsX moved start.1 ∧ s.HoldsY moved (box.edge side)
    else s.HoldsX moved (box.edge side) ∧ s.HoldsY moved start.2

instance (a : ScreenBBArrangement) (hostname : String) (model : ScreenListModel) (index : ℕ) :
    Decidable (a.Settled hostname model index) := by
  unfold Settled
  infer_instance

/-- The screen is alone, or it is settled and all are centred alike. -/
def Repeatable (a : ScreenBBArrangement) (rescale : Rescaling) (hostname : String)
    (model : ScreenListModel) (index : ℕ) : Prop :=
  model.others index = [] ∨ a.Settled hostname model index ∧ a.RecentersAlike rescale model

instance (a : ScreenBBArrangement) (rescale : Rescaling) (hostname : String)
    (model : ScreenListModel) (index : ℕ) : Decidable (a.Repeatable rescale hostname model index) :=
  inferInstanceAs (Decidable (_ ∨ _))

theorem settled_of_onGrid (hsnaps : snaps model index = true)
    (h : ∀ t ∈ model.others index, OnGrid (model.getScreen index) t) :
    a.Settled hostname model index := by
  rw [Settled, if_pos hsnaps, snapOffset_eq_zero.mpr h]
  exact ⟨Or.inl rfl, Or.inl rfl⟩

/-- If the screen has kept its position, it has kept everything. -/
theorem adjustedScreen_eq
    (hx : (a.adjustedScreen hostname model index).posX = (model.getScreen index).posX)
    (hy : (a.adjustedScreen hostname model index).posY = (model.getScreen index).posY) :
    a.adjustedScreen hostname model index = model.getScreen index := by
  set s := model.getScreen index
  -- whatever has been done to the screen, it has only been put somewhere
  have hback : (a.adjustedScreen hostname model index).setPos s.posX s.posY = s := by
    unfold adjustedScreen
    split
    case isTrue => rw [UIScreen.moveBy, UIScreen.setPos_setPos s.visibleX s.visibleY,
      UIScreen.setPos_self]
    case isFalse => rw [besideOthers, calculateNewPos, UIScreen.setPos_setPos s.visibleX s.visibleY,
      takenBack_setPos s.visibleX s.visibleY, UIScreen.setPos_self]
  rwa [← hx, ← hy, UIScreen.setPos_self] at hback

theorem settled_iff (hne : model.others index ≠ []) :
    a.Settled hostname model index ↔
      a.adjustedScreen hostname model index = model.getScreen index := by
  unfold Settled
  dsimp only
  split
  case isTrue hsnaps =>
    rw [adjustedScreen, if_pos hsnaps]
    exact UIScreen.moveBy_eq_self.symm
  case isFalse hnot =>
    -- it is enough to compare the positions
    have hposition : a.adjustedScreen hostname model index = model.getScreen index ↔
        (a.adjustedScreen hostname model index).posX = (model.getScreen index).posX ∧
          (a.adjustedScreen hostname model index).posY = (model.getScreen index).posY :=
      ⟨fun h => ⟨congrArg _ h, congrArg _ h⟩, fun h => adjustedScreen_eq h.1 h.2⟩
    rw [hposition, adjustedScreen, if_neg hnot, besideOthers_eq hne]
    dsimp only
    rw [UIScreen.posX_setPos_eq_iff, UIScreen.posY_setPos_eq_iff, BoundingBox.beside_eq]
    dsimp only
    split <;> rfl

/-- Whether one call keeps the screens where they are, relative to each other. If it moves the
screen and the setters then treat screens unlike, it may be that this comes to the same. -/
theorem adjustModel_keepsDifferences (hlt : index < model.screens.length) :
    (a.Repeatable rescale hostname model index →
        KeepsDifferences model (a.adjustModel rescale hostname model index).2) ∧
      (a.Settled hostname model index ∨
          a.RecentersAlike rescale (a.adjusted hostname model index) →
        KeepsDifferences model (a.adjustModel rescale hostname model index).2 →
          a.Repeatable rescale hostname model index) := by
  by_cases hne : model.others index = []
  · exact ⟨fun _ => .of_alone hlt hne, fun _ _ => Or.inl hne⟩
  have hadjusted : a.Settled hostname model index → a.adjusted hostname model index = model := by
    intro hsettled
    rw [adjusted_eq hlt, (settled_iff hne).mp hsettled, ScreenListModel.put_getScreen hlt]
  constructor
  · rintro (halone | ⟨hsettled, halike⟩)
    · exact absurd halone hne
    · rw [adjustModel, hadjusted hsettled]
      obtain ⟨x, y, hmoved⟩ := halike.movedBy
      exact hmoved.keepsDifferences
  · rintro (hsettled | halike) hkeeps
    · rw [adjustModel, hadjusted hsettled] at hkeeps
      exact Or.inr ⟨hsettled, .of_keepsDifferences hkeeps⟩
    · obtain ⟨x, y, hmoved⟩ := halike.movedBy
      rw [← adjustModel, adjusted_eq hlt] at hmoved
      obtain ⟨hx, hy⟩ := hkeeps.position_eq hlt hne hmoved
      have hsettled := (settled_iff hne).mpr (adjustedScreen_eq hx hy)
      rw [hadjusted hsettled] at halike
      exact Or.inr ⟨hsettled, halike⟩

/-- The third touches the first, and the second is a little further left. The snap to the second is
given up, and the screen comes back to where it is. -/
example :
    let model : ScreenListModel := { screens := [(UIScreen.ofName "here").setPos 100 100,
      (UIScreen.ofName "there").setPos 95 200, (UIScreen.ofName "elsewhere").setPos 186 100] }
    snaps model 2 = false ∧ ({} : ScreenBBArrangement).Settled "here" model 2 := by
  decide +kernel

theorem length_adjustModel :
    (a.adjustModel rescale hostname model index).2.screens.length = model.screens.length := by
  have hids : (a.adjustModel rescale hostname model index).2.ids = model.ids := ids_adjustModel
  have hlength := congrArg List.length hids
  rwa [ScreenListModel.ids, ScreenListModel.ids, List.length_map, List.length_map] at hlength

/-- **When a second call keeps all differences.** -/
theorem adjustModel_twice {x y : Int} (hlt : index < model.screens.length) :
    let first := a.adjustModel rescale hostname (model.moveModel index x y) index
    let second := first.1.adjustModel rescale hostname first.2 index
    (first.1.Repeatable rescale hostname first.2 index → KeepsDifferences first.2 second.2) ∧
      (first.1.Settled hostname first.2 index ∨
          first.1.RecentersAlike rescale (first.1.adjusted hostname first.2 index) →
        KeepsDifferences first.2 second.2 →
          first.1.Repeatable rescale hostname first.2 index) := by
  intro first second
  refine adjustModel_keepsDifferences ?_
  rwa [length_adjustModel, ScreenListModel.length_moveModel]

theorem adjustModel_twice_level :
    KeepsDifferences
      (({} : ScreenBBArrangement).adjustModel unscaled "first"
        ((pair 257 161).moveModel 1 10 0) 1).2
      ((({} : ScreenBBArrangement).adjustModel unscaled "first"
          ((pair 257 161).moveModel 1 10 0) 1).1.adjustModel unscaled "first"
        (({} : ScreenBBArrangement).adjustModel unscaled "first"
          ((pair 257 161).moveModel 1 10 0) 1).2 1).2 :=
  (adjustModel_twice (by decide +kernel)).1 (by decide +kernel)

/-- The third is moved by three and snapped back. Then it is moved to the other end of the row. -/
theorem row_thrown :
    (∀ i < 3, row.Clear i) ∧
      ¬KeepsDifferences
        (({} : ScreenBBArrangement).adjustModel unscaled "here" (row.moveModel 2 3 0) 2).2
        ((({} : ScreenBBArrangement).adjustModel unscaled "here"
            (row.moveModel 2 3 0) 2).1.adjustModel unscaled "here"
          (({} : ScreenBBArrangement).adjustModel unscaled "here"
            (row.moveModel 2 3 0) 2).2 2).2 :=
  ⟨by decide +kernel, fun h => absurd
    (h 0 (by decide +kernel) 2 (by decide +kernel)).1 (by decide +kernel)⟩

end ScreenBBArrangement

end Synergy.Arrangement
