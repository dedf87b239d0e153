import Synergy.Arrangement.Centering

/-!
# Snapping to the others

What `adjustModel` makes of a screen, apart from centring. It is snapped by the offset that the
others ask for, which is nothing only on the grid of all of them. If it then covers one of them, it
is put beside their box instead, from where it is after the same move has been made once more.
-/

set_option autoImplicit false

namespace Synergy.Arrangement

/-! ## One screen is put somewhere -/

namespace UIScreen

variable {s t : UIScreen} {x y x' y' : Int}

def moveBy (s : UIScreen) (x y : Int) : UIScreen := s.setPos (s.posX + x) (s.posY + y)

/-- Nothing is asked of the setters, or they refuse it. -/
def Stays (s : UIScreen) (x y : Int) : Prop :=
  (x = 0 ∨ ¬AcceptsX (s.posX + x)) ∧ (y = 0 ∨ ¬AcceptsY (s.posY + y))

instance : Decidable (s.Stays x y) := inferInstanceAs (Decidable (_ ∧ _))

/-- The screen has this coordinate; or the setter refuses it, and the screen has that of `moved`. -/
def HoldsX (s moved : UIScreen) (x : Int) : Prop := s.posX = x ∨ ¬AcceptsX x ∧ s.posX = moved.posX

def HoldsY (s moved : UIScreen) (y : Int) : Prop := s.posY = y ∨ ¬AcceptsY y ∧ s.posY = moved.posY

instance : Decidable (s.HoldsX t x) := inferInstanceAs (Decidable (_ ∨ _))

instance : Decidable (s.HoldsY t y) := inferInstanceAs (Decidable (_ ∨ _))

theorem posX_setPos : (s.setPos x y).posX = if AcceptsX x then x else s.posX := by
  rw [setPos, setPosY_posX, setPosX]
  split <;> rfl

theorem posY_setPos : (s.setPos x y).posY = if AcceptsY y then y else s.posY := by
  rw [setPos, setPosY]
  split
  · rfl
  · exact setPosX_posY

/-- What a setter makes of a coordinate, compared with one that it would take. -/
theorem ite_accepts_eq_iff {accepts : Int → Prop} [DecidablePred accepts] {old : Int}
    (hy : accepts y) : (if accepts x then x else old) = y ↔ y = x ∨ ¬accepts x ∧ y = old := by
  split
  case isTrue haccepts =>
    constructor
    · exact fun h => Or.inl h.symm
    · rintro (h | ⟨hrefused, -⟩)
      · exact h.symm
      · exact absurd haccepts hrefused
  case isFalse hrefused =>
    constructor
    · exact fun h => Or.inr ⟨hrefused, h.symm⟩
    · rintro (rfl | ⟨-, h⟩)
      · exact absurd hy hrefused
      · exact h.symm

theorem posX_setPos_eq_iff : (t.setPos x y).posX = s.posX ↔ s.HoldsX t x := by
  rw [posX_setPos]
  exact ite_accepts_eq_iff s.visibleX

theorem posY_setPos_eq_iff : (t.setPos x y).posY = s.posY ↔ s.HoldsY t y := by
  rw [posY_setPos]
  exact ite_accepts_eq_iff s.visibleY

theorem setPos_of_accepts (hx : AcceptsX x) (hy : AcceptsY y) :
    s.setPos x y = { s with posX := x, posY := y, visibleX := hx, visibleY := hy } := by
  rw [setPos, setPosX, dif_pos hx, setPosY, dif_pos hy]

/-- Where no setter minds, it does not matter where the screen was before. -/
theorem setPos_setPos (hx : AcceptsX x) (hy : AcceptsY y) :
    (s.setPos x' y').setPos x y = s.setPos x y := by
  rw [setPos_of_accepts hx hy, setPos_of_accepts hx hy]
  unfold setPos setPosX setPosY
  split <;> split <;> rfl

theorem setPos_self : s.setPos s.posX s.posY = s := setPos_of_accepts s.visibleX s.visibleY

theorem setPosX_ite : s.setPosX (if AcceptsX x then x else s.posX) = s.setPosX x := by
  split
  case isTrue => rfl
  case isFalse hnot => rw [setPosX, dif_pos s.visibleX, setPosX, dif_neg hnot]

theorem setPosY_ite : s.setPosY (if AcceptsY y then y else s.posY) = s.setPosY y := by
  split
  case isTrue => rfl
  case isFalse hnot => rw [setPosY, dif_pos s.visibleY, setPosY, dif_neg hnot]

/-- From one position, two screens are put to one position. -/
theorem setPos_setPos_of_eq (hx : t.posX = s.posX) (hy : t.posY = s.posY) :
    s.setPos (t.setPos x y).posX (t.setPos x y).posY = s.setPos x y := by
  have hposY : s.posY = (s.setPosX x).posY := setPosX_posY.symm
  rw [posX_setPos, posY_setPos, hx, hy, setPos, setPosX_ite, hposY, setPosY_ite, setPos]

theorem moveBy_eq_self : s.moveBy x y = s ↔ s.Stays x y := by
  constructor
  · intro h
    have hposX := congrArg posX h
    have hposY := congrArg posY h
    rw [moveBy, posX_setPos] at hposX
    rw [moveBy, posY_setPos] at hposY
    constructor
    · by_cases hx : AcceptsX (s.posX + x)
      · rw [if_pos hx] at hposX
        exact Or.inl (by omega)
      · exact Or.inr hx
    · by_cases hy : AcceptsY (s.posY + y)
      · rw [if_pos hy] at hposY
        exact Or.inl (by omega)
      · exact Or.inr hy
  · rintro ⟨hx, hy⟩
    have hposX : s.setPosX (s.posX + x) = s := by
      rcases hx with rfl | hx
      · rw [add_zero, setPosX, dif_pos s.visibleX]
      · rw [setPosX, dif_neg hx]
    have hposY : s.setPosY (s.posY + y) = s := by
      rcases hy with rfl | hy
      · rw [add_zero, setPosY, dif_pos s.visibleY]
      · rw [setPosY, dif_neg hy]
    rw [moveBy, setPos, hposX, hposY]

end UIScreen

namespace ScreenListModel

variable {model : ScreenListModel} {index i : ℕ} {s t : UIScreen} {x y : Int}

def put (model : ScreenListModel) (index : ℕ) (s : UIScreen) : ScreenListModel :=
  { model with screens := model.screens.set index s }

@[simp] theorem length_put : (model.put index s).screens.length = model.screens.length :=
  List.length_set

@[simp] theorem others_put : (model.put index s).others index = model.others index :=
  List.eraseIdx_set_eq

@[simp] theorem put_put : (model.put index s).put index t = model.put index t := by
  simp [put]

theorem getScreen_put (h : index < model.screens.length) :
    (model.put index s).getScreen index = s := by
  rw [getScreen_eq (length_put.symm ▸ h)]
  exact List.getElem_set_self ..

theorem getScreen_put_of_ne (h : i ≠ index) :
    (model.put index s).getScreen i = model.getScreen i := by
  simp [put, getScreen, List.getD_eq_getElem?_getD, List.getElem?_set_ne h.symm]

theorem put_getScreen (h : index < model.screens.length) :
    model.put index (model.getScreen index) = model := by
  rw [put, getScreen_eq h, List.set_getElem_self]

theorem moveModel_put (h : index < model.screens.length) :
    (model.put index s).moveModel index x y = model.put index (s.moveBy x y) := by
  unfold moveModel put
  congr 1
  refine List.ext_getElem? fun i => ?_
  rw [List.getElem?_modify]
  by_cases hi : index = i
  · subst hi
    simp [h, UIScreen.moveBy]
  · simp [hi]

theorem moveModel_eq (h : index < model.screens.length) :
    model.moveModel index x y = model.put index ((model.getScreen index).moveBy x y) := by
  have hput := moveModel_put h (s := model.getScreen index) (x := x) (y := y)
  rwa [put_getScreen h] at hput

theorem exists_ne (h : index < model.screens.length) (hne : model.others index ≠ []) :
    ∃ i < model.screens.length, i ≠ index := by
  have hlength := List.length_pos_iff.mpr hne
  rw [others, List.length_eraseIdx_of_lt h] at hlength
  by_cases hzero : index = 0
  · exact ⟨1, by omega, by omega⟩
  · exact ⟨0, by omega, by omega⟩

end ScreenListModel

/-! ## What the snap asks for -/

/-- The adjustment of `snapToOthers`. -/
def snapOffset (model : ScreenListModel) (index : ℕ) : Int × Int :=
  combineAdjustments ((model.others index).map (calculateSnapping (model.getScreen index)))

/-- The screens are level or one icon apart, on each axis. -/
def OnGrid (s t : UIScreen) : Prop :=
  (s.posX = t.posX ∨ s.posX = t.posX - kScreenIconWidth ∨ s.posX = t.posX + kScreenIconWidth) ∧
    (s.posY = t.posY ∨ s.posY = t.posY - kScreenIconHeight ∨ s.posY = t.posY + kScreenIconHeight)

theorem foldl_minAdjustment (adjustments : List Int) {least : Int} (hleast : least ≠ 0)
    (hle : least = intMax ∨ least.natAbs < intMax.natAbs)
    (h : ∀ a ∈ adjustments, a.natAbs < intMax.natAbs) :
    let result := adjustments.foldl
      (fun least a => if least.natAbs > a.natAbs ∧ a.natAbs ≠ 0 then a else least) least
    result ≠ 0 ∧ (result = intMax ∨ result.natAbs < intMax.natAbs) ∧
      (result = intMax ↔ least = intMax ∧ ∀ a ∈ adjustments, a = 0) := by
  -- the least one so far is never 0, and `intMax` only as long as there has been nothing but 0
  induction adjustments generalizing least with
  | nil => simpa using ⟨hleast, hle⟩
  | cons a adjustments ih =>
    obtain ⟨ha, h⟩ := List.forall_mem_cons.mp h
    rw [List.foldl_cons]
    split
    case isTrue hless =>
      obtain ⟨hne, hbound, hiff⟩ := ih (by omega) (Or.inr ha) h
      refine ⟨hne, hbound, hiff.trans ?_⟩
      rw [List.forall_mem_cons]
      constructor
      · rintro ⟨rfl, -⟩
        omega
      · rintro ⟨-, rfl, -⟩
        omega
    case isFalse hless =>
      obtain ⟨hne, hbound, hiff⟩ := ih hleast hle h
      refine ⟨hne, hbound, hiff.trans ?_⟩
      rw [List.forall_mem_cons]
      constructor
      · rintro ⟨rfl, hall⟩
        exact ⟨rfl, by omega, hall⟩
      · rintro ⟨rfl, -, hall⟩
        exact ⟨rfl, hall⟩

theorem minAdjustment_spec (adjustments : List Int)
    (h : ∀ a ∈ adjustments, a.natAbs < intMax.natAbs) :
    minAdjustment adjustments ≠ 0 ∧
      (minAdjustment adjustments = intMax ∨ (minAdjustment adjustments).natAbs < intMax.natAbs) ∧
      (minAdjustment adjustments = intMax ↔ ∀ a ∈ adjustments, a = 0) := by
  obtain ⟨hne, hbound, hiff⟩ := foldl_minAdjustment adjustments (by decide) (Or.inl rfl) h
  exact ⟨hne, hbound, hiff.trans (and_iff_right rfl)⟩

/-- Two smallest adjustments give no offset only if there are none. -/
theorem combineAdjustments_eq_zero {adjustments : List (Int × Int)}
    (h : ∀ p ∈ adjustments, p.1.natAbs < intMax.natAbs ∧ p.2.natAbs < intMax.natAbs) :
    combineAdjustments adjustments = (0, 0) ↔ ∀ p ∈ adjustments, p = (0, 0) := by
  obtain ⟨hneX, hboundX, hiffX⟩ := minAdjustment_spec (adjustments.map Prod.fst)
    (List.forall_mem_map.mpr fun p hp => (h p hp).1)
  obtain ⟨hneY, hboundY, hiffY⟩ := minAdjustment_spec (adjustments.map Prod.snd)
    (List.forall_mem_map.mpr fun p hp => (h p hp).2)
  have hnone : (∀ p ∈ adjustments, p = (0, 0)) ↔
      minAdjustment (adjustments.map Prod.fst) = intMax ∧
        minAdjustment (adjustments.map Prod.snd) = intMax := by
    rw [hiffX, hiffY, List.forall_mem_map, List.forall_mem_map, ← forall_and]
    simp only [Prod.ext_iff, ← imp_and]
  rw [hnone]
  unfold combineAdjustments
  split
  case isTrue hempty =>
    rw [List.isEmpty_iff.mp hempty]
    exact iff_of_true rfl ⟨rfl, rfl⟩
  case isFalse =>
    -- an axis gives way only to one that needs less, so not both do
    generalize minAdjustment (adjustments.map Prod.fst) = x at *
    generalize minAdjustment (adjustments.map Prod.snd) = y at *
    have hthreshold : kSnappingThreshold = 7 := rfl
    have hmax : intMax = 2147483647 := rfl
    simp only [decide_eq_true_eq, Prod.mk.injEq]
    split_ifs <;> omega

theorem calculateSnapping_eq_zero {s t : UIScreen} :
    calculateSnapping s t = (0, 0) ↔ OnGrid s t := by
  have hw : kScreenIconWidth = 86 := rfl
  have hh : kScreenIconHeight = 58 := rfl
  have hX : adjustment s.posX t.posX kScreenIconWidth = 0 ↔ s.posX = t.posX ∨
      s.posX = t.posX - kScreenIconWidth ∨ s.posX = t.posX + kScreenIconWidth := by
    unfold adjustment
    split_ifs <;> omega
  have hY : adjustment s.posY t.posY kScreenIconHeight = 0 ↔ s.posY = t.posY ∨
      s.posY = t.posY - kScreenIconHeight ∨ s.posY = t.posY + kScreenIconHeight := by
    unfold adjustment
    split_ifs <;> omega
  rw [OnGrid, ← hX, ← hY]
  unfold calculateSnapping
  dsimp only
  split_ifs <;> simp only [Prod.mk.injEq] <;> omega

theorem calculateSnapping_lt (s t : UIScreen) :
    (calculateSnapping s t).1.natAbs < intMax.natAbs ∧
      (calculateSnapping s t).2.natAbs < intMax.natAbs := by
  have hX : (adjustment s.posX t.posX kScreenIconWidth).natAbs < intMax.natAbs := by
    have hs := s.visibleX
    have ht := t.visibleX
    simp only [AcceptsX, kScreenIconWidth, kDefaultViewWidth] at hs ht
    simp only [adjustment, kScreenIconWidth, intMax]
    split_ifs <;> omega
  have hY : (adjustment s.posY t.posY kScreenIconHeight).natAbs < intMax.natAbs := by
    have hs := s.visibleY
    have ht := t.visibleY
    simp only [AcceptsY, kScreenIconHeight, kDefaultViewHeight] at hs ht
    simp only [adjustment, kScreenIconHeight, intMax]
    split_ifs <;> omega
  have hzero : (0 : Int).natAbs < intMax.natAbs := by decide
  unfold calculateSnapping
  dsimp only
  split_ifs
  case pos => exact ⟨hX, hY⟩
  case pos => exact ⟨hX, hzero⟩
  case pos => exact ⟨hzero, hY⟩
  case neg => exact ⟨hX, hY⟩

/-- Snapping leaves a screen where it is if it is on the grid of all others. -/
theorem snapOffset_eq_zero {model : ScreenListModel} {index : ℕ} :
    snapOffset model index = (0, 0) ↔
      ∀ t ∈ model.others index, OnGrid (model.getScreen index) t := by
  rw [snapOffset, combineAdjustments_eq_zero
    (List.forall_mem_map.mpr fun t _ => calculateSnapping_lt _ t), List.forall_mem_map]
  exact forall₂_congr fun t _ => calculateSnapping_eq_zero

theorem testSnapToOnAxis_of_apart {fromPos toPos : Int} {onAxisX : Bool}
    (hfrom : fromPos.natAbs < 600) (hto : toPos.natAbs < 600)
    (h : let size := if onAxisX then kScreenIconWidth else kScreenIconHeight
      toPos + size ≤ fromPos ∨ fromPos + size ≤ toPos) :
    testSnapToOnAxis fromPos toPos kSnappingThreshold intMax onAxisX = true := by
  have hw : kScreenIconWidth = 86 := rfl
  have hh : kScreenIconHeight = 58 := rfl
  simp only [testSnapToOnAxis, kSnappingThreshold, intMin, intMax]
  refine decide_eq_true ?_
  cases onAxisX <;> simp only [if_true, Bool.false_eq_true, if_false] at h ⊢ <;>
    split_ifs <;> omega

/-- A screen that covers no other is near enough to be snapped to them. -/
theorem ScreenListModel.Clear.canSnap {model : ScreenListModel} {index : ℕ}
    (h : model.Clear index) (hlt : index < model.screens.length)
    (hne : model.others index ≠ []) : canSnap model index = true := by
  obtain ⟨i, hi, hother⟩ := exists_ne hlt hne
  rw [Arrangement.canSnap, Bool.and_eq_true, List.all_eq_true]
  refine ⟨decide_eq_true (by omega), fun t ht => ?_⟩
  have hapart := collide_eq_false.mp (h t ht)
  have hsX := (model.getScreen index).visibleX
  have hsY := (model.getScreen index).visibleY
  have htX := t.visibleX
  have htY := t.visibleY
  simp only [AcceptsX, AcceptsY, kScreenIconWidth, kScreenIconHeight, kDefaultViewWidth,
    kDefaultViewHeight] at hapart hsX hsY htX htY
  rw [testSnapTo, if_neg (by decide), Bool.or_eq_true]
  -- the test of one axis is enough, and it is passed on the axis on which the icons are apart
  by_cases hx : t.posX + 86 ≤ (model.getScreen index).posX ∨
      (model.getScreen index).posX + 86 ≤ t.posX
  · exact Or.inl (testSnapToOnAxis_of_apart (by omega) (by omega) hx)
  · refine Or.inr (testSnapToOnAxis_of_apart (by omega) (by omega) ?_)
    simp only [Bool.false_eq_true, if_false, kScreenIconHeight]
    omega

/-! ## Beside the box -/

/-- A screen on this side is put above or below the box. -/
def Side.isVertical : Side → Bool
  | .left | .right => false
  | .top | .bottom => true

namespace BoundingBox

/-- The coordinate that a screen gets on this side. -/
def edge (box : BoundingBox) : Side → Int
  | .left => box.topLeftX - kScreenIconWidth
  | .right => box.bottomRightX
  | .top => box.topLeftY - kScreenIconHeight
  | .bottom => box.bottomRightY

theorem beside_eq {box : BoundingBox} {x y : Int} : box.beside x y =
    let side := box.nearestSide x y
    if side.isVertical then (x, box.edge side) else (box.edge side, y) := by
  unfold beside
  dsimp only
  cases box.nearestSide x y <;> rfl

/-- From either position a screen is put to the same place: on one side, from where only the
distance to that side differs; or on two sides, in the corner between them. -/
def SameSpot (box : BoundingBox) (p p' : Int × Int) : Prop :=
  let side := box.nearestSide p.1 p.2
  let side' := box.nearestSide p'.1 p'.2
  (side = side' ∧ if side.isVertical then p.1 = p'.1 else p.2 = p'.2) ∨
    side.isVertical ≠ side'.isVertical ∧
      if side.isVertical then p.1 = box.edge side' ∧ p'.2 = box.edge side
      else p.2 = box.edge side' ∧ p'.1 = box.edge side

instance (box : BoundingBox) (p p' : Int × Int) : Decidable (box.SameSpot p p') := by
  unfold SameSpot
  infer_instance

theorem sameSpot_iff {box : BoundingBox} {p p' : Int × Int} (hx : box.topLeftX < box.bottomRightX)
    (hy : box.topLeftY < box.bottomRightY) :
    box.SameSpot p p' ↔ box.beside p.1 p.2 = box.beside p'.1 p'.2 := by
  have hw : kScreenIconWidth = 86 := rfl
  have hh : kScreenIconHeight = 58 := rfl
  unfold SameSpot beside
  dsimp only
  cases box.nearestSide p.1 p.2 <;> cases box.nearestSide p'.1 p'.2 <;>
    simp [Side.isVertical, edge] <;> omega

end BoundingBox

/-! ## What a call does -/

/-- The screen as the second part of `adjustModel` finds it. Where it has been snapped, it has been
moved by the offset twice, as far as the setters have let it. -/
def takenBack (model : ScreenListModel) (index : ℕ) : UIScreen :=
  let s := model.getScreen index
  if canSnap model index then
    let snapped := s.moveBy (snapOffset model index).1 (snapOffset model index).2
    snapped.moveBy (snapped.posX - s.posX) (snapped.posY - s.posY)
  else s

section

variable {model : ScreenListModel} {index : ℕ} {x y : Int}

theorem snapToOthers_eq (h : index < model.screens.length) : snapToOthers model index =
    model.put index ((model.getScreen index).moveBy (snapOffset model index).1
      (snapOffset model index).2) :=
  ScreenListModel.moveModel_eq h

theorem unsnapped_eq (h : index < model.screens.length) :
    unsnapped model index = model.put index (takenBack model index) := by
  unfold unsnapped takenBack
  split
  case isTrue =>
    dsimp only
    rw [snapToOthers_eq h, ScreenListModel.getScreen_put h, ScreenListModel.moveModel_put h]
  case isFalse => exact (ScreenListModel.put_getScreen h).symm

/-- Where no setter minds, it does not matter that the screen has been moved. -/
theorem takenBack_setPos (hx : AcceptsX x) (hy : AcceptsY y) :
    (takenBack model index).setPos x y = (model.getScreen index).setPos x y := by
  unfold takenBack
  split
  case isTrue =>
    dsimp only
    rw [UIScreen.moveBy, UIScreen.setPos_setPos hx hy, UIScreen.moveBy,
      UIScreen.setPos_setPos hx hy]
  case isFalse => rfl

/-- If the setters refuse what snapping asks for, nothing has to be taken back. -/
theorem takenBack_of_stays
    (h : (model.getScreen index).Stays (snapOffset model index).1 (snapOffset model index).2) :
    takenBack model index = model.getScreen index := by
  unfold takenBack
  split
  case isTrue =>
    dsimp only
    rw [UIScreen.moveBy_eq_self.mpr h, sub_self, sub_self, UIScreen.moveBy, add_zero, add_zero,
      UIScreen.setPos_self]
  case isFalse => rfl

end

namespace ScreenBBArrangement

variable {rescale : Rescaling} {hostname : String} {a : ScreenBBArrangement}
  {model : ScreenListModel} {index : ℕ} {s t : UIScreen}

/-- The screen beside the others, where it starts from the position of `s`. -/
def besideOthers (a : ScreenBBArrangement) (hostname : String) (model : ScreenListModel)
    (index : ℕ) (s : UIScreen) : UIScreen :=
  (a.recalculateBoundingBox (model.others index)).calculateNewPos hostname (model.put index s) s

theorem newPos_congr (hx : t.posX = s.posX) (hy : t.posY = s.posY) :
    a.newPos hostname model t = a.newPos hostname model s := by
  simp only [newPos, startingPos, hx, hy]

theorem adjustToBox_put (s : UIScreen) (h : index < model.screens.length) :
    a.adjustToBox hostname (model.put index s) index =
      model.put index (a.besideOthers hostname model index s) := by
  unfold adjustToBox
  dsimp only
  rw [ScreenListModel.others_put, ScreenListModel.getScreen_put h,
    ScreenListModel.moveModel_put h]
  -- `temp` is calculated with in the place of the screen, and has nothing of it but the position
  set temp := ((UIScreen.ofName "temp").setPosX s.posX).setPosY s.posY
  have htempX : temp.posX = s.posX := UIScreen.setPos_posX s.visibleX
  have htempY : temp.posY = s.posY := UIScreen.setPos_posY s.visibleY
  rw [UIScreen.moveBy, add_sub_cancel, add_sub_cancel, calculateNewPos, newPos_congr htempX htempY,
    UIScreen.setPos_setPos_of_eq htempX htempY]
  rfl

theorem adjustToBox_eq (h : index < model.screens.length) : a.adjustToBox hostname model index =
    model.put index (a.besideOthers hostname model index (model.getScreen index)) := by
  rw [← adjustToBox_put _ h, ScreenListModel.put_getScreen h]

/-- What `adjustModel` makes of the screen, before all are centred. -/
def adjustedScreen (a : ScreenBBArrangement) (hostname : String) (model : ScreenListModel)
    (index : ℕ) : UIScreen :=
  if snaps model index then
    (model.getScreen index).moveBy (snapOffset model index).1 (snapOffset model index).2
  else a.besideOthers hostname model index (takenBack model index)

theorem adjusted_eq (h : index < model.screens.length) : a.adjusted hostname model index =
    model.put index (a.adjustedScreen hostname model index) := by
  unfold adjusted adjustedScreen
  split
  case isTrue => exact snapToOthers_eq h
  case isFalse => rw [unsnapped_eq h, adjustToBox_put _ h]

end ScreenBBArrangement

end Synergy.Arrangement
