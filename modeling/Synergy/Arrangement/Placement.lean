import Mathlib.Data.List.InsertIdx
import Synergy.Lib.Run
import Synergy.Arrangement.ScreenBBArrangement

/-!
# Where a screen is put, it covers no other

Beside a box that contains the others a screen covers none of them, and moving all screens by one
vector covers none either. What stands between this and `addScreen` is the box, which is the one of
the last `update` of the arrangement, not of the screens as they are now; and the setters, which
leave a coordinate as it is rather than set it to one out of sight.
-/

set_option autoImplicit false

namespace Synergy.Arrangement

open Lib

/-- The box contains the screen's icon. -/
structure BoundingBox.Contains (box : BoundingBox) (s : UIScreen) : Prop where
  left : box.topLeftX ≤ s.posX
  top : box.topLeftY ≤ s.posY
  right : s.posX + kScreenIconWidth ≤ box.bottomRightX
  bottom : s.posY + kScreenIconHeight ≤ box.bottomRightY

instance (box : BoundingBox) (s : UIScreen) : Decidable (box.Contains s) :=
  decidable_of_iff (box.topLeftX ≤ s.posX ∧ box.topLeftY ≤ s.posY ∧
      s.posX + kScreenIconWidth ≤ box.bottomRightX ∧ s.posY + kScreenIconHeight ≤ box.bottomRightY)
    ⟨fun ⟨hl, ht, hr, hb⟩ => ⟨hl, ht, hr, hb⟩, fun ⟨hl, ht, hr, hb⟩ => ⟨hl, ht, hr, hb⟩⟩

/-- The setter takes the coordinate that puts a screen on this side. -/
def BoundingBox.HasRoom (box : BoundingBox) : Side → Prop
  | .left => AcceptsX (box.topLeftX - kScreenIconWidth)
  | .right => AcceptsX box.bottomRightX
  | .top => AcceptsY (box.topLeftY - kScreenIconHeight)
  | .bottom => AcceptsY box.bottomRightY

instance (box : BoundingBox) (side : Side) : Decidable (box.HasRoom side) := by
  cases side <;> exact inferInstanceAs (Decidable (¬_))

/-- The icon of this screen covers no other. -/
def ScreenListModel.Clear (model : ScreenListModel) (index : ℕ) : Prop :=
  ∀ t ∈ model.others index, collide (model.getScreen index) t = false

instance (model : ScreenListModel) (index : ℕ) : Decidable (model.Clear index) :=
  inferInstanceAs (Decidable (∀ t ∈ _, _))

namespace ScreenBBArrangement

/-- The side that a screen is put on. -/
def side (a : ScreenBBArrangement) (hostname : String) (model : ScreenListModel)
    (screen : UIScreen) : Side :=
  let start := a.startingPos hostname model screen
  a.box.nearestSide start.1 start.2

/-- There is room for a new screen on the side that it is put on. -/
def HasRoom (a : ScreenBBArrangement) (hostname : String) (model : ScreenListModel)
    (screen : UIScreen) : Prop :=
  a.box.HasRoom (a.side hostname model screen)

instance (a : ScreenBBArrangement) (hostname : String) (model : ScreenListModel)
    (screen : UIScreen) : Decidable (a.HasRoom hostname model screen) :=
  inferInstanceAs (Decidable (BoundingBox.HasRoom _ _))

/-- There is room for a screen of the model beside the others. -/
def HasRoomBeside (a : ScreenBBArrangement) (hostname : String) (model : ScreenListModel)
    (index : ℕ) : Prop :=
  (a.recalculateBoundingBox (model.others index)).HasRoom hostname model (model.getScreen index)

instance (a : ScreenBBArrangement) (hostname : String) (model : ScreenListModel) (index : ℕ) :
    Decidable (a.HasRoomBeside hostname model index) :=
  inferInstanceAs (Decidable (HasRoom _ _ _ _))

/-- Where an update centres the screens, no setter refuses a coordinate. -/
def Recenterable (a : ScreenBBArrangement) (rescale : Rescaling) (model : ScreenListModel) : Prop :=
  let a := a.recalculateBoundingBox model.screens
  let a' := a.rescaled rescale
  (a.wasOutside || a.viewTooBig) = true → a.recenters a' false = true → ∀ s ∈ model.screens,
    AcceptsX (s.posX + a'.centeringX.dis) ∧ AcceptsY (s.posY + a'.centeringY.dis)

instance (a : ScreenBBArrangement) (rescale : Rescaling) (model : ScreenListModel) :
    Decidable (a.Recenterable rescale model) :=
  inferInstanceAs (Decidable (_ → _ → ∀ s ∈ _, _))

end ScreenBBArrangement

/-! ## The box of the screens -/

namespace BoundingBox

variable {box : BoundingBox} {s t : UIScreen} {screens : List UIScreen}

theorem Contains.enclose (h : box.Contains s) : (box.enclose t).Contains s where
  left := (min_le_left _ _).trans h.left
  top := (min_le_left _ _).trans h.top
  right := h.right.trans (le_max_left _ _)
  bottom := h.bottom.trans (le_max_left _ _)

theorem enclose_contains : (box.enclose s).Contains s where
  left := min_le_right _ _
  top := min_le_right _ _
  right := le_max_right _ _
  bottom := le_max_right _ _

theorem foldl_enclose_contains (box : BoundingBox) (h : box.Contains s ∨ s ∈ screens) :
    (screens.foldl enclose box).Contains s := by
  induction screens generalizing box with
  | nil => exact h.resolve_right List.not_mem_nil
  | cons t screens ih =>
    refine ih _ ?_
    rcases h with h | h
    · exact Or.inl h.enclose
    · rcases List.mem_cons.mp h with rfl | h
      · exact Or.inl enclose_contains
      · exact Or.inr h

/-- A box with a screen in it has none of the extreme values. -/
theorem Contains.settle (h : box.Contains s) : box.settle = box := by
  obtain ⟨hleft, htop, hright, hbottom⟩ := h
  have hx := s.visibleX
  have hy := s.visibleY
  simp only [AcceptsX, AcceptsY, kScreenIconWidth, kScreenIconHeight, kDefaultViewWidth,
    kDefaultViewHeight] at *
  unfold BoundingBox.settle
  rw [if_neg, if_neg, if_neg, if_neg]
  all_goals simp only [intMax, intMin]; omega

theorem of_contains (h : s ∈ screens) : (of screens).Contains s := by
  have hfold := foldl_enclose_contains ⟨intMax, intMax, intMin, intMin⟩ (Or.inr h)
  rwa [of, hfold.settle]

theorem Contains.lt (h : box.Contains s) :
    box.topLeftX < box.bottomRightX ∧ box.topLeftY < box.bottomRightY := by
  obtain ⟨hleft, htop, hright, hbottom⟩ := h
  simp only [kScreenIconWidth, kScreenIconHeight] at hright hbottom
  omega

end BoundingBox

theorem collide_eq_false {s t : UIScreen} : collide s t = false ↔
    t.posX + kScreenIconWidth ≤ s.posX ∨ t.posY + kScreenIconHeight ≤ s.posY ∨
      s.posX + kScreenIconWidth ≤ t.posX ∨ s.posY + kScreenIconHeight ≤ t.posY := by
  simp only [collide, Bool.and_eq_false_iff, decide_eq_false_iff_not, not_lt, gt_iff_lt, or_assoc]

theorem BoundingBox.beside_clear {box : BoundingBox} {s t : UIScreen} {x y : Int}
    (h : box.Contains t) (room : box.HasRoom (box.nearestSide x y)) :
    collide (s.setPos (box.beside x y).1 (box.beside x y).2) t = false := by
  obtain ⟨hleft, htop, hright, hbottom⟩ := h
  rw [collide_eq_false]
  unfold BoundingBox.beside
  cases hside : box.nearestSide x y <;> rw [hside] at room
  case left => rw [UIScreen.setPos_posX room]; omega
  case right => rw [UIScreen.setPos_posX room]; omega
  case top => rw [UIScreen.setPos_posY room]; omega
  case bottom => rw [UIScreen.setPos_posY room]; omega

/-! ## Models with one screen moved, or all -/

namespace ScreenListModel

variable {model : ScreenListModel} {index : ℕ} {x y : Int}

theorem getScreen_mem (h : index < model.screens.length) :
    model.getScreen index ∈ model.screens := by
  rw [getScreen_eq h]
  exact List.getElem_mem h

theorem mem_of_mem_others {t : UIScreen} (h : t ∈ model.others index) : t ∈ model.screens :=
  List.mem_of_mem_eraseIdx h

@[simp] theorem length_moveModel :
    (model.moveModel index x y).screens.length = model.screens.length :=
  List.length_modify _ _ _

@[simp] theorem others_moveModel : (model.moveModel index x y).others index = model.others index :=
  List.eraseIdx_modify_of_eq _ _ _

theorem getScreen_moveModel (h : index < model.screens.length) :
    (model.moveModel index x y).getScreen index =
      (model.getScreen index).setPos ((model.getScreen index).posX + x)
        ((model.getScreen index).posY + y) := by
  rw [getScreen_eq h, getScreen_eq (length_moveModel.symm ▸ h)]
  exact List.getElem_modify_eq ..

@[simp] theorem others_addScreen {s : UIScreen} :
    (model.addScreen s).others model.screens.length = model.screens := by
  simp [others, addScreen, List.eraseIdx_append_of_length_le]

@[simp] theorem getScreen_addScreen {s : UIScreen} :
    (model.addScreen s).getScreen model.screens.length = s := by
  simp [getScreen, addScreen]

theorem getScreen_adjustAll (h : index < model.screens.length) :
    (model.adjustAll x y).getScreen index =
      (model.getScreen index).setPos ((model.getScreen index).posX + x)
        ((model.getScreen index).posY + y) := by
  have hlt : index < (model.adjustAll x y).screens.length := by rwa [adjustAll, List.length_map]
  rw [getScreen_eq h, getScreen_eq hlt]
  exact List.getElem_map _

theorem mem_others_adjustAll {t : UIScreen} : t ∈ (model.adjustAll x y).others index ↔
    ∃ s ∈ model.others index, s.setPos (s.posX + x) (s.posY + y) = t := by
  rw [others, adjustAll, List.eraseIdx_map, List.mem_map]
  rfl

/-- Moved by one vector that no setter refuses, screens cover each other as before. -/
theorem Clear.adjustAll (model : ScreenListModel) (h : model.Clear index)
    (hlt : index < model.screens.length)
    (accepts : ∀ s ∈ model.screens, AcceptsX (s.posX + x) ∧ AcceptsY (s.posY + y)) :
    (model.adjustAll x y).Clear index := by
  intro t ht
  obtain ⟨s, hs, rfl⟩ := mem_others_adjustAll.mp ht
  obtain ⟨hx, hy⟩ := accepts _ (getScreen_mem hlt)
  obtain ⟨hx', hy'⟩ := accepts s (mem_of_mem_others hs)
  have hapart := collide_eq_false.mp (h s hs)
  rw [getScreen_adjustAll hlt, collide_eq_false, UIScreen.setPos_posX hx, UIScreen.setPos_posY hy,
    UIScreen.setPos_posX hx', UIScreen.setPos_posY hy']
  omega

end ScreenListModel

/-! ## The two ways of placing a screen -/

namespace ScreenBBArrangement

variable {rescale : Rescaling} {hostname : String} {a : ScreenBBArrangement}
  {model : ScreenListModel} {index : ℕ} {screen t : UIScreen}

theorem Recenterable.clear (h : a.Recenterable rescale model) (hlt : index < model.screens.length)
    (clear : model.Clear index) : (a.update rescale model).2.Clear index := by
  simp only [update, checkAdjustment]
  split
  case isFalse => exact clear
  case isTrue hadjusts =>
    split
    case isFalse => exact clear
    case isTrue hrecenters =>
      have haccepts := h (by simpa using hadjusts) hrecenters
      exact ScreenListModel.Clear.adjustAll (model.setScale _) clear hlt haccepts

/-- A screen that is alone remains so. -/
theorem update_clear_of_alone (h : model.others index = []) :
    (a.update rescale model).2.Clear index := by
  intro t ht
  rcases checkAdjustment_screens rescale (a.recalculateBoundingBox model.screens) model false with
    hscreens | ⟨x, y, hscreens⟩
  · rw [ScreenListModel.others, update, hscreens, ← ScreenListModel.others, h] at ht
    cases ht
  · rw [ScreenListModel.others, update, hscreens, ← ScreenListModel.others] at ht
    obtain ⟨s, hs, -⟩ := ScreenListModel.mem_others_adjustAll.mp ht
    rw [h] at hs
    cases hs

/-- Where the box contains a screen, the new screen is put on a side of it and off that screen. -/
theorem calculateNewPos_clear (h : a.box.Contains t) (room : a.HasRoom hostname model screen) :
    collide (a.calculateNewPos hostname model screen) t = false := by
  have hlt := h.lt
  rw [calculateNewPos, newPos, if_neg (by omega)]
  exact BoundingBox.beside_clear h room

/-- A new screen is off the others, where the box contains them and there is room. -/
theorem addScreen_clear (h : ∀ t ∈ model.screens, a.box.Contains t)
    (room : a.HasRoom hostname model screen) :
    (model.addScreen (a.calculateNewPos hostname model screen)).Clear model.screens.length := by
  intro t ht
  rw [ScreenListModel.others_addScreen] at ht
  rw [ScreenListModel.getScreen_addScreen]
  exact calculateNewPos_clear (h t ht) room

theorem HasRoom.congr {s : UIScreen} (h : a.HasRoom hostname model s)
    (hx : screen.posX = s.posX) (hy : screen.posY = s.posY) :
    a.HasRoom hostname model screen := by
  simpa only [HasRoom, side, startingPos, hx, hy] using h

theorem collide_congr {s : UIScreen} (hx : screen.posX = s.posX) (hy : screen.posY = s.posY) :
    collide screen t = collide s t := by
  simp only [collide, hx, hy]

/-- The second part of `adjustModel` puts the screen beside the others, where there is room. -/
theorem adjustToBox_clear (hlt : index < model.screens.length)
    (room : a.HasRoomBeside hostname model index) :
    (a.adjustToBox hostname model index).Clear index := by
  intro t ht
  rw [adjustToBox, ScreenListModel.others_moveModel] at ht
  rw [adjustToBox, ScreenListModel.getScreen_moveModel hlt]
  set original := model.getScreen index
  set a' := a.recalculateBoundingBox (model.others index)
  set temp := ((UIScreen.ofName "temp").setPosX original.posX).setPosY original.posY
  set placed := a'.calculateNewPos hostname model temp
  have htempX : temp.posX = original.posX := UIScreen.setPos_posX original.visibleX
  have htempY : temp.posY = original.posY := UIScreen.setPos_posY original.visibleY
  have hclear : collide placed t = false :=
    calculateNewPos_clear (BoundingBox.of_contains ht) (HasRoom.congr room htempX htempY)
  have hx : original.posX + (placed.posX - original.posX) = placed.posX := by omega
  have hy : original.posY + (placed.posY - original.posY) = placed.posY := by omega
  rw [hx, hy, collide_congr (UIScreen.setPos_posX placed.visibleX)
    (UIScreen.setPos_posY placed.visibleY)]
  exact hclear

@[simp] theorem others_snapToOthers :
    (snapToOthers model index).others index = model.others index :=
  ScreenListModel.others_moveModel

@[simp] theorem length_snapToOthers :
    (snapToOthers model index).screens.length = model.screens.length :=
  ScreenListModel.length_moveModel

theorem unsnapped_spec : (unsnapped model index).others index = model.others index ∧
    (unsnapped model index).screens.length = model.screens.length := by
  unfold unsnapped
  split <;> simp

theorem adjusted_spec : (a.adjusted hostname model index).others index = model.others index ∧
    (a.adjusted hostname model index).screens.length = model.screens.length := by
  unfold adjusted
  split <;> simp [adjustToBox, unsnapped_spec]

/-- A screen that is snapped collides with no other, since that is tested. -/
theorem adjusted_clear (hlt : index < model.screens.length)
    (h : snaps model index = true ∨ a.HasRoomBeside hostname (unsnapped model index) index) :
    (a.adjusted hostname model index).Clear index := by
  unfold adjusted
  split
  case isTrue hsnaps =>
    rw [snaps, Bool.and_eq_true, List.isEmpty_iff] at hsnaps
    intro t ht
    have hnot := List.filter_eq_nil_iff.mp hsnaps.2 t ht
    exact Bool.eq_false_of_not_eq_true hnot
  case isFalse hsnaps =>
    exact adjustToBox_clear (unsnapped_spec.2.symm ▸ hlt) (h.resolve_left hsnaps)

end ScreenBBArrangement

/-! ## Runs -/

/-- What is done to the arrangement and its model. A screen that is moved is adjusted at once. -/
inductive Op where
  | addScreen (screen : UIScreen)
  | removeScreen (screenId : Int)
  | moveModel (index : ℕ) (offsetX offsetY : Int)
  | update (screens : List UIScreen)
  | setViewWidth (w : Int)
  | setViewHeight (h : Int)

/-- With the name of the host, and what the scaling of the view computes meanwhile. -/
structure Event where
  op : Op
  hostname : String
  rescale : Rescaling

structure State where
  arrangement : ScreenBBArrangement := {}
  model : ScreenListModel := {}
  /-- The screen that the last step has placed. -/
  placed : Option ℕ := none

namespace State

variable {s s' : State} {ev : Event}

def put (p : ScreenBBArrangement × ScreenListModel) (placed : Option ℕ) : State :=
  ⟨p.1, p.2, placed⟩

/-- There is no moving what is not there, and a view without extent is ignored. -/
def step (s : State) (ev : Event) : Option State :=
  match ev.op with
  | .addScreen screen =>
    some (put (s.arrangement.addScreen ev.rescale ev.hostname s.model screen)
      (some s.model.screens.length))
  | .removeScreen id => some (put (s.arrangement.removeScreen ev.rescale s.model id) none)
  | .moveModel index offsetX offsetY =>
    if index < s.model.screens.length then
      some (put (s.arrangement.adjustModel ev.rescale ev.hostname
        (s.model.moveModel index offsetX offsetY) index) (some index))
    else none
  | .update screens => some { s with model := s.model.update screens, placed := none }
  | .setViewWidth w =>
    if w ≤ 0 then none
    else some (put ((s.arrangement.setViewW w).checkAdjustment ev.rescale s.model true) none)
  | .setViewHeight h =>
    if h ≤ 0 then none
    else some (put ((s.arrangement.setViewH h).checkAdjustment ev.rescale s.model true) none)

/-- The box that a new screen is put beside contains the others, the setter takes the coordinate
of the side, and no setter refuses one where the screens are then centred. It does not matter where
there is no other screen. -/
def Meets (s : State) (ev : Event) : Prop :=
  match ev.op with
  | .addScreen screen =>
    let added := s.model.addScreen (s.arrangement.calculateNewPos ev.hostname s.model screen)
    s.model.screens = [] ∨ (∀ t ∈ s.model.screens, s.arrangement.box.Contains t) ∧
      s.arrangement.HasRoom ev.hostname s.model screen ∧
      s.arrangement.Recenterable ev.rescale added
  | .moveModel index offsetX offsetY =>
    let moved := s.model.moveModel index offsetX offsetY
    let adjusted := s.arrangement.adjusted ev.hostname moved index
    moved.others index = [] ∨
      (snaps moved index = true ∨
        s.arrangement.HasRoomBeside ev.hostname (unsnapped moved index) index) ∧
      s.arrangement.Recenterable ev.rescale adjusted
  | _ => True

instance (s : State) (ev : Event) : Decidable (s.Meets ev) := by
  unfold Meets
  cases ev.op <;> infer_instance

/-- The screen that a step places covers no other. -/
theorem step_clear (h : s.Meets ev) (hstep : s.step ev = some s') {index : ℕ}
    (hplaced : s'.placed = some index) : s'.model.Clear index := by
  obtain ⟨op, hostname, rescale⟩ := ev
  cases op with
  | addScreen screen =>
    cases hstep
    cases hplaced
    rcases h with h | ⟨hbox, hroom, hcenter⟩
    · refine ScreenBBArrangement.update_clear_of_alone ?_
      rw [ScreenListModel.others_addScreen, h]
    · refine hcenter.clear ?_ (ScreenBBArrangement.addScreen_clear hbox hroom)
      simp [ScreenListModel.addScreen]
  | moveModel moved offsetX offsetY =>
    simp only [step, Option.ite_none_right_eq_some] at hstep
    obtain ⟨hlt, hstep⟩ := hstep
    cases hstep
    cases hplaced
    rw [← ScreenListModel.length_moveModel (x := offsetX) (y := offsetY)] at hlt
    rcases h with h | ⟨hplace, hcenter⟩
    · refine ScreenBBArrangement.update_clear_of_alone ?_
      rw [ScreenBBArrangement.adjusted_spec.1, h]
    · refine hcenter.clear ?_ (ScreenBBArrangement.adjusted_clear hlt hplace)
      rwa [ScreenBBArrangement.adjusted_spec.2]
  | removeScreen id =>
    cases hstep
    cases hplaced
  | update screens =>
    cases hstep
    cases hplaced
  | setViewWidth w =>
    simp only [step, Option.ite_none_left_eq_some] at hstep
    cases hstep.2
    cases hplaced
  | setViewHeight h =>
    simp only [step, Option.ite_none_left_eq_some] at hstep
    cases hstep.2
    cases hplaced

theorem run_clear (h : Run step Meets {} s) :
    ∀ index, s.placed = some index → s.model.Clear index := by
  refine h.invariant (I := fun s => ∀ index, s.placed = some index → s.model.Clear index) ?_ ?_
  · intro index hplaced
    cases hplaced
  · intro s s' ev _ _ hmeets hstep index hplaced
    exact step_clear hmeets hstep hplaced

def event (op : Op) : Event := ⟨op, "here", unscaled⟩

/-- Three screens, a narrower view, and the third one dragged across the first. -/
def dragEvents : List Event :=
  [event (.addScreen { UIScreen.ofName "here" with id := 1 }),
    event (.addScreen { UIScreen.ofName "there" with id := 2 }),
    event (.addScreen { UIScreen.ofName "elsewhere" with id := 3 }), event (.setViewWidth 500),
    event (.removeScreen 2), event (.addScreen { UIScreen.ofName "new" with id := 4 }),
    event (.moveModel 1 95 30)]

theorem run_clear_drag :
    (execs step {} dragEvents).placed = some 1 ∧ (execs step {} dragEvents).model.Clear 1 :=
  ⟨by decide +kernel,
    run_clear (Run.nil.execs (by decide +kernel : AllOk step Meets {} dragEvents)) 1
      (by decide +kernel)⟩

/-- An update moves the only screen, and the box stays where it was. The new screen is put beside
the box, onto the one that has been moved. -/
def staleEvents : List Event :=
  [event (.addScreen { UIScreen.ofName "there" with id := 1 }),
    event (.update [{ (UIScreen.ofName "there").setPos 343 161 with id := 1 }]),
    event (.addScreen { UIScreen.ofName "here" with id := 2 })]

theorem stale_box_overlaps :
    Run step (fun _ _ => True) {} (execs step {} staleEvents) ∧
      (execs step {} staleEvents).placed = some 1 ∧
      ¬(execs step {} staleEvents).model.Clear 1 :=
  ⟨Run.nil.execs (allOk_of_forall (fun _ _ => trivial) _ _), by decide +kernel,
    by decide +kernel⟩

end State

end Synergy.Arrangement
