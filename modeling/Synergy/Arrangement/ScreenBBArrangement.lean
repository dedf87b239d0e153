import Mathlib.Data.Rat.Cast.Order
import Synergy.Arrangement.ScreenListModel

/-!
# Where a screen is put

`ScreenBBArrangement`. It keeps the bounding box of the screens, and the size of the view that shows
all of them. A new screen is put beside the box; so is one that has been moved, unless it can be
snapped to the others. Then the view is scaled to the box and, where need be, all screens are moved
to its centre.

How far the view is scaled is computed with `float`. What comes out is a parameter, `Rescaling`.
-/

set_option autoImplicit false

namespace Synergy.Arrangement

def kSnappingThreshold : Int := 7
def kScaleThreshold : ℚ := 3 / 2

def intMax : Int := 2147483647
def intMin : Int := -2147483648

/-- The scale and the size of the scaled view. -/
structure Rescale (originalViewW originalViewH : Int) where
  scale : ℚ
  scaledViewW : Int
  scaledViewH : Int
  scale_le : scale ≤ 1
  le_width : originalViewW ≤ scaledViewW
  le_height : originalViewH ≤ scaledViewH

/-- From the size of the box and of the unscaled view. -/
abbrev Rescaling :=
  (boundingBoxWidth boundingBoxHeight : Int) → (originalViewW originalViewH : Int) →
    Rescale originalViewW originalViewH

/-- What the scaling computes for a box that is no larger than the view. -/
def unscaled : Rescaling := fun _ _ w h => ⟨1, w, h, le_rfl, le_rfl, le_rfl⟩

structure BoundingBox where
  topLeftX : Int := 0
  topLeftY : Int := 0
  bottomRightX : Int := 0
  bottomRightY : Int := 0
  deriving DecidableEq

inductive Side where
  | left
  | right
  | top
  | bottom
  deriving DecidableEq

structure ScreenBBArrangement where
  originalViewW : Int := kDefaultViewWidth
  originalViewH : Int := kDefaultViewHeight
  scaledViewW : Int := kDefaultViewWidth
  scaledViewH : Int := kDefaultViewHeight
  box : BoundingBox := {}
  scale : ℚ := 1

/-! ## The bounding box -/

namespace BoundingBox

/-- The box around the box and a screen. -/
def enclose (box : BoundingBox) (screen : UIScreen) : BoundingBox where
  topLeftX := min box.topLeftX screen.posX
  topLeftY := min box.topLeftY screen.posY
  bottomRightX := max box.bottomRightX (screen.posX + kScreenIconWidth)
  bottomRightY := max box.bottomRightY (screen.posY + kScreenIconHeight)

/-- Where no screen has changed the extreme values they give way to 0. -/
def settle (box : BoundingBox) : BoundingBox where
  topLeftX := if box.topLeftX = intMax then 0 else box.topLeftX
  topLeftY := if box.topLeftY = intMax then 0 else box.topLeftY
  bottomRightX := if box.bottomRightX = intMin then 0 else box.bottomRightX
  bottomRightY := if box.bottomRightY = intMin then 0 else box.bottomRightY

/-- What `recalculateBoundingBox` computes. -/
def of (screens : List UIScreen) : BoundingBox :=
  (screens.foldl enclose ⟨intMax, intMax, intMin, intMin⟩).settle

/-- The side that `calculateNewPos` aligns a screen to: the nearest one, in hundredths of half an
icon. -/
def nearestSide (box : BoundingBox) (newPosX newPosY : Int) : Side :=
  let checkPointX := newPosX + kScreenIconWidth.tdiv 2
  let checkPointY := newPosY + kScreenIconHeight.tdiv 2
  let disToLeft := (checkPointX - box.topLeftX).natAbs * 200 / kScreenIconWidth.toNat
  let disToRight := (checkPointX - box.bottomRightX).natAbs * 200 / kScreenIconWidth.toNat
  let disToTop := (checkPointY - box.topLeftY).natAbs * 200 / kScreenIconHeight.toNat
  let disToBottom := (checkPointY - box.bottomRightY).natAbs * 200 / kScreenIconHeight.toNat
  let minDisX := min disToLeft disToRight
  let minDisY := min disToTop disToBottom
  let maxDisX := max disToLeft disToRight
  let maxDisY := max disToTop disToBottom
  if minDisX < minDisY ∨ minDisX = minDisY ∧ maxDisY ≤ maxDisX then
    if disToLeft < disToRight then .left else .right
  else if disToTop < disToBottom then .top
  else .bottom

def beside (box : BoundingBox) (newPosX newPosY : Int) : Int × Int :=
  match box.nearestSide newPosX newPosY with
  | .left => (box.topLeftX - kScreenIconWidth, newPosY)
  | .right => (box.bottomRightX, newPosY)
  | .top => (newPosX, box.topLeftY - kScreenIconHeight)
  | .bottom => (newPosX, box.bottomRightY)

end BoundingBox

/-! ## Snapping -/

def testSnapToOnAxis (fromPos toPos innerThreshold outsideThreshold : Int) (onAxisX : Bool) :
    Bool :=
  let screenIconSize := if onAxisX then kScreenIconWidth else kScreenIconHeight
  let intervalMark1 :=
    if intMin + outsideThreshold + screenIconSize > toPos then intMin
    else toPos - outsideThreshold - screenIconSize
  let intervalMark2 := toPos + innerThreshold - screenIconSize
  let intervalMark3 := toPos + screenIconSize - innerThreshold
  let intervalMark4 :=
    if toPos + screenIconSize > intMax - outsideThreshold then intMax
    else toPos + screenIconSize + outsideThreshold
  ¬(fromPos < intervalMark1 ∨ fromPos > intervalMark2 ∧ fromPos < intervalMark3 ∨
    fromPos > intervalMark4)

def testSnapTo (src dst : UIScreen) (innerThreshold outsideThreshold : Int) : Bool :=
  if innerThreshold ≤ 0 ∨ outsideThreshold ≤ 0 then false
  else
    testSnapToOnAxis src.posX dst.posX innerThreshold outsideThreshold true ||
      testSnapToOnAxis src.posY dst.posY innerThreshold outsideThreshold false

/-- What brings the screen to the nearer side of the other on this axis. -/
def adjustment (fromPos toPos size : Int) : Int :=
  if fromPos < toPos then toPos - size - fromPos
  else if fromPos > toPos then toPos + size - fromPos
  else 0

def calculateSnapping (src dst : UIScreen) : Int × Int :=
  let adjustmentX := adjustment src.posX dst.posX kScreenIconWidth
  let adjustmentY := adjustment src.posY dst.posY kScreenIconHeight
  if adjustmentX = 0 ∨ adjustmentY = 0 then (adjustmentX, adjustmentY)
  else if adjustmentX.natAbs < adjustmentY.natAbs then (adjustmentX, 0)
  else if adjustmentX.natAbs > adjustmentY.natAbs then (0, adjustmentY)
  else (adjustmentX, adjustmentY)

/-- The smallest adjustment of an axis other than zero. -/
def minAdjustment (adjustments : List Int) : Int :=
  adjustments.foldl (fun least a => if least.natAbs > a.natAbs ∧ a.natAbs ≠ 0 then a else least)
    intMax

def combineAdjustments (adjustments : List (Int × Int)) : Int × Int :=
  if adjustments.isEmpty then (0, 0)
  else
    let minAdjustmentX := minAdjustment (adjustments.map Prod.fst)
    let minAdjustmentY := minAdjustment (adjustments.map Prod.snd)
    let tempX := (minAdjustmentX.natAbs : Int)
    let tempY := (minAdjustmentY.natAbs : Int)
    -- beyond the threshold, only on the axis that needs less
    let oneAxis := decide (tempX > kSnappingThreshold ∨ tempY > kSnappingThreshold)
    let minAdjustmentY := if oneAxis ∧ tempX < tempY then 0 else minAdjustmentY
    let minAdjustmentX := if oneAxis ∧ tempX > tempY then 0 else minAdjustmentX
    (if minAdjustmentX = intMax then 0 else minAdjustmentX,
      if minAdjustmentY = intMax then 0 else minAdjustmentY)

def snapToOthers (model : ScreenListModel) (index : ℕ) : ScreenListModel :=
  let finalAdjustment :=
    combineAdjustments ((model.others index).map (calculateSnapping (model.getScreen index)))
  model.moveModel index finalAdjustment.1 finalAdjustment.2

/-- The icons overlap. Touching edges are no overlap. -/
def collide (src des : UIScreen) : Bool :=
  src.posX < des.posX + kScreenIconWidth && src.posY < des.posY + kScreenIconHeight &&
    src.posX + kScreenIconWidth > des.posX && src.posY + kScreenIconHeight > des.posY

/-- The screens, where the source has their indices. -/
def collideWithOthers (model : ScreenListModel) (index : ℕ) : List UIScreen :=
  (model.others index).filter (collide (model.getScreen index))

/-- `canSnap` after the loop of `adjustModel`. -/
def canSnap (model : ScreenListModel) (index : ℕ) : Bool :=
  model.screens.length ≠ 1 &&
    (model.others index).all fun other =>
      testSnapTo (model.getScreen index) other kSnappingThreshold intMax

/-- The screen is left where it has been snapped to. -/
def snaps (model : ScreenListModel) (index : ℕ) : Bool :=
  canSnap model index && (collideWithOthers (snapToOthers model index) index).isEmpty

/-- The model that the second part of `adjustModel` starts from. Where the screen has been snapped,
the move that is meant to take it back is the same one again. -/
def unsnapped (model : ScreenListModel) (index : ℕ) : ScreenListModel :=
  if canSnap model index then
    let snapped := snapToOthers model index
    let offsetX := (snapped.getScreen index).posX - (model.getScreen index).posX
    let offsetY := (snapped.getScreen index).posY - (model.getScreen index).posY
    snapped.moveModel index offsetX offsetY
  else model

/-! ## The centre of the view -/

/-- One axis of `adjustToCenter`: how far the screens move, and the edges of the box after it. -/
structure Centering where
  dis : Int
  near : Int
  far : Int
  deriving DecidableEq

/-- The box is moved so that its centre is that of the view, then back into the view. The second
edge stays where it is when the first has been moved back, and the first when the second has. -/
def Centering.of (view near far : Int) : Centering :=
  let dis := view.tdiv 2 - (far + near).tdiv 2
  let near := near + dis
  let far := far + dis
  let dis := if near < 0 then dis - near else dis
  let near := if near < 0 then 0 else near
  let dis := if far > view then dis - (far - view) else dis
  let far := if far > view then view else far
  ⟨dis, near, far⟩

namespace ScreenBBArrangement

def setViewW (a : ScreenBBArrangement) (w : Int) : ScreenBBArrangement :=
  { a with originalViewW := w }

def setViewH (a : ScreenBBArrangement) (h : Int) : ScreenBBArrangement :=
  { a with originalViewH := h }

def centeringX (a : ScreenBBArrangement) : Centering :=
  .of a.scaledViewW a.box.topLeftX a.box.bottomRightX

def centeringY (a : ScreenBBArrangement) : Centering :=
  .of a.scaledViewH a.box.topLeftY a.box.bottomRightY

def adjustToCenter (a : ScreenBBArrangement) (model : ScreenListModel) :
    ScreenBBArrangement × ScreenListModel :=
  let x := a.centeringX
  let y := a.centeringY
  ({ a with box := ⟨x.near, y.near, x.far, y.far⟩ }, model.adjustAll x.dis y.dis)

def wasOutside (a : ScreenBBArrangement) : Bool :=
  a.box.topLeftX < 0 || a.box.topLeftY < 0 || a.box.bottomRightX > a.scaledViewW ||
    a.box.bottomRightY > a.scaledViewH

def boundingBoxWidth (a : ScreenBBArrangement) : Int := a.box.bottomRightX - a.box.topLeftX

def boundingBoxHeight (a : ScreenBBArrangement) : Int := a.box.bottomRightY - a.box.topLeftY

/-- The view is too big for showing the screens. -/
def viewTooBig (a : ScreenBBArrangement) : Bool :=
  (a.boundingBoxWidth : ℚ) * kScaleThreshold < a.scaledViewW ||
    (a.boundingBoxHeight : ℚ) * kScaleThreshold < a.scaledViewH

def rescaled (a : ScreenBBArrangement) (rescale : Rescaling) : ScreenBBArrangement :=
  let r := rescale a.boundingBoxWidth a.boundingBoxHeight a.originalViewW a.originalViewH
  { a with scale := r.scale, scaledViewW := r.scaledViewW, scaledViewH := r.scaledViewH }

/-- The screens are centred after the view has been scaled. -/
def recenters (a a' : ScreenBBArrangement) (forceCenter : Bool) : Bool :=
  a.scale > a'.scale || a.scale < 1 && a'.scale = 1 || a.wasOutside || forceCenter

def checkAdjustment (rescale : Rescaling) (a : ScreenBBArrangement) (model : ScreenListModel)
    (forceCenter : Bool) : ScreenBBArrangement × ScreenListModel :=
  if a.wasOutside || a.viewTooBig || forceCenter then
    let a' := a.rescaled rescale
    let model := model.setScale a'.scale
    if a.recenters a' forceCenter then a'.adjustToCenter model else (a', model)
  else (a, model)

/-- The screens stay where they are, or all of them are moved. -/
theorem checkAdjustment_screens (rescale : Rescaling) (a : ScreenBBArrangement)
    (model : ScreenListModel) (forceCenter : Bool) :
    (a.checkAdjustment rescale model forceCenter).2.screens = model.screens ∨
      ∃ x y, (a.checkAdjustment rescale model forceCenter).2.screens =
        (model.adjustAll x y).screens := by
  unfold checkAdjustment
  split
  case isFalse => exact Or.inl rfl
  case isTrue =>
    dsimp only
    split
    · exact Or.inr ⟨_, _, rfl⟩
    · exact Or.inl rfl

def recalculateBoundingBox (a : ScreenBBArrangement) (screens : List UIScreen) :
    ScreenBBArrangement :=
  { a with box := .of screens }

def update (rescale : Rescaling) (a : ScreenBBArrangement) (model : ScreenListModel) :
    ScreenBBArrangement × ScreenListModel :=
  (a.recalculateBoundingBox model.screens).checkAdjustment rescale model false

/-! ## Screens come and go -/

/-- Where a screen is before it is put beside the box. One that has no position yet starts from the
local screen, or from the middle. -/
def startingPos (a : ScreenBBArrangement) (hostname : String) (model : ScreenListModel)
    (screen : UIScreen) : Int × Int :=
  if screen.posX = -1 ∧ screen.posY = -1 then
    model.getScreenPos hostname (a.scaledViewW.tdiv 2 - kScreenIconWidth.tdiv 2)
      (a.scaledViewH.tdiv 2 - kScreenIconHeight.tdiv 2)
  else (screen.posX, screen.posY)

/-- Where `calculateNewPos` wants the screen to be: beside the box, unless the box is empty. -/
def newPos (a : ScreenBBArrangement) (hostname : String) (model : ScreenListModel)
    (screen : UIScreen) : Int × Int :=
  let start := a.startingPos hostname model screen
  if a.box.topLeftX - a.box.bottomRightX = 0 ∨ a.box.topLeftY - a.box.bottomRightY = 0 then start
  else a.box.beside start.1 start.2

def calculateNewPos (a : ScreenBBArrangement) (hostname : String) (model : ScreenListModel)
    (screen : UIScreen) : UIScreen :=
  let pos := a.newPos hostname model screen
  screen.setPos pos.1 pos.2

def addScreen (rescale : Rescaling) (hostname : String) (a : ScreenBBArrangement)
    (model : ScreenListModel) (screen : UIScreen) : ScreenBBArrangement × ScreenListModel :=
  a.update rescale (model.addScreen (a.calculateNewPos hostname model screen))

def removeScreen (rescale : Rescaling) (a : ScreenBBArrangement) (model : ScreenListModel)
    (screenId : Int) : ScreenBBArrangement × ScreenListModel :=
  a.update rescale (model.removeScreen screenId)

/-- The second part of `adjustModel`, without the update that ends it. -/
def adjustToBox (hostname : String) (a : ScreenBBArrangement) (model : ScreenListModel)
    (index : ℕ) : ScreenListModel :=
  let a := a.recalculateBoundingBox (model.others index)
  let original := model.getScreen index
  let screen := UIScreen.ofName "temp"
  let screen := (screen.setPosX original.posX).setPosY original.posY
  let screen := a.calculateNewPos hostname model screen
  model.moveModel index (screen.posX - original.posX) (screen.posY - original.posY)

/-- The screens as `adjustModel` leaves them to the update that ends both of its parts. -/
def adjusted (hostname : String) (a : ScreenBBArrangement) (model : ScreenListModel) (index : ℕ) :
    ScreenListModel :=
  if snaps model index then snapToOthers model index
  else a.adjustToBox hostname (unsnapped model index) index

def adjustModel (rescale : Rescaling) (hostname : String) (a : ScreenBBArrangement)
    (model : ScreenListModel) (index : ℕ) : ScreenBBArrangement × ScreenListModel :=
  a.update rescale (a.adjusted hostname model index)

/-! ## The ids stay -/

variable {rescale : Rescaling} {hostname : String} {a : ScreenBBArrangement}
  {model : ScreenListModel} {index : ℕ} {screen : UIScreen}

@[simp] theorem ids_checkAdjustment {forceCenter : Bool} :
    (a.checkAdjustment rescale model forceCenter).2.ids = model.ids := by
  rcases checkAdjustment_screens rescale a model forceCenter with h | ⟨x, y, h⟩
  · rw [ScreenListModel.ids, h, ← ScreenListModel.ids]
  · rw [ScreenListModel.ids, h, ← ScreenListModel.ids, ScreenListModel.ids_adjustAll]

@[simp] theorem ids_update : (a.update rescale model).2.ids = model.ids := ids_checkAdjustment

theorem calculateNewPos_id : (a.calculateNewPos hostname model screen).id = screen.id :=
  UIScreen.setPos_id

theorem ids_addScreen :
    (a.addScreen rescale hostname model screen).2.ids = model.ids ++ [screen.id] := by
  rw [addScreen, ids_update, ScreenListModel.ids_addScreen, calculateNewPos_id]

theorem ids_removeScreen {screenId : Int} :
    (a.removeScreen rescale model screenId).2.ids = model.ids.erase screenId := by
  rw [removeScreen, ids_update, ScreenListModel.ids_removeScreen]

theorem ids_adjustModel : (a.adjustModel rescale hostname model index).2.ids = model.ids := by
  rw [adjustModel, ids_update, adjusted]
  split
  · rw [snapToOthers, ScreenListModel.ids_moveModel]
  · rw [adjustToBox, ScreenListModel.ids_moveModel, unsnapped]
    split
    · rw [ScreenListModel.ids_moveModel, snapToOthers, ScreenListModel.ids_moveModel]
    · rfl

end ScreenBBArrangement

end Synergy.Arrangement
