import Mathlib.Data.List.GetD
import Mathlib.Data.List.Nodup
import Mathlib.Data.Rat.Defs
import Synergy.Profile.Snapshot

/-!
# The screens of the configuration window

`UIScreen` and `ScreenListModel`. A screen is shown as an icon, and its position is that of the
icon's top left corner. The setters of a position refuse a coordinate from which the icon would not
be seen in the default view; the other coordinate may have been accepted before. So the position of
a screen is always one that can be seen, and a screen is a structure that says so.

Coordinates are integers without bounds, where the source has `int`.
-/

set_option autoImplicit false

namespace Synergy.Arrangement

def kScreenIconWidth : Int := 86
def kScreenIconHeight : Int := 58

def kDefaultViewWidth : Int := 600
def kDefaultViewHeight : Int := 380

/-- The x-coordinates that `setPosX` accepts. -/
def AcceptsX (x : Int) : Prop := ¬(x ≤ -kScreenIconWidth ∨ x ≥ kDefaultViewWidth)

def AcceptsY (y : Int) : Prop := ¬(y ≤ -kScreenIconHeight ∨ y ≥ kDefaultViewHeight)

instance (x : Int) : Decidable (AcceptsX x) := inferInstanceAs (Decidable (¬_))

instance (y : Int) : Decidable (AcceptsY y) := inferInstanceAs (Decidable (¬_))

structure UIScreen where
  id : Int := -1
  posX : Int := -1
  posY : Int := -1
  name : String
  status : ScreenStatus := .kInactive
  locked : Bool := false
  errorCode : UInt32 := 0
  errorMessage : String := ""
  version : Int := -1
  visibleX : AcceptsX posX := by decide
  visibleY : AcceptsY posY := by decide
  deriving DecidableEq

namespace UIScreen

/-- The constructor. -/
def ofName (name : String) : UIScreen := { name := name }

def setPosX (s : UIScreen) (x : Int) : UIScreen :=
  if h : AcceptsX x then { s with posX := x, visibleX := h } else s

def setPosY (s : UIScreen) (y : Int) : UIScreen :=
  if h : AcceptsY y then { s with posY := y, visibleY := h } else s

/-- One coordinate may be refused and the other taken. -/
def setPos (s : UIScreen) (x y : Int) : UIScreen := (s.setPosX x).setPosY y

variable {s : UIScreen} {x y : Int}

@[simp] theorem setPosX_id : (s.setPosX x).id = s.id := by unfold setPosX; split <;> rfl
@[simp] theorem setPosX_posY : (s.setPosX x).posY = s.posY := by unfold setPosX; split <;> rfl
@[simp] theorem setPosY_id : (s.setPosY y).id = s.id := by unfold setPosY; split <;> rfl
@[simp] theorem setPosY_posX : (s.setPosY y).posX = s.posX := by unfold setPosY; split <;> rfl

theorem setPosX_posX (h : AcceptsX x) : (s.setPosX x).posX = x := by
  rw [setPosX, dif_pos h]

theorem setPosY_posY (h : AcceptsY y) : (s.setPosY y).posY = y := by
  rw [setPosY, dif_pos h]

@[simp] theorem setPos_id : (s.setPos x y).id = s.id := by simp [setPos]

theorem setPos_posX (h : AcceptsX x) : (s.setPos x y).posX = x := by
  rw [setPos, setPosY_posX, setPosX_posX h]

theorem setPos_posY (h : AcceptsY y) : (s.setPos x y).posY = y := setPosY_posY h

end UIScreen

/-- `m_screens` and `m_scale`. -/
structure ScreenListModel where
  screens : List UIScreen := []
  scale : ℚ := 1

namespace ScreenListModel

def addScreen (model : ScreenListModel) (screen : UIScreen) : ScreenListModel :=
  { model with screens := model.screens ++ [screen] }

/-- The first screen with the id; none is removed where there is none. -/
def removeScreen (model : ScreenListModel) (id : Int) : ScreenListModel :=
  { model with screens := model.screens.eraseP fun s => s.id = id }

def findScreen (model : ScreenListModel) (id : Int) : Option ℕ :=
  model.screens.findIdx? fun s => s.id = id

/-- Outside its range the list has no screen, and the source does not ask for one there. -/
def getScreen (model : ScreenListModel) (index : ℕ) : UIScreen :=
  model.screens.getD index (.ofName "")

/-- The screens that a loop over all but one goes through. -/
def others (model : ScreenListModel) (index : ℕ) : List UIScreen := model.screens.eraseIdx index

def moveModel (model : ScreenListModel) (index : ℕ) (offsetX offsetY : Int) : ScreenListModel :=
  { model with
    screens := model.screens.modify index fun s => s.setPos (s.posX + offsetX) (s.posY + offsetY) }

/-- One screen of an update takes the place of the first one with its id. -/
def updateScreen (model : ScreenListModel) (screen : UIScreen) : ScreenListModel :=
  match model.findScreen screen.id with
  | some r => { model with screens := model.screens.set r screen }
  | none => model.addScreen screen

def update (model : ScreenListModel) (screens : List UIScreen) : ScreenListModel :=
  screens.foldl updateScreen model

/-- The position of the first screen with the name, or else what is given. -/
def getScreenPos (model : ScreenListModel) (name : String) (newPosX newPosY : Int) : Int × Int :=
  match model.screens.find? fun s => s.name = name with
  | some s => (s.posX, s.posY)
  | none => (newPosX, newPosY)

def adjustAll (model : ScreenListModel) (disX disY : Int) : ScreenListModel :=
  { model with screens := model.screens.map fun s => s.setPos (s.posX + disX) (s.posY + disY) }

def setScale (model : ScreenListModel) (s : ℚ) : ScreenListModel := { model with scale := s }

def setLocked (model : ScreenListModel) (index : ℕ) (value : Bool) : ScreenListModel :=
  { model with screens := model.screens.modify index fun s => { s with locked := value } }

def lockScreen (model : ScreenListModel) (index : ℕ) : ScreenListModel := model.setLocked index true

def unlockScreen (model : ScreenListModel) (index : ℕ) : ScreenListModel :=
  model.setLocked index false

def ids (model : ScreenListModel) : List Int := model.screens.map UIScreen.id

variable {model : ScreenListModel} {index : ℕ} {id : Int} {screen : UIScreen}

theorem map_id_modify {screens : List UIScreen} {f : UIScreen → UIScreen}
    (h : ∀ s, (f s).id = s.id) : (screens.modify index f).map UIScreen.id =
      screens.map UIScreen.id := by
  refine List.ext_getElem? fun i => ?_
  rw [List.getElem?_map, List.getElem?_map, List.getElem?_modify]
  split <;> cases screens[i]? <;> simp [h]

@[simp] theorem ids_moveModel {x y : Int} : (model.moveModel index x y).ids = model.ids := by
  simp only [ids, moveModel]
  exact map_id_modify fun s => UIScreen.setPos_id

@[simp] theorem ids_adjustAll {x y : Int} : (model.adjustAll x y).ids = model.ids := by
  simp [ids, adjustAll, Function.comp_def]

@[simp] theorem ids_setLocked {value : Bool} : (model.setLocked index value).ids = model.ids := by
  simp only [ids, setLocked]
  exact map_id_modify fun s => rfl

@[simp] theorem ids_addScreen : (model.addScreen screen).ids = model.ids ++ [screen.id] := by
  simp [ids, addScreen]

theorem findScreen_eq_none : model.findScreen id = none ↔ id ∉ model.ids := by
  simp [findScreen, ids, List.findIdx?_eq_none_iff]

theorem ids_removeScreen : (model.removeScreen id).ids = model.ids.erase id := by
  rw [ids, ids, removeScreen, List.erase_eq_eraseP', List.eraseP_map]
  rfl

theorem getScreen_eq (h : index < model.screens.length) :
    model.getScreen index = model.screens[index] :=
  List.getD_eq_getElem _ _ h

theorem findScreen_eq_some (h : model.findScreen id = some index) :
    index < model.screens.length ∧ (model.getScreen index).id = id := by
  obtain ⟨hlt, hfound, -⟩ := List.findIdx?_eq_some_iff_getElem.mp h
  rw [getScreen_eq hlt]
  exact ⟨hlt, of_decide_eq_true hfound⟩

/-- An id that the model holds stays where it is, and another one comes last. -/
theorem ids_updateScreen : (model.updateScreen screen).ids =
    if screen.id ∈ model.ids then model.ids else model.ids ++ [screen.id] := by
  unfold updateScreen
  cases hfind : model.findScreen screen.id with
  | none => rw [if_neg (findScreen_eq_none.mp hfind), ids_addScreen]
  | some r =>
    obtain ⟨hlt, hid⟩ := findScreen_eq_some hfind
    have hget : model.ids[r]? = some screen.id := by
      rw [ids, List.getElem?_map, List.getElem?_eq_getElem hlt, ← getScreen_eq hlt, ← hid]
      rfl
    rw [if_pos (List.mem_of_getElem? hget)]
    refine List.ext_getElem? fun i => ?_
    rw [ids, List.map_set, ← ids, List.getElem?_set]
    split
    case isTrue heq =>
      subst heq
      rw [if_pos (List.getElem?_eq_some_iff.mp hget).1, hget]
    case isFalse => rfl

theorem ids_update (screens : List UIScreen) (h : model.ids.Nodup) :
    (model.update screens).ids.Nodup ∧ ∀ id, id ∈ (model.update screens).ids ↔
      id ∈ model.ids ∨ id ∈ screens.map UIScreen.id := by
  unfold update
  induction screens generalizing model with
  | nil => simpa using h
  | cons screen screens ih =>
    have hstep : (model.updateScreen screen).ids.Nodup ∧
        ∀ id, id ∈ (model.updateScreen screen).ids ↔ id ∈ model.ids ∨ id = screen.id := by
      rw [ids_updateScreen]
      split
      case isTrue hmem =>
        refine ⟨h, fun id => (or_iff_left_of_imp fun heq => ?_).symm⟩
        exact heq ▸ hmem
      case isFalse hmem =>
        refine ⟨?_, fun id => by rw [List.mem_append, List.mem_singleton]⟩
        rw [← List.concat_eq_append]
        exact h.concat hmem
    obtain ⟨hnodup, hmem⟩ := ih hstep.1
    refine ⟨hnodup, fun id => ?_⟩
    rw [List.foldl_cons, hmem, hstep.2, List.map_cons, List.mem_cons, or_assoc]

end ScreenListModel

end Synergy.Arrangement
