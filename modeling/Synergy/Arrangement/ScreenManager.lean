import Mathlib.Data.Finset.Sort
import Synergy.Lib.Json
import Synergy.Lib.Run
import Synergy.Arrangement.ScreenBBArrangement

/-!
# The screens of a snapshot, and the screens shown

`ScreenManager`. The screens that are shown are those of the model. Beside the model there is the
set of the ids of the last snapshot, from which is seen what a snapshot no longer has. The user
removes screens from the model alone, so the set may have more ids than the model, but never fewer:
all that the model holds is in the set, or is the placeholder, whose id is -1.

A status without a known name, or none at all, ends the process in the middle of an update.
-/

set_option autoImplicit false

namespace Synergy.Arrangement

open Lib

/-- The order in which a `QSet` is gone through, which is that of the hashes. -/
structure SetOrder where
  elements : Finset Int → List Int
  nodup (s : Finset Int) : (elements s).Nodup
  mem_elements {s : Finset Int} {id : Int} : id ∈ elements s ↔ id ∈ s

/-- What the manager asks others for while it does something. -/
structure Surroundings where
  /-- `Hostname::local ()`. -/
  hostname : String
  /-- Of `AppConfig`. -/
  screenId : Int
  profileId : Int
  rescale : Rescaling
  order : SetOrder

/-- An element of `screens`, with the defaults for what is missing or mistyped. -/
structure ScreenObject where
  id : Int := 0
  name : String := ""
  version : Int := 0
  xPos : Int := 0
  yPos : Int := 0
  status : String := ""
  errorCode : Int := 0
  errorMessage : String := ""
  active : Bool := false

/-- A reply that is a JSON object. -/
structure ScreensReply where
  configVersion : Int := 0
  server : Int := 0
  screens : List ScreenObject := []

/-- The screen that a snapshot describes, unless the name of its status is unknown: then
`stringToScreenStatus` ends the process. -/
def ScreenObject.toScreen (obj : ScreenObject) : Option UIScreen :=
  (stringToScreenStatus obj.status).map fun status =>
    let screen := { UIScreen.ofName obj.name with id := obj.id }
    let screen := (screen.setPosX obj.xPos).setPosY obj.yPos
    { screen with
      status := if obj.active then status else .kInactive
      errorCode := UInt32.ofInt obj.errorCode
      errorMessage := obj.errorMessage
      version := obj.version }

/-- A screen that the user holds is left alone, and so is one that is newer. -/
def ScreenListModel.skips (model : ScreenListModel) (obj : ScreenObject) : Bool :=
  match model.findScreen obj.id with
  | some index =>
    let s := model.getScreen index
    s.locked || s.version > obj.version
  | none => false

/-- `latestScreenList` after the loop of `updateScreens`. -/
def ScreenListModel.latestScreenList (model : ScreenListModel) (screens : List ScreenObject) :
    Option (List UIScreen) :=
  (screens.filter fun obj => !model.skips obj).mapM ScreenObject.toScreen

def ScreensReply.ids (reply : ScreensReply) : Finset Int :=
  (reply.screens.map ScreenObject.id).toFinset

structure ScreenManager where
  arrangement : ScreenBBArrangement := {}
  model : ScreenListModel := {}
  screenIdSet : Finset Int := ∅
  configVersion : Int := -1
  serverId : Int := -1
  configHint : String := ""

namespace ScreenManager

def arrange (m : ScreenManager) (p : ScreenBBArrangement × ScreenListModel) : ScreenManager :=
  { m with arrangement := p.1, model := p.2 }

/-- What is sent to the cloud is left out. -/
def onUpdateProfileConfig (m : ScreenManager) : ScreenManager :=
  { m with configVersion := m.configVersion + 1 }

/-- The first screen is that of the host, even before any snapshot. -/
def setScreenModel (env : Surroundings) : ScreenManager :=
  let m : ScreenManager := {}
  m.arrange (m.arrangement.addScreen env.rescale env.hostname m.model (.ofName env.hostname))

def removeScreenByIndex (env : Surroundings) (m : ScreenManager) (index : ℕ) (notify : Bool) :
    ScreenManager :=
  let id := (m.model.getScreen index).id
  let m := if id ≠ -1 ∧ notify then { m with configVersion := m.configVersion + 1 } else m
  m.arrange (m.arrangement.removeScreen env.rescale m.model id)

def removeScreenById (env : Surroundings) (m : ScreenManager) (id : Int) (notify : Bool) :
    ScreenManager :=
  match m.model.findScreen id with
  | some index => m.removeScreenByIndex env index notify
  | none => m

/-- A snapshot without the local screen, which has not been in one before, though there is a
profile. -/
def UpdatesLocalHost (env : Surroundings) (m : ScreenManager) (reply : ScreensReply) : Prop :=
  env.screenId ∉ m.screenIdSet ∧ env.screenId ∉ reply.ids ∧ env.profileId ≠ -1

instance (env : Surroundings) (m : ScreenManager) (reply : ScreensReply) :
    Decidable (m.UpdatesLocalHost env reply) :=
  inferInstanceAs (Decidable (_ ∧ _))

/-- The ids of the snapshot, and that of the local screen where it is to be added. -/
def latestScreenIdSet (env : Surroundings) (m : ScreenManager) (reply : ScreensReply) :
    Finset Int :=
  if m.UpdatesLocalHost env reply then insert env.screenId reply.ids else reply.ids

def addLocalHost (env : Surroundings) (m : ScreenManager) : ScreenManager :=
  let screen := { UIScreen.ofName env.hostname with id := env.screenId }
  let m := m.arrange (m.arrangement.addScreen env.rescale env.hostname m.model screen)
  m.onUpdateProfileConfig

/-- What `updateScreens` does last, whether the reply was an object or not. -/
def finishUpdate (env : Surroundings) (m : ScreenManager) (updateLocalHost : Bool) :
    ScreenManager :=
  let m := m.removeScreenById env (-1) false
  let m := if updateLocalHost then m.addLocalHost env else m
  { m with
    configHint :=
      if m.model.screens.length = 1 then "Next step: install Synergy 2 on another computer"
      else "" }

/-- The screens of the set that the snapshot no longer has go. -/
def removeUnsubscribed (env : Surroundings) (m : ScreenManager) (latestScreenIdSet : Finset Int) :
    ScreenManager :=
  (env.order.elements (m.screenIdSet \ latestScreenIdSet)).foldl
    (fun m id => m.removeScreenById env id false) m

def updateScreens (env : Surroundings) (m : ScreenManager) (reply : Option ScreensReply) :
    Option ScreenManager :=
  match reply with
  | none => some (m.finishUpdate env false)
  | some obj =>
    if m.configVersion > obj.configVersion then some m
    else do
      let m := { m with configVersion := obj.configVersion, serverId := obj.server }
      let latestScreenList ← m.model.latestScreenList obj.screens
      let updateLocalHost := decide (m.UpdatesLocalHost env obj)
      let latestScreenIdSet := m.latestScreenIdSet env obj
      let m := m.removeUnsubscribed env latestScreenIdSet
      let m := { m with
        screenIdSet := latestScreenIdSet
        model := m.model.update latestScreenList }
      some (m.finishUpdate env updateLocalHost)

def lockScreen (m : ScreenManager) (index : ℕ) : ScreenManager :=
  { m with model := m.model.lockScreen index }

def unlockScreen (m : ScreenManager) (index : ℕ) : ScreenManager :=
  { m with model := m.model.unlockScreen index }

def moveModel (env : Surroundings) (m : ScreenManager) (index : ℕ) (offsetX offsetY : Int) :
    ScreenManager :=
  if offsetX = 0 ∧ offsetY = 0 then m
  else
    let model := m.model.moveModel index offsetX offsetY
    let m := m.arrange (m.arrangement.adjustModel env.rescale env.hostname model index)
    m.onUpdateProfileConfig

/-! ## The ids of the model -/

variable {env : Surroundings} {m m' : ScreenManager} {index : ℕ} {id : Int} {notify : Bool}

theorem ids_removeScreenByIndex (env : Surroundings) (m : ScreenManager) (index : ℕ)
    (notify : Bool) : (m.removeScreenByIndex env index notify).model.ids =
      m.model.ids.erase (m.model.getScreen index).id ∧
    (m.removeScreenByIndex env index notify).screenIdSet = m.screenIdSet := by
  unfold removeScreenByIndex
  dsimp only
  split <;> exact ⟨ScreenBBArrangement.ids_removeScreen, rfl⟩

theorem ids_removeScreenById (env : Surroundings) (m : ScreenManager) (id : Int) (notify : Bool) :
    (m.removeScreenById env id notify).model.ids = m.model.ids.erase id ∧
      (m.removeScreenById env id notify).screenIdSet = m.screenIdSet := by
  unfold removeScreenById
  cases hfind : m.model.findScreen id with
  | none =>
    have hnot := ScreenListModel.findScreen_eq_none.mp hfind
    exact ⟨(List.erase_of_not_mem hnot).symm, rfl⟩
  | some index =>
    rw [← (ScreenListModel.findScreen_eq_some hfind).2]
    exact ids_removeScreenByIndex env m index notify

theorem foldl_removeScreenById (env : Surroundings) (ids : List Int) (h : m.model.ids.Nodup) :
    (ids.foldl (fun m id => m.removeScreenById env id false) m).model.ids.Nodup ∧
      ∀ id, id ∈ (ids.foldl (fun m id => m.removeScreenById env id false) m).model.ids ↔
        id ∈ m.model.ids ∧ id ∉ ids := by
  induction ids generalizing m with
  | nil => simpa using h
  | cons removed ids ih =>
    have hids := (ids_removeScreenById env m removed false).1
    obtain ⟨hnodup, hmem⟩ := ih (hids ▸ h.erase removed)
    refine ⟨hnodup, fun id => ?_⟩
    rw [List.foldl_cons, hmem, hids, h.mem_erase_iff, List.mem_cons, not_or]
    tauto

theorem ids_removeUnsubscribed (env : Surroundings) (latest : Finset Int)
    (h : m.model.ids.Nodup) :
    (m.removeUnsubscribed env latest).model.ids.Nodup ∧
      ∀ id, id ∈ (m.removeUnsubscribed env latest).model.ids ↔
        id ∈ m.model.ids ∧ (id ∈ m.screenIdSet → id ∈ latest) := by
  obtain ⟨hnodup, hmem⟩ :=
    foldl_removeScreenById env (env.order.elements (m.screenIdSet \ latest)) h
  refine ⟨hnodup, fun id => (hmem id).trans ?_⟩
  rw [env.order.mem_elements, Finset.mem_sdiff, not_and_not_right]

theorem id_of_toScreen {obj : ScreenObject} {screen : UIScreen} (h : obj.toScreen = some screen) :
    obj.id = screen.id := by
  obtain ⟨status, -, rfl⟩ := Option.map_eq_some_iff.mp h
  simp

/-- What the snapshot has and the list has not is in the model already. -/
theorem mem_latestScreenList {model : ScreenListModel} {objs : List ScreenObject}
    {screens : List UIScreen} (h : model.latestScreenList objs = some screens) :
    (∀ id ∈ screens.map UIScreen.id, id ∈ objs.map ScreenObject.id) ∧
      ∀ id ∈ objs.map ScreenObject.id, id ∈ model.ids ∨ id ∈ screens.map UIScreen.id := by
  have hids : (objs.filter fun obj => !model.skips obj).map ScreenObject.id =
      screens.map UIScreen.id := by
    have heq : List.Forall₂ (· = ·) ((objs.filter fun obj => !model.skips obj).map ScreenObject.id)
        (screens.map UIScreen.id) := by
      rw [List.forall₂_map_left_iff, List.forall₂_map_right_iff]
      exact (mapM_eq_some.mp h).imp fun _ _ => id_of_toScreen
    rwa [List.forall₂_eq_eq_eq] at heq
  rw [← hids]
  constructor
  · intro id hid
    obtain ⟨obj, hobj, rfl⟩ := List.mem_map.mp hid
    exact List.mem_map_of_mem (List.mem_of_mem_filter hobj)
  · intro id hid
    obtain ⟨obj, hobj, rfl⟩ := List.mem_map.mp hid
    cases hskips : model.skips obj with
    | true =>
      left
      by_contra hnot
      rw [ScreenListModel.skips, ScreenListModel.findScreen_eq_none.mpr hnot] at hskips
      cases hskips
    | false =>
      right
      exact List.mem_map_of_mem (List.mem_filter.mpr ⟨hobj, by rw [hskips]; rfl⟩)

theorem isSome_toScreen {obj : ScreenObject} :
    obj.toScreen.isSome ↔ ∃ status, StatusName obj.status status := by
  unfold ScreenObject.toScreen
  rw [Option.isSome_map, Option.isSome_iff_exists]
  exact exists_congr fun status => stringToScreenStatus_eq_some

/-- Every screen of the snapshot that is not left alone has a status with a known name. -/
def StatusesKnown (m : ScreenManager) (obj : ScreensReply) : Prop :=
  ∀ s ∈ obj.screens, m.model.skips s = false → ∃ status, StatusName s.status status

theorem isSome_latestScreenList {obj : ScreensReply} :
    (m.model.latestScreenList obj.screens).isSome ↔ m.StatusesKnown obj := by
  unfold ScreenListModel.latestScreenList StatusesKnown
  rw [isSome_mapM]
  simp only [List.mem_filter, Bool.not_eq_true', and_imp, isSome_toScreen]

/-- The model holds one screen for each of these ids, and no other. -/
structure Shows (m : ScreenManager) (ids : Finset Int) : Prop where
  nodup : m.model.ids.Nodup
  mem_iff (id : Int) : id ∈ m.model.ids ↔ id ∈ ids

/-- All that the model holds is known from the last snapshot, or is the placeholder. -/
structure Consistent (m : ScreenManager) : Prop where
  nodup : m.model.ids.Nodup
  known : ∀ id ∈ m.model.ids, id ∈ m.screenIdSet ∨ id = -1

theorem Shows.consistent (h : m.Shows m.screenIdSet) : m.Consistent :=
  ⟨h.nodup, fun id hid => Or.inl ((h.mem_iff id).mp hid)⟩

/-- Fewer screens and the same set. -/
theorem Consistent.mono (h : m.Consistent) (hset : m'.screenIdSet = m.screenIdSet)
    (hsub : m'.model.ids.Sublist m.model.ids) : m'.Consistent where
  nodup := h.nodup.sublist hsub
  known id hid := hset ▸ h.known id (hsub.subset hid)

theorem Consistent.congr (h : m.Consistent) (hset : m'.screenIdSet = m.screenIdSet)
    (hids : m'.model.ids = m.model.ids) : m'.Consistent :=
  h.mono hset (hids ▸ List.Sublist.refl _)

/-- After the last part of an update, the placeholder is gone, and the local screen has come. -/
theorem finishUpdate_spec (env : Surroundings) (m : ScreenManager) (updateLocalHost : Bool) :
    (m.finishUpdate env updateLocalHost).model.ids =
        m.model.ids.erase (-1) ++ (if updateLocalHost then [env.screenId] else []) ∧
      (m.finishUpdate env updateLocalHost).screenIdSet = m.screenIdSet := by
  obtain ⟨hids, hset⟩ := ids_removeScreenById env m (-1) false
  cases updateLocalHost with
  | false => exact ⟨by rw [if_neg Bool.false_ne_true, List.append_nil]; exact hids, hset⟩
  | true => exact ⟨ScreenBBArrangement.ids_addScreen.trans (by rw [hids]; rfl), hset⟩

theorem finishUpdate_shows {ids : Finset Int} {updateLocalHost : Bool}
    (hnodup : (m.model.ids.erase (-1)).Nodup) (hmem : ∀ id, id ∈ m.model.ids.erase (-1) ↔ id ∈ ids)
    (hlocal : updateLocalHost = true → env.screenId ∉ ids) :
    (m.finishUpdate env updateLocalHost).Shows
      (if updateLocalHost then insert env.screenId ids else ids) := by
  have hids := (finishUpdate_spec env m updateLocalHost).1
  cases updateLocalHost with
  | false =>
    rw [if_neg Bool.false_ne_true, List.append_nil] at hids
    exact ⟨hids ▸ hnodup, fun id => hids ▸ hmem id⟩
  | true =>
    rw [if_pos rfl, ← List.concat_eq_append] at hids
    refine ⟨hids ▸ hnodup.concat fun hid => hlocal rfl ((hmem _).mp hid), fun id => ?_⟩
    rw [hids, List.concat_eq_append, List.mem_append, List.mem_singleton, hmem, if_pos rfl,
      Finset.mem_insert, or_comm]

variable {obj : ScreensReply}

theorem ScreensReply.mem_ids {id : Int} : id ∈ obj.ids ↔ id ∈ obj.screens.map ScreenObject.id :=
  List.mem_toFinset

/-- Before the local screen comes, the model holds what the snapshot does. -/
theorem Consistent.ids_updated (h : m.Consistent) (env : Surroundings)
    (hids : ∀ s ∈ obj.screens, 0 ≤ s.id)
    {screens : List UIScreen} (hscreens : m.model.latestScreenList obj.screens = some screens) :
    let updated := (m.removeUnsubscribed env (m.latestScreenIdSet env obj)).model.update screens
    (updated.ids.erase (-1)).Nodup ∧ ∀ id, id ∈ updated.ids.erase (-1) ↔ id ∈ obj.ids := by
  obtain ⟨hsub, hsup⟩ := mem_latestScreenList hscreens
  obtain ⟨hnodup, hmem⟩ := ids_removeUnsubscribed env (m.latestScreenIdSet env obj) h.nodup
  obtain ⟨hnodup', hmem'⟩ := ScreenListModel.ids_update screens hnodup
  -- the latest ids are those of the snapshot, and perhaps that of the local screen
  have hlatest : ∀ id ∈ obj.ids, id ∈ m.latestScreenIdSet env obj := by
    intro id hid
    unfold latestScreenIdSet
    split
    · exact Finset.mem_insert_of_mem hid
    · exact hid
  -- but that is added only where it was not known
  have hold : ∀ id ∈ m.latestScreenIdSet env obj, id ∈ m.screenIdSet → id ∈ obj.ids := by
    intro id hid hset
    unfold latestScreenIdSet at hid
    split at hid
    case isTrue hlocal =>
      exact (Finset.mem_insert.mp hid).resolve_left fun heq => hlocal.1 (heq ▸ hset)
    case isFalse => exact hid
  refine ⟨hnodup'.erase _, fun id => ?_⟩
  refine hnodup'.mem_erase_iff.trans ⟨?_, ?_⟩
  · -- what the model has kept is known, so it was in the set and has stayed there
    rintro ⟨hne, hid⟩
    rcases (hmem' id).mp hid with hid | hid
    · obtain ⟨hmodel, hkept⟩ := (hmem id).mp hid
      have hset := (h.known id hmodel).resolve_right hne
      exact hold id (hkept hset) hset
    · exact ScreensReply.mem_ids.mpr (hsub id hid)
  · intro hid
    obtain ⟨s, hs, rfl⟩ := List.mem_map.mp (ScreensReply.mem_ids.mp hid)
    refine ⟨fun heq => absurd (hids s hs) (by omega), (hmem' _).mpr ?_⟩
    rcases hsup _ (List.mem_map_of_mem hs) with hmodel | hlist
    · exact Or.inl ((hmem _).mpr ⟨hmodel, fun _ => hlatest _ hid⟩)
    · exact Or.inr hlist

theorem isSome_updateScreens (env : Surroundings) (fresh : m.configVersion ≤ obj.configVersion) :
    (m.updateScreens env (some obj)).isSome ↔ m.StatusesKnown obj := by
  rw [← isSome_latestScreenList]
  simp only [updateScreens, if_neg (not_lt.mpr fresh), gt_iff_lt, Option.bind_eq_bind]
  cases m.model.latestScreenList obj.screens with
  | none => simp
  | some screens => simp

theorem Consistent.updateScreens_shows (h : m.Consistent) (hids : ∀ s ∈ obj.screens, 0 ≤ s.id)
    (fresh : m.configVersion ≤ obj.configVersion)
    (hstep : m.updateScreens env (some obj) = some m') :
    m'.Shows (m.latestScreenIdSet env obj) ∧ m'.screenIdSet = m.latestScreenIdSet env obj := by
  simp only [updateScreens, if_neg (not_lt.mpr fresh), gt_iff_lt, Option.bind_eq_bind,
    Option.bind_eq_some_iff] at hstep
  obtain ⟨screens, hscreens, hstep⟩ := hstep
  cases hstep
  have hconsistent : Consistent { m with
      configVersion := obj.configVersion, serverId := obj.server } := ⟨h.nodup, h.known⟩
  obtain ⟨hnodup, hmem⟩ := hconsistent.ids_updated env hids hscreens
  refine ⟨?_, (finishUpdate_spec env _ _).2⟩
  have hset : m.latestScreenIdSet env obj = if decide (m.UpdatesLocalHost env obj) = true then
      insert env.screenId obj.ids else obj.ids := by
    simp only [decide_eq_true_eq]
    rfl
  rw [hset]
  exact finishUpdate_shows hnodup hmem fun hlocal => (of_decide_eq_true hlocal).2.1

/-! ## Runs -/

/-- Snapshots, and what the user does. A reply that is no JSON object is none. -/
inductive Op where
  | updateScreens (reply : Option ScreensReply)
  | lockScreen (index : ℕ)
  | unlockScreen (index : ℕ)
  | removeScreenByIndex (index : ℕ) (notify : Bool)
  | removeScreenById (id : Int) (notify : Bool)
  | moveModel (index : ℕ) (offsetX offsetY : Int)

structure Event where
  op : Op
  env : Surroundings

/-- The user sees the screens that he removes or moves. -/
def step (m : ScreenManager) (ev : Event) : Option ScreenManager :=
  match ev.op with
  | .updateScreens reply => m.updateScreens ev.env reply
  | .lockScreen index => some (m.lockScreen index)
  | .unlockScreen index => some (m.unlockScreen index)
  | .removeScreenByIndex index notify =>
    if index < m.model.screens.length then some (m.removeScreenByIndex ev.env index notify)
    else none
  | .removeScreenById id notify => some (m.removeScreenById ev.env id notify)
  | .moveModel index offsetX offsetY =>
    if index < m.model.screens.length then some (m.moveModel ev.env index offsetX offsetY)
    else none

/-- The screens of a snapshot have ids from 0. -/
def HasIds (_ : ScreenManager) (ev : Event) : Prop :=
  match ev.op with
  | .updateScreens (some obj) => ∀ s ∈ obj.screens, 0 ≤ s.id
  | _ => True

instance (m : ScreenManager) (ev : Event) : Decidable (HasIds m ev) := by
  unfold HasIds
  split <;> infer_instance

theorem consistent_setScreenModel : (setScreenModel env).Consistent := by
  have hids : (setScreenModel env).model.ids = [-1] := ScreenBBArrangement.ids_addScreen
  constructor
  · rw [hids]
    exact List.nodup_singleton _
  · intro id hid
    rw [hids] at hid
    exact Or.inr (List.mem_singleton.mp hid)

theorem Consistent.step {ev : Event} (h : m.Consistent) (hids : HasIds m ev)
    (hstep : m.step ev = some m') : m'.Consistent := by
  obtain ⟨op, env⟩ := ev
  cases op with
  | updateScreens reply =>
    cases reply with
    | none =>
      cases hstep
      obtain ⟨hfinish, hset⟩ := finishUpdate_spec env m false
      refine h.mono hset ?_
      rw [hfinish, if_neg Bool.false_ne_true, List.append_nil]
      exact List.erase_sublist
    | some obj =>
      by_cases hstale : m.configVersion > obj.configVersion
      · simp only [ScreenManager.step, updateScreens, if_pos hstale] at hstep
        cases hstep
        exact h
      · obtain ⟨hshows, hset⟩ := h.updateScreens_shows hids (not_lt.mp hstale) hstep
        rw [← hset] at hshows
        exact hshows.consistent
  | lockScreen index =>
    cases hstep
    exact h.congr rfl ScreenListModel.ids_setLocked
  | unlockScreen index =>
    cases hstep
    exact h.congr rfl ScreenListModel.ids_setLocked
  | removeScreenByIndex index notify =>
    -- the set of ids is left alone, and the model holds fewer
    simp only [ScreenManager.step, Option.ite_none_right_eq_some] at hstep
    cases hstep.2
    obtain ⟨hremove, hset⟩ := ids_removeScreenByIndex env m index notify
    exact h.mono hset (hremove ▸ List.erase_sublist)
  | removeScreenById id notify =>
    cases hstep
    obtain ⟨hremove, hset⟩ := ids_removeScreenById env m id notify
    exact h.mono hset (hremove ▸ List.erase_sublist)
  | moveModel index offsetX offsetY =>
    simp only [ScreenManager.step, Option.ite_none_right_eq_some] at hstep
    cases hstep.2
    unfold moveModel
    split
    · exact h
    · refine h.congr rfl ?_
      exact ScreenBBArrangement.ids_adjustModel.trans ScreenListModel.ids_moveModel

/-- After the snapshot the model holds one screen for each id of it, and for the local screen where
it has been added, and no other; and the set is that of its ids. -/
def ShowsSnapshot (env : Surroundings) (m : ScreenManager) (obj : ScreensReply) : Prop :=
  ∃ m', m.updateScreens env (some obj) = some m' ∧
    m'.Shows (if m.UpdatesLocalHost env obj then insert env.screenId obj.ids else obj.ids) ∧
    m'.screenIdSet = m'.model.ids.toFinset

/-- In every state of every run, a snapshot that is not stale is shown just where its statuses are
known. -/
theorem run_shows_iff {env₀ : Surroundings} (h : Run step HasIds (setScreenModel env₀) m)
    (hids : ∀ s ∈ obj.screens, 0 ≤ s.id) (fresh : m.configVersion ≤ obj.configVersion) :
    m.ShowsSnapshot env obj ↔ m.StatusesKnown obj := by
  have hconsistent := h.invariant (I := Consistent) consistent_setScreenModel
    fun _ _ _ _ h hids hstep => h.step hids hstep
  rw [← isSome_updateScreens env fresh]
  constructor
  · rintro ⟨m', hstep, -⟩
    exact Option.isSome_of_eq_some hstep
  · intro hsome
    obtain ⟨m', hstep⟩ := Option.isSome_iff_exists.mp hsome
    obtain ⟨hshows, hset⟩ := hconsistent.updateScreens_shows hids fresh hstep
    refine ⟨m', hstep, hshows, ?_⟩
    rw [hset]
    ext id
    rw [List.mem_toFinset, hshows.mem_iff]

/-- Of a host whose own screen is 7. -/
def here : Surroundings where
  hostname := "here"
  screenId := 7
  profileId := 1
  rescale := unscaled
  order := ⟨fun s => s.sort, fun s => s.sort_nodup _, Finset.mem_sort _⟩

/-- The first snapshot has not got the local screen, which comes with it; the user removes one, and
holds one. -/
def removalEvents : List Event :=
  [⟨.updateScreens (some { configVersion := 4, screens := [
      { id := 1, status := "Connected" }, { id := 2, status := "Inactive" }] }), here⟩,
    ⟨.removeScreenById 1 true, here⟩, ⟨.lockScreen 0, here⟩]

/-- The removed screen is back, another one is there twice, and the local screen is gone. -/
def nextReply : ScreensReply where
  configVersion := 9
  screens := [{ id := 2 }, { id := 1, status := "Connecting" }, { id := 3, status := "Connected" },
    { id := 3, status := "Disconnected" }]

theorem run_shows_removal :
    ∃ m', (execs step (setScreenModel here) removalEvents).updateScreens here (some nextReply) =
        some m' ∧ m'.Shows {1, 2, 3} ∧ m'.screenIdSet = m'.model.ids.toFinset := by
  have hrun := Run.nil.execs
    (by decide +kernel : AllOk step HasIds (setScreenModel here) removalEvents)
  have hnot : ¬(execs step (setScreenModel here) removalEvents).UpdatesLocalHost here
      nextReply := by
    decide +kernel
  have hshows := (@run_shows_iff here _ nextReply here hrun (by decide +kernel)
    (by decide +kernel)).mpr (isSome_latestScreenList.mp (by decide +kernel))
  rwa [ShowsSnapshot, if_neg hnot, (by decide : nextReply.ids = {1, 2, 3})] at hshows

/-- A screen without a status. -/
def statusless : ScreensReply where
  configVersion := 1
  screens := [{ id := 1, name := "there", version := 1, active := true }]

theorem statusless_not_shown :
    Run step HasIds (setScreenModel here) (setScreenModel here) ∧
    (∀ s ∈ statusless.screens, 0 ≤ s.id) ∧
    (setScreenModel here).configVersion ≤ statusless.configVersion ∧
    ¬(setScreenModel here).ShowsSnapshot here statusless := by
  refine ⟨.nil, by decide +kernel, by decide +kernel, ?_⟩
  rintro ⟨m', hstep, -⟩
  have hnone : ((setScreenModel here).updateScreens here (some statusless)).isSome = false := by
    decide +kernel
  rw [hstep] at hnone
  cases hnone

end ScreenManager

end Synergy.Arrangement
