import Mathlib.Data.List.Basic

/-!
# The profile of a machine, and what `compare` makes of a new one

`ProfileConfig` with `compare`, `apply` and `claimServer`. `compare` is the list of the signals it
emits, in order: each of its branches that sets `different` emits one, and no other branch does, so
that it returns true exactly when the list is not empty. The slots run while it compares. None that
is connected assigns the profile or its list of screens, except the one that clears it when the
local screen has been removed, and by then `compare` has read all it needs.

`compare` looks at some fields of a screen only, its `View`.
-/

set_option autoImplicit false

namespace Synergy

inductive ScreenStatus where
  | kConnected
  | kConnecting
  | kDisconnected
  | kInactive
  deriving DecidableEq

structure Screen where
  id : Int
  name : String := ""
  active : Bool := false
  x : Int := 0
  y : Int := 0
  width : Int := 0
  height : Int := 0
  status : ScreenStatus := .kDisconnected
  ipList : String := ""
  errorCode : UInt32 := 0
  errorMessage : String := ""
  deriving DecidableEq

structure Profile where
  id : Int := -1
  version : Int := -1
  server : Int := -1
  name : String := ""
  deriving DecidableEq

structure ProfileConfig where
  profile : Profile := {}
  screens : List Screen := []
  deriving DecidableEq

/-- The signals of a `ProfileConfig`. -/
inductive ProfileSignal where
  | modified
  | profileIdChanged (id : Int)
  | profileNameChanged (name : String)
  | profileServerChanged (server : Int)
  | screenNameChanged (id : Int)
  | screenIPSetChanged (screen : Screen)
  | screenPositionChanged (id : Int)
  | screenStatusChanged (id : Int)
  | screenSetChanged (added removed : List Screen)
  | screenOnline (screen : Screen)
  | screenOffline (screen : Screen)
  deriving DecidableEq

/-- What `compare` looks at. -/
structure Screen.View where
  id : Int
  name : String
  active : Bool
  ipList : String
  x : Int
  y : Int
  status : ScreenStatus
  deriving DecidableEq

def Screen.view (s : Screen) : Screen.View where
  id := s.id
  name := s.name
  active := s.active
  ipList := s.ipList
  x := s.x
  y := s.y
  status := s.status

/-- The signals for a screen that both profiles have. -/
def Screen.changes (screen target : Screen) : List ProfileSignal :=
  (if screen.name ≠ target.name then [.screenNameChanged target.id] else []) ++
  (if screen.active ≠ target.active then
    [if target.active then .screenOnline target else .screenOffline target] else []) ++
  (if screen.ipList ≠ target.ipList then [.screenIPSetChanged target] else []) ++
  (if screen.x ≠ target.x ∨ screen.y ≠ target.y then [.screenPositionChanged target.id] else []) ++
  (if screen.status ≠ target.status then [.screenStatusChanged target.id] else [])

namespace ProfileConfig

def profileId (m : ProfileConfig) : Int := m.profile.id

def profileVersion (m : ProfileConfig) : Int := m.profile.version

/-- Whether there is a screen of that id, where `getScreen` does not throw. -/
def HasScreen (m : ProfileConfig) (id : Int) : Prop := ∃ s ∈ m.screens, s.id = id

instance (m : ProfileConfig) (id : Int) : Decidable (m.HasScreen id) :=
  inferInstanceAs (Decidable (∃ s ∈ m.screens, s.id = id))

/-- The screens that only the target has. -/
def added (m target : ProfileConfig) : List Screen :=
  target.screens.filter fun t => ¬m.HasScreen t.id

/-- The screens that the target lacks. -/
def removed (m target : ProfileConfig) : List Screen :=
  m.screens.filter fun s => ¬target.HasScreen s.id

/-- The signals for the profile itself. -/
def profileChanges (m target : ProfileConfig) : List ProfileSignal :=
  (if target.profile.id ≠ m.profile.id then [.profileIdChanged target.profile.id] else []) ++
  (if target.profile.name ≠ m.profile.name then [.profileNameChanged target.profile.name]
    else []) ++
  (if target.profile.server ≠ m.profile.server then [.profileServerChanged target.profile.server]
    else [])

/-- The two nested loops over the screens. -/
def screenChanges (m target : ProfileConfig) : List ProfileSignal :=
  target.screens.flatMap fun t =>
    m.screens.flatMap fun s => if s.id = t.id then s.changes t else []

/-- The signals for the screens that were added or removed. -/
def screenSetChanges (m target : ProfileConfig) : List ProfileSignal :=
  if m.added target ≠ [] ∨ m.removed target ≠ [] then
    .screenSetChanged (m.added target) (m.removed target) ::
      ((m.added target).filter (·.active)).map .screenOnline
  else []

/-- The signals that `compare` emits; it returns whether there are any. -/
def compare (m target : ProfileConfig) : List ProfileSignal :=
  if target.profile.version < m.profile.version then []
  else m.profileChanges target ++ m.screenChanges target ++ m.screenSetChanges target

/-- The profile after `apply`. -/
def apply (m src : ProfileConfig) : ProfileConfig := if m.compare src = [] then m else src

/-- The profile after one `apply` for each of a list of snapshots. -/
def applyAll (m : ProfileConfig) (snapshots : List ProfileConfig) : ProfileConfig :=
  snapshots.foldl apply m

def setServer (m : ProfileConfig) (server : Int) : ProfileConfig :=
  { m with profile := { m.profile with server := server } }

@[simp] theorem applyAll_nil (m : ProfileConfig) : m.applyAll [] = m := rfl

@[simp] theorem applyAll_append_singleton (m : ProfileConfig) (before : List ProfileConfig)
    (snapshot : ProfileConfig) :
    m.applyAll (before ++ [snapshot]) = (m.applyAll before).apply snapshot := by
  unfold applyAll
  rw [List.foldl_append]
  rfl

/-! ## When `compare` finds no difference -/

/-- Nothing that `compare` looks at differs. -/
structure Unchanged (m target : ProfileConfig) : Prop where
  id : target.profile.id = m.profile.id
  name : target.profile.name = m.profile.name
  server : target.profile.server = m.profile.server
  view : ∀ t ∈ target.screens, ∀ s ∈ m.screens, s.id = t.id → s.view = t.view
  added : ∀ t ∈ target.screens, m.HasScreen t.id
  removed : ∀ s ∈ m.screens, target.HasScreen s.id

instance (m target : ProfileConfig) : Decidable (m.Unchanged target) :=
  decidable_of_iff
    (target.profile.id = m.profile.id ∧ target.profile.name = m.profile.name ∧
      target.profile.server = m.profile.server ∧
      (∀ t ∈ target.screens, ∀ s ∈ m.screens, s.id = t.id → s.view = t.view) ∧
      (∀ t ∈ target.screens, m.HasScreen t.id) ∧ ∀ s ∈ m.screens, target.HasScreen s.id)
    ⟨fun ⟨h1, h2, h3, h4, h5, h6⟩ => ⟨h1, h2, h3, h4, h5, h6⟩,
      fun ⟨h1, h2, h3, h4, h5, h6⟩ => ⟨h1, h2, h3, h4, h5, h6⟩⟩

/-- The two profiles look the same to `compare`, versions and ids apart. -/
structure SameContents (m target : ProfileConfig) : Prop where
  name : m.profile.name = target.profile.name
  server : m.profile.server = target.profile.server
  screens : ∀ v, v ∈ m.screens.map Screen.view ↔ v ∈ target.screens.map Screen.view

theorem SameContents.refl (m : ProfileConfig) : m.SameContents m :=
  ⟨rfl, rfl, fun _ => Iff.rfl⟩

theorem changes_eq_nil {s t : Screen} (hid : s.id = t.id) :
    s.changes t = [] ↔ s.view = t.view := by
  simp [Screen.changes, Screen.view, hid, and_assoc]

theorem profileChanges_eq_nil {m target : ProfileConfig} :
    m.profileChanges target = [] ↔ target.profile.id = m.profile.id ∧
      target.profile.name = m.profile.name ∧ target.profile.server = m.profile.server := by
  simp [profileChanges]

theorem screenChanges_eq_nil {m target : ProfileConfig} :
    m.screenChanges target = [] ↔
      ∀ t ∈ target.screens, ∀ s ∈ m.screens, s.id = t.id → s.view = t.view := by
  unfold screenChanges
  simp only [List.flatMap_eq_nil_iff]
  constructor
  · intro h t ht s hs hid
    have hnil := h t ht s hs
    rw [if_pos hid] at hnil
    exact (changes_eq_nil hid).mp hnil
  · intro h t ht s hs
    by_cases hid : s.id = t.id
    · rw [if_pos hid]
      exact (changes_eq_nil hid).mpr (h t ht s hs hid)
    · rw [if_neg hid]

theorem screenSetChanges_eq_nil {m target : ProfileConfig} :
    m.screenSetChanges target = [] ↔
      (∀ t ∈ target.screens, m.HasScreen t.id) ∧ ∀ s ∈ m.screens, target.HasScreen s.id := by
  unfold screenSetChanges added removed
  simp only [ne_eq, List.filter_eq_nil_iff, decide_eq_true_eq, not_not]
  simp

/-- `compare` returns false for an older profile, and for one that does not differ. -/
theorem compare_eq_nil {m target : ProfileConfig} :
    m.compare target = [] ↔
      target.profile.version < m.profile.version ∨ m.Unchanged target := by
  unfold compare
  by_cases h : target.profile.version < m.profile.version
  · simp [h]
  · rw [if_neg h, List.append_eq_nil_iff, List.append_eq_nil_iff, profileChanges_eq_nil,
      screenChanges_eq_nil, screenSetChanges_eq_nil]
    constructor
    · rintro ⟨⟨⟨hid, hname, hserver⟩, hview⟩, hadded, hremoved⟩
      exact Or.inr ⟨hid, hname, hserver, hview, hadded, hremoved⟩
    · intro hor
      have hsame := hor.resolve_left h
      exact ⟨⟨⟨hsame.id, hsame.name, hsame.server⟩, hsame.view⟩, hsame.added, hsame.removed⟩

theorem Unchanged.sameContents {m target : ProfileConfig} (h : m.Unchanged target) :
    m.SameContents target := by
  refine ⟨h.name.symm, h.server.symm, fun v => ?_⟩
  simp only [List.mem_map]
  constructor
  · rintro ⟨s, hs, rfl⟩
    obtain ⟨t, ht, hid⟩ := h.removed s hs
    exact ⟨t, ht, (h.view t ht s hs hid.symm).symm⟩
  · rintro ⟨t, ht, rfl⟩
    obtain ⟨s, hs, hid⟩ := h.added t ht
    exact ⟨s, hs, h.view t ht s hs hid⟩

/-! ## The three ways `apply` can go -/

theorem apply_older {m src : ProfileConfig} (h : src.profile.version < m.profile.version) :
    m.apply src = m :=
  if_pos (compare_eq_nil.mpr (Or.inl h))

theorem apply_unchanged {m src : ProfileConfig} (h : m.Unchanged src) : m.apply src = m :=
  if_pos (compare_eq_nil.mpr (Or.inr h))

theorem apply_changed {m src : ProfileConfig} (hversion : m.profile.version ≤ src.profile.version)
    (h : ¬m.Unchanged src) : m.apply src = src := by
  refine if_neg fun hnil => ?_
  rcases compare_eq_nil.mp hnil with holder | hsame
  · exact absurd hversion (Int.not_le.mpr holder)
  · exact h hsame

end ProfileConfig

end Synergy
