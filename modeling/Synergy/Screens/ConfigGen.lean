import Mathlib
import Synergy.Lib.IntervalMap
import Synergy.Profile.ProfileConfig

/-!
# The links between screens

`linkScreens` of `ConfigGen.cpp`. For each edge of each screen the other screens are filtered,
sorted from far to near, and drawn over one another into the interval map of the edge. A
`ScreenLinkMap` holds pointers, and `removeSource` compares them; here a pointer is the position in
the list.

Coordinates are integers: a sum that does not fit into 64 bits is undefined in the source.
-/

set_option autoImplicit false

namespace Synergy

open Lib

/-- `boost::icl::interval_map <int64_t, ScreenID>`. -/
abbrev ScreenEdge := IntervalMap Int Int

inductive Direction where
  | up
  | right
  | down
  | left
  deriving DecidableEq

/-- The four edges of a screen. -/
structure ScreenLinks where
  top : ScreenEdge := .empty
  right : ScreenEdge := .empty
  bottom : ScreenEdge := .empty
  left : ScreenEdge := .empty

def ScreenLinks.edges (links : ScreenLinks) : Direction → ScreenEdge
  | .up => links.top
  | .right => links.right
  | .down => links.bottom
  | .left => links.left

/-- A screen and where it is. -/
structure ScreenLinkMap where
  screen : Screen
  address : ℕ
  deriving DecidableEq

def removeSource (source : ScreenLinkMap) (targets : List ScreenLinkMap) : List ScreenLinkMap :=
  targets.filter fun target => target.address ≠ source.address

def removeLeft (source : Screen) (targets : List ScreenLinkMap) : List ScreenLinkMap :=
  targets.filter fun target => ¬target.screen.x + target.screen.width ≤ source.x

def removeRight (source : Screen) (targets : List ScreenLinkMap) : List ScreenLinkMap :=
  targets.filter fun target => ¬target.screen.x ≥ source.x + source.width

def removeAbove (source : Screen) (targets : List ScreenLinkMap) : List ScreenLinkMap :=
  targets.filter fun target => ¬target.screen.y + target.screen.height ≤ source.y

def removeBelow (source : Screen) (targets : List ScreenLinkMap) : List ScreenLinkMap :=
  targets.filter fun target => ¬target.screen.y ≥ source.y + source.height

/-- What the four functions do with the targets that they have not removed. -/
def linkTargets (sort : SortAlgorithm ScreenLinkMap) (lt : Screen → Screen → Bool)
    (start stop : Screen → Int) (source : Screen) (targets : List ScreenLinkMap)
    (edge : ScreenEdge) : ScreenEdge :=
  edge.paint (fun target => max (start source) (start target.screen))
    (fun target => min (stop source) (stop target.screen)) (fun target => target.screen.id)
    (sort.sort (fun t1 t2 => lt t1.screen t2.screen) targets)

def linkLeft (sort : SortAlgorithm ScreenLinkMap) (source : ScreenLinkMap)
    (targets : List ScreenLinkMap) (links : ScreenLinks) : ScreenLinks :=
  let targets := removeSource source targets
  let targets := removeRight source.screen targets
  let targets := removeAbove source.screen targets
  let targets := removeBelow source.screen targets
  { links with
    left := linkTargets sort (fun t1 t2 => t1.x < t2.x) (fun s => s.y) (fun s => s.y + s.height)
      source.screen targets links.left }

def linkRight (sort : SortAlgorithm ScreenLinkMap) (source : ScreenLinkMap)
    (targets : List ScreenLinkMap) (links : ScreenLinks) : ScreenLinks :=
  let targets := removeSource source targets
  let targets := removeLeft source.screen targets
  let targets := removeAbove source.screen targets
  let targets := removeBelow source.screen targets
  { links with
    right := linkTargets sort (fun t1 t2 => t1.x > t2.x) (fun s => s.y) (fun s => s.y + s.height)
      source.screen targets links.right }

def linkUp (sort : SortAlgorithm ScreenLinkMap) (source : ScreenLinkMap)
    (targets : List ScreenLinkMap) (links : ScreenLinks) : ScreenLinks :=
  let targets := removeSource source targets
  let targets := removeLeft source.screen targets
  let targets := removeRight source.screen targets
  let targets := removeBelow source.screen targets
  { links with
    top := linkTargets sort (fun t1 t2 => t1.y < t2.y) (fun s => s.x) (fun s => s.x + s.width)
      source.screen targets links.top }

def linkDown (sort : SortAlgorithm ScreenLinkMap) (source : ScreenLinkMap)
    (targets : List ScreenLinkMap) (links : ScreenLinks) : ScreenLinks :=
  let targets := removeSource source targets
  let targets := removeLeft source.screen targets
  let targets := removeRight source.screen targets
  let targets := removeAbove source.screen targets
  { links with
    bottom := linkTargets sort (fun t1 t2 => t1.y > t2.y) (fun s => s.x) (fun s => s.x + s.width)
      source.screen targets links.bottom }

/-- `SOA -> AOS`. -/
def linkMaps (screens : List Screen) : List ScreenLinkMap :=
  screens.zipIdx.map fun p => ⟨p.1, p.2⟩

/-- The loop of `linkScreens`. -/
def linkEdges (sort : SortAlgorithm ScreenLinkMap) (targets : List ScreenLinkMap)
    (target : ScreenLinkMap) : ScreenLinks :=
  linkLeft sort target targets (linkDown sort target targets
    (linkRight sort target targets (linkUp sort target targets {})))

def linkScreens (sort : SortAlgorithm ScreenLinkMap) (screens : List Screen) : List ScreenLinks :=
  (linkMaps screens).map (linkEdges sort (linkMaps screens))

/-! ## All directions at once -/

/-- A screen as it is seen by one who moves in a direction: where it begins and ends across the
direction, and where along it. -/
structure Aspect where
  start : Int
  stop : Int
  near : Int
  far : Int

def Screen.aspect (s : Screen) : Direction → Aspect
  | .up => ⟨s.x, s.x + s.width, -(s.y + s.height), -s.y⟩
  | .right => ⟨s.y, s.y + s.height, s.x, s.x + s.width⟩
  | .down => ⟨s.x, s.x + s.width, s.y, s.y + s.height⟩
  | .left => ⟨s.y, s.y + s.height, -(s.x + s.width), -s.x⟩

/-- The comparison of the function for a direction. -/
def Direction.lt : Direction → Screen → Screen → Bool
  | .up => fun t1 t2 => t1.y < t2.y
  | .right => fun t1 t2 => t1.x > t2.x
  | .down => fun t1 t2 => t1.y > t2.y
  | .left => fun t1 t2 => t1.x < t2.x

/-- A target that the function for a direction has not removed. -/
def ScreenLinkMap.Kept (d : Direction) (source target : ScreenLinkMap) : Prop :=
  target.address ≠ source.address ∧
    (source.screen.aspect d).near < (target.screen.aspect d).far ∧
    (source.screen.aspect d).start < (target.screen.aspect d).stop ∧
    (target.screen.aspect d).start < (source.screen.aspect d).stop

instance (d : Direction) (source target : ScreenLinkMap) : Decidable (source.Kept d target) :=
  inferInstanceAs (Decidable (_ ∧ _))

/-- The map of an edge. -/
def edgeMap (sort : SortAlgorithm ScreenLinkMap) (targets : List ScreenLinkMap) (d : Direction)
    (source : ScreenLinkMap) : ScreenEdge :=
  linkTargets sort d.lt (fun s => (s.aspect d).start) (fun s => (s.aspect d).stop) source.screen
    (targets.filter fun target => source.Kept d target) .empty

theorem linkMaps_length (screens : List Screen) : (linkMaps screens).length = screens.length := by
  simp [linkMaps]

theorem getElem_linkMaps {screens : List Screen} {i : ℕ} (h : i < (linkMaps screens).length) :
    (linkMaps screens)[i] = ⟨screens.get ⟨i, linkMaps_length screens ▸ h⟩, i⟩ := by
  simp [linkMaps]

theorem linkScreens_length (sort : SortAlgorithm ScreenLinkMap) (screens : List Screen) :
    (linkScreens sort screens).length = screens.length := by
  simp [linkScreens, linkMaps]

theorem getElem_linkScreens (sort : SortAlgorithm ScreenLinkMap) {screens : List Screen} {i : ℕ}
    (h : i < (linkScreens sort screens).length) : (linkScreens sort screens)[i] =
      linkEdges sort (linkMaps screens)
        ⟨screens.get ⟨i, linkScreens_length sort screens ▸ h⟩, i⟩ := by
  simp [linkScreens, getElem_linkMaps]

theorem filter_four {α : Type} (p q r t : α → Bool) (l : List α) :
    (((l.filter p).filter q).filter r).filter t =
      l.filter fun a => p a && q a && r a && t a := by
  simp only [List.filter_filter]
  congr 1
  funext a
  cases p a <;> cases q a <;> cases r a <;> cases t a <;> rfl

/-- The four functions differ in the direction only. -/
theorem edges_linkEdges (sort : SortAlgorithm ScreenLinkMap) (targets : List ScreenLinkMap)
    (source : ScreenLinkMap) (d : Direction) :
    (linkEdges sort targets source).edges d = edgeMap sort targets d source := by
  unfold edgeMap
  cases d with
  | up =>
    simp only [linkEdges, linkLeft, linkDown, linkRight, linkUp, ScreenLinks.edges, removeSource,
      removeLeft, removeRight, removeBelow, filter_four]
    refine congrArg (linkTargets sort _ _ _ source.screen · _) (List.filter_congr ?_)
    intro target _
    simp only [ScreenLinkMap.Kept, Screen.aspect]
    grind
  | right =>
    simp only [linkEdges, linkLeft, linkDown, linkRight, linkUp, ScreenLinks.edges, removeSource,
      removeLeft, removeAbove, removeBelow, filter_four]
    refine congrArg (linkTargets sort _ _ _ source.screen · _) (List.filter_congr ?_)
    intro target _
    simp only [ScreenLinkMap.Kept, Screen.aspect]
    grind
  | down =>
    simp only [linkEdges, linkLeft, linkDown, linkRight, linkUp, ScreenLinks.edges, removeSource,
      removeLeft, removeRight, removeAbove, filter_four]
    refine congrArg (linkTargets sort _ _ _ source.screen · _) (List.filter_congr ?_)
    intro target _
    simp only [ScreenLinkMap.Kept, Screen.aspect]
    grind
  | left =>
    simp only [linkEdges, linkLeft, linkDown, linkRight, linkUp, ScreenLinks.edges, removeSource,
      removeRight, removeAbove, removeBelow, filter_four]
    refine congrArg (linkTargets sort _ _ _ source.screen · _) (List.filter_congr ?_)
    intro target _
    simp only [ScreenLinkMap.Kept, Screen.aspect]
    grind

end Synergy
