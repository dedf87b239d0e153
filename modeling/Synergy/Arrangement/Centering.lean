import Synergy.Arrangement.Placement

/-!
# Moving all screens to the centre

`adjustToCenter` moves the box and the screens, one axis at a time, and each of them may part from
the other. An edge that is out of the view is put on its border, and the distance corrected, but not
the other edge; that happens where the box does not fit into the view, and where the division of a
negative sum rounds the other way. And a setter leaves a screen where it is, if it were out of the
default view, which the scaled view need not be contained in.
-/

set_option autoImplicit false

namespace Synergy.Arrangement

/-! ## One axis -/

/-- Moved to the centre, a box of these edges is within the view. One that is as large as the view
is not, where the sum of its edges is negative and odd: there its centre is rounded up. -/
def FitsView (view near far : Int) : Prop :=
  far - near ≤ view ∧ ¬(far - near = view ∧ near + far < 0 ∧ (near + far) % 2 ≠ 0)

/-- Moved to the centre, the second edge is less than an icon beyond the default view. -/
def InReach (view near far limit icon : Int) : Prop :=
  far + (view.tdiv 2 - (far + near).tdiv 2) < limit + icon

theorem tdiv_two (n : Int) :
    n.tdiv 2 * 2 = n - n % 2 ∧ 0 ≤ n ∨ n.tdiv 2 * 2 = n + n % 2 ∧ n < 0 := by
  rcases le_or_gt 0 n with h | h
  · left
    rw [Int.tdiv_eq_ediv_of_nonneg h]
    omega
  · right
    have hneg : n.tdiv 2 = -(-n / 2) := by
      rw [← Int.tdiv_eq_ediv_of_nonneg (by omega : 0 ≤ -n), Int.neg_tdiv, neg_neg]
    rw [hneg]
    omega

namespace Centering

variable {view near far : Int}

/-- The edges move as far as the screens, and end up within the view, where the box fits. -/
theorem of_fits (hview : 0 < view) (h : FitsView view near far) :
    (of view near far).dis = view.tdiv 2 - (far + near).tdiv 2 ∧
      (of view near far).near = near + (of view near far).dis ∧
      (of view near far).far = far + (of view near far).dis ∧
      0 ≤ (of view near far).near ∧ (of view near far).far ≤ view := by
  obtain ⟨hle, hround⟩ := h
  have hview2 := tdiv_two view
  have hcenter := tdiv_two (far + near)
  have hnear : ¬near + (view.tdiv 2 - (far + near).tdiv 2) < 0 := by omega
  have hfar : ¬far + (view.tdiv 2 - (far + near).tdiv 2) > view := by omega
  simp only [of, if_neg hnear, if_neg hfar]
  exact ⟨trivial, trivial, trivial, not_lt.mp hnear, not_lt.mp hfar⟩

/-- Where it does not fit, the box becomes smaller. -/
theorem of_not_fits (hview : 0 < view) (h : ¬FitsView view near far) :
    (of view near far).far - (of view near far).near < far - near := by
  have hview2 := tdiv_two view
  have hcenter := tdiv_two (far + near)
  unfold FitsView at h
  simp only [of]
  split <;> split <;> omega

end Centering

/-! ## The box of screens that have been moved -/

/-- All screens have been moved by one vector. -/
def MovedBy (x y : Int) (screens screens' : List UIScreen) : Prop :=
  List.Forall₂ (fun s s' => s'.posX = s.posX + x ∧ s'.posY = s.posY + y) screens screens'

namespace MovedBy

variable {x y : Int} {screens screens' : List UIScreen} {s s' : UIScreen}

theorem exists_moved (h : MovedBy x y screens screens') (hs : s ∈ screens) :
    ∃ s' ∈ screens', s'.posX = s.posX + x ∧ s'.posY = s.posY + y := by
  induction h with
  | nil => cases hs
  | cons hhead _ ih =>
    rcases List.mem_cons.mp hs with rfl | hs
    · exact ⟨_, List.mem_cons_self, hhead⟩
    · obtain ⟨s', hs', hmoved⟩ := ih hs
      exact ⟨s', List.mem_cons_of_mem _ hs', hmoved⟩

theorem exists_origin (h : MovedBy x y screens screens') (hs' : s' ∈ screens') :
    ∃ s ∈ screens, s'.posX = s.posX + x ∧ s'.posY = s.posY + y := by
  induction h with
  | nil => cases hs'
  | cons hhead _ ih =>
    rcases List.mem_cons.mp hs' with rfl | hs'
    · exact ⟨_, List.mem_cons_self, hhead⟩
    · obtain ⟨s, hs, hmoved⟩ := ih hs'
      exact ⟨s, List.mem_cons_of_mem _ hs, hmoved⟩

end MovedBy

namespace BoundingBox

variable {screens screens' : List UIScreen}

def shift (box : BoundingBox) (x y : Int) : BoundingBox :=
  ⟨box.topLeftX + x, box.topLeftY + y, box.bottomRightX + x, box.bottomRightY + y⟩

/-- An edge of the box comes from where the box began, or from a screen. -/
theorem foldl_enclose_edge (edge : BoundingBox → Int) (place : UIScreen → Int)
    (hstep : ∀ box s, edge (box.enclose s) = edge box ∨ edge (box.enclose s) = place s)
    (box : BoundingBox) : edge (screens.foldl enclose box) = edge box ∨
      ∃ s ∈ screens, edge (screens.foldl enclose box) = place s := by
  induction screens generalizing box with
  | nil => exact Or.inl rfl
  | cons s screens ih =>
    rw [List.foldl_cons]
    rcases ih (box.enclose s) with hfold | ⟨t, ht, hfold⟩
    · rcases hstep box s with hkept | hplaced
      · exact Or.inl (hfold.trans hkept)
      · exact Or.inr ⟨s, List.mem_cons_self, hfold.trans hplaced⟩
    · exact Or.inr ⟨t, List.mem_cons_of_mem _ ht, hfold⟩

/-- The edges of the box of some screens are those of the screens. -/
structure Tight (box : BoundingBox) (screens : List UIScreen) : Prop where
  contains : ∀ s ∈ screens, box.Contains s
  left : ∃ s ∈ screens, box.topLeftX = s.posX
  top : ∃ s ∈ screens, box.topLeftY = s.posY
  right : ∃ s ∈ screens, box.bottomRightX = s.posX + kScreenIconWidth
  bottom : ∃ s ∈ screens, box.bottomRightY = s.posY + kScreenIconHeight

theorem tight_of (h : screens ≠ []) : (of screens).Tight screens := by
  obtain ⟨s, hs⟩ := List.exists_mem_of_ne_nil _ h
  have hcontains := foldl_enclose_contains ⟨intMax, intMax, intMin, intMin⟩ (Or.inr hs)
  have hof : of screens = screens.foldl enclose ⟨intMax, intMax, intMin, intMin⟩ :=
    hcontains.settle
  have hx := s.visibleX
  have hy := s.visibleY
  obtain ⟨hleft, htop, hright, hbottom⟩ := hcontains
  simp only [AcceptsX, AcceptsY, kScreenIconWidth, kScreenIconHeight, kDefaultViewWidth,
    kDefaultViewHeight] at hx hy hright hbottom
  have hmax : intMax = 2147483647 := rfl
  have hmin : intMin = -2147483648 := rfl
  rw [hof]
  constructor
  case contains =>
    rw [← hof]
    exact fun t ht => of_contains ht
  case left =>
    refine (foldl_enclose_edge topLeftX UIScreen.posX (fun _ _ => min_choice _ _) _).resolve_left
      fun heq => ?_
    dsimp only at heq
    omega
  case top =>
    refine (foldl_enclose_edge topLeftY UIScreen.posY (fun _ _ => min_choice _ _) _).resolve_left
      fun heq => ?_
    dsimp only at heq
    omega
  case right =>
    refine (foldl_enclose_edge bottomRightX (fun s => s.posX + kScreenIconWidth)
      (fun _ _ => max_choice _ _) _).resolve_left fun heq => ?_
    dsimp only at heq
    omega
  case bottom =>
    refine (foldl_enclose_edge bottomRightY (fun s => s.posY + kScreenIconHeight)
      (fun _ _ => max_choice _ _) _).resolve_left fun heq => ?_
    dsimp only at heq
    omega

/-- A box that contains the screens has its edges no further in. -/
theorem Tight.within {box box' : BoundingBox} (h : box.Tight screens)
    (h' : ∀ s ∈ screens, box'.Contains s) :
    box'.topLeftX ≤ box.topLeftX ∧ box'.topLeftY ≤ box.topLeftY ∧
      box.bottomRightX ≤ box'.bottomRightX ∧ box.bottomRightY ≤ box'.bottomRightY := by
  obtain ⟨s₁, hs₁, hleft⟩ := h.left
  obtain ⟨s₂, hs₂, htop⟩ := h.top
  obtain ⟨s₃, hs₃, hright⟩ := h.right
  obtain ⟨s₄, hs₄, hbottom⟩ := h.bottom
  rw [hleft, htop, hright, hbottom]
  exact ⟨(h' s₁ hs₁).left, (h' s₂ hs₂).top, (h' s₃ hs₃).right, (h' s₄ hs₄).bottom⟩

theorem Tight.unique {box box' : BoundingBox} (h : box.Tight screens) (h' : box'.Tight screens) :
    box = box' := by
  have hwithin := h.within h'.contains
  have hwithin' := h'.within h.contains
  obtain ⟨l, t, r, b⟩ := box
  obtain ⟨l', t', r', b'⟩ := box'
  simp only [BoundingBox.mk.injEq] at *
  omega

theorem Tight.shift {box : BoundingBox} {x y : Int} (h : box.Tight screens)
    (hmoved : MovedBy x y screens screens') : (box.shift x y).Tight screens' := by
  have hedge : ∀ {P : UIScreen → Prop} {Q : UIScreen → Prop},
      (∀ s s', s'.posX = s.posX + x → s'.posY = s.posY + y → P s → Q s') →
      (∃ s ∈ screens, P s) → ∃ s' ∈ screens', Q s' := by
    rintro P Q hPQ ⟨s, hs, hP⟩
    obtain ⟨s', hs', hx, hy⟩ := hmoved.exists_moved hs
    exact ⟨s', hs', hPQ s s' hx hy hP⟩
  constructor
  case contains =>
    intro s' hs'
    obtain ⟨s, hs, hx, hy⟩ := hmoved.exists_origin hs'
    obtain ⟨hleft, htop, hright, hbottom⟩ := h.contains s hs
    constructor <;> simp only [BoundingBox.shift] <;> omega
  case left => exact hedge (fun s s' hx _ hP => by simp only [BoundingBox.shift]; omega) h.left
  case top => exact hedge (fun s s' _ hy hP => by simp only [BoundingBox.shift]; omega) h.top
  case right => exact hedge (fun s s' hx _ hP => by simp only [BoundingBox.shift]; omega) h.right
  case bottom => exact hedge (fun s s' _ hy hP => by simp only [BoundingBox.shift]; omega) h.bottom

theorem of_movedBy {x y : Int} (hne : screens ≠ []) (h : MovedBy x y screens screens') :
    of screens' = (of screens).shift x y := by
  have hne' : screens' ≠ [] := by
    rintro rfl
    cases h
    exact hne rfl
  exact (tight_of hne').unique ((tight_of hne).shift h)

end BoundingBox

/-! ## A rigid move, or not -/

namespace ScreenBBArrangement

/-- All screens are moved by one vector, the box stays theirs, and it lies within the view if it is
no larger. -/
structure RigidlyCentered (a : ScreenBBArrangement) (model : ScreenListModel) : Prop where
  rigid : ∃ x y, MovedBy x y model.screens (a.adjustToCenter model).2.screens
  box : (a.adjustToCenter model).1.box = .of (a.adjustToCenter model).2.screens
  inside : a.boundingBoxWidth ≤ a.scaledViewW ∧ a.boundingBoxHeight ≤ a.scaledViewH →
    0 ≤ (a.adjustToCenter model).1.box.topLeftX ∧ 0 ≤ (a.adjustToCenter model).1.box.topLeftY ∧
      (a.adjustToCenter model).1.box.bottomRightX ≤ a.scaledViewW ∧
      (a.adjustToCenter model).1.box.bottomRightY ≤ a.scaledViewH

/-- The box fits into the view, and has its centre where no setter minds. -/
structure Centerable (a : ScreenBBArrangement) : Prop where
  width : FitsView a.scaledViewW a.box.topLeftX a.box.bottomRightX
  height : FitsView a.scaledViewH a.box.topLeftY a.box.bottomRightY
  right : InReach a.scaledViewW a.box.topLeftX a.box.bottomRightX kDefaultViewWidth kScreenIconWidth
  bottom :
    InReach a.scaledViewH a.box.topLeftY a.box.bottomRightY kDefaultViewHeight kScreenIconHeight

variable {a : ScreenBBArrangement} {model : ScreenListModel}

/-- Where no setter minds, all screens move by the distance. -/
theorem movedBy_adjustAll {x y : Int}
    (h : ∀ s ∈ model.screens, AcceptsX (s.posX + x) ∧ AcceptsY (s.posY + y)) :
    MovedBy x y model.screens (model.adjustAll x y).screens := by
  rw [MovedBy, ScreenListModel.adjustAll, List.forall₂_map_right_iff, List.forall₂_same]
  intro s hs
  exact ⟨UIScreen.setPos_posX (h s hs).1, UIScreen.setPos_posY (h s hs).2⟩

/-- One axis of a rigid move: the box has been moved as far as the screens, so it fits. -/
theorem fits_of_moved {view near far x : Int} (hview : 0 < view)
    (hnear : (Centering.of view near far).near = near + x)
    (hfar : (Centering.of view near far).far = far + x) :
    FitsView view near far ∧ x = view.tdiv 2 - (far + near).tdiv 2 := by
  have hfits : FitsView view near far := by
    by_contra hnot
    have hless := Centering.of_not_fits hview hnot
    omega
  obtain ⟨hdis, hmoved, -⟩ := Centering.of_fits hview hfits
  exact ⟨hfits, by omega⟩

theorem RigidlyCentered.centerable (hne : model.screens ≠ []) (hbox : a.box = .of model.screens)
    (hw : 0 < a.scaledViewW) (hh : 0 < a.scaledViewH) (h : RigidlyCentered a model) :
    Centerable a := by
  have htight := BoundingBox.tight_of hne
  rw [← hbox] at htight
  obtain ⟨⟨x, y, hmoved⟩, hof, -⟩ := h
  rw [BoundingBox.of_movedBy hne hmoved, ← hbox] at hof
  simp only [adjustToCenter, centeringX, centeringY, BoundingBox.shift,
    BoundingBox.mk.injEq] at hof
  obtain ⟨hnearX, hnearY, hfarX, hfarY⟩ := hof
  obtain ⟨hwidth, hx⟩ := fits_of_moved hw hnearX hfarX
  obtain ⟨hheight, hy⟩ := fits_of_moved hh hnearY hfarY
  refine ⟨hwidth, hheight, ?_, ?_⟩
  · obtain ⟨s, hs, hright⟩ := htight.right
    obtain ⟨s', -, hs', -⟩ := hmoved.exists_moved hs
    have hvisible := s'.visibleX
    unfold AcceptsX at hvisible
    unfold InReach
    omega
  · obtain ⟨s, hs, hbottom⟩ := htight.bottom
    obtain ⟨s', -, -, hs'⟩ := hmoved.exists_moved hs
    have hvisible := s'.visibleY
    unfold AcceptsY at hvisible
    unfold InReach
    omega

theorem Centerable.rigidlyCentered (hne : model.screens ≠ []) (hbox : a.box = .of model.screens)
    (hw : 0 < a.scaledViewW) (hh : 0 < a.scaledViewH) (h : Centerable a) :
    RigidlyCentered a model := by
  have htight := BoundingBox.tight_of hne
  rw [← hbox] at htight
  obtain ⟨hwidth, hheight, hright, hbottom⟩ := h
  obtain ⟨hdisX, hnearX, hfarX, hinX, hinX'⟩ := Centering.of_fits hw hwidth
  obtain ⟨hdisY, hnearY, hfarY, hinY, hinY'⟩ := Centering.of_fits hh hheight
  have haccepts : ∀ s ∈ model.screens,
      AcceptsX (s.posX + a.centeringX.dis) ∧ AcceptsY (s.posY + a.centeringY.dis) := by
    intro s hs
    obtain ⟨hl, ht, hr, hb⟩ := htight.contains s hs
    simp only [AcceptsX, AcceptsY, InReach, centeringX, centeringY, kScreenIconWidth,
      kScreenIconHeight] at *
    omega
  have hmoved := movedBy_adjustAll haccepts
  refine ⟨⟨_, _, hmoved⟩, ?_, fun _ => ⟨hinX, hinY, hinX', hinY'⟩⟩
  rw [adjustToCenter]
  dsimp only
  rw [BoundingBox.of_movedBy hne hmoved, ← hbox]
  simp only [centeringX, centeringY, BoundingBox.shift, BoundingBox.mk.injEq]
  exact ⟨hnearX, hnearY, hfarX, hfarY⟩

/-- **When re-centring is a rigid move.** -/
theorem adjustToCenter_rigid_iff (hne : model.screens ≠ []) (hbox : a.box = .of model.screens)
    (hw : 0 < a.scaledViewW) (hh : 0 < a.scaledViewH) :
    RigidlyCentered a model ↔ Centerable a :=
  ⟨RigidlyCentered.centerable hne hbox hw hh, Centerable.rigidlyCentered hne hbox hw hh⟩

/-- Two icons side by side, the first at this position. -/
def pair (x y : Int) : ScreenListModel where
  screens := [(UIScreen.ofName "first").setPos x y,
    (UIScreen.ofName "second").setPos (x + kScreenIconWidth) y]

/-- With the true box of the pair, in a view of this width. -/
def pairIn (scaledViewW x y : Int) : ScreenBBArrangement where
  scaledViewW := scaledViewW
  box := .of (pair x y).screens

theorem adjustToCenter_rigid_iff_corner :
    RigidlyCentered (pairIn 600 0 0) (pair 0 0) ↔ Centerable (pairIn 600 0 0) :=
  adjustToCenter_rigid_iff (by decide) rfl (by decide) (by decide)

/-- In a view of 1300 the centre is at 650, and the second icon stays at 586, since 650 is out of
the default view. -/
theorem wideView_not_rigid :
    (pair 500 100).screens ≠ [] ∧ (pairIn 1300 500 100).box = .of (pair 500 100).screens ∧
      0 < (pairIn 1300 500 100).scaledViewW ∧ 0 < (pairIn 1300 500 100).scaledViewH ∧
      ¬RigidlyCentered (pairIn 1300 500 100) (pair 500 100) :=
  ⟨by decide, rfl, by decide, by decide, fun h => absurd h.box (by decide +kernel)⟩

end ScreenBBArrangement

end Synergy.Arrangement
