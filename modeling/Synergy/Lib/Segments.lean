import Mathlib.Data.List.Induction
import Mathlib.Data.List.TakeWhile
import Mathlib.Order.Lattice
import Synergy.Lib.IntervalMap

/-!
# The segments of an interval map

An interval map of Boost.ICL over integers keeps segments: intervals that are disjoint, in order,
each with its value. A bound of an interval belongs to it or does not. Where `set` erases an
interval, what is left of a segment to its left and to its right gets the bound of the erased
interval, open where that was closed; a remainder without an integer in it is dropped. Segments with
the same value are joined where one follows on the other.

Where elements with distinct values are drawn one after another, the segments of an element are the
runs of those keys of its interval that no later one covers. A bound is the end of the interval
where the run reaches it, and otherwise the key next to the run, which is not in the segment.
-/

set_option autoImplicit false

namespace Synergy.Lib

/-- `boost::icl::discrete_interval`. -/
structure DiscreteInterval where
  lower : Int
  upper : Int
  lowerClosed : Bool
  upperClosed : Bool
  deriving DecidableEq

namespace DiscreteInterval

def closed (lower upper : Int) : DiscreteInterval := ⟨lower, upper, true, true⟩

def first (i : DiscreteInterval) : Int := if i.lowerClosed then i.lower else i.lower + 1

def last (i : DiscreteInterval) : Int := if i.upperClosed then i.upper else i.upper - 1

def isEmpty (i : DiscreteInterval) : Bool := i.last < i.first

/-- A key is in the interval. -/
def Has (i : DiscreteInterval) (t : Int) : Prop := i.first ≤ t ∧ t ≤ i.last

instance (i : DiscreteInterval) (t : Int) : Decidable (i.Has t) :=
  inferInstanceAs (Decidable (_ ∧ _))

def exclusiveLess (i j : DiscreteInterval) : Bool := i.last < j.first

def touches (i j : DiscreteInterval) : Bool := i.last + 1 = j.first

def hull (i j : DiscreteInterval) : DiscreteInterval :=
  ⟨i.lower, j.upper, i.lowerClosed, j.upperClosed⟩

/-- What is left of an interval to the left of another one. -/
def rightSubtract (i minuend : DiscreteInterval) : DiscreteInterval :=
  { i with upper := minuend.lower, upperClosed := !minuend.lowerClosed }

/-- What is left of an interval to the right of another one. -/
def leftSubtract (i minuend : DiscreteInterval) : DiscreteInterval :=
  { i with lower := minuend.upper, lowerClosed := !minuend.upperClosed }

def cut (minuend i : DiscreteInterval) : List DiscreteInterval :=
  if i.exclusiveLess minuend ∨ minuend.exclusiveLess i then [i]
  else [i.rightSubtract minuend, i.leftSubtract minuend].filter fun j => !j.isEmpty

end DiscreteInterval

open DiscreteInterval

/-- The segments of a map, in order. -/
abbrev Segments (α : Type) := List (DiscreteInterval × α)

namespace Segments

variable {α β : Type} [Zero α] [DecidableEq α]

def erase (minuend : DiscreteInterval) (m : Segments α) : Segments α :=
  m.flatMap fun p => (cut minuend p.1).map fun i => (i, p.2)

/-- `join_neighbours`, where one part ends and the next one begins. -/
def join (before after : Segments α) : Segments α :=
  match before.getLast?, after with
  | some p, q :: rest =>
    if p.1.touches q.1 ∧ p.2 = q.2 then before.dropLast ++ (p.1.hull q.1, p.2) :: rest
    else before ++ after
  | _, _ => before ++ after

/-- Where nothing is in the way. -/
def insert (i : DiscreteInterval) (value : α) (m : Segments α) : Segments α :=
  if i.isEmpty ∨ value = 0 then m
  else
    join (join (m.takeWhile fun p => p.1.exclusiveLess i) [(i, value)])
      (m.dropWhile fun p => p.1.exclusiveLess i)

/-- Erase the interval, and insert it with the value. -/
def set (m : Segments α) (i : DiscreteInterval) (value : α) : Segments α :=
  insert i value (erase i m)

/-- Draw the elements of a list, each over its closed interval. -/
def paint (lower upper : β → Int) (value : β → α) (m : Segments α) (l : List β) : Segments α :=
  l.foldl (fun m b => set m (closed (lower b) (upper b)) (value b)) m

def find (m : Segments α) (t : Int) : Option α :=
  (m.find? fun p => p.1.Has t).map Prod.snd

end Segments

/-! ## Pieces of an interval -/

namespace DiscreteInterval

/-- The keys from `f` to `g` of the closed interval from `l` to `u`. -/
def piece (l u f g : Int) : DiscreteInterval where
  lower := if f = l then f else f - 1
  upper := if g = u then g else g + 1
  lowerClosed := f = l
  upperClosed := g = u

variable {l u f g x y t : Int}

@[simp] theorem piece_first : (piece l u f g).first = f := by
  simp only [piece, first, decide_eq_true_eq]
  split <;> omega

@[simp] theorem piece_last : (piece l u f g).last = g := by
  simp only [piece, last, decide_eq_true_eq]
  split <;> omega

@[simp] theorem closed_first : (closed x y).first = x := rfl

@[simp] theorem closed_last : (closed x y).last = y := rfl

theorem isEmpty_closed (h : x ≤ y) : (closed x y).isEmpty = false :=
  decide_eq_false (Int.not_lt.mpr h)

theorem has_piece : (piece l u f g).Has t ↔ f ≤ t ∧ t ≤ g := by
  rw [Has, piece_first, piece_last]

/-- The bounds of a piece lie in its interval, and differ if the interval has more than one key. -/
theorem piece_bounds (hlu : l < u) (hf : l ≤ f) (hfg : f ≤ g) (hg : g ≤ u) :
    l ≤ (piece l u f g).lower ∧ (piece l u f g).lower < (piece l u f g).upper ∧
      (piece l u f g).upper ≤ u := by
  simp only [piece]
  split <;> split <;> omega

theorem rightSubtract_piece (hg : g ≤ u) (h : x ≤ g) :
    (piece l u f g).rightSubtract (closed x y) = piece l u f (x - 1) := by
  have hne : x - 1 ≠ u := by omega
  simp [piece, rightSubtract, closed, hne]

theorem leftSubtract_piece (hf : l ≤ f) (h : f ≤ y) :
    (piece l u f g).leftSubtract (closed x y) = piece l u (y + 1) g := by
  have hne : y + 1 ≠ l := by omega
  simp [piece, leftSubtract, closed, hne]

/-- A closed interval cuts a piece into at most two. -/
theorem mem_cut_piece {k : DiscreteInterval} (hf : l ≤ f) (hg : g ≤ u) :
    k ∈ cut (closed x y) (piece l u f g) ↔
      ((g < x ∨ y < f) ∧ k = piece l u f g) ∨
      (x ≤ g ∧ f ≤ y ∧ (f < x ∧ k = piece l u f (x - 1) ∨ y < g ∧ k = piece l u (y + 1) g)) := by
  simp only [cut, exclusiveLess, piece_first, piece_last, closed_first, closed_last,
    decide_eq_true_eq]
  by_cases hapart : g < x ∨ y < f
  · have hnot : ¬(x ≤ g ∧ f ≤ y ∧
        (f < x ∧ k = piece l u f (x - 1) ∨ y < g ∧ k = piece l u (y + 1) g)) := by omega
    rw [if_pos hapart, List.mem_singleton]
    tauto
  · obtain ⟨hx, hy⟩ := not_or.mp hapart
    have hxg : x ≤ g := Int.not_lt.mp hx
    have hfy : f ≤ y := Int.not_lt.mp hy
    rw [if_neg hapart, rightSubtract_piece hg hxg, leftSubtract_piece hf hfy, List.mem_filter]
    simp only [List.mem_cons, List.not_mem_nil, or_false, isEmpty, Bool.not_eq_true',
      decide_eq_false_iff_not, Int.not_lt]
    constructor
    · rintro ⟨rfl | rfl, hne⟩
      · rw [piece_first, piece_last] at hne
        exact Or.inr ⟨hxg, hfy, Or.inl ⟨by omega, rfl⟩⟩
      · rw [piece_first, piece_last] at hne
        exact Or.inr ⟨hxg, hfy, Or.inr ⟨by omega, rfl⟩⟩
    · rintro (⟨h, -⟩ | ⟨-, -, ⟨hlt, rfl⟩ | ⟨hlt, rfl⟩⟩)
      · exact absurd h hapart
      · rw [piece_first, piece_last]
        exact ⟨Or.inl rfl, by omega⟩
      · rw [piece_first, piece_last]
        exact ⟨Or.inr rfl, by omega⟩

/-! ## Runs -/

/-- A run of keys, which cannot be extended. -/
def IsRun (owned : Int → Prop) (f g : Int) : Prop :=
  f ≤ g ∧ (∀ t, f ≤ t → t ≤ g → owned t) ∧ ¬owned (f - 1) ∧ ¬owned (g + 1)

variable {owned : Int → Prop}

/-- Runs with a key in common are the same. -/
theorem IsRun.unique {f' g' : Int} (h : IsRun owned f g) (h' : IsRun owned f' g')
    (ht : f ≤ t ∧ t ≤ g) (ht' : f' ≤ t ∧ t ≤ g') : f = f' ∧ g = g' := by
  obtain ⟨-, hin, hbelow, habove⟩ := h
  obtain ⟨-, hin', hbelow', habove'⟩ := h'
  have hf : f ≤ f' := by
    by_contra hlt
    exact hbelow (hin' (f - 1) (by omega) (by omega))
  have hf' : f' ≤ f := by
    by_contra hlt
    exact hbelow' (hin (f' - 1) (by omega) (by omega))
  have hg : g ≤ g' := by
    by_contra hlt
    exact habove' (hin (g' + 1) (by omega) (by omega))
  have hg' : g' ≤ g := by
    by_contra hlt
    exact habove (hin' (g + 1) (by omega) (by omega))
  omega

/-- The pieces are those of the keys that an interval still has. -/
structure PiecesOf (l u : Int) (owned : Int → Prop) (ps : List DiscreteInterval) : Prop where
  within : ∀ t, owned t → l ≤ t ∧ t ≤ u
  sound : ∀ k ∈ ps, ∃ f g, IsRun owned f g ∧ k = piece l u f g
  complete : ∀ t, owned t → ∃ k ∈ ps, k.Has t

variable {ps : List DiscreteInterval}

theorem PiecesOf.mem_iff (h : PiecesOf l u owned ps) {k : DiscreteInterval} :
    k ∈ ps ↔ ∃ f g, IsRun owned f g ∧ k = piece l u f g := by
  refine ⟨h.sound k, ?_⟩
  rintro ⟨f, g, hrun, rfl⟩
  obtain ⟨k, hk, hhas⟩ := h.complete f (hrun.2.1 f le_rfl hrun.1)
  obtain ⟨f', g', hrun', rfl⟩ := h.sound k hk
  obtain ⟨rfl, rfl⟩ := hrun.unique hrun' ⟨le_rfl, hrun.1⟩ (has_piece.mp hhas)
  exact hk

theorem PiecesOf.congr {owned' : Int → Prop} (h : PiecesOf l u owned ps)
    (heq : ∀ t, owned' t ↔ owned t) : PiecesOf l u owned' ps := by
  obtain rfl : owned' = owned := funext fun t => propext (heq t)
  exact h

theorem PiecesOf.closed (h : l ≤ u) :
    PiecesOf l u (fun t => l ≤ t ∧ t ≤ u) [DiscreteInterval.closed l u] := by
  refine ⟨fun _ ht => ht, fun k hk => ⟨l, u, ?_, ?_⟩,
    fun t ht => ⟨_, List.mem_singleton_self _, ht⟩⟩
  · refine ⟨h, fun t hl hu => ⟨hl, hu⟩, ?_, ?_⟩ <;> omega
  · rw [List.mem_singleton.mp hk]
    simp [piece, DiscreteInterval.closed]

/-- Cutting an interval out of all pieces. -/
theorem PiecesOf.cut (h : PiecesOf l u owned ps) (hxy : x ≤ y) :
    PiecesOf l u (fun t => owned t ∧ ¬(x ≤ t ∧ t ≤ y))
      (ps.flatMap (DiscreteInterval.cut (DiscreteInterval.closed x y))) := by
  refine ⟨fun t ht => h.within t ht.1, fun k hk => ?_, fun t ⟨hown, hnot⟩ => ?_⟩
  · obtain ⟨j, hj, hcut⟩ := List.mem_flatMap.mp hk
    obtain ⟨f, g, hrun, rfl⟩ := h.sound j hj
    obtain ⟨hfg, hin, hbelow, habove⟩ := hrun
    have hf := (h.within f (hin f le_rfl hfg)).1
    have hg := (h.within g (hin g hfg le_rfl)).2
    rcases (mem_cut_piece hf hg).mp hcut with ⟨hapart, rfl⟩ | ⟨hxg, hfy, ⟨hlt, rfl⟩ | ⟨hlt, rfl⟩⟩
    · exact ⟨f, g, ⟨hfg, fun t hft htg => ⟨hin t hft htg, by omega⟩, fun hc => hbelow hc.1,
        fun hc => habove hc.1⟩, rfl⟩
    · exact ⟨f, x - 1, ⟨by omega, fun t hft htx => ⟨hin t hft (by omega), by omega⟩,
        fun hc => hbelow hc.1, fun hc => hc.2 (by omega)⟩, rfl⟩
    · exact ⟨y + 1, g, ⟨by omega, fun t hyt htg => ⟨hin t (by omega) htg, by omega⟩,
        fun hc => hc.2 (by omega), fun hc => habove hc.1⟩, rfl⟩
  · obtain ⟨j, hj, hhas⟩ := h.complete t hown
    obtain ⟨f, g, ⟨hfg, hin, -, -⟩, rfl⟩ := h.sound j hj
    have hf := (h.within f (hin f le_rfl hfg)).1
    have hg := (h.within g (hin g hfg le_rfl)).2
    obtain ⟨hft, htg⟩ := has_piece.mp hhas
    have hmem : ∀ {k}, k ∈ DiscreteInterval.cut (DiscreteInterval.closed x y) (piece l u f g) →
        k ∈ ps.flatMap (DiscreteInterval.cut (DiscreteInterval.closed x y)) := fun hk =>
      List.mem_flatMap.mpr ⟨_, hj, hk⟩
    by_cases hapart : g < x ∨ y < f
    · exact ⟨_, hmem ((mem_cut_piece hf hg).mpr (Or.inl ⟨hapart, rfl⟩)), hhas⟩
    · rcases Int.lt_or_le t x with hlt | hge
      · exact ⟨_, hmem ((mem_cut_piece hf hg).mpr (Or.inr ⟨by omega, by omega,
          Or.inl ⟨by omega, rfl⟩⟩)), has_piece.mpr ⟨hft, by omega⟩⟩
      · exact ⟨_, hmem ((mem_cut_piece hf hg).mpr (Or.inr ⟨by omega, by omega,
          Or.inr ⟨by omega, rfl⟩⟩)), has_piece.mpr ⟨by omega, htg⟩⟩

/-- Where the keys that two orders of drawing give to an element differ at its ends at most, and
there only next to a key that it gets in both, its pieces have the same bounds. -/
theorem PiecesOf.same_bounds {owned' : Int → Prop} {ps' : List DiscreteInterval}
    (h : PiecesOf l u owned ps) (h' : PiecesOf l u owned' ps') (contested : Int → Prop)
    (hlu : l < u)
    (hagree : ∀ t, ¬contested t → (owned t ↔ owned' t))
    (hends : ∀ t, contested t → t = l ∨ t = u)
    (hfirm : ∀ p q, contested p → l ≤ q → q ≤ u → q = p + 1 ∨ q = p - 1 →
      owned q ∧ ¬contested q) {k : DiscreteInterval} (hk : k ∈ ps) :
    ∃ k' ∈ ps', k'.lower = k.lower ∧ k'.upper = k.upper := by
  obtain ⟨f, g, ⟨hfg, hin, hbelow, habove⟩, rfl⟩ := h.sound k hk
  have hfl := h.within f (hin f le_rfl hfg)
  have hgu := h.within g (hin g hfg le_rfl)
  -- a key of the run that is not contested
  obtain ⟨c, hfc, hcg, hc⟩ : ∃ c, f ≤ c ∧ c ≤ g ∧ ¬contested c := by
    by_cases hf : contested f
    · rcases hends f hf with rfl | rfl
      · obtain ⟨hown, hnot⟩ := hfirm f (f + 1) hf (by omega) (by omega) (Or.inl rfl)
        refine ⟨f + 1, by omega, ?_, hnot⟩
        by_contra hlast
        obtain rfl : g = f := by omega
        exact habove hown
      · obtain ⟨hown, -⟩ := hfirm f (f - 1) hf (by omega) (by omega) (Or.inr rfl)
        exact absurd hown hbelow
    · exact ⟨f, le_rfl, hfg, hf⟩
  have hcl := h.within c (hin c hfc hcg)
  obtain ⟨k', hk', hhas⟩ := h'.complete c ((hagree c hc).mp (hin c hfc hcg))
  obtain ⟨f', g', ⟨hfg', hin', hbelow', habove'⟩, rfl⟩ := h'.sound k' hk'
  obtain ⟨hfc', hcg'⟩ := has_piece.mp hhas
  have hfl' := h'.within f' (hin' f' le_rfl hfg')
  have hgu' := h'.within g' (hin' g' hfg' le_rfl)
  have hdiffer : ∀ t, ¬(owned t ↔ owned' t) → t = l ∨ t = u := fun t hne =>
    hends t (by_contra fun hnot => hne (hagree t hnot))
  -- where the runs do not start together, both start at the end of the interval
  have hstart : f = f' ∨ f ≤ l + 1 ∧ f' ≤ l + 1 := by
    rcases lt_trichotomy f f' with hlt | heq | hgt
    · have hat := hdiffer (f' - 1) fun hiff => hbelow' (hiff.mp (hin _ (by omega) (by omega)))
      omega
    · exact Or.inl heq
    · have hat := hdiffer (f - 1) fun hiff => hbelow (hiff.mpr (hin' _ (by omega) (by omega)))
      omega
  have hstop : g = g' ∨ u - 1 ≤ g ∧ u - 1 ≤ g' := by
    rcases lt_trichotomy g g' with hlt | heq | hgt
    · have hat := hdiffer (g + 1) fun hiff => habove (hiff.mpr (hin' _ (by omega) (by omega)))
      omega
    · exact Or.inl heq
    · have hat := hdiffer (g' + 1) fun hiff => habove' (hiff.mp (hin _ (by omega) (by omega)))
      omega
  refine ⟨_, hk', ?_, ?_⟩
  · simp only [piece]
    split <;> split <;> omega
  · simp only [piece]
    split <;> split <;> omega

end DiscreteInterval

/-! ## What has been drawn -/

namespace Segments

section Values

variable {α : Type} [DecidableEq α] {m : Segments α} {v : α}

/-- The intervals with a value. -/
def withValue (v : α) (m : Segments α) : List DiscreteInterval :=
  (m.filter fun p => p.2 = v).map Prod.fst

theorem mem_withValue {i : DiscreteInterval} : i ∈ withValue v m ↔ (i, v) ∈ m := by
  simp [withValue]

theorem withValue_append (m m' : Segments α) :
    withValue v (m ++ m') = withValue v m ++ withValue v m' := by
  simp [withValue]

theorem withValue_erase (i : DiscreteInterval) (m : Segments α) :
    withValue v (erase i m) = (withValue v m).flatMap (cut i) := by
  induction m with
  | nil => rfl
  | cons p m ih =>
    have hcons : erase i (p :: m) = ((cut i p.1).map fun j => (j, p.2)) ++ erase i m := rfl
    have hsingle : withValue v ((cut i p.1).map fun j => (j, p.2)) =
        if p.2 = v then cut i p.1 else [] := by
      by_cases heq : p.2 = v <;> simp [withValue, heq, List.filter_map, Function.comp_def]
    rw [hcons, withValue_append, ih, hsingle]
    by_cases heq : p.2 = v <;> simp [withValue, heq]

omit [DecidableEq α] in
theorem values_erase {i : DiscreteInterval} (h : v ∈ (erase i m).map Prod.snd) :
    v ∈ m.map Prod.snd := by
  obtain ⟨q, hq, rfl⟩ := List.mem_map.mp h
  obtain ⟨p, hp, hcut⟩ := List.mem_flatMap.mp hq
  obtain ⟨j, -, rfl⟩ := List.mem_map.mp hcut
  exact List.mem_map.mpr ⟨p, hp, rfl⟩

/-- Neighbours with different values are not joined. -/
theorem join_of_ne {before after : Segments α}
    (h : ∀ p ∈ before.getLast?, ∀ q ∈ after, p.2 ≠ q.2) :
    join before after = before ++ after := by
  unfold join
  split
  · rename_i p q rest hlast
    exact if_neg fun hc => h p hlast q List.mem_cons_self hc.2
  · rfl

end Values

section Order

variable {α : Type} {m : Segments α} {x y t : Int} {v : α}

/-- In order, and disjoint; so are the bounds, where they are not in their intervals too. -/
structure Ordered (m : Segments α) : Prop where
  nonempty : ∀ p ∈ m, p.1.first ≤ p.1.last
  pairwise : m.Pairwise fun p q => p.1.upper ≤ q.1.lower ∧ p.1.last < q.1.first

theorem lower_le_first (i : DiscreteInterval) : i.lower ≤ i.first ∧ i.first ≤ i.lower + 1 := by
  unfold first
  split <;> omega

theorem last_le_upper (i : DiscreteInterval) : i.upper - 1 ≤ i.last ∧ i.last ≤ i.upper := by
  unfold last
  split <;> omega

/-- What is left of an interval lies within it, before or behind what has been cut out. -/
theorem mem_cut {i k : DiscreteInterval} (hi : i.first ≤ i.last)
    (hk : k ∈ cut (closed x y) i) : k.first ≤ k.last ∧ i.lower ≤ k.lower ∧ k.upper ≤ i.upper ∧
      i.first ≤ k.first ∧ k.last ≤ i.last ∧
      (k.last < x ∧ k.upper ≤ x ∨ y < k.first ∧ y ≤ k.lower) := by
  have hlow := lower_le_first i
  have hupp := last_le_upper i
  unfold cut at hk
  split at hk
  · rename_i hapart
    simp only [exclusiveLess, decide_eq_true_eq] at hapart
    rw [closed_first, closed_last] at hapart
    rw [List.mem_singleton.mp hk]
    omega
  · rename_i hover
    simp only [exclusiveLess, decide_eq_true_eq] at hover
    rw [closed_first, closed_last] at hover
    obtain ⟨hmem, hne⟩ := List.mem_filter.mp hk
    simp only [isEmpty, Bool.not_eq_true', decide_eq_false_iff_not, Int.not_lt] at hne
    simp only [List.mem_cons, List.not_mem_nil, or_false] at hmem
    rcases hmem with rfl | rfl
    · have hlast : (i.rightSubtract (closed x y)).last = x - 1 := rfl
      have hfirst : (i.rightSubtract (closed x y)).first = i.first := rfl
      have hlower : (i.rightSubtract (closed x y)).lower = i.lower := rfl
      have hupper : (i.rightSubtract (closed x y)).upper = x := rfl
      omega
    · have hlast : (i.leftSubtract (closed x y)).last = i.last := rfl
      have hfirst : (i.leftSubtract (closed x y)).first = y + 1 := rfl
      have hlower : (i.leftSubtract (closed x y)).lower = y := rfl
      have hupper : (i.leftSubtract (closed x y)).upper = i.upper := rfl
      omega

theorem pairwise_cut {i : DiscreteInterval} (hxy : x ≤ y) : (cut (closed x y) i).Pairwise
    fun j k => j.upper ≤ k.lower ∧ j.last < k.first := by
  unfold cut
  split
  · exact List.pairwise_singleton _ _
  · refine List.Pairwise.filter _ (List.pairwise_pair.mpr ⟨hxy, ?_⟩)
    show x - 1 < y + 1
    omega

theorem Ordered.erase (h : Ordered m) (hxy : x ≤ y) : Ordered (erase (closed x y) m) ∧
    ∀ p ∈ Segments.erase (closed x y) m,
      p.1.last < x ∧ p.1.upper ≤ x ∨ y < p.1.first ∧ y ≤ p.1.lower := by
  have hmem : ∀ q ∈ Segments.erase (closed x y) m, ∃ p ∈ m, q.1 ∈ cut (closed x y) p.1 := by
    intro q hq
    obtain ⟨p, hp, hcut⟩ := List.mem_flatMap.mp hq
    obtain ⟨j, hj, rfl⟩ := List.mem_map.mp hcut
    exact ⟨p, hp, hj⟩
  refine ⟨⟨fun q hq => ?_, ?_⟩, fun q hq => ?_⟩
  · obtain ⟨p, hp, hcut⟩ := hmem q hq
    exact (mem_cut (h.nonempty p hp) hcut).1
  · refine List.pairwise_flatMap.mpr ⟨fun p hp => ?_, ?_⟩
    · exact List.pairwise_map.mpr (pairwise_cut hxy)
    · refine h.pairwise.imp_of_mem fun {p q} hp hq hpq => ?_
      intro p' hp' q' hq'
      obtain ⟨j, hj, rfl⟩ := List.mem_map.mp hp'
      obtain ⟨k, hk, rfl⟩ := List.mem_map.mp hq'
      have hin := mem_cut (h.nonempty p hp) hj
      have hin' := mem_cut (h.nonempty q hq) hk
      dsimp only
      omega
  · obtain ⟨p, hp, hcut⟩ := hmem q hq
    exact (mem_cut (h.nonempty p hp) hcut).2.2.2.2.2

/-- Behind the segments to the left of an interval come those to the right of it. -/
theorem Ordered.behind (h : Ordered m)
    (hout : ∀ p ∈ m, p.1.last < x ∧ p.1.upper ≤ x ∨ y < p.1.first ∧ y ≤ p.1.lower) :
    ∀ p ∈ m.dropWhile fun p => p.1.exclusiveLess (closed x y),
      y < p.1.first ∧ y ≤ p.1.lower := by
  obtain ⟨hnonempty, hpairwise⟩ := h
  induction m with
  | nil => exact fun _ hp => absurd hp List.not_mem_nil
  | cons q m ih =>
    obtain ⟨hq, hrest⟩ := List.pairwise_cons.mp hpairwise
    by_cases hleft : q.1.exclusiveLess (closed x y) = true
    · rw [List.dropWhile_cons, if_pos hleft]
      exact ih (fun p hp => hout p (List.mem_cons_of_mem _ hp))
        (fun p hp => hnonempty p (List.mem_cons_of_mem _ hp)) hrest
    · rw [List.dropWhile_cons, if_neg hleft]
      have hlast : ¬q.1.last < x := fun hc => hleft (decide_eq_true hc)
      have hright := (hout q List.mem_cons_self).resolve_left fun hc => hlast hc.1
      intro p hp
      rcases List.mem_cons.mp hp with rfl | hp
      · exact hright
      · have hbehind := hq p hp
        have hne := hnonempty q List.mem_cons_self
        have hupp := last_le_upper q.1
        rcases hout p (List.mem_cons_of_mem _ hp) with hc | hc
        · have hne' := hnonempty p (List.mem_cons_of_mem _ hp)
          omega
        · exact hc

end Order

section Drawing

variable {α β : Type} [Zero α] [DecidableEq α] {lower upper : β → Int} {value : β → α}
  {m : Segments α} {l : List β} {b c : β} {x y t : Int} {v w : α}

/-- A value that is new goes between the segments to the left and those to the right. -/
theorem insert_of_new {i : DiscreteInterval} (hi : i.isEmpty = false) (hzero : v ≠ 0)
    (hnew : v ∉ m.map Prod.snd) : insert i v m =
      (m.takeWhile fun p => p.1.exclusiveLess i) ++ (i, v) ::
        m.dropWhile fun p => p.1.exclusiveLess i := by
  have hne : ∀ p ∈ m, p.2 ≠ v := fun p hp heq => hnew (List.mem_map.mpr ⟨p, hp, heq⟩)
  have hskip : ¬(i.isEmpty = true ∨ v = 0) := by
    rw [hi]
    exact fun hc => hc.elim (by simp) hzero
  have hleft : join (m.takeWhile fun p => p.1.exclusiveLess i) [(i, v)] =
      (m.takeWhile fun p => p.1.exclusiveLess i) ++ [(i, v)] := by
    refine join_of_ne fun p hp q hq => ?_
    rw [List.mem_singleton.mp hq]
    exact hne p ((List.takeWhile_prefix _).mem (List.mem_of_getLast? hp))
  rw [insert, if_neg hskip, hleft, join_of_ne, List.append_assoc]
  · rfl
  · intro p hp q hq
    rw [List.getLast?_append, List.getLast?_singleton] at hp
    obtain rfl : (i, v) = p := Option.some.inj hp
    exact (hne q ((List.dropWhile_suffix _).mem hq)).symm

theorem mem_insert_of_new {i : DiscreteInterval} (hi : i.isEmpty = false) (hzero : v ≠ 0)
    (hnew : v ∉ m.map Prod.snd) {p : DiscreteInterval × α} :
    p ∈ insert i v m ↔ p = (i, v) ∨ p ∈ m := by
  have hm : p ∈ m ↔ p ∈ m.takeWhile (fun p => p.1.exclusiveLess i) ∨
      p ∈ m.dropWhile fun p => p.1.exclusiveLess i := by
    rw [← List.mem_append, List.takeWhile_append_dropWhile]
  rw [insert_of_new hi hzero hnew, List.mem_append, List.mem_cons, hm]
  tauto

theorem withValue_insert_self {i : DiscreteInterval} (hi : i.isEmpty = false) (hzero : v ≠ 0)
    (hnew : v ∉ m.map Prod.snd) : withValue v (insert i v m) = [i] := by
  have hnil : ∀ m' : Segments α, (∀ p ∈ m', p ∈ m) → withValue v m' = [] := by
    intro m' hm'
    rw [withValue, List.map_eq_nil_iff, List.filter_eq_nil_iff]
    intro p hp heq
    exact hnew (List.mem_map.mpr ⟨p, hm' p hp, of_decide_eq_true heq⟩)
  rw [insert_of_new hi hzero hnew, ← List.singleton_append, withValue_append, withValue_append,
    hnil _ fun p hp => (List.takeWhile_prefix _).mem hp,
    hnil _ fun p hp => (List.dropWhile_suffix _).mem hp]
  simp [withValue]

theorem withValue_insert_of_ne {i : DiscreteInterval} (hnew : w ∉ m.map Prod.snd) (hne : w ≠ v) :
    withValue v (insert i w m) = withValue v m := by
  by_cases hskip : i.isEmpty = true ∨ w = 0
  · rw [insert, if_pos hskip]
  · obtain ⟨hi, hzero⟩ := not_or.mp hskip
    rw [insert_of_new (Bool.eq_false_of_not_eq_true hi) hzero hnew, ← List.singleton_append,
      withValue_append, withValue_append]
    have hsingle : withValue v [(i, w)] = [] := by simp [withValue, hne]
    rw [hsingle, List.nil_append, ← withValue_append, List.takeWhile_append_dropWhile]

/-- Drawing keeps segments in order. -/
theorem Ordered.set (h : Ordered m) (hxy : x ≤ y) (hnew : v ∉ m.map Prod.snd) :
    Ordered (set m (closed x y) v) := by
  obtain ⟨herased, hout⟩ := h.erase hxy
  have hnew' : v ∉ (Segments.erase (closed x y) m).map Prod.snd := fun hv =>
    hnew (values_erase hv)
  have hi := isEmpty_closed hxy
  unfold Segments.set
  by_cases hzero : v = 0
  · rwa [insert, if_pos (Or.inr hzero)]
  · refine ⟨fun p hp => ?_, ?_⟩
    · rcases (mem_insert_of_new hi hzero hnew').mp hp with rfl | hp
      · exact hxy
      · exact herased.nonempty p hp
    · rw [insert_of_new hi hzero hnew']
      have hright := herased.behind hout
      have hleft : ∀ p ∈ (Segments.erase (closed x y) m).takeWhile
          fun p => p.1.exclusiveLess (closed x y), p.1.last < x ∧ p.1.upper ≤ x := by
        intro p hp
        have hless := List.mem_takeWhile_imp
          (p := fun p : DiscreteInterval × α => p.1.exclusiveLess (closed x y)) hp
        have hlast : p.1.last < x := of_decide_eq_true hless
        have hne := herased.nonempty p ((List.takeWhile_prefix _).mem hp)
        exact (hout p ((List.takeWhile_prefix _).mem hp)).resolve_right fun hc => by omega
      refine List.pairwise_append.mpr ⟨?_, List.pairwise_cons.mpr ⟨fun q hq => ?_, ?_⟩,
        fun p hp q hq => ?_⟩
      · exact herased.pairwise.sublist (List.takeWhile_sublist _)
      · exact ⟨(hright q hq).2, (hright q hq).1⟩
      · exact herased.pairwise.sublist (List.dropWhile_sublist _)
      · have hp' := hleft p hp
        rcases List.mem_cons.mp hq with rfl | hq
        · exact ⟨hp'.2, hp'.1⟩
        · have hq' := hright q hq
          omega

/-- The last element that covers a key. -/
def owner (lower upper : β → Int) (l : List β) (t : Int) : Option β :=
  l.reverse.find? fun b => lower b ≤ t ∧ t ≤ upper b

omit [Zero α] [DecidableEq α] in
theorem owner_concat : owner lower upper (l ++ [c]) t =
    if lower c ≤ t ∧ t ≤ upper c then some c else owner lower upper l t := by
  rw [owner, List.reverse_concat, List.find?_cons]
  by_cases hcovers : lower c ≤ t ∧ t ≤ upper c
  · simp [hcovers]
  · rw [if_neg hcovers, decide_eq_false hcovers]
    rfl

theorem owner_mem (h : owner lower upper l t = some b) :
    b ∈ l ∧ lower b ≤ t ∧ t ≤ upper b := by
  refine ⟨List.mem_reverse.mp (List.mem_of_find?_eq_some h), ?_⟩
  have hcovers := List.find?_some h
  exact of_decide_eq_true hcovers

theorem paint_concat : paint lower upper value m (l ++ [c]) =
    set (paint lower upper value m l) (closed (lower c) (upper c)) (value c) := by
  rw [paint, List.foldl_append]
  rfl

/-- What is in the map has been drawn, and is not zero. -/
theorem mem_values_paint (hdistinct : (l.map value).Nodup) (hle : ∀ b ∈ l, lower b ≤ upper b)
    (h : v ∈ (paint lower upper value [] l).map Prod.snd) : v ∈ l.map value ∧ v ≠ 0 := by
  induction l using List.reverseRecOn generalizing v with
  | nil => exact absurd h List.not_mem_nil
  | append_singleton l c ih =>
    rw [List.map_append, List.nodup_append] at hdistinct
    obtain ⟨hl, -, hapart⟩ := hdistinct
    have hle' : ∀ b ∈ l, lower b ≤ upper b := fun b hb => hle b (List.mem_append_left _ hb)
    have hold : ∀ {w}, w ∈ (erase (closed (lower c) (upper c)) (paint lower upper value [] l)).map
        Prod.snd → w ∈ l.map value ∧ w ≠ 0 := fun hw => ih hl hle' (values_erase hw)
    have hnew : value c ∉ (erase (closed (lower c) (upper c))
        (paint lower upper value [] l)).map Prod.snd := fun hc =>
      hapart _ (hold hc).1 (value c) (by simp) rfl
    have hlast : v ∈ l.map value ∧ v ≠ 0 → v ∈ (l ++ [c]).map value ∧ v ≠ 0 := fun hv =>
      ⟨by rw [List.map_append]; exact List.mem_append_left _ hv.1, hv.2⟩
    rw [paint_concat, set] at h
    by_cases hzero : value c = 0
    · rw [insert, if_pos (Or.inr hzero)] at h
      exact hlast (hold h)
    · obtain ⟨p, hp, rfl⟩ := List.mem_map.mp h
      have hi := isEmpty_closed (hle c (by simp))
      rcases (mem_insert_of_new hi hzero hnew).mp hp with rfl | hp
      · exact ⟨by simp, hzero⟩
      · exact hlast (hold (List.mem_map.mpr ⟨p, hp, rfl⟩))

theorem new_of_distinct (hdistinct : ((l ++ [c]).map value).Nodup)
    (hle : ∀ b ∈ l ++ [c], lower b ≤ upper b) :
    value c ∉ (paint lower upper value [] l).map Prod.snd := by
  rw [List.map_append, List.nodup_append] at hdistinct
  obtain ⟨hl, -, hapart⟩ := hdistinct
  intro hc
  have hmem := mem_values_paint hl (fun b hb => hle b (List.mem_append_left _ hb)) hc
  exact hapart _ hmem.1 (value c) (by simp) rfl

theorem ordered_paint (hdistinct : (l.map value).Nodup) (hle : ∀ b ∈ l, lower b ≤ upper b) :
    Ordered (paint lower upper value [] l) := by
  induction l using List.reverseRecOn with
  | nil => exact ⟨fun _ hp => absurd hp List.not_mem_nil, List.Pairwise.nil⟩
  | append_singleton l c ih =>
    have hnew := new_of_distinct hdistinct hle
    rw [List.map_append, List.nodup_append] at hdistinct
    rw [paint_concat]
    exact (ih hdistinct.1 fun b hb => hle b (List.mem_append_left _ hb)).set (hle c (by simp)) hnew

/-- The segments of an element are the pieces of the keys that it has got. -/
theorem piecesOf_paint (hdistinct : (l.map value).Nodup) (hle : ∀ b ∈ l, lower b ≤ upper b)
    (hb : b ∈ l) (hzero : value b ≠ 0) :
    PiecesOf (lower b) (upper b) (fun t => owner lower upper l t = some b)
      (withValue (value b) (paint lower upper value [] l)) := by
  induction l using List.reverseRecOn with
  | nil => exact absurd hb List.not_mem_nil
  | append_singleton l c ih =>
    have hnew := new_of_distinct hdistinct hle
    have hnew' : value c ∉ (erase (closed (lower c) (upper c))
        (paint lower upper value [] l)).map Prod.snd := fun hc => hnew (values_erase hc)
    rw [List.map_append, List.nodup_append] at hdistinct
    obtain ⟨hl, -, hapart⟩ := hdistinct
    have hle' : ∀ b ∈ l, lower b ≤ upper b := fun b hb => hle b (List.mem_append_left _ hb)
    have hc := hle c (by simp)
    have hne : ∀ b' ∈ l, value b' ≠ value c := fun b' hb' =>
      hapart _ (List.mem_map_of_mem hb') _ (by simp)
    rw [paint_concat, set]
    rcases List.mem_append.mp hb with hb | hb
    · have hbc : c ≠ b := fun heq => hne b hb (congrArg value heq.symm)
      rw [withValue_insert_of_ne hnew' (hne b hb).symm, withValue_erase]
      refine ((ih hl hle' hb).cut hc).congr fun t => ?_
      rw [owner_concat]
      by_cases hcovers : lower c ≤ t ∧ t ≤ upper c
      · simp [hcovers, hbc]
      · simp [hcovers]
    · obtain rfl := List.mem_singleton.mp hb
      rw [withValue_insert_self (isEmpty_closed hc) hzero hnew']
      refine (PiecesOf.closed hc).congr fun t => ?_
      rw [owner_concat]
      by_cases hcovers : lower b ≤ t ∧ t ≤ upper b
      · simp [hcovers]
      · rw [if_neg hcovers]
        refine ⟨fun hown => ?_, fun h => absurd h hcovers⟩
        exact absurd rfl (hne b (owner_mem hown).1)

/-- The segments of a map: the runs of what each element has got. -/
theorem mem_paint (hdistinct : (l.map value).Nodup) (hle : ∀ b ∈ l, lower b ≤ upper b)
    {k : DiscreteInterval} : (k, v) ∈ paint lower upper value [] l ↔
      ∃ b ∈ l, value b = v ∧ v ≠ 0 ∧ ∃ f g,
        IsRun (fun t => owner lower upper l t = some b) f g ∧
        k = piece (lower b) (upper b) f g := by
  constructor
  · intro h
    obtain ⟨hmem, hzero⟩ := mem_values_paint hdistinct hle (List.mem_map_of_mem h)
    obtain ⟨b, hb, hv⟩ := List.mem_map.mp hmem
    dsimp only at hv hzero
    subst hv
    refine ⟨b, hb, rfl, hzero, ?_⟩
    exact (piecesOf_paint hdistinct hle hb hzero).mem_iff.mp (mem_withValue.mpr h)
  · rintro ⟨b, hb, rfl, hzero, hrun⟩
    exact mem_withValue.mp ((piecesOf_paint hdistinct hle hb hzero).mem_iff.mpr hrun)

omit [Zero α] [DecidableEq α] in
theorem Ordered.find_eq_some_iff (h : Ordered m) :
    find m t = some v ↔ ∃ i, (i, v) ∈ m ∧ i.Has t := by
  obtain ⟨-, hpairwise⟩ := h
  induction m with
  | nil => simp [find]
  | cons p m ih =>
    obtain ⟨hp, hrest⟩ := List.pairwise_cons.mp hpairwise
    by_cases hhas : p.1.Has t
    · have hfind : find (p :: m) t = some p.2 := by
        rw [find, List.find?_cons_of_pos (by simpa using hhas), Option.map_some]
      rw [hfind, Option.some.injEq]
      constructor
      · rintro rfl
        exact ⟨p.1, List.mem_cons_self, hhas⟩
      · rintro ⟨i, hi, hhas'⟩
        rcases List.mem_cons.mp hi with heq | hi
        · rw [← heq]
        · have hbehind := (hp _ hi).2
          have hlast := hhas.2
          have hfirst := hhas'.1
          dsimp only at hbehind
          omega
    · have hfind : find (p :: m) t = find m t := by
        rw [find, List.find?_cons_of_neg (by simpa using hhas), find]
      rw [hfind, ih hrest]
      refine exists_congr fun i => and_congr_left fun hhas' => ?_
      rw [List.mem_cons, or_iff_right]
      rintro rfl
      exact hhas hhas'

/-- What an interval map stores is the value of the last element that covers the key. -/
theorem find_paint_owner (t : Int) :
    (IntervalMap.paint lower upper value IntervalMap.empty l).find t =
      (owner lower upper l t).bind fun b => IntervalMap.stored (value b) := by
  induction l using List.reverseRecOn with
  | nil => rfl
  | append_singleton l c ih =>
    rw [IntervalMap.paint, List.foldl_append, owner_concat]
    by_cases hcovers : lower c ≤ t ∧ t ≤ upper c
    · rw [if_pos hcovers]
      exact IntervalMap.find_set_of_covers hcovers
    · rw [if_neg hcovers, ← ih]
      exact IntervalMap.find_set_of_not_covers hcovers

/-- The segments store the function that the interval map stores. -/
theorem find_paint (hdistinct : (l.map value).Nodup) (hle : ∀ b ∈ l, lower b ≤ upper b) (t : Int) :
    find (paint lower upper value [] l) t =
      (IntervalMap.paint lower upper value IntervalMap.empty l).find t := by
  refine Option.ext fun v => ?_
  rw [(ordered_paint hdistinct hle).find_eq_some_iff, find_paint_owner, Option.bind_eq_some_iff]
  constructor
  · rintro ⟨i, hi, hhas⟩
    obtain ⟨b, -, rfl, hzero, f, g, hrun, rfl⟩ := (mem_paint hdistinct hle).mp hi
    obtain ⟨hft, htg⟩ := has_piece.mp hhas
    exact ⟨b, hrun.2.1 t hft htg, if_neg hzero⟩
  · rintro ⟨b, hown, hstored⟩
    rw [IntervalMap.stored] at hstored
    split at hstored
    · cases hstored
    · rename_i hzero
      cases hstored
      obtain ⟨i, hi, hhas⟩ :=
        (piecesOf_paint hdistinct hle (owner_mem hown).1 hzero).complete t hown
      exact ⟨i, mem_withValue.mp hi, hhas⟩

omit [Zero α] [DecidableEq α] in
/-- Where an element covers a key, the key has an owner, which is that element or comes later. -/
theorem exists_owner {R : β → β → Prop} (hl : l.Pairwise R) (hb : b ∈ l)
    (hcovers : lower b ≤ t ∧ t ≤ upper b) :
    ∃ c, owner lower upper l t = some c ∧ (c = b ∨ R b c) := by
  induction l using List.reverseRecOn with
  | nil => exact absurd hb List.not_mem_nil
  | append_singleton l d ih =>
    obtain ⟨hl, -, hbefore⟩ := List.pairwise_append.mp hl
    rw [owner_concat]
    by_cases hcovers' : lower d ≤ t ∧ t ≤ upper d
    · refine ⟨d, if_pos hcovers', ?_⟩
      rcases List.mem_append.mp hb with hb | hb
      · exact Or.inr (hbefore b hb d (List.mem_singleton_self d))
      · exact Or.inl (List.mem_singleton.mp hb).symm
    · rw [if_neg hcovers']
      refine ih hl ((List.mem_append.mp hb).resolve_right fun hb => ?_)
      rw [List.mem_singleton.mp hb] at hcovers
      exact hcovers' hcovers

end Drawing

end Segments

end Synergy.Lib
