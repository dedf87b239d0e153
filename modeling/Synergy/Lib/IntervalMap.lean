import Mathlib.Data.List.Basic
import Mathlib.Order.Lattice

/-!
# Interval maps, and what overwriting makes of a sorted list

An interval map stores values for keys, and `set` stores one for all keys of a closed interval,
whatever was stored there before. A map that absorbs identities, which is what an interval map of
Boost.ICL does unless told otherwise, stores no pair whose value is zero: `set` erases the interval
and inserts nothing.

Where the elements of a list are drawn into a map one after another, the last one that covers a key
is what is found there. If the list is sorted, that is the one no other one that covers the key
comes after.
-/

set_option autoImplicit false

namespace Synergy.Lib

variable {κ α β : Type}

/-- What `std::sort` may do: any order of the elements that fits the comparison, which need not keep
elements in place that compare equal. -/
structure SortAlgorithm (β : Type) where
  sort : (β → β → Bool) → List β → List β
  perm : ∀ lt l, (sort lt l).Perm l
  sorted : ∀ lt l, (∀ a b, lt a b = true → lt b a = false) →
    (∀ a b c, lt a b = false → lt b c = false → lt a c = false) →
    (sort lt l).Pairwise fun a b => lt b a = false

/-- A stable sort is one. -/
def SortAlgorithm.stable (β : Type) : SortAlgorithm β where
  sort lt l := l.mergeSort fun a b => !lt b a
  perm lt l := List.mergeSort_perm l _
  sorted lt l hasymm htrans := by
    have h := @List.pairwise_mergeSort β (fun a b => !lt b a) ?_ ?_ l
    · simpa using h
    · intro a b c hab hbc
      simp only [Bool.not_eq_eq_eq_not, Bool.not_true] at hab hbc ⊢
      exact htrans c b a hbc hab
    · intro a b
      cases h : lt b a with
      | false => rfl
      | true => simp [hasymm b a h]

/-- An interval map, as the function that it stores. -/
structure IntervalMap (κ α : Type) where
  find : κ → Option α

namespace IntervalMap

def empty : IntervalMap κ α := ⟨fun _ => none⟩

variable [LinearOrder κ] [Zero α] [DecidableEq α]

/-- What is stored where this value is to be stored: zero is absorbed. -/
def stored (value : α) : Option α := if value = 0 then none else some value

/-- Erase the closed interval, and insert it with the value. -/
def set (m : IntervalMap κ α) (lower upper : κ) (value : α) : IntervalMap κ α :=
  ⟨fun k => if lower ≤ k ∧ k ≤ upper then stored value else m.find k⟩

/-- Draw the elements of a list, each over its interval. -/
def paint (lower upper : β → κ) (value : β → α) (m : IntervalMap κ α) (l : List β) :
    IntervalMap κ α :=
  l.foldl (fun m b => m.set (lower b) (upper b) (value b)) m

variable {lower upper : β → κ} {value : β → α} {m : IntervalMap κ α} {l : List β} {b : β} {k : κ}

theorem find_set_of_covers {v : α} {x y : κ} (h : x ≤ k ∧ k ≤ y) :
    (m.set x y v).find k = stored v :=
  if_pos h

theorem find_set_of_not_covers {v : α} {x y : κ} (h : ¬(x ≤ k ∧ k ≤ y)) :
    (m.set x y v).find k = m.find k :=
  if_neg h

theorem find_paint_of_not_covers (h : ∀ b ∈ l, ¬(lower b ≤ k ∧ k ≤ upper b)) :
    (paint lower upper value m l).find k = m.find k := by
  induction l generalizing m with
  | nil => rfl
  | cons b l ih =>
    show (paint lower upper value (m.set (lower b) (upper b) (value b)) l).find k = m.find k
    rw [ih fun c hc => h c (List.mem_cons_of_mem _ hc),
      find_set_of_not_covers (h b List.mem_cons_self)]

/-- What is drawn over `b` has the same value. -/
theorem find_paint_of_eq {v : α} (hm : m.find k = stored v)
    (h : ∀ b ∈ l, lower b ≤ k ∧ k ≤ upper b → value b = v) :
    (paint lower upper value m l).find k = stored v := by
  induction l generalizing m with
  | nil => exact hm
  | cons b l ih =>
    show (paint lower upper value (m.set (lower b) (upper b) (value b)) l).find k = stored v
    refine ih ?_ fun c hc => h c (List.mem_cons_of_mem _ hc)
    by_cases hcovers : lower b ≤ k ∧ k ≤ upper b
    · rw [find_set_of_covers hcovers, h b List.mem_cons_self hcovers]
    · rw [find_set_of_not_covers hcovers, hm]

/-- In a sorted list, an element that comes after all others that cover a key is found there. -/
theorem find_paint_of_last {lt : β → β → Bool} (hsorted : l.Pairwise fun a c => lt c a = false)
    (hb : b ∈ l) (hcovers : lower b ≤ k ∧ k ≤ upper b)
    (hlast : ∀ c ∈ l, lower c ≤ k ∧ k ≤ upper c → c ≠ b → lt c b = true) :
    (paint lower upper value m l).find k = stored (value b) := by
  obtain ⟨before, after, rfl⟩ := List.append_of_mem hb
  have hfold : paint lower upper value m (before ++ b :: after) =
      paint lower upper value
        ((paint lower upper value m before).set (lower b) (upper b) (value b)) after := by
    unfold paint
    rw [List.foldl_append]
    rfl
  rw [hfold]
  refine find_paint_of_eq (find_set_of_covers hcovers) fun c hc hcov => ?_
  by_contra hvalue
  have hne : c ≠ b := fun heq => hvalue (congrArg value heq)
  have hnot := List.rel_of_pairwise_cons (List.pairwise_append.mp hsorted).2.1 hc
  rw [hlast c (List.mem_append_right _ (List.mem_cons_of_mem _ hc)) hcov hne] at hnot
  exact absurd hnot (by simp)

end IntervalMap

end Synergy.Lib
