import Mathlib.Data.Finset.Max

/-!
# The smallest elements of a set

`smallest k s` are the at most `k` least elements of `s`: those with fewer than `k` elements of `s`
below them. A container that is kept at `k` elements by dropping the greatest one after an insertion
holds the smallest of all that was ever inserted, and so does not depend on the order of the
insertions: what was dropped early would have been dropped later as well (`smallest_union`).
-/

set_option autoImplicit false

namespace Synergy.Lib

variable {α : Type} [LinearOrder α]

/-- The at most `k` least elements. -/
def smallest (k : ℕ) (s : Finset α) : Finset α :=
  s.filter fun a => (s.filter (· < a)).card < k

variable {k : ℕ} {s t : Finset α} {a b : α}

theorem mem_smallest : a ∈ smallest k s ↔ a ∈ s ∧ (s.filter (· < a)).card < k := by
  simp [smallest]

theorem smallest_subset (k : ℕ) (s : Finset α) : smallest k s ⊆ s := Finset.filter_subset _ _

theorem filter_lt_subset (h : a ≤ b) : s.filter (· < a) ⊆ s.filter (· < b) := by
  intro x hx
  rw [Finset.mem_filter] at hx ⊢
  exact ⟨hx.1, hx.2.trans_le h⟩

/-- What is smaller than one of the smallest is one of them. -/
theorem mem_smallest_of_le (hb : b ∈ smallest k s) (ha : a ∈ s) (h : a ≤ b) :
    a ∈ smallest k s := by
  rw [mem_smallest] at hb ⊢
  exact ⟨ha, (Finset.card_le_card (filter_lt_subset h)).trans_lt hb.2⟩

/-- As long as something is left out, there are `k` smallest. -/
theorem le_card_smallest (ha : a ∈ s) (hout : a ∉ smallest k s) : k ≤ (smallest k s).card := by
  have hne : (s \ smallest k s).Nonempty := ⟨a, Finset.mem_sdiff.mpr ⟨ha, hout⟩⟩
  -- the least of what is left out
  obtain ⟨hms, hmout⟩ := Finset.mem_sdiff.mp (Finset.min'_mem _ hne)
  generalize hm : (s \ smallest k s).min' hne = m at hms hmout
  have hbelow : s.filter (· < m) ⊆ smallest k s := by
    intro x hx
    obtain ⟨hxs, hxm⟩ := Finset.mem_filter.mp hx
    by_contra hxout
    have hle := Finset.min'_le _ x (Finset.mem_sdiff.mpr ⟨hxs, hxout⟩)
    exact absurd hxm (not_lt.mpr (hm ▸ hle))
  have hk : k ≤ (s.filter (· < m)).card := by
    by_contra hlt
    exact hmout (mem_smallest.mpr ⟨hms, not_le.mp hlt⟩)
  exact hk.trans (Finset.card_le_card hbelow)

/-- The `k` smallest are enough to keep out what they keep out. -/
theorem le_card_filter_smallest (hb : b ∈ s) (hout : b ∉ smallest k s) (h : b ≤ a) :
    k ≤ ((smallest k s).filter (· < a)).card := by
  have hall : (smallest k s).filter (· < a) = smallest k s := by
    refine Finset.filter_true_of_mem fun x hx => ?_
    refine lt_of_lt_of_le (not_le.mp fun hbx => hout ?_) h
    exact mem_smallest_of_le hx hb hbx
  rw [hall]
  exact le_card_smallest hb hout

/-- Dropping all but the smallest before more comes does not show in the end. -/
theorem smallest_union [DecidableEq α] (k : ℕ) (s t : Finset α) :
    smallest k (smallest k s ∪ t) = smallest k (s ∪ t) := by
  have hsub : smallest k s ∪ t ⊆ s ∪ t := Finset.union_subset_union_left (smallest_subset k s)
  have hfilter : ∀ x, (smallest k s ∪ t).filter (· < x) ⊆ (s ∪ t).filter (· < x) :=
    fun x => Finset.filter_subset_filter _ hsub
  ext a
  rw [mem_smallest, mem_smallest]
  -- nothing of `s` that is left out stands at or before `a`, unless `k` others do as well
  have hkeep : ∀ b ∈ s, b ≤ a → ((smallest k s ∪ t).filter (· < a)).card < k →
      b ∈ smallest k s := by
    intro b hb hba hcard
    by_contra hout
    have hk : k ≤ ((smallest k s).filter (· < a)).card := le_card_filter_smallest hb hout hba
    have hle : ((smallest k s).filter (· < a)).card ≤
        ((smallest k s ∪ t).filter (· < a)).card :=
      Finset.card_le_card (Finset.filter_subset_filter _ Finset.subset_union_left)
    omega
  constructor
  · rintro ⟨ha, hcard⟩
    refine ⟨hsub ha, ?_⟩
    have heq : (s ∪ t).filter (· < a) = (smallest k s ∪ t).filter (· < a) := by
      refine Finset.Subset.antisymm (fun x hx => ?_) (hfilter a)
      obtain ⟨hx, hxa⟩ := Finset.mem_filter.mp hx
      refine Finset.mem_filter.mpr ⟨?_, hxa⟩
      rcases Finset.mem_union.mp hx with hx | hx
      · exact Finset.mem_union_left _ (hkeep x hx hxa.le hcard)
      · exact Finset.mem_union_right _ hx
    rw [heq]
    exact hcard
  · rintro ⟨ha, hcard⟩
    have hless : ((smallest k s ∪ t).filter (· < a)).card < k :=
      (Finset.card_le_card (hfilter a)).trans_lt hcard
    refine ⟨?_, hless⟩
    rcases Finset.mem_union.mp ha with ha | ha
    · exact Finset.mem_union_left _ (hkeep a ha le_rfl hless)
    · exact Finset.mem_union_right _ ha

theorem smallest_eq_self (h : s.card ≤ k) : smallest k s = s := by
  refine Finset.Subset.antisymm (smallest_subset k s) fun a ha => ?_
  refine mem_smallest.mpr ⟨ha, lt_of_lt_of_le (Finset.card_lt_card ?_) h⟩
  refine Finset.filter_ssubset.mpr ⟨a, ha, lt_irrefl a⟩

/-- With one too many, the greatest goes. -/
theorem smallest_eq_erase [DecidableEq α] (ha : a ∈ s) (hmax : ∀ b ∈ s, b ≤ a)
    (h : s.card = k + 1) : smallest k s = s.erase a := by
  have hbelow : s.filter (· < a) = s.erase a := by
    ext b
    rw [Finset.mem_filter, Finset.mem_erase]
    constructor
    · rintro ⟨hb, hlt⟩
      exact ⟨hlt.ne, hb⟩
    · rintro ⟨hne, hb⟩
      exact ⟨hb, lt_of_le_of_ne (hmax b hb) hne⟩
  have hcard : (s.erase a).card = k := by
    rw [Finset.card_erase_of_mem ha, h]
    rfl
  ext b
  rw [mem_smallest, Finset.mem_erase]
  constructor
  · rintro ⟨hb, hlt⟩
    refine ⟨?_, hb⟩
    rintro rfl
    rw [hbelow, hcard] at hlt
    exact lt_irrefl k hlt
  · rintro ⟨hne, hb⟩
    have hlt : b < a := lt_of_le_of_ne (hmax b hb) hne
    refine ⟨hb, ?_⟩
    have hss : s.filter (· < b) ⊂ s.filter (· < a) := by
      refine Finset.ssubset_iff_of_subset (filter_lt_subset hlt.le) |>.mpr ⟨b, ?_, ?_⟩
      · exact Finset.mem_filter.mpr ⟨hb, hlt⟩
      · simp
    have := Finset.card_lt_card hss
    rw [hbelow, hcard] at this
    exact this

end Synergy.Lib
