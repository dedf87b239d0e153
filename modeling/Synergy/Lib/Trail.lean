import Mathlib.Data.Finset.Option
import Mathlib.Data.Set.Card

/-!
# Following a partial function

`trail f a` is where `f` leads from `a`, step after step, as long as it leads anywhere. How often
the trail comes to places of some kind is bounded just where it comes to no such place twice, and
to no more of them than the bound allows: once it comes to a place again it runs in a circle.
-/

set_option autoImplicit false

namespace Synergy.Lib

variable {α : Type}

def trail (f : α → Option α) (a : Option α) : ℕ → Option α
  | 0 => a
  | k + 1 => (trail f a k).bind f

/-- After `k` steps the trail is at `x`, which is of the kind. -/
def Visits (f : α → Option α) (a : Option α) (p : α → Prop) (k : ℕ) (x : α) : Prop :=
  trail f a k = some x ∧ p x

/-- How many of the first `n` places are of the kind. -/
def visits (f : α → Option α) (a : Option α) (p : α → Prop) [DecidablePred p] (n : ℕ) : ℕ :=
  ((Finset.range n).filter fun k => (trail f a k).any fun x => p x).card

variable {f : α → Option α} {a : Option α} {p : α → Prop} {j k : ℕ} {x : α}

/-- Two places that are the same have the same trail before them. -/
theorem trail_add (h : trail f a j = trail f a k) (m : ℕ) :
    trail f a (j + m) = trail f a (k + m) := by
  induction m with
  | zero => exact h
  | succ m ih =>
    show (trail f a (j + m)).bind f = (trail f a (k + m)).bind f
    rw [ih]

/-- A place to which the trail comes back is one to which it comes back for ever. -/
theorem Visits.again (h : Visits f a p j x) (h' : Visits f a p (j + k) x) (m : ℕ) :
    Visits f a p (j + m * k) x := by
  induction m with
  | zero => simpa using h
  | succ m ih =>
    refine ⟨?_, h.2⟩
    have hback := trail_add (ih.1.trans h.1.symm) k
    rw [h'.1] at hback
    rw [← hback]
    rw [Nat.succ_mul, Nat.add_assoc]

variable [DecidablePred p]

theorem mem_visits_iff {n : ℕ} :
    k ∈ (Finset.range n).filter (fun k => (trail f a k).any fun x => p x) ↔
      k < n ∧ ∃ x, Visits f a p k x := by
  rw [Finset.mem_filter, Finset.mem_range, Option.any_eq_true]
  simp [Visits]

/-- Coming to one place twice is coming there as often as one likes. -/
theorem Visits.unique {t : ℕ} (hbound : ∀ n, visits f a p n ≤ t) (hj : Visits f a p j x)
    (hk : Visits f a p k x) : j = k := by
  wlog hlt : j < k generalizing j k
  · rcases Nat.lt_or_ge k j with hgt | hle
    · exact (this hk hj hgt).symm
    · omega
  have hcircle : ∀ m, Visits f a p (j + m * (k - j)) x :=
    fun m => hj.again (by rwa [Nat.add_sub_cancel' hlt.le]) m
  have hcard : (Finset.range (t + 1)).card ≤ visits f a p (j + (t + 1) * (k - j)) := by
    refine Finset.card_le_card_of_injOn (fun m => j + m * (k - j)) ?_ ?_
    · intro m hm
      rw [Finset.coe_range, Set.mem_Iio] at hm
      have hless : m * (k - j) < (t + 1) * (k - j) :=
        Nat.mul_lt_mul_of_pos_right hm (by omega)
      exact mem_visits_iff.mpr ⟨Nat.add_lt_add_left hless j, x, hcircle m⟩
    · intro m _ m' _ heq
      exact Nat.eq_of_mul_eq_mul_right (by omega) (Nat.add_left_cancel heq)
  rw [Finset.card_range] at hcard
  have := hbound (j + (t + 1) * (k - j))
  omega

/-- The places that are visited are few if the visits are. -/
theorem exists_places {t : ℕ} (hbound : ∀ n, visits f a p n ≤ t) :
    ∃ s : Finset α, s.card ≤ t ∧ ∀ k x, Visits f a p k x → x ∈ s := by
  classical
  have hcard : ∀ u : Finset ℕ, (∀ k ∈ u, ∃ x, Visits f a p k x) → u.card ≤ t := by
    intro u hu
    refine le_trans (Finset.card_le_card ?_) (hbound (u.sup id + 1))
    intro k hk
    exact mem_visits_iff.mpr ⟨Nat.lt_succ_of_le (Finset.le_sup (f := id) hk), hu k hk⟩
  have hfinite : {k | ∃ x, Visits f a p k x}.Finite := by
    by_contra hinfinite
    obtain ⟨u, hu, hsize⟩ := Set.Infinite.exists_subset_card_eq hinfinite (t + 1)
    have := hcard u fun k hk => hu hk
    omega
  refine ⟨(hfinite.toFinset.image (trail f a)).eraseNone, ?_, ?_⟩
  · calc ((hfinite.toFinset.image (trail f a)).eraseNone).card
        ≤ (hfinite.toFinset.image (trail f a)).card := Finset.card_eraseNone_le _
      _ ≤ hfinite.toFinset.card := Finset.card_image_le
      _ ≤ t := hcard _ fun k hk => by simpa using hk
  · intro k x hvisit
    rw [Finset.mem_eraseNone]
    exact Finset.mem_image.mpr ⟨k, by simpa using ⟨x, hvisit⟩, hvisit.1⟩

/-- The visits are bounded just where no place is visited twice and only so many are. -/
theorem visits_le_iff {t : ℕ} : (∀ n, visits f a p n ≤ t) ↔
    (∀ j k x, Visits f a p j x → Visits f a p k x → j = k) ∧
      ∃ s : Finset α, s.card ≤ t ∧ ∀ k x, Visits f a p k x → x ∈ s := by
  constructor
  · intro hbound
    exact ⟨fun _ _ _ hj hk => hj.unique hbound hk, exists_places hbound⟩
  · rintro ⟨hunique, s, hs, hmem⟩ n
    refine le_trans ?_ hs
    rw [← Finset.card_map Function.Embedding.some]
    refine Finset.card_le_card_of_injOn (trail f a) ?_ ?_
    · intro k hk
      obtain ⟨-, x, hvisit⟩ := mem_visits_iff.mp hk
      rw [hvisit.1]
      exact Finset.mem_coe.mpr (Finset.mem_map.mpr ⟨x, hmem k x hvisit, rfl⟩)
    · intro j hj k hk heq
      obtain ⟨-, x, hx⟩ := mem_visits_iff.mp hj
      obtain ⟨-, y, hy⟩ := mem_visits_iff.mp hk
      have hxy : x = y := by
        have := hx.1.symm.trans (heq.trans hy.1)
        exact Option.some.inj this
      exact hunique j k x hx (hxy ▸ hy)

end Synergy.Lib
