import Mathlib

/-!
# Replacing an element by finitely many smaller ones

A list from which an element is taken out, anywhere, while any number of elements of smaller
rank are added. The list may grow at every step, and still no sequence of such steps goes on
for ever: the multiset of ranks descends in the Dershowitz–Manna order.
-/

set_option autoImplicit false

namespace Synergy.Lib

variable {α β : Type} [Preorder β]

/-- `l'` is `l` without one element, and with others of smaller rank. -/
def Replaces (rank : α → β) (l l' : List α) : Prop :=
  ∃ before a after added, l = before ++ a :: after ∧ l' = before ++ after ++ added ∧
    ∀ b ∈ added, rank b < rank a

theorem Replaces.isDershowitzMannaLT {rank : α → β} {l l' : List α} (h : Replaces rank l l') :
    Multiset.IsDershowitzMannaLT (l'.map rank : Multiset β) (l.map rank : Multiset β) := by
  obtain ⟨before, a, after, added, rfl, rfl, hlt⟩ := h
  refine
    ⟨((before ++ after).map rank : List β), (added.map rank : List β), {rank a}, ?_, ?_, ?_, ?_⟩
  · simp
  · rw [List.map_append, Multiset.coe_add]
  · rw [← Multiset.coe_singleton, Multiset.coe_add, Multiset.coe_eq_coe, List.map_append,
      List.map_append, List.map_cons]
    exact List.perm_middle.trans (List.perm_append_singleton _ _).symm
  · intro y hy
    obtain ⟨b, hb, rfl⟩ := List.mem_map.mp (Multiset.mem_coe.mp hy)
    exact ⟨rank a, Multiset.mem_singleton_self _, hlt b hb⟩

theorem wellFounded_replaces [WellFoundedLT β] (rank : α → β) :
    WellFounded fun l' l => Replaces rank l l' := by
  have hwf := InvImage.wf (fun l : List α => (l.map rank : Multiset β))
    Multiset.wellFounded_isDershowitzMannaLT
  exact Subrelation.wf (fun h => h.isDershowitzMannaLT) hwf

/-- No infinite sequence of replacements. -/
theorem not_replaces_forever [WellFoundedLT β] (rank : α → β) (f : ℕ → List α) :
    ¬∀ k, Replaces rank (f k) (f (k + 1)) := by
  intro h
  have hwf : IsWellFounded (List α) fun l' l => Replaces rank l l' := ⟨wellFounded_replaces rank⟩
  obtain ⟨k, hk⟩ := WellFounded.not_rel_apply_succ (r := fun l' l => Replaces rank l l') f
  exact hk (h k)

end Synergy.Lib
