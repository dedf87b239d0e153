import Mathlib.Data.List.Basic

/-!
# Lists that are searched by a key

The first element with a key is found, and the first element with a key is replaced by one that has
the same key. So what is found under the other keys is as before.
-/

set_option autoImplicit false

namespace Synergy.Lib

variable {α κ : Type} [DecidableEq κ] {key : α → κ}

theorem find?_replaceF (l : List α) {k : κ} {f : α → α} (hf : ∀ a, key a = k → key (f a) = k)
    (k' : κ) :
    (l.replaceF fun a => if key a = k then some (f a) else none).find? (fun a => key a = k') =
      if k' = k then (l.find? fun a => key a = k).map f else l.find? fun a => key a = k' := by
  induction l with
  | nil => simp
  | cons a l ih =>
    rw [List.replaceF_cons]
    by_cases ha : key a = k
    · by_cases hk : k' = k
      · simp [ha, hk, hf a ha]
      · simp [ha, hk, hf a ha, Ne.symm hk]
    · simp only [if_neg ha, List.find?_cons, ih]
      by_cases hk : k' = k
      · subst hk
        simp [ha]
      · simp [hk]

end Synergy.Lib
