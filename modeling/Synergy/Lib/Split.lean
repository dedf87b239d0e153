import Mathlib

/-!
# Splitting a string at a character

What `String.splitOn` does at one character is what `List.splitOn` does. So the parts that
`String.intercalate` has joined are found again, unless there were none.
-/

set_option autoImplicit false

namespace Synergy.Lib

open String

/-- In the middle of a string: `l` is done, and `m` is the part that has begun. -/
theorem splitOnAux_of_valid (c : Char) (l m r : List Char) (acc : List String) :
    splitOnAux (ofList (l ++ m ++ r)) (ofList [c]) ⟨utf8Len l⟩ ⟨utf8Len l + utf8Len m⟩ 0 acc =
      acc.reverse ++ (List.splitOnPPrepend (· == c) r m.reverse).map ofList := by
  have hextract := extract_of_valid l m r
  have hend := atEnd_of_valid (l ++ m) r
  simp only [utf8Len_append] at hend
  unfold splitOnAux
  cases r with
  | nil =>
    rw [if_pos (hend.mpr rfl), hextract]
    simp
  | cons d r =>
    have hget := get_of_valid (l ++ m) (d :: r)
    have hnext := next_of_valid (l ++ m) d r
    have hget' : Pos.Raw.get (ofList [c]) 0 = c := get_of_valid [] [c]
    have hnext' : Pos.Raw.next (ofList [c]) 0 = ⟨c.utf8Size⟩ := by
      simpa using next_of_valid [] c []
    have hend' : Pos.Raw.atEnd (ofList [c]) ⟨c.utf8Size⟩ = true := by
      simpa using (atEnd_of_valid [c] []).mpr rfl
    simp only [utf8Len_append] at hget hnext
    have hback : (⟨utf8Len l + utf8Len m⟩ : Pos.Raw).unoffsetBy 0 = ⟨utf8Len l + utf8Len m⟩ := rfl
    rw [if_neg (fun h => absurd (hend.mp h) (by simp)), hget, hget', hnext', if_pos hend', hback,
      hnext]
    by_cases hd : d = c
    · subst hd
      have hstart : (⟨utf8Len l + utf8Len m + d.utf8Size⟩ : Pos.Raw).unoffsetBy ⟨d.utf8Size⟩ =
          ⟨utf8Len l + utf8Len m⟩ := by
        simp [Pos.Raw.unoffsetBy]
      have ih := splitOnAux_of_valid d (l ++ m ++ [d]) [] r (ofList m :: acc)
      rw [List.headD_cons, if_pos (by simp), hstart, hextract]
      simpa [Nat.add_assoc, List.splitOnPPrepend_cons_eq_if] using ih
    · have ih := splitOnAux_of_valid c l (m ++ [d]) r acc
      rw [List.headD_cons, if_neg (by simpa using hd)]
      simpa [Nat.add_assoc, List.splitOnPPrepend_cons_eq_if, hd] using ih
termination_by r.length

theorem splitOn_ofList (c : Char) (s : String) :
    s.splitOn (ofList [c]) = (s.toList.splitOn c).map ofList := by
  have hne : (ofList [c] == "") = false := by simp
  rw [String.splitOn, hne]
  simpa [List.splitOn_eq_splitOnP] using splitOnAux_of_valid c [] [] s.toList []

/-- The parts of what was joined. -/
theorem splitOn_intercalate (c : Char) {parts : List String} (hne : parts ≠ [])
    (hc : ∀ part ∈ parts, c ∉ part.toList) :
    ((ofList [c]).intercalate parts).splitOn (ofList [c]) = parts := by
  have hc' : ∀ l ∈ parts.map toList, c ∉ l := by simpa using hc
  rw [splitOn_ofList, toList_intercalate, String.toList_ofList,
    List.splitOn_intercalate c hc' (by simpa using hne), List.map_map]
  simp [Function.comp_def]

end Synergy.Lib
