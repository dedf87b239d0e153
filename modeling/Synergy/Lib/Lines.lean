import Mathlib.Data.List.Infix

/-!
# Lines of a stream

A stream that is cut at a delimiter: the lines that are complete, each without its delimiter, and
what is left behind the last one. A reader that takes one line at a time from the front of what has
arrived so far takes these lines, however the stream arrives.
-/

set_option autoImplicit false

namespace Synergy.Lib

variable {α : Type}

/-- Some of the first lines have been taken, and this is what has not. -/
structure Leading (delim : α) (stream : List α) (lines : List (List α)) (rest : List α) : Prop where
  eq : stream = (lines.map fun line => line ++ [delim]).flatten ++ rest
  lines_free : ∀ line ∈ lines, delim ∉ line

/-- All that are complete have been. -/
structure Lines (delim : α) (stream : List α) (lines : List (List α)) (rest : List α) : Prop
    extends Leading delim stream lines rest where
  rest_free : delim ∉ rest

/-- The complete lines, and the rest. -/
def cutAt [DecidableEq α] (delim : α) : List α → List (List α) × List α
  | [] => ([], [])
  | x :: stream =>
    if x = delim then ([] :: (cutAt delim stream).1, (cutAt delim stream).2)
    else
      match cutAt delim stream with
      | ([], rest) => ([], x :: rest)
      | (line :: lines, rest) => ((x :: line) :: lines, rest)

variable {delim : α} {stream rest rest' : List α} {lines lines' : List (List α)}

namespace Leading

theorem nil (stream : List α) : Leading delim stream [] stream := ⟨rfl, by simp⟩

theorem append (h : Leading delim stream lines rest) (more : List α) :
    Leading delim (stream ++ more) lines (rest ++ more) :=
  ⟨by rw [h.eq, List.append_assoc], h.lines_free⟩

/-- One more line is taken. -/
theorem concat {line : List α} (h : Leading delim stream lines (line ++ delim :: rest))
    (hline : delim ∉ line) : Leading delim stream (lines ++ [line]) rest := by
  refine ⟨?_, ?_⟩
  · rw [h.eq]
    simp
  · intro l hl
    rcases List.mem_append.mp hl with hl | hl
    · exact h.lines_free l hl
    · rwa [List.mem_singleton.mp hl]

end Leading

/-- A line and its delimiter can be told from what follows. -/
theorem eq_of_append_delim {line line' : List α} (hline : delim ∉ line) (hline' : delim ∉ line')
    (h : line ++ delim :: rest = line' ++ delim :: rest') : line = line' ∧ rest = rest' := by
  induction line generalizing line' with
  | nil =>
    cases line' with
    | nil => simpa using h
    | cons x line' =>
      rw [List.nil_append, List.cons_append, List.cons.injEq] at h
      exact absurd (h.1 ▸ List.mem_cons_self) hline'
  | cons x line ih =>
    cases line' with
    | nil =>
      rw [List.nil_append, List.cons_append, List.cons.injEq] at h
      exact absurd (h.1 ▸ List.mem_cons_self) hline
    | cons y line' =>
      rw [List.cons_append, List.cons_append, List.cons.injEq] at h
      obtain ⟨rfl, htail⟩ := h
      obtain ⟨rfl, hrest⟩ := ih (fun hm => hline (List.mem_cons_of_mem x hm))
        (fun hm => hline' (List.mem_cons_of_mem x hm)) htail
      exact ⟨rfl, hrest⟩

/-- What has been taken are the first of the lines. -/
theorem Leading.first (h : Leading delim stream lines' rest')
    (hlines : Lines delim stream lines rest) : lines' <+: lines := by
  induction lines' generalizing stream lines with
  | nil => exact List.nil_prefix
  | cons line' lines' ih =>
    have hfree' := h.lines_free line' List.mem_cons_self
    have heq := h.eq
    simp only [List.map_cons, List.flatten_cons, List.append_assoc, List.singleton_append] at heq
    cases lines with
    | nil =>
      refine absurd ?_ hlines.rest_free
      have hstream : stream = rest := by simpa using hlines.eq
      rw [← hstream, heq]
      simp
    | cons line lines =>
      have heq' := hlines.eq
      simp only [List.map_cons, List.flatten_cons, List.append_assoc,
        List.singleton_append] at heq'
      obtain ⟨rfl, htail⟩ := eq_of_append_delim hfree'
        (hlines.lines_free line List.mem_cons_self) (heq.symm.trans heq')
      have hrest : Leading delim ((lines'.map fun line => line ++ [delim]).flatten ++ rest')
          lines' rest' :=
        ⟨rfl, fun l hl => h.lines_free l (List.mem_cons_of_mem _ hl)⟩
      refine List.cons_prefix_cons.mpr ⟨rfl, ih hrest ⟨⟨htail, ?_⟩, hlines.rest_free⟩⟩
      exact fun l hl => hlines.lines_free l (List.mem_cons_of_mem _ hl)

/-- There is one way to cut a stream. -/
theorem Lines.unique (h : Lines delim stream lines rest) (h' : Lines delim stream lines' rest') :
    lines = lines' ∧ rest = rest' := by
  have hle : lines <+: lines' := h.toLeading.first h'
  have hge : lines' <+: lines := h'.toLeading.first h
  obtain rfl := hle.eq_of_length (hle.length_le.antisymm hge.length_le)
  exact ⟨rfl, List.append_cancel_left (h.eq.symm.trans h'.eq)⟩

theorem lines_cutAt [DecidableEq α] (delim : α) (stream : List α) :
    Lines delim stream (cutAt delim stream).1 (cutAt delim stream).2 := by
  induction stream with
  | nil => exact ⟨⟨rfl, by simp [cutAt]⟩, by simp [cutAt]⟩
  | cons x stream ih =>
    rw [cutAt]
    by_cases hx : x = delim
    · rw [if_pos hx]
      refine ⟨⟨?_, ?_⟩, ih.rest_free⟩
      · rw [List.map_cons, List.flatten_cons, List.append_assoc, ← ih.eq, hx]
        rfl
      · intro line hline
        rcases List.mem_cons.mp hline with rfl | hline
        · exact List.not_mem_nil
        · exact ih.lines_free line hline
    · rw [if_neg hx]
      generalize cutAt delim stream = result at ih ⊢
      obtain ⟨lines, rest⟩ := result
      obtain ⟨⟨heq, hfree⟩, hrest⟩ := ih
      cases lines with
      | nil =>
        refine ⟨⟨by simpa using heq, by simp⟩, ?_⟩
        exact fun hmem => (List.mem_cons.mp hmem).elim (fun h => hx h.symm) hrest
      | cons line lines =>
        refine ⟨⟨by simpa using heq, ?_⟩, hrest⟩
        intro l hl
        rcases List.mem_cons.mp hl with rfl | hl
        · exact fun hmem => (List.mem_cons.mp hmem).elim (fun h => hx h.symm)
            (hfree line List.mem_cons_self)
        · exact hfree l (List.mem_cons_of_mem line hl)

end Synergy.Lib
