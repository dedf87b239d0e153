/-!
# Length-prefixed frames

A stream of frames: a field of a fixed width, and a body whose length the field announces. A field
announces one length only, so there is at most one way to take frames off a stream:
`Frames.unique` compares any two attempts, of which one has gone as far as it can.
-/

set_option autoImplicit false

namespace Synergy.Lib

variable {α : Type} {w : Nat} {size : List α → Nat}

/-- The frames at the front of a stream, each as its field and its body, and what follows them. -/
inductive Frames (w : Nat) (size : List α → Nat) :
    List α → List (List α × List α) → List α → Prop
  | nil (rest : List α) : Frames w size rest [] rest
  | cons {field body stream rest : List α} {frames : List (List α × List α)}
    (hfield : field.length = w) (hbody : body.length = size field)
    (tail : Frames w size stream frames rest) :
    Frames w size (field ++ (body ++ stream)) ((field, body) :: frames) rest

/-- A frame is at the front. -/
def Whole (w : Nat) (size : List α → Nat) (rest : List α) : Prop :=
  ∃ field body more, field.length = w ∧ body.length = size field ∧ rest = field ++ (body ++ more)

theorem Whole.length_le {rest : List α} (h : Whole w size rest) : w ≤ rest.length := by
  obtain ⟨field, body, more, hfield, -, rfl⟩ := h
  simp only [List.length_append]
  omega

/-- Where there is a field but not all of its body, there is no frame. -/
theorem not_whole_of_short {field got : List α} (hfield : field.length = w)
    (hshort : got.length < size field) : ¬ Whole w size (field ++ got) := by
  intro h
  obtain ⟨field', body, more, hfield', hbody, heq⟩ := h
  obtain ⟨rfl, rfl⟩ := List.append_inj heq (hfield.trans hfield'.symm)
  rw [List.length_append] at hshort
  omega

namespace Frames

variable {stream rest : List α} {frames : List (List α × List α)}

theorem append_right (h : Frames w size stream frames rest) (more : List α) :
    Frames w size (stream ++ more) frames (rest ++ more) := by
  induction h with
  | nil rest => exact .nil _
  | cons hfield hbody tail ih =>
    rw [List.append_assoc, List.append_assoc]
    exact .cons hfield hbody ih

/-- One more frame. -/
theorem snoc {field body : List α} (h : Frames w size stream frames (field ++ (body ++ rest)))
    (hfield : field.length = w) (hbody : body.length = size field) :
    Frames w size stream (frames ++ [(field, body)]) rest := by
  generalize heq : field ++ (body ++ rest) = rest' at h
  induction h with
  | nil =>
    subst heq
    exact .cons hfield hbody (.nil rest)
  | cons hfield' hbody' tail ih => exact .cons hfield' hbody' (ih heq)

/-- Frames were taken off as long as there were any, so whoever takes frames off the same stream
takes the same ones, and stops at one of them or at the end. -/
theorem unique {rest' : List α} {frames' : List (List α × List α)}
    (h : Frames w size stream frames rest) (hrest : ¬ Whole w size rest)
    (h' : Frames w size stream frames' rest') :
    ∃ tail, frames = frames' ++ tail ∧ Frames w size rest' tail rest := by
  induction h' generalizing frames with
  | nil => exact ⟨frames, rfl, h⟩
  | @cons field body stream rest' frames' hfield hbody tail ih =>
    generalize heq : field ++ (body ++ stream) = all at h
    cases h with
    | nil => exact absurd ⟨field, body, stream, hfield, hbody, heq.symm⟩ hrest
    | @cons field' body' stream' _ frames hfield' hbody' htail =>
      obtain ⟨rfl, hrest'⟩ := List.append_inj heq (hfield.trans hfield'.symm)
      obtain ⟨rfl, rfl⟩ := List.append_inj hrest' (hbody.trans hbody'.symm)
      obtain ⟨more, rfl, hmore⟩ := ih htail
      exact ⟨more, rfl, hmore⟩

/-- Of frames written one after the other, a part of the stream that has arrived holds the first
ones, and behind them a frame that is not whole; all of them once all has arrived. -/
theorem exists_of_prefix (hw : 0 < w) {written : List (List α × List α)}
    (hframes : ∀ frame ∈ written, frame.1.length = w ∧ frame.2.length = size frame.1)
    (h : stream <+: (written.map fun frame => frame.1 ++ frame.2).flatten) :
    ∃ k rest, Frames w size stream (written.take k) rest ∧ ¬ Whole w size rest ∧
      (stream = (written.map fun frame => frame.1 ++ frame.2).flatten →
        written.take k = written) := by
  induction written generalizing stream with
  | nil =>
    obtain rfl : stream = [] := List.prefix_nil.mp h
    refine ⟨0, [], .nil [], ?_, fun _ => rfl⟩
    intro hwhole
    have hle := hwhole.length_le
    exact absurd hle (Nat.not_le_of_gt hw)
  | cons frame written ih =>
    obtain ⟨hfield, hbody⟩ := hframes frame (by simp)
    rw [List.map_cons, List.flatten_cons] at h ⊢
    rcases Nat.lt_or_ge stream.length (frame.1 ++ frame.2).length with hlt | hge
    · refine ⟨0, stream, .nil stream, ?_, ?_⟩
      · rintro ⟨field, body, more, hfield', hbody', rfl⟩
        obtain ⟨after, hafter⟩ := h
        simp only [List.append_assoc] at hafter
        obtain ⟨rfl, -⟩ := List.append_inj hafter (hfield'.trans hfield.symm)
        simp only [List.length_append] at hlt
        omega
      · intro hall
        rw [hall, List.length_append] at hlt
        omega
    · obtain ⟨stream', rfl⟩ := List.prefix_of_prefix_length_le (List.prefix_append _ _) h hge
      obtain ⟨k, rest, hfront, hrest, hall⟩ :=
        ih (fun frame hmem => hframes frame (by simp [hmem]))
          ((List.prefix_append_right_inj _).mp h)
      refine ⟨k + 1, rest, ?_, hrest, ?_⟩
      · rw [List.append_assoc]
        exact .cons hfield hbody hfront
      · intro heq
        rw [List.take_succ_cons, hall (List.append_cancel_left heq)]

end Frames

end Synergy.Lib
