/-!
# Overlapping writes

Several composed writes are under way on one stream. Each is a loop of partial transfers, and any
of them may make the next one. `Writes` is what they have left, the oldest first, and what went
out; a write is listed until nothing of it is left.

Two things hold of them. Whatever is true of everything that was handed over is true of
everything that goes out (`Writes.All`). And a transfer of the oldest write leaves the whole, what
went out and then what is left, as it was (`Writes.total`); a transfer of another one need not.
-/

set_option autoImplicit false

namespace Synergy.Lib

structure Writes (β : Type) where
  /-- What each unfinished write has left. -/
  unfinished : List (List β)
  /-- What was written. -/
  stream : List β
  deriving DecidableEq

namespace Writes

variable {β : Type}

def empty : Writes β := { unfinished := [], stream := [] }

/-- One more write. -/
def begin (w : Writes β) (out : List β) : Writes β :=
  { w with unfinished := w.unfinished ++ [out] }

/-- The `i`-th write, of which `left` is left, transfers `n` of it. -/
def transferred (w : Writes β) (i n : Nat) (left : List β) : Writes β where
  unfinished :=
    if n = left.length then w.unfinished.eraseIdx i else w.unfinished.set i (left.drop n)
  stream := w.stream ++ left.take n

/-- A partial transfer of the `i`-th write, where it is one: of something, and of no more than is
left. -/
def writeSome (w : Writes β) (i n : Nat) : Option (Writes β) :=
  match w.unfinished[i]? with
  | none => none
  | some left => if 0 < n ∧ n ≤ left.length then some (w.transferred i n left) else none

theorem writeSome_eq_some {w w' : Writes β} {i n : Nat} :
    w.writeSome i n = some w' ↔
      ∃ left, w.unfinished[i]? = some left ∧ 0 < n ∧ n ≤ left.length ∧
        w' = w.transferred i n left := by
  unfold writeSome
  cases w.unfinished[i]? with
  | none => simp
  | some left => simp [and_assoc, eq_comm]

/-! ## What goes out was handed over -/

/-- A property of all that went out and all that is left. -/
def All (P : β → Prop) (w : Writes β) : Prop :=
  (∀ b ∈ w.stream, P b) ∧ ∀ left ∈ w.unfinished, ∀ b ∈ left, P b

variable {P : β → Prop} {w w' : Writes β}

theorem All.empty : (Writes.empty : Writes β).All P :=
  ⟨fun _ hb => absurd hb (by simp [Writes.empty]), fun _ hl => absurd hl (by simp [Writes.empty])⟩

theorem All.begin (h : w.All P) {out : List β} (hout : ∀ b ∈ out, P b) : (w.begin out).All P := by
  refine ⟨h.1, ?_⟩
  intro left hleft
  rcases List.mem_append.mp hleft with hold | hnew
  · exact h.2 left hold
  · rw [List.mem_singleton.mp hnew]
    exact hout

theorem All.writeSome {i n : Nat} (h : w.All P) (hsome : w.writeSome i n = some w') :
    w'.All P := by
  obtain ⟨left, hleft, -, -, rfl⟩ := writeSome_eq_some.mp hsome
  have hmem : ∀ b ∈ left, P b := h.2 left (List.mem_of_getElem? hleft)
  constructor
  · intro b hb
    rcases List.mem_append.mp hb with hold | hnew
    · exact h.1 b hold
    · exact hmem b (List.mem_of_mem_take hnew)
  · intro other hother
    simp only [transferred] at hother
    split at hother
    · exact h.2 other (List.mem_of_mem_eraseIdx hother)
    · rcases List.mem_or_eq_of_mem_set hother with hold | hnew
      · exact h.2 other hold
      · intro b hb
        rw [hnew] at hb
        exact hmem b (List.mem_of_mem_drop hb)

/-! ## The oldest first -/

/-- What went out, and then what is left. -/
def total (w : Writes β) : List β := w.stream ++ w.unfinished.flatten

theorem total_begin (w : Writes β) (out : List β) : (w.begin out).total = w.total ++ out := by
  simp [total, begin]

theorem total_writeSome_zero {n : Nat} (h : w.writeSome 0 n = some w') : w'.total = w.total := by
  obtain ⟨left, hleft, -, -, rfl⟩ := writeSome_eq_some.mp h
  cases hunfinished : w.unfinished with
  | nil => exact absurd hleft (by simp [hunfinished])
  | cons first rest =>
    rw [hunfinished, List.getElem?_cons_zero] at hleft
    cases hleft
    have hsplit : left.take n ++ left.drop n = left := List.take_append_drop n left
    simp only [total, transferred, hunfinished, List.flatten_cons]
    split
    · rename_i hall
      rw [hall, List.take_length, List.eraseIdx_cons_zero, List.append_assoc]
    · rw [List.set_cons_zero, List.flatten_cons, List.append_assoc,
        ← List.append_assoc (left.take n), hsplit]

/-- A transfer makes no write. -/
theorem length_writeSome_le {i n : Nat} (h : w.writeSome i n = some w') :
    w'.unfinished.length ≤ w.unfinished.length := by
  obtain ⟨left, -, -, -, rfl⟩ := writeSome_eq_some.mp h
  simp only [transferred]
  split
  · exact List.length_eraseIdx_le _ _
  · exact Nat.le_of_eq List.length_set

theorem lt_of_writeSome {i n : Nat} (h : w.writeSome i n = some w') :
    i < w.unfinished.length := by
  obtain ⟨left, hleft, -⟩ := writeSome_eq_some.mp h
  exact (List.getElem?_eq_some_iff.mp hleft).1

end Writes

end Synergy.Lib
