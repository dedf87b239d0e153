import Mathlib

/-!
# Messages in flight

Messages from many senders, in one list, each tagged with the sender it left. What one
sender has in flight is its *queue*: the messages with its tag, oldest first. `takeFirst`
takes the head of one queue and leaves every other queue as it was, which is all that an
order of delivery per connection has to say.
-/

set_option autoImplicit false

namespace Synergy.Lib.Flight

variable {ε μ : Type} [DecidableEq ε]

/-- The messages tagged `e`, oldest first. -/
def queue (e : ε) (flight : List (ε × μ)) : List μ :=
  flight.filterMap fun x => if x.1 = e then some x.2 else none

/-- The oldest message tagged `e`, and what stays in flight without it. -/
def takeFirst (e : ε) : List (ε × μ) → Option (μ × List (ε × μ))
  | [] => none
  | x :: flight =>
    if x.1 = e then some (x.2, flight)
    else (takeFirst e flight).map fun (m, rest) => (m, x :: rest)

/-- Lose every message tagged `e`. -/
def lose (e : ε) (flight : List (ε × μ)) : List (ε × μ) := flight.filter fun x => x.1 ≠ e

@[simp] theorem queue_nil (e : ε) : queue e ([] : List (ε × μ)) = [] := rfl

@[simp] theorem queue_append (e : ε) (flight flight' : List (ε × μ)) :
    queue e (flight ++ flight') = queue e flight ++ queue e flight' :=
  List.filterMap_append

theorem queue_cons_self (e : ε) (m : μ) (flight : List (ε × μ)) :
    queue e ((e, m) :: flight) = m :: queue e flight := by
  simp [queue]

theorem queue_cons_of_ne {e : ε} {x : ε × μ} (h : x.1 ≠ e) (flight : List (ε × μ)) :
    queue e (x :: flight) = queue e flight := by
  simp [queue, h]

theorem mem_queue {e : ε} {m : μ} {flight : List (ε × μ)} :
    m ∈ queue e flight ↔ (e, m) ∈ flight := by
  unfold queue
  rw [List.mem_filterMap]
  constructor
  · rintro ⟨⟨e', m'⟩, hx, h⟩
    by_cases he : e' = e
    · subst he
      rw [if_pos rfl, Option.some.injEq] at h
      exact h ▸ hx
    · exact absurd h (by simp [he])
  · intro h
    exact ⟨(e, m), h, by simp⟩

theorem queue_lose_self (e : ε) (flight : List (ε × μ)) : queue e (lose e flight) = [] := by
  refine List.eq_nil_iff_forall_not_mem.mpr fun m hm => ?_
  have hne := (List.mem_filter.mp (mem_queue.mp hm)).2
  exact absurd hne (by simp)

theorem queue_lose_of_ne {e e' : ε} (h : e' ≠ e) (flight : List (ε × μ)) :
    queue e' (lose e flight) = queue e' flight := by
  unfold queue lose
  rw [List.filterMap_filter]
  refine List.filterMap_congr fun x _ => ?_
  by_cases hx : x.1 = e
  · simp [hx, Ne.symm h]
  · simp [hx]

/-- What `takeFirst` takes, and that nothing else changes. -/
structure Taken (e : ε) (flight : List (ε × μ)) (m : μ) (rest : List (ε × μ)) : Prop where
  split : ∃ before after, flight = before ++ (e, m) :: after ∧ rest = before ++ after
  head : queue e flight = m :: queue e rest
  others : ∀ e', e' ≠ e → queue e' rest = queue e' flight

/-- What is left was there before. -/
theorem Taken.mem_queue {e e' : ε} {m m' : μ} {flight rest : List (ε × μ)}
    (h : Taken e flight m rest) (hm' : m' ∈ queue e' rest) : m' ∈ queue e' flight := by
  by_cases he : e' = e
  · subst he
    rw [h.head]
    exact List.mem_cons_of_mem _ hm'
  · rwa [h.others e' he] at hm'

theorem taken_of_takeFirst {e : ε} {m : μ} {flight rest : List (ε × μ)}
    (h : takeFirst e flight = some (m, rest)) : Taken e flight m rest := by
  induction flight generalizing rest with
  | nil => exact absurd h (by simp [takeFirst])
  | cons x flight ih =>
    obtain ⟨e', m'⟩ := x
    unfold takeFirst at h
    by_cases he : e' = e
    · subst he
      rw [if_pos rfl, Option.some.injEq, Prod.mk.injEq] at h
      obtain ⟨rfl, rfl⟩ := h
      exact ⟨⟨[], flight, rfl, rfl⟩, queue_cons_self e' m' flight,
        fun e'' hne => (queue_cons_of_ne (Ne.symm hne) flight).symm⟩
    · rw [if_neg he, Option.map_eq_some_iff] at h
      obtain ⟨⟨m'', rest'⟩, htake, heq⟩ := h
      obtain ⟨rfl, rfl⟩ := Prod.mk.injEq .. ▸ heq
      obtain ⟨⟨before, after, rfl, rfl⟩, hhead, hothers⟩ := ih htake
      refine ⟨⟨(e', m') :: before, after, rfl, rfl⟩, ?_, fun e'' hne => ?_⟩
      · rw [queue_cons_of_ne he, queue_cons_of_ne he]
        exact hhead
      · by_cases he' : e' = e''
        · subst he'
          rw [queue_cons_self, queue_cons_self, hothers _ hne]
        · rw [queue_cons_of_ne he', queue_cons_of_ne he', hothers _ hne]

/-- The head of a queue can be taken. -/
theorem exists_takeFirst {e : ε} {m : μ} {ms : List μ} {flight : List (ε × μ)}
    (h : queue e flight = m :: ms) : ∃ rest, takeFirst e flight = some (m, rest) := by
  induction flight with
  | nil => exact absurd h (by simp)
  | cons x flight ih =>
    obtain ⟨e', m'⟩ := x
    unfold takeFirst
    by_cases he : e' = e
    · subst he
      rw [queue_cons_self] at h
      obtain ⟨rfl, -⟩ := List.cons.inj h
      exact ⟨flight, by rw [if_pos rfl]⟩
    · rw [queue_cons_of_ne he] at h
      obtain ⟨rest, hrest⟩ := ih h
      exact ⟨(e', m') :: rest, by rw [if_neg he, hrest, Option.map_some]⟩

/-- One message on every element of a list without repetitions: one on each. -/
theorem queue_map_same {l : List ε} (h : l.Nodup) (m : μ) (e : ε) :
    queue e (l.map fun c => (c, m)) = if e ∈ l then [m] else [] := by
  induction l with
  | nil => rfl
  | cons c l ih =>
    obtain ⟨hc, hl⟩ := List.nodup_cons.mp h
    rw [List.map_cons]
    by_cases he : c = e
    · subst he
      rw [queue_cons_self, ih hl, if_neg hc, if_pos List.mem_cons_self]
    · rw [queue_cons_of_ne he, ih hl]
      simp [Ne.symm he]

/-- Messages that carry one more tag in common, seen from their own. -/
theorem queue_map_tag {ε' : Type} [DecidableEq ε'] (f : ε → ε') (hf : Function.Injective f)
    (e : ε) (flight : List (ε × μ)) :
    queue (f e) (flight.map fun x => (f x.1, x.2)) = queue e flight := by
  unfold queue
  rw [List.filterMap_map]
  refine List.filterMap_congr fun x _ => ?_
  simp only [Function.comp_apply, hf.eq_iff]

end Synergy.Lib.Flight
