import Mathlib.Data.List.Perm.Basic

/-!
# Job queues in the order of their priority

`PriorityJobQueues.h`. The size and the index of the current queue are kept beside the queues:
`nextJob` sets the index to that of the first queue which is not empty, and `currentJob` and
`popJob` go by the index that was set last.

`none` is where the source rethrows with no exception to rethrow, which terminates, or takes the
front of an empty queue, which is undefined.
-/

set_option autoImplicit false

namespace Synergy

structure PriorityJobQueues (T : Type) where
  queues : List (List T)
  size : ℕ := 0
  currentJobQueueIndex : Int := -1
  deriving DecidableEq

namespace PriorityJobQueues

variable {T : Type}

/-- The constructor. -/
def ofNumber (T : Type) (numberOfQueue : ℕ) : PriorityJobQueues T where
  queues := List.replicate numberOfQueue []

def appendJob (q : PriorityJobQueues T) (index : ℕ) (job : T) : Bool × PriorityJobQueues T :=
  match q.queues[index]? with
  | none => (false, q)
  | some jobs =>
    (true, { q with queues := q.queues.set index (jobs ++ [job]), size := q.size + 1 })

def hasJob (q : PriorityJobQueues T) : Bool :=
  q.size ≠ 0

/-- The queue that the index names. -/
def currentQueue (q : PriorityJobQueues T) : Option (List T) :=
  if q.currentJobQueueIndex ≤ -1 ∨ q.currentJobQueueIndex ≥ q.queues.length then none
  else q.queues[q.currentJobQueueIndex.toNat]?

def currentJob (q : PriorityJobQueues T) : Option T :=
  q.currentQueue.bind List.head?

/-- An assignment through the reference that `currentJob` returns. -/
def assignCurrentJob (q : PriorityJobQueues T) (job : T) : PriorityJobQueues T :=
  match q.currentQueue with
  | some (_ :: rest) =>
    { q with queues := q.queues.set q.currentJobQueueIndex.toNat (job :: rest) }
  | _ => q

def nextJob (q : PriorityJobQueues T) : Option (T × PriorityJobQueues T) := do
  let index ← q.queues.findIdx? fun jobs => !jobs.isEmpty
  let jobs ← q.queues[index]?
  let job ← jobs.head?
  pure (job, { q with currentJobQueueIndex := index })

def popJob (q : PriorityJobQueues T) : Option (PriorityJobQueues T) :=
  match q.currentQueue with
  | some (_ :: rest) =>
    some { q with
      queues := q.queues.set q.currentJobQueueIndex.toNat rest
      size := q.size - 1 }
  | _ => none

/-- The size is the total length of the queues. -/
def Counts (q : PriorityJobQueues T) : Prop :=
  q.size = q.queues.flatten.length

/-- The index names a queue that begins with the job. -/
def Names (q : PriorityJobQueues T) (index : ℕ) (job : T) (rest : List T) : Prop :=
  q.currentJobQueueIndex = index ∧ q.queues[index]? = some (job :: rest)

variable {q q' : PriorityJobQueues T} {index : ℕ} {job : T} {rest : List T}

/-! ## Replacing one queue -/

theorem flatten_perm {queues : List (List T)} {jobs : List T} (h : queues[index]? = some jobs) :
    queues.flatten.Perm (jobs ++ (queues.eraseIdx index).flatten) := by
  induction queues generalizing index with
  | nil => simp at h
  | cons first queues ih =>
    cases index with
    | zero =>
      rw [List.getElem?_cons_zero] at h
      cases h
      exact List.Perm.refl _
    | succ index =>
      rw [List.getElem?_cons_succ] at h
      calc (first :: queues).flatten
          = first ++ queues.flatten := rfl
        _ |>.Perm (first ++ (jobs ++ (queues.eraseIdx index).flatten)) := (ih h).append_left first
        _ |>.Perm (jobs ++ (first ++ (queues.eraseIdx index).flatten)) :=
          List.perm_append_comm_assoc _ _ _

theorem flatten_set_perm {queues : List (List T)} {jobs jobs' : List T}
    (h : queues[index]? = some jobs) :
    (queues.set index jobs').flatten.Perm (jobs' ++ (queues.eraseIdx index).flatten) := by
  have hlt := (List.getElem?_eq_some_iff.mp h).1
  have hset := flatten_perm (List.getElem?_set_self (a := jobs') hlt)
  rwa [List.eraseIdx_set_eq] at hset

/-! ## The current queue -/

theorem currentQueue_of_names (h : q.Names index job rest) :
    q.currentQueue = some (job :: rest) := by
  have hlt := (List.getElem?_eq_some_iff.mp h.2).1
  unfold currentQueue
  rw [h.1, if_neg (by omega), Int.toNat_natCast, h.2]

theorem currentJob_eq_some_iff :
    q.currentJob = some job ↔ ∃ index rest, q.Names index job rest := by
  constructor
  · intro h
    unfold currentJob currentQueue at h
    split at h
    · cases h
    · rename_i hrange
      obtain ⟨jobs, hjobs, hhead⟩ := Option.bind_eq_some_iff.mp h
      obtain ⟨rest, rfl⟩ := List.head?_eq_some_iff.mp hhead
      exact ⟨_, rest, (Int.toNat_of_nonneg (by omega)).symm, hjobs⟩
  · rintro ⟨index, rest, h⟩
    unfold currentJob
    rw [currentQueue_of_names h]
    rfl

theorem assignCurrentJob_of_names (h : q.Names index job rest) (job' : T) :
    q.assignCurrentJob job' = { q with queues := q.queues.set index (job' :: rest) } := by
  unfold assignCurrentJob
  rw [currentQueue_of_names h, h.1]
  rfl

theorem popJob_of_names (h : q.Names index job rest) :
    q.popJob = some { q with queues := q.queues.set index rest, size := q.size - 1 } := by
  unfold popJob
  rw [currentQueue_of_names h, h.1]
  rfl

theorem Names.assign (h : q.Names index job rest) (job' : T) :
    (q.assignCurrentJob job').Names index job' rest := by
  rw [assignCurrentJob_of_names h]
  exact ⟨h.1, List.getElem?_set_self (List.getElem?_eq_some_iff.mp h.2).1⟩

/-! ## Adding a job and going to the next one -/

theorem appendJob_of_lt (h : index < q.queues.length) : q.appendJob index job =
    (true, { q with
      queues := q.queues.set index (q.queues[index] ++ [job])
      size := q.size + 1 }) := by
  unfold appendJob
  rw [List.getElem?_eq_getElem h]

/-- The front of the current queue stays what it is, whichever queue the job goes to. -/
theorem currentJob_appendJob {job' : T} (h : q.currentJob = some job) (index : ℕ) :
    (q.appendJob index job').2.currentJob = some job := by
  obtain ⟨current, rest, hcurrent, hjobs⟩ := currentJob_eq_some_iff.mp h
  unfold appendJob
  split
  · exact h
  · rename_i jobs hindex
    rw [currentJob_eq_some_iff]
    by_cases heq : index = current
    · subst heq
      rw [hindex] at hjobs
      cases hjobs
      exact ⟨index, rest ++ [job'], hcurrent,
        List.getElem?_set_self (List.getElem?_eq_some_iff.mp hindex).1⟩
    · exact ⟨current, rest, hcurrent, (List.getElem?_set_ne heq).trans hjobs⟩

/-- If there is a job, `nextJob` finds one and makes it the current job. -/
theorem nextJob_spec (h : q.queues.flatten ≠ []) :
    ∃ job index, q.nextJob = some (job, { q with currentJobQueueIndex := index }) ∧
      PriorityJobQueues.currentJob { q with currentJobQueueIndex := index } = some job := by
  obtain ⟨jobs, hmem, hne⟩ : ∃ jobs ∈ q.queues, jobs ≠ [] := by
    simpa [List.flatten_eq_nil_iff] using h
  have hsome : (q.queues.findIdx? fun jobs => !jobs.isEmpty).isSome :=
    List.findIdx?_isSome.trans (List.any_eq_true.mpr ⟨jobs, hmem, by simpa using hne⟩)
  obtain ⟨index, hindex⟩ := Option.isSome_iff_exists.mp hsome
  obtain ⟨hlt, hnonempty, -⟩ := List.findIdx?_eq_some_iff_getElem.mp hindex
  cases hfront : q.queues[index] with
  | nil => simp [hfront] at hnonempty
  | cons job rest =>
    have hjobs : q.queues[index]? = some (job :: rest) :=
      (List.getElem?_eq_getElem hlt).trans (congrArg some hfront)
    refine ⟨job, index, ?_, currentJob_eq_some_iff.mpr ⟨index, rest, rfl, hjobs⟩⟩
    unfold nextJob
    rw [hindex]
    simp [hjobs]

end PriorityJobQueues

end Synergy
