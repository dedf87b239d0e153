import Synergy.Cloud.PriorityJobQueues
import Synergy.Lib.Run
import Synergy.Profile.Claims

/-!
# The jobs of the cloud client

`addHttpJob`, `sendNextHttp` and the slots of `responseReceived` and `requestFailed` in
`CloudClient.cpp`. The slots are not told which request is answered: they go by the current job of
the queues. What each `send` of the session comes to is an input here, one completion for each.

A job carries the number, the category and the `retryTimes` that it was added with. They, and the
lists of what was added, popped and answered, are read by no function of the source.
-/

set_option autoImplicit false

namespace Synergy

open Lib

/-- `CloudClient::JobCategories`, without `MaximumSize`. -/
inductive JobCategories where
  | ProfileUpdate
  | ScreenUpdate
  | ScreenStatusUpdate
  deriving DecidableEq

def JobCategories.index : JobCategories → ℕ
  | .ProfileUpdate => 0
  | .ScreenUpdate => 1
  | .ScreenStatusUpdate => 2

def JobCategories.MaximumSize : ℕ := 3

theorem JobCategories.index_lt (cat : JobCategories) : cat.index < JobCategories.MaximumSize := by
  cases cat <;> decide

theorem JobCategories.index_injective {cat cat' : JobCategories} (h : cat.index = cat'.index) :
    cat = cat' := by
  cases cat <;> cases cat' <;> first | rfl | exact absurd h (by decide)

theorem JobCategories.exists_index {index : ℕ} (h : index < JobCategories.MaximumSize) :
    ∃ cat : JobCategories, cat.index = index := by
  match index, h with
  | 0, _ => exact ⟨.ProfileUpdate, rfl⟩
  | 1, _ => exact ⟨.ScreenUpdate, rfl⟩
  | 2, _ => exact ⟨.ScreenStatusUpdate, rfl⟩

structure Ticket extends HttpJob where
  serial : ℕ
  category : JobCategories
  retries : Int
  deriving DecidableEq

/-- `http::status::ok`. -/
def statusOk : ℕ := 200

/-- How the session answers a `send`. -/
inductive Completion where
  | responseReceived (result : ℕ)
  | requestFailed
  deriving DecidableEq

def Completion.accepts : Completion → Bool
  | .responseReceived result => result = statusOk
  | .requestFailed => false

def Completion.refuses : Completion → Bool
  | .responseReceived result => result ≠ statusOk
  | .requestFailed => false

structure HttpJobs where
  queues : PriorityJobQueues Ticket := .ofNumber _ JobCategories.MaximumSize
  inFlight : List Ticket := []
  added : List Ticket := []
  popped : List Ticket := []
  answers : List (ℕ × Completion) := []
  deriving DecidableEq

namespace HttpJobs

inductive Event where
  | addHttpJob (cat : JobCategories) (job : HttpJob)
  /-- One of the requests in flight is answered. -/
  | completed (request : ℕ) (completion : Completion)

def sendNextHttp (s : HttpJobs) : Option HttpJobs :=
  if s.queues.hasJob then
    s.queues.nextJob.map fun (job, queues) =>
      { s with queues := queues, inFlight := s.inFlight ++ [job] }
  else some s

def ticket (s : HttpJobs) (cat : JobCategories) (job : HttpJob) : Ticket :=
  { job with serial := s.added.length, category := cat, retries := job.retryTimes }

/-- `m_httpJobQueues.appendJob (cat, job)`. -/
def appendJob (s : HttpJobs) (cat : JobCategories) (job : HttpJob) : HttpJobs :=
  { s with
    queues := (s.queues.appendJob cat.index (s.ticket cat job)).2
    added := s.added ++ [s.ticket cat job] }

def addHttpJob (s : HttpJobs) (cat : JobCategories) (job : HttpJob) : Option HttpJobs :=
  let s := s.appendJob cat job
  if s.queues.size = 1 then s.sendNextHttp else some s

/-- `m_httpJobQueues.popJob()`. -/
def popJob (s : HttpJobs) : Option HttpJobs := do
  let job ← s.queues.currentJob
  let queues ← s.queues.popJob
  pure { s with queues := queues, popped := s.popped ++ [job] }

def responseReceived (s : HttpJobs) (result : ℕ) : Option HttpJobs :=
  if result ≠ statusOk then do
    let lastJob ← s.queues.currentJob
    let s := { s with
      queues := s.queues.assignCurrentJob { lastJob with retryTimes := lastJob.retryTimes - 1 } }
    let s ← if lastJob.retryTimes ≤ 0 then s.popJob else some s
    s.sendNextHttp
  else do
    let s ← s.popJob
    s.sendNextHttp

def requestFailed (s : HttpJobs) : Option HttpJobs :=
  s.sendNextHttp

/-- The slot of the signal that answers a request. -/
def answer (s : HttpJobs) : Completion → Option HttpJobs
  | .responseReceived result => s.responseReceived result
  | .requestFailed => s.requestFailed

def step (s : HttpJobs) : Event → Option HttpJobs
  | .addHttpJob cat job => s.addHttpJob cat job
  | .completed request completion => do
    let ticket ← s.inFlight[request]?
    answer { s with
      inFlight := s.inFlight.eraseIdx request
      answers := s.answers ++ [(ticket.serial, completion)] } completion

/-! ## What is to hold -/

/-- The queue of a category. -/
def queue (s : HttpJobs) (cat : JobCategories) : List Ticket :=
  (s.queues.queues[cat.index]?).getD []

/-- The numbers of the jobs of a category. -/
def serials (cat : JobCategories) (tickets : List Ticket) : List ℕ :=
  (tickets.filter fun ticket => ticket.category = cat).map Ticket.serial

/-- How often a job was answered with another status than ok. -/
def refusals (answers : List (ℕ × Completion)) (serial : ℕ) : ℕ :=
  answers.countP fun a => a.1 = serial ∧ a.2.refuses

/-- An ok response pops a job, and so does any other one when its budget is used up. -/
def Pops (s : HttpJobs) (completion : Completion) (ticket : Ticket) : Prop :=
  completion.accepts ∨ (completion.refuses ∧ ticket.retries ≤ refusals s.answers ticket.serial)

instance (s : HttpJobs) (completion : Completion) (ticket : Ticket) :
    Decidable (s.Pops completion ticket) :=
  inferInstanceAs (Decidable (_ ∨ _))

/-- The discipline of the queues in a state. -/
structure Discipline (s : HttpJobs) : Prop where
  size : s.queues.Counts
  one : s.inFlight.length ≤ 1
  front : ∀ ticket ∈ s.inFlight, s.queues.currentJob = some ticket
  inOrder : ∀ cat, serials cat s.added =
    serials cat s.popped ++ (s.queue cat).map Ticket.serial
  earned : ∀ ticket ∈ s.popped, (∃ completion, completion.accepts ∧
      (ticket.serial, completion) ∈ s.answers) ∨
    ticket.retries < refusals s.answers ticket.serial

/-- A completion pops just the job that it answers, and that only when it is to be popped. -/
def PopsAnswered (s : HttpJobs) : Prop :=
  ∀ request completion ticket, s.inFlight[request]? = some ticket →
    ∃ s', s.step (.completed request completion) = some s' ∧
      s'.popped.map Ticket.serial = s.popped.map Ticket.serial ++
        if s.Pops completion ticket then [ticket.serial] else []

/-! ## The books -/

/-- What is said of the queues and the lists beside them, whatever is in flight. -/
structure Books (s : HttpJobs) : Prop where
  length : s.queues.queues.length = JobCategories.MaximumSize
  counts : s.queues.Counts
  inOrder : ∀ cat, serials cat s.added =
    serials cat s.popped ++ (s.queue cat).map Ticket.serial
  earned : ∀ ticket ∈ s.popped, (∃ completion, completion.accepts ∧
      (ticket.serial, completion) ∈ s.answers) ∨
    ticket.retries < refusals s.answers ticket.serial
  placed : ∀ cat, ∀ ticket ∈ s.queue cat, ticket.category = cat
  budget : ∀ ticket ∈ s.queues.queues.flatten,
    ticket.retryTimes = ticket.retries - refusals s.answers ticket.serial
  distinct : (s.queues.queues.flatten.map Ticket.serial).Nodup
  fresh : ∀ ticket ∈ s.queues.queues.flatten, ticket.serial < s.added.length
  known : ∀ a ∈ s.answers, a.1 < s.added.length

/-- Nothing is in flight but the current job, and that one is unless there is none. -/
def Current (s : HttpJobs) : Prop :=
  s.queues.queues.flatten = [] ∧ s.inFlight = [] ∨
    ∃ job, s.queues.currentJob = some job ∧ s.inFlight = [job]

variable {s s' : HttpJobs} {index : ℕ} {ticket : Ticket} {rest : List Ticket}

theorem queue_set {queues : List (List Ticket)} (h : index < queues.length)
    (jobs : List Ticket) (k : ℕ) : ((queues.set index jobs)[k]?).getD [] =
      if k = index then jobs else (queues[k]?).getD [] := by
  split
  · rename_i heq
    rw [heq, List.getElem?_set_self h]
    rfl
  · rename_i hne
    rw [List.getElem?_set_ne (Ne.symm hne)]

theorem refusals_append (answers : List (ℕ × Completion)) (serial n : ℕ)
    (completion : Completion) : refusals (answers ++ [(n, completion)]) serial =
      refusals answers serial + if n = serial ∧ completion.refuses then 1 else 0 := by
  unfold refusals
  rw [List.countP_append, List.countP_singleton]
  simp

theorem refusals_eq_zero {answers : List (ℕ × Completion)} {n : ℕ}
    (h : ∀ a ∈ answers, a.1 < n) : refusals answers n = 0 := by
  refine List.countP_eq_zero.mpr fun a ha => ?_
  have hlt := h a ha
  simp only [decide_eq_true_eq]
  omega

theorem Books.index_eq (h : s.Books) (hnames : s.queues.Names index ticket rest) :
    index = ticket.category.index := by
  have hlt := (List.getElem?_eq_some_iff.mp hnames.2).1
  obtain ⟨cat, rfl⟩ := JobCategories.exists_index (h.length ▸ hlt)
  have hmem : ticket ∈ s.queue cat := by
    unfold queue
    rw [hnames.2]
    exact List.mem_cons_self
  rw [h.placed cat ticket hmem]

/-- The current job is answered, and either kept, as it is now, or gone. -/
structure Settles (s s' : HttpJobs) (index : ℕ) (ticket : Ticket) (rest : List Ticket)
    (completion : Completion) (now : Ticket) (kept gone : List Ticket) : Prop where
  names : s.queues.Names index ticket rest
  same : now.serial = ticket.serial ∧ now.category = ticket.category ∧ now.retries = ticket.retries
  split : kept ++ gone = [now]
  queues : s'.queues.queues = s.queues.queues.set index (kept ++ rest)
  size : s'.queues.size = s.queues.size + kept.length - 1
  added : s'.added = s.added
  popped : s'.popped = s.popped ++ gone
  answers : s'.answers = s.answers ++ [(ticket.serial, completion)]
  decremented : kept ≠ [] →
    now.retryTimes = ticket.retryTimes - if completion.refuses then 1 else 0
  pops : gone ≠ [] → s.Pops completion ticket

section Settles

variable {completion : Completion} {now : Ticket} {kept gone : List Ticket}

theorem Settles.index_lt (h : Settles s s' index ticket rest completion now kept gone) :
    index < s.queues.queues.length :=
  (List.getElem?_eq_some_iff.mp h.names.2).1

theorem Settles.cases (h : Settles s s' index ticket rest completion now kept gone) :
    kept = [now] ∧ gone = [] ∨ kept = [] ∧ gone = [now] := by
  rcases List.append_eq_singleton_iff.mp h.split with ⟨hkept, hgone⟩ | ⟨hkept, hgone⟩
  · exact Or.inr ⟨hkept, hgone⟩
  · exact Or.inl ⟨hkept, hgone⟩

theorem Settles.flatten_before (h : Settles s s' index ticket rest completion now kept gone) :
    s.queues.queues.flatten.Perm
      (ticket :: (rest ++ (s.queues.queues.eraseIdx index).flatten)) :=
  PriorityJobQueues.flatten_perm h.names.2

theorem Settles.flatten_after (h : Settles s s' index ticket rest completion now kept gone) :
    s'.queues.queues.flatten.Perm
      (kept ++ (rest ++ (s.queues.queues.eraseIdx index).flatten)) := by
  rw [h.queues, ← List.append_assoc]
  exact PriorityJobQueues.flatten_set_perm h.names.2

theorem Settles.queue_eq (h : Settles s s' index ticket rest completion now kept gone)
    (hbooks : s.Books) (cat : JobCategories) :
    s'.queue cat = if cat = ticket.category then kept ++ rest else s.queue cat := by
  have hset := queue_set h.index_lt (kept ++ rest) cat.index
  have hindex := hbooks.index_eq h.names
  unfold queue
  rw [h.queues, hset]
  by_cases heq : cat = ticket.category
  · rw [if_pos heq, if_pos (by rw [hindex, heq])]
  · rw [if_neg heq, if_neg fun hi => heq (JobCategories.index_injective (hi.trans hindex))]

theorem Settles.queue_before (h : Settles s s' index ticket rest completion now kept gone)
    (hbooks : s.Books) : s.queue ticket.category = ticket :: rest := by
  unfold queue
  rw [← hbooks.index_eq h.names, h.names.2]
  rfl

/-- The other jobs have other numbers, so the answer does not count for them. -/
theorem Settles.refusals_rest (h : Settles s s' index ticket rest completion now kept gone)
    (hbooks : s.Books) {other : Ticket}
    (hother : other ∈ rest ++ (s.queues.queues.eraseIdx index).flatten) :
    refusals s'.answers other.serial = refusals s.answers other.serial := by
  have hnodup := (h.flatten_before.map Ticket.serial).nodup_iff.mp hbooks.distinct
  have hne : ticket.serial ≠ other.serial := fun heq =>
    (List.nodup_cons.mp hnodup).1 (List.mem_map.mpr ⟨other, hother, heq.symm⟩)
  rw [h.answers, refusals_append, if_neg fun hand => hne hand.1]
  rfl

theorem Settles.refusals_ticket (h : Settles s s' index ticket rest completion now kept gone) :
    refusals s'.answers ticket.serial =
      refusals s.answers ticket.serial + if completion.refuses then 1 else 0 := by
  rw [h.answers, refusals_append]
  simp

theorem Settles.refusals_le (h : Settles s s' index ticket rest completion now kept gone)
    (serial : ℕ) : refusals s.answers serial ≤ refusals s'.answers serial := by
  rw [h.answers, refusals_append]
  exact Nat.le_add_right _ _

theorem Settles.earned (h : Settles s s' index ticket rest completion now kept gone)
    (hpops : s.Pops completion ticket) : (∃ completion, completion.accepts ∧
      (now.serial, completion) ∈ s'.answers) ∨ now.retries < refusals s'.answers now.serial := by
  rw [h.same.1, h.same.2.2, h.refusals_ticket]
  rcases hpops with haccepts | ⟨hrefuses, hbudget⟩
  · refine Or.inl ⟨completion, haccepts, ?_⟩
    rw [h.answers]
    exact List.mem_append_right _ List.mem_cons_self
  · refine Or.inr ?_
    rw [if_pos hrefuses]
    push_cast
    omega

theorem serials_append (cat : JobCategories) (tickets others : List Ticket) :
    serials cat (tickets ++ others) = serials cat tickets ++ serials cat others := by
  unfold serials
  rw [List.filter_append, List.map_append]

theorem serials_singleton (cat : JobCategories) (t : Ticket) :
    serials cat [t] = if t.category = cat then [t.serial] else [] := by
  unfold serials
  rw [List.filter_singleton]
  by_cases h : t.category = cat <;> simp [h]

theorem Settles.inOrder (h : Settles s s' index ticket rest completion now kept gone)
    (hbooks : s.Books) (cat : JobCategories) : serials cat s'.added =
      serials cat s'.popped ++ (s'.queue cat).map Ticket.serial := by
  rw [h.added, h.popped, h.queue_eq hbooks, hbooks.inOrder cat, serials_append, List.append_assoc]
  congr 1
  by_cases heq : cat = ticket.category
  · rw [if_pos heq, heq, h.queue_before hbooks]
    rcases h.cases with ⟨rfl, rfl⟩ | ⟨rfl, rfl⟩
    · simp [serials, h.same.1]
    · rw [serials_singleton, if_pos h.same.2.1]
      simp [h.same.1]
  · rw [if_neg heq]
    rcases h.cases with ⟨rfl, rfl⟩ | ⟨rfl, rfl⟩
    · rfl
    · rw [serials_singleton, if_neg fun hcat => heq (hcat.symm.trans h.same.2.1)]
      rfl

theorem Settles.eq_now (h : Settles s s' index ticket rest completion now kept gone)
    {other : Ticket} (hother : other ∈ kept ++ gone) : other = now := by
  rw [h.split] at hother
  exact List.mem_singleton.mp hother

theorem Settles.mem_before (h : Settles s s' index ticket rest completion now kept gone) :
    ticket ∈ s.queues.queues.flatten :=
  h.flatten_before.mem_iff.mpr List.mem_cons_self

/-- A job that is still queued is the one that was answered, or was queued before. -/
theorem Settles.mem_after (h : Settles s s' index ticket rest completion now kept gone)
    {other : Ticket} (hother : other ∈ s'.queues.queues.flatten) : other ∈ kept ∧ other = now ∨
      other ∈ rest ++ (s.queues.queues.eraseIdx index).flatten ∧
        other ∈ s.queues.queues.flatten := by
  rcases List.mem_append.mp (h.flatten_after.mem_iff.mp hother) with hkept | hother
  · exact Or.inl ⟨hkept, h.eq_now (List.mem_append_left _ hkept)⟩
  · exact Or.inr ⟨hother, h.flatten_before.mem_iff.mpr (List.mem_cons_of_mem _ hother)⟩

theorem Settles.counts (h : Settles s s' index ticket rest completion now kept gone)
    (hcounts : s.queues.Counts) : s'.queues.Counts := by
  have hlength := h.flatten_before.length_eq
  unfold PriorityJobQueues.Counts at hcounts ⊢
  rw [h.size, h.flatten_after.length_eq, hcounts, hlength]
  simp only [List.length_cons, List.length_append]
  omega

theorem Settles.earned_all (h : Settles s s' index ticket rest completion now kept gone)
    (hbooks : s.Books) : ∀ other ∈ s'.popped, (∃ completion, completion.accepts ∧
      (other.serial, completion) ∈ s'.answers) ∨
    other.retries < refusals s'.answers other.serial := by
  intro other hother
  rw [h.popped] at hother
  rcases List.mem_append.mp hother with hold | hgone
  · rcases hbooks.earned other hold with ⟨completion', haccepts, hmem⟩ | hlt
    · refine Or.inl ⟨completion', haccepts, ?_⟩
      rw [h.answers]
      exact List.mem_append_left _ hmem
    · have hle := h.refusals_le other.serial
      exact Or.inr (by omega)
  · rw [h.eq_now (List.mem_append_right _ hgone)]
    exact h.earned (h.pops (List.ne_nil_of_mem hgone))

/-- The books stay right when the current job is answered. -/
theorem Books.settle (hbooks : s.Books)
    (h : Settles s s' index ticket rest completion now kept gone) : s'.Books where
  length := by rw [h.queues, List.length_set, hbooks.length]
  counts := h.counts hbooks.counts
  inOrder := h.inOrder hbooks
  earned := h.earned_all hbooks
  placed := by
    intro cat other hother
    rw [h.queue_eq hbooks] at hother
    split at hother
    · rename_i heq
      rcases List.mem_append.mp hother with hkept | hrest
      · rw [h.eq_now (List.mem_append_left _ hkept), h.same.2.1, heq]
      · refine hbooks.placed cat other ?_
        rw [heq, h.queue_before hbooks]
        exact List.mem_cons_of_mem _ hrest
    · exact hbooks.placed cat other hother
  budget := by
    intro other hother
    rcases h.mem_after hother with ⟨hkept, rfl⟩ | ⟨hother, hbefore⟩
    · rw [h.same.1, h.same.2.2, h.refusals_ticket, h.decremented (List.ne_nil_of_mem hkept),
        hbooks.budget ticket h.mem_before]
      split <;> push_cast <;> omega
    · rw [h.refusals_rest hbooks hother]
      exact hbooks.budget other hbefore
  distinct := by
    have hnodup := (h.flatten_before.map Ticket.serial).nodup_iff.mp hbooks.distinct
    refine (h.flatten_after.map Ticket.serial).nodup_iff.mpr ?_
    rcases h.cases with ⟨rfl, -⟩ | ⟨rfl, -⟩
    · rw [List.singleton_append, List.map_cons, h.same.1, ← List.map_cons]
      exact hnodup
    · exact (List.nodup_cons.mp hnodup).2
  fresh := by
    intro other hother
    rw [h.added]
    rcases h.mem_after hother with ⟨hkept, rfl⟩ | ⟨-, hbefore⟩
    · rw [h.same.1]
      exact hbooks.fresh ticket h.mem_before
    · exact hbooks.fresh other hbefore
  known := by
    intro a ha
    rw [h.added]
    rw [h.answers] at ha
    rcases List.mem_append.mp ha with hold | hnew
    · exact hbooks.known a hold
    · rw [List.mem_singleton.mp hnew]
      exact hbooks.fresh ticket h.mem_before

end Settles

/-! ## The steps -/

/-- What `sendNextHttp` does: nothing if there is no job, else it sends the one that it makes the
current job. -/
theorem sendNextHttp_spec (hcounts : s.queues.Counts) :
    (s.queues.queues.flatten = [] ∧ s.sendNextHttp = some s) ∨
      ∃ job index, PriorityJobQueues.currentJob
          { s.queues with currentJobQueueIndex := index } = some job ∧
        s.sendNextHttp = some { s with
          queues := { s.queues with currentJobQueueIndex := index }
          inFlight := s.inFlight ++ [job] } := by
  unfold PriorityJobQueues.Counts at hcounts
  by_cases hempty : s.queues.queues.flatten = []
  · refine Or.inl ⟨hempty, ?_⟩
    rw [hempty, List.length_nil] at hcounts
    simp [sendNextHttp, PriorityJobQueues.hasJob, hcounts]
  · obtain ⟨job, index, hnext, hcurrent⟩ := PriorityJobQueues.nextJob_spec hempty
    refine Or.inr ⟨job, index, hcurrent, ?_⟩
    have hsize : s.queues.size ≠ 0 := by
      rw [hcounts]
      exact fun h => hempty (List.length_eq_zero_iff.mp h)
    simp [sendNextHttp, PriorityJobQueues.hasJob, hsize, hnext]

theorem Books.sendNextHttp (hbooks : s.Books) (hidle : s.inFlight = []) :
    ∃ s', s.sendNextHttp = some s' ∧ s'.Books ∧ s'.Current ∧ s'.popped = s.popped ∧
      s'.queues.size = s.queues.size := by
  rcases sendNextHttp_spec hbooks.counts with ⟨hempty, hsend⟩ | ⟨job, index, hcurrent, hsend⟩
  · exact ⟨s, hsend, hbooks, Or.inl ⟨hempty, hidle⟩, rfl, rfl⟩
  · exact ⟨_, hsend, ⟨hbooks.length, hbooks.counts, hbooks.inOrder, hbooks.earned, hbooks.placed,
      hbooks.budget, hbooks.distinct, hbooks.fresh, hbooks.known⟩,
      Or.inr ⟨job, hcurrent, by simp [hidle]⟩, rfl, rfl⟩

theorem Books.index_lt (h : s.Books) (cat : JobCategories) : cat.index < s.queues.queues.length :=
  h.length ▸ cat.index_lt

theorem Books.appendJob_queues (h : s.Books) (cat : JobCategories) (job : HttpJob) :
    (s.appendJob cat job).queues = { s.queues with
      queues := s.queues.queues.set cat.index
        ((s.queues.queues[cat.index]?).getD [] ++ [s.ticket cat job])
      size := s.queues.size + 1 } := by
  unfold HttpJobs.appendJob
  rw [PriorityJobQueues.appendJob_of_lt (h.index_lt cat), List.getElem?_eq_getElem (h.index_lt cat)]
  rfl

theorem Books.appendJob_perm (h : s.Books) (cat : JobCategories) (job : HttpJob) :
    (s.appendJob cat job).queues.queues.flatten.Perm
      (s.ticket cat job :: s.queues.queues.flatten) := by
  have hgetElem := List.getElem?_eq_getElem (h.index_lt cat)
  rw [h.appendJob_queues, hgetElem]
  refine (PriorityJobQueues.flatten_set_perm hgetElem).trans ?_
  rw [Option.getD_some, List.append_assoc, List.singleton_append]
  exact List.perm_middle.trans ((PriorityJobQueues.flatten_perm hgetElem).symm.cons _)

theorem Books.appendJob_queue (h : s.Books) (cat : JobCategories) (job : HttpJob)
    (cat' : JobCategories) : (s.appendJob cat job).queue cat' =
      s.queue cat' ++ if cat' = cat then [s.ticket cat job] else [] := by
  unfold queue
  rw [h.appendJob_queues, queue_set (h.index_lt cat)]
  by_cases heq : cat' = cat
  · rw [heq, if_pos rfl, if_pos rfl]
  · rw [if_neg heq, if_neg fun hi => heq (JobCategories.index_injective hi), List.append_nil]

/-- The new job has a new serial number, and nobody has answered it. -/
theorem Books.appendJob (hbooks : s.Books) (cat : JobCategories) (job : HttpJob) :
    (s.appendJob cat job).Books := by
  -- all queues together hold what they held, and the new ticket
  have hperm := hbooks.appendJob_perm cat job
  have hlength : (s.appendJob cat job).added.length = s.added.length + 1 := by
    simp [HttpJobs.appendJob]
  have hmember : ∀ other ∈ (s.appendJob cat job).queues.queues.flatten,
      other = s.ticket cat job ∨ other ∈ s.queues.queues.flatten := fun other hother =>
    List.mem_cons.mp (hperm.mem_iff.mp hother)
  exact
    { earned := hbooks.earned
      length := by rw [hbooks.appendJob_queues, List.length_set, hbooks.length]
      counts := by
        have hcounts := hbooks.counts
        unfold PriorityJobQueues.Counts at hcounts ⊢
        rw [hperm.length_eq, List.length_cons, ← hcounts, hbooks.appendJob_queues]
      inOrder := by
        intro cat'
        rw [hbooks.appendJob_queue]
        show serials cat' (s.added ++ [s.ticket cat job]) = serials cat' s.popped ++ _
        rw [serials_append, serials_singleton, List.map_append, ← List.append_assoc,
          ← hbooks.inOrder cat']
        congr 1
        by_cases heq : cat' = cat
        · rw [if_pos (show (s.ticket cat job).category = cat' from heq.symm), if_pos heq]
          rfl
        · rw [if_neg (show ¬(s.ticket cat job).category = cat' from fun h => heq h.symm),
            if_neg heq]
          rfl
      placed := by
        intro cat' other hother
        rw [hbooks.appendJob_queue] at hother
        rcases List.mem_append.mp hother with hold | hnew
        · exact hbooks.placed cat' other hold
        · split at hnew
          · rename_i heq
            rw [List.mem_singleton.mp hnew, heq]
            rfl
          · cases hnew
      budget := by
        intro other hother
        rcases hmember other hother with rfl | hold
        · have hzero : refusals s.answers (s.ticket cat job).serial = 0 :=
            refusals_eq_zero hbooks.known
          show (s.ticket cat job).retryTimes =
            (s.ticket cat job).retries - refusals s.answers (s.ticket cat job).serial
          rw [hzero]
          exact (Int.sub_zero _).symm
        · exact hbooks.budget other hold
      distinct := by
        refine (hperm.map Ticket.serial).nodup_iff.mpr (List.nodup_cons.mpr ⟨?_, hbooks.distinct⟩)
        intro hmem
        obtain ⟨other, hother, heq⟩ := List.mem_map.mp hmem
        have hfresh := hbooks.fresh other hother
        exact absurd heq (Nat.ne_of_lt hfresh)
      fresh := by
        intro other hother
        rw [hlength]
        rcases hmember other hother with rfl | hold
        · exact Nat.lt_succ_self _
        · exact Nat.lt_succ_of_lt (hbooks.fresh other hold)
      known := by
        intro a ha
        rw [hlength]
        exact Nat.lt_succ_of_lt (hbooks.known a ha) }

/-- A request is sent for the first job, and only for that one. -/
theorem Books.addHttpJob (hbooks : s.Books) (hcurrent : s.Current) (cat : JobCategories)
    (job : HttpJob) : ∃ s', s.addHttpJob cat job = some s' ∧ s'.Books ∧ s'.Current ∧
      (s.inFlight = [] ∧ s'.queues.size = 1 ∨
        s'.inFlight = s.inFlight ∧ s'.queues.size ≠ 1) := by
  have happended := hbooks.appendJob cat job
  have hsize : (s.appendJob cat job).queues.size = s.queues.size + 1 := by
    have hlt : cat.index < s.queues.queues.length := hbooks.length ▸ cat.index_lt
    unfold HttpJobs.appendJob
    rw [PriorityJobQueues.appendJob_of_lt hlt]
  have hcounts := hbooks.counts
  unfold PriorityJobQueues.Counts at hcounts
  unfold HttpJobs.addHttpJob
  rcases hcurrent with ⟨hempty, hidle⟩ | ⟨front, hfront, hflight⟩
  · rw [hempty, List.length_nil] at hcounts
    rw [if_pos (by rw [hsize, hcounts])]
    obtain ⟨s', hsend, hbooks', hcurrent', -, hsame⟩ := happended.sendNextHttp hidle
    exact ⟨s', hsend, hbooks', hcurrent', Or.inl ⟨hidle, by rw [hsame, hsize, hcounts]⟩⟩
  · have hsome : s.queues.queues.flatten ≠ [] := by
      obtain ⟨index, rest, hnames⟩ := PriorityJobQueues.currentJob_eq_some_iff.mp hfront
      exact List.ne_nil_of_mem (List.mem_flatten.mpr
        ⟨_, List.mem_of_getElem? hnames.2, List.mem_cons_self⟩)
    have hpos := List.length_pos_iff.mpr hsome
    rw [if_neg (by omega)]
    exact ⟨_, rfl, happended, Or.inr
      ⟨front, PriorityJobQueues.currentJob_appendJob hfront cat.index, hflight⟩,
      Or.inr ⟨rfl, by omega⟩⟩

/-- The slots settle the current job, and then send the next one. -/
def Answered (s : HttpJobs) (index : ℕ) (ticket : Ticket) (rest : List Ticket)
    (completion : Completion) : Prop :=
  ∃ s₁ now kept gone, Settles s s₁ index ticket rest completion now kept gone ∧
    (gone.map Ticket.serial = if s.Pops completion ticket then [ticket.serial] else []) ∧
    s₁.inFlight = [] ∧
    answer { s with answers := s.answers ++ [(ticket.serial, completion)] } completion =
      s₁.sendNextHttp

/-- The job stays where it is, to be sent again. -/
theorem answered_requestFailed (hnames : s.queues.Names index ticket rest)
    (hidle : s.inFlight = []) : s.Answered index ticket rest .requestFailed := by
  refine ⟨{ s with answers := s.answers ++ [(ticket.serial, .requestFailed)] }, ticket, [ticket],
    [], ⟨hnames, ⟨rfl, rfl, rfl⟩, rfl, ?_, rfl, rfl, (List.append_nil _).symm, rfl,
      fun _ => (Int.sub_zero _).symm, fun hne => absurd rfl hne⟩, ?_, hidle, rfl⟩
  · obtain ⟨hlt', hget⟩ := List.getElem?_eq_some_iff.mp hnames.2
    show s.queues.queues = s.queues.queues.set index (ticket :: rest)
    rw [← hget, List.set_getElem_self]
  · rw [if_neg (by simp [Pops, Completion.accepts, Completion.refuses])]
    rfl

/-- The job is done. -/
theorem answered_ok (hnames : s.queues.Names index ticket rest) (hidle : s.inFlight = []) :
    s.Answered index ticket rest (.responseReceived statusOk) := by
  have hcurrent := PriorityJobQueues.currentJob_eq_some_iff.mpr ⟨index, rest, hnames⟩
  have hpops : s.Pops (.responseReceived statusOk) ticket :=
    Or.inl (by simp [Completion.accepts])
  refine ⟨{ s with
      answers := s.answers ++ [(ticket.serial, .responseReceived statusOk)]
      queues := { s.queues with
        queues := s.queues.queues.set index rest, size := s.queues.size - 1 }
      popped := s.popped ++ [ticket] }, ticket, [], [ticket],
    ⟨hnames, ⟨rfl, rfl, rfl⟩, rfl, rfl, rfl, rfl, rfl, rfl, fun hne => absurd rfl hne,
      fun _ => hpops⟩, ?_, hidle, ?_⟩
  · rw [if_pos hpops]
    rfl
  · simp [HttpJobs.answer, responseReceived, HttpJobs.popJob, hcurrent,
      PriorityJobQueues.popJob_of_names hnames]

/-- One try less is left, and with none the job is given up. -/
theorem Books.answered_refused (hbooks : s.Books) (hnames : s.queues.Names index ticket rest)
    (hidle : s.inFlight = []) {result : ℕ} (hok : result ≠ statusOk) :
    s.Answered index ticket rest (.responseReceived result) := by
  have hmem : ticket ∈ s.queues.queues.flatten := List.mem_flatten.mpr
    ⟨_, List.mem_of_getElem? hnames.2, List.mem_cons_self⟩
  have hbudget := hbooks.budget ticket hmem
  have hcurrent := PriorityJobQueues.currentJob_eq_some_iff.mpr ⟨index, rest, hnames⟩
  have hrefuses : (Completion.responseReceived result).refuses = true := by
    simp [Completion.refuses, hok]
  have haccepts : (Completion.responseReceived result).accepts = false := by
    simp [Completion.accepts, hok]
  -- the ticket as it is written back
  generalize hnow : ({ ticket with retryTimes := ticket.retryTimes - 1 } : Ticket) = now
  have hsame : now.serial = ticket.serial ∧ now.category = ticket.category ∧
      now.retries = ticket.retries := by
    rw [← hnow]
    exact ⟨rfl, rfl, rfl⟩
  have hassigned := hnames.assign now
  have hassign := PriorityJobQueues.assignCurrentJob_of_names hnames now
  have hpopsIff : s.Pops (.responseReceived result) ticket ↔ ticket.retryTimes ≤ 0 := by
    unfold Pops
    rw [haccepts, hrefuses, hbudget]
    simp only [Bool.false_eq_true, false_or, true_and]
    omega
  -- whether the job is popped is decided by the tries that were left before
  by_cases hretry : ticket.retryTimes ≤ 0
  · refine ⟨{ s with
        answers := s.answers ++ [(ticket.serial, .responseReceived result)]
        queues := { s.queues with
          queues := s.queues.queues.set index rest, size := s.queues.size - 1 }
        popped := s.popped ++ [now] }, now, [], [now],
      ⟨hnames, hsame, rfl, rfl, rfl, rfl, rfl, rfl, fun hne => absurd rfl hne,
        fun _ => hpopsIff.mpr hretry⟩, ?_, hidle, ?_⟩
    · rw [if_pos (hpopsIff.mpr hretry)]
      exact congrArg (fun n => [n]) hsame.1
    · have hpop := PriorityJobQueues.popJob_of_names hassigned
      have hfront := PriorityJobQueues.currentJob_eq_some_iff.mpr ⟨index, rest, hassigned⟩
      simp only [HttpJobs.answer, responseReceived, hok, hcurrent, hnow, hretry,
        HttpJobs.popJob, hfront, hpop, ne_eq, not_false_eq_true, if_true, Option.bind_eq_bind,
        Option.bind_some, Option.pure_def]
      rw [hassign, List.set_set]
  · refine ⟨{ s with
        answers := s.answers ++ [(ticket.serial, .responseReceived result)]
        queues := { s.queues with queues := s.queues.queues.set index (now :: rest) } }, now,
      [now], [],
      ⟨hnames, hsame, rfl, rfl, rfl, rfl, (List.append_nil _).symm, rfl, fun _ => ?_,
        fun hne => absurd rfl hne⟩, ?_, hidle, ?_⟩
    · rw [if_pos hrefuses, ← hnow]
    · rw [if_neg fun hpops => hretry (hpopsIff.mp hpops)]
      rfl
    · simp only [HttpJobs.answer, responseReceived, hok, hcurrent, hnow, hretry, ne_eq,
        not_false_eq_true, if_true, if_false, Option.bind_eq_bind, Option.bind_some, hassign]

theorem Books.answer (hbooks : s.Books) (hnames : s.queues.Names index ticket rest)
    (hidle : s.inFlight = []) (completion : Completion) :
    s.Answered index ticket rest completion := by
  cases completion with
  | requestFailed => exact answered_requestFailed hnames hidle
  | responseReceived result =>
    by_cases hok : result = statusOk
    · rw [hok]
      exact answered_ok hnames hidle
    · exact hbooks.answered_refused hnames hidle hok

theorem Books.completed (hbooks : s.Books) (hcurrent : s.Current) {request : ℕ}
    (hrequest : s.inFlight[request]? = some ticket) (completion : Completion) :
    ∃ s', s.step (.completed request completion) = some s' ∧ s'.Books ∧ s'.Current ∧
      s'.popped.map Ticket.serial = s.popped.map Ticket.serial ++
        if s.Pops completion ticket then [ticket.serial] else [] := by
  rcases hcurrent with ⟨-, hidle⟩ | ⟨front, hfront, hflight⟩
  · simp [hidle] at hrequest
  · rw [hflight, List.getElem?_singleton] at hrequest
    split at hrequest
    · rename_i hzero
      cases hrequest
      obtain ⟨index, rest, hnames⟩ := PriorityJobQueues.currentJob_eq_some_iff.mp hfront
      -- the request leaves, and the slot finds nothing in flight
      have hleft : Books { s with inFlight := [] } :=
        ⟨hbooks.length, hbooks.counts, hbooks.inOrder, hbooks.earned, hbooks.placed,
          hbooks.budget, hbooks.distinct, hbooks.fresh, hbooks.known⟩
      obtain ⟨s₁, now, kept, gone, hsettles, hgone, hidle, hanswer⟩ :=
        hleft.answer hnames rfl completion
      obtain ⟨s', hsend, hbooks', hcurrent', hpopped, -⟩ :=
        (hleft.settle hsettles).sendNextHttp hidle
      refine ⟨s', ?_, hbooks', hcurrent', ?_⟩
      · simp only [HttpJobs.step, hflight, hzero, List.getElem?_cons_zero, Option.bind_eq_bind,
          Option.bind_some, List.eraseIdx_cons_zero]
        exact hanswer.trans hsend
      · rw [hpopped, hsettles.popped, List.map_append, hgone]
        rfl
    · cases hrequest

theorem books_initial : Books {} where
  length := rfl
  counts := rfl
  inOrder := fun cat => by cases cat <;> rfl
  earned := fun ticket hticket => absurd hticket List.not_mem_nil
  placed := fun cat ticket hticket => by cases cat <;> exact absurd hticket List.not_mem_nil
  budget := fun ticket hticket => absurd hticket List.not_mem_nil
  distinct := List.nodup_nil
  fresh := fun ticket hticket => absurd hticket List.not_mem_nil
  known := fun a ha => absurd ha List.not_mem_nil

/-- What holds in every state that any calls and completions lead to. -/
theorem run_books (h : Run step (fun _ _ => True) {} s) : s.Books ∧ s.Current := by
  refine h.invariant (I := fun s => s.Books ∧ s.Current) ⟨books_initial, Or.inl ⟨rfl, rfl⟩⟩ ?_
  intro s s' ev _ hinv _ hstep
  cases ev with
  | addHttpJob cat job =>
    obtain ⟨s'', hadd, hbooks, hcurrent, -⟩ := hinv.1.addHttpJob hinv.2 cat job
    obtain rfl : s'' = s' := Option.some.inj (hadd.symm.trans hstep)
    exact ⟨hbooks, hcurrent⟩
  | completed request completion =>
    cases hrequest : s.inFlight[request]? with
    | none => simp [HttpJobs.step, hrequest] at hstep
    | some ticket =>
      obtain ⟨s'', hcompleted, hbooks, hcurrent, -⟩ := hinv.1.completed hinv.2 hrequest completion
      obtain rfl : s'' = s' := Option.some.inj (hcompleted.symm.trans hstep)
      exact ⟨hbooks, hcurrent⟩

/-- The discipline of the job queues, in every state and at every completion. -/
theorem discipline (h : Run step (fun _ _ => True) {} s) : s.Discipline ∧ s.PopsAnswered := by
  obtain ⟨hbooks, hcurrent⟩ := run_books h
  refine ⟨⟨hbooks.counts, ?_, ?_, hbooks.inOrder, hbooks.earned⟩, ?_⟩
  · rcases hcurrent with ⟨-, hidle⟩ | ⟨front, -, hflight⟩
    · rw [hidle]
      exact Nat.zero_le 1
    · rw [hflight]
      exact Nat.le_refl 1
  · intro ticket hticket
    rcases hcurrent with ⟨-, hidle⟩ | ⟨front, hfront, hflight⟩
    · rw [hidle] at hticket
      cases hticket
    · rw [hflight] at hticket
      rw [hfront, List.mem_singleton.mp hticket]
  · intro request completion ticket hrequest
    obtain ⟨s', hstep, -, -, hpopped⟩ := hbooks.completed hcurrent hrequest completion
    exact ⟨s', hstep, hpopped⟩

/-- A job that is answered twice with another status, while a more urgent one waits. -/
def urgentWaits : HttpJobs :=
  execs step {}
    [.addHttpJob .ScreenUpdate ⟨"/screen/update", "POST", [("id", 1)], 1⟩,
      .addHttpJob .ProfileUpdate (serverClaimJob 1 2 3),
      .completed 0 (.responseReceived 500)]

theorem urgentWaits_discipline :
    urgentWaits.popped = [] ∧ urgentWaits.Discipline ∧ urgentWaits.PopsAnswered :=
  ⟨by decide +kernel, discipline (Run.nil.execs (allOk_of_forall (fun _ _ => trivial) _ _))⟩

end HttpJobs

end Synergy
