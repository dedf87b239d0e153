import Synergy.Cloud.HttpJobs
import Synergy.Cloud.SecuredTcpClient

/-!
# The HTTP session under the job queues

`HttpSession`, with the slots of `CloudClient` on its two signals. Each `send` either writes through
the client that there is, or makes a new one and connects it; the client is given up when a write or
a read fails. A signal that says how the connecting went leads on, and so does every completion of a
write or a read. Where the client says nothing, the request stays unanswered, and as `addHttpJob`
sends only the first job of empty queues, no other one is ever sent.

The request is the job that `setupRequest` was given. `sends` counts the calls of `sendNextHttp`.
-/

set_option autoImplicit false

namespace Synergy

open Lib
open SecuredTcpClient (Outcome)

structure HttpSession where
  tcpClient : Option SecuredTcpClient := none
  request : Option Ticket := none
  proxyHost : String := ""
  proxyPort : Int := 0
  deriving DecidableEq

/-- The operations of a session. -/
inductive HttpSession.Op where
  | client (op : SecuredTcpClient.Op)
  | write
  | read
  deriving DecidableEq

/-- Writes and reads always report how they ended. -/
def HttpSession.Op.Heard : HttpSession.Op → SecuredTcpClient.Result → Prop
  | .client op, result => SecuredTcpClient.Heard op result
  | .write, _ => True
  | .read, _ => True

instance (op : HttpSession.Op) (result : SecuredTcpClient.Result) : Decidable (op.Heard result) :=
  match op with
  | .client op => inferInstanceAs (Decidable (SecuredTcpClient.Heard op result))
  | .write | .read => isTrue trivial

namespace HttpSession

def setProxy (h : HttpSession) (host : String) (port : Int) : Bool × HttpSession :=
  let h := { h with proxyHost := host, proxyPort := port }
  match h.tcpClient with
  | some client =>
    let (changed, client) := client.setProxy host port
    (changed, { h with tcpClient := some client })
  | none => (false, h)

def setupRequest (h : HttpSession) (job : Ticket) : HttpSession :=
  { h with request := some job }

end HttpSession

/-- The cloud client as far as it sends HTTP requests. -/
structure HttpClient where
  jobs : HttpJobs := {}
  session : HttpSession := {}
  outstanding : List HttpSession.Op := []
  sends : ℕ := 0
  deriving DecidableEq

namespace HttpClient

/-- How an operation ends. A response has a result, and where another request follows at once and
needs a connection, `resolve` returns something. -/
structure Ending where
  result : SecuredTcpClient.Result := {}
  status : ℕ := statusOk
  resolved : Resolved := .endpoints

inductive Event where
  | addHttpJob (cat : JobCategories) (job : HttpJob) (resolved : Resolved)
  | setProxy (host : String) (port : Int)
  | completed (op : ℕ) (ending : Ending)

def sendRequest (s : HttpClient) : HttpClient :=
  { s with outstanding := s.outstanding ++ [.write] }

/-- The slot of `connectFailed`: the request has failed, and is sent again. There is a client now,
so that `send` writes, though it is not connected. -/
def connectFailed (s : HttpClient) : Option HttpClient := do
  let jobs ← s.jobs.step (.completed 0 .requestFailed)
  let s := { s with jobs := jobs, sends := s.sends + 1 }
  if s.jobs.queues.hasJob then
    pure ({ s with session := s.session.setupRequest (← s.jobs.queues.currentJob) }).sendRequest
  else pure s

/-- The slots of the signals of the TCP client. -/
def settle (s : HttpClient) : Outcome → Option HttpClient
  | .started op => some { s with outstanding := s.outstanding ++ [.client op] }
  | .connected => some s.sendRequest
  | .connectFailed _ => s.connectFailed
  | .silent => some s

def send (isAddress : String → Bool) (s : HttpClient) (resolved : Resolved) : Option HttpClient :=
  match s.session.tcpClient with
  | some _ => some s.sendRequest
  | none => do
    let (_, client) := ({} : SecuredTcpClient).setProxy s.session.proxyHost s.session.proxyPort
    let (client, outcome) ← client.connect isAddress resolved
    settle { s with session := { s.session with tcpClient := some client } } outcome

/-- `sendNextHttp`, when the queues have gone to the next job. -/
def sendNextHttp (isAddress : String → Bool) (s : HttpClient) (resolved : Resolved) :
    Option HttpClient := do
  let s := { s with sends := s.sends + 1 }
  if s.jobs.queues.hasJob then
    send isAddress
      { s with session := s.session.setupRequest (← s.jobs.queues.currentJob) } resolved
  else pure s

def addHttpJob (isAddress : String → Bool) (s : HttpClient) (cat : JobCategories) (job : HttpJob)
    (resolved : Resolved) : Option HttpClient := do
  let jobs ← s.jobs.addHttpJob cat job
  let s := { s with jobs := jobs }
  if jobs.queues.size = 1 then s.sendNextHttp isAddress resolved else pure s

/-- `responseReceived` or `requestFailed`, with their slots. -/
def answered (isAddress : String → Bool) (s : HttpClient) (completion : Completion)
    (resolved : Resolved) : Option HttpClient := do
  let jobs ← s.jobs.step (.completed 0 completion)
  sendNextHttp isAddress { s with jobs := jobs } resolved

/-- `m_tcpClient.reset()`. -/
def reset (s : HttpClient) : HttpClient :=
  { s with session := { s.session with tcpClient := none } }

def onWriteFinished (isAddress : String → Bool) (s : HttpClient) (ending : Ending) :
    Option HttpClient :=
  match ending.result.ec with
  | some _ => s.reset.answered isAddress .requestFailed ending.resolved
  | none => some { s with outstanding := s.outstanding ++ [.read] }

def onReadFinished (isAddress : String → Bool) (s : HttpClient) (ending : Ending) :
    Option HttpClient :=
  match ending.result.ec with
  | some _ => s.reset.answered isAddress .requestFailed ending.resolved
  | none => s.answered isAddress (.responseReceived ending.status) ending.resolved

def setProxy (s : HttpClient) (host : String) (port : Int) : HttpClient :=
  { s with session := (s.session.setProxy host port).2 }

def step (isAddress : String → Bool) (s : HttpClient) : Event → Option HttpClient
  | .addHttpJob cat job resolved => s.addHttpJob isAddress cat job resolved
  | .setProxy host port => some (s.setProxy host port)
  | .completed n ending => do
    let op ← s.outstanding[n]?
    let s := { s with outstanding := s.outstanding.eraseIdx n }
    match op with
    | .write => s.onWriteFinished isAddress ending
    | .read => s.onReadFinished isAddress ending
    | .client op =>
      let (client, outcome) := (← s.session.tcpClient).completed op ending.result
      settle { s with session := { s.session with tcpClient := some client } } outcome

/-! ## What is to hold -/

/-- The completion is passed on, and so is what `resolve` returns. -/
def Heard (s : HttpClient) : Event → Prop
  | .addHttpJob _ _ resolved => resolved ≠ .error .operationAborted
  | .setProxy _ _ => True
  | .completed n ending =>
    (∀ op ∈ s.outstanding[n]?, op.Heard ending.result) ∧ ending.resolved ≠ .error .operationAborted

instance (s : HttpClient) (ev : Event) : Decidable (s.Heard ev) :=
  match ev with
  | .addHttpJob _ _ _ => inferInstanceAs (Decidable (_ ≠ _))
  | .setProxy _ _ => isTrue trivial
  | .completed _ _ => inferInstanceAs (Decidable (_ ∧ _))

/-- An operation is outstanding whose completion, as long as it is heard, leads to `sendNextHttp`
or to another operation. -/
def LeadsOn (isAddress : String → Bool) (s : HttpClient) : Prop :=
  ∃ n op, s.outstanding[n]? = some op ∧ ∀ ending, s.Heard (.completed n ending) →
    ∃ s', s.step isAddress (.completed n ending) = some s' ∧
      (s.sends < s'.sends ∨ s'.outstanding ≠ [])

variable (isAddress : String → Bool) {s s' : HttpClient}

/-- One request is in flight for one operation, and the client is there; or neither is. -/
def Paired (s : HttpClient) : Prop :=
  s.jobs.inFlight = [] ∧ s.outstanding = [] ∨
    ∃ ticket op, s.jobs.inFlight = [ticket] ∧ s.outstanding = [op] ∧ s.session.tcpClient.isSome

structure Inv (s : HttpClient) : Prop where
  books : s.jobs.Books
  current : s.jobs.Current
  paired : s.Paired

/-- The jobs between an answer and the next operation: a request is in flight, if there is a job,
and no operation is outstanding. -/
structure Due (s : HttpClient) : Prop where
  books : s.jobs.Books
  current : s.jobs.Current
  idle : s.outstanding = []

theorem hasJob_iff {jobs : HttpJobs} (hbooks : jobs.Books) (hcurrent : jobs.Current) :
    jobs.queues.hasJob = true ↔
      ∃ ticket, jobs.queues.currentJob = some ticket ∧ jobs.inFlight = [ticket] := by
  have hcounts := hbooks.counts
  unfold PriorityJobQueues.Counts at hcounts
  have hjob : jobs.queues.hasJob = true ↔ jobs.queues.queues.flatten ≠ [] := by
    unfold PriorityJobQueues.hasJob
    rw [hcounts, decide_eq_true_eq, ne_eq, List.length_eq_zero_iff]
  rw [hjob]
  rcases hcurrent with ⟨hempty, hidle⟩ | ⟨ticket, hcurrentJob, hflight⟩
  · refine iff_of_false (fun hne => hne hempty) ?_
    rintro ⟨ticket, -, hflight⟩
    rw [hidle] at hflight
    cases hflight
  · refine iff_of_true ?_ ⟨ticket, hcurrentJob, hflight⟩
    obtain ⟨index, rest, hnames⟩ := PriorityJobQueues.currentJob_eq_some_iff.mp hcurrentJob
    exact List.ne_nil_of_mem (List.mem_flatten.mpr
      ⟨_, List.mem_of_getElem? hnames.2, List.mem_cons_self⟩)

theorem inFlight_eq_nil {jobs : HttpJobs} (hbooks : jobs.Books) (hcurrent : jobs.Current)
    (h : ¬jobs.queues.hasJob = true) : jobs.inFlight = [] := by
  rcases hcurrent with ⟨-, hidle⟩ | hnames
  · exact hidle
  · exact absurd ((hasJob_iff hbooks (Or.inr hnames)).mpr hnames) h

theorem hasJob_of_inFlight {jobs : HttpJobs} {ticket : Ticket} (hbooks : jobs.Books)
    (hcurrent : jobs.Current) (h : jobs.inFlight = [ticket]) : jobs.queues.hasJob = true := by
  by_contra hnone
  rw [inFlight_eq_nil hbooks hcurrent hnone] at h
  cases h

/-- An operation that is started now is the one for the request in flight. -/
theorem Due.started (h : s.Due) (hjob : s.jobs.queues.hasJob = true)
    (hclient : s.session.tcpClient.isSome) (op : HttpSession.Op) :
    Inv { s with outstanding := s.outstanding ++ [op] } := by
  obtain ⟨ticket, -, hflight⟩ := (hasJob_iff h.books h.current).mp hjob
  exact ⟨h.books, h.current, Or.inr ⟨ticket, op, hflight, by simp [h.idle], hclient⟩⟩

/-- The slot of a failed request answers it, so that the jobs are due again. -/
theorem Due.complete (h : s.Due) (hjob : s.jobs.queues.hasJob = true) (completion : Completion) :
    ∃ jobs, s.jobs.step (.completed 0 completion) = some jobs ∧ jobs.Books ∧ jobs.Current := by
  obtain ⟨ticket, -, hflight⟩ := (hasJob_iff h.books h.current).mp hjob
  have hrequest : s.jobs.inFlight[0]? = some ticket := by rw [hflight]; rfl
  obtain ⟨jobs, hstep, hbooks, hcurrent, -⟩ := h.books.completed h.current hrequest completion
  exact ⟨jobs, hstep, hbooks, hcurrent⟩

theorem Due.connectFailed (h : s.Due) (hjob : s.jobs.queues.hasJob = true)
    (hclient : s.session.tcpClient.isSome) :
    ∃ s', s.connectFailed = some s' ∧ s'.Inv ∧ s.sends < s'.sends := by
  obtain ⟨jobs, hstep, hbooks, hcurrent⟩ := h.complete hjob .requestFailed
  by_cases hnext : jobs.queues.hasJob = true
  · obtain ⟨ticket, hcurrentJob, -⟩ := (hasJob_iff hbooks hcurrent).mp hnext
    have hdue : Due { s with
        jobs := jobs, sends := s.sends + 1, session := s.session.setupRequest ticket } :=
      ⟨hbooks, hcurrent, h.idle⟩
    refine ⟨_, ?_, hdue.started hnext hclient .write, Nat.lt_succ_self s.sends⟩
    simp [HttpClient.connectFailed, hstep, hnext, hcurrentJob, sendRequest]
  · refine ⟨{ s with jobs := jobs, sends := s.sends + 1 }, ?_, ⟨hbooks, hcurrent, Or.inl
      ⟨inFlight_eq_nil hbooks hcurrent hnext, h.idle⟩⟩, Nat.lt_succ_self s.sends⟩
    simp [HttpClient.connectFailed, hstep, hnext]

/-- Unless the client is silent, the request goes on. -/
theorem Due.settle (h : s.Due) (hjob : s.jobs.queues.hasJob = true)
    (hclient : s.session.tcpClient.isSome) {outcome : Outcome} (houtcome : outcome ≠ .silent) :
    ∃ s', s.settle outcome = some s' ∧ s'.Inv ∧ s.sends ≤ s'.sends ∧
      (s.sends < s'.sends ∨ s'.outstanding ≠ []) := by
  cases outcome with
  | started op =>
    exact ⟨_, rfl, h.started hjob hclient (.client op), Nat.le_refl _, Or.inr (by simp)⟩
  | connected =>
    exact ⟨s.sendRequest, rfl, h.started hjob hclient .write, Nat.le_refl _,
      Or.inr (by simp [sendRequest])⟩
  | connectFailed ec =>
    obtain ⟨s', hfailed, hinv, hlt⟩ := h.connectFailed hjob hclient
    exact ⟨s', hfailed, hinv, hlt.le, Or.inl hlt⟩
  | silent => exact absurd rfl houtcome

theorem Due.send (h : s.Due) (hjob : s.jobs.queues.hasJob = true) {resolved : Resolved}
    (hresolved : resolved ≠ .error .operationAborted) :
    ∃ s', s.send isAddress resolved = some s' ∧ s'.Inv ∧ s.sends ≤ s'.sends := by
  unfold HttpClient.send
  cases hclient : s.session.tcpClient with
  | some client => exact ⟨_, rfl, h.started hjob (by simp [hclient]) .write, Nat.le_refl _⟩
  | none =>
    obtain ⟨client', outcome, hconnect, hsilent, -⟩ :=
      SecuredTcpClient.connect_new isAddress resolved (SecuredTcpClient.setProxy_connected _ _)
        (SecuredTcpClient.setProxy_proxy_connected (c := {}) rfl s.session.proxyHost
          s.session.proxyPort)
    have hdue : Due { s with session := { s.session with tcpClient := some client' } } :=
      ⟨h.books, h.current, h.idle⟩
    obtain ⟨s', hsettle, hinv, hle, -⟩ :=
      hdue.settle hjob rfl fun hout => hresolved (hsilent.mp hout)
    exact ⟨s', by simp [hconnect, hsettle], hinv, hle⟩

theorem Due.sendNextHttp (h : s.Due) {resolved : Resolved}
    (hresolved : resolved ≠ .error .operationAborted) :
    ∃ s', s.sendNextHttp isAddress resolved = some s' ∧ s'.Inv ∧ s.sends < s'.sends := by
  unfold HttpClient.sendNextHttp
  by_cases hjob : s.jobs.queues.hasJob = true
  · obtain ⟨ticket, hcurrentJob, -⟩ := (hasJob_iff h.books h.current).mp hjob
    have hdue : Due { s with sends := s.sends + 1, session := s.session.setupRequest ticket } :=
      ⟨h.books, h.current, h.idle⟩
    obtain ⟨s', hsend, hinv, hle⟩ := hdue.send isAddress hjob hresolved
    exact ⟨s', by simp [hjob, hcurrentJob, hsend], hinv, Nat.lt_of_succ_le hle⟩
  · exact ⟨{ s with sends := s.sends + 1 }, by simp [hjob], ⟨h.books, h.current, Or.inl
      ⟨inFlight_eq_nil h.books h.current hjob, h.idle⟩⟩, Nat.lt_succ_self s.sends⟩

theorem Due.answered (h : s.Due) (hjob : s.jobs.queues.hasJob = true) (completion : Completion)
    {resolved : Resolved} (hresolved : resolved ≠ .error .operationAborted) :
    ∃ s', s.answered isAddress completion resolved = some s' ∧ s'.Inv ∧ s.sends < s'.sends := by
  obtain ⟨jobs, hstep, hbooks, hcurrent⟩ := h.complete hjob completion
  have hdue : Due { s with jobs := jobs } := ⟨hbooks, hcurrent, h.idle⟩
  obtain ⟨s', hsend, hinv, hlt⟩ := hdue.sendNextHttp isAddress hresolved
  exact ⟨s', by simp [HttpClient.answered, hstep, hsend], hinv, hlt⟩

/-- There is one outstanding operation at most, and it is for the request in flight. -/
theorem Inv.outstanding_eq (h : s.Inv) {n : ℕ} {op : HttpSession.Op}
    (hop : s.outstanding[n]? = some op) :
    n = 0 ∧ ∃ ticket, s.jobs.inFlight = [ticket] ∧ s.outstanding = [op] ∧
      s.session.tcpClient.isSome := by
  rcases h.paired with ⟨-, hnone⟩ | ⟨ticket, op', hflight, hout, hclient⟩
  · simp [hnone] at hop
  · rw [hout, List.getElem?_singleton] at hop
    split at hop
    · rename_i hzero
      cases hop
      exact ⟨hzero, ticket, hflight, hout, hclient⟩
    · cases hop

/-- A completion that is heard leads to the next call of `sendNextHttp` or to another operation. -/
theorem Inv.completed (h : s.Inv) {n : ℕ} {op : HttpSession.Op} (hop : s.outstanding[n]? = some op)
    {ending : Ending} (hheard : s.Heard (.completed n ending)) :
    ∃ s', s.step isAddress (.completed n ending) = some s' ∧ s'.Inv ∧
      (s.sends < s'.sends ∨ s'.outstanding ≠ []) := by
  obtain ⟨rfl, ticket, hflight, hout, hclient⟩ := h.outstanding_eq hop
  have hjob := hasJob_of_inFlight h.books h.current hflight
  have hdue : Due { s with outstanding := [] } := ⟨h.books, h.current, rfl⟩
  have hreset : Due (reset { s with outstanding := [] }) := ⟨h.books, h.current, rfl⟩
  have hheardOp : op.Heard ending.result := hheard.1 op (by rw [hout]; rfl)
  -- what both a write and a read that fails come to
  have hfailed : ∃ s', (reset { s with outstanding := [] }).answered isAddress .requestFailed
      ending.resolved = some s' ∧ s'.Inv ∧ (s.sends < s'.sends ∨ s'.outstanding ≠ []) := by
    obtain ⟨s', hanswered, hinv, hlt⟩ := hreset.answered isAddress hjob .requestFailed hheard.2
    exact ⟨s', hanswered, hinv, Or.inl hlt⟩
  simp only [HttpClient.step, hout, List.getElem?_cons_zero, Option.bind_eq_bind,
    Option.bind_some, List.eraseIdx_cons_zero]
  cases op with
  | write =>
    unfold onWriteFinished
    cases ending.result.ec with
    | none =>
      exact ⟨_, rfl, hdue.started hjob hclient .read, Or.inr (by simp)⟩
    | some ec => exact hfailed
  | read =>
    unfold onReadFinished
    cases ending.result.ec with
    | none =>
      obtain ⟨s', hanswered, hinv, hlt⟩ :=
        hdue.answered isAddress hjob (.responseReceived ending.status) hheard.2
      exact ⟨s', hanswered, hinv, Or.inl hlt⟩
    | some ec => exact hfailed
  | client op =>
    obtain ⟨client, hclient⟩ := Option.isSome_iff_exists.mp hclient
    have hsilent : (client.completed op ending.result).2 ≠ .silent := fun hsilent =>
      SecuredTcpClient.completed_silent.mp hsilent hheardOp
    have hdue' : Due { s with
        outstanding := []
        session := { s.session with
          tcpClient := some (client.completed op ending.result).1 } } :=
      ⟨h.books, h.current, rfl⟩
    obtain ⟨s', hsettle, hinv, -, hleads⟩ := hdue'.settle hjob rfl hsilent
    exact ⟨s', by simp [hclient, hsettle], hinv, hleads⟩

theorem Inv.addHttpJob (h : s.Inv) (cat : JobCategories) (job : HttpJob) {resolved : Resolved}
    (hresolved : resolved ≠ .error .operationAborted) :
    ∃ s', s.addHttpJob isAddress cat job resolved = some s' ∧ s'.Inv := by
  obtain ⟨jobs, hadd, hbooks, hcurrent, hwhich⟩ := h.books.addHttpJob h.current cat job
  unfold HttpClient.addHttpJob
  rw [hadd]
  rcases hwhich with ⟨hidle, hone⟩ | ⟨hsame, hmore⟩
  · have hnone : s.outstanding = [] := by
      rcases h.paired with ⟨-, hnone⟩ | ⟨ticket, op, hflight, -, -⟩
      · exact hnone
      · rw [hidle] at hflight
        cases hflight
    have hdue : Due { s with jobs := jobs } := ⟨hbooks, hcurrent, hnone⟩
    obtain ⟨s', hsend, hinv, -⟩ := hdue.sendNextHttp isAddress hresolved
    exact ⟨s', by simp [hone, hsend], hinv⟩
  · refine ⟨{ s with jobs := jobs }, by simp [hmore], hbooks, hcurrent, ?_⟩
    unfold Paired
    rw [hsame]
    exact h.paired

theorem Inv.setProxy (h : s.Inv) (host : String) (port : Int) : (s.setProxy host port).Inv := by
  refine ⟨h.books, h.current, ?_⟩
  rcases h.paired with hneither | ⟨ticket, op, hflight, hout, hclient⟩
  · exact Or.inl hneither
  · refine Or.inr ⟨ticket, op, hflight, hout, ?_⟩
    obtain ⟨client, hclient⟩ := Option.isSome_iff_exists.mp hclient
    simp [HttpClient.setProxy, HttpSession.setProxy, hclient]

theorem Inv.step (h : s.Inv) {ev : Event} (hheard : s.Heard ev)
    (hstep : s.step isAddress ev = some s') : s'.Inv := by
  cases ev with
  | addHttpJob cat job resolved =>
    obtain ⟨s'', hadd, hinv⟩ := h.addHttpJob isAddress cat job hheard
    exact Option.some.inj (hadd.symm.trans hstep) ▸ hinv
  | setProxy host port => exact Option.some.inj hstep ▸ h.setProxy host port
  | completed n ending =>
    cases hop : s.outstanding[n]? with
    | none => simp [HttpClient.step, hop] at hstep
    | some op =>
      obtain ⟨s'', hcompleted, hinv, -⟩ := h.completed isAddress hop hheard
      exact Option.some.inj (hcompleted.symm.trans hstep) ▸ hinv

theorem inv_initial : Inv {} :=
  ⟨HttpJobs.books_initial, Or.inl ⟨rfl, rfl⟩, Or.inl ⟨rfl, rfl⟩⟩

/-- As long as every completion is heard, the queues never hold a job without an operation that
leads on. -/
theorem never_stalls (isAddress : String → Bool) (s : HttpClient)
    (h : Run (step isAddress) Heard {} s) (hjob : s.jobs.queues.hasJob = true) :
    s.LeadsOn isAddress := by
  have hinv : s.Inv :=
    h.invariant inv_initial fun _ _ _ _ hinv hheard hstep => hinv.step isAddress hheard hstep
  rcases hinv.paired with ⟨hidle, -⟩ | ⟨ticket, op, -, hout, -⟩
  · obtain ⟨ticket, -, hflight⟩ := (hasJob_iff hinv.books hinv.current).mp hjob
    rw [hidle] at hflight
    cases hflight
  · refine ⟨0, op, by rw [hout]; rfl, fun ending hheard => ?_⟩
    obtain ⟨s', hstep, -, hleads⟩ := hinv.completed isAddress (by rw [hout]; rfl) hheard
    exact ⟨s', hstep, hleads⟩

/-! ## What an unheard completion does -/

/-- There is a job, and no operation whose completion could send it. -/
structure Stalled (s : HttpClient) : Prop where
  books : s.jobs.Books
  current : s.jobs.Current
  hasJob : s.jobs.queues.hasJob = true
  idle : s.outstanding = []

theorem Inv.stalled_of_not_heard (h : s.Inv) {n : ℕ} {op : SecuredTcpClient.Op}
    (hop : s.outstanding[n]? = some (.client op)) {ending : Ending}
    (hunheard : ¬SecuredTcpClient.Heard op ending.result) :
    ∃ s', s.step isAddress (.completed n ending) = some s' ∧ s'.Stalled := by
  obtain ⟨rfl, ticket, hflight, hout, hclient⟩ := h.outstanding_eq hop
  obtain ⟨client, hclient⟩ := Option.isSome_iff_exists.mp hclient
  have hsilent := SecuredTcpClient.completed_silent (c := client).mpr hunheard
  refine ⟨{ s with
    outstanding := []
    session := { s.session with tcpClient := some (client.completed op ending.result).1 } },
    ?_, h.books, h.current, hasJob_of_inFlight h.books h.current hflight, rfl⟩
  simp [HttpClient.step, hout, hclient, HttpClient.settle, hsilent]

/-- Nothing is sent any more, whatever is added. -/
theorem Stalled.step (h : s.Stalled) {ev : Event} (hstep : s.step isAddress ev = some s') :
    s'.Stalled ∧ s'.sends = s.sends := by
  obtain ⟨ticket, -, hflight⟩ := (hasJob_iff h.books h.current).mp h.hasJob
  cases ev with
  | addHttpJob cat job resolved =>
    obtain ⟨jobs, hadd, hbooks, hcurrent, hwhich⟩ := h.books.addHttpJob h.current cat job
    rcases hwhich with ⟨hidle, -⟩ | ⟨hsame, hmore⟩
    · rw [hidle] at hflight
      cases hflight
    · have heq : { s with jobs := jobs } = s' := by
        simpa [HttpClient.step, HttpClient.addHttpJob, hadd, hmore] using hstep
      rw [← heq]
      exact ⟨⟨hbooks, hcurrent, hasJob_of_inFlight hbooks hcurrent (hsame.trans hflight), h.idle⟩,
        rfl⟩
  | setProxy host port =>
    rw [← Option.some.inj hstep]
    exact ⟨⟨h.books, h.current, h.hasJob, h.idle⟩, rfl⟩
  | completed n ending => simp [HttpClient.step, h.idle] at hstep

theorem Stalled.run (h : s.Stalled) {ok : HttpClient → Event → Prop}
    (hrun : Run (HttpClient.step isAddress) ok s s') : s'.Stalled ∧ s'.sends = s.sends :=
  hrun.invariant (I := fun s' => s'.Stalled ∧ s'.sends = s.sends) ⟨h, rfl⟩
    fun _ _ _ _ hinv _ hstep =>
      ⟨(hinv.1.step isAddress hstep).1, (hinv.1.step isAddress hstep).2.trans hinv.2⟩

/-- The client connects, and its first write fails, so that another one is made. -/
def writeFails : List Event :=
  [.addHttpJob .ProfileUpdate (serverClaimJob 1 2 3) .endpoints,
    .completed 0 {},
    .completed 0 {},
    .completed 0 { result := { ec := some .operationAborted } }]

theorem writeFails_leadsOn : (execs (step fun _ => false) {} writeFails).LeadsOn fun _ => false :=
  never_stalls (fun _ => false) _ (Run.nil.execs (by decide +kernel)) (by decide +kernel)

/-- The proxy is changed while the only job connects, which is aborted; and one more job comes. -/
def stalled : List Event :=
  [.addHttpJob .ProfileUpdate (serverClaimJob 1 2 3) .endpoints,
    .setProxy "proxy" 8080,
    .completed 0 { result := { ec := some .operationAborted } },
    .addHttpJob .ScreenUpdate ⟨"/screen/update", "POST", [("id", 1)], 0⟩ .endpoints]

theorem stalls : ∃ s, Run (step fun _ => false) (fun _ _ => True) {} s ∧
    s.jobs.queues.hasJob = true ∧ s.jobs.queues.size = 2 ∧ s.outstanding = [] :=
  ⟨execs (step fun _ => false) {} stalled,
    Run.nil.execs (allOk_of_forall (fun _ _ => trivial) _ _), by decide +kernel⟩

end HttpClient

end Synergy
