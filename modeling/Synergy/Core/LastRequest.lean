import Synergy.Core.CoreProcess

/-!
# The last start request

A command waits in three places: parked in `m_nextCommand` until the core has exited, in
`m_lastCommand` for the case that it crashes, and in the closure of the retry timer. A start request
takes back what it finds there. It cancels the timer, and it parks its own command over the one that
is parked, or launches it.

Three things it does not take back. A completion of the timer that is queued runs all the same. An
exit handler that is in its poll arms the timer afterwards, with what `m_lastCommand` holds. And a
request that finds no core launches its own, and leaves `m_nextCommand` alone. Where none of the
three holds another command than that of the request, all that waits is the command that was
requested last, in every state that follows.
-/

set_option autoImplicit false

namespace Synergy.CoreProcess

open Lib
open ServerProxy (ProcessMode)

/-- The command waits where a start request does not take it back. -/
def Outlasts (s : CoreProcess) (command : Command) : Prop :=
  command ∈ s.expired ∨ (s.impl = none ∧ s.nextCommand = some command) ∨
    s.lastCommand = some command ∧ ∃ id, .exit id ∈ s.calls

/-- Nothing throws, and the core is not disabled. -/
def Event.Succeeds : Event → Prop
  | .startServer _ _ fault | .startClient _ _ fault => fault = none
  | .exitHandler _ fault | .retry fault => fault = none
  | .setDisabled disabled => disabled = false
  | .throws => False
  | .shutdown | .exits _ | .expires | .returns => True

/-- The command of a start request. -/
def Event.command : Event → Option Command
  | .startServer _ command _ | .startClient _ command _ => some command
  | _ => none

/-- No other command outlasts a start request. -/
def Supersedes (s : CoreProcess) (ev : Event) : Prop :=
  ∀ command, ev.command = some command → ∀ other, s.Outlasts other → other = command

/-- No core runs or is being shut down, and no retry is pending. -/
def Idle (s : CoreProcess) : Prop := s.impl = none ∧ s.retryTimer = none ∧ s.expired = []

/-- Every command that may yet be launched is the one that was requested last. -/
structure Current (s : CoreProcess) : Prop where
  enabled : s.disabled = false
  launches : ∀ launch ∈ s.launches, launch.2 = some launch.1
  next : ∀ command, s.nextCommand = some command → s.requested = some command
  timer : ∀ command, s.retryTimer = some command → s.requested = some command
  expired : ∀ command ∈ s.expired, s.requested = some command
  handling : ∀ id, .exit id ∈ s.calls →
    ∀ command, s.lastCommand = some command → s.requested = some command
  /-- There is a command for the retry of a core, and it is current where the core may crash. -/
  last : ∀ impl, s.impl = some impl → ∃ command, s.lastCommand = some command ∧
    (impl.expectingExit = false → s.requested = some command)
  waiting : s.impl = none → ∀ command, s.nextCommand = some command →
    s.retryTimer ≠ none ∨ s.expired ≠ []

variable {s t : CoreProcess} {command : Command} {guarded : Bool} {id : Nat}
  {calls : List CoreProcessCall} {impl : CoreProcessImpl}

namespace Current

theorem initial : Current {} where
  enabled := rfl
  launches := fun _ h => absurd h (by simp)
  next := fun _ h => absurd h (by simp)
  timer := fun _ h => absurd h (by simp)
  expired := fun _ h => absurd h (by simp)
  handling := fun _ h => absurd h (by simp)
  last := fun _ h => absurd h (by simp)
  waiting := fun _ _ h => absurd h (by simp)

/-- What outlasts a request is current. -/
theorem outlasting (h : Current s) {other : Command} (hother : s.Outlasts other) :
    s.requested = some other := by
  rcases hother with hexpired | ⟨_, hnext⟩ | ⟨hlast, id, hmem⟩
  · exact h.expired other hexpired
  · exact h.next other hnext
  · exact h.handling id hmem other hlast

/-- A start makes everything current, provided that nothing else outlasts it. -/
theorem start (henabled : s.disabled = false)
    (hlaunches : ∀ launch ∈ s.launches, launch.2 = some launch.1)
    (hlast : ∀ impl, s.impl = some impl → ∃ command, s.lastCommand = some command)
    (hrequested : s.requested = some command)
    (houtlasts : ∀ other, s.Outlasts other → other = command) (guarded : Bool) :
    Current (s.start command guarded none) := by
  have hcurrent : ∀ other, s.Outlasts other → s.requested = some other := by
    intro other hother
    rw [houtlasts other hother]
    exact hrequested
  have hexpired : ∀ other ∈ s.expired, s.requested = some other :=
    fun other hmem => hcurrent other (Or.inl hmem)
  have hhandling : ∀ id, .exit id ∈ s.calls →
      ∀ other, s.lastCommand = some other → s.requested = some other :=
    fun id hmem other hother => hcurrent other (Or.inr (Or.inr ⟨hother, id, hmem⟩))
  have hparked : ∀ other, some command = some other → s.requested = some other := by
    intro other heq
    rw [← heq]
    exact hrequested
  -- what could still launch another core is for this command, or has gone
  generalize hstart : s.start command guarded none = t
  cases start_cases hstart with
  | disabled hdisabled => exact absurd (henabled.symm.trans hdisabled) (by simp)
  | failed _ hempty hthrows => exact absurd hthrows (by simp)
  | parked impl _ hheld hexpecting =>
    exact
      { enabled := henabled
        launches := hlaunches
        next := hparked
        timer := fun _ hnone => absurd hnone (by simp [park, cancelRetry])
        expired := hexpired
        handling := hhandling
        last := by
          intro impl' himpl'
          obtain ⟨old, hold⟩ := hlast impl' himpl'
          obtain rfl := Option.some.inj (hheld.symm.trans himpl')
          exact ⟨old, hold, fun hfalse => absurd (hexpecting.symm.trans hfalse) (by simp)⟩
        waiting := fun hempty => absurd (hheld.symm.trans hempty) (by simp) }
  | stopping impl _ hheld hunexpecting =>
    -- the old core is told to exit, and the command waits for its exit handler
    exact
      { enabled := henabled
        launches := hlaunches
        next := hparked
        timer := fun _ hnone => absurd hnone (by simp [expectExit, park, cancelRetry])
        expired := hexpired
        handling := fun id hmem => hhandling id (List.mem_of_ne_of_mem (by simp) hmem)
        last := by
          intro impl' himpl'
          obtain ⟨old, hold⟩ := hlast impl hheld
          obtain rfl := Option.some.inj himpl'
          exact ⟨old, hold, fun hfalse => absurd hfalse (by simp)⟩
        waiting := fun hempty => absurd hempty (by simp [expectExit]) }
  | launched _ hempty hworks =>
    exact
      { enabled := henabled
        launches := by
          intro launch hmem
          rcases List.mem_append.mp hmem with hold | hnew
          · exact hlaunches launch hold
          · rw [List.mem_singleton.mp hnew]
            exact hrequested
        next := fun other hnext => hcurrent other (Or.inr (Or.inl ⟨hempty, hnext⟩))
        timer := fun _ hnone => absurd hnone (by simp [launch, cancelRetry])
        expired := hexpired
        handling := fun _ _ => hparked
        last := fun _ _ => ⟨command, rfl, fun _ => hrequested⟩
        waiting := fun hempty => absurd hempty (by simp [launch]) }

theorem startIn (h : Current s) (houtlasts : ∀ other, s.Outlasts other → other = command)
    (mode : ProcessMode) (serverId : Int) : Current (s.startIn mode serverId command none) := by
  rw [startIn_none h.enabled]
  refine Current.start (s := (s.setMode mode serverId).setRequested command) h.enabled h.launches
    (fun impl himpl => ?_) rfl houtlasts true
  obtain ⟨old, hold, _⟩ := h.last impl himpl
  exact ⟨old, hold⟩

theorem shutdown (h : Current s) (guarded : Bool) : Current (s.shutdown guarded) := by
  generalize hshutdown : s.shutdown guarded = t
  cases shutdown_cases hshutdown with
  | ignored hidle => exact h
  | stopping impl hheld hunexpecting =>
    exact
      { enabled := h.enabled
        launches := h.launches
        next := h.next
        timer := h.timer
        expired := h.expired
        handling := fun id hmem => h.handling id (List.mem_of_ne_of_mem (by simp) hmem)
        last := by
          intro impl' himpl'
          obtain ⟨old, hold, _⟩ := h.last impl hheld
          obtain rfl := Option.some.inj himpl'
          exact ⟨old, hold, fun hfalse => absurd hfalse (by simp)⟩
        waiting := fun hempty => absurd hempty (by simp [expectExit]) }

theorem setStatus (h : Current s) (id : Nat) (status : ChildStatus) :
    Current (s.setStatus id status) :=
  ⟨h.enabled, h.launches, h.next, h.timer, h.expired, h.handling, h.last, h.waiting⟩

theorem misuse (h : Current s) (m : Misuse) : Current (s.misuse m) :=
  ⟨h.enabled, h.launches, h.next, h.timer, h.expired, h.handling, h.last, h.waiting⟩

theorem pop (h : Current s) {call : CoreProcessCall} (hwaits : s.calls = call :: calls) :
    Current (s.setCalls calls) where
  enabled := h.enabled
  launches := h.launches
  next := h.next
  timer := h.timer
  expired := h.expired
  handling := by
    intro id hmem
    refine h.handling id ?_
    rw [hwaits]
    exact List.mem_cons_of_mem call hmem
  last := h.last
  waiting := h.waiting

theorem terminate (h : Current s) (id : Nat) : Current (s.terminate id) := by
  generalize hterminate : s.terminate id = t
  cases terminate_cases hterminate with
  | terminated => exact h
  | misused m => exact h.misuse m

theorem expectedExit (h : Current s) (id : Nat) : Current (s.expectedExit id none) := by
  unfold CoreProcess.expectedExit
  cases hnext : s.nextCommand with
  | none =>
    exact
      { enabled := (disabled_release _).trans h.enabled
        launches := by simpa using h.launches
        next := by simpa using h.next
        timer := by simpa using h.timer
        expired := by simpa using h.expired
        handling := by simpa using h.handling
        last := fun impl himpl => absurd himpl (by simp)
        waiting := fun _ other hother => absurd hother (by simp [hnext]) }
  | some command =>
    have hrequested : s.requested = some command := h.next command hnext
    refine Current.start (s := { s.release (some id) with nextCommand := none })
      ((disabled_release _).trans h.enabled) (by simpa using h.launches) (fun impl himpl => ?_)
      ((requested_release _).trans hrequested) (fun other hother => ?_) false
    · exact absurd ((impl_release (some id)).symm.trans himpl) (by simp)
    · have hcurrent : s.requested = some other := by
        rcases hother with hexpired | ⟨_, hnone⟩ | ⟨hlast, id', hmem⟩
        · exact h.expired other (by simpa using hexpired)
        · exact absurd hnone (by simp)
        · exact h.handling id' (by simpa using hmem) other (by simpa using hlast)
      exact Option.some.inj (hcurrent.symm.trans hrequested)

/-- A crash arms the timer with the command of the core that crashed. -/
theorem unexpectedExit (h : Current s) (himpl : s.impl = some impl)
    (hlast : ∀ command, s.lastCommand = some command → s.requested = some command) (id : Nat) :
    Current (s.unexpectedExit id) := by
  obtain ⟨command, hcommand, _⟩ := h.last impl himpl
  simp only [CoreProcess.unexpectedExit, hcommand]
  exact
    { enabled := (disabled_release _).trans h.enabled
      launches := by simpa using h.launches
      next := by simpa using h.next
      timer := by simpa using hlast command hcommand
      expired := by simpa using h.expired
      handling := fun _ _ other hother => absurd hother (by simp)
      last := fun impl himpl => absurd himpl (by simp)
      waiting := fun _ _ _ => Or.inl (by simp) }

theorem onExit (h : Current s) (id : Nat) : Current (s.onExit id none) := by
  generalize hexit : s.onExit id none = t
  cases onExit_cases hexit with
  | stray hreleased => exact (h.setStatus id .handled).misuse _
  | expected impl hheld hsame hexpecting => exact (h.setStatus id .handled).expectedExit id
  | polling impl hheld hsame hunexpecting =>
    obtain ⟨command, hcommand, hcurrent⟩ := h.last impl hheld
    exact
      { enabled := h.enabled
        launches := h.launches
        next := h.next
        timer := h.timer
        expired := h.expired
        handling := by
          intro _ _ other hother
          obtain rfl := Option.some.inj (hcommand.symm.trans hother)
          exact hcurrent hunexpecting
        last := h.last
        waiting := h.waiting }

theorem afterExit (h : Current s) (hwaits : s.calls = .exit id :: calls) :
    Current ((s.setCalls calls).afterExit id) := by
  have hpop : Current ((s.setCalls calls).setStatus id .handled) :=
    (h.pop hwaits).setStatus id .handled
  generalize hexit : (s.setCalls calls).afterExit id = t
  cases afterExit_cases hexit with
  | stray hreleased => exact hpop.misuse _
  | unexpected impl hheld hsame =>
    exact hpop.unexpectedExit hheld (h.handling id (hwaits ▸ List.mem_cons_self)) id

theorem expires (h : Current s) (harmed : s.retryTimer = some command) :
    Current (s.cancelRetry.setExpired (s.expired ++ [command])) where
  enabled := h.enabled
  launches := h.launches
  next := h.next
  timer := fun _ hnone => absurd hnone (by simp [setExpired, cancelRetry])
  expired := by
    intro other hmem
    rcases List.mem_append.mp hmem with hold | hnew
    · exact h.expired other hold
    · rw [List.mem_singleton.mp hnew]
      exact h.timer command harmed
  handling := h.handling
  last := h.last
  waiting := fun _ _ _ => Or.inr (by simp [setExpired])

theorem retry (h : Current s) {expired : List Command} (hqueued : s.expired = command :: expired) :
    Current ((s.setExpired expired).start command false none) := by
  have hrequested : s.requested = some command :=
    h.expired command (hqueued ▸ List.mem_cons_self)
  refine Current.start (s := s.setExpired expired) h.enabled h.launches (fun impl himpl => ?_)
    hrequested (fun other hother => ?_) false
  · obtain ⟨old, hold, _⟩ := h.last impl himpl
    exact ⟨old, hold⟩
  · have hother' : s.Outlasts other := by
      refine hother.imp_left fun hmem => ?_
      rw [hqueued]
      exact List.mem_cons_of_mem command hmem
    exact Option.some.inj ((h.outlasting hother').symm.trans hrequested)

theorem step {s' : CoreProcess} {ev : Event} (h : Current s)
    (hok : ev.Succeeds ∧ s.Supersedes ev) (hstep : CoreProcess.step s ev = some s') :
    Current s' := by
  obtain ⟨hsucceeds, hsupersedes⟩ := hok
  cases step_cases hstep with
  | startServer screenId command fault =>
    subst hsucceeds
    exact h.startIn (hsupersedes command rfl) _ _
  | startClient serverId command fault =>
    subst hsucceeds
    exact h.startIn (hsupersedes command rfl) _ _
  | shutdown => exact h.shutdown false
  | setDisabled disabled =>
    exact ⟨hsucceeds, h.launches, h.next, h.timer, h.expired, h.handling, h.last, h.waiting⟩
  | exits id hruns => exact h.setStatus id .exited
  | exitHandler id fault hqueued =>
    subst hsucceeds
    exact h.onExit id
  | expires command harmed => exact h.expires harmed
  | retry command expired fault hqueued =>
    subst hsucceeds
    exact h.retry hqueued
  | shutdownReturns id guarded calls hwaits => exact (h.pop hwaits).terminate id
  | exitReturns id calls hwaits => exact h.afterExit hwaits
  | startThrows id calls hwaits => exact hsucceeds.elim
  | callThrows call calls hwaits hunguarded => exact hsucceeds.elim

/-- Without a core and without a retry, nothing is parked. -/
theorem idle (h : Current s) (hidle : s.Idle) : s.nextCommand = none := by
  obtain ⟨hempty, htimer, hexpired⟩ := hidle
  cases hnext : s.nextCommand with
  | none => rfl
  | some command =>
    rcases h.waiting hempty command hnext with harmed | hqueued
    · exact absurd htimer harmed
    · exact absurd hexpired hqueued

end Current

/-- In a run whose start requests all supersede what waits, every launch is of the command that was
requested last, and no command is parked for good. -/
theorem launches_last_request
    (run : Run step (fun s ev => ev.Succeeds ∧ s.Supersedes ev) {} s) :
    (∀ launch ∈ s.launches, launch.2 = some launch.1) ∧ (s.Idle → s.nextCommand = none) := by
  have hcurrent : Current s :=
    run.invariant Current.initial fun _ _ _ _ h hok hstep => h.step hok hstep
  exact ⟨hcurrent.launches, hcurrent.idle⟩

/-- A client that crashes and, before its retry, is started again as a server, and then as a client
once more. -/
def switches : List Event :=
  [.startClient 7 clientCommand none, .exits 0, .exitHandler 0 none, .returns,
    .startServer 3 serverCommand none, .startClient 7 clientCommand none, .returns, .exits 1,
    .exitHandler 1 none]

theorem switches_launches_last_request :
    (execs step {} switches).launches = [(clientCommand, some clientCommand),
      (serverCommand, some serverCommand), (clientCommand, some clientCommand)] ∧
    (∀ launch ∈ (execs step {} switches).launches, launch.2 = some launch.1) ∧
    ((execs step {} switches).Idle → (execs step {} switches).nextCommand = none) := by
  have hquiet : ∀ (x : CoreProcess) (ev : Event), x.expired = [] → x.nextCommand = none →
      x.calls = [] → x.Supersedes ev := by
    intro x ev hexpired hnext hcalls _ _ other hother
    exact absurd hother (by simp [Outlasts, hexpired, hnext, hcalls])
  have hother : ∀ (x : CoreProcess) (ev : Event), ev.command = none → x.Supersedes ev :=
    fun _ _ hnone _ hcommand => absurd (hnone.symm.trans hcommand) (by simp)
  refine ⟨by decide +kernel, launches_last_request (Run.execs .nil ?_)⟩
  exact ⟨⟨rfl, hquiet _ _ rfl rfl rfl⟩, ⟨trivial, hother _ _ rfl⟩, ⟨rfl, hother _ _ rfl⟩,
    ⟨trivial, hother _ _ rfl⟩, ⟨rfl, hquiet _ _ rfl rfl rfl⟩, ⟨rfl, hquiet _ _ rfl rfl rfl⟩,
    ⟨trivial, hother _ _ rfl⟩, ⟨trivial, hother _ _ rfl⟩, ⟨rfl, hother _ _ rfl⟩, trivial⟩

/-- A client crashes, and it is started as a server while its retry is queued. -/
def staleRetry : List Event :=
  [.startClient 7 clientCommand none, .exits 0, .exitHandler 0 none, .returns, .expires,
    .startServer 3 serverCommand none, .retry none, .returns, .exits 1, .exitHandler 1 none]

/-- A client crashes, and it is started as a server while its exit handler polls. -/
def staleExit : List Event :=
  [.startClient 7 clientCommand none, .exits 0, .exitHandler 0 none,
    .startServer 3 serverCommand none, .returns, .returns, .expires, .retry none]

/-- Either way the client is launched in the end. -/
theorem stale_launches :
    Run step (fun _ ev => ev.Succeeds) {} (execs step {} staleRetry) ∧
    (execs step {} staleRetry).launches = [(clientCommand, some clientCommand),
      (serverCommand, some serverCommand), (clientCommand, some serverCommand)] ∧
    Run step (fun _ ev => ev.Succeeds) {} (execs step {} staleExit) ∧
    (execs step {} staleExit).launches =
      [(clientCommand, some clientCommand), (clientCommand, some serverCommand)] := by
  refine ⟨Run.execs .nil ?_, by decide +kernel, Run.execs .nil ?_, by decide +kernel⟩
  · exact ⟨rfl, trivial, rfl, trivial, trivial, rfl, rfl, trivial, trivial, rfl, trivial⟩
  · exact ⟨rfl, trivial, rfl, rfl, trivial, trivial, trivial, rfl, trivial⟩

end Synergy.CoreProcess
