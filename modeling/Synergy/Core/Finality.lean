import Synergy.Core.CoreProcess

/-!
# What a shutdown ends

`CoreProcess::shutdown` looks at `m_impl` only. It stops the core that runs, but a command that is
parked in `m_nextCommand` is started when that core has exited, and a retry that is pending starts
the core once more: `start` cancels the timer, `shutdown` does not. An exit handler that is in its
poll, too, arms the timer afterwards.

Where nothing of the kind waits, or the core is disabled, a shutdown is final. `CoreManager::pause`
disables the core first; `ServiceWorker::shutdown` does not.
-/

set_option autoImplicit false

namespace Synergy.CoreProcess

open Lib
open ServerProxy (ProcessMode)

/-- Nothing waits that could launch a core. -/
structure Quiet (s : CoreProcess) : Prop where
  next : s.nextCommand = none
  timer : s.retryTimer = none
  expired : s.expired = []
  calls : ∀ id, .exit id ∉ s.calls

/-- Neither a start request nor the end of a pause, which is followed by one at once. -/
def Between (_ : CoreProcess) (ev : Event) : Prop := ¬ev.IsRequest ∧ ev ≠ .setDisabled false

/-- Nothing waits, and what runs was told to exit. -/
structure Ending (s : CoreProcess) : Prop extends Quiet s where
  expecting : ∀ impl, s.impl = some impl → impl.expectingExit = true

variable {s s' t : CoreProcess} {command : Command} {guarded : Bool} {fault : Option LaunchFault}
  {id : Nat} {calls : List CoreProcessCall}

/-! ## A core that is disabled -/

theorem start_of_disabled (h : s.disabled = true) : s.start command guarded fault = s :=
  if_pos h

theorem launches_disabled_expectedExit (h : s.disabled = true) :
    (s.expectedExit id fault).launches = s.launches ∧
      (s.expectedExit id fault).disabled = true := by
  unfold expectedExit
  split
  · exact ⟨launches_release _, (disabled_release _).trans h⟩
  · have hdisabled : ({ s.release (some id) with nextCommand := none } : CoreProcess).disabled =
        true := (disabled_release _).trans h
    rw [start_of_disabled hdisabled]
    exact ⟨launches_release _, (disabled_release _).trans h⟩

theorem launches_disabled_onExit (h : s.disabled = true) :
    (s.onExit id fault).launches = s.launches ∧ (s.onExit id fault).disabled = true := by
  generalize hexit : s.onExit id fault = t
  cases onExit_cases hexit with
  | stray hreleased => exact ⟨rfl, h⟩
  | expected impl hheld hsame hexpecting =>
    exact launches_disabled_expectedExit (s := s.setStatus id .handled) h
  | polling impl hheld hsame hunexpecting => exact ⟨rfl, h⟩

theorem launches_disabled_unexpectedExit (h : s.disabled = true) :
    (s.unexpectedExit id).launches = s.launches ∧ (s.unexpectedExit id).disabled = true := by
  unfold unexpectedExit
  split
  · exact ⟨launches_release _, (disabled_release _).trans h⟩
  · exact ⟨launches_release _, (disabled_release _).trans h⟩

theorem launches_afterExit (h : s.disabled = true) :
    (s.afterExit id).launches = s.launches ∧ (s.afterExit id).disabled = true := by
  generalize hexit : s.afterExit id = t
  cases afterExit_cases hexit with
  | stray hreleased => exact ⟨rfl, h⟩
  | unexpected impl hheld hsame =>
    exact launches_disabled_unexpectedExit (s := s.setStatus id .handled) h

theorem launches_terminate :
    (s.terminate id).launches = s.launches ∧ (s.terminate id).disabled = s.disabled := by
  generalize hterminate : s.terminate id = t
  cases terminate_cases hterminate <;> exact ⟨rfl, rfl⟩

theorem launches_shutdown :
    (s.shutdown guarded).launches = s.launches ∧ (s.shutdown guarded).disabled = s.disabled := by
  generalize hshutdown : s.shutdown guarded = t
  cases shutdown_cases hshutdown <;> exact ⟨rfl, rfl⟩

/-- Between two requests a core that is disabled launches nothing, and stays so. -/
theorem step_of_disabled {ev : Event} (h : s.disabled = true) (hok : s.Between ev)
    (hstep : step s ev = some s') : s'.launches = s.launches ∧ s'.disabled = true := by
  cases step_cases hstep with
  | startServer screenId command fault => exact absurd trivial hok.1
  | startClient serverId command fault => exact absurd trivial hok.1
  | shutdown => exact ⟨launches_shutdown.1, launches_shutdown.2.trans h⟩
  | setDisabled disabled =>
    cases disabled with
    | true => exact ⟨rfl, rfl⟩
    | false => exact absurd rfl hok.2
  | exits id hruns => exact ⟨rfl, h⟩
  | exitHandler id fault hqueued => exact launches_disabled_onExit h
  | expires command harmed => exact ⟨rfl, h⟩
  | retry command expired fault hqueued =>
    have hdisabled : (s.setExpired expired).disabled = true := h
    rw [start_of_disabled hdisabled]
    exact ⟨rfl, h⟩
  | shutdownReturns id guarded calls hwaits =>
    exact ⟨launches_terminate.1, launches_terminate.2.trans h⟩
  | exitReturns id calls hwaits => exact launches_afterExit (s := s.setCalls calls) h
  | startThrows id calls hwaits => exact ⟨launches_release _, (disabled_release _).trans h⟩
  | callThrows call calls hwaits hunguarded => exact ⟨rfl, h⟩

/-! ## A core that ends -/

namespace Ending

theorem shutdown (h : Quiet s) (guarded : Bool) : Ending (s.shutdown guarded) := by
  generalize hshutdown : s.shutdown guarded = t
  cases shutdown_cases hshutdown with
  | ignored hidle => exact ⟨h, hidle⟩
  | stopping impl hheld hunexpecting =>
    refine ⟨⟨h.next, h.timer, h.expired, fun id hmem => ?_⟩, fun impl' himpl' => ?_⟩
    · rcases List.mem_cons.mp hmem with heq | hmem
      · exact absurd heq (by simp)
      · exact h.calls id hmem
    · obtain rfl := Option.some.inj himpl'
      rfl

theorem release (h : Ending s) (handler : Option Nat) : Ending (s.release handler) where
  next := (nextCommand_release handler).trans h.next
  timer := (retryTimer_release handler).trans h.timer
  expired := (expired_release handler).trans h.expired
  calls := by
    rw [calls_release]
    exact h.calls
  expecting := fun impl himpl => absurd ((impl_release handler).symm.trans himpl) (by simp)

theorem setStatus (h : Ending s) (id : Nat) (status : ChildStatus) :
    Ending (s.setStatus id status) :=
  ⟨⟨h.next, h.timer, h.expired, h.calls⟩, h.expecting⟩

theorem misuse (h : Ending s) (m : Misuse) : Ending (s.misuse m) :=
  ⟨⟨h.next, h.timer, h.expired, h.calls⟩, h.expecting⟩

theorem pop (h : Ending s) {call : CoreProcessCall} (hwaits : s.calls = call :: calls) :
    Ending (s.setCalls calls) := by
  refine ⟨⟨h.next, h.timer, h.expired, fun id hmem => h.calls id ?_⟩, h.expecting⟩
  rw [hwaits]
  exact List.mem_cons_of_mem call hmem

/-- The exit of a core that ends starts nothing. -/
theorem onExit (h : Ending s) (id : Nat) (fault : Option LaunchFault) :
    Ending (s.onExit id fault) ∧ (s.onExit id fault).launches = s.launches := by
  generalize hexit : s.onExit id fault = t
  cases onExit_cases hexit with
  | stray hreleased => exact ⟨(h.setStatus id .handled).misuse _, rfl⟩
  | expected impl hheld hsame hexpecting =>
    have hnext : (s.setStatus id .handled).nextCommand = none := h.next
    simp only [expectedExit, hnext]
    exact ⟨(h.setStatus id .handled).release (some id), launches_release _⟩
  | polling impl hheld hsame hunexpecting =>
    exact absurd ((h.expecting impl hheld).symm.trans hunexpecting) (by simp)

theorem terminate (h : Ending s) (id : Nat) : Ending (s.terminate id) := by
  generalize hterminate : s.terminate id = t
  cases terminate_cases hterminate with
  | terminated => exact h
  | misused m => exact h.misuse m

theorem step {ev : Event} (h : Ending s) (hok : s.Between ev) (hstep : step s ev = some s') :
    Ending s' ∧ s'.launches = s.launches := by
  cases step_cases hstep with
  | startServer screenId command fault => exact absurd trivial hok.1
  | startClient serverId command fault => exact absurd trivial hok.1
  | shutdown => exact ⟨Ending.shutdown h.toQuiet false, launches_shutdown.1⟩
  | setDisabled disabled => exact ⟨⟨⟨h.next, h.timer, h.expired, h.calls⟩, h.expecting⟩, rfl⟩
  | exits id hruns => exact ⟨h.setStatus id .exited, rfl⟩
  | exitHandler id fault hqueued => exact h.onExit id fault
  | expires command harmed => exact absurd (h.timer.symm.trans harmed) (by simp)
  | retry command expired fault hqueued => exact absurd (h.expired.symm.trans hqueued) (by simp)
  | shutdownReturns id guarded calls hwaits =>
    exact ⟨(h.pop hwaits).terminate id, launches_terminate.1⟩
  | exitReturns id calls hwaits => exact absurd (hwaits ▸ List.mem_cons_self) (h.calls id)
  | startThrows id calls hwaits => exact ⟨(h.pop hwaits).release none, launches_release _⟩
  | callThrows call calls hwaits hunguarded => exact ⟨h.pop hwaits, rfl⟩

end Ending

/-- A shutdown while nothing waits, or while the core is disabled, is final: up to the next start
request nothing is launched. -/
theorem shutdown_final (h : s.disabled = true ∨ s.Quiet)
    (run : Run step Between (s.shutdown false) t) : t.launches = s.launches := by
  rcases h with hdisabled | hquiet
  · refine (run.invariant (I := fun x => x.launches = s.launches ∧ x.disabled = true) ?_ ?_).1
    · exact ⟨launches_shutdown.1, launches_shutdown.2.trans hdisabled⟩
    · intro x x' ev _ hx hok hstep
      obtain ⟨hlaunches, hdisabled'⟩ := step_of_disabled hx.2 hok hstep
      exact ⟨hlaunches.trans hx.1, hdisabled'⟩
  · refine (run.invariant (I := fun x => x.launches = s.launches ∧ x.Ending) ?_ ?_).1
    · exact ⟨launches_shutdown.1, Ending.shutdown hquiet false⟩
    · intro x x' ev _ hx hok hstep
      obtain ⟨hending, hlaunches⟩ := hx.2.step hok hstep
      exact ⟨hlaunches.trans hx.1, hending⟩

/-- A client that runs. -/
def runningClient : CoreProcess := execs step {} [.startClient 7 clientCommand none]

theorem runningClient_shutdown_final :
    runningClient.nextCommand = none ∧
    (execs step (runningClient.shutdown false) [.returns, .exits 0, .exitHandler 0 none]).launches =
      runningClient.launches := by
  have run : Run step Between (runningClient.shutdown false) (runningClient.shutdown false) := .nil
  have hcalls : runningClient.calls = [] := rfl
  have hquiet : runningClient.Quiet := ⟨rfl, rfl, rfl, fun id => by simp [hcalls]⟩
  refine ⟨rfl, shutdown_final (Or.inr hquiet) (run.execs ?_)⟩
  exact ⟨⟨id, by simp⟩, ⟨id, by simp⟩, ⟨id, by simp⟩, trivial⟩

/-- A client that is being restarted as a server, and one that has crashed. -/
theorem shutdown_not_final :
    (execs step runningClient [.startServer 3 serverCommand none, .shutdown]).launches =
      runningClient.launches ∧
    (execs step runningClient [.startServer 3 serverCommand none, .shutdown, .returns, .exits 0,
      .exitHandler 0 none]).launches =
        runningClient.launches ++ [(serverCommand, some serverCommand)] ∧
    (execs step runningClient [.exits 0, .exitHandler 0 none, .returns, .shutdown]).launches =
      runningClient.launches ∧
    (execs step runningClient [.exits 0, .exitHandler 0 none, .returns, .shutdown, .expires,
      .retry none]).launches = runningClient.launches ++ [(clientCommand, some clientCommand)] := by
  decide +kernel

end Synergy.CoreProcess
