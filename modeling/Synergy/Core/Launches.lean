import Synergy.Core.CoreProcess

/-!
# Launches that throw

`CoreProcess::start` sets `m_impl` before the two steps that can throw, and leaves it to its caller
to reset it. `startServer` and `startClient` do. The slot of `expectedExit` and the completion of
the retry timer do not: they leave an object that has no child. The next start request takes it for
a running core, and waits for an exit that never comes.
-/

set_option autoImplicit false

namespace Synergy.CoreProcess

open Lib
open ServerProxy (ProcessMode)

variable {s s' : CoreProcess} {command : Command} {guarded : Bool} {fault : Option LaunchFault}
  {id : Nat} {ev : Event}

/-- Nothing is left of a core: a start request launches one, and a shutdown finds none. -/
structure CleanedUp (s : CoreProcess) : Prop where
  empty : s.impl = none
  launches : ∀ mode serverId command,
    (s.startIn mode serverId command none).launches = s.launches ++ [(command, some command)]
  shutdown : ∀ guarded, s.shutdown guarded = s

theorem cleanedUp_iff (henabled : s.disabled = false) : s.CleanedUp ↔ s.impl = none := by
  refine ⟨CleanedUp.empty,
    fun hempty => ⟨hempty, fun mode serverId command => ?_, fun guarded => ?_⟩⟩
  · simp [startIn, tryStart, setMode, setRequested, Throws, start, launch, cancelRetry, henabled,
      hempty]
  · simp [shutdown, hempty]

/-! ## What does not launch does not fail -/

@[simp] theorem failures_terminate : (s.terminate id).failures = s.failures := by
  generalize hterminate : s.terminate id = t
  cases terminate_cases hterminate <;> rfl

@[simp] theorem failures_shutdown : (s.shutdown guarded).failures = s.failures := by
  generalize hshutdown : s.shutdown guarded = t
  cases shutdown_cases hshutdown <;> rfl

@[simp] theorem failures_unexpectedExit : (s.unexpectedExit id).failures = s.failures := by
  unfold unexpectedExit
  split
  · exact failures_release _
  · exact failures_release _

@[simp] theorem failures_afterExit : (s.afterExit id).failures = s.failures := by
  generalize hexit : s.afterExit id = t
  cases afterExit_cases hexit with
  | stray hreleased => rfl
  | unexpected impl hheld hsame => exact failures_unexpectedExit

/-! ## What does -/

theorem StartCase.throws (h : StartCase s command guarded fault s')
    (hfails : s'.failures ≠ s.failures) : s.Throws fault := by
  cases h with
  | disabled hdisabled => exact absurd rfl hfails
  | parked impl henabled hheld hexpecting => exact absurd rfl hfails
  | stopping impl henabled hheld hunexpecting => exact absurd rfl hfails
  | launched henabled hempty hworks => exact absurd rfl hfails
  | failed henabled hempty hthrows => exact ⟨henabled, hempty, hthrows⟩

/-- `start` keeps what it could not launch. -/
theorem impl_start_of_failure
    (hfails : (s.start command guarded fault).failures ≠ s.failures) :
    (s.start command guarded fault).impl ≠ none := by
  rw [start_of_throws ((start_cases rfl).throws hfails)]
  exact Option.some_ne_none _

/-- A start request does not. -/
theorem tryStart_of_failure (hfails : (s.tryStart command fault).failures ≠ s.failures) :
    (s.tryStart command fault).CleanedUp := by
  unfold tryStart at hfails ⊢
  by_cases hthrows : s.Throws fault
  · rw [if_pos hthrows]
    refine (cleanedUp_iff ?_).mpr (impl_release none)
    have hthrows' : (s.setRequested command).Throws fault := hthrows
    rw [disabled_release, start_of_throws hthrows']
    exact hthrows.1
  · rw [if_neg hthrows] at hfails
    exact absurd ((start_cases rfl).throws hfails) hthrows

theorem startIn_of_failure {mode : ProcessMode} {serverId : Int} {fault : Option StartFault}
    (hfails : (s.startIn mode serverId command fault).failures ≠ s.failures) :
    (s.startIn mode serverId command fault).CleanedUp := by
  generalize hstart : s.startIn mode serverId command fault = t at hfails ⊢
  cases startIn_cases hstart with
  | disabled hdisabled => exact absurd rfl hfails
  | commandless henabled hthrows => exact absurd (failures_release none) hfails
  | tried launchFault henabled hfaults => exact tryStart_of_failure hfails

theorem expectedExit_of_failure (hfails : (s.expectedExit id fault).failures ≠ s.failures) :
    (s.expectedExit id fault).impl ≠ none := by
  unfold expectedExit at hfails ⊢
  cases hnext : s.nextCommand with
  | none =>
    simp only [hnext] at hfails
    exact absurd (failures_release _) hfails
  | some command =>
    simp only [hnext] at hfails ⊢
    refine impl_start_of_failure fun heq => hfails (heq.trans ?_)
    exact failures_release (s := s) (some id)

theorem onExit_of_failure (hfails : (s.onExit id fault).failures ≠ s.failures) :
    (s.onExit id fault).impl ≠ none := by
  generalize hexit : s.onExit id fault = t at hfails ⊢
  cases onExit_cases hexit with
  | stray hreleased => exact absurd rfl hfails
  | expected impl hheld hsame hexpecting =>
    exact expectedExit_of_failure (s := s.setStatus id .handled) hfails
  | polling impl hheld hsame hunexpecting => exact absurd rfl hfails

/-- A launch that throws is cleaned up if and only if a start request made it: not where the exit
handler starts the waiting command, and not in the completion of the retry timer. -/
theorem cleanedUp_iff_isRequest (hstep : step s ev = some s')
    (hfails : s'.failures ≠ s.failures) : s'.CleanedUp ↔ ev.IsRequest := by
  cases step_cases hstep with
  | startServer screenId command fault => exact iff_of_true (startIn_of_failure hfails) trivial
  | startClient serverId command fault => exact iff_of_true (startIn_of_failure hfails) trivial
  | shutdown => exact absurd failures_shutdown hfails
  | setDisabled disabled => exact absurd rfl hfails
  | exits id hruns => exact absurd rfl hfails
  | exitHandler id fault hqueued =>
    exact iff_of_false (fun hclean => onExit_of_failure hfails hclean.empty) not_false
  | expires command harmed => exact absurd rfl hfails
  | retry command expired fault hqueued =>
    exact iff_of_false (fun hclean => impl_start_of_failure hfails hclean.empty) not_false
  | shutdownReturns id guarded calls hwaits => exact absurd failures_terminate hfails
  | exitReturns id calls hwaits => exact absurd failures_afterExit hfails
  | startThrows id calls hwaits => exact absurd (failures_release none) hfails
  | callThrows call calls hwaits hunguarded => exact absurd rfl hfails

theorem startClient_cleanedUp_iff :
    (({} : CoreProcess).startClient 7 clientCommand (some (.launch .creation))).failures = [0] ∧
    ((({} : CoreProcess).startClient 7 clientCommand (some (.launch .creation))).CleanedUp ↔
      (Event.startClient 7 clientCommand (some (.launch .creation))).IsRequest) :=
  ⟨by decide +kernel, cleanedUp_iff_isRequest (s := {}) rfl (by decide +kernel)⟩

/-- The core crashes, and the child that the retry timer starts cannot be created. -/
def failedRetry : CoreProcess :=
  execs step {} [.startClient 7 clientCommand none, .exits 0, .exitHandler 0 none, .returns,
    .expires, .retry (some .creation)]

/-- After it there is an object without a child. The next start request launches nothing, and with
nothing left to happen its command waits; and a shutdown uses the child that was never created. -/
theorem failedRetry_not_cleanedUp :
    failedRetry.failures = [1] ∧ ¬failedRetry.CleanedUp ∧
    (execs step failedRetry [.startClient 8 clientCommand none, .returns]).launches =
      failedRetry.launches ∧
    (execs step failedRetry [.startClient 8 clientCommand none, .returns]).nextCommand =
      some clientCommand ∧
    (execs step failedRetry [.shutdown, .returns]).misuses = [.neverCreated 1] := by
  refine ⟨by decide +kernel, fun h => ?_, by decide +kernel, by decide +kernel, by decide +kernel⟩
  exact absurd h.empty (by decide +kernel)

end Synergy.CoreProcess
