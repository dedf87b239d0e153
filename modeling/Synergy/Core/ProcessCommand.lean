import Synergy.Core.LastRequest
import Synergy.Core.CoreManager

/-!
# The command line of a core

`ProcessCommand` makes up the command line of a core as it is on Linux: among the rest it says which
user the core shall run as and which display it shall use, as they were set last. A change of one of
them takes effect with the next start request, and `CoreManager` makes one. What a start request
asks for is kept in several places until a core is launched, so the second half of this module is
about launches: there is at most one in a step, and it is of the command that is requested then.
-/

set_option autoImplicit false

namespace Synergy

open Lib
open ServerProxy (ProcessMode)

/-- Where `DirectoryManager` finds things. -/
structure Directories where
  installDir : String
  profileDir : String
  systemLogDir : String

/-- `operator/` of a path. -/
def slash (dir name : String) : String :=
  if dir = "" ∨ dir.endsWith "/" then dir ++ name else dir ++ "/" ++ name

structure ProcessCommand where
  runAsUid : String := ""
  display : String := ""
  deriving DecidableEq

namespace ProcessCommand

/-- `ProcessCommand::generate`, with `__linux__`; it throws where there is no local hostname. -/
def generate (dirs : Directories) (c : ProcessCommand) (serverMode : Bool)
    (localHostname : String) : Option Command :=
  if localHostname = "" then none
  else some
    { program := slash dirs.installDir "synergy-core"
      arguments :=
        [if serverMode then "--server" else "--client", "-f"] ++
        (if c.runAsUid = "" then [] else ["--run-as-uid", c.runAsUid]) ++
        (if c.display = "" then [] else ["--display", c.display]) ++
        ["--debug", "DEBUG", "--name", localHostname, "--enable-drag-drop",
          "--profile-dir", dirs.profileDir, "--log", slash dirs.systemLogDir "synergy-core.log"] ++
        (if serverMode then
          ["-c", slash dirs.profileDir "synergy.conf", "--address", "127.0.0.1:24800"]
        else ["127.0.0.1:24801"]) }

/-- The setters say whether anything has changed. -/
def setRunAsUid (c : ProcessCommand) (runAsUid : String) : Bool × ProcessCommand :=
  (c.runAsUid != runAsUid, { c with runAsUid := runAsUid })

def setDisplay (c : ProcessCommand) (display : String) : Bool × ProcessCommand :=
  (c.display != display, { c with display := display })

end ProcessCommand

/-! ## At most one launch -/

namespace CoreProcess

variable {s s' t : CoreProcess} {command : Command} {guarded : Bool} {id : Nat}

/-- Nothing has been requested, and at most one core has been launched, of what is requested. -/
structure LaunchesRequested (s t : CoreProcess) : Prop where
  requested : t.requested = s.requested
  launches : t.launches = s.launches ∨
    ∃ command, t.launches = s.launches ++ [(command, s.requested)]

namespace LaunchesRequested

theorem of_eq (hrequested : t.requested = s.requested) (hlaunches : t.launches = s.launches) :
    LaunchesRequested s t := ⟨hrequested, Or.inl hlaunches⟩

/-- From a state that is told apart neither by its request nor by its launches. -/
theorem congr_left (h : LaunchesRequested s' t) (hrequested : s'.requested = s.requested)
    (hlaunches : s'.launches = s.launches) : LaunchesRequested s t := by
  refine ⟨h.requested.trans hrequested, ?_⟩
  rw [← hrequested, ← hlaunches]
  exact h.launches

theorem start (s : CoreProcess) (command : Command) (guarded : Bool) (fault : Option LaunchFault) :
    LaunchesRequested s (s.start command guarded fault) := by
  generalize hstart : s.start command guarded fault = t
  cases start_cases hstart with
  | disabled hdisabled => exact of_eq rfl rfl
  | parked impl henabled hheld hexpecting => exact of_eq rfl rfl
  | stopping impl henabled hheld hunexpecting => exact of_eq rfl rfl
  | launched henabled hempty hworks => exact ⟨rfl, Or.inr ⟨command, rfl⟩⟩
  | failed henabled hempty hthrows => exact of_eq rfl rfl

theorem shutdown (s : CoreProcess) (guarded : Bool) :
    LaunchesRequested s (s.shutdown guarded) := by
  generalize hshutdown : s.shutdown guarded = t
  cases shutdown_cases hshutdown <;> exact of_eq rfl rfl

theorem release (s : CoreProcess) (handler : Option Nat) :
    LaunchesRequested s (s.release handler) := of_eq (requested_release _) (launches_release _)

theorem onExit (s : CoreProcess) (id : Nat) (fault : Option LaunchFault) :
    LaunchesRequested s (s.onExit id fault) := by
  generalize hexit : s.onExit id fault = t
  cases onExit_cases hexit with
  | stray hreleased => exact of_eq rfl rfl
  | polling impl hheld hsame hunexpecting => exact of_eq rfl rfl
  | expected impl hheld hsame hexpecting =>
    unfold expectedExit
    split
    · exact (release _ _).congr_left rfl rfl
    · exact (start _ _ _ _).congr_left (requested_release _) (launches_release _)

theorem afterExit (s : CoreProcess) (id : Nat) : LaunchesRequested s (s.afterExit id) := by
  generalize hexit : s.afterExit id = t
  cases afterExit_cases hexit with
  | stray hreleased => exact of_eq rfl rfl
  | unexpected impl hheld hsame =>
    unfold unexpectedExit
    split
    · exact (release _ _).congr_left rfl rfl
    · exact of_eq (requested_release _) (launches_release _)

/-- Only a start request asks for anything. -/
theorem step {ev : Event} (h : ev.Internal) (hstep : CoreProcess.step s ev = some s') :
    LaunchesRequested s s' := by
  cases step_cases hstep with
  | startServer screenId command fault => exact h.elim
  | startClient serverId command fault => exact h.elim
  | setDisabled disabled => exact h.elim
  | shutdown => exact shutdown s false
  | exits id hruns => exact of_eq rfl rfl
  | exitHandler id fault hqueued => exact onExit s id fault
  | expires command harmed => exact of_eq rfl rfl
  | retry command expired fault hqueued => exact (start _ _ _ _).congr_left rfl rfl
  | shutdownReturns id guarded calls hwaits =>
    generalize hterminate : (s.setCalls calls).terminate id = t
    cases terminate_cases hterminate <;> exact of_eq rfl rfl
  | exitReturns id calls hwaits => exact (afterExit _ id).congr_left rfl rfl
  | startThrows id calls hwaits => exact (release _ _).congr_left rfl rfl
  | callThrows call calls hwaits hunguarded => exact of_eq rfl rfl

/-- A start request that works asks for its command. -/
theorem startIn (henabled : s.disabled = false) (mode : ProcessMode) (serverId : Int)
    (command : Command) :
    LaunchesRequested (s.setRequested command) (s.startIn mode serverId command none) := by
  rw [startIn_none henabled]
  exact (start _ _ _ _).congr_left rfl rfl

/-- The launch, if there was one. -/
theorem mem_drop (h : LaunchesRequested s t) {launch : Command × Option Command}
    (hmem : launch ∈ t.launches.drop s.launches.length) :
    launch ∈ t.launches ∧ launch.2 = t.requested := by
  refine ⟨List.mem_of_mem_drop hmem, ?_⟩
  rcases h.launches with heq | ⟨command, heq⟩
  · rw [heq, List.drop_length] at hmem
    exact absurd hmem List.not_mem_nil
  · rw [heq, List.drop_left, List.mem_singleton] at hmem
    rw [hmem, h.requested]

end LaunchesRequested

end CoreProcess

end Synergy
