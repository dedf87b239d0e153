import Synergy.Core.CoreProcess

/-!
# The core manager and who it takes for the server

`CoreManager` is told who the server is: by the LAN, by the cloud or by the user, and each time it
is `switchServer`. It points the server proxy at a server that is another screen, and then has the
core process start as the client of it, or as the server. The two halves do not agree about a pause:
`CoreProcess` does nothing while it is disabled, the server proxy knows of no such thing.

`ServerProxy::start` polls the `io_service` twice before it is done, and any handler may run
meanwhile, so a start that waits is on a stack, as the calls of the core process are. In what order
polls of the two return is left open. What the proxy does with its connections is in the module on
the proxy; here only the `server_id_` matters.
-/

set_option autoImplicit false

namespace Synergy

open Lib
open ServerProxy (ProcessMode Starting)

/-! ## The role of a core process -/

namespace CoreProcess

/-- What a start request sets first, and whether it does anything. -/
structure Role where
  processMode : ProcessMode
  currentServerId : Int
  disabled : Bool
  deriving DecidableEq

def role (s : CoreProcess) : Role := ⟨s.processMode, s.currentServerId, s.disabled⟩

variable {s s' : CoreProcess} {command : Command} {guarded : Bool} {id : Nat}

@[simp] theorem role_release (handler : Option Nat) : (s.release handler).role = s.role := by
  unfold release
  split <;> rfl

@[simp] theorem role_shutdown : (s.shutdown guarded).role = s.role := by
  generalize hshutdown : s.shutdown guarded = t
  cases shutdown_cases hshutdown <;> rfl

@[simp] theorem role_start (fault : Option LaunchFault) :
    (s.start command guarded fault).role = s.role := by
  generalize hstart : s.start command guarded fault = t
  cases start_cases hstart <;> rfl

@[simp] theorem role_terminate : (s.terminate id).role = s.role := by
  generalize hterminate : s.terminate id = t
  cases terminate_cases hterminate <;> rfl

theorem role_expectedExit (fault : Option LaunchFault) :
    (s.expectedExit id fault).role = s.role := by
  unfold expectedExit
  split
  · exact role_release _
  · exact (role_start fault).trans (role_release (some id))

theorem role_unexpectedExit : (s.unexpectedExit id).role = s.role := by
  unfold unexpectedExit
  split
  · exact role_release _
  · exact role_release (some id)

theorem role_onExit (fault : Option LaunchFault) : (s.onExit id fault).role = s.role := by
  generalize hexit : s.onExit id fault = t
  cases onExit_cases hexit with
  | stray hreleased => rfl
  | expected impl hheld hsame hexpecting => exact role_expectedExit fault
  | polling impl hheld hsame hunexpecting => rfl

theorem role_afterExit : (s.afterExit id).role = s.role := by
  generalize hexit : s.afterExit id = t
  cases afterExit_cases hexit with
  | stray hreleased => rfl
  | unexpected impl hheld hsame => exact role_unexpectedExit

/-- A start request takes its role, unless the core is disabled. -/
theorem role_startIn (mode : ProcessMode) (serverId : Int) (command : Command)
    (fault : Option StartFault) : (s.startIn mode serverId command fault).role =
      if s.disabled then s.role else ⟨mode, serverId, false⟩ := by
  generalize hstart : s.startIn mode serverId command fault = t
  cases startIn_cases hstart with
  | disabled hdisabled => rw [if_pos hdisabled]
  | commandless henabled hthrows =>
    rw [role_release, if_neg (by simp [henabled])]
    exact congrArg (Role.mk mode serverId) henabled
  | tried launchFault henabled hfaults =>
    have hmode : (s.setMode mode serverId).role = ⟨mode, serverId, false⟩ :=
      congrArg (Role.mk mode serverId) henabled
    rw [if_neg (by simp [henabled]), ← hmode]
    unfold tryStart
    split
    · rw [role_release, role_start]
      rfl
    · rw [role_start]
      rfl

/-- An event that is neither a start request nor a pause. -/
def Event.Internal : Event → Prop
  | .startServer .. | .startClient .. | .setDisabled _ => False
  | .shutdown | .exits _ | .exitHandler .. | .expires | .retry _ | .returns | .throws => True

instance : DecidablePred Event.Internal
  | .startServer .. | .startClient .. | .setDisabled _ => isFalse fun h => h
  | .shutdown | .exits _ | .exitHandler .. | .expires | .retry _ | .returns | .throws =>
    isTrue trivial

/-- Only a start request or a pause changes the role. -/
theorem role_step {ev : Event} (h : ev.Internal) (hstep : step s ev = some s') :
    s'.role = s.role := by
  cases step_cases hstep with
  | startServer screenId command fault => exact h.elim
  | startClient serverId command fault => exact h.elim
  | shutdown => exact role_shutdown
  | setDisabled disabled => exact h.elim
  | exits id hruns => rfl
  | exitHandler id fault hqueued => exact role_onExit fault
  | expires command harmed => rfl
  | retry command expired fault hqueued => exact role_start fault
  | shutdownReturns id guarded calls hwaits => exact role_terminate
  | exitReturns id calls hwaits => exact role_afterExit
  | startThrows id calls hwaits => exact role_release _
  | callThrows call calls hwaits hunguarded => rfl

theorem toInt_of_range {n : Int} (h : -2 ^ 31 ≤ n) (h' : n < 2 ^ 31) : toInt n = n := by
  unfold toInt
  apply Int.bmod_eq_of_le <;> omega

end CoreProcess

/-! ## The core manager -/

/-- The command that a start request makes up, and where it throws. -/
structure Attempt where
  command : Command
  fault : Option StartFault := none
  deriving DecidableEq

/-- The attempts that work, one for each mode. -/
def Attempt.server : Attempt := { command := CoreProcess.serverCommand }

def Attempt.client : Attempt := { command := CoreProcess.clientCommand }

structure CoreManager where
  /-- `UserConfig::screenId`. -/
  screenId : Int
  process : CoreProcess := {}
  /-- The `server_id_` of the server proxy, -1 for none. -/
  serverId : Int := -1
  /-- Its starts that wait in a poll, innermost first. -/
  starting : List Starting := []
  /-- The last claim, and the last that came while the core was not disabled. -/
  claim : Option Int := none
  heard : Option Int := none
  deriving DecidableEq

namespace CoreManager

inductive Event where
  /-- A claim. -/
  | switchServer (serverId : Int) (attempt : Attempt)
  | pause
  | resume (attempt : Attempt)
  | restart (attempt : Attempt)
  /-- The poll of the innermost start of the server proxy returns. -/
  | proceed (attempt : Attempt)
  | core (ev : CoreProcess.Event)

def startServer (m : CoreManager) (attempt : Attempt) : CoreManager :=
  { m with process := m.process.startServer m.screenId attempt.command attempt.fault }

def startClient (m : CoreManager) (serverId : Int) (attempt : Attempt) : CoreManager :=
  { m with process := m.process.startClient serverId attempt.command attempt.fault }

/-- `m_serverProxy.start (serverId)` up to its first poll, or all of it where there is nothing to
do; then `startClient`. -/
def startProxy (m : CoreManager) (serverId : Int) (attempt : Attempt) : CoreManager :=
  if serverId = m.serverId then m.startClient serverId attempt
  else { m with starting := ⟨serverId, false⟩ :: m.starting }

/-- `CoreManager::switchServer`. -/
def switchServer (m : CoreManager) (serverId : Int) (attempt : Attempt) : CoreManager :=
  match m.process.processMode with
  | .kServer => if m.screenId ≠ serverId then m.startProxy serverId attempt else m
  | .kClient =>
    if m.screenId = serverId then m.startServer attempt else m.startProxy serverId attempt
  | .kUnknown =>
    if m.screenId = serverId then m.startServer attempt else m.startProxy serverId attempt

/-- The rest of a start of the proxy, and `startClient`. -/
def started (m : CoreManager) (serverId : Int) (attempt : Attempt) : CoreManager :=
  { m with serverId := serverId }.startClient serverId attempt

def setDisabled (m : CoreManager) (disabled : Bool) : CoreManager :=
  { m with process := { m.process with disabled := disabled } }

def restart (m : CoreManager) (attempt : Attempt) : CoreManager :=
  match m.process.processMode with
  | .kUnknown => m
  | .kServer => m.startServer attempt
  | .kClient => m.startClient m.process.currentServerId attempt

def pause (m : CoreManager) : CoreManager :=
  { m with process := (m.setDisabled true).process.shutdown false }

def resume (m : CoreManager) (attempt : Attempt) : CoreManager :=
  (m.setDisabled false).restart attempt

/-- Keep in mind who claimed to be the server. -/
def hear (m : CoreManager) (serverId : Int) : CoreManager :=
  { m with
    claim := some serverId
    heard := if m.process.disabled then m.heard else some serverId }

def setStarting (m : CoreManager) (starting : List Starting) : CoreManager :=
  { m with starting := starting }

def step (m : CoreManager) : Event → Option CoreManager
  -- the server proxy throws for anything that is neither -1 nor a `uint32_t`
  | .switchServer serverId attempt =>
    if m.screenId ≠ serverId → -1 ≤ serverId ∧ serverId < 2 ^ 32 then
      some ((m.hear serverId).switchServer serverId attempt)
    else none
  | .pause => some m.pause
  | .resume attempt => some (m.resume attempt)
  | .restart attempt => some (m.restart attempt)
  | .proceed attempt =>
    match m.starting with
    | [] => none
    | ⟨serverId, false⟩ :: starting => some (m.setStarting (⟨serverId, true⟩ :: starting))
    | ⟨serverId, true⟩ :: starting => some ((m.setStarting starting).started serverId attempt)
  | .core ev =>
    if ev.Internal then (m.process.step ev).map fun process => { m with process := process }
    else none

variable {m m' : CoreManager} {serverId : Int} {attempt : Attempt}

theorem role_startServer : (m.startServer attempt).process.role =
    if m.process.disabled then m.process.role
    else ⟨.kServer, CoreProcess.toInt m.screenId, false⟩ :=
  CoreProcess.role_startIn ..

theorem role_startClient : (m.startClient serverId attempt).process.role =
    if m.process.disabled then m.process.role
    else ⟨.kClient, CoreProcess.toInt serverId, false⟩ :=
  CoreProcess.role_startIn ..

theorem role_startServer_of_enabled (h : m.process.disabled = false) :
    (m.startServer attempt).process.role = ⟨.kServer, CoreProcess.toInt m.screenId, false⟩ :=
  role_startServer.trans (if_neg (by simp [h]))

theorem role_startClient_of_enabled (h : m.process.disabled = false) :
    (m.startClient serverId attempt).process.role =
      ⟨.kClient, CoreProcess.toInt serverId, false⟩ :=
  role_startClient.trans (if_neg (by simp [h]))

theorem role_startServer_of_disabled (h : m.process.disabled = true) :
    (m.startServer attempt).process.role = m.process.role :=
  role_startServer.trans (if_pos h)

theorem role_startClient_of_disabled (h : m.process.disabled = true) :
    (m.startClient serverId attempt).process.role = m.process.role :=
  role_startClient.trans (if_pos h)

theorem disabled_startServer : (m.startServer attempt).process.disabled = m.process.disabled := by
  cases hdisabled : m.process.disabled with
  | true =>
    exact (congrArg CoreProcess.Role.disabled (role_startServer_of_disabled hdisabled)).trans
      hdisabled
  | false => exact congrArg CoreProcess.Role.disabled (role_startServer_of_enabled hdisabled)

theorem disabled_startClient :
    (m.startClient serverId attempt).process.disabled = m.process.disabled := by
  cases hdisabled : m.process.disabled with
  | true =>
    exact (congrArg CoreProcess.Role.disabled (role_startClient_of_disabled hdisabled)).trans
      hdisabled
  | false => exact congrArg CoreProcess.Role.disabled (role_startClient_of_enabled hdisabled)

/-- The ways `switchServer` can go. -/
inductive SwitchCase (m : CoreManager) (serverId : Int) (attempt : Attempt) :
    CoreManager → Prop where
  | ignored (here : m.screenId = serverId) (mode : m.process.processMode = .kServer) :
      SwitchCase m serverId attempt m
  | server (here : m.screenId = serverId) (mode : m.process.processMode ≠ .kServer) :
      SwitchCase m serverId attempt (m.startServer attempt)
  | client (elsewhere : m.screenId ≠ serverId) (same : serverId = m.serverId) :
      SwitchCase m serverId attempt (m.startClient serverId attempt)
  | polling (elsewhere : m.screenId ≠ serverId) (other : serverId ≠ m.serverId) :
      SwitchCase m serverId attempt (m.setStarting (⟨serverId, false⟩ :: m.starting))

theorem startProxy_cases (helsewhere : m.screenId ≠ serverId) :
    SwitchCase m serverId attempt (m.startProxy serverId attempt) := by
  unfold startProxy
  by_cases hsame : serverId = m.serverId
  · rw [if_pos hsame]
    exact .client helsewhere hsame
  · rw [if_neg hsame]
    exact .polling helsewhere hsame

theorem switch_cases : SwitchCase m serverId attempt (m.switchServer serverId attempt) := by
  unfold switchServer
  by_cases hhere : m.screenId = serverId
  · cases hmode : m.process.processMode with
    | kServer =>
      simp only [hhere, ne_eq, not_true_eq_false, if_false]
      exact .ignored hhere hmode
    | kClient =>
      simp only [hhere, if_true]
      exact .server hhere (by simp [hmode])
    | kUnknown =>
      simp only [hhere, if_true]
      exact .server hhere (by simp [hmode])
  · cases m.process.processMode with
    | kServer =>
      simp only [ne_eq, hhere, not_false_eq_true, if_true]
      exact startProxy_cases hhere
    | kClient =>
      simp only [hhere, if_false]
      exact startProxy_cases hhere
    | kUnknown =>
      simp only [hhere, if_false]
      exact startProxy_cases hhere

/-- The ways `restart` can go. -/
inductive RestartCase (m : CoreManager) (attempt : Attempt) : CoreManager → Prop where
  | unknown (mode : m.process.processMode = .kUnknown) : RestartCase m attempt m
  | server (mode : m.process.processMode = .kServer) :
      RestartCase m attempt (m.startServer attempt)
  | client (mode : m.process.processMode = .kClient) :
      RestartCase m attempt (m.startClient m.process.currentServerId attempt)

theorem restart_cases : RestartCase m attempt (m.restart attempt) := by
  unfold restart
  cases hmode : m.process.processMode with
  | kUnknown => exact .unknown hmode
  | kServer => exact .server hmode
  | kClient => exact .client hmode

/-- The ways a step can go. -/
inductive StepCase (m : CoreManager) : Event → CoreManager → Prop where
  | switchServer (serverId : Int) (attempt : Attempt) (m' : CoreManager)
      (fits : m.screenId ≠ serverId → -1 ≤ serverId ∧ serverId < 2 ^ 32)
      (switches : SwitchCase (m.hear serverId) serverId attempt m') :
      StepCase m (.switchServer serverId attempt) m'
  | pause : StepCase m .pause m.pause
  | resume (attempt : Attempt) (m' : CoreManager)
      (restarts : RestartCase (m.setDisabled false) attempt m') : StepCase m (.resume attempt) m'
  | restart (attempt : Attempt) (m' : CoreManager) (restarts : RestartCase m attempt m') :
      StepCase m (.restart attempt) m'
  | stopped (serverId : Int) (starting : List Starting) (attempt : Attempt)
      (waits : m.starting = ⟨serverId, false⟩ :: starting) :
      StepCase m (.proceed attempt) (m.setStarting (⟨serverId, true⟩ :: starting))
  | started (serverId : Int) (starting : List Starting) (attempt : Attempt)
      (waits : m.starting = ⟨serverId, true⟩ :: starting) :
      StepCase m (.proceed attempt) ((m.setStarting starting).started serverId attempt)
  | core (ev : CoreProcess.Event) (process : CoreProcess) (internal : ev.Internal)
      (happens : m.process.step ev = some process) :
      StepCase m (.core ev) { m with process := process }

theorem step_cases {ev : Event} (h : step m ev = some m') : StepCase m ev m' := by
  cases ev with
  | switchServer serverId attempt =>
    obtain ⟨hfits, heq⟩ := Option.ite_none_right_eq_some.mp h
    cases heq
    exact .switchServer serverId attempt _ hfits switch_cases
  | pause =>
    obtain rfl := Option.some.inj h
    exact .pause
  | resume attempt =>
    obtain rfl := Option.some.inj h
    exact .resume attempt _ restart_cases
  | restart attempt =>
    obtain rfl := Option.some.inj h
    exact .restart attempt _ restart_cases
  | proceed attempt =>
    match hwaits : m.starting with
    | [] => exact absurd h (by simp [step, hwaits])
    | ⟨serverId, false⟩ :: starting =>
      simp only [step, hwaits, Option.some.injEq] at h
      cases h
      exact .stopped serverId starting attempt hwaits
    | ⟨serverId, true⟩ :: starting =>
      simp only [step, hwaits, Option.some.injEq] at h
      cases h
      exact .started serverId starting attempt hwaits
  | core ev =>
    obtain ⟨hinternal, heq⟩ := Option.ite_none_right_eq_some.mp h
    obtain ⟨process, hprocess, rfl⟩ := Option.map_eq_some_iff.mp heq
    exact .core ev process hinternal hprocess

/-- Neither a pause nor a resume. -/
def Event.Unpaused : Event → Prop
  | .pause | .resume _ => False
  | .switchServer _ _ | .restart _ | .proceed _ | .core _ => True

instance : DecidablePred Event.Unpaused
  | .pause | .resume _ => isFalse fun h => h
  | .switchServer _ _ | .restart _ | .proceed _ | .core _ => isTrue trivial

theorem screenId_step {ev : Event} (h : step m ev = some m') : m'.screenId = m.screenId := by
  cases step_cases h with
  | switchServer serverId attempt m' _ hswitches => cases hswitches <;> rfl
  | pause => rfl
  | resume attempt m' hrestarts => cases hrestarts <;> rfl
  | restart attempt m' hrestarts => cases hrestarts <;> rfl
  | stopped _ _ _ _ => rfl
  | started _ _ _ _ => rfl
  | core _ _ _ _ => rfl

theorem disabled_switchServer (h : SwitchCase m serverId attempt m') :
    m'.process.disabled = m.process.disabled := by
  cases h with
  | ignored _ _ => rfl
  | server _ _ => exact disabled_startServer
  | client _ _ => exact disabled_startClient
  | polling _ _ => rfl

theorem disabled_restart (h : RestartCase m attempt m') :
    m'.process.disabled = m.process.disabled := by
  cases h with
  | unknown _ => rfl
  | server _ => exact disabled_startServer
  | client _ => exact disabled_startClient

/-- Only a pause or a resume changes whether the core is disabled. -/
theorem disabled_step {ev : Event} (hstep : step m ev = some m') (h : ev.Unpaused) :
    m'.process.disabled = m.process.disabled := by
  cases step_cases hstep with
  | switchServer serverId attempt m' _ hswitches =>
    exact disabled_switchServer (m := m.hear serverId) hswitches
  | pause => exact h.elim
  | resume attempt m' _ => exact h.elim
  | restart attempt m' hrestarts => exact disabled_restart hrestarts
  | stopped _ _ _ _ => rfl
  | started serverId starting attempt _ =>
    exact disabled_startClient (m := { m.setStarting starting with serverId := serverId })
  | core ev process hinternal hhappens =>
    exact congrArg CoreProcess.Role.disabled (CoreProcess.role_step hinternal hhappens)

/-! ## The server proxy -/

/-- What the manager and the server proxy of a node have in common. -/
structure Matches (m : CoreManager) (n : ServerProxy.Node) : Prop where
  screenId : n.screenId = m.screenId
  mode : n.mode = m.process.processMode
  disabled : n.disabled = m.process.disabled
  serverId : n.serverId = m.serverId
  starting : n.starting = m.starting

namespace Matches

variable {n : ServerProxy.Node}

/-- A start request in one mode or the other. -/
theorem startIn (h : Matches m n) {mode : ProcessMode} {currentServerId : Int}
    {process : CoreProcess} (hrole : process.role =
      if m.process.disabled then m.process.role else ⟨mode, currentServerId, false⟩) :
    Matches { m with process := process } (if n.disabled then n else { n with mode := mode }) := by
  cases hdisabled : m.process.disabled with
  | true =>
    rw [if_pos hdisabled] at hrole
    rw [if_pos (h.disabled.trans hdisabled)]
    exact ⟨h.screenId, h.mode.trans (congrArg CoreProcess.Role.processMode hrole).symm,
      h.disabled.trans (congrArg CoreProcess.Role.disabled hrole).symm, h.serverId, h.starting⟩
  | false =>
    rw [if_neg (by simp [hdisabled])] at hrole
    rw [if_neg (by simp [h.disabled, hdisabled])]
    exact ⟨h.screenId, (congrArg CoreProcess.Role.processMode hrole).symm,
      (h.disabled.trans hdisabled).trans (congrArg CoreProcess.Role.disabled hrole).symm,
      h.serverId, h.starting⟩

theorem startServer (h : Matches m n) (attempt : Attempt) :
    Matches (m.startServer attempt) n.startServer :=
  h.startIn role_startServer

theorem startClient (h : Matches m n) (serverId : Int) (attempt : Attempt) :
    Matches (m.startClient serverId attempt) n.startClient :=
  h.startIn role_startClient

theorem switchServer (h : Matches m n) (hcase : SwitchCase m serverId attempt m') :
    Matches m' (n.switchServer serverId) := by
  have hstart : m.screenId ≠ serverId → n.switchServer serverId = n.start serverId := by
    intro helsewhere
    have helsewhere' : n.screenId ≠ serverId := h.screenId ▸ helsewhere
    unfold ServerProxy.Node.switchServer
    cases n.mode <;> simp [helsewhere']
  cases hcase with
  | ignored hhere hmode =>
    have hsame : n.switchServer serverId = n := by
      simp [ServerProxy.Node.switchServer, h.mode, hmode, h.screenId, hhere]
    rw [hsame]
    exact h
  | server hhere hmode =>
    have hsame : n.switchServer serverId = n.startServer := by
      unfold ServerProxy.Node.switchServer
      rw [h.mode, h.screenId, hhere]
      revert hmode
      cases m.process.processMode <;> simp
    exact hsame ▸ h.startServer attempt
  | client helsewhere hsame =>
    rw [hstart helsewhere, ServerProxy.Node.start, if_pos (hsame.trans h.serverId.symm)]
    exact h.startClient serverId attempt
  | polling helsewhere hother =>
    rw [hstart helsewhere, ServerProxy.Node.start,
      if_neg fun hsame => hother (hsame.trans h.serverId)]
    exact ⟨h.screenId, h.mode, h.disabled, h.serverId,
      congrArg (⟨serverId, false⟩ :: ·) h.starting⟩

/-- A restart keeps the mode. -/
theorem restart (h : Matches m n) (hcase : RestartCase m attempt m') : Matches m' n := by
  cases hcase with
  | unknown _ => exact h
  | server hmode =>
    have hsame : n.startServer = n := by
      simp [ServerProxy.Node.startServer, ← hmode, ← h.mode]
    exact hsame ▸ h.startServer attempt
  | client hmode =>
    have hsame : n.startClient = n := by
      simp [ServerProxy.Node.startClient, ← hmode, ← h.mode]
    exact hsame ▸ h.startClient m.process.currentServerId attempt

/-- A step of the manager is at most one step of the proxy. -/
theorem step {ev : Event} (h : Matches m n) (hid : -1 ≤ m.screenId ∧ m.screenId < 2 ^ 32)
    (hstep : CoreManager.step m ev = some m') :
    ∃ n', Matches m' n' ∧ (n' = n ∨ ∃ ev', ServerProxy.step n ev' = some n') := by
  cases step_cases hstep with
  | switchServer serverId attempt m' hfits hswitches =>
    have hfits' : -1 ≤ serverId ∧ serverId < 2 ^ 32 := by
      by_cases hhere : m.screenId = serverId
      · exact hhere ▸ hid
      · exact hfits hhere
    have hheard : Matches (m.hear serverId) n :=
      ⟨h.screenId, h.mode, h.disabled, h.serverId, h.starting⟩
    exact ⟨_, hheard.switchServer hswitches, Or.inr ⟨.switchServer serverId, if_pos hfits'⟩⟩
  | pause =>
    refine ⟨{ n with disabled := true }, ?_, Or.inr ⟨.setDisabled true, rfl⟩⟩
    have hrole : m.pause.process.role = (m.setDisabled true).process.role :=
      CoreProcess.role_shutdown
    exact ⟨h.screenId, h.mode.trans (congrArg CoreProcess.Role.processMode hrole).symm,
      (congrArg CoreProcess.Role.disabled hrole).symm, h.serverId, h.starting⟩
  | resume attempt m' hrestarts =>
    refine ⟨{ n with disabled := false }, ?_, Or.inr ⟨.setDisabled false, rfl⟩⟩
    have henabled : Matches (m.setDisabled false) { n with disabled := false } :=
      ⟨h.screenId, h.mode, rfl, h.serverId, h.starting⟩
    exact henabled.restart hrestarts
  | restart attempt m' hrestarts => exact ⟨n, h.restart hrestarts, Or.inl rfl⟩
    -- the proxy takes no part in it
  | stopped serverId starting attempt hwaits =>
    refine ⟨{ n.closeAll with starting := ⟨serverId, true⟩ :: starting }, ?_,
      Or.inr ⟨.proceed, ?_⟩⟩
    · exact ⟨h.screenId, h.mode, h.disabled, h.serverId, rfl⟩
    · simp [ServerProxy.step, h.starting, hwaits]
  | started serverId starting attempt hwaits =>
    have hproxy : Matches { m.setStarting starting with serverId := serverId }
        { n with
          starting := starting
          connections := []
          serverId := serverId
          accepts := if serverId = -1 then n.accepts else n.accepts ++ [.spawned] } :=
      ⟨h.screenId, h.mode, h.disabled, rfl, rfl⟩
    -- it does not matter whether the request is taken from the list before or after
    have hsame : { n.started serverId with starting := starting } =
        { n with starting := starting }.started serverId := by
      cases hdisabled : n.disabled <;>
        simp [ServerProxy.Node.started, ServerProxy.Node.startClient, hdisabled]
    have hstarted : Matches ((m.setStarting starting).started serverId attempt)
        (({ n with starting := starting } : ServerProxy.Node).started serverId) :=
      hproxy.startClient serverId attempt
    refine ⟨_, hstarted, Or.inr ⟨.proceed, ?_⟩⟩
    rw [← hsame]
    simp [ServerProxy.step, h.starting, hwaits]
  | core ev process hinternal hhappens =>
    -- an event of the core alone, which keeps its role
    have hrole := CoreProcess.role_step hinternal hhappens
    refine ⟨n, ?_, Or.inl rfl⟩
    exact ⟨h.screenId, h.mode.trans (congrArg CoreProcess.Role.processMode hrole).symm,
      h.disabled.trans (congrArg CoreProcess.Role.disabled hrole).symm, h.serverId, h.starting⟩

end Matches

end CoreManager

end Synergy
