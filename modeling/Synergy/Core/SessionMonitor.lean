import Synergy.Core.ProcessCommand

/-!
# Whose core it is

On Linux the service watches the login sessions, and the core has to run as the user of the active
one and on its display. `SessionMonitor::poll` looks for that session and signals what has changed;
each signal sets the command line and restarts the core. The user comes first and the display behind
it, in one poll, and the first restart may wait in a poll of the `io_service` of its own, so the two
halves of a poll are two events here. Anything may happen between them.
-/

set_option autoImplicit false

namespace Synergy

open Lib
open ServerProxy (ProcessMode)

/-- What `sd-login` says of a session: a negative number or nothing where it fails. -/
structure Login where
  session : String
  isActive : Int
  type : Option String
  sclass : Option String
  uid : Option Nat
  display : Option String

namespace SessionMonitor

/-- The active session, as far as `poll` goes on with it. -/
structure Found where
  session : String
  user : Nat
  display : String
  deriving DecidableEq

/-- `SessionMonitor::poll` up to the first signal; `ttyDisplay` is the display of the active TTY. -/
def found (sessions : List Login) (ttyDisplay : Option String) : Option Found := do
  let login ← sessions.find? fun login => login.isActive ≠ 0
  let type ← login.type
  guard (type = "x11")
  let sclass ← login.sclass
  guard (sclass = "user")
  let user ← login.uid
  let display ← login.display <|> ttyDisplay
  return ⟨login.session, user, display⟩

structure Impl where
  activeXSession : Option String := none
  activeXDisplay : Option String := none
  activeUser : Option Nat := none

end SessionMonitor

open SessionMonitor

/-- What a start request reads of the profile: the local screen and its name, if it is there. -/
structure LocalScreen where
  id : Int
  name : Option String

/-- A poll that has yet to look at the display: the calls that were waiting when it began. -/
structure Polling where
  found : Found
  depth : Nat

/-- A core that was launched, and what was so at that moment. -/
structure LaunchedCore where
  command : Command
  processMode : ProcessMode
  /-- What the last poll that found a session found, where no poll was under way. -/
  session : Option Found

structure Desktop where
  process : CoreProcess := {}
  processCommand : ProcessCommand := {}
  impl : Impl := {}
  polling : Option Polling := none
  /-- What the last poll found that found a session. -/
  last : Option Found := none
  cores : List LaunchedCore := []

namespace Desktop

inductive Event where
  | startServer (localScreen : LocalScreen)
  | startClient (serverId : Int) (localScreen : LocalScreen)
  /-- From the user configuration, or by the user interface. -/
  | setRunAsUid (runAsUid : String) (localScreen : LocalScreen)
  | poll (sessions : List Login) (ttyDisplay : Option String) (localScreen : LocalScreen)
  /-- The first half of the poll is done. -/
  | proceed (localScreen : LocalScreen)
  | core (ev : CoreProcess.Event)

section

variable (dirs : Directories)

/-- What is asked for in that mode. -/
def command (d : Desktop) (mode : ProcessMode) (localScreen : LocalScreen) : Option Command :=
  localScreen.name.bind (d.processCommand.generate dirs (decide (mode = .kServer)))

/-- `CoreProcess::startServer` and `startClient`. -/
def startIn (d : Desktop) (mode : ProcessMode) (serverId : Int) (localScreen : LocalScreen) :
    Desktop :=
  { d with
    process :=
      match d.command dirs mode localScreen with
      | some command => d.process.startIn mode serverId command none
      | none => d.process.startIn mode serverId ⟨"", []⟩ (some .command) }

def startServer (d : Desktop) (localScreen : LocalScreen) : Desktop :=
  d.startIn dirs .kServer (CoreProcess.toInt localScreen.id) localScreen

def startClient (d : Desktop) (serverId : Int) (localScreen : LocalScreen) : Desktop :=
  d.startIn dirs .kClient (CoreProcess.toInt serverId) localScreen

/-- `CoreManager::restart`. -/
def restart (d : Desktop) (localScreen : LocalScreen) : Desktop :=
  match d.process.processMode with
  | .kUnknown => d
  | .kServer => d.startServer dirs localScreen
  | .kClient => d.startClient dirs d.process.currentServerId localScreen

/-- The rest of `CoreManager::setRunAsUid` and `setDisplay`. -/
def setCommand (d : Desktop) (set : Bool × ProcessCommand) (localScreen : LocalScreen) : Desktop :=
  let d' := { d with processCommand := set.2 }
  if set.1 then d'.restart dirs localScreen else d'

def setRunAsUid (d : Desktop) (runAsUid : String) (localScreen : LocalScreen) : Desktop :=
  d.setCommand dirs (d.processCommand.setRunAsUid runAsUid) localScreen

def setDisplay (d : Desktop) (display : String) (localScreen : LocalScreen) : Desktop :=
  d.setCommand dirs (d.processCommand.setDisplay display) localScreen

/-- The poll goes on with what it has found. -/
def take (d : Desktop) (found : Found) : Desktop :=
  { d with
    impl := { d.impl with activeXSession := some found.session }
    last := some found
    polling := some ⟨found, d.process.calls.length⟩ }

def setActiveUser (d : Desktop) (user : Nat) : Desktop :=
  { d with impl := { d.impl with activeUser := some user } }

def setActiveXDisplay (d : Desktop) (display : String) : Desktop :=
  { d with impl := { d.impl with activeXDisplay := some display } }

def setPolling (d : Desktop) (polling : Option Polling) : Desktop := { d with polling := polling }

/-- `SessionMonitor::poll` down to the user. -/
def pollUser (d : Desktop) (found : Found) (localScreen : LocalScreen) : Desktop :=
  let d := d.take found
  if d.impl.activeUser ≠ some found.user then
    (d.setActiveUser found.user).setRunAsUid dirs (toString found.user) localScreen
  else d

/-- And the display. -/
def pollDisplay (d : Desktop) (found : Found) (localScreen : LocalScreen) : Desktop :=
  let d := d.setPolling none
  if d.impl.activeXDisplay ≠ some found.display then
    (d.setActiveXDisplay found.display).setDisplay dirs found.display localScreen
  else d

/-- What happens, without the record of it. -/
def react (d : Desktop) : Event → Option Desktop
  | .startServer localScreen => some (d.startServer dirs localScreen)
  | .startClient serverId localScreen => some (d.startClient dirs serverId localScreen)
  | .setRunAsUid runAsUid localScreen => some (d.setRunAsUid dirs runAsUid localScreen)
  | .poll sessions ttyDisplay localScreen =>
    if d.polling.isSome then none
    else
      match found sessions ttyDisplay with
      | none => some d
      | some found => some (d.pollUser dirs found localScreen)
  | .proceed localScreen =>
    match d.polling with
    | none => none
    | some polling =>
      if d.process.calls.length = polling.depth then
        some (d.pollDisplay dirs polling.found localScreen)
      else none
  | .core ev =>
    if ev.Internal then (d.process.step ev).map fun process => { d with process := process }
    else none

/-- The session that a core ought to be for, between the polls. -/
def session (d : Desktop) : Option Found := if d.polling.isSome then none else d.last

/-- Record the launches that `d` has seen since `before`. -/
def record (before d : Desktop) : Desktop :=
  { d with
    cores := before.cores ++ (d.process.launches.drop before.process.launches.length).map fun x =>
      ⟨x.1, d.process.processMode, d.session⟩ }

def step (d : Desktop) (ev : Event) : Option Desktop := (d.react dirs ev).map d.record

end

/-! ## What it takes -/

def exitPolls : CoreProcessCall → Bool
  | .exit _ => true
  | .shutdown .. => false

/-- Nothing waits that a start request would not take back. -/
def Settled (s : CoreProcess) : Prop :=
  s.expired = [] ∧ (s.impl = none → s.nextCommand = none) ∧
    (s.lastCommand = none ∨ ∀ call ∈ s.calls, exitPolls call = false)

instance (s : CoreProcess) : Decidable (Settled s) := inferInstanceAs (Decidable (_ ∧ _ ∧ _))

/-- The local screen is in the profile, and has a name. -/
def Named (localScreen : LocalScreen) : Prop := localScreen.name.getD "" ≠ ""

instance (localScreen : LocalScreen) : Decidable (Named localScreen) :=
  inferInstanceAs (Decidable (_ ≠ _))

instance : DecidablePred CoreProcess.Event.Succeeds
  | .startServer _ _ fault | .startClient _ _ fault => inferInstanceAs (Decidable (fault = none))
  | .exitHandler _ fault | .retry fault => inferInstanceAs (Decidable (fault = none))
  | .setDisabled disabled => inferInstanceAs (Decidable (disabled = false))
  | .throws => inferInstanceAs (Decidable False)
  | .shutdown | .exits _ | .expires | .returns => inferInstanceAs (Decidable True)

/-- A start request finds its screen, the user interface is run by the user of the session, and in
the core nothing throws. -/
def Succeeds (d : Desktop) : Event → Prop
  | .startServer localScreen | .startClient _ localScreen | .poll _ _ localScreen
  | .proceed localScreen => Named localScreen
  | .setRunAsUid runAsUid localScreen =>
    Named localScreen ∧ ∀ found ∈ d.last, runAsUid = toString found.user
  | .core ev => ev.Succeeds

instance (d : Desktop) : (ev : Event) → Decidable (d.Succeeds ev)
  | .startServer localScreen | .startClient _ localScreen | .poll _ _ localScreen
  | .proceed localScreen => inferInstanceAs (Decidable (Named localScreen))
  | .setRunAsUid _ localScreen =>
    inferInstanceAs (Decidable (Named localScreen ∧ ∀ found ∈ d.last, _ = toString found.user))
  | .core ev => inferInstanceAs (Decidable ev.Succeeds)

section

variable (dirs : Directories)

/-- What asks for another command than the last comes where the last one is settled. -/
def Timely (d : Desktop) (ev : Event) : Prop :=
  ∀ d' ∈ d.react dirs ev, d'.process.requested ≠ d.process.requested → Settled d.process

instance (d : Desktop) (ev : Event) : Decidable (d.Timely dirs ev) :=
  inferInstanceAs (Decidable (∀ d' ∈ d.react dirs ev, _))

/-! ## What holds in every state -/

/-- Whatever may yet be launched is for the command line as it is now. -/
structure Requested (d : Desktop) : Prop where
  current : CoreProcess.Current d.process
  unknown : d.process.requested = none ↔ d.process.processMode = .kUnknown
  generated : ∀ command, d.process.requested = some command →
    ∃ name, d.processCommand.generate dirs (decide (d.process.processMode = .kServer)) name =
      some command

/-- The command line is that of the session. -/
structure Follows (d : Desktop) : Prop where
  user : d.impl.activeUser = d.last.map fun found => found.user
  uid : ∀ user, d.impl.activeUser = some user → d.processCommand.runAsUid = toString user
  display : ∀ display, d.impl.activeXDisplay = some display → d.processCommand.display = display
  polling : ∀ polling, d.polling = some polling → d.last = some polling.found
  polled : d.polling = none →
    ∀ found, d.last = some found → d.impl.activeXDisplay = some found.display

/-- A core runs as the user of its session, and on its display. -/
def Belongs (core : LaunchedCore) : Prop :=
  ∀ found, core.session = some found → ∃ name,
    ProcessCommand.generate dirs ⟨toString found.user, found.display⟩
      (decide (core.processMode = .kServer)) name = some core.command

variable {dirs} {d d' : Desktop} {mode : ProcessMode} {serverId : Int} {localScreen : LocalScreen}

theorem not_outlasts (h : Settled d.process) (other : Command) : ¬d.process.Outlasts other := by
  obtain ⟨hexpired, hnext, hlast⟩ := h
  rintro (hmem | ⟨hempty, hparked⟩ | ⟨hsome, id, hmem⟩)
  · rw [hexpired] at hmem
    exact absurd hmem List.not_mem_nil
  · rw [hnext hempty] at hparked
    exact absurd hparked (by simp)
  · rcases hlast with hnone | hcalls
    · rw [hnone] at hsome
      exact absurd hsome (by simp)
    · exact absurd (hcalls _ hmem) (by simp [exitPolls])

theorem exists_command (dirs : Directories) (h : Named localScreen) (d : Desktop)
    (mode : ProcessMode) :
    ∃ command, d.command dirs mode localScreen = some command ∧
      ∃ name, d.processCommand.generate dirs (decide (mode = .kServer)) name = some command := by
  unfold Named at h
  unfold Desktop.command
  cases hname : localScreen.name with
  | none => exact absurd (by rw [hname]; rfl) h
  | some name =>
    rw [hname, Option.getD_some] at h
    have hsome : (d.processCommand.generate dirs (decide (mode = .kServer)) name).isSome := by
      unfold ProcessCommand.generate
      rw [if_neg h]
      rfl
    obtain ⟨command, hcommand⟩ := Option.isSome_iff_exists.mp hsome
    exact ⟨command, hcommand, name, hcommand⟩

/-- The launches of a step, and that they are of what is requested behind it. -/
def Launches (d d' : Desktop) : Prop :=
  ∀ launch ∈ d'.process.launches.drop d.process.launches.length,
    launch ∈ d'.process.launches ∧ launch.2 = d'.process.requested

theorem launches_of_eq (h : d'.process = d.process) : Launches d d' := by
  intro launch hlaunch
  rw [h, List.drop_length] at hlaunch
  exact absurd hlaunch List.not_mem_nil

/-- A start request, whatever the command line was before. -/
theorem requested_startIn (hcurrent : CoreProcess.Current d.process) (hnamed : Named localScreen)
    (hsettled : (d.startIn dirs mode serverId localScreen).process.requested ≠
      d.process.requested → Settled d.process) (hmode : mode ≠ .kUnknown) :
    Requested dirs (d.startIn dirs mode serverId localScreen) ∧
      Launches d (d.startIn dirs mode serverId localScreen) := by
  obtain ⟨command, hcommand, hgenerated⟩ := exists_command dirs hnamed d mode
  have hprocess : (d.startIn dirs mode serverId localScreen).process =
      d.process.startIn mode serverId command none := by
    unfold startIn
    rw [hcommand]
  have hlaunches := CoreProcess.LaunchesRequested.startIn hcurrent.enabled mode serverId command
  have hrequested :
      (d.startIn dirs mode serverId localScreen).process.requested = some command := by
    rw [hprocess]
    exact hlaunches.requested
  have hrole := CoreProcess.role_startIn (s := d.process) mode serverId command none
  rw [if_neg (by simp [hcurrent.enabled]), ← hprocess] at hrole
  have hkind : (d.startIn dirs mode serverId localScreen).process.processMode = mode :=
    congrArg CoreProcess.Role.processMode hrole
  -- what outlasts the request is what it asks for
  have houtlasts : ∀ other, d.process.Outlasts other → other = command := by
    intro other hother
    by_cases hsame : d.process.requested = some command
    · exact Option.some.inj ((hcurrent.outlasting hother).symm.trans hsame)
    · rw [hrequested] at hsettled
      exact absurd hother (not_outlasts (hsettled (Ne.symm hsame)) other)
  refine ⟨⟨?_, ?_, ?_⟩, fun launch hlaunch => ?_⟩
  · rw [hprocess]
    exact hcurrent.startIn houtlasts mode serverId
  · rw [hrequested, hkind]
    simp [hmode]
  · intro other hother
    rw [hrequested] at hother
    cases hother
    rw [hkind]
    exact hgenerated
  · rw [hprocess] at hlaunch ⊢
    exact hlaunches.mem_drop hlaunch

theorem requested_restart (hcurrent : CoreProcess.Current d.process)
    (hunknown : d.process.requested = none ↔ d.process.processMode = .kUnknown)
    (hnamed : Named localScreen)
    (hsettled : (d.restart dirs localScreen).process.requested ≠ d.process.requested →
      Settled d.process) :
    Requested dirs (d.restart dirs localScreen) ∧ Launches d (d.restart dirs localScreen) := by
  unfold restart at hsettled ⊢
  cases hmode : d.process.processMode with
  | kUnknown =>
    refine ⟨⟨hcurrent, hunknown, fun command hcommand => ?_⟩, launches_of_eq rfl⟩
    rw [hunknown.mpr hmode] at hcommand
    exact absurd hcommand (by simp)
  | kServer =>
    simp only [hmode] at hsettled
    exact requested_startIn hcurrent hnamed hsettled (by simp)
  | kClient =>
    simp only [hmode] at hsettled
    exact requested_startIn hcurrent hnamed hsettled (by simp)

/-- A setter that changes nothing leaves the command line as it is. -/
theorem requested_setCommand {set : Bool × ProcessCommand} (h : Requested dirs d)
    (hsame : set.1 = false → set.2 = d.processCommand) (hnamed : Named localScreen)
    (hsettled : (d.setCommand dirs set localScreen).process.requested ≠ d.process.requested →
      Settled d.process) :
    Requested dirs (d.setCommand dirs set localScreen) ∧
      Launches d (d.setCommand dirs set localScreen) := by
  unfold setCommand at hsettled ⊢
  cases hset : set.1 with
  | false =>
    rw [hsame hset]
    exact ⟨h, launches_of_eq rfl⟩
  | true =>
    simp only [hset, if_true] at hsettled
    exact requested_restart (d := { d with processCommand := set.2 }) h.current h.unknown hnamed
      hsettled

theorem setRunAsUid_same {c : ProcessCommand} {runAsUid : String}
    (h : (c.setRunAsUid runAsUid).1 = false) : (c.setRunAsUid runAsUid).2 = c := by
  have heq : c.runAsUid = runAsUid := by simpa [ProcessCommand.setRunAsUid] using h
  rw [← heq]
  rfl

theorem setDisplay_same {c : ProcessCommand} {display : String}
    (h : (c.setDisplay display).1 = false) : (c.setDisplay display).2 = c := by
  have heq : c.display = display := by simpa [ProcessCommand.setDisplay] using h
  rw [← heq]
  rfl

/-! Only the process is started. -/

theorem restart_eq (d : Desktop) (localScreen : LocalScreen) :
    ∃ process, d.restart dirs localScreen = { d with process := process } := by
  unfold restart
  split
  · exact ⟨_, rfl⟩
  · exact ⟨_, rfl⟩
  · exact ⟨_, rfl⟩

theorem setCommand_eq (dirs : Directories) (d : Desktop) (set : Bool × ProcessCommand)
    (localScreen : LocalScreen) :
    ∃ process, d.setCommand dirs set localScreen =
      { d with processCommand := set.2, process := process } := by
  unfold setCommand
  dsimp only
  split
  · exact restart_eq _ localScreen
  · exact ⟨_, rfl⟩

theorem Follows.process (h : Follows d) (process : CoreProcess) :
    Follows { d with process := process } := ⟨h.user, h.uid, h.display, h.polling, h.polled⟩

theorem Follows.setCommand {set : Bool × ProcessCommand}
    (h : Follows { d with processCommand := set.2 }) (localScreen : LocalScreen) :
    Follows (d.setCommand dirs set localScreen) := by
  obtain ⟨process, heq⟩ := setCommand_eq dirs d set localScreen
  rw [heq]
  exact h.process process

/-- The parts that have nothing to do with a session. -/
theorem Requested.congr (h : Requested dirs d) (hprocess : d'.process = d.process)
    (hcommand : d'.processCommand = d.processCommand) : Requested dirs d' := by
  refine ⟨?_, ?_, ?_⟩
  · rw [hprocess]
    exact h.current
  · rw [hprocess]
    exact h.unknown
  · rw [hprocess, hcommand]
    exact h.generated

/-! ## One event -/

/-- Both halves are kept. -/
structure Tied (dirs : Directories) (d : Desktop) : Prop where
  requested : Requested dirs d
  follows : Follows d

theorem tied_startIn (h : Tied dirs d) (hnamed : Named localScreen)
    (hsettled : (d.startIn dirs mode serverId localScreen).process.requested ≠
      d.process.requested → Settled d.process) (hmode : mode ≠ .kUnknown) :
    Tied dirs (d.startIn dirs mode serverId localScreen) ∧
      Launches d (d.startIn dirs mode serverId localScreen) := by
  obtain ⟨hrequested, hlaunches⟩ :=
    requested_startIn h.requested.current hnamed hsettled hmode
  exact ⟨⟨hrequested, h.follows.process _⟩, hlaunches⟩

theorem tied_setRunAsUid {runAsUid : String} (h : Tied dirs d) (hnamed : Named localScreen)
    (huser : ∀ found ∈ d.last, runAsUid = toString found.user)
    (hsettled : (d.setRunAsUid dirs runAsUid localScreen).process.requested ≠
      d.process.requested → Settled d.process) :
    Tied dirs (d.setRunAsUid dirs runAsUid localScreen) ∧
      Launches d (d.setRunAsUid dirs runAsUid localScreen) := by
  obtain ⟨hrequested, hlaunches⟩ :=
    requested_setCommand h.requested setRunAsUid_same hnamed hsettled
  refine ⟨⟨hrequested, Follows.setCommand ?_ localScreen⟩, hlaunches⟩
  exact
    { user := h.follows.user
      uid := by
        intro user hactive
        obtain ⟨found, hfound, rfl⟩ := Option.map_eq_some_iff.mp (h.follows.user.symm.trans hactive)
        exact huser found hfound
      display := h.follows.display
      polling := h.follows.polling
      polled := h.follows.polled }

theorem tied_pollUser {found : Found} (h : Tied dirs d) (hnamed : Named localScreen)
    (hsettled : (d.pollUser dirs found localScreen).process.requested ≠
      d.process.requested → Settled d.process) :
    Tied dirs (d.pollUser dirs found localScreen) ∧
      Launches d (d.pollUser dirs found localScreen) := by
  unfold pollUser at hsettled ⊢
  by_cases hsame : (d.take found).impl.activeUser = some found.user
  · rw [if_neg (not_not.mpr hsame)]
    refine ⟨⟨h.requested.congr rfl rfl, ?_⟩, launches_of_eq rfl⟩
    exact
      { user := hsame
        uid := h.follows.uid
        display := h.follows.display
        polling := fun _ hpolling => by cases hpolling; rfl
        polled := fun hnone => absurd hnone (by simp [take]) }
  · rw [if_pos hsame] at hsettled ⊢
    obtain ⟨hrequested, hlaunches⟩ := requested_setCommand
      (d := (d.take found).setActiveUser found.user) (h.requested.congr rfl rfl)
      setRunAsUid_same hnamed hsettled
    refine ⟨⟨hrequested, Follows.setCommand ?_ localScreen⟩, hlaunches⟩
    exact
      { user := rfl
        uid := fun user hactive => by cases hactive; rfl
        display := h.follows.display
        polling := fun _ hpolling => by cases hpolling; rfl
        polled := fun hnone => absurd hnone (by simp [take, setActiveUser]) }

theorem tied_pollDisplay {polling : Polling} (h : Tied dirs d) (hpolling : d.polling = some polling)
    (hnamed : Named localScreen)
    (hsettled : (d.pollDisplay dirs polling.found localScreen).process.requested ≠
      d.process.requested → Settled d.process) :
    Tied dirs (d.pollDisplay dirs polling.found localScreen) ∧
      Launches d (d.pollDisplay dirs polling.found localScreen) := by
  have hlast := h.follows.polling polling hpolling
  unfold pollDisplay at hsettled ⊢
  by_cases hsame : (d.setPolling none).impl.activeXDisplay = some polling.found.display
  · rw [if_neg (not_not.mpr hsame)]
    refine ⟨⟨h.requested.congr rfl rfl, ?_⟩, launches_of_eq rfl⟩
    exact
      { user := h.follows.user
        uid := h.follows.uid
        display := h.follows.display
        polling := fun _ hnone => absurd hnone (by simp [setPolling])
        polled := fun _ found hfound => by
          cases hlast.symm.trans hfound
          exact hsame }
  · rw [if_pos hsame] at hsettled ⊢
    obtain ⟨hrequested, hlaunches⟩ := requested_setCommand
      (d := (d.setPolling none).setActiveXDisplay polling.found.display)
      (h.requested.congr rfl rfl) setDisplay_same hnamed hsettled
    refine ⟨⟨hrequested, Follows.setCommand ?_ localScreen⟩, hlaunches⟩
    exact
      { user := h.follows.user
        uid := h.follows.uid
        display := fun display hactive => by cases hactive; rfl
        polling := fun _ hnone => absurd hnone (by simp [setPolling, setActiveXDisplay])
        polled := fun _ found hfound => by
          cases hlast.symm.trans hfound
          rfl }

theorem tied_core {ev : CoreProcess.Event} {process : CoreProcess} (h : Tied dirs d)
    (hinternal : ev.Internal) (hsucceeds : ev.Succeeds) (hstep : d.process.step ev = some process) :
    Tied dirs { d with process := process } ∧ Launches d { d with process := process } := by
  have hlaunches := CoreProcess.LaunchesRequested.step hinternal hstep
  have hmode : process.processMode = d.process.processMode :=
    congrArg CoreProcess.Role.processMode (CoreProcess.role_step hinternal hstep)
  have hsupersedes : d.process.Supersedes ev := by
    intro command hcommand
    cases ev with
    | startServer screenId command fault => exact hinternal.elim
    | startClient serverId command fault => exact hinternal.elim
    | _ => exact absurd hcommand (by simp [CoreProcess.Event.command])
  refine ⟨⟨⟨h.requested.current.step ⟨hsucceeds, hsupersedes⟩ hstep, ?_, ?_⟩,
    h.follows.process process⟩, fun launch hlaunch => hlaunches.mem_drop hlaunch⟩
  · show process.requested = none ↔ process.processMode = .kUnknown
    rw [hlaunches.requested, hmode]
    exact h.requested.unknown
  · intro command hcommand
    show ∃ name, d.processCommand.generate dirs (decide (process.processMode = .kServer)) name = _
    rw [hmode]
    exact h.requested.generated command (hlaunches.requested ▸ hcommand)

theorem tied_react {ev : Event} (h : Tied dirs d) (hok : d.Succeeds ev ∧ d.Timely dirs ev)
    (hreact : d.react dirs ev = some d') : Tied dirs d' ∧ Launches d d' := by
  obtain ⟨hsucceeds, htimely⟩ := hok
  have hsettled := htimely d' hreact
  cases ev with
  | startServer localScreen =>
    cases hreact
    exact tied_startIn h hsucceeds hsettled (by simp)
  | startClient serverId localScreen =>
    cases hreact
    exact tied_startIn h hsucceeds hsettled (by simp)
  | setRunAsUid runAsUid localScreen =>
    cases hreact
    exact tied_setRunAsUid h hsucceeds.1 hsucceeds.2 hsettled
  | poll sessions ttyDisplay localScreen =>
    unfold react at hreact
    obtain ⟨-, hreact⟩ := Option.ite_none_left_eq_some.mp hreact
    split at hreact
    · cases hreact
      exact ⟨h, launches_of_eq rfl⟩
    · cases hreact
      exact tied_pollUser h hsucceeds hsettled
  | proceed localScreen =>
    cases hpolling : d.polling with
    | none => exact absurd hreact (by simp [react, hpolling])
    | some polling =>
      simp only [react, hpolling] at hreact
      obtain ⟨-, hreact⟩ := Option.ite_none_right_eq_some.mp hreact
      cases hreact
      exact tied_pollDisplay h hpolling hsucceeds hsettled
  | core ev =>
    obtain ⟨hinternal, hreact⟩ := Option.ite_none_right_eq_some.mp hreact
    obtain ⟨process, hstep, rfl⟩ := Option.map_eq_some_iff.mp hreact
    exact tied_core h hinternal hsucceeds hstep

/-! ## Runs -/

/-- Between the polls the command line is that of the session found last. -/
theorem Tied.command_eq (h : Tied dirs d) {found : Found} (hsession : d.session = some found) :
    d.processCommand = ⟨toString found.user, found.display⟩ := by
  unfold Desktop.session at hsession
  obtain ⟨hpolling, hlast⟩ := Option.ite_none_left_eq_some.mp hsession
  have hnone : d.polling = none := by simpa using hpolling
  have huser : d.impl.activeUser = some found.user := by
    rw [h.follows.user, hlast]
    rfl
  have huid := h.follows.uid _ huser
  have hdisplay := h.follows.display _ (h.follows.polled hnone found hlast)
  rw [← huid, ← hdisplay]

/-- What is launched in a step belongs to the session. -/
theorem cores_step {ev : Event} (h : Tied dirs d) (hcores : ∀ core ∈ d.cores, Belongs dirs core)
    (hok : d.Succeeds ev ∧ d.Timely dirs ev) (hstep : d.step dirs ev = some d') :
    Tied dirs d' ∧ ∀ core ∈ d'.cores, Belongs dirs core := by
  obtain ⟨d'', hreact, rfl⟩ := Option.map_eq_some_iff.mp hstep
  obtain ⟨htied, hlaunches⟩ := tied_react h hok hreact
  refine ⟨⟨htied.requested.congr rfl rfl, ?_⟩, fun core hcore => ?_⟩
  · exact
      { user := htied.follows.user
        uid := htied.follows.uid
        display := htied.follows.display
        polling := htied.follows.polling
        polled := htied.follows.polled }
  · rcases List.mem_append.mp hcore with hcore | hcore
    · exact hcores core hcore
    · obtain ⟨launch, hlaunch, rfl⟩ := List.mem_map.mp hcore
      obtain ⟨hmem, hrequested⟩ := hlaunches launch hlaunch
      intro found hsession
      rw [htied.requested.current.launches launch hmem] at hrequested
      rw [← htied.command_eq hsession]
      exact htied.requested.generated launch.1 hrequested.symm

/-- **A core runs as the user of the active session, and on its display.** Whatever the sessions do,
and whenever cores are asked for, crash and are tried again: a core that is launched between two
polls has been given the user and the display that the last poll found, and so has the one that was
asked for last. The user interface must be run by that user, nothing may throw, and another command
may only be asked for where no retry of the old one is under way. -/
theorem cores_belong {processCommand : ProcessCommand}
    (hrun : Run (step dirs) (fun d ev => d.Succeeds ev ∧ d.Timely dirs ev)
      { processCommand := processCommand } d) :
    (∀ core ∈ d.cores, Belongs dirs core) ∧
      ∀ found, d.session = some found → ∀ command, d.process.requested = some command →
        ∃ name, ProcessCommand.generate dirs ⟨toString found.user, found.display⟩
          (decide (d.process.processMode = .kServer)) name = some command := by
  have hinit : Tied dirs { processCommand := processCommand } ∧
      ∀ core ∈ ({ processCommand := processCommand } : Desktop).cores, Belongs dirs core := by
    refine ⟨⟨⟨CoreProcess.Current.initial, by simp, by simp⟩, ?_⟩, by simp⟩
    exact
      { user := rfl
        uid := fun _ hnone => absurd hnone (by simp)
        display := fun _ hnone => absurd hnone (by simp)
        polling := fun _ hnone => absurd hnone (by simp)
        polled := fun _ _ hnone => absurd hnone (by simp) }
  obtain ⟨htied, hcores⟩ : Tied dirs d ∧ ∀ core ∈ d.cores, Belongs dirs core :=
    hrun.invariant hinit fun _ _ _ _ h hok hstep => cores_step h.1 h.2 hok hstep
  refine ⟨hcores, fun found hsession command hcommand => ?_⟩
  rw [← htied.command_eq hsession]
  exact htied.requested.generated command hcommand

end

/-! ## A session is switched -/

def linux : Directories := ⟨"/usr/bin", "/var/lib/synergy", "/var/log/synergy"⟩

def desk : LocalScreen := ⟨3, some "desk"⟩

/-- The greeter has gone, and a user is logged in on the second display. -/
def loggedIn : List Login :=
  [⟨"c1", 0, some "x11", some "greeter", some 112, some ":0"⟩,
    ⟨"2", 1, some "x11", some "user", some 1000, some ":1"⟩]

/-- A client is started, the user logs in, and the client crashes once. -/
def login : List Event :=
  [.startClient 7 desk, .poll loggedIn none desk, .core .returns, .core (.exits 0),
    .core (.exitHandler 0 none), .proceed desk, .core .returns, .core (.exits 1),
    .core (.exitHandler 1 none), .core (.exits 2), .core (.exitHandler 2 none), .core .returns,
    .core .expires, .core (.retry none)]

theorem cores_belong_login :
    (∀ core ∈ (execs (step linux) {} login).cores, Belongs linux core) ∧
      ∀ found, (execs (step linux) {} login).session = some found →
        ∀ command, (execs (step linux) {} login).process.requested = some command →
          ∃ name, ProcessCommand.generate linux ⟨toString found.user, found.display⟩
            (decide ((execs (step linux) {} login).process.processMode = .kServer)) name =
              some command :=
  cores_belong (Run.nil.execs (by decide +kernel))

end Desktop

end Synergy
