import Synergy.Lib.Run
import Synergy.Proxy.ServerProxy

/-!
# The core process and its supervisor

`CoreProcess`, which starts and restarts the core, and `CoreProcessImpl`, which holds one child
process. Everything runs on one `io_service`, so a handler runs to its end, except where it polls
that `io_service` itself: `CoreProcessImpl::shutdown` does before it terminates the child, and the
exit handler of a child that was not told to exit does before it emits `unexpectedExit`. Meanwhile
any handler may run, and the calls that wait so are a stack.

A child exits in one event, which queues its exit handler, and the handler runs in another. So does
the retry timer: it expires in one event, and `cancel` is too late for the completion that is queued
then. A completion that was cancelled in time does nothing, and is left out.

What may throw is said by the event: the command of a start request, a slot of
`screenStatusChanged`, or the creation of the child. What C++ leaves undefined, the use of an object
that was released or of a child that was never created, is recorded as a `Misuse`, and the model
goes on as if that use had no effect.
-/

set_option autoImplicit false

namespace Synergy

open Lib
open ServerProxy (ProcessMode)

/-- A command line, which has a program at least. -/
structure Command where
  program : String
  arguments : List String
  deriving DecidableEq

/-- Where a child that was created is: running, its exit handler queued, in it, or behind it. -/
inductive ChildStatus where
  | running
  | exited
  | handling
  | handled
  deriving DecidableEq

/-- A child process, with the id of the `CoreProcessImpl` that created it. -/
structure Child where
  id : Nat
  command : Command
  status : ChildStatus
  deriving DecidableEq

structure CoreProcessImpl where
  id : Nat
  command : Command
  /-- There is an `m_process`. -/
  launched : Bool
  expectingExit : Bool
  deriving DecidableEq

/-- A call that waits in its poll. -/
inductive CoreProcessCall where
  /-- `CoreProcessImpl::shutdown`, within the `try` of a start request or not. -/
  | shutdown (id : Nat) (guarded : Bool)
  /-- The exit handler of a child that was not told to exit. -/
  | exit (id : Nat)
  deriving DecidableEq

/-- Where a launch throws. -/
inductive LaunchFault where
  | slot
  | creation
  deriving DecidableEq

/-- Where a start request throws: while it makes up the command, or in the launch. -/
inductive StartFault where
  | command
  | launch (fault : LaunchFault)
  deriving DecidableEq

/-- One `m_impl.reset ()` that found an object. -/
structure Release where
  id : Nat
  launched : Bool
  /-- The child whose exit handler it was in, if any. -/
  handler : Option Nat
  /-- `shutdown` of the object was still running. -/
  busy : Bool
  deriving DecidableEq

inductive Misuse where
  | released (id : Nat)
  | neverCreated (id : Nat)
  deriving DecidableEq

structure CoreProcess where
  impl : Option CoreProcessImpl := none
  processMode : ProcessMode := .kUnknown
  currentServerId : Int := -1
  /-- The two commands, where an empty vector is none. -/
  nextCommand : Option Command := none
  lastCommand : Option Command := none
  disabled : Bool := false
  /-- The command of the retry timer while it is armed. -/
  retryTimer : Option Command := none
  /-- Those of its completions that are queued. -/
  expired : List Command := []
  /-- Innermost first. -/
  calls : List CoreProcessCall := []
  nextId : Nat := 0
  /-- Every child there ever was. -/
  children : List Child := []
  /-- The command of the last start request. -/
  requested : Option Command := none
  /-- Every launch, with the command that was requested at that moment. -/
  launches : List (Command × Option Command) := []
  /-- The objects whose launch threw. -/
  failures : List Nat := []
  releases : List Release := []
  misuses : List Misuse := []
  deriving DecidableEq

namespace CoreProcess

inductive Event where
  | startServer (screenId : Int) (command : Command) (fault : Option StartFault)
  | startClient (serverId : Int) (command : Command) (fault : Option StartFault)
  | shutdown
  | setDisabled (disabled : Bool)
  /-- A child exits. -/
  | exits (id : Nat)
  /-- Its exit handler runs, with what a launch in it would throw. -/
  | exitHandler (id : Nat) (fault : Option LaunchFault)
  /-- The retry timer expires. -/
  | expires
  /-- Its completion runs. -/
  | retry (fault : Option LaunchFault)
  /-- The innermost poll returns, or a handler in it throws. -/
  | returns
  | throws
  deriving DecidableEq

/-- The conversion to `int`. -/
def toInt (n : Int) : Int := n.bmod (2 ^ 32)

/-- `shutdown` of that object is running. -/
def InShutdown (s : CoreProcess) (id : Nat) : Prop :=
  .shutdown id true ∈ s.calls ∨ .shutdown id false ∈ s.calls

instance (s : CoreProcess) (id : Nat) : Decidable (s.InShutdown id) :=
  inferInstanceAs (Decidable (_ ∨ _))

/-- `m_impl.reset ()`. -/
def release (s : CoreProcess) (handler : Option Nat) : CoreProcess :=
  match s.impl with
  | none => s
  | some impl =>
    { s with
      impl := none
      releases := s.releases ++ [⟨impl.id, impl.launched, handler, s.InShutdown impl.id⟩] }

def misuse (s : CoreProcess) (m : Misuse) : CoreProcess := { s with misuses := s.misuses ++ [m] }

/-- `CoreProcessImpl::shutdown` up to its poll. -/
def expectExit (s : CoreProcess) (impl : CoreProcessImpl) (guarded : Bool) : CoreProcess :=
  { s with
    impl := some { impl with expectingExit := true }
    calls := .shutdown impl.id guarded :: s.calls }

/-- `CoreProcess::shutdown`. -/
def shutdown (s : CoreProcess) (guarded : Bool) : CoreProcess :=
  match s.impl with
  | none => s
  | some impl => if impl.expectingExit then s else s.expectExit impl guarded

/-- The rest of `CoreProcessImpl::shutdown`. A terminated child's exit is an event of its own. -/
def terminate (s : CoreProcess) (id : Nat) : CoreProcess :=
  match s.impl with
  | none => s.misuse (.released id)
  | some impl =>
    if impl.id ≠ id then s.misuse (.released id)
    else if impl.launched then s
    else s.misuse (.neverCreated id)

/-- `m_retryTimer.cancel ()`. -/
def cancelRetry (s : CoreProcess) : CoreProcess := { s with retryTimer := none }

def park (s : CoreProcess) (command : Command) : CoreProcess :=
  { s with nextCommand := some command }

/-- The end of a launch, with the child created. -/
def launch (s : CoreProcess) (command : Command) : CoreProcess :=
  { s with
    lastCommand := some command
    impl := some { id := s.nextId, command := command, launched := true, expectingExit := false }
    nextId := s.nextId + 1
    children := s.children ++ [⟨s.nextId, command, .running⟩]
    launches := s.launches ++ [(command, s.requested)] }

/-- A launch that throws, once `m_impl` is set. -/
def failLaunch (s : CoreProcess) (command : Command) : CoreProcess :=
  { s with
    lastCommand := some command
    impl := some { id := s.nextId, command := command, launched := false, expectingExit := false }
    nextId := s.nextId + 1
    failures := s.failures ++ [s.nextId] }

/-- `CoreProcess::start`. -/
def start (s : CoreProcess) (command : Command) (guarded : Bool) (fault : Option LaunchFault) :
    CoreProcess :=
  if s.disabled then s
  else
    match s.impl with
    | some _ => (s.cancelRetry.park command).shutdown guarded
    | none =>
      match fault with
      | none => s.cancelRetry.launch command
      | some _ => s.cancelRetry.failLaunch command

/-- Whether `start` throws. -/
def Throws (s : CoreProcess) (fault : Option LaunchFault) : Prop :=
  s.disabled = false ∧ s.impl = none ∧ fault.isSome

instance (s : CoreProcess) (fault : Option LaunchFault) : Decidable (s.Throws fault) :=
  inferInstanceAs (Decidable (_ ∧ _ ∧ _))

def setRequested (s : CoreProcess) (command : Command) : CoreProcess :=
  { s with requested := some command }

def setMode (s : CoreProcess) (mode : ProcessMode) (serverId : Int) : CoreProcess :=
  { s with processMode := mode, currentServerId := serverId }

/-- A start request once it has its command. -/
def tryStart (s : CoreProcess) (command : Command) (fault : Option LaunchFault) : CoreProcess :=
  if s.Throws fault then ((s.setRequested command).start command true fault).release none
  else (s.setRequested command).start command true fault

/-- What `startServer` and `startClient` have in common: an exception resets `m_impl`. -/
def startIn (s : CoreProcess) (mode : ProcessMode) (serverId : Int) (command : Command)
    (fault : Option StartFault) : CoreProcess :=
  if s.disabled then s
  else
    match fault with
    | some .command => (s.setMode mode serverId).release none
    | some (.launch fault) => (s.setMode mode serverId).tryStart command (some fault)
    | none => (s.setMode mode serverId).tryStart command none

def startServer (s : CoreProcess) (screenId : Int) : Command → Option StartFault → CoreProcess :=
  s.startIn .kServer (toInt screenId)

def startClient (s : CoreProcess) (serverId : Int) : Command → Option StartFault → CoreProcess :=
  s.startIn .kClient (toInt serverId)

def setStatus (s : CoreProcess) (id : Nat) (status : ChildStatus) : CoreProcess :=
  { s with
    children := s.children.map fun child =>
      if child.id = id then { child with status := status } else child }

def HasStatus (s : CoreProcess) (id : Nat) (status : ChildStatus) : Prop :=
  ∃ child ∈ s.children, child.id = id ∧ child.status = status

instance (s : CoreProcess) (id : Nat) (status : ChildStatus) : Decidable (s.HasStatus id status) :=
  inferInstanceAs (Decidable (∃ child ∈ s.children, _))

/-- The slot of `expectedExit`. -/
def expectedExit (s : CoreProcess) (id : Nat) (fault : Option LaunchFault) : CoreProcess :=
  match s.nextCommand with
  | none => s.release (some id)
  | some command => { s.release (some id) with nextCommand := none }.start command false fault

/-- The slot of `unexpectedExit`. -/
def unexpectedExit (s : CoreProcess) (id : Nat) : CoreProcess :=
  match s.lastCommand with
  | none => s.release (some id)
  | some command => { s.release (some id) with lastCommand := none, retryTimer := some command }

/-- The exit handler of a child, up to its poll where it polls. -/
def onExit (s : CoreProcess) (id : Nat) (fault : Option LaunchFault) : CoreProcess :=
  match s.impl with
  | none => (s.setStatus id .handled).misuse (.released id)
  | some impl =>
    if impl.id ≠ id then (s.setStatus id .handled).misuse (.released id)
    else if impl.expectingExit then (s.setStatus id .handled).expectedExit id fault
    else { s.setStatus id .handling with calls := .exit id :: s.calls }

/-- The rest of the exit handler. -/
def afterExit (s : CoreProcess) (id : Nat) : CoreProcess :=
  match s.impl with
  | none => (s.setStatus id .handled).misuse (.released id)
  | some impl =>
    if impl.id ≠ id then (s.setStatus id .handled).misuse (.released id)
    else (s.setStatus id .handled).unexpectedExit id

def setCalls (s : CoreProcess) (calls : List CoreProcessCall) : CoreProcess :=
  { s with calls := calls }

def setExpired (s : CoreProcess) (expired : List Command) : CoreProcess :=
  { s with expired := expired }

def step (s : CoreProcess) : Event → Option CoreProcess
  | .startServer screenId command fault => some (s.startServer screenId command fault)
  | .startClient serverId command fault => some (s.startClient serverId command fault)
  | .shutdown => some (s.shutdown false)
  | .setDisabled disabled => some { s with disabled := disabled }
  | .exits id => if s.HasStatus id .running then some (s.setStatus id .exited) else none
  | .exitHandler id fault => if s.HasStatus id .exited then some (s.onExit id fault) else none
  | .expires =>
    match s.retryTimer with
    | none => none
    | some command => some (s.cancelRetry.setExpired (s.expired ++ [command]))
  | .retry fault =>
    match s.expired with
    | [] => none
    | command :: expired => some ((s.setExpired expired).start command false fault)
  | .returns =>
    match s.calls with
    | [] => none
    | .shutdown id _ :: calls => some ((s.setCalls calls).terminate id)
    | .exit id :: calls => some ((s.setCalls calls).afterExit id)
  -- an exception ends the call, and a start request around it resets `m_impl`
  | .throws =>
    match s.calls with
    | [] => none
    | .shutdown _ true :: calls => some ((s.setCalls calls).release none)
    | _ :: calls => some (s.setCalls calls)

/-- A start request. -/
def Event.IsRequest : Event → Prop
  | .startServer .. | .startClient .. => True
  | _ => False

instance : DecidablePred Event.IsRequest
  | .startServer .. | .startClient .. => isTrue trivial
  | .shutdown | .setDisabled _ | .exits _ | .exitHandler .. | .expires | .retry _ | .returns
  | .throws => isFalse id

/-- The commands of the two modes, without most of their options. -/
def serverCommand : Command := ⟨"synergy-core", ["--server"]⟩

def clientCommand : Command := ⟨"synergy-core", ["--client"]⟩

/-! ## What the operations do -/

variable {s : CoreProcess} {command : Command} {guarded : Bool} {fault : Option LaunchFault}
  {id : Nat} {status : ChildStatus}

/-! `release` touches `impl` and `releases` only. -/

@[simp] theorem impl_release (handler : Option Nat) : (s.release handler).impl = none := by
  unfold release
  split
  · assumption
  · rfl

theorem releases_release {impl : CoreProcessImpl} (h : s.impl = some impl) (handler : Option Nat) :
    (s.release handler).releases =
      s.releases ++ [⟨impl.id, impl.launched, handler, s.InShutdown impl.id⟩] := by
  simp [release, h]

@[simp] theorem calls_release (handler : Option Nat) :
    (s.release handler).calls = s.calls := by
  unfold release
  split <;> rfl

@[simp] theorem nextCommand_release (handler : Option Nat) :
    (s.release handler).nextCommand = s.nextCommand := by
  unfold release
  split <;> rfl

@[simp] theorem lastCommand_release (handler : Option Nat) :
    (s.release handler).lastCommand = s.lastCommand := by
  unfold release
  split <;> rfl

@[simp] theorem disabled_release (handler : Option Nat) :
    (s.release handler).disabled = s.disabled := by
  unfold release
  split <;> rfl

@[simp] theorem retryTimer_release (handler : Option Nat) :
    (s.release handler).retryTimer = s.retryTimer := by
  unfold release
  split <;> rfl

@[simp] theorem expired_release (handler : Option Nat) :
    (s.release handler).expired = s.expired := by
  unfold release
  split <;> rfl

@[simp] theorem nextId_release (handler : Option Nat) :
    (s.release handler).nextId = s.nextId := by
  unfold release
  split <;> rfl

@[simp] theorem children_release (handler : Option Nat) :
    (s.release handler).children = s.children := by
  unfold release
  split <;> rfl

@[simp] theorem requested_release (handler : Option Nat) :
    (s.release handler).requested = s.requested := by
  unfold release
  split <;> rfl

@[simp] theorem launches_release (handler : Option Nat) :
    (s.release handler).launches = s.launches := by
  unfold release
  split <;> rfl

@[simp] theorem failures_release (handler : Option Nat) :
    (s.release handler).failures = s.failures := by
  unfold release
  split <;> rfl

/-- The ways `shutdown` can go. -/
inductive ShutdownCase (s : CoreProcess) (guarded : Bool) : CoreProcess → Prop where
  | ignored (idle : ∀ impl, s.impl = some impl → impl.expectingExit = true) :
      ShutdownCase s guarded s
  | stopping (impl : CoreProcessImpl) (held : s.impl = some impl)
      (unexpecting : impl.expectingExit = false) :
      ShutdownCase s guarded (s.expectExit impl guarded)

theorem shutdown_cases {t : CoreProcess} (h : s.shutdown guarded = t) :
    ShutdownCase s guarded t := by
  subst h
  unfold shutdown
  cases himpl : s.impl with
  | none => exact .ignored fun impl hsome => absurd (himpl.symm.trans hsome) (by simp)
  | some impl =>
    dsimp only
    cases hexpecting : impl.expectingExit with
    | true =>
      refine .ignored fun impl' hsome => ?_
      obtain rfl := Option.some.inj (himpl.symm.trans hsome)
      exact hexpecting
    | false => exact .stopping impl himpl hexpecting

/-- The ways `terminate` can go. -/
inductive TerminateCase (s : CoreProcess) : CoreProcess → Prop where
  | terminated : TerminateCase s s
  | misused (m : Misuse) : TerminateCase s (s.misuse m)

theorem terminate_cases {t : CoreProcess} (h : s.terminate id = t) : TerminateCase s t := by
  subst h
  unfold terminate
  split
  · exact .misused _
  · split
    · exact .misused _
    · split
      · exact .terminated
      · exact .misused _

theorem released_of_empty (hempty : s.impl = none) (id : Nat) :
    ∀ impl, s.impl = some impl → impl.id ≠ id :=
  fun _ himpl => absurd (hempty.symm.trans himpl) (by simp)

theorem released_of_ne {impl : CoreProcessImpl} (himpl : s.impl = some impl) (hid : impl.id ≠ id) :
    ∀ impl', s.impl = some impl' → impl'.id ≠ id := by
  intro impl' hsome
  obtain rfl := Option.some.inj (himpl.symm.trans hsome)
  exact hid

/-- The ways an exit handler can go, up to its poll. -/
inductive OnExitCase (s : CoreProcess) (id : Nat) (fault : Option LaunchFault) :
    CoreProcess → Prop where
  | stray (released : ∀ impl, s.impl = some impl → impl.id ≠ id) :
      OnExitCase s id fault ((s.setStatus id .handled).misuse (.released id))
  | expected (impl : CoreProcessImpl) (held : s.impl = some impl) (same : impl.id = id)
      (expecting : impl.expectingExit = true) :
      OnExitCase s id fault ((s.setStatus id .handled).expectedExit id fault)
  | polling (impl : CoreProcessImpl) (held : s.impl = some impl) (same : impl.id = id)
      (unexpecting : impl.expectingExit = false) :
      OnExitCase s id fault { s.setStatus id .handling with calls := .exit id :: s.calls }

theorem onExit_cases {t : CoreProcess} {fault : Option LaunchFault}
    (h : s.onExit id fault = t) : OnExitCase s id fault t := by
  subst h
  unfold onExit
  cases himpl : s.impl with
  | none => exact .stray (released_of_empty himpl id)
  | some impl =>
    dsimp only
    by_cases hid : impl.id = id
    · rw [if_neg (not_not.mpr hid)]
      cases hexpecting : impl.expectingExit with
      | true => exact .expected impl himpl hid hexpecting
      | false => exact .polling impl himpl hid hexpecting
    · rw [if_pos hid]
      exact .stray (released_of_ne himpl hid)

/-- The ways the rest of it can go. -/
inductive AfterExitCase (s : CoreProcess) (id : Nat) : CoreProcess → Prop where
  | stray (released : ∀ impl, s.impl = some impl → impl.id ≠ id) :
      AfterExitCase s id ((s.setStatus id .handled).misuse (.released id))
  | unexpected (impl : CoreProcessImpl) (held : s.impl = some impl) (same : impl.id = id) :
      AfterExitCase s id ((s.setStatus id .handled).unexpectedExit id)

theorem afterExit_cases {t : CoreProcess} (h : s.afterExit id = t) : AfterExitCase s id t := by
  subst h
  unfold afterExit
  cases himpl : s.impl with
  | none => exact .stray (released_of_empty himpl id)
  | some impl =>
    dsimp only
    by_cases hid : impl.id = id
    · rw [if_neg (not_not.mpr hid)]
      exact .unexpected impl himpl hid
    · rw [if_pos hid]
      exact .stray (released_of_ne himpl hid)

/-- The ways `start` can go. -/
inductive StartCase (s : CoreProcess) (command : Command) (guarded : Bool)
    (fault : Option LaunchFault) : CoreProcess → Prop where
  | disabled (disabled : s.disabled = true) : StartCase s command guarded fault s
  /-- The core is being shut down already. -/
  | parked (impl : CoreProcessImpl) (enabled : s.disabled = false) (held : s.impl = some impl)
      (expecting : impl.expectingExit = true) :
      StartCase s command guarded fault (s.cancelRetry.park command)
  | stopping (impl : CoreProcessImpl) (enabled : s.disabled = false) (held : s.impl = some impl)
      (unexpecting : impl.expectingExit = false) :
      StartCase s command guarded fault ((s.cancelRetry.park command).expectExit impl guarded)
  | launched (enabled : s.disabled = false) (empty : s.impl = none) (works : fault = none) :
      StartCase s command guarded fault (s.cancelRetry.launch command)
  | failed (enabled : s.disabled = false) (empty : s.impl = none) (throws : fault.isSome = true) :
      StartCase s command guarded fault (s.cancelRetry.failLaunch command)

theorem start_cases {t : CoreProcess} (h : s.start command guarded fault = t) :
    StartCase s command guarded fault t := by
  subst h
  unfold start
  cases hdisabled : s.disabled with
  | true => exact .disabled hdisabled
  | false =>
    rw [if_neg (by simp)]
    cases himpl : s.impl with
    | none =>
      cases fault with
      | none => exact .launched hdisabled himpl rfl
      | some fault => exact .failed hdisabled himpl rfl
    | some impl =>
      have hheld : (s.cancelRetry.park command).impl = some impl := himpl
      cases hexpecting : impl.expectingExit with
      | true =>
        simp only [shutdown, hheld, hexpecting]
        exact .parked impl hdisabled himpl hexpecting
      | false =>
        simp only [shutdown, hheld, hexpecting]
        exact .stopping impl hdisabled himpl hexpecting

/-- The ways a start request can go. -/
inductive StartInCase (s : CoreProcess) (mode : ProcessMode) (serverId : Int) (command : Command)
    (fault : Option StartFault) : CoreProcess → Prop where
  | disabled (disabled : s.disabled = true) : StartInCase s mode serverId command fault s
  | commandless (enabled : s.disabled = false) (throws : fault = some .command) :
      StartInCase s mode serverId command fault ((s.setMode mode serverId).release none)
  | tried (launchFault : Option LaunchFault) (enabled : s.disabled = false)
      (faults : fault = launchFault.map .launch) :
      StartInCase s mode serverId command fault
        ((s.setMode mode serverId).tryStart command launchFault)

theorem startIn_cases {mode : ProcessMode} {serverId : Int} {fault : Option StartFault}
    {t : CoreProcess} (h : s.startIn mode serverId command fault = t) :
    StartInCase s mode serverId command fault t := by
  subst h
  unfold startIn
  cases hdisabled : s.disabled with
  | true => exact .disabled hdisabled
  | false =>
    match fault with
    | none => exact .tried none hdisabled rfl
    | some .command => exact .commandless hdisabled rfl
    | some (.launch fault) => exact .tried (some fault) hdisabled rfl

/-- A start request that works. -/
theorem startIn_none (henabled : s.disabled = false) (mode : ProcessMode) (serverId : Int)
    (command : Command) : s.startIn mode serverId command none =
      ((s.setMode mode serverId).setRequested command).start command true none := by
  have hworks : ¬(s.setMode mode serverId).Throws none :=
    fun hthrows => by simpa using hthrows.2.2
  unfold startIn
  rw [if_neg (Bool.eq_false_iff.mp henabled)]
  exact if_neg hworks

/-- The ways a step can go. -/
inductive StepCase (s : CoreProcess) : Event → CoreProcess → Prop where
  | startServer (screenId : Int) (command : Command) (fault : Option StartFault) :
      StepCase s (.startServer screenId command fault) (s.startServer screenId command fault)
  | startClient (serverId : Int) (command : Command) (fault : Option StartFault) :
      StepCase s (.startClient serverId command fault) (s.startClient serverId command fault)
  | shutdown : StepCase s .shutdown (s.shutdown false)
  | setDisabled (disabled : Bool) :
      StepCase s (.setDisabled disabled) { s with disabled := disabled }
  | exits (id : Nat) (runs : s.HasStatus id .running) :
      StepCase s (.exits id) (s.setStatus id .exited)
  | exitHandler (id : Nat) (fault : Option LaunchFault) (queued : s.HasStatus id .exited) :
      StepCase s (.exitHandler id fault) (s.onExit id fault)
  | expires (command : Command) (armed : s.retryTimer = some command) :
      StepCase s .expires (s.cancelRetry.setExpired (s.expired ++ [command]))
  | retry (command : Command) (expired : List Command) (fault : Option LaunchFault)
      (queued : s.expired = command :: expired) :
      StepCase s (.retry fault) ((s.setExpired expired).start command false fault)
  | shutdownReturns (id : Nat) (guarded : Bool) (calls : List CoreProcessCall)
      (waits : s.calls = .shutdown id guarded :: calls) :
      StepCase s .returns ((s.setCalls calls).terminate id)
  | exitReturns (id : Nat) (calls : List CoreProcessCall) (waits : s.calls = .exit id :: calls) :
      StepCase s .returns ((s.setCalls calls).afterExit id)
  | startThrows (id : Nat) (calls : List CoreProcessCall)
      (waits : s.calls = .shutdown id true :: calls) :
      StepCase s .throws ((s.setCalls calls).release none)
  | callThrows (call : CoreProcessCall) (calls : List CoreProcessCall)
      (waits : s.calls = call :: calls) (unguarded : ∀ id, call ≠ .shutdown id true) :
      StepCase s .throws (s.setCalls calls)

theorem step_cases {s' : CoreProcess} {ev : Event} (h : step s ev = some s') :
    StepCase s ev s' := by
  cases ev with
  | startServer screenId command fault =>
    obtain rfl := Option.some.inj h
    exact .startServer screenId command fault
  | startClient serverId command fault =>
    obtain rfl := Option.some.inj h
    exact .startClient serverId command fault
  | shutdown =>
    obtain rfl := Option.some.inj h
    exact .shutdown
  | setDisabled disabled =>
    obtain rfl := Option.some.inj h
    exact .setDisabled disabled
  | exits id =>
    obtain ⟨hruns, heq⟩ := Option.ite_none_right_eq_some.mp h
    cases heq
    exact .exits id hruns
  | exitHandler id fault =>
    obtain ⟨hqueued, heq⟩ := Option.ite_none_right_eq_some.mp h
    cases heq
    exact .exitHandler id fault hqueued
  | expires =>
    cases harmed : s.retryTimer with
    | none => exact absurd h (by simp [step, harmed])
    | some command =>
      simp only [step, harmed, Option.some.injEq] at h
      cases h
      exact .expires command harmed
  | retry fault =>
    cases hqueued : s.expired with
    | nil => exact absurd h (by simp [step, hqueued])
    | cons command expired =>
      simp only [step, hqueued, Option.some.injEq] at h
      cases h
      exact .retry command expired fault hqueued
  | returns =>
    match hwaits : s.calls with
    | [] => exact absurd h (by simp [step, hwaits])
    | .shutdown id guarded :: calls =>
      simp only [step, hwaits, Option.some.injEq] at h
      cases h
      exact .shutdownReturns id guarded calls hwaits
    | .exit id :: calls =>
      simp only [step, hwaits, Option.some.injEq] at h
      cases h
      exact .exitReturns id calls hwaits
  | throws =>
    match hwaits : s.calls with
    | [] => exact absurd h (by simp [step, hwaits])
    | .shutdown id true :: calls =>
      simp only [step, hwaits, Option.some.injEq] at h
      cases h
      exact .startThrows id calls hwaits
    | .shutdown id false :: calls =>
      simp only [step, hwaits, Option.some.injEq] at h
      cases h
      exact .callThrows _ calls hwaits (by simp)
    | .exit id :: calls =>
      simp only [step, hwaits, Option.some.injEq] at h
      cases h
      exact .callThrows _ calls hwaits (by simp)

/-- A launch that throws is one that `Throws`. -/
theorem start_of_throws (h : s.Throws fault) :
    s.start command guarded fault = s.cancelRetry.failLaunch command := by
  obtain ⟨henabled, hempty, hfault⟩ := h
  obtain ⟨fault, rfl⟩ := Option.isSome_iff_exists.mp hfault
  simp [start, henabled, hempty]

end CoreProcess

end Synergy
