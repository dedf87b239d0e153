import Synergy.Core.CoreManager
import Synergy.Profile.ProfileConfig

/-!
# A snapshot of the profile arrives

`ServiceWorker`, as far as it handles the snapshots that the cloud sends. `apply` compares the local
profile with the snapshot and then assigns it, and the slots of `CoreManager` and `ServiceWorker`
run while it compares. Those that have to do with the core, or that dial a peer which has come
online, post a handler, which runs later.

The slot that finds the local screen removed disables the core, closes the websocket, stops the
router and clears the profile. In the first three it may poll the `io_service`, and what is posted
runs then. So a snapshot is handled in one step up to the first of these calls, in one for each
call, and in one from there to the end; `compare` goes on with the signals that are left.

An IP address that does not parse throws, which nothing catches: the service ends. What parses is a
parameter. What a snapshot sets in motion is marked as its own until the next one arrives. The
claims that go out, the timers of `RouterErrorMonitor` and the RPC messages are left out.
-/

set_option autoImplicit false

namespace Synergy

open Lib
open ServerProxy (ProcessMode)

/-- What set something in motion: the snapshot at hand, or something before it. -/
inductive Cause where
  | earlier
  | snapshot
  deriving DecidableEq

/-- A handler that a slot posts. -/
inductive Task where
  /-- Dial every address of a screen. -/
  | dial (screen : Screen)
  | switchServer (serverId : Int)
  /-- Start the core again where it is the server. -/
  | restartServer
  /-- Resume where the local screen is among those added. -/
  | resumeAdded (added : List Screen)
  deriving DecidableEq

structure Posted where
  task : Task
  cause : Cause
  deriving DecidableEq

/-- An address that the router tries to connect to. -/
structure Dial where
  address : String
  cause : Cause
  deriving DecidableEq

/-- How far the slot is that found the local screen removed: in `pause`, where it may poll, in
`shutdownWebsocket`, where it polls, or in `Router::shutdown`, where it polls too. -/
inductive Phase where
  | pausing (polls : Bool)
  | closing
  | stopping
  deriving DecidableEq

/-- That slot, with the snapshot that is being applied and the signals that come after. -/
structure Leaving where
  snapshot : ProfileConfig
  signals : List ProfileSignal
  phase : Phase
  deriving DecidableEq

structure ServiceWorker where
  /-- With the id of the local screen, which `UserConfig` holds. -/
  coreManager : CoreManager
  remoteProfileConfig : ProfileConfig := {}
  localProfileConfig : ProfileConfig := {}
  /-- The router runs. -/
  running : Bool := false
  /-- The addresses it is connected to, and those it tries. -/
  peers : List String := []
  dials : List Dial := []
  /-- The websocket is connected. -/
  websocket : Bool := true
  /-- What started the IP monitor, if it runs. -/
  ipMonitor : Option Cause := none
  posted : List Posted := []
  leaving : Option Leaving := none
  deriving DecidableEq

namespace ServiceWorker

inductive Event where
  /-- The websocket receives a snapshot. -/
  | receive (snapshot : ProfileConfig)
  /-- The slot that found the local screen removed goes on. -/
  | proceed
  /-- The oldest handler that is posted runs. -/
  | task (attempt : Attempt)
  /-- A claim that comes otherwise, a restart, or what goes on in the core process. -/
  | core (ev : CoreManager.Event)

def screenId (w : ServiceWorker) : Int := w.coreManager.screenId

/-- `getScreen` finds it; it takes an `int`. -/
def GetsScreen (m : ProfileConfig) (screenId : Int) : Prop :=
  m.HasScreen (CoreProcess.toInt screenId)

instance (m : ProfileConfig) (screenId : Int) : Decidable (GetsScreen m screenId) :=
  inferInstanceAs (Decidable (m.HasScreen _))

def post (w : ServiceWorker) (task : Task) : ServiceWorker :=
  { w with posted := w.posted ++ [⟨task, .snapshot⟩] }

/-- `Router::add_peer`, up to the connection. -/
def addPeer (cause : Cause) (w : ServiceWorker) (address : String) : ServiceWorker :=
  if address ∈ w.peers then w
  else if w.running then { w with dials := w.dials ++ [⟨address, cause⟩] }
  else w

/-- Dial every address of a screen. -/
def dial (isAddress : String → Bool) (w : ServiceWorker) (screen : Screen) (cause : Cause) :
    Option ServiceWorker :=
  if ∀ address ∈ screen.ipList.splitOn ",", isAddress address then
    some ((screen.ipList.splitOn ",").foldl (addPeer cause) w)
  else none

/-- The slots of a signal, but for `screenSetChanged`. -/
def slot (isAddress : String → Bool) (w : ServiceWorker) : ProfileSignal → Option ServiceWorker
  | .profileServerChanged serverId => some (w.post (.switchServer serverId))
  | .screenPositionChanged _ => some (w.post .restartServer)
  | .screenOnline screen =>
    some (if w.screenId = screen.id then { w with running := true } else w.post (.dial screen))
  | .screenIPSetChanged screen =>
    if w.screenId = screen.id then some w else w.dial isAddress screen .snapshot
  | .modified | .profileIdChanged _ | .profileNameChanged _ | .screenNameChanged _
  | .screenStatusChanged _ | .screenSetChanged _ _ | .screenOffline _ => some w

/-- The slot of `screenSetChanged` in `CoreManager`. -/
def screenSetChanged (w : ServiceWorker) (added : List Screen) : ServiceWorker :=
  (w.post (.resumeAdded added)).post .restartServer

/-- `IPMonitor::start`. -/
def startMonitor (w : ServiceWorker) : ServiceWorker :=
  { w with ipMonitor := some (w.ipMonitor.getD .snapshot) }

/-- Assign the snapshot and start the IP monitor. -/
def finish (w : ServiceWorker) (snapshot : ProfileConfig) : ServiceWorker :=
  { w with localProfileConfig := snapshot }.startMonitor

/-- The local screen has been removed: up to the first poll of `pause`. -/
def leave (w : ServiceWorker) (snapshot : ProfileConfig) (signals : List ProfileSignal) :
    ServiceWorker :=
  { w with
    coreManager := w.coreManager.pause
    leaving := some ⟨snapshot, signals, .pausing (w.coreManager.process.impl.any
      fun impl => !impl.expectingExit)⟩ }

/-- The rest of `compare`, and what `apply` and its caller do then. -/
def runSlots (isAddress : String → Bool) (snapshot : ProfileConfig) :
    List ProfileSignal → ServiceWorker → Option ServiceWorker
  | [], w => some (w.finish snapshot)
  | .screenSetChanged added removed :: signals, w =>
    if ∃ screen ∈ removed, screen.id = w.screenId then
      some ((w.screenSetChanged added).leave snapshot signals)
    else runSlots isAddress snapshot signals (w.screenSetChanged added)
  | signal :: signals, w => (w.slot isAddress signal).bind (runSlots isAddress snapshot signals)

/-- What is in motion is no longer the doing of the snapshot at hand. -/
def settle (w : ServiceWorker) : ServiceWorker :=
  { w with
    posted := w.posted.map fun p => { p with cause := .earlier }
    dials := w.dials.map fun d => { d with cause := .earlier }
    ipMonitor := w.ipMonitor.map fun _ => .earlier }

/-- The handler of `websocketMessageReceived`. -/
def receive (isAddress : String → Bool) (w : ServiceWorker) (snapshot : ProfileConfig) :
    Option ServiceWorker :=
  if GetsScreen w.localProfileConfig w.screenId ∨ GetsScreen snapshot w.screenId then
    match w.localProfileConfig.compare snapshot with
    | [] => some { w.settle with remoteProfileConfig := snapshot }.startMonitor
    | signal :: signals =>
      runSlots isAddress snapshot (signal :: signals)
        { w.settle with remoteProfileConfig := snapshot }
  else some { w.settle with remoteProfileConfig := snapshot }

def setPhase (w : ServiceWorker) (l : Leaving) (phase : Phase) : ServiceWorker :=
  { w with leaving := some { l with phase := phase } }

/-- `Router::shutdown` up to its poll. -/
def stopRouter (w : ServiceWorker) (l : Leaving) : ServiceWorker :=
  { w with running := false }.setPhase l .stopping

/-- The rest of `Router::shutdown`, `UserConfig::reset` and `ProfileConfig::clear`. -/
def clear (w : ServiceWorker) : ServiceWorker :=
  { w with
    peers := []
    coreManager := { w.coreManager with screenId := -1 }
    localProfileConfig := {}
    leaving := none }

/-- The slot that found the local screen removed goes on. A poll ends when nothing is posted. -/
def proceed (isAddress : String → Bool) (w : ServiceWorker) (l : Leaving) : Option ServiceWorker :=
  match l.phase with
  | .pausing polls =>
    if polls = true ∧ w.posted ≠ [] then none
    else if w.websocket then some (w.setPhase l .closing)
    else some (w.stopRouter l)
  | .closing => if w.posted ≠ [] then none else some ({ w with websocket := false }.stopRouter l)
  | .stopping => if w.posted ≠ [] then none else runSlots isAddress l.snapshot l.signals w.clear

/-- A handler may run: nothing is being handled, or what is polls. -/
def Idle (w : ServiceWorker) : Prop := ∀ l, w.leaving = some l → l.phase ≠ .pausing false

instance (w : ServiceWorker) : Decidable w.Idle :=
  decidable_of_iff (w.leaving.map Leaving.phase ≠ some (.pausing false)) <| by
    cases h : w.leaving <;> simp [Idle, h]

/-- A handler that was posted. -/
def runTask (isAddress : String → Bool) (w : ServiceWorker) (p : Posted) (attempt : Attempt) :
    Option ServiceWorker :=
  match p.task with
  | .dial screen => w.dial isAddress screen p.cause
  | .switchServer serverId =>
    (w.coreManager.step (.switchServer serverId attempt)).map fun m => { w with coreManager := m }
  | .restartServer =>
    some (if w.coreManager.process.processMode = .kServer then
      { w with coreManager := w.coreManager.startServer attempt } else w)
  | .resumeAdded added =>
    some (if ∃ screen ∈ added, screen.id = w.screenId then
      { w with coreManager := w.coreManager.resume attempt } else w)

def step (isAddress : String → Bool) (w : ServiceWorker) : Event → Option ServiceWorker
  | .receive snapshot => if w.leaving = none then w.receive isAddress snapshot else none
  | .proceed =>
    match w.leaving with
    | none => none
    | some l => w.proceed isAddress l
  | .task attempt =>
    match w.posted with
    | [] => none
    | p :: posted =>
      if w.Idle then { w with posted := posted }.runTask isAddress p attempt else none
  | .core ev =>
    if w.Idle ∧ ev.Unpaused then
      (w.coreManager.step ev).map fun m => { w with coreManager := m }
    else none

end ServiceWorker

end Synergy
