import Synergy.Core.CoreStatusMonitor
import Synergy.Core.Leaving
import Synergy.Core.ProcessCommand
import Synergy.Profile.Snapshot

/-!
# From the text of a snapshot to the local profile

The handler of `websocketMessageReceived` with the decoding in front of it. What it throws while it
decodes is caught and logged, and nothing is stored. After that nothing catches: an IP address that
does not parse throws in the slot of `screenIPSetChanged`, in the middle of `compare`, or in the
handler that the slot of `screenOnline` has posted, and so does a server id that the server proxy
refuses, in the handler that switches to it. And every handler that starts the core throws where the
local screen has no name to make up a command with.
-/

set_option autoImplicit false

namespace Synergy

open Lib ProfileConfig
open ServerProxy (ProcessMode)

/-- The service and the last snapshot, which the config UI may ask for. -/
structure SnapshotStore where
  worker : ServiceWorker
  lastProfileSnapshot : String := ""
  deriving DecidableEq

/-- The handler of `websocketMessageReceived`. Where it is `none` the process has ended. -/
def websocketMessageReceived (isAddress : String → Bool) (parse : String → Option Json)
    (s : SnapshotStore) (text : String) : Option SnapshotStore :=
  match fromJsonSnapshot parse text with
  | .terminates => none
  | .throws _ => some s
  | .returns snapshot => (s.worker.receive isAddress snapshot).map fun w => ⟨w, text⟩

/-! ## Decoding is exact, or refused -/

/-- The text is decoded to just what it stands for, or it stands for nothing, is refused, and leaves
everything as it was. -/
def ExactOrRefused (isAddress : String → Bool) (parse : String → Option Json) (text : String) :
    Prop :=
  (∃ json m, parse text = some json ∧ SnapshotOf json m ∧
    fromJsonSnapshot parse text = .returns m) ∨
  ((∀ json m, parse text = some json → ¬SnapshotOf json m) ∧
    (∃ ex, fromJsonSnapshot parse text = .throws ex) ∧
    ∀ s, websocketMessageReceived isAddress parse s text = some s)

variable {isAddress : String → Bool} {parse : String → Option Json} {text : String}

theorem not_exactOrRefused_of_terminates (h : fromJsonSnapshot parse text = .terminates) :
    ¬ExactOrRefused isAddress parse text := by
  rintro (⟨json, m, -, -, hreturns⟩ | ⟨-, ⟨ex, hthrows⟩, -⟩)
  · rw [h] at hreturns
    exact absurd hreturns (by simp)
  · rw [h] at hthrows
    exact absurd hthrows (by simp)

/-- Decoding is exact or refused, but for a status without a known name in a snapshot that is well
formed otherwise. -/
theorem exactOrRefused_iff_statusesKnown (isAddress : String → Bool)
    (parse : String → Option Json) (text : String) :
    ExactOrRefused isAddress parse text ↔ ∀ json snapshot, parse text = some json →
      IsSnapshot json snapshot → snapshot.StatusesKnown := by
  rcases fromJsonSnapshot_cases parse text with
    ⟨⟨ex, hthrows⟩, hnot⟩ | ⟨json, snapshot, hparse, hjson, hof⟩
  · refine iff_of_true (Or.inr ⟨?_, ⟨ex, hthrows⟩, ?_⟩) ?_
    · rintro json m hparse ⟨snapshot, hsnapshot, -⟩
      exact hnot json snapshot hparse hsnapshot
    · intro s
      simp [websocketMessageReceived, hthrows]
    · intro json snapshot hparse hsnapshot
      exact absurd hsnapshot (hnot json snapshot hparse)
  · constructor
    · intro hexact json' snapshot' hparse' hjson'
      rw [hparse] at hparse'
      cases hparse'
      rw [hjson'.unique hjson]
      by_contra hunknown
      rw [← ofSnapshot_eq_terminates, ← hof] at hunknown
      exact not_exactOrRefused_of_terminates hunknown hexact
    · intro hknown
      left
      cases hout : ofSnapshot snapshot with
      | returns m =>
        exact ⟨json, m, hparse, ⟨snapshot, hjson, ofSnapshot_eq_returns.mp hout⟩, hof.trans hout⟩
      | throws ex => exact absurd hout (ofSnapshot_ne_throws snapshot ex)
      | terminates =>
        exact absurd (hknown json snapshot hparse hjson) (ofSnapshot_eq_terminates.mp hout)

/-- The text of a screen, and its value. -/
def screenText (id status ipList : String) : String :=
  "\x7b\"id\":" ++ id ++ ",\"name\":\"Desk\",\"x_pos\":0,\"y_pos\":0,\"active\":true," ++
  "\"status\":\"" ++ status ++ "\",\"ipList\":\"" ++ ipList ++ "\",\"version\":1," ++
  "\"error_code\":0,\"error_message\":\"\"\x7d"

def screenJson (id : UInt64) (status ipList : String) : Json :=
  .object
    [("id", .unsigned id), ("name", .string "Desk"), ("x_pos", .unsigned 0),
      ("y_pos", .unsigned 0), ("active", .boolean true), ("status", .string status),
      ("ipList", .string ipList), ("version", .unsigned 1), ("error_code", .unsigned 0),
      ("error_message", .string "")]

/-- The text of a snapshot with these screens, and its value. -/
def snapshotText (screens : List String) : String :=
  "\x7b\"profile\":\x7b\"id\":1,\"name\":\"Home\",\"server\":3,\"configVersion\":2\x7d," ++
  "\"screens\":[" ++ ",".intercalate screens ++ "]\x7d"

def snapshotJson (screens : List Json) : Json :=
  .object
    [("profile", .object
      [("id", .unsigned 1), ("name", .string "Home"), ("server", .unsigned 3),
        ("configVersion", .unsigned 2)]),
     ("screens", .array screens)]

/-- A parser that knows one text. -/
def parserOf (text : String) (json : Json) (t : String) : Option Json :=
  if t = text then some json else none

/-- A screen that is asleep, which is no known status. -/
def asleepText : String := snapshotText [screenText "3" "Asleep" "10.0.0.3"]

def parseAsleep : String → Option Json :=
  parserOf asleepText (snapshotJson [screenJson 3 "Asleep" "10.0.0.3"])

theorem asleep_not_exactOrRefused :
    (∀ s, websocketMessageReceived (fun _ => true) parseAsleep s asleepText = none) ∧
    ¬ExactOrRefused (fun _ => true) parseAsleep asleepText := by
  have h : fromJsonSnapshot parseAsleep asleepText = .terminates := by decide +kernel
  refine ⟨?_, not_exactOrRefused_of_terminates h⟩
  intro s
  rw [websocketMessageReceived, h]

/-! ## Handling what was decoded -/

/-- All addresses of the screen parse. -/
def Screen.Parses (isAddress : String → Bool) (screen : Screen) : Prop :=
  ∀ address ∈ screen.ipList.splitOn ",", isAddress address = true

instance (isAddress : String → Bool) (screen : Screen) : Decidable (screen.Parses isAddress) :=
  inferInstanceAs (Decidable (∀ address ∈ screen.ipList.splitOn ",", _))

/-- The screen has come online since, is new and online, or has other addresses than before. -/
def ProfileConfig.Dials (m : ProfileConfig) (t : Screen) : Prop :=
  (t.active = true ∧ ¬m.HasScreen t.id) ∨
  ∃ s ∈ m.screens, s.id = t.id ∧
    ((t.active = true ∧ s.active = false) ∨ s.ipList ≠ t.ipList)

instance (m : ProfileConfig) (t : Screen) : Decidable (m.Dials t) :=
  inferInstanceAs (Decidable (_ ∨ ∃ s ∈ m.screens, _))

/-- The server proxy takes the id, or is not asked. -/
def ServerOk (screenId serverId : Int) : Prop :=
  screenId ≠ serverId → -1 ≤ serverId ∧ serverId < 2 ^ 32

instance (screenId serverId : Int) : Decidable (ServerOk screenId serverId) :=
  inferInstanceAs (Decidable (_ → _))

/-- The handlers that the slots of a signal post. -/
def ProfileSignal.tasks (screenId : Int) : ProfileSignal → List Task
  | .profileServerChanged serverId => [.switchServer serverId]
  | .screenPositionChanged _ => [.restartServer]
  | .screenOnline screen => if screenId = screen.id then [] else [.dial screen]
  | .screenSetChanged added _ => [.resumeAdded added, .restartServer]
  | .modified | .profileIdChanged _ | .profileNameChanged _ | .screenNameChanged _
  | .screenIPSetChanged _ | .screenStatusChanged _ | .screenOffline _ => []

/-- No slot of the signal throws. -/
def ProfileSignal.SlotOk (isAddress : String → Bool) (screenId : Int) : ProfileSignal → Prop
  | .screenIPSetChanged screen => screenId ≠ screen.id → screen.Parses isAddress
  | .modified | .profileIdChanged _ | .profileNameChanged _ | .profileServerChanged _
  | .screenNameChanged _ | .screenPositionChanged _ | .screenStatusChanged _
  | .screenSetChanged _ _ | .screenOnline _ | .screenOffline _ => True

/-- The name of the screen, where `getScreen` finds it. -/
def ProfileConfig.nameOf (m : ProfileConfig) (screenId : Int) : Option String :=
  (m.getScreen (CoreProcess.toInt screenId)).map Screen.name

/-- There is a name to make up a command with. -/
def Nameable (name : Option String) : Prop := name.getD "" ≠ ""

instance (name : Option String) : Decidable (Nameable name) := inferInstanceAs (Decidable (_ ≠ _))

/-- The handler does not throw, where the local screen has that name. -/
def Task.Ok (isAddress : String → Bool) (screenId : Int) (name : Option String) : Task → Prop
  | .dial screen => screen.Parses isAddress
  | .switchServer serverId => ServerOk screenId serverId ∧ Nameable name
  | .restartServer => Nameable name
  | .resumeAdded added => (∃ screen ∈ added, screen.id = screenId) → Nameable name

/-! ### Where a start request throws -/

/-- `CoreProcess::startServer` and `startClient` pass the exception on. -/
def CoreProcess.Raises (s : CoreProcess) : Option StartFault → Prop
  | none => False
  | some .command => s.disabled = false
  | some (.launch fault) => s.Throws (some fault)

namespace CoreManager

/-- The start of the client, where the proxy has nothing to do before. -/
def ProxyRaises (m : CoreManager) (serverId : Int) (fault : Option StartFault) : Prop :=
  serverId = m.serverId ∧ m.process.Raises fault

/-- `CoreManager::switchServer`, up to the polls of the proxy. -/
def SwitchRaises (m : CoreManager) (serverId : Int) (fault : Option StartFault) : Prop :=
  match m.process.processMode with
  | .kServer => m.screenId ≠ serverId ∧ m.ProxyRaises serverId fault
  | .kClient | .kUnknown =>
    if m.screenId = serverId then m.process.Raises fault else m.ProxyRaises serverId fault

/-- `CoreManager::restart`. -/
def RestartRaises (m : CoreManager) (fault : Option StartFault) : Prop :=
  m.process.processMode ≠ .kUnknown ∧ m.process.Raises fault

end CoreManager

/-- What starts the core in the handler throws. -/
def Task.Raises (m : CoreManager) (fault : Option StartFault) : Task → Prop
  | .dial _ => False
  | .switchServer serverId => m.SwitchRaises serverId fault
  | .restartServer => m.process.processMode = .kServer ∧ m.process.Raises fault
  | .resumeAdded added =>
    (∃ screen ∈ added, screen.id = m.screenId) ∧ (m.setDisabled false).RestartRaises fault

/-- So does the rest of it, after the polls of the server proxy. -/
def Task.RaisesLater (m : CoreManager) (fault : Option StartFault) : Task → Prop
  | .switchServer serverId => m.screenId ≠ serverId ∧ m.process.Raises fault
  | .dial _ | .restartServer | .resumeAdded _ => False

namespace ServiceWorker

/-- `CoreProcess::localScreenName`. -/
def localScreenName (w : ServiceWorker) : Option String := w.localProfileConfig.nameOf w.screenId

/-- Making up the command throws, or nothing does: that the core can be launched is granted. -/
def startFault (dirs : Directories) (c : ProcessCommand) (w : ServiceWorker) (mode : ProcessMode) :
    Option StartFault :=
  match w.localScreenName.bind (c.generate dirs (decide (mode = .kServer))) with
  | some _ => none
  | none => some .command

/-- The handler that was posted does not throw, and neither does what is left of it after a poll,
whatever has happened to the service in between, as long as the local screen is the same and has the
same name. -/
def Completes (isAddress : String → Bool) (w : ServiceWorker) (p : Posted) : Prop :=
  ∀ (v : ServiceWorker) (dirs : Directories) (c : ProcessCommand) (mode : ProcessMode)
    (attempt : Attempt), v.screenId = w.screenId → v.localScreenName = w.localScreenName →
    attempt.fault = v.startFault dirs c mode →
    (v.runTask isAddress p attempt).isSome ∧ ¬p.task.Raises v.coreManager attempt.fault ∧
      ¬p.task.RaisesLater v.coreManager attempt.fault

/-- No slot throws, the local profile has the contents of the snapshot afterwards, and no handler
that was posted throws. -/
def Handled (isAddress : String → Bool) (w : ServiceWorker) (snapshot : ProfileConfig) : Prop :=
  ∃ w', w.receive isAddress snapshot = some w' ∧
    w'.localProfileConfig.profile.id = snapshot.profile.id ∧
    w'.localProfileConfig.SameContents snapshot ∧
    ∀ p ∈ w'.posted, p.cause = .snapshot → Completes isAddress w' p

end ServiceWorker

/-- The server is another one, a screen has moved, or screens have come or gone: something is posted
that may start the core. -/
def ProfileConfig.StartsCore (m target : ProfileConfig) : Prop :=
  target.profile.server ≠ m.profile.server ∨
  (∃ t ∈ target.screens, ∃ s ∈ m.screens, s.id = t.id ∧ (s.x ≠ t.x ∨ s.y ≠ t.y)) ∨
  m.added target ≠ [] ∨ m.removed target ≠ []

instance (m target : ProfileConfig) : Decidable (m.StartsCore target) :=
  inferInstanceAs (Decidable (_ ∨ (∃ t ∈ target.screens, _) ∨ _ ∨ _))

namespace ServiceWorker

/-- What there is to dial parses, the server is one to switch to, and the local screen has a name if
the core may be started. -/
structure Handleable (isAddress : String → Bool) (w : ServiceWorker) (snapshot : ProfileConfig) :
    Prop where
  addresses : ∀ t ∈ snapshot.screens, w.localProfileConfig.Dials t → w.screenId ≠ t.id →
    t.Parses isAddress
  server : snapshot.profile.server ≠ w.localProfileConfig.profile.server →
    ServerOk w.screenId snapshot.profile.server
  name : w.localProfileConfig.StartsCore snapshot → Nameable (snapshot.nameOf w.screenId)

/-! ### The slots, and what they post -/

variable {w w' v : ServiceWorker} {snapshot : ProfileConfig} {signals : List ProfileSignal}
  {signal : ProfileSignal} {screenId : Int}

theorem dial_isSome_iff {screen : Screen} {cause : Cause} :
    (w.dial isAddress screen cause).isSome ↔ screen.Parses isAddress := by
  unfold dial Screen.Parses
  split
  · rename_i h
    exact iff_of_true rfl h
  · rename_i h
    exact iff_of_false (by simp) h

/-- All slots of a signal. -/
def emit (isAddress : String → Bool) (w : ServiceWorker) : ProfileSignal → Option ServiceWorker
  | .screenSetChanged added _ => some (w.screenSetChanged added)
  | signal => w.slot isAddress signal

/-- What the slots of some signals have posted, none of which found the local screen removed. -/
structure Emitted (signals : List ProfileSignal) (w w' : ServiceWorker) : Prop where
  screenId : w'.screenId = w.screenId
  posted : w'.posted = w.posted ++
    (signals.flatMap (ProfileSignal.tasks w.screenId)).map fun task => ⟨task, .snapshot⟩

theorem Emitted.cons (h : Emitted [signal] w v) (h' : Emitted signals v w') :
    Emitted (signal :: signals) w w' := by
  refine ⟨h'.screenId.trans h.screenId, ?_⟩
  rw [h'.posted, h.posted, h.screenId]
  simp

theorem emit_isSome_iff :
    (w.emit isAddress signal).isSome ↔ signal.SlotOk isAddress w.screenId := by
  cases signal with
  | screenIPSetChanged screen =>
    show (if w.screenId = screen.id then some w else w.dial isAddress screen .snapshot).isSome ↔
      (w.screenId ≠ screen.id → screen.Parses isAddress)
    split
    · rename_i hlocal
      exact iff_of_true rfl fun hne => absurd hlocal hne
    · rename_i hne
      rw [dial_isSome_iff]
      exact ⟨fun h _ => h, fun h => h hne⟩
  | modified | profileIdChanged _ | profileNameChanged _ | profileServerChanged _
  | screenNameChanged _ | screenPositionChanged _ | screenStatusChanged _ | screenSetChanged _ _
  | screenOnline _ | screenOffline _ => exact iff_of_true rfl trivial

theorem emitted_of_emit (h : w.emit isAddress signal = some w') : Emitted [signal] w w' := by
  cases signal with
  | screenIPSetChanged screen =>
    have hslot : (if w.screenId = screen.id then some w else w.dial isAddress screen .snapshot) =
        some w' := h
    split at hslot
    · cases hslot
      exact ⟨rfl, (List.append_nil _).symm⟩
    · obtain ⟨hframe, -⟩ := dial_frame hslot
      exact ⟨congrArg CoreManager.screenId hframe.coreManager,
        hframe.posted.trans (List.append_nil _).symm⟩
  | screenOnline screen =>
    cases h
    by_cases hlocal : w.screenId = screen.id
    · rw [if_pos hlocal]
      exact ⟨rfl, by simp [ProfileSignal.tasks, hlocal]⟩
    · rw [if_neg hlocal]
      exact ⟨rfl, by simp [ProfileSignal.tasks, hlocal, post]⟩
  | screenSetChanged added removed =>
    cases h
    exact ⟨rfl, by simp [ProfileSignal.tasks, screenSetChanged, post]⟩
  | profileServerChanged _ | screenPositionChanged _ =>
    cases h
    exact ⟨rfl, rfl⟩
  | modified | profileIdChanged _ | profileNameChanged _ | screenNameChanged _
  | screenStatusChanged _ | screenOffline _ =>
    cases h
    exact ⟨rfl, (List.append_nil _).symm⟩

/-- The local screen is not among those that the signal says have been removed. -/
def KeepsLocal (screenId : Int) (signals : List ProfileSignal) : Prop :=
  ∀ added removed, .screenSetChanged added removed ∈ signals →
    ¬∃ screen ∈ removed, screen.id = screenId

theorem runSlots_cons_of_keepsLocal (h : KeepsLocal w.screenId (signal :: signals)) :
    runSlots isAddress snapshot (signal :: signals) w =
      (w.emit isAddress signal).bind (runSlots isAddress snapshot signals) := by
  cases signal with
  | screenSetChanged added removed =>
    show (if ∃ screen ∈ removed, screen.id = w.screenId then _ else _) = _
    rw [if_neg (h added removed List.mem_cons_self)]
    rfl
  | modified | profileIdChanged _ | profileNameChanged _ | profileServerChanged _
  | screenNameChanged _ | screenPositionChanged _ | screenStatusChanged _ | screenOnline _
  | screenIPSetChanged _ | screenOffline _ => rfl

/-- The slots either all return, and then the snapshot is stored, or one of them throws. -/
theorem runSlots_spec (hkeeps : KeepsLocal w.screenId signals) :
    (¬(∀ signal ∈ signals, signal.SlotOk isAddress w.screenId) ∧
      runSlots isAddress snapshot signals w = none) ∨
    ((∀ signal ∈ signals, signal.SlotOk isAddress w.screenId) ∧
      ∃ w', runSlots isAddress snapshot signals w = some w' ∧ Emitted signals w w' ∧
        w'.localProfileConfig = snapshot) := by
  induction signals generalizing w with
  | nil =>
    right
    exact ⟨fun _ h => absurd h List.not_mem_nil, _, rfl, ⟨rfl, (List.append_nil _).symm⟩, rfl⟩
  | cons signal signals ih =>
    rw [runSlots_cons_of_keepsLocal hkeeps, List.forall_mem_cons, ← emit_isSome_iff]
    cases hemit : w.emit isAddress signal with
    | none =>
      left
      exact ⟨by simp, rfl⟩
    | some v =>
      have hemitted := emitted_of_emit hemit
      have hrest : KeepsLocal v.screenId signals := by
        intro added removed hmem
        rw [hemitted.screenId]
        exact hkeeps added removed (List.mem_cons_of_mem _ hmem)
      rcases ih hrest with ⟨hnot, hnone⟩ | ⟨hall, w', hsome, hemitted', hstored⟩
      · left
        rw [hemitted.screenId] at hnot
        exact ⟨fun h => hnot h.2, hnone⟩
      · right
        rw [hemitted.screenId] at hall
        exact ⟨⟨rfl, hall⟩, w', hsome, hemitted.cons hemitted', hstored⟩

theorem generate_eq_none {dirs : Directories} {c : ProcessCommand} {serverMode : Bool}
    {name : Option String} : name.bind (c.generate dirs serverMode) = none ↔ ¬Nameable name := by
  unfold Nameable
  cases name with
  | none => simp
  | some name => simp [ProcessCommand.generate]

theorem startFault_eq {dirs : Directories} {c : ProcessCommand} {mode : ProcessMode} :
    w.startFault dirs c mode = if Nameable w.localScreenName then none else some .command := by
  unfold startFault
  by_cases hname : Nameable w.localScreenName
  · rw [if_pos hname]
    split
    · rfl
    · rename_i hnone
      exact absurd hname (generate_eq_none.mp hnone)
  · rw [if_neg hname, generate_eq_none.mpr hname]

/-- Nothing is raised where the local screen has a name. -/
theorem not_raises (m : CoreManager) (task : Task) :
    ¬task.Raises m none ∧ ¬task.RaisesLater m none := by
  cases task with
  | dial screen => exact ⟨id, id⟩
  | switchServer serverId =>
    refine ⟨fun h => ?_, fun h => h.2⟩
    unfold Task.Raises CoreManager.SwitchRaises at h
    cases hmode : m.process.processMode with
    | kServer =>
      rw [hmode] at h
      exact h.2.2
    | kClient | kUnknown =>
      simp only [hmode] at h
      split at h
      · exact h
      · exact h.2
  | restartServer => exact ⟨fun h => h.2, id⟩
  | resumeAdded added => exact ⟨fun h => h.2.2, id⟩

/-- A handler that completes was posted with a name to start the core with: for it might find the
core enabled and in any mode. -/
theorem Completes.nameable {task : Task} {cause : Cause} (h : Completes isAddress w ⟨task, cause⟩)
    {m : CoreManager} (hid : m.screenId = w.screenId) (hraises : task.Raises m (some .command)) :
    Nameable w.localScreenName := by
  by_contra hname
  have hsame : localScreenName { w with coreManager := m } = w.localScreenName :=
    congrArg w.localProfileConfig.nameOf hid
  have hfault : startFault ⟨"", "", ""⟩ {} { w with coreManager := m } .kServer =
      some .command := by
    rw [startFault_eq, hsame, if_neg hname]
  obtain ⟨-, hnot, -⟩ := h { w with coreManager := m } ⟨"", "", ""⟩ {} .kServer
    { command := CoreProcess.serverCommand, fault := some .command } hid hsame hfault.symm
  exact hnot hraises

theorem not_raises_of_nameable {v : ServiceWorker} {dirs : Directories} {c : ProcessCommand}
    {mode : ProcessMode} {attempt : Attempt} (task : Task) (hname : Nameable w.localScreenName)
    (hsame : v.localScreenName = w.localScreenName)
    (hfault : attempt.fault = v.startFault dirs c mode) :
    ¬task.Raises v.coreManager attempt.fault ∧ ¬task.RaisesLater v.coreManager attempt.fault := by
  rw [hfault, startFault_eq, hsame, if_pos hname]
  exact not_raises v.coreManager task

/-- A handler that completes does so at once. -/
theorem Completes.runs {task : Task} {cause : Cause} (h : Completes isAddress w ⟨task, cause⟩) :
    (w.runTask isAddress ⟨task, cause⟩
      { command := CoreProcess.serverCommand
        fault := w.startFault ⟨"", "", ""⟩ {} .kServer }).isSome :=
  (h w ⟨"", "", ""⟩ {} .kServer _ rfl rfl rfl).1

theorem completes_switchServer_iff {serverId : Int} {cause : Cause} :
    Completes isAddress w ⟨.switchServer serverId, cause⟩ ↔
      ServerOk w.screenId serverId ∧ Nameable w.localScreenName := by
  constructor
  · intro h
    constructor
    · by_contra hnot
      have hfails : ¬(w.coreManager.screenId ≠ serverId → -1 ≤ serverId ∧ serverId < 2 ^ 32) := hnot
      have hruns := h.runs
      simp only [runTask, CoreManager.step] at hruns
      rw [if_neg hfails] at hruns
      exact absurd hruns (by simp)
    · -- a service that has no core yet starts one, whoever the server is
      refine h.nameable (m := { screenId := w.screenId, serverId := serverId }) rfl ?_
      show if w.screenId = serverId then _ else _
      split
      · rfl
      · exact ⟨rfl, rfl⟩
  · rintro ⟨hserver, hname⟩ v dirs c mode attempt hid hsame hfault
    have hok : v.coreManager.screenId ≠ serverId → -1 ≤ serverId ∧ serverId < 2 ^ 32 := by
      rw [show v.coreManager.screenId = w.screenId from hid]
      exact hserver
    refine ⟨?_, not_raises_of_nameable _ hname hsame hfault⟩
    simp only [runTask, CoreManager.step]
    rw [if_pos hok]
    rfl

/-- Whether a handler throws does not depend on when it runs. -/
theorem completes_iff {task : Task} {cause : Cause} :
    Completes isAddress w ⟨task, cause⟩ ↔ task.Ok isAddress w.screenId w.localScreenName := by
  cases task with
  | dial screen =>
    constructor
    · intro h
      exact dial_isSome_iff.mp h.runs
    · intro h v dirs c mode attempt _ _ _
      exact ⟨dial_isSome_iff.mpr h, id, id⟩
  | switchServer serverId => exact completes_switchServer_iff
  | restartServer =>
    constructor
    · intro h
      refine h.nameable (m := { screenId := w.screenId, process := { processMode := .kServer } })
        rfl ?_
      exact ⟨rfl, rfl⟩
    · intro hname v dirs c mode attempt _ hsame hfault
      exact ⟨rfl, not_raises_of_nameable _ hname hsame hfault⟩
  | resumeAdded added =>
    constructor
    · intro h hadded
      refine h.nameable (m := { screenId := w.screenId, process := { processMode := .kServer } })
        rfl ?_
      exact ⟨hadded, by simp [CoreManager.setDisabled], rfl⟩
    · intro hok v dirs c mode attempt hid hsame hfault
      refine ⟨rfl, fun hraises => ?_, id⟩
      have hadded : ∃ screen ∈ added, screen.id = w.screenId := hid ▸ hraises.1
      exact (not_raises_of_nameable _ (hok hadded) hsame hfault).1 hraises

end ServiceWorker

/-! ### Which signals there are -/

namespace ProfileConfig

variable {m target : ProfileConfig} {screenId : Int}

theorem mem_changes_ipSet {s t u : Screen} :
    .screenIPSetChanged u ∈ s.changes t ↔ u = t ∧ s.ipList ≠ t.ipList := by
  cases hactive : t.active <;> simp [Screen.changes, hactive, and_comm]

theorem mem_changes_online {s t u : Screen} :
    .screenOnline u ∈ s.changes t ↔ u = t ∧ t.active = true ∧ s.active = false := by
  cases hactive : t.active <;> simp [Screen.changes, hactive, and_comm]

theorem mem_changes_position {s t : Screen} {id : Int} :
    .screenPositionChanged id ∈ s.changes t ↔ id = t.id ∧ (s.x ≠ t.x ∨ s.y ≠ t.y) := by
  cases hactive : t.active <;> simp [Screen.changes, hactive, and_comm]

theorem mem_screenChanges {signal : ProfileSignal} :
    signal ∈ m.screenChanges target ↔
      ∃ t ∈ target.screens, ∃ s ∈ m.screens, s.id = t.id ∧ signal ∈ s.changes t := by
  unfold screenChanges
  simp only [List.mem_flatMap, List.mem_ite_nil_right]

theorem mem_screenSetChanges {signal : ProfileSignal} :
    signal ∈ m.screenSetChanges target ↔
      ((m.added target ≠ [] ∨ m.removed target ≠ []) ∧
        signal = .screenSetChanged (m.added target) (m.removed target)) ∨
      ∃ t ∈ target.screens, ¬m.HasScreen t.id ∧ t.active = true ∧ signal = .screenOnline t := by
  unfold screenSetChanges
  have hadded : ∀ t, t ∈ m.added target ↔ t ∈ target.screens ∧ ¬m.HasScreen t.id := by
    intro t
    simp [added]
  split
  · rename_i h
    simp only [List.mem_cons, List.mem_map, List.mem_filter, hadded]
    constructor
    · rintro (rfl | ⟨t, ⟨⟨ht, hnew⟩, hactive⟩, rfl⟩)
      · exact Or.inl ⟨h, rfl⟩
      · exact Or.inr ⟨t, ht, hnew, hactive, rfl⟩
    · rintro (⟨-, rfl⟩ | ⟨t, ht, hnew, hactive, rfl⟩)
      · exact Or.inl rfl
      · exact Or.inr ⟨t, ⟨⟨ht, hnew⟩, hactive⟩, rfl⟩
  · rename_i h
    refine iff_of_false List.not_mem_nil ?_
    rintro (⟨hsome, -⟩ | ⟨t, ht, hnew, -⟩)
    · exact h hsome
    · exact h (Or.inl (List.ne_nil_of_mem ((hadded t).mpr ⟨ht, hnew⟩)))

theorem mem_compare {signal : ProfileSignal}
    (hversion : m.profile.version ≤ target.profile.version) :
    signal ∈ m.compare target ↔ signal ∈ m.profileChanges target ∨
      signal ∈ m.screenChanges target ∨ signal ∈ m.screenSetChanges target := by
  unfold compare
  rw [if_neg (by omega), List.mem_append, List.mem_append, or_assoc]

theorem ipSet_mem_compare {t : Screen} (hversion : m.profile.version ≤ target.profile.version) :
    .screenIPSetChanged t ∈ m.compare target ↔
      t ∈ target.screens ∧ ∃ s ∈ m.screens, s.id = t.id ∧ s.ipList ≠ t.ipList := by
  rw [mem_compare hversion, mem_screenChanges, mem_screenSetChanges]
  simp only [mem_changes_ipSet]
  constructor
  · rintro (h | ⟨u, hu, s, hs, hid, rfl, hne⟩ | ⟨-, h⟩ | ⟨u, -, -, -, h⟩)
    · exact absurd h (by simp [profileChanges])
    · exact ⟨hu, s, hs, hid, hne⟩
    · exact absurd h (by simp)
    · exact absurd h (by simp)
  · rintro ⟨ht, s, hs, hid, hne⟩
    exact Or.inr (Or.inl ⟨t, ht, s, hs, hid, rfl, hne⟩)

theorem online_mem_compare {t : Screen} (hversion : m.profile.version ≤ target.profile.version) :
    .screenOnline t ∈ m.compare target ↔ t ∈ target.screens ∧ t.active = true ∧
      (¬m.HasScreen t.id ∨ ∃ s ∈ m.screens, s.id = t.id ∧ s.active = false) := by
  rw [mem_compare hversion, mem_screenChanges, mem_screenSetChanges]
  simp only [mem_changes_online]
  constructor
  · rintro (h | ⟨u, hu, s, hs, hid, rfl, hactive, hwas⟩ | ⟨-, h⟩ | ⟨u, hu, hnew, hactive, h⟩)
    · exact absurd h (by simp [profileChanges])
    · exact ⟨hu, hactive, Or.inr ⟨s, hs, hid, hwas⟩⟩
    · exact absurd h (by simp)
    · cases h
      exact ⟨hu, hactive, Or.inl hnew⟩
  · rintro ⟨ht, hactive, hnew | ⟨s, hs, hid, hwas⟩⟩
    · exact Or.inr (Or.inr (Or.inr ⟨t, ht, hnew, hactive, rfl⟩))
    · exact Or.inr (Or.inl ⟨t, ht, s, hs, hid, rfl, hactive, hwas⟩)

/-- What is dialled is what one of the two signals is about. -/
theorem dials_iff {t : Screen} (hversion : m.profile.version ≤ target.profile.version)
    (ht : t ∈ target.screens) : m.Dials t ↔
      .screenIPSetChanged t ∈ m.compare target ∨ .screenOnline t ∈ m.compare target := by
  rw [ipSet_mem_compare hversion, online_mem_compare hversion]
  unfold Dials
  constructor
  · rintro (⟨hactive, hnew⟩ | ⟨s, hs, hid, ⟨hactive, hwas⟩ | hne⟩)
    · exact Or.inr ⟨ht, hactive, Or.inl hnew⟩
    · exact Or.inr ⟨ht, hactive, Or.inr ⟨s, hs, hid, hwas⟩⟩
    · exact Or.inl ⟨ht, s, hs, hid, hne⟩
  · rintro (⟨-, s, hs, hid, hne⟩ | ⟨-, hactive, hnew | ⟨s, hs, hid, hwas⟩⟩)
    · exact Or.inr ⟨s, hs, hid, Or.inr hne⟩
    · exact Or.inl ⟨hactive, hnew⟩
    · exact Or.inr ⟨s, hs, hid, Or.inl ⟨hactive, hwas⟩⟩

theorem server_mem_compare {server : Int}
    (hversion : m.profile.version ≤ target.profile.version) :
    .profileServerChanged server ∈ m.compare target ↔
      server = target.profile.server ∧ target.profile.server ≠ m.profile.server := by
  rw [mem_compare hversion, mem_screenChanges, mem_screenSetChanges]
  constructor
  · rintro (h | ⟨t, -, s, -, -, h⟩ | ⟨-, h⟩ | ⟨t, -, -, -, h⟩)
    · simpa [profileChanges, and_comm] using h
    · cases hactive : t.active <;> simp [Screen.changes, hactive] at h
    · exact absurd h (by simp)
    · exact absurd h (by simp)
  · rintro ⟨rfl, hne⟩
    exact Or.inl (by simp [profileChanges, hne])

theorem position_mem_compare {id : Int} (hversion : m.profile.version ≤ target.profile.version) :
    .screenPositionChanged id ∈ m.compare target ↔ ∃ t ∈ target.screens, ∃ s ∈ m.screens,
      s.id = t.id ∧ id = t.id ∧ (s.x ≠ t.x ∨ s.y ≠ t.y) := by
  rw [mem_compare hversion, mem_screenChanges, mem_screenSetChanges]
  simp only [mem_changes_position]
  constructor
  · rintro (h | h | ⟨-, h⟩ | ⟨t, -, -, -, h⟩)
    · exact absurd h (by simp [profileChanges])
    · exact h
    · exact absurd h (by simp)
    · exact absurd h (by simp)
  · intro h
    exact Or.inr (Or.inl h)

theorem set_mem_compare {added removed : List Screen}
    (hversion : m.profile.version ≤ target.profile.version) :
    .screenSetChanged added removed ∈ m.compare target ↔
      (m.added target ≠ [] ∨ m.removed target ≠ []) ∧ added = m.added target ∧
        removed = m.removed target := by
  rw [mem_compare hversion, mem_screenChanges, mem_screenSetChanges]
  constructor
  · rintro (h | ⟨t, -, s, -, -, h⟩ | ⟨hsome, h⟩ | ⟨t, -, -, -, h⟩)
    · exact absurd h (by simp [profileChanges])
    · cases hactive : t.active <;> simp [Screen.changes, hactive] at h
    · cases h
      exact ⟨hsome, rfl, rfl⟩
    · exact absurd h (by simp)
  · rintro ⟨hsome, rfl, rfl⟩
    exact Or.inr (Or.inr (Or.inl ⟨hsome, rfl⟩))

/-- What may start the core is posted for one of three signals. -/
theorem startsCore_iff (hversion : m.profile.version ≤ target.profile.version) :
    m.StartsCore target ↔
      (∃ server, .profileServerChanged server ∈ m.compare target) ∨
      (∃ id, .screenPositionChanged id ∈ m.compare target) ∨
      ∃ added removed, .screenSetChanged added removed ∈ m.compare target := by
  simp only [server_mem_compare hversion, position_mem_compare hversion, set_mem_compare hversion]
  unfold StartsCore
  constructor
  · rintro (hserver | ⟨t, ht, s, hs, hid, hmoved⟩ | hset)
    · exact Or.inl ⟨_, rfl, hserver⟩
    · exact Or.inr (Or.inl ⟨t.id, t, ht, s, hs, hid, rfl, hmoved⟩)
    · exact Or.inr (Or.inr ⟨_, _, hset, rfl, rfl⟩)
  · rintro (⟨server, -, hserver⟩ | ⟨id, t, ht, s, hs, hid, -, hmoved⟩ | ⟨added, removed, hset, -⟩)
    · exact Or.inl hserver
    · exact Or.inr (Or.inl ⟨t, ht, s, hs, hid, hmoved⟩)
    · exact Or.inr (Or.inr hset)

/-- The local screen stays. -/
theorem keepsLocal_compare (hlocal : target.HasScreen screenId) :
    ServiceWorker.KeepsLocal screenId (m.compare target) := by
  rintro added removed hmem ⟨s, hs, hid⟩
  have hversion : m.profile.version ≤ target.profile.version := by
    by_contra hnewer
    rw [compare, if_pos (by omega)] at hmem
    exact absurd hmem List.not_mem_nil
  obtain ⟨-, -, hremoved⟩ := (set_mem_compare hversion).mp hmem
  rw [hremoved] at hs
  obtain ⟨-, hgone⟩ := List.mem_filter.mp hs
  exact absurd (hid ▸ hlocal) (by simpa using hgone)

end ProfileConfig

namespace ServiceWorker

variable {w : ServiceWorker} {snapshot : ProfileConfig} {signal : ProfileSignal}

/-- Nothing that the signals set in motion throws. -/
def SignalsOk (isAddress : String → Bool) (screenId : Int) (name : Option String)
    (signals : List ProfileSignal) : Prop :=
  (∀ signal ∈ signals, signal.SlotOk isAddress screenId) ∧
  ∀ task ∈ signals.flatMap (ProfileSignal.tasks screenId), task.Ok isAddress screenId name

/-- The tasks that start the core are posted for three of the signals. -/
theorem SignalsOk.nameable {screenId : Int} {name : Option String} {m target : ProfileConfig}
    (hversion : m.profile.version ≤ target.profile.version)
    (h : SignalsOk isAddress screenId name (m.compare target)) (hstarts : m.StartsCore target) :
    Nameable name := by
  have htask : ∀ signal ∈ m.compare target, ∀ task ∈ signal.tasks screenId,
      task.Ok isAddress screenId name :=
    fun signal hmem task htask => h.2 task (List.mem_flatMap.mpr ⟨signal, hmem, htask⟩)
  rcases (ProfileConfig.startsCore_iff hversion).mp hstarts with
    ⟨server, hmem⟩ | ⟨id, hmem⟩ | ⟨added, removed, hmem⟩
  · exact (htask _ hmem (.switchServer server) (by simp [ProfileSignal.tasks])).2
  · exact htask _ hmem .restartServer (by simp [ProfileSignal.tasks])
  · exact htask _ hmem .restartServer (by simp [ProfileSignal.tasks])

theorem SignalsOk.handleable
    (hversion : w.localProfileConfig.profile.version ≤ snapshot.profile.version)
    (h : SignalsOk isAddress w.screenId (snapshot.nameOf w.screenId)
      (w.localProfileConfig.compare snapshot)) : Handleable isAddress w snapshot := by
  have htasks : ∀ task, (∃ signal ∈ w.localProfileConfig.compare snapshot,
      task ∈ signal.tasks w.screenId) →
      task.Ok isAddress w.screenId (snapshot.nameOf w.screenId) :=
    fun task hmem => h.2 task (List.mem_flatMap.mpr hmem)
  refine ⟨?_, ?_, h.nameable hversion⟩
  · intro t ht hdials hne
    rcases (ProfileConfig.dials_iff hversion ht).mp hdials with hmem | hmem
    · exact h.1 _ hmem hne
    · exact htasks (.dial t) ⟨_, hmem, by simp [ProfileSignal.tasks, hne]⟩
  · intro hne
    have hmem := (ProfileConfig.server_mem_compare hversion).mpr ⟨rfl, hne⟩
    exact (htasks (.switchServer snapshot.profile.server)
      ⟨_, hmem, by simp [ProfileSignal.tasks]⟩).1

theorem Handleable.slotOk (h : Handleable isAddress w snapshot)
    (hversion : w.localProfileConfig.profile.version ≤ snapshot.profile.version)
    (hmem : signal ∈ w.localProfileConfig.compare snapshot) :
    signal.SlotOk isAddress w.screenId := by
  cases signal with
  | screenIPSetChanged t =>
    have ht := ((ProfileConfig.ipSet_mem_compare hversion).mp hmem).1
    exact h.addresses t ht ((ProfileConfig.dials_iff hversion ht).mpr (Or.inl hmem))
  | modified | profileIdChanged _ | profileNameChanged _ | profileServerChanged _
  | screenNameChanged _ | screenPositionChanged _ | screenStatusChanged _
  | screenSetChanged _ _ | screenOnline _ | screenOffline _ => trivial

theorem Handleable.taskOk (h : Handleable isAddress w snapshot)
    (hversion : w.localProfileConfig.profile.version ≤ snapshot.profile.version)
    (hmem : signal ∈ w.localProfileConfig.compare snapshot) {task : Task}
    (htask : task ∈ signal.tasks w.screenId) :
    task.Ok isAddress w.screenId (snapshot.nameOf w.screenId) := by
  have hstarts := (ProfileConfig.startsCore_iff hversion).mpr
  cases signal with
  | screenOnline t =>
    have ht := ((ProfileConfig.online_mem_compare hversion).mp hmem).1
    obtain ⟨hne, rfl⟩ : w.screenId ≠ t.id ∧ task = .dial t := by
      simpa [ProfileSignal.tasks] using htask
    exact h.addresses t ht ((ProfileConfig.dials_iff hversion ht).mpr (Or.inr hmem)) hne
  | profileServerChanged server =>
    obtain ⟨rfl, hne⟩ := (ProfileConfig.server_mem_compare hversion).mp hmem
    rw [List.mem_singleton.mp htask]
    exact ⟨h.server hne, h.name (hstarts (Or.inl ⟨_, hmem⟩))⟩
  | screenPositionChanged id =>
    rw [List.mem_singleton.mp htask]
    exact h.name (hstarts (Or.inr (Or.inl ⟨_, hmem⟩)))
  | screenSetChanged added removed =>
    have hname := h.name (hstarts (Or.inr (Or.inr ⟨_, _, hmem⟩)))
    rcases List.mem_cons.mp htask with rfl | htask
    · exact fun _ => hname
    · rw [List.mem_singleton.mp htask]
      exact hname
  | modified | profileIdChanged _ | profileNameChanged _ | screenNameChanged _
  | screenStatusChanged _ | screenIPSetChanged _ | screenOffline _ =>
    exact absurd htask List.not_mem_nil

theorem signalsOk_iff_handleable
    (hversion : w.localProfileConfig.profile.version ≤ snapshot.profile.version) :
    SignalsOk isAddress w.screenId (snapshot.nameOf w.screenId)
        (w.localProfileConfig.compare snapshot) ↔
      Handleable isAddress w snapshot := by
  constructor
  · exact SignalsOk.handleable hversion
  · intro h
    refine ⟨fun signal hmem => h.slotOk hversion hmem, fun task hflat => ?_⟩
    obtain ⟨signal, hmem, htask⟩ := List.mem_flatMap.mp hflat
    exact h.taskOk hversion hmem htask

/-- The id of a screen is an `int`. -/
theorem id_range_of_returns (h : fromJsonSnapshot parse text = .returns snapshot) :
    ∀ s ∈ snapshot.screens, -2 ^ 31 ≤ s.id ∧ s.id ≤ 2 ^ 31 - 1 := by
  rcases fromJsonSnapshot_cases parse text with
    ⟨⟨ex, hthrows⟩, -⟩ | ⟨json, decoded, -, -, hof⟩
  · rw [hthrows] at h
    exact absurd h (by simp)
  · rw [hof] at h
    have hscreens := (ofSnapshot_eq_returns.mp h).screens
    intro s hs
    obtain ⟨hlength, hall⟩ := List.forall₂_iff_get.mp hscreens
    obtain ⟨n, hn, rfl⟩ := List.getElem_of_mem hs
    have hid := (hall n (hlength ▸ hn) hn).id
    rw [List.get_eq_getElem] at hid
    rw [hid]
    exact (decoded.screens.get ⟨n, hlength ▸ hn⟩).id.2

theorem cause_settle : ∀ p ∈ w.settle.posted, p.cause ≠ .snapshot := by
  intro p hp
  obtain ⟨q, -, rfl⟩ := List.mem_map.mp hp
  simp

/-- A snapshot with the local screen is handled where nothing throws that its signals set in
motion. -/
theorem handled_iff_signalsOk (hget : GetsScreen snapshot w.screenId)
    (hlocal : snapshot.HasScreen w.screenId)
    (hversion : w.localProfileConfig.profile.version ≤ snapshot.profile.version) :
    Handled isAddress w snapshot ↔
      SignalsOk isAddress w.screenId (snapshot.nameOf w.screenId)
        (w.localProfileConfig.compare snapshot) := by
  unfold Handled receive
  rw [if_pos (Or.inr hget)]
  split
  · rename_i hnil
    -- nothing has changed, so nothing is stored or posted
    have hsame := (ProfileConfig.compare_eq_nil.mp hnil).resolve_left (by omega)
    rw [hnil]
    refine iff_of_true ⟨_, rfl, hsame.id.symm, hsame.sameContents, ?_⟩ (by simp [SignalsOk])
    intro p hp hcause
    exact absurd hcause (cause_settle p hp)
  · rename_i signal signals hcons
    rw [hcons]
    have hkeeps := ProfileConfig.keepsLocal_compare (m := w.localProfileConfig) hlocal
    rw [hcons] at hkeeps
    rcases @runSlots_spec isAddress (w.begin snapshot) snapshot _ hkeeps with
      ⟨hnot, hnone⟩ | ⟨hslots, w', hsome, hemitted, hstored⟩
    · -- a slot throws, and the service ends
      refine iff_of_false ?_ fun h => hnot h.1
      rintro ⟨w', hw', -⟩
      exact absurd (hnone.symm.trans hw') (by simp)
    · have hposted : w'.posted = w.settle.posted ++ _ := hemitted.posted
      have hid : w'.screenId = w.screenId := hemitted.screenId
      have hname : w'.localScreenName = snapshot.nameOf w.screenId := by
        rw [localScreenName, hstored, hid]
      have hcompletes : ∀ task, Completes isAddress w' ⟨task, .snapshot⟩ ↔
          task.Ok isAddress w.screenId (snapshot.nameOf w.screenId) := by
        intro task
        rw [completes_iff, hid, hname]
      -- every handler that was posted completes where its task does not throw
      constructor
      · rintro ⟨w'', hw'', -, -, hall⟩
        obtain rfl := Option.some.inj (hsome.symm.trans hw'')
        refine ⟨hslots, fun task htask => ?_⟩
        refine (hcompletes task).mp (hall ⟨task, .snapshot⟩ ?_ rfl)
        rw [hposted]
        exact List.mem_append_right _ (List.mem_map_of_mem htask)
      · rintro ⟨-, htasks⟩
        refine ⟨w', hsome, congrArg (fun m => m.profile.id) hstored, ?_, ?_⟩
        · rw [hstored]
          exact .refl snapshot
        · intro p hp hcause
          rw [hposted] at hp
          rcases List.mem_append.mp hp with hold | hnew
          · -- what waited before has another cause by now
            exact absurd hcause (cause_settle p hold)
          · obtain ⟨task, htask, rfl⟩ := List.mem_map.mp hnew
            exact (hcompletes task).mpr (htasks task htask)

/-- The machine has screen 3 and is alone in its profile. -/
def alone : ServiceWorker := desk { profile := { id := 1, version := 1 }, screens := [{ id := 3 }] }

/-- The only addresses there are. -/
def knownAddress (address : String) : Bool := address = "10.0.0.3" ∨ address = "10.0.0.5"

/-- Screen 5 is new and online, with that list of addresses. -/
def joinedText (ipList : String) : String :=
  snapshotText [screenText "3" "Inactive" "10.0.0.3", screenText "5" "Inactive" ipList]

def parseJoined (ipList : String) : String → Option Json :=
  parserOf (joinedText ipList)
    (snapshotJson [screenJson 3 "Inactive" "10.0.0.3", screenJson 5 "Inactive" ipList])

def joined (ipList : String) : ProfileConfig where
  profile := { id := 1, version := 2, server := 3, name := "Home" }
  screens := [3, 5].map fun id =>
    { id := id, name := "Desk", active := true, width := 86, height := 58, status := .kInactive,
      ipList := if id = 3 then "10.0.0.3" else ipList }

/-- An empty string has one part. -/
theorem splitOn_empty : "".splitOn "," = [""] := by
  unfold String.splitOn String.splitOnAux
  decide

end ServiceWorker

end Synergy
