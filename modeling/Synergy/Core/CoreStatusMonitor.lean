import Mathlib.Data.List.Chain
import Mathlib.Data.List.Infix
import Synergy.Core.CoreProcess
import Synergy.Core.Output
import Synergy.Lib.Keyed
import Synergy.Profile.ProfileConfig

/-!
# The status of the local screen

From a line that the core prints to a status in the cloud: `CoreStatusMonitor`, with the slots that
`monitor` connects to `output`, and the slot of `screenStatusChanged` in `CoreManager`, which holds
some of the statuses back. Both remember a status, the monitor the last it was told and the profile
the last that was sent, and a snapshot replaces the second without the first.

`getScreen` throws where the profile lacks the screen, and what throws ends the handler. The model
goes on behind it, whether or not the service does.
-/

set_option autoImplicit false

namespace Synergy

open Lib
open ServerProxy (ProcessMode)

namespace ProfileConfig

/-- `none` where it throws. -/
def getScreen (m : ProfileConfig) (screenId : Int) : Option Screen :=
  m.screens.find? fun s => s.id = screenId

/-- `status` of what `getScreen` returns a reference to. -/
def setStatus (m : ProfileConfig) (screenId : Int) (status : ScreenStatus) : ProfileConfig :=
  { m with screens := m.screens.replaceF fun s =>
      if s.id = screenId then some { s with status := status } else none }

/-- The status of a screen, if it is there. -/
def statusOf (m : ProfileConfig) (screenId : Int) : Option ScreenStatus :=
  (m.getScreen screenId).map Screen.status

end ProfileConfig

namespace CoreStatusMonitor

/-- A slot of `output`. -/
structure Slot where
  text : List UInt8
  screenId : Int
  status : ScreenStatus

inductive Entry where
  /-- `updateScreenStatus` was called. -/
  | sent (screenId : Int) (status : ScreenStatus)
  /-- The profile was assigned. -/
  | assigned (before after : ProfileConfig)

inductive Event where
  /-- A core is started. -/
  | start (mode : ProcessMode) (screenId : Int)
  /-- It prints a line. -/
  | output (line : List UInt8)
  | snapshot (target : ProfileConfig)
  | clear

end CoreStatusMonitor

open CoreStatusMonitor (Slot Entry)

structure CoreStatusMonitor where
  screenStates : Int → ScreenStatus := fun _ => .kConnected
  /-- Those of the core that was started last, in the order in which they run. -/
  signals : List Slot := []
  localProfileConfig : ProfileConfig
  history : List Entry := []

namespace CoreStatusMonitor

/-- The bytes of a text of ASCII characters. -/
def ascii (text : String) : List UInt8 := text.toList.map fun c => UInt8.ofNat c.toNat

/-- The slot of `screenStatusChanged`; and whether it throws. -/
def screenStatusChanged (s : CoreStatusMonitor) (screenId : Int) (status : ScreenStatus) :
    CoreStatusMonitor × Bool :=
  match s.localProfileConfig.getScreen screenId with
  | none => (s, true)
  | some screen =>
    if screen.status = status ∧ status = .kConnecting then (s, false)
    else if status = .kDisconnected ∧ screen.status ≠ .kConnected then (s, false)
    else
      ({ s with
        localProfileConfig := s.localProfileConfig.setStatus screenId status
        history := s.history ++ [.sent screenId status] }, false)

def setState (s : CoreStatusMonitor) (screenId : Int) (status : ScreenStatus) :
    CoreStatusMonitor :=
  { s with screenStates := fun i => if i = screenId then status else s.screenStates i }

def update (s : CoreStatusMonitor) (screenId : Int) (status : ScreenStatus) :
    CoreStatusMonitor × Bool :=
  if status ≠ s.screenStates screenId then
    (s.setState screenId status).screenStatusChanged screenId status
  else (s.setState screenId status, false)

/-- Each of the slots is connected `at_front`. -/
def monitor (s : CoreStatusMonitor) (mode : ProcessMode) (localScreenId : Int) :
    CoreStatusMonitor :=
  { s with
    signals :=
      match mode with
      | .kClient =>
        [⟨ascii "suspend", localScreenId, .kDisconnected⟩,
          ⟨ascii "connecting to", localScreenId, .kConnecting⟩,
          ⟨ascii "connected to server", localScreenId, .kConnected⟩]
      | .kServer => [⟨ascii "started server, waiting for clients", localScreenId, .kConnected⟩]
      | .kUnknown => [] }

/-- The slots that `output` calls with a line, until one of them throws. -/
def runSlots (line : List UInt8) : List Slot → CoreStatusMonitor → CoreStatusMonitor
  | [], s => s
  | slot :: slots, s =>
    if slot.text <:+: line then
      match s.update slot.screenId slot.status with
      | (s, true) => s
      | (s, false) => runSlots line slots s
    else runSlots line slots s

/-- What `CoreProcess::start` does with the monitor. -/
def start (s : CoreStatusMonitor) (mode : ProcessMode) (screenId : Int) : CoreStatusMonitor :=
  match s.update screenId .kConnecting with
  | (s, true) => s
  | (s, false) => s.monitor mode screenId

def assign (s : CoreStatusMonitor) (profile : ProfileConfig) : CoreStatusMonitor :=
  { s with
    localProfileConfig := profile
    history := s.history ++ [.assigned s.localProfileConfig profile] }

def step (s : CoreStatusMonitor) : Event → Option CoreStatusMonitor
  | .start mode screenId => some (s.start mode screenId)
  | .output line => some (runSlots line s.signals s)
  | .snapshot target => some (s.assign (s.localProfileConfig.apply target))
  | .clear => some (s.assign {})

/-! ## Statuses of a profile -/

theorem getScreen_setStatus (m : ProfileConfig) (screenId id : Int) (status : ScreenStatus) :
    (m.setStatus screenId status).getScreen id =
      if id = screenId then (m.getScreen screenId).map fun s => { s with status := status }
      else m.getScreen id := by
  have hkey : ∀ s : Screen, s.id = screenId → { s with status := status }.id = screenId :=
    fun _ h => h
  exact find?_replaceF m.screens hkey id

theorem statusOf_setStatus (m : ProfileConfig) (screenId id : Int) (status : ScreenStatus) :
    (m.setStatus screenId status).statusOf id =
      if id = screenId then (m.statusOf screenId).map fun _ => status else m.statusOf id := by
  simp only [ProfileConfig.statusOf, getScreen_setStatus]
  split
  · simp [Option.map_map, Function.comp_def]
  · rfl

/-! ## What the cloud was sent of a screen -/

/-- A status that was sent; or what a snapshot has changed it to, `none` where the screen is not in
the profile. -/
inductive Notice where
  | sent (status : ScreenStatus)
  | changed (status : Option ScreenStatus)
  deriving DecidableEq

namespace Notice

/-- What the profile says after it. -/
def status : Notice → Option ScreenStatus
  | .sent status => some status
  | .changed status => status

/-- What may come next. -/
def Follows : Notice → Notice → Prop
  | .sent old, .sent status => old ≠ status ∧ (status = .kDisconnected → old = .kConnected)
  | .changed before, .sent status => ∃ old, before = some old ∧
      (status = .kConnecting → old ≠ .kConnecting) ∧ (status = .kDisconnected → old = .kConnected)
  | before, .changed status => before.status ≠ status

end Notice

open Notice (Follows)

def Entry.about (id : Int) : Entry → Option Notice
  | .sent screenId status => if screenId = id then some (.sent status) else none
  | .assigned before after =>
    if before.statusOf id = after.statusOf id then none else some (.changed (after.statusOf id))

/-- What the cloud was sent of a screen, and what snapshots changed of it. -/
def sentOf (s : CoreStatusMonitor) (id : Int) : List Notice := s.history.filterMap (Entry.about id)

/-- The same, behind what the profile has said at the start. -/
def noticesOf (s : CoreStatusMonitor) (profile : ProfileConfig) (id : Int) : List Notice :=
  .changed (profile.statusOf id) :: s.sentOf id

structure Alternates (s : CoreStatusMonitor) (profile : ProfileConfig) (id : Int) : Prop where
  chain : (s.noticesOf profile id).IsChain Follows
  last : ∀ notice ∈ (s.noticesOf profile id).getLast?,
    s.localProfileConfig.statusOf id = notice.status
  /-- The monitor has not been told of anything else. -/
  connected : (s.noticesOf profile id).getLast? = some (.sent .kConnected) →
    s.screenStates id = .kConnected

variable {s s' : CoreStatusMonitor} {profile : ProfileConfig} {screenId id : Int}
  {status : ScreenStatus} {threw : Bool}

/-- How a status that the monitor has noted ends. -/
inductive ChangeCase (s : CoreStatusMonitor) (screenId : Int) (status : ScreenStatus) :
    CoreStatusMonitor → Prop
  | missing (absent : s.localProfileConfig.statusOf screenId = none) :
      ChangeCase s screenId status s
  | skipped (old : ScreenStatus) (present : s.localProfileConfig.statusOf screenId = some old)
      (held : (old = .kConnecting ∧ status = .kConnecting) ∨
        (status = .kDisconnected ∧ old ≠ .kConnected)) :
      ChangeCase s screenId status s
  | sent (old : ScreenStatus) (present : s.localProfileConfig.statusOf screenId = some old)
      (connecting : status = .kConnecting → old ≠ .kConnecting)
      (disconnected : status = .kDisconnected → old = .kConnected) :
      ChangeCase s screenId status { s with
        localProfileConfig := s.localProfileConfig.setStatus screenId status
        history := s.history ++ [.sent screenId status] }

theorem screenStatusChanged_cases (s : CoreStatusMonitor) (screenId : Int)
    (status : ScreenStatus) :
    ChangeCase s screenId status (s.screenStatusChanged screenId status).1 := by
  unfold screenStatusChanged
  cases hscreen : s.localProfileConfig.getScreen screenId with
  | none => exact .missing (by simp [ProfileConfig.statusOf, hscreen])
  | some screen =>
    have hpresent : s.localProfileConfig.statusOf screenId = some screen.status := by
      simp [ProfileConfig.statusOf, hscreen]
    dsimp only
    split
    · rename_i h
      exact .skipped _ hpresent (Or.inl ⟨h.1.trans h.2, h.2⟩)
    · rename_i hconnecting
      split
      · rename_i h
        exact .skipped _ hpresent (Or.inr h)
      · rename_i hdisconnected
        refine .sent _ hpresent (fun h hold => hconnecting ⟨hold.trans h.symm, h⟩) fun h => ?_
        exact not_not.mp fun hold => hdisconnected ⟨h, hold⟩

/-- A step that sends nothing and leaves the profile alone. -/
theorem Alternates.of_history (h : s.Alternates profile id) (hhistory : s'.history = s.history)
    (hprofile : s'.localProfileConfig = s.localProfileConfig)
    (hconnected : s.localProfileConfig.statusOf id = some .kConnected →
      s.screenStates id = .kConnected → s'.screenStates id = .kConnected) :
    s'.Alternates profile id := by
  have hnotices : s'.noticesOf profile id = s.noticesOf profile id := by
    rw [noticesOf, sentOf, hhistory, noticesOf, sentOf]
  refine ⟨hnotices ▸ h.chain, fun notice hlast => ?_, fun hlast => ?_⟩
  · rw [hprofile]
    exact h.last notice (hnotices ▸ hlast)
  · rw [hnotices] at hlast
    exact hconnected (h.last _ hlast) (h.connected hlast)

/-- What is sent next may follow what was sent last. -/
theorem Alternates.follows (h : s.Alternates profile id) {old : ScreenStatus}
    (hpresent : s.localProfileConfig.statusOf id = some old) (hchanged : status ≠ s.screenStates id)
    (hstatus : status ≠ .kInactive) (hconnecting : status = .kConnecting → old ≠ .kConnecting)
    (hdisconnected : status = .kDisconnected → old = .kConnected) :
    ∀ notice ∈ (s.noticesOf profile id).getLast?, Follows notice (.sent status) := by
  intro notice hlast
  have hold : some old = notice.status := hpresent.symm.trans (h.last notice hlast)
  cases notice with
  | changed before => exact ⟨old, hold.symm, hconnecting, hdisconnected⟩
  | sent last =>
    obtain rfl : old = last := Option.some.inj hold
    refine ⟨fun hsame => ?_, hdisconnected⟩
    subst hsame
    cases old with
    | kConnected => exact hchanged (h.connected hlast).symm
    | kConnecting => exact hconnecting rfl rfl
    | kDisconnected => exact absurd (hdisconnected rfl) (by simp)
    | kInactive => exact hstatus rfl

@[simp] theorem screenStates_setState (s : CoreStatusMonitor) (screenId i : Int)
    (status : ScreenStatus) :
    (s.setState screenId status).screenStates i =
      if i = screenId then status else s.screenStates i := rfl

/-- The state after a status was sent. -/
def send (s : CoreStatusMonitor) (screenId : Int) (status : ScreenStatus) : CoreStatusMonitor :=
  { s.setState screenId status with
    localProfileConfig := s.localProfileConfig.setStatus screenId status
    history := s.history ++ [.sent screenId status] }

theorem Alternates.send_self (h : s.Alternates profile screenId) {old : ScreenStatus}
    (hpresent : s.localProfileConfig.statusOf screenId = some old)
    (hfollows : ∀ notice ∈ (s.noticesOf profile screenId).getLast?, Follows notice (.sent status)) :
    (s.send screenId status).Alternates profile screenId := by
  have hnotices : (s.send screenId status).noticesOf profile screenId =
      s.noticesOf profile screenId ++ [.sent status] := by
    simp [send, noticesOf, sentOf, Entry.about]
  refine ⟨?_, fun notice hlast => ?_, fun hlast => ?_⟩
  · rw [hnotices]
    refine List.isChain_append.mpr ⟨h.chain, List.isChain_singleton _, ?_⟩
    intro before hbefore notice hnotice
    obtain rfl : Notice.sent status = notice := by simpa using hnotice
    exact hfollows before hbefore
  · obtain rfl : Notice.sent status = notice := by simpa [hnotices] using hlast
    simp [send, statusOf_setStatus, hpresent, Notice.status]
  · obtain rfl : status = .kConnected := by simpa [hnotices] using hlast
    simp [send]

theorem Alternates.send_other (h : s.Alternates profile id) (hne : id ≠ screenId) :
    (s.send screenId status).Alternates profile id := by
  have hnotices : (s.send screenId status).noticesOf profile id = s.noticesOf profile id := by
    simp [send, noticesOf, sentOf, Entry.about, Ne.symm hne]
  refine ⟨hnotices ▸ h.chain, fun notice hlast => ?_, fun hlast => ?_⟩
  · simpa [send, statusOf_setStatus, hne] using h.last notice (hnotices ▸ hlast)
  · simpa [send, hne] using h.connected (hnotices ▸ hlast)

/-- The slots and `start` never tell the monitor of the fourth status. -/
theorem Alternates.update (h : s.Alternates profile id) (hstatus : status ≠ .kInactive) :
    (s.update screenId status).1.Alternates profile id := by
  unfold CoreStatusMonitor.update
  split
  · rename_i hchanged
    have hcase := screenStatusChanged_cases (s.setState screenId status) screenId status
    generalize ((s.setState screenId status).screenStatusChanged screenId status).1 = s' at hcase
    cases hcase with
    | missing absent =>
      -- the monitor remembers the status although nothing is sent
      refine h.of_history rfl rfl fun hnow hold => ?_
      have hne : id ≠ screenId := by
        rintro rfl
        exact absurd (hnow.symm.trans absent) (by simp)
      rw [screenStates_setState, if_neg hne, hold]
    | skipped old present held =>
      -- nothing is held back while the profile says that the screen is connected
      refine h.of_history rfl rfl fun hnow hold => ?_
      have hne : id ≠ screenId := by
        rintro rfl
        obtain rfl : old = .kConnected := Option.some.inj (present.symm.trans hnow)
        simp at held
      rw [screenStates_setState, if_neg hne, hold]
    | sent old present connecting disconnected =>
      by_cases hid : id = screenId
      · subst hid
        exact h.send_self present
          (h.follows present hchanged hstatus connecting disconnected)
      · exact h.send_other hid
  · rename_i hsame
    refine h.of_history rfl rfl fun _ hold => ?_
    rw [screenStates_setState]
    split
    · rename_i hid
      exact (not_not.mp hsame).trans (hid ▸ hold)
    · exact hold

theorem Alternates.assign (h : s.Alternates profile id) (target : ProfileConfig) :
    (s.assign target).Alternates profile id := by
  by_cases hsame : s.localProfileConfig.statusOf id = target.statusOf id
  · have hnotices : (s.assign target).noticesOf profile id = s.noticesOf profile id := by
      simp [CoreStatusMonitor.assign, noticesOf, sentOf, Entry.about, hsame]
    refine ⟨hnotices ▸ h.chain, fun notice hlast => ?_, fun hlast => h.connected (hnotices ▸ hlast)⟩
    exact hsame.symm.trans (h.last notice (hnotices ▸ hlast))
  · have hnotices : (s.assign target).noticesOf profile id =
        s.noticesOf profile id ++ [.changed (target.statusOf id)] := by
      simp [CoreStatusMonitor.assign, noticesOf, sentOf, Entry.about, hsame]
    refine ⟨?_, fun notice hlast => ?_, fun hlast => ?_⟩
    · rw [hnotices]
      refine List.isChain_append.mpr ⟨h.chain, List.isChain_singleton _, ?_⟩
      intro before hbefore notice hnotice
      obtain rfl : Notice.changed (target.statusOf id) = notice := by simpa using hnotice
      have hdiffers : before.status ≠ target.statusOf id :=
        fun hstatus => hsame ((h.last before hbefore).trans hstatus)
      cases before <;> exact hdiffers
    · obtain rfl : Notice.changed (target.statusOf id) = notice := by simpa [hnotices] using hlast
      rfl
    · exact absurd hlast (by simp [hnotices])

/-! ## Runs -/

/-- Every slot passes on one of the first three statuses. -/
def Slots (signals : List Slot) : Prop := ∀ slot ∈ signals, slot.status ≠ .kInactive

theorem slots_monitor (s : CoreStatusMonitor) (mode : ProcessMode) (localScreenId : Int) :
    Slots (s.monitor mode localScreenId).signals := by
  cases mode <;> simp [Slots, monitor]

theorem signals_update (s : CoreStatusMonitor) (screenId : Int) (status : ScreenStatus) :
    (s.update screenId status).1.signals = s.signals := by
  unfold update
  split
  · have hcase := screenStatusChanged_cases (s.setState screenId status) screenId status
    generalize ((s.setState screenId status).screenStatusChanged screenId status).1 = s' at hcase
    cases hcase <;> rfl
  · rfl

theorem runSlots_keeps (line : List UInt8) {slots : List Slot} (hslots : Slots slots)
    (h : ∀ id, s.Alternates profile id) :
    (runSlots line slots s).signals = s.signals ∧
      ∀ id, (runSlots line slots s).Alternates profile id := by
  induction slots generalizing s with
  | nil => exact ⟨rfl, h⟩
  | cons slot slots ih =>
    obtain ⟨hslot, hslots⟩ := List.forall_mem_cons.mp hslots
    have hsignals := signals_update s slot.screenId slot.status
    have hupdate : ∀ id, (s.update slot.screenId slot.status).1.Alternates profile id :=
      fun id => (h id).update hslot
    unfold runSlots
    split
    · generalize s.update slot.screenId slot.status = result at hsignals hupdate ⊢
      obtain ⟨s', threw⟩ := result
      cases threw with
      | true => exact ⟨hsignals, hupdate⟩
      | false =>
        obtain ⟨hkept, halternates⟩ := ih hslots hupdate
        exact ⟨hkept.trans hsignals, halternates⟩
    · exact ih hslots h

/-- What every event keeps. -/
structure Keeps (s : CoreStatusMonitor) (profile : ProfileConfig) : Prop where
  slots : Slots s.signals
  alternates : ∀ id, s.Alternates profile id

theorem Keeps.step (h : s.Keeps profile) {ev : Event} (hstep : s.step ev = some s') :
    s'.Keeps profile := by
  cases ev with
  | start mode screenId =>
    obtain rfl := Option.some.inj hstep
    have hsignals := signals_update s screenId .kConnecting
    have hupdate : ∀ id, (s.update screenId .kConnecting).1.Alternates profile id :=
      fun id => (h.alternates id).update (by simp)
    unfold start
    generalize s.update screenId .kConnecting = result at hsignals hupdate ⊢
    obtain ⟨s', threw⟩ := result
    cases threw with
    | true => exact ⟨hsignals ▸ h.slots, hupdate⟩
    | false =>
      refine ⟨slots_monitor s' mode screenId, fun id => ?_⟩
      exact (hupdate id).of_history rfl rfl fun _ hold => hold
  | output line =>
    obtain rfl := Option.some.inj hstep
    obtain ⟨hsignals, halternates⟩ := runSlots_keeps line h.slots h.alternates
    refine ⟨?_, halternates⟩
    rw [hsignals]
    exact h.slots
  | snapshot target =>
    obtain rfl := Option.some.inj hstep
    exact ⟨h.slots, fun id => (h.alternates id).assign _⟩
  | clear =>
    obtain rfl := Option.some.inj hstep
    exact ⟨h.slots, fun id => (h.alternates id).assign _⟩

/-- **The same status is never sent twice in a row**, and `kDisconnected` only behind `kConnected`,
whatever the core prints and in whichever order starts and snapshots come. What is sent first, or
first after a snapshot has changed the status, is about a screen of the profile, and no second
`kConnecting`. What was sent or changed last is what the profile says. -/
theorem sent_alternates (profile : ProfileConfig) (evs : List Event) (id : Int) :
    ((execs step { localProfileConfig := profile } evs).noticesOf profile id).IsChain Follows ∧
      ∀ notice ∈
        ((execs step { localProfileConfig := profile } evs).noticesOf profile id).getLast?,
          (execs step { localProfileConfig := profile } evs).localProfileConfig.statusOf id =
            notice.status := by
  have hrun : Run step (fun _ _ => True) { localProfileConfig := profile }
      (execs step { localProfileConfig := profile } evs) :=
    Run.nil.execs (allOk_of_forall (fun _ _ => trivial) _ evs)
  have hinitial : Keeps { localProfileConfig := profile } profile :=
    ⟨by simp [Slots], fun id => ⟨by simp [noticesOf, sentOf],
      by simp [noticesOf, sentOf, Notice.status], by simp [noticesOf, sentOf]⟩⟩
  have hkeeps : (execs step { localProfileConfig := profile } evs).Keeps profile :=
    hrun.invariant hinitial fun _ _ _ _ hs _ hstep => Keeps.step hs hstep
  exact ⟨(hkeeps.alternates id).chain, (hkeeps.alternates id).last⟩

/-- A client that connects, is suspended, and says so twice. -/
example : (execs step { localProfileConfig := { screens := [{ id := 1 }] } }
    [.start .kClient 1, .output (ascii "NOTE: connecting to '127.0.0.1'"),
      .output (ascii "NOTE: connected to server"), .output (ascii "INFO: suspend"),
      .output (ascii "INFO: suspend")]).sentOf 1 =
    [.sent .kConnecting, .sent .kConnected, .sent .kDisconnected] := by decide +kernel

end CoreStatusMonitor

end Synergy
