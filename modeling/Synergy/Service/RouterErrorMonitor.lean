import Synergy.Lib.Keyed
import Synergy.Lib.Run
import Synergy.Router.Signals

/-!
# The reachability monitor

`RouterErrorMonitor` listens to the profile, for screens that come online and go offline, and to the
router's two signals. A screen that is online or has been lost is given three seconds; what is
announced is what the router has said by the end of them. Where no timer runs, a screen that becomes
reachable is announced at once.

`stopTimer` cancels the wait. Its handler sees that and announces nothing, and neither does the
first signal about a screen that the monitor has not met. So the last announcement may be out of
date, and `verdict` says when it may not be.

A slot runs to its end before the next event. The `poll ()` at the end of `stopTimer` runs handlers,
which are the events that follow.
-/

set_option autoImplicit false

namespace Synergy

open Lib

/-- An `async_wait` whose handler has not run. -/
inductive RouterErrorScreenMonitor.Wait where
  | waiting
  /-- The handler is queued. -/
  | expired
  /-- The handler is queued with `operation_aborted`. -/
  | aborted
  deriving DecidableEq

/-- How a wait or a signal about a screen ended. -/
inductive RouterErrorScreenMonitor.Report where
  /-- `onReachable` or `onUnreachable` was emitted. -/
  | told (reachable : Bool)
  /-- A handler returned early. -/
  | aborted
  deriving DecidableEq

open RouterErrorScreenMonitor (Wait Report)

structure RouterErrorScreenMonitor where
  screenId : Int
  reachable : Bool := false
  timerRunning : Bool := false
  waits : List Wait := []
  /-- Oldest first. -/
  reports : List Report := []
  deriving DecidableEq

namespace RouterErrorScreenMonitor

def setReachable (reachable : Bool) (s : RouterErrorScreenMonitor) : RouterErrorScreenMonitor :=
  { s with reachable := reachable }

/-- `m_timer.cancel ()`, which `expires_from_now` does too. It does not reach an expiry that is
queued already. -/
def cancel (ws : List Wait) : List Wait := ws.map fun w => if w = .waiting then .aborted else w

def startTimer (s : RouterErrorScreenMonitor) : RouterErrorScreenMonitor :=
  { s with timerRunning := true, waits := cancel s.waits ++ [.waiting] }

def stopTimer (s : RouterErrorScreenMonitor) : RouterErrorScreenMonitor :=
  if !s.timerRunning then s else { s with waits := cancel s.waits }

def notify (s : RouterErrorScreenMonitor) : RouterErrorScreenMonitor :=
  { s with reports := s.reports ++ [.told s.reachable] }

/-- All waits are for the same timer. -/
def expire (s : RouterErrorScreenMonitor) : Option RouterErrorScreenMonitor :=
  if .waiting ∈ s.waits then
    some { s with waits := s.waits.map fun w => if w = .waiting then .expired else w }
  else none

/-- The handler of a wait. -/
def handle (s : RouterErrorScreenMonitor) (i : ℕ) : Option RouterErrorScreenMonitor :=
  let s' := { s with timerRunning := false, waits := s.waits.eraseIdx i }
  match s.waits[i]? with
  | some .expired => some s'.notify
  | some .aborted => some { s' with reports := s'.reports ++ [.aborted] }
  | _ => none

/-- What the announcements say of the screen, unless the last wait was given up. A screen of which
nothing was ever announced is one that the router has found. -/
def verdict (s : RouterErrorScreenMonitor) : Option Bool :=
  match s.reports.getLast? with
  | none => some true
  | some (.told reachable) => some reachable
  | some .aborted => none

end RouterErrorScreenMonitor

structure RouterErrorMonitor where
  router : Router
  monitors : List RouterErrorScreenMonitor

inductive RouterErrorMonitor.Event where
  /-- The router handles a message, or loses a connection. -/
  | call (k : Router.Call)
  | screenOnline (screenId : Int)
  | screenOffline (screenId : Int)
  | expire (screenId : Int)
  | handle (screenId : Int) (i : ℕ)

namespace RouterErrorMonitor

def find (m : RouterErrorMonitor) (screenId : Int) : Option RouterErrorScreenMonitor :=
  m.monitors.find? fun s => s.screenId = screenId

/-- What is done through the iterator that `find_if` has returned. -/
def update (m : RouterErrorMonitor) (screenId : Int)
    (f : RouterErrorScreenMonitor → RouterErrorScreenMonitor) : RouterErrorMonitor :=
  { m with
    monitors := m.monitors.replaceF fun s => if s.screenId = screenId then some (f s) else none }

/-- The screen's monitor is there afterwards. The second part is `added`. -/
def addScreen (m : RouterErrorMonitor) (screenId : Int) : RouterErrorMonitor × Bool :=
  match m.find screenId with
  | none => ({ m with monitors := m.monitors ++ [{ screenId := screenId }] }, true)
  | some _ => (m, false)

def screenOnline (m : RouterErrorMonitor) (screenId : Int) : RouterErrorMonitor :=
  let (m, added) := m.addScreen screenId
  m.update screenId fun s => if added then s.startTimer
    else if !s.timerRunning then s.startTimer else s

def screenOffline (m : RouterErrorMonitor) (screenId : Int) : RouterErrorMonitor :=
  m.update screenId fun s => s.stopTimer

def nodeReachable (m : RouterErrorMonitor) (screenId : Int) : RouterErrorMonitor :=
  let (m, added) := m.addScreen screenId
  m.update screenId fun s =>
    let s := s.setReachable true
    if !added then if !s.timerRunning then s.notify else s else s

def nodeUnreachable (m : RouterErrorMonitor) (screenId : Int) : RouterErrorMonitor :=
  m.update screenId fun s =>
    let s := s.setReachable false
    if !s.timerRunning then s.startTimer else s

def onSignal (m : RouterErrorMonitor) : NodeSignal → RouterErrorMonitor
  | .reachable node => m.nodeReachable node.toNat
  | .unreachable node => m.nodeUnreachable node.toNat

/-- The signals are emitted in the middle of the call. No slot calls the router. -/
def call (m : RouterErrorMonitor) (k : Router.Call) : RouterErrorMonitor :=
  ((m.router.call k).signals.drop m.router.signals.length).foldl onSignal
    { m with router := m.router.call k }

def step (m : RouterErrorMonitor) : Event → Option RouterErrorMonitor
  | .call k => some (m.call k)
  | .screenOnline screenId => some (m.screenOnline screenId)
  | .screenOffline screenId => some (m.screenOffline screenId)
  | .expire screenId =>
    ((m.find screenId).bind fun s => s.expire).map fun s => m.update screenId fun _ => s
  | .handle screenId i =>
    ((m.find screenId).bind fun s => s.handle i).map fun s => m.update screenId fun _ => s

/-- `remove` enumerates the dead routes, in some order. -/
def Allowed (m : RouterErrorMonitor) : Event → Prop
  | .call k => k.Allowed m.router
  | _ => True

instance (m : RouterErrorMonitor) : (ev : Event) → Decidable (m.Allowed ev)
  | .call (.remove c dead) => inferInstanceAs (Decidable (dead.Perm (m.router.deadRoutes c)))
  | .call (.advertisement _ _) | .call (.revocation _ _) => inferInstanceAs (Decidable True)
  | .screenOnline _ | .screenOffline _ | .expire _ | .handle _ _ =>
    inferInstanceAs (Decidable True)

def initial (id : UInt32) (running : Bool) (connections : ConnectionTable) :
    RouterErrorMonitor where
  router := .initial id running connections
  monitors := []

end RouterErrorMonitor

/-! ## One monitor -/

namespace RouterErrorScreenMonitor

variable {s s' : RouterErrorScreenMonitor} {on on' : Prop} {i : ℕ}

/-- The monitor of a screen about which the router's last signal was `on_node_reachable`, if `on`.
Its timer has a wait exactly while it runs, and while it does not the verdict is right. -/
structure Sound (s : RouterErrorScreenMonitor) (on : Prop) : Prop where
  reachable : s.reachable = true ↔ on
  waits : s.waits.length = if s.timerRunning then 1 else 0
  verdict : s.timerRunning = false → ∀ b, s.verdict = some b → b = s.reachable

/-- The last report decides. -/
theorem verdict_of_concat {reports : List Report} {report : Report}
    (h : s.reports = reports ++ [report]) :
    s.verdict = match report with
      | .told b => some b
      | .aborted => none := by
  simp only [RouterErrorScreenMonitor.verdict, h, List.getLast?_concat]
  cases report <;> rfl

@[simp] theorem length_cancel (ws : List Wait) : (cancel ws).length = ws.length :=
  List.length_map _

@[simp] theorem setReachable_screenId (b : Bool) (s : RouterErrorScreenMonitor) :
    (s.setReachable b).screenId = s.screenId := rfl

@[simp] theorem startTimer_screenId (s : RouterErrorScreenMonitor) :
    s.startTimer.screenId = s.screenId := rfl

@[simp] theorem notify_screenId (s : RouterErrorScreenMonitor) :
    s.notify.screenId = s.screenId := rfl

@[simp] theorem stopTimer_screenId (s : RouterErrorScreenMonitor) :
    s.stopTimer.screenId = s.screenId := by
  unfold stopTimer
  split <;> rfl

theorem expire_screenId (hstep : s.expire = some s') : s'.screenId = s.screenId := by
  simp only [expire, Option.ite_none_right_eq_some, Option.some.injEq] at hstep
  rw [← hstep.2]

theorem handle_screenId (hstep : s.handle i = some s') : s'.screenId = s.screenId := by
  unfold handle at hstep
  dsimp only at hstep
  split at hstep
  · rw [← Option.some.inj hstep, notify_screenId]
  · rw [← Option.some.inj hstep]
  · exact absurd hstep (by simp)

@[simp] theorem setReachable_timerRunning (b : Bool) (s : RouterErrorScreenMonitor) :
    (s.setReachable b).timerRunning = s.timerRunning := rfl

/-- A timer that does not run is started, whatever was announced before. -/
theorem sound_startTimer (hreachable : s.reachable = true ↔ on) (hwaits : s.waits = []) :
    s.startTimer.Sound on where
  reachable := hreachable
  waits := by simp [startTimer, hwaits, cancel]
  verdict h := absurd h (by simp [startTimer])

theorem Sound.waits_nil (h : s.Sound on) (hrunning : s.timerRunning = false) : s.waits = [] := by
  have hlength := h.waits
  rw [hrunning] at hlength
  exact List.length_eq_zero_iff.mp hlength

theorem Sound.stopTimer (h : s.Sound on) : s.stopTimer.Sound on := by
  unfold RouterErrorScreenMonitor.stopTimer
  split
  · exact h
  · exact ⟨h.reachable, (length_cancel _).trans h.waits, h.verdict⟩

theorem Sound.expire (h : s.Sound on) (hstep : s.expire = some s') : s'.Sound on := by
  simp only [RouterErrorScreenMonitor.expire, Option.ite_none_right_eq_some,
    Option.some.injEq] at hstep
  obtain ⟨_, rfl⟩ := hstep
  exact ⟨h.reachable, (List.length_map _).trans h.waits, h.verdict⟩

/-- The wait that is handled was the only one. -/
theorem Sound.eraseIdx_nil (h : s.Sound on) {w : Wait} (hwait : s.waits[i]? = some w) :
    s.waits.eraseIdx i = [] := by
  have hi : i < s.waits.length := (List.getElem?_eq_some_iff.mp hwait).1
  have hone : s.waits.length ≤ 1 := by
    rw [h.waits]
    split <;> omega
  refine List.length_eq_zero_iff.mp ?_
  rw [List.length_eraseIdx_of_lt hi]
  omega

theorem Sound.handle (h : s.Sound on) (hstep : s.handle i = some s') : s'.Sound on := by
  unfold RouterErrorScreenMonitor.handle at hstep
  dsimp only at hstep
  split at hstep
  · rename_i hwait
    obtain rfl := Option.some.inj hstep
    refine ⟨h.reachable, congrArg List.length (h.eraseIdx_nil hwait), fun _ b hb => ?_⟩
    rw [verdict_of_concat rfl] at hb
    exact (Option.some.inj hb).symm
  · rename_i hwait
    obtain rfl := Option.some.inj hstep
    refine ⟨h.reachable, congrArg List.length (h.eraseIdx_nil hwait), fun _ b hb => ?_⟩
    rw [verdict_of_concat rfl] at hb
    exact absurd hb (by simp)
  · exact absurd hstep (by simp)

/-- The router has found a screen that is monitored already. -/
theorem Sound.found (h : s.Sound on) (hon : on') :
    (if !(s.setReachable true).timerRunning then (s.setReachable true).notify
      else s.setReachable true).Sound on' := by
  split
  · refine ⟨iff_of_true rfl hon, h.waits, fun _ b hb => ?_⟩
    rw [verdict_of_concat rfl] at hb
    exact (Option.some.inj hb).symm
  · rename_i hrunning
    exact ⟨iff_of_true rfl hon, h.waits, fun hstopped => absurd hstopped (by simpa using hrunning)⟩

theorem Sound.lost (h : s.Sound on) (hoff : ¬on') :
    (if !(s.setReachable false).timerRunning then (s.setReachable false).startTimer
      else s.setReachable false).Sound on' := by
  split
  · rename_i hstopped
    exact sound_startTimer (iff_of_false (by simp [setReachable]) hoff)
      (h.waits_nil (by simpa using hstopped))
  · rename_i hrunning
    exact ⟨iff_of_false (by simp [setReachable]) hoff, h.waits,
      fun hstopped => absurd hstopped (by simpa using hrunning)⟩

end RouterErrorScreenMonitor

/-! ## The list of monitors -/

namespace RouterErrorMonitor

variable {m m' : RouterErrorMonitor} {s s' : RouterErrorScreenMonitor} {screenId id : Int}

theorem screenId_of_find (h : m.find id = some s) : s.screenId = id := by
  simpa using List.find?_some h

theorem find_update {f : RouterErrorScreenMonitor → RouterErrorScreenMonitor}
    (hf : ∀ s, s.screenId = screenId → (f s).screenId = screenId) (id : Int) :
    (m.update screenId f).find id =
      if id = screenId then (m.find screenId).map f else m.find id := by
  simp only [find, update]
  exact find?_replaceF m.monitors hf id

@[simp] theorem router_update (m : RouterErrorMonitor) (screenId : Int)
    (f : RouterErrorScreenMonitor → RouterErrorScreenMonitor) :
    (m.update screenId f).router = m.router := rfl

@[simp] theorem router_addScreen (m : RouterErrorMonitor) (screenId : Int) :
    (m.addScreen screenId).1.router = m.router := by
  unfold addScreen
  split <;> rfl

/-- `addScreen`, and what is done with the monitor it returns. -/
theorem find_addScreen {f : Bool → RouterErrorScreenMonitor → RouterErrorScreenMonitor}
    (hf : ∀ added s, s.screenId = screenId → (f added s).screenId = screenId) (id : Int) :
    ((m.addScreen screenId).1.update screenId (f (m.addScreen screenId).2)).find id =
      if id = screenId then
        some (match m.find screenId with
          | none => f true { screenId := screenId }
          | some s => f false s)
      else m.find id := by
  rw [find_update (hf _)]
  cases hfind : m.find screenId with
  | none =>
    have hadd : m.addScreen screenId =
        ({ m with monitors := m.monitors ++ [{ screenId := screenId }] }, true) := by
      rw [addScreen, hfind]
    rw [hadd]
    simp only [find] at hfind ⊢
    by_cases hid : id = screenId
    · simp [hid, hfind]
    · simp [hid, Ne.symm hid]
  | some s =>
    have hadd : m.addScreen screenId = (m, false) := by rw [addScreen, hfind]
    rw [hadd, hfind]
    rfl

/-! ## The monitors follow the signals -/

/-- `Sound`, or there is no monitor and the router has not said that it reaches the screen. -/
def Tracks (monitor : Option RouterErrorScreenMonitor) (on : Prop) : Prop :=
  match monitor with
  | none => ¬on
  | some s => s.Sound on

variable {on on' : Int → Prop}

theorem tracks_update {f : RouterErrorScreenMonitor → RouterErrorScreenMonitor}
    (h : ∀ id, Tracks (m.find id) (on id))
    (hf : ∀ s, s.screenId = screenId → (f s).screenId = screenId)
    (hself : Tracks ((m.find screenId).map f) (on' screenId))
    (hother : ∀ id, id ≠ screenId → (on' id ↔ on id)) (id : Int) :
    Tracks ((m.update screenId f).find id) (on' id) := by
  rw [find_update hf]
  split
  · rename_i hid
    exact hid ▸ hself
  · rename_i hid
    rw [propext (hother id hid)]
    exact h id

theorem tracks_addScreen {f : Bool → RouterErrorScreenMonitor → RouterErrorScreenMonitor}
    (h : ∀ id, Tracks (m.find id) (on id))
    (hf : ∀ added s, s.screenId = screenId → (f added s).screenId = screenId)
    (hnew : ¬on screenId → (f true { screenId := screenId }).Sound (on' screenId))
    (hold : ∀ s, s.Sound (on screenId) → (f false s).Sound (on' screenId))
    (hother : ∀ id, id ≠ screenId → (on' id ↔ on id)) (id : Int) :
    Tracks (((m.addScreen screenId).1.update screenId (f (m.addScreen screenId).2)).find id)
      (on' id) := by
  rw [find_addScreen hf]
  have hself := h screenId
  split
  · rename_i hid
    subst hid
    cases hfind : m.find id with
    | none => exact hnew (by rwa [hfind] at hself)
    | some s => exact hold s (by rwa [hfind] at hself)
  · rename_i hid
    rw [propext (hother id hid)]
    exact h id

theorem tracks_screenOnline (h : ∀ id, Tracks (m.find id) (on id)) (screenId id : Int) :
    Tracks ((m.screenOnline screenId).find id) (on id) := by
  refine tracks_addScreen (f := fun added s => if added then s.startTimer
    else if !s.timerRunning then s.startTimer else s) h ?_ ?_ ?_ (fun _ _ => Iff.rfl) id
  · intro added s hs
    cases added <;> cases hrunning : s.timerRunning <;> simpa [hrunning] using hs
  · intro hoff
    exact RouterErrorScreenMonitor.sound_startTimer (iff_of_false (by simp) hoff) rfl
  · intro s hs
    cases hrunning : s.timerRunning with
    | false =>
      have hsound := RouterErrorScreenMonitor.sound_startTimer hs.reachable (hs.waits_nil hrunning)
      simpa [hrunning] using hsound
    | true => simpa [hrunning] using hs

theorem tracks_screenOffline (h : ∀ id, Tracks (m.find id) (on id)) (screenId id : Int) :
    Tracks ((m.screenOffline screenId).find id) (on id) := by
  refine tracks_update h ?_ ?_ (fun _ _ => Iff.rfl) id
  · intro s hs
    rwa [RouterErrorScreenMonitor.stopTimer_screenId]
  · have hself := h screenId
    cases hfind : m.find screenId with
    | none => rwa [hfind] at hself
    | some s => exact RouterErrorScreenMonitor.Sound.stopTimer (by rwa [hfind] at hself)

theorem tracks_nodeReachable (h : ∀ id, Tracks (m.find id) (on id)) (hon : on' screenId)
    (hother : ∀ id, id ≠ screenId → (on' id ↔ on id)) (id : Int) :
    Tracks ((m.nodeReachable screenId).find id) (on' id) := by
  refine tracks_addScreen (f := fun added s =>
    if !added then if !(s.setReachable true).timerRunning then (s.setReachable true).notify
      else s.setReachable true else s.setReachable true) h ?_ ?_ ?_ hother id
  · intro added s hs
    cases added <;> cases hrunning : s.timerRunning <;> simpa [hrunning] using hs
  · intro _
    refine ⟨iff_of_true rfl hon, rfl, fun _ b hb => ?_⟩
    exact (Option.some.inj hb).symm
  · intro s hs
    exact hs.found hon

theorem tracks_nodeUnreachable (h : ∀ id, Tracks (m.find id) (on id)) (hoff : ¬on' screenId)
    (hother : ∀ id, id ≠ screenId → (on' id ↔ on id)) (id : Int) :
    Tracks ((m.nodeUnreachable screenId).find id) (on' id) := by
  refine tracks_update h ?_ ?_ hother id
  · intro s hs
    cases hrunning : s.timerRunning <;> simpa [hrunning] using hs
  · have hself := h screenId
    cases hfind : m.find screenId with
    | none => exact hoff
    | some s =>
      have hsound : s.Sound (on screenId) := by rwa [hfind] at hself
      exact hsound.lost hoff

/-- A wait ends, or its handler runs. -/
theorem tracks_set (h : ∀ id, Tracks (m.find id) (on id)) (hid : s'.screenId = screenId)
    (hsound : s'.Sound (on screenId)) (hsome : (m.find screenId).isSome) (id : Int) :
    Tracks ((m.update screenId fun _ => s').find id) (on id) := by
  refine tracks_update h (fun _ _ => hid) ?_ (fun _ _ => Iff.rfl) id
  obtain ⟨s, hfind⟩ := Option.isSome_iff_exists.mp hsome
  rw [hfind]
  exact hsound

/-! ## Runs -/

/-- What a signal says about the screen. -/
def said (screenId : Int) : NodeSignal → Option Bool
  | .reachable node => if (node.toNat : Int) = screenId then some true else none
  | .unreachable node => if (node.toNat : Int) = screenId then some false else none

/-- The last signal about the screen was `on_node_reachable`. -/
def Found (signals : List NodeSignal) (screenId : Int) : Prop :=
  (signals.filterMap (said screenId)).getLast? = some true

theorem found_concat (signals : List NodeSignal) (signal : NodeSignal) (screenId : Int) :
    Found (signals ++ [signal]) screenId ↔
      match said screenId signal with
      | none => Found signals screenId
      | some b => b = true := by
  unfold Found
  rw [List.filterMap_append]
  cases hsaid : said screenId signal with
  | none => simp [hsaid]
  | some b => simp [hsaid]

theorem tracks_onSignal {signals : List NodeSignal}
    (h : ∀ id, Tracks (m.find id) (Found signals id)) (signal : NodeSignal) (id : Int) :
    Tracks ((m.onSignal signal).find id) (Found (signals ++ [signal]) id) := by
  cases signal with
  | reachable node =>
    refine tracks_nodeReachable h ((found_concat ..).mpr (by simp [said])) (fun id hid => ?_) id
    rw [found_concat, said, if_neg (Ne.symm hid)]
  | unreachable node =>
    refine tracks_nodeUnreachable h (fun hfound => ?_) (fun id hid => ?_) id
    · simpa [said] using (found_concat ..).mp hfound
    · rw [found_concat, said, if_neg (Ne.symm hid)]

@[simp] theorem router_onSignal (m : RouterErrorMonitor) (signal : NodeSignal) :
    (m.onSignal signal).router = m.router := by
  cases signal with
  | reachable node => exact router_addScreen m _
  | unreachable node => rfl

theorem tracks_signals {signals : List NodeSignal} (new : List NodeSignal)
    (h : ∀ id, Tracks (m.find id) (Found signals id)) :
    (new.foldl onSignal m).router = m.router ∧
      ∀ id, Tracks ((new.foldl onSignal m).find id) (Found (signals ++ new) id) := by
  induction new generalizing m signals with
  | nil => exact ⟨rfl, by simpa using h⟩
  | cons signal new ih =>
    obtain ⟨hrouter, htracks⟩ := ih (tracks_onSignal h signal)
    refine ⟨hrouter.trans (router_onSignal m signal), ?_⟩
    rwa [List.append_assoc] at htracks

/-- What every event keeps. -/
structure Follows (m : RouterErrorMonitor) : Prop where
  mirror : m.router.SignalsMirror
  tracks : ∀ id, Tracks (m.find id) (Found m.router.signals id)

theorem Follows.call (h : m.Follows) {k : Router.Call} (hk : k.Allowed m.router) :
    (m.call k).Follows := by
  obtain ⟨new, hnew⟩ := Router.signals_prefix_call m.router k
  obtain ⟨hrouter, htracks⟩ :=
    tracks_signals (m := { m with router := m.router.call k }) new h.tracks
  have hcall : m.call k = new.foldl onSignal { m with router := m.router.call k } := by
    rw [RouterErrorMonitor.call, ← hnew, List.drop_left]
  rw [hnew] at htracks
  rw [hcall]
  refine ⟨?_, ?_⟩
  · rw [hrouter]
    exact Router.signalsMirror_call h.mirror hk
  · rw [hrouter]
    exact htracks

theorem Follows.of_router (h : m.Follows) (hrouter : m'.router = m.router)
    (htracks : ∀ id, Tracks (m'.find id) (Found m.router.signals id)) : m'.Follows := by
  refine ⟨?_, ?_⟩
  · rw [hrouter]
    exact h.mirror
  · rw [hrouter]
    exact htracks

theorem Follows.step (h : m.Follows) {ev : Event} (hok : m.Allowed ev)
    (hstep : m.step ev = some m') : m'.Follows := by
  cases ev with
  | call k => exact Option.some.inj hstep ▸ h.call hok
  | screenOnline screenId =>
    exact Option.some.inj hstep ▸
      h.of_router (router_addScreen m _) (tracks_screenOnline h.tracks screenId)
  | screenOffline screenId =>
    exact Option.some.inj hstep ▸ h.of_router rfl (tracks_screenOffline h.tracks screenId)
  | expire screenId =>
    simp only [RouterErrorMonitor.step, Option.map_eq_some_iff, Option.bind_eq_some_iff] at hstep
    obtain ⟨s', ⟨s, hfind, hs'⟩, rfl⟩ := hstep
    have hsound : s.Sound (Found m.router.signals screenId) := by
      simpa [Tracks, hfind] using h.tracks screenId
    have hid := (RouterErrorScreenMonitor.expire_screenId hs').trans (screenId_of_find hfind)
    exact h.of_router rfl (tracks_set h.tracks hid (hsound.expire hs') (by simp [hfind]))
  | handle screenId i =>
    simp only [RouterErrorMonitor.step, Option.map_eq_some_iff, Option.bind_eq_some_iff] at hstep
    obtain ⟨s', ⟨s, hfind, hs'⟩, rfl⟩ := hstep
    have hsound : s.Sound (Found m.router.signals screenId) := by
      simpa [Tracks, hfind] using h.tracks screenId
    have hid := (RouterErrorScreenMonitor.handle_screenId hs').trans (screenId_of_find hfind)
    exact h.of_router rfl (tracks_set h.tracks hid (hsound.handle hs') (by simp [hfind]))

theorem follows_initial (id : UInt32) (running : Bool) (connections : ConnectionTable) :
    (initial id running connections).Follows where
  mirror _ := Mirrors.nil fun ⟨e, he, _⟩ => UniqueIndex.not_mem_empty e he
  tracks _ := by simp [initial, find, Tracks, Found, Router.initial]

theorem Run.follows {id : UInt32} {running : Bool} {connections : ConnectionTable}
    (h : Run step Allowed (initial id running connections) m) : m.Follows :=
  h.invariant (follows_initial id running connections) fun _ _ _ _ hm hok hstep => hm.step hok hstep

/-- The router has said that it reaches a node exactly if it does. -/
theorem Follows.found_iff (h : m.Follows) (d : UInt32) :
    Found m.router.signals d.toNat ↔ m.router.Reaches d := by
  have hsaid : said d.toNat = NodeSignal.about d := by
    funext signal
    cases signal <;> simp [said, NodeSignal.about, UInt32.toNat_inj]
  rw [Found, hsaid]
  exact (h.mirror d).ends

/-- **What was announced of a screen is what the router knows of it**, whenever no timer runs for
the screen and the last wait was not given up: the screen can be reached if and only if the last
announcement said so, or there was none. A timer that runs has one wait, and one that does not has
none. A screen without a monitor cannot be reached. -/
theorem announced_of_not_timerRunning {id : UInt32} {running : Bool}
    {connections : ConnectionTable} (h : Run step Allowed (initial id running connections) m)
    (d : UInt32) :
    match m.find d.toNat with
    | none => ¬m.router.Reaches d
    | some s =>
      s.waits.length = (if s.timerRunning then 1 else 0) ∧
        (s.timerRunning = false → ∀ b, s.verdict = some b → (b = true ↔ m.router.Reaches d)) := by
  have hfollows := Run.follows h
  have htracks := hfollows.tracks d.toNat
  have hfound := hfollows.found_iff d
  cases hfind : m.find d.toNat with
  | none =>
    rw [hfind] at htracks
    exact fun hreaches => htracks (hfound.mpr hreaches)
  | some s =>
    rw [hfind] at htracks
    refine ⟨htracks.waits, fun hstopped b hb => ?_⟩
    rw [htracks.verdict hstopped b hb, htracks.reachable, hfound]

/-- A neighbour comes, and is lost for more than three seconds. -/
def lostNeighbour : List Event :=
  [.call (.advertisement ⟨2, [⟨2, 0, []⟩]⟩ ⟨7, 20, 10⟩),
    .call (.remove ⟨7, 20, 10⟩ [⟨⟨2, 1, [2]⟩, ⟨7, 20, 10⟩⟩]),
    .expire 2, .handle 2 0]

theorem announced_of_not_timerRunning_lostNeighbour :
    match (execs step (initial 1 true .empty) lostNeighbour).find (UInt32.toNat 2) with
    | none => ¬(execs step (initial 1 true .empty) lostNeighbour).router.Reaches 2
    | some s =>
      s.waits.length = (if s.timerRunning then 1 else 0) ∧
        (s.timerRunning = false → ∀ b, s.verdict = some b →
          (b = true ↔ (execs step (initial 1 true .empty) lostNeighbour).router.Reaches 2)) :=
  announced_of_not_timerRunning
    (Run.nil.execs (by decide +kernel) :
      Lib.Run step Allowed (initial 1 true .empty)
        (execs step (initial 1 true .empty) lostNeighbour)) 2

example : ((execs step (initial 1 true .empty) lostNeighbour).find 2).map
    (fun s => (s.timerRunning, s.verdict)) = some (false, some false) := by decide +kernel

end RouterErrorMonitor

end Synergy
