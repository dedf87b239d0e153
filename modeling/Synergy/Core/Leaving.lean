import Synergy.Core.ServiceWorker

/-!
# A machine leaves its profile

When a snapshot lacks the local screen, the slot that finds out clears the local profile, and then
`apply` assigns the snapshot over it, and the IP monitor is started. So the local profile is what
`apply` makes of it, as for any other snapshot, and what the slot has cleared comes back. Signals of
screens that came online follow, too, and dial them. The core, on the other hand, stays disabled and
the router stopped, unless a handler that an earlier snapshot has posted resumes the core in a poll.
-/

set_option autoImplicit false

namespace Synergy

open Lib

/-- The handler would resume the core of that screen. -/
def Task.Resumes (screenId : Int) : Task → Prop
  | .resumeAdded added => ∃ screen ∈ added, screen.id = screenId
  | .dial _ | .switchServer _ | .restartServer => False

instance (screenId : Int) : DecidablePred (Task.Resumes screenId)
  | .resumeAdded added => inferInstanceAs (Decidable (∃ screen ∈ added, screen.id = screenId))
  | .dial _ | .switchServer _ | .restartServer => isFalse fun h => h

/-- The slots of that signal neither dial nor post a handler that does. -/
def ProfileSignal.Silent : ProfileSignal → Prop
  | .screenOnline _ | .screenIPSetChanged _ | .screenSetChanged _ _ => False
  | .modified | .profileIdChanged _ | .profileNameChanged _ | .profileServerChanged _
  | .screenNameChanged _ | .screenPositionChanged _ | .screenStatusChanged _
  | .screenOffline _ => True

/-- A `screenSetChanged`. -/
def ProfileSignal.SetChange : ProfileSignal → Prop
  | .screenSetChanged _ _ => True
  | .modified | .profileIdChanged _ | .profileNameChanged _ | .profileServerChanged _
  | .screenNameChanged _ | .screenPositionChanged _ | .screenStatusChanged _ | .screenOnline _
  | .screenIPSetChanged _ | .screenOffline _ => False

theorem ProfileSignal.Silent.not_setChange {signal : ProfileSignal} (h : signal.Silent) :
    ¬signal.SetChange := by
  cases signal with
  | screenSetChanged _ _ => exact h.elim
  | modified | profileIdChanged _ | profileNameChanged _ | profileServerChanged _
  | screenNameChanged _ | screenPositionChanged _ | screenStatusChanged _ | screenOnline _
  | screenIPSetChanged _ | screenOffline _ => exact fun h => h

/-- What is left for a slot that found the local screen removed: to apply that snapshot, after the
signals of screens that have come online, of which the empty profile has none. -/
structure Leaving.Ok (l : Leaving) (snapshot : ProfileConfig) : Prop where
  applies : l.snapshot = snapshot
  online : ∀ signal ∈ l.signals, ∃ screen, signal = .screenOnline screen
  blank : snapshot = {} → l.signals = []

/-! ## The signals of a removal -/

namespace ProfileConfig

variable {m target : ProfileConfig} {id : Int}

theorem silent_profileChanges : ∀ signal ∈ m.profileChanges target, signal.Silent := by
  intro signal hmem
  simp only [profileChanges, List.mem_append, List.mem_ite_nil_right, List.mem_singleton] at hmem
  rcases hmem with (⟨_, rfl⟩ | ⟨_, rfl⟩) | ⟨_, rfl⟩ <;> exact trivial

theorem not_setChange_changes {s t : Screen} : ∀ signal ∈ s.changes t, ¬signal.SetChange := by
  intro signal hmem
  simp only [Screen.changes, List.mem_append, List.mem_ite_nil_right, List.mem_singleton] at hmem
  rcases hmem with (((⟨_, rfl⟩ | ⟨_, rfl⟩) | ⟨_, rfl⟩) | ⟨_, rfl⟩) | ⟨_, rfl⟩
  · exact fun h => h
  · split <;> exact fun h => h
  · exact fun h => h
  · exact fun h => h
  · exact fun h => h

theorem not_setChange_screenChanges :
    ∀ signal ∈ m.screenChanges target, ¬signal.SetChange := by
  intro signal hmem
  obtain ⟨t, _, hmem⟩ := List.mem_flatMap.mp hmem
  obtain ⟨s, _, hmem⟩ := List.mem_flatMap.mp hmem
  exact not_setChange_changes signal (List.mem_ite_nil_right.mp hmem).2

theorem mem_removed (hlocal : m.HasScreen id) (hgone : ¬target.HasScreen id) :
    ∃ screen ∈ m.removed target, screen.id = id := by
  obtain ⟨screen, hmem, rfl⟩ := hlocal
  exact ⟨screen, List.mem_filter.mpr ⟨hmem, decide_eq_true hgone⟩, rfl⟩

theorem not_mem_added (hgone : ¬target.HasScreen id) : ¬∃ screen ∈ m.added target, screen.id = id :=
  fun ⟨screen, hmem, hid⟩ => hgone ⟨screen, (List.mem_filter.mp hmem).1, hid⟩

/-- The signals when a screen has been removed. -/
theorem compare_of_removed (hversion : m.profile.version ≤ target.profile.version)
    (hlocal : m.HasScreen id) (hgone : ¬target.HasScreen id) :
    m.compare target = (m.profileChanges target ++ m.screenChanges target) ++
      .screenSetChanged (m.added target) (m.removed target) ::
        ((m.added target).filter (·.active)).map .screenOnline := by
  have hremoved : m.removed target ≠ [] := by
    obtain ⟨screen, hmem, _⟩ := mem_removed hlocal hgone
    exact List.ne_nil_of_mem hmem
  unfold compare screenSetChanges
  rw [if_neg (by omega), if_pos (Or.inr hremoved)]

end ProfileConfig

namespace ServiceWorker

/-- The removal has been carried out. -/
structure CarriedOut (w : ServiceWorker) : Prop where
  profile : w.localProfileConfig = {}
  stopped : w.running = false
  disabled : w.coreManager.process.disabled = true
  posted : ∀ p ∈ w.posted, p.cause = .earlier
  dials : ∀ d ∈ w.dials, d.cause = .earlier
  monitor : w.ipMonitor ≠ some .snapshot

/-- The snapshot is the empty profile, the IP monitor runs already, and no handler waits that would
resume the core. -/
structure Removable (w : ServiceWorker) (snapshot : ProfileConfig) : Prop where
  blank : snapshot = {}
  monitor : w.ipMonitor.isSome = true
  quiet : ∀ p ∈ w.posted, ¬p.task.Resumes w.screenId

/-- The state in which compare begins. -/
def begin (w : ServiceWorker) (snapshot : ProfileConfig) : ServiceWorker :=
  { w.settle with remoteProfileConfig := snapshot }

variable {w w' v x : ServiceWorker} {isAddress : String → Bool} {snapshot : ProfileConfig}
  {signals rest : List ProfileSignal} {signal : ProfileSignal} {screen : Screen} {cause : Cause}

/-! ## The slots -/

/-- What dialling leaves alone. -/
structure DialFrame (w w' : ServiceWorker) : Prop where
  coreManager : w'.coreManager = w.coreManager
  localProfileConfig : w'.localProfileConfig = w.localProfileConfig
  ipMonitor : w'.ipMonitor = w.ipMonitor
  posted : w'.posted = w.posted
  leaving : w'.leaving = w.leaving
  running : w'.running = w.running

theorem DialFrame.refl (w : ServiceWorker) : DialFrame w w := ⟨rfl, rfl, rfl, rfl, rfl, rfl⟩

theorem DialFrame.trans (h : DialFrame w w') (h' : DialFrame w' v) : DialFrame w v :=
  ⟨h'.coreManager.trans h.coreManager, h'.localProfileConfig.trans h.localProfileConfig,
    h'.ipMonitor.trans h.ipMonitor, h'.posted.trans h.posted, h'.leaving.trans h.leaving,
    h'.running.trans h.running⟩

theorem addPeer_frame (w : ServiceWorker) (cause : Cause) (address : String) :
    DialFrame w (addPeer cause w address) ∧
      ∀ d ∈ (addPeer cause w address).dials, d ∈ w.dials ∨ d.cause = cause := by
  unfold addPeer
  split
  · exact ⟨.refl w, fun d hd => Or.inl hd⟩
  · split
    · refine ⟨⟨rfl, rfl, rfl, rfl, rfl, rfl⟩, fun d hd => ?_⟩
      rcases List.mem_append.mp hd with hold | hnew
      · exact Or.inl hold
      · rw [List.mem_singleton.mp hnew]
        exact Or.inr rfl
    · exact ⟨.refl w, fun d hd => Or.inl hd⟩

theorem dial_frame (h : w.dial isAddress screen cause = some w') :
    DialFrame w w' ∧ ∀ d ∈ w'.dials, d ∈ w.dials ∨ d.cause = cause := by
  obtain ⟨_, heq⟩ := Option.ite_none_right_eq_some.mp h
  cases heq
  clear h
  generalize screen.ipList.splitOn "," = addresses
  induction addresses generalizing w with
  | nil => exact ⟨.refl w, fun d hd => Or.inl hd⟩
  | cons address addresses ih =>
    obtain ⟨hframe, hdials⟩ := addPeer_frame w cause address
    obtain ⟨hframe', hdials'⟩ := ih (w := addPeer cause w address)
    refine ⟨hframe.trans hframe', fun d hd => ?_⟩
    exact (hdials' d hd).elim (hdials d) Or.inr

/-- What the slots of some signals leave alone, none of which is a `screenSetChanged`. -/
structure Passed (signals : List ProfileSignal) (w w' : ServiceWorker) : Prop where
  coreManager : w'.coreManager = w.coreManager
  localProfileConfig : w'.localProfileConfig = w.localProfileConfig
  ipMonitor : w'.ipMonitor = w.ipMonitor
  leaving : w'.leaving = w.leaving
  kept : ∀ p ∈ w.posted, p ∈ w'.posted
  posted : ∀ p ∈ w'.posted, p ∈ w.posted ∨ ¬p.task.Resumes w.screenId
  silent : (∀ signal ∈ signals, signal.Silent) →
    w'.dials = w.dials ∧ ∀ p ∈ w'.posted, p ∈ w.posted ∨ ∀ screen, p.task ≠ .dial screen

namespace Passed

theorem refl (w : ServiceWorker) : Passed [] w w :=
  ⟨rfl, rfl, rfl, rfl, fun _ h => h, fun _ h => Or.inl h, fun _ => ⟨rfl, fun _ h => Or.inl h⟩⟩

theorem cons (h : Passed [signal] w v) (h' : Passed signals v w') : Passed (signal :: signals) w w'
    where
  coreManager := h'.coreManager.trans h.coreManager
  localProfileConfig := h'.localProfileConfig.trans h.localProfileConfig
  ipMonitor := h'.ipMonitor.trans h.ipMonitor
  leaving := h'.leaving.trans h.leaving
  kept := fun p hp => h'.kept p (h.kept p hp)
  posted := by
    intro p hp
    have hscreen : v.screenId = w.screenId := congrArg CoreManager.screenId h.coreManager
    exact (h'.posted p hp).elim (h.posted p) fun hnot => Or.inr (hscreen ▸ hnot)
  silent := by
    intro hsilent
    obtain ⟨hdials, hposted⟩ := h.silent fun s hs =>
      hsilent s (List.mem_cons.mpr (Or.inl (List.mem_singleton.mp hs)))
    obtain ⟨hdials', hposted'⟩ := h'.silent fun s hs => hsilent s (List.mem_cons_of_mem _ hs)
    exact ⟨hdials'.trans hdials, fun p hp => (hposted' p hp).elim (hposted p) Or.inr⟩

/-- A slot that posts a handler. -/
theorem post {task : Task} (hresumes : ¬task.Resumes w.screenId)
    (hsilent : signal.Silent → ∀ screen, task ≠ .dial screen) :
    Passed [signal] w (w.post task) where
  coreManager := rfl
  localProfileConfig := rfl
  ipMonitor := rfl
  leaving := rfl
  kept := fun p hp => List.mem_append_left _ hp
  posted := by
    intro p hp
    rcases List.mem_append.mp hp with hold | hnew
    · exact Or.inl hold
    · rw [List.mem_singleton.mp hnew]
      exact Or.inr hresumes
  silent := by
    intro h
    refine ⟨rfl, fun p hp => ?_⟩
    rcases List.mem_append.mp hp with hold | hnew
    · exact Or.inl hold
    · rw [List.mem_singleton.mp hnew]
      exact Or.inr (hsilent (h signal (by simp)))

theorem same (signal : ProfileSignal) : Passed [signal] w w :=
  ⟨rfl, rfl, rfl, rfl, fun _ h => h, fun _ h => Or.inl h, fun _ => ⟨rfl, fun _ h => Or.inl h⟩⟩

theorem slot (h : w.slot isAddress signal = some w') : Passed [signal] w w' := by
  cases signal with
  | profileServerChanged serverId =>
    obtain rfl := Option.some.inj h
    exact .post id fun _ _ => by simp
  | screenPositionChanged id =>
    obtain rfl := Option.some.inj h
    exact .post (fun h => h) fun _ _ => by simp
  | screenOnline screen =>
    obtain rfl := Option.some.inj h
    by_cases hlocal : w.screenId = screen.id
    · rw [if_pos hlocal]
      exact ⟨rfl, rfl, rfl, rfl, fun _ h => h, fun _ h => Or.inl h,
        fun hsilent => (hsilent _ (List.mem_singleton_self _)).elim⟩
    · rw [if_neg hlocal]
      exact .post (fun h => h) fun hsilent => hsilent.elim
  | screenIPSetChanged screen =>
    have hslot : (if w.screenId = screen.id then some w else w.dial isAddress screen .snapshot) =
        some w' := h
    by_cases hlocal : w.screenId = screen.id
    · rw [if_pos hlocal] at hslot
      obtain rfl := Option.some.inj hslot
      exact .same _
    · rw [if_neg hlocal] at hslot
      obtain ⟨hframe, _⟩ := dial_frame hslot
      exact ⟨hframe.coreManager, hframe.localProfileConfig, hframe.ipMonitor, hframe.leaving,
        fun p hp => hframe.posted ▸ hp, fun p hp => Or.inl (hframe.posted ▸ hp),
        fun hsilent => (hsilent _ (List.mem_singleton_self _)).elim⟩
  | modified | profileIdChanged _ | profileNameChanged _ | screenNameChanged _
  | screenStatusChanged _ | screenSetChanged _ _ | screenOffline _ =>
    obtain rfl := Option.some.inj h
    exact .same _

end Passed

theorem runSlots_cons (h : ¬signal.SetChange) :
    runSlots isAddress snapshot (signal :: signals) w =
      (w.slot isAddress signal).bind (runSlots isAddress snapshot signals) := by
  cases signal with
  | screenSetChanged added removed => exact absurd trivial h
  | modified | profileIdChanged _ | profileNameChanged _ | profileServerChanged _
  | screenNameChanged _ | screenPositionChanged _ | screenStatusChanged _ | screenOnline _
  | screenIPSetChanged _ | screenOffline _ => rfl

/-- The signals before a `screenSetChanged` have their slots run one after another. -/
theorem runSlots_append (hnone : ∀ signal ∈ signals, ¬signal.SetChange)
    (h : runSlots isAddress snapshot (signals ++ rest) w = some w') :
    ∃ v, Passed signals w v ∧ runSlots isAddress snapshot rest v = some w' := by
  induction signals generalizing w with
  | nil => exact ⟨w, .refl w, h⟩
  | cons signal signals ih =>
    rw [List.cons_append, runSlots_cons (hnone signal List.mem_cons_self)] at h
    obtain ⟨v, hslot, hrun⟩ := Option.bind_eq_some_iff.mp h
    obtain ⟨v', hpassed, hrest⟩ := ih (fun s hs => hnone s (List.mem_cons_of_mem _ hs)) hrun
    exact ⟨v', (Passed.slot hslot).cons hpassed, hrest⟩

/-- What the core manager posts about a new set of screens dials nobody, and resumes the core only
where the local screen is among those added. -/
theorem mem_posted_screenSetChanged {added : List Screen} {screenId : Int} {p : Posted}
    (hnot : ¬(Task.resumeAdded added).Resumes screenId)
    (hp : p ∈ (w.screenSetChanged added).posted) :
    p ∈ w.posted ∨ ¬p.task.Resumes screenId ∧ ∀ screen, p.task ≠ .dial screen := by
  rcases List.mem_append.mp hp with hp | hlast
  · rcases List.mem_append.mp hp with hold | hnew
    · exact Or.inl hold
    · rw [List.mem_singleton.mp hnew]
      exact Or.inr ⟨hnot, by simp⟩
  · rw [List.mem_singleton.mp hlast]
    exact Or.inr ⟨fun h => h, by simp⟩

/-! ## From the snapshot to the end -/

/-- The snapshot came when the service was `w`, and the slot is not done. -/
structure Removing (w : ServiceWorker) (snapshot : ProfileConfig) (x : ServiceWorker) : Prop where
  leaving : ∃ l, x.leaving = some l ∧ l.Ok snapshot ∧ (l.phase = .stopping → x.running = false)
  screenId : x.screenId = w.screenId
  ipMonitor : x.ipMonitor = w.ipMonitor.map fun _ => .earlier
  /-- Where a handler waited that resumes the core, it still waits or has done so. -/
  resumed : (∃ p ∈ w.posted, p.task.Resumes w.screenId) →
    (∃ p ∈ x.posted, p.task.Resumes w.screenId) ∨ x.coreManager.process.disabled = false
  quiet : (∀ p ∈ w.posted, ¬p.task.Resumes w.screenId) →
    x.coreManager.process.disabled = true ∧ ∀ p ∈ x.posted, ¬p.task.Resumes w.screenId
  blank : snapshot = {} → (∀ d ∈ x.dials, d.cause = .earlier) ∧
    ∀ p ∈ x.posted, ∀ screen, p.task = .dial screen → p.cause = .earlier

theorem receive_of_compare (hget : GetsScreen w.localProfileConfig w.screenId)
    (h : w.localProfileConfig.compare snapshot ≠ []) :
    w.receive isAddress snapshot =
      runSlots isAddress snapshot (w.localProfileConfig.compare snapshot) (w.begin snapshot) := by
  unfold receive
  rw [if_pos (Or.inl hget)]
  split
  · rename_i hnil
    exact absurd hnil h
  · rename_i hcons
    rw [hcons]
    rfl

namespace Removing

/-- The snapshot arrives. -/
theorem receive (hget : GetsScreen w.localProfileConfig w.screenId)
    (hlocal : w.localProfileConfig.HasScreen w.screenId) (hgone : ¬snapshot.HasScreen w.screenId)
    (hversion : w.localProfileConfig.profile.version ≤ snapshot.profile.version)
    (h : w.receive isAddress snapshot = some x) : Removing w snapshot x := by
  have hcompare := ProfileConfig.compare_of_removed hversion hlocal hgone
  rw [receive_of_compare hget (by simp [hcompare]), hcompare] at h
  -- the slots before that of `screenSetChanged` leave the core and the monitor alone
  obtain ⟨v, hpassed, hrun⟩ := runSlots_append (fun signal hmem => by
    rcases List.mem_append.mp hmem with hprofile | hscreen
    · exact (ProfileConfig.silent_profileChanges signal hprofile).not_setChange
    · exact ProfileConfig.not_setChange_screenChanges signal hscreen) h
  have hscreen : v.screenId = w.screenId := congrArg CoreManager.screenId hpassed.coreManager
  unfold runSlots at hrun
  rw [hscreen, if_pos (ProfileConfig.mem_removed hlocal hgone)] at hrun
  obtain rfl := Option.some.inj hrun
  have hposted : ∀ p ∈ (v.screenSetChanged (w.localProfileConfig.added snapshot)).posted,
      p ∈ v.posted ∨ ¬p.task.Resumes w.screenId ∧ ∀ screen, p.task ≠ .dial screen :=
    fun p => mem_posted_screenSetChanged (ProfileConfig.not_mem_added hgone)
  refine ⟨⟨_, rfl, ⟨rfl, ?_, ?_⟩, fun hphase => absurd hphase (by simp)⟩, hscreen,
    hpassed.ipMonitor, fun hresumes => Or.inl ?_, fun hquiet => ⟨?_, fun p hp => ?_⟩,
    fun hblank => ?_⟩
  · intro signal hmem
    obtain ⟨screen, _, rfl⟩ := List.mem_map.mp hmem
    exact ⟨screen, rfl⟩
  · intro hblank
    simp [hblank, ProfileConfig.added]
  · obtain ⟨p, hp, hresumes⟩ := hresumes
    have hbegin : { p with cause := .earlier } ∈ (w.begin snapshot).posted :=
      List.mem_map.mpr ⟨p, hp, rfl⟩
    exact ⟨_, List.mem_append_left _ (List.mem_append_left _ (hpassed.kept _ hbegin)), hresumes⟩
  · exact congrArg CoreProcess.Role.disabled
      (CoreProcess.role_shutdown (s := (v.coreManager.setDisabled true).process))
  · rcases hposted p hp with hold | ⟨hnot, _⟩
    · rcases hpassed.posted p hold with hbegin | hnot
      · obtain ⟨p', hp', rfl⟩ := List.mem_map.mp hbegin
        exact hquiet p' hp'
      · exact hnot
    · exact hnot
  · -- a profile that was blank has no screens that could have changed
    have hscreens : w.localProfileConfig.screenChanges snapshot = [] := by
      rw [hblank]
      rfl
    obtain ⟨hdials, htasks⟩ := hpassed.silent fun signal hmem => by
      rw [hscreens, List.append_nil] at hmem
      exact ProfileConfig.silent_profileChanges signal hmem
    refine ⟨fun d hd => ?_, fun p hp screen hdial => ?_⟩
    · obtain ⟨_, _, rfl⟩ := List.mem_map.mp (hdials ▸ hd)
      rfl
    · rcases hposted p hp with hold | ⟨_, hnot⟩
      · rcases htasks p hold with hbegin | hnot
        · obtain ⟨_, _, rfl⟩ := List.mem_map.mp hbegin
          rfl
        · exact absurd hdial (hnot screen)
      · exact absurd hdial (hnot screen)

/-- The slot goes on to another call. -/
theorem setPhase (h : Removing w snapshot x) {l : Leaving} (hl : x.leaving = some l) (phase : Phase)
    (hphase : phase ≠ .stopping) : Removing w snapshot (x.setPhase l phase) := by
  obtain ⟨l', hl', hok, _⟩ := h.leaving
  obtain rfl := Option.some.inj (hl.symm.trans hl')
  exact ⟨⟨_, rfl, ⟨hok.applies, hok.online, hok.blank⟩, fun heq => absurd heq hphase⟩, h.screenId,
    h.ipMonitor, h.resumed, h.quiet, h.blank⟩

theorem stopRouter (h : Removing w snapshot x) {l : Leaving} (hl : x.leaving = some l) :
    Removing w snapshot (x.stopRouter l) := by
  obtain ⟨l', hl', hok, _⟩ := h.leaving
  obtain rfl := Option.some.inj (hl.symm.trans hl')
  exact ⟨⟨_, rfl, ⟨hok.applies, hok.online, hok.blank⟩, fun _ => rfl⟩, h.screenId, h.ipMonitor,
    h.resumed, h.quiet, h.blank⟩

theorem disconnect (h : Removing w snapshot x) :
    Removing w snapshot { x with websocket := false } :=
  ⟨h.leaving, h.screenId, h.ipMonitor, h.resumed, h.quiet, h.blank⟩

/-- What a handler may do in a poll. -/
structure Handles (screenId : Int) (x y : ServiceWorker) : Prop where
  leaving : y.leaving = x.leaving
  running : y.running = x.running
  screen : y.screenId = x.screenId
  ipMonitor : y.ipMonitor = x.ipMonitor
  disabled : y.coreManager.process.disabled = x.coreManager.process.disabled ∨
    y.coreManager.process.disabled = false ∧ ∃ p ∈ x.posted, p.task.Resumes screenId
  posted : ∀ p ∈ y.posted, p ∈ x.posted
  kept : ∀ p ∈ x.posted, p.task.Resumes screenId →
    p ∈ y.posted ∨ y.coreManager.process.disabled = false
  dials : ∀ d ∈ y.dials, d ∈ x.dials ∨
    ∃ p ∈ x.posted, (∃ screen, p.task = .dial screen) ∧ d.cause = p.cause

theorem handle (h : Removing w snapshot x) (hhandles : Handles w.screenId x v) :
    Removing w snapshot v where
  leaving := by
    rw [hhandles.leaving, hhandles.running]
    exact h.leaving
  screenId := hhandles.screen.trans h.screenId
  ipMonitor := hhandles.ipMonitor.trans h.ipMonitor
  resumed := by
    intro hresumes
    rcases h.resumed hresumes with ⟨p, hp, hresumes⟩ | henabled
    · exact (hhandles.kept p hp hresumes).imp_left fun hkept => ⟨p, hkept, hresumes⟩
    · exact Or.inr (hhandles.disabled.elim (fun hsame => hsame.trans henabled) And.left)
  quiet := by
    intro hquiet
    obtain ⟨hdisabled, hnone⟩ := h.quiet hquiet
    refine ⟨?_, fun p hp => hnone p (hhandles.posted p hp)⟩
    rcases hhandles.disabled with hsame | ⟨_, p, hp, hresumes⟩
    · exact hsame.trans hdisabled
    · exact absurd hresumes (hnone p hp)
  blank := by
    intro hblank
    obtain ⟨hdials, htasks⟩ := h.blank hblank
    refine ⟨fun d hd => ?_, fun p hp => htasks p (hhandles.posted p hp)⟩
    rcases hhandles.dials d hd with hold | ⟨p, hp, ⟨screen, hdial⟩, hcause⟩
    · exact hdials d hold
    · exact hcause.trans (htasks p hp screen hdial)

/-- The core manager takes a step of its own. -/
theorem Handles.core {m : CoreManager} (hscreen : m.screenId = x.screenId)
    (hdisabled : m.process.disabled = x.coreManager.process.disabled) (screenId : Int) :
    Handles screenId x { x with coreManager := m } :=
  ⟨rfl, rfl, hscreen, rfl, Or.inl hdisabled, fun _ h => h, fun _ h _ => Or.inl h,
    fun _ h => Or.inl h⟩

/-- A handler that resumes nothing runs. -/
theorem Handles.pop {p : Posted} {posted : List Posted} (hposted : x.posted = p :: posted)
    {screenId : Int} (hp : ¬p.task.Resumes screenId)
    (h : Handles screenId { x with posted := posted } v) : Handles screenId x v where
  leaving := h.leaving
  running := h.running
  screen := h.screen
  ipMonitor := h.ipMonitor
  disabled := h.disabled.imp_right (And.imp_right fun ⟨p', hp', hresumes⟩ =>
    ⟨p', hposted ▸ List.mem_cons_of_mem p hp', hresumes⟩)
  posted := fun p' hp' => hposted ▸ List.mem_cons_of_mem p (h.posted p' hp')
  kept := by
    intro p' hp' hresumes
    rcases List.mem_cons.mp (hposted ▸ hp') with rfl | hrest
    · exact absurd hresumes hp
    · exact h.kept p' hrest hresumes
  dials := fun d hd => (h.dials d hd).imp_right fun ⟨p', hp', hdial⟩ =>
    ⟨p', hposted ▸ List.mem_cons_of_mem p hp', hdial⟩

/-- The handler that dials a screen. -/
theorem Handles.dial {cause : Cause} {posted : List Posted} {screenId : Int}
    (hposted : x.posted = ⟨.dial screen, cause⟩ :: posted)
    (h : { x with posted := posted }.dial isAddress screen cause = some v) :
    Handles screenId x v := by
  obtain ⟨hframe, hdials⟩ := dial_frame h
  have hcore : v.coreManager = x.coreManager := hframe.coreManager
  have hrest : v.posted = posted := hframe.posted
  refine ⟨hframe.leaving, hframe.running, congrArg CoreManager.screenId hcore, hframe.ipMonitor,
    Or.inl (by rw [hcore]), fun p hp => ?_, fun p hp hresumes => Or.inl ?_, fun d hd => ?_⟩
  · rw [hrest] at hp
    rw [hposted]
    exact List.mem_cons_of_mem _ hp
  · rw [hrest]
    rcases List.mem_cons.mp (hposted ▸ hp) with rfl | hlater
    · exact hresumes.elim
    · exact hlater
  · refine (hdials d hd).imp_right fun hcause =>
      ⟨⟨.dial screen, cause⟩, ?_, ⟨screen, rfl⟩, hcause⟩
    rw [hposted]
    exact List.mem_cons_self

/-- The handler that resumes the core. -/
theorem Handles.resume {p : Posted} {posted : List Posted} {screenId : Int}
    (hposted : x.posted = p :: posted) (hresumes : p.task.Resumes screenId) (attempt : Attempt) :
    Handles screenId x { x with
      posted := posted
      coreManager := x.coreManager.resume attempt } := by
  have henabled : (x.coreManager.resume attempt).process.disabled = false :=
    CoreManager.disabled_restart (m := x.coreManager.setDisabled false) CoreManager.restart_cases
  have hresume : x.coreManager.step (.resume attempt) = some (x.coreManager.resume attempt) := rfl
  refine ⟨rfl, rfl, CoreManager.screenId_step hresume, rfl,
    Or.inr ⟨henabled, p, hposted ▸ List.mem_cons_self, hresumes⟩, fun p' hp' => ?_,
    fun _ _ _ => Or.inr henabled, fun d hd => Or.inl hd⟩
  rw [hposted]
  exact List.mem_cons_of_mem p hp'

theorem Handles.runTask {p : Posted} {posted : List Posted} {attempt : Attempt}
    (hposted : x.posted = p :: posted)
    (h : { x with posted := posted }.runTask isAddress p attempt = some v) :
    Handles x.screenId x v := by
  obtain ⟨task, cause⟩ := p
  cases task with
  | dial screen => exact .dial hposted h
  | switchServer serverId =>
    obtain ⟨m, hstep, rfl⟩ := Option.map_eq_some_iff.mp h
    exact .pop hposted (fun h => h) (.core (CoreManager.screenId_step hstep)
      (CoreManager.disabled_step hstep trivial) x.screenId)
  | restartServer =>
    obtain rfl := Option.some.inj h
    refine .pop hposted (fun h => h) ?_
    split
    · exact .core (x := { x with posted := posted }) (m := x.coreManager.startServer attempt) rfl
        CoreManager.disabled_startServer x.screenId
    · exact .core rfl rfl x.screenId
  | resumeAdded added =>
    obtain rfl := Option.some.inj h
    split
    · rename_i hlocal
      exact .resume hposted hlocal attempt
    · rename_i hlocal
      exact .pop hposted hlocal (.core rfl rfl x.screenId)

/-- The slot is done, and `compare` and `apply` go on to the end. -/
theorem finish (h : Removing w snapshot x) {l : Leaving} (hl : x.leaving = some l)
    (hphase : l.phase = .stopping) (hposted : x.posted = [])
    (hrun : runSlots isAddress l.snapshot l.signals x.clear = some v) :
    v.leaving = none ∧ (v.CarriedOut ↔ w.Removable snapshot) := by
  obtain ⟨l', hl', hok, hstopped⟩ := h.leaving
  obtain rfl := Option.some.inj (hl.symm.trans hl')
  have hblank : snapshot = {} → x.clear.finish snapshot = v := by
    intro hblank
    rw [hok.applies, hok.blank hblank] at hrun
    exact Option.some.inj hrun
  rw [hok.applies, ← List.append_nil l.signals] at hrun
  obtain ⟨y, hpassed, hend⟩ := runSlots_append (fun signal hmem => by
    obtain ⟨screen, rfl⟩ := hok.online signal hmem
    exact fun h => h) hrun
  obtain rfl : y.finish snapshot = v := Option.some.inj hend
  refine ⟨hpassed.leaving, fun hcarried => ⟨hcarried.profile, ?_, ?_⟩, fun hremovable => ?_⟩
  · by_contra hnone
    have hmonitor : y.ipMonitor = none := by
      rw [hpassed.ipMonitor]
      show x.ipMonitor = none
      rw [h.ipMonitor, Option.not_isSome_iff_eq_none.mp hnone]
      rfl
    exact hcarried.monitor (by simp [ServiceWorker.finish, startMonitor, hmonitor])
  · intro p hp hresumes
    rcases h.resumed ⟨p, hp, hresumes⟩ with ⟨p', hp', _⟩ | henabled
    · rw [hposted] at hp'
      exact absurd hp' (by simp)
    · have hdisabled : y.coreManager.process.disabled = true := hcarried.disabled
      rw [hpassed.coreManager] at hdisabled
      exact absurd (henabled.symm.trans hdisabled) (by simp)
  · obtain ⟨hdisabled, _⟩ := h.quiet hremovable.quiet
    obtain ⟨hdials, _⟩ := h.blank hremovable.blank
    rw [← hblank hremovable.blank]
    refine ⟨hremovable.blank, hstopped hphase, hdisabled, fun p hp => ?_, hdials, ?_⟩
    · have hp' : p ∈ x.posted := hp
      rw [hposted] at hp'
      exact absurd hp' (by simp)
    · show some (x.ipMonitor.getD .snapshot) ≠ some .snapshot
      obtain ⟨cause, hcause⟩ := Option.isSome_iff_exists.mp hremovable.monitor
      simp [h.ipMonitor, hcause]

/-- One step, which may be the last. -/
theorem step {ev : Event} (h : Removing w snapshot x) (hstep : x.step isAddress ev = some v) :
    Removing w snapshot v ∨ v.leaving = none ∧ (v.CarriedOut ↔ w.Removable snapshot) := by
  obtain ⟨l, hl, _⟩ := h.leaving
  cases ev with
  | receive snapshot =>
    obtain ⟨hnone, _⟩ := Option.ite_none_right_eq_some.mp hstep
    exact absurd (hl.symm.trans hnone) (by simp)
  | proceed =>
    simp only [ServiceWorker.step, hl, ServiceWorker.proceed] at hstep
    cases hphase : l.phase with
    | pausing polls =>
      simp only [hphase] at hstep
      obtain ⟨_, heq⟩ := Option.ite_none_left_eq_some.mp hstep
      by_cases hwebsocket : x.websocket = true
      · rw [if_pos hwebsocket] at heq
        cases heq
        exact Or.inl (h.setPhase hl .closing (by simp))
      · rw [if_neg hwebsocket] at heq
        cases heq
        exact Or.inl (h.stopRouter hl)
    | closing =>
      simp only [hphase] at hstep
      obtain ⟨_, heq⟩ := Option.ite_none_left_eq_some.mp hstep
      cases heq
      exact Or.inl (h.disconnect.stopRouter hl)
    | stopping =>
      simp only [hphase] at hstep
      obtain ⟨hposted, hrun⟩ := Option.ite_none_left_eq_some.mp hstep
      exact Or.inr (h.finish hl hphase (not_not.mp hposted) hrun)
  | task attempt =>
    cases hposted : x.posted with
    | nil => exact absurd hstep (by simp [ServiceWorker.step, hposted])
    | cons p posted =>
      simp only [ServiceWorker.step, hposted] at hstep
      obtain ⟨_, hrun⟩ := Option.ite_none_right_eq_some.mp hstep
      exact Or.inl (h.handle (h.screenId ▸ Handles.runTask hposted hrun))
  | core ev =>
    obtain ⟨⟨_, hunpaused⟩, heq⟩ := Option.ite_none_right_eq_some.mp hstep
    obtain ⟨m, hcore, rfl⟩ := Option.map_eq_some_iff.mp heq
    exact Or.inl (h.handle (.core (CoreManager.screenId_step hcore)
      (CoreManager.disabled_step hcore hunpaused) w.screenId))

end Removing

/-- A snapshot that lacks the local screen is carried out only where it is the empty profile, the IP
monitor runs already, and no handler waits that would resume the core. -/
theorem carriedOut_iff_removable (hfits : CoreProcess.toInt w.screenId = w.screenId)
    (hlocal : w.localProfileConfig.HasScreen w.screenId) (hgone : ¬snapshot.HasScreen w.screenId)
    (hversion : w.localProfileConfig.profile.version ≤ snapshot.profile.version)
    (hreceive : w.step isAddress (.receive snapshot) = some x)
    (run : Run (step isAddress) (fun y _ => y.leaving ≠ none) x v) (hdone : v.leaving = none) :
    v.CarriedOut ↔ w.Removable snapshot := by
  obtain ⟨_, hreceive⟩ := Option.ite_none_right_eq_some.mp hreceive
  have hget : GetsScreen w.localProfileConfig w.screenId := by
    unfold GetsScreen
    rw [hfits]
    exact hlocal
  have hremoving := Removing.receive hget hlocal hgone hversion hreceive
  have hend : Removing w snapshot v ∨ v.leaving = none ∧ (v.CarriedOut ↔ w.Removable snapshot) := by
    refine run.invariant (I := fun y => Removing w snapshot y ∨ y.leaving = none ∧
      (y.CarriedOut ↔ w.Removable snapshot)) (Or.inl hremoving) ?_
    intro y y' ev _ hy hunfinished hstep
    rcases hy with hy | ⟨hnone, _⟩
    · exact hy.step hstep
    · exact absurd hnone hunfinished
  rcases hend with hv | ⟨_, hiff⟩
  · obtain ⟨l, hl, _⟩ := hv.leaving
    exact absurd (hl.symm.trans hdone) (by simp)
  · exact hiff

/-- A machine that has been in a profile for long. -/
def desk (profile : ProfileConfig) : ServiceWorker where
  coreManager := { screenId := 3 }
  localProfileConfig := profile
  running := true
  ipMonitor := some .earlier

/-- The calls of the slot that finds the local screen removed, with what they run in their polls. -/
def calls : List Event :=
  [.proceed, .task .client, .task .client, .proceed, .proceed]

theorem desk_carriedOut :
    (exec (step fun _ => true) (desk { screens := [{ id := 3 }] }) (.receive {})).leaving ≠ none ∧
    ((execs (step fun _ => true) (desk { screens := [{ id := 3 }] })
        (.receive {} :: calls)).CarriedOut ↔
      (desk { screens := [{ id := 3 }] }).Removable {}) :=
  ⟨by decide +kernel, carriedOut_iff_removable (by decide +kernel) (by decide +kernel)
    (by decide +kernel) (by decide +kernel) (step_eq_exec (by decide +kernel))
    (Run.execs .nil (by decide +kernel)) (by decide +kernel)⟩

/-- The local screen and another one; then the other one, and a third that is online. -/
def office : ProfileConfig where
  profile := { id := 1, version := 1 }
  screens := [{ id := 3 }, { id := 5 }]

def officeWithout : ProfileConfig where
  profile := { id := 1, version := 2 }
  screens := [{ id := 5 }, { id := 7, active := true, ipList := "10.0.0.7" }]

def officeLeft : ServiceWorker :=
  execs (step fun _ => true) (desk office) (.receive officeWithout :: calls)

/-- The machine has left and has the profile of the others, one of which it is about to dial. -/
theorem officeLeft_not_carriedOut :
    office.HasScreen 3 ∧ ¬officeWithout.HasScreen 3 ∧
    office.profile.version ≤ officeWithout.profile.version ∧ officeLeft.leaving = none ∧
    officeLeft.localProfileConfig = officeWithout ∧
    officeLeft.posted = [⟨.dial { id := 7, active := true, ipList := "10.0.0.7" }, .snapshot⟩] ∧
    ¬officeLeft.CarriedOut :=
  ⟨by decide +kernel, by decide +kernel, by decide +kernel, by decide +kernel, by decide +kernel,
    by decide +kernel, fun h => absurd h.profile (by decide +kernel)⟩

end ServiceWorker

end Synergy
