import Synergy.Core.CoreManager

/-!
# Claims and pauses

A claim that comes while the core is disabled is half lost: the server proxy is pointed at the new
server, the core process keeps the mode and the server that it had, and `resume` starts it in those.
What the core has was settled by the last claim that it heard, before the pause. So after a resume
it is what the last claim of all says just where that claim repeats the last one heard.

A claim of an id that is no `int` is cut down by `startClient`, and one that comes while the server
proxy polls on behalf of another is overtaken by it.
-/

set_option autoImplicit false

namespace Synergy.CoreManager

open Lib
open ServerProxy (ProcessMode Starting)

/-- The mode that a claim asks for. -/
def modeFor (m : CoreManager) (serverId : Int) : ProcessMode :=
  if serverId = m.screenId then .kServer else .kClient

/-- The core process is what the claim says. -/
def Plays (m : CoreManager) (serverId : Int) : Prop :=
  m.process.processMode = m.modeFor serverId ∧ m.process.currentServerId = serverId

instance (m : CoreManager) (serverId : Int) : Decidable (m.Plays serverId) :=
  inferInstanceAs (Decidable (_ ∧ _))

/-- So is the server proxy, which has a server where that is another screen. -/
def Follows (m : CoreManager) (serverId : Int) : Prop :=
  m.Plays serverId ∧ (serverId ≠ m.screenId → m.serverId = serverId)

instance (m : CoreManager) (serverId : Int) : Decidable (m.Follows serverId) :=
  inferInstanceAs (Decidable (_ ∧ (_ → _)))

/-- Claims, pauses and resumes come one after another. -/
def Sequential (m : CoreManager) : Event → Prop
  | .switchServer serverId _ => m.starting = [] ∧ 0 ≤ serverId
  | .pause | .resume _ => m.starting = []
  | .restart _ | .proceed _ | .core _ => True

/-- A claim is of an `int`, and the last claim before a resume repeats the last one heard. -/
def Repeats (m : CoreManager) : Event → Prop
  | .switchServer serverId _ => serverId < 2 ^ 31
  | .resume _ => m.claim = m.heard
  | .pause | .restart _ | .proceed _ | .core _ => True

instance (m : CoreManager) : DecidablePred m.Sequential
  | .switchServer _ _ => inferInstanceAs (Decidable (_ ∧ _))
  | .pause | .resume _ => inferInstanceAs (Decidable (_ = _))
  | .restart _ | .proceed _ | .core _ => isTrue trivial

instance (m : CoreManager) : DecidablePred m.Repeats
  | .switchServer _ _ => inferInstanceAs (Decidable (_ < _))
  | .resume _ => inferInstanceAs (Decidable (_ = _))
  | .pause | .restart _ | .proceed _ | .core _ => isTrue trivial

/-- The core process is what the last claim that it heard says. -/
def PlaysHeard (m : CoreManager) : Prop :=
  match m.heard with
  | none => m.process.processMode = .kUnknown
  | some serverId => m.Plays serverId

/-- The part of a start of the server proxy that is left. -/
inductive Phase (m : CoreManager) : Prop
  | idle (starting : m.starting = [])
  | polling (serverId : Int) (closed : Bool) (starting : m.starting = [⟨serverId, closed⟩])
      (claim : m.claim = some serverId) (elsewhere : serverId ≠ m.screenId)

theorem Phase.congr {m t : CoreManager} (h : m.Phase) (hstarting : t.starting = m.starting)
    (hclaim : t.claim = m.claim) (hscreen : t.screenId = m.screenId) : t.Phase := by
  cases h with
  | idle hidle => exact .idle (hstarting.trans hidle)
  | polling serverId closed hpolls hclaimed helsewhere =>
    exact .polling serverId closed (hstarting.trans hpolls) (hclaim.trans hclaimed)
      (fun heq => helsewhere (heq.trans hscreen))

/-- What was heard: everything, while the core is not disabled. -/
structure Hearing (m : CoreManager) : Prop where
  heard : m.process.disabled = false → m.claim = m.heard
  range : ∀ serverId, m.claim = some serverId → 0 ≤ serverId ∧ serverId < 2 ^ 31
  rangeHeard : ∀ serverId, m.heard = some serverId → 0 ≤ serverId ∧ serverId < 2 ^ 31

structure Heeding (m : CoreManager) : Prop extends Hearing m where
  phase : m.Phase
  proxy : m.starting = [] → ∀ serverId, m.claim = some serverId → serverId ≠ m.screenId →
    m.serverId = serverId
  plays : m.starting = [] ∨ m.process.disabled = true → m.PlaysHeard

variable {m m' t : CoreManager} {serverId : Int} {attempt : Attempt}

/-! ## What the core process is told -/

theorem toInt_id (h : 0 ≤ serverId ∧ serverId < 2 ^ 31) : CoreProcess.toInt serverId = serverId :=
  CoreProcess.toInt_of_range (by omega) h.2

theorem plays_startServer (henabled : m.process.disabled = false)
    (hrange : 0 ≤ m.screenId ∧ m.screenId < 2 ^ 31) (attempt : Attempt) :
    (m.startServer attempt).Plays m.screenId := by
  have hrole : (m.startServer attempt).process.role =
      ⟨.kServer, CoreProcess.toInt m.screenId, false⟩ := role_startServer_of_enabled henabled
  constructor
  · exact (congrArg CoreProcess.Role.processMode hrole).trans (if_pos rfl).symm
  · exact (congrArg CoreProcess.Role.currentServerId hrole).trans (toInt_id hrange)

theorem plays_startClient (henabled : m.process.disabled = false)
    (hrange : 0 ≤ serverId ∧ serverId < 2 ^ 31) (helsewhere : serverId ≠ m.screenId)
    (attempt : Attempt) : (m.startClient serverId attempt).Plays serverId := by
  have hrole : (m.startClient serverId attempt).process.role =
      ⟨.kClient, CoreProcess.toInt serverId, false⟩ := role_startClient_of_enabled henabled
  constructor
  · exact (congrArg CoreProcess.Role.processMode hrole).trans (if_neg helsewhere).symm
  · exact (congrArg CoreProcess.Role.currentServerId hrole).trans (toInt_id hrange)

theorem eq_screenId_of_modeFor (h : m.modeFor serverId = .kServer) : serverId = m.screenId := by
  by_contra hne
  unfold modeFor at h
  rw [if_neg hne] at h
  exact absurd h (by simp)

theorem ne_screenId_of_modeFor (h : m.modeFor serverId = .kClient) : serverId ≠ m.screenId := by
  intro heq
  unfold modeFor at h
  rw [if_pos heq] at h
  exact absurd h (by simp)

/-! ## One lemma for each operation -/

theorem Plays.congr (h : m.Plays serverId) (hrole : t.process.role = m.process.role)
    (hscreen : t.screenId = m.screenId) : t.Plays serverId := by
  unfold Plays modeFor
  rw [hscreen]
  exact ⟨(congrArg CoreProcess.Role.processMode hrole).trans h.1,
    (congrArg CoreProcess.Role.currentServerId hrole).trans h.2⟩

namespace PlaysHeard

theorem of_some (hheard : m.heard = some serverId) (h : m.Plays serverId) : m.PlaysHeard := by
  unfold PlaysHeard
  rw [hheard]
  exact h

/-- A core process with a mode plays a claim that it heard. -/
theorem exists_plays (h : m.PlaysHeard) (hmode : m.process.processMode ≠ .kUnknown) :
    ∃ serverId, m.heard = some serverId ∧ m.Plays serverId := by
  unfold PlaysHeard at h
  cases hheard : m.heard with
  | none =>
    rw [hheard] at h
    exact absurd h hmode
  | some serverId =>
    rw [hheard] at h
    exact ⟨serverId, rfl, h⟩

theorem congr (h : m.PlaysHeard) (hrole : t.process.role = m.process.role)
    (hscreen : t.screenId = m.screenId) (hheard : t.heard = m.heard) : t.PlaysHeard := by
  unfold PlaysHeard at h ⊢
  rw [hheard]
  cases hlast : m.heard with
  | none =>
    rw [hlast] at h
    exact (congrArg CoreProcess.Role.processMode hrole).trans h
  | some serverId =>
    rw [hlast] at h
    exact Plays.congr h hrole hscreen

/-- The start as the server of a core process that has heard of the local screen. -/
theorem startServer (hold : m.process.disabled = true → m.PlaysHeard)
    (hheard : m.process.disabled = false → m.heard = some m.screenId)
    (hrange : 0 ≤ m.screenId ∧ m.screenId < 2 ^ 31) (attempt : Attempt) :
    (m.startServer attempt).PlaysHeard := by
  cases hdisabled : m.process.disabled with
  | true => exact (hold hdisabled).congr (role_startServer_of_disabled hdisabled) rfl rfl
  | false => exact of_some (hheard hdisabled) (plays_startServer hdisabled hrange attempt)

/-- The start as a client of one that has heard of another screen. -/
theorem startClient (hold : m.process.disabled = true → m.PlaysHeard)
    (hheard : m.process.disabled = false → m.heard = some serverId)
    (hrange : 0 ≤ serverId ∧ serverId < 2 ^ 31) (helsewhere : serverId ≠ m.screenId)
    (attempt : Attempt) : (m.startClient serverId attempt).PlaysHeard := by
  cases hdisabled : m.process.disabled with
  | true => exact (hold hdisabled).congr (role_startClient_of_disabled hdisabled) rfl rfl
  | false =>
    exact of_some (hheard hdisabled) (plays_startClient hdisabled hrange helsewhere attempt)

theorem restart (h : m.PlaysHeard)
    (hrange : ∀ serverId, m.heard = some serverId → 0 ≤ serverId ∧ serverId < 2 ^ 31)
    (hcase : RestartCase m attempt t) : t.PlaysHeard := by
  cases hcase with
  | unknown _ => exact h
  | server hmode =>
    obtain ⟨serverId, hheard, hplays⟩ := h.exists_plays (by simp [hmode])
    obtain rfl := eq_screenId_of_modeFor (hplays.1.symm.trans hmode)
    exact .startServer (fun _ => h) (fun _ => hheard) (hrange _ hheard) attempt
  | client hmode =>
    obtain ⟨serverId, hheard, hplays⟩ := h.exists_plays (by simp [hmode])
    have helsewhere := ne_screenId_of_modeFor (hplays.1.symm.trans hmode)
    rw [hplays.2]
    exact .startClient (fun _ => h) (fun _ => hheard) (hrange _ hheard) helsewhere attempt

end PlaysHeard

namespace Hearing

theorem congr (h : Hearing m) (hdisabled : t.process.disabled = m.process.disabled)
    (hclaim : t.claim = m.claim) (hheard : t.heard = m.heard) : Hearing t where
  heard := by
    rw [hdisabled, hclaim, hheard]
    exact h.heard
  range := by
    rw [hclaim]
    exact h.range
  rangeHeard := by
    rw [hheard]
    exact h.rangeHeard

theorem hear (h : Hearing m) (hrange : 0 ≤ serverId ∧ serverId < 2 ^ 31) :
    Hearing (m.hear serverId) where
  heard := by
    intro henabled
    have hfalse : m.process.disabled = false := henabled
    exact (if_neg (by simp [hfalse])).symm
  range := by
    intro serverId' hclaim
    obtain rfl := Option.some.inj hclaim
    exact hrange
  rangeHeard := by
    intro serverId' hheard
    cases hdisabled : m.process.disabled with
    | true => exact h.rangeHeard serverId' (by simpa [CoreManager.hear, hdisabled] using hheard)
    | false =>
      have heq : serverId = serverId' := by simpa [CoreManager.hear, hdisabled] using hheard
      exact heq ▸ hrange

end Hearing

namespace Heeding

theorem initial (screenId : Int) : Heeding { screenId := screenId } where
  heard := fun _ => rfl
  range := fun _ h => absurd h (by simp)
  rangeHeard := fun _ h => absurd h (by simp)
  phase := .idle rfl
  proxy := fun _ _ h => absurd h (by simp)
  plays := fun _ => rfl

theorem switchServer (h : Heeding m) (hidle : m.starting = [])
    (hrange : 0 ≤ serverId ∧ serverId < 2 ^ 31)
    (hcase : SwitchCase (m.hear serverId) serverId attempt t) : Heeding t := by
  have hheard : m.process.disabled = false → (m.hear serverId).heard = some serverId :=
    fun henabled => if_neg (by simp [henabled])
  have hold : m.process.disabled = true → (m.hear serverId).PlaysHeard :=
    fun hdisabled => (h.plays (Or.inl hidle)).congr rfl rfl (if_pos hdisabled)
  have hhear := h.toHearing.hear hrange
  cases hcase with
  | ignored hhere hmode =>
    refine ⟨hhear, .idle hidle, fun _ serverId' hclaim helsewhere => ?_, fun _ => ?_⟩
    · obtain rfl := Option.some.inj hclaim
      exact absurd hhere.symm helsewhere
    · cases hdisabled : m.process.disabled with
      | true => exact hold hdisabled
      | false =>
        -- the core is in server mode, so what it heard before was the same
        obtain ⟨old, _, hplays⟩ := (h.plays (Or.inl hidle)).exists_plays
          (fun hunknown => absurd (hmode.symm.trans hunknown) (by simp))
        have hsame : old = serverId :=
          (eq_screenId_of_modeFor (hplays.1.symm.trans hmode)).trans hhere
        exact .of_some (hheard hdisabled) (hsame ▸ Plays.congr hplays rfl rfl)
  | server hhere _ =>
    refine ⟨hhear.congr disabled_startServer rfl rfl, .idle hidle,
      fun _ serverId' hclaim helsewhere => ?_, fun _ => ?_⟩
    · obtain rfl := Option.some.inj hclaim
      exact absurd hhere.symm helsewhere
    · have hheard' : m.process.disabled = false → (m.hear serverId).heard = some m.screenId :=
        fun henabled => (hheard henabled).trans (congrArg some hhere.symm)
      exact .startServer (m := m.hear serverId) hold hheard' (hhere.symm ▸ hrange) attempt
  | client helsewhere hsame =>
    refine ⟨hhear.congr disabled_startClient rfl rfl, .idle hidle,
      fun _ serverId' hclaim _ => ?_, fun _ => ?_⟩
    · obtain rfl := Option.some.inj hclaim
      exact hsame.symm
    · exact .startClient (m := m.hear serverId) hold hheard hrange (Ne.symm helsewhere) attempt
  | polling helsewhere _ =>
    refine ⟨hhear.congr rfl rfl rfl, .polling serverId false ?_ rfl (Ne.symm helsewhere),
      fun hnone => absurd hnone (by simp [setStarting]), fun hsome => ?_⟩
    · exact congrArg (⟨serverId, false⟩ :: ·) hidle
    · rcases hsome with hnone | hdisabled
      · exact absurd hnone (by simp [setStarting])
      · exact (hold hdisabled).congr rfl rfl rfl

theorem restart (h : Heeding m) (hcase : RestartCase m attempt t) : Heeding t := by
  have hplays : m.starting = [] ∨ m.process.disabled = true → t.PlaysHeard :=
    fun hsome => (h.plays hsome).restart h.rangeHeard hcase
  cases hcase with
  | unknown _ => exact h
  | server _ =>
    exact ⟨h.toHearing.congr disabled_startServer rfl rfl, h.phase.congr rfl rfl rfl, h.proxy,
      fun hsome => hplays (hsome.imp_right disabled_startServer.symm.trans)⟩
  | client _ =>
    exact ⟨h.toHearing.congr disabled_startClient rfl rfl, h.phase.congr rfl rfl rfl, h.proxy,
      fun hsome => hplays (hsome.imp_right disabled_startClient.symm.trans)⟩

theorem pause (h : Heeding m) (hidle : m.starting = []) : Heeding m.pause := by
  have hrole : m.pause.process.role = (m.setDisabled true).process.role := CoreProcess.role_shutdown
  have hdisabled : m.pause.process.disabled = true := congrArg CoreProcess.Role.disabled hrole
  refine ⟨⟨fun henabled => absurd (hdisabled.symm.trans henabled) (by simp), h.range, h.rangeHeard⟩,
    .idle hidle, h.proxy, fun _ => ?_⟩
  have hplays : (m.setDisabled true).PlaysHeard := h.plays (Or.inl hidle)
  exact hplays.congr hrole rfl rfl

theorem resume (h : Heeding m) (hidle : m.starting = []) (hrepeats : m.claim = m.heard)
    (hcase : RestartCase (m.setDisabled false) attempt t) : Heeding t := by
  have henabled : Heeding (m.setDisabled false) :=
    ⟨⟨fun _ => hrepeats, h.range, h.rangeHeard⟩, .idle hidle, h.proxy,
      fun _ => h.plays (Or.inl hidle)⟩
  exact henabled.restart hcase

theorem stopped (h : Heeding m) {starting : List Starting}
    (hwaits : m.starting = ⟨serverId, false⟩ :: starting) :
    Heeding (m.setStarting (⟨serverId, true⟩ :: starting)) := by
  cases h.phase with
  | idle hidle => exact absurd (hidle.symm.trans hwaits) (by simp)
  | polling serverId' closed hpolls hclaimed helsewhere =>
    obtain ⟨⟨rfl, rfl⟩, rfl⟩ : (serverId' = serverId ∧ closed = false) ∧ starting = [] := by
      simpa using hpolls.symm.trans hwaits
    refine ⟨h.toHearing.congr rfl rfl rfl, .polling serverId' true rfl hclaimed helsewhere,
      fun hnone => absurd hnone (by simp [setStarting]), fun hsome => ?_⟩
    rcases hsome with hnone | hdisabled
    · exact absurd hnone (by simp [setStarting])
    · exact (h.plays (Or.inr hdisabled)).congr rfl rfl rfl

/-- A start of the proxy ends, on behalf of the last claim. -/
theorem started (h : Heeding m) {starting : List Starting}
    (hwaits : m.starting = ⟨serverId, true⟩ :: starting) (attempt : Attempt) :
    Heeding ((m.setStarting starting).started serverId attempt) := by
  cases h.phase with
  | idle hidle => exact absurd (hidle.symm.trans hwaits) (by simp)
  | polling serverId' closed hpolls hclaimed helsewhere =>
    obtain ⟨⟨rfl, rfl⟩, rfl⟩ : (serverId' = serverId ∧ closed = true) ∧ starting = [] := by
      simpa using hpolls.symm.trans hwaits
    refine ⟨h.toHearing.congr disabled_startClient rfl rfl, .idle rfl,
      fun _ claimed hclaim _ => ?_, fun _ => ?_⟩
    · exact Option.some.inj (hclaimed.symm.trans hclaim)
    · have hheard : m.process.disabled = false → m.heard = some serverId' :=
        fun henabled => (h.heard henabled).symm.trans hclaimed
      exact .startClient (m := { m with starting := [], serverId := serverId' })
        (fun hdisabled => (h.plays (Or.inr hdisabled)).congr rfl rfl rfl) hheard
        (h.range serverId' hclaimed) helsewhere attempt

theorem core (h : Heeding m) {process : CoreProcess} (hrole : process.role = m.process.role) :
    Heeding { m with process := process } := by
  have hdisabled : process.disabled = m.process.disabled :=
    congrArg CoreProcess.Role.disabled hrole
  exact ⟨h.toHearing.congr hdisabled rfl rfl, h.phase.congr rfl rfl rfl, h.proxy,
    fun hsome => (h.plays (hsome.imp_right hdisabled.symm.trans)).congr hrole rfl rfl⟩

theorem step {ev : Event} (h : Heeding m) (hok : m.Sequential ev ∧ m.Repeats ev)
    (hstep : CoreManager.step m ev = some m') : Heeding m' := by
  obtain ⟨hsequential, hrepeats⟩ := hok
  cases step_cases hstep with
  | switchServer serverId attempt m' _ hswitches =>
    exact h.switchServer hsequential.1 ⟨hsequential.2, hrepeats⟩ hswitches
  | pause => exact h.pause hsequential
  | resume attempt m' hrestarts => exact h.resume hsequential hrepeats hrestarts
  | restart attempt m' hrestarts => exact h.restart hrestarts
  | stopped serverId starting attempt hwaits => exact h.stopped hwaits
  | started serverId starting attempt hwaits => exact h.started hwaits attempt
  | core ev process hinternal hhappens => exact h.core (CoreProcess.role_step hinternal hhappens)

/-- Between two calls, and while the core is not disabled, everything follows the last claim. -/
theorem follows (h : Heeding m) (hidle : m.starting = []) (henabled : m.process.disabled = false)
    (hclaim : m.claim = some serverId) : m.Follows serverId := by
  refine ⟨?_, h.proxy hidle serverId hclaim⟩
  have hplays := h.plays (Or.inl hidle)
  unfold PlaysHeard at hplays
  rw [← h.heard henabled, hclaim] at hplays
  exact hplays

/-- A resume that is followed by the last claim came when the core had heard it. -/
theorem heard_of_follows (h : Heeding m) (hidle : m.starting = [])
    (hfollows : (m.resume attempt).Follows serverId) : m.heard = some serverId := by
  have hplays : (m.setDisabled false).PlaysHeard := h.plays (Or.inl hidle)
  have hresumed : (m.resume attempt).PlaysHeard := hplays.restart h.rangeHeard restart_cases
  have hheard : (m.resume attempt).heard = m.heard := by
    unfold CoreManager.resume CoreManager.restart
    cases (m.setDisabled false).process.processMode <;> rfl
  have hmode : (m.resume attempt).process.processMode ≠ .kUnknown := by
    rw [hfollows.1.1]
    unfold modeFor
    split <;> simp
  obtain ⟨old, hold, hplaysOld⟩ := hresumed.exists_plays hmode
  rw [← hheard, hold, ← hplaysOld.2, hfollows.1.2]

end Heeding

/-- In a run whose resumes all come with the last claim the one that was last heard, the core
process and the server proxy follow the last claim whenever the core is not disabled. -/
theorem follows_last_claim {screenId : Int}
    (run : Run step (fun m ev => m.Sequential ev ∧ m.Repeats ev) { screenId := screenId } m)
    (hidle : m.starting = []) (henabled : m.process.disabled = false)
    (hclaim : m.claim = some serverId) : m.Follows serverId := by
  have hheeding : Heeding m :=
    run.invariant (Heeding.initial screenId) fun _ _ _ _ h hok hstep => h.step hok hstep
  exact hheeding.follows hidle henabled hclaim

/-- A client of screen 5 that is paused and hears of screen 9 and of screen 5 again. -/
def repeatedClaim : List Event :=
  [.switchServer 5 .client, .proceed .client, .proceed .client, .pause,
    .switchServer 9 .client, .proceed .client, .proceed .client,
    .switchServer 5 .client, .proceed .client, .proceed .client, .resume .client]

theorem repeatedClaim_follows :
    (execs step { screenId := 3 } repeatedClaim).claim = some 5 ∧
    (execs step { screenId := 3 } repeatedClaim).Follows 5 :=
  ⟨by decide +kernel, follows_last_claim (Run.execs .nil (by decide +kernel)) (by decide +kernel)
    (by decide +kernel) (by decide +kernel)⟩

/-- It hears of screen 9 only. -/
def lostClaim : List Event :=
  [.switchServer 5 .client, .proceed .client, .proceed .client, .pause,
    .switchServer 9 .client, .proceed .client, .proceed .client, .resume .client]

/-- After the resume the core is the client of screen 5, and the server proxy talks to screen 9. -/
theorem lostClaim_not_follows :
    Run step (fun m ev => m.Sequential ev) { screenId := 3 }
      (execs step { screenId := 3 } lostClaim) ∧
    (execs step { screenId := 3 } lostClaim).starting = [] ∧
    (execs step { screenId := 3 } lostClaim).process.disabled = false ∧
    (execs step { screenId := 3 } lostClaim).claim = some 9 ∧
    (execs step { screenId := 3 } lostClaim).process.currentServerId = 5 ∧
    (execs step { screenId := 3 } lostClaim).serverId = 9 ∧
    ¬(execs step { screenId := 3 } lostClaim).Follows 9 :=
  ⟨Run.execs .nil (by decide +kernel), by decide +kernel⟩

end Synergy.CoreManager
