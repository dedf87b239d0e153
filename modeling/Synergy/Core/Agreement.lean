import Synergy.Core.CoreManager
import Synergy.Lib.Flight

/-!
# Agreement on the server

The nodes of one profile, and the `ServerClaim`s between them. A node whose user touches the
keyboard takes the server's part and then tells all others; the others take its word, in the order
in which claims arrive. A claim carries no version and nothing else to tell an older one by. So two
users who touch their keyboards at about the same time can leave each node the client of the other,
and nothing on the LAN puts that right: the claim that the new server makes to the cloud does.

What the LAN does achieve is that the nodes agree on the last local input, provided that no claim of
another node was still on its way then: in flight, in a start of the server proxy that polls, or
about to be sent.
-/

set_option autoImplicit false

namespace Synergy

open Lib
open ServerProxy (ProcessMode Starting)

/-! ## One node -/

namespace CoreManager

/-- What holds of a node that is never disabled. -/
structure Steady (m : CoreManager) : Prop where
  enabled : m.process.disabled = false
  server : m.process.processMode = .kServer →
    m.process.currentServerId = CoreProcess.toInt m.screenId
  elsewhere : ∀ start ∈ m.starting, start.serverId ≠ m.screenId

/-- A client of that server. -/
def IsClient (m : CoreManager) (serverId : Int) : Prop :=
  m.process.processMode = .kClient ∧ m.process.currentServerId = CoreProcess.toInt serverId

instance (m : CoreManager) (serverId : Int) : Decidable (m.IsClient serverId) :=
  inferInstanceAs (Decidable (_ ∧ _))

/-- A start of the server proxy, if any, is for that server. -/
def StartsOnly (m : CoreManager) (serverId : Int) : Prop :=
  ∀ start ∈ m.starting, start.serverId = serverId

/-- Neither a claim nor a pause nor a resume. -/
def Event.Plain : Event → Prop
  | .switchServer _ _ | .pause | .resume _ => False
  | .restart _ | .proceed _ | .core _ => True

instance : DecidablePred Event.Plain
  | .switchServer _ _ | .pause | .resume _ => isFalse fun h => h
  | .restart _ | .proceed _ | .core _ => isTrue trivial

/-- A claim, if it is one, is of that server. -/
def Event.ClaimsOnly (serverId : Int) : Event → Prop
  | .switchServer claimed _ => claimed = serverId
  | .pause | .resume _ | .restart _ | .proceed _ | .core _ => True

variable {m m' : CoreManager} {serverId : Int} {attempt : Attempt} {ev : Event}

theorem Event.Plain.unpaused (h : ev.Plain) : ev.Unpaused := by
  cases ev with
  | switchServer _ _ => exact trivial
  | pause => exact h
  | resume _ => exact h
  | restart _ => exact trivial
  | proceed _ => exact trivial
  | core _ => exact trivial

theorem Event.Plain.claimsOnly (h : ev.Plain) : ev.ClaimsOnly serverId := by
  cases ev with
  | switchServer _ _ => exact h.elim
  | pause => exact trivial
  | resume _ => exact trivial
  | restart _ => exact trivial
  | proceed _ => exact trivial
  | core _ => exact trivial

/-- A start of the server proxy is an old one, or one for the other screen whose claim the node has
just taken. -/
theorem starting_step (hstep : CoreManager.step m ev = some m') :
    ∀ start ∈ m'.starting, (∃ old ∈ m.starting, old.serverId = start.serverId) ∨
      m.screenId ≠ start.serverId ∧ ∃ attempt, ev = .switchServer start.serverId attempt := by
  have hold : ∀ start ∈ m.starting, ∃ old ∈ m.starting, old.serverId = start.serverId :=
    fun start hmem => ⟨start, hmem, rfl⟩
  intro start hmem
  cases step_cases hstep with
  | switchServer serverId attempt m' _ hswitches =>
    cases hswitches with
    | ignored _ _ => exact Or.inl (hold start hmem)
    | server _ _ => exact Or.inl (hold start hmem)
    | client _ _ => exact Or.inl (hold start hmem)
    | polling helsewhere _ =>
      rcases List.mem_cons.mp hmem with rfl | hmem
      · exact Or.inr ⟨helsewhere, attempt, rfl⟩
      · exact Or.inl (hold start hmem)
  | pause => exact Or.inl (hold start hmem)
  | resume attempt m' hrestarts => cases hrestarts <;> exact Or.inl (hold start hmem)
  | restart attempt m' hrestarts => cases hrestarts <;> exact Or.inl (hold start hmem)
  | stopped serverId starting attempt hwaits =>
    rcases List.mem_cons.mp hmem with rfl | hmem
    · exact Or.inl ⟨⟨serverId, false⟩, hwaits ▸ List.mem_cons_self, rfl⟩
    · exact Or.inl (hold start (hwaits ▸ List.mem_cons_of_mem _ hmem))
  | started serverId starting attempt hwaits =>
    exact Or.inl (hold start (hwaits ▸ List.mem_cons_of_mem _ hmem))
  | core ev process _ _ => exact Or.inl (hold start hmem)

namespace Steady

theorem initial (screenId : Int) : Steady { screenId := screenId } where
  enabled := rfl
  server := fun h => absurd h (by simp)
  elsewhere := fun _ h => absurd h (by simp)

theorem startServer (h : Steady m) (attempt : Attempt) : Steady (m.startServer attempt) where
  enabled := disabled_startServer.trans h.enabled
  server := fun _ =>
    congrArg CoreProcess.Role.currentServerId (role_startServer_of_enabled h.enabled)
  elsewhere := h.elsewhere

theorem startClient (h : Steady m) (serverId : Int) (attempt : Attempt) :
    Steady (m.startClient serverId attempt) where
  enabled := disabled_startClient.trans h.enabled
  server := by
    intro hmode
    have hclient : (m.startClient serverId attempt).process.processMode = .kClient :=
      congrArg CoreProcess.Role.processMode (role_startClient_of_enabled h.enabled)
    exact absurd (hclient.symm.trans hmode) (by simp)
  elsewhere := h.elsewhere

theorem step (h : Steady m) (hev : ev.Unpaused) (hstep : CoreManager.step m ev = some m') :
    Steady m' where
  enabled := (disabled_step hstep hev).trans h.enabled
  server := by
    cases step_cases hstep with
    | switchServer serverId attempt m' _ hswitches =>
      have hheard : Steady (m.hear serverId) := ⟨h.enabled, h.server, h.elsewhere⟩
      cases hswitches with
      | ignored _ _ => exact h.server
      | server _ _ => exact (hheard.startServer attempt).server
      | client _ _ => exact (hheard.startClient serverId attempt).server
      | polling _ _ => exact h.server
    | pause => exact hev.elim
    | resume attempt m' hrestarts => exact hev.elim
    | restart attempt m' hrestarts =>
      cases hrestarts with
      | unknown _ => exact h.server
      | server _ => exact (h.startServer attempt).server
      | client _ => exact (h.startClient m.process.currentServerId attempt).server
    | stopped serverId starting attempt hwaits => exact h.server
    | started serverId starting attempt hwaits => exact (h.startClient serverId attempt).server
    | core ev process hinternal hhappens =>
      have hrole := CoreProcess.role_step hinternal hhappens
      intro hmode
      have hmode' : m.process.processMode = .kServer :=
        (congrArg CoreProcess.Role.processMode hrole).symm.trans hmode
      exact (congrArg CoreProcess.Role.currentServerId hrole).trans (h.server hmode')
  elsewhere := by
    intro start hmem
    rw [screenId_step hstep]
    rcases starting_step hstep start hmem with ⟨old, hold, heq⟩ | ⟨helsewhere, _⟩
    · exact heq ▸ h.elsewhere old hold
    · exact Ne.symm helsewhere

end Steady

theorem StartsOnly.step (h : m.StartsOnly serverId) (hstep : CoreManager.step m ev = some m')
    (hev : ev.ClaimsOnly serverId) : m'.StartsOnly serverId := by
  intro start hmem
  rcases starting_step hstep start hmem with ⟨old, hold, heq⟩ | ⟨_, attempt, rfl⟩
  · exact heq.symm.trans (h old hold)
  · exact hev

theorem isClient_startClient (henabled : m.process.disabled = false) :
    (m.startClient serverId attempt).IsClient serverId := by
  have hrole : (m.startClient serverId attempt).process.role =
      ⟨.kClient, CoreProcess.toInt serverId, false⟩ := role_startClient_of_enabled henabled
  exact ⟨congrArg CoreProcess.Role.processMode hrole,
    congrArg CoreProcess.Role.currentServerId hrole⟩

/-- A client of that server, or about to be one. -/
def Joins (m : CoreManager) (serverId : Int) : Prop := m.IsClient serverId ∨ m.starting ≠ []

namespace Joins

/-- The claim of another node makes a node its client. -/
theorem of_switch (h : Steady m) (helsewhere : m.screenId ≠ serverId)
    (hcase : SwitchCase (m.hear serverId) serverId attempt m') : m'.Joins serverId := by
  cases hcase with
  | ignored hhere _ => exact absurd hhere helsewhere
  | server hhere _ => exact absurd hhere helsewhere
  | client _ _ => exact Or.inl (isClient_startClient (m := m.hear serverId) h.enabled)
  | polling _ _ => exact Or.inr (by simp [setStarting])

theorem step (hjoins : m.Joins serverId) (h : Steady m) (hstarts : m.StartsOnly serverId)
    (helsewhere : m.screenId ≠ serverId) (hev : ev.Unpaused ∧ ev.ClaimsOnly serverId)
    (hstep : CoreManager.step m ev = some m') : m'.Joins serverId := by
  cases step_cases hstep with
  | switchServer claimed attempt m' _ hswitches =>
    obtain rfl : claimed = serverId := hev.2
    exact of_switch h helsewhere hswitches
  | pause => exact hev.1.elim
  | resume attempt m' _ => exact hev.1.elim
  | restart attempt m' hrestarts =>
    refine hjoins.imp (fun hclient => ?_) (fun hpolls => ?_)
    · cases hrestarts with
      | unknown _ => exact hclient
      | server hmode => exact absurd (hclient.1.symm.trans hmode) (by simp)
      | client _ =>
        have hagain : (m.startClient m.process.currentServerId attempt).IsClient
            m.process.currentServerId := isClient_startClient h.enabled
        refine ⟨hagain.1, hagain.2.trans ?_⟩
        rw [hclient.2]
        exact Int.bmod_bmod
    · cases hrestarts <;> exact hpolls
  | stopped claimed starting attempt hwaits => exact Or.inr (by simp [setStarting])
  | started claimed starting attempt hwaits =>
    obtain rfl : claimed = serverId := hstarts ⟨claimed, true⟩ (hwaits ▸ List.mem_cons_self)
    exact Or.inl (isClient_startClient
      (m := { m.setStarting starting with serverId := claimed }) h.enabled)
  | core ev process hinternal hhappens =>
    have hrole := CoreProcess.role_step hinternal hhappens
    exact hjoins.imp_left fun hclient =>
      ⟨(congrArg CoreProcess.Role.processMode hrole).trans hclient.1,
        (congrArg CoreProcess.Role.currentServerId hrole).trans hclient.2⟩

end Joins

/-- The server, with nothing else under way. -/
def Serves (m : CoreManager) : Prop := m.process.processMode = .kServer ∧ m.starting = []

theorem processMode_startServer (henabled : m.process.disabled = false) :
    (m.startServer attempt).process.processMode = .kServer :=
  congrArg CoreProcess.Role.processMode (role_startServer_of_enabled henabled)

namespace Serves

/-- The claim of a node itself makes it the server. -/
theorem of_switch (h : Steady m) (hidle : m.starting = [])
    (hcase : SwitchCase (m.hear m.screenId) m.screenId attempt m') : m'.Serves := by
  cases hcase with
  | ignored _ hmode => exact ⟨hmode, hidle⟩
  | server _ _ => exact ⟨processMode_startServer (m := m.hear m.screenId) h.enabled, hidle⟩
  | client helsewhere _ => exact absurd rfl helsewhere
  | polling helsewhere _ => exact absurd rfl helsewhere

theorem step (hserves : m.Serves) (h : Steady m)
    (hev : ev.Unpaused ∧ ev.ClaimsOnly m.screenId) (hstep : CoreManager.step m ev = some m') :
    m'.Serves := by
  obtain ⟨hmode, hidle⟩ := hserves
  cases step_cases hstep with
  | switchServer claimed attempt m' _ hswitches =>
    obtain rfl : claimed = m.screenId := hev.2
    exact of_switch h hidle hswitches
  | pause => exact hev.1.elim
  | resume attempt m' _ => exact hev.1.elim
  | restart attempt m' hrestarts =>
    cases hrestarts with
    | unknown hunknown => exact absurd (hmode.symm.trans hunknown) (by simp)
    | server _ => exact ⟨processMode_startServer h.enabled, hidle⟩
    | client hclient => exact absurd (hmode.symm.trans hclient) (by simp)
  | stopped claimed starting attempt hwaits =>
    exact absurd (hidle.symm.trans hwaits) (by simp)
  | started claimed starting attempt hwaits =>
    exact absurd (hidle.symm.trans hwaits) (by simp)
  | core ev process hinternal hhappens =>
    have hrole := CoreProcess.role_step hinternal hhappens
    exact ⟨(congrArg CoreProcess.Role.processMode hrole).trans hmode, hidle⟩

end Serves

end CoreManager

/-! ## All nodes -/

/-- What the protocol's `ServerClaim` carries. -/
structure ServerClaim where
  profileId : UInt32
  screenId : UInt32
  deriving DecidableEq

structure Lan (ι : Type) where
  nodes : ι → CoreManager
  /-- How many local inputs of a node have yet to be told to the others. -/
  owed : ι → Nat
  /-- The claims in flight, each with its sender and its receiver. -/
  flight : List ((ι × ι) × ServerClaim)

namespace Lan

variable {ι : Type} [DecidableEq ι]

inductive Event (ι : Type) where
  /-- The handler of a local input, up to the end of `switchServer`. -/
  | localInput (i : ι) (command : Command)
  /-- Its `notifyServerClaim`, with the destinations of the route table, one for each route. -/
  | notify (i : ι) (routes : List ι)
  | deliver (i j : ι) (command : Command)
  /-- A restart, a poll that returns, or what goes on in the core process. -/
  | node (i : ι) (ev : CoreManager.Event)

/-- `Router::notifyOtherNodes`: to whom it sends. -/
def notifyOtherNodes (screenId : ι → Int) (lastDestId : Int) : List ι → List ι
  | [] => []
  | dest :: routes =>
    if lastDestId ≠ screenId dest then dest :: notifyOtherNodes screenId (screenId dest) routes
    else notifyOtherNodes screenId lastDestId routes

/-- The message of `CoreManager::notifyServerClaim`. -/
def serverClaim (profileId screenId : Int) : ServerClaim where
  profileId := UInt32.ofInt profileId
  screenId := UInt32.ofInt screenId

def setNode (s : Lan ι) (i : ι) (m : CoreManager) : Lan ι :=
  { s with nodes := Function.update s.nodes i m }

/-- `ClaimMessageHandler::handle`. -/
def handle (profileId : Int) (s : Lan ι) (j : ι) (msg : ServerClaim) (command : Command) :
    Option (Lan ι) :=
  if (msg.profileId.toNat : Int) ≠ profileId then some s
  else
    (CoreManager.step (s.nodes j) (.switchServer msg.screenId.toNat { command := command })).map
      (s.setNode j)

def step [Fintype ι] (profileId : Int) (s : Lan ι) : Event ι → Option (Lan ι)
  | .localInput i command =>
    (CoreManager.step (s.nodes i)
      (.switchServer (s.nodes i).screenId { command := command })).map fun m =>
        { s.setNode i m with owed := Function.update s.owed i (s.owed i + 1) }
  -- there is a route to every other node
  | .notify i routes =>
    if 0 < s.owed i ∧ ∀ j, j ≠ i → j ∈ routes then
      some { s with
        owed := Function.update s.owed i (s.owed i - 1)
        flight := s.flight ++
          (notifyOtherNodes (fun j => (s.nodes j).screenId) (2 ^ 32 - 1) routes).map fun j =>
            ((i, j), serverClaim profileId (s.nodes i).screenId) }
    else none
  | .deliver i j command =>
    match Flight.takeFirst (i, j) s.flight with
    | none => none
    | some (msg, flight) => handle profileId { s with flight := flight } j msg command
  | .node i ev =>
    if ev.Plain then (CoreManager.step (s.nodes i) ev).map (s.setNode i) else none

def initial (screenId : ι → Int) : Lan ι where
  nodes := fun i => { screenId := screenId i }
  owed := fun _ => 0
  flight := []

/-- Nothing is under way. -/
def Quiescent (s : Lan ι) : Prop :=
  s.flight = [] ∧ ∀ i, s.owed i = 0 ∧ (s.nodes i).starting = []

instance [Fintype ι] (s : Lan ι) : Decidable s.Quiescent := inferInstanceAs (Decidable (_ ∧ _))

/-- No claim is under way but those of that node. -/
structure OnlyFrom (s : Lan ι) (i : ι) : Prop where
  flight : ∀ e msg, (e, msg) ∈ s.flight → e.1 = i
  owed : ∀ j, j ≠ i → s.owed j = 0
  starts : ∀ j, (s.nodes j).StartsOnly (s.nodes i).screenId

/-- Every node takes that one for the server. -/
def AgreeOn (s : Lan ι) (i : ι) : Prop :=
  ∀ j, (s.nodes j).process.currentServerId = CoreProcess.toInt (s.nodes i).screenId ∧
    (s.nodes j).process.processMode = if j = i then .kServer else .kClient

instance [Fintype ι] (s : Lan ι) (i : ι) : Decidable (s.AgreeOn i) :=
  inferInstanceAs (Decidable (∀ _, _ ∧ _))

def Event.IsLocalInput : Event ι → Prop
  | .localInput _ _ => True
  | .notify _ _ | .deliver _ _ _ | .node _ _ => False

variable {s s' t : Lan ι} {i j : ι} {profileId : Int} {screenId : ι → Int} {m : CoreManager}

theorem nodes_setNode (s : Lan ι) (i j : ι) (m : CoreManager) :
    (s.setNode i m).nodes j = if j = i then m else s.nodes j :=
  Function.update_apply ..

/-- What a node keeps, all nodes keep. -/
theorem forall_setNode {P : ι → CoreManager → Prop} (h : ∀ j, P j (s.nodes j)) (hm : P i m)
    (j : ι) :
    P j ((s.setNode i m).nodes j) := by
  rw [nodes_setNode]
  split
  · rename_i heq
    exact heq ▸ hm
  · exact h j

/-- Every destination is notified, except one whose id is -1 as a `uint32_t`. -/
theorem mem_notifyOtherNodes (hinj : Function.Injective screenId) {routes : List ι}
    {lastDestId : Int}
    (hmem : j ∈ routes) (hlast : lastDestId ≠ screenId j) :
    j ∈ notifyOtherNodes screenId lastDestId routes := by
  induction routes generalizing lastDestId with
  | nil => exact absurd hmem (by simp)
  | cons dest routes ih =>
    unfold notifyOtherNodes
    by_cases hsame : dest = j
    · subst hsame
      rw [if_pos hlast]
      exact List.mem_cons_self
    · have hrest : j ∈ routes := (List.mem_cons.mp hmem).resolve_left (Ne.symm hsame)
      split
      · exact List.mem_cons_of_mem _ (ih hrest fun heq => hsame (hinj heq))
      · exact ih hrest hlast

theorem toNat_ofInt {n : Int} (h : 0 ≤ n ∧ n < 2 ^ 32) : ((UInt32.ofInt n).toNat : Int) = n := by
  simp [UInt32.ofInt]
  omega

/-! ### What a step does -/

/-- The ways a step can go. -/
inductive StepCase (profileId : Int) (s : Lan ι) : Event ι → Lan ι → Prop where
  | localInput (i : ι) (command : Command) (m : CoreManager)
      (switches : CoreManager.step (s.nodes i)
        (.switchServer (s.nodes i).screenId { command := command }) = some m) :
      StepCase profileId s (.localInput i command)
        { s.setNode i m with owed := Function.update s.owed i (s.owed i + 1) }
  | notify (i : ι) (routes : List ι) (owes : 0 < s.owed i) (complete : ∀ j, j ≠ i → j ∈ routes) :
      StepCase profileId s (.notify i routes)
        { s with
          owed := Function.update s.owed i (s.owed i - 1)
          flight := s.flight ++
            (notifyOtherNodes (fun j => (s.nodes j).screenId) (2 ^ 32 - 1) routes).map fun j =>
              ((i, j), serverClaim profileId (s.nodes i).screenId) }
  | ignored (i j : ι) (command : Command) (msg : ServerClaim)
      (flight : List ((ι × ι) × ServerClaim)) (taken : Flight.Taken (i, j) s.flight msg flight)
      (other : (msg.profileId.toNat : Int) ≠ profileId) :
      StepCase profileId s (.deliver i j command) { s with flight := flight }
  | delivered (i j : ι) (command : Command) (msg : ServerClaim)
      (flight : List ((ι × ι) × ServerClaim)) (m : CoreManager)
      (taken : Flight.Taken (i, j) s.flight msg flight)
      (switches : CoreManager.step (s.nodes j)
        (.switchServer msg.screenId.toNat { command := command }) = some m) :
      StepCase profileId s (.deliver i j command)
        (({ s with flight := flight } : Lan ι).setNode j m)
  | node (i : ι) (ev : CoreManager.Event) (m : CoreManager) (plain : ev.Plain)
      (happens : CoreManager.step (s.nodes i) ev = some m) :
      StepCase profileId s (.node i ev) (s.setNode i m)

theorem step_cases [Fintype ι] {ev : Event ι} (h : step profileId s ev = some s') :
    StepCase profileId s ev s' := by
  cases ev with
  | localInput i command =>
    obtain ⟨m, hswitches, rfl⟩ := Option.map_eq_some_iff.mp h
    exact .localInput i command m hswitches
  | notify i routes =>
    obtain ⟨⟨howes, hcomplete⟩, heq⟩ := Option.ite_none_right_eq_some.mp h
    cases heq
    exact .notify i routes howes hcomplete
  | deliver i j command =>
    cases htake : Flight.takeFirst (i, j) s.flight with
    | none => exact absurd h (by simp [step, htake])
    | some taken =>
      obtain ⟨msg, flight⟩ := taken
      have htaken := Flight.taken_of_takeFirst htake
      simp only [step, htake, handle] at h
      by_cases hother : (msg.profileId.toNat : Int) ≠ profileId
      · rw [if_pos hother] at h
        cases h
        exact .ignored i j command msg flight htaken hother
      · rw [if_neg hother] at h
        obtain ⟨m, hswitches, rfl⟩ := Option.map_eq_some_iff.mp h
        exact .delivered i j command msg flight m htaken hswitches
  | node i ev =>
    obtain ⟨hplain, heq⟩ := Option.ite_none_right_eq_some.mp h
    obtain ⟨m, hhappens, rfl⟩ := Option.map_eq_some_iff.mp heq
    exact .node i ev m hplain hhappens

/-! ### What every run keeps -/

structure Sound (profileId : Int) (screenId : ι → Int) (s : Lan ι) : Prop where
  screens : ∀ i, (s.nodes i).screenId = screenId i
  steady : ∀ i, (s.nodes i).Steady
  claims : ∀ e msg, (e, msg) ∈ s.flight → msg = serverClaim profileId (screenId e.1)

namespace Sound

omit [DecidableEq ι] in
theorem initial (profileId : Int) (screenId : ι → Int) :
    Sound profileId screenId (initial screenId) where
  screens := fun _ => rfl
  steady := fun i => CoreManager.Steady.initial (screenId i)
  claims := fun _ _ h => absurd h (by simp [Lan.initial])

/-- A node takes a step. -/
theorem setNode (h : Sound profileId screenId s) {ev : CoreManager.Event}
    (hstep : CoreManager.step (s.nodes i) ev = some m) (hev : ev.Unpaused) :
    Sound profileId screenId (s.setNode i m) where
  screens := forall_setNode (P := fun j m => m.screenId = screenId j) h.screens
    ((CoreManager.screenId_step hstep).trans (h.screens i))
  steady := forall_setNode (P := fun _ m => m.Steady) h.steady ((h.steady i).step hev hstep)
  claims := h.claims

theorem take (h : Sound profileId screenId s) {e : ι × ι} {msg : ServerClaim}
    {flight : List ((ι × ι) × ServerClaim)} (htaken : Flight.Taken e s.flight msg flight) :
    Sound profileId screenId { s with flight := flight } where
  screens := h.screens
  steady := h.steady
  claims := fun e' msg' hmem =>
    h.claims e' msg' (Flight.mem_queue.mp (htaken.mem_queue (Flight.mem_queue.mpr hmem)))

theorem step [Fintype ι] {ev : Event ι} (h : Sound profileId screenId s)
    (hstep : Lan.step profileId s ev = some s') : Sound profileId screenId s' := by
  cases step_cases hstep with
  | localInput i command m hswitches =>
    have hnode := h.setNode hswitches trivial
    exact ⟨hnode.screens, hnode.steady, hnode.claims⟩
  | notify i routes howes hcomplete =>
    refine ⟨h.screens, h.steady, fun e msg hmem => ?_⟩
    rcases List.mem_append.mp hmem with hold | hnew
    · exact h.claims e msg hold
    · obtain ⟨j, _, heq⟩ := List.mem_map.mp hnew
      cases heq
      exact congrArg (serverClaim profileId) (h.screens i)
  | ignored i j command msg flight htaken hother => exact h.take htaken
  | delivered i j command msg flight m htaken hswitches =>
    exact (h.take htaken).setNode hswitches trivial
  | node i ev m hplain hhappens => exact h.setNode hhappens hplain.unpaused

end Sound

/-! ### After the last local input -/

/-- Node `x` is the server, and every other node is its client or will be. -/
structure Settling (screenId : ι → Int) (x : ι) (s : Lan ι) : Prop where
  flight : ∀ e msg, (e, msg) ∈ s.flight → e.1 = x
  owed : ∀ j, j ≠ x → s.owed j = 0
  starts : ∀ j, (s.nodes j).StartsOnly (screenId x)
  serves : (s.nodes x).Serves
  joins : ∀ j, j ≠ x →
    (s.nodes j).Joins (screenId x) ∨ 0 < s.owed x ∨ ∃ msg, ((x, j), msg) ∈ s.flight

namespace Settling

variable {x : ι}

/-- The last local input. -/
theorem localInput [Fintype ι] (h : Sound profileId screenId s) (honly : s.OnlyFrom x)
    {command : Command} (hstep : Lan.step profileId s (.localInput x command) = some s') :
    Settling screenId x s' := by
  cases step_cases hstep with
  | localInput _ _ m hswitches =>
    have hstarts : ∀ j, (s.nodes j).StartsOnly (screenId x) := by
      intro j
      rw [← h.screens x]
      exact honly.starts j
    have hidle : (s.nodes x).starting = [] := by
      refine List.eq_nil_iff_forall_not_mem.mpr fun start hmem => ?_
      exact (h.steady x).elsewhere start hmem (honly.starts x start hmem)
    have hserves : m.Serves := by
      cases CoreManager.step_cases hswitches with
      | switchServer _ _ _ _ hcase => exact .of_switch (h.steady x) hidle hcase
    have hstartsNew : m.StartsOnly (screenId x) := (hstarts x).step hswitches (h.screens x)
    have hall := forall_setNode (i := x) (P := fun _ m => m.StartsOnly (screenId x)) hstarts
      hstartsNew
    refine ⟨honly.flight, fun j hne => ?_, hall, ?_, fun j hne => Or.inr (Or.inl ?_)⟩
    · exact (Function.update_of_ne hne ..).trans (honly.owed j hne)
    · show ((s.setNode x m).nodes x).Serves
      rw [nodes_setNode, if_pos rfl]
      exact hserves
    · show 0 < Function.update s.owed x (s.owed x + 1) x
      rw [Function.update_self]
      exact Nat.succ_pos _

/-- A node takes a step in which there is no claim but of `x`. -/
theorem setNode (h : Settling screenId x s) (hsound : Sound profileId screenId s)
    (hinj : Function.Injective screenId) {ev : CoreManager.Event}
    (hstep : CoreManager.step (s.nodes i) ev = some m)
    (hev : ev.Unpaused ∧ ev.ClaimsOnly (screenId x)) : Settling screenId x (s.setNode i m) where
  flight := h.flight
  owed := h.owed
  starts := forall_setNode (P := fun _ m => m.StartsOnly (screenId x)) h.starts
    ((h.starts i).step hstep hev.2)
  serves := by
    rw [nodes_setNode]
    split
    · rename_i heq
      subst heq
      exact h.serves.step (hsound.steady x) (hsound.screens x ▸ hev) hstep
    · exact h.serves
  joins := by
    intro j hne
    refine (h.joins j hne).imp_left fun hjoins => ?_
    rw [nodes_setNode]
    split
    · rename_i heq
      subst heq
      have helsewhere : (s.nodes j).screenId ≠ screenId x := by
        rw [hsound.screens j]
        exact fun hsame => hne (hinj hsame)
      exact hjoins.step (hsound.steady j) (h.starts j) helsewhere hev hstep
    · exact hjoins

/-- The claim of `x` arrives. -/
theorem deliver (h : Settling screenId x s) (hsound : Sound profileId screenId s)
    (hinj : Function.Injective screenId) {msg : ServerClaim}
    {flight : List ((ι × ι) × ServerClaim)} (htaken : Flight.Taken (i, j) s.flight msg flight)
    {attempt : Attempt}
    (hstep : CoreManager.step (s.nodes j) (.switchServer (screenId x) attempt) = some m) :
    Settling screenId x (({ s with flight := flight } : Lan ι).setNode j m) := by
  have hset := h.setNode hsound hinj hstep ⟨trivial, rfl⟩
  refine ⟨fun e msg' hmem => ?_, hset.owed, hset.starts, hset.serves, fun k hne => ?_⟩
  · exact h.flight e msg' (Flight.mem_queue.mp (htaken.mem_queue (Flight.mem_queue.mpr hmem)))
  · by_cases hsame : k = j
    · subst hsame
      have helsewhere : (s.nodes k).screenId ≠ screenId x := by
        rw [hsound.screens k]
        exact fun heq => hne (hinj heq)
      refine Or.inl ?_
      rw [nodes_setNode, if_pos rfl]
      cases CoreManager.step_cases hstep with
      | switchServer _ _ _ _ hcase => exact .of_switch (hsound.steady k) helsewhere hcase
    · refine (hset.joins k hne).imp_right (Or.imp_right fun hmem => ?_)
      obtain ⟨msg', hmem⟩ := hmem
      have hother : (x, k) ≠ (i, j) := fun heq => hsame (Prod.mk.inj heq).2
      refine ⟨msg', Flight.mem_queue.mp ?_⟩
      show msg' ∈ Flight.queue (x, k) flight
      rw [htaken.others (x, k) hother]
      exact Flight.mem_queue.mpr hmem

theorem notify (h : Settling screenId x s) (hsound : Sound profileId screenId s)
    (hinj : Function.Injective screenId)
    (hids : ∀ i, 0 ≤ screenId i ∧ screenId i < 2 ^ 32 - 1) {routes : List ι} (howes : 0 < s.owed i)
    (hcomplete : ∀ j, j ≠ i → j ∈ routes) (msg : ServerClaim) :
    Settling screenId x { s with
      owed := Function.update s.owed i (s.owed i - 1)
      flight := s.flight ++
        (notifyOtherNodes (fun j => (s.nodes j).screenId) (2 ^ 32 - 1) routes).map fun j =>
          ((i, j), msg) } := by
  obtain rfl : i = x := by
    by_contra hne
    exact absurd howes (by simp [h.owed i hne])
  have hscreens : (fun j => (s.nodes j).screenId) = screenId := funext hsound.screens
  refine ⟨fun e msg' hmem => ?_, fun j hne => ?_, h.starts, h.serves, fun j hne => ?_⟩
  · rcases List.mem_append.mp hmem with hold | hnew
    · exact h.flight e msg' hold
    · obtain ⟨j, _, heq⟩ := List.mem_map.mp hnew
      cases heq
      rfl
  · exact (Function.update_of_ne hne ..).trans (h.owed j hne)
  · have hlast : (2 ^ 32 - 1 : Int) ≠ screenId j := (ne_of_lt (hids j).2).symm
    refine Or.inr (Or.inr ⟨msg, List.mem_append.mpr (Or.inr (List.mem_map.mpr ⟨j, ?_, rfl⟩))⟩)
    rw [hscreens]
    exact mem_notifyOtherNodes hinj (hcomplete j hne) hlast

theorem step [Fintype ι] (h : Settling screenId x s) (hsound : Sound profileId screenId s)
    (hinj : Function.Injective screenId) (hids : ∀ i, 0 ≤ screenId i ∧ screenId i < 2 ^ 32 - 1)
    (hprofile : 0 ≤ profileId ∧ profileId < 2 ^ 32) {ev : Event ι} (hev : ¬ev.IsLocalInput)
    (hstep : Lan.step profileId s ev = some s') : Settling screenId x s' := by
  have hclaim : ∀ {i j : ι} {msg : ServerClaim} {flight : List ((ι × ι) × ServerClaim)},
      Flight.Taken (i, j) s.flight msg flight → msg = serverClaim profileId (screenId x) := by
    intro i j msg flight htaken
    have hmem : ((i, j), msg) ∈ s.flight := by
      refine Flight.mem_queue.mp ?_
      rw [htaken.head]
      exact List.mem_cons_self
    obtain rfl : i = x := h.flight (i, j) msg hmem
    exact hsound.claims (i, j) msg hmem
  cases step_cases hstep with
  | localInput i command m hswitches => exact absurd trivial hev
  | notify i routes howes hcomplete => exact h.notify hsound hinj hids howes hcomplete _
  | ignored i j command msg flight htaken hother =>
    refine absurd ?_ hother
    rw [hclaim htaken]
    exact toNat_ofInt hprofile
  | delivered i j command msg flight m htaken hswitches =>
    have hid : ((serverClaim profileId (screenId x)).screenId.toNat : Int) = screenId x :=
      toNat_ofInt ⟨(hids x).1, lt_trans (hids x).2 (by norm_num)⟩
    rw [hclaim htaken, hid] at hswitches
    exact h.deliver hsound hinj htaken hswitches
  | node i ev m hplain hhappens =>
    exact h.setNode hsound hinj hhappens ⟨hplain.unpaused, hplain.claimsOnly⟩

/-- When nothing is under way any more, all nodes agree. -/
theorem agree (h : Settling screenId x s) (hsound : Sound profileId screenId s)
    (hquiescent : s.Quiescent) : s.AgreeOn x := by
  obtain ⟨hflight, hidle⟩ := hquiescent
  intro j
  rw [hsound.screens x]
  by_cases hsame : j = x
  · subst hsame
    rw [if_pos rfl, ← hsound.screens j]
    exact ⟨(hsound.steady j).server h.serves.1, h.serves.1⟩
  · rw [if_neg hsame]
    rcases h.joins j hsame with (hclient | hpolls) | howes | ⟨msg, hmem⟩
    · exact ⟨hclient.2, hclient.1⟩
    · exact absurd (hidle j).2 hpolls
    · exact absurd howes (by simp [(hidle x).1])
    · exact absurd (hflight ▸ hmem) (by simp)

end Settling

/-- Where no claim of another node is under way at the last local input, all nodes agree on the node
where it was as soon as nothing is under way. -/
theorem agree_on_last_input [Fintype ι] {x : ι} {command : Command}
    (hinj : Function.Injective screenId) (hids : ∀ i, 0 ≤ screenId i ∧ screenId i < 2 ^ 32 - 1)
    (hprofile : 0 ≤ profileId ∧ profileId < 2 ^ 32)
    (before : Run (step profileId) (fun _ _ => True) (initial screenId) s) (honly : s.OnlyFrom x)
    (hinput : step profileId s (.localInput x command) = some s')
    (after : Run (step profileId) (fun _ ev => ¬ev.IsLocalInput) s' t)
    (hquiescent : t.Quiescent) : t.AgreeOn x := by
  have hsound : Sound profileId screenId s :=
    before.invariant (.initial profileId screenId) fun _ _ _ _ h _ hstep => h.step hstep
  obtain ⟨hsound', hsettling⟩ := after.invariant
    (I := fun y => Sound profileId screenId y ∧ Settling screenId x y)
    ⟨hsound.step hinput, .localInput hsound honly hinput⟩
    fun _ _ _ _ hy hev hstep => ⟨hy.1.step hstep, hy.2.step hy.1 hinj hids hprofile hev hstep⟩
  exact hsettling.agree hsound' hquiescent

/-- The screen ids of two nodes. -/
def screens (one other : Int) : Bool → Int
  | false => one
  | true => other

/-- The user of one node, and nobody else, touches the keyboard. -/
def oneInput : List (Event Bool) :=
  [.notify false [true], .deliver false true CoreProcess.clientCommand,
    .node true (.proceed .client), .node true (.proceed .client)]

theorem oneInput_agree :
    (execs (step 4) (initial (screens 1 2))
      (.localInput false CoreProcess.serverCommand :: oneInput)).flight = [] ∧
    (execs (step 4) (initial (screens 1 2))
      (.localInput false CoreProcess.serverCommand :: oneInput)).AgreeOn false := by
  refine ⟨by decide +kernel, agree_on_last_input (s := initial (screens 1 2)) (x := false)
    (by decide) (by decide) (by decide) .nil ?_
    (step_eq_exec (by decide +kernel)) (Run.execs .nil ?_) ?_⟩
  · exact ⟨fun _ _ h => absurd h (by simp [initial]), fun _ _ => rfl,
      fun _ _ h => absurd h (by simp [initial])⟩
  · exact ⟨id, id, id, id, trivial⟩
  · exact ⟨by decide +kernel, by decide +kernel⟩

/-- Both users touch theirs before either claim has arrived. -/
def twoInputs : List (Event Bool) :=
  [.localInput false CoreProcess.serverCommand, .notify false [true],
    .localInput true CoreProcess.serverCommand, .notify true [false],
    .deliver false true CoreProcess.clientCommand, .node true (.proceed .client),
    .node true (.proceed .client), .deliver true false CoreProcess.clientCommand,
    .node false (.proceed .client), .node false (.proceed .client)]

/-- The run ends with nothing under way, and the nodes do not agree. -/
def Disagree (profileId : Int) (screenId : Bool → Int) (evs : List (Event Bool)) : Prop :=
  (execs (step profileId) (initial screenId) evs).Quiescent ∧
    ¬∃ i, (execs (step profileId) (initial screenId) evs).AgreeOn i

instance (profileId : Int) (screenId : Bool → Int) (evs : List (Event Bool)) :
    Decidable (Disagree profileId screenId evs) :=
  inferInstanceAs (Decidable (_ ∧ _))

/-- Each is the client of the other in the end. And even one claim misleads the other node where its
screen id does not fit the message, and does not reach it where the profile id does not fit or where
the other node's id is -1 as a `uint32_t`. -/
theorem twoInputs_disagree :
    Disagree 4 (screens 1 2) twoInputs ∧
    ((execs (step 4) (initial (screens 1 2)) twoInputs).nodes false).IsClient 2 ∧
    ((execs (step 4) (initial (screens 1 2)) twoInputs).nodes true).IsClient 1 ∧
    Disagree 4 (screens (2 ^ 32 + 2) 2) (.localInput false CoreProcess.serverCommand :: oneInput) ∧
    Disagree (2 ^ 32) (screens 1 2) (.localInput false CoreProcess.serverCommand :: oneInput) ∧
    Disagree 4 (screens 1 (2 ^ 32 - 1))
      (.localInput false CoreProcess.serverCommand :: oneInput) := by
  decide +kernel

end Lan

end Synergy
