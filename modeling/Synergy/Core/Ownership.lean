import Mathlib.Data.List.Nodup
import Synergy.Core.CoreProcess

/-!
# Who releases the core process

`m_impl` is reset in the slots of `expectedExit` and `unexpectedExit`, in the exit handler of the
child, and where a start request throws. The last is meant for the object that the request itself
has just made, but it resets whatever is there: a running core, when the command of the request
cannot be made up, or when a handler throws that runs in the poll of the shutdown that the request
has begun. And the exit handler of a child may run in the poll of the shutdown of that child, which
goes on with the object afterwards.

Where neither happens, an object with a child is released by the exit handler of that child alone,
and there is one child at a time whose exit has not been handled.
-/

set_option autoImplicit false

namespace Synergy

open Lib
open ServerProxy (ProcessMode)

/-- An object with a child was released by the exit handler of that child, and not under its own
`shutdown`. -/
def Release.Proper (r : Release) : Prop :=
  r.launched = true → r.handler = some r.id ∧ r.busy = false

namespace CoreProcess

structure Owned (s : CoreProcess) : Prop where
  releases : ∀ r ∈ s.releases, r.Proper
  one : (s.children.filter fun child => child.status ≠ .handled).length ≤ 1

/-- There is an object with a child. -/
def Holds (s : CoreProcess) : Prop := ∃ impl, s.impl = some impl ∧ impl.launched = true

/-- No exception resets an object that has a child, and no child's exit is handled while its own
shutdown polls. -/
def Orderly (s : CoreProcess) : Event → Prop
  | .startServer _ _ (some .command) | .startClient _ _ (some .command) =>
    s.disabled = false → ¬s.Holds
  | .throws => ∀ id, s.calls.head? = some (.shutdown id true) → ¬s.Holds
  | .exitHandler id _ => ¬s.InShutdown id
  | _ => True

/-- An exit handler that polls is above no shutdown of its child and above no other exit handler. -/
def CallsOk : List CoreProcessCall → Prop
  | [] => True
  | .shutdown _ _ :: calls => CallsOk calls
  | .exit id :: calls =>
    (∀ guarded, .shutdown id guarded ∉ calls) ∧ (∀ id, .exit id ∉ calls) ∧ CallsOk calls

/-- What holds of every state that orderly events reach. -/
structure Supervised (s : CoreProcess) : Prop where
  releases : ∀ r ∈ s.releases, r.Proper
  distinct : (s.children.map Child.id).Nodup
  fresh : ∀ child ∈ s.children, child.id < s.nextId
  freshImpl : ∀ impl, s.impl = some impl → impl.id < s.nextId
  freshCalls : ∀ id, s.InShutdown id → id < s.nextId
  /-- A child whose exit has not been handled is that of `m_impl`. -/
  held : ∀ child ∈ s.children, child.status ≠ .handled →
    ∃ impl, s.impl = some impl ∧ impl.id = child.id ∧ impl.launched = true
  calls : CallsOk s.calls
  expecting : ∀ impl, s.impl = some impl → s.InShutdown impl.id → impl.expectingExit = true
  handling : ∀ id, .exit id ∈ s.calls → s.HasStatus id .handling

variable {s t : CoreProcess} {command : Command} {guarded : Bool} {fault : Option LaunchFault}
  {id : Nat} {status : ChildStatus} {calls : List CoreProcessCall} {impl : CoreProcessImpl}

/-! ## The states of the children -/

theorem mem_setStatus {child : Child} (h : child ∈ (s.setStatus id status).children) :
    child.id = id ∧ child.status = status ∨ child.id ≠ id ∧ child ∈ s.children := by
  obtain ⟨old, hold, rfl⟩ := List.mem_map.mp h
  by_cases hid : old.id = id
  · rw [if_pos hid]
    exact Or.inl ⟨hid, rfl⟩
  · rw [if_neg hid]
    exact Or.inr ⟨hid, hold⟩

theorem ids_setStatus :
    (s.setStatus id status).children.map Child.id = s.children.map Child.id := by
  unfold setStatus
  rw [List.map_map]
  refine List.map_congr_left fun child _ => ?_
  show (if child.id = id then { child with status := status } else child).id = child.id
  split <;> rfl

theorem HasStatus.setStatus_of_ne {id' : Nat} {status' : ChildStatus} (h : s.HasStatus id' status')
    (hne : id' ≠ id) : (s.setStatus id status).HasStatus id' status' := by
  obtain ⟨child, hmem, hid, hstatus⟩ := h
  refine ⟨child, List.mem_map.mpr ⟨child, hmem, if_neg ?_⟩, hid, hstatus⟩
  rwa [hid]

theorem HasStatus.setStatus_self {status' : ChildStatus} (h : s.HasStatus id status') :
    (s.setStatus id status).HasStatus id status := by
  obtain ⟨child, hmem, hid, _⟩ := h
  exact ⟨{ child with status := status }, List.mem_map.mpr ⟨child, hmem, if_pos hid⟩, hid, rfl⟩

theorem HasStatus.unique (h : (s.children.map Child.id).Nodup) {status' : ChildStatus}
    (hstatus : s.HasStatus id status) (hstatus' : s.HasStatus id status') : status = status' := by
  obtain ⟨child, hmem, hid, rfl⟩ := hstatus
  obtain ⟨child', hmem', hid', rfl⟩ := hstatus'
  rw [List.inj_on_of_nodup_map h hmem hmem' (hid.trans hid'.symm)]

theorem InShutdown.mono (h : (s.setCalls calls).InShutdown id)
    (hsub : ∀ call ∈ calls, call ∈ s.calls) : s.InShutdown id :=
  h.imp (hsub _) (hsub _)

theorem inShutdown_of_mem (h : .shutdown id guarded ∈ s.calls) : s.InShutdown id := by
  cases guarded with
  | true => exact Or.inl h
  | false => exact Or.inr h

namespace Supervised

theorem initial : Supervised {} where
  releases := fun _ h => absurd h (by simp)
  distinct := List.nodup_nil
  fresh := fun _ h => absurd h (by simp)
  freshImpl := fun _ h => absurd h (by simp)
  freshCalls := fun _ h => absurd h (by simp [InShutdown])
  held := fun _ h => absurd h (by simp)
  calls := trivial
  expecting := fun _ h => absurd h (by simp)
  handling := fun _ h => absurd h (by simp)

/-- Nothing else matters. -/
theorem congr (h : Supervised s) (himpl : t.impl = s.impl) (hcalls : t.calls = s.calls)
    (hnext : t.nextId = s.nextId) (hchildren : t.children = s.children)
    (hreleases : t.releases = s.releases) : Supervised t where
  releases := hreleases ▸ h.releases
  distinct := hchildren ▸ h.distinct
  fresh := by
    rw [hchildren, hnext]
    exact h.fresh
  freshImpl := by
    rw [himpl, hnext]
    exact h.freshImpl
  freshCalls := by
    unfold InShutdown
    rw [hcalls, hnext]
    exact h.freshCalls
  held := by
    rw [himpl, hchildren]
    exact h.held
  calls := hcalls ▸ h.calls
  expecting := by
    unfold InShutdown
    rw [himpl, hcalls]
    exact h.expecting
  handling := by
    unfold HasStatus
    rw [hcalls, hchildren]
    exact h.handling

/-- While an exit handler polls, `m_impl` is that of its child. -/
theorem held_of_handling (h : Supervised s) (hmem : .exit id ∈ s.calls) :
    ∃ impl, s.impl = some impl ∧ impl.id = id ∧ impl.launched = true := by
  obtain ⟨child, hchild, hid, hstatus⟩ := h.handling id hmem
  obtain ⟨impl, himpl, himplid, hlaunched⟩ := h.held child hchild (by simp [hstatus])
  exact ⟨impl, himpl, himplid.trans hid, hlaunched⟩

/-- A child whose exit handler is queued is the only one, and no exit handler polls. -/
theorem held_of_exited (h : Supervised s) (hexited : s.HasStatus id .exited) :
    (∃ impl, s.impl = some impl ∧ impl.id = id ∧ impl.launched = true) ∧
      ∀ id', .exit id' ∉ s.calls := by
  obtain ⟨child, hchild, hid, hstatus⟩ := hexited
  obtain ⟨impl, himpl, himplid, hlaunched⟩ := h.held child hchild (by simp [hstatus])
  refine ⟨⟨impl, himpl, himplid.trans hid, hlaunched⟩, fun id' hmem => ?_⟩
  obtain ⟨impl', himpl', himplid', _⟩ := h.held_of_handling hmem
  obtain rfl := Option.some.inj (himpl.symm.trans himpl')
  obtain rfl : id = id' := hid.symm.trans (himplid.symm.trans himplid')
  exact absurd (HasStatus.unique h.distinct (h.handling id hmem) ⟨child, hchild, hid, hstatus⟩)
    (by simp)

/-! ### One lemma for each operation -/

theorem expectExit (h : Supervised s) (himpl : s.impl = some impl) (guarded : Bool) :
    Supervised (s.expectExit impl guarded) where
  releases := h.releases
  distinct := h.distinct
  fresh := h.fresh
  freshImpl := by
    intro impl' himpl'
    obtain rfl := Option.some.inj himpl'
    exact h.freshImpl impl himpl
  freshCalls := by
    intro id hin
    have hmem : id = impl.id ∨ s.InShutdown id := by
      rcases hin with hin | hin
      · rcases List.mem_cons.mp hin with heq | hin
        · exact Or.inl (by simpa using congrArg (fun | .shutdown id _ => id | .exit id => id) heq)
        · exact Or.inr (Or.inl hin)
      · rcases List.mem_cons.mp hin with heq | hin
        · exact Or.inl (by simpa using congrArg (fun | .shutdown id _ => id | .exit id => id) heq)
        · exact Or.inr (Or.inr hin)
    rcases hmem with rfl | hin
    · exact h.freshImpl impl himpl
    · exact h.freshCalls id hin
  held := by
    intro child hchild hstatus
    obtain ⟨impl', himpl', hid, hlaunched⟩ := h.held child hchild hstatus
    obtain rfl := Option.some.inj (himpl.symm.trans himpl')
    exact ⟨_, rfl, hid, hlaunched⟩
  calls := h.calls
  expecting := by
    intro impl' himpl' _
    obtain rfl := Option.some.inj himpl'
    rfl
  handling := by
    intro id hmem
    rcases List.mem_cons.mp hmem with heq | hmem
    · exact absurd heq (by simp)
    · exact h.handling id hmem

theorem shutdown (h : Supervised s) (guarded : Bool) : Supervised (s.shutdown guarded) := by
  generalize hshutdown : s.shutdown guarded = t
  cases shutdown_cases hshutdown with
  | ignored hidle => exact h
  | stopping impl hheld hunexpecting => exact h.expectExit hheld guarded

/-- Without `m_impl` every exit has been handled. -/
theorem not_mem_of_empty (h : Supervised s) (hempty : s.impl = none) {child : Child}
    (hchild : child ∈ s.children) : child.status = .handled := by
  by_contra hne
  obtain ⟨impl, himpl, _⟩ := h.held child hchild hne
  exact absurd (hempty.symm.trans himpl) (by simp)

theorem no_exit_of_empty (h : Supervised s) (hempty : s.impl = none) : .exit id ∉ s.calls := by
  intro hmem
  obtain ⟨impl, himpl, _⟩ := h.held_of_handling hmem
  exact absurd (hempty.symm.trans himpl) (by simp)

theorem failLaunch (h : Supervised s) (hempty : s.impl = none) (command : Command) :
    Supervised (s.failLaunch command) where
  releases := h.releases
  distinct := h.distinct
  fresh := fun child hchild => Nat.lt_succ_of_lt (h.fresh child hchild)
  freshImpl := by
    intro impl himpl
    obtain rfl := Option.some.inj himpl
    exact Nat.lt_succ_self _
  freshCalls := fun id hin => Nat.lt_succ_of_lt (h.freshCalls id hin)
  held := fun child hchild hstatus => absurd (h.not_mem_of_empty hempty hchild) hstatus
  calls := h.calls
  expecting := by
    intro impl himpl hin
    obtain rfl := Option.some.inj himpl
    exact absurd (h.freshCalls s.nextId hin) (Nat.lt_irrefl _)
  handling := fun id hmem => absurd hmem (h.no_exit_of_empty hempty)

/-- Apart from the child, a launch that works is one that throws. -/
theorem launch (h : Supervised s) (hempty : s.impl = none) (command : Command) :
    Supervised (s.launch command) where
  releases := h.releases
  distinct := by
    show ((s.children ++ [(⟨s.nextId, command, .running⟩ : Child)]).map Child.id).Nodup
    rw [List.map_append]
    refine List.nodup_append.mpr ⟨h.distinct, List.nodup_singleton _, ?_⟩
    intro id hid id' hid'
    obtain ⟨child, hchild, rfl⟩ := List.mem_map.mp hid
    rw [List.map_singleton, List.mem_singleton] at hid'
    rw [hid']
    exact Nat.ne_of_lt (h.fresh child hchild)
  fresh := by
    intro child hchild
    rcases List.mem_append.mp hchild with hold | hnew
    · exact Nat.lt_succ_of_lt (h.fresh child hold)
    · rw [List.mem_singleton.mp hnew]
      exact Nat.lt_succ_self _
  freshImpl := by
    intro impl himpl
    obtain rfl := Option.some.inj himpl
    exact (h.failLaunch hempty command).freshImpl ⟨s.nextId, command, false, false⟩ rfl
  freshCalls := (h.failLaunch hempty command).freshCalls
  held := by
    intro child hchild hstatus
    rcases List.mem_append.mp hchild with hold | hnew
    · exact absurd (h.not_mem_of_empty hempty hold) hstatus
    · obtain rfl := List.mem_singleton.mp hnew
      exact ⟨⟨s.nextId, command, true, false⟩, rfl, rfl, rfl⟩
  calls := h.calls
  expecting := by
    intro impl himpl hin
    obtain rfl := Option.some.inj himpl
    exact (h.failLaunch hempty command).expecting ⟨s.nextId, command, false, false⟩ rfl hin
  handling := fun id hmem => absurd hmem (h.no_exit_of_empty hempty)

theorem start (h : Supervised s) (command : Command) (guarded : Bool) (fault : Option LaunchFault) :
    Supervised (s.start command guarded fault) := by
  have hcancelled : Supervised s.cancelRetry := h.congr rfl rfl rfl rfl rfl
  have hparked : Supervised (s.cancelRetry.park command) := h.congr rfl rfl rfl rfl rfl
  generalize hstart : s.start command guarded fault = t
  cases start_cases hstart with
  | disabled hdisabled => exact h
  | parked impl henabled hheld hexpecting => exact hparked
  | stopping impl henabled hheld hunexpecting => exact hparked.expectExit hheld guarded
  | launched henabled hempty hworks => exact hcancelled.launch hempty command
  | failed henabled hempty hthrows => exact hcancelled.failLaunch hempty command

/-- The status of a child changes whose exit has not been handled. -/
theorem setStatus (h : Supervised s) {old : ChildStatus} (hold : s.HasStatus id old)
    (hne : old ≠ .handled)
    (hhandling : ∀ id', .exit id' ∈ s.calls → (s.setStatus id status).HasStatus id' .handling) :
    Supervised (s.setStatus id status) where
  releases := h.releases
  distinct := by
    rw [ids_setStatus]
    exact h.distinct
  fresh := by
    intro child hchild
    rcases mem_setStatus hchild with ⟨hid, _⟩ | ⟨_, hkept⟩
    · obtain ⟨child', hmem, hid', _⟩ := hold
      rw [hid, ← hid']
      exact h.fresh child' hmem
    · exact h.fresh child hkept
  freshImpl := h.freshImpl
  freshCalls := h.freshCalls
  held := by
    intro child hchild hstatus
    rcases mem_setStatus hchild with ⟨hid, _⟩ | ⟨_, hkept⟩
    · obtain ⟨child', hmem, hid', rfl⟩ := hold
      obtain ⟨impl, himpl, himplid, hlaunched⟩ := h.held child' hmem hne
      exact ⟨impl, himpl, himplid.trans (hid'.trans hid.symm), hlaunched⟩
    · exact h.held child hkept hstatus
  calls := h.calls
  expecting := h.expecting
  handling := hhandling

/-- An object is released when every exit has been handled and no exit handler polls. -/
theorem release (h : Supervised s) (himpl : s.impl = some impl) {handler : Option Nat}
    (hproper : (⟨impl.id, impl.launched, handler, s.InShutdown impl.id⟩ : Release).Proper)
    (hhandled : ∀ child ∈ s.children, child.status = .handled)
    (hexit : ∀ id, .exit id ∉ s.calls) : Supervised (s.release handler) where
  releases := by
    rw [releases_release himpl]
    intro r hr
    rcases List.mem_append.mp hr with hold | hnew
    · exact h.releases r hold
    · rw [List.mem_singleton.mp hnew]
      exact hproper
  distinct := by
    rw [children_release]
    exact h.distinct
  fresh := by
    rw [children_release, nextId_release]
    exact h.fresh
  freshImpl := fun impl' himpl' => absurd ((impl_release handler).symm.trans himpl') (by simp)
  freshCalls := by
    unfold InShutdown
    rw [calls_release, nextId_release]
    exact h.freshCalls
  held := by
    rw [children_release]
    exact fun child hchild hstatus => absurd (hhandled child hchild) hstatus
  calls := by
    rw [calls_release]
    exact h.calls
  expecting := fun impl' himpl' => absurd ((impl_release handler).symm.trans himpl') (by simp)
  handling := by
    rw [calls_release]
    exact fun id hmem => absurd hmem (hexit id)

/-- An exception may release an object that has no child. -/
theorem releaseChildless (h : Supervised s) (hnone : ¬s.Holds) : Supervised (s.release none) := by
  cases himpl : s.impl with
  | none =>
    have hsame : s.release none = s := by simp [CoreProcess.release, himpl]
    rw [hsame]
    exact h
  | some impl =>
    refine h.release himpl (fun hlaunched => ?_) (fun child hchild => ?_) fun id hmem => ?_
    · exact absurd ⟨impl, himpl, hlaunched⟩ hnone
    · by_contra hne
      obtain ⟨impl', himpl', _, hlaunched'⟩ := h.held child hchild hne
      exact hnone ⟨impl', himpl', hlaunched'⟩
    · obtain ⟨impl', himpl', _, hlaunched'⟩ := h.held_of_handling hmem
      exact hnone ⟨impl', himpl', hlaunched'⟩

/-- The exit handler of a child releases its object. -/
theorem releaseExited (h : Supervised s) (himpl : s.impl = some impl) {old : ChildStatus}
    (hold : s.HasStatus impl.id old) (hne : old ≠ .handled) (hshutdown : ¬s.InShutdown impl.id)
    (hexit : ∀ id, .exit id ∉ s.calls) :
    Supervised ((s.setStatus impl.id .handled).release (some impl.id)) := by
  have hset : Supervised (s.setStatus impl.id .handled) :=
    h.setStatus hold hne fun id hmem => absurd hmem (hexit id)
  refine hset.release himpl (fun _ => ⟨rfl, decide_eq_false hshutdown⟩) (fun child hchild => ?_)
    hexit
  rcases mem_setStatus hchild with ⟨_, hhandled⟩ | ⟨hother, hkept⟩
  · exact hhandled
  · by_contra hstatus
    obtain ⟨impl', himpl', hid, _⟩ := h.held child hkept hstatus
    obtain rfl := Option.some.inj (himpl.symm.trans himpl')
    exact absurd hid.symm hother

theorem exits (h : Supervised s) (hruns : s.HasStatus id .running) :
    Supervised (s.setStatus id .exited) := by
  refine h.setStatus hruns (by simp) fun id' hmem => ?_
  refine (h.handling id' hmem).setStatus_of_ne fun heq => ?_
  exact absurd (HasStatus.unique h.distinct (h.handling id' hmem) (heq ▸ hruns)) (by simp)

/-- The exit handler of a child that was not told to exit begins to poll. -/
theorem beginExit (h : Supervised s) (hexited : s.HasStatus id .exited) (himpl : s.impl = some impl)
    (hid : impl.id = id) (hunexpecting : impl.expectingExit = false) :
    Supervised { s.setStatus id .handling with calls := .exit id :: s.calls } := by
  have hnone : ∀ id', .exit id' ∉ s.calls := (h.held_of_exited hexited).2
  have hset : Supervised (s.setStatus id .handling) :=
    h.setStatus hexited (by simp) fun id' hmem => absurd hmem (hnone id')
  have hshutdown : ∀ id', ({ s.setStatus id .handling with calls := .exit id :: s.calls } :
      CoreProcess).InShutdown id' → s.InShutdown id' := fun id' hin =>
    hin.imp (List.mem_of_ne_of_mem (by simp)) (List.mem_of_ne_of_mem (by simp))
  exact
    { releases := hset.releases
      distinct := hset.distinct
      fresh := hset.fresh
      freshImpl := hset.freshImpl
      freshCalls := fun id' hin => h.freshCalls id' (hshutdown id' hin)
      held := hset.held
      calls := by
        refine ⟨fun guarded hmem => ?_, hnone, h.calls⟩
        have hexpecting := h.expecting impl himpl (hid ▸ inShutdown_of_mem hmem)
        exact absurd (hunexpecting.symm.trans hexpecting) (by simp)
      expecting := fun impl' himpl' hin => h.expecting impl' himpl' (hshutdown impl'.id hin)
      handling := by
        intro id' hmem
        rcases List.mem_cons.mp hmem with heq | hmem
        · obtain rfl : id' = id := by simpa using heq
          exact hexited.setStatus_self
        · exact absurd hmem (hnone id') }

/-- The innermost call ends. -/
theorem pop (h : Supervised s) {call : CoreProcessCall} (hwaits : s.calls = call :: calls) :
    Supervised (s.setCalls calls) := by
  have hsub : ∀ call' ∈ calls, call' ∈ s.calls := by
    intro call' hmem
    rw [hwaits]
    exact List.mem_cons_of_mem call hmem
  exact
    { releases := h.releases
      distinct := h.distinct
      fresh := h.fresh
      freshImpl := h.freshImpl
      freshCalls := fun id hin => h.freshCalls id (hin.mono hsub)
      held := h.held
      calls := by
        have hcalls := h.calls
        rw [hwaits] at hcalls
        cases call with
        | shutdown id guarded => exact hcalls
        | exit id => exact hcalls.2.2
      expecting := fun impl himpl hin => h.expecting impl himpl (hin.mono hsub)
      handling := fun id hmem => h.handling id (hsub _ hmem) }

theorem expectedExit (h : Supervised (s.release (some id))) (fault : Option LaunchFault) :
    Supervised (s.expectedExit id fault) := by
  unfold CoreProcess.expectedExit
  split
  · exact h
  · rename_i command _
    have hnext : Supervised { s.release (some id) with nextCommand := none } :=
      h.congr rfl rfl rfl rfl rfl
    exact hnext.start command false fault

theorem unexpectedExit (h : Supervised (s.release (some id))) :
    Supervised (s.unexpectedExit id) := by
  unfold CoreProcess.unexpectedExit
  split
  · exact h
  · exact h.congr rfl rfl rfl rfl rfl

theorem onExit (h : Supervised s) (hexited : s.HasStatus id .exited) (hshutdown : ¬s.InShutdown id)
    (fault : Option LaunchFault) : Supervised (s.onExit id fault) := by
  obtain ⟨⟨impl, himpl, hid, _⟩, hnone⟩ := h.held_of_exited hexited
  generalize hexit : s.onExit id fault = t
  cases onExit_cases hexit with
  | stray hreleased => exact absurd hid (hreleased impl himpl)
  | expected impl hheld hsame hexpecting =>
    subst hsame
    exact (h.releaseExited hheld hexited (by simp) hshutdown hnone).expectedExit fault
  | polling impl hheld hsame hunexpecting => exact h.beginExit hexited hheld hsame hunexpecting

theorem afterExit (h : Supervised s) (hwaits : s.calls = .exit id :: calls) :
    Supervised ((s.setCalls calls).afterExit id) := by
  have hcalls := h.calls
  rw [hwaits] at hcalls
  obtain ⟨hshutdown, hnone, _⟩ := hcalls
  have hmem : .exit id ∈ s.calls := hwaits ▸ List.mem_cons_self
  have hin : ¬(s.setCalls calls).InShutdown id := by
    rintro (hin | hin)
    · exact hshutdown true hin
    · exact hshutdown false hin
  have hhandling : (s.setCalls calls).HasStatus id .handling := h.handling id hmem
  generalize hexit : (s.setCalls calls).afterExit id = t
  cases afterExit_cases hexit with
  | stray hreleased =>
    obtain ⟨impl, himpl, hid, _⟩ := h.held_of_handling hmem
    exact absurd hid (hreleased impl himpl)
  | unexpected impl hheld hsame =>
    subst hsame
    exact ((h.pop hwaits).releaseExited hheld hhandling (by simp) hin hnone).unexpectedExit

theorem terminate (h : Supervised s) (id : Nat) : Supervised (s.terminate id) := by
  have hmisuse : ∀ m, Supervised (s.misuse m) := fun m => h.congr rfl rfl rfl rfl rfl
  generalize hterminate : s.terminate id = t
  cases terminate_cases hterminate with
  | terminated => exact h
  | misused m => exact hmisuse m

theorem tryStart (h : Supervised s) (command : Command) (fault : Option LaunchFault) :
    Supervised (s.tryStart command fault) := by
  have hrequested : Supervised (s.setRequested command) := h.congr rfl rfl rfl rfl rfl
  unfold CoreProcess.tryStart
  by_cases hthrows : s.Throws fault
  · rw [if_pos hthrows]
    refine (hrequested.start command true fault).releaseChildless ?_
    have hthrows' : (s.setRequested command).Throws fault := hthrows
    rw [start_of_throws hthrows']
    rintro ⟨impl, himpl, hlaunched⟩
    obtain rfl := Option.some.inj himpl
    exact absurd hlaunched (by simp)
  · rw [if_neg hthrows]
    exact hrequested.start command true fault

theorem startIn (h : Supervised s) {fault : Option StartFault}
    (hcommand : fault = some .command → s.disabled = false → ¬s.Holds) (mode : ProcessMode)
    (serverId : Int) (command : Command) : Supervised (s.startIn mode serverId command fault) := by
  have hmode : Supervised (s.setMode mode serverId) := h.congr rfl rfl rfl rfl rfl
  generalize hstart : s.startIn mode serverId command fault = t
  cases startIn_cases hstart with
  | disabled hdisabled => exact h
  | commandless henabled hthrows => exact hmode.releaseChildless (hcommand hthrows henabled)
  | tried launchFault henabled hfaults => exact hmode.tryStart command launchFault

theorem step {s' : CoreProcess} {ev : Event} (h : Supervised s) (hok : s.Orderly ev)
    (hstep : CoreProcess.step s ev = some s') : Supervised s' := by
  cases step_cases hstep with
  | startServer screenId command fault =>
    refine h.startIn (fun hfault hdisabled => ?_) _ _ command
    subst hfault
    exact hok hdisabled
  | startClient serverId command fault =>
    refine h.startIn (fun hfault hdisabled => ?_) _ _ command
    subst hfault
    exact hok hdisabled
  | shutdown => exact h.shutdown false
  | setDisabled disabled => exact h.congr rfl rfl rfl rfl rfl
  | exits id hruns => exact h.exits hruns
  | exitHandler id fault hqueued => exact h.onExit hqueued hok fault
  | expires command harmed => exact h.congr rfl rfl rfl rfl rfl
  | retry command expired fault hqueued =>
    have hexpired : Supervised (s.setExpired expired) := h.congr rfl rfl rfl rfl rfl
    exact hexpired.start command false fault
  | shutdownReturns id guarded calls hwaits => exact (h.pop hwaits).terminate id
  | exitReturns id calls hwaits => exact h.afterExit hwaits
  | startThrows id calls hwaits =>
    refine (h.pop hwaits).releaseChildless ?_
    exact hok id (by rw [hwaits]; rfl)
  | callThrows call calls hwaits hunguarded => exact h.pop hwaits

theorem owned (h : Supervised s) : Owned s := by
  refine ⟨h.releases, ?_⟩
  have hids : ((s.children.filter fun child => child.status ≠ .handled).map Child.id).Nodup :=
    List.Nodup.sublist (List.Sublist.map _ List.filter_sublist) h.distinct
  match hfilter : s.children.filter fun child => child.status ≠ .handled with
  | [] => exact Nat.le_trans (Nat.le_of_eq (congrArg List.length hfilter)) (Nat.zero_le 1)
  | [_] => exact Nat.le_of_eq (congrArg List.length hfilter)
  | a :: b :: rest =>
    have hmem : ∀ child ∈ a :: b :: rest, ∃ impl, s.impl = some impl ∧ impl.id = child.id := by
      intro child hchild
      rw [← hfilter] at hchild
      obtain ⟨hold, hstatus⟩ := List.mem_filter.mp hchild
      obtain ⟨impl, himpl, hid, _⟩ := h.held child hold (of_decide_eq_true hstatus)
      exact ⟨impl, himpl, hid⟩
    obtain ⟨impl, himpl, hid⟩ := hmem a (by simp)
    obtain ⟨impl', himpl', hid'⟩ := hmem b (by simp)
    obtain rfl := Option.some.inj (himpl.symm.trans himpl')
    rw [hfilter] at hids
    simp [← hid, ← hid'] at hids

end Supervised

/-! ## Orderly events are the only ones that keep it -/

theorem not_owned_of_release (hheld : s.Holds) (handler : Option Nat)
    (himproper : ∀ impl, s.impl = some impl → handler = some impl.id → s.InShutdown impl.id)
    (hreleases : ∃ later, t.releases = (s.release handler).releases ++ later) : ¬t.Owned := by
  obtain ⟨impl, himpl, hlaunched⟩ := hheld
  obtain ⟨later, hlater⟩ := hreleases
  rw [releases_release himpl] at hlater
  intro howned
  have hproper := howned.releases ⟨impl.id, impl.launched, handler, s.InShutdown impl.id⟩
    (by rw [hlater]; simp)
  obtain ⟨hhandler, hbusy⟩ := hproper hlaunched
  exact of_decide_eq_false hbusy (himproper impl himpl hhandler)

theorem releases_start : (s.start command guarded fault).releases = s.releases := by
  generalize hstart : s.start command guarded fault = t
  cases start_cases hstart <;> rfl

theorem releases_expectedExit :
    (s.expectedExit id fault).releases = (s.release (some id)).releases := by
  unfold expectedExit
  split
  · rfl
  · exact releases_start

/-- An event that is not orderly breaks it at once. -/
theorem orderly_of_owned {s' : CoreProcess} {ev : Event} (h : Supervised s)
    (hstep : step s ev = some s') (howned : s'.Owned) : s.Orderly ev := by
  -- a request whose command cannot be made up releases what is there
  have hrequest : ∀ mode serverId command, s.disabled = false →
      (s.startIn mode serverId command (some .command)).Owned → ¬s.Holds := by
    intro mode serverId command hdisabled howned hheld
    have hrelease : s.startIn mode serverId command (some .command) =
        (s.setMode mode serverId).release none := by
      simp [startIn, hdisabled]
    rw [hrelease] at howned
    refine not_owned_of_release (s := s.setMode mode serverId) hheld none ?_ ⟨[], ?_⟩ howned
    · exact fun _ _ hnone => absurd hnone (by simp)
    · exact (List.append_nil _).symm
  cases step_cases hstep with
  | startServer screenId command fault =>
    match fault with
    | none => trivial
    | some (.launch _) => trivial
    | some .command => exact fun hdisabled => hrequest _ _ _ hdisabled howned
  | startClient serverId command fault =>
    match fault with
    | none => trivial
    | some (.launch _) => trivial
    | some .command => exact fun hdisabled => hrequest _ _ _ hdisabled howned
  | shutdown => trivial
  | setDisabled disabled => trivial
  | exits id hruns => trivial
  | exitHandler id fault hqueued =>
    intro hshutdown
    obtain ⟨⟨impl, himpl, rfl, hlaunched⟩, _⟩ := h.held_of_exited hqueued
    -- the exit is expected, as `shutdown` has not returned
    have hexit : s.onExit impl.id fault =
        (s.setStatus impl.id .handled).expectedExit impl.id fault := by
      simp [onExit, himpl, h.expecting impl himpl hshutdown]
    rw [hexit] at howned
    refine not_owned_of_release (s := s.setStatus impl.id .handled) ⟨impl, himpl, hlaunched⟩
      (some impl.id) ?_ ⟨[], ?_⟩ howned
    · intro impl' himpl' _
      obtain rfl := Option.some.inj (himpl.symm.trans himpl')
      exact hshutdown
    · rw [releases_expectedExit, List.append_nil]
  | expires command harmed => trivial
  | retry command expired fault hqueued => trivial
  | shutdownReturns id guarded calls hwaits => trivial
  | exitReturns id calls hwaits => trivial
  | startThrows id calls hwaits =>
    intro _ _ hheld
    refine not_owned_of_release (s := s.setCalls calls) hheld none ?_ ⟨[], ?_⟩ howned
    · exact fun _ _ hnone => absurd hnone (by simp)
    · exact (List.append_nil _).symm
  | callThrows call calls hwaits hunguarded =>
    intro id hhead
    rw [hwaits] at hhead
    exact absurd (Option.some.inj hhead) (hunguarded id)

/-- In a run of orderly events, every object with a child is released by the exit handler of that
child, not under its own shutdown, and at most one child has an exit that is not handled. -/
theorem owned_of_orderly (run : Run step Orderly {} s) : s.Owned :=
  (run.invariant Supervised.initial fun _ _ _ _ h hok hstep => h.step hok hstep).owned

/-- A client that is restarted as a server. -/
theorem restart_owned :
    (execs step {} [.startClient 7 clientCommand none, .startServer 3 serverCommand none]).calls =
      [.shutdown 0 true] ∧
    (execs step {} [.startClient 7 clientCommand none, .startServer 3 serverCommand none,
      .returns, .exits 0, .exitHandler 0 none]).Owned := by
  refine ⟨by decide +kernel, owned_of_orderly ?_⟩
  have run : Run step Orderly {} ({} : CoreProcess) := .nil
  refine run.execs ⟨trivial, trivial, trivial, trivial, ?_, trivial⟩
  unfold Orderly
  decide +kernel

/-- A core runs, and then a start request cannot make up its command, as when the local screen has
left the profile: the core is released, and the next request launches another one beside it. Or the
core crashes while it is being shut down. -/
theorem disorderly_not_owned :
    (execs step {} [.startClient 7 clientCommand none, .startServer 3 serverCommand (some .command),
      .startClient 7 clientCommand none]).children =
      [⟨0, clientCommand, .running⟩, ⟨1, clientCommand, .running⟩] ∧
    ¬(execs step {} [.startClient 7 clientCommand none,
      .startServer 3 serverCommand (some .command), .startClient 7 clientCommand none]).Owned ∧
    (execs step {} [.startClient 7 clientCommand none, .shutdown, .exits 0, .exitHandler 0 none,
      .returns]).misuses = [.released 0] ∧
    ¬(execs step {} [.startClient 7 clientCommand none, .shutdown, .exits 0, .exitHandler 0 none,
      .returns]).Owned := by
  refine ⟨by decide +kernel, fun h => ?_, by decide +kernel, fun h => ?_⟩
  · exact absurd h.one (by decide +kernel)
  · have hproper := h.releases ⟨0, true, some 0, true⟩ (by decide +kernel)
    exact absurd (hproper rfl).2 (by simp)

end CoreProcess

end Synergy
