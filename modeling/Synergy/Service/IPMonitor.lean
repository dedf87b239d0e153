import Mathlib.Data.Finset.Basic
import Synergy.Lib.Run

/-!
# The IP monitor

`IPMonitor::start`, `IPMonitor::stop` and the coroutine that polls. A coroutine runs until it waits
for the timer, and goes on in a later step, so that calls come in between: before its first step,
while it waits, and while the end of the wait is queued. `cancel` reaches a wait only. It does not
take back an expiry that is queued already.

`m_running` is set by `start` and cleared by the coroutine once it sees that its wait has been
aborted. So it says that there is a coroutine, not that the last call was `start`.
-/

set_option autoImplicit false

namespace Synergy

open Lib

/-- Where a coroutine is between two of its steps. -/
inductive IPMonitor.Coroutine where
  /-- Spawned, before its first step. -/
  | spawned
  /-- It waits for the timer. -/
  | waiting
  /-- The wait is over, and its end is queued. -/
  | expired
  /-- The wait has been aborted, and that is queued. -/
  | aborted
  deriving DecidableEq

inductive IPMonitor.Call where
  | start
  | stop
  deriving DecidableEq

open IPMonitor (Coroutine Call)

structure IPMonitor (α : Type) where
  running : Bool := false
  coroutines : List Coroutine := []
  knownIPAddresses : Finset α := ∅
  /-- The signals, in order. -/
  ipSetChanged : List (Finset α) := []
  lastCall : Option Call := none

/-- What may happen. A coroutine that goes on finds these addresses. -/
inductive IPMonitor.Event (α : Type) where
  | start
  | stop
  | expire
  | resume (i : ℕ) (adapterIPAddresses : Finset α)

namespace IPMonitor

variable {α : Type}

/-- `m_pollTimer.cancel ()`, which `expires_from_now` does too. -/
def cancel (cs : List Coroutine) : List Coroutine :=
  cs.map fun c => if c = .waiting then .aborted else c

def start (m : IPMonitor α) : IPMonitor α :=
  let m := { m with lastCall := some .start }
  if m.running then m
  else { m with running := true, coroutines := m.coroutines ++ [.spawned] }

def stop (m : IPMonitor α) : IPMonitor α :=
  let m := { m with lastCall := some .stop }
  if m.running then { m with coroutines := cancel m.coroutines } else m

/-- All waits are for the same timer. -/
def expire (m : IPMonitor α) : Option (IPMonitor α) :=
  if .waiting ∈ m.coroutines then
    some { m with coroutines := m.coroutines.map fun c => if c = .waiting then .expired else c }
  else none

/-- From the head of the loop to the next wait. -/
def loop (m : IPMonitor α) (i : ℕ) : IPMonitor α :=
  if m.running then { m with coroutines := (cancel m.coroutines).set i .waiting }
  else { m with coroutines := m.coroutines.eraseIdx i }

def poll [DecidableEq α] (m : IPMonitor α) (ipAddresses : Finset α) : IPMonitor α :=
  if ipAddresses ≠ m.knownIPAddresses then
    { m with
      knownIPAddresses := ipAddresses
      ipSetChanged := m.ipSetChanged ++ [ipAddresses] }
  else m

/-- A wait of the timer ends in no other error than `operation_aborted`. -/
def resume [DecidableEq α] (m : IPMonitor α) (i : ℕ) (adapterIPAddresses : Finset α) :
    Option (IPMonitor α) :=
  match m.coroutines[i]? with
  | some .spawned => some (m.loop i)
  | some .expired => some ((m.poll adapterIPAddresses).loop i)
  | some .aborted => some { m with running := false, coroutines := m.coroutines.eraseIdx i }
  | some .waiting => none
  | none => none

def step [DecidableEq α] (m : IPMonitor α) (ev : Event α) : Option (IPMonitor α) :=
  match ev with
  | .start => some m.start
  | .stop => some m.stop
  | .expire => m.expire
  | .resume i adapterIPAddresses => m.resume i adapterIPAddresses

/-- No step is pending but the wait for the timer. -/
def Quiet (m : IPMonitor α) : Prop := ∀ c ∈ m.coroutines, c = .waiting

/-- One coroutine polls if the last call was `start`, and none otherwise. -/
def LastCallWins (m : IPMonitor α) : Prop :=
  m.coroutines.length = if m.lastCall = some .start then 1 else 0

/-- `stop` comes while the coroutine waits, and `start` does not come before an aborted wait has
been seen. Where nothing runs, neither matters. -/
def Meets (m : IPMonitor α) (ev : Event α) : Prop :=
  match ev with
  | .start => m.running = true → .aborted ∉ m.coroutines
  | .stop => m.running = true → .spawned ∉ m.coroutines ∧ .expired ∉ m.coroutines
  | _ => True

instance (m : IPMonitor α) (ev : Event α) : Decidable (m.Meets ev) := by
  unfold Meets
  split <;> infer_instance

/-! ## There is one coroutine, or none -/

/-- All there is of coroutines, and the flag that says so. -/
structure Phase (m : IPMonitor α) (phase : Option Coroutine) : Prop where
  running : m.running = phase.isSome
  coroutines : m.coroutines = phase.toList

variable {m m' : IPMonitor α} {phase : Option Coroutine}

theorem poll_running [DecidableEq α] (m : IPMonitor α) (ipAddresses : Finset α) :
    (m.poll ipAddresses).running = m.running ∧
      (m.poll ipAddresses).coroutines = m.coroutines ∧
      (m.poll ipAddresses).lastCall = m.lastCall := by
  unfold poll
  split <;> exact ⟨rfl, rfl, rfl⟩

theorem lastCall_start (m : IPMonitor α) : m.start.lastCall = some .start := by
  unfold start
  dsimp only
  split <;> rfl

theorem lastCall_stop (m : IPMonitor α) : m.stop.lastCall = some .stop := by
  unfold stop
  dsimp only
  split <;> rfl

theorem Phase.start (h : m.Phase phase) : m.start.Phase (some (phase.getD .spawned)) := by
  obtain ⟨hrunning, hcs⟩ := h
  cases phase with
  | none =>
    rw [IPMonitor.start, if_neg (by simp [hrunning])]
    exact ⟨rfl, by simp [hcs]⟩
  | some c =>
    rw [IPMonitor.start, if_pos (by simp [hrunning])]
    exact ⟨hrunning, hcs⟩

theorem Phase.stop (h : m.Phase phase) :
    m.stop.Phase (phase.map fun c => if c = .waiting then .aborted else c) := by
  obtain ⟨hrunning, hcs⟩ := h
  cases phase with
  | none =>
    rw [IPMonitor.stop, if_neg (by simp [hrunning])]
    exact ⟨hrunning, hcs⟩
  | some c =>
    rw [IPMonitor.stop, if_pos (by simp [hrunning])]
    exact ⟨hrunning, by simp [hcs, cancel]⟩

theorem Phase.expire (h : m.Phase phase) (hstep : m.expire = some m') :
    phase = some .waiting ∧ m'.Phase (some .expired) ∧ m'.lastCall = m.lastCall := by
  obtain ⟨hrunning, hcs⟩ := h
  simp only [IPMonitor.expire, Option.ite_none_right_eq_some, Option.some.injEq] at hstep
  obtain ⟨hwaits, rfl⟩ := hstep
  rw [hcs, Option.mem_toList] at hwaits
  obtain rfl := hwaits
  exact ⟨rfl, ⟨hrunning, by simp [hcs]⟩, rfl⟩

/-- The only coroutine comes to its next wait. -/
theorem Phase.loop {c : Coroutine} (h : m.Phase (some c)) :
    (m.loop 0).Phase (some .waiting) ∧ (m.loop 0).lastCall = m.lastCall := by
  obtain ⟨hrunning, hcs⟩ := h
  rw [IPMonitor.loop, if_pos (by simp [hrunning])]
  exact ⟨⟨hrunning, by simp [hcs, cancel]⟩, rfl⟩

/-- The coroutine goes on to its next wait, or has seen the abort and is gone. -/
theorem Phase.resume [DecidableEq α] {i : ℕ} {adapterIPAddresses : Finset α} (h : m.Phase phase)
    (hstep : m.resume i adapterIPAddresses = some m') : m'.lastCall = m.lastCall ∧
      (phase = some .aborted ∧ m'.Phase none ∨
        (phase = some .spawned ∨ phase = some .expired) ∧ m'.Phase (some .waiting)) := by
  cases phase with
  | none => simp [IPMonitor.resume, h.coroutines] at hstep
  | some c =>
    have hget : m.coroutines[i]? = if i = 0 then some c else none := by
      rw [h.coroutines]
      cases i <;> rfl
    by_cases hi : i = 0
    · subst hi
      rw [if_pos rfl] at hget
      cases c with
      | spawned =>
        simp only [IPMonitor.resume, hget, Option.some.injEq] at hstep
        subst hstep
        exact ⟨h.loop.2, Or.inr ⟨Or.inl rfl, h.loop.1⟩⟩
      | expired =>
        simp only [IPMonitor.resume, hget, Option.some.injEq] at hstep
        subst hstep
        obtain ⟨hrunning, hcs, hlast⟩ := m.poll_running adapterIPAddresses
        have hpolled : (m.poll adapterIPAddresses).Phase (some .expired) :=
          ⟨hrunning.trans h.running, hcs.trans h.coroutines⟩
        exact ⟨hpolled.loop.2.trans hlast, Or.inr ⟨Or.inr rfl, hpolled.loop.1⟩⟩
      | aborted =>
        simp only [IPMonitor.resume, hget, Option.some.injEq] at hstep
        subst hstep
        exact ⟨rfl, Or.inl ⟨rfl, rfl, by simp [h.coroutines]⟩⟩
      | waiting => simp [IPMonitor.resume, hget] at hstep
    · rw [if_neg hi] at hget
      simp [IPMonitor.resume, hget] at hstep

/-- In any run there is at most one coroutine, and `m_running` says whether there is one. -/
theorem run_phase [DecidableEq α] {ok : IPMonitor α → Event α → Prop} (h : Run step ok {} m) :
    ∃ phase, m.Phase phase := by
  refine h.invariant (I := fun m => ∃ phase, m.Phase phase) ⟨none, rfl, rfl⟩ ?_
  rintro m m' ev - ⟨phase, hphase⟩ - hstep
  cases ev with
  | start =>
    cases hstep
    exact ⟨_, hphase.start⟩
  | stop =>
    cases hstep
    exact ⟨_, hphase.stop⟩
  | expire => exact ⟨_, (hphase.expire hstep).2.1⟩
  | resume i adapterIPAddresses =>
    rcases (hphase.resume hstep).2 with ⟨-, hnone⟩ | ⟨-, hwaiting⟩
    · exact ⟨_, hnone⟩
    · exact ⟨_, hwaiting⟩

/-! ## The last call -/

/-- A coroutine that has not been aborted, exactly if the last call was `start`. -/
def Heeds (m : IPMonitor α) (phase : Option Coroutine) : Prop :=
  m.lastCall = some .start ↔ ∃ c, phase = some c ∧ c ≠ .aborted

theorem lastCallWins_of_heeds (h : m.Phase phase) (hheeds : m.Heeds phase) (hquiet : m.Quiet) :
    m.LastCallWins := by
  unfold LastCallWins
  cases phase with
  | none =>
    rw [if_neg fun hlast => ?_, h.coroutines]
    · rfl
    · obtain ⟨c, hc, -⟩ := hheeds.mp hlast
      cases hc
  | some c =>
    have hwaiting : c = .waiting := hquiet c (by simp [h.coroutines])
    rw [if_pos (hheeds.mpr ⟨c, rfl, by simp [hwaiting]⟩), h.coroutines]
    rfl

theorem step_heeds [DecidableEq α] {ev : Event α} (h : m.Phase phase) (hheeds : m.Heeds phase)
    (hmeets : m.Meets ev) (hstep : m.step ev = some m') :
    ∃ phase', m'.Phase phase' ∧ m'.Heeds phase' := by
  cases ev with
  | start =>
    cases hstep
    refine ⟨_, h.start, fun _ => ⟨_, rfl, ?_⟩, fun _ => lastCall_start m⟩
    cases phase with
    | none => simp
    | some c =>
      rintro rfl
      exact hmeets h.running (by simp [h.coroutines])
  | stop =>
    cases hstep
    refine ⟨_, h.stop, fun hlast => ?_, ?_⟩
    · rw [lastCall_stop] at hlast
      cases hlast
    · rintro ⟨c', hc', hne⟩
      obtain ⟨c, rfl, rfl⟩ := Option.map_eq_some_iff.mp hc'
      obtain ⟨hspawned, hexpired⟩ := hmeets h.running
      rw [h.coroutines] at hspawned hexpired
      cases c <;> simp at hspawned hexpired hne
  | expire =>
    obtain ⟨rfl, hphase, hlast⟩ := h.expire hstep
    refine ⟨_, hphase, ?_⟩
    rw [Heeds, hlast]
    exact hheeds.trans (by simp)
  | resume i adapterIPAddresses =>
    obtain ⟨hlast, ⟨rfl, hphase⟩ | ⟨hgoes, hphase⟩⟩ := h.resume hstep
    · refine ⟨_, hphase, ?_⟩
      rw [Heeds, hlast]
      exact hheeds.trans (by simp)
    · refine ⟨_, hphase, ?_⟩
      rw [Heeds, hlast]
      refine hheeds.trans ?_
      rcases hgoes with rfl | rfl <;> simp

/-- **The last call wins** in every run in which it comes at a time when the coroutine heeds it. -/
theorem run_lastCallWins [DecidableEq α] (h : Run step Meets {} m) (hquiet : m.Quiet) :
    m.LastCallWins := by
  have hinv : ∃ phase, m.Phase phase ∧ m.Heeds phase := by
    refine h.invariant (I := fun m => ∃ phase, m.Phase phase ∧ m.Heeds phase) ?_ ?_
    · exact ⟨none, ⟨rfl, rfl⟩, by simp [Heeds]⟩
    · rintro m m' ev - ⟨phase, hphase, hheeds⟩ hmeets hstep
      exact step_heeds hphase hheeds hmeets hstep
  obtain ⟨phase, hphase, hheeds⟩ := hinv
  exact lastCallWins_of_heeds hphase hheeds hquiet

/-- Started, stopped while it waits, and started again. -/
def restartEvents : List (Event ℕ) :=
  [.start, .resume 0 ∅, .expire, .resume 0 {1}, .stop, .resume 0 ∅, .start, .resume 0 ∅]

theorem run_lastCallWins_restart :
    (execs step {} restartEvents).lastCall = some .start ∧
      (execs step {} restartEvents).LastCallWins :=
  ⟨by decide, run_lastCallWins
    (Run.nil.execs (by decide : AllOk step Meets {} restartEvents)) (by unfold Quiet; decide)⟩

/-- Stopped before its first step, which does not look at anything but `m_running`. -/
def earlyStop : List (Event ℕ) := [.start, .stop, .resume 0 ∅]

/-- Started again before it has seen that it has been stopped. -/
def earlyStart : List (Event ℕ) := [.start, .resume 0 ∅, .stop, .start, .resume 0 ∅]

theorem lastCall_loses :
    (Run step (fun _ _ => True) {} (execs step {} earlyStop) ∧ (execs step {} earlyStop).Quiet ∧
      ¬(execs step {} earlyStop).LastCallWins) ∧
    Run step (fun _ _ => True) {} (execs step {} earlyStart) ∧ (execs step {} earlyStart).Quiet ∧
      ¬(execs step {} earlyStart).LastCallWins := by
  have hrun : ∀ evs : List (Event ℕ), Run step (fun _ _ => True) {} (execs step {} evs) :=
    fun evs => Run.nil.execs (allOk_of_forall (fun _ _ => trivial) _ _)
  unfold Quiet LastCallWins
  exact ⟨⟨hrun _, by decide, by decide⟩, hrun _, by decide, by decide⟩

end IPMonitor

end Synergy
