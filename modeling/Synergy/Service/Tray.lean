import Mathlib.Data.Fintype.Basic
import Synergy.Lib.Run

/-!
# The tray processes

`TrayService`, and any number of tray processes that say hello, ping, and say goodbye to it. The
answer to a hello tells a tray to exit if there is one already, and a tray that is not heard of for
nine seconds is taken to be gone.

The calls of a tray, and the answers to its hello and its goodbye, are on their way for a while;
what one tray says arrives in order. A tray may quit or crash meanwhile, and then what it has said
may still arrive, or be lost with the connection. `shutdown` cancels the timer of the ping loop and
says goodbye; but where the timer has expired by then, the loop pings behind the goodbye, and goes
on. A service that hears such a ping waits for a tray that it does not take to be there.
-/

set_option autoImplicit false

namespace Synergy

open Lib

/-- An `async_wait` of `m_pingTimer` whose handler has not run. -/
inductive TrayService.Wait where
  | waiting
  /-- The handler is queued. -/
  | expired
  /-- The handler is queued with `operation_aborted`. -/
  | aborted
  deriving DecidableEq

open TrayService (Wait)

structure TrayService where
  trayRunning : Bool := false
  waits : List Wait := []

namespace TrayService

/-- `m_pingTimer.cancel ()`, which `expires_from_now` does too. -/
def cancel (ws : List Wait) : List Wait := ws.map fun w => if w = .waiting then .aborted else w

def ping (s : TrayService) : TrayService := { s with waits := cancel s.waits ++ [.waiting] }

def start (s : TrayService) : TrayService × Bool :=
  if s.trayRunning then (s, false) else ({ s with trayRunning := true }.ping, true)

def stop (s : TrayService) : TrayService := { trayRunning := false, waits := cancel s.waits }

def expire (s : TrayService) : Option TrayService :=
  if .waiting ∈ s.waits then
    some { s with waits := s.waits.map fun w => if w = .waiting then .expired else w }
  else none

/-- The handler of a wait. -/
def handle (s : TrayService) (i : ℕ) : Option TrayService :=
  match s.waits[i]? with
  | some .expired => some { trayRunning := false, waits := s.waits.eraseIdx i }
  | some .aborted => some { s with waits := s.waits.eraseIdx i }
  | _ => none

end TrayService

/-- How far a tray process is, and what it has said that is on its way to the service. -/
inductive TrayControls where
  /-- There is no process, but for the pings of one that crashed. -/
  | out (pings : ℕ)
  /-- Its hello is on its way. -/
  | calling
  /-- It has quit or crashed since. -/
  | abandoned
  /-- The answer is on its way, which tells it to exit or not. -/
  | answered (kill : Bool)
  | ready (pings : ℕ)
  /-- Its goodbye is on its way, between pings. -/
  | leaving (pings late : ℕ)
  /-- It has crashed since. -/
  | parted (pings late : ℕ)
  /-- The answer to its goodbye is on its way. -/
  | dismissed (late : ℕ)
  deriving DecidableEq

namespace TrayControls

/-- The service has taken it for the one tray, and not heard its goodbye. -/
def Holds : TrayControls → Prop
  | .answered false | .ready _ | .leaving _ _ => True
  | .out _ | .calling | .abandoned | .answered true | .parted _ _ | .dismissed _ => False

instance : DecidablePred Holds
  | .answered false | .ready _ | .leaving _ _ => isTrue trivial
  | .out _ | .calling | .abandoned | .answered true | .parted _ _ | .dismissed _ =>
    isFalse fun h => h

/-- Or it has crashed, and its goodbye is on its way. -/
def Known : TrayControls → Prop
  | .answered false | .ready _ | .leaving _ _ | .parted _ _ => True
  | .out _ | .calling | .abandoned | .answered true | .dismissed _ => False

instance : DecidablePred Known
  | .answered false | .ready _ | .leaving _ _ | .parted _ _ => isTrue trivial
  | .out _ | .calling | .abandoned | .answered true | .dismissed _ => isFalse fun h => h

theorem Holds.known {tray : TrayControls} (h : tray.Holds) : tray.Known := by
  cases tray with
  | answered kill => cases kill <;> exact h
  | ready pings | leaving pings late => trivial
  | out pings | calling | abandoned | parted pings late | dismissed late => exact h.elim

/-- The tray handles the answer to its hello. -/
def answer : TrayControls → Option TrayControls
  | .answered true => some (.out 0)
  | .answered false => some (.ready 0)
  | .out _ | .calling | .abandoned | .ready _ | .leaving _ _ | .parted _ _ | .dismissed _ => none

/-- The ping loop calls. -/
def sendPing : TrayControls → Option TrayControls
  | .ready pings => some (.ready (pings + 1))
  | .leaving pings late => some (.leaving pings (late + 1))
  | .dismissed late => some (.dismissed (late + 1))
  | .out _ | .calling | .abandoned | .answered _ | .parted _ _ => none

/-- One of its pings has arrived. -/
def heardPing : TrayControls → Option TrayControls
  | .out (pings + 1) => some (.out pings)
  | .ready (pings + 1) => some (.ready pings)
  | .leaving (pings + 1) late => some (.leaving pings late)
  | .parted (pings + 1) late => some (.parted pings late)
  | .dismissed (late + 1) => some (.dismissed late)
  | .out 0 | .calling | .abandoned | .answered _ | .ready 0 | .leaving 0 _ | .parted 0 _
  | .dismissed 0 => none

/-- `shutdown`, which says goodbye only once the tray is ready. -/
def quit : TrayControls → Option TrayControls
  | .calling => some .abandoned
  | .answered _ => some (.out 0)
  | .ready pings => some (.leaving pings 0)
  | .out _ | .abandoned | .leaving _ _ | .parted _ _ | .dismissed _ => none

/-- Its goodbye has arrived. -/
def heardGoodbye : TrayControls → Option TrayControls
  | .leaving 0 late => some (.dismissed late)
  | .parted 0 late => some (.out late)
  | .out _ | .calling | .abandoned | .answered _ | .ready _ | .leaving (_ + 1) _
  | .parted (_ + 1) _ | .dismissed _ => none

/-- The process is gone: it has the answer to its goodbye, or it crashes. -/
def crash : TrayControls → TrayControls
  | .calling => .abandoned
  | .answered _ => .out 0
  | .ready pings => .out pings
  | .leaving pings late => .parted pings late
  | .dismissed late => .out late
  | .out pings => .out pings
  | .abandoned => .abandoned
  | .parted pings late => .parted pings late

/-- The connection of a process that is gone is lost, with what is on its way. -/
def lose : TrayControls → Option TrayControls
  | .out _ | .abandoned | .parted _ _ => some (.out 0)
  | .calling | .answered _ | .ready _ | .leaving _ _ | .dismissed _ => none

end TrayControls

structure Trays (ι : Type) where
  service : TrayService := {}
  tray : ι → TrayControls := fun _ => .out 0

namespace Trays

variable {ι : Type} [DecidableEq ι]

inductive Event (ι : Type) where
  | launch (i : ι)
  /-- The service handles the hello. -/
  | hello (i : ι)
  /-- The tray handles the answer. -/
  | answer (i : ι)
  | sendPing (i : ι)
  | ping (i : ι)
  | quit (i : ι)
  /-- The service handles the goodbye. -/
  | goodbye (i : ι)
  | crash (i : ι)
  | lose (i : ι)
  | expire
  | handle (n : ℕ)

def setTray (s : Trays ι) (i : ι) (tray : TrayControls) : Trays ι :=
  { s with tray := fun j => if j = i then tray else s.tray j }

def setService (s : Trays ι) (service : TrayService) : Trays ι := { s with service := service }

/-- `synergy.tray.hello`. -/
def hello (s : Trays ι) (i : ι) : Option (Trays ι) :=
  let (service, started) := s.service.start
  match s.tray i with
  | .calling => some ((s.setService service).setTray i (.answered !started))
  | .abandoned => some ((s.setService service).setTray i (.out 0))
  | _ => none

def step (s : Trays ι) : Event ι → Option (Trays ι)
  | .launch i => if s.tray i = .out 0 then some (s.setTray i .calling) else none
  | .hello i => s.hello i
  | .answer i => (s.tray i).answer.map (s.setTray i)
  | .sendPing i => (s.tray i).sendPing.map (s.setTray i)
  | .ping i => (s.tray i).heardPing.map ((s.setService s.service.ping).setTray i)
  | .quit i => (s.tray i).quit.map (s.setTray i)
  | .goodbye i => (s.tray i).heardGoodbye.map ((s.setService s.service.stop).setTray i)
  | .crash i => some (s.setTray i (s.tray i).crash)
  | .lose i => (s.tray i).lose.map (s.setTray i)
  | .expire => s.service.expire.map s.setService
  | .handle n => (s.service.handle n).map s.setService

/-- The nine seconds are over only where no tray is left to ping and no goodbye is on its way, and
the handler that has waited for it runs before a hello is handled. -/
def Timely (s : Trays ι) : Event ι → Prop
  | .expire => ∀ i, ¬(s.tray i).Known
  | .hello _ => .expired ∉ s.service.waits
  | _ => True

instance [Fintype ι] (s : Trays ι) : (ev : Event ι) → Decidable (s.Timely ev)
  | .expire => inferInstanceAs (Decidable (∀ i, ¬(s.tray i).Known))
  | .hello _ => inferInstanceAs (Decidable (.expired ∉ s.service.waits))
  | .launch _ | .answer _ | .sendPing _ | .ping _ | .quit _ | .goodbye _ | .crash _ | .lose _
  | .handle _ => inferInstanceAs (Decidable True)

end Trays

/-! ## The waits of the timer -/

namespace TrayService

variable {s s' : TrayService}

/-- A wait that was not aborted is there while a tray is taken to be. -/
def Timed (s : TrayService) : Prop := s.trayRunning = true → ∃ w ∈ s.waits, w ≠ .aborted

theorem expired_mem_cancel {ws : List Wait} : .expired ∈ cancel ws ↔ .expired ∈ ws := by
  simp only [cancel, List.mem_map]
  constructor
  · rintro ⟨w, hw, heq⟩
    cases w with
    | expired => exact hw
    | waiting => simp at heq
    | aborted => simp at heq
  · intro h
    exact ⟨_, h, by simp⟩

theorem expired_mem_ping : .expired ∈ s.ping.waits ↔ .expired ∈ s.waits := by
  rw [ping, List.mem_append, expired_mem_cancel]
  simp

theorem timed_ping (s : TrayService) : s.ping.Timed :=
  fun _ => ⟨.waiting, List.mem_append_right _ List.mem_cons_self, by simp⟩

theorem timed_expire (hstep : s.expire = some s') : s'.Timed := by
  simp only [TrayService.expire, Option.ite_none_right_eq_some, Option.some.injEq] at hstep
  obtain ⟨hwaiting, rfl⟩ := hstep
  exact fun _ => ⟨.expired, List.mem_map.mpr ⟨.waiting, hwaiting, by simp⟩, by simp⟩

/-- The handler of an aborted wait does nothing, and that of an expired one marks the tray dead. -/
inductive HandleCase (s : TrayService) : TrayService → Prop
  | aborted (waits : List Wait) (kept : ∀ w ∈ s.waits, w ≠ .aborted → w ∈ waits)
      (sub : ∀ w ∈ waits, w ∈ s.waits) : HandleCase s { s with waits := waits }
  | expired (waits : List Wait) (queued : .expired ∈ s.waits) :
      HandleCase s { trayRunning := false, waits := waits }

theorem handle_cases {i : ℕ} (h : s.handle i = some s') : HandleCase s s' := by
  unfold handle at h
  split at h
  · rename_i hw
    obtain rfl := Option.some.inj h
    exact .expired _ (List.mem_of_getElem? hw)
  · rename_i hw
    obtain rfl := Option.some.inj h
    refine .aborted _ (fun w hmem hlive => ?_) fun w hmem => List.mem_of_mem_eraseIdx hmem
    obtain ⟨j, hj⟩ := List.getElem?_of_mem hmem
    refine List.mem_eraseIdx_iff_getElem?.mpr ⟨j, fun heq => ?_, hj⟩
    rw [heq, hw] at hj
    exact hlive (Option.some.inj hj).symm
  · exact absurd h (by simp)

end TrayService

/-! ## Who is the one tray -/

namespace TrayControls

variable {tray tray' : TrayControls}

/-- A tray is taken for the one only by its hello, and until its goodbye. -/
theorem known_answer (h : tray.answer = some tray') : tray'.Known → tray.Known := by
  cases tray with
  | answered kill =>
    cases kill with
    | true =>
      obtain rfl := Option.some.inj h
      exact id
    | false => exact fun _ => trivial
  | out _ | calling | abandoned | ready _ | leaving _ _ | parted _ _ | dismissed _ => cases h

theorem known_sendPing (h : tray.sendPing = some tray') : tray'.Known → tray.Known := by
  cases tray <;> cases h <;> exact id

theorem known_heardPing (h : tray.heardPing = some tray') : tray'.Known → tray.Known := by
  unfold heardPing at h
  split at h <;> cases h <;> exact id

theorem known_quit (h : tray.quit = some tray') : tray'.Known → tray.Known := by
  cases tray <;> cases h <;> first | exact id | exact fun hout => hout.elim

theorem known_crash : tray.crash.Known → tray.Known := by
  cases tray <;> first | exact id | exact fun hout => hout.elim

theorem known_lose (h : tray.lose = some tray') : ¬tray'.Known := by
  cases tray <;> cases h <;> exact id

theorem known_heardGoodbye (h : tray.heardGoodbye = some tray') : tray.Known ∧ ¬tray'.Known := by
  unfold heardGoodbye at h
  split at h <;> cases h <;> exact ⟨trivial, id⟩

end TrayControls

namespace Trays

variable {ι : Type} {s s' : Trays ι} {i : ι} {tray : TrayControls}

/-- What every timely event keeps. -/
structure Sound (s : Trays ι) : Prop where
  timed : s.service.Timed
  /-- Nobody is there whom the handler of an expired wait could mark dead. -/
  expired : .expired ∈ s.service.waits → ∀ i, ¬(s.tray i).Known
  running : ∀ i, (s.tray i).Known → s.service.trayRunning = true
  exclusive : ∀ i j, (s.tray i).Known → (s.tray j).Known → i = j

/-- A ping starts the nine seconds again, whoever it is from. -/
theorem Sound.ping (h : s.Sound) : (s.setService s.service.ping).Sound :=
  ⟨TrayService.timed_ping _, fun hin => h.expired (TrayService.expired_mem_ping.mp hin), h.running,
    h.exclusive⟩

variable [DecidableEq ι]

theorem tray_setTray (s : Trays ι) (i j : ι) (tray : TrayControls) :
    (s.setTray i tray).tray j = if j = i then tray else s.tray j := rfl

/-- A tray goes on that does not become the one. -/
theorem Sound.setTray (h : s.Sound) (htray : tray.Known → (s.tray i).Known) :
    (s.setTray i tray).Sound := by
  have hsub : ∀ j, ((s.setTray i tray).tray j).Known → (s.tray j).Known := by
    intro j hj
    rw [tray_setTray] at hj
    split at hj
    · rename_i heq
      exact heq ▸ htray hj
    · exact hj
  exact ⟨h.timed, fun hin j hj => h.expired hin j (hsub j hj), fun j hj => h.running j (hsub j hj),
    fun j k hj hk => h.exclusive j k (hsub j hj) (hsub k hk)⟩

/-- Where the service takes no tray to be there, the one that says hello becomes it. -/
theorem Sound.start (h : s.Sound) (hstopped : s.service.trayRunning = false)
    (hqueued : .expired ∉ s.service.waits) :
    ((s.setService s.service.start.1).setTray i tray).Sound := by
  have hstart : s.service.start.1 = { s.service with trayRunning := true }.ping := by
    rw [TrayService.start, hstopped]
    rfl
  have honly : ∀ j, (((s.setService s.service.start.1).setTray i tray).tray j).Known → j = i := by
    intro j hj
    rw [tray_setTray] at hj
    by_contra hne
    rw [if_neg hne] at hj
    exact absurd (h.running j hj) (by simp [hstopped])
  refine ⟨?_, fun hin => ?_, fun j _ => ?_, fun j k hj hk => (honly j hj).trans (honly k hk).symm⟩
  · show s.service.start.1.Timed
    rw [hstart]
    exact TrayService.timed_ping _
  · have hin' : .expired ∈ s.service.start.1.waits := hin
    rw [hstart, TrayService.expired_mem_ping] at hin'
    exact absurd hin' hqueued
  · show s.service.start.1.trayRunning = true
    rw [hstart]
    rfl

theorem Sound.hello (h : s.Sound) (hqueued : .expired ∉ s.service.waits)
    (hstep : s.hello i = some s') : s'.Sound := by
  unfold Trays.hello at hstep
  cases hrunning : s.service.trayRunning with
  | false =>
    -- the service answers that the tray may stay, and waits for its pings
    have hstart : s.service.start = (s.service.start.1, true) := by
      rw [TrayService.start, hrunning]
      rfl
    rw [hstart] at hstep
    dsimp only at hstep
    split at hstep
    · exact Option.some.inj hstep ▸ h.start hrunning hqueued
    · exact Option.some.inj hstep ▸ h.start hrunning hqueued
    · exact absurd hstep (by simp)
  | true =>
    -- the answer tells the tray to exit
    have hstart : s.service.start = (s.service, false) := if_pos hrunning
    rw [hstart] at hstep
    dsimp only at hstep
    split at hstep
    · exact Option.some.inj hstep ▸ h.setTray fun hkill => hkill.elim
    · exact Option.some.inj hstep ▸ h.setTray fun hout => hout.elim
    · exact absurd hstep (by simp)

/-- The goodbye was that of the one tray, and so nobody is left. -/
theorem Sound.goodbye (h : s.Sound) (hknown : (s.tray i).Known) (htray : ¬tray.Known) :
    ((s.setService s.service.stop).setTray i tray).Sound := by
  have hnone : ∀ j, ¬(((s.setService s.service.stop).setTray i tray).tray j).Known := by
    intro j hj
    rw [tray_setTray] at hj
    split at hj
    · exact htray hj
    · rename_i hne
      exact hne (h.exclusive j i hj hknown)
  exact ⟨fun hrunning => (by cases hrunning), fun _ => hnone, fun j hj => (hnone j hj).elim,
    fun j _ hj => (hnone j hj).elim⟩

theorem Sound.step {ev : Event ι} (h : s.Sound) (hok : s.Timely ev)
    (hstep : s.step ev = some s') : s'.Sound := by
  cases ev with
  | launch i =>
    simp only [Trays.step, Option.ite_none_right_eq_some, Option.some.injEq] at hstep
    exact hstep.2 ▸ h.setTray fun hcalling => hcalling.elim
  | hello i => exact h.hello hok hstep
  | answer i =>
    obtain ⟨tray, htray, rfl⟩ := Option.map_eq_some_iff.mp hstep
    exact h.setTray (TrayControls.known_answer htray)
  | sendPing i =>
    obtain ⟨tray, htray, rfl⟩ := Option.map_eq_some_iff.mp hstep
    exact h.setTray (TrayControls.known_sendPing htray)
  | ping i =>
    obtain ⟨tray, htray, rfl⟩ := Option.map_eq_some_iff.mp hstep
    exact h.ping.setTray (TrayControls.known_heardPing htray)
  | quit i =>
    obtain ⟨tray, htray, rfl⟩ := Option.map_eq_some_iff.mp hstep
    exact h.setTray (TrayControls.known_quit htray)
  | goodbye i =>
    obtain ⟨tray, htray, rfl⟩ := Option.map_eq_some_iff.mp hstep
    obtain ⟨hknown, hnot⟩ := TrayControls.known_heardGoodbye htray
    exact h.goodbye hknown hnot
  | crash i => exact Option.some.inj hstep ▸ h.setTray TrayControls.known_crash
  | lose i =>
    obtain ⟨tray, htray, rfl⟩ := Option.map_eq_some_iff.mp hstep
    exact h.setTray fun hknown => absurd hknown (TrayControls.known_lose htray)
  | expire =>
    obtain ⟨service, hservice, rfl⟩ := Option.map_eq_some_iff.mp hstep
    exact ⟨TrayService.timed_expire hservice, fun _ => hok, fun j hj => (hok j hj).elim,
      fun j _ hj => (hok j hj).elim⟩
  | handle n =>
    obtain ⟨service, hservice, rfl⟩ := Option.map_eq_some_iff.mp hstep
    cases TrayService.handle_cases hservice with
    | aborted waits kept sub =>
      -- the handler does nothing, and the wait that has replaced it is still there
      refine ⟨fun hrunning => ?_, fun hin => h.expired (sub _ hin), h.running, h.exclusive⟩
      obtain ⟨w, hw, hlive⟩ := h.timed hrunning
      exact ⟨w, kept w hw hlive, hlive⟩
    | expired waits queued =>
      -- the service forgets the tray; there is none
      have hnone := h.expired queued
      exact ⟨fun hrunning => (by cases hrunning), fun _ => hnone, fun j hj => (hnone j hj).elim,
        h.exclusive⟩

/-- **There is never more than one tray**, however many processes are launched, wherever they are
quit or crash, and however late their pings are, if every expiry of the timer is timely. The service
knows of the tray, and a wait is outstanding while it does: so one that has crashed is forgotten. -/
theorem one_tray (h : Run step Timely ({} : Trays ι) s) :
    (∀ i j, (s.tray i).Holds → (s.tray j).Holds → i = j) ∧
      (∀ i, (s.tray i).Holds → s.service.trayRunning = true) ∧
      (s.service.trayRunning = true → ∃ w ∈ s.service.waits, w ≠ .aborted) := by
  have hinit : ({} : Trays ι).Sound :=
    ⟨fun hrunning => (by cases hrunning), fun hin => absurd hin List.not_mem_nil, fun _ h => h.elim,
      fun _ _ h => h.elim⟩
  have hsound : s.Sound :=
    h.invariant hinit fun _ _ _ _ hs hok hstep => hs.step hok hstep
  exact ⟨fun i j hi hj => hsound.exclusive i j hi.known hj.known,
    fun i hi => hsound.running i hi.known, hsound.timed⟩

/-- The first tray pings behind its goodbye, and the second becomes the one while the service waits
for that ping to be late. A third is told to exit while the second is there, and may stay once that
one has crashed and is forgotten. -/
def crashed : List (Event Bool) :=
  [.launch false, .hello false, .answer false, .sendPing false, .ping false, .quit false,
    .sendPing false, .goodbye false, .ping false, .crash false, .launch true, .hello true,
    .answer true, .launch false, .hello false, .answer false, .crash true, .handle 0, .handle 0,
    .handle 0, .expire, .handle 0, .launch false, .hello false, .answer false]

theorem one_tray_crashed :
    (∀ i j, ((execs step {} crashed).tray i).Holds → ((execs step {} crashed).tray j).Holds →
      i = j) ∧
      (∀ i, ((execs step {} crashed).tray i).Holds →
        (execs step {} crashed).service.trayRunning = true) ∧
      ((execs step {} crashed).service.trayRunning = true →
        ∃ w ∈ (execs step {} crashed).service.waits, w ≠ .aborted) :=
  one_tray (Run.nil.execs (by decide +kernel) :
    Lib.Run step Timely ({} : Trays Bool) (execs step {} crashed))

example : (execs step {} crashed).tray false = .ready 0 := by decide +kernel

/-- A tray that is late is taken to be gone, and then there are two. -/
example : ∀ i, (execs step {} [.launch false, .hello false, .answer false, .expire, .handle 0,
    .sendPing false, .ping false, .launch true, .hello true, .answer true]).tray i =
      TrayControls.ready 0 := by
  decide +kernel

/-- So are there where a hello overtakes the handler that a ping behind a goodbye has set off. -/
example : ∀ i, (execs step {} [.launch false, .hello false, .answer false, .quit false,
    .sendPing false, .goodbye false, .ping false, .crash false, .expire, .launch true, .hello true,
    .answer true, .handle 1, .launch false, .hello false, .answer false]).tray i =
      TrayControls.ready 0 := by
  decide +kernel

end Trays

end Synergy
