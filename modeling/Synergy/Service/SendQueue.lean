import Synergy.Lib.Run

/-!
# The send queue of a connection

`Connection::send` queues a message and spawns a writer coroutine if the queue has become one
message long; the coroutine writes the front of the queue, pops it, and goes on until the queue is
empty. The message stays at the front while it is written, and this is what keeps `send` from
spawning a second writer.

The service runs its handlers on one thread. So a coroutine, once resumed, runs without
interruption until it is suspended again, and `send` comes only in between: before the coroutine
has run at all, during a write, or after the write is complete and before the coroutine is
resumed. A write is a composed operation that transfers its bytes in parts, and it is over when
none are left. The invariant is `Working`: it lists the only three shapes the queue and its
coroutines ever have.
-/

set_option autoImplicit false

namespace Synergy.SendQueue

open Lib

/-- Where a writer coroutine is suspended. -/
inductive Coroutine where
  /-- Spawned, and not run yet. -/
  | spawned
  /-- In the write of a message of which these bytes are left. -/
  | writing (left : List UInt8)
  deriving DecidableEq

def Coroutine.inWrite : Coroutine → Bool
  | .spawned => false
  | .writing _ => true

/-- A connection that is written to. -/
structure State (φ : Type) where
  /-- `message_queue_` -/
  queue : List φ
  coroutines : List Coroutine
  /-- Every message that was handed to `send`. -/
  sent : List φ
  /-- Every byte that was written. -/
  stream : List UInt8
  deriving DecidableEq

def initial {φ : Type} : State φ := { queue := [], coroutines := [], sent := [], stream := [] }

inductive Event (φ : Type) where
  | send (message : φ)
  /-- A coroutine runs for the first time, or after its write is complete. -/
  | resume (i : Nat)
  /-- The write of a coroutine transfers some bytes. -/
  | transfer (i n : Nat)
  /-- The write of a coroutine fails, and the coroutine is resumed. -/
  | fail (i : Nat)
  deriving DecidableEq

def Event.isFail {φ : Type} : Event φ → Bool
  | .fail _ => true
  | _ => false

def Event.isSend {φ : Type} : Event φ → Bool
  | .send _ => true
  | _ => false

variable {φ : Type} (encode : φ → List UInt8)

/-- `Connection::send`. -/
def send (s : State φ) (message : φ) : State φ :=
  let queue := s.queue ++ [message]
  { s with
    queue := queue
    coroutines := if queue.length = 1 then s.coroutines ++ [.spawned] else s.coroutines
    sent := s.sent ++ [message] }

/-- The `while` of the `i`-th coroutine, up to where it is suspended or ends. -/
def loop (s : State φ) (i : Nat) : State φ :=
  match s.queue with
  | [] => { s with coroutines := s.coroutines.eraseIdx i }
  | message :: _ => { s with coroutines := s.coroutines.set i (.writing (encode message)) }

/-- `pop_front`, and back to the `while`. -/
def written (s : State φ) (i : Nat) : State φ := loop encode { s with queue := s.queue.tail } i

def step (s : State φ) : Event φ → Option (State φ)
  | .send message => some (send s message)
  | .resume i =>
    match s.coroutines[i]? with
    | some .spawned => some (loop encode s i)
    | some (.writing []) => some (written encode s i)
    | _ => none
  | .transfer i n =>
    match s.coroutines[i]? with
    | some (.writing left) =>
      if 0 < n ∧ n ≤ left.length then
        some { s with
          coroutines := s.coroutines.set i (.writing (left.drop n))
          stream := s.stream ++ left.take n }
      else none
    | _ => none
  | .fail i =>
    match s.coroutines[i]? with
    | some (.writing left) => if left ≠ [] then some (written encode s i) else none
    | _ => none

/-- A run in which no write fails. -/
abbrev Run : State φ → Prop := Lib.Run (step encode) (fun _ ev => ¬ ev.isFail) initial

/-- What the queue, the coroutines and the stream can be, once `done` are written: the queue is
empty, or its one coroutine is about to run, or it is in the write of the front. -/
inductive Working (done : List φ) : List φ → List Coroutine → List UInt8 → Prop
  | idle : Working done [] [] (done.flatMap encode)
  | spawned {m : φ} {ms : List φ} : Working done (m :: ms) [.spawned] (done.flatMap encode)
  | writing {m : φ} {ms : List φ} {part left : List UInt8} (split : encode m = part ++ left) :
      Working done (m :: ms) [.writing left] (done.flatMap encode ++ part)

/-- The messages are either written or queued, in the order of the calls. -/
def Inv (s : State φ) : Prop :=
  ∃ done, s.sent = done ++ s.queue ∧ Working encode done s.queue s.coroutines s.stream

variable {encode}

theorem Working.send {done queue : List φ} {coroutines : List Coroutine} {stream : List UInt8}
    (h : Working encode done queue coroutines stream) (message : φ) :
    Working encode done (queue ++ [message])
      (if (queue ++ [message]).length = 1 then coroutines ++ [.spawned] else coroutines)
      stream := by
  cases h with
  | idle => exact .spawned
  | spawned => simpa using Working.spawned
  | writing split => simpa using Working.writing split

/-- The loop of the only coroutine, when nothing of the front is written yet. -/
theorem inv_loop {s : State φ} {done : List φ} {c : Coroutine} (hsent : s.sent = done ++ s.queue)
    (hone : s.coroutines = [c]) (hstream : s.stream = done.flatMap encode) :
    Inv encode (loop encode s 0) := by
  unfold loop
  split
  · rename_i hempty
    refine ⟨done, hsent, ?_⟩
    simp only [hempty, hone, hstream, List.eraseIdx_cons_zero]
    exact .idle
  · rename_i m ms hcons
    refine ⟨done, hsent, ?_⟩
    simp only [hcons, hone, hstream, List.set_cons_zero]
    have h : Working encode done (m :: ms) [.writing (encode m)] (done.flatMap encode ++ []) :=
      .writing rfl
    rwa [List.append_nil] at h

/-- What one event does to the invariant. -/
theorem inv_step {s s' : State φ} {ev : Event φ} (h : Inv encode s) (hok : ¬ ev.isFail)
    (hstep : step encode s ev = some s') : Inv encode s' := by
  obtain ⟨queue, coroutines, sent, stream⟩ := s
  obtain ⟨done, hsent, hworking⟩ := h
  dsimp only at hsent hworking
  cases ev with
  | send message =>
    cases hstep
    refine ⟨done, ?_, hworking.send message⟩
    simp only [SendQueue.send, hsent, List.append_assoc]
  | resume i =>
    cases hworking with
    | idle => exact absurd hstep (by simp [step])
    | spawned =>
      cases i with
      | zero =>
        cases hstep
        exact inv_loop hsent rfl rfl
      | succ i => exact absurd hstep (by simp [step])
    | @writing m ms part left split =>
      cases i with
      | zero =>
        cases left with
        | nil =>
          cases hstep
          -- the front is written: it moves from the queue to what is done
          rw [List.append_nil] at split
          have hwritten : sent = (done ++ [m]) ++ ms := by simpa using hsent
          apply inv_loop hwritten rfl
          simp [split]
        | cons b left => exact absurd hstep (by simp [step])
      | succ i => exact absurd hstep (by simp [step])
  | transfer i n =>
    cases hworking with
    | idle => exact absurd hstep (by simp [step])
    | spawned => cases i <;> exact absurd hstep (by simp [step])
    | @writing m ms part left split =>
      cases i with
      | zero =>
        simp only [step, List.getElem?_cons_zero] at hstep
        obtain ⟨-, heq⟩ := Option.ite_none_right_eq_some.mp hstep
        cases heq
        refine ⟨done, hsent, ?_⟩
        rw [List.append_assoc]
        apply Working.writing
        rw [List.append_assoc, List.take_append_drop, split]
      | succ i => exact absurd hstep (by simp [step])
  | fail i => exact absurd rfl hok

theorem Run.inv {s : State φ} (h : Run encode s) : Inv encode s := by
  apply h.invariant
  · exact ⟨[], rfl, .idle⟩
  · intro s s' ev hrun hinv hok hstep
    exact inv_step hinv hok hstep

/-- Where nothing happens any more but `send`, the queue is empty. -/
theorem queue_eq_nil_of_stopped {s : State φ} (h : Inv encode s)
    (hstopped : ∀ ev, ¬ ev.isSend → ¬ ev.isFail → step encode s ev = none) : s.queue = [] := by
  obtain ⟨queue, coroutines, sent, stream⟩ := s
  obtain ⟨done, -, hworking⟩ := h
  cases hworking with
  | idle => rfl
  | spawned =>
    have hresume := hstopped (.resume 0) (by simp [Event.isSend]) (by simp [Event.isFail])
    exact absurd hresume (by simp [step])
  | @writing m ms part left split =>
    cases left with
    | nil =>
      have hresume := hstopped (.resume 0) (by simp [Event.isSend]) (by simp [Event.isFail])
      exact absurd hresume (by simp [step])
    | cons b left =>
      have htransfer := hstopped (.transfer 0 1) (by simp [Event.isSend]) (by simp [Event.isFail])
      exact absurd htransfer (by simp [step])

/-- **Writes are queued.** While no write fails, at most one write is in progress; a coroutine
exists just when the queue is not empty, and then it is the only one; the messages that left the
queue are written, in the order of the calls and each once, and of the one at the front a first
part; and where nothing can happen any more but `send`, the queue is empty. -/
theorem writes_queued {s : State φ} (h : Run encode s) :
    (s.coroutines.filter Coroutine.inWrite).length ≤ 1 ∧
    (s.queue ≠ [] ↔ s.coroutines.length = 1) ∧ s.coroutines.length ≤ 1 ∧
    (∃ done part, s.sent = done ++ s.queue ∧ s.stream = done.flatMap encode ++ part ∧
      (part ≠ [] → ∃ m ∈ s.queue.head?, part <+: encode m)) ∧
    ((∀ ev, ¬ ev.isSend → ¬ ev.isFail → step encode s ev = none) → s.queue = []) := by
  have hinv := h.inv
  have hstopped := queue_eq_nil_of_stopped hinv
  obtain ⟨queue, coroutines, sent, stream⟩ := s
  obtain ⟨done, hsent, hworking⟩ := hinv
  dsimp only at hsent hworking ⊢
  cases hworking with
  | idle => exact ⟨by simp, by simp, by simp, ⟨done, [], hsent, by simp, by simp⟩, hstopped⟩
  | spawned =>
    exact ⟨by simp [Coroutine.inWrite], by simp, by simp, ⟨done, [], hsent, by simp, by simp⟩,
      hstopped⟩
  | @writing m ms part left split =>
    have hone : ([Coroutine.writing left].filter Coroutine.inWrite).length = 1 := rfl
    refine ⟨Nat.le_of_eq hone, by simp, by simp, ⟨done, part, hsent, rfl, ?_⟩, hstopped⟩
    intro _
    exact ⟨m, rfl, left, split.symm⟩

/-- Three messages: one before the coroutine has run, one during the first write, one between the
end of the last write and the `pop_front`. -/
def threeSends : State UInt8 :=
  execs (step fun b => [b, b]) initial
    [.send 1, .resume 0, .transfer 0 1, .send 2, .transfer 0 1, .resume 0, .transfer 0 2, .send 3,
      .resume 0, .transfer 0 1]

theorem writes_queued_threeSends :
    threeSends.stream = [1, 1, 2, 2, 3] ∧
      (threeSends.coroutines.filter Coroutine.inWrite).length ≤ 1 :=
  ⟨by decide +kernel,
    (writes_queued (Run.nil.execs (by decide +kernel) : Run (fun b => [b, b]) threeSends)).1⟩

end Synergy.SendQueue
