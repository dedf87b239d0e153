import Mathlib.Data.List.Basic
import Synergy.Cloud.SecuredTcpClient
import Synergy.Lib.Run

/-!
# The websocket session

`WebsocketSession`, which connects a `SecuredTcpClient`, shakes hands over it, and then reads for as
long as it is connected. After an error it reconnects, which is to shut down and arm a timer.

`shutdown` runs `m_ioService.poll ()`, and so any handler; and a slot of a signal may call any
method. What is under way is a stack of frames, and a frame goes on when the poll has nothing left
to run, or the slots have returned. An operation has completed when its handler runs. One that was
cancelled has its handler queued, with whatever it completed with, and runs before the poll is over;
closing a socket aborts what is outstanding on it.

What happens is undefined where something is used that is gone. `m_websocket` refers to the stream
of `m_tcpClient`, and may be used after that one; and the operations of a client that was replaced
complete later, and their handlers use the client and its stream.
-/

set_option autoImplicit false

namespace Synergy

open Lib
open SecuredTcpClient (ErrorCode Outcome Result)

namespace WebsocketSession

inductive Op where
  | client (op : SecuredTcpClient.Op)
  | handshake
  | read
  deriving DecidableEq

/-- How an operation may complete: with anything at any time, with anything before a poll is over,
or as aborted before a poll is over. -/
inductive Due where
  | outstanding
  | cancelled
  | aborted
  deriving DecidableEq

structure Pending where
  op : Op
  due : Due := .outstanding
  deriving DecidableEq

/-- What is under way: the poll of `shutdown`, by the owner or in `reconnect`, or the slots of a
signal. -/
inductive Frame where
  | shutdown
  | reconnect
  | connectionError (reconnect : Bool)
  | connected
  | messageReceived
  deriving DecidableEq

end WebsocketSession

/-- `rejected` is said of `m_res`: it is a 403 with an `X-SCS-Reason`. The `orphans` are the
operations of clients that are gone. The last three fields are read by no function of the source:
`down` from the return of a `shutdown` of the owner until its next `connect` or `reconnect`, the
messages that are emitted while it is, and `wanted` from a `connect` until the next `shutdown` or
rejection. -/
structure WebsocketSession where
  tcpClient : Option SecuredTcpClient := none
  rejected : Bool := false
  target : String := ""
  connected : Bool := false
  connecting : Bool := false
  proxyHost : String := ""
  proxyPort : Int := 0
  ops : List WebsocketSession.Pending := []
  orphans : ℕ := 0
  timer : Bool := false
  expired : ℕ := 0
  calls : List WebsocketSession.Frame := []
  undefined : Bool := false
  down : Bool := false
  late : ℕ := 0
  wanted : Bool := false
  deriving DecidableEq

namespace WebsocketSession

inductive Event where
  /-- Calls of the owner. -/
  | connect (target : String) (resolved : Resolved)
  | reconnect (now : Bool)
  | shutdown
  | setProxy (host : String) (port : Int)
  /-- An operation completes. If a websocket handshake had a response, it may be a rejection. -/
  | completed (n : ℕ) (result : Result) (rejects : Option Bool)
  /-- An operation of a client that is gone completes. -/
  | orphanCompleted
  | timerExpires
  /-- The handler of the timer runs. -/
  | timerHandler (resolved : Resolved)
  /-- What is under way goes on. -/
  | resume

/-- The operation fails, and the client says so. -/
def Op.Refused : Op → Result → Prop
  | .client op, result => SecuredTcpClient.Refused op result
  | .handshake, _ => False
  | .read, _ => False

instance (op : Op) (result : Result) : Decidable (op.Refused result) :=
  match op with
  | .client op => inferInstanceAs (Decidable (SecuredTcpClient.Refused op result))
  | .handshake | .read => isFalse id

/-- An operation on the socket, which closing and cancelling it reaches. -/
def Op.OnSocket (op : Op) : Prop :=
  op ≠ .client .proxyResolve

instance (op : Op) : Decidable op.OnSocket := inferInstanceAs (Decidable (_ ≠ _))

/-- `lowest_layer ().cancel ()`. -/
def Pending.cancel (p : Pending) : Pending :=
  if p.op.OnSocket ∧ p.due = .outstanding then { p with due := .cancelled } else p

/-- `lowest_layer ().close ()`. -/
def Pending.close (p : Pending) : Pending :=
  if p.op.OnSocket then { p with due := .aborted } else p

/-- The client is destroyed. -/
def dropClient (s : WebsocketSession) : WebsocketSession :=
  { s with
    tcpClient := none
    ops := []
    orphans := s.orphans + s.ops.length }

/-- An operation is started on `m_websocket`. -/
def start (s : WebsocketSession) (op : Op) : WebsocketSession :=
  match s.tcpClient with
  | some _ => { s with ops := s.ops ++ [{ op := op }] }
  | none => { s with undefined := true }

def initSockets (s : WebsocketSession) : WebsocketSession :=
  { s.dropClient with
    tcpClient := some (({} : SecuredTcpClient).setProxy s.proxyHost s.proxyPort).2 }

/-- `handleConnectError`, until the slots of `connectionError` have returned. -/
def handleConnectError (s : WebsocketSession) (reconnect : Bool) : WebsocketSession :=
  { s with connecting := false, calls := .connectionError reconnect :: s.calls }

def onTcpClientConnected (s : WebsocketSession) : WebsocketSession :=
  s.start .handshake

def onTcpClientConnectFailed (s : WebsocketSession) : WebsocketSession :=
  if s.tcpClient.isSome then s.dropClient.handleConnectError true else s

/-- The slots of the signals of the TCP client. -/
def settle (s : WebsocketSession) : Outcome → WebsocketSession
  | .started op => s.start (.client op)
  | .connected => s.onTcpClientConnected
  | .connectFailed _ => s.onTcpClientConnectFailed
  | .silent => s

def connect (isAddress : String → Bool) (s : WebsocketSession) (target : String)
    (resolved : Resolved) : Option WebsocketSession := do
  let s := s.initSockets
  let s := { s with connecting := true, target := target }
  let (client, outcome) ← (← s.tcpClient).connect isAddress resolved
  pure (settle { s with tcpClient := some client } outcome)

/-- `m_reconnectTimer.async_wait`, which replaces the wait that there was. -/
def armTimer (s : WebsocketSession) : WebsocketSession :=
  { s with timer := true }

/-- `shutdown`, as far as the poll. -/
def beginShutdown (s : WebsocketSession) (frame : Frame) : WebsocketSession :=
  match s.tcpClient with
  | some _ =>
    { s with timer := false, ops := s.ops.map Pending.cancel, calls := frame :: s.calls }
  | none => { s with undefined := true }

/-- `shutdown`, from the poll on. -/
def endShutdown (s : WebsocketSession) : WebsocketSession :=
  match s.tcpClient with
  | some _ =>
    { s with ops := s.ops.map Pending.close, connecting := false, connected := false }
  | none => { s with undefined := true }

/-- The `shutdown` of the owner has returned. -/
def returned (s : WebsocketSession) : WebsocketSession :=
  { s with down := true, wanted := false }

def shutdown (s : WebsocketSession) : WebsocketSession :=
  if s.connected then s.beginShutdown .shutdown else s.returned

def reconnect (s : WebsocketSession) : WebsocketSession :=
  if s.connected then s.beginShutdown .reconnect else s.armTimer

def onWebsocketHandshakeFinished (s : WebsocketSession) (ec : Option ErrorCode)
    (rejects : Option Bool) : WebsocketSession :=
  match ec with
  | some _ =>
    let s := { s with
      rejected := rejects.getD s.rejected
      wanted := s.wanted && rejects != some true }
    s.handleConnectError !s.rejected
  | none =>
    { s with
      rejected := false, connecting := false, connected := true, calls := .connected :: s.calls }

def onReadFinished (s : WebsocketSession) : Option ErrorCode → WebsocketSession
  | some .operationAborted => s
  | some _ => s.handleConnectError true
  | none =>
    { s with
      late := if s.down then s.late + 1 else s.late
      calls := .messageReceived :: s.calls }

/-- The handler of an operation. -/
def handle (s : WebsocketSession) (op : Op) (result : Result) (rejects : Option Bool) :
    Option WebsocketSession :=
  match op with
  | .client op => s.tcpClient.map fun client =>
    settle { s with tcpClient := some (client.completed op result).1 }
      (client.completed op result).2
  | .handshake => some (s.onWebsocketHandshakeFinished result.ec rejects)
  | .read => some (s.onReadFinished result.ec)

/-- Handlers run, in the event loop or in a poll. -/
def Polls (s : WebsocketSession) : Prop :=
  s.calls.head? = none ∨ s.calls.head? = some .shutdown ∨ s.calls.head? = some .reconnect

instance (s : WebsocketSession) : Decidable s.Polls := inferInstanceAs (Decidable (_ ∨ _))

/-- No handler is queued. -/
def Polled (s : WebsocketSession) : Prop :=
  s.orphans = 0 ∧ s.expired = 0 ∧ ∀ p ∈ s.ops, p.due = .outstanding

instance (s : WebsocketSession) : Decidable s.Polled := inferInstanceAs (Decidable (_ ∧ _ ∧ _))

/-- What an operation can complete with. -/
def Pending.Admits (p : Pending) (result : Result) : Prop :=
  p.due = .aborted → result.ec = some .operationAborted

instance (p : Pending) (result : Result) : Decidable (p.Admits result) :=
  inferInstanceAs (Decidable (_ → _))

/-- The first frame goes on. -/
def goOn (s : WebsocketSession) : Frame → Option WebsocketSession
  | .shutdown => if s.Polled then some s.endShutdown.returned else none
  | .reconnect => if s.Polled then some s.endShutdown.armTimer else none
  | .connectionError true => some s.reconnect
  | .connectionError false => some s
  | .connected => some (s.start .read)
  | .messageReceived => some (s.start .read)

def react (isAddress : String → Bool) (s : WebsocketSession) : Event → Option WebsocketSession
  | .connect target resolved =>
    connect isAddress { s with down := false, wanted := true } target resolved
  | .reconnect _ => some (reconnect { s with down := false })
  | .shutdown => some (shutdown { s with wanted := false })
  | .setProxy host port => some { s with
      proxyHost := host
      proxyPort := port
      tcpClient := s.tcpClient.map fun client => (client.setProxy host port).2 }
  | .completed n result rejects => do
    let p ← s.ops[n]?
    if s.Polls ∧ p.Admits result then
      handle { s with ops := s.ops.eraseIdx n } p.op result rejects
    else none
  | .orphanCompleted =>
    if s.Polls ∧ 0 < s.orphans then some { s with orphans := s.orphans - 1, undefined := true }
    else none
  | .timerExpires =>
    if s.timer then some { s with timer := false, expired := s.expired + 1 } else none
  | .timerHandler resolved =>
    if s.Polls ∧ 0 < s.expired then
      connect isAddress (initSockets { s with expired := s.expired - 1 }) s.target resolved
    else none
  | .resume =>
    match s.calls with
    | [] => none
    | frame :: calls => goOn { s with calls := calls } frame

/-- After something undefined, nothing is known. -/
def step (isAddress : String → Bool) (s : WebsocketSession) (ev : Event) :
    Option WebsocketSession :=
  if s.undefined then none else s.react isAddress ev

/-! ## What is used is there -/

/-- A frame after which `m_websocket` is used. -/
def Frame.UsesStream : Frame → Prop
  | .connectionError _ => False
  | _ => True

instance (frame : Frame) : Decidable frame.UsesStream :=
  match frame with
  | .connectionError _ => isFalse id
  | .shutdown | .reconnect | .connected | .messageReceived => isTrue trivial

/-- `m_websocket` is not going to be used. -/
def Unused (s : WebsocketSession) : Prop :=
  s.connected = false ∧ ∀ frame ∈ s.calls, ¬frame.UsesStream

instance (s : WebsocketSession) : Decidable s.Unused := inferInstanceAs (Decidable (_ ∧ _))

/-- An attempt to connect fails only when `m_websocket` is not going to be used. -/
def FailsUnused (s : WebsocketSession) : Event → Prop
  | .connect _ resolved => resolved.Refused → s.Unused
  | .timerHandler resolved => resolved.Refused → s.Unused
  | .completed n result _ => ∀ p ∈ s.ops[n]?, p.op.Refused result → s.Unused
  | _ => True

instance (s : WebsocketSession) (ev : Event) : Decidable (s.FailsUnused ev) :=
  match ev with
  | .connect _ resolved => inferInstanceAs (Decidable (resolved.Refused → s.Unused))
  | .timerHandler resolved => inferInstanceAs (Decidable (resolved.Refused → s.Unused))
  | .completed n result _ =>
    inferInstanceAs (Decidable (∀ p ∈ s.ops[n]?, p.op.Refused result → s.Unused))
  | .reconnect _ | .shutdown | .setProxy _ _ | .orphanCompleted | .timerExpires | .resume =>
    isTrue trivial

/-- A client is given up only when none of its operations is outstanding: by a `connect`, by the
handler of the timer, and when an attempt fails. -/
def DropsIdle (s : WebsocketSession) : Event → Prop
  | .connect _ _ => s.ops = []
  | .timerHandler _ => s.ops = []
  | .completed n result _ => ∀ p ∈ s.ops[n]?, p.op.Refused result → s.ops.eraseIdx n = []
  | _ => True

instance (s : WebsocketSession) (ev : Event) : Decidable (s.DropsIdle ev) :=
  match ev with
  | .connect _ _ | .timerHandler _ => inferInstanceAs (Decidable (s.ops = []))
  | .completed n result _ =>
    inferInstanceAs (Decidable (∀ p ∈ s.ops[n]?, p.op.Refused result → s.ops.eraseIdx n = []))
  | .reconnect _ | .shutdown | .setProxy _ _ | .orphanCompleted | .timerExpires | .resume =>
    isTrue trivial

/-- The event leads to no use of what is gone. -/
structure UsesLive (s : WebsocketSession) (ev : Event) : Prop where
  fails : s.FailsUnused ev
  drops : s.DropsIdle ev

instance (s : WebsocketSession) (ev : Event) : Decidable (s.UsesLive ev) :=
  decidable_of_iff (s.FailsUnused ev ∧ s.DropsIdle ev) ⟨fun h => ⟨h.1, h.2⟩, fun h => ⟨h.1, h.2⟩⟩

/-- If there is no client, nothing of it is used or outstanding, and of those before it nothing is
outstanding either. -/
structure Sane (s : WebsocketSession) : Prop where
  defined : s.undefined = false
  orphans : s.orphans = 0
  unused : s.tcpClient = none → s.Unused
  ops : s.tcpClient = none → s.ops = []

variable {isAddress : String → Bool} {s s' : WebsocketSession} {n : ℕ} {p : Pending}
  {frame : Frame} {outcome : Outcome}

theorem Sane.of_isSome (hdefined : s.undefined = false) (horphans : s.orphans = 0)
    (h : s.tcpClient.isSome) : s.Sane :=
  ⟨hdefined, horphans, fun hnone => by simp [hnone] at h, fun hnone => by simp [hnone] at h⟩

theorem Sane.isSome_of_op (h : s.Sane) (hp : s.ops[n]? = some p) : s.tcpClient.isSome := by
  by_contra hnone
  rw [h.ops (by simpa using hnone)] at hp
  cases hp

theorem Sane.isSome_of_connected (h : s.Sane) (hconnected : s.connected = true) :
    s.tcpClient.isSome := by
  by_contra hnone
  have hunused := (h.unused (by simpa using hnone)).1
  rw [hconnected] at hunused
  cases hunused

theorem Sane.isSome_of_frame (h : s.Sane) (hmem : frame ∈ s.calls) (huses : frame.UsesStream) :
    s.tcpClient.isSome := by
  by_contra hnone
  exact (h.unused (by simpa using hnone)).2 frame hmem huses

theorem start_eq (h : s.tcpClient.isSome) (op : Op) :
    s.start op = { s with ops := s.ops ++ [{ op := op }] } := by
  obtain ⟨client, hclient⟩ := Option.isSome_iff_exists.mp h
  unfold start
  rw [hclient]

theorem beginShutdown_eq (h : s.tcpClient.isSome) (frame : Frame) : s.beginShutdown frame =
    { s with timer := false, ops := s.ops.map Pending.cancel, calls := frame :: s.calls } := by
  obtain ⟨client, hclient⟩ := Option.isSome_iff_exists.mp h
  unfold beginShutdown
  rw [hclient]

theorem endShutdown_eq (h : s.tcpClient.isSome) : s.endShutdown =
    { s with ops := s.ops.map Pending.close, connecting := false, connected := false } := by
  obtain ⟨client, hclient⟩ := Option.isSome_iff_exists.mp h
  unfold endShutdown
  rw [hclient]

theorem onTcpClientConnectFailed_eq (h : s.tcpClient.isSome) :
    s.onTcpClientConnectFailed = s.dropClient.handleConnectError true :=
  if_pos h

/-- `connect` makes a new client, and does what that one says. -/
theorem connect_spec (isAddress : String → Bool) (s : WebsocketSession) (target : String)
    (resolved : Resolved) : ∃ client outcome, s.connect isAddress target resolved =
        some (settle { s.initSockets with
          connecting := true, target := target, tcpClient := some client } outcome) ∧
      (outcome = .silent ↔ resolved = .error .operationAborted) ∧
      ((∃ ec, outcome = .connectFailed ec) ↔ resolved.Refused) := by
  obtain ⟨client, outcome, hconnect, hsilent, hrefused⟩ :=
    SecuredTcpClient.connect_new isAddress resolved
      (SecuredTcpClient.setProxy_connected s.proxyHost s.proxyPort)
      (SecuredTcpClient.setProxy_proxy_connected (c := {}) rfl s.proxyHost s.proxyPort)
  refine ⟨client, outcome, ?_, hsilent, hrefused⟩
  simp [connect, initSockets, hconnect]

theorem Sane.settle (hdefined : s.undefined = false) (horphans : s.orphans = 0)
    (hclient : s.tcpClient.isSome)
    (hfails : (∃ ec, outcome = .connectFailed ec) → s.Unused ∧ s.ops = []) :
    (s.settle outcome).Sane := by
  cases outcome with
  | started op =>
    show (s.start (.client op)).Sane
    rw [start_eq hclient]
    exact .of_isSome hdefined horphans hclient
  | connected =>
    show (s.start .handshake).Sane
    rw [start_eq hclient]
    exact .of_isSome hdefined horphans hclient
  | connectFailed ec =>
    show s.onTcpClientConnectFailed.Sane
    rw [onTcpClientConnectFailed_eq hclient]
    obtain ⟨⟨hconnected, hframes⟩, hops⟩ := hfails ⟨ec, rfl⟩
    have hnone : s.orphans + s.ops.length = 0 := by rw [horphans, hops, List.length_nil]
    refine ⟨hdefined, hnone, fun _ => ⟨hconnected, fun frame hmem => ?_⟩, fun _ => rfl⟩
    rcases List.mem_cons.mp hmem with rfl | hold
    · exact id
    · exact hframes frame hold
  | silent => exact .of_isSome hdefined horphans hclient

theorem Sane.connect (hdefined : s.undefined = false) (horphans : s.orphans = 0)
    (hops : s.ops = []) {target : String} {resolved : Resolved}
    (hfails : resolved.Refused → s.Unused)
    (hconnect : s.connect isAddress target resolved = some s') : s'.Sane := by
  obtain ⟨client, outcome, heq, -, hrefused⟩ := connect_spec isAddress s target resolved
  have hnone : s.orphans + s.ops.length = 0 := by rw [horphans, hops, List.length_nil]
  rw [← Option.some.inj (heq.symm.trans hconnect)]
  exact .settle hdefined hnone rfl fun hout => ⟨hfails (hrefused.mp hout), rfl⟩

theorem Sane.reconnect (h : s.Sane) : s.reconnect.Sane := by
  unfold WebsocketSession.reconnect
  split
  · rename_i hconnected
    have hclient := h.isSome_of_connected hconnected
    rw [beginShutdown_eq hclient]
    exact .of_isSome h.defined h.orphans hclient
  · exact ⟨h.defined, h.orphans, h.unused, h.ops⟩

theorem Sane.onWebsocketHandshakeFinished (h : s.Sane) {ec : Option ErrorCode}
    {rejects : Option Bool} (hclient : s.tcpClient.isSome) :
    (s.onWebsocketHandshakeFinished ec rejects).Sane := by
  cases ec with
  | none => exact .of_isSome h.defined h.orphans hclient
  | some ec => exact .of_isSome h.defined h.orphans hclient

/-- What a step comes to. -/
inductive StepCase (isAddress : String → Bool) (s : WebsocketSession) :
    Event → WebsocketSession → Prop
  | connect {target : String} {resolved : Resolved} {s' : WebsocketSession}
      (connects : connect isAddress { s with down := false, wanted := true } target resolved =
        some s') : StepCase isAddress s (.connect target resolved) s'
  | reconnect {now : Bool} :
      StepCase isAddress s (.reconnect now) (reconnect { s with down := false })
  | shutdown (connected : s.connected = true) : StepCase isAddress s .shutdown
      { s with
        wanted := false
        timer := false
        ops := s.ops.map Pending.cancel
        calls := .shutdown :: s.calls }
  | shutdownIdle (connected : s.connected = false) :
      StepCase isAddress s .shutdown { s with down := true, wanted := false }
  | setProxy {host : String} {port : Int} : StepCase isAddress s (.setProxy host port)
      { s with
        proxyHost := host
        proxyPort := port
        tcpClient := s.tcpClient.map fun client => (client.setProxy host port).2 }
  | completed {n : ℕ} {result : Result} {rejects : Option Bool} {p : Pending}
      {s' : WebsocketSession} (here : s.ops[n]? = some p) (polls : s.Polls)
      (admits : p.Admits result)
      (handled : handle { s with ops := s.ops.eraseIdx n } p.op result rejects = some s') :
      StepCase isAddress s (.completed n result rejects) s'
  | orphanCompleted (polls : s.Polls) (here : 0 < s.orphans) :
      StepCase isAddress s .orphanCompleted
        { s with orphans := s.orphans - 1, undefined := true }
  | timerExpires (timer : s.timer = true) : StepCase isAddress s .timerExpires
      { s with timer := false, expired := s.expired + 1 }
  | timerHandler {resolved : Resolved} {s' : WebsocketSession} (polls : s.Polls)
      (expired : 0 < s.expired)
      (connects : WebsocketSession.connect isAddress
        (initSockets { s with expired := s.expired - 1 }) s.target resolved = some s') :
      StepCase isAddress s (.timerHandler resolved) s'
  | shutdownEnds {calls : List Frame} (here : s.calls = .shutdown :: calls) (polled : s.Polled) :
      StepCase isAddress s .resume
        { s with
          calls := calls
          ops := s.ops.map Pending.close
          connecting := false
          connected := false
          down := true
          wanted := false }
  | reconnectEnds {calls : List Frame} (here : s.calls = .reconnect :: calls) (polled : s.Polled) :
      StepCase isAddress s .resume
        { s with
          calls := calls
          ops := s.ops.map Pending.close
          connecting := false
          connected := false
          timer := true }
  | retries {calls : List Frame} (here : s.calls = .connectionError true :: calls) :
      StepCase isAddress s .resume (WebsocketSession.reconnect { s with calls := calls })
  | abandons {calls : List Frame} (here : s.calls = .connectionError false :: calls) :
      StepCase isAddress s .resume { s with calls := calls }
  | reads {calls : List Frame}
      (here : s.calls = .connected :: calls ∨ s.calls = .messageReceived :: calls) :
      StepCase isAddress s .resume { s with calls := calls, ops := s.ops ++ [{ op := .read }] }

theorem step_cases (h : s.Sane) {ev : Event} (hstep : s.step isAddress ev = some s') :
    StepCase isAddress s ev s' := by
  unfold step at hstep
  rw [if_neg (by simp [h.defined])] at hstep
  cases ev with
  | connect target resolved => exact .connect hstep
  | reconnect now =>
    cases hstep
    exact .reconnect
  | shutdown =>
    cases hstep
    unfold WebsocketSession.shutdown
    split
    · rename_i hconnected
      rw [beginShutdown_eq (by exact h.isSome_of_connected hconnected)]
      exact .shutdown hconnected
    · rename_i hconnected
      exact .shutdownIdle (by simpa using hconnected)
  | setProxy host port =>
    cases hstep
    exact .setProxy
  | completed n result rejects =>
    obtain ⟨p, hp, hhandle⟩ := Option.bind_eq_some_iff.mp hstep
    split at hhandle
    · rename_i hadmits
      exact .completed hp hadmits.1 hadmits.2 hhandle
    · cases hhandle
  | orphanCompleted =>
    simp only [react, Option.ite_none_right_eq_some, Option.some.injEq] at hstep
    obtain ⟨⟨hpolls, hhere⟩, rfl⟩ := hstep
    exact .orphanCompleted hpolls hhere
  | timerExpires =>
    simp only [react, Option.ite_none_right_eq_some, Option.some.injEq] at hstep
    obtain ⟨htimer, rfl⟩ := hstep
    exact .timerExpires htimer
  | timerHandler resolved =>
    simp only [react, Option.ite_none_right_eq_some] at hstep
    exact .timerHandler hstep.1.1 hstep.1.2 hstep.2
  | resume =>
    unfold react at hstep
    cases hcalls : s.calls with
    | nil => simp [hcalls] at hstep
    | cons frame calls =>
      simp only [hcalls] at hstep
      have hmem : frame ∈ s.calls := hcalls ▸ List.mem_cons_self
      -- in each case but one the frame uses the stream, which is there as long as the frame is
      cases frame with
      | shutdown =>
        simp only [goOn, Option.ite_none_right_eq_some, Option.some.injEq] at hstep
        obtain ⟨hpolled, rfl⟩ := hstep
        rw [endShutdown_eq (by exact h.isSome_of_frame hmem trivial)]
        exact .shutdownEnds hcalls hpolled
      | reconnect =>
        simp only [goOn, Option.ite_none_right_eq_some, Option.some.injEq] at hstep
        obtain ⟨hpolled, rfl⟩ := hstep
        rw [endShutdown_eq (by exact h.isSome_of_frame hmem trivial)]
        exact .reconnectEnds hcalls hpolled
      | connectionError reconnect =>
        cases reconnect with
        | true =>
          cases hstep
          exact .retries hcalls
        | false =>
          cases hstep
          exact .abandons hcalls
      | connected =>
        cases hstep
        rw [start_eq (by exact h.isSome_of_frame hmem trivial)]
        exact .reads (Or.inl hcalls)
      | messageReceived =>
        cases hstep
        rw [start_eq (by exact h.isSome_of_frame hmem trivial)]
        exact .reads (Or.inr hcalls)

/-- What a handler comes to. -/
inductive HandleCase (s : WebsocketSession) :
    Op → Result → Option Bool → WebsocketSession → Prop
  | client {op : SecuredTcpClient.Op} {result : Result} {rejects : Option Bool}
      {client : SecuredTcpClient} (here : s.tcpClient = some client) :
      HandleCase s (.client op) result rejects (settle
        { s with tcpClient := some (client.completed op result).1 } (client.completed op result).2)
  | handshake {result : Result} {rejects : Option Bool} :
      HandleCase s .handshake result rejects (s.onWebsocketHandshakeFinished result.ec rejects)
  | read {result : Result} {rejects : Option Bool} :
      HandleCase s .read result rejects (s.onReadFinished result.ec)

theorem handle_cases {op : Op} {result : Result} {rejects : Option Bool}
    (h : s.handle op result rejects = some s') : HandleCase s op result rejects s' := by
  cases op with
  | client op =>
    obtain ⟨client, hclient, rfl⟩ := Option.map_eq_some_iff.mp h
    exact .client hclient
  | handshake =>
    cases h
    exact .handshake
  | read =>
    cases h
    exact .read

theorem Sane.tail (h : s.Sane) {calls : List Frame} (hhere : s.calls = frame :: calls) :
    Sane { s with calls := calls } :=
  ⟨h.defined, h.orphans, fun hnone => ⟨(h.unused hnone).1, fun other hmem =>
    (h.unused hnone).2 other (hhere ▸ List.mem_cons_of_mem _ hmem)⟩, h.ops⟩

theorem Sane.onReadFinished (h : s.Sane) (hclient : s.tcpClient.isSome) {ec : Option ErrorCode} :
    (s.onReadFinished ec).Sane := by
  cases ec with
  | none => exact .of_isSome h.defined h.orphans hclient
  | some ec => cases ec <;> exact .of_isSome h.defined h.orphans hclient

/-- Where no client is given up too early, and no attempt fails while the stream is going to be
used, what is used is there. -/
theorem Sane.step (h : s.Sane) {ev : Event} (hlive : s.UsesLive ev)
    (hstep : s.step isAddress ev = some s') : s'.Sane := by
  obtain ⟨hfails, hdrops⟩ := hlive
  cases step_cases h hstep with
  | connect hconnects =>
    refine Sane.connect ?_ ?_ ?_ ?_ hconnects
    · exact h.defined
    · exact h.orphans
    · exact hdrops
    · exact hfails
  | reconnect => exact Sane.reconnect ⟨h.defined, h.orphans, h.unused, h.ops⟩
  | shutdown hconnected =>
    exact .of_isSome h.defined h.orphans (h.isSome_of_connected hconnected)
  | shutdownIdle => exact ⟨h.defined, h.orphans, h.unused, h.ops⟩
  | setProxy =>
    exact ⟨h.defined, h.orphans, fun hnone => h.unused (by simpa using hnone),
      fun hnone => h.ops (by simpa using hnone)⟩
  | @completed n result rejects p _ hhere _ _ hhandled =>
    obtain ⟨op, due⟩ := p
    have hclient := h.isSome_of_op hhere
    have herased : Sane { s with ops := s.ops.eraseIdx n } :=
      .of_isSome h.defined h.orphans hclient
    cases handle_cases hhandled with
    | client hsome =>
      -- the client is dropped in the case of a failure, when nothing else of it may be outstanding
      refine .settle h.defined h.orphans rfl fun hout => ?_
      have hrefused := SecuredTcpClient.completed_connectFailed.mp hout
      exact ⟨hfails _ hhere hrefused, hdrops _ hhere hrefused⟩
    | handshake => exact herased.onWebsocketHandshakeFinished hclient
    | read => exact herased.onReadFinished hclient
  | orphanCompleted _ hhere =>
    rw [h.orphans] at hhere
    cases hhere
  | timerExpires => exact ⟨h.defined, h.orphans, h.unused, h.ops⟩
  | timerHandler _ _ hconnects =>
    -- the sockets are made twice, and the first of the two clients has nothing outstanding
    have hnone : s.orphans + s.ops.length = 0 := by
      rw [h.orphans, (hdrops : s.ops = []), List.length_nil]
    refine Sane.connect ?_ ?_ ?_ ?_ hconnects
    · exact h.defined
    · exact hnone
    · rfl
    · exact hfails
  | shutdownEnds hhere =>
    have hmem : Frame.shutdown ∈ s.calls := hhere ▸ List.mem_cons_self
    exact .of_isSome h.defined h.orphans (h.isSome_of_frame hmem trivial)
  | reconnectEnds hhere =>
    have hmem : Frame.reconnect ∈ s.calls := hhere ▸ List.mem_cons_self
    exact .of_isSome h.defined h.orphans (h.isSome_of_frame hmem trivial)
  | retries hhere => exact (h.tail hhere).reconnect
  | abandons hhere => exact h.tail hhere
  | reads hhere =>
    refine .of_isSome h.defined h.orphans ?_
    rcases hhere with hhere | hhere
    · have hmem : Frame.connected ∈ s.calls := hhere ▸ List.mem_cons_self
      exact h.isSome_of_frame hmem trivial
    · have hmem : Frame.messageReceived ∈ s.calls := hhere ▸ List.mem_cons_self
      exact h.isSome_of_frame hmem trivial

theorem sane_initial : Sane {} where
  defined := rfl
  orphans := rfl
  unused := fun _ => ⟨rfl, fun _ hmem => absurd hmem List.not_mem_nil⟩
  ops := fun _ => rfl

/-- A reconnect while the session connects: the connect of the first client completes after it. -/
example : (execs (step fun _ => false) {} [.connect "/synergy/sub/auth" .endpoints,
    .reconnect true, .timerExpires, .timerHandler .endpoints, .orphanCompleted]).undefined =
      true := by
  decide +kernel

end WebsocketSession

end Synergy