import Synergy.Lib.Run
import Synergy.Proxy.Writes

/-!
# The proxy of the server

`ServerProxy` on a node whose core process is a client, and `CoreManager::switchServer`, which tells
it who the server is. Core clients connect to it, and the data of every `CoreMessage` that the
router receives is written to the last of `connections_`; who sent the message is not looked at.

`start` waits in `stop`, which polls the `io_service` twice, and while it does every other handler
may run, another `start` too. So a `start` is a step up to the first poll, one to the second and
one to its end, and those that wait are a stack. An exception that nothing catches ends the
service; such events have no next state here.

Every byte that is written carries where it comes from: the greeting of the proxy, or a core
message with its source and the `server_id_` of that moment.
-/

set_option autoImplicit false

namespace Synergy.ServerProxy

open Lib Proxy Protocol

inductive ProcessMode where
  | kUnknown
  | kServer
  | kClient
  deriving DecidableEq

/-- Where a byte comes from. -/
inductive Origin where
  | greeting
  | message (source : UInt32) (serverId : Int)
  deriving DecidableEq

/-- A core message came from the server of that moment. -/
def Origin.Obeyed : Origin → Prop
  | .greeting => True
  | .message source serverId => (source.toNat : Int) = serverId

instance : DecidablePred Origin.Obeyed
  | .greeting => isTrue trivial
  | .message source serverId => inferInstanceAs (Decidable ((source.toNat : Int) = serverId))

/-- Where an accept loop is: spawned, in `async_accept`, or about to be resumed from it. -/
inductive Accept where
  | spawned
  | waiting
  | accepted
  | aborted
  deriving DecidableEq

/-- A `ServerProxyConnection`. -/
structure Socket where
  opened : Bool
  /-- The read loop has said hello. -/
  greeted : Bool
  writes : Writes (UInt8 × Origin)
  deriving DecidableEq

/-- A `start` that waits in `stop`, in its first poll or, with the connections closed, in its
second. -/
structure Starting where
  serverId : Int
  closed : Bool
  deriving DecidableEq

structure Node where
  screenId : Int
  /-- The mode of the core process, and whether it may be started at all. -/
  mode : ProcessMode
  disabled : Bool
  /-- `server_id_`, -1 for none. -/
  serverId : Int
  accepts : List Accept
  /-- `connections_`, as indices of `sockets`. -/
  connections : List Nat
  /-- Every connection there ever was. -/
  sockets : List Socket
  /-- Innermost first. -/
  starting : List Starting
  deriving DecidableEq

inductive Event where
  /-- A claim: `CoreManager::switchServer`. -/
  | switchServer (serverId : Int)
  | setDisabled (disabled : Bool)
  /-- The poll of the innermost `start` returns. -/
  | proceed
  /-- A core client connects, and the `i`-th accept loop gets it. -/
  | connect (i : Nat)
  /-- The `i`-th accept loop runs. -/
  | resume (i : Nat)
  /-- The router receives a `CoreMessage`. -/
  | message (source : UInt32) (data : Data)
  /-- The read loop of a connection says hello. -/
  | greet (c : Nat)
  /-- The `i`-th unfinished write of a connection transfers `n` bytes. -/
  | transfer (c i n : Nat)
  /-- The read loop of a connection ends, in `on_disconnect`. -/
  | disconnect (c : Nat)

def initial (screenId : Int) : Node where
  screenId := screenId
  mode := .kUnknown
  disabled := false
  serverId := -1
  accepts := []
  connections := []
  sockets := []
  starting := []

/-- The hello of the proxy, version 1.6. -/
def hello : Data := ⟨MessageType.hello.tag ++ [0, 1, 0, 6], by decide +kernel⟩

namespace Node

/-- `CoreProcess::startServer` and `startClient`, as far as the mode goes. -/
def startServer (s : Node) : Node := if s.disabled then s else { s with mode := .kServer }

def startClient (s : Node) : Node := if s.disabled then s else { s with mode := .kClient }

/-- `acceptor_.cancel ()`. -/
def cancel (s : Node) : Node :=
  { s with accepts := s.accepts.map fun a => if a = .waiting then .aborted else a }

/-- `m_serverProxy.start (serverId)` up to the first poll, or all of it where there is nothing to
do; then `startClient`. -/
def start (s : Node) (serverId : Int) : Node :=
  if serverId = s.serverId then s.startClient
  else { s.cancel with starting := ⟨serverId, false⟩ :: s.starting }

/-- `CoreManager::switchServer`. -/
def switchServer (s : Node) (serverId : Int) : Node :=
  match s.mode with
  | .kServer => if s.screenId ≠ serverId then s.start serverId else s
  | .kClient => if s.screenId = serverId then s.startServer else s.start serverId
  | .kUnknown => if s.screenId = serverId then s.startServer else s.start serverId

/-- `close` of every connection. -/
def closeAll (s : Node) : Node :=
  { s with
    sockets := s.connections.foldl (fun sockets c => sockets.modify c ({ · with opened := false }))
      s.sockets }

/-- The rest of `start`, after `stop`, and `startClient`. -/
def started (s : Node) (serverId : Int) : Node :=
  { s with
    connections := []
    serverId := serverId
    accepts := if serverId = -1 then s.accepts else s.accepts ++ [Accept.spawned] }.startClient

/-- The body of an accept loop: the connection is kept and started, and the next one awaited. -/
def accept (s : Node) (i : Nat) : Node :=
  { s with
    connections := s.connections ++ [s.sockets.length]
    sockets := s.sockets ++ [{ opened := true, greeted := false, writes := .empty }]
    accepts := s.accepts.set i .waiting }

/-- Write a frame to a connection. -/
def write (s : Node) (c : Nat) (data : Data) (origin : Origin) : Node :=
  { s with
    sockets := s.sockets.modify c fun x =>
      { x with writes := x.writes.begin ((frame data).map (·, origin)) } }

/-- `ServerProxyMessageHandler::handle`. -/
def handle (s : Node) (source : UInt32) (data : Data) : Node :=
  match s.connections.getLast? with
  | none => s
  | some c => s.write c data (.message source s.serverId)

end Node

def step (s : Node) : Event → Option Node
  -- `start` throws for anything that is neither -1 nor a `uint32_t`
  | .switchServer serverId =>
    if -1 ≤ serverId ∧ serverId < 2 ^ 32 then some (s.switchServer serverId) else none
  | .setDisabled disabled => some { s with disabled := disabled }
  | .proceed =>
    match s.starting with
    | [] => none
    | ⟨serverId, false⟩ :: rest =>
      some { s.closeAll with starting := ⟨serverId, true⟩ :: rest }
    | ⟨serverId, true⟩ :: rest => some { s.started serverId with starting := rest }
  | .connect i =>
    match s.accepts[i]? with
    | some .waiting => some { s with accepts := s.accepts.set i .accepted }
    | _ => none
  | .resume i =>
    match s.accepts[i]? with
    | some .spawned => some { s with accepts := s.accepts.set i .waiting }
    -- the server id is cast to `uint32_t`, which throws for -1
    | some .accepted => if s.serverId = -1 then none else some (s.accept i)
    | some .aborted => some { s with accepts := s.accepts.eraseIdx i }
    | _ => none
  | .message source data => some (s.handle source data)
  | .greet c =>
    match s.sockets[c]? with
    | some x =>
      if x.greeted then none
      else
        some ({ s with sockets := s.sockets.set c { x with greeted := true } }.write c hello
          .greeting)
    | none => none
  | .transfer c i n =>
    match s.sockets[c]? with
    | some x =>
      if x.opened then
        (x.writes.writeSome i n).map fun writes =>
          { s with sockets := s.sockets.set c { x with writes := writes } }
      else none
    | none => none
  | .disconnect c => some { s with connections := s.connections.erase c }

/-- While there is a connection, core messages come from the server only. -/
def OnlyServer (s : Node) : Event → Prop
  | .message source _ => s.connections ≠ [] → (source.toNat : Int) = s.serverId
  | _ => True

/-- Every byte that is written or is to be written is the server's, or the greeting. -/
def Socket.Obedient (x : Socket) : Prop := x.writes.All fun b => b.2.Obeyed

def Obedient (s : Node) : Prop := ∀ x ∈ s.sockets, x.Obedient

/-! ## What a step does to the sockets -/

theorem forall_mem_modify {α : Type} {P : α → Prop} {l : List α} {f : α → α} (h : ∀ x ∈ l, P x)
    (hf : ∀ x, P x → P (f x)) (i : Nat) : ∀ x ∈ l.modify i f, P x := by
  induction l generalizing i with
  | nil => simp
  | cons a l ih =>
    have ha : P a := h a (by simp)
    have hl : ∀ x ∈ l, P x := fun x hx => h x (by simp [hx])
    cases i with
    | zero =>
      intro x hx
      rcases List.mem_cons.mp hx with heq | hmem
      · rw [heq]
        exact hf a ha
      · exact hl x hmem
    | succ i =>
      intro x hx
      rcases List.mem_cons.mp hx with heq | hmem
      · rw [heq]
        exact ha
      · exact ih hl i x hmem

theorem forall_mem_set {α : Type} {P : α → Prop} {l : List α} {a : α} (h : ∀ x ∈ l, P x) (ha : P a)
    (i : Nat) : ∀ x ∈ l.set i a, P x := by
  intro x hx
  rcases List.mem_or_eq_of_mem_set hx with hold | hnew
  · exact h x hold
  · rw [hnew]
    exact ha

namespace Obedient

variable {s : Node}

theorem congr {s' : Node} (h : Obedient s) (heq : s'.sockets = s.sockets) : Obedient s' := by
  unfold Obedient
  rw [heq]
  exact h

theorem startServer (h : Obedient s) : Obedient s.startServer := by
  apply h.congr
  unfold Node.startServer
  split <;> rfl

theorem startClient (h : Obedient s) : Obedient s.startClient := by
  apply h.congr
  unfold Node.startClient
  split <;> rfl

theorem start (h : Obedient s) (serverId : Int) : Obedient (s.start serverId) := by
  unfold Node.start
  split
  · exact h.startClient
  · exact h.congr rfl

theorem switchServer (h : Obedient s) (serverId : Int) : Obedient (s.switchServer serverId) := by
  unfold Node.switchServer
  cases s.mode with
  | kServer =>
    dsimp only
    split
    · exact h.start serverId
    · exact h
  | kClient =>
    dsimp only
    split
    · exact h.startServer
    · exact h.start serverId
  | kUnknown =>
    dsimp only
    split
    · exact h.startServer
    · exact h.start serverId

/-- Closing a socket leaves alone what was written to it. -/
theorem closeAll (h : Obedient s) : Obedient s.closeAll := by
  unfold Obedient Node.closeAll
  dsimp only
  generalize s.connections = connections
  induction connections generalizing s with
  | nil => exact h
  | cons c connections ih =>
    rw [List.foldl_cons]
    apply ih (s := { s with sockets := s.sockets.modify c ({ · with opened := false }) })
    apply forall_mem_modify h
    intro x hx
    exact hx

theorem started (h : Obedient s) (serverId : Int) : Obedient (s.started serverId) := by
  apply startClient
  exact h.congr rfl

theorem accept (h : Obedient s) (i : Nat) : Obedient (s.accept i) := by
  intro x hx
  rcases List.mem_append.mp hx with hold | hnew
  · exact h x hold
  · rw [List.mem_singleton.mp hnew]
    exact .empty

theorem write (h : Obedient s) (c : Nat) (data : Data) {origin : Origin} (horigin : origin.Obeyed) :
    Obedient (s.write c data origin) := by
  apply forall_mem_modify h
  intro x hx
  apply Writes.All.begin hx
  intro b hb
  obtain ⟨_, -, rfl⟩ := List.mem_map.mp hb
  exact horigin

theorem handle (h : Obedient s) {source : UInt32} (data : Data)
    (hserver : s.connections ≠ [] → (source.toNat : Int) = s.serverId) :
    Obedient (s.handle source data) := by
  unfold Node.handle
  split
  · exact h
  · rename_i c hlast
    apply h.write
    apply hserver
    intro hnil
    rw [hnil] at hlast
    exact absurd hlast (by simp)

theorem step {s' : Node} {ev : Event} (h : Obedient s) (hok : OnlyServer s ev)
    (hstep : ServerProxy.step s ev = some s') : Obedient s' := by
  cases ev with
  | switchServer serverId =>
    obtain ⟨-, heq⟩ := Option.ite_none_right_eq_some.mp hstep
    cases heq
    exact h.switchServer serverId
  | setDisabled disabled =>
    cases hstep
    exact h.congr rfl
  | proceed =>
    simp only [ServerProxy.step] at hstep
    split at hstep
    · exact absurd hstep (by simp)
    · cases hstep
      exact h.closeAll.congr rfl
    · cases hstep
      exact (h.started _).congr rfl
  | connect i =>
    simp only [ServerProxy.step] at hstep
    split at hstep
    · cases hstep
      exact h.congr rfl
    · exact absurd hstep (by simp)
  | resume i =>
    simp only [ServerProxy.step] at hstep
    split at hstep
    · cases hstep
      exact h.congr rfl
    · split at hstep
      · exact absurd hstep (by simp)
      · cases hstep
        exact h.accept i
    · cases hstep
      exact h.congr rfl
    · exact absurd hstep (by simp)
  | message source data =>
    -- the one event by which a stranger could make himself heard
    cases hstep
    exact h.handle data hok
  | greet c =>
    -- the greeting is of the proxy itself
    simp only [ServerProxy.step] at hstep
    split at hstep
    · rename_i x hx
      split at hstep
      · exact absurd hstep (by simp)
      · cases hstep
        apply write
        · apply forall_mem_set h
          exact (h x (List.mem_of_getElem? hx) :)
        · trivial
    · exact absurd hstep (by simp)
  | transfer c i n =>
    simp only [ServerProxy.step] at hstep
    split at hstep
    · rename_i x hx
      split at hstep
      · obtain ⟨writes, hwrites, rfl⟩ := Option.map_eq_some_iff.mp hstep
        exact forall_mem_set (P := Socket.Obedient) h
          ((h x (List.mem_of_getElem? hx)).writeSome hwrites) c
      · exact absurd hstep (by simp)
    · exact absurd hstep (by simp)
  | disconnect c =>
    cases hstep
    exact h.congr rfl

end Obedient

/-- **A core client obeys its server, where nobody else sends to it.** -/
theorem obeys_server {screenId : Int} {s : Node}
    (h : Lib.Run step OnlyServer (initial screenId) s) :
    ∀ x ∈ s.sockets, ∀ b ∈ x.writes.stream, b.2.Obeyed := by
  have hobedient : Obedient s := by
    apply h.invariant
    · exact fun x hx => absurd hx (by simp [initial])
    · intro s s' ev _ hs hok hstep
      exact hs.step hok hstep
  intro x hx
  exact (hobedient x hx).1

/-! ## Somebody else sends -/

def keystroke : Data := ⟨MessageType.keyDown.tag ++ [0, 97, 0, 0, 0, 38], by decide +kernel⟩

/-- Screen 7 becomes the server, and the core client connects. -/
def served : Node :=
  execs step (initial 1)
    [.switchServer 7, .proceed, .proceed, .resume 0, .connect 0, .resume 0, .greet 0,
      .transfer 0 0 15]

instance (s : Node) : (ev : Event) → Decidable (OnlyServer s ev)
  | .message source _ =>
    inferInstanceAs (Decidable (s.connections ≠ [] → (source.toNat : Int) = s.serverId))
  | .switchServer _ => isTrue trivial
  | .setDisabled _ => isTrue trivial
  | .proceed => isTrue trivial
  | .connect _ => isTrue trivial
  | .resume _ => isTrue trivial
  | .greet _ => isTrue trivial
  | .transfer _ _ _ => isTrue trivial
  | .disconnect _ => isTrue trivial

/-- The server sends a keystroke. -/
theorem obeys_server_served :
    ((execs step served [.message 7 keystroke, .transfer 0 0 14]).sockets.map
      (·.writes.stream.length)) = [29] ∧
    ∀ x ∈ (execs step served [.message 7 keystroke, .transfer 0 0 14]).sockets,
      ∀ b ∈ x.writes.stream, b.2.Obeyed :=
  ⟨by decide +kernel, obeys_server
    ((Run.nil.execs (by decide +kernel)).execs (by decide +kernel) :
      Lib.Run step OnlyServer (initial 1) _)⟩

/-- A keystroke comes from screen 9. -/
theorem not_obeys_server : ¬ ∀ s, Lib.Run step (fun _ _ => True) (initial 1) s →
    ∀ x ∈ s.sockets, ∀ b ∈ x.writes.stream, b.2.Obeyed := by
  intro h
  have hobeys := h (execs step served [.message 9 keystroke, .transfer 0 0 14])
    ((Run.nil.execs (allOk_of_forall (fun _ _ => trivial) _ _)).execs
      (allOk_of_forall (fun _ _ => trivial) _ _))
  exact absurd hobeys (by decide +kernel)

end Synergy.ServerProxy
