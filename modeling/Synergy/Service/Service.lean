import Synergy.Lib.Run
import Synergy.Router.Router
import Synergy.Service.Session

/-!
# A router and its receive loops

One router, its connections and the one thread that runs them all. `Router::add` starts a
receive loop, the loop hands messages to the router, and `Router::remove` stops it; the
network, the timers and whoever else calls the router are events.

The thread is a stack. Handlers run where nothing else does, and they also run within
`Connection::stop`, which polls the `io_service` in the middle of `Router::remove`, which may
itself have been called from a handler. `remove` is therefore two steps, and what is beneath
it on the stack waits. When a poll has run out of handlers is left open: it may return at any
time. Messages to other routers are left out, since nothing here depends on them.
-/

set_option autoImplicit false

namespace Synergy

open Lib

/-- A function that is waiting for a handler or a poll to return. -/
inductive Frame
  /-- The receive loop of a connection, in `on_message` or `on_disconnect`. -/
  | loop (c : Connection)
  /-- `Router::remove`, in `stop`, which polls unless the loop is not enabled. -/
  | removing (c : Connection) (polls : Bool)
deriving DecidableEq

structure Service where
  router : Router
  sessions : Connection → Session
  /-- Innermost first. -/
  stack : List Frame

inductive Service.Event
  /-- A connection has been accepted or made, and `Router::add` is called. -/
  | add (c : Connection)
  /-- `Router::remove` is called, and not by a receive loop. -/
  | remove (c : Connection)
  | begin (c : Connection)
  | transfer (c : Connection) (ec : ErrorCode) (bytes : ℕ)
  | resume (c : Connection) (content : Content)
  | expire (c : Connection)
  | timeout (c : Connection)
  /-- What the topmost receive loop has called has returned. -/
  | proceed
  /-- The topmost `stop` has returned. `dead` enumerates the routes that `remove` finds. -/
  | finish (dead : List RouteTableEntry)

namespace Service

/-- Handlers run. -/
def polling (s : Service) : Bool :=
  match s.stack with
  | [] => true
  | .removing _ polls :: _ => polls
  | .loop _ :: _ => false

def setSession (s : Service) (c : Connection) (x : Session) : Service :=
  { s with sessions := Function.update s.sessions c x }

def push (s : Service) (f : Frame) : Service := { s with stack := f :: s.stack }

/-- `Router::add`. Where the addresses are taken nothing is started. -/
def add (s : Service) (c : Connection) : Service :=
  if s.router.connections.hasKey c.key then s
  else
    { s with router := (s.router.add c).1 }.setSession c { s.sessions c with loop := .spawned }

/-- `Router::remove`, as far as `stop`. -/
def remove (s : Service) (c : Connection) : Service :=
  (s.setSession c (s.sessions c).stop).push (.removing c (s.sessions c).enabled)

/-- The handler of `on_message`. A message for another router is forwarded. -/
def onMessage (s : Service) (c : Connection) (header : MessageHeader) (body : Body) : Service :=
  if header.dest ≠ s.router.id ∧ header.dest ≠ 0xFFFFFFFF then s
  else
    match body with
    | .helloMessage id => if id = s.router.id then s.remove c else s
    | .routeAdvertisement ra => { s with router := (s.router.integrateAdvertisement ra c).1 }
    | .routeRevocation rr => { s with router := (s.router.integrateRevocation rr c).1 }
    | _ => s

/-- The loop of `c` has run as far as `x`, and hands on what it has read. -/
def resumed (s : Service) (c : Connection) (x : Session)
    (message : Option (MessageHeader × Body)) : Service :=
  let s := s.setSession c x
  let s := if x.loop = .testing then s.push (.loop c) else s
  match message with
  | none => s
  | some (header, body) => s.onMessage c header body

/-- The loop of `c`, topmost but for `rest`, goes on. The handler of `on_disconnect` also asks
    for a new connection to the same peer, which is another `add` when it comes. -/
def proceed (s : Service) (c : Connection) (rest : List Frame) : Service :=
  let x := s.sessions c
  if x.loop = .leaving then { s.setSession c { x with loop := .ended } with stack := rest }
  else if x.test.2 then (s.setSession c x.test.1).remove c
  else { s.setSession c x.test.1 with stack := rest }

def step (s : Service) : Event → Option Service
  | .add c => if s.polling ∧ (s.sessions c).loop = .absent then some (s.add c) else none
  | .remove c => if s.polling ∧ (s.sessions c).loop ≠ .absent then some (s.remove c) else none
  | .begin c =>
    if s.polling ∧ (s.sessions c).loop = .spawned then
      some (s.setSession c (s.sessions c).begin)
    else none
  | .transfer c ec bytes => ((s.sessions c).transfer ec bytes).map (s.setSession c)
  | .resume c content =>
    if s.polling then
      ((s.sessions c).resume content).map fun (x, message) => s.resumed c x message
    else none
  | .expire c => (s.sessions c).expire.map (s.setSession c)
  | .timeout c => if s.polling then (s.sessions c).timeout.map (s.setSession c) else none
  | .proceed =>
    match s.stack with
    | .loop c :: rest => some (s.proceed c rest)
    | _ => none
  | .finish dead =>
    match s.stack with
    | .removing c _ :: rest =>
      if dead.Perm (s.router.deadRoutes c) then
        some { s with router := (s.router.remove c dead).1, stack := rest }
      else none
    | _ => none

/-- A router that has been started and has no connections yet. -/
def start (id : UInt32) : Service where
  router := .started id
  sessions _ := .initial
  stack := []

abbrev Run (ok : Service → Event → Prop) (s₀ : Service) : Service → Prop := Lib.Run step ok s₀

/-! ## What a step does -/

/-- What happened, when something did. -/
inductive StepCase (s : Service) : Event → Service → Prop
  | add (c : Connection) (polls : s.polling) (absent : (s.sessions c).loop = .absent) :
      StepCase s (.add c) (s.add c)
  | remove (c : Connection) (polls : s.polling) (added : (s.sessions c).loop ≠ .absent) :
      StepCase s (.remove c) (s.remove c)
  | begin (c : Connection) (polls : s.polling) (spawned : (s.sessions c).loop = .spawned) :
      StepCase s (.begin c) (s.setSession c (s.sessions c).begin)
  | transfer (c : Connection) (ec : ErrorCode) (bytes : ℕ) (x : Session)
      (done : (s.sessions c).transfer ec bytes = some x) :
      StepCase s (.transfer c ec bytes) (s.setSession c x)
  | resume (c : Connection) (content : Content) (polls : s.polling) (x : Session)
      (message : Option (MessageHeader × Body))
      (done : (s.sessions c).resume content = some (x, message)) :
      StepCase s (.resume c content) (s.resumed c x message)
  | expire (c : Connection) (x : Session) (done : (s.sessions c).expire = some x) :
      StepCase s (.expire c) (s.setSession c x)
  | timeout (c : Connection) (polls : s.polling) (x : Session)
      (done : (s.sessions c).timeout = some x) : StepCase s (.timeout c) (s.setSession c x)
  | proceed (c : Connection) (rest : List Frame) (top : s.stack = .loop c :: rest) :
      StepCase s .proceed (s.proceed c rest)
  | finish (dead : List RouteTableEntry) (c : Connection) (polls : Bool) (rest : List Frame)
      (top : s.stack = .removing c polls :: rest) (perm : dead.Perm (s.router.deadRoutes c)) :
      StepCase s (.finish dead) { s with router := (s.router.remove c dead).1, stack := rest }

theorem step_cases {s s' : Service} {ev : Event} (h : s.step ev = some s') :
    StepCase s ev s' := by
  cases ev with
  | add c =>
    obtain ⟨⟨hpolls, habsent⟩, heq⟩ := Option.ite_none_right_eq_some.mp h
    cases heq
    exact .add c hpolls habsent
  | remove c =>
    obtain ⟨⟨hpolls, hadded⟩, heq⟩ := Option.ite_none_right_eq_some.mp h
    cases heq
    exact .remove c hpolls hadded
  | begin c =>
    obtain ⟨⟨hpolls, hspawned⟩, heq⟩ := Option.ite_none_right_eq_some.mp h
    cases heq
    exact .begin c hpolls hspawned
  | transfer c ec bytes =>
    obtain ⟨x, hx, rfl⟩ := Option.map_eq_some_iff.mp h
    exact .transfer c ec bytes x hx
  | resume c content =>
    obtain ⟨hpolls, h⟩ := Option.ite_none_right_eq_some.mp h
    obtain ⟨⟨x, message⟩, hx, rfl⟩ := Option.map_eq_some_iff.mp h
    exact .resume c content hpolls x message hx
  | expire c =>
    obtain ⟨x, hx, rfl⟩ := Option.map_eq_some_iff.mp h
    exact .expire c x hx
  | timeout c =>
    obtain ⟨hpolls, h⟩ := Option.ite_none_right_eq_some.mp h
    obtain ⟨x, hx, rfl⟩ := Option.map_eq_some_iff.mp h
    exact .timeout c hpolls x hx
  | proceed =>
    simp only [step] at h
    split at h
    · rename_i c rest htop
      cases h
      exact .proceed c rest htop
    · exact absurd h (by simp)
  | finish dead =>
    simp only [step] at h
    split at h
    · rename_i c polls rest htop
      obtain ⟨hperm, heq⟩ := Option.ite_none_right_eq_some.mp h
      cases heq
      exact .finish dead c polls rest htop hperm
    · exact absurd h (by simp)

end Service

end Synergy
