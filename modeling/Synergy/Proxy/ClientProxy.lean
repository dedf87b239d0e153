import Synergy.Lib.Run
import Synergy.Proxy.Writes

/-!
# The proxy of the clients

`ClientProxy` on the node whose core process is the server. For every `ProxyClientConnect` it dials
the core server once, in a coroutine of its own that makes up to 20 attempts, and a `CoreMessage` is
written to the first of `connections_` that has the client it comes from.

Before it dials again for a client, the handler stops the connection it finds for that client:
`stop` cancels what the read loop is waiting for and polls the `io_service`. Every other handler may
run within the poll, another `ProxyClientConnect` too, so those that wait in their `stop` are a
stack. A poll returns when no handler is ready to run. An exception that nothing catches ends the
service; such events have no next state here.

Each `ProxyClientConnect` has a number, and what is made for it (the coroutine that dials, the
connection) is known by it. Every `CoreMessage` leaves a record of where it went.
-/

set_option autoImplicit false

namespace Synergy.ClientProxy

open Lib Proxy Protocol

def kConnectRetryLimit : Nat := 20

/-- One `ProxyClientConnect`. -/
structure Request where
  number : Nat
  client : Int32
  deriving DecidableEq

/-- Where a dialling coroutine is. -/
inductive Phase where
  | spawned
  /-- In `async_connect`. -/
  | connecting
  /-- About to be resumed from `async_connect`, which has succeeded or not. -/
  | connected
  | failed
  /-- In the wait before the next attempt, or about to be resumed from it. -/
  | pausing
  | rested
  deriving DecidableEq

structure Dial where
  request : Request
  attempt : Nat
  phase : Phase
  deriving DecidableEq

/-- Where the read loop of a connection is. A loop that has ended has removed its connection. -/
inductive Loop where
  | spawned
  /-- In a read. -/
  | reading
  /-- About to be resumed from a read, which has succeeded or not. -/
  | queued (ok : Bool)
  deriving DecidableEq

structure Connection where
  request : Request
  loop : Loop
  deriving DecidableEq

/-- What became of a `CoreMessage`: which request was the latest of its client, whether there was a
connection for that, and the request whose connection it was written to. -/
structure Delivery where
  client : Int32
  data : List UInt8
  latest : Option Request
  established : Bool
  target : Option Request
  deriving DecidableEq

structure Node where
  /-- Every `ProxyClientConnect`, the latest first. -/
  requests : List Request
  dials : List Dial
  /-- `connections_` -/
  connections : List Connection
  /-- The requests whose handlers wait in `stop`, innermost first. -/
  stopping : List Request
  deliveries : List Delivery
  deriving DecidableEq

inductive Event where
  | proxyClientConnect (client : Int32)
  /-- The innermost poll returns. -/
  | proceed
  /-- The dialling coroutine of a request runs. -/
  | run (r : Request)
  /-- Its `async_connect` is done. -/
  | connected (r : Request) (ok : Bool)
  /-- Its timer expires. -/
  | rested (r : Request)
  /-- The read of the connection of a request is done. -/
  | read (r : Request) (ok : Bool)
  /-- The read loop of that connection runs, and reads on if it can and wants to. -/
  | resume (r : Request) (more : Bool)
  | coreMessage (client : Int32) (data : Data)

def initial : Node :=
  { requests := [], dials := [], connections := [], stopping := [], deliveries := [] }

namespace Node

/-- The most recent `ProxyClientConnect` of a client. -/
def latest (s : Node) (client : Int32) : Option Request :=
  s.requests.find? fun r => r.client = client

/-- `ClientProxy::connect`. -/
def connect (s : Node) (r : Request) : Node :=
  { s with dials := s.dials ++ [{ request := r, attempt := 1, phase := .spawned }] }

def setDial (s : Node) (r : Request) (f : Dial → Dial) : Node :=
  { s with dials := s.dials.map fun a => if a.request = r then f a else a }

def dropDial (s : Node) (r : Request) : Node :=
  { s with dials := s.dials.filter fun a => a.request ≠ r }

def setLoop (s : Node) (r : Request) (loop : Loop) : Node :=
  { s with
    connections := s.connections.map fun x => if x.request = r then { x with loop := loop } else x }

/-- `on_disconnect`. -/
def disconnect (s : Node) (r : Request) : Node :=
  { s with connections := s.connections.filter fun x => x.request ≠ r }

/-- `socket_.cancel ()`: a read that is outstanding is aborted. -/
def cancel (s : Node) (x : Connection) : Node :=
  if x.loop = .reading then s.setLoop x.request (.queued false) else s

/-- `stop` of a connection up to the poll, in the handler of a request. -/
def stop (s : Node) (x : Connection) (r : Request) : Node :=
  { s.cancel x with stopping := r :: s.stopping }

def ask (s : Node) (r : Request) : Node := { s with requests := r :: s.requests }

/-- `handle (ProxyClientConnect)`, up to the poll if there is a connection to stop. -/
def handleConnect (s : Node) (client : Int32) : Node :=
  let r : Request := ⟨s.requests.length, client⟩
  match s.connections.find? fun x => x.request.client = client with
  | some x => (s.ask r).stop x r
  | none => (s.ask r).connect r

/-- The dialling coroutine between two places where it is suspended. -/
def runDial (s : Node) (a : Dial) : Option Node :=
  match a.phase with
  | .spawned => some (s.setDial a.request ({ · with phase := .connecting }))
  | .connected =>
    let s := s.dropDial a.request
    some { s with connections := s.connections ++ [{ request := a.request, loop := .spawned }] }
  | .failed => some (s.setDial a.request ({ · with phase := .pausing }))
  | .rested =>
    if a.attempt < kConnectRetryLimit then
      some (s.setDial a.request fun a => { a with attempt := a.attempt + 1, phase := .connecting })
    else some (s.dropDial a.request)
  | _ => none

/-- The read loop between two places where it is suspended. -/
def runLoop (s : Node) (x : Connection) (more : Bool) : Option Node :=
  match x.loop with
  | .spawned => some (s.setLoop x.request .reading)
  | .queued true => some (if more then s.setLoop x.request .reading else s.disconnect x.request)
  | .queued false => some (s.disconnect x.request)
  | .reading => none

/-- `handle (CoreMessage)`. -/
def handleMessage (s : Node) (client : Int32) (data : Data) : Node :=
  { s with
    deliveries := s.deliveries ++
      [{ client := client
         data := data.bytes
         latest := s.latest client
         established := s.connections.any fun x =>
           x.request.client = client ∧ s.latest client = some x.request
         target := (s.connections.find? fun x => x.request.client = client).map (·.request) }] }

/-- Some coroutine is ready to run. -/
def ready (s : Node) : Bool :=
  s.dials.any (fun a => a.phase ≠ .connecting ∧ a.phase ≠ .pausing) ||
    s.connections.any fun x => x.loop ≠ .reading

end Node

def step (s : Node) : Event → Option Node
  | .proxyClientConnect client => some (s.handleConnect client)
  | .proceed =>
    match s.stopping with
    | [] => none
    | r :: rest => if s.ready then none else some { s.connect r with stopping := rest }
  | .run r => (s.dials.find? fun a => a.request = r).bind fun a => s.runDial a
  | .connected r ok =>
    (s.dials.find? fun a => a.request = r ∧ a.phase = .connecting).map fun a =>
      s.setDial a.request ({ · with phase := if ok then .connected else .failed })
  | .rested r =>
    (s.dials.find? fun a => a.request = r ∧ a.phase = .pausing).map fun a =>
      s.setDial a.request ({ · with phase := .rested })
  | .read r ok =>
    (s.connections.find? fun x => x.request = r ∧ x.loop = .reading).map fun x =>
      s.setLoop x.request (.queued ok)
  | .resume r more =>
    (s.connections.find? fun x => x.request = r).bind fun x => s.runLoop x more
  | .coreMessage client data => some (s.handleMessage client data)

/-- A client asks for a connection only when the one before is neither being dialled nor being
stopped, and can be stopped: its read loop waits in a read, or the read has failed. And while a
connection is being stopped, its client sends nothing. -/
def Orderly (s : Node) : Event → Prop
  | .proxyClientConnect client =>
    (∀ a ∈ s.dials, a.request.client ≠ client) ∧ (∀ r ∈ s.stopping, r.client ≠ client) ∧
      ∀ x ∈ s.connections, x.request.client = client → x.loop = .reading ∨ x.loop = .queued false
  | .coreMessage client _ =>
    ∀ r ∈ s.stopping, r.client = client → ∀ x ∈ s.connections, x.request.client ≠ client
  | _ => True

/-- A message goes to the connection of the latest request of its client, and nowhere if there is
none. -/
def Delivery.Right (d : Delivery) : Prop := d.target = if d.established then d.latest else none

instance : DecidablePred Delivery.Right :=
  fun d => inferInstanceAs (Decidable (d.target = if d.established then d.latest else none))

/-! ## The stages of a client

What there is of one client, and the operations on it: all of them go by requests, so they commute
with the restriction to a client. -/

namespace Node

def dialsOf (s : Node) (client : Int32) : List Dial :=
  s.dials.filter fun a => a.request.client = client

def connectionsOf (s : Node) (client : Int32) : List Connection :=
  s.connections.filter fun x => x.request.client = client

def stoppingOf (s : Node) (client : Int32) : List Request :=
  s.stopping.filter fun r => r.client = client

variable {s : Node} {client : Int32} {r : Request}

@[simp]
theorem mem_dialsOf {a : Dial} :
    a ∈ s.dialsOf client ↔ a ∈ s.dials ∧ a.request.client = client := by
  simp [dialsOf]

@[simp]
theorem mem_connectionsOf {x : Connection} :
    x ∈ s.connectionsOf client ↔ x ∈ s.connections ∧ x.request.client = client := by
  simp [connectionsOf]

@[simp]
theorem mem_stoppingOf : r ∈ s.stoppingOf client ↔ r ∈ s.stopping ∧ r.client = client := by
  simp [stoppingOf]

theorem find?_connections (s : Node) (client : Int32) :
    (s.connections.find? fun x => x.request.client = client) = (s.connectionsOf client).head? :=
  List.head?_filter.symm

theorem dialsOf_setDial {f : Dial → Dial} (hf : ∀ a, (f a).request = a.request) :
    (s.setDial r f).dialsOf client =
      (s.dialsOf client).map fun a => if a.request = r then f a else a := by
  unfold dialsOf setDial
  rw [List.filter_map]
  congr 2
  funext a
  simp only [Function.comp_apply]
  split
  · rw [hf]
  · rfl

theorem dialsOf_dropDial :
    (s.dropDial r).dialsOf client = (s.dialsOf client).filter fun a => a.request ≠ r := by
  simp only [dialsOf, dropDial, List.filter_filter, Bool.and_comm]

theorem dialsOf_connect_self :
    (s.connect r).dialsOf r.client = s.dialsOf r.client ++ [⟨r, 1, .spawned⟩] := by
  simp [dialsOf, connect]

theorem dialsOf_connect_ne (hne : r.client ≠ client) :
    (s.connect r).dialsOf client = s.dialsOf client := by
  simp [dialsOf, connect, hne]

theorem connectionsOf_setLoop {loop : Loop} :
    (s.setLoop r loop).connectionsOf client =
      (s.connectionsOf client).map fun x =>
        if x.request = r then { x with loop := loop } else x := by
  unfold connectionsOf setLoop
  rw [List.filter_map]
  congr 2
  funext x
  simp only [Function.comp_apply]
  split <;> rfl

theorem latest_ask_self : (s.ask r).latest r.client = some r := by
  simp [latest, ask]

theorem latest_ask_ne (hne : r.client ≠ client) : (s.ask r).latest client = s.latest client := by
  simp [latest, ask, hne]

theorem stoppingOf_stop_self {x : Connection} :
    (s.stop x r).stoppingOf r.client = r :: s.stoppingOf r.client :=
  List.filter_cons_of_pos (by simp)

theorem stoppingOf_stop_ne {x : Connection} (hne : r.client ≠ client) :
    (s.stop x r).stoppingOf client = s.stoppingOf client :=
  List.filter_cons_of_neg (by simpa using hne)

/-- Nothing but `connections_` is changed. -/
theorem cancel_eq (s : Node) (x : Connection) :
    s.cancel x = { s with connections := (s.cancel x).connections } := by
  unfold cancel
  split <;> rfl

/-- A connection whose read loop waits in a read, or has failed to read, is aborted. -/
theorem connectionsOf_cancel_self {x : Connection} (h : s.connectionsOf client = [x])
    (hloop : x.loop = .reading ∨ x.loop = .queued false) :
    ∃ y, (s.cancel x).connectionsOf client = [y] ∧ y.loop = .queued false := by
  unfold cancel
  rcases hloop with hreading | haborted
  · rw [if_pos hreading, connectionsOf_setLoop, h, List.map_singleton, if_pos rfl]
    exact ⟨{ x with loop := .queued false }, rfl, rfl⟩
  · rw [if_neg (by simp [haborted])]
    exact ⟨x, h, haborted⟩

theorem connectionsOf_cancel_ne {x : Connection} (hne : x.request.client ≠ client) :
    (s.cancel x).connectionsOf client = s.connectionsOf client := by
  unfold cancel
  split
  · rw [connectionsOf_setLoop]
    apply (List.map_congr_left _).trans (List.map_id _)
    intro y hy
    apply if_neg
    intro hrequest
    rw [← hrequest] at hne
    exact hne (mem_connectionsOf.mp hy).2
  · rfl

theorem connectionsOf_disconnect :
    (s.disconnect r).connectionsOf client =
      (s.connectionsOf client).filter fun x => x.request ≠ r := by
  simp only [connectionsOf, disconnect, List.filter_filter, Bool.and_comm]

end Node

/-- How far a client has come, by its latest request and what there is of it: it is being dialled,
or connected, or the connection before is being stopped or has been stopped. -/
inductive Stage : Option Request → List Dial → List Connection → List Request → Prop
  | idle {latest : Option Request} : Stage latest [] [] []
  | dialling (a : Dial) : Stage (some a.request) [a] [] []
  | connected (x : Connection) : Stage (some x.request) [] [x] []
  | stopping (r : Request) (x : Connection) (aborted : x.loop = .queued false) :
    Stage (some r) [] [x] [r]
  | stopped (r : Request) : Stage (some r) [] [] [r]

namespace Stage

variable {latest : Option Request} {dials : List Dial} {connections : List Connection}
  {stopping : List Request}

theorem mapDials (h : Stage latest dials connections stopping) {f : Dial → Dial}
    (hf : ∀ a, (f a).request = a.request) : Stage latest (dials.map f) connections stopping := by
  cases h with
  | idle => exact .idle
  | dialling a =>
    rw [← hf a]
    exact .dialling (f a)
  | connected x => exact .connected x
  | stopping r x aborted => exact .stopping r x aborted
  | stopped r => exact .stopped r

theorem filterDials (h : Stage latest dials connections stopping) (p : Dial → Bool) :
    Stage latest (dials.filter p) connections stopping := by
  cases h with
  | idle => exact .idle
  | dialling a =>
    rw [List.filter_singleton]
    cases p a with
    | true => exact .dialling a
    | false => exact .idle
  | connected x => exact .connected x
  | stopping r x aborted => exact .stopping r x aborted
  | stopped r => exact .stopped r

theorem filterConnections (h : Stage latest dials connections stopping) (p : Connection → Bool) :
    Stage latest dials (connections.filter p) stopping := by
  cases h with
  | idle => exact .idle
  | dialling a => exact .dialling a
  | connected x =>
    rw [List.filter_singleton]
    cases p x with
    | true => exact .connected x
    | false => exact .idle
  | stopping r x aborted =>
    rw [List.filter_singleton]
    cases p x with
    | true => exact .stopping r x aborted
    | false => exact .stopped r
  | stopped r => exact .stopped r

/-- A read loop that has not been aborted goes on. -/
theorem mapConnections (h : Stage latest dials connections stopping) {f : Connection → Connection}
    (hf : ∀ x, (f x).request = x.request)
    (haborted : ∀ x ∈ connections, x.loop = .queued false → f x = x) :
    Stage latest dials (connections.map f) stopping := by
  cases h with
  | idle => exact .idle
  | dialling a => exact .dialling a
  | connected x =>
    rw [← hf x]
    exact .connected (f x)
  | stopping r x aborted =>
    rw [List.map_singleton, haborted x (by simp) aborted]
    exact .stopping r x aborted
  | stopped r => exact .stopped r

theorem eq_singleton (h : Stage latest dials connections stopping) {x : Connection}
    (hx : x ∈ connections) : connections = [x] := by
  cases h with
  | idle => exact absurd hx (by simp)
  | dialling a => exact absurd hx (by simp)
  | connected y => rw [List.mem_singleton.mp hx]
  | stopping r y aborted => rw [List.mem_singleton.mp hx]
  | stopped r => exact absurd hx (by simp)

/-- The dialling coroutine has got its connection. -/
theorem establish (h : Stage latest dials connections stopping) {a : Dial} (ha : a ∈ dials) :
    Stage latest (dials.filter fun b => b.request ≠ a.request)
      (connections ++ [{ request := a.request, loop := .spawned }]) stopping := by
  cases h with
  | idle => exact absurd ha (by simp)
  | dialling b =>
    rw [List.mem_singleton.mp ha, List.filter_cons_of_neg (by simp), List.filter_nil]
    exact .connected { request := b.request, loop := .spawned }
  | connected x => exact absurd ha (by simp)
  | stopping r x aborted => exact absurd ha (by simp)
  | stopped r => exact absurd ha (by simp)

/-- No read loop is ready, so the one that was being stopped has ended. -/
theorem proceed (h : Stage latest dials connections stopping) {r : Request} (hr : r ∈ stopping)
    (hready : ∀ x ∈ connections, x.loop = .reading) :
    latest = some r ∧ dials = [] ∧ connections = [] ∧ stopping = [r] := by
  cases h with
  | idle => exact absurd hr (by simp)
  | dialling a => exact absurd hr (by simp)
  | connected x => exact absurd hr (by simp)
  | stopping q x aborted =>
    have hreading := hready x (by simp)
    rw [aborted] at hreading
    exact absurd hreading (by simp)
  | stopped q =>
    rw [List.mem_singleton.mp hr]
    exact ⟨rfl, rfl, rfl, rfl⟩

theorem length_le (h : Stage latest dials connections stopping) : connections.length ≤ 1 := by
  cases h <;> simp

/-- The connection that a message goes to. -/
theorem target_eq (h : Stage latest dials connections stopping)
    (hstop : ∀ r ∈ stopping, connections = []) :
    connections.head?.map (·.request) =
      if connections.any fun x => latest = some x.request then latest else none := by
  cases h with
  | idle => rfl
  | dialling a => rfl
  | connected x => simp
  | stopping r x aborted => exact absurd (hstop r (by simp)) (by simp)
  | stopped r => rfl

end Stage

def Staged (s : Node) : Prop :=
  ∀ client,
    Stage (s.latest client) (s.dialsOf client) (s.connectionsOf client) (s.stoppingOf client)

namespace Staged

variable {s s' : Node}

theorem unique (h : Staged s) {x y : Connection} (hx : x ∈ s.connections) (hy : y ∈ s.connections)
    (hxy : x.request.client = y.request.client) : x = y := by
  have hsingle := (h y.request.client).eq_singleton (Node.mem_connectionsOf.mpr ⟨hy, rfl⟩)
  have hmem : x ∈ s.connectionsOf y.request.client := Node.mem_connectionsOf.mpr ⟨hx, hxy⟩
  rw [hsingle] at hmem
  exact List.mem_singleton.mp hmem

theorem setDial (h : Staged s) (r : Request) {f : Dial → Dial}
    (hf : ∀ a, (f a).request = a.request) : Staged (s.setDial r f) := by
  intro client
  rw [Node.dialsOf_setDial hf]
  apply (h client).mapDials
  intro a
  split
  · exact hf a
  · rfl

theorem dropDial (h : Staged s) (r : Request) : Staged (s.dropDial r) := by
  intro client
  rw [Node.dialsOf_dropDial]
  exact (h client).filterDials _

theorem disconnect (h : Staged s) (r : Request) : Staged (s.disconnect r) := by
  intro client
  rw [Node.connectionsOf_disconnect]
  exact (h client).filterConnections _

theorem setLoop (h : Staged s) {x : Connection} (hx : x ∈ s.connections)
    (hloop : x.loop ≠ .queued false) (loop : Loop) : Staged (s.setLoop x.request loop) := by
  intro client
  rw [Node.connectionsOf_setLoop]
  apply (h client).mapConnections
  · intro y
    split <;> rfl
  · intro y hy haborted
    apply if_neg
    intro hrequest
    have heq : y = x := h.unique (Node.mem_connectionsOf.mp hy).1 hx (by rw [hrequest])
    rw [heq] at haborted
    exact hloop haborted

theorem establish (h : Staged s) {a : Dial} (ha : a ∈ s.dials) :
    Staged
      { s.dropDial a.request with
        connections := s.connections ++ [{ request := a.request, loop := .spawned }] } := by
  intro client
  show Stage (s.latest client) ((s.dropDial a.request).dialsOf client)
    ((s.connections ++ [_]).filter fun x => x.request.client = client) (s.stoppingOf client)
  rw [Node.dialsOf_dropDial, List.filter_append]
  by_cases hclient : a.request.client = client
  · rw [List.filter_cons_of_pos (by simpa using hclient)]
    exact (h client).establish (Node.mem_dialsOf.mpr ⟨ha, hclient⟩)
  · rw [List.filter_cons_of_neg (by simpa using hclient), List.filter_nil, List.append_nil]
    exact (h client).filterDials _

theorem runDial (h : Staged s) {a : Dial} (ha : a ∈ s.dials) (hrun : s.runDial a = some s') :
    Staged s' := by
  unfold Node.runDial at hrun
  split at hrun
  · cases hrun
    exact h.setDial _ fun _ => rfl
  · cases hrun
    exact h.establish ha
  · cases hrun
    exact h.setDial _ fun _ => rfl
  · split at hrun
    · cases hrun
      exact h.setDial _ fun _ => rfl
    · cases hrun
      exact h.dropDial _
  · exact absurd hrun (by simp)

theorem runLoop (h : Staged s) {x : Connection} {more : Bool} (hx : x ∈ s.connections)
    (hrun : s.runLoop x more = some s') : Staged s' := by
  unfold Node.runLoop at hrun
  split at hrun
  · rename_i hloop
    cases hrun
    exact h.setLoop hx (by simp [hloop]) _
  · rename_i hloop
    split at hrun
    · cases hrun
      exact h.setLoop hx (by simp [hloop]) _
    · cases hrun
      exact h.disconnect _
  · cases hrun
    exact h.disconnect _
  · exact absurd hrun (by simp)

/-- The client has no connection. -/
theorem connect (h : Staged s) {r : Request} (hdials : s.dialsOf r.client = [])
    (hconnections : s.connectionsOf r.client = []) (hstopping : s.stoppingOf r.client = []) :
    Staged ((s.ask r).connect r) := by
  intro client
  show Stage ((s.ask r).latest client) (((s.ask r).connect r).dialsOf client)
    (s.connectionsOf client) (s.stoppingOf client)
  by_cases hclient : r.client = client
  · subst hclient
    rw [Node.latest_ask_self, Node.dialsOf_connect_self, hconnections, hstopping]
    show Stage _ (s.dialsOf r.client ++ _) _ _
    rw [hdials]
    exact .dialling ⟨r, 1, .spawned⟩
  · rw [Node.latest_ask_ne hclient, Node.dialsOf_connect_ne hclient]
    exact h client

/-- The client has a connection that can be stopped. -/
theorem stop (h : Staged s) {r : Request} {x : Connection} (hdials : s.dialsOf r.client = [])
    (hconnections : s.connectionsOf r.client = [x]) (hstopping : s.stoppingOf r.client = [])
    (hloop : x.loop = .reading ∨ x.loop = .queued false) : Staged ((s.ask r).stop x r) := by
  intro client
  have hlatest : ((s.ask r).stop x r).latest client = (s.ask r).latest client := by
    unfold Node.stop
    rw [Node.cancel_eq]
    rfl
  have hdialsOf : ((s.ask r).stop x r).dialsOf client = s.dialsOf client := by
    unfold Node.stop
    rw [Node.cancel_eq]
    rfl
  rw [hlatest, hdialsOf]
  show Stage _ _ (((s.ask r).cancel x).connectionsOf client) _
  by_cases hclient : r.client = client
  · subst hclient
    obtain ⟨y, hy, haborted⟩ := Node.connectionsOf_cancel_self (s := s.ask r) hconnections hloop
    rw [Node.latest_ask_self, Node.stoppingOf_stop_self, hdials, hy]
    show Stage _ _ _ (r :: s.stoppingOf r.client)
    rw [hstopping]
    exact .stopping r y haborted
  · have hx : x ∈ s.connectionsOf r.client := by rw [hconnections]; simp
    have hne : x.request.client ≠ client := by
      rw [(Node.mem_connectionsOf.mp hx).2]
      exact hclient
    rw [Node.latest_ask_ne hclient, Node.stoppingOf_stop_ne hclient,
      Node.connectionsOf_cancel_ne hne]
    exact h client

theorem handleConnect (h : Staged s) {client : Int32}
    (horderly : Orderly s (.proxyClientConnect client)) : Staged (s.handleConnect client) := by
  obtain ⟨hdials, hstopping, hloop⟩ := horderly
  have hnoDial : s.dialsOf client = [] := List.filter_eq_nil_iff.mpr (by simpa using hdials)
  have hnoStop : s.stoppingOf client = [] := List.filter_eq_nil_iff.mpr (by simpa using hstopping)
  unfold Node.handleConnect
  dsimp only
  rw [Node.find?_connections]
  split
  · rename_i x hhead
    have hx : x ∈ s.connectionsOf client := List.mem_of_head? hhead
    apply h.stop hnoDial ((h client).eq_singleton hx) hnoStop
    exact hloop x (Node.mem_connectionsOf.mp hx).1 (Node.mem_connectionsOf.mp hx).2
  · rename_i hhead
    exact h.connect hnoDial (List.head?_eq_none_iff.mp hhead) hnoStop

theorem proceed (h : Staged s) {r : Request} {rest : List Request}
    (hstopping : s.stopping = r :: rest) (hready : ¬ s.ready) :
    Staged { s.connect r with stopping := rest } := by
  intro client
  have hcons : s.stoppingOf client = (r :: rest).filter fun q => q.client = client := by
    rw [← hstopping]
    rfl
  have hstage := h client
  show Stage (s.latest client) ((s.connect r).dialsOf client) (s.connectionsOf client)
    (rest.filter fun q => q.client = client)
  by_cases hclient : r.client = client
  · rw [List.filter_cons_of_pos (by simpa using hclient)] at hcons
    have hreading : ∀ x ∈ s.connectionsOf client, x.loop = .reading := by
      intro x hx
      by_contra hloop
      apply hready
      unfold Node.ready
      rw [Bool.or_eq_true, List.any_eq_true, List.any_eq_true]
      exact .inr ⟨x, (Node.mem_connectionsOf.mp hx).1, by simpa using hloop⟩
    obtain ⟨hlatest, hdials, hconnections, hnil⟩ :=
      hstage.proceed (r := r) (by rw [hcons]; simp) hreading
    rw [hcons] at hnil
    rw [hlatest, hconnections, (List.cons.inj hnil).2, ← hclient, Node.dialsOf_connect_self,
      hclient, hdials]
    exact .dialling ⟨r, 1, .spawned⟩
  · rw [List.filter_cons_of_neg (by simpa using hclient)] at hcons
    rw [Node.dialsOf_connect_ne hclient, ← hcons]
    exact hstage

theorem step {ev : Event} (h : Staged s) (horderly : Orderly s ev)
    (hstep : ClientProxy.step s ev = some s') : Staged s' := by
  cases ev with
  | proxyClientConnect client =>
    cases hstep
    exact h.handleConnect horderly
  | proceed =>
    simp only [ClientProxy.step] at hstep
    split at hstep
    · exact absurd hstep (by simp)
    · rename_i r rest hstopping
      obtain ⟨hready, heq⟩ := Option.ite_none_left_eq_some.mp hstep
      cases heq
      exact h.proceed hstopping hready
  | run r =>
    obtain ⟨a, hfind, hrun⟩ := Option.bind_eq_some_iff.mp hstep
    exact h.runDial (List.mem_of_find?_eq_some hfind) hrun
  | connected r ok =>
    obtain ⟨a, -, rfl⟩ := Option.map_eq_some_iff.mp hstep
    exact h.setDial _ fun _ => rfl
  | rested r =>
    obtain ⟨a, -, rfl⟩ := Option.map_eq_some_iff.mp hstep
    exact h.setDial _ fun _ => rfl
  | read r ok =>
    obtain ⟨x, hfind, rfl⟩ := Option.map_eq_some_iff.mp hstep
    have hreading : x.request = r ∧ x.loop = .reading := by simpa using List.find?_some hfind
    apply h.setLoop (List.mem_of_find?_eq_some hfind)
    simp [hreading.2]
  | resume r more =>
    obtain ⟨x, hfind, hrun⟩ := Option.bind_eq_some_iff.mp hstep
    exact h.runLoop (List.mem_of_find?_eq_some hfind) hrun
  | coreMessage client data =>
    cases hstep
    exact h

theorem delivered (h : Staged s) {client : Int32} {data : Data}
    (horderly : Orderly s (.coreMessage client data)) (hright : ∀ d ∈ s.deliveries, d.Right) :
    ∀ d ∈ (s.handleMessage client data).deliveries, d.Right := by
  intro d hd
  rcases List.mem_append.mp hd with hold | hnew
  · exact hright d hold
  · rw [List.mem_singleton.mp hnew]
    unfold Delivery.Right
    dsimp only
    have hany : (s.connectionsOf client).any (fun x => s.latest client = some x.request) =
        s.connections.any fun x =>
          x.request.client = client ∧ s.latest client = some x.request := by
      simp [Node.connectionsOf, List.any_filter]
    rw [Node.find?_connections, ← hany]
    apply (h client).target_eq
    intro r hr
    apply List.filter_eq_nil_iff.mpr
    intro x hx
    have hr := Node.mem_stoppingOf.mp hr
    simpa using horderly r hr.1 hr.2 x hx

end Staged

namespace Node

theorem deliveries_handleConnect (s : Node) (client : Int32) :
    (s.handleConnect client).deliveries = s.deliveries := by
  unfold handleConnect
  dsimp only
  split
  · unfold stop
    rw [cancel_eq]
    rfl
  · rfl

theorem deliveries_runDial {s s' : Node} {a : Dial} (h : s.runDial a = some s') :
    s'.deliveries = s.deliveries := by
  unfold runDial at h
  split at h
  · cases h
    rfl
  · cases h
    rfl
  · cases h
    rfl
  · split at h
    · cases h
      rfl
    · cases h
      rfl
  · exact absurd h (by simp)

theorem deliveries_runLoop {s s' : Node} {x : Connection} {more : Bool}
    (h : s.runLoop x more = some s') : s'.deliveries = s.deliveries := by
  unfold runLoop at h
  split at h
  · cases h
    rfl
  · split at h
    · cases h
      rfl
    · cases h
      rfl
  · cases h
    rfl
  · exact absurd h (by simp)

end Node

/-- Only a `CoreMessage` is delivered. -/
theorem deliveries_step {s s' : Node} {ev : Event} (h : step s ev = some s') :
    s'.deliveries = s.deliveries ∨
      ∃ client data, ev = .coreMessage client data ∧ s' = s.handleMessage client data := by
  cases ev with
  | proxyClientConnect client =>
    cases h
    exact .inl (s.deliveries_handleConnect client)
  | proceed =>
    left
    simp only [step] at h
    split at h
    · exact absurd h (by simp)
    · obtain ⟨-, heq⟩ := Option.ite_none_left_eq_some.mp h
      cases heq
      rfl
  | run r =>
    obtain ⟨a, -, hrun⟩ := Option.bind_eq_some_iff.mp h
    exact .inl (Node.deliveries_runDial hrun)
  | connected r ok =>
    obtain ⟨a, -, rfl⟩ := Option.map_eq_some_iff.mp h
    exact .inl rfl
  | rested r =>
    obtain ⟨a, -, rfl⟩ := Option.map_eq_some_iff.mp h
    exact .inl rfl
  | read r ok =>
    obtain ⟨x, -, rfl⟩ := Option.map_eq_some_iff.mp h
    exact .inl rfl
  | resume r more =>
    obtain ⟨x, -, hrun⟩ := Option.bind_eq_some_iff.mp h
    exact .inl (Node.deliveries_runLoop hrun)
  | coreMessage client data =>
    cases h
    exact .inr ⟨client, data, rfl, rfl⟩

/-- **One connection per client, and what a client sends goes to the latest, where the requests of
a client do not overtake one another.** -/
theorem one_connection {s : Node} (h : Run step Orderly initial s) :
    (s.connections.map (·.request.client)).Nodup ∧ ∀ d ∈ s.deliveries, d.Right := by
  have hinv : Staged s ∧ ∀ d ∈ s.deliveries, d.Right := by
    apply h.invariant
    · exact ⟨fun _ => .idle, by simp [initial]⟩
    · intro s s' ev _ hs horderly hstep
      refine ⟨hs.1.step horderly hstep, ?_⟩
      rcases deliveries_step hstep with heq | ⟨client, data, rfl, rfl⟩
      · rw [heq]
        exact hs.2
      · exact hs.1.delivered horderly hs.2
  refine ⟨?_, hinv.2⟩
  apply List.nodup_iff_count.mpr
  intro client
  have hcount : (s.connections.map (·.request.client)).count client =
      (s.connectionsOf client).length := by
    rw [List.count, List.countP_map, List.countP_eq_length_filter]
    rfl
  rw [hcount]
  exact (hinv.1 client).length_le

/-! ## Requests that overtake one another -/

def keepAlive : Data := ⟨MessageType.keepAlive.tag, by decide +kernel⟩

instance (s : Node) : (ev : Event) → Decidable (Orderly s ev)
  | .proxyClientConnect client =>
    inferInstanceAs (Decidable ((∀ a ∈ s.dials, a.request.client ≠ client) ∧
      (∀ r ∈ s.stopping, r.client ≠ client) ∧
      ∀ x ∈ s.connections, x.request.client = client → x.loop = .reading ∨ x.loop = .queued false))
  | .coreMessage client _ =>
    inferInstanceAs (Decidable
      (∀ r ∈ s.stopping, r.client = client → ∀ x ∈ s.connections, x.request.client ≠ client))
  | .proceed => isTrue trivial
  | .run _ => isTrue trivial
  | .connected _ _ => isTrue trivial
  | .rested _ => isTrue trivial
  | .read _ _ => isTrue trivial
  | .resume _ _ => isTrue trivial

/-- Client 5 is connected at the second attempt, connected anew, and then keeps it alive. -/
theorem one_connection_anew :
    let s := execs step initial
      [.proxyClientConnect 5, .run ⟨0, 5⟩, .connected ⟨0, 5⟩ false, .run ⟨0, 5⟩, .rested ⟨0, 5⟩,
        .run ⟨0, 5⟩, .connected ⟨0, 5⟩ true, .run ⟨0, 5⟩, .resume ⟨0, 5⟩ true,
        .proxyClientConnect 5, .resume ⟨0, 5⟩ true, .proceed, .run ⟨1, 5⟩,
        .connected ⟨1, 5⟩ true, .run ⟨1, 5⟩, .resume ⟨1, 5⟩ true, .coreMessage 5 keepAlive]
    s.deliveries.map (·.target) = [some ⟨1, 5⟩] ∧
      (s.connections.map (·.request.client)).Nodup ∧ ∀ d ∈ s.deliveries, d.Right :=
  ⟨by decide +kernel, one_connection (Run.nil.execs (by decide +kernel))⟩

/-- Client 5 asks again while it is being dialled. -/
theorem not_one_connection : ¬ ∀ s, Run step (fun _ _ => True) initial s →
    (s.connections.map (·.request.client)).Nodup ∧ ∀ d ∈ s.deliveries, d.Right := by
  intro h
  have hone := h (execs step initial
    [.proxyClientConnect 5, .run ⟨0, 5⟩, .proxyClientConnect 5, .run ⟨1, 5⟩,
      .connected ⟨0, 5⟩ true, .connected ⟨1, 5⟩ true, .run ⟨0, 5⟩, .run ⟨1, 5⟩,
      .coreMessage 5 keepAlive])
    (Run.nil.execs (allOk_of_forall (fun _ _ => trivial) _ _))
  exact absurd hone (by decide +kernel)

end Synergy.ClientProxy
