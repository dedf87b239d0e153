import Synergy.Lib.Flight
import Synergy.Lib.Run
import Synergy.Router.Calls

/-!
# A network of routers

Routers, the messages between them, and the events that move the whole: a connection is set
up, a connection breaks, a message arrives. Every router is a `Router`, and every event is
made of the operations of `Router.cpp` and nothing else.

A *port* is a `Connection` object of one router. The object on the other side of the wire
never changes while it exists, so which port faces which is a fixed involution, the
`Wiring`, and a port is *live* while its connection is in its router's `connections_`. A
message in flight carries the port it was sent on; the messages of one port form a queue.

There are two notions of step. `Local` lets one end act without the other, lets messages
overtake each other and lets them vanish. `step` is what a TCP link does: both ends are
added or removed together, a broken link loses what was on it, and a queue is first in,
first out. Every `step` is made of `Local` ones, so an invariant of the second is one of
the first.
-/

set_option autoImplicit false

namespace Synergy

open Lib

structure Port (ι : Type) where
  router : ι
  conn : Connection
deriving DecidableEq

/-- Which port is at the other end of the wire. -/
structure Wiring (ι : Type) where
  peer : Port ι → Port ι
  peer_peer : ∀ p, peer (peer p) = p

attribute [simp] Wiring.peer_peer

structure Network (ι : Type) where
  routers : ι → Router
  flight : List (Port ι × RouteMessage)

inductive Event (ι : Type)
  | connect (p : Port ι)
  /-- `dead` and `dead'` enumerate the routes that break at `p` and at its peer. -/
  | disconnect (p : Port ι) (dead dead' : List RouteTableEntry)
  | deliver (p : Port ι)

/-- An event that breaks nothing. -/
def Event.Grows {ι : Type} : Event ι → Prop
  | .disconnect _ _ _ => False
  | _ => True

instance {ι : Type} : (ev : Event ι) → Decidable ev.Grows
  | .disconnect _ _ _ => inferInstanceAs (Decidable False)
  | .connect _ | .deliver _ => inferInstanceAs (Decidable True)

variable {ι : Type} [DecidableEq ι]

/-- Connection `k` joins the two routers `ends k`; its two ports have swapped addresses. -/
def Wiring.ofLinks (ends : UInt32 → ι × ι) : Wiring ι where
  peer p := ⟨Equiv.swap (ends p.conn.id).1 (ends p.conn.id).2 p.router,
    ⟨p.conn.id, p.conn.localIp, p.conn.remoteIp⟩⟩
  peer_peer p := by simp

/-- The two ends of connection `k` when its addresses are `2 k` and `2 k + 1`. -/
def Port.near (i : ι) (k : ℕ) : Port ι := ⟨i, UInt32.ofNat k, 2 * k + 1, 2 * k⟩

@[inherit_doc Port.near]
def Port.far (i : ι) (k : ℕ) : Port ι := ⟨i, UInt32.ofNat k, 2 * k, 2 * k + 1⟩

namespace Network

/-- The messages sent on `p` that have not arrived, oldest first. -/
def queue (n : Network ι) (p : Port ι) : List RouteMessage := Flight.queue p n.flight

def Live (n : Network ι) (p : Port ι) : Prop := p.conn ∈ (n.routers p.router).connections

instance (n : Network ι) (p : Port ι) : Decidable (n.Live p) :=
  inferInstanceAs (Decidable (p.conn ∈ (n.routers p.router).connections.toList))

/-- The id of `p`'s connection is new to its router, and so is its pair of addresses. -/
def Fresh (n : Network ι) (p : Port ι) : Prop :=
  ∀ c ∈ (n.routers p.router).connections.toList, c.id ≠ p.conn.id ∧ c.key ≠ p.conn.key

instance (n : Network ι) (p : Port ι) : Decidable (n.Fresh p) :=
  inferInstanceAs (Decidable (∀ c ∈ (n.routers p.router).connections.toList, _))

/-! ## What a router does -/

/-- Router `i` becomes `out.1` and sends `out.2`. -/
def act (n : Network ι) (i : ι) (out : Router × Sends) : Network ι where
  routers := Function.update n.routers i out.1
  flight := n.flight ++ out.2.map fun s => (⟨i, s.1⟩, s.2)

def addEnd (n : Network ι) (p : Port ι) : Network ι :=
  n.act p.router ((n.routers p.router).add p.conn)

def removeEnd (n : Network ι) (p : Port ι) (dead : List RouteTableEntry) : Network ι :=
  n.act p.router ((n.routers p.router).remove p.conn dead)

/-- The message `m`, sent on `p`, arrives. -/
def receive (w : Wiring ι) (n : Network ι) (p : Port ι) (m : RouteMessage) : Network ι :=
  n.act (w.peer p).router ((n.routers (w.peer p).router).integrate m (w.peer p).conn)

/-- What was sent on `p` is lost. -/
def lose (n : Network ι) (p : Port ι) : Network ι := { n with flight := Flight.lose p n.flight }

/-! ## Steps -/

/-- One end at a time, in any order, with any losses. -/
inductive Local (w : Wiring ι) : Network ι → Network ι → Prop
  | add (n : Network ι) (p : Port ι) : Local w n (n.addEnd p)
  | remove (n : Network ι) (p : Port ι) (dead : List RouteTableEntry)
      (perm : dead.Perm ((n.routers p.router).deadRoutes p.conn)) :
      Local w n (n.removeEnd p dead)
  | deliver (n : Network ι) (before after : List (Port ι × RouteMessage)) (p : Port ι)
      (m : RouteMessage) (split : n.flight = before ++ (p, m) :: after) :
      Local w n (receive w { n with flight := before ++ after } p m)
  | lose (n : Network ι) (flight : List (Port ι × RouteMessage))
      (sub : flight.Sublist n.flight) : Local w n { n with flight := flight }

/-- One event of a network of links; `none` where it cannot happen. -/
def step (w : Wiring ι) (n : Network ι) : Event ι → Option (Network ι)
  | .connect p =>
    if n.Fresh p ∧ (n.addEnd p).Fresh (w.peer p) then some ((n.addEnd p).addEnd (w.peer p))
    else none
  | .disconnect p dead dead' =>
    let n' := n.removeEnd p dead
    if n.Live p ∧ dead.Perm ((n.routers p.router).deadRoutes p.conn) ∧
        dead'.Perm ((n'.routers (w.peer p).router).deadRoutes (w.peer p).conn) then
      some (((n'.removeEnd (w.peer p) dead').lose p).lose (w.peer p))
    else none
  | .deliver p =>
    (Flight.takeFirst p n.flight).map fun (m, rest) => receive w { n with flight := rest } p m

/-- The routers have been started and have met nobody. -/
def start (ids : ι → UInt32) : Network ι where
  routers i := Router.started (ids i)
  flight := []

/-- The states reached by events that are all `ok` when their turn comes. -/
abbrev Run (w : Wiring ι) (ok : Network ι → Event ι → Prop) (n₀ : Network ι) :
    Network ι → Prop :=
  Lib.Run (step w) ok n₀

/-- `step`, or nothing where the event cannot happen. -/
abbrev exec (w : Wiring ι) (n : Network ι) (ev : Event ι) : Network ι := Lib.exec (step w) n ev

/-- The connection of `p` breaks; each end finds what it loses in the order of its table. -/
def cut (w : Wiring ι) (n : Network ι) (p : Port ι) : Network ι :=
  let dead := (n.routers p.router).deadRoutes p.conn
  let peer := w.peer p
  let dead' := ((n.removeEnd p dead).routers peer.router).deadRoutes peer.conn
  n.exec w (.disconnect p dead dead')

/-- Deliver what has been in flight longest, up to `k` times. -/
def settle (w : Wiring ι) : ℕ → Network ι → Network ι
  | 0, n => n
  | k + 1, n =>
    match n.flight with
    | [] => n
    | (p, m) :: rest => settle w k (receive w { n with flight := rest } p m)

/-- Nothing is in flight. -/
def Quiet (n : Network ι) : Prop := n.flight = []

instance (n : Network ι) : Decidable n.Quiet := inferInstanceAs (Decidable (_ = []))

/-- The routers joined by a live connection. -/
def links (w : Wiring ι) (n : Network ι) : SimpleGraph ι where
  Adj i j := i ≠ j ∧ ∃ p, n.Live p ∧ n.Live (w.peer p) ∧ p.router = i ∧ (w.peer p).router = j
  symm := ⟨by
    rintro i j ⟨hne, p, hp, hpeer, rfl, rfl⟩
    exact ⟨hne.symm, w.peer p, hpeer, by rwa [w.peer_peer], rfl, by rw [w.peer_peer]⟩⟩
  loopless := ⟨fun _ h => h.1 rfl⟩

end Network

end Synergy
