import Synergy.Lib.UniqueIndex

/-!
# Routes, connections and the two tables that hold them

The data of `Router.hpp` and of the route messages. A route is what one router tells
another: a destination, a cost, and the ids of the routers on the way. A table entry is a
route plus the connection it was learned on. Both tables are `UniqueIndex`es, so what
`boost::multi_index` guarantees (one element per key, elements in key order) is a field of
the table here and never a hypothesis.

Node ids, connection ids and costs are `UInt32`, as in the source: the increment of a cost
wraps, and whether it ever does is for the proofs to say.
-/

set_option autoImplicit false

namespace Synergy

open Lib

/-- The order of `uint32_t`. -/
instance linearOrderUInt32 : LinearOrder UInt32 where
  le_refl := UInt32.le_refl
  le_trans _ _ _ := UInt32.le_trans
  le_antisymm _ _ := UInt32.le_antisymm
  le_total := UInt32.le_total
  lt_iff_le_not_ge a b := by
    simp only [UInt32.lt_iff_toNat_lt, UInt32.le_iff_toNat_le]
    omega
  toDecidableLE := inferInstance
  toDecidableLT := inferInstance
  toDecidableEq := inferInstance
  min_def _ _ := rfl
  max_def _ _ := rfl
  compare_eq_compareOfLessAndEq _ _ := rfl

/-! ## Routes and route messages -/

structure Route where
  dest : UInt32
  cost : UInt32
  path : List UInt32
deriving DecidableEq

/-- The composite key of `RouteTable`: destination, then cost, then path. -/
def Route.key (r : Route) : UInt32 ×ₗ UInt32 ×ₗ List UInt32 :=
  toLex (r.dest, toLex (r.cost, r.path))

structure RouteAdvertisement where
  sender : UInt32
  routes : List Route
deriving DecidableEq

/-- `struct RouteRevocation : RouteAdvertisement {}`. -/
structure RouteRevocation extends RouteAdvertisement
deriving DecidableEq

/-- The two message bodies `Router::integrate` is overloaded on. -/
inductive RouteMessage
  | advertisement (ra : RouteAdvertisement)
  | revocation (rr : RouteRevocation)
deriving DecidableEq

def RouteMessage.sender : RouteMessage → UInt32
  | .advertisement ra => ra.sender
  | .revocation rr => rr.sender

def RouteMessage.routes : RouteMessage → List Route
  | .advertisement ra => ra.routes
  | .revocation rr => rr.routes

theorem Route.key_injective : Function.Injective Route.key := by
  intro a b h
  obtain ⟨_, _, _⟩ := a
  obtain ⟨_, _, _⟩ := b
  have h := congrArg ofLex h
  simp only [Route.key, ofLex_toLex, Prod.mk.injEq, EmbeddingLike.apply_eq_iff_eq] at h
  simp [h]

/-- The destination is a prefix of the key. -/
theorem Route.dest_le_of_key_le {a b : Route} (h : a.key ≤ b.key) : a.dest ≤ b.dest := by
  rcases (Prod.Lex.toLex_le_toLex).mp h with h | ⟨h, -⟩
  · exact h.le
  · exact h.le

/-- Among routes to one destination the key orders by cost first. -/
theorem Route.cost_le_of_key_le {a b : Route} (hd : a.dest = b.dest) (h : a.key ≤ b.key) :
    a.cost ≤ b.cost := by
  rcases (Prod.Lex.toLex_le_toLex).mp h with h | ⟨-, h⟩
  · exact absurd hd h.ne
  · rcases (Prod.Lex.toLex_le_toLex).mp h with h | ⟨h, -⟩
    · exact h.le
    · exact h.le

/-! ## Connections -/

/-- An `ip::address`; only its equality and its order are used. -/
abbrev Address := Nat

/-- What is fixed about a `Connection` object. `id` is drawn from `next_connection_id_`; a
    pointer to the object is the object. -/
structure Connection where
  id : UInt32
  remoteIp : Address
  localIp : Address
deriving DecidableEq

/-- The composite key of `ConnectionTable`. -/
def Connection.key (c : Connection) : Address ×ₗ Address := toLex (c.remoteIp, c.localIp)

abbrev ConnectionTable := UniqueIndex Connection.key

/-! ## The route table -/

structure RouteTableEntry extends Route where
  connection : Connection
deriving DecidableEq

def RouteTableEntry.key (e : RouteTableEntry) : UInt32 ×ₗ UInt32 ×ₗ List UInt32 :=
  e.toRoute.key

/-- The `by_destination` index. `by_connection_id` holds the same entries in no order the
    code relies on, see `Router.deadRoutes`. -/
abbrev RouteTable := UniqueIndex RouteTableEntry.key

theorem RouteTableEntry.dest_le_of_key_le (a b : RouteTableEntry) (h : a.key ≤ b.key) :
    a.dest ≤ b.dest :=
  Route.dest_le_of_key_le h

theorem RouteTableEntry.toRoute_eq_of_key_eq {a b : RouteTableEntry} (h : a.key = b.key) :
    a.toRoute = b.toRoute :=
  Route.key_injective h

namespace RouteTable

/-- The routes to `d`, cheapest first. -/
def routesTo (t : RouteTable) (d : UInt32) : List RouteTableEntry :=
  t.range (fun e => e.dest) d

/-- Is `d` the destination of an entry? `get<by_destination>().count(d)`, as a truth value. -/
def hasRouteTo (t : RouteTable) (d : UInt32) : Bool := t.toList.any fun e => e.dest = d

theorem mem_routesTo {t : RouteTable} {d : UInt32} {e : RouteTableEntry} :
    e ∈ t.routesTo d ↔ e ∈ t ∧ e.dest = d :=
  UniqueIndex.mem_range

theorem hasRouteTo_iff {t : RouteTable} {d : UInt32} :
    t.hasRouteTo d ↔ ∃ e ∈ t, e.dest = d := by
  simp [hasRouteTo, UniqueIndex.mem_def]

end RouteTable

end Synergy
