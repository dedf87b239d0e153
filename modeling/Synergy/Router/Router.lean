import Synergy.Router.Route

/-!
# The router

`Router.cpp`, operation by operation: `add`, the three overloads of `integrate`, `remove`,
`forward`, `flood` and `broadcast`. An operation returns the router it leaves behind and the
messages it hands to `Connection::send`, in order. Signals are a log in the router, since
they are emitted in the middle of a loop; so is the outcome of the two `assert`s of
`integrate(Route)`, which a release build drops and a debug build dies of.

`remove` reads the hashed `by_connection_id` index, whose order is nobody's promise. It
takes the enumeration of the dead routes as an argument, and every statement about it
ranges over all permutations of them.
-/

set_option autoImplicit false

namespace Synergy

open Lib

def kDestRouteLimit : Nat := 3

/-- A call of `on_node_reachable` or `on_node_unreachable`. -/
inductive NodeSignal
  | reachable (node : UInt32)
  | unreachable (node : UInt32)
deriving DecidableEq

/-- What an operation hands to `Connection::send`. -/
abbrev Sends := List (Connection × RouteMessage)

structure Router where
  id : UInt32
  running : Bool
  connections : ConnectionTable
  routeTable : RouteTable
  /-- Signals emitted so far, oldest first. -/
  signals : List NodeSignal
  /-- `false` once an `assert` of `integrate(Route)` has failed. -/
  assertsHeld : Bool

/-! ## Installing one route -/

namespace RouteTable

variable (t : RouteTable) (entry : RouteTableEntry)

/-- The rank of `existing_routes.first`. -/
def rankLower : Nat := t.rank fun e => !decide (e.dest < entry.dest)

/-- The rank of `existing_routes.second`. -/
def rankHigher : Nat := t.rank fun e => decide (entry.dest < e.dest)

def newDestination : Bool := t.rankLower entry = t.rankHigher entry

def routeLimitReached : Bool :=
  !t.newDestination entry && (t.rankHigher entry - t.rankLower entry = kDestRouteLimit)

/-- The rank of `installed_pair.first`, after the insertion. -/
def rankInstalled : Nat := (t.insert entry).rankOf entry.key

/-- The two `assert`s, where they are reached. -/
def rankAssertions : Bool :=
  !(t.routeLimitReached entry && !t.hasKey entry.key) ||
    (t.rankLower entry ≤ t.rankInstalled entry && t.rankInstalled entry ≤ t.rankHigher entry)

/-- The part of `integrate(Route)` that works on the table, and its `installed`. -/
def integrate : RouteTable × Bool :=
  let installed := !t.hasKey entry.key
  let table := t.insert entry
  if t.routeLimitReached entry && installed then
    if t.rankInstalled entry < t.rankHigher entry then
      -- `existing_routes.second` still points behind the range, so `bumped` is its last entry
      (table.eraseAt (table.rank (fun e => decide (entry.dest < e.dest)) - 1), true)
    else
      (table.eraseAt (t.rankInstalled entry), false)
  else
    (table, installed)

end RouteTable

namespace Router

/-- `integrate (Route, source)`. -/
def integrateRoute (r : Router) (route : Route) (source : Connection) : Router × Bool :=
  let entry : RouteTableEntry := { route with connection := source }
  let (table, installed) := r.routeTable.integrate entry
  let signals :=
    if r.routeTable.newDestination entry && installed then [.reachable entry.dest] else []
  ({ r with
      routeTable := table
      signals := r.signals ++ signals
      assertsHeld := r.assertsHeld && r.routeTable.rankAssertions entry }, installed)

/-! ## Sending -/

/-- Every connection but `source`, which is a connection id. -/
def flood (r : Router) (message : RouteMessage) (source : UInt32) : Sends :=
  if r.running then
    (r.connections.toList.filter fun c => c.id ≠ source).map fun c => (c, message)
  else []

def broadcast (r : Router) (message : RouteMessage) : Sends :=
  if r.running then r.connections.toList.map fun c => (c, message) else []

/-- The connection a message for `dest` is sent on: that of the first entry. -/
def forward (r : Router) (dest : UInt32) : Option Connection :=
  (r.routeTable.find? fun e => e.dest = dest).map fun e => e.connection

/-! ## Connecting -/

def getKnownRoutes (r : Router) : List Route := r.routeTable.toList.map fun e => e.toRoute

/-- The advertisement of the `on_connected` handler: the router itself and all it knows. -/
def connectedAdvert (r : Router) : RouteAdvertisement :=
  { sender := r.id, routes := { dest := r.id, cost := 0, path := [] } :: r.getKnownRoutes }

def add (r : Router) (connection : Connection) : Router × Sends :=
  if r.connections.hasKey connection.key then (r, [])
  else
    let r := { r with connections := r.connections.insert connection }
    (r, [(connection, .advertisement r.connectedAdvert)])

/-! ## Route messages -/

/-- A route to this router, or through it. -/
def loops (r : Router) (route : Route) : Bool := route.dest = r.id || r.id ∈ route.path

/-- The route as seen one hop further, from a neighbour of `sender`. -/
def extend (sender : UInt32) (route : Route) : Route :=
  { dest := route.dest, cost := route.cost + 1, path := sender :: route.path }

structure AdvertLoop where
  router : Router
  routes : List Route
  routesUpdated : Bool

/-- One iteration of the loop of `integrate (RouteAdvertisement&, source)`. -/
def installRoute (sender : UInt32) (source : Connection) (s : AdvertLoop) (route : Route) :
    AdvertLoop :=
  if s.router.loops route then s
  else
    let newRoute := extend sender route
    let (router, installed) := s.router.integrateRoute newRoute source
    { router := router
      routes := if installed then s.routes ++ [newRoute] else s.routes
      routesUpdated := s.routesUpdated || installed }

/-- The loop, over the first routes of a message. -/
def advertLoop (r : Router) (sender : UInt32) (source : Connection) (routes : List Route) :
    AdvertLoop :=
  routes.foldl (installRoute sender source)
    { router := r, routes := [], routesUpdated := false }

/-- `integrate (RouteAdvertisement&, source)`. -/
def integrateAdvertisement (r : Router) (ra : RouteAdvertisement) (source : Connection) :
    Router × Sends :=
  if ra.sender = r.id then (r, [])
  else
    let s := r.advertLoop ra.sender source ra.routes
    let advert : RouteAdvertisement := { sender := r.id, routes := s.routes }
    (s.router, if s.routesUpdated then s.router.flood (.advertisement advert) source.id else [])

/-- Turn the affected destinations into a set, drop those that can still be reached, and
    signal the rest. -/
def signalUnreachable (r : Router) (destsEffected : List UInt32) : Router :=
  let dests := (destsEffected.insertionSort (· ≤ ·)).dedup
  let dests := dests.filter fun d => !r.routeTable.hasRouteTo d
  { r with signals := r.signals ++ dests.map .unreachable }

structure RevocationLoop where
  router : Router
  routes : List Route
  destsEffected : List UInt32
  routesUpdated : Bool

/-- One iteration of the loop of `integrate (RouteRevocation&, source)`. A route that is not
    in the table is passed on all the same, if the message is. -/
def revokeRoute (sender : UInt32) (s : RevocationLoop) (route : Route) : RevocationLoop :=
  if s.router.loops route then s
  else
    let newRoute := extend sender route
    let table := s.router.routeTable
    if table.hasKey newRoute.key then
      { router := { s.router with routeTable := table.eraseKey newRoute.key }
        routes := s.routes ++ [newRoute]
        destsEffected := s.destsEffected ++ [newRoute.dest]
        routesUpdated := true }
    else { s with routes := s.routes ++ [newRoute] }

def revocationLoop (r : Router) (sender : UInt32) (routes : List Route) : RevocationLoop :=
  routes.foldl (revokeRoute sender)
    { router := r, routes := [], destsEffected := [], routesUpdated := false }

/-- `integrate (RouteRevocation&, source)`. -/
def integrateRevocation (r : Router) (rr : RouteRevocation) (source : Connection) :
    Router × Sends :=
  if rr.sender = r.id then (r, [])
  else
    let s := r.revocationLoop rr.sender rr.routes
    let revocation : RouteRevocation := { sender := r.id, routes := s.routes }
    (s.router.signalUnreachable s.destsEffected,
      if s.routesUpdated then s.router.flood (.revocation revocation) source.id else [])

/-- `integrate`, on whichever message it is. -/
def integrate (r : Router) (m : RouteMessage) (source : Connection) : Router × Sends :=
  match m with
  | .advertisement ra => r.integrateAdvertisement ra source
  | .revocation rr => r.integrateRevocation rr source

/-! ## Losing a connection -/

/-- `get<by_connection_id>().equal_range (connection->id ())`, in table order. -/
def deadRoutes (r : Router) (connection : Connection) : List RouteTableEntry :=
  r.routeTable.toList.filter fun e => e.connection.id = connection.id

/-- What `remove` does after `Connection::stop`. `dead` enumerates `deadRoutes`. -/
def remove (r : Router) (connection : Connection) (dead : List RouteTableEntry) :
    Router × Sends :=
  let revocation : RouteRevocation := { sender := r.id, routes := dead.map fun e => e.toRoute }
  let r := { r with
    routeTable := r.routeTable.eraseIf fun e => e.connection.id = connection.id
    connections := r.connections.eraseIf fun c => c = connection }
  (r.signalUnreachable (dead.map fun e => e.dest),
    if revocation.routes.isEmpty then [] else r.broadcast (.revocation revocation))

/-- A router that has heard nothing yet. -/
def initial (id : UInt32) (running : Bool) (connections : ConnectionTable) : Router :=
  { id := id, running := running, connections := connections, routeTable := .empty,
    signals := [], assertsHeld := true }

/-- A router that has been started and has met nobody yet. -/
def started (id : UInt32) : Router := initial id true .empty

/-- A router with as many routes to 2 as there is room for, and one to its neighbour 3. -/
def threeWays : Router :=
  { started 1 with
    routeTable := {
      toList := [⟨⟨2, 2, [3, 2]⟩, ⟨8, 30, 10⟩⟩, ⟨⟨2, 3, [3, 4, 2]⟩, ⟨8, 30, 10⟩⟩,
        ⟨⟨2, 3, [4, 5, 2]⟩, ⟨9, 40, 10⟩⟩, ⟨⟨3, 1, [3]⟩, ⟨8, 30, 10⟩⟩]
      sorted := by decide } }

end Router

end Synergy
