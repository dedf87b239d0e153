import Synergy.Lib.Simulation
import Synergy.Network.ShortestRoutes
import Synergy.Router.Notify
import Synergy.Service.Wire

/-!
# The network, byte by byte

The routers of `Network`, and between them not messages in flight but wires, on which the frames of
route messages are written, cut into pieces and read again. What else the routers send each other,
and what they relay of it, goes over the same wires.

A wire lasts from `connect` to `disconnect`, and what is on it goes with it. Every run of this
network is one of `Network`, step by step (`refines`): the end of the read of a route message is its
delivery, and everything else that happens on a wire is nothing there.
-/

set_option autoImplicit false

namespace Synergy

open Lib Framing

/-- The tables of the messages. Of those that are not about routes nothing is known. -/
def Tables (Other : Alternative → Type) : Alternative → Type
  | .routeAdvertisement => RouteAdvertisement
  | .routeRevocation => RouteRevocation
  | a => Other a

structure WiredNetwork (ι : Type) (Other : Alternative → Type) where
  routers : ι → Router
  /-- What is sent on a port, and how far it was received at the other end. -/
  wires : Port ι → Wire.State (Tables Other)
  /-- Every frame that was given to `Connection::send`. -/
  sent : List (Wire.Frame (Tables Other))

namespace WiredNetwork

variable {ι : Type} [DecidableEq ι] {Other : Alternative → Type}

/-- `Message`, of a route message. -/
def message : RouteMessage → Framing.Message (Tables Other)
  | .advertisement ra => ⟨2, 1, .table .routeAdvertisement ra⟩
  | .revocation rr => ⟨3, 1, .table .routeRevocation rr⟩

/-- `Connection::send (Message const&)`. -/
def frame (m : RouteMessage) : Wire.Frame (Tables Other) :=
  let message : Framing.Message (Tables Other) := message m
  (message.header, message)

/-- The overload of `integrate` that takes a body, if any. -/
def routeMessage : Framing.Body (Tables Other) → Option RouteMessage
  | .table .routeAdvertisement ra => some (.advertisement ra)
  | .table .routeRevocation rr => some (.revocation rr)
  | .table .helloMessage _ | .table .proxyClientConnect _ | .table .serverClaim _
  | .table .coreMessage _ | .unknown _ => none

/-- A router, and the frames that it hands to its connections. -/
abbrev Out (Other : Alternative → Type) := Router × List (Connection × Wire.Frame (Tables Other))

/-- Route messages, as frames. -/
def routing (out : Router × Sends) : Out Other := (out.1, out.2.map fun s => (s.1, frame s.2))

/-- The handler of `on_message`: pass the frame on, or handle it. -/
def onMessage (r : Router) (header : Framing.MessageHeader)
    (message : Framing.Message (Tables Other)) (source : Connection) : Out Other :=
  if header.dest ≠ r.id ∧ header.dest ≠ 0xFFFFFFFF then
    (r, ((r.forward header.dest).map fun c => (c, (header, message))).toList)
  else
    match routeMessage message.body with
    | some m => routing (r.integrate m source)
    | none => (r, [])

/-- Calls of `Connection::send (MessageHeader const&, Message const&)`. -/
def sending (r : Router) (sent : List (Sent (Tables Other))) : Out Other :=
  (r, sent.map fun x => (x.connection, (x.header, x.message)))

/-! ## Steps -/

inductive Event (ι : Type) (Other : Alternative → Type) where
  | connect (p : Port ι)
  | disconnect (p : Port ι) (dead dead' : List RouteTableEntry)
  /-- Router `i` sends a message that is not about routes to the router of that id. -/
  | send (i : ι) (message : Framing.Message (Tables Other)) (dest : UInt32)
  /-- Router `i` sends one to all the others. -/
  | notify (i : ι) (message : Framing.Message (Tables Other))
  /-- Something happens on the wire from `p`. -/
  | wire (p : Port ι) (ev : Wire.Event (Tables Other))

/-- `Connection::send`. -/
def send (n : WiredNetwork ι Other) (p : Port ι) (frame : Wire.Frame (Tables Other)) :
    WiredNetwork ι Other :=
  { n with
    wires := Function.update n.wires p
      { n.wires p with sender := SendQueue.send (n.wires p).sender frame }
    sent := n.sent ++ [frame] }

/-- Router `i` becomes `out.1` and sends `out.2`. -/
def act (n : WiredNetwork ι Other) (i : ι) (out : Out Other) : WiredNetwork ι Other :=
  out.2.foldl (fun n s => n.send ⟨i, s.1⟩ s.2)
    { n with routers := Function.update n.routers i out.1 }

def addEnd (n : WiredNetwork ι Other) (p : Port ι) : WiredNetwork ι Other :=
  n.act p.router (routing ((n.routers p.router).add p.conn))

def removeEnd (n : WiredNetwork ι Other) (p : Port ι) (dead : List RouteTableEntry) :
    WiredNetwork ι Other :=
  n.act p.router (routing ((n.routers p.router).remove p.conn dead))

/-- What is on the wire from `p` is lost with it. -/
def lose (n : WiredNetwork ι Other) (p : Port ι) : WiredNetwork ι Other :=
  { n with wires := Function.update n.wires p Wire.initial }

/-- The wire from `p` has gone on. -/
def setWire (n : WiredNetwork ι Other) (p : Port ι) (wire : Wire.State (Tables Other)) :
    WiredNetwork ι Other :=
  { n with wires := Function.update n.wires p wire }

/-- The network of messages as far as the routers go. -/
def routed (n : WiredNetwork ι Other) : Network ι := ⟨n.routers, []⟩

/-- The frame whose body has just been read is handed to the router at the other end. -/
def handOver (w : Wiring ι) (n : WiredNetwork ι Other) (p : Port ι) :
    Option (Wire.ReadFrame (Tables Other)) → WiredNetwork ι Other
  | some (header, some message) =>
    n.act (w.peer p).router
      (onMessage (n.routers (w.peer p).router) header message (w.peer p).conn)
  | _ => n

variable (fb : FlatBuffers (Tables Other))

def step (w : Wiring ι) (n : WiredNetwork ι Other) : Event ι Other → Option (WiredNetwork ι Other)
  | .connect p =>
    if n.routed.Fresh p ∧ (n.addEnd p).routed.Fresh (w.peer p) then
      some ((n.addEnd p).addEnd (w.peer p))
    else none
  | .disconnect p dead dead' =>
    let n' := n.removeEnd p dead
    if n.routed.Live p ∧ dead.Perm ((n.routers p.router).deadRoutes p.conn) ∧
        dead'.Perm ((n'.routers (w.peer p).router).deadRoutes (w.peer p).conn) then
      some (((n'.removeEnd (w.peer p) dead').lose p).lose (w.peer p))
    else none
  | .send i message dest =>
    some (n.act i (sending (n.routers i) ((n.routers i).send message dest).toList))
  | .notify i message =>
    some (n.act i (sending (n.routers i) ((n.routers i).notifyOtherNodes message)))
  | .wire p ev =>
    if n.routed.Live p ∧ ¬ ev.isSend ∧ ¬ ev.isFail then
      (Wire.step fb (n.wires p) ev).map fun wire =>
        handOver w (n.setWire p wire) p wire.received[(n.wires p).received.length]?
    else none

/-- The routers have been started and have met nobody. -/
def start (ids : ι → UInt32) : WiredNetwork ι Other where
  routers i := Router.started (ids i)
  wires _ := Wire.initial
  sent := []

/-- A message that is not about routes, and has the type of its body. -/
def IsNotice (message : Framing.Message (Tables Other)) : Prop :=
  routeMessage message.body = none ∧ Alternative.nth message.type = message.body.which

/-- What the routers send each other, other than route messages, are notices. -/
def Event.Notices : Event ι Other → Prop
  | .send _ message _ | .notify _ message => IsNotice message
  | .connect _ | .disconnect _ _ _ | .wire _ _ => True

/-- The length of the body fits the header, and the body keeps what is in it. -/
def Whole (frame : Wire.Frame (Tables Other)) : Prop :=
  Fits fb frame ∧ Wire.Frame.Kept fb frame.2.body

/-- What is sent stays whole, and notices are notices. -/
structure Sound (w : Wiring ι) (n : WiredNetwork ι Other) (ev : Event ι Other) : Prop where
  whole : ∀ n' ∈ n.step fb w ev, ∀ frame ∈ n'.sent, Whole fb frame
  notices : ev.Notices

section

variable [∀ a, DecidableEq (Tables Other a)]

instance (message : Framing.Message (Tables Other)) : Decidable (IsNotice message) :=
  inferInstanceAs (Decidable (_ ∧ _))

instance : (ev : Event ι Other) → Decidable ev.Notices
  | .send _ message _ | .notify _ message => inferInstanceAs (Decidable (IsNotice message))
  | .connect _ | .disconnect _ _ _ | .wire _ _ => inferInstanceAs (Decidable True)

instance (frame : Wire.Frame (Tables Other)) : Decidable (Whole fb frame) :=
  inferInstanceAs (Decidable ((payload fb frame.2.body).length < 2 ^ 32 ∧
    Wire.Frame.Kept fb frame.2.body))

instance (w : Wiring ι) (n : WiredNetwork ι Other) (ev : Event ι Other) :
    Decidable (Sound fb w n ev) :=
  decidable_of_iff ((∀ n' ∈ n.step fb w ev, ∀ frame ∈ n'.sent, Whole fb frame) ∧ ev.Notices)
    ⟨fun h => ⟨h.1, h.2⟩, fun h => ⟨h.whole, h.notices⟩⟩

end

/-! ## The relation -/

/-- The route message that a frame holds. -/
def content (frame : Wire.Frame (Tables Other)) : Option RouteMessage := routeMessage frame.2.body

/-- The route messages that were sent on `p` and have not been received. -/
def inFlight (n : WiredNetwork ι Other) (p : Port ι) : List RouteMessage :=
  ((n.wires p).sender.sent.drop (n.wires p).received.length).filterMap content

/-- Where nothing is said of the order of different queues, this is the state of `Network`. -/
structure Represents (n : WiredNetwork ι Other) (m : Network ι) : Prop where
  routers : m.routers = n.routers
  queues : ∀ p, m.queue p = n.inFlight p

/-- A frame of a route message, or of a notice. -/
inductive Known (frame : Wire.Frame (Tables Other)) : Prop
  | route (m : RouteMessage) (isRoute : frame = WiredNetwork.frame m) : Known frame
  | notice (nothing : content frame = none)
      (type : Alternative.nth frame.1.type = frame.2.body.which) : Known frame

/-- The wires are in order, and known frames are on them. -/
structure Carried (fb : FlatBuffers (Tables Other)) (n : WiredNetwork ι Other) : Prop where
  wires : ∀ p, Wire.Inv fb (n.wires p)
  known : ∀ p, ∀ frame ∈ (n.wires p).sender.sent, Known frame

variable {fb : FlatBuffers (Tables Other)} {w : Wiring ι} {n n' : WiredNetwork ι Other}
  {m : Network ι} {i : ι} {p q : Port ι}

theorem content_frame (m : RouteMessage) :
    content (frame m : Wire.Frame (Tables Other)) = some m := by
  cases m <;> rfl

theorem Known.sendable {frame : Wire.Frame (Tables Other)} (h : Known frame)
    (hwhole : Whole fb frame) : frame.Sendable fb := by
  refine ⟨?_, hwhole.1, hwhole.2⟩
  cases h with
  | route m isRoute =>
    rw [isRoute]
    cases m <;> rfl
  | notice _ type => exact type

/-! ## What is sent -/

theorem inFlight_send (hcarried : Carried fb n) (frame : Wire.Frame (Tables Other)) :
    (n.send p frame).inFlight q =
      n.inFlight q ++ if p = q then (content frame).toList else [] := by
  have hle := (hcarried.wires p).length_le
  unfold inFlight send
  by_cases hpq : p = q
  · subst hpq
    simp only [Function.update_self, SendQueue.send, if_true]
    rw [List.drop_append_of_le_length hle, List.filterMap_append]
    cases hcontent : content frame with
    | none => simp [hcontent]
    | some m => simp [hcontent]
  · simp [Function.update_of_ne (Ne.symm hpq), hpq]

theorem Carried.send (h : Carried fb n) {frame : Wire.Frame (Tables Other)} (hknown : Known frame)
    (hwhole : Whole fb frame) (p : Port ι) :
    Carried fb (n.send p frame) := by
  have hsent : SendQueue.step (Wire.Frame.encode fb) (n.wires p).sender (.send frame) =
      some (SendQueue.send (n.wires p).sender frame) := rfl
  have hsound : Wire.Sound fb (n.wires p) (.sender (.send frame)) := hknown.sendable hwhole
  have hwire : Wire.Inv fb { n.wires p with sender := SendQueue.send (n.wires p).sender frame } :=
    (h.wires p).sendQueue hsound hsent
  refine ⟨fun q => ?_, fun q => ?_⟩
  · by_cases hpq : q = p
    · subst hpq
      simpa [WiredNetwork.send] using hwire
    · simpa [WiredNetwork.send, hpq] using h.wires q
  · by_cases hpq : q = p
    · subst hpq
      intro frame' hmem
      simp only [WiredNetwork.send, Function.update_self, SendQueue.send] at hmem
      rcases List.mem_append.mp hmem with hold | hnew
      · exact h.known q frame' hold
      · exact List.mem_singleton.mp hnew ▸ hknown
    · simpa [WiredNetwork.send, hpq] using h.known q

@[simp] theorem foldl_send_routers (sends : List (Connection × Wire.Frame (Tables Other))) :
    (sends.foldl (fun n s => n.send ⟨i, s.1⟩ s.2) n).routers = n.routers := by
  induction sends generalizing n with
  | nil => rfl
  | cons s sends ih => rw [List.foldl_cons, ih]; rfl

@[simp] theorem foldl_send_sent (sends : List (Connection × Wire.Frame (Tables Other))) :
    (sends.foldl (fun n s => n.send ⟨i, s.1⟩ s.2) n).sent = n.sent ++ sends.map Prod.snd := by
  induction sends generalizing n with
  | nil => simp
  | cons s sends ih => rw [List.foldl_cons, ih]; simp [WiredNetwork.send]

@[simp] theorem act_routers (out : Out Other) :
    (n.act i out).routers = Function.update n.routers i out.1 := by
  simp [act]

@[simp] theorem act_sent (out : Out Other) : (n.act i out).sent = n.sent ++ out.2.map Prod.snd := by
  simp [act]

/-- The route messages among the frames, as they are in `Network`. -/
def contents (i : ι) (sends : List (Connection × Wire.Frame (Tables Other))) :
    List (Port ι × RouteMessage) :=
  sends.filterMap fun s => (content s.2).map fun m => (⟨i, s.1⟩, m)

theorem foldl_send (hcarried : Carried fb n) {sends : List (Connection × Wire.Frame (Tables Other))}
    (hknown : ∀ s ∈ sends, Known s.2)
    (hwhole : ∀ s ∈ sends, Whole fb s.2) :
    Carried fb (sends.foldl (fun n s => n.send ⟨i, s.1⟩ s.2) n) ∧
      ∀ q, (sends.foldl (fun n s => n.send ⟨i, s.1⟩ s.2) n).inFlight q =
        n.inFlight q ++ Flight.queue q (contents i sends) := by
  induction sends generalizing n with
  | nil => exact ⟨hcarried, fun q => by simp [contents]⟩
  | cons s sends ih =>
    obtain ⟨hknown₁, hknown⟩ := List.forall_mem_cons.mp hknown
    obtain ⟨hwhole₁, hwhole⟩ := List.forall_mem_cons.mp hwhole
    obtain ⟨hcarried', hqueue⟩ := ih (hcarried.send hknown₁ hwhole₁ ⟨i, s.1⟩) hknown hwhole
    refine ⟨hcarried', fun q => ?_⟩
    rw [List.foldl_cons, hqueue q, inFlight_send hcarried, List.append_assoc]
    congr 1
    cases hcontent : content s.2 with
    | none => simp [contents, hcontent]
    | some m =>
      by_cases hq : (⟨i, s.1⟩ : Port ι) = q
      · simp [contents, hcontent, hq, Flight.queue_cons_self]
      · simp [contents, hcontent, hq, Flight.queue_cons_of_ne]

/-- A router acts. -/
theorem Carried.act (h : Carried fb n) {out : Out Other} (hknown : ∀ s ∈ out.2, Known s.2)
    (hwhole : ∀ frame ∈ (n.act i out).sent, Whole fb frame) :
    Carried fb (n.act i out) ∧
      ∀ q, (n.act i out).inFlight q = n.inFlight q ++ Flight.queue q (contents i out.2) := by
  have hcarried : Carried fb { n with routers := Function.update n.routers i out.1 } :=
    ⟨h.wires, h.known⟩
  refine foldl_send hcarried hknown fun s hs => hwhole s.2 ?_
  rw [act_sent]
  exact List.mem_append_right _ (List.mem_map_of_mem hs)

theorem known_routing {out : Router × Sends} :
    ∀ s ∈ (routing out : Out Other).2, Known s.2 := by
  intro s hs
  obtain ⟨x, -, rfl⟩ := List.mem_map.mp hs
  exact .route x.2 rfl

omit [DecidableEq ι] in
theorem contents_routing (out : Router × Sends) :
    contents i (routing out : Out Other).2 = out.2.map fun s => (⟨i, s.1⟩, s.2) := by
  simp [contents, routing, List.filterMap_map, content_frame]

/-- A router acts on a route message, a new connection or a lost one, here as there. -/
theorem Represents.act (h : Represents n m) (hcarried : Carried fb n) (out : Router × Sends)
    (hwhole : ∀ frame ∈ (n.act i (routing out)).sent, Whole fb frame) :
    Represents (n.act i (routing out)) (m.act i out) ∧ Carried fb (n.act i (routing out)) := by
  obtain ⟨hcarried', hqueue⟩ := hcarried.act known_routing hwhole
  refine ⟨⟨?_, fun q => ?_⟩, hcarried'⟩
  · rw [act_routers, Network.act, h.routers]
    rfl
  · rw [hqueue q, contents_routing, ← h.queues q]
    exact Flight.queue_append q _ _

/-- What a router sends of notices is nothing in `Network`. -/
theorem Represents.notices (h : Represents n m) (hcarried : Carried fb n) {out : Out Other}
    (hrouter : out.1 = n.routers i) (hknown : ∀ s ∈ out.2, Known s.2)
    (hnone : ∀ s ∈ out.2, content s.2 = none)
    (hwhole : ∀ frame ∈ (n.act i out).sent, Whole fb frame) :
    Represents (n.act i out) m ∧ Carried fb (n.act i out) := by
  obtain ⟨hcarried', hqueue⟩ := hcarried.act hknown hwhole
  have hcontents : contents i out.2 = [] := by
    refine List.filterMap_eq_nil_iff.mpr fun s hs => ?_
    rw [hnone s hs]
    rfl
  refine ⟨⟨?_, fun q => ?_⟩, hcarried'⟩
  · rw [act_routers, hrouter, Function.update_eq_self, h.routers]
  · rw [hqueue q, hcontents, h.queues q, Flight.queue_nil, List.append_nil]

theorem Represents.lose (h : Represents n m) (p : Port ι) : Represents (n.lose p) (m.lose p) := by
  refine ⟨h.routers, fun q => ?_⟩
  by_cases hpq : q = p
  · subst hpq
    simp [Network.lose, Network.queue, Flight.queue_lose_self, inFlight, WiredNetwork.lose,
      Wire.initial, SendQueue.initial]
  · have hqueue : (m.lose p).queue q = m.queue q := Flight.queue_lose_of_ne hpq m.flight
    rw [hqueue, h.queues q]
    simp [inFlight, WiredNetwork.lose, hpq]

theorem Carried.lose (h : Carried fb n) (p : Port ι) : Carried fb (n.lose p) := by
  refine ⟨fun q => ?_, fun q => ?_⟩
  · by_cases hpq : q = p
    · subst hpq
      simpa [WiredNetwork.lose] using Wire.inv_initial
    · simpa [WiredNetwork.lose, hpq] using h.wires q
  · by_cases hpq : q = p
    · subst hpq
      simp [WiredNetwork.lose, Wire.initial, SendQueue.initial]
    · simpa [WiredNetwork.lose, hpq] using h.known q

/-! ## What is received -/

/-- What something on the wire from `p`, other than `send`, receives: nothing, or the next frame. -/
inductive Receives (fb : FlatBuffers (Tables Other)) (n : WiredNetwork ι Other) (p : Port ι)
    (wire : Wire.State (Tables Other)) : Prop
  | nothing (none : wire.received[(n.wires p).received.length]? = none)
      (same : ∀ q, (n.setWire p wire).inFlight q = n.inFlight q) : Receives fb n p wire
  | next {frame : Wire.Frame (Tables Other)} (known : Known frame)
      (received : wire.received[(n.wires p).received.length]? = some (frame.received fb))
      (first : n.inFlight p = (content frame).toList ++ (n.setWire p wire).inFlight p)
      (others : ∀ q, q ≠ p → (n.setWire p wire).inFlight q = n.inFlight q) : Receives fb n p wire

theorem inFlight_setWire {wire : Wire.State (Tables Other)} :
    (n.setWire p wire).inFlight q =
      if q = p then (wire.sender.sent.drop wire.received.length).filterMap content
      else n.inFlight q := by
  unfold inFlight setWire
  by_cases hqp : q = p
  · subst hqp
    simp
  · simp [hqp]

theorem Carried.setWire (h : Carried fb n) {wire : Wire.State (Tables Other)}
    (hwire : Wire.Inv fb wire) (hsent : wire.sender.sent = (n.wires p).sender.sent) :
    Carried fb (n.setWire p wire) := by
  refine ⟨fun q => ?_, fun q => ?_⟩
  · by_cases hqp : q = p
    · subst hqp
      simpa [WiredNetwork.setWire] using hwire
    · simpa [WiredNetwork.setWire, hqp] using h.wires q
  · by_cases hqp : q = p
    · subst hqp
      simpa [WiredNetwork.setWire, hsent] using h.known q
    · simpa [WiredNetwork.setWire, hqp] using h.known q

theorem Carried.receives (h : Carried fb n) {wire : Wire.State (Tables Other)}
    {ev : Wire.Event (Tables Other)} (hsend : ¬ ev.isSend) (hfail : ¬ ev.isFail)
    (hstep : Wire.step fb (n.wires p) ev = some wire) :
    Carried fb (n.setWire p wire) ∧ Receives fb n p wire := by
  have hsound : Wire.Sound fb (n.wires p) ev := by
    cases ev with
    | sender ev =>
      cases ev with
      | send frame => exact absurd rfl hsend
      | resume _ | transfer _ _ | fail _ => exact hfail
    | begin | transfer _ | resume | test => exact hfail
  have hwire : Wire.Inv fb wire := (h.wires p).step hsound hstep
  obtain ⟨hsent, x, hreceived⟩ := Wire.step_spec hsend hstep
  refine ⟨h.setWire hwire hsent, ?_⟩
  cases x with
  | none =>
    rw [Option.toList_none, List.append_nil] at hreceived
    refine .nothing (by simp [hreceived]) fun q => ?_
    rw [inFlight_setWire, hsent, hreceived]
    split
    · rename_i hqp
      rw [hqp, inFlight]
    · rfl
  | some x =>
    rw [Option.toList_some] at hreceived
    have hlength : wire.received.length = (n.wires p).received.length + 1 := by simp [hreceived]
    -- what is new is the frame at its place
    have hlt : (n.wires p).received.length < (n.wires p).sender.sent.length := by
      have hle := hwire.length_le
      rw [hsent, hlength] at hle
      exact hle
    have hx : wire.received[(n.wires p).received.length]? =
        some ((n.wires p).sender.sent[(n.wires p).received.length].received fb) := by
      rw [hwire.received, hsent, List.getElem?_map,
        List.getElem?_take_of_lt (hlength ▸ Nat.lt_succ_self _), List.getElem?_eq_getElem hlt]
      rfl
    refine .next (h.known p _ (List.getElem_mem hlt)) hx ?_ fun q hqp => ?_
    · rw [inFlight_setWire, if_pos rfl, hsent, hlength, inFlight, List.drop_eq_getElem_cons hlt,
        List.filterMap_cons]
      cases content (n.wires p).sender.sent[(n.wires p).received.length] with
      | none => rfl
      | some m => rfl
    · rw [inFlight_setWire, if_neg hqp]

/-! ## One step -/

/-- What an event of the wires is in `Network`, if anything. -/
def image (fb : FlatBuffers (Tables Other)) (n : WiredNetwork ι Other) :
    Event ι Other → Option (Synergy.Event ι)
  | .connect p => some (.connect p)
  | .disconnect p dead dead' => some (.disconnect p dead dead')
  | .send _ _ _ | .notify _ _ => none
  | .wire p ev =>
    (Wire.step fb (n.wires p) ev).bind fun wire =>
      (wire.received[(n.wires p).received.length]?).bind fun frame =>
        (frame.2.bind fun message => routeMessage message.body).map fun _ => .deliver p

theorem received_eq (fb : FlatBuffers (Tables Other)) (frame : Wire.Frame (Tables Other)) :
    ∃ header message, frame.received fb = (header, some message) ∧ message.body = frame.2.body ∧
      header.type = frame.1.type ∧ header.dest = frame.1.dest ∧ message.type = frame.1.type := by
  refine ⟨_, _, rfl, rfl, relayed_type _, relayed_dest _, relayed_type _⟩

theorem Represents.fresh (h : Represents n m) (p : Port ι) : n.routed.Fresh p ↔ m.Fresh p := by
  unfold Network.Fresh
  rw [h.routers]
  rfl

theorem Represents.live (h : Represents n m) (p : Port ι) : n.routed.Live p ↔ m.Live p := by
  unfold Network.Live
  rw [h.routers]
  rfl

/-- The end of the read of a route message is its delivery. -/
theorem Represents.deliver (h : Represents n m) {wire : Wire.State (Tables Other)}
    {message : RouteMessage}
    (hfirst : n.inFlight p = message :: (n.setWire p wire).inFlight p)
    (hothers : ∀ q, q ≠ p → (n.setWire p wire).inFlight q = n.inFlight q) :
    ∃ rest, Network.step w m (.deliver p) =
        some (Network.receive w { m with flight := rest } p message) ∧
      Represents (n.setWire p wire) { m with flight := rest } := by
  have hqueue : Flight.queue p m.flight = message :: (n.setWire p wire).inFlight p :=
    (h.queues p).trans hfirst
  obtain ⟨rest, htake⟩ := Flight.exists_takeFirst hqueue
  have htaken := Flight.taken_of_takeFirst htake
  refine ⟨rest, ?_, ⟨h.routers, fun q => ?_⟩⟩
  · rw [Network.step, htake, Option.map_some]
  · by_cases hqp : q = p
    · subst hqp
      exact (List.cons.inj (htaken.head.symm.trans hqueue)).2
    · rw [hothers q hqp, ← h.queues q]
      exact htaken.others q hqp

theorem Represents.addEnd (h : Represents n m) (hcarried : Carried fb n) (p : Port ι)
    (hwhole : ∀ frame ∈ (n.addEnd p).sent, Whole fb frame) :
    Represents (n.addEnd p) (m.addEnd p) ∧ Carried fb (n.addEnd p) := by
  unfold Network.addEnd
  rw [h.routers]
  exact h.act hcarried _ hwhole

theorem Represents.removeEnd (h : Represents n m) (hcarried : Carried fb n) (p : Port ι)
    (dead : List RouteTableEntry) (hwhole : ∀ frame ∈ (n.removeEnd p dead).sent, Whole fb frame) :
    Represents (n.removeEnd p dead) (m.removeEnd p dead) ∧ Carried fb (n.removeEnd p dead) := by
  unfold Network.removeEnd
  rw [h.routers]
  exact h.act hcarried _ hwhole

/-- Messages that are not about routes. -/
theorem Represents.sending (h : Represents n m) (hcarried : Carried fb n)
    {message : Framing.Message (Tables Other)} (hnotice : IsNotice message)
    {sent : List (Sent (Tables Other))}
    (hsent : ∀ x ∈ sent, ∃ dest, (n.routers i).send message dest = some x)
    (hwhole : ∀ frame ∈ (n.act i (sending (n.routers i) sent)).sent, Whole fb frame) :
    Represents (n.act i (sending (n.routers i) sent)) m ∧
      Carried fb (n.act i (sending (n.routers i) sent)) := by
  have hnotices : ∀ s ∈ (WiredNetwork.sending (n.routers i) sent).2,
      content s.2 = none ∧ Alternative.nth s.2.1.type = s.2.2.body.which := by
    intro s hs
    obtain ⟨x, hx, rfl⟩ := List.mem_map.mp hs
    obtain ⟨dest, hdest⟩ := hsent x hx
    obtain ⟨hmessage, hheader, -⟩ := Router.send_spec hdest
    dsimp only [content]
    rw [hmessage, hheader]
    exact hnotice
  exact h.notices hcarried rfl (fun s hs => .notice (hnotices s hs).1 (hnotices s hs).2)
    (fun s hs => (hnotices s hs).1) hwhole

theorem onMessage_route {r : Router} {header : Framing.MessageHeader}
    {message : Framing.Message (Tables Other)} {route : RouteMessage} (source : Connection)
    (hdest : header.dest = 0xFFFFFFFF) (hroute : routeMessage message.body = some route) :
    onMessage r header message source = routing (r.integrate route source) := by
  unfold onMessage
  rw [if_neg (by simp [hdest]), hroute]

theorem onMessage_notice (r : Router) (header : Framing.MessageHeader)
    {message : Framing.Message (Tables Other)} (source : Connection)
    (hnone : routeMessage message.body = none) :
    (onMessage r header message source).1 = r ∧
      ∀ s ∈ (onMessage r header message source).2, s.2 = (header, message) := by
  unfold onMessage
  split
  · refine ⟨rfl, fun s hs => ?_⟩
    obtain ⟨c, -, rfl⟩ := Option.map_eq_some_iff.mp (Option.mem_toList.mp hs)
    rfl
  · rw [hnone]
    exact ⟨rfl, fun s hs => absurd hs List.not_mem_nil⟩

theorem handOver_frame {frame : Wire.Frame (Tables Other)} {header : Framing.MessageHeader}
    {message : Framing.Message (Tables Other)} (h : frame.received fb = (header, some message)) :
    handOver w n p (some (frame.received fb)) =
      n.act (w.peer p).router
        (onMessage (n.routers (w.peer p).router) header message (w.peer p).conn) := by
  rw [h]
  rfl

/-- A route message is handed to the router, which integrates it. -/
theorem Represents.handOver_route (h : Represents n m) {wire : Wire.State (Tables Other)}
    (hcarried : Carried fb (n.setWire p wire)) (message : RouteMessage)
    (hfirst : n.inFlight p = message :: (n.setWire p wire).inFlight p)
    (hothers : ∀ q, q ≠ p → (n.setWire p wire).inFlight q = n.inFlight q)
    (hwhole : ∀ frame' ∈ (handOver w (n.setWire p wire) p
      (some ((frame message).received fb))).sent, Whole fb frame') :
    ∃ m', Network.step w m (.deliver p) = some m' ∧
      Represents (handOver w (n.setWire p wire) p (some ((frame message).received fb))) m' ∧
      Carried fb (handOver w (n.setWire p wire) p (some ((frame message).received fb))) := by
  obtain ⟨rest, hstep, hrep⟩ := h.deliver (w := w) hfirst hothers
  refine ⟨_, hstep, ?_⟩
  have hhandled : handOver w (n.setWire p wire) p (some ((frame message).received fb)) =
      (n.setWire p wire).act (w.peer p).router
        (routing ((n.routers (w.peer p).router).integrate message (w.peer p).conn)) := by
    obtain ⟨header, received, hreceived, hbody, -, hdest, -⟩ :=
      received_eq fb (frame message : Wire.Frame (Tables Other))
    have hroute : routeMessage received.body = some message := by
      rw [hbody]
      exact content_frame message
    rw [handOver_frame hreceived, onMessage_route _ (by rw [hdest]; cases message <;> rfl) hroute]
    rfl
  rw [hhandled] at hwhole ⊢
  have hreceive : Network.receive w { m with flight := rest } p message =
      Network.act { m with flight := rest } (w.peer p).router
        ((n.routers (w.peer p).router).integrate message (w.peer p).conn) := by
    rw [Network.receive, h.routers]
  rw [hreceive]
  exact hrep.act hcarried _ hwhole

/-- Anything else is passed on as it is, or ends there. -/
theorem Represents.handOver_notice (h : Represents n m) {wire : Wire.State (Tables Other)}
    (hcarried : Carried fb (n.setWire p wire)) {frame : Wire.Frame (Tables Other)}
    (hnone : content frame = none) (htype : Alternative.nth frame.1.type = frame.2.body.which)
    (hsame : ∀ q, (n.setWire p wire).inFlight q = n.inFlight q)
    (hwhole : ∀ frame' ∈ (handOver w (n.setWire p wire) p (some (frame.received fb))).sent,
      Whole fb frame') :
    Represents (handOver w (n.setWire p wire) p (some (frame.received fb))) m ∧
      Carried fb (handOver w (n.setWire p wire) p (some (frame.received fb))) := by
  have hrep : Represents (n.setWire p wire) m :=
    ⟨h.routers, fun q => (h.queues q).trans (hsame q).symm⟩
  obtain ⟨header, message, hreceived, hbody, htype', -, -⟩ := received_eq fb frame
  rw [handOver_frame hreceived] at hwhole ⊢
  have hnotice : routeMessage message.body = none := hbody ▸ hnone
  obtain ⟨hrouter, hpassed⟩ := onMessage_notice ((n.setWire p wire).routers (w.peer p).router)
    header (w.peer p).conn hnotice
  refine hrep.notices hcarried hrouter (fun s hs => ?_) (fun s hs => ?_) hwhole
  · rw [hpassed s hs]
    exact .notice hnotice (by rw [htype', hbody]; exact htype)
  · rw [hpassed s hs]
    exact hnotice

theorem act_sent_subset {out : Out Other} {frame : Wire.Frame (Tables Other)}
    (h : frame ∈ n.sent) : frame ∈ (n.act i out).sent := by
  rw [act_sent]
  exact List.mem_append_left _ h

/-- Every step is one of `Network`, or leaves it where it is. -/
theorem Represents.step {ok : Network ι → Synergy.Event ι → Prop} (h : Represents n m)
    (hcarried : Carried fb n) {ev : Event ι Other} (hsound : Sound fb w n ev)
    (hok : ∀ ev', image fb n ev = some ev' → ok m ev') (hstep : n.step fb w ev = some n') :
    ∃ m', AtMostOne (Network.step w) ok m m' ∧ Represents n' m' ∧ Carried fb n' := by
  have hwhole := hsound.whole n' hstep
  cases ev with
  | connect p =>
    obtain ⟨⟨hfresh, hpeer⟩, heq⟩ := Option.ite_none_right_eq_some.mp hstep
    obtain rfl := Option.some.inj heq
    -- the two ends are added one after the other, here as there
    obtain ⟨hone, hcarried₁⟩ := h.addEnd hcarried p
      fun frame hf => hwhole frame (act_sent_subset hf)
    obtain ⟨hboth, hcarried₂⟩ := hone.addEnd hcarried₁ (w.peer p) hwhole
    refine ⟨_, .moves (hok _ rfl) ?_, hboth, hcarried₂⟩
    rw [Network.step, if_pos ⟨(h.fresh p).mp hfresh, (hone.fresh _).mp hpeer⟩]
  | disconnect p dead dead' =>
    obtain ⟨⟨hlive, hdead, hdead'⟩, heq⟩ := Option.ite_none_right_eq_some.mp hstep
    obtain rfl := Option.some.inj heq
    obtain ⟨hone, hcarried₁⟩ := h.removeEnd hcarried p dead
      fun frame hf => hwhole frame (act_sent_subset hf)
    obtain ⟨hboth, hcarried₂⟩ := hone.removeEnd hcarried₁ (w.peer p) dead' hwhole
    refine ⟨_, .moves (hok _ rfl) ?_, (hboth.lose p).lose _, (hcarried₂.lose p).lose _⟩
    rw [← h.routers] at hdead
    rw [← hone.routers] at hdead'
    rw [Network.step, if_pos ⟨(h.live p).mp hlive, hdead, hdead'⟩]
  | send i message dest =>
    obtain rfl := Option.some.inj hstep
    obtain ⟨hsame, hcarried'⟩ := h.sending hcarried hsound.notices
      (fun x hx => ⟨dest, Option.mem_toList.mp hx⟩) hwhole
    exact ⟨m, .stays, hsame, hcarried'⟩
  | notify i message =>
    obtain rfl := Option.some.inj hstep
    obtain ⟨hsame, hcarried'⟩ := h.sending hcarried hsound.notices
      (fun x hx => by
        rw [Router.notifyOtherNodes_eq] at hx
        obtain ⟨dest, -, hdest⟩ := List.mem_filterMap.mp hx
        exact ⟨dest, hdest⟩) hwhole
    exact ⟨m, .stays, hsame, hcarried'⟩
  | wire p ev =>
    -- only the end of a read is seen by the routers, and of what is read only a route message
    obtain ⟨⟨-, hsend, hfail⟩, heq⟩ := Option.ite_none_right_eq_some.mp hstep
    obtain ⟨wire, hwire, rfl⟩ := Option.map_eq_some_iff.mp heq
    obtain ⟨hcarried', hreceives⟩ := hcarried.receives hsend hfail hwire
    cases hreceives with
    | nothing hnone hsame =>
      rw [hnone] at hwhole ⊢
      exact ⟨m, .stays, ⟨h.routers, fun q => (h.queues q).trans (hsame q).symm⟩, hcarried'⟩
    | @next frame hknown hreceived hfirst hothers =>
      rw [hreceived] at hwhole ⊢
      cases hknown with
      | route message isRoute =>
        subst isRoute
        rw [content_frame] at hfirst
        obtain ⟨m', hstep', hrep⟩ :=
          h.handOver_route hcarried' message hfirst hothers hwhole
        have himage : image fb n (.wire p ev) = some (.deliver p) := by
          obtain ⟨header, received, hframe, hbody, -⟩ :=
            received_eq fb (WiredNetwork.frame message : Wire.Frame (Tables Other))
          have hroute : routeMessage received.body = some message := by
            rw [hbody]
            exact content_frame message
          simp [image, hwire, hreceived, hframe, hroute]
        exact ⟨m', .moves (hok _ himage) hstep', hrep⟩
      | notice hnone htype =>
        -- it was never in flight there
        refine ⟨m, .stays, h.handOver_notice hcarried' hnone htype (fun q => ?_) hwhole⟩
        by_cases hqp : q = p
        · rw [hqp, hfirst, hnone]
          rfl
        · exact hothers q hqp

variable {ids : ι → UInt32}

theorem represents_start : Represents (start ids : WiredNetwork ι Other) (Network.start ids) where
  routers := rfl
  queues _ := rfl

omit [DecidableEq ι] in
theorem carried_start : Carried fb (start ids : WiredNetwork ι Other) where
  wires _ := Wire.inv_initial
  known _ _ h := absurd h List.not_mem_nil

/-- The states of this network that are reached by events that are all `ok`. -/
abbrev Run (fb : FlatBuffers (Tables Other)) (w : Wiring ι)
    (ok : WiredNetwork ι Other → Event ι Other → Prop) (n₀ : WiredNetwork ι Other) :
    WiredNetwork ι Other → Prop :=
  Lib.Run (step fb w) ok n₀

theorem Run.represents {ok : WiredNetwork ι Other → Event ι Other → Prop}
    {ok' : Network ι → Synergy.Event ι → Prop} (hrun : Run fb w ok (start ids) n)
    (hsound : ∀ n ev, ok n ev → Sound fb w n ev)
    (hok : ∀ n m ev ev', ok n ev → Represents n m → image fb n ev = some ev' → ok' m ev') :
    ∃ m, Network.Run w ok' (Network.start ids) m ∧ Represents n m ∧ Carried fb n :=
  hrun.simulate (R := fun n m => Represents n m ∧ Carried fb n)
    ⟨represents_start, carried_start⟩
    fun _ _ _ _ h hev hstep =>
      h.1.step h.2 (hsound _ _ hev) (fun _ himage => hok _ _ _ _ hev h.1 himage) hstep

/-- **The wires are what `Network` takes them for.** However the frames are cut into pieces and
whatever else is sent over the same wires, the routers are in a state that they can reach in
`Network`, and on each of its ports there is in flight, in the order in which it was sent, what has
been sent there and has not been received. -/
theorem refines (hrun : Run fb w (Sound fb w) (start ids) n) :
    ∃ m, Network.Run w (fun _ _ => True) (Network.start ids) m ∧ m.routers = n.routers ∧
      ∀ p, m.queue p = n.inFlight p := by
  obtain ⟨m, hm, hrep, -⟩ := hrun.represents (fun _ _ h => h) fun _ _ _ _ _ _ _ => trivial
  exact ⟨m, hm, hrep.routers, hrep.queues⟩

/-! ## When all has been received -/

/-- What was sent on the connections that there are has been received. -/
def Settled (n : WiredNetwork ι Other) : Prop :=
  ∀ i, ∀ c ∈ (n.routers i).connections.toList,
    (n.wires ⟨i, c⟩).received.length = (n.wires ⟨i, c⟩).sender.sent.length

instance [Fintype ι] (n : WiredNetwork ι Other) : Decidable n.Settled :=
  inferInstanceAs (Decidable (∀ i, ∀ c ∈ (n.routers i).connections.toList, _))

/-- Then nothing is in flight in `Network`. -/
theorem Represents.quiet (h : Represents n m) {ids : ι → UInt32} (hlinked : Network.Linked w ids m)
    (hsettled : n.Settled) : m = n.routed := by
  have hflight : m.flight = [] := by
    refine List.eq_nil_iff_forall_not_mem.mpr fun x hx => ?_
    have hmem : x.2 ∈ m.queue x.1 := Flight.mem_queue.mpr hx
    have hlive : m.Live x.1 := hlinked.flight_live x.1 (List.ne_nil_of_mem hmem)
    have hall := hsettled x.1.router x.1.conn ((h.live x.1).mpr hlive)
    have hnone : n.inFlight x.1 = [] := by
      rw [inFlight, List.drop_of_length_le (Nat.le_of_eq hall.symm), List.filterMap_nil]
    rw [h.queues, hnone] at hmem
    exact absurd hmem List.not_mem_nil
  obtain ⟨routers, flight⟩ := m
  obtain rfl : flight = [] := hflight
  obtain rfl : routers = n.routers := h.routers
  rfl

/-- No connection breaks. -/
def Event.Grows : Event ι Other → Prop
  | .disconnect _ _ _ => False
  | .connect _ | .send _ _ _ | .notify _ _ | .wire _ _ => True

instance : (ev : Event ι Other) → Decidable ev.Grows
  | .disconnect _ _ _ => inferInstanceAs (Decidable False)
  | .connect _ | .send _ _ _ | .notify _ _ | .wire _ _ => inferInstanceAs (Decidable True)

omit [DecidableEq ι] in
theorem grows_image {ev : Event ι Other} {ev' : Synergy.Event ι} (hgrows : ev.Grows)
    (himage : image fb n ev = some ev') : ev'.Grows := by
  cases ev with
  | connect p =>
    obtain rfl := Option.some.inj himage
    trivial
  | disconnect p dead dead' => exact hgrows.elim
  | send i message dest => exact absurd himage (by simp [image])
  | notify i message => exact absurd himage (by simp [image])
  | wire p ev =>
    obtain ⟨wire, -, hframe⟩ := Option.bind_eq_some_iff.mp himage
    obtain ⟨frame, -, hroute⟩ := Option.bind_eq_some_iff.mp hframe
    obtain ⟨route, -, rfl⟩ := Option.map_eq_some_iff.mp hroute
    trivial

/-- **Shortest routes, over the wires.** Routers that are connected one after the other, while
notices pass among them, and whose connections do not break: once all that was sent has been
received, a router has a route to another one exactly when they are joined; then its cheapest one
costs the distance, and forwarding takes exactly that many hops. -/
theorem settled_routes (hinj : Function.Injective ids)
    (hrun : Run fb w (fun n ev => Sound fb w n ev ∧ ev.Grows) (start ids) n)
    (hsettled : n.Settled) {a d : ι} (hne : a ≠ d) :
    ((∃ e ∈ (n.routers a).routeTable, e.dest = ids d) ↔ (n.routed.links w).Reachable a d) ∧
    ((n.routed.links w).Reachable a d →
      n.routed.cheapest (ids d) a = some ((n.routed.links w).dist a d) ∧
      Network.relay w n.routed (ids d) ((n.routed.links w).dist a d) a = some d ∧
      ∀ k < (n.routed.links w).dist a d, ∃ j, Network.relay w n.routed (ids d) k a = some j ∧
        j ≠ d) := by
  obtain ⟨m, hm, hrep, -⟩ := hrun.represents (fun _ _ h => h.1)
    fun _ _ _ _ hev _ himage => grows_image hev.2 himage
  obtain rfl := hrep.quiet hm.linked hsettled
  have hquiet : n.routed.Quiet := rfl
  have hdown := Network.descends_offers hinj hm d
  have hup := Network.spreads_offers hinj hm hquiet d
  have haway : (n.routed.routers a).id ≠ ids d := by
    rw [hm.linked.id_eq]
    exact hinj.ne hne
  refine ⟨⟨?_, fun hr => ?_⟩, fun hr => ?_⟩
  · rintro ⟨e, he, hd⟩
    exact hdown.reachable (Or.inr ⟨e, he, hd, le_rfl⟩)
  · obtain ⟨e, he, hd, -⟩ := (hup.offers_dist hr).resolve_left haway
    exact ⟨e, he, hd⟩
  · exact ⟨Network.cheapest_eq_dist hinj hm hquiet hr, Network.relay_dist hinj hm hquiet _ hr rfl⟩

/-! ## Two routers -/

/-- The advertisement of a router that knows no other. -/
def alone (id : UInt32) : RouteAdvertisement :=
  { sender := id, routes := [{ dest := id, cost := 0, path := [] }] }

/-- Its layout: the root, with a vector of one route, of which only the destination is written. -/
def aloneLayout (id : UInt32) : List UInt8 :=
  [12, 0, 0, 0, 8, 0, 12, 0, 4, 0, 8, 0, 8, 0, 0, 0] ++ littleEndian id ++
    [4, 0, 0, 0, 1, 0, 0, 0, 12, 0, 0, 0, 0, 0, 6, 0, 8, 0, 4, 0, 6, 0, 0, 0] ++ littleEndian id

abbrev ClaimTables : Alternative → Type := Tables fun _ => UInt32 × UInt32

/-- FlatBuffers, as far as those advertisements and claims go. -/
def aloneOrClaim : FlatBuffers ClaimTables where
  pack
    | .routeAdvertisement, ra => aloneLayout (RouteAdvertisement.sender ra)
    | .serverClaim, claim => claims.pack .serverClaim claim
    | _, _ => []
  verify
    | .routeAdvertisement, bytes =>
      bytes = aloneLayout (ofLittleEndian ((bytes.drop 16).take 4))
    | .serverClaim, bytes => claims.verify .serverClaim bytes
    | _, _ => false
  unpack
    | .routeAdvertisement, bytes => alone (ofLittleEndian ((bytes.drop 16).take 4))
    | .routeRevocation, _ => ⟨⟨0, []⟩⟩
    | .helloMessage, _ | .proxyClientConnect, _ | .coreMessage, _ => (0, 0)
    | .serverClaim, bytes => claims.unpack .serverClaim bytes

instance : (a : Alternative) → DecidableEq (ClaimTables a)
  | .routeAdvertisement => inferInstanceAs (DecidableEq RouteAdvertisement)
  | .routeRevocation => inferInstanceAs (DecidableEq RouteRevocation)
  | .helloMessage | .proxyClientConnect | .serverClaim | .coreMessage =>
    inferInstanceAs (DecidableEq (UInt32 × UInt32))

/-- A frame of so many bytes of body, sent on `p`, is written, arrives in three pieces, and is
received. -/
def carry (p : Port Bool) (size : ℕ) : List (Event Bool fun _ => UInt32 × UInt32) :=
  [.sender (.resume 0), .sender (.transfer 0 (16 + size)), .transfer 16, .resume, .transfer 1,
    .resume, .transfer (size - 1), .resume, .test, .sender (.resume 0)].map (.wire p)

def pair : Wiring Bool := .ofLinks fun _ => (false, true)

def oneAndTwo : Bool → UInt32
  | false => 1
  | true => 2

/-- Two routers are connected, and the first claims to be the server. -/
def claimed : WiredNetwork Bool fun _ => UInt32 × UInt32 :=
  execs (step aloneOrClaim pair) (start oneAndTwo)
    ([.connect (.near false 7), .wire (.near false 7) .begin, .wire (.far true 7) .begin] ++
      carry (.far true 7) 48 ++ [.notify false ⟨5, 1, .table .serverClaim (1, 2)⟩] ++
      carry (.near false 7) 48 ++ carry (.near false 7) 24)

theorem claimed_run : Run aloneOrClaim pair
    (fun n ev => Sound aloneOrClaim pair n ev ∧ ev.Grows) (start oneAndTwo) claimed :=
  Run.nil.execs (by decide +kernel)

theorem refines_claimed :
    ∃ m, Network.Run pair (fun _ _ => True) (Network.start oneAndTwo) m ∧
      m.routers = claimed.routers ∧ ∀ p, m.queue p = claimed.inFlight p :=
  refines (claimed_run.mono fun _ _ h => h.1)

theorem settled_routes_claimed :
    ((∃ e ∈ (claimed.routers false).routeTable, e.dest = oneAndTwo true) ↔
      (claimed.routed.links pair).Reachable false true) ∧
    ((claimed.routed.links pair).Reachable false true →
      claimed.routed.cheapest (oneAndTwo true) false =
        some ((claimed.routed.links pair).dist false true) ∧
      Network.relay pair claimed.routed (oneAndTwo true)
        ((claimed.routed.links pair).dist false true) false = some true ∧
      ∀ k < (claimed.routed.links pair).dist false true,
        ∃ j, Network.relay pair claimed.routed (oneAndTwo true) k false = some j ∧ j ≠ true) := by
  have hinj : Function.Injective oneAndTwo := by decide +kernel
  have hsettled : claimed.Settled := by decide +kernel
  exact @settled_routes _ _ _ aloneOrClaim pair claimed oneAndTwo hinj claimed_run hsettled false
    true (by decide)

end WiredNetwork

end Synergy
