import Synergy.Proxy.ReadLoops
import Synergy.Proxy.Writes

/-!
# The tunnel between two core processes

A core client talks to the `ServerProxy` of its own node, and the core server to the `ClientProxy`
of its own. In between, `protocol::v1::Handler` takes the messages out of the frames that a read
loop has read, writes each of them again, and has the router send it as a core message; the proxy
at the other end writes the data of each core message as one frame. So what arrives is cut
differently, and what has to be shown is that it says the same.

The greetings are not sent: `on_hello_back` and `on_hello` answer for them. Each proxy says its own
greeting to its core process, on the socket that the core messages are written to as well.

While the route between two nodes stays, their messages keep the order in which they were sent;
those on a connection that breaks are lost, and so are those for which the other end has no
connection to a core process.
-/

set_option autoImplicit false

namespace Synergy

open Lib Protocol Proxy ReadLoops

structure Tunnel where
  /-- The connection to the core process that talks, and its read loop. -/
  source : ReadLoops.Connection
  /-- The data of the core messages that are on their way, the oldest first. -/
  flight : List (List UInt8)
  /-- Some of them have been lost. -/
  lost : Bool
  /-- The socket of the connection to the core process that listens. -/
  sink : Socket

namespace Tunnel

/-- Of the messages that were handed to a handler after some others, those it accepted. -/
def accepted (handle : Handle) : List Message → List Message → List Message
  | _, [] => []
  | before, m :: ms =>
    (if handle before m then [m] else []) ++ accepted handle (before ++ [m]) ms

/-- `Handler::operator ()`: the core messages that the router has taken for them. -/
def sends (handle : Handle) (before calls : List Message) : List (List UInt8) :=
  (accepted handle before calls).filterMap Message.routed

inductive Event where
  | readSome (bytes : List UInt8)
  | fail (ec : ErrorCode)
  /-- The proxy of the listener says its own greeting. -/
  | greet (m : Message)
  /-- The oldest core message arrives. -/
  | deliver
  | lose (i : Nat)
  /-- The `i`-th unfinished write to the listener transfers `n` bytes. -/
  | transfer (i n : Nat)

def initial : Tunnel :=
  { source := .initial, flight := [], lost := false, sink := .initial }

/-- The read loop has gone on, and what its handler has sent is on its way. -/
def passOn (handle : Handle) (t : Tunnel) (x : ReadLoops.Connection) : Tunnel :=
  { t with
    source := x
    flight := t.flight ++ sends handle t.source.calls (x.calls.drop t.source.calls.length) }

/-- `write` of either connection. What FlatBuffers holds is below 2^32 bytes. -/
def write (t : Tunnel) (bytes : List UInt8) : Option Tunnel :=
  if h : bytes.length < 2 ^ 32 then some { t with sink := t.sink.write ⟨bytes, h⟩ } else none

/-- What the talker said, of what the router is to carry. -/
def sent (handle : Handle) (t : Tunnel) : List Message :=
  (accepted handle [] t.source.calls).filter fun m => !m.greeting

def step (p : ReadLoop) (memory : Nat → Bool) (handle : Handle) (t : Tunnel) :
    Event → Option Tunnel
  | .readSome bytes => (t.source.readSome p memory handle bytes).map (t.passOn handle)
  | .fail ec => (t.source.fail p ec).map fun x => { t with source := x }
  | .greet m =>
    if m.greeting ∧ p.flow.admits m.type then m.writeTo.toOption.bind t.write else none
  | .deliver =>
    match t.flight with
    | [] => none
    | bytes :: flight => { t with flight := flight }.write bytes
  | .lose i =>
    if i < t.flight.length then some { t with flight := t.flight.eraseIdx i, lost := true }
    else none
  | .transfer i n =>
    (t.sink.writes.writeSome i n).map fun writes =>
      { t with sink := { t.sink with writes := writes } }

/-- No write to the listener transfers anything while an older one is unfinished. -/
def InOrder (_ : Tunnel) : Event → Prop
  | .transfer i _ => i = 0
  | _ => True

instance : (t : Tunnel) → (ev : Event) → Decidable (InOrder t ev)
  | _, .transfer i _ => inferInstanceAs (Decidable (i = 0))
  | _, .readSome _ | _, .fail _ | _, .greet _ | _, .deliver | _, .lose _ => isTrue trivial

/-- What the listener reads: frames that each hold one message. -/
def Decodes (flow : Flow) (stream : List UInt8) (ms : List Message) : Prop :=
  ∃ frames rest, Frames 4 BigEndian.ofBytes stream frames rest ∧
    ¬ Whole 4 BigEndian.ofBytes rest ∧
    List.Forall₂ (fun frame m => process flow (fun _ _ => true) frame.2 = (.ok true, [m])) frames ms

/-- The bytes are a message of the flow. -/
structure Carries (flow : Flow) (bytes : List UInt8) (m : Message) : Prop where
  admits : flow.admits m.type
  encodes : m.writeTo = .ok bytes

/-! ## What the handler is handed -/

theorem accepted_append (handle : Handle) (before ms ms' : List Message) :
    accepted handle before (ms ++ ms') =
      accepted handle before ms ++ accepted handle (before ++ ms) ms' := by
  induction ms generalizing before with
  | nil => simp [accepted]
  | cons m ms ih => simp [accepted, ih]

theorem mem_of_mem_accepted {handle : Handle} {before ms : List Message} {m : Message}
    (h : m ∈ accepted handle before ms) : m ∈ ms := by
  induction ms generalizing before with
  | nil => exact absurd h (by simp [accepted])
  | cons m' ms ih =>
    rw [accepted, List.mem_append] at h
    rcases h with h | h
    · split at h
      · rw [List.mem_singleton.mp h]
        exact List.mem_cons_self
      · exact absurd h (by simp)
    · exact List.mem_cons_of_mem _ (ih h)

theorem mem_handled {handle : Handle} {calls ms : List Message} {m : Message}
    (h : m ∈ (handled handle calls ms).1) : m ∈ calls ∨ m ∈ ms := by
  induction ms generalizing calls with
  | nil => exact .inl h
  | cons m' ms ih =>
    rw [handled] at h
    split at h
    · rcases ih h with hcalls | hms
      · rcases List.mem_append.mp hcalls with hold | hnew
        · exact .inl hold
        · exact .inr (by rw [List.mem_singleton.mp hnew]; simp)
      · exact .inr (by simp [hms])
    · rcases List.mem_append.mp h with hold | hnew
      · exact .inl hold
      · exact .inr (by rw [List.mem_singleton.mp hnew]; simp)

/-- Where there is no complete message nothing more is handed over. -/
theorem scan_of_stuck {flow : Flow} {rest : List UInt8} (h : Stuck flow rest) (handle : Handle)
    (calls : List Message) : (scan flow handle calls rest).2 = calls := by
  by_cases hrest : rest = []
  · rw [hrest, scan_nil]
  · by_cases hover : flow.overlong rest
    · obtain ⟨what, hwhat⟩ := scan_overlong hover handle calls
      rw [hwhat]
    · rw [scan_cut h hrest hover]

theorem writeTo_of_mem {ms : List Message} {all : List UInt8}
    (h : writeEach Message.writeTo ms = .ok all) : ∀ m ∈ ms, ∃ out, m.writeTo = .ok out := by
  induction ms generalizing all with
  | nil => simp
  | cons m ms ih =>
    obtain ⟨out, out', hout, hout', -⟩ := writeEach_cons_eq_ok.mp h
    intro m' hm'
    rcases List.mem_cons.mp hm' with rfl | hm'
    · exact ⟨out, hout⟩
    · exact ih hout' m' hm'

/-- Every message that is handed over is one of the flow. -/
theorem carries_of_mem_process {flow : Flow} {handle : Handle} {body : List UInt8} {m : Message}
    (h : m ∈ (process flow handle body).2) : ∃ bytes, Carries flow bytes m := by
  obtain ⟨ms, rest, hfront, hstuck⟩ := exists_front_stuck flow body
  have hmem : m ∈ (handled handle [] ms).1 := by
    rw [process, scan_front hfront] at h
    split at h
    · rwa [scan_of_stuck hstuck] at h
    · exact h
  obtain ⟨hadmits, all, hall, -⟩ := hfront
  have hms : m ∈ ms := by simpa using mem_handled hmem
  obtain ⟨out, hout⟩ := writeTo_of_mem hall m hms
  exact ⟨out, hadmits m hms, hout⟩

section

variable {p : ReadLoop} {memory : Nat → Bool} {handle : Handle}

theorem processed_calls (x : ReadLoops.Connection) (field body : List UInt8) :
    (x.processed p handle field body).calls =
      x.calls ++ (Connection.answer p handle x.calls body).2 := by
  unfold Connection.processed
  dsimp only
  split <;> rfl

theorem sized_calls (x : ReadLoops.Connection) (field : List UInt8) :
    ∃ more, (x.sized p memory handle field).calls = x.calls ++ more ∧
      ∀ m ∈ more, ∃ bytes, Carries p.flow bytes m := by
  unfold Connection.sized
  split
  · exact ⟨[], (List.append_nil _).symm, by simp⟩
  · split
    · exact ⟨_, processed_calls x field [], fun m hm => carries_of_mem_process hm⟩
    · exact ⟨[], (List.append_nil _).symm, by simp⟩

/-- A read hands over messages of the flow, if any. -/
theorem readSome_calls {x y : ReadLoops.Connection} {bytes : List UInt8}
    (h : x.readSome p memory handle bytes = some y) :
    ∃ more, y.calls = x.calls ++ more ∧ ∀ m ∈ more, ∃ bytes, Carries p.flow bytes m := by
  unfold Connection.readSome at h
  cases hreading : x.reading with
  | size got =>
    simp only [hreading] at h
    split at h
    · exact absurd h (by simp)
    · split at h
      · cases h
        exact sized_calls { x with stream := x.stream ++ bytes } _
      · cases h
        exact ⟨[], (List.append_nil _).symm, by simp⟩
  | body field got =>
    simp only [hreading] at h
    split at h
    · exact absurd h (by simp)
    · split at h
      · cases h
        exact ⟨_, processed_calls { x with stream := x.stream ++ bytes } field _,
          fun m hm => carries_of_mem_process hm⟩
      · cases h
        exact ⟨[], (List.append_nil _).symm, by simp⟩
  | done => exact absurd h (by simp [hreading])
  | escaped e => exact absurd h (by simp [hreading])

theorem fail_calls {x y : ReadLoops.Connection} {ec : ErrorCode} (h : x.fail p ec = some y) :
    y.calls = x.calls := by
  unfold Connection.fail at h
  cases hreading : x.reading with
  | size got =>
    simp only [hreading] at h
    cases h
    rfl
  | body field got =>
    simp only [hreading] at h
    split at h
    · cases h
      rfl
    · cases h
      rfl
  | done => exact absurd h (by simp [hreading])
  | escaped e => exact absurd h (by simp [hreading])

end

/-! ## What is on its way -/

/-- Each message that is sent is on its way as its own encoding. -/
theorem forall₂_routed {flow : Flow} {ms : List Message}
    (h : ∀ m ∈ ms, ∃ bytes, Carries flow bytes m) :
    List.Forall₂ (Carries flow) (ms.filterMap Message.routed)
      (ms.filter fun m => !m.greeting) := by
  induction ms with
  | nil => exact .nil
  | cons m ms ih =>
    obtain ⟨bytes, hbytes⟩ := h m (by simp)
    have htail := ih fun m' hm' => h m' (by simp [hm'])
    rw [List.filterMap_cons, Message.routed_of_writeTo hbytes.encodes, List.filter_cons]
    cases m.greeting with
    | true => exact htail
    | false => exact .cons hbytes htail

/-- Where every message is: written or being written to the listener, on its way, or lost. -/
structure Faithful (flow : Flow) (handle : Handle) (t : Tunnel) (ms coming : List Message) :
    Prop where
  delivered : List.Forall₂ (Carries flow) (t.sink.delivered.map Data.bytes) ms
  flight : List.Forall₂ (Carries flow) t.flight coming
  sub : ((ms.filter fun m => !m.greeting) ++ coming).Sublist (t.sent handle)
  all : t.lost = false → (ms.filter fun m => !m.greeting) ++ coming = t.sent handle
  whole : t.sink.Whole
  silent : ∀ m ∈ coming, m.greeting = false

namespace Faithful

variable {p : ReadLoop} {memory : Nat → Bool} {handle : Handle} {t t' : Tunnel}
  {ms coming : List Message}

theorem initial : Faithful p.flow handle initial [] [] where
  delivered := .nil
  flight := .nil
  sub := List.Sublist.refl []
  all _ := rfl
  whole := rfl
  silent := by simp

theorem passOn (h : Faithful p.flow handle t ms coming) {x : ReadLoops.Connection}
    {more : List Message} (hcalls : x.calls = t.source.calls ++ more)
    (hmore : ∀ m ∈ more, ∃ bytes, Carries p.flow bytes m) :
    Faithful p.flow handle (t.passOn handle x) ms
      (coming ++ (accepted handle t.source.calls more).filter fun m => !m.greeting) := by
  have hsends : x.calls.drop t.source.calls.length = more := by rw [hcalls, List.drop_left]
  have hsent : (t.passOn handle x).sent handle =
      t.sent handle ++ (accepted handle t.source.calls more).filter fun m => !m.greeting := by
    simp only [sent, Tunnel.passOn, hcalls, accepted_append, List.nil_append, List.filter_append]
  refine ⟨h.delivered, ?_, ?_, ?_, h.whole, ?_⟩
  · show List.Forall₂ _ (t.flight ++ sends handle t.source.calls _) _
    rw [hsends]
    exact List.rel_append h.flight
      (forall₂_routed fun m hm => hmore m (mem_of_mem_accepted hm))
  · rw [hsent, ← List.append_assoc]
    exact h.sub.append (List.Sublist.refl _)
  · intro hlost
    rw [hsent, ← List.append_assoc, h.all hlost]
  · intro m hm
    rcases List.mem_append.mp hm with hold | hnew
    · exact h.silent m hold
    · simpa using (List.mem_filter.mp hnew).2

theorem fail (h : Faithful p.flow handle t ms coming) {x : ReadLoops.Connection}
    (hcalls : x.calls = t.source.calls) :
    Faithful p.flow handle { t with source := x } ms coming := by
  have hsent : sent handle { t with source := x } = t.sent handle := by
    rw [sent, sent, hcalls]
  refine ⟨h.delivered, h.flight, ?_, ?_, h.whole, h.silent⟩
  · rw [hsent]
    exact h.sub
  · rw [hsent]
    exact h.all

theorem delivered_write {flow : Flow} {bytes : List UInt8} {m : Message}
    (h : List.Forall₂ (Carries flow) (t.sink.delivered.map Data.bytes) ms)
    (hm : Carries flow bytes m) (hwrite : t.write bytes = some t') :
    List.Forall₂ (Carries flow) (t'.sink.delivered.map Data.bytes) (ms ++ [m]) := by
  unfold write at hwrite
  split at hwrite
  · cases hwrite
    simp only [Socket.write, List.map_append, List.map_cons, List.map_nil]
    exact List.rel_append h (.cons hm .nil)
  · exact absurd hwrite (by simp)

theorem write_frame {bytes : List UInt8} (hwrite : t.write bytes = some t')
    (hwhole : t.sink.Whole) :
    t'.source = t.source ∧ t'.flight = t.flight ∧ t'.lost = t.lost ∧ t'.sink.Whole := by
  unfold write at hwrite
  split at hwrite
  · rename_i hshort
    cases hwrite
    have hstep : t.sink.step (.deliver ⟨bytes, hshort⟩) = some (t.sink.write ⟨bytes, hshort⟩) := rfl
    have hinOrder : t.sink.InOrder (.deliver ⟨bytes, hshort⟩) := trivial
    exact ⟨rfl, rfl, rfl, hwhole.step hinOrder hstep⟩
  · exact absurd hwrite (by simp)

theorem greet (h : Faithful p.flow handle t ms coming) {bytes : List UInt8} {m : Message}
    (hm : Carries p.flow bytes m) (hgreeting : m.greeting = true)
    (hwrite : t.write bytes = some t') : Faithful p.flow handle t' (ms ++ [m]) coming := by
  obtain ⟨hsource, hflight, hlost, hwhole⟩ := write_frame hwrite h.whole
  have hsent : t'.sent handle = t.sent handle := by rw [sent, sent, hsource]
  have hfilter : (ms ++ [m]).filter (fun m => !m.greeting) = ms.filter fun m => !m.greeting := by
    simp [hgreeting]
  refine ⟨delivered_write h.delivered hm hwrite, hflight ▸ h.flight, ?_, ?_, hwhole, h.silent⟩
  · rw [hsent, hfilter]
    exact h.sub
  · rw [hsent, hfilter, hlost]
    exact h.all

theorem deliver {m : Message} {bytes : List UInt8} {flight : List (List UInt8)}
    (h : Faithful p.flow handle t ms (m :: coming)) (hflight : t.flight = bytes :: flight)
    (hwrite : { t with flight := flight }.write bytes = some t') :
    Faithful p.flow handle t' (ms ++ [m]) coming := by
  obtain ⟨hsource, hflight', hlost, hwhole⟩ := write_frame hwrite h.whole
  have hsent : t'.sent handle = t.sent handle := by rw [sent, sent, hsource]
  have hon := h.flight
  rw [hflight, List.forall₂_cons] at hon
  have hplain : m.greeting = false := h.silent m (by simp)
  have hmove : (ms ++ [m]).filter (fun m => !m.greeting) ++ coming =
      (ms.filter fun m => !m.greeting) ++ m :: coming := by
    simp [hplain]
  refine ⟨delivered_write (t := { t with flight := flight }) h.delivered hon.1 hwrite,
    hflight' ▸ hon.2, ?_, ?_, hwhole, fun m' hm' => h.silent m' (by simp [hm'])⟩
  · rw [hsent, hmove]
    exact h.sub
  · rw [hsent, hmove, hlost]
    exact h.all

theorem lose (h : Faithful p.flow handle t ms coming) (i : Nat) :
    Faithful p.flow handle { t with flight := t.flight.eraseIdx i, lost := true } ms
      (coming.eraseIdx i) := by
  refine ⟨h.delivered, ?_, ?_, fun hlost => absurd hlost (by simp), h.whole, ?_⟩
  · rw [List.eraseIdx_eq_take_drop_succ, List.eraseIdx_eq_take_drop_succ]
    exact List.rel_append (List.forall₂_take i h.flight) (List.forall₂_drop (i + 1) h.flight)
  · exact ((List.Sublist.refl _).append (List.eraseIdx_sublist coming i)).trans h.sub
  · intro m hm
    exact h.silent m (List.mem_of_mem_eraseIdx hm)

theorem transfer (h : Faithful p.flow handle t ms coming) {n : Nat} {writes : Writes UInt8}
    (hwrites : t.sink.writes.writeSome 0 n = some writes) :
    Faithful p.flow handle { t with sink := { t.sink with writes := writes } } ms coming :=
  ⟨h.delivered, h.flight, h.sub, h.all, (Writes.total_writeSome_zero hwrites).trans h.whole,
    h.silent⟩

/-- Every step keeps it. -/
theorem step {ev : Event} (h : ∃ ms coming, Faithful p.flow handle t ms coming) (hok : InOrder t ev)
    (hstep : step p memory handle t ev = some t') :
    ∃ ms coming, Faithful p.flow handle t' ms coming := by
  obtain ⟨ms, coming, h⟩ := h
  cases ev with
  | readSome bytes =>
    obtain ⟨x, hx, rfl⟩ := Option.map_eq_some_iff.mp hstep
    obtain ⟨more, hcalls, hmore⟩ := readSome_calls hx
    exact ⟨_, _, h.passOn hcalls hmore⟩
  | fail ec =>
    obtain ⟨x, hx, rfl⟩ := Option.map_eq_some_iff.mp hstep
    exact ⟨_, _, h.fail (fail_calls hx)⟩
  | greet m =>
    simp only [Tunnel.step] at hstep
    split at hstep
    · rename_i hgreeting
      obtain ⟨bytes, hbytes, hwrite⟩ := Option.bind_eq_some_iff.mp hstep
      have hm : Carries p.flow bytes m := by
        refine ⟨hgreeting.2, ?_⟩
        cases hout : m.writeTo with
        | error what => rw [hout] at hbytes; exact absurd hbytes (by simp [Except.toOption])
        | ok out => rw [hout] at hbytes; exact congrArg Except.ok (Option.some.inj hbytes)
      exact ⟨_, _, h.greet hm hgreeting.1 hwrite⟩
    · exact absurd hstep (by simp)
  | deliver =>
    simp only [Tunnel.step] at hstep
    split at hstep
    · exact absurd hstep (by simp)
    · rename_i bytes flight hflight
      obtain ⟨m, coming', -, -, rfl⟩ := List.forall₂_cons_left_iff.mp (hflight ▸ h.flight)
      exact ⟨_, _, h.deliver hflight hstep⟩
  | lose i =>
    simp only [Tunnel.step] at hstep
    split at hstep
    · cases hstep
      exact ⟨_, _, h.lose i⟩
    · exact absurd hstep (by simp)
  | transfer i n =>
    obtain ⟨writes, hwrites, rfl⟩ := Option.map_eq_some_iff.mp hstep
    obtain rfl : i = 0 := hok
    exact ⟨_, _, h.transfer hwrites⟩

end Faithful

/-! ## What the listener reads -/

theorem ofBytes_size {n : Nat} (h : n < 2 ^ 32) :
    BigEndian.ofBytes (BigEndian.toBytes 4 n) = n := by
  rw [BigEndian.ofBytes_toBytes]
  exact Nat.mod_eq_of_lt h

/-- A message alone in a frame is read as that message. -/
theorem process_message {flow : Flow} {bytes : List UInt8} {m : Message}
    (h : Carries flow bytes m) : process flow (fun _ _ => true) bytes = (.ok true, [m]) := by
  have hscan := scan_message h.admits h.encodes [] (fun _ _ => true) []
  rw [List.append_nil, if_pos rfl, scan_nil] at hscan
  exact hscan

/-- From a part of the stream the listener reads the first of the messages, and all of them from
all of it. -/
theorem decodes_of_prefix {flow : Flow} {stream : List UInt8} {datas : List Data}
    {ms : List Message} (hms : List.Forall₂ (Carries flow) (datas.map Data.bytes) ms)
    (h : stream <+: (datas.map frame).flatten) :
    ∃ k, Decodes flow stream (ms.take k) ∧
      (stream = (datas.map frame).flatten → ms.take k = ms) := by
  let written := datas.map fun data => (BigEndian.toBytes 4 data.bytes.length, data.bytes)
  have hwritten : (written.map fun frame => frame.1 ++ frame.2) = datas.map frame := by
    simp [written, frame]
  have hframes : ∀ frame ∈ written, frame.1.length = 4 ∧
      frame.2.length = BigEndian.ofBytes frame.1 := by
    intro frame hframe
    obtain ⟨data, -, rfl⟩ := List.mem_map.mp hframe
    exact ⟨BigEndian.length_toBytes 4 _, (ofBytes_size data.short).symm⟩
  have hread : List.Forall₂ (fun frame m =>
      process flow (fun _ _ => true) frame.2 = (.ok true, [m])) written ms := by
    rw [List.forall₂_map_left_iff] at hms ⊢
    exact hms.imp fun data m hm => process_message hm
  rw [← hwritten] at h
  obtain ⟨k, rest, hfront, hrest, hall⟩ := Frames.exists_of_prefix (by decide) hframes h
  refine ⟨k, ⟨_, rest, hfront, hrest, List.forall₂_take k hread⟩, ?_⟩
  intro hstream
  have hlength := congrArg List.length (hall (hstream.trans (congrArg _ hwritten.symm)))
  rw [List.length_take, hread.length_eq] at hlength
  exact List.take_of_length_le (by omega)

variable {p : ReadLoop} {memory : Nat → Bool} {handle : Handle} {t : Tunnel}

theorem exists_faithful (h : Lib.Run (step p memory handle) InOrder initial t) :
    ∃ ms coming, Faithful p.flow handle t ms coming := by
  apply h.invariant
  · exact ⟨[], [], Faithful.initial⟩
  · intro s s' ev _ hs hok hstep
    exact Faithful.step hs hok hstep

/-- From what has been written so far the listener reads the first of the messages. -/
theorem Faithful.decodes {flow : Flow} {ms coming : List Message}
    (h : Faithful flow handle t ms coming) :
    ∃ k, Decodes flow t.sink.writes.stream (ms.take k) ∧
      (t.sink.writes.unfinished = [] → ms.take k = ms) := by
  obtain ⟨k, hdecodes, hk⟩ := decodes_of_prefix h.delivered ⟨_, h.whole⟩
  refine ⟨k, hdecodes, fun hunfinished => hk ?_⟩
  have hwhole := h.whole
  rw [Socket.Whole, Writes.total, hunfinished] at hwhole
  simpa using hwhole

theorem Faithful.coming_eq_nil {flow : Flow} {ms coming : List Message}
    (h : Faithful flow handle t ms coming) (hflight : t.flight = []) : coming = [] := by
  have hnone := h.flight
  rw [hflight] at hnone
  exact List.forall₂_nil_left_iff.mp hnone

/-- **The tunnel says nothing that the talker did not say.** Whatever the talker sends, however
its bytes and the transfers to the listener are cut, and whatever is lost on the way: the listener
reads whole messages of the flow, and those that are no greeting are messages of the talker in
their order. As long as nothing is lost none is missing in between, and in the end none at all. -/
theorem listener_hears (h : Lib.Run (step p memory handle) InOrder initial t) :
    ∃ ms, Decodes p.flow t.sink.writes.stream ms ∧
      (ms.filter fun m => !m.greeting).Sublist (t.sent handle) ∧
      (t.lost = false → (ms.filter fun m => !m.greeting) <+: t.sent handle) ∧
      (t.lost = false → t.flight = [] → t.sink.writes.unfinished = [] →
        (ms.filter fun m => !m.greeting) = t.sent handle) := by
  obtain ⟨all, coming, hall⟩ := exists_faithful h
  obtain ⟨k, hdecodes, hk⟩ := hall.decodes
  have htake : ((all.take k).filter fun m => !m.greeting) <+:
      (all.filter fun m => !m.greeting) ++ coming :=
    ((List.take_prefix k all).filter _).trans (List.prefix_append _ coming)
  refine ⟨all.take k, hdecodes, htake.sublist.trans hall.sub, ?_, ?_⟩
  · intro hlost
    rw [← hall.all hlost]
    exact htake
  · intro hlost hflight hunfinished
    rw [hk hunfinished, ← hall.all hlost, hall.coming_eq_nil hflight, List.append_nil]

def keepAlive : Message := ⟨.keepAlive, ()⟩

def infoAck : Message := ⟨.infoAck, ()⟩

/-- The core server is greeted, and two messages come in one frame. -/
def twoInOne : Tunnel :=
  execs (step serverProxyConnection (fun _ => true) fun _ _ => true) initial
    [.greet answer, .transfer 0 3, .readSome [0, 0], .readSome [0, 8], .transfer 0 18,
      .readSome (MessageType.keepAlive.tag ++ MessageType.infoAck.tag), .deliver, .transfer 0 8,
      .deliver, .transfer 0 2, .transfer 0 6]

theorem listener_hears_twoInOne :
    twoInOne.lost = false ∧ twoInOne.flight = [] ∧ twoInOne.sink.writes.unfinished = [] ∧
      ∃ ms, Decodes serverProxyConnection.flow twoInOne.sink.writes.stream ms ∧
        (ms.filter fun m => !m.greeting).Sublist (twoInOne.sent fun _ _ => true) ∧
        (twoInOne.lost = false →
          (ms.filter fun m => !m.greeting) <+: twoInOne.sent fun _ _ => true) ∧
        (twoInOne.lost = false → twoInOne.flight = [] → twoInOne.sink.writes.unfinished = [] →
          (ms.filter fun m => !m.greeting) = twoInOne.sent fun _ _ => true) :=
  ⟨by decide +kernel, by decide +kernel, by decide +kernel, listener_hears
    (Run.nil.execs (by decide +kernel) :
      Lib.Run (step serverProxyConnection (fun _ => true) fun _ _ => true) InOrder initial
        twoInOne)⟩

/-! ## A talker that keeps to the protocol -/

/-- A stream of frames, each of which holds messages of the flow and has room. -/
inductive Speech (flow : Flow) (memory : Nat → Bool) : List (List Message) → List UInt8 → Prop
  | nil : Speech flow memory [] []
  | cons {ms : List Message} {body stream : List UInt8} {speech : List (List Message)}
    (admits : ∀ m ∈ ms, flow.admits m.type) (encodes : writeEach Message.writeTo ms = .ok body)
    (short : body.length < 2 ^ 31) (room : memory body.length = true)
    (tail : Speech flow memory speech stream) :
    Speech flow memory (ms :: speech) (BigEndian.toBytes 4 body.length ++ (body ++ stream))

/-- Both read loops read the sizes below 2^31 as they are. -/
theorem sizeOf_toBytes (hp : p = serverProxyConnection ∨ p = clientProxyConnection) {n : Nat}
    (hn : n < 2 ^ 31) : p.sizeOf (BigEndian.toBytes 4 n) = n := by
  have hn' : n < 2 ^ 32 := Nat.lt_trans hn (by decide)
  have hsize : (UInt32.ofNat n).toNat = n := UInt32.toNat_ofNat_of_lt' hn'
  unfold ReadLoop.sizeOf
  rw [ofBytes_size hn']
  rcases hp with rfl | rfl
  · simpa [serverProxyConnection] using hsize
  · -- the sign bit is not set
    show ((UInt32.ofNat n).toBitVec.signExtend 64).toNat = n
    rw [BitVec.signExtend_eq_setWidth_of_msb_false]
    · simp only [BitVec.toNat_setWidth, UInt32.toNat_toBitVec, hsize]
      omega
    · rw [BitVec.msb_eq_decide]
      simp only [UInt32.toNat_toBitVec, hsize, decide_eq_false_iff_not]
      omega

/-- A handler that accepts everything is handed all that is said. -/
theorem Speech.frames (hp : p = serverProxyConnection ∨ p = clientProxyConnection)
    {speech : List (List Message)} {stream : List UInt8} (h : Speech p.flow memory speech stream) :
    ∃ frames, Frames 4 p.sizeOf stream frames [] ∧
      (∀ frame ∈ frames, resize memory (p.sizeOf frame.1) = .ok ()) ∧
      ∀ calls, passes p (fun _ _ => true) calls frames = some (calls ++ speech.flatten) := by
  induction h with
  | nil => exact ⟨[], .nil [], by simp, by simp [passes]⟩
  | @cons ms body stream speech admits encodes short room tail ih =>
    obtain ⟨frames, hfront, hroom, hpasses⟩ := ih
    have hsize := sizeOf_toBytes hp short
    refine ⟨(BigEndian.toBytes 4 body.length, body) :: frames,
      .cons (BigEndian.length_toBytes 4 _) hsize.symm hfront, ?_, ?_⟩
    · intro frame hframe
      rcases List.mem_cons.mp hframe with rfl | hframe
      · have hlarge : ¬ 2 ^ 63 ≤ body.length := by omega
        simp only [hsize, resize, if_neg hlarge, room, if_true]
      · exact hroom frame hframe
    · intro calls
      have hanswer : Connection.answer p (fun _ _ => true) calls body = (.ok true, ms) := by
        have hbody : Front p.flow body ms [] := ⟨admits, body, encodes, by simp⟩
        rw [Connection.answer, process, scan_front hbody, handled_true, scan_nil]
        rfl
      rw [passes]
      simp only [hanswer, hpasses, List.flatten_cons, List.append_assoc]

/-- A read loop that has read all that is said has handed over all of it. -/
theorem calls_of_speech (hp : p = serverProxyConnection ∨ p = clientProxyConnection)
    {speech : List (List Message)} {x : ReadLoops.Connection}
    (hspeech : Speech p.flow memory speech x.stream)
    (h : Sound p memory (fun _ _ => true) x) : x.calls = speech.flatten := by
  obtain ⟨frames, hfront, hroom, hpasses⟩ := hspeech.frames hp
  -- nothing is left of the stream behind the frames that were taken
  have hnothing : ∀ {rest : List UInt8}, Frames 4 p.sizeOf x.stream x.frames rest →
      ¬ Whole 4 p.sizeOf rest → x.frames = frames ∧ rest = [] := by
    intro rest hrest hwhole
    obtain ⟨tail, rfl, htail⟩ := hfront.unique not_whole_nil hrest
    cases htail with
    | nil => exact ⟨(List.append_nil _).symm, rfl⟩
    | cons hfield hbody hmore => exact absurd ⟨_, _, _, hfield, hbody, rfl⟩ hwhole
  have hall : ∀ {calls : List Message}, x.frames = frames →
      passes p (fun _ _ => true) [] x.frames = some calls → calls = speech.flatten := by
    intro calls hframes hpassed
    rw [hframes, hpasses, List.nil_append] at hpassed
    exact (Option.some.inj hpassed).symm
  cases h with
  | size got reading short before runs =>
    exact hall (hnothing before.front (not_whole_of_length_lt short)).1 before.passed
  | body field got reading middle before runs =>
    obtain ⟨-, hnil⟩ := hnothing before.front (not_whole_of_short middle.width middle.short)
    rw [(List.append_eq_nil_iff.mp hnil).1] at middle
    exact absurd middle.width (by simp)
  | rejected reading before earlier last ended =>
    obtain ⟨hframes, -⟩ := hnothing before.front not_whole_nil
    rw [hframes, hpasses] at last
    exact absurd last (by simp)
  | cutSize ec got reading short before ended =>
    exact hall (hnothing before.front (not_whole_of_length_lt short)).1 before.passed
  | cutBody ec field got reading breaks middle before ended =>
    obtain ⟨-, hnil⟩ := hnothing before.front (not_whole_of_short middle.width middle.short)
    rw [(List.append_eq_nil_iff.mp hnil).1] at middle
    exact absurd middle.width (by simp)
  | refused e field reading width noRoom before ended =>
    obtain ⟨tail, rfl, htail⟩ := hfront.unique not_whole_nil before.front
    cases htail with
    | nil => exact absurd width (by simp)
    | @cons field' body more _ tail hfield hbody hmore =>
      have hok := hroom (field', body) (by simp)
      have hempty : (body ++ more).length = 0 := by
        rw [List.length_append] at width
        omega
      rw [List.length_eq_zero_iff.mp hempty, List.append_nil, hok] at noRoom
      exact absurd noRoom (by simp)
  | thrown ec field got reading throws middle before ended =>
    obtain ⟨-, hnil⟩ := hnothing before.front (not_whole_of_short middle.width middle.short)
    rw [(List.append_eq_nil_iff.mp hnil).1] at middle
    exact absurd middle.width (by simp)

theorem accepted_true (before ms : List Message) : accepted (fun _ _ => true) before ms = ms := by
  induction ms generalizing before with
  | nil => rfl
  | cons m ms ih => simp [accepted, ih]

theorem source_write {t t' : Tunnel} {bytes : List UInt8} (h : t.write bytes = some t') :
    t'.source = t.source := by
  unfold write at h
  split at h
  · cases h
    rfl
  · exact absurd h (by simp)

/-- Only its own reads move the read loop. -/
theorem source_step {t t' : Tunnel} {ev : Event} (h : step p memory handle t ev = some t') :
    t'.source = t.source ∨ (∃ bytes, t.source.readSome p memory handle bytes = some t'.source) ∨
      ∃ ec, t.source.fail p ec = some t'.source := by
  cases ev with
  | readSome bytes =>
    obtain ⟨x, hx, rfl⟩ := Option.map_eq_some_iff.mp h
    exact .inr (.inl ⟨bytes, hx⟩)
  | fail ec =>
    obtain ⟨x, hx, rfl⟩ := Option.map_eq_some_iff.mp h
    exact .inr (.inr ⟨ec, hx⟩)
  | greet m =>
    simp only [step] at h
    split at h
    · obtain ⟨bytes, -, hwrite⟩ := Option.bind_eq_some_iff.mp h
      exact .inl (source_write hwrite)
    · exact absurd h (by simp)
  | deliver =>
    simp only [step] at h
    split at h
    · exact absurd h (by simp)
    · rename_i bytes flight hflight
      exact .inl (source_write (t := { t with flight := flight }) h)
  | lose i =>
    simp only [step] at h
    split at h
    · cases h
      exact .inl rfl
    · exact absurd h (by simp)
  | transfer i n =>
    obtain ⟨writes, -, rfl⟩ := Option.map_eq_some_iff.mp h
    exact .inl rfl

theorem source_sound (h : Lib.Run (step p memory handle) InOrder initial t) :
    Sound p memory handle t.source := by
  apply h.invariant
  · exact Sound.initial
  · intro s s' ev _ hs _ hstep
    rcases source_step hstep with hsame | ⟨bytes, hread⟩ | ⟨ec, hfail⟩
    · rw [hsame]
      exact hs
    · exact hs.readSome hread
    · exact hs.fail hfail

/-- **What is said arrives.** A talker whose frames hold messages of the flow, however many in each
and however they are cut; a router that takes them all and loses none; then, once the tunnel is
empty, the listener has read all the messages and, apart from greetings, no others. -/
theorem speech_arrives (hp : p = serverProxyConnection ∨ p = clientProxyConnection)
    {speech : List (List Message)}
    (h : Lib.Run (step p memory fun _ _ => true) InOrder initial t)
    (hspeech : Speech p.flow memory speech t.source.stream) (hlost : t.lost = false)
    (hflight : t.flight = []) (hunfinished : t.sink.writes.unfinished = []) :
    ∃ ms, Decodes p.flow t.sink.writes.stream ms ∧
      (ms.filter fun m => !m.greeting) = speech.flatten.filter fun m => !m.greeting := by
  obtain ⟨all, coming, hall⟩ := exists_faithful h
  obtain ⟨k, hdecodes, hk⟩ := hall.decodes
  refine ⟨all.take k, hdecodes, ?_⟩
  have hsent := hall.all hlost
  rw [hall.coming_eq_nil hflight, List.append_nil, sent, accepted_true,
    calls_of_speech hp hspeech (source_sound h)] at hsent
  rw [hk hunfinished, hsent]

theorem speech_twoInOne :
    Speech .cts (fun _ => true) [[keepAlive, infoAck]] twoInOne.source.stream := by
  have hstream : twoInOne.source.stream = BigEndian.toBytes 4 8 ++
      ((MessageType.keepAlive.tag ++ MessageType.infoAck.tag) ++ []) := by decide +kernel
  have hbody : writeEach Message.writeTo [keepAlive, infoAck] =
      .ok (MessageType.keepAlive.tag ++ MessageType.infoAck.tag) := rfl
  have hadmits : ∀ m ∈ [keepAlive, infoAck], Flow.cts.admits m.type := by
    simp only [List.forall_mem_cons, List.not_mem_nil, IsEmpty.forall_iff, implies_true, and_true]
    decide
  rw [hstream]
  exact .cons hadmits hbody (by decide +kernel) rfl .nil

theorem speech_arrives_twoInOne :
    ∃ ms, Decodes serverProxyConnection.flow twoInOne.sink.writes.stream ms ∧
      (ms.filter fun m => !m.greeting) =
        [[keepAlive, infoAck]].flatten.filter fun m => !m.greeting :=
  speech_arrives (.inl rfl)
    (Run.nil.execs (by decide +kernel) :
      Lib.Run (step serverProxyConnection (fun _ => true) fun _ _ => true) InOrder initial twoInOne)
    speech_twoInOne (by decide +kernel) (by decide +kernel) (by decide +kernel)

end Tunnel

end Synergy
