import Synergy.Service.Framing
import Synergy.Service.SendQueue
import Synergy.Service.Timeouts

/-!
# One direction of a connection

The send queue of one `Connection`, the bytes that it has written, and the receive loop of the
`Connection` at the other end. `Session` says where the loop is suspended and how many bytes it asks
for; here the bytes are there too, so what a read means is what `MessageReader` makes of them.

Bytes arrive in pieces of any length, between any steps of the two coroutines, but they arrive in
order, and while neither a read nor a write fails nor a timer expires. The invariant is `Reading`:
behind the frames that were received the loop is at some byte of the next one, and if it has read a
header then it is the header of that one.
-/

set_option autoImplicit false

namespace Synergy.Wire

open Lib Framing

variable {Table : Alternative → Type}

/-- A call of `Connection::send`. -/
abbrev Frame (Table : Alternative → Type) := Framing.MessageHeader × Framing.Message Table

/-- What `read_header` gives, and `read_body`. -/
abbrev ReadFrame (Table : Alternative → Type) :=
  Framing.MessageHeader × Option (Framing.Message Table)

namespace Frame

variable (fb : FlatBuffers Table)

def encode (frame : Frame Table) : List UInt8 := write fb frame.1 frame.2

/-- The header as it is written. -/
def written (frame : Frame Table) : Framing.MessageHeader :=
  { frame.1 with size := UInt32.ofNat (payload fb frame.2.body).length }

/-- The frame as it is received: with the size of its body, and one hop less to live. -/
def received (frame : Frame Table) : ReadFrame Table :=
  let header := (written fb frame).relayed
  (header, some { type := header.type, ttl := header.ttl, body := frame.2.body })

/-- What was packed verifies, and is unpacked to the same; so FlatBuffers documents it of buffers
that are not too long. -/
def Kept : Framing.Body Table → Prop
  | .unknown _ => True
  | .table a t => fb.verify a (fb.pack a t) = true ∧ fb.unpack a (fb.pack a t) = t

instance [∀ a, DecidableEq (Table a)] : (body : Framing.Body Table) → Decidable (Kept fb body)
  | .unknown _ => inferInstanceAs (Decidable True)
  | .table _ _ => inferInstanceAs (Decidable (_ ∧ _))

/-- The type is that of the body, and the body keeps what is in it. -/
structure Sendable (frame : Frame Table) : Prop where
  type : Alternative.nth frame.1.type = frame.2.body.which
  fits : Fits fb frame
  kept : Kept fb frame.2.body

instance [∀ a, DecidableEq (Table a)] (frame : Frame Table) : Decidable (frame.Sendable fb) :=
  decidable_of_iff (Alternative.nth frame.1.type = frame.2.body.which ∧
      (payload fb frame.2.body).length < 2 ^ 32 ∧ Kept fb frame.2.body)
    ⟨fun h => ⟨h.1, h.2.1, h.2.2⟩, fun h => ⟨h.type, h.fits, h.kept⟩⟩

end Frame

/-! ## The receiving end -/

structure Receiver where
  session : Session
  /-- `header`, in the loop of `Connection::start`. -/
  header : Framing.MessageHeader
  /-- What the read that is going on has transferred. -/
  buffer : List UInt8
  deriving DecidableEq

namespace Receiver

/-- The coroutine has been spawned. -/
def spawned : Receiver where
  session := { Session.initial with loop := .spawned }
  header := ⟨0, 0, 0, 0, 0, 0xFFFFFFFF, 0xFFFFFFFF⟩
  buffer := []

/-- The fields of a header that reading depends on. -/
def fields (header : Framing.MessageHeader) : MessageHeader :=
  ⟨header.type, header.size, header.dest⟩

/-- The coroutine runs for the first time. -/
def begin (r : Receiver) : Receiver := { r with session := r.session.begin }

/-- The outstanding operation transfers those bytes. -/
def transfer (r : Receiver) (bytes : List UInt8) : Option Receiver :=
  (r.session.transfer .success bytes.length).map fun session =>
    { r with session := session, buffer := r.buffer ++ bytes }

/-- The handler of a completed operation: the read goes on, or it was the one of the header, or the
one of the body. What the bytes of the body say is in `bodyRead`. -/
def resume (fb : FlatBuffers Table) (r : Receiver) : Option (Receiver × Option (ReadFrame Table)) :=
  let header := (Framing.MessageHeader.ofBytes r.buffer).relayed
  (r.session.resume ⟨fields header, none⟩).map fun (session, _) =>
    match r.session.loop, session.loop with
    | .reading none _, .reading (some _) _ => (⟨session, header, []⟩, none)
    | .reading (some _) _, .testing =>
      (⟨session, r.header, []⟩,
        some (r.header, (Framing.bodyRead fb r.session.reader r.header r.buffer).2))
    | _, .testing => (⟨session, r.header, []⟩, none)
    | _, _ => ({ r with session := session }, none)

/-- The tests between two frames. -/
def test (r : Receiver) : Receiver := { r with session := r.session.test.1 }

end Receiver

/-! ## The wire -/

structure State (Table : Alternative → Type) where
  sender : SendQueue.State (Frame Table)
  /-- How many bytes of the stream have arrived. -/
  arrived : ℕ
  receiver : Receiver
  /-- The frames that were received; those with a message were given to `on_message`. -/
  received : List (ReadFrame Table)

def initial : State Table := ⟨SendQueue.initial, 0, .spawned, []⟩

inductive Event (Table : Alternative → Type) where
  /-- `Connection::send`, or the writer goes on. -/
  | sender (ev : SendQueue.Event (Frame Table))
  /-- The receive loop runs for the first time. -/
  | begin
  /-- The next bytes arrive. -/
  | transfer (n : ℕ)
  /-- The handler of a completed read runs. -/
  | resume
  /-- `enabled_` and the error code are tested. -/
  | test

def Event.isSend : Event Table → Bool
  | .sender ev => ev.isSend
  | _ => false

def Event.isFail : Event Table → Bool
  | .sender ev => ev.isFail
  | _ => false

variable (fb : FlatBuffers Table)

/-- The bytes on their way. -/
def unread (w : State Table) : List UInt8 := w.sender.stream.drop w.arrived

def step (w : State Table) : Event Table → Option (State Table)
  | .sender ev =>
    (SendQueue.step (Frame.encode fb) w.sender ev).map fun sender => { w with sender := sender }
  | .begin =>
    if w.receiver.session.loop = .spawned then some { w with receiver := w.receiver.begin }
    else none
  | .transfer n =>
    if 0 < n ∧ n ≤ (unread w).length then
      (w.receiver.transfer ((unread w).take n)).map fun receiver =>
        { w with arrived := w.arrived + n, receiver := receiver }
    else none
  | .resume =>
    (w.receiver.resume fb).map fun (receiver, frame) =>
      { w with receiver := receiver, received := w.received ++ frame.toList }
  | .test =>
    if w.receiver.session.loop = .testing then some { w with receiver := w.receiver.test } else none

/-- No write fails, and what is sent can be. -/
def Sound (_ : State Table) : Event Table → Prop
  | .sender (.send frame) => frame.Sendable fb
  | ev => ¬ ev.isFail

instance [∀ a, DecidableEq (Table a)] (w : State Table) :
    (ev : Event Table) → Decidable (Sound fb w ev)
  | .sender (.send frame) => inferInstanceAs (Decidable (frame.Sendable fb))
  | .sender (.resume _) | .sender (.transfer _ _) | .sender (.fail _) | .begin | .transfer _
  | .resume | .test => inferInstanceAs (Decidable (¬ _))

/-! ## One read -/

namespace Receiver

variable {fb : FlatBuffers Table} {r r' : Receiver} {h : Option MessageHeader} {size : ℕ}

/-- The loop is in a read of `size` bytes, and `buffer` is what it has of them. -/
inductive Progress (r : Receiver) (h : Option MessageHeader) (size : ℕ) : Prop
  | outstanding {total : ℕ} (loop : r.session.loop = .reading h ⟨total, .outstanding⟩)
      (readSize : r.session.reader.readSize = size) (length : r.buffer.length = total)
      (wants : total < size) : Progress r h size
  | queued {total bytes : ℕ} (loop : r.session.loop = .reading h ⟨total, .queued .success bytes⟩)
      (readSize : r.session.reader.readSize = size) (length : r.buffer.length = total + bytes)
      (most : total + bytes ≤ size) (none : bytes = 0 → size = 0) : Progress r h size

/-- Nothing has gone wrong. -/
structure Calm (s : Session) : Prop where
  enabled : s.enabled = true
  error : s.reader.error = .success

/-- An `async_read` that has begun. -/
theorem Progress.asyncRead {s : Session} (h : Option MessageHeader) (size : ℕ)
    (header : Framing.MessageHeader) : Progress ⟨s.asyncRead h size, header, []⟩ h size := by
  have hwanted := readChunk_wanted { s.reader with readSize := size } 0
  by_cases hzero : size = 0
  · have hnone : ({ s.reader with readSize := size }.readChunk .success 0).2 = 0 := by
      rw [hwanted]
      simp [hzero]
    have hloop : (s.asyncRead h size).loop = .reading h ⟨0, .queued .success 0⟩ := by
      simp [Session.asyncRead, AsyncRead.start, hnone]
    exact .queued hloop rfl rfl (Nat.zero_le _) fun _ => hzero
  · have hsome : ({ s.reader with readSize := size }.readChunk .success 0).2 ≠ 0 := by
      rw [hwanted]
      show min (size - 0) 65536 ≠ 0
      omega
    have hloop : (s.asyncRead h size).loop = .reading h ⟨0, .outstanding⟩ := by
      simp [Session.asyncRead, AsyncRead.start, hsome]
    exact .outstanding hloop rfl rfl (Nat.pos_of_ne_zero hzero)

theorem Progress.transfer {bytes : List UInt8} (hprogress : Progress r h size)
    (hne : bytes ≠ []) (hstep : r.transfer bytes = some r') :
    Progress r' h size ∧ r'.buffer = r.buffer ++ bytes ∧ r'.header = r.header ∧
      r'.session.enabled = r.session.enabled ∧
      r'.session.reader.error = r.session.reader.error := by
  obtain ⟨session, htransfer, rfl⟩ := Option.map_eq_some_iff.mp hstep
  unfold Session.transfer at htransfer
  cases hprogress with
  | @outstanding total loop readSize length wants =>
    rw [loop] at htransfer
    obtain ⟨⟨-, hle⟩, heq⟩ := Option.ite_none_right_eq_some.mp htransfer
    obtain rfl := Option.some.inj heq
    rw [readChunk_wanted, readSize] at hle
    refine ⟨.queued rfl readSize ?_ (by omega) ?_, rfl, rfl, rfl, rfl⟩
    · rw [List.length_append, length]
    · intro hzero
      exact absurd (List.length_eq_zero_iff.mp hzero) hne
  | queued loop => exact absurd htransfer (by simp [loop])

theorem Progress.not_spawned (hprogress : Progress r h size) : r.session.loop ≠ .spawned := by
  cases hprogress with
  | outstanding loop => simp [loop]
  | queued loop => simp [loop]

theorem Progress.not_testing (hprogress : Progress r h size) : r.session.loop ≠ .testing := by
  cases hprogress with
  | outstanding loop => simp [loop]
  | queued loop => simp [loop]

/-- Where the handler does not end the read, it goes on. -/
theorem Progress.resume_more {total bytes : ℕ} (hcalm : Calm r.session)
    (hloop : r.session.loop = .reading h ⟨total, .queued .success bytes⟩)
    (hsize : r.session.reader.readSize = size) (hlength : r.buffer.length = total + bytes)
    (hover : r.session.readOver total .success bytes = false)
    {frame : Option (ReadFrame Table)} (hstep : r.resume fb = some (r', frame)) :
    Progress r' h size ∧ Calm r'.session ∧ r'.buffer = r.buffer ∧ r'.header = r.header ∧
      frame = none := by
  have hmore : total + bytes < size := by
    simp only [Session.readOver, decide_eq_false_iff_not, not_or] at hover
    omega
  obtain ⟨reader, harms, hadvance⟩ := Session.advance_of_not_over hover
  obtain ⟨hreadSize, herror⟩ : reader.readSize = r.session.reader.readSize ∧
      reader.error = r.session.reader.error := by
    cases harms with
    | no => exact ⟨rfl, rfl⟩
    | yes => exact ⟨rfl, rfl⟩
  unfold resume Session.resume at hstep
  simp only [hloop, hadvance, Option.map_some, Option.some.injEq, Prod.mk.injEq] at hstep
  obtain ⟨rfl, rfl⟩ := hstep
  exact ⟨.outstanding rfl (hreadSize.trans hsize) hlength hmore,
    ⟨hcalm.enabled, herror.trans hcalm.error⟩, rfl, rfl, rfl⟩

/-- A completed read of `size` bytes that is over has them all. -/
theorem length_of_over {s : Session} {total bytes : ℕ} (hsize : s.reader.readSize = size)
    (hmost : total + bytes ≤ size) (hnone : bytes = 0 → size = 0)
    (hover : s.readOver total .success bytes = true) : total + bytes = size := by
  simp only [Session.readOver, decide_eq_true_eq] at hover
  rcases hover with ⟨-, hzero⟩ | hfail | hle
  · have hsize := hnone hzero
    omega
  · exact absurd rfl hfail
  · omega

/-- In the read of a header, the handler goes on with it, or begins the read of the body. -/
theorem Progress.resume_header (hprogress : Progress r none kHeaderSize) (hcalm : Calm r.session)
    {frame : Option (ReadFrame Table)} (hstep : r.resume fb = some (r', frame)) :
    Calm r'.session ∧ frame = none ∧
      ((Progress r' none kHeaderSize ∧ r'.buffer = r.buffer) ∨
        (r.buffer.length = kHeaderSize ∧
          r'.header = (Framing.MessageHeader.ofBytes r.buffer).relayed ∧ r'.buffer = [] ∧
          Progress r' (some (fields r'.header)) r'.header.size.toNat)) := by
  cases hprogress with
  | outstanding loop => exact absurd hstep (by simp [resume, Session.resume, loop])
  | @queued total bytes loop readSize length most none =>
    cases hover : r.session.readOver total .success bytes with
    | false =>
      obtain ⟨hprogress, hcalm', hbuffer, -, hframe⟩ :=
        Progress.resume_more hcalm loop readSize length hover hstep
      exact ⟨hcalm', hframe, .inl ⟨hprogress, hbuffer⟩⟩
    | true =>
      have hwhole := length_of_over readSize most none hover
      have hadvance := Session.advance_of_over hover
      unfold resume Session.resume at hstep
      simp only [loop, hadvance, Session.headerRead, hwhole, ne_eq, not_true_eq_false, if_false,
        Option.map_some, Option.some.injEq, Session.readBody] at hstep
      injection hstep with hreceiver hframe
      subst hreceiver
      exact ⟨⟨hcalm.enabled, rfl⟩, hframe.symm, .inr ⟨length.trans hwhole, rfl, rfl,
        .asyncRead _ _ _⟩⟩

/-- In the read of a body, the handler goes on with it, or gives the frame. -/
theorem Progress.resume_body {header : MessageHeader} (hprogress : Progress r (some header) size)
    (hcalm : Calm r.session) {frame : Option (ReadFrame Table)}
    (hstep : r.resume fb = some (r', frame)) :
    Calm r'.session ∧
      ((Progress r' (some header) size ∧ r'.buffer = r.buffer ∧ r'.header = r.header ∧
          frame = none) ∨
        (r.buffer.length = size ∧ r'.session.loop = .testing ∧ r'.buffer = [] ∧
          frame = some (r.header, decode fb r.header r.buffer))) := by
  cases hprogress with
  | outstanding loop => exact absurd hstep (by simp [resume, Session.resume, loop])
  | @queued total bytes loop readSize length most none =>
    cases hover : r.session.readOver total .success bytes with
    | false =>
      obtain ⟨hprogress, hcalm', hrest⟩ :=
        Progress.resume_more hcalm loop readSize length hover hstep
      exact ⟨hcalm', .inl ⟨hprogress, hrest⟩⟩
    | true =>
      have hwhole := length_of_over readSize most none hover
      have hadvance := Session.advance_of_over hover
      unfold resume Session.resume at hstep
      simp only [loop, hadvance, Session.bodyRead, Option.map_some, Option.some.injEq] at hstep
      injection hstep with hreceiver hframe
      have hlength : ¬r.buffer.length ≠ r.session.reader.readSize := by
        rw [length, hwhole, readSize]
        exact not_not.mpr rfl
      rw [Framing.bodyRead, if_neg hlength] at hframe
      subst hreceiver
      have herror : ({ r.session.reader with error := .success } : MessageReader).reset.error =
          .success := rfl
      exact ⟨⟨hcalm.enabled, herror⟩, .inr ⟨length.trans hwhole, rfl, rfl, hframe.symm⟩⟩

end Receiver

/-! ## The invariant -/

variable {fb : FlatBuffers Table} {w w' : State Table} {frames more : List (Frame Table)}
  {r : Receiver} {part : List UInt8} {k : ℕ}

/-- `k` of the frames have been read, and `part` of the next one. -/
inductive Reading (fb : FlatBuffers Table) (frames : List (Frame Table)) (k : ℕ) (r : Receiver)
    (part : List UInt8) : Prop
  | spawned (isSpawned : r = .spawned) (nothing : part = []) : Reading fb frames k r part
  | testing (calm : Receiver.Calm r.session) (loop : r.session.loop = .testing)
      (empty : r.buffer = []) (nothing : part = []) : Reading fb frames k r part
  | header (calm : Receiver.Calm r.session) (progress : r.Progress none kHeaderSize)
      (buffer : part = r.buffer) : Reading fb frames k r part
  | body {frame : Frame Table} (calm : Receiver.Calm r.session) (next : frames[k]? = some frame)
      (isHeader : r.header = (frame.written fb).relayed)
      (progress : r.Progress (some (Receiver.fields r.header)) r.header.size.toNat)
      (buffer : part = (frame.written fb).toBytes ++ r.buffer) : Reading fb frames k r part

structure Inv (fb : FlatBuffers Table) (w : State Table) : Prop where
  sender : SendQueue.Inv (Frame.encode fb) w.sender
  sendable : ∀ frame ∈ w.sender.sent, frame.Sendable fb
  arrived : w.arrived ≤ w.sender.stream.length
  received : w.received = (w.sender.sent.take w.received.length).map (Frame.received fb)
  reading : ∃ part, w.sender.stream.take w.arrived =
      (w.sender.sent.take w.received.length).flatMap (Frame.encode fb) ++ part ∧
    Reading fb w.sender.sent w.received.length w.receiver part

theorem inv_initial : Inv fb initial where
  sender := ⟨[], rfl, .idle⟩
  sendable _ h := absurd h List.not_mem_nil
  arrived := Nat.le_refl _
  received := rfl
  reading := ⟨[], rfl, .spawned rfl rfl⟩

theorem Reading.append (h : Reading fb frames k r part) (more : List (Frame Table)) :
    Reading fb (frames ++ more) k r part := by
  cases h with
  | spawned isSpawned nothing => exact .spawned isSpawned nothing
  | testing calm loop empty nothing => exact .testing calm loop empty nothing
  | header calm progress buffer => exact .header calm progress buffer
  | body calm next isHeader progress buffer =>
    obtain ⟨hlt, -⟩ := List.getElem?_eq_some_iff.mp next
    refine .body calm ?_ isHeader progress buffer
    rw [List.getElem?_append_left hlt, next]

theorem Inv.length_le (h : Inv fb w) : w.received.length ≤ w.sender.sent.length := by
  have hlength := congrArg List.length h.received
  rw [List.length_map, List.length_take] at hlength
  omega

/-- What was written are the first bytes of what was sent. -/
theorem stream_first {s : SendQueue.State (Frame Table)}
    (h : SendQueue.Inv (Frame.encode fb) s) : s.stream <+: s.sent.flatMap (Frame.encode fb) := by
  obtain ⟨queue, coroutines, sent, stream⟩ := s
  obtain ⟨done, hsent, hworking⟩ := h
  dsimp only at hsent hworking ⊢
  rw [hsent, List.flatMap_append]
  cases hworking with
  | idle => exact List.prefix_append _ _
  | spawned => exact List.prefix_append _ _
  | @writing m ms part left split =>
    rw [List.prefix_append_right_inj, List.flatMap_cons, split, List.append_assoc]
    exact List.prefix_append _ _

theorem flatMap_take_drop (k : ℕ) (frames : List (Frame Table)) :
    (frames.take k).flatMap (Frame.encode fb) ++ (frames.drop k).flatMap (Frame.encode fb) =
      frames.flatMap (Frame.encode fb) := by
  rw [← List.flatMap_append, List.take_append_drop]

/-- What has arrived of the next frames is the first part of them. -/
theorem Inv.part_prefix (h : Inv fb w)
    (hpart : w.sender.stream.take w.arrived =
      (w.sender.sent.take w.received.length).flatMap (Frame.encode fb) ++ part) :
    part <+: (w.sender.sent.drop w.received.length).flatMap (Frame.encode fb) := by
  have hfirst := (List.take_prefix w.arrived w.sender.stream).trans (stream_first h.sender)
  rwa [hpart, ← flatMap_take_drop w.received.length w.sender.sent, List.prefix_append_right_inj]
    at hfirst

theorem encode_eq (frame : Frame Table) :
    frame.encode fb = (frame.written fb).toBytes ++ payload fb frame.2.body := rfl

/-- A header that has arrived is the one of the next frame. -/
theorem Inv.next_header (h : Inv fb w)
    (hpart : w.sender.stream.take w.arrived =
      (w.sender.sent.take w.received.length).flatMap (Frame.encode fb) ++ part)
    (hlength : part.length = kHeaderSize) :
    ∃ frame, w.sender.sent[w.received.length]? = some frame ∧
      part = (frame.written fb).toBytes := by
  have hfirst := h.part_prefix hpart
  cases hdrop : w.sender.sent.drop w.received.length with
  | nil =>
    rw [hdrop, List.flatMap_nil, List.prefix_nil] at hfirst
    rw [hfirst] at hlength
    exact absurd hlength (by decide)
  | cons frame rest =>
    have hframe : w.sender.sent[w.received.length]? = some frame := by
      rw [← List.head?_drop, hdrop]
      rfl
    rw [hdrop, List.flatMap_cons, encode_eq, List.append_assoc] at hfirst
    obtain ⟨tail, htail⟩ := hfirst
    have hsame : part.length = (frame.written fb).toBytes.length := by
      rw [hlength, Framing.MessageHeader.length_toBytes]
    exact ⟨frame, hframe, (List.append_inj htail hsame).1⟩

/-- A body that has arrived is the one of the next frame. -/
theorem Inv.next_body (h : Inv fb w) {frame : Frame Table} {buffer : List UInt8}
    (hpart : w.sender.stream.take w.arrived =
      (w.sender.sent.take w.received.length).flatMap (Frame.encode fb) ++
        ((frame.written fb).toBytes ++ buffer))
    (hframe : w.sender.sent[w.received.length]? = some frame)
    (hlength : buffer.length = (payload fb frame.2.body).length) :
    buffer = payload fb frame.2.body := by
  have hfirst := h.part_prefix hpart
  obtain ⟨hlt, heq⟩ := List.getElem?_eq_some_iff.mp hframe
  rw [List.drop_eq_getElem_cons hlt, heq, List.flatMap_cons, encode_eq, List.append_assoc,
    List.prefix_append_right_inj] at hfirst
  obtain ⟨tail, htail⟩ := hfirst
  exact (List.append_inj htail hlength).1

theorem size_written {frame : Frame Table} (h : frame.Sendable fb) :
    (frame.written fb).relayed.size.toNat = (payload fb frame.2.body).length := by
  rw [relayed_size]
  exact UInt32.toNat_ofNat_of_lt' h.fits

/-- What `read_body` makes of a frame that could be sent. -/
theorem decode_written {frame : Frame Table} (h : frame.Sendable fb) :
    ((frame.written fb).relayed,
      decode fb (frame.written fb).relayed (payload fb frame.2.body)) = frame.received fb := by
  have htype : (frame.written fb).relayed.type = frame.1.type := relayed_type _
  have hnth := h.type
  unfold Frame.received decode
  rw [htype, hnth]
  cases hbody : frame.2.body with
  | unknown bytes => simp [Framing.Body.which, payload, htype]
  | table a t =>
    have hkept := h.kept
    rw [hbody] at hkept
    simp [Framing.Body.which, payload, htype, hkept.1, hkept.2]

/-! ## What each event keeps -/

/-- What is sent and what is written only grows. -/
theorem sender_grows {s s' : SendQueue.State (Frame Table)} {ev : SendQueue.Event (Frame Table)}
    (hstep : SendQueue.step (Frame.encode fb) s ev = some s') :
    (∃ more, s'.sent = s.sent ++ more ∧ ∀ frame ∈ more, ev = .send frame) ∧
      s.stream <+: s'.stream := by
  have hloop : ∀ (t : SendQueue.State (Frame Table)) (i : ℕ),
      (SendQueue.loop (Frame.encode fb) t i).sent = t.sent ∧
        (SendQueue.loop (Frame.encode fb) t i).stream = t.stream := by
    intro t i
    unfold SendQueue.loop
    split <;> exact ⟨rfl, rfl⟩
  have hsame : ∀ t : SendQueue.State (Frame Table), t.sent = s.sent → t.stream = s.stream →
      (∃ more, t.sent = s.sent ++ more ∧ ∀ frame ∈ more, ev = .send frame) ∧
        s.stream <+: t.stream := by
    intro t hsent hstream
    refine ⟨⟨[], by simp [hsent], fun _ h => absurd h List.not_mem_nil⟩, ?_⟩
    rw [hstream]
  cases ev with
  | send frame =>
    obtain rfl := Option.some.inj hstep
    exact ⟨⟨[frame], rfl, fun _ h => by rw [List.mem_singleton.mp h]⟩, List.prefix_refl _⟩
  | resume i =>
    simp only [SendQueue.step] at hstep
    split at hstep
    · obtain rfl := Option.some.inj hstep
      exact hsame _ (hloop s i).1 (hloop s i).2
    · obtain rfl := Option.some.inj hstep
      exact hsame _ (hloop _ i).1 (hloop _ i).2
    · exact absurd hstep (by simp)
  | transfer i n =>
    simp only [SendQueue.step] at hstep
    split at hstep
    · obtain ⟨-, heq⟩ := Option.ite_none_right_eq_some.mp hstep
      obtain rfl := Option.some.inj heq
      exact ⟨⟨[], by simp, fun _ h => absurd h List.not_mem_nil⟩, List.prefix_append _ _⟩
    · exact absurd hstep (by simp)
  | fail i =>
    simp only [SendQueue.step] at hstep
    split at hstep
    · obtain ⟨-, heq⟩ := Option.ite_none_right_eq_some.mp hstep
      obtain rfl := Option.some.inj heq
      exact hsame _ (hloop _ i).1 (hloop _ i).2
    · exact absurd hstep (by simp)

theorem Inv.sendQueue (h : Inv fb w) {ev : SendQueue.Event (Frame Table)}
    (hok : Sound fb w (.sender ev)) {sender : SendQueue.State (Frame Table)}
    (hstep : SendQueue.step (Frame.encode fb) w.sender ev = some sender) :
    Inv fb { w with sender := sender } := by
  obtain ⟨⟨more, hsent, hmore⟩, hstream⟩ := sender_grows hstep
  have hfail : ¬ ev.isFail := by
    cases ev with
    | send frame => simp [SendQueue.Event.isFail]
    | resume _ | transfer _ _ | fail _ => exact hok
  have htake : sender.sent.take w.received.length = w.sender.sent.take w.received.length := by
    rw [hsent, List.take_append_of_le_length h.length_le]
  have harrived : sender.stream.take w.arrived = w.sender.stream.take w.arrived := by
    obtain ⟨tail, htail⟩ := hstream
    rw [← htail, List.take_append_of_le_length h.arrived]
  obtain ⟨part, hpart, hreading⟩ := h.reading
  refine ⟨SendQueue.inv_step h.sender hfail hstep, fun frame hmem => ?_,
    h.arrived.trans hstream.length_le, ?_, part, ?_, ?_⟩
  · rw [hsent] at hmem
    rcases List.mem_append.mp hmem with hold | hnew
    · exact h.sendable frame hold
    · rw [hmore frame hnew] at hok
      exact hok
  · rw [htake]
    exact h.received
  · rw [harrived, htake]
    exact hpart
  · rw [hsent]
    exact hreading.append more

theorem Inv.begin (h : Inv fb w) (hspawned : w.receiver.session.loop = .spawned) :
    Inv fb { w with receiver := w.receiver.begin } := by
  obtain ⟨part, hpart, hreading⟩ := h.reading
  refine ⟨h.sender, h.sendable, h.arrived, h.received, part, hpart, ?_⟩
  cases hreading with
  | spawned isSpawned nothing =>
    rw [isSpawned]
    exact .header ⟨rfl, rfl⟩ (.asyncRead _ _ _) nothing
  | testing _ loop => exact absurd (hspawned.symm.trans loop) (by simp)
  | header _ progress => exact absurd hspawned progress.not_spawned
  | body _ _ _ progress => exact absurd hspawned progress.not_spawned

theorem Inv.transfer (h : Inv fb w) {n : ℕ} (hpos : 0 < n) (hle : n ≤ (unread w).length)
    {receiver : Receiver} (hstep : w.receiver.transfer ((unread w).take n) = some receiver) :
    Inv fb { w with arrived := w.arrived + n, receiver := receiver } := by
  have hne : (unread w).take n ≠ [] := by
    intro hnil
    have hlength := congrArg List.length hnil
    rw [List.length_take, List.length_nil] at hlength
    omega
  have hle' : w.arrived + n ≤ w.sender.stream.length := by
    rw [unread, List.length_drop] at hle
    omega
  obtain ⟨part, hpart, hreading⟩ := h.reading
  have hmore : w.sender.stream.take (w.arrived + n) =
      (w.sender.sent.take w.received.length).flatMap (Frame.encode fb) ++
        (part ++ (unread w).take n) := by
    rw [List.take_add, hpart, List.append_assoc]
    rfl
  refine ⟨h.sender, h.sendable, hle', h.received, _, hmore, ?_⟩
  cases hreading with
  | spawned isSpawned =>
    rw [isSpawned] at hstep
    exact absurd hstep (by simp [Receiver.transfer, Session.transfer, Receiver.spawned])
  | testing _ loop =>
    exact absurd hstep (by simp [Receiver.transfer, Session.transfer, loop])
  | header calm progress buffer =>
    obtain ⟨hprogress, hbuffer, -, henabled, herror⟩ := progress.transfer hne hstep
    refine .header ⟨henabled.trans calm.enabled, herror.trans calm.error⟩ hprogress ?_
    rw [hbuffer, buffer]
  | body calm next isHeader progress buffer =>
    obtain ⟨hprogress, hbuffer, hheader, henabled, herror⟩ := progress.transfer hne hstep
    refine .body ⟨henabled.trans calm.enabled, herror.trans calm.error⟩ next
      (hheader.trans isHeader) (hheader.symm ▸ hprogress) ?_
    rw [hbuffer, buffer, List.append_assoc]

theorem Inv.test (h : Inv fb w) (htesting : w.receiver.session.loop = .testing) :
    Inv fb { w with receiver := w.receiver.test } := by
  obtain ⟨part, hpart, hreading⟩ := h.reading
  refine ⟨h.sender, h.sendable, h.arrived, h.received, part, hpart, ?_⟩
  cases hreading with
  | spawned isSpawned =>
    rw [isSpawned] at htesting
    exact absurd htesting (by simp [Receiver.spawned])
  | testing calm _ empty nothing =>
    have htest : w.receiver.test =
        ⟨w.receiver.session.asyncRead none kHeaderSize, w.receiver.header, []⟩ := by
      simp [Receiver.test, Session.test, calm.enabled, calm.error, Session.readHeader, empty]
    rw [htest]
    exact .header ⟨calm.enabled, calm.error⟩ (.asyncRead _ _ _) nothing
  | header _ progress => exact absurd htesting progress.not_testing
  | body _ _ _ progress => exact absurd htesting progress.not_testing

/-- The body of the next frame was read. -/
theorem Inv.receive (h : Inv fb w) {frame : Frame Table} {receiver : Receiver}
    (hnext : w.sender.sent[w.received.length]? = some frame)
    (hpart : w.sender.stream.take w.arrived =
      (w.sender.sent.take w.received.length).flatMap (Frame.encode fb) ++ frame.encode fb)
    (hreading : Reading fb w.sender.sent (w.received.length + 1) receiver []) :
    Inv fb { w with receiver := receiver, received := w.received ++ [frame.received fb] } := by
  have htake : w.sender.sent.take (w.received.length + 1) =
      w.sender.sent.take w.received.length ++ [frame] := by
    rw [List.take_add_one, hnext]
    rfl
  have hlength : (w.received ++ [frame.received fb]).length = w.received.length + 1 := by simp
  refine ⟨h.sender, h.sendable, h.arrived, ?_, [], ?_, ?_⟩
  · dsimp only
    rw [hlength, htake, List.map_append, ← h.received]
    rfl
  · dsimp only
    rw [hlength, htake, hpart, List.flatMap_append]
    simp
  · dsimp only
    rw [hlength]
    exact hreading

theorem Inv.resume (h : Inv fb w) {receiver : Receiver}
    {frame : Option (ReadFrame Table)} (hstep : w.receiver.resume fb = some (receiver, frame)) :
    Inv fb { w with receiver := receiver, received := w.received ++ frame.toList } := by
  obtain ⟨part, hpart, hreading⟩ := h.reading
  have hgoesOn : frame = none → Reading fb w.sender.sent w.received.length receiver part →
      Inv fb { w with receiver := receiver, received := w.received ++ frame.toList } := by
    intro hframe hreading'
    rw [hframe, Option.toList_none, List.append_nil]
    exact ⟨h.sender, h.sendable, h.arrived, h.received, part, hpart, hreading'⟩
  cases hreading with
  | spawned isSpawned =>
    rw [isSpawned] at hstep
    exact absurd hstep (by simp [Receiver.resume, Session.resume, Receiver.spawned])
  | testing _ loop => exact absurd hstep (by simp [Receiver.resume, Session.resume, loop])
  | header calm progress buffer =>
    obtain ⟨hcalm, hframe, ⟨hprogress, hbuffer⟩ | ⟨hwhole, hheader, hempty, hprogress⟩⟩ :=
      progress.resume_header calm hstep
    · exact hgoesOn hframe (.header hcalm hprogress (buffer.trans hbuffer.symm))
    · obtain ⟨next, hnext, hbytes⟩ := h.next_header hpart (buffer ▸ hwhole)
      refine hgoesOn hframe (.body hcalm hnext ?_ hprogress ?_)
      · rw [hheader, ← buffer, hbytes, Framing.MessageHeader.ofBytes_toBytes]
      · rw [hempty, List.append_nil, hbytes]
  | @body next calm hnext isHeader progress buffer =>
    obtain ⟨hcalm, ⟨hprogress, hbuffer, hheader, hframe⟩ | ⟨hwhole, htesting, hempty, hframe⟩⟩ :=
      progress.resume_body calm hstep
    · refine hgoesOn hframe (.body hcalm hnext (hheader.trans isHeader) ?_ ?_)
      · rw [hheader]
        exact hprogress
      · rw [hbuffer, buffer]
    · have hsendable := h.sendable next (List.mem_of_getElem? hnext)
      have hbody : w.receiver.buffer = payload fb next.2.body := by
        refine h.next_body (buffer ▸ hpart) hnext ?_
        rw [hwhole, isHeader, size_written hsendable]
      rw [hframe, isHeader, hbody, decode_written hsendable]
      refine h.receive hnext ?_ (.testing hcalm htesting hempty rfl)
      rw [hpart, buffer, hbody]
      rfl

theorem Inv.step (h : Inv fb w) {ev : Event Table} (hok : Sound fb w ev)
    (hstep : step fb w ev = some w') : Inv fb w' := by
  cases ev with
  | sender ev =>
    obtain ⟨sender, hsender, rfl⟩ := Option.map_eq_some_iff.mp hstep
    exact h.sendQueue hok hsender
  | begin =>
    obtain ⟨hspawned, heq⟩ := Option.ite_none_right_eq_some.mp hstep
    exact Option.some.inj heq ▸ h.begin hspawned
  | transfer n =>
    obtain ⟨⟨hpos, hle⟩, heq⟩ := Option.ite_none_right_eq_some.mp hstep
    obtain ⟨receiver, htransfer, rfl⟩ := Option.map_eq_some_iff.mp heq
    exact h.transfer hpos hle htransfer
  | resume =>
    obtain ⟨⟨receiver, frame⟩, hresume, rfl⟩ := Option.map_eq_some_iff.mp hstep
    exact h.resume hresume
  | test =>
    obtain ⟨htesting, heq⟩ := Option.ite_none_right_eq_some.mp hstep
    exact Option.some.inj heq ▸ h.test htesting

/-- What does not send leaves what was sent, and receives one frame at most. -/
theorem step_spec {ev : Event Table} (hsend : ¬ ev.isSend) (hstep : step fb w ev = some w') :
    w'.sender.sent = w.sender.sent ∧
      ∃ frame : Option (ReadFrame Table), w'.received = w.received ++ frame.toList := by
  cases ev with
  | sender ev =>
    obtain ⟨sender, hsender, rfl⟩ := Option.map_eq_some_iff.mp hstep
    obtain ⟨⟨more, hsent, hmore⟩, -⟩ := sender_grows hsender
    refine ⟨?_, none, by simp⟩
    cases more with
    | nil => rw [hsent, List.append_nil]
    | cons frame more =>
      rw [hmore frame List.mem_cons_self] at hsend
      exact absurd rfl hsend
  | begin =>
    obtain ⟨-, heq⟩ := Option.ite_none_right_eq_some.mp hstep
    obtain rfl := Option.some.inj heq
    exact ⟨rfl, none, by simp⟩
  | transfer n =>
    obtain ⟨-, heq⟩ := Option.ite_none_right_eq_some.mp hstep
    obtain ⟨receiver, -, rfl⟩ := Option.map_eq_some_iff.mp heq
    exact ⟨rfl, none, by simp⟩
  | resume =>
    obtain ⟨⟨receiver, frame⟩, -, rfl⟩ := Option.map_eq_some_iff.mp hstep
    exact ⟨rfl, frame, rfl⟩
  | test =>
    obtain ⟨-, heq⟩ := Option.ite_none_right_eq_some.mp hstep
    obtain rfl := Option.some.inj heq
    exact ⟨rfl, none, by simp⟩

/-! ## The end -/

/-- Nothing can happen any more but `send`. -/
def Stopped (fb : FlatBuffers Table) (w : State Table) : Prop :=
  ∀ ev : Event Table, ¬ ev.isSend → ¬ ev.isFail → step fb w ev = none

/-- The writer has written all that was sent. -/
theorem stream_of_stopped (h : Inv fb w) (hstopped : Stopped fb w) :
    w.sender.stream = w.sender.sent.flatMap (Frame.encode fb) := by
  have hqueue : w.sender.queue = [] := by
    refine SendQueue.queue_eq_nil_of_stopped h.sender fun ev hsend hfail => ?_
    exact Option.map_eq_none_iff.mp (hstopped (.sender ev) hsend hfail)
  obtain ⟨done, hsent, hworking⟩ := h.sender
  rw [hqueue, List.append_nil] at hsent
  rw [hqueue] at hworking
  rw [hsent]
  generalize w.sender.stream = stream at hworking ⊢
  generalize w.sender.coroutines = coroutines at hworking
  cases hworking with
  | idle => rfl

/-- A read is outstanding, and nothing is left for it. -/
theorem arrived_of_stopped (hstopped : Stopped fb w) {h : Option MessageHeader} {size : ℕ}
    (hprogress : w.receiver.Progress h size) : unread w = [] ∧ w.receiver.buffer.length < size := by
  have hresume : w.receiver.resume fb = none :=
    Option.map_eq_none_iff.mp (hstopped .resume (by simp [Event.isSend]) (by simp [Event.isFail]))
  cases hprogress with
  | @outstanding total loop readSize length wants =>
    refine ⟨?_, by omega⟩
    by_contra hne
    have hpos : 1 ≤ (unread w).length := List.length_pos_iff.mpr hne
    have htransfer := hstopped (.transfer 1) (by simp [Event.isSend]) (by simp [Event.isFail])
    have hwanted := readChunk_wanted w.receiver.session.reader total
    rw [readSize] at hwanted
    have hle : 1 ≤ (w.receiver.session.reader.readChunk .success total).2 := by omega
    simp [step, hpos, Receiver.transfer, Session.transfer, loop, hle] at htransfer
  | queued loop =>
    have hsome : ∀ content, (w.receiver.session.resume content).isSome := by
      intro content
      unfold Session.resume
      rw [loop]
      dsimp only
      split <;> rfl
    have hnone := Option.map_eq_none_iff.mp hresume
    exact absurd (hnone ▸ hsome _) (by simp)

/-- Behind the last frame there is nothing. -/
theorem Inv.received_all (h : Inv fb w) (hstopped : Stopped fb w) :
    w.received.length = w.sender.sent.length := by
  obtain ⟨part, hpart, hreading⟩ := h.reading
  have hbegin := hstopped .begin (by simp [Event.isSend]) (by simp [Event.isFail])
  have htest := hstopped .test (by simp [Event.isSend]) (by simp [Event.isFail])
  have hall : unread w = [] → part =
      (w.sender.sent.drop w.received.length).flatMap (Frame.encode fb) := by
    intro hunread
    have hwhole : w.sender.stream.take w.arrived = w.sender.stream :=
      List.take_of_length_le (List.drop_eq_nil_iff.mp hunread)
    rw [hwhole, stream_of_stopped h hstopped, ← flatMap_take_drop w.received.length w.sender.sent]
      at hpart
    exact (List.append_cancel_left hpart).symm
  cases hreading with
  | spawned isSpawned => exact absurd hbegin (by simp [Wire.step, isSpawned, Receiver.spawned])
  | testing _ loop => exact absurd htest (by simp [Wire.step, loop])
  | header _ progress buffer =>
    obtain ⟨hunread, hshort⟩ := arrived_of_stopped hstopped progress
    have hdrop := hall hunread
    cases hrest : w.sender.sent.drop w.received.length with
    | nil => exact Nat.le_antisymm h.length_le (List.drop_eq_nil_iff.mp hrest)
    | cons frame rest =>
      rw [hrest, List.flatMap_cons, encode_eq] at hdrop
      have hlength := congrArg List.length hdrop
      rw [buffer, List.length_append, List.length_append, Framing.MessageHeader.length_toBytes]
        at hlength
      omega
  | @body frame _ next isHeader progress buffer =>
    obtain ⟨hunread, hshort⟩ := arrived_of_stopped hstopped progress
    have hdrop := hall hunread
    obtain ⟨hlt, heq⟩ := List.getElem?_eq_some_iff.mp next
    rw [List.drop_eq_getElem_cons hlt, heq, List.flatMap_cons, encode_eq, buffer, List.append_assoc]
      at hdrop
    have hlength := congrArg List.length (List.append_cancel_left hdrop)
    rw [isHeader, size_written (h.sendable frame (List.mem_of_getElem? next))] at hshort
    rw [List.length_append] at hlength
    omega

/-- **A connection is a channel.** However the bytes are cut into pieces, and whatever order the
writer and the receive loop take their steps in: what is received are the first of the frames that
were sent, in the order of the calls of `send`, each with the size of its body and one hop less to
live; and all of them where nothing can happen any more but `send`. -/
theorem connection_is_channel (hrun : Run (step fb) (Sound fb) initial w) :
    w.received = (w.sender.sent.take w.received.length).map (Frame.received fb) ∧
      (Stopped fb w → w.received = w.sender.sent.map (Frame.received fb)) := by
  have hinv : Inv fb w :=
    hrun.invariant inv_initial fun _ _ _ _ h hok hstep => h.step hok hstep
  refine ⟨hinv.received, fun hstopped => ?_⟩
  have hreceived := hinv.received
  rw [hinv.received_all hstopped, List.take_length] at hreceived
  exact hreceived

/-! ## Two frames in seven pieces -/

/-- The second is sent while the first is being written, and the first has not arrived by then. -/
def twoFrames : List (Event fun _ => UInt32 × UInt32) :=
  [.sender (.send (⟨0, 5, 0, 8, 0, 1, 2⟩, ⟨5, 8, .table .serverClaim (1, 2)⟩)), .begin,
    .sender (.resume 0), .sender (.transfer 0 10), .transfer 9, .resume,
    .sender (.send (⟨0, 200, 0, 0, 0, 1, 2⟩, ⟨200, 0, .unknown [1, 2, 3]⟩)),
    .sender (.transfer 0 30), .transfer 7, .resume, .sender (.resume 0), .sender (.transfer 0 1),
    .transfer 20, .resume, .transfer 4, .resume, .test, .sender (.transfer 0 18), .transfer 16,
    .resume, .transfer 1, .resume, .transfer 2, .resume, .sender (.resume 0), .test]

theorem channel_twoFrames :
    (execs (step claims) initial twoFrames).received.length = 2 ∧
      (execs (step claims) initial twoFrames).received =
        ((execs (step claims) initial twoFrames).sender.sent.take
          (execs (step claims) initial twoFrames).received.length).map (Frame.received claims) :=
  ⟨by decide +kernel, (connection_is_channel (Run.nil.execs (by decide +kernel))).1⟩

end Synergy.Wire
