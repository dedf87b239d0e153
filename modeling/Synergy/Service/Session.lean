import Synergy.Service.MessageReader

/-!
# The receive loop of a connection

`Connection::start` and `Connection::stop`, seen from the connection. The loop is a coroutine
and a `ReceiveLoop` says where it is suspended: not yet run, in one of the two reads of a
message, or in a handler that it has called, from which it goes on to test `enabled_` and the
error code, or to leave. Between two such places it runs without interruption, and each
function here is one such stretch.

What the loop calls on the way (`on_message`, `on_disconnect`) it hands back, since those are
the router's.
-/

set_option autoImplicit false

namespace Synergy

inductive ReceiveLoop
  /-- `start` has not been called. -/
  | absent
  /-- `asio::spawn` has been called and the coroutine has not run yet. -/
  | spawned
  /-- In the read of a header, or of the body of a message with the given header. -/
  | reading (header : Option MessageHeader) (read : AsyncRead)
  /-- The read is over and what it gave has been handed to `on_message`, if anything; next
      `enabled_` is tested. -/
  | testing
  /-- In `on_disconnect`, with nothing left to do. -/
  | leaving
  | ended
deriving DecidableEq

/-- What a `Connection` knows of its own reading. -/
structure Session where
  enabled : Bool
  reader : MessageReader
  loop : ReceiveLoop
deriving DecidableEq

/-- What the bytes of a finished read mean. A body that does not verify is `none`. -/
structure Content where
  header : MessageHeader
  body : Option Body

namespace Session

def initial : Session := { enabled := false, reader := .initial, loop := .absent }

/-- `asio::async_read`, as `read_header` and `read_body` call it. -/
def asyncRead (s : Session) (header : Option MessageHeader) (size : ℕ) : Session :=
  let reader := { s.reader with readSize := size }
  { s with reader := reader, loop := .reading header (.start reader) }

def readHeader (s : Session) : Session := s.asyncRead none kHeaderSize

def readBody (s : Session) (header : MessageHeader) : Session :=
  s.asyncRead (some header) header.size.toNat

/-- The coroutine runs for the first time. -/
def begin (s : Session) : Session := { s with enabled := true }.readHeader

/-- `socket_.cancel ()`. -/
def cancel (s : Session) : Session :=
  match s.loop with
  | .reading header read => { s with loop := .reading header read.cancel }
  | _ => s

/-- `stop`, up to the `poll`. -/
def stop (s : Session) : Session := if s.enabled then { s with enabled := false }.cancel else s

/-- The outstanding operation is done, or has failed. Only `cancel` aborts one. -/
def transfer (s : Session) (ec : ErrorCode) (bytes : ℕ) : Option Session :=
  match s.loop with
  | .reading header ⟨total, .outstanding⟩ =>
    if ec ≠ .operationAborted ∧ bytes ≤ (s.reader.readChunk .success total).2 then
      some { s with loop := .reading header ⟨total, .queued ec bytes⟩ }
    else none
  | _ => none

/-- The timer has expired and its handler is queued. -/
def expire (s : Session) : Option Session :=
  if s.reader.timer.armed then
    some { s with reader := { s.reader with timer := s.reader.timer.expire } }
  else none

/-- The handler of the timer. -/
def timeout (s : Session) : Option Session :=
  match s.reader.timer.due with
  | 0 => none
  | due + 1 =>
    some { s with reader := { s.reader with timer := { s.reader.timer with due := due } } }.cancel

/-- The rest of `read_header`, after its `async_read`. -/
def headerRead (s : Session) (bytesRead : ℕ) (header : MessageHeader) : Session :=
  if bytesRead ≠ kHeaderSize then { s with reader := s.reader.reset, loop := .testing }
  else s.readBody header

/-- The rest of `read_body`, after its `async_read`, and the message, if it is one. -/
def bodyRead (s : Session) (bytesRead : ℕ) (header : MessageHeader) (body : Option Body) :
    Session × Option (MessageHeader × Body) :=
  ({ s with reader := s.reader.reset, loop := .testing },
    if bytesRead ≠ s.reader.readSize then none
    else (body.filter fun b => b.which = header.which).map fun b => (header, b))

/-- A queued completion runs, and with it the coroutine as far as it gets. -/
def resume (s : Session) (content : Content) :
    Option (Session × Option (MessageHeader × Body)) :=
  match s.loop with
  | .reading header ⟨total, .queued ec bytes⟩ =>
    let (reader, result) := AsyncRead.advance s.reader total ec bytes
    let s := { s with reader := reader }
    match result, header with
    | none, header =>
      some ({ s with loop := .reading header ⟨total + bytes, .outstanding⟩ }, none)
    | some bytesRead, none => some (s.headerRead bytesRead content.header, none)
    | some bytesRead, some header => some (s.bodyRead bytesRead header content.body)
  | _ => none

/-- The tests after `on_message`, and whether `on_disconnect` is called. -/
def test (s : Session) : Session × Bool :=
  if !s.enabled then ({ s with loop := .ended }, false)
  else
    match s.reader.error with
    | .operationAborted => ({ s with loop := .ended }, false)
    | .failure _ => ({ s with loop := .leaving }, true)
    | .success => (s.readHeader, false)

end Session

end Synergy
