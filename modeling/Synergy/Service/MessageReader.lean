import Synergy.Router.Route

/-!
# Reading messages off a connection

`MessageReader.hpp`, between the socket and the receive loop. A message is read by two calls
of `asio::async_read`, one for the header and one for the body, and each of them is a chain
of `async_read_some`s with `read_chunk` asked in between how much is still wanted. The first
chunk that leaves something wanted arms a timer, `reset` disarms it, and when it expires it
cancels whatever the socket is waiting for at that moment.

What the bytes say is not modelled: the header and the body come with the event that ends the
read. Of `asio` this much is taken: an `async_read_some` delivers no more than it was asked
for, one into an empty buffer completes at once, and `cancel` aborts an operation only while
it is outstanding.
-/

set_option autoImplicit false

namespace Synergy

/-- A `boost::system::error_code`; the end of the stream is a `failure`. -/
inductive ErrorCode
  | success
  | operationAborted
  | failure (value : Int)
deriving DecidableEq

/-- The fields of `MessageHeader` that reading and dispatching depend on. -/
structure MessageHeader where
  type : UInt8
  size : UInt32
  dest : UInt32
deriving DecidableEq

/-- `sizeof (MessageHeader)`. -/
def kHeaderSize : ℕ := 16

/-- `Message::Body`, in the order of the variant. -/
inductive Body
  | unknownMessage
  | helloMessage (id : UInt32)
  | routeAdvertisement (ra : RouteAdvertisement)
  | routeRevocation (rr : RouteRevocation)
  | proxyClientConnect
  | serverClaim
  | coreMessage

def Body.which : Body → ℕ
  | .unknownMessage => 0
  | .helloMessage _ => 1
  | .routeAdvertisement _ => 2
  | .routeRevocation _ => 3
  | .proxyClientConnect => 4
  | .serverClaim => 5
  | .coreMessage => 6

/-- The alternative that `make_variant_of_nth` builds. -/
def MessageHeader.which (header : MessageHeader) : ℕ :=
  if 6 < header.type.toNat then 0 else header.type.toNat

/-! ## The timer -/

/-- `timer_`: whether it is waiting, and how many of its handlers are queued to run. -/
structure Timer where
  armed : Bool
  due : ℕ
deriving DecidableEq

namespace Timer

def idle : Timer := { armed := false, due := 0 }

def asyncWait (t : Timer) : Timer := { t with armed := true }

/-- A handler that is queued already runs all the same. -/
def cancel (t : Timer) : Timer := { t with armed := false }

def expire (t : Timer) : Timer := { armed := false, due := t.due + 1 }

end Timer

/-! ## The reader -/

structure MessageReader where
  readSize : ℕ
  started : Bool
  timer : Timer
  error : ErrorCode
deriving DecidableEq

namespace MessageReader

def initial : MessageReader :=
  { readSize := 0, started := false, timer := .idle, error := .success }

def reset (r : MessageReader) : MessageReader :=
  { r with
    readSize := 0
    started := false
    timer := if r.started then r.timer.cancel else r.timer }

/-- How many bytes to ask for next; none where the read is over. -/
def readChunk (r : MessageReader) (ec : ErrorCode) (bytesTransferred : ℕ) : MessageReader × ℕ :=
  if ec ≠ .success ∨ r.readSize ≤ bytesTransferred then (r, 0)
  else
    let r :=
      if !r.started && bytesTransferred ≠ 0 then
        { r with started := true, timer := r.timer.asyncWait }
      else r
    (r, min (r.readSize - bytesTransferred) 65536)

end MessageReader

/-! ## `asio::async_read` -/

/-- An `async_read_some`: the socket is waiting for it, or its completion is queued. -/
inductive ReadSome
  | outstanding
  | queued (ec : ErrorCode) (bytes : ℕ)
deriving DecidableEq

/-- An `async_read` that has transferred `total` bytes so far. -/
structure AsyncRead where
  total : ℕ
  op : ReadSome
deriving DecidableEq

namespace AsyncRead

/-- The first `async_read_some`. -/
def start (r : MessageReader) : AsyncRead where
  total := 0
  op := if (r.readChunk .success 0).2 = 0 then .queued .success 0 else .outstanding

def cancel (a : AsyncRead) : AsyncRead :=
  match a.op with
  | .outstanding => { a with op := .queued .operationAborted 0 }
  | .queued _ _ => a

/-- A completion is handled. Where it was the last, the number of bytes read in all. -/
def advance (r : MessageReader) (total : ℕ) (ec : ErrorCode) (bytes : ℕ) :
    MessageReader × Option ℕ :=
  if ec = .success ∧ bytes = 0 then ({ r with error := ec }, some total)
  else
    let (r, wanted) := r.readChunk ec (total + bytes)
    if wanted = 0 then ({ r with error := ec }, some (total + bytes)) else (r, none)

end AsyncRead

end Synergy
