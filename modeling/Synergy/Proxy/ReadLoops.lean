import Synergy.Lib.Frames
import Synergy.Lib.Run
import Synergy.Protocol.Process

/-!
# The read loops of the proxies

`ServerProxyConnection::start` and `ClientProxyConnection::start`: read a size field, make room for
the body, read the body, `process` it, and so on until something ends the loop, which then calls
`on_disconnect`, where the proxy takes the connection out of `connections_`. The two loops are one
definition here, with what they differ in as its parameter.

A read comes to an end by its last byte or by an error, and its bytes come in any pieces. What
`process` throws is caught and the frame is skipped. What `resize` throws is not caught, nor is the
error in the middle of a body that the loop of the client proxy throws; it ends the service.

How much memory there is, and what the handlers of the messages answer, are parameters.
-/

set_option autoImplicit false

namespace Synergy.ReadLoops

open Lib Protocol

/-- How a read fails. -/
inductive ErrorCode where
  | operationAborted
  | connectionReset
  /-- The end of the stream, and every other error. -/
  | other (value : Int)
  deriving DecidableEq

/-- What escapes from a read loop. -/
inductive Exception where
  | lengthError
  | badAlloc
  | systemError (ec : ErrorCode)
  deriving DecidableEq

/-- What the two read loops differ in. -/
structure ReadLoop where
  flow : Flow
  /-- The size field as a `size_t`. -/
  size : UInt32 → UInt64
  /-- An error in the middle of a body ends the loop, and is not thrown. -/
  breaks : ErrorCode → Bool
  /-- The proxy has a `stop` that clears `connections_`. -/
  clears : Bool

/-- `ServerProxyConnection::start`. The size is a `uint32_t`. -/
def serverProxyConnection : ReadLoop where
  flow := .cts
  size n := n.toUInt64
  breaks _ := true
  clears := true

/-- `ClientProxyConnection::start`. The size is an `int32_t`, and its conversion to `size_t` extends
the sign. -/
def clientProxyConnection : ReadLoop where
  flow := .stc
  size n := n.toInt32.toInt64.toUInt64
  breaks ec := ec = .operationAborted ∨ ec = .connectionReset
  clears := false

/-- The size that a field of four bytes in network order announces. -/
def ReadLoop.sizeOf (p : ReadLoop) (field : List UInt8) : Nat :=
  (p.size (UInt32.ofNat (BigEndian.ofBytes field))).toNat

/-- `buffer.resize (n)`, in a memory that has room for some sizes and not for others. -/
def resize (memory : Nat → Bool) (n : Nat) : Except Exception Unit :=
  if 2 ^ 63 ≤ n then .error .lengthError
  else if memory n then .ok () else .error .badAlloc

/-- Where a read loop is: in the read of a size field, in the read of the body behind a size field,
or at its end. -/
inductive Reading where
  | size (got : List UInt8)
  | body (field got : List UInt8)
  | done
  | escaped (e : Exception)
  deriving DecidableEq

def Reading.over : Reading → Bool
  | .done => true
  | .escaped _ => true
  | _ => false

/-- A connection and its read loop. -/
structure Connection where
  reading : Reading
  /-- What was processed: every size field with its body, and the messages that were handed to the
  handler. -/
  frames : List (List UInt8 × List UInt8)
  calls : List Message
  /-- How often `on_disconnect` was called. -/
  disconnects : Nat
  /-- All bytes that were read, and the error that ended them. -/
  stream : List UInt8
  error : Option ErrorCode

namespace Connection

def initial : Connection where
  reading := .size []
  frames := []
  calls := []
  disconnects := 0
  stream := []
  error := none

/-- `break`, and the end of the coroutine. -/
def disconnect (x : Connection) : Connection :=
  { x with reading := .done, disconnects := x.disconnects + 1 }

/-- The answer of `process` to a body, of a handler that was handed `calls` before. -/
def answer (p : ReadLoop) (handle : Handle) (calls : List Message) (body : List UInt8) :
    Except String Bool × List Message :=
  process p.flow (fun more => handle (calls ++ more)) body

variable (p : ReadLoop) (memory : Nat → Bool) (handle : Handle)

/-- The body is complete. -/
def processed (x : Connection) (field body : List UInt8) : Connection :=
  let answer := answer p handle x.calls body
  let x := { x with frames := x.frames ++ [(field, body)], calls := x.calls ++ answer.2 }
  match answer.1 with
  | .ok true => { x with reading := .size [] }
  | .ok false => x.disconnect
  | .error _ => { x with reading := .size [] }

/-- The size field is complete. -/
def sized (x : Connection) (field : List UInt8) : Connection :=
  match resize memory (p.sizeOf field) with
  | .error e => { x with reading := .escaped e }
  | .ok () =>
    if p.sizeOf field = 0 then x.processed p handle field []
    else { x with reading := .body field [] }

/-- `async_read_some` yields some of the bytes that are wanted. -/
def readSome (x : Connection) (bytes : List UInt8) : Option Connection :=
  let y := { x with stream := x.stream ++ bytes }
  match x.reading with
  | .size got =>
    if bytes = [] ∨ 4 < (got ++ bytes).length then none
    else if (got ++ bytes).length = 4 then some (y.sized p memory handle (got ++ bytes))
    else some { y with reading := .size (got ++ bytes) }
  | .body field got =>
    if bytes = [] ∨ p.sizeOf field < (got ++ bytes).length then none
    else if (got ++ bytes).length = p.sizeOf field then
      some (y.processed p handle field (got ++ bytes))
    else some { y with reading := .body field (got ++ bytes) }
  | _ => none

/-- The read fails. -/
def fail (x : Connection) (ec : ErrorCode) : Option Connection :=
  let y := { x with error := some ec }
  match x.reading with
  | .size _ => some y.disconnect
  | .body _ _ =>
    if p.breaks ec then some y.disconnect
    else some { y with reading := .escaped (.systemError ec) }
  | _ => none

end Connection

structure Node where
  /-- `connections_`, as indices of `all`. -/
  connections : List Nat
  /-- Every connection there ever was. -/
  all : List Connection

inductive Event where
  | connect
  /-- `ServerProxy::stop`. -/
  | stop
  | readSome (c : Nat) (bytes : List UInt8)
  | fail (c : Nat) (ec : ErrorCode)

def initial : Node := { connections := [], all := [] }

namespace Node

/-- A read loop has gone on. If that was its end, `on_disconnect` takes it out. -/
def update (s : Node) (c : Nat) (x : Connection) : Node where
  connections := if x.reading = .done then s.connections.erase c else s.connections
  all := s.all.set c x

/-- An exception has escaped into the `io_service`. -/
def dead (s : Node) : Bool :=
  s.all.any fun x => match x.reading with
    | .escaped _ => true
    | _ => false

end Node

/-- The `c`-th connection has a handler of its own. -/
def step (p : ReadLoop) (memory : Nat → Bool) (handle : Nat → Handle) (s : Node) (ev : Event) :
    Option Node :=
  if s.dead then none
  else
    match ev with
    | .connect =>
      some { connections := s.connections ++ [s.all.length], all := s.all ++ [.initial] }
    | .stop => if p.clears then some { s with connections := [] } else none
    | .readSome c bytes =>
      (s.all[c]?).bind fun x => (x.readSome p memory (handle c) bytes).map (s.update c)
    | .fail c ec => (s.all[c]?).bind fun x => (x.fail p ec).map (s.update c)

/-! ## What the loops are to do -/

/-- The messages that the handler has been handed after some frames, if none of these ends the
loop. -/
def passes (p : ReadLoop) (handle : Handle) :
    List Message → List (List UInt8 × List UInt8) → Option (List Message)
  | calls, [] => some calls
  | calls, (_, body) :: frames =>
    let answer := Connection.answer p handle calls body
    match answer.1 with
    | .ok false => none
    | _ => passes p handle (calls ++ answer.2) frames

/-- A read loop has contained every failure. Nothing has escaped, `on_disconnect` was called once,
and the connection is not in `connections_`. It has processed the frames of the stream one after
the other, and each as a whole: all but the last were good or have been skipped, and the last
ended the loop unless an error did, of which the rest of the stream is no frame. -/
structure Contained (p : ReadLoop) (handle : Handle) (s : Node) (c : Nat) (x : Connection) :
    Prop where
  caught : x.reading = .done
  once : x.disconnects = 1
  gone : c ∉ s.connections
  whole : ∃ rest, Frames 4 p.sizeOf x.stream x.frames rest ∧ ¬ Whole 4 p.sizeOf rest ∧
    (passes p handle [] x.frames.dropLast).isSome ∧
    (x.error = none → rest = [] ∧ passes p handle [] x.frames = none)

/-- Behind the frames that do not end the loop, every size can be allocated, and if the stream ends
within the body, then with an error that the loop breaks on. -/
def Harmless (p : ReadLoop) (memory : Nat → Bool) (handle : Handle) (stream : List UInt8)
    (error : Option ErrorCode) : Prop :=
  ∀ frames rest field got, Frames 4 p.sizeOf stream frames rest →
    (passes p handle [] frames).isSome → rest = field ++ got → field.length = 4 →
    resize memory (p.sizeOf field) = .ok () ∧
      (got.length < p.sizeOf field → ∀ ec ∈ error, p.breaks ec)

theorem passes_append (p : ReadLoop) (handle : Handle) (calls : List Message)
    (frames more : List (List UInt8 × List UInt8)) :
    passes p handle calls (frames ++ more) =
      (passes p handle calls frames).bind fun calls => passes p handle calls more := by
  induction frames generalizing calls with
  | nil => rfl
  | cons frame frames ih =>
    rw [List.cons_append, passes, passes]
    split
    · rfl
    · exact ih _

/-! ## One read loop -/

section

variable (p : ReadLoop) (memory : Nat → Bool) (handle : Handle)

/-- The frames that were taken off a stream, all of which had room. -/
structure Taken (stream : List UInt8) (frames : List (List UInt8 × List UInt8))
    (rest : List UInt8) : Prop where
  front : Frames 4 p.sizeOf stream frames rest
  room : ∀ frame ∈ frames, resize memory (p.sizeOf frame.1) = .ok ()

/-- And none of which has ended the loop. -/
structure Passed (stream : List UInt8) (frames : List (List UInt8 × List UInt8))
    (calls : List Message) (rest : List UInt8) : Prop
    extends Taken p memory stream frames rest where
  passed : passes p handle [] frames = some calls

/-- The rest of a stream in the middle of a body. -/
structure Middle (field got : List UInt8) : Prop where
  width : field.length = 4
  room : resize memory (p.sizeOf field) = .ok ()
  short : got.length < p.sizeOf field

/-- Every place where a read loop can be, and every way in which it got there. -/
inductive Sound (x : Connection) : Prop
  | size (got : List UInt8) (reading : x.reading = .size got) (short : got.length < 4)
    (before : Passed p memory handle x.stream x.frames x.calls got)
    (runs : x.error = none ∧ x.disconnects = 0)
  | body (field got : List UInt8) (reading : x.reading = .body field got)
    (middle : Middle p memory field got)
    (before : Passed p memory handle x.stream x.frames x.calls (field ++ got))
    (runs : x.error = none ∧ x.disconnects = 0)
  | rejected (reading : x.reading = .done) (before : Taken p memory x.stream x.frames [])
    (earlier : (passes p handle [] x.frames.dropLast).isSome)
    (last : passes p handle [] x.frames = none) (ended : x.error = none ∧ x.disconnects = 1)
  | cutSize (ec : ErrorCode) (got : List UInt8) (reading : x.reading = .done)
    (short : got.length < 4) (before : Passed p memory handle x.stream x.frames x.calls got)
    (ended : x.error = some ec ∧ x.disconnects = 1)
  | cutBody (ec : ErrorCode) (field got : List UInt8) (reading : x.reading = .done)
    (breaks : p.breaks ec) (middle : Middle p memory field got)
    (before : Passed p memory handle x.stream x.frames x.calls (field ++ got))
    (ended : x.error = some ec ∧ x.disconnects = 1)
  | refused (e : Exception) (field : List UInt8) (reading : x.reading = .escaped e)
    (width : field.length = 4) (noRoom : resize memory (p.sizeOf field) = .error e)
    (before : Passed p memory handle x.stream x.frames x.calls field)
    (ended : x.error = none ∧ x.disconnects = 0)
  | thrown (ec : ErrorCode) (field got : List UInt8)
    (reading : x.reading = .escaped (.systemError ec)) (throws : ¬ p.breaks ec)
    (middle : Middle p memory field got)
    (before : Passed p memory handle x.stream x.frames x.calls (field ++ got))
    (ended : x.error = some ec ∧ x.disconnects = 0)

end

section

variable {p : ReadLoop} {memory : Nat → Bool} {handle : Handle}

theorem Passed.read {stream rest : List UInt8} {frames : List (List UInt8 × List UInt8)}
    {calls : List Message} (h : Passed p memory handle stream frames calls rest)
    (bytes : List UInt8) :
    Passed p memory handle (stream ++ bytes) frames calls (rest ++ bytes) where
  front := h.front.append_right bytes
  room := h.room
  passed := h.passed

namespace Sound

theorem initial : Sound p memory handle .initial := by
  apply Sound.size [] rfl (by decide)
  · exact { front := .nil [], room := by simp [Connection.initial], passed := rfl }
  · exact ⟨rfl, rfl⟩

theorem processed {x : Connection} {field body : List UInt8}
    (before : Passed p memory handle x.stream x.frames x.calls (field ++ body))
    (hfield : field.length = 4) (hroom : resize memory (p.sizeOf field) = .ok ())
    (hbody : body.length = p.sizeOf field) (runs : x.error = none ∧ x.disconnects = 0) :
    Sound p memory handle (x.processed p handle field body) := by
  have hframes : Frames 4 p.sizeOf x.stream (x.frames ++ [(field, body)]) [] := by
    apply Frames.snoc _ hfield hbody
    rw [List.append_nil]
    exact before.front
  have htaken : Taken p memory x.stream (x.frames ++ [(field, body)]) [] := by
    refine ⟨hframes, ?_⟩
    intro frame hframe
    rcases List.mem_append.mp hframe with hold | hnew
    · exact before.room frame hold
    · rw [List.mem_singleton.mp hnew]
      exact hroom
  have hpasses : passes p handle [] (x.frames ++ [(field, body)]) =
      passes p handle x.calls [(field, body)] := by
    rw [passes_append, before.passed, Option.bind_some]
  unfold Connection.processed
  dsimp only
  split
  · rename_i hanswer
    apply Sound.size [] rfl (by decide)
    · refine ⟨htaken, ?_⟩
      rw [hpasses, passes]
      simp only [hanswer, passes]
    · exact runs
  · rename_i hanswer
    apply Sound.rejected rfl htaken
    · show (passes p handle [] (x.frames ++ [(field, body)]).dropLast).isSome
      rw [List.dropLast_concat, before.passed]
      rfl
    · show passes p handle [] (x.frames ++ [(field, body)]) = none
      rw [hpasses, passes]
      simp only [hanswer]
    · exact ⟨runs.1, congrArg (· + 1) runs.2⟩
  · rename_i what hanswer
    apply Sound.size [] rfl (by decide)
    · refine ⟨htaken, ?_⟩
      rw [hpasses, passes]
      simp only [hanswer, passes]
    · exact runs

theorem sized {x : Connection} {field : List UInt8}
    (before : Passed p memory handle x.stream x.frames x.calls field) (hfield : field.length = 4)
    (runs : x.error = none ∧ x.disconnects = 0) :
    Sound p memory handle (x.sized p memory handle field) := by
  unfold Connection.sized
  split
  · rename_i e hroom
    exact .refused e field rfl hfield hroom before runs
  · rename_i hroom
    split
    · rename_i hzero
      refine processed ?_ hfield hroom ?_ runs
      · rw [List.append_nil]
        exact before
      · rw [hzero]
        rfl
    · rename_i hpos
      refine .body field [] rfl ?_ ?_ runs
      · exact ⟨hfield, hroom, Nat.pos_of_ne_zero hpos⟩
      · rw [List.append_nil]
        exact before

theorem readSome {x y : Connection} {bytes : List UInt8} (h : Sound p memory handle x)
    (hread : x.readSome p memory handle bytes = some y) : Sound p memory handle y := by
  unfold Connection.readSome at hread
  cases h with
  | size got reading short before runs =>
    rw [reading] at hread
    dsimp only at hread
    split at hread
    · exact absurd hread (by simp)
    · rename_i hwanted
      split at hread
      · rename_i hfull
        cases hread
        exact sized (before.read bytes) hfull runs
      · rename_i hpart
        cases hread
        refine .size (got ++ bytes) rfl ?_ (before.read bytes) runs
        omega
  | body field got reading middle before runs =>
    rw [reading] at hread
    dsimp only at hread
    have hbefore := before.read bytes
    rw [List.append_assoc] at hbefore
    split at hread
    · exact absurd hread (by simp)
    · rename_i hwanted
      split at hread
      · rename_i hfull
        cases hread
        exact processed hbefore middle.width middle.room hfull runs
      · rename_i hpart
        cases hread
        refine .body field (got ++ bytes) rfl ?_ hbefore runs
        refine ⟨middle.width, middle.room, ?_⟩
        omega
  | rejected reading => exact absurd hread (by simp [reading])
  | cutSize ec got reading => exact absurd hread (by simp [reading])
  | cutBody ec field got reading => exact absurd hread (by simp [reading])
  | refused e field reading => exact absurd hread (by simp [reading])
  | thrown ec field got reading => exact absurd hread (by simp [reading])

theorem fail {x y : Connection} {ec : ErrorCode} (h : Sound p memory handle x)
    (hfail : x.fail p ec = some y) : Sound p memory handle y := by
  unfold Connection.fail at hfail
  cases h with
  | size got reading short before runs =>
    rw [reading] at hfail
    cases hfail
    exact .cutSize ec got rfl short before ⟨rfl, congrArg (· + 1) runs.2⟩
  | body field got reading middle before runs =>
    rw [reading] at hfail
    dsimp only at hfail
    split at hfail
    · rename_i hbreaks
      cases hfail
      exact .cutBody ec field got rfl hbreaks middle before ⟨rfl, congrArg (· + 1) runs.2⟩
    · rename_i hthrows
      cases hfail
      exact .thrown ec field got rfl hthrows middle before ⟨rfl, runs.2⟩
  | rejected reading => exact absurd hfail (by simp [reading])
  | cutSize ec got reading => exact absurd hfail (by simp [reading])
  | cutBody ec field got reading => exact absurd hfail (by simp [reading])
  | refused e field reading => exact absurd hfail (by simp [reading])
  | thrown ec field got reading => exact absurd hfail (by simp [reading])

theorem disconnects_eq {x : Connection} (h : Sound p memory handle x) :
    x.disconnects = if x.reading = .done then 1 else 0 := by
  cases h with
  | size got reading short before runs => simp [reading, runs.2]
  | body field got reading middle before runs => simp [reading, runs.2]
  | rejected reading before earlier last ended => simp [reading, ended.2]
  | cutSize ec got reading short before ended => simp [reading, ended.2]
  | cutBody ec field got reading breaks middle before ended => simp [reading, ended.2]
  | refused e field reading width noRoom before ended => simp [reading, ended.2]
  | thrown ec field got reading throws middle before ended => simp [reading, ended.2]

end Sound

theorem passes_dropLast {frames : List (List UInt8 × List UInt8)}
    (h : (passes p handle [] frames).isSome) : (passes p handle [] frames.dropLast).isSome := by
  cases frames using List.reverseRecOn with
  | nil => exact h
  | append_singleton frames frame =>
    rw [passes_append] at h
    rw [List.dropLast_concat]
    exact Option.isSome_of_isSome_bind h

/-- Behind some of the frames that were taken, there is another of them or the rest. -/
theorem Taken.behind {stream rest rest' field got : List UInt8}
    {frames frames' : List (List UInt8 × List UInt8)} (h : Taken p memory stream frames rest)
    (hrest : ¬ Whole 4 p.sizeOf rest) (h' : Frames 4 p.sizeOf stream frames' rest')
    (heq : rest' = field ++ got) (hfield : field.length = 4) :
    frames = frames' ∧ rest = rest' ∨
      resize memory (p.sizeOf field) = .ok () ∧ ¬ got.length < p.sizeOf field := by
  obtain ⟨tail, rfl, htail⟩ := h.front.unique hrest h'
  cases htail with
  | nil => exact .inl ⟨(List.append_nil _), rfl⟩
  | @cons field' body more _ tail hfield' hbody hmore =>
    right
    obtain ⟨rfl, rfl⟩ := List.append_inj heq (hfield'.trans hfield.symm)
    constructor
    · exact h.room (field', body) (by simp)
    · rw [List.length_append]
      omega

theorem not_whole_nil : ¬ Whole 4 p.sizeOf [] := by
  intro h
  exact absurd h.length_le (by simp)

theorem not_whole_of_length_lt {rest : List UInt8} (h : rest.length < 4) :
    ¬ Whole 4 p.sizeOf rest := by
  intro hwhole
  have hle := hwhole.length_le
  omega

namespace Sound

/-- A loop that has broken has met no harm. -/
theorem harmless {x : Connection} (h : Sound p memory handle x) (hdone : x.reading = .done) :
    Harmless p memory handle x.stream x.error := by
  intro frames rest field got hfront hpasses hrest hfield
  cases h with
  | size got' reading => exact absurd hdone (by simp [reading])
  | body field' got' reading => exact absurd hdone (by simp [reading])
  | rejected reading before earlier last ended =>
    rcases before.behind not_whole_nil hfront hrest hfield with ⟨rfl, -⟩ | ⟨hroom, hlong⟩
    · rw [last] at hpasses
      exact absurd hpasses (by simp)
    · exact ⟨hroom, fun hshort => absurd hshort hlong⟩
  | cutSize ec got' reading short before ended =>
    rcases before.behind (not_whole_of_length_lt short) hfront hrest hfield with
      ⟨-, rfl⟩ | ⟨hroom, hlong⟩
    · rw [hrest, List.length_append] at short
      omega
    · exact ⟨hroom, fun hshort => absurd hshort hlong⟩
  | cutBody ec field' got' reading breaks middle before ended =>
    rcases before.behind (not_whole_of_short middle.width middle.short) hfront hrest hfield with
      ⟨-, heq⟩ | ⟨hroom, hlong⟩
    · obtain ⟨rfl, rfl⟩ := List.append_inj (heq.trans hrest) (middle.width.trans hfield.symm)
      refine ⟨middle.room, ?_⟩
      intro _ ec' hec'
      rw [ended.1] at hec'
      cases hec'
      exact breaks
    · exact ⟨hroom, fun hshort => absurd hshort hlong⟩
  | refused e field' reading => exact absurd hdone (by simp [reading])
  | thrown ec field' got' reading => exact absurd hdone (by simp [reading])

/-- A loop that has met no harm has broken. -/
theorem done {x : Connection} (h : Sound p memory handle x) (hover : x.reading.over)
    (hharmless : Harmless p memory handle x.stream x.error) : x.reading = .done := by
  cases h with
  | size got reading => exact absurd hover (by simp [reading, Reading.over])
  | body field got reading => exact absurd hover (by simp [reading, Reading.over])
  | rejected reading => exact reading
  | cutSize ec got reading => exact reading
  | cutBody ec field got reading => exact reading
  | refused e field reading width noRoom before ended =>
    obtain ⟨hroom, -⟩ := hharmless x.frames field field [] before.front (by simp [before.passed])
      (List.append_nil field).symm width
    rw [noRoom] at hroom
    exact absurd hroom (by simp)
  | thrown ec field got reading throws middle before ended =>
    obtain ⟨-, hbreaks⟩ := hharmless x.frames (field ++ got) field got before.front
      (by simp [before.passed]) rfl middle.width
    exact absurd (hbreaks middle.short ec ended.1) throws

theorem whole {x : Connection} (h : Sound p memory handle x) (hdone : x.reading = .done) :
    ∃ rest, Frames 4 p.sizeOf x.stream x.frames rest ∧ ¬ Whole 4 p.sizeOf rest ∧
      (passes p handle [] x.frames.dropLast).isSome ∧
      (x.error = none → rest = [] ∧ passes p handle [] x.frames = none) := by
  cases h with
  | size got reading => exact absurd hdone (by simp [reading])
  | body field got reading => exact absurd hdone (by simp [reading])
  | rejected reading before earlier last ended =>
    exact ⟨[], before.front, not_whole_nil, earlier, fun _ => ⟨rfl, last⟩⟩
  | cutSize ec got reading short before ended =>
    refine ⟨got, before.front, not_whole_of_length_lt short, ?_, ?_⟩
    · exact passes_dropLast (by simp [before.passed])
    · simp [ended.1]
  | cutBody ec field got reading breaks middle before ended =>
    refine ⟨field ++ got, before.front, not_whole_of_short middle.width middle.short, ?_, ?_⟩
    · exact passes_dropLast (by simp [before.passed])
    · simp [ended.1]
  | refused e field reading => exact absurd hdone (by simp [reading])
  | thrown ec field got reading => exact absurd hdone (by simp [reading])

end Sound

end

/-! ## All read loops of a proxy -/

/-- `connections_` are the connections whose read loops have not come to their end. -/
structure Kept (p : ReadLoop) (memory : Nat → Bool) (handle : Nat → Handle) (s : Node) : Prop where
  sound : ∀ c x, s.all[c]? = some x → Sound p memory (handle c) x
  nodup : s.connections.Nodup
  here : ∀ c ∈ s.connections, ∃ x, s.all[c]? = some x ∧ x.reading ≠ .done

namespace Kept

variable {p : ReadLoop} {memory : Nat → Bool} {handle : Nat → Handle} {s s' : Node}

theorem connect (h : Kept p memory handle s) :
    Kept p memory handle
      { connections := s.connections ++ [s.all.length], all := s.all ++ [.initial] } := by
  have hold : ∀ (c : Nat) (x : Connection), s.all[c]? = some x →
      (s.all ++ [.initial])[c]? = some x := by
    intro c x hx
    rw [List.getElem?_append_left (List.getElem?_eq_some_iff.mp hx).1]
    exact hx
  constructor
  · intro c x hx
    rcases Nat.lt_or_ge c s.all.length with hlt | hge
    · rw [List.getElem?_append_left hlt] at hx
      exact h.sound c x hx
    · rw [List.getElem?_append_right hge] at hx
      rw [List.mem_singleton.mp (List.mem_of_getElem? hx)]
      exact .initial
  · apply List.nodup_append.mpr
    refine ⟨h.nodup, by simp, ?_⟩
    intro c hc c' hc' heq
    obtain ⟨x, hx, -⟩ := h.here c hc
    have hlt := (List.getElem?_eq_some_iff.mp hx).1
    rw [heq, List.mem_singleton.mp hc'] at hlt
    omega
  · intro c hc
    rcases List.mem_append.mp hc with hc | hc
    · obtain ⟨x, hx, hrunning⟩ := h.here c hc
      exact ⟨x, hold c x hx, hrunning⟩
    · rw [List.mem_singleton.mp hc]
      exact ⟨.initial, by simp, by simp [Connection.initial]⟩

theorem mem_of_mem_update {c c' : Nat} {y : Connection}
    (h : c' ∈ (s.update c y).connections) : c' ∈ s.connections := by
  unfold Node.update at h
  split at h
  · exact List.mem_of_mem_erase h
  · exact h

theorem update (h : Kept p memory handle s) {c : Nat} {x y : Connection}
    (hx : s.all[c]? = some x) (hy : Sound p memory (handle c) y) :
    Kept p memory handle (s.update c y) := by
  have hlt := (List.getElem?_eq_some_iff.mp hx).1
  constructor
  · intro c' z hz
    by_cases hc : c = c'
    · subst hc
      rw [Node.update, List.getElem?_set_self hlt] at hz
      cases hz
      exact hy
    · rw [Node.update, List.getElem?_set_ne hc] at hz
      exact h.sound c' z hz
  · unfold Node.update
    dsimp only
    split
    · exact h.nodup.erase c
    · exact h.nodup
  · intro c' hc'
    by_cases hc : c = c'
    · subst hc
      refine ⟨y, List.getElem?_set_self hlt, ?_⟩
      intro hdone
      rw [Node.update, if_pos hdone] at hc'
      exact h.nodup.not_mem_erase hc'
    · obtain ⟨z, hz, hrunning⟩ := h.here c' (mem_of_mem_update hc')
      exact ⟨z, (List.getElem?_set_ne hc).trans hz, hrunning⟩

theorem step {ev : Event} (h : Kept p memory handle s)
    (hstep : ReadLoops.step p memory handle s ev = some s') : Kept p memory handle s' := by
  obtain ⟨-, hstep⟩ := Option.ite_none_left_eq_some.mp hstep
  cases ev with
  | connect =>
    cases hstep
    exact h.connect
  | stop =>
    obtain ⟨-, heq⟩ := Option.ite_none_right_eq_some.mp hstep
    cases heq
    exact { sound := h.sound, nodup := .nil, here := by simp }
  | readSome c bytes =>
    obtain ⟨x, hx, hstep⟩ := Option.bind_eq_some_iff.mp hstep
    obtain ⟨y, hy, rfl⟩ := Option.map_eq_some_iff.mp hstep
    exact h.update hx ((h.sound c x hx).readSome hy)
  | fail c ec =>
    obtain ⟨x, hx, hstep⟩ := Option.bind_eq_some_iff.mp hstep
    obtain ⟨y, hy, rfl⟩ := Option.map_eq_some_iff.mp hstep
    exact h.update hx ((h.sound c x hx).fail hy)

end Kept

/-- **When a read loop contains every failure.** -/
theorem contains_failures {p : ReadLoop} {memory : Nat → Bool} {handle : Nat → Handle} {s : Node}
    (h : Run (step p memory handle) (fun _ _ => True) initial s) {c : Nat} {x : Connection}
    (hx : s.all[c]? = some x) (hover : x.reading.over) :
    Contained p (handle c) s c x ↔ Harmless p memory (handle c) x.stream x.error := by
  have hkept : Kept p memory handle s := by
    apply h.invariant
    · exact { sound := by simp [initial], nodup := .nil, here := by simp [initial] }
    · intro s s' ev _ hs _ hstep
      exact hs.step hstep
  have hsound := hkept.sound c x hx
  constructor
  · intro hcontained
    exact hsound.harmless hcontained.caught
  · intro hharmless
    have hdone := hsound.done hover hharmless
    refine ⟨hdone, ?_, ?_, hsound.whole hdone⟩
    · rw [hsound.disconnects_eq, if_pos hdone]
    · intro hc
      obtain ⟨y, hy, hrunning⟩ := hkept.here c hc
      rw [hx] at hy
      cases hy
      exact hrunning hdone

/-! ## The two read loops -/

/-- Where there is room for all that 32 bits can announce, the loop of the server proxy contains
every failure. -/
theorem serverProxyConnection_harmless {memory : Nat → Bool} (hmemory : ∀ n < 2 ^ 32, memory n)
    (handle : Handle) (stream : List UInt8) (error : Option ErrorCode) :
    Harmless serverProxyConnection memory handle stream error := by
  intro frames rest field got _ _ _ _
  have hlt : serverProxyConnection.sizeOf field < 2 ^ 32 := by
    unfold ReadLoop.sizeOf serverProxyConnection
    dsimp only
    rw [UInt32.toNat_toUInt64]
    exact UInt32.toNat_lt _
  constructor
  · unfold resize
    rw [if_neg (by omega), if_pos (hmemory _ hlt)]
  · intro _ ec _
    rfl

/-- The loop of the client proxy has no room for a negative size. -/
theorem clientProxyConnection_refuses (memory : Nat → Bool) {field : List UInt8}
    (hnegative : 2 ^ 31 ≤ (UInt32.ofNat (BigEndian.ofBytes field)).toNat) :
    resize memory (clientProxyConnection.sizeOf field) = .error .lengthError := by
  generalize hn : UInt32.ofNat (BigEndian.ofBytes field) = n at hnegative
  have hmsb : n.toBitVec.msb = true := by
    rw [BitVec.msb_eq_decide]
    exact decide_eq_true hnegative
  have hextend : clientProxyConnection.sizeOf field = (n.toBitVec.signExtend 64).toNat := by
    rw [← hn]
    rfl
  have hbound : 2 ^ 63 ≤ 2 ^ 64 - 2 ^ 32 := by decide
  unfold resize
  apply if_pos
  rw [hextend, BitVec.toNat_signExtend, hmsb, if_pos rfl]
  omega

/-! ## The end of the stream -/

/-- A keep-alive comes in pieces, and then the stream ends in a size field. -/
def keptAlive : Node :=
  execs (step clientProxyConnection (fun _ => true) fun _ _ _ => true) initial
    [.connect, .readSome 0 [0, 0], .readSome 0 [0, 4], .readSome 0 MessageType.keepAlive.tag,
      .readSome 0 [0], .fail 0 (.other 2)]

theorem contains_failures_keptAlive :
    keptAlive.all.map (·.calls.length) = [1] ∧
      (Contained clientProxyConnection (fun _ _ => true) keptAlive 0
          (keptAlive.all.get ⟨0, by decide +kernel⟩) ↔
        Harmless clientProxyConnection (fun _ => true) (fun _ _ => true)
          (keptAlive.all.get ⟨0, by decide +kernel⟩).stream
          (keptAlive.all.get ⟨0, by decide +kernel⟩).error) :=
  ⟨by decide +kernel,
    contains_failures (p := clientProxyConnection)
      (Run.nil.execs (allOk_of_forall (fun _ _ => trivial) _ _) :
        Run _ (fun _ _ => True) initial keptAlive)
      (List.getElem?_eq_getElem _) (by decide +kernel)⟩

/-- The stream ends behind a size field. -/
theorem not_contains_failures : ¬ ∀ p ∈ [serverProxyConnection, clientProxyConnection],
    ∀ (handle : Nat → Handle) (s : Node),
      Run (step p (fun _ => true) handle) (fun _ _ => True) initial s →
      ∀ (c : Nat) (x : Connection), s.all[c]? = some x → x.reading.over →
        Contained p (handle c) s c x := by
  intro h
  have hcontained := h clientProxyConnection (by simp) (fun _ _ _ => true)
    (execs (step clientProxyConnection (fun _ => true) fun _ _ _ => true) initial
      [.connect, .readSome 0 [0, 0, 0, 5], .fail 0 (.other 2)])
    (Run.nil.execs (allOk_of_forall (fun _ _ => trivial) _ _)) 0
    { reading := .escaped (.systemError (.other 2)), frames := [], calls := [], disconnects := 0,
      stream := [0, 0, 0, 5], error := some (.other 2) } rfl rfl
  exact absurd hcontained.caught (by simp)

end Synergy.ReadLoops
