import Synergy.Lib.Run
import Synergy.Lib.Writes
import Synergy.Protocol.MessageTypes

/-!
# Writes to a core process

`ServerProxyConnection::write` and `ClientProxyConnection::write`: each call spawns a coroutine
that writes one frame, the size of the data in four big-endian bytes and then the data. The write
is a composed operation, a loop of `write_some`s each of which transfers any part that is not
empty, and nothing makes the coroutine of one call wait for that of another.

So the socket has overlapping writes (`Lib.Writes`), and a write whose coroutine has not run yet is
one of them with all of its frame left. `InOrder` is the order of transfers that no code enforces,
and `stream_prefix` is what would follow from it.
-/

set_option autoImplicit false

namespace Synergy.Proxy

open Lib Protocol

/-- What is written in one call: the data of a core message, which FlatBuffers keeps below 2^32
bytes, or the greeting that the proxy itself sends. -/
structure Data where
  bytes : List UInt8
  short : bytes.length < 2 ^ 32

/-- A frame: the size of the data, then the data. -/
def frame (data : Data) : List UInt8 := BigEndian.toBytes 4 data.bytes.length ++ data.bytes

/-- The size and the data as `ServerProxyConnection::write` puts them together, where
`numeric_cast` may throw. -/
def serverFrame (data : List UInt8) : Except String (List UInt8) := do
  let size ← numericCast data.length
  return BigEndian.toBytes 4 size.toNat ++ data

/-- The same in `ClientProxyConnection::write`, where the conversion is implicit. -/
def clientFrame (data : List UInt8) : List UInt8 :=
  BigEndian.toBytes 4 (UInt32.ofNat data.length).toNat ++ data

theorem serverFrame_eq (data : Data) : serverFrame data.bytes = .ok (frame data) := by
  have hsize : (UInt32.ofNat data.bytes.length).toNat = data.bytes.length :=
    UInt32.toNat_ofNat_of_lt' data.short
  simp only [serverFrame, numericCast, if_pos data.short, frame]
  change Except.ok (BigEndian.toBytes 4 (UInt32.ofNat data.bytes.length).toNat ++ data.bytes) = _
  rw [hsize]

theorem clientFrame_eq (data : Data) : clientFrame data.bytes = frame data := by
  have hsize : (UInt32.ofNat data.bytes.length).toNat = data.bytes.length :=
    UInt32.toNat_ofNat_of_lt' data.short
  rw [clientFrame, frame, hsize]

/-- The socket of a `ServerProxyConnection` or a `ClientProxyConnection`, as it is written to. -/
structure Socket where
  /-- All that was handed over for writing. -/
  delivered : List Data
  writes : Writes UInt8

namespace Socket

def initial : Socket := { delivered := [], writes := .empty }

inductive Event where
  /-- A core message is delivered, or the connection greets its core process. -/
  | deliver (data : Data)
  /-- The `i`-th unfinished write transfers `n` bytes. -/
  | transfer (i n : Nat)

/-- `write`: a coroutine with a whole frame to write. -/
def write (s : Socket) (data : Data) : Socket :=
  { s with delivered := s.delivered ++ [data], writes := s.writes.begin (frame data) }

def step (s : Socket) : Event → Option Socket
  | .deliver data => some (s.write data)
  | .transfer i n => (s.writes.writeSome i n).map fun writes => { s with writes := writes }

/-- No write transfers anything while an older one is unfinished. -/
def InOrder (_ : Socket) : Event → Prop
  | .deliver _ => True
  | .transfer i _ => i = 0

/-- The runs in which writes overlap as they like. -/
abbrev Run : Socket → Prop := Lib.Run step (fun _ _ => True) initial

theorem step_transfer {s s' : Socket} {i n : Nat} (h : s.step (.transfer i n) = some s') :
    ∃ writes, s.writes.writeSome i n = some writes ∧ s' = { s with writes := writes } := by
  obtain ⟨writes, hwrites, rfl⟩ := Option.map_eq_some_iff.mp h
  exact ⟨writes, hwrites, rfl⟩

/-- What went out and what is left are what was handed over. -/
def Whole (s : Socket) : Prop := s.writes.total = (s.delivered.map frame).flatten

theorem Whole.step {s s' : Socket} {ev : Event} (h : s.Whole) (hok : s.InOrder ev)
    (hstep : s.step ev = some s') : s'.Whole := by
  cases ev with
  | deliver data =>
    cases hstep
    unfold Whole at h ⊢
    simp [Socket.write, Writes.total_begin, h]
  | transfer i n =>
    have hi : i = 0 := hok
    subst hi
    obtain ⟨writes, hwrites, rfl⟩ := step_transfer hstep
    exact (Writes.total_writeSome_zero hwrites).trans h

/-- **Frames do not interleave where transfers keep the order of delivery.** -/
theorem stream_prefix {s : Socket} (h : Lib.Run step InOrder initial s) :
    s.writes.stream <+: (s.delivered.map frame).flatten := by
  have hwhole : s.Whole := by
    apply h.invariant
    · rfl
    · intro s s' ev _ hs hok hstep
      exact hs.step hok hstep
  exact ⟨s.writes.unfinished.flatten, hwhole⟩

/-! ## Where one write waits for the other -/

/-- A call of `write` that finds no unfinished write. -/
def Waits (s : Socket) : Event → Prop
  | .deliver _ => s.writes.unfinished = []
  | .transfer _ _ => True

/-- At most one write is unfinished, where each call finds none. -/
theorem length_unfinished_le {s : Socket} (h : Lib.Run step Waits initial s) :
    s.writes.unfinished.length ≤ 1 := by
  apply h.invariant
  · simp [initial, Writes.empty]
  · intro s s' ev _ hle hok hstep
    cases ev with
    | deliver data =>
      cases hstep
      have hnone : s.writes.unfinished = [] := hok
      simp [write, Writes.begin, hnone]
    | transfer i n =>
      obtain ⟨writes, hwrites, rfl⟩ := step_transfer hstep
      exact Nat.le_trans (Writes.length_writeSome_le hwrites) hle

/-- Such calls keep the order, so this is one way to have it. -/
theorem inOrder_of_waits {s : Socket} (h : Lib.Run step Waits initial s) :
    Lib.Run step InOrder initial s := by
  induction h with
  | nil => exact .nil
  | @snoc s s' ev hrun hok hstep ih =>
    refine ih.snoc ?_ hstep
    cases ev with
    | deliver data => trivial
    | transfer i n =>
      obtain ⟨writes, hwrites, -⟩ := step_transfer hstep
      have hlt := Writes.lt_of_writeSome hwrites
      have hle := length_unfinished_le hrun
      show i = 0
      omega

/-! ## Two writes at once -/

def chunk : Data := ⟨[1], by decide⟩

def move : Data := ⟨[2, 2], by decide⟩

/-- Two frames, the second of which is delivered after the first is done. -/
def oneByOne : Socket :=
  execs step initial [.deliver chunk, .transfer 0 2, .transfer 0 3, .deliver move, .transfer 0 4]

theorem stream_prefix_oneByOne :
    oneByOne.writes.stream = [0, 0, 0, 1, 1, 0, 0, 0, 2] ∧
      oneByOne.writes.stream <+: (oneByOne.delivered.map frame).flatten :=
  ⟨by decide +kernel, stream_prefix
    (Run.nil.execs ⟨trivial, rfl, rfl, trivial, rfl, trivial⟩)⟩

/-- A message is delivered while the frame before it is not all written. -/
def interleaved : Socket :=
  execs step initial [.deliver chunk, .transfer 0 4, .deliver move, .transfer 1 6]

theorem not_stream_prefix :
    ¬ ∀ s, Run s → s.writes.stream <+: (s.delivered.map frame).flatten := by
  intro h
  have hprefix := h interleaved (Run.nil.execs (allOk_of_forall (fun _ _ => trivial) _ _))
  exact absurd hprefix (by decide +kernel)

end Socket

end Synergy.Proxy
