import Mathlib.Data.Int.Notation
import Synergy.Protocol.Scanner

/-!
# The scanner as a machine

`Scanner.cpp.rl` with its registers: the pointers `p`, `ts`, `te` and `data`, the lengths `dlen` and
`dsize`, and the embedded actions on them. A pattern is a straight line of transitions, one for each
byte that it takes, and the machine follows all patterns at once. It looks at a byte only where `p`
is not `pe`; this is a test for equality, so that a pointer beyond `pe` would be read from.

A leaving action runs on the transition that leaves the tag, or at the end of the token where
nothing follows the tag. Pointers are offsets into the buffer, lengths are `size_t` of 64 bits.

What the machine does with memory is recorded: the bytes it looks at, where a skip takes it, and the
pointers that `read_from` is called with.
-/

set_option autoImplicit false

namespace Synergy.Protocol

open Lib

/-! ## Patterns -/

/-- The embedded actions. -/
inductive Action where
  | mdb
  | dsize (n : Nat)
  | dlenInit
  | dlenShift
  | dlenOr
  | skipDataBytes
  deriving DecidableEq

/-- What a transition asks for. -/
inductive Guard where
  | byte (b : UInt8) (cond : Condition)
  | any
  | dlenIsSafe
  deriving DecidableEq

/-- A transition on one byte, and the actions that run on it. -/
structure Edge where
  guard : Guard
  actions : List Action
  deriving DecidableEq

def anyEdge : Edge := { guard := .any, actions := [] }

/-- `dlen data_bytes`; the data is one transition, which skips it. -/
def countedEdges (n : Nat) : List Edge :=
  [ { guard := .any, actions := [.dlenInit, .dsize n] },
    { guard := .any, actions := [.dlenShift, .dlenOr] },
    { guard := .any, actions := [.dlenShift, .dlenOr] },
    { guard := .any, actions := [.dlenShift, .dlenOr] },
    { guard := .dlenIsSafe, actions := [.skipDataBytes] } ]

def Item.edges : Item → List Edge
  | .i1 => [anyEdge]
  | .i2 => List.replicate 2 anyEdge
  | .i4 => List.replicate 4 anyEdge
  | .string => countedEdges 1
  | .i4vec => countedEdges 4

/-- The size of an element, where an item is counted. -/
def Item.counted : Item → Option Nat
  | .string => some 1
  | .i4vec => some 4
  | .i1 | .i2 | .i4 => none

/-- `%mdb`, on the first transition behind the tag. -/
def leaving : List Edge → List Edge
  | [] => []
  | e :: es => { e with actions := .mdb :: e.actions } :: es

namespace Rule

def tagEdges (r : Rule) : List Edge :=
  (bytesOf r.tag).map fun b => { guard := .byte b r.cond, actions := [] }

def edges (r : Rule) : List Edge := r.tagEdges ++ leaving (r.items.flatMap Item.edges)

/-- The size of an element of the data, where the pattern ends in data. -/
def counted (r : Rule) : Option Nat := r.items.getLast?.bind Item.counted

/-- The pattern is matched after so many transitions; data may be left out. -/
def final (r : Rule) (i : Nat) : Bool :=
  i = r.edges.length || (r.counted.isSome && i + 1 = r.edges.length)

end Rule

/-! ## Registers -/

structure Registers where
  p : Nat
  data : Option Nat
  dlen : Nat
  dsize : Nat
  /-- Where each skip has taken `p`. -/
  skips : List Nat

/-- An action, at a byte. -/
def Action.run (fc : UInt8) (x : Registers) : Action → Registers
  | .mdb => { x with data := some x.p }
  | .dsize n => { x with dsize := n }
  | .dlenInit => { x with dlen := fc.toNat }
  | .dlenShift => { x with dlen := (x.dlen <<< 8) % 2 ^ 64 }
  | .dlenOr => { x with dlen := x.dlen ||| fc.toNat }
  | .skipDataBytes =>
    let p := x.p - 1 + x.dlen * x.dsize % 2 ^ 64
    { x with p := p, skips := x.skips ++ [p] }

/-- A transition can be taken. The difference of the pointers is converted to `size_t`. -/
def Guard.holds (flow : Flow) (pe : Nat) (fc : UInt8) (x : Registers) : Guard → Bool
  | .byte b cond => cond.holds flow && fc = b
  | .any => true
  | .dlenIsSafe =>
    0 < x.dlen && ((x.dlen * x.dsize % 2 ^ 64 : Nat) : Int) ≤ ((pe : Int) - x.p) % 2 ^ 64

/-! ## The machine -/

/-- The pointers of a call of `read_from`. -/
structure ReadCall where
  header : Nat
  data : Nat
  stop : Nat
  deriving DecidableEq

inductive Exit where
  | returned (value : Bool)
  | threw (what : String)
  /-- A byte outside of the buffer, or a null pointer. -/
  | fault
  deriving DecidableEq

structure Machine where
  regs : Registers
  /-- The start of the token. -/
  ts : Nat
  /-- How many transitions have been taken since. -/
  index : Nat
  /-- The patterns that have followed them. -/
  active : List Rule
  /-- `act` and `te`, once a pattern has been matched. -/
  matched : Option (Rule × Nat)
  calls : List Message
  examined : List Nat
  reads : List ReadCall
  exit : Option Exit

/-- The bytes between two pointers. -/
def between (msg : List UInt8) (first last : Nat) : List UInt8 :=
  (msg.drop first).take (last - first)

namespace Machine

def initial : Machine where
  regs := { p := 0, data := none, dlen := 0, dsize := 0, skips := [] }
  ts := 0
  index := 0
  active := rules
  matched := none
  calls := []
  examined := []
  reads := []
  exit := none

variable (flow : Flow) (handle : Handle) (msg : List UInt8)

/-- The next token. -/
def restart (s : Machine) (te : Nat) : Machine :=
  { s with
    regs := { s.regs with p := te }
    ts := te
    index := 0
    active := rules
    matched := none }

/-- `PROC`. -/
def proc (s : Machine) (r : Rule) (data te : Nat) : Machine :=
  let call : ReadCall := { header := s.ts, data := data, stop := te }
  let s := { s with reads := s.reads ++ [call] }
  match r.proc.readFrom (between msg s.ts data) (between msg data te) with
  | .error what => { s with exit := some (.threw what) }
  | .ok (args, _) =>
    let message : Message := ⟨r.proc, args⟩
    let s' := { s with calls := s.calls ++ [message] }
    if handle s.calls message then s'.restart te else { s' with exit := some (.returned false) }

/-- No transition can be taken: back to the last match, if there is any. -/
def fallBack (s : Machine) : Machine :=
  match s.matched with
  | none => { s with exit := some (.returned false) }
  | some (r, te) =>
    match (if r.items = [] then some s.regs.p else s.regs.data) with
    | none => { s with exit := some .fault }
    | some data => proc handle msg { s with regs := { s.regs with data := some data } } r data te

/-- The patterns that have a transition for this byte. -/
def takers (s : Machine) (fc : UInt8) : List Rule :=
  s.active.filter fun r => r.edges[s.index]?.any fun e => e.guard.holds flow msg.length fc s.regs

def take (s : Machine) (fc : UInt8) (taken : List Rule) : Machine :=
  let actions := taken.flatMap fun r => (r.edges[s.index]?.map Edge.actions).getD []
  let regs := actions.foldl (Action.run fc) s.regs
  let regs := { regs with p := regs.p + 1 }
  let final := (taken.find? fun r => r.final (s.index + 1)).map fun r => (r, regs.p)
  { s with
    regs := regs
    index := s.index + 1
    active := taken
    matched := final <|> s.matched }

def step (s : Machine) : Machine :=
  if s.regs.p = msg.length then
    -- between two tokens the machine is in a final state
    if s.index = 0 then { s with exit := some (.returned true) } else s.fallBack handle msg
  else
    match msg[s.regs.p]? with
    | none => { s with exit := some .fault }
    | some fc =>
      let s := { s with examined := s.examined ++ [s.regs.p] }
      let taken := s.takers flow msg fc
      if taken = [] then s.fallBack handle msg else s.take fc taken

/-- At most so many steps. -/
def run : Nat → Machine → Machine
  | 0, s => s
  | n + 1, s => if s.exit.isSome then s else run n (s.step flow handle msg)

end Machine

end Synergy.Protocol
