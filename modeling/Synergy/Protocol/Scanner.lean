import Synergy.Lib.LongestMatch
import Synergy.Protocol.MessageTypes

/-!
# The core-protocol scanner

`Scanner.cpp.rl`. The grammar is a longest-match scanner over one rule per message: a tag, fixed
numbers of any bytes, and for some messages a counted field, whose length prefix is computed while
it is scanned. A rule is matched at several lengths only where it ends in a counted field: behind
the prefix, and behind the data if the data can be skipped.

The scanner does not read the fields. It finds where a token ends (`te`) and where its data starts
(`data`, at the end of the tag), and leaves the rest to `read_from` of the message, which throws
where the token is too short for what its length prefix announces.
-/

set_option autoImplicit false

namespace Synergy.Protocol

open Lib

/-- The direction of a byte stream: from the server to the client, or back. -/
inductive Flow where
  | stc
  | cts
  deriving DecidableEq, Repr

/-- A condition embedded in a rule: `when stc`, `when !stc`, or none. -/
inductive Condition where
  | always
  | stc
  | notStc
  deriving DecidableEq, Repr

def Condition.holds : Condition → Flow → Bool
  | .always, _ => true
  | .stc, flow => flow = .stc
  | .notStc, flow => flow ≠ .stc

/-- The patterns that follow a tag. -/
inductive Item where
  | i1
  | i2
  | i4
  | string
  | i4vec
  deriving DecidableEq, Repr

/-- `any{n}`: the lengths at which it matches. -/
def any (n : Nat) (input : List UInt8) : List Nat :=
  if input.length < n then [] else [n]

/-- The length prefix as the actions compute it: `dlen_init` on the first byte, `dlen_shift` and
`dlen_or` on each later one. -/
def dlen : List UInt8 → Nat
  | [] => 0
  | fc :: fcs => fcs.foldl (fun dlen fc => dlen <<< 8 ||| fc.toNat) fc.toNat

/-- `dlen data_bytes`: a length prefix, and behind it either nothing or, where there is a next
byte and `dlen_is_safe` holds at it, the data. The condition `dlen_is_zero` stands on the empty
string, where there is no byte for it to be checked on. -/
def counted (dsize : Nat) (input : List UInt8) : List Nat :=
  if input.length < 4 then []
  else
    let dlen := dlen (input.take 4)
    let rest := input.drop 4
    if rest ≠ [] ∧ dlen > 0 ∧ dlen * dsize ≤ rest.length then [4, 4 + dlen * dsize] else [4]

def Item.ends : Item → List UInt8 → List Nat
  | .i1 => any 1
  | .i2 => any 2
  | .i4 => any 4
  | .string => counted 1
  | .i4vec => counted 4

/-- The lengths at which patterns match one after the other. -/
def endsOf : List Item → List UInt8 → List Nat
  | [], _ => [0]
  | item :: items, input =>
    (item.ends input).flatMap fun n => (endsOf items (input.drop n)).map (n + ·)

/-- A rule: its condition, its tag, what follows the tag, and the message that it processes. -/
structure Rule where
  cond : Condition
  tag : String
  items : List Item
  proc : MessageType
  deriving DecidableEq, Repr

/-- The alternatives of `message`. -/
def rules : List Rule :=
  [ ⟨.stc, "Synergy", [.i2, .i2], .hello⟩,
    ⟨.notStc, "Synergy", [.i2, .i2, .string], .helloBack⟩,
    ⟨.always, "CNOP", [], .noop⟩,
    ⟨.always, "CBYE", [], .close⟩,
    ⟨.always, "CINN", [.i2, .i2, .i4, .i2], .enter⟩,
    ⟨.always, "COUT", [], .leave⟩,
    ⟨.always, "CCLP", [.i1, .i4], .clipboardGrab⟩,
    ⟨.always, "CSEC", [.i1], .screensaver⟩,
    ⟨.always, "CROP", [], .resetOptions⟩,
    ⟨.always, "CIAK", [], .infoAck⟩,
    ⟨.always, "CALV", [], .keepAlive⟩,
    ⟨.always, "DKDN", [.i2, .i2, .i2], .keyDown⟩,
    ⟨.always, "DKRP", [.i2, .i2, .i2, .i2], .keyRepeat⟩,
    ⟨.always, "DKUP", [.i2, .i2, .i2], .keyUp⟩,
    ⟨.always, "DMDN", [.i1], .mouseDown⟩,
    ⟨.always, "DMUP", [.i1], .mouseUp⟩,
    ⟨.always, "DMMV", [.i2, .i2], .mouseMove⟩,
    ⟨.always, "DMRM", [.i2, .i2], .mouseRelMove⟩,
    ⟨.always, "DMWM", [.i2, .i2], .mouseWheelMove⟩,
    ⟨.always, "DCLP", [.i1, .i4, .i1, .string], .clipboardData⟩,
    ⟨.always, "DINF", [.i2, .i2, .i2, .i2, .i2, .i2, .i2], .info⟩,
    ⟨.always, "DSOP", [.i4vec], .setOptions⟩,
    ⟨.always, "DFTR", [.i1, .string], .fileTransfer⟩,
    ⟨.always, "DDRG", [.i2, .string], .dragInfo⟩,
    ⟨.always, "QINF", [], .infoQuery⟩,
    ⟨.always, "EICV", [.i2, .i2], .incompatible⟩,
    ⟨.always, "EBSY", [], .busy⟩,
    ⟨.always, "EUNK", [], .unknown⟩,
    ⟨.always, "EBAD", [], .bad⟩ ]

/-- Where the data of a rule starts, `mdb`. -/
def Rule.data (r : Rule) : Nat := (bytesOf r.tag).length

/-- The lengths at which a rule matches the front of the input. -/
def Rule.ends (flow : Flow) (input : List UInt8) (r : Rule) : List Nat :=
  if r.cond.holds flow ∧ bytesOf r.tag <+: input then
    (endsOf r.items (input.drop r.data)).map (r.data + ·)
  else
    []

/-- The token at the front of the input: the rule that matches longest, and its end `te`. -/
def token (flow : Flow) (input : List UInt8) : Option (Rule × Nat) :=
  longest (Rule.ends flow input) rules

theorem rules_tag_ne_nil : ∀ r ∈ rules, 0 < r.data := by decide +kernel

theorem token_pos {flow : Flow} {input : List UInt8} {r : Rule} {te : Nat}
    (h : token flow input = some (r, te)) : 0 < te := by
  obtain ⟨hr, hte⟩ := longest_mem h
  have hpos := rules_tag_ne_nil r hr
  unfold Rule.ends at hte
  split at hte
  · obtain ⟨n, -, rfl⟩ := List.mem_map.mp hte
    omega
  · exact absurd hte (by simp)

/-- A handler may keep what it was handed so far: it accepts or rejects a message after those. -/
abbrev Handle : Type := List Message → Message → Bool

/-- The scanner from the position where `input` is left and `calls` were handed to the handler:
what `process` returns or throws, and all messages that were handed to the handler. -/
def scan (flow : Flow) (handle : Handle) (calls : List Message) (input : List UInt8) :
    Except String Bool × List Message :=
  if _ : input = [] then (.ok true, calls)
  else
    match _ : token flow input with
    -- the machine is in its error state, or the input ends inside a token
    | none => (.ok false, calls)
    | some (r, te) =>
      match r.proc.readFrom (input.take r.data) ((input.take te).drop r.data) with
      | .error what => (.error what, calls)
      | .ok (args, _) =>
        let msg : Message := ⟨r.proc, args⟩
        if handle calls msg then scan flow handle (calls ++ [msg]) (input.drop te)
        else (.ok false, calls ++ [msg])
termination_by input.length
decreasing_by
  have hte := token_pos ‹token flow input = some (r, te)›
  have hlen := List.length_pos_of_ne_nil ‹¬input = []›
  rw [List.length_drop]
  omega

/-- `process`: what it returns or throws, and the messages handed to the handler. -/
def process (flow : Flow) (handle : Handle) (msg : List UInt8) :
    Except String Bool × List Message :=
  scan flow handle [] msg

/-- What `Handler::operator ()` hands to the router: a message is written again and sent as a core
message, except for the two greetings, which only raise a signal. -/
def Message.routed (m : Message) : Option (List UInt8) :=
  match m.type with
  | .hello => none
  | .helloBack => none
  | _ => m.writeTo.toOption

end Synergy.Protocol
