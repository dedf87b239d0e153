import Synergy.Protocol.Codec

/-!
# Core messages

The types of core messages with their tags and their fields, as the `DECLARE_SYNERGY_MSG` and
`DEFINE_SYNERGY_MSG` lists have them, and what every message class does with them. A message is
written as its tag and its fields; it is read from the bytes that stood for the tag and from the
data behind them, and what is left of the data is not looked at.
-/

set_option autoImplicit false

namespace Synergy.Protocol

open Lib

inductive MessageType where
  | hello
  | helloBack
  | noop
  | close
  | enter
  | leave
  | clipboardGrab
  | screensaver
  | resetOptions
  | infoAck
  | keepAlive
  | keyDown
  | keyRepeat
  | keyUp
  | mouseDown
  | mouseUp
  | mouseMove
  | mouseRelMove
  | mouseWheelMove
  | clipboardData
  | info
  | setOptions
  | fileTransfer
  | dragInfo
  | infoQuery
  | incompatible
  | busy
  | unknown
  | bad
  deriving DecidableEq, Repr

namespace MessageType

def typeTag : MessageType → String
  | .hello => "Synergy"
  | .helloBack => "Synergy"
  | .noop => "CNOP"
  | .close => "CBYE"
  | .enter => "CINN"
  | .leave => "COUT"
  | .clipboardGrab => "CCLP"
  | .screensaver => "CSEC"
  | .resetOptions => "CROP"
  | .infoAck => "CIAK"
  | .keepAlive => "CALV"
  | .keyDown => "DKDN"
  | .keyRepeat => "DKRP"
  | .keyUp => "DKUP"
  | .mouseDown => "DMDN"
  | .mouseUp => "DMUP"
  | .mouseMove => "DMMV"
  | .mouseRelMove => "DMRM"
  | .mouseWheelMove => "DMWM"
  | .clipboardData => "DCLP"
  | .info => "DINF"
  | .setOptions => "DSOP"
  | .fileTransfer => "DFTR"
  | .dragInfo => "DDRG"
  | .infoQuery => "QINF"
  | .incompatible => "EICV"
  | .busy => "EBSY"
  | .unknown => "EUNK"
  | .bad => "EBAD"

end MessageType

/-- The bytes of an ASCII string, without the terminating zero. -/
def bytesOf (s : String) : List UInt8 := s.toList.map fun c => UInt8.ofNat c.toNat

/-- The bytes of the tag; `strlen` is their number. -/
def MessageType.tag (t : MessageType) : List UInt8 := bytesOf t.typeTag

section Args

open FieldType

/-- The nested struct: major, minor. -/
@[reducible] def version : FieldType := struct [integer .u16, integer .u16]

/-- The fields of a message, in the order of their declaration. -/
@[reducible] def MessageType.args : MessageType → FieldType
  | .hello => struct [version]
  -- version, screen_name
  | .helloBack => struct [version, string]
  | .noop => struct []
  | .close => struct []
  -- x, y, sequence, modifier_mask
  | .enter => struct [integer .s16, integer .s16, integer .u32, integer .u16]
  | .leave => struct []
  -- clipboard_id, sequence
  | .clipboardGrab => struct [integer .u8, integer .u32]
  -- on
  | .screensaver => struct [integer .u8]
  | .resetOptions => struct []
  | .infoAck => struct []
  | .keepAlive => struct []
  -- key_id, modifier_mask, button
  | .keyDown => struct [integer .u16, integer .u16, integer .u16]
  -- key_id, modifier_mask, count, button
  | .keyRepeat => struct [integer .u16, integer .u16, integer .u16, integer .u16]
  -- key_id, modifier_mask, button
  | .keyUp => struct [integer .u16, integer .u16, integer .u16]
  -- button
  | .mouseDown => struct [integer .u8]
  | .mouseUp => struct [integer .u8]
  -- x, y
  | .mouseMove => struct [integer .s16, integer .s16]
  -- dx, dy
  | .mouseRelMove => struct [integer .s16, integer .s16]
  -- x, y
  | .mouseWheelMove => struct [integer .s16, integer .s16]
  -- clipboard, sequence, mark, data
  | .clipboardData => struct [integer .u8, integer .u32, integer .u8, string]
  -- x, y, width, height, zero, mx, my
  | .info => struct [integer .s16, integer .s16, integer .u16, integer .u16, integer .u16,
      integer .s16, integer .s16]
  -- options
  | .setOptions => struct [vector .u32]
  -- mark, content
  | .fileTransfer => struct [integer .u8, string]
  -- file, content
  | .dragInfo => struct [integer .u16, string]
  | .infoQuery => struct []
  | .incompatible => struct [version]
  | .busy => struct []
  | .unknown => struct []
  | .bad => struct []

end Args

/-- A message: its type and the values of its fields. -/
structure Message where
  type : MessageType
  args : type.args.Val

namespace Message

def size (m : Message) : Nat := m.type.tag.length + m.type.args.sizeOf m.args

def writeTo (m : Message) : Except String (List UInt8) := do
  let out ← m.type.args.writeTo m.args
  return m.type.tag ++ out

end Message

/-- `read_from`: `header` are the bytes from the start of the message up to `data`. The unread
rest of the data is returned too; the code drops it. -/
def MessageType.readFrom (t : MessageType) (header data : List UInt8) :
    Except String (t.args.Val × List UInt8) :=
  let tagSize := t.tag.length
  if header.length ≠ tagSize ∨ header.take tagSize ≠ t.tag then
    .error "Bad message header"
  else
    t.args.readFrom data

theorem Message.writeTo_eq_ok {m : Message} {out : List UInt8} :
    m.writeTo = .ok out ↔
      ∃ data, m.type.args.writeTo m.args = .ok data ∧ out = m.type.tag ++ data := by
  have h := Except.bind_eq_ok (x := m.type.args.writeTo m.args)
    (f := fun data => .ok (m.type.tag ++ data)) (r := out)
  simp only [Except.ok.injEq, eq_comm (b := out)] at h
  exact h

theorem MessageType.readFrom_tag (t : MessageType) (data : List UInt8) :
    t.readFrom t.tag data = t.args.readFrom data := by
  simp [readFrom]

theorem MessageType.readFrom_eq_ok {t : MessageType} {header data : List UInt8}
    {r : t.args.Val × List UInt8} (h : t.readFrom header data = .ok r) :
    header = t.tag ∧ t.args.readFrom data = .ok r := by
  simp only [readFrom] at h
  split at h
  · exact absurd h (by simp)
  · rename_i hok
    simp only [not_or, ne_eq, not_not] at hok
    refine ⟨?_, h⟩
    rw [← hok.2, ← hok.1, List.take_length]

theorem Message.writeTo_size {m : Message} {out : List UInt8} (h : m.writeTo = .ok out) :
    out.length = m.size := by
  obtain ⟨data, hdata, rfl⟩ := writeTo_eq_ok.mp h
  rw [List.length_append, (FieldType.exact _).sized _ _ hdata, size]

/-- What is written starts with the tag, and the data behind the tag is read back. -/
theorem Message.readFrom_writeTo {m : Message} {out : List UInt8} (h : m.writeTo = .ok out) :
    ∃ data, out = m.type.tag ++ data ∧ m.type.readFrom m.type.tag data = .ok (m.args, []) := by
  obtain ⟨data, hdata, rfl⟩ := writeTo_eq_ok.mp h
  refine ⟨data, rfl, ?_⟩
  rw [MessageType.readFrom_tag]
  simpa using (FieldType.exact _).reads _ _ [] hdata

/-- **The codec round trip**: a message of any type whose strings and vectors are shorter than
2^32 is written as `size` bytes, from which its arguments are read back, all of them consumed;
and whatever is read from a byte string that is consumed whole is written as that byte string. -/
theorem codec_round_trip (t : MessageType) :
    (∀ args : t.args.Val, t.args.Short args →
      ∃ out, Message.writeTo ⟨t, args⟩ = .ok out ∧ out.length = Message.size ⟨t, args⟩ ∧
        t.readFrom (out.take t.tag.length) (out.drop t.tag.length) = .ok (args, [])) ∧
    ∀ (header data : List UInt8) (args : t.args.Val), t.readFrom header data = .ok (args, []) →
      Message.writeTo ⟨t, args⟩ = .ok (header ++ data) := by
  constructor
  · intro args hshort
    obtain ⟨data, hdata⟩ := (FieldType.exact t.args).accepts args hshort
    have hout : Message.writeTo ⟨t, args⟩ = .ok (t.tag ++ data) :=
      Message.writeTo_eq_ok.mpr ⟨data, hdata, rfl⟩
    refine ⟨t.tag ++ data, hout, Message.writeTo_size hout, ?_⟩
    obtain ⟨data', heq, hread⟩ := Message.readFrom_writeTo hout
    rw [List.append_cancel_left heq, List.take_left, List.drop_left]
    exact hread
  · intro header data args hread
    obtain ⟨rfl, hargs⟩ := MessageType.readFrom_eq_ok hread
    obtain ⟨out, hout, heq⟩ := (FieldType.exact t.args).rewrites _ _ _ hargs
    rw [List.append_nil] at heq
    exact Message.writeTo_eq_ok.mpr ⟨data, heq ▸ hout, rfl⟩

/-- A hello back with a name of two bytes, which is 17 bytes long. -/
theorem codec_round_trip_helloBack :
    Message.size
        ⟨.helloBack, (((1, 6, ()), [104, 105], ()) : MessageType.helloBack.args.Val)⟩ = 17 ∧
    ∃ out, Message.writeTo
        ⟨.helloBack, (((1, 6, ()), [104, 105], ()) : MessageType.helloBack.args.Val)⟩ = .ok out ∧
      out.length = Message.size
        ⟨.helloBack, (((1, 6, ()), [104, 105], ()) : MessageType.helloBack.args.Val)⟩ ∧
      MessageType.helloBack.readFrom (out.take MessageType.helloBack.tag.length)
        (out.drop MessageType.helloBack.tag.length) = .ok (((1, 6, ()), [104, 105], ()), []) :=
  ⟨by decide +kernel, (codec_round_trip .helloBack).1 _ (by simp [FieldType.Short])⟩

end Synergy.Protocol
