import Synergy.Lib.BigEndian
import Synergy.Service.MessageReader

/-!
# Messages on the wire

`MessageHeader` with all of its fields, `Message` and `MessageWriter::write`. A message is written
as its header, 16 bytes of little-endian fields, and the bytes of its body; the writer sets the
`size` of the header to the length of the body, which is a conversion from `std::size_t`.

The bodies are FlatBuffers tables, except for the one of an unknown message, which is just bytes.
FlatBuffers is a library the code uses; it is the parameter `fb`, and `FlatBuffers.Documented` is
what its documentation promises of `Pack`, `Verify` and `UnPack`.
-/

set_option autoImplicit false

namespace Synergy.Framing

open Lib

/-- The fields of the header in the order they have in memory and on the wire. -/
structure MessageHeader where
  version : UInt8
  type : UInt8
  unused : UInt8
  ttl : UInt8
  size : UInt32
  source : UInt32
  dest : UInt32
  deriving DecidableEq

/-- A `uint32_t` field in little-endian order. -/
def littleEndian (n : UInt32) : List UInt8 := (BigEndian.toBytes 4 n.toNat).reverse

def ofLittleEndian (bytes : List UInt8) : UInt32 := UInt32.ofNat (BigEndian.ofBytes bytes.reverse)

namespace MessageHeader

/-- The memory of the header. -/
def toBytes (h : MessageHeader) : List UInt8 :=
  [h.version, h.type, h.unused, h.ttl] ++ littleEndian h.size ++ littleEndian h.source ++
    littleEndian h.dest

/-- The header that is in `kHeaderSize` bytes of memory. -/
def ofBytes (bytes : List UInt8) : MessageHeader where
  version := bytes.getD 0 0
  type := bytes.getD 1 0
  unused := bytes.getD 2 0
  ttl := bytes.getD 3 0
  size := ofLittleEndian ((bytes.drop 4).take 4)
  source := ofLittleEndian ((bytes.drop 8).take 4)
  dest := ofLittleEndian ((bytes.drop 12).take 4)

end MessageHeader

@[simp] theorem length_littleEndian (n : UInt32) : (littleEndian n).length = 4 := by
  simp [littleEndian]

@[simp] theorem ofLittleEndian_littleEndian (n : UInt32) :
    ofLittleEndian (littleEndian n) = n := by
  have hlt : n.toNat < 256 ^ 4 := n.toNat_lt
  rw [ofLittleEndian, littleEndian, List.reverse_reverse, BigEndian.ofBytes_toBytes,
    Nat.mod_eq_of_lt hlt, UInt32.ofNat_toNat]

@[simp] theorem MessageHeader.length_toBytes (h : MessageHeader) :
    h.toBytes.length = kHeaderSize := by
  simp [toBytes, kHeaderSize]

theorem MessageHeader.ofBytes_toBytes (h : MessageHeader) : ofBytes h.toBytes = h := by
  have hfour : ∀ fields : List UInt8, fields.length = 4 → ∀ rest : List UInt8,
      (fields ++ rest).take 4 = fields ∧ (fields ++ rest).drop 4 = rest := by
    intro fields hlen rest
    exact ⟨List.take_left' hlen, List.drop_left' hlen⟩
  obtain ⟨hsize, hrest⟩ := hfour (littleEndian h.size) (by simp)
    (littleEndian h.source ++ littleEndian h.dest)
  obtain ⟨hsource, hrest'⟩ := hfour (littleEndian h.source) (by simp) (littleEndian h.dest)
  obtain ⟨hdest, -⟩ := hfour (littleEndian h.dest) (by simp) []
  rw [List.append_nil] at hdest
  have hdrop : h.toBytes.drop 4 =
      littleEndian h.size ++ (littleEndian h.source ++ littleEndian h.dest) := by
    simp [toBytes]
  have hdrop8 : h.toBytes.drop 8 = littleEndian h.source ++ littleEndian h.dest := by
    rw [← hrest, ← hdrop, List.drop_drop]
  have hdrop12 : h.toBytes.drop 12 = littleEndian h.dest := by
    rw [← hrest', ← hdrop8, List.drop_drop]
  obtain ⟨version, type, unused, ttl, size, source, dest⟩ := h
  simp only [ofBytes, hdrop, hdrop8, hdrop12, hsize, hsource, hdest, ofLittleEndian_littleEndian]
  rfl

/-! ## Bodies -/

/-- The tables of `Message::Body`. -/
inductive Alternative where
  | helloMessage
  | routeAdvertisement
  | routeRevocation
  | proxyClientConnect
  | serverClaim
  | coreMessage
  deriving DecidableEq

/-- The alternative that `make_variant_of_nth` chooses for a type: none, that is the bytes of an
unknown message, for 0 and for every type that is out of range. -/
def Alternative.nth (type : UInt8) : Option Alternative :=
  match type.toNat with
  | 1 => some .helloMessage
  | 2 => some .routeAdvertisement
  | 3 => some .routeRevocation
  | 4 => some .proxyClientConnect
  | 5 => some .serverClaim
  | 6 => some .coreMessage
  | _ => none

/-- The tables and what is used of FlatBuffers. -/
structure FlatBuffers (Table : Alternative → Type) where
  /-- `T::TableType::Pack`, and the finished buffer. -/
  pack : (a : Alternative) → Table a → List UInt8
  /-- `VerifyBuffer<T::TableType>`. -/
  verify : Alternative → List UInt8 → Bool
  /-- `GetRoot<T::TableType> (..)->UnPackTo`. -/
  unpack : (a : Alternative) → List UInt8 → Table a

variable {Table : Alternative → Type}

/-- A buffer that was packed verifies and is unpacked to what was packed; a buffer has less than
`FLATBUFFERS_MAX_BUFFER_SIZE`, 2^31, bytes. -/
structure FlatBuffers.Documented (fb : FlatBuffers Table) : Prop where
  verify_pack : ∀ a t, fb.verify a (fb.pack a t) = true
  unpack_pack : ∀ a t, fb.unpack a (fb.pack a t) = t
  length_pack : ∀ a t, (fb.pack a t).length < 2 ^ 31

/-- `Message::Body`. -/
inductive Body (Table : Alternative → Type) where
  | unknown (bytes : List UInt8)
  | table (a : Alternative) (t : Table a)

/-- The alternative that a body is. -/
def Body.which : Body Table → Option Alternative
  | .unknown _ => none
  | .table a _ => some a

structure Message (Table : Alternative → Type) where
  type : UInt8
  ttl : UInt8
  body : Body Table

/-! ## Writing -/

/-- The bytes of the body. -/
def payload (fb : FlatBuffers Table) : Body Table → List UInt8
  | .unknown bytes => bytes
  | .table a t => fb.pack a t

/-- `MessageWriter::write`: the bytes of both buffers, all of which `async_write` writes. -/
def write (fb : FlatBuffers Table) (header : MessageHeader) (message : Message Table) :
    List UInt8 :=
  let body := payload fb message.body
  { header with size := UInt32.ofNat body.length }.toBytes ++ body

/-- Messages with their headers, written one after the other. -/
def writeAll (fb : FlatBuffers Table) (frames : List (MessageHeader × Message Table)) :
    List UInt8 :=
  frames.flatMap fun frame => write fb frame.1 frame.2

end Synergy.Framing
