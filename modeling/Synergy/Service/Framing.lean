import Synergy.Service.MessageWriter

/-!
# Framing

`MessageReader::read_header` and `read_body` on the bytes that `MessageWriter` writes. The model of
`MessageReader` says how many bytes are asked for next; here each completion delivers some of them
from the front of the stream, as many as the network likes, and without an error. So an
`async_read` is a relation, `Reads`, one derivation for each way its bytes are cut.

A derivation always ends with the next `readSize` bytes (`Reads.bytes`), whatever the reader was in
the middle of before (`started`, the timer); this is why a frame cannot shift the next one.
-/

set_option autoImplicit false

namespace Synergy.Framing

open Lib

variable {Table : Alternative → Type}

/-- `asio::async_read` with `read_chunk` from where `total` bytes are read: the reader afterwards,
the bytes that are delivered, and what is left of the stream. -/
inductive Reads : MessageReader → ℕ → List UInt8 → MessageReader → List UInt8 → List UInt8 → Prop
  | done {r : MessageReader} {total : ℕ} {stream : List UInt8}
      (enough : (r.readChunk .success total).2 = 0) :
      Reads r total stream { (r.readChunk .success total).1 with error := .success } [] stream
  | some {r r' : MessageReader} {total n : ℕ} {stream bytes rest : List UInt8}
      (positive : 0 < n) (wanted : n ≤ (r.readChunk .success total).2)
      (available : n ≤ stream.length)
      (more : Reads (r.readChunk .success total).1 (total + n) (stream.drop n) r' bytes rest) :
      Reads r total stream r' (stream.take n ++ bytes) rest

/-- `read_header`, after its `async_read`. -/
def headerRead (r : MessageReader) (bytes : List UInt8) : MessageReader × Option MessageHeader :=
  if bytes.length ≠ kHeaderSize then (r.reset, none)
  else
    let header := MessageHeader.ofBytes bytes
    (r, some (if header.ttl ≠ 0 then { header with ttl := header.ttl - 1 } else header))

/-- What `read_body` makes of the bytes of a body: nothing where they do not verify. -/
def decode (fb : FlatBuffers Table) (header : MessageHeader) (bytes : List UInt8) :
    Option (Message Table) :=
  match Alternative.nth header.type with
  | none => some { type := header.type, ttl := header.ttl, body := .unknown bytes }
  | some a =>
    if fb.verify a bytes then
      some { type := header.type, ttl := header.ttl, body := .table a (fb.unpack a bytes) }
    else none

/-- `read_body`, after its `async_read`. -/
def bodyRead (fb : FlatBuffers Table) (r : MessageReader) (header : MessageHeader)
    (bytes : List UInt8) : MessageReader × Option (Message Table) :=
  (r.reset, if bytes.length ≠ r.readSize then none else decode fb header bytes)

/-- `read_header` and `read_body` in turn, as long as the headers are read: what they give. A
`read_body` that returns false gives no message. -/
inductive Receives (fb : FlatBuffers Table) : MessageReader → List UInt8 →
    List (MessageHeader × Option (Message Table)) → MessageReader → List UInt8 → Prop
  | nil {r : MessageReader} {stream : List UInt8} : Receives fb r stream [] r stream
  | cons {r r₁ r₂ r₃ : MessageReader} {stream rest₁ rest₂ rest₃ bytes bytes' : List UInt8}
      {header : MessageHeader} {received : List (MessageHeader × Option (Message Table))}
      (headerBytes : Reads { r with readSize := kHeaderSize } 0 stream r₁ bytes rest₁)
      (headerOk : (headerRead r₁ bytes).2 = some header)
      (bodyBytes : Reads { (headerRead r₁ bytes).1 with readSize := header.size.toNat } 0 rest₁ r₂
        bytes' rest₂)
      (next : Receives fb (bodyRead fb r₂ header bytes').1 rest₂ received r₃ rest₃) :
      Receives fb r stream ((header, (bodyRead fb r₂ header bytes').2) :: received) r₃ rest₃

/-! ## One read -/

theorem readChunk_readSize (r : MessageReader) (total : ℕ) :
    (r.readChunk .success total).1.readSize = r.readSize := by
  unfold MessageReader.readChunk
  split
  · rfl
  · dsimp only
    split <;> rfl

theorem readChunk_wanted (r : MessageReader) (total : ℕ) :
    (r.readChunk .success total).2 = min (r.readSize - total) 65536 := by
  unfold MessageReader.readChunk
  split
  · rename_i hdone
    simp only [ne_eq, not_true_eq_false, false_or] at hdone
    rw [Nat.sub_eq_zero_of_le hdone, Nat.zero_min]
  · dsimp only
    split <;> rfl

/-- However it is cut, a read delivers the bytes it was asked for. -/
theorem Reads.bytes {r r' : MessageReader} {total : ℕ} {stream bytes rest : List UInt8}
    (h : Reads r total stream r' bytes rest) :
    bytes = stream.take (r.readSize - total) ∧ rest = stream.drop (r.readSize - total) ∧
      bytes.length = r.readSize - total ∧ r'.readSize = r.readSize := by
  induction h with
  | @done r total stream enough =>
    rw [readChunk_wanted] at enough
    have hzero : r.readSize - total = 0 := by omega
    rw [hzero]
    exact ⟨rfl, rfl, rfl, readChunk_readSize r total⟩
  | @some r r' total n stream bytes rest positive wanted available more ih =>
    obtain ⟨hbytes, hrest, hlen, hsize⟩ := ih
    rw [readChunk_readSize] at hbytes hrest hlen hsize
    rw [readChunk_wanted] at wanted
    have hsplit : r.readSize - total = n + (r.readSize - (total + n)) := by omega
    refine ⟨?_, ?_, ?_, hsize⟩
    · rw [hsplit, List.take_add, hbytes]
    · rw [hsplit, ← List.drop_drop, hrest]
    · rw [List.length_append, List.length_take, hlen]
      omega

/-- Where the stream has the bytes, every first completion can be followed up. -/
theorem Reads.exists (r : MessageReader) (total : ℕ) (stream : List UInt8)
    (h : r.readSize - total ≤ stream.length) :
    ∃ r' bytes rest, Reads r total stream r' bytes rest := by
  induction hn : r.readSize - total using Nat.strong_induction_on generalizing r total stream with
  | _ n ih =>
    by_cases hzero : n = 0
    · exact ⟨_, _, _, .done (by rw [readChunk_wanted, hn, hzero, Nat.zero_min])⟩
    · have hwanted : 1 ≤ (r.readChunk .success total).2 := by
        rw [readChunk_wanted]
        omega
      have hless : (r.readChunk .success total).1.readSize - (total + 1) < n := by
        rw [readChunk_readSize]
        omega
      obtain ⟨r', bytes, rest, hmore⟩ := ih _ hless _ (total + 1) (stream.drop 1) (by
        rw [readChunk_readSize, List.length_drop]
        omega) rfl
      exact ⟨r', _, rest, .some (by omega) hwanted (by omega) hmore⟩

/-! ## One frame -/

/-- A header as `read_header` returns it: one hop less to live. -/
def MessageHeader.relayed (h : MessageHeader) : MessageHeader :=
  if h.ttl ≠ 0 then { h with ttl := h.ttl - 1 } else h

theorem headerRead_toBytes (r : MessageReader) (h : MessageHeader) :
    headerRead r h.toBytes = (r, some h.relayed) := by
  unfold headerRead
  rw [if_neg (by simp), h.ofBytes_toBytes]
  rfl

theorem relayed_size (h : MessageHeader) : h.relayed.size = h.size := by
  unfold MessageHeader.relayed
  split <;> rfl

theorem relayed_type (h : MessageHeader) : h.relayed.type = h.type := by
  unfold MessageHeader.relayed
  split <;> rfl

@[simp] theorem relayed_dest (h : MessageHeader) : h.relayed.dest = h.dest := by
  unfold MessageHeader.relayed
  split <;> rfl

theorem relayed_ttl (h : MessageHeader) : h.relayed.ttl.toNat = h.ttl.toNat - 1 := by
  unfold MessageHeader.relayed
  split
  · rename_i hne
    have hpos : 1 ≤ h.ttl := by
      apply UInt8.le_iff_toNat_le.mpr
      have hne' : h.ttl.toNat ≠ 0 := fun hzero => hne (UInt8.toNat_inj.mp hzero)
      have hone : (1 : UInt8).toNat = 1 := rfl
      omega
    exact UInt8.toNat_sub_of_le _ _ hpos
  · rename_i heq
    simp only [ne_eq, not_not] at heq
    rw [heq]
    rfl

section Frame

variable {fb : FlatBuffers Table} {h : MessageHeader} {rest : List UInt8}

/-- A read of the size of a header reads the header that comes first. -/
theorem Reads.of_header {r r' : MessageReader} {bytes rest' : List UInt8}
    (hread : Reads r 0 (h.toBytes ++ rest) r' bytes rest') (hsize : r.readSize = kHeaderSize) :
    bytes = h.toBytes ∧ rest' = rest := by
  obtain ⟨hbytes, hrest, -, -⟩ := hread.bytes
  have hlen : h.toBytes.length = r.readSize - 0 := by rw [hsize]; exact h.length_toBytes
  rw [List.take_left' hlen] at hbytes
  rw [List.drop_left' hlen] at hrest
  exact ⟨hbytes, hrest⟩

/-- A frame at the front of the stream is read as such, and the rest after it. -/
theorem Receives.frame {r r' : MessageReader} {rest' : List UInt8}
    {x : MessageHeader × Option (Message Table)}
    {received : List (MessageHeader × Option (Message Table))}
    (hrun : Receives fb r (h.toBytes ++ rest) (x :: received) r' rest')
    (hsize : h.size.toNat ≤ rest.length) :
    x = (h.relayed, decode fb h.relayed (rest.take h.size.toNat)) ∧
      ∃ r₂, Receives fb r₂ (rest.drop h.size.toNat) received r' rest' := by
  cases hrun with
  | @cons _ r₁ r₂ _ _ rest₁ rest₂ _ bytes bytes' header _ headerBytes headerOk bodyBytes next =>
    obtain ⟨rfl, rfl⟩ := headerBytes.of_header rfl
    rw [headerRead_toBytes] at headerOk bodyBytes
    cases headerOk
    obtain ⟨hbytes', hrest', hlen', hsize'⟩ := bodyBytes.bytes
    rw [relayed_size, Nat.sub_zero] at hbytes' hrest' hlen'
    dsimp only at hsize'
    rw [relayed_size] at hsize'
    subst hrest'
    refine ⟨?_, _, next⟩
    rw [bodyRead, hsize', if_neg (by rw [hlen']; simp), hbytes']

/-- And it can be read. -/
theorem Receives.exists_frame (r : MessageReader) (hsize : h.size.toNat ≤ rest.length)
    {P : List (MessageHeader × Option (Message Table)) → Prop}
    (hnext : ∀ r₂, ∃ received r' rest', Receives fb r₂ (rest.drop h.size.toNat) received r' rest' ∧
      P received) :
    ∃ x received r' rest', Receives fb r (h.toBytes ++ rest) (x :: received) r' rest' ∧
      P received := by
  obtain ⟨r₁, bytes, rest₁, hheader⟩ := Reads.exists { r with readSize := kHeaderSize } 0
    (h.toBytes ++ rest) (by simp)
  obtain ⟨rfl, rfl⟩ := hheader.of_header rfl
  have hread := headerRead_toBytes r₁ h
  obtain ⟨r₂, bytes', rest₂, hbody⟩ := Reads.exists
    { (headerRead r₁ h.toBytes).1 with readSize := h.relayed.size.toNat } 0 rest₁ (by
      rw [relayed_size]
      exact hsize)
  obtain ⟨-, hrest', -, -⟩ := hbody.bytes
  rw [relayed_size, Nat.sub_zero] at hrest'
  obtain ⟨received, r', rest', hrun, hP⟩ := hnext (bodyRead fb r₂ h.relayed bytes').1
  rw [← hrest'] at hrun
  exact ⟨_, received, r', rest', .cons hheader (by rw [hread]) hbody hrun, hP⟩

end Frame

/-! ## The same list -/

/-- What the reader gives for a frame. -/
structure Received (fb : FlatBuffers Table) (frame : MessageHeader × Message Table)
    (x : MessageHeader × Option (Message Table)) : Prop where
  version : x.1.version = frame.1.version
  type : x.1.type = frame.1.type
  source : x.1.source = frame.1.source
  dest : x.1.dest = frame.1.dest
  size : x.1.size.toNat = (payload fb frame.2.body).length
  ttl : x.1.ttl.toNat = frame.1.ttl.toNat - 1
  /-- Where the type is the one of the body, the body is the same. -/
  body : Alternative.nth frame.1.type = frame.2.body.which →
    ∃ m, x.2 = some m ∧ m.type = frame.1.type ∧ m.body = frame.2.body
  /-- Where the body does not verify as the type says, `read_body` returns false. -/
  invalid : ∀ a, Alternative.nth frame.1.type = some a →
    fb.verify a (payload fb frame.2.body) = false → x.2 = none
  /-- Where the type is not known, what is read is written again with the same type and body. -/
  relay : Alternative.nth frame.1.type = none →
    ∃ m, x.2 = some m ∧ write fb x.1 m = x.1.toBytes ++ payload fb frame.2.body

/-- The length of the body fits the `size` of the header. -/
def Fits (fb : FlatBuffers Table) (frame : MessageHeader × Message Table) : Prop :=
  (payload fb frame.2.body).length < 2 ^ 32

theorem received_of_fits {fb : FlatBuffers Table} (hfb : fb.Documented)
    {frame : MessageHeader × Message Table} (hfits : Fits fb frame) {h : MessageHeader}
    (hh : h = { frame.1 with size := UInt32.ofNat (payload fb frame.2.body).length }) :
    Received fb frame (h.relayed, decode fb h.relayed (payload fb frame.2.body)) := by
  obtain ⟨header, message⟩ := frame
  have hsize : h.size.toNat = (payload fb message.body).length := by
    rw [hh]
    exact UInt32.toNat_ofNat_of_lt' hfits
  have htype : h.relayed.type = header.type := by rw [relayed_type, hh]
  have hother : h.relayed.version = header.version ∧ h.relayed.source = header.source ∧
      h.relayed.dest = header.dest := by
    rw [hh, MessageHeader.relayed]
    split <;> exact ⟨rfl, rfl, rfl⟩
  obtain ⟨hversion, hsource, hdest⟩ := hother
  refine ⟨hversion, htype, hsource, hdest, ?_, ?_, ?_, ?_, ?_⟩
  · rw [relayed_size]
    exact hsize
  · rw [relayed_ttl, hh]
  · intro hwhich
    dsimp only at hwhich
    cases hbody : message.body with
    | unknown bytes =>
      rw [hbody] at hwhich
      refine ⟨⟨h.relayed.type, h.relayed.ttl, .unknown bytes⟩, ?_, htype, rfl⟩
      simp only [decode, htype, hwhich, Body.which, payload]
    | table a t =>
      rw [hbody] at hwhich
      refine ⟨⟨h.relayed.type, h.relayed.ttl, .table a t⟩, ?_, htype, rfl⟩
      simp only [decode, htype, hwhich, Body.which, payload, hfb.verify_pack, if_true,
        hfb.unpack_pack]
  · intro a hnth hverify
    dsimp only at hnth hverify
    simp only [decode, htype, hnth, hverify, Bool.false_eq_true, if_false]
  · intro hnth
    dsimp only at hnth
    refine ⟨⟨h.relayed.type, h.relayed.ttl, .unknown (payload fb message.body)⟩, ?_, ?_⟩
    · simp only [decode, htype, hnth]
    · have hback : UInt32.ofNat (payload fb message.body).length = h.relayed.size := by
        rw [relayed_size, hh]
      change
        { h.relayed with size := UInt32.ofNat (payload fb message.body).length }.toBytes ++ _ = _
      rw [hback]
      rfl

theorem fits_of_short {fb : FlatBuffers Table} (hfb : fb.Documented)
    {frame : MessageHeader × Message Table}
    (hshort : ∀ bytes, frame.2.body = .unknown bytes → bytes.length < 2 ^ 32) : Fits fb frame := by
  unfold Fits
  cases hbody : frame.2.body with
  | unknown bytes => exact hshort bytes hbody
  | table a t => exact Nat.lt_trans (hfb.length_pack a t) (by decide)

/-- The stream of a list of frames, taken apart at the first one. -/
theorem writeAll_cons (fb : FlatBuffers Table) (frame : MessageHeader × Message Table)
    (frames : List (MessageHeader × Message Table)) :
    writeAll fb (frame :: frames) =
      { frame.1 with size := UInt32.ofNat (payload fb frame.2.body).length }.toBytes ++
        (payload fb frame.2.body ++ writeAll fb frames) := by
  simp [writeAll, write]

/-- **Framing.** Messages whose unknown bodies are shorter than 2^32 are read as they were written,
in order and to the end of the stream, however the bytes are cut and whatever the reader did
before; and they can be read. -/
theorem framing (fb : FlatBuffers Table) (hfb : fb.Documented)
    (frames : List (MessageHeader × Message Table))
    (hshort : ∀ frame ∈ frames, ∀ bytes, frame.2.body = .unknown bytes → bytes.length < 2 ^ 32)
    (r : MessageReader) :
    (∀ received r' rest, Receives fb r (writeAll fb frames) received r' rest →
      received.length = frames.length → List.Forall₂ (Received fb) frames received ∧ rest = []) ∧
    ∃ received r' rest, Receives fb r (writeAll fb frames) received r' rest ∧
      received.length = frames.length := by
  induction frames generalizing r with
  | nil =>
    constructor
    · intro received r' rest hrun hlen
      cases hrun with
      | nil => exact ⟨.nil, rfl⟩
      | cons => exact absurd hlen (by simp)
    · exact ⟨[], r, [], .nil, rfl⟩
  | cons frame frames ih =>
    have hfits : Fits fb frame := fits_of_short hfb (hshort frame (by simp))
    have hframes := ih fun f hf => hshort f (by simp [hf])
    rw [writeAll_cons]
    generalize hh : { frame.1 with size := UInt32.ofNat (payload fb frame.2.body).length } = h
    have hsize : h.size.toNat = (payload fb frame.2.body).length := by
      rw [← hh]
      exact UInt32.toNat_ofNat_of_lt' hfits
    have hle : h.size.toNat ≤ (payload fb frame.2.body ++ writeAll fb frames).length := by
      rw [List.length_append]
      omega
    constructor
    · intro received r' rest hrun hlen
      cases received with
      | nil => exact absurd hlen (by simp)
      | cons x received =>
        obtain ⟨hx, r₂, hnext⟩ := hrun.frame hle
        rw [hsize, List.take_left] at hx
        rw [hsize, List.drop_left] at hnext
        obtain ⟨hall, hrest⟩ := (hframes r₂).1 received r' rest hnext (by simpa using hlen)
        exact ⟨.cons (hx ▸ received_of_fits hfb hfits hh.symm) hall, hrest⟩
    · obtain ⟨x, received, r', rest, hrun, hlen⟩ := Receives.exists_frame r hle
        (P := fun received => received.length = frames.length) (by
          rw [hsize, List.drop_left]
          exact fun r₂ => (hframes r₂).2)
      exact ⟨x :: received, r', rest, hrun, by simp [hlen]⟩

/-! ## Two frames that are not read as they were written -/

/-- A FlatBuffers for which every table is a `ServerClaim`, with the layout its builder gives two
`uint` fields that are not zero. -/
def claims : FlatBuffers fun _ => UInt32 × UInt32 where
  pack _ claim :=
    [12, 0, 0, 0, 8, 0, 12, 0, 4, 0, 8, 0, 8, 0, 0, 0] ++
      (littleEndian claim.1 ++ littleEndian claim.2)
  verify _ bytes :=
    bytes.length = 24 ∧ bytes.take 16 = [12, 0, 0, 0, 8, 0, 12, 0, 4, 0, 8, 0, 8, 0, 0, 0]
  unpack _ bytes := (ofLittleEndian ((bytes.drop 16).take 4), ofLittleEndian (bytes.drop 20))

theorem claims_documented : claims.Documented where
  verify_pack a claim := by simp [claims]
  unpack_pack a claim := by
    have htake : (littleEndian claim.1 ++ littleEndian claim.2).take 4 = littleEndian claim.1 :=
      List.take_left' (by simp)
    have hdrop : (littleEndian claim.1 ++ littleEndian claim.2).drop 4 = littleEndian claim.2 :=
      List.drop_left' (by simp)
    simp [claims, htake, hdrop]
  length_pack a claim := by simp [claims]

/-- A claim, an unknown type, and a claim that does not verify. -/
def threeFrames : List (MessageHeader × Message fun _ => UInt32 × UInt32) :=
  [(⟨0, 5, 0, 8, 0, 1, 2⟩, ⟨5, 8, .table .serverClaim (1, 2)⟩),
    (⟨0, 200, 0, 0, 0, 1, 2⟩, ⟨200, 0, .unknown [1, 2, 3]⟩),
    (⟨0, 5, 0, 1, 0, 1, 2⟩, ⟨5, 1, .unknown []⟩)]

theorem framing_threeFrames :
    ∃ received r' rest,
      Receives claims .initial (writeAll claims threeFrames) received r' rest ∧
        List.Forall₂ (Received claims) threeFrames received := by
  have h := framing claims claims_documented threeFrames (by
    intro frame hframe bytes hbytes
    simp only [threeFrames, List.mem_cons, List.not_mem_nil, or_false] at hframe
    rcases hframe with rfl | rfl | rfl
    · exact absurd hbytes (by simp)
    · cases hbytes
      decide
    · cases hbytes
      decide) .initial
  obtain ⟨received, r', rest, hrun, hlen⟩ := h.2
  exact ⟨received, r', rest, hrun, (h.1 received r' rest hrun hlen).1⟩

/-- An unknown message of 2^32 bytes. -/
def wrapped : MessageHeader × Message fun _ => UInt32 × UInt32 :=
  (⟨0, 0, 0, 1, 0, 1, 2⟩, ⟨0, 1, .unknown (List.replicate (2 ^ 32) 0)⟩)

/-- The bytes of a claim as those of an unknown message, under the type of a claim. -/
def disguised : MessageHeader × Message fun _ => UInt32 × UInt32 :=
  (⟨0, 5, 0, 1, 0, 1, 2⟩, ⟨0, 1, .unknown (claims.pack .serverClaim (1, 2))⟩)

/-- One frame, and the stream behind it. -/
theorem exists_receives (frame : MessageHeader × Message fun _ => UInt32 × UInt32) :
    ∃ x r' rest, Receives claims .initial (writeAll claims [frame]) [x] r' rest ∧
      x = ({ frame.1 with size := UInt32.ofNat (payload claims frame.2.body).length }.relayed,
        decode claims
          { frame.1 with size := UInt32.ofNat (payload claims frame.2.body).length }.relayed
          ((payload claims frame.2.body).take
            (UInt32.ofNat (payload claims frame.2.body).length).toNat)) := by
  have hle : (UInt32.ofNat (payload claims frame.2.body).length).toNat ≤
      (payload claims frame.2.body).length := by
    rw [UInt32.toNat_ofNat']
    exact Nat.mod_le _ _
  generalize hheader : { frame.1 with
    size := UInt32.ofNat (payload claims frame.2.body).length } = header
  have hsize : header.size.toNat ≤
      (payload claims frame.2.body ++ writeAll claims []).length := by
    rw [← hheader]
    simpa [writeAll] using hle
  obtain ⟨x, received, r', rest, hrun, rfl⟩ :
      ∃ x received r' rest, Receives claims .initial
        (header.toBytes ++ (payload claims frame.2.body ++ writeAll claims []))
        (x :: received) r' rest ∧ received = [] :=
    Receives.exists_frame .initial hsize fun r₂ => ⟨[], r₂, _, .nil, rfl⟩
  obtain ⟨hx, -⟩ := hrun.frame hsize
  subst hheader
  rw [← writeAll_cons] at hrun
  rw [List.take_append_of_le_length hle] at hx
  exact ⟨x, r', rest, hrun, hx⟩

/-- The `size` of a long body wraps around; and a body under the type of another alternative is
read as that alternative where it verifies as such. -/
theorem not_framing :
    (¬ ∀ frames received r' rest,
      Receives claims .initial (writeAll claims frames) received r' rest →
      received.length = frames.length →
      List.Forall₂ (fun (frame : MessageHeader × Message fun _ => UInt32 × UInt32) x =>
        x.1.size.toNat = (payload claims frame.2.body).length) frames received) ∧
    ¬ ∀ frames received r' rest,
      Receives claims .initial (writeAll claims frames) received r' rest →
      received.length = frames.length →
      List.Forall₂ (fun (frame : MessageHeader × Message fun _ => UInt32 × UInt32) x =>
        ∀ m, x.2 = some m → m.body = frame.2.body) frames received := by
  constructor
  · intro h
    obtain ⟨x, r', rest, hrun, -⟩ := exists_receives wrapped
    cases h [wrapped] [x] r' rest hrun rfl with
    | cons hsize _ =>
      have hlt : x.1.size.toNat < 2 ^ 32 := x.1.size.toNat_lt
      have hlen : (payload claims wrapped.2.body).length = 2 ^ 32 := List.length_replicate
      omega
  · intro h
    obtain ⟨x, r', rest, hrun, hx⟩ := exists_receives disguised
    cases h [disguised] [x] r' rest hrun rfl with
    | cons hbody _ =>
      have hread : x.2 = some ⟨5, 0, .table .serverClaim (1, 2)⟩ := by
        rw [hx]
        rfl
      exact absurd (hbody _ hread) (by simp [disguised])

end Synergy.Framing
