import Synergy.Lib.BigEndian
import Synergy.Lib.Codec

/-!
# The core-protocol codec

`size_of`, `read_from` and `write_to` of the fields of core messages. The templates are
overloaded on the field's type; `FieldType` is that type, so that the three recursions run over it:
integers of four kinds, strings, vectors of integers, and Fusion sequences, which are read and
written field by field. A reader takes the unread part of the buffer and returns what it left
of it. `size_t` is wide enough for every sum and product that is formed here (64 bits), so it is
a natural number.

`FieldType.exact` is the one result: the three recursions describe one format, for every field type.
-/

set_option autoImplicit false

namespace Synergy.Protocol

open Lib

/-! ## Integers -/

/-- The integer types of the protocol. -/
inductive IntType where
  | u8
  | s16
  | u16
  | u32
  deriving DecidableEq, Repr

namespace IntType

/-- `sizeof`. -/
def size : IntType → Nat
  | .u8 => 1
  | .s16 => 2
  | .u16 => 2
  | .u32 => 4

@[reducible] def Val : IntType → Type
  | .u8 => UInt8
  | .s16 => Int16
  | .u16 => UInt16
  | .u32 => UInt32

/-- The object representation of a value, as a number: two's complement for the signed type. -/
def bits : (t : IntType) → t.Val → Nat
  | .u8, v => UInt8.toNat v
  | .s16, v => (Int16.toUInt16 v).toNat
  | .u16, v => UInt16.toNat v
  | .u32, v => UInt32.toNat v

def ofBits : (t : IntType) → Nat → t.Val
  | .u8, n => UInt8.ofNat n
  | .s16, n => (UInt16.ofNat n).toInt16
  | .u16, n => UInt16.ofNat n
  | .u32, n => UInt32.ofNat n

theorem bits_lt (t : IntType) (v : t.Val) : t.bits v < 256 ^ t.size := by
  cases t with
  | u8 => exact UInt8.toNat_lt v
  | s16 => exact UInt16.toNat_lt _
  | u16 => exact UInt16.toNat_lt v
  | u32 => exact UInt32.toNat_lt v

@[simp] theorem ofBits_bits (t : IntType) (v : t.Val) : t.ofBits (t.bits v) = v := by
  cases t <;> simp [ofBits, bits]

theorem bits_ofBits (t : IntType) (n : Nat) : t.bits (t.ofBits n) = n % 256 ^ t.size := by
  cases t <;> simp [ofBits, bits, size]

end IntType

/-- `read_from` for integers. -/
def readInt (t : IntType) (buf : List UInt8) : Except String (t.Val × List UInt8) :=
  if buf.length < t.size then
    .error "Integer field extends beyond message buffer bounds"
  else
    .ok (t.ofBits (BigEndian.ofBytes (buf.take t.size)), buf.drop t.size)

/-- `write_to` for integers. -/
def writeInt (t : IntType) (v : t.Val) : List UInt8 := BigEndian.toBytes t.size (t.bits v)

@[simp] theorem length_writeInt (t : IntType) (v : t.Val) : (writeInt t v).length = t.size := by
  simp [writeInt]

theorem exact_int (t : IntType) :
    Exact (fun _ => t.size) (fun v => .ok (writeInt t v)) (readInt t) (fun _ => True) where
  accepts v _ := ⟨_, rfl⟩
  sized v out h := by
    cases h
    exact length_writeInt t v
  reads v out rest h := by
    cases h
    have hbits : BigEndian.ofBytes (writeInt t v) = t.bits v := by
      rw [writeInt, BigEndian.ofBytes_toBytes, Nat.mod_eq_of_lt (t.bits_lt v)]
    have hlen := length_writeInt t v
    have hfits : ¬ (writeInt t v ++ rest).length < t.size := by
      rw [List.length_append]
      omega
    rw [readInt, if_neg hfits, List.take_left' hlen, List.drop_left' hlen, hbits,
      IntType.ofBits_bits]
  rewrites v buf rest h := by
    unfold readInt at h
    split at h
    · exact absurd h (by simp)
    · rename_i hlen
      cases h
      refine ⟨_, rfl, ?_⟩
      have hsize : (buf.take t.size).length = t.size := by
        rw [List.length_take]
        omega
      have hlt := BigEndian.ofBytes_lt (buf.take t.size)
      have hback := BigEndian.toBytes_ofBytes (buf.take t.size)
      rw [hsize] at hlt hback
      rw [writeInt, IntType.bits_ofBits, Nat.mod_eq_of_lt hlt, hback, List.take_append_drop]

/-! ## The length in front of strings and vectors -/

/-- `boost::numeric_cast<std::uint32_t>`. -/
def numericCast (n : Nat) : Except String UInt32 :=
  if n < 2 ^ 32 then .ok (UInt32.ofNat n)
  else .error "bad numeric conversion: positive overflow"

def writeSize (n : Nat) : Except String (List UInt8) := do
  let size ← numericCast n
  return writeInt .u32 size

def readSize (buf : List UInt8) : Except String (Nat × List UInt8) := do
  let (size, buf) ← readInt .u32 buf
  return (IntType.u32.bits size, buf)

theorem writeSize_of_lt {n : Nat} (h : n < 2 ^ 32) :
    writeSize n = .ok (writeInt .u32 (UInt32.ofNat n)) := by
  simp only [writeSize, numericCast, if_pos h]
  rfl

theorem writeSize_eq_ok {n : Nat} {out : List UInt8} (h : writeSize n = .ok out) :
    n < 2 ^ 32 ∧ out = writeInt .u32 (UInt32.ofNat n) := by
  by_cases hn : n < 2 ^ 32
  · rw [writeSize_of_lt hn] at h
    cases h
    exact ⟨hn, rfl⟩
  · simp only [writeSize, numericCast, if_neg hn] at h
    exact absurd h (by simp [bind, Except.bind])

theorem readSize_eq_ok {n : Nat} {buf rest : List UInt8} :
    readSize buf = .ok (n, rest) ↔
      ∃ v, readInt .u32 buf = .ok (v, rest) ∧ n = IntType.u32.bits v := by
  unfold readSize
  cases readInt .u32 buf with
  | error e => simp [bind, Except.bind]
  | ok r => simp [bind, Except.bind, pure, Except.pure, Prod.ext_iff, and_comm, eq_comm]

theorem exact_size : Exact (fun _ => 4) writeSize readSize (· < 2 ^ 32) where
  accepts n hn := ⟨_, writeSize_of_lt hn⟩
  sized n out h := by
    obtain ⟨-, rfl⟩ := writeSize_eq_ok h
    exact length_writeInt _ _
  reads n out rest h := by
    obtain ⟨hn, rfl⟩ := writeSize_eq_ok h
    apply readSize_eq_ok.mpr
    refine ⟨_, (exact_int .u32).reads _ _ rest rfl, ?_⟩
    have hback : IntType.u32.bits (IntType.u32.ofBits n) = n := by
      rw [IntType.bits_ofBits]
      exact Nat.mod_eq_of_lt hn
    exact hback.symm
  rewrites n buf rest h := by
    obtain ⟨v, hread, rfl⟩ := readSize_eq_ok.mp h
    obtain ⟨out, hout, rfl⟩ := (exact_int .u32).rewrites _ _ _ hread
    cases hout
    refine ⟨_, ?_, rfl⟩
    rw [writeSize_of_lt (IntType.u32.bits_lt v)]
    have hback : UInt32.ofNat (IntType.u32.bits v) = v := IntType.ofBits_bits .u32 v
    rw [hback]

/-! ## Fields -/

/-- The types of message fields. A Fusion sequence is a chain of `cons`. -/
inductive FieldType where
  | integer (t : IntType)
  | string
  | vector (t : IntType)
  | nil
  | cons (head tail : FieldType)
  deriving DecidableEq, Repr

namespace FieldType

/-- A `std::string` is the list of its bytes. -/
@[reducible] def Val : FieldType → Type
  | .integer t => t.Val
  | .string => List UInt8
  | .vector t => List t.Val
  | .nil => Unit
  | .cons head tail => head.Val × tail.Val

/-- A struct with these members. -/
@[reducible] def struct : List FieldType → FieldType
  | [] => .nil
  | f :: fs => .cons f (struct fs)

/-- `size_of`. -/
def sizeOf : (f : FieldType) → f.Val → Nat
  | .integer t, _ => t.size
  | .string, str => 4 + List.length str
  | .vector t, vec => 4 + List.length vec * t.size
  | .nil, _ => 0
  | .cons head tail, seq => head.sizeOf seq.1 + tail.sizeOf seq.2

/-- `write_to`: the bytes it appends. -/
def writeTo : (f : FieldType) → f.Val → Except String (List UInt8)
  | .integer t, v => .ok (writeInt t v)
  | .string, str => do
    let size ← writeSize (List.length str)
    return size ++ str
  | .vector t, vec => do
    let size ← writeSize (List.length vec)
    let elements ← writeEach (fun v => .ok (writeInt t v)) vec
    return size ++ elements
  | .nil, _ => .ok []
  | .cons head tail, seq => writeBoth head.writeTo tail.writeTo seq

/-- The elements of a vector, once its length is read. -/
def readElements (t : IntType) (size : Nat) (buf : List UInt8) :
    Except String (List t.Val × List UInt8) :=
  if buf.length < size * t.size then
    .error "Array extends beyond message buffer bounds"
  else
    readEach (readInt t) size buf

/-- `read_from`. -/
def readFrom : (f : FieldType) → List UInt8 → Except String (f.Val × List UInt8)
  | .integer t, buf => readInt t buf
  | .string, buf => do
    let (size, buf) ← readSize buf
    takeExactly "String extends beyond message buffer bounds" size buf
  | .vector t, buf => do
    let (size, buf) ← readSize buf
    readElements t size buf
  | .nil, buf => .ok ((), buf)
  | .cons head tail, buf => readBoth head.readFrom tail.readFrom buf

/-- Every string and vector is shorter than 2^32. -/
def Short : (f : FieldType) → f.Val → Prop
  | .integer _, _ => True
  | .string, str => List.length str < 2 ^ 32
  | .vector _, vec => List.length vec < 2 ^ 32
  | .nil, _ => True
  | .cons head tail, seq => head.Short seq.1 ∧ tail.Short seq.2

theorem counted_elements (t : IntType) :
    Counted List.length (fun vec => List.length vec * t.size)
      (writeEach fun v => .ok (writeInt t v)) (readElements t) (fun _ => True) := by
  have heach := (exact_int t).each
  have hsum : ∀ vec : List t.Val, (vec.map fun _ => t.size).sum = vec.length * t.size := by
    intro vec
    simp
  have hguarded := heach.guarded (· * t.size) "Array extends beyond message buffer bounds"
    fun vec => (hsum vec).ge
  simp only [hsum, implies_true] at hguarded
  exact hguarded

/-- **The codec's three recursions describe one format**, whatever the fields. -/
theorem exact (f : FieldType) : Exact f.sizeOf f.writeTo f.readFrom f.Short := by
  induction f with
  | integer t => exact exact_int t
  | string =>
    have h := (Counted.symbols "String extends beyond message buffer bounds").prefixed exact_size
    simp only [and_true] at h
    exact h
  | vector t =>
    have h := (counted_elements t).prefixed exact_size
    simp only [and_true] at h
    exact h
  | nil => exact Exact.nil
  | cons head tail ihHead ihTail => exact ihHead.both ihTail

end FieldType

end Synergy.Protocol
