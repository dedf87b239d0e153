import Synergy.Lib.Codec
import Mathlib.Data.List.Forall2
import Mathlib.Data.Rat.Defs

/-!
# JSON values, and decoders that are exact

A value of JSON as a parser gives it: numbers keep whether they were written as a non-negative
integer, as a negative one, or otherwise, in which case they are a floating point number.

A decoder for a type (`FromJson`) says in which values it reads what, and carries the proof that it
returns just that. So a decoder for lists or records inherits exactness from those of its parts.
-/

set_option autoImplicit false

namespace Synergy.Lib

/-- A floating point number, which is a rational one where it is finite. -/
inductive Double where
  | finite (value : ℚ)
  | infinite (negative : Bool)
  | nan
  deriving DecidableEq

inductive Json where
  | null
  | boolean (value : Bool)
  | unsigned (value : UInt64)
  | signed (value : Int64)
  | double (value : Double)
  | string (value : String)
  | array (elements : List Json)
  | object (fields : List (String × Json))

/-- The integer that a number stands for. -/
def Json.integer : Json → Option ℤ
  | .unsigned n => some n.toNat
  | .signed n => some n.toInt
  | .double (.finite q) => if q.den = 1 then some q.num else none
  | _ => none

/-- A decoder for a type. It is told the name of the field it is to decode. -/
class FromJson (ε : outParam Type) (α : Type) where
  fromJson : String → Json → Except ε α
  /-- A value is read so. -/
  Reads : Json → α → Prop
  fromJson_eq_ok {field : String} {json : Json} {a : α} :
    fromJson field json = .ok a ↔ Reads json a

/-- The field is there, is not null, and is read so. -/
def ReadsField {ε α : Type} [FromJson ε α] (fields : List (String × Json)) (name : String)
    (a : α) : Prop :=
  ∃ json, fields.lookup name = some json ∧ json ≠ .null ∧ FromJson.Reads json a

theorem Except.mapM_eq_ok {ε α β : Type} {f : α → Except ε β} {as : List α} {bs : List β} :
    as.mapM f = .ok bs ↔ List.Forall₂ (fun a b => f a = .ok b) as bs := by
  induction as generalizing bs with
  | nil => simp [pure, Except.pure, eq_comm]
  | cons a as ih =>
    rw [List.mapM_cons, List.forall₂_cons_left_iff]
    show (f a).bind (fun b => (as.mapM f).bind fun bs' => .ok (b :: bs')) = .ok bs ↔ _
    simp only [Except.bind_eq_ok, ih]
    constructor
    · rintro ⟨b, hb, bs', hbs, heq⟩
      exact ⟨b, bs', hb, hbs, (Except.ok.inj heq).symm⟩
    · rintro ⟨b, bs', hb, hbs, rfl⟩
      exact ⟨b, hb, bs', hbs, rfl⟩

theorem mapM_eq_some {α β : Type} {f : α → Option β} {as : List α} {bs : List β} :
    as.mapM f = some bs ↔ List.Forall₂ (fun a b => f a = some b) as bs := by
  induction as generalizing bs with
  | nil => simp [eq_comm]
  | cons a as ih =>
    rw [List.mapM_cons, List.forall₂_cons_left_iff]
    simp only [Option.bind_eq_bind, Option.bind_eq_some_iff, ih]
    constructor
    · rintro ⟨b, hb, bs', hbs, heq⟩
      exact ⟨b, bs', hb, hbs, (Option.some.inj heq).symm⟩
    · rintro ⟨b, bs', hb, hbs, rfl⟩
      exact ⟨b, hb, bs', hbs, rfl⟩

theorem isSome_mapM {α β : Type} {f : α → Option β} {as : List α} :
    (as.mapM f).isSome ↔ ∀ a ∈ as, (f a).isSome := by
  induction as with
  | nil => simp
  | cons a as ih =>
    rw [List.mapM_cons, List.forall_mem_cons, ← ih]
    cases f a with
    | none => simp
    | some b => cases as.mapM f <;> simp

end Synergy.Lib
