import Mathlib

/-!
# What one will believe after reading the rest

A receiver holds something or not; messages on the way to it say that it should, that it
should not, or nothing of the matter, and the last one to say anything wins. `Heard` is what
will hold when a list of messages has been read, if `P` holds now. A sender and a receiver
agree when what the sender has is `Heard` of what the receiver has, over the messages in
between; either of the two directions is preserved by sending and by reading, since `Heard`
is monotone and splits over append.
-/

set_option autoImplicit false

namespace Synergy.Lib

variable {μ : Type} (word : μ → Option Bool)

/-- What holds after one message, if `P` held before. -/
def HeardOne (m : μ) (P : Prop) : Prop := (word m).elim P (· = true)

/-- What holds after a list of messages, if `P` held before. -/
def Heard : List μ → Prop → Prop
  | [], P => P
  | m :: l, P => Heard l (HeardOne word m P)

variable {word}

@[simp] theorem heard_nil (P : Prop) : Heard word [] P ↔ P := Iff.rfl

@[simp] theorem heard_cons (m : μ) (l : List μ) (P : Prop) :
    Heard word (m :: l) P ↔ Heard word l (HeardOne word m P) := Iff.rfl

theorem heardOne_none {m : μ} (h : word m = none) (P : Prop) : HeardOne word m P ↔ P := by
  unfold HeardOne
  rw [h]
  rfl

theorem HeardOne.mono {m : μ} {P Q : Prop} (hPQ : P → Q) (h : HeardOne word m P) :
    HeardOne word m Q := by
  cases hm : word m with
  | none => exact (heardOne_none hm Q).mpr (hPQ ((heardOne_none hm P).mp h))
  | some b =>
    unfold HeardOne at *
    rw [hm] at h ⊢
    exact h

theorem Heard.mono {l : List μ} {P Q : Prop} (hPQ : P → Q) (h : Heard word l P) :
    Heard word l Q := by
  induction l generalizing P Q with
  | nil => exact hPQ h
  | cons m l ih => exact ih (HeardOne.mono hPQ) h

theorem heard_append (l l' : List μ) (P : Prop) :
    Heard word (l ++ l') P ↔ Heard word l' (Heard word l P) := by
  induction l generalizing P with
  | nil => rfl
  | cons m l ih => exact ih (HeardOne word m P)

end Synergy.Lib
