import Mathlib.Data.Nat.ModEq
import Mathlib.Tactic.Ring

/-!
# Big-endian naturals

The bytes of a number, most significant first, and the number that bytes spell. `toBytes` has a
fixed width and drops what does not fit, as copying an integer of that width does; the two round
trips then are `ofBytes_toBytes`, up to the width, and `toBytes_ofBytes`, exactly.
-/

set_option autoImplicit false

namespace Synergy.Lib.BigEndian

/-- The `w` lowest bytes of a number, most significant first. -/
def toBytes : Nat → Nat → List UInt8
  | 0, _ => []
  | w + 1, n => UInt8.ofNat (n / 256 ^ w) :: toBytes w n

/-- The number that bytes spell, most significant first. -/
def ofBytes (bytes : List UInt8) : Nat := bytes.foldl (fun n b => 256 * n + b.toNat) 0

@[simp] theorem length_toBytes (w n : Nat) : (toBytes w n).length = w := by
  induction w with
  | zero => rfl
  | succ w ih => simp [toBytes, ih]

@[simp] theorem ofBytes_nil : ofBytes [] = 0 := rfl

theorem foldl_ofBytes (bytes : List UInt8) (n : Nat) :
    bytes.foldl (fun n b => 256 * n + b.toNat) n = 256 ^ bytes.length * n + ofBytes bytes := by
  induction bytes generalizing n with
  | nil => simp
  | cons b bytes ih =>
    have hcons : ofBytes (b :: bytes) = 256 ^ bytes.length * (256 * 0 + b.toNat) + ofBytes bytes :=
      ih (256 * 0 + b.toNat)
    rw [List.foldl_cons, ih, hcons, List.length_cons, pow_succ]
    ring

theorem ofBytes_cons (b : UInt8) (bytes : List UInt8) :
    ofBytes (b :: bytes) = 256 ^ bytes.length * b.toNat + ofBytes bytes := by
  have h := foldl_ofBytes bytes (256 * 0 + b.toNat)
  simpa [ofBytes] using h

theorem ofBytes_lt (bytes : List UInt8) : ofBytes bytes < 256 ^ bytes.length := by
  induction bytes with
  | nil => simp
  | cons b bytes ih =>
    have hb : b.toNat + 1 ≤ 256 := b.toNat_lt
    calc ofBytes (b :: bytes)
        = 256 ^ bytes.length * b.toNat + ofBytes bytes := ofBytes_cons b bytes
      _ < 256 ^ bytes.length * (b.toNat + 1) := by rw [Nat.mul_succ]; omega
      _ ≤ 256 ^ bytes.length * 256 := Nat.mul_le_mul_left _ hb
      _ = 256 ^ (b :: bytes).length := by rw [List.length_cons, pow_succ]

theorem ofBytes_toBytes (w n : Nat) : ofBytes (toBytes w n) = n % 256 ^ w := by
  induction w with
  | zero => simp [toBytes, Nat.mod_one]
  | succ w ih =>
    have hhead : (UInt8.ofNat (n / 256 ^ w)).toNat = n / 256 ^ w % 256 := UInt8.toNat_ofNat'
    rw [toBytes, ofBytes_cons, ih, length_toBytes, hhead, Nat.mod_pow_succ, Nat.add_comm]

/-- Only the part of a number that fits the width is written. -/
theorem toBytes_congr {w n m : Nat} (h : n % 256 ^ w = m % 256 ^ w) :
    toBytes w n = toBytes w m := by
  induction w with
  | zero => rfl
  | succ w ih =>
    have hlow : n % 256 ^ w = m % 256 ^ w := by
      have hdvd : 256 ^ w ∣ 256 ^ (w + 1) := pow_dvd_pow 256 (Nat.le_succ w)
      rw [← Nat.mod_mod_of_dvd n hdvd, h, Nat.mod_mod_of_dvd m hdvd]
    have hhigh : n / 256 ^ w % 256 = m / 256 ^ w % 256 := by
      rw [pow_succ] at h
      rw [← Nat.mod_mul_right_div_self, h, Nat.mod_mul_right_div_self]
    have hhead : UInt8.ofNat (n / 256 ^ w) = UInt8.ofNat (m / 256 ^ w) := by
      apply UInt8.toNat_inj.mp
      simpa using hhigh
    rw [toBytes, toBytes, hhead, ih hlow]

theorem toBytes_ofBytes (bytes : List UInt8) : toBytes bytes.length (ofBytes bytes) = bytes := by
  induction bytes with
  | nil => rfl
  | cons b bytes ih =>
    have hlt : ofBytes bytes < 256 ^ bytes.length := ofBytes_lt bytes
    have hpos : 0 < 256 ^ bytes.length := Nat.pow_pos (by omega)
    have hhead : UInt8.ofNat (ofBytes (b :: bytes) / 256 ^ bytes.length) = b := by
      rw [ofBytes_cons, Nat.mul_add_div hpos, Nat.div_eq_of_lt hlt]
      simp
    have htail : toBytes bytes.length (ofBytes (b :: bytes)) = bytes := by
      rw [← ih, length_toBytes]
      apply toBytes_congr
      rw [ih, ofBytes_cons, Nat.mul_add_mod]
    rw [List.length_cons, toBytes, hhead, htail]

end Synergy.Lib.BigEndian
