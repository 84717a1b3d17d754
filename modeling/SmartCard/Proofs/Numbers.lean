/-
Big-endian numbers and the octets that they are written in. Octets of a
given number determine the value and are determined by it: they are written
again as they were read (`bigEndian_toNat`), and their value is below the
power of 256 that belongs to their number (`toNat_lt`).
-/
import Mathlib.Data.List.Induction
import Mathlib.Tactic.Linarith
import Mathlib.Tactic.Ring
import SmartCard.Bytes

namespace SmartCard.Bytes

/-- A number that was read from octets is written as these octets. -/
theorem bigEndian_toNat (b : Bytes) : bigEndian b.length (toNat b) = b := by
  induction b using List.reverseRecOn with
  | nil => rfl
  | append_singleton b x ih =>
      have hx := x.toNat_lt
      have hhigh : (256 * toNat b + x.toNat) / 256 = toNat b := by omega
      have hlow : UInt8.ofNat (256 * toNat b + x.toNat) = x := by
        refine UInt8.toNat_inj.mp ?_
        rw [UInt8.toNat_ofNat']
        omega
      rw [List.length_append, List.length_singleton, toNat_append_singleton,
        bigEndian, hhigh, hlow, ih]

/-- As many octets with the same value are the same. -/
theorem eq_of_toNat {a b : Bytes} (hlength : a.length = b.length)
    (h : toNat a = toNat b) : a = b := by
  rw [← bigEndian_toNat a, hlength, h, bigEndian_toNat]

/-- The first octet counts most. -/
theorem toNat_cons (x : UInt8) (b : Bytes) :
    toNat (x :: b) = x.toNat * 256 ^ b.length + toNat b := by
  induction b using List.reverseRecOn with
  | nil => simp [toNat]
  | append_singleton b y ih =>
      rw [← List.cons_append, toNat_append_singleton, toNat_append_singleton, ih,
        List.length_append, List.length_singleton, pow_succ]
      ring

theorem toNat_lt (b : Bytes) : toNat b < 256 ^ b.length := by
  induction b with
  | nil => simp [toNat]
  | cons x b ih =>
      have hx := x.toNat_lt
      rw [toNat_cons, List.length_cons, pow_succ]
      nlinarith

/-- A number is at least what its first octet says. -/
theorem mul_le_toNat_cons {x : UInt8} {k : Nat} (h : k ≤ x.toNat) (b : Bytes) :
    k * 256 ^ b.length ≤ toNat (x :: b) := by
  rw [toNat_cons]
  exact Nat.le_add_right_of_le (Nat.mul_le_mul_right _ h)

end SmartCard.Bytes
