/-
Numbers in two's complement, in as few octets as they can be written in.
The first octet of such a number tells its sign, so a number that is not
negative may need one zero in front, and never needs two
(`IsInteger`). Written without the zeros in front, but for that one where
the top bit is set, a number is in this form (`integerContent_isInteger`).

# Why nothing shorter will do

Octets that stand for a number `n` of at least zero have a clear top bit, so
twice `n` is below the power of 256 that belongs to their number
(`two_mul_lt_of_signed`). What is written has so large a first octet that
twice `n` reaches that power with one octet less.
-/
import Mathlib.Data.List.Induction
import Mathlib.Tactic.Linarith
import Mathlib.Tactic.Ring
import SmartCard.OpenPgp.Signature
import SmartCard.Proofs.Crypto.Aes
import SmartCard.Proofs.Numbers
import SmartCard.Proofs.Zeros

namespace SmartCard

namespace Bytes

-- ================================================================ signed

/-- The number that octets stand for in two's complement. -/
def signed : Bytes → Int
  | [] => 0
  | first :: rest =>
    if first < 0x80 then toNat (first :: rest)
    else toNat (first :: rest) - 256 ^ (rest.length + 1)

/-- With the top bit clear, two's complement is the plain number. -/
theorem signed_clear {first : UInt8} (h : first < 0x80) (rest : Bytes) :
    signed (first :: rest) = toNat (first :: rest) := by
  show (if first < 0x80 then _ else _) = _
  rw [if_pos h]

/-- With the top bit set, it is negative. -/
theorem signed_set {first : UInt8} (h : ¬ first < 0x80) (rest : Bytes) :
    signed (first :: rest) < 0 := by
  have hbelow : (toNat (first :: rest) : Int) < 256 ^ (rest.length + 1) := by
    exact_mod_cast toNat_lt (first :: rest)
  show (if first < 0x80 then _ else _) < _
  rw [if_neg h]
  omega

/-- Octets that stand for a number of at least zero leave the top bit
free. -/
theorem two_mul_lt_of_signed {b : Bytes} {n : Nat} (hne : b ≠ [])
    (h : signed b = n) : 2 * n < 256 ^ b.length := by
  cases b with
  | nil => exact absurd rfl hne
  | cons first rest =>
      by_cases hclear : first < 0x80
      · have hfirst : first.toNat < 128 := UInt8.lt_iff_toNat_lt.mp hclear
        have hrest := toNat_lt rest
        rw [signed_clear hclear, toNat_cons] at h
        have hn : first.toNat * 256 ^ rest.length + toNat rest = n := by
          exact_mod_cast h
        rw [List.length_cons, pow_succ]
        nlinarith
      · have hnegative := signed_set hclear rest
        omega

/-- A number that reaches half a power of 256 takes more octets than
that. -/
theorem lt_length_of_signed {b : Bytes} {n k : Nat} (hne : b ≠ [])
    (h : signed b = n) (hlarge : 256 ^ k ≤ 2 * n) : k < b.length := by
  have hlt := Nat.lt_of_le_of_lt hlarge (two_mul_lt_of_signed hne h)
  exact (Nat.pow_lt_pow_iff_right (by decide)).mp hlt

/-- The mask of the top bit asks whether an octet is below 80. -/
theorem top_bit (x : UInt8) : x &&& 0x80 = 0 ↔ x < 0x80 := by
  revert x
  exact forall_octet (by decide +kernel)

/-- What is left starts with an octet that is not zero. -/
theorem stripLeadingZeros_head {b rest : Bytes} {first : UInt8}
    (h : stripLeadingZeros b = first :: rest) : first ≠ 0 := by
  unfold stripLeadingZeros at h
  have hne : b.dropWhile (· == 0) ≠ [] := by simp [h]
  have hhead := List.head_dropWhile_not (· == 0) hne
  simpa [h] using hhead

/-- Without the zeros in front, a number takes no more octets than it
must. -/
theorem length_stripLeadingZeros {b : Bytes} {k : Nat}
    (hlow : 256 ^ k ≤ toNat b) (hhigh : toNat b < 256 ^ (k + 1)) :
    (stripLeadingZeros b).length = k + 1 := by
  rw [← toNat_stripLeadingZeros b] at hlow hhigh
  cases hstrip : stripLeadingZeros b with
  | nil =>
      simp [hstrip, toNat] at hlow
  | cons first rest =>
      rw [hstrip] at hlow hhigh
      have hfirst : 1 ≤ first.toNat := Nat.pos_of_ne_zero fun h =>
        stripLeadingZeros_head hstrip (UInt8.toNat_inj.mp h)
      have hfloor := mul_le_toNat_cons hfirst rest
      rw [Nat.one_mul] at hfloor
      have hupper := (Nat.pow_lt_pow_iff_right (by decide)).mp
        (Nat.lt_of_le_of_lt hfloor hhigh)
      have hlower := (Nat.pow_lt_pow_iff_right (by decide)).mp
        (Nat.lt_of_le_of_lt hlow (toNat_lt (first :: rest)))
      simp only [List.length_cons] at hlower ⊢
      omega

end Bytes

namespace OpenPgp

open Bytes

-- ============================================================== integers

/-- The octets are the number in two's complement. A zero stands in front
only before a set top bit, and no octets for the number are fewer. -/
structure IsInteger (n : Nat) (octets : Bytes) : Prop where
  nonempty : octets ≠ []
  value : signed octets = n
  tight : ∀ rest, octets = 0x00 :: rest →
    rest = [] ∨ ∃ first more, rest = first :: more ∧ 0x80 ≤ first
  shortest : ∀ other, other ≠ [] → signed other = n →
    octets.length ≤ other.length

theorem integerContent_zero {number : Bytes}
    (h : stripLeadingZeros number = []) : integerContent number = [0x00] := by
  unfold integerContent
  rw [h]

/-- A number with a clear top bit is taken as it is left. -/
theorem integerContent_clear {number rest : Bytes} {first : UInt8}
    (h : stripLeadingZeros number = first :: rest) (hclear : first < 0x80) :
    integerContent number = first :: rest := by
  unfold integerContent
  simp [h, (top_bit first).mpr hclear]

/-- One with a set top bit gets a zero in front. -/
theorem integerContent_set {number rest : Bytes} {first : UInt8}
    (h : stripLeadingZeros number = first :: rest) (hset : ¬ first < 0x80) :
    integerContent number = 0x00 :: first :: rest := by
  unfold integerContent
  simp [h, mt (top_bit first).mp hset]

/-- The content of an integer is the number that its octets were, whatever
zeros these began with. -/
theorem integerContent_isInteger (number : Bytes) :
    IsInteger (toNat number) (integerContent number) := by
  rw [← toNat_stripLeadingZeros number]
  cases hstrip : stripLeadingZeros number with
  | nil =>
      rw [integerContent_zero hstrip]
      exact {
        nonempty := by simp
        value := rfl
        tight := fun rest h => .inl (List.cons.inj h).2.symm
        shortest := fun other hne _ => List.length_pos_iff.mpr hne }
  | cons first rest =>
      have hfirst := stripLeadingZeros_head hstrip
      have hpos : 0 < first.toNat :=
        Nat.pos_of_ne_zero fun h => hfirst (UInt8.toNat_inj.mp h)
      by_cases hclear : first < 0x80
      · rw [integerContent_clear hstrip hclear]
        exact {
          nonempty := by simp
          value := signed_clear hclear rest
          tight := fun _ h => absurd (List.cons.inj h).1 hfirst
          shortest := fun other hne hvalue => by
            have hfloor := mul_le_toNat_cons hpos rest
            refine lt_length_of_signed hne hvalue ?_
            omega }
      · have hlarge : 128 ≤ first.toNat :=
          UInt8.le_iff_toNat_le.mp (UInt8.not_lt.mp hclear)
        rw [integerContent_set hstrip hclear]
        exact {
          nonempty := by simp
          value := signed_clear (by decide) _
          tight := fun _ h => by
            obtain rfl := (List.cons.inj h).2
            exact .inr ⟨first, rest, rfl, UInt8.not_lt.mp hclear⟩
          shortest := fun other hne hvalue => by
            have hfloor := mul_le_toNat_cons hlarge rest
            refine lt_length_of_signed hne hvalue ?_
            rw [List.length_cons, pow_succ]
            omega }

end OpenPgp

end SmartCard
