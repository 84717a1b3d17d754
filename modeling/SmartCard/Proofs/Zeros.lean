/-
Zeros at the ends of octet strings. Numbers are written with zeros in
front, padded messages and PINs with zeros behind. Taken off, the zeros
leave a string that determines the padded one once its length is known, and
in front of a number they do not change its value.
-/
import SmartCard.Bytes

namespace SmartCard.Bytes

/-- A string begins with zeros and goes on where they are passed over. -/
theorem zeros_append_dropWhile (b : Bytes) :
    ∃ count, b = List.replicate count 0 ++ b.dropWhile (· == 0) := by
  refine ⟨(b.takeWhile (· == 0)).length, ?_⟩
  have hzeros : b.takeWhile (· == 0)
      = List.replicate (b.takeWhile (· == 0)).length 0 := by
    refine List.eq_replicate_iff.mpr ⟨rfl, fun x hx => ?_⟩
    have hall := List.all_eq_true.mp List.all_takeWhile x hx
    exact eq_of_beq hall
  rw [← hzeros, List.takeWhile_append_dropWhile]

/-- Taking zeros off makes no string longer. -/
theorem length_stripLeadingZeros_le (b : Bytes) :
    (stripLeadingZeros b).length ≤ b.length :=
  (List.dropWhile_sublist _).length_le

/-- Zeros in front do not count. -/
@[simp] theorem toNat_zeros_append (count : Nat) (b : Bytes) :
    toNat (List.replicate count 0 ++ b) = toNat b := by
  induction count with
  | zero => simp
  | succ count ih =>
      rw [List.replicate_succ, List.cons_append]
      exact ih

/-- So the number stays the same without them. -/
@[simp] theorem toNat_stripLeadingZeros (b : Bytes) :
    toNat (stripLeadingZeros b) = toNat b := by
  obtain ⟨count, hcount⟩ := zeros_append_dropWhile b
  rw [hcount, toNat_zeros_append, ← hcount]
  rfl

end SmartCard.Bytes
