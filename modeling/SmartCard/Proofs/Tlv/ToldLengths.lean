/-
The lengths that fields tell. A length is written in two octets at most, and
what any reader makes of it is the length modulo 65536
(`lengthField_definite`). So a length up to 65535 is told as it is, and of a
longer value a reader takes the front and leaves the rest behind the field
(`readField_told`).

# Fields inside fields

Where fields are nested, the one inside is to fill the one around it to the
last octet (`opened`). A field whose value is too long is not opened at all
(`opened_field`), whatever is inside.
-/
import SmartCard.Proofs.Numbers
import SmartCard.Proofs.Tlv.Written

namespace SmartCard.Tlv

-- =============================================================== lengths

theorem length_lengthField_le (n : Nat) : (lengthField n).length ≤ 3 := by
  have hform := lengthField_form n
  generalize lengthField n = octets at hform ⊢
  cases hform <;> simp

theorem length_lengthField_long {n : Nat} (h : 0xFF < n) :
    (lengthField n).length = 3 := by
  have hform := lengthField_form n
  generalize lengthField n = octets at hform ⊢
  cases hform with
  | @short x hn _ =>
      have hx := x.toNat_lt
      omega
  | @one x hn _ =>
      have hx := x.toNat_lt
      omega
  | two _ _ => rfl

/-- What is read as a length is one for any reader, unless no octets are
announced. -/
theorem LengthOctets.definite {n : Nat} {octets : Bytes}
    (h : LengthOctets n octets) (hsome : octets ≠ [0x80]) :
    DefiniteLength n octets := by
  cases h with
  | short hsmall => exact .short hsmall
  | @long first field hcount hwidth =>
      refine .long hcount ?_ ?_
      · rintro rfl
        have hfirst : first = 0x80 := UInt8.toNat_inj.mp hcount
        exact hsome (by rw [hfirst])
      · rintro rfl
        have hlast : (0xFF : UInt8).toNat = 255 := rfl
        omega

/-- What a written length tells is the length modulo 65536. -/
theorem lengthField_definite (n : Nat) :
    DefiniteLength (n % 65536) (lengthField n) := by
  have hform := lengthField_form n
  have hread := lengthField_read n
  generalize lengthField n = octets at hform hread ⊢
  refine hread.definite ?_
  rintro rfl
  cases hform with
  | short _ hsmall => exact absurd hsmall (by decide)

/-- No reader finds another length in it. -/
theorem definiteLength_lengthField_iff (n m : Nat) :
    DefiniteLength m (lengthField n) ↔ m = n % 65536 :=
  ⟨fun h => h.unique (lengthField_definite n),
    fun h => h ▸ lengthField_definite n⟩

/-- A length is told as it is if two octets hold it. -/
theorem told_iff (n : Nat) :
    DefiniteLength n (lengthField n) ↔ n ≤ 0xFFFF := by
  rw [definiteLength_lengthField_iff]
  omega

/-- Lengths are written alike only if both need two octets and have the low
ones in common. -/
theorem lengthField_eq_iff (n m : Nat) :
    lengthField n = lengthField m
      ↔ n = m ∨ (0xFF < n ∧ 0xFF < m ∧ n % 65536 = m % 65536) := by
  have hn := lengthField_form n
  have hm := lengthField_form m
  constructor
  · intro h
    rw [h] at hn
    generalize lengthField m = octets at hn hm
    cases hn with
    | short hn _ =>
        cases hm with
        | short hm _ => exact .inl (hn.symm.trans hm)
    | one hn _ =>
        cases hm with
        | one hm _ => exact .inl (hn.symm.trans hm)
    | two hn hlarge =>
        cases hm with
        | two hm hlarge' =>
            exact .inr ⟨hlarge, hlarge', hn.symm.trans hm⟩
  · rintro (rfl | ⟨hlarge, hlarge', hlow⟩)
    · rfl
    · have hoctets : Bytes.bigEndian 2 n = Bytes.bigEndian 2 m := by
        refine Bytes.eq_of_toNat (by simp) ?_
        rw [Bytes.toNat_bigEndian, Bytes.toNat_bigEndian]
        exact hlow
      unfold lengthField
      rw [if_neg (by omega), if_neg (by omega), if_neg (by omega),
        if_neg (by omega), hoctets]

-- ================================================================ fields

theorem length_field (tag : UInt16) (value : Bytes) :
    (field tag value).length
      = (tagField tag).length + (lengthField value.length).length
        + value.length := by
  unfold field
  rw [List.length_append, List.length_append]

/-- A field is a tag, the length of its value and the value, if the value is
not too long. -/
theorem encloses_field_iff (tag : UInt16) (value : Bytes) :
    Encloses (tagField tag) value (field tag value)
      ↔ value.length ≤ 0xFFFF := by
  rw [← told_iff]
  refine ⟨?_, fun h => ⟨_, h, rfl⟩⟩
  rintro ⟨length, hlength, hoctets⟩
  have hsame := List.append_cancel_left (List.append_cancel_right hoctets)
  exact hsame ▸ hlength

/-- A head that is split off has the same length. -/
theorem splitHead_lengthField (x : UInt8) (n : Nat) (rest : Bytes) :
    splitHead (x :: (lengthField n ++ rest)) = some (n % 65536, rest) := by
  have hform := lengthField_form n
  generalize lengthField n = octets at hform ⊢
  cases hform with
  | @short octet hn hsmall =>
      have hoctet := octet.toNat_lt
      have hmod : n % 65536 = octet.toNat := by omega
      rw [hmod, List.singleton_append]
      unfold splitHead
      -- An octet below 80 is none of the two that stand for more octets.
      split <;> grind
  | @one octet hn _ =>
      have hoctet := octet.toNat_lt
      have hmod : n % 65536 = octet.toNat := by omega
      rw [hmod]
      rfl
  | two hvalue _ =>
      rw [← hvalue]
      rfl

/-- The head of a field is taken off with the length that it tells. -/
theorem splitHead_field {tag : UInt16} (htag : tag ≤ 0xFF)
    (value rest : Bytes) :
    splitHead (field tag value ++ rest)
      = some (value.length % 65536, value ++ rest) := by
  have hone : tagField tag = [tag.toUInt8] :=
    if_neg (UInt16.not_lt.mpr htag)
  unfold field
  rw [hone, List.append_assoc, List.append_assoc, List.singleton_append,
    splitHead_lengthField]

/-- What a reader takes of a field: as much of the value as the length
tells. -/
theorem readField_told {tag : UInt16} (htag : TagOctets (tagField tag))
    (value rest : Bytes) :
    readField (field tag value ++ rest)
      = some (tagField tag, value.take (value.length % 65536),
          value.drop (value.length % 65536) ++ rest) := by
  have hfits : value.length % 65536 ≤ value.length := Nat.mod_le _ _
  unfold readField field
  rw [List.append_assoc, List.append_assoc, readTag_octets htag]
  simp only []
  rw [readLength_octets (lengthField_read value.length)]
  simp only []
  rw [if_pos (by rw [List.length_append]; omega),
    List.take_append_of_le_length hfits, List.drop_append_of_le_length hfits]

-- ========================================================= nested fields

/-- What is inside fields with these tags, one around the other. Every field
ends where the one around it ends. -/
def opened : List UInt16 → Bytes → Option Bytes
  | [], octets => some octets
  | tag :: tags, octets =>
    match readField octets with
    | some (found, value, []) =>
      if found = tagField tag then opened tags value else none
    | _ => none

/-- A field is opened exactly where two octets can tell its length, and then
what is in its value is opened further. -/
theorem opened_field {tag : UInt16} (htag : TagOctets (tagField tag))
    (tags : List UInt16) (value : Bytes) :
    opened (tag :: tags) (field tag value)
      = if value.length ≤ 0xFFFF then opened tags value else none := by
  have hread := readField_told htag value []
  rw [List.append_nil, List.append_nil] at hread
  rw [opened, hread]
  by_cases hlength : value.length ≤ 0xFFFF
  · have hmod : value.length % 65536 = value.length :=
      Nat.mod_eq_of_lt (Nat.lt_succ_of_le hlength)
    rw [if_pos hlength, hmod, List.drop_length, List.take_length]
    simp
  · have hleft : value.drop (value.length % 65536) ≠ [] := by
      rw [Ne, List.drop_eq_nil_iff]
      omega
    rw [if_neg hlength]
    split
    next hnone =>
      simp only [Option.some.injEq, Prod.mk.injEq] at hnone
      exact absurd hnone.2.2 hleft
    next => rfl

end SmartCard.Tlv
