/-
Tags and lengths, and fields that were written without a tree. The octets
of a tag and of a length are described first without a reader, and both
readers measured against that: they take what is described, in front of any
octets, and nothing else. A field is a tag, the length of its value and the
value; a reader that does not look inside takes it apart again
(`readField_field`). Some values are not fields themselves but bare heads,
each a tag and a length, whose values stand elsewhere in a row: the heads
can be told apart in one way only (`Heads.unique`), and the values are found
by cutting the row at the lengths (`cut_values`).

# How long a value may be

A written length has two octets at most, so what is said of fields holds of
values of up to 65535 octets. Of a longer one the field tells the wrong
length.
-/
import SmartCard.Tlv.Field
import SmartCard.Tlv.Read

namespace SmartCard.Tlv

-- ================================================================== tags

/-- The octets of a tag: one, or up to three if the low five bits of the
first are all set. -/
inductive TagOctets : Bytes → Prop
  | one {x : UInt8} : x &&& 0x1F ≠ 0x1F → x ≠ 0 → TagOctets [x]
  | two {x y : UInt8} : x &&& 0x1F = 0x1F → y < 0x80 → TagOctets [x, y]
  | three {x y z : UInt8} : x &&& 0x1F = 0x1F → ¬ y < 0x80 → z < 0x80 →
      TagOctets [x, y, z]

/-- A whole tag is read in front of whatever follows. -/
theorem readTag_octets {tag : Bytes} (h : TagOctets tag) (rest : Bytes) :
    readTag (tag ++ rest) = (.ok tag, rest) := by
  cases h with
  | one hshort hzero => simp [readTag, hshort, hzero]
  | two hlong hlast => simp [readTag, readTagTail, hlong, hlast]
  | three hlong hmore hlast => simp [readTag, readTagTail, hlong, hmore, hlast]

/-- The octets of a tag after its first end with the first one below 80. -/
theorem readTagTail_ok {input tail rest : Bytes}
    (h : readTagTail input = (.ok tail, rest)) :
    input = tail ++ rest ∧ ∃ init last, tail = init ++ [last]
      ∧ (∀ x ∈ init, ¬ x < 0x80) ∧ last < 0x80 := by
  induction input generalizing tail with
  | nil => simp [readTagTail] at h
  | cons x more ih =>
      unfold readTagTail at h
      by_cases hlast : x < 0x80
      · rw [if_pos hlast] at h
        simp only [Prod.mk.injEq, Except.ok.injEq] at h
        obtain ⟨rfl, rfl⟩ := h
        exact ⟨rfl, [], x, rfl, by simp, hlast⟩
      · rw [if_neg hlast] at h
        rcases hmore : readTagTail more with ⟨_ | tail', rest'⟩
        · simp [hmore] at h
        · simp only [hmore, Prod.mk.injEq, Except.ok.injEq] at h
          obtain ⟨rfl, rfl⟩ := h
          obtain ⟨hinput, init, last, htail, hinit, hbelow⟩ := ih hmore
          refine ⟨by rw [hinput]; rfl, x :: init, last, by rw [htail]; rfl, ?_, hbelow⟩
          simpa using ⟨UInt8.not_lt.mp hlast, by simpa using hinit⟩

/-- What is read as a tag is a whole tag, and the rest is what follows
it. -/
theorem readTag_ok {input tag rest : Bytes}
    (h : readTag input = (.ok tag, rest)) :
    input = tag ++ rest ∧ TagOctets tag := by
  cases input with
  | nil => simp [readTag] at h
  | cons first more =>
      simp only [readTag] at h
      by_cases hlong : first &&& 0x1F = 0x1F
      · rw [if_pos hlong] at h
        rcases hmore : readTagTail more with ⟨_ | tail, rest'⟩
        · simp [hmore] at h
        · simp only [hmore] at h
          split at h
          next hlength =>
            simp only [Prod.mk.injEq, Except.ok.injEq] at h
            obtain ⟨rfl, rfl⟩ := h
            obtain ⟨hinput, init, last, rfl, hinit, hlast⟩ := readTagTail_ok hmore
            refine ⟨by rw [hinput]; rfl, ?_⟩
            rcases init with _ | ⟨y, _ | ⟨z, init⟩⟩
            · exact .two hlong hlast
            · exact .three hlong (hinit y (by simp)) hlast
            · simp at hlength
          next => simp at h
      · rw [if_neg hlong] at h
        by_cases hzero : first = 0
        · simp [hzero] at h
        · rw [if_neg hzero] at h
          simp only [Prod.mk.injEq, Except.ok.injEq] at h
          obtain ⟨rfl, rfl⟩ := h
          exact ⟨rfl, .one hlong hzero⟩

-- =============================================================== lengths

/-- The octets of a length: one below 80, or 80 and the number of octets
that follow, at most four. A number has many spellings. -/
inductive LengthOctets : Nat → Bytes → Prop
  | short {x : UInt8} : x < 0x80 → LengthOctets x.toNat [x]
  | long {first : UInt8} {field : Bytes} :
      first.toNat = 0x80 + field.length → field.length ≤ 4 →
      LengthOctets (Bytes.toNat field) (first :: field)

/-- Length octets are read as the length they tell. -/
theorem readLength_octets {n : Nat} {octets : Bytes}
    (h : LengthOctets n octets) (rest : Bytes) :
    readLength (octets ++ rest) = (.ok n, rest) := by
  cases h with
  | short hsmall => simp [readLength, hsmall]
  | @long first field hcount hwidth =>
      have hlarge : ¬ first < 0x80 := by
        rw [UInt8.lt_iff_toNat_lt]
        have : (0x80 : UInt8).toNat = 128 := rfl
        omega
      have hfield : first.toNat - 0x80 = field.length := by omega
      simp [readLength, hlarge, hfield, Nat.not_lt.mpr hwidth]

/-- What is read as a length is told by the octets in front of the rest. -/
theorem readLength_ok {n : Nat} {input rest : Bytes}
    (h : readLength input = (.ok n, rest)) :
    ∃ octets, input = octets ++ rest ∧ LengthOctets n octets := by
  cases input with
  | nil => simp [readLength] at h
  | cons first more =>
      simp only [readLength] at h
      by_cases hsmall : first < 0x80
      · rw [if_pos hsmall] at h
        simp only [Prod.mk.injEq, Except.ok.injEq] at h
        obtain ⟨rfl, rfl⟩ := h
        exact ⟨[first], rfl, .short hsmall⟩
      · rw [if_neg hsmall] at h
        split at h
        next => simp at h
        next hwidth =>
          split at h
          next hfield =>
            simp only [Prod.mk.injEq, Except.ok.injEq] at h
            obtain ⟨rfl, rfl⟩ := h
            refine ⟨first :: more.take (first.toNat - 0x80), ?_, .long ?_ ?_⟩
            · rw [List.cons_append, List.take_append_drop]
            · have hlarge : 0x80 ≤ first.toNat :=
                UInt8.le_iff_toNat_le.mp (UInt8.not_lt.mp hsmall)
              rw [hfield]
              omega
            · rw [hfield]
              omega
          next => simp at h

theorem short_octet {n : Nat} (h : n < 0x80) :
    (UInt8.ofNat n).toNat = n ∧ UInt8.ofNat n < 0x80 := by
  have hn : (UInt8.ofNat n).toNat = n := by
    simp
    omega
  rw [UInt8.lt_iff_toNat_lt, hn]
  exact ⟨rfl, h⟩

/-- The forms in which a length is written: the octet of the length, alone
or behind 81, or its low two octets behind 82. -/
inductive WrittenForm (n : Nat) : Bytes → Prop
  | short {x : UInt8} : x.toNat = n → x < 0x80 → WrittenForm n [x]
  | one {x : UInt8} : x.toNat = n → 0x7F < n → WrittenForm n [0x81, x]
  | two {high low : UInt8} :
      Bytes.toNat [high, low] = n % 65536 → 0xFF < n →
      WrittenForm n [0x82, high, low]

/-- Lengths are written in the form for their size. -/
theorem lengthField_form (n : Nat) : WrittenForm n (lengthField n) := by
  unfold lengthField
  by_cases hshort : n ≤ 0x7F
  · obtain ⟨hn, hsmall⟩ := short_octet (Nat.lt_succ_of_le hshort)
    rw [if_pos hshort]
    exact .short hn hsmall
  · by_cases hone : n ≤ 0xFF
    · have hn : (UInt8.ofNat n).toNat = n := by
        simp
        omega
      rw [if_neg hshort, if_pos hone]
      exact .one hn (by omega)
    · rw [if_neg hshort, if_neg hone]
      exact .two (Bytes.toNat_bigEndian 2 n) (by omega)

/-- What is read from a written length is the length modulo 65536. -/
theorem lengthField_read (n : Nat) :
    LengthOctets (n % 65536) (lengthField n) := by
  have hform := lengthField_form n
  generalize lengthField n = octets at hform ⊢
  cases hform with
  | @short x hn hsmall =>
      have hx := x.toNat_lt
      rw [← hn, Nat.mod_eq_of_lt (by omega)]
      exact .short hsmall
  | @one x hn _ =>
      have hx := x.toNat_lt
      have hvalue : Bytes.toNat [x] = n % 65536 := by
        simp [Bytes.toNat]
        omega
      rw [← hvalue]
      exact .long rfl (by simp)
  | two hvalue _ =>
      rw [← hvalue]
      exact .long rfl (by simp)

/-- A length that fits its field is spelled by it. -/
theorem lengthField_octets {n : Nat} (h : n ≤ 0xFFFF) :
    LengthOctets n (lengthField n) := by
  have hread := lengthField_read n
  rwa [Nat.mod_eq_of_lt (Nat.lt_succ_of_le h)] at hread

/-- A tag and a length take two octets at least. -/
theorem length_behind_head {tag length : Bytes} {n : Nat}
    (htag : TagOctets tag) (hlength : LengthOctets n length) (rest : Bytes) :
    rest.length + 2 ≤ (tag ++ length ++ rest).length := by
  have htag : 0 < tag.length := by cases htag <;> simp
  have hlength : 0 < length.length := by cases hlength <;> simp
  simp only [List.length_append]
  omega

/-- A tag and a length in front of octets can be told from what follows in
one way only. -/
theorem head_unique {tag tag' length length' rest rest' : Bytes} {n n' : Nat}
    (htag : TagOctets tag) (hlength : LengthOctets n length)
    (htag' : TagOctets tag') (hlength' : LengthOctets n' length')
    (h : tag ++ length ++ rest = tag' ++ length' ++ rest') :
    tag = tag' ∧ n = n' ∧ rest = rest' := by
  rw [List.append_assoc, List.append_assoc] at h
  have htags := readTag_octets htag (length ++ rest)
  rw [h, readTag_octets htag'] at htags
  obtain ⟨hequal, hbehind⟩ := Prod.mk.inj htags
  have hlengths := readLength_octets hlength rest
  rw [← hbehind, readLength_octets hlength'] at hlengths
  obtain ⟨hnumbers, hrests⟩ := Prod.mk.inj hlengths
  exact ⟨(Except.ok.inj hequal).symm, (Except.ok.inj hnumbers).symm, hrests.symm⟩

-- ================================================================ fields

/-- The field in front: its tag and its value, and what follows. Nothing in
the value is read. -/
def readField (input : Bytes) : Option (Bytes × Bytes × Bytes) :=
  match readTag input with
  | (.error _, _) => none
  | (.ok tag, rest) =>
    match readLength rest with
    | (.error _, _) => none
    | (.ok n, rest) =>
      if n ≤ rest.length then some (tag, rest.take n, rest.drop n) else none

/-- A field is read back in front of whatever follows. -/
theorem readField_field {tag : UInt16} {value : Bytes}
    (htag : TagOctets (tagField tag)) (h : value.length ≤ 0xFFFF)
    (rest : Bytes) :
    readField (field tag value ++ rest)
      = some (tagField tag, value, rest) := by
  unfold readField field
  rw [List.append_assoc, List.append_assoc, readTag_octets htag]
  simp only []
  rw [readLength_octets (lengthField_octets h)]
  simp

-- ================================================================= heads

/-- The octets are heads in a row, each a tag and a length. -/
inductive Heads : Bytes → List (Bytes × Nat) → Prop
  | nil : Heads [] []
  | cons {tag length more : Bytes} {n : Nat} {heads : List (Bytes × Nat)} :
      TagOctets tag → LengthOctets n length → Heads more heads →
      Heads (tag ++ length ++ more) ((tag, n) :: heads)

/-- Heads in a row can be told apart in one way only. -/
theorem Heads.unique {octets : Bytes} {heads other : List (Bytes × Nat)}
    (h : Heads octets heads) (hother : Heads octets other) :
    other = heads := by
  -- The row is kept as a variable, for the other reading to be split as well.
  generalize hrow : octets = row at hother
  induction h generalizing row other with
  | nil =>
      cases hother with
      | nil => rfl
      | @cons _ _ more _ _ htag' hlength' _ =>
          have hlong := length_behind_head htag' hlength' more
          rw [← hrow, List.length_nil] at hlong
          omega
  | @cons _ _ more _ _ htag hlength _ ih =>
      cases hother with
      | nil =>
          have hlong := length_behind_head htag hlength more
          rw [hrow, List.length_nil] at hlong
          omega
      | cons htag' hlength' hmore' =>
          obtain ⟨rfl, rfl, hmore⟩ :=
            head_unique htag hlength htag' hlength' hrow
          rw [ih _ hmore hmore']

/-- Heads that were written are heads in a row. -/
theorem heads_written {parts : List (UInt8 × Bytes)}
    (htags : ∀ part ∈ parts, TagOctets [part.1])
    (h : ∀ part ∈ parts, part.2.length ≤ 0xFFFF) :
    Heads (parts.flatMap fun part => part.1 :: lengthField part.2.length)
      (parts.map fun part => ([part.1], part.2.length)) := by
  induction parts with
  | nil => exact .nil
  | cons part parts ih =>
      have hmore := ih (fun other hmem => htags other (by simp [hmem]))
        (fun other hmem => h other (by simp [hmem]))
      exact .cons (htags part (by simp)) (lengthField_octets (h part (by simp)))
        hmore

/-- The values with the given lengths that stand in a row. -/
def cut : List Nat → Bytes → List Bytes
  | [], _ => []
  | n :: lengths, row => row.take n :: cut lengths (row.drop n)

/-- Values are cut off one after the other by their lengths. -/
theorem cut_values (values : List Bytes) :
    cut (values.map List.length) values.flatten = values := by
  induction values with
  | nil => rfl
  | cons value values ih =>
      rw [List.map_cons, List.flatten_cons, cut, List.take_left,
        List.drop_left, ih]

end SmartCard.Tlv
