/-
What the writer makes of an object. A reader of any kind goes by the length
in front of a value, so what matters is whether the written length is the
number of octets behind it (`Encloses`), for an object and for all objects in
it (`Framed`).

# The length that is counted short

Every length is written as what it is (`writtenLength_definite`). But the
length of a constructed object is put together from the sizes of the objects
in it, and a size counts one octet for a length of 127 while two are written
(`length_writtenLength`). So a constructed object around such objects tells a
length that is too small, and otherwise not (`framed_primitives_iff`).
-/
import SmartCard.Proofs.Integers
import SmartCard.Proofs.Tlv.Fields

namespace SmartCard.Tlv

-- =============================================================== lengths

/-- A length as any reader has it: one octet below 80, or 80 and the number
of octets that follow. There is at least one, and 127 of them are kept for
other use. A number has many spellings. -/
inductive DefiniteLength : Nat → Bytes → Prop
  | short {x : UInt8} : x < 0x80 → DefiniteLength x.toNat [x]
  | long {first : UInt8} {field : Bytes} :
      first.toNat = 0x80 + field.length → field ≠ [] → first ≠ 0xFF →
      DefiniteLength (Bytes.toNat field) (first :: field)

/-- Octets tell one length. -/
theorem DefiniteLength.unique {n m : Nat} {octets : Bytes}
    (h : DefiniteLength n octets) (hother : DefiniteLength m octets) :
    n = m := by
  cases h with
  | short _ =>
      cases hother with
      | short _ => rfl
      | long _ hfield _ => exact absurd rfl hfield
  | long _ hfield _ =>
      cases hother with
      | short _ => exact absurd rfl hfield
      | long _ _ _ => rfl

/-- A length behind the number of its octets. -/
theorem DefiniteLength.counted {field : Bytes} (hne : field ≠ [])
    (hwidth : field.length ≤ 8) :
    DefiniteLength (Bytes.toNat field)
      (UInt8.ofNat (0x80 + field.length) :: field) := by
  have hfirst : (UInt8.ofNat (0x80 + field.length)).toNat
      = 0x80 + field.length := by
    simp
    omega
  refine .long hfirst hne fun hlast => ?_
  rw [hlast] at hfirst
  have : (0xFF : UInt8).toNat = 255 := rfl
  omega

/-- What is written for a length is that length. -/
theorem writtenLength_definite {n : Nat} (h : n < 256 ^ 8) :
    DefiniteLength n (writtenLength n) := by
  unfold writtenLength
  by_cases hsmall : n < 127
  · obtain ⟨hn, hbelow⟩ := short_octet (show n < 0x80 by omega)
    rw [if_pos hsmall]
    simpa only [hn] using DefiniteLength.short hbelow
  · have hvalue : Bytes.toNat (Bytes.stripLeadingZeros (Bytes.bigEndian 8 n))
        = n := by
      rw [Bytes.toNat_stripLeadingZeros, Bytes.toNat_bigEndian]
      exact Nat.mod_eq_of_lt h
    have hfield : Bytes.stripLeadingZeros (Bytes.bigEndian 8 n) ≠ [] := by
      intro hnone
      rw [hnone] at hvalue
      simp [Bytes.toNat] at hvalue
      omega
    have hwidth : (Bytes.stripLeadingZeros (Bytes.bigEndian 8 n)).length
        ≤ 8 := by
      have hshorter := Bytes.length_stripLeadingZeros_le (Bytes.bigEndian 8 n)
      rwa [Bytes.length_bigEndian] at hshorter
    rw [if_neg hsmall]
    simpa only [hvalue] using DefiniteLength.counted hfield hwidth

theorem length_writtenLength {n : Nat} (h : n < 2 ^ 32) :
    (writtenLength n).length = lengthSize n + if n = 127 then 1 else 0 := by
  have hvalue : Bytes.toNat (Bytes.bigEndian 8 n) = n := by
    rw [Bytes.toNat_bigEndian]
    exact Nat.mod_eq_of_lt (by simp; omega)
  -- The octets of the length are as many as the power of 256 below it tells.
  have hwidth : ∀ k, 256 ^ k ≤ n → n < 256 ^ (k + 1) →
      (Bytes.stripLeadingZeros (Bytes.bigEndian 8 n)).length = k + 1 :=
    fun k hlow hhigh => Bytes.length_stripLeadingZeros
      (hvalue.symm ▸ hlow) (hvalue.symm ▸ hhigh)
  unfold writtenLength lengthSize
  by_cases hshort : n < 127
  · rw [if_pos hshort, if_pos (by omega), if_neg (by omega)]
    rfl
  rw [if_neg hshort]
  simp only [List.length_cons]
  by_cases h127 : n = 127
  · subst h127
    rw [hwidth 0 (by decide) (by decide)]
    rfl
  rw [if_neg h127, if_neg (by omega)]
  by_cases hone : n < 0x100
  · rw [if_pos hone, hwidth 0 (by omega) (by omega)]
  rw [if_neg hone]
  by_cases htwo : n < 0x10000
  · rw [if_pos htwo, hwidth 1 (by omega) (by omega)]
  rw [if_neg htwo]
  by_cases hthree : n < 0x1000000
  · rw [if_pos hthree, hwidth 2 (by omega) (by omega)]
  · rw [if_neg hthree, hwidth 3 (by omega) (by omega)]

-- =============================================================== objects

/-- The octets are a tag, a length and the content, and the length is that
of the content. -/
def Encloses (tag content octets : Bytes) : Prop :=
  ∃ length, DefiniteLength content.length length
    ∧ octets = tag ++ length ++ content

/-- Every tag is one, and tells whether its object holds octets or objects.
No other objects can be made. -/
inductive Consistent : Tlv → Prop
  | primitive {tag content : Bytes} :
      TagOctets tag → isConstructedTag tag = false →
      Consistent (.primitive tag content)
  | constructed {tag : Bytes} {children : List Tlv} :
      TagOctets tag → isConstructedTag tag = true →
      (∀ t ∈ children, Consistent t) → Consistent (.constructed tag children)

/-- An object is written as its tag, the length of its value and the value,
and so are the objects in it. -/
inductive Framed : Tlv → Prop
  | primitive {tag content : Bytes} :
      Encloses tag content (bytes (.primitive tag content)) →
      Framed (.primitive tag content)
  | constructed {tag : Bytes} {children : List Tlv} :
      Encloses tag (bytesOfAll children) (bytes (.constructed tag children)) →
      (∀ t ∈ children, Framed t) → Framed (.constructed tag children)

/-- What is framed encloses its content. -/
theorem Framed.encloses {tag content : Bytes}
    (h : Framed (.primitive tag content)) :
    Encloses tag content (bytes (.primitive tag content)) := by
  cases h with
  | primitive hencloses => exact hencloses

/-- A primitive object is framed by its tag and length. -/
theorem framed_primitive (tag : Bytes) {content : Bytes}
    (h : content.length < 256 ^ 8) : Framed (.primitive tag content) :=
  .primitive ⟨_, writtenLength_definite h, by rw [bytes]⟩

/-- The length around objects is right if their sizes are the numbers of
their octets. -/
theorem encloses_children_iff (tag : Bytes) {children : List Tlv}
    (h : sizes children < 256 ^ 8) :
    Encloses tag (bytesOfAll children) (bytes (.constructed tag children))
      ↔ (bytesOfAll children).length = sizes children := by
  have hdefinite := writtenLength_definite h
  refine ⟨?_, fun hsize => ⟨_, by rwa [hsize], by rw [bytes]⟩⟩
  rintro ⟨length, hlength, hoctets⟩
  rw [bytes] at hoctets
  have hsame := List.append_cancel_left (List.append_cancel_right hoctets)
  exact hlength.unique (hsame ▸ hdefinite)

/-- Objects that hold octets take one octet more than their sizes for each
of them that has 127. -/
theorem length_primitives {parts : List (Bytes × Bytes)}
    (h : ∀ part ∈ parts, part.2.length < 2 ^ 32) :
    (bytesOfAll (parts.map fun part => .primitive part.1 part.2)).length
      = sizes (parts.map fun part => .primitive part.1 part.2)
        + parts.countP fun part => part.2.length = 127 := by
  induction parts with
  | nil => rfl
  | cons part parts ih =>
      simp only [List.forall_mem_cons] at h
      have hrest := ih h.2
      have hlength := length_writtenLength h.1
      simp only [List.map_cons, bytesOfAll, bytes, sizes, size,
        List.length_append, List.countP_cons, decide_eq_true_eq]
      omega

/-- An object around objects that hold octets is framed unless one of them
has 127. -/
theorem framed_primitives_iff (tag : Bytes) {parts : List (Bytes × Bytes)}
    (h : ∀ part ∈ parts, part.2.length < 2 ^ 32)
    (hsize : sizes (parts.map fun part => .primitive part.1 part.2)
      < 256 ^ 8) :
    Framed (.constructed tag (parts.map fun part => .primitive part.1 part.2))
      ↔ ∀ part ∈ parts, part.2.length ≠ 127 := by
  have houter : Encloses tag
        (bytesOfAll (parts.map fun part => .primitive part.1 part.2))
        (bytes (.constructed tag
          (parts.map fun part => .primitive part.1 part.2)))
      ↔ ∀ part ∈ parts, part.2.length ≠ 127 := by
    rw [encloses_children_iff tag hsize, length_primitives h]
    simp [List.countP_eq_zero]
  refine ⟨fun hframed => ?_, fun hnone => .constructed (houter.mpr hnone) ?_⟩
  · cases hframed with
    | constructed hencloses _ => exact houter.mp hencloses
  · intro t ht
    obtain ⟨part, hmem, rfl⟩ := List.mem_map.mp ht
    exact framed_primitive part.1 (Nat.lt_trans (h part hmem) (by decide))

theorem lengthSize_le (n : Nat) : lengthSize n ≤ 5 := by
  unfold lengthSize
  grind

end SmartCard.Tlv
