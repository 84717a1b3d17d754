/-
The two objects that are put together from fields inside fields: the one in
which the other side's public key is sent, and the template of a private
key. Nothing bounds what is put into them, and a length has two octets at
most. So each of them has a size up to which it can be opened again, and
above which the outermost length is short of what follows it
(`opened_agreementObject`, `decoded_iff`).
-/
import SmartCard.OpenPgp.Session.Operations
import SmartCard.Proofs.OpenPgp.Templates
import SmartCard.Proofs.Tlv.ToldLengths

namespace SmartCard.OpenPgp

-- ============================================================= agreement

/-- A point is found again inside its three fields if the heads inside leave
it room. -/
theorem opened_agreementObject (point : Bytes) :
    Tlv.opened [0xA6, 0x7F49, 0x86] (Session.agreementObject point)
      = if point.length ≤ 65526 then some point else none := by
  have houter : Tlv.TagOctets (Tlv.tagField 0xA6) :=
    .one (by decide) (by decide)
  have hmiddle : Tlv.TagOctets (Tlv.tagField 0x7F49) :=
    .two (by decide) (by decide)
  have hinner : Tlv.TagOctets (Tlv.tagField 0x86) :=
    .one (by decide) (by decide)
  have hpoint : (Tlv.field 0x86 point).length
      = 1 + (Tlv.lengthField point.length).length + point.length :=
    Tlv.length_field 0x86 point
  have hkey : (Tlv.field 0x7F49 (Tlv.field 0x86 point)).length
      = 2 + (Tlv.lengthField (Tlv.field 0x86 point).length).length
        + (Tlv.field 0x86 point).length :=
    Tlv.length_field 0x7F49 _
  rw [Session.agreementObject, Tlv.opened_field houter,
    Tlv.opened_field hmiddle, Tlv.opened_field hinner, Tlv.opened]
  by_cases h : point.length ≤ 65526
  · have hfirst := Tlv.length_lengthField_le point.length
    have hsecond := Tlv.length_lengthField_le (Tlv.field 0x86 point).length
    rw [if_pos h, if_pos (by omega), if_pos (by omega), if_pos (by omega)]
  · have hfirst : (Tlv.lengthField point.length).length = 3 :=
      Tlv.length_lengthField_long (by omega)
    have hsecond : (Tlv.lengthField (Tlv.field 0x86 point).length).length = 3 :=
      Tlv.length_lengthField_long (by omega)
    rw [if_neg h, if_neg (by omega)]

-- ============================================================= templates

namespace KeyTemplate

/-- A template can be taken apart if its outermost length is right. -/
theorem decoded_iff {slot : Slot} {t : KeyTemplate}
    (hslot : t.slotTemplate = slot.template)
    (htags : ∀ part ∈ t.parts, part.1 ∈ partTags) :
    (∃ inner heads rest row announced,
        Decoded slot t inner heads rest row announced)
      ↔ t.body.length ≤ 0xFFFF := by
  refine ⟨?_, decoded hslot htags⟩
  rintro ⟨inner, heads, rest, row, announced, h⟩
  have htag : Tlv.TagOctets (Tlv.tagField 0x4D) := .one (by decide) (by decide)
  have hread := Tlv.readField_told htag t.body []
  rw [List.append_nil, List.append_nil] at hread
  have hwhole := h.whole
  rw [bytes, hread] at hwhole
  simp only [Option.some.injEq, Prod.mk.injEq] at hwhole
  have hnone := List.drop_eq_nil_iff.mp hwhole.2.2
  omega

/-- The parts of a key and the public keys behind them have tags of
parts. -/
theorem ofKey_tags {slot : Slot} {crt : Bool} {key : PrivateKey}
    {t : KeyTemplate} (h : ofKey slot crt key = .ok t)
    (publics : List Bytes) :
    (t.withPublicKeys publics).slotTemplate = slot.template
      ∧ ∀ part ∈ (t.withPublicKeys publics).parts, part.1 ∈ partTags := by
  have hfit : ¬ Unfit crt key := fun hunfit => by
    obtain ⟨fault, hfault⟩ := ofKey_unfit hunfit slot
    cases hfault.symm.trans h
  obtain ⟨parts, hparts, hcarries⟩ := ofKey_fit hfit slot
  obtain rfl := Except.ok.inj (h.symm.trans hparts)
  rw [withPublicKeys_eq]
  refine ⟨rfl, List.forall_mem_append.mpr ⟨hcarries.tags, ?_⟩⟩
  simp [partTags]

end KeyTemplate

-- =============================================================== lengths

/-- A written length tells the length modulo 65536, whoever reads it, and
nothing else. So lengths up to 65535 are written differently, a field has
the length of its value in front of it if and only if the value has at most
65535 octets, and the point of the other side and a private key are found
inside their fields if and only if the outermost of these is not longer. -/
theorem lengths_told_to_two_octets (n : Nat) (tag : UInt16)
    (value point rest : Bytes) (slot : Slot) (crt : Bool) (key : PrivateKey) :
    (∀ m, Tlv.DefiniteLength m (Tlv.lengthField n) ↔ m = n % 65536)
      ∧ (∀ m, Tlv.lengthField n = Tlv.lengthField m
        ↔ n = m ∨ 0xFF < n ∧ 0xFF < m ∧ n % 65536 = m % 65536)
      ∧ (Tlv.Encloses (Tlv.tagField tag) value (Tlv.field tag value)
        ↔ value.length ≤ 0xFFFF)
      ∧ (tag ≤ 0xFF → Tlv.splitHead (Tlv.field tag value ++ rest)
        = some (value.length % 65536, value ++ rest))
      ∧ Tlv.opened [0xA6, 0x7F49, 0x86] (Session.agreementObject point)
        = (if point.length ≤ 65526 then some point else none)
      ∧ ∀ t publics, KeyTemplate.ofKey slot crt key = .ok t →
        ((∃ inner heads rest row announced,
            KeyTemplate.Decoded slot (t.withPublicKeys publics)
              inner heads rest row announced)
          ↔ (t.withPublicKeys publics).body.length ≤ 0xFFFF) := by
  refine ⟨?_, ?_, ?_, ?_, ?_, ?_⟩
  · exact Tlv.definiteLength_lengthField_iff n
  · exact Tlv.lengthField_eq_iff n
  · exact Tlv.encloses_field_iff tag value
  · exact fun htag => Tlv.splitHead_field htag value rest
  · exact opened_agreementObject point
  · intro t publics h
    obtain ⟨hslot, htags⟩ := KeyTemplate.ofKey_tags h publics
    exact KeyTemplate.decoded_iff hslot htags

/-- The template of a secret as long as its curve has it can be taken
apart. -/
theorem template_of_curve_secret :
    let secret : Bytes := List.replicate 32 0x01
    let t : KeyTemplate := ⟨Slot.sig.template, [(0x92, secret)]⟩
    (0x4D : UInt16) ≤ 0xFF
      ∧ Tlv.splitHead (t.bytes ++ [])
        = some (t.body.length % 65536, t.body ++ [])
      ∧ KeyTemplate.ofKey .sig false (.ec .secp256r1 secret) = .ok t
      ∧ ∃ inner heads rest row announced,
        KeyTemplate.Decoded .sig t inner heads rest row announced := by
  intro secret t
  obtain ⟨-, -, -, hhead, -, htemplate⟩ := lengths_told_to_two_octets
    0 0x4D t.body [] [] .sig false (.ec .secp256r1 secret)
  have hone : (0x4D : UInt16) ≤ 0xFF := by decide
  have hkey : KeyTemplate.ofKey .sig false (.ec .secp256r1 secret) = .ok t :=
    rfl
  have hbody : (t.withPublicKeys []).body.length ≤ 0xFFFF := by decide
  exact ⟨hone, hhead hone, hkey, (htemplate t [] hkey).mpr hbody⟩

/-- Around a long secret the template of a signature key has 14 octets
more. -/
theorem length_body_secret {secret : Bytes} (h : 0xFF < secret.length) :
    (⟨Slot.sig.template, [(0x92, secret)]⟩ : KeyTemplate).body.length
      = secret.length + 14 := by
  generalize ht : (⟨Slot.sig.template, [(0x92, secret)]⟩ : KeyTemplate) = t
  have hlength := Tlv.length_lengthField_long h
  have hname : t.slotTemplate.length = 2 := by rw [← ht]; rfl
  have hheads : t.heads.length = 4 := by
    rw [← ht]
    simp [KeyTemplate.heads, hlength]
  have hvalues : t.values.length = secret.length := by
    rw [← ht]
    simp [KeyTemplate.values]
  have hfirst : (Tlv.field 0x7F48 t.heads).length = 7 := by
    rw [Tlv.length_field, hheads]
    rfl
  have hsecond : (Tlv.field 0x5F48 t.values).length = 5 + secret.length := by
    rw [Tlv.length_field, hvalues, hlength]
    rfl
  rw [KeyTemplate.body, List.length_append, List.length_append, hname, hfirst,
    hsecond]
  omega

/-- The template around a secret of 65522 octets tells that it is empty. -/
theorem template_of_long_secret :
    let secret : Bytes := List.replicate 65522 0x01
    let t : KeyTemplate := ⟨Slot.sig.template, [(0x92, secret)]⟩
    KeyTemplate.ofKey .sig false (.ec .secp256r1 secret) = .ok t
      ∧ Tlv.readField t.bytes = some ([0x4D], [], t.body)
      ∧ ¬ Tlv.Encloses [0x4D] t.body t.bytes := by
  intro secret t
  have hsecret : secret.length = 65522 := List.length_replicate
  have hbody : t.body.length = 65536 := by
    rw [length_body_secret (by omega), hsecret]
  have htag : Tlv.TagOctets (Tlv.tagField 0x4D) := .one (by decide) (by decide)
  have hread := Tlv.readField_told htag t.body []
  rw [List.append_nil, List.append_nil, hbody, Nat.mod_self, List.take_zero,
    List.drop_zero] at hread
  refine ⟨rfl, hread, fun hencloses => ?_⟩
  have hshort := (Tlv.encloses_field_iff 0x4D t.body).mp hencloses
  omega

end SmartCard.OpenPgp
