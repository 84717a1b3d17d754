/-
What is in the template of a private key. The template has the parts of the
key in a row without marks between them, behind a list of heads that tells
how long each is. Reading it needs nothing but the template: the outer
field, the two fields behind the name of the slot, the heads, and the cuts
in the row (`Decoded`), and what comes out are the parts that went in.

# The parts of an RSA key

They are the exponent as it is, and numbers of the key, each in a width that
follows from the modulus (`entries`). A number is written with zeros in
front, so it keeps its value; one that needs more octets does not fit, and
that and a missing part are all that keeps a key from having a template
(`Unfit`).
-/
import Mathlib.Algebra.Ring.Nat
import Mathlib.Data.List.Forall2
import SmartCard.OpenPgp.Key
import SmartCard.Proofs.Tlv.Fields
import SmartCard.Proofs.Zeros

namespace SmartCard.OpenPgp

-- =============================================================== numbers

/-- A number of a key, with the tag and the width that it has in a
template. -/
structure Entry where
  tag : UInt8
  width : Nat
  number : Bytes

namespace Entry

/-- The number does not fit, even without the zeros in front of it. -/
def Exceeds (e : Entry) : Prop :=
  e.width < (Bytes.stripLeadingZeros e.number).length

/-- The part has the tag, the width and the value of the entry. -/
structure Holds (e : Entry) (part : UInt8 × Bytes) : Prop where
  tag : part.1 = e.tag
  width : part.2.length = e.width
  value : Bytes.toNat part.2 = Bytes.toNat e.number

/-- Write the number in its width. -/
def write (e : Entry) : Except DataFault (UInt8 × Bytes) :=
  (fixedLength e.width e.number).map (e.tag, ·)

/-- A component longer than its width is refused. -/
theorem write_exceeds {e : Entry} (h : e.Exceeds) :
    e.write = .error .longComponent := by
  have hlong : (Bytes.stripLeadingZeros e.number).length > e.width := h
  simp [write, fixedLength, hlong, Except.map]

/-- A component no longer than its width is written at that width. -/
theorem write_fits {e : Entry} (h : ¬ e.Exceeds) :
    ∃ part, e.write = .ok part ∧ e.Holds part := by
  have hfits : (Bytes.stripLeadingZeros e.number).length ≤ e.width :=
    Nat.not_lt.mp h
  have hwrite : e.write = .ok (e.tag,
      List.replicate (e.width - (Bytes.stripLeadingZeros e.number).length) 0
        ++ Bytes.stripLeadingZeros e.number) := by
    simp [write, fixedLength, Nat.not_lt.mpr hfits, Except.map]
  refine ⟨_, hwrite, rfl, ?_, by simp⟩
  simp
  omega

/-- Entries are written one after the other, if all of them fit. -/
theorem write_all (entries : List Entry) :
    ((∃ e ∈ entries, e.Exceeds)
        ∧ ∃ fault, entries.mapM write = .error fault)
      ∨ ((∀ e ∈ entries, ¬ e.Exceeds)
        ∧ ∃ parts, entries.mapM write = .ok parts
          ∧ List.Forall₂ Holds entries parts) := by
  induction entries with
  | nil => exact Or.inr ⟨by simp, [], rfl, .nil⟩
  | cons e entries ih =>
      rw [List.mapM_cons]
      by_cases h : e.Exceeds
      · rw [write_exceeds h]
        exact Or.inl ⟨⟨e, by simp, h⟩, _, rfl⟩
      · obtain ⟨part, hpart, hholds⟩ := write_fits h
        rw [hpart]
        rcases ih with ⟨⟨other, hmem, hlong⟩, fault, hfault⟩
          | ⟨hfit, parts, hparts, hall⟩
        · rw [hfault]
          exact Or.inl ⟨⟨other, by simp [hmem], hlong⟩, fault, rfl⟩
        · rw [hparts]
          exact Or.inr ⟨by simpa using ⟨h, hfit⟩, part :: parts, rfl,
            .cons hholds hall⟩

/-- Parts have the tags of their entries. -/
theorem holds_tags {tags : List UInt8} {entries : List Entry}
    {parts : List (UInt8 × Bytes)} (h : List.Forall₂ Holds entries parts)
    (htags : ∀ e ∈ entries, e.tag ∈ tags) : ∀ part ∈ parts, part.1 ∈ tags := by
  induction h with
  | nil => simp
  | cons hholds _ ih =>
      simp only [List.forall_mem_cons] at htags ⊢
      exact ⟨hholds.tag ▸ htags.1, ih htags.2⟩

end Entry

-- ============================================================== RSA keys

/-- Half the octets of the modulus. -/
def RsaPrivateKey.half (key : RsaPrivateKey) : Nat :=
  (Bytes.stripLeadingZeros key.modulus).length / 2

/-- A part that only the form for the Chinese remainder theorem has is not
there. -/
def RsaPrivateKey.Lacks (key : RsaPrivateKey) : Prop :=
  key.dp = none ∨ key.dq = none ∨ key.qInverse = none

namespace KeyTemplate

/-- The primes of a key. -/
def primes (key : RsaPrivateKey) : List Entry :=
  [⟨0x92, key.half, key.p⟩, ⟨0x93, key.half, key.q⟩]

/-- What follows the primes in the form for the Chinese remainder theorem. -/
def remainders (key : RsaPrivateKey) (dp dq qInverse : Bytes) : List Entry :=
  [⟨0x94, key.half, qInverse⟩, ⟨0x95, key.half, dp⟩, ⟨0x96, key.half, dq⟩,
    ⟨0x97, key.half * 2, key.modulus⟩]

/-- The numbers of an RSA key that a template has, if they are there. -/
def entries (key : RsaPrivateKey) (crt : Bool) : Option (List Entry) :=
  if crt then
    match key.dp, key.dq, key.qInverse with
    | some dp, some dq, some qInverse =>
      some (primes key ++ remainders key dp dq qInverse)
    | _, _, _ => none
  else some (primes key)

/-- Only a CRT list of a key without its CRT parameters cannot be made. -/
theorem entries_eq_none_iff (key : RsaPrivateKey) (crt : Bool) :
    entries key crt = none ↔ crt = true ∧ key.Lacks := by
  unfold entries RsaPrivateKey.Lacks
  cases crt with
  | false => simp
  | true =>
      cases key.dp <;> cases key.dq <;> cases key.qInverse <;> simp

/-- A list that is made has the primes, and in CRT form the remainders of a
key that has them all. -/
theorem entries_cases {key : RsaPrivateKey} {crt : Bool} {list : List Entry}
    (h : entries key crt = some list) :
    (crt = false ∧ list = primes key)
      ∨ (crt = true ∧ ∃ dp dq qInverse, key.dp = some dp ∧ key.dq = some dq
        ∧ key.qInverse = some qInverse
        ∧ list = primes key ++ remainders key dp dq qInverse) := by
  unfold entries at h
  cases crt with
  | false => exact Or.inl ⟨rfl, (Option.some.inj h).symm⟩
  | true =>
      simp only [if_true] at h
      split at h
      next dp dq qInverse hdp hdq hqInverse =>
        exact Or.inr ⟨rfl, dp, dq, qInverse, hdp, hdq, hqInverse,
          (Option.some.inj h).symm⟩
      next => cases h

/-- Primes are as wide as half the modulus, in octets. -/
theorem half_eq (key : RsaPrivateKey) : key.bits / 16 = key.half := by
  unfold RsaPrivateKey.bits RsaPrivateKey.half
  omega

/-- Without its CRT parameters a key has no parts in CRT form. -/
theorem rsaParts_lacking {key : RsaPrivateKey} {crt : Bool}
    (h : entries key crt = none) :
    ∃ fault, rsaParts key crt = .error fault := by
  obtain ⟨rfl, hlacks⟩ := (entries_eq_none_iff key crt).mp h
  unfold rsaParts
  simp only [half_eq, if_true]
  -- The primes come first, and a long one is found before what is lacking.
  cases fixedLength key.half key.p with
  | error fault => exact ⟨fault, rfl⟩
  | ok p =>
      cases fixedLength key.half key.q with
      | error fault => exact ⟨fault, rfl⟩
      | ok q =>
          refine ⟨.missingCrtPart, ?_⟩
          rcases hlacks with hnone | hnone | hnone
          · rw [hnone]; rfl
          · rw [hnone]
            cases key.dp <;> rfl
          · rw [hnone]
            cases key.dp <;> cases key.dq <;> rfl

/-- The parts are the exponent and the numbers in their widths. -/
theorem rsaParts_entries {key : RsaPrivateKey} {crt : Bool}
    {list : List Entry} (h : entries key crt = some list) :
    rsaParts key crt
      = (list.mapM Entry.write).map ((0x91, key.exponent) :: ·) := by
  unfold rsaParts
  -- Both sides write one number after the other, and stop where one is too
  -- long.
  rcases entries_cases h with
    ⟨rfl, rfl⟩ | ⟨rfl, dp, dq, qInverse, hdp, hdq, hqInverse, rfl⟩
  · simp only [half_eq, primes, List.mapM_cons, List.mapM_nil, Entry.write]
    rcases fixedLength key.half key.p with fault | p
    · rfl
    rcases fixedLength key.half key.q with fault | q
    · rfl
    rfl
  · simp only [half_eq, hdp, hdq, hqInverse, primes, remainders,
      List.cons_append, List.nil_append, List.mapM_cons, List.mapM_nil,
      Entry.write]
    rcases fixedLength key.half key.p with fault | p
    · rfl
    rcases fixedLength key.half key.q with fault | q
    · rfl
    rcases fixedLength key.half qInverse with fault | qInverse
    · rfl
    rcases fixedLength key.half dp with fault | dp
    · rfl
    rcases fixedLength key.half dq with fault | dq
    · rfl
    rcases fixedLength (key.half * 2) key.modulus with fault | modulus
    · rfl
    rfl

/-- The tags of all parts that a template can have. -/
def partTags : List UInt8 :=
  [0x91, 0x92, 0x93, 0x94, 0x95, 0x96, 0x97, 0x99]

/-- The tag of every part is a whole BER tag of one octet. -/
theorem partTags_octets {tag : UInt8} (h : tag ∈ partTags) :
    Tlv.TagOctets [tag] := by
  simp only [partTags, List.mem_cons, List.not_mem_nil, or_false] at h
  rcases h with rfl | rfl | rfl | rfl | rfl | rfl | rfl | rfl
  all_goals exact .one (by decide) (by decide)

theorem entries_tags {key : RsaPrivateKey} {crt : Bool} {list : List Entry}
    (h : entries key crt = some list) : ∀ e ∈ list, e.tag ∈ partTags := by
  have hprimes : ∀ e ∈ primes key, e.tag ∈ partTags := by
    simp [primes, partTags]
  rcases entries_cases h with ⟨-, rfl⟩ | ⟨-, dp, dq, qInverse, -, -, -, rfl⟩
  · exact hprimes
  · have hremainders : ∀ e ∈ remainders key dp dq qInverse,
        e.tag ∈ partTags := by
      simp [remainders, partTags]
    exact List.forall_mem_append.mpr ⟨hprimes, hremainders⟩

-- ================================================================== keys

/-- A key that has no template: a part is lacking, or a number needs more
octets than its field has. -/
def Unfit (crt : Bool) : PrivateKey → Prop
  | .rsa key => (crt = true ∧ key.Lacks)
      ∨ ∃ list, entries key crt = some list ∧ ∃ e ∈ list, e.Exceeds
  | .ec _ _ => False

/-- Parts that are those of a key. -/
inductive Carries (crt : Bool) : PrivateKey → List (UInt8 × Bytes) → Prop
  | rsa {key : RsaPrivateKey} {list : List Entry}
      {fields : List (UInt8 × Bytes)} :
      entries key crt = some list → List.Forall₂ Entry.Holds list fields →
      Carries crt (.rsa key) ((0x91, key.exponent) :: fields)
  | ec {curve : Curve} {secret : Bytes} :
      Carries crt (.ec curve secret) [(0x92, secret)]

/-- A key is carried under part tags only. -/
theorem Carries.tags {crt : Bool} {key : PrivateKey}
    {parts : List (UInt8 × Bytes)} (h : Carries crt key parts) :
    ∀ part ∈ parts, part.1 ∈ partTags := by
  cases h with
  | ec => simp [partTags]
  | rsa hentries hholds =>
      have hfields := Entry.holds_tags hholds (entries_tags hentries)
      simpa [partTags] using hfields

/-- For a key that does not fit there is no template. -/
theorem ofKey_unfit {crt : Bool} {key : PrivateKey} (h : Unfit crt key)
    (slot : Slot) : ∃ fault, ofKey slot crt key = .error fault := by
  cases key with
  | ec => cases h
  | rsa key =>
      have hparts : ∃ fault, rsaParts key crt = .error fault := by
        rcases h with hlacks | ⟨list, hentries, hlong⟩
        · exact rsaParts_lacking ((entries_eq_none_iff key crt).mpr hlacks)
        · rcases Entry.write_all list with ⟨-, fault, hfault⟩ | ⟨hfit, -⟩
          · exact ⟨fault, by rw [rsaParts_entries hentries, hfault]; rfl⟩
          · obtain ⟨e, hmem, hexceeds⟩ := hlong
            exact absurd hexceeds (hfit e hmem)
      obtain ⟨fault, hfault⟩ := hparts
      exact ⟨fault, by rw [ofKey, hfault]; rfl⟩

/-- A key that fits has a template of its slot, and the parts carry the
key. -/
theorem ofKey_fit {crt : Bool} {key : PrivateKey} (h : ¬ Unfit crt key)
    (slot : Slot) :
    ∃ parts, ofKey slot crt key = .ok ⟨slot.template, parts⟩
      ∧ Carries crt key parts := by
  cases key with
  | ec => exact ⟨_, rfl, .ec⟩
  | rsa key =>
      cases hentries : entries key crt with
      | none => exact absurd (Or.inl ((entries_eq_none_iff key crt).mp hentries)) h
      | some list =>
          rcases Entry.write_all list with ⟨hlong, -⟩ | ⟨-, fields, hfields, hholds⟩
          · exact absurd (Or.inr ⟨list, hentries, hlong⟩) h
          · refine ⟨_, ?_, .rsa hentries hholds⟩
            rw [ofKey, rsaParts_entries hentries, hfields]
            rfl

-- =============================================================== reading

/-- A template taken apart: what follows the name of the slot, the heads
with what follows them, the parts in a row, and what the heads announce. -/
structure Decoded (slot : Slot) (t : KeyTemplate)
    (inner heads rest row : Bytes) (announced : List (Bytes × Nat)) :
    Prop where
  whole : Tlv.readField t.bytes = some ([0x4D], slot.template ++ inner, [])
  first : Tlv.readField inner = some ([0x7F, 0x48], heads, rest)
  second : Tlv.readField rest = some ([0x5F, 0x48], row, [])
  split : ∀ other, Tlv.Heads heads other ↔ other = announced
  order : announced.map Prod.fst = t.tags.map fun tag => [tag]
  filled : (announced.map Prod.snd).sum = row.length
  parts : Tlv.cut (announced.map Prod.snd) row = t.parts.map Prod.snd

/-- The octets of a template with part tags and a body that two length
octets can tell are read back as what the template was made of. -/
theorem decoded {slot : Slot} {t : KeyTemplate}
    (hslot : t.slotTemplate = slot.template)
    (htags : ∀ part ∈ t.parts, part.1 ∈ partTags)
    (hbody : t.body.length ≤ 0xFFFF) :
    ∃ inner heads rest row announced,
      Decoded slot t inner heads rest row announced := by
  have hlengths : t.heads.length ≤ 0xFFFF ∧ t.values.length ≤ 0xFFFF := by
    unfold body Tlv.field at hbody
    simp only [List.length_append] at hbody
    omega
  have hvalues : t.values = (t.parts.map Prod.snd).flatten :=
    List.flatMap_def
  have hpart : ∀ part ∈ t.parts, part.2.length ≤ 0xFFFF := by
    intro part hmem
    have hvalue : part.2.length ≤ t.values.length := by
      rw [hvalues]
      exact (List.sublist_flatten_of_mem (List.mem_map_of_mem hmem)).length_le
    omega
  have hheads : Tlv.Heads t.heads
      (t.parts.map fun part => ([part.1], part.2.length)) :=
    Tlv.heads_written (fun part hmem => partTags_octets (htags part hmem)) hpart
  have hannounced : (t.parts.map fun part => ([part.1], part.2.length)).map Prod.snd
      = (t.parts.map Prod.snd).map List.length := by simp
  have hnested : t.body = slot.template
      ++ (Tlv.field 0x7F48 t.heads ++ Tlv.field 0x5F48 t.values) := by
    rw [body, hslot, List.append_assoc]
  have htag : Tlv.TagOctets (Tlv.tagField 0x4D) := .one (by decide) (by decide)
  have htag₁ : Tlv.TagOctets (Tlv.tagField 0x7F48) :=
    .two (by decide) (by decide)
  have htag₂ : Tlv.TagOctets (Tlv.tagField 0x5F48) :=
    .two (by decide) (by decide)
  have hwhole : Tlv.readField (Tlv.field 0x4D t.body ++ [])
      = some ([0x4D], t.body, []) :=
    Tlv.readField_field htag hbody []
  have hfirst : Tlv.readField
      (Tlv.field 0x7F48 t.heads ++ Tlv.field 0x5F48 t.values)
        = some ([0x7F, 0x48], t.heads, Tlv.field 0x5F48 t.values) :=
    Tlv.readField_field htag₁ hlengths.1 _
  have hsecond : Tlv.readField (Tlv.field 0x5F48 t.values ++ [])
      = some ([0x5F, 0x48], t.values, []) :=
    Tlv.readField_field htag₂ hlengths.2 []
  rw [List.append_nil] at hwhole hsecond
  exact ⟨Tlv.field 0x7F48 t.heads ++ Tlv.field 0x5F48 t.values, t.heads,
    Tlv.field 0x5F48 t.values, t.values,
    t.parts.map fun part => ([part.1], part.2.length),
    { whole := by rw [bytes, hwhole, hnested]
      first := hfirst
      second := hsecond
      split := fun other => ⟨hheads.unique, fun h => h ▸ hheads⟩
      order := by simp [KeyTemplate.tags]
      filled := by rw [hannounced, hvalues, List.length_flatten]
      parts := by rw [hannounced, hvalues, Tlv.cut_values] }⟩

/-- The template with public keys added to it. -/
def withPublicKeys (t : KeyTemplate) (publics : List Bytes) : KeyTemplate :=
  publics.foldl withPublicKey t

/-- Public keys are added behind the other parts, in the order they are
given. -/
theorem withPublicKeys_eq (t : KeyTemplate) (publics : List Bytes) :
    t.withPublicKeys publics
      = { t with parts := t.parts ++ publics.map (0x99, ·) } := by
  unfold withPublicKeys
  induction publics generalizing t with
  | nil => simp
  | cons p publics ih =>
      rw [List.foldl_cons, ih]
      simp [withPublicKey]

/-- A key has a template unless it is unfit, and the template decodes back
to the key: it holds the name of the slot, the heads and the row, nothing
behind them, and the parts that the row is cut into at the lengths of the
heads are those of the key and the public keys after them. -/
theorem template_decodes (slot : Slot) (crt : Bool) (key : PrivateKey) :
    ((∃ fault, ofKey slot crt key = .error fault) ↔ Unfit crt key)
      ∧ ∀ t, ofKey slot crt key = .ok t → Carries crt key t.parts
        ∧ ∀ publics,
          (t.withPublicKeys publics).parts
              = t.parts ++ publics.map (0x99, ·)
            ∧ ((t.withPublicKeys publics).body.length ≤ 0xFFFF →
              ∃ inner heads rest row announced,
                Decoded slot (t.withPublicKeys publics)
                  inner heads rest row announced) := by
  refine ⟨⟨?_, fun h => ofKey_unfit h slot⟩, ?_⟩
  · rintro ⟨fault, hfault⟩
    by_contra hfit
    obtain ⟨parts, hparts, -⟩ := ofKey_fit hfit slot
    cases hfault.symm.trans hparts
  · intro t ht
    have hfit : ¬ Unfit crt key := fun h => by
      obtain ⟨fault, hfault⟩ := ofKey_unfit h slot
      cases hfault.symm.trans ht
    obtain ⟨parts, hparts, hcarries⟩ := ofKey_fit hfit slot
    obtain rfl := Except.ok.inj (ht.symm.trans hparts)
    refine ⟨hcarries, fun publics => ?_⟩
    rw [withPublicKeys_eq]
    refine ⟨rfl, fun hbody => decoded rfl ?_ hbody⟩
    intro part hmem
    rcases List.mem_append.mp hmem with hmem | hmem
    · exact hcarries.tags part hmem
    · obtain ⟨_, _, rfl⟩ := List.mem_map.mp hmem
      simp [partTags]

/-- A key with a modulus of six octets, and numbers with too few octets and
with zeros in front. -/
def sampleKey : RsaPrivateKey where
  modulus := [0x00, 0xC5, 0x21, 0x10, 0x00, 0x02, 0x83]
  exponent := [0x01, 0x00, 0x01]
  p := [0x00, 0x00, 0x01, 0x07]
  q := [0xFB]
  dp := some [0x11]
  dq := some [0x00, 0x22, 0x05, 0x71]
  qInverse := some []

theorem template_decodes_sample :
    let parts : List (UInt8 × Bytes) :=
      [(0x91, [0x01, 0x00, 0x01]), (0x92, [0x00, 0x01, 0x07]),
        (0x93, [0x00, 0x00, 0xFB]), (0x94, [0x00, 0x00, 0x00]),
        (0x95, [0x00, 0x00, 0x11]), (0x96, [0x22, 0x05, 0x71]),
        (0x97, [0xC5, 0x21, 0x10, 0x00, 0x02, 0x83])]
    let t : KeyTemplate := ⟨Slot.att.template, parts⟩
    let publics : List Bytes := [List.replicate 200 0xAB]
    ofKey .att true (.rsa sampleKey) = .ok t
      ∧ (t.withPublicKeys publics).body.length ≤ 0xFFFF
      ∧ ¬ Unfit true (.rsa sampleKey) ∧ Carries true (.rsa sampleKey) parts
      ∧ ∃ inner heads rest row announced,
        Decoded .att (t.withPublicKeys publics) inner heads rest row announced := by
  intro parts t publics
  have ht : ofKey .att true (.rsa sampleKey) = .ok t := by decide
  have hbody : (t.withPublicKeys publics).body.length ≤ 0xFFFF := by
    decide +kernel
  obtain ⟨hunfit, hall⟩ := template_decodes .att true (.rsa sampleKey)
  obtain ⟨hcarries, hdecoded⟩ := hall t ht
  refine ⟨ht, hbody, fun h => ?_, hcarries, (hdecoded publics).2 hbody⟩
  obtain ⟨fault, hfault⟩ := hunfit.mpr h
  cases hfault.symm.trans ht

end KeyTemplate
end SmartCard.OpenPgp
