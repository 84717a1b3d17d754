/-
The list of algorithms that a newer card sends. It is an object with the
entries of all slots in a row, and some cards announce a longer row than
they send. What length the head announces makes no difference
(`entries_announced`): an answer that can be read as a whole has the objects
inside that are found behind the head one by one, and where it can not be
read so, that is where they are looked for.

# What counts

An entry counts for a slot if it is primitive, has the tag of the slot, and
its content can be read as attributes (`counted?`). Each slot has what counts
for it in order, and a slot for which nothing counts is not listed
(`listing`).
-/
import SmartCard.Proofs.OpenPgp.LateRefusals
import SmartCard.Proofs.Tlv.Objects

namespace SmartCard.OpenPgp.Session

-- ================================================================ the head

/-- The octets are the head of a list, in one of three forms, and announce
the length. -/
inductive Announces : Nat → Bytes → Prop
  | short {n : UInt8} : n ≤ 0x7F → Announces n.toNat [0xFA, n]
  | one {n : UInt8} : Announces n.toNat [0xFA, 0x81, n]
  | two {high low : UInt8} :
      Announces (Bytes.toNat [high, low]) [0xFA, 0x82, high, low]

/-- A head that announces a length is the list's tag and length octets that
tell it. -/
theorem Announces.octets {n : Nat} {head : Bytes} (h : Announces n head) :
    ∃ length, head = 0xFA :: length ∧ Tlv.LengthOctets n length := by
  cases h with
  | @short n hsmall =>
      refine ⟨[n], rfl, .short ?_⟩
      rw [UInt8.lt_iff_toNat_lt]
      exact Nat.lt_succ_of_le (UInt8.le_iff_toNat_le.mp hsmall)
  | @one n =>
      have hlong : Tlv.LengthOctets (Bytes.toNat [n]) [0x81, n] :=
        .long rfl (by simp)
      exact ⟨[0x81, n], rfl, by simpa [Bytes.toNat] using hlong⟩
  | two => exact ⟨_, rfl, .long rfl (by simp)⟩

/-- Such a head is taken off in front of whatever follows. -/
theorem Announces.splitHead {n : Nat} {head : Bytes} (h : Announces n head)
    (rest : Bytes) : Tlv.splitHead (head ++ rest) = some (n, rest) := by
  cases h with
  | @short n hsmall =>
      have hone : n ≠ 0x81 := by rintro rfl; exact absurd hsmall (by decide)
      have htwo : n ≠ 0x82 := by rintro rfl; exact absurd hsmall (by decide)
      unfold Tlv.splitHead
      split
      all_goals simp_all
  | one => rfl
  | two => rfl

/-- Whatever length is announced, the entries are those that are found one by
one behind the head. -/
theorem entries_announced {n : Nat} {head : Bytes} (h : Announces n head)
    (row : Bytes) :
    algorithmEntries (head ++ row) = .ok (Tlv.parseLenient row) := by
  obtain ⟨length, hhead, hlength⟩ := h.octets
  have htag : Tlv.TagOctets [0xFA] := .one (by decide) (by decide)
  unfold algorithmEntries
  cases hwhole : Tlv.ofBytes (head ++ row) with
  | error fault =>
      have hfirst : (head ++ row).head? = some 0xFA := by
        rw [hhead]
        rfl
      simp only [hfirst, h.splitHead]
      rfl
  | ok t =>
      rw [hhead] at hwhole
      obtain ⟨children, rfl, hall⟩ := Tlv.Spells.inside htag (by decide) hlength
        (Tlv.spells_of_ofBytes hwhole)
      have hsame := Tlv.parseLenient_spelled hall Tlv.malformed_nil
      rw [List.append_nil] at hsame
      rw [hsame]
      rfl

-- ============================================================= the entries

/-- What an entry lists for a slot. -/
def counted? (slot : Slot) : Tlv → Option Attributes
  | .primitive tag content =>
    if tag = [slot.attributes.toUInt8] then (Attributes.parse content).toOption
    else none
  | .constructed _ _ => none

/-- What entries list for a slot. -/
def listed (slot : Slot) (entries : List Tlv) : List Attributes :=
  entries.filterMap (counted? slot)

/-- What entries list for each slot. -/
def listing (entries : List Tlv) : AlgorithmInformation := fun slot =>
  if listed slot entries = [] then none else some (listed slot entries)

theorem attributes_number (slot : Slot) :
    slot.attributes = slot.attributes.toUInt8.toUInt16 := by
  cases slot <;> rfl

/-- A slot is found by its attribute object. -/
theorem ofAttributes?_attributes (slot : Slot) :
    Slot.ofAttributes? slot.attributes = some slot := by
  cases slot <;> rfl

/-- Adding an entry changes the lists of the slots that it counts for. -/
theorem addEntry_apply {t : Tlv} (htag : Tlv.TagOctets t.tag)
    (info : AlgorithmInformation) (slot : Slot) :
    info.addEntry t slot = match counted? slot t with
      | some a => some ((info slot).getD [] ++ [a])
      | none => info slot := by
  unfold AlgorithmInformation.addEntry
  by_cases hnumber : t.number = slot.attributes
  · have honly : t.tag = [slot.attributes.toUInt8] :=
      htag.eq_of_number (hnumber.trans (attributes_number slot))
    rw [hnumber, ofAttributes?_attributes]
    cases t with
    | constructed tag children => rfl
    | primitive tag content =>
        have hcontent : Tlv.content? slot.attributes (.primitive tag content)
            = some content := if_pos hnumber
        have hentry : counted? slot (.primitive tag content)
            = (Attributes.parse content).toOption := if_pos honly
        rw [hcontent, hentry]
        cases hparse : Attributes.parse content with
        | error fault => simp [hparse, Except.toOption]
        | ok a => simp [hparse, Except.toOption, AlgorithmInformation.add]
  · have hnone : counted? slot t = none := by
      cases t with
      | constructed tag children => rfl
      | primitive tag content =>
          refine if_neg fun honly => hnumber ?_
          show Tlv.numberOf tag = slot.attributes
          rw [honly]
          cases slot <;> rfl
    rw [hnone]
    cases hother : Slot.ofAttributes? t.number with
    | none => rfl
    | some other =>
        have hne : slot ≠ other := by
          rintro rfl
          have hfound := List.find?_some hother
          exact hnumber (eq_of_beq hfound).symm
        cases (Tlv.content? t.number t).map Attributes.parse with
        | none => rfl
        | some result =>
            cases result with
            | error fault => rfl
            | ok a => simp [AlgorithmInformation.add, hne]

/-- Adding entries one by one appends to each slot's list, and leaves a slot
without entries as it was. By induction over the entries. -/
theorem foldl_addEntry {entries : List Tlv}
    (htags : ∀ t ∈ entries, Tlv.TagOctets t.tag) (info : AlgorithmInformation)
    (slot : Slot) :
    entries.foldl AlgorithmInformation.addEntry info slot
      = if listed slot entries = [] then info slot
        else some ((info slot).getD [] ++ listed slot entries) := by
  induction entries generalizing info with
  | nil => simp [listed]
  | cons t entries ih =>
      simp only [List.forall_mem_cons] at htags
      rw [List.foldl_cons, ih htags.2, addEntry_apply htags.1]
      unfold listed
      rw [List.filterMap_cons]
      cases counted? slot t with
      | none => rfl
      | some a =>
          by_cases hmore : entries.filterMap (counted? slot) = []
          · simp [hmore]
          · simp [hmore]

/-- Of entries with tags that can be read, every slot has what counts for
it. -/
theorem ofEntries_eq_listing {entries : List Tlv}
    (htags : ∀ t ∈ entries, Tlv.TagOctets t.tag) :
    AlgorithmInformation.ofEntries entries = listing entries := by
  funext slot
  unfold AlgorithmInformation.ofEntries listing
  rw [foldl_addEntry htags]
  rfl

-- =========================================================== the whole list

/-- What a card with the version tells by the entries. -/
def told (version : Version) (entries : List Tlv) : AlgorithmInformation :=
  if version.isBelow ⟨5, 6, 1⟩ then (listing entries).correctCurve25519
  else listing entries

/-- The list of a version by what is found behind the head. -/
def found (version : Version) (row : Bytes) : AlgorithmInformation :=
  let info := AlgorithmInformation.ofEntries (Tlv.parseLenient row)
  if version.isBelow ⟨5, 6, 1⟩ then info.correctCurve25519 else info

/-- Behind a head that announces any length, the list is what is found in
the whole rest. -/
theorem algorithmList_announced {n : Nat} {head : Bytes}
    (h : Announces n head) (version : Version) (row : Bytes) :
    algorithmList version (head ++ row) = .ok (found version row) := by
  unfold algorithmList
  rw [entries_announced h]
  rfl

/-- In a rest that spells entries up to a malformed tail, those entries are
found. -/
theorem found_entries {octets tail : Bytes} {entries : List Tlv}
    (hentries : Tlv.SpellsAll octets entries) (htail : Tlv.Malformed tail)
    (version : Version) :
    found version (octets ++ tail) = told version entries := by
  unfold found told
  rw [Tlv.parseLenient_spelled hentries htail,
    ofEntries_eq_listing hentries.tags]

variable {σ : Type} [Transport σ]

/-- What stands behind the head of an answer decides which list is found, not
the length that the head announces: every head gives the same list, one with
the right length as well. Behind the head may stand entries in a row, each
an object, and then octets that begin with none; then every slot gets what
is listed for it, in order. -/
theorem algorithmInformation_ignores_length {s after : Session σ}
    (hchange : Changeable s) (hnew : s.version.isBelow ⟨5, 2, 0⟩ = false)
    {n : Nat} {head row : Bytes} (hhead : Announces n head)
    (hanswer : (send (getDataCommand ObjectId.algorithmInformation)).run.run s
      = (.ok (head ++ row), after)) :
    ∃ info, algorithmInformation.run.run s = (.ok info, after)
      ∧ (∀ {m : Nat} {other : Bytes}, Announces m other →
        algorithmList s.version (other ++ row) = .ok info)
      ∧ ∀ {octets tail : Bytes} {entries : List Tlv}, row = octets ++ tail →
        Tlv.SpellsAll octets entries → Tlv.Malformed tail →
        info = told s.version entries := by
  refine ⟨found s.version row, ?_, fun hother => ?_, ?_⟩
  · rw [algorithmInformation_asks hchange hnew, run_bind_ok hanswer,
      algorithmList_announced hhead]
    rfl
  · exact algorithmList_announced hother s.version row
  · rintro octets tail entries rfl hentries htail
    exact found_entries hentries htail s.version

/-- Entries for RSA 2048, for P-256 with a length in two octets, of another
kind with an entry inside, for a slot that is not known, with an algorithm
that is not known, and for RSA 4096. -/
def sampleEntries : List Tlv :=
  [.primitive [0xC1] [0x01, 0x08, 0x00, 0x00, 0x11, 0x00],
    .primitive [0xC2] [0x12, 0x2A, 0x86, 0x48, 0xCE, 0x3D, 0x03, 0x01, 0x07],
    .constructed [0xE0] [.primitive [0xC3] [0x01]],
    .primitive [0xC9] [0x16, 0x00], .primitive [0xC3] [0x77],
    .primitive [0xC1] [0x01, 0x10, 0x00, 0x00, 0x11, 0x00]]

/-- The octets of the entries. -/
def sampleRow : Bytes :=
  [0xC1, 0x06, 0x01, 0x08, 0x00, 0x00, 0x11, 0x00,
    0xC2, 0x81, 0x09, 0x12, 0x2A, 0x86, 0x48, 0xCE, 0x3D, 0x03, 0x01, 0x07,
    0xE0, 0x03, 0xC3, 0x01, 0x01, 0xC9, 0x02, 0x16, 0x00, 0xC3, 0x01, 0x77,
    0xC1, 0x06, 0x01, 0x10, 0x00, 0x00, 0x11, 0x00]

/-- The entries behind a head that announces 300 octets, and before an entry
that is cut off. -/
def sampleAnswer : Bytes :=
  [0xFA, 0x82, 0x01, 0x2C] ++ (sampleRow ++ [0xDA, 0x09, 0x13])

/-- A session with a card of version 5.7.1 that gives the answer. -/
def overlongCard : Session ScriptedCard :=
  { willingCard ⟨5, 7, 1⟩ with
    terminal.link.card.script := .queue [sampleAnswer ++ [0x90, 0x00]] }

/-- Of a list that is announced too long and ends in a cut-off entry, the
whole entries are read. -/
theorem algorithmInformation_reads_overlong :
    ∃ info after, algorithmInformation.run.run overlongCard = (.ok info, after)
      ∧ info .sig = some [.rsaOf 2048 .standard, .rsaOf 4096 .standard]
      ∧ info .dec = some [.ec Attributes.ecdhId .secp256r1 .standard]
      ∧ info .aut = none ∧ info .att = none := by
  have hchange : Changeable overlongCard := by
    unfold Changeable
    decide
  have hhead : Announces 300 [0xFA, 0x82, 0x01, 0x2C] :=
    @Announces.two 0x01 0x2C
  have hentries : Tlv.SpellsAll sampleRow sampleEntries :=
    Tlv.spellsAll_of_parseAll rfl
  have htail : Tlv.Malformed [0xDA, 0x09, 0x13] :=
    Tlv.malformed_of_parse (rfl :
      Tlv.parse [0xDA, 0x09, 0x13] = (.error .truncated, [0x13]))
  obtain ⟨after, hanswer⟩ : ∃ after,
      (send (getDataCommand ObjectId.algorithmInformation)).run.run overlongCard
        = (.ok sampleAnswer, after) := ⟨_, rfl⟩
  obtain ⟨info, hrun, -, hinfo⟩ :=
    algorithmInformation_ignores_length hchange (by decide) hhead hanswer
  obtain rfl := hinfo rfl hentries htail
  exact ⟨_, after, hrun, by decide, by decide, by decide, by decide⟩

end SmartCard.OpenPgp.Session
