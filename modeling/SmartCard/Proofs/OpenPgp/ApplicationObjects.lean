/-
What the application tells about itself, read off the tree of objects that
it comes in. Everything is looked up in what is collected from the tree, so
everything is the first occurrence of its number, however deep
(`parse_ok_iff`). Reading succeeds if and only if the input is one object
with the right tag and in its tree there are an identifier and, first of
their numbers, capabilities and a PIN status that are long enough
(`Complete`). No other object of the tree can make it fail: an algorithm that
can not be read is as good as none.
-/
import SmartCard.OpenPgp.ApplicationData
import SmartCard.Proofs.Exchange
import SmartCard.Proofs.Tlv.FirstOccurrences
import SmartCard.Proofs.Tlv.Objects

namespace SmartCard.OpenPgp

-- =========================================================== what is read

/-- Capabilities are read from eight octets or more. -/
theorem Capabilities.exists_parse_iff (content : Bytes) :
    (∃ c, Capabilities.parse content = .ok c) ↔ 8 ≤ content.length := by
  match content with
  | [] | [_] | [_, _] | [_, _, _] | [_, _, _, _] | [_, _, _, _, _]
  | [_, _, _, _, _, _] | [_, _, _, _, _, _, _] => simp [parse]
  | _ :: _ :: _ :: _ :: _ :: _ :: _ :: _ :: _ => simp [parse]

/-- The PIN status is read from seven octets or more. -/
theorem PinStatus.exists_parse_iff (content : Bytes) :
    (∃ s, PinStatus.parse content = .ok s) ↔ 7 ≤ content.length := by
  match content with
  | [] | [_] | [_, _] | [_, _, _] | [_, _, _, _] | [_, _, _, _, _]
  | [_, _, _, _, _, _] => simp [parse]
  | _ :: _ :: _ :: _ :: _ :: _ :: _ :: _ => simp [parse]

namespace ApplicationData

open Tlv (First)

/-- The data are those of the tree. -/
structure Describes (t : Tlv) (d : ApplicationData) : Prop where
  tag : t.tag = [0x6E]
  aid : First ObjectId.aid t d.aid
  capabilities : ∃ content, First ObjectId.extendedCapabilities t content
    ∧ Capabilities.parse content = .ok d.capabilities
  pinStatus : ∃ content, First ObjectId.pinStatus t content
    ∧ PinStatus.parse content = .ok d.pinStatus
  objects : d.objects = t.flatten []

/-- The tree has the tag of application data, and what must be there is
there first in a form that can be read. -/
structure Complete (t : Tlv) : Prop where
  tag : t.tag = [0x6E]
  aid : ∃ content, First ObjectId.aid t content
  capabilities : ∃ content, First ObjectId.extendedCapabilities t content
    ∧ 8 ≤ content.length
  pinStatus : ∃ content, First ObjectId.pinStatus t content
    ∧ 7 ≤ content.length

/-- The application data are complete exactly when they describe
something. -/
theorem complete_iff {t : Tlv} : Complete t ↔ ∃ d, Describes t d := by
  constructor
  · rintro ⟨htag, ⟨aid, haid⟩, ⟨caps, hcaps, hlong⟩, ⟨pins, hpins, hlong'⟩⟩
    obtain ⟨capabilities, hread⟩ := (Capabilities.exists_parse_iff caps).mpr hlong
    obtain ⟨pinStatus, hread'⟩ := (PinStatus.exists_parse_iff pins).mpr hlong'
    exact ⟨⟨aid, capabilities, pinStatus, t.flatten []⟩, htag, haid,
      ⟨caps, hcaps, hread⟩, ⟨pins, hpins, hread'⟩, rfl⟩
  · rintro ⟨d, htag, haid, ⟨caps, hcaps, hread⟩, ⟨pins, hpins, hread'⟩, -⟩
    exact ⟨htag, ⟨_, haid⟩,
      ⟨caps, hcaps, (Capabilities.exists_parse_iff caps).mp ⟨_, hread⟩⟩,
      ⟨pins, hpins, (PinStatus.exists_parse_iff pins).mp ⟨_, hread'⟩⟩⟩

-- ================================================================ reading

/-- Looking an object up in the flattened data finds its first
occurrence. -/
theorem lookup_objects_iff {t : Tlv} {object : ObjectId} {content : Bytes} :
    (t.flatten []).lookup object = some content ↔ First object t content := by
  rw [Tlv.lookup_flatten_iff]
  simp

/-- A required object is there exactly when it occurs, and has the content
of its first occurrence. -/
theorem required_ok_iff {t : Tlv} {object : ObjectId} {fault : DataFault}
    {content : Bytes} :
    required (t.flatten []) object fault = .ok content
      ↔ First object t content := by
  rw [← lookup_objects_iff]
  unfold required
  split
  · next h => rw [h, Except.ok.injEq, Option.some.injEq]
  · next h => simp [h]

/-- Only one tag has the number of application data. -/
theorem number_eq_iff {t : Tlv} (h : Tlv.TagOctets t.tag) :
    t.number = ObjectId.applicationData ↔ t.tag = [0x6E] := by
  refine ⟨fun hnumber => h.eq_of_number hnumber, fun htag => ?_⟩
  unfold Tlv.number
  rw [htag]
  rfl

/-- Data are read exactly if the input is one object, from the tree of that
object. -/
theorem parse_ok_iff {data : Bytes} {d : ApplicationData} :
    parse data = .ok d ↔ ∃ t, Tlv.Spells data t ∧ Describes t d := by
  unfold parse
  rw [bind_ok_iff]
  refine exists_congr fun t => ?_
  rw [mapError_ok_iff, Tlv.ofBytes_ok_iff]
  refine and_congr_right fun hspells => ?_
  by_cases hnumber : t.number = ObjectId.applicationData
  · have htag := (number_eq_iff hspells.tag_octets).mp hnumber
    simp only [hnumber, ne_eq, not_true_eq_false, if_false, bind_ok_iff,
      mapError_ok_iff, required_ok_iff]
    constructor
    · rintro ⟨aid, haid, caps, hcaps, capabilities, hread, pins, hpins,
        pinStatus, hread', hd⟩
      obtain rfl := Except.ok.inj hd
      exact ⟨htag, haid, ⟨caps, hcaps, hread⟩, ⟨pins, hpins, hread'⟩, rfl⟩
    · rintro ⟨-, haid, ⟨caps, hcaps, hread⟩, ⟨pins, hpins, hread'⟩, hobjects⟩
      refine ⟨_, haid, caps, hcaps, _, hread, pins, hpins, _, hread', ?_⟩
      rw [← hobjects]
      rfl
  · simp only [hnumber, ne_eq, not_false_eq_true, if_true]
    refine ⟨fun h => ?_, fun h => ?_⟩
    · cases h
    · exact absurd ((number_eq_iff hspells.tag_octets).mpr h.tag) hnumber

-- ============================================================= attributes

/-- A slot has the algorithm that its object is read as, where that is the
first with its number. -/
theorem Describes.attributes_iff {t : Tlv} {d : ApplicationData}
    (h : Describes t d) (slot : Slot) (a : Attributes) :
    d.attributes slot = some a
      ↔ ∃ content, First slot.attributes t content
        ∧ Attributes.parse content = .ok a := by
  unfold attributes object
  rw [h.objects]
  simp only [← lookup_objects_iff]
  cases (t.flatten []).lookup slot.attributes with
  | none => simp
  | some content =>
      cases hread : Attributes.parse content with
      | error fault => simp [hread]
      | ok b => simp [hread]

/-- Collecting from a tree leaves every number that was there as it was, gives
every other number that occurs in the tree the octets of its first
occurrence, and adds nothing else. Hence application data are read if and
only if the input is one object, its tag is 6E, and in its tree, however
deep, there are an identifier, a first C0 of eight octets or more and a first
C4 of seven or more. What is read comes from these, and a slot has the
algorithm that the first C1, C2, C3 or DA is read as: none where that one is
missing or can not be read. -/
theorem first_occurrences_read (found : Tlv.Contents) (tree : Tlv)
    (data : Bytes) :
    (∀ number content, (tree.flatten found).lookup number = some content
        ↔ found.lookup number = some content
          ∨ found.lookup number = none ∧ First number tree content)
      ∧ ((found.map Prod.fst).Nodup →
        ((tree.flatten found).map Prod.fst).Nodup)
      ∧ ((∃ d, parse data = .ok d)
        ↔ ∃ t, Tlv.Spells data t ∧ Complete t)
      ∧ ∀ d t, parse data = .ok d → Tlv.Spells data t →
        Describes t d ∧ ∀ slot a, d.attributes slot = some a
          ↔ ∃ content, First slot.attributes t content
            ∧ Attributes.parse content = .ok a := by
  refine ⟨fun number content => ?_, fun h => ?_, ?_, ?_⟩
  · exact Tlv.lookup_flatten_iff
  · exact Tlv.nodup_flatten h tree
  · simp only [parse_ok_iff, complete_iff]
    rw [exists_comm]
    exact exists_congr fun t => exists_and_left
  · intro d t hd hspells
    obtain ⟨t', hspells', hdescribes⟩ := parse_ok_iff.mp hd
    obtain rfl : t' = t := Tlv.Spells.unique hspells' hspells
    exact ⟨hdescribes, hdescribes.attributes_iff⟩

/-- Application data with two objects C1 and two objects C2, at different
depths. The first C2 can not be read as an algorithm, the second one can. -/
def nestedTree : Tlv :=
  .constructed [0x6E] [
    .primitive [0x4F] [0xAA, 0xBB],
    .constructed [0x73] [
      .primitive [0xC0] [0x7D, 0x00, 0x0B, 0xFE, 0x08, 0x00, 0x00, 0x00],
      .primitive [0xC1] [0x01, 0x08, 0x00, 0x00, 0x11, 0x00],
      .constructed [0x73] [
        .primitive [0xC1] [0x01, 0x0C, 0x00, 0x00, 0x11, 0x00],
        .primitive [0xC2] [0x77],
        .primitive [0xC4] [0xFF, 0x7F, 0x7F, 0x7F, 0x03, 0x00, 0x03]]],
    .primitive [0xC3] [0x16, 0x2B, 0x06, 0x01, 0x04, 0x01, 0xDA, 0x47, 0x0F, 0x01],
    .primitive [0xC2] [0x12, 0x2A, 0x86, 0x48, 0xCE, 0x3D, 0x03, 0x01, 0x07]]

/-- The octets of these data. -/
def nestedData : Bytes :=
  [0x6E, 0x45, 0x4F, 0x02, 0xAA, 0xBB, 0x73, 0x28,
    0xC0, 0x08, 0x7D, 0x00, 0x0B, 0xFE, 0x08, 0x00, 0x00, 0x00,
    0xC1, 0x06, 0x01, 0x08, 0x00, 0x00, 0x11, 0x00, 0x73, 0x14,
    0xC1, 0x06, 0x01, 0x0C, 0x00, 0x00, 0x11, 0x00, 0xC2, 0x01, 0x77,
    0xC4, 0x07, 0xFF, 0x7F, 0x7F, 0x7F, 0x03, 0x00, 0x03,
    0xC3, 0x0A, 0x16, 0x2B, 0x06, 0x01, 0x04, 0x01, 0xDA, 0x47, 0x0F, 0x01,
    0xC2, 0x09, 0x12, 0x2A, 0x86, 0x48, 0xCE, 0x3D, 0x03, 0x01, 0x07]

/-- The first C1 counts, although another follows it further inside, and the
first C2, although only the second can be read. -/
theorem first_occurrences_nested :
    ∃ d, parse nestedData = .ok d
      ∧ (d.objects.map Prod.fst).Nodup
      ∧ d.attributes .sig = some (.rsaOf 2048 .standard)
      ∧ d.attributes .dec = none
      ∧ d.attributes .aut = some (.ec Attributes.eddsaId .ed25519 .standard)
      ∧ d.attributes .att = none := by
  have hspells : Tlv.Spells nestedData nestedTree :=
    Tlv.spells_of_ofBytes rfl
  have hfirst : ∀ {number content}, nestedTree.leaves.lookup number = some content →
      First number nestedTree content := Tlv.lookup_leaves_iff.mp
  have hcomplete : Complete nestedTree :=
    ⟨rfl, ⟨_, hfirst rfl⟩, ⟨_, hfirst rfl, by decide⟩,
      ⟨_, hfirst rfl, by decide⟩⟩
  obtain ⟨-, hnodup, hread, hslots⟩ :=
    first_occurrences_read [] nestedTree nestedData
  obtain ⟨d, hd⟩ := hread.mpr ⟨nestedTree, hspells, hcomplete⟩
  obtain ⟨hdescribes, hattributes⟩ := hslots d nestedTree hd hspells
  refine ⟨d, hd, ?_, ?_, ?_, ?_, ?_⟩
  · rw [hdescribes.objects]
    exact hnodup List.nodup_nil
  · exact (hattributes _ _).mpr ⟨_, hfirst rfl, rfl⟩
  · refine Option.eq_none_iff_forall_ne_some.mpr fun a ha => ?_
    obtain ⟨content, hcontent, hparse⟩ := (hattributes _ a).mp ha
    have hlookup := Tlv.lookup_leaves_iff.mpr hcontent
    obtain rfl : [0x77] = content := Option.some.inj hlookup
    cases hparse
  · exact (hattributes _ _).mpr ⟨_, hfirst rfl, rfl⟩
  · refine Option.eq_none_iff_forall_ne_some.mpr fun a ha => ?_
    obtain ⟨content, hcontent, -⟩ := (hattributes _ a).mp ha
    cases Tlv.lookup_leaves_iff.mpr hcontent

end ApplicationData

end SmartCard.OpenPgp
