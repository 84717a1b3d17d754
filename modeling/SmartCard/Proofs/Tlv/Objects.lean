/-
Which octets are objects, and that the reader finds exactly those. `Spells`
says it without a reader: a tag, a length in any of its spellings, and what
the length announces. The reader takes an object in front of any octets
(`Spells.read`), and whatever it takes is one (`read_ok_both`), so that what
it takes and what it leaves is a property of the octets (`parse_ok_iff`).
Reading a row up to the first octets that are no object finds the row
(`parseLenient_spelled`).

# Lengths of constructed objects

The length of a constructed object is held against the sizes of the objects
in it, and a size counts the shortest spelling of its lengths. Where the
lengths inside are spelled shortest, the sizes are the number of octets
behind the head, as they should be; only there does the reader take the
object for what it is. A length that is not inside another object may have
any spelling.
-/
import SmartCard.Proofs.Tlv.Fields

namespace SmartCard.Tlv

-- =============================================================== objects

mutual

/-- The octets are those of an object. -/
inductive Spells : Bytes → Tlv → Prop
  | primitive {tag length content : Bytes} :
      TagOctets tag → isConstructedTag tag = false →
      LengthOctets content.length length →
      Spells (tag ++ length ++ content) (.primitive tag content)
  | constructed {tag length octets : Bytes} {children : List Tlv} :
      TagOctets tag → isConstructedTag tag = true →
      LengthOctets (sizes children) length → SpellsAll octets children →
      Spells (tag ++ length ++ octets) (.constructed tag children)

/-- The octets are those of objects in a row. -/
inductive SpellsAll : Bytes → List Tlv → Prop
  | nil : SpellsAll [] []
  | cons {first more : Bytes} {t : Tlv} {ts : List Tlv} :
      Spells first t → SpellsAll more ts → SpellsAll (first ++ more) (t :: ts)

end

/-- What spells an object begins with a whole tag. -/
theorem Spells.tag_octets {octets : Bytes} {t : Tlv} (h : Spells octets t) :
    TagOctets t.tag := by
  cases h with
  | primitive htag _ _ => exact htag
  | constructed htag _ _ _ => exact htag

/-- A tag number below 100 is that of a tag of one octet. -/
theorem TagOctets.eq_of_number {tag : Bytes} (h : TagOctets tag) {x : UInt8}
    (hnumber : numberOf tag = x.toUInt16) : tag = [x] := by
  have hvalue : Bytes.toNat tag % 65536 = x.toNat := by
    have := congrArg UInt16.toNat hnumber
    simpa [numberOf] using this
  have hsmall := x.toNat_lt
  cases h with
  | @one y =>
      have hy := y.toNat_lt
      simp only [Bytes.toNat, List.foldl_cons, List.foldl_nil] at hvalue
      rw [UInt8.toNat_inj.mp (show y.toNat = x.toNat by omega)]
  | @two y z hlong =>
      -- All low bits are set in the first octet, so it counts for much.
      have hy : 0x1F ≤ y.toNat := by
        have hbits : y.toNat &&& 0x1F = 0x1F := congrArg UInt8.toNat hlong
        rw [← hbits]
        exact Nat.and_le_left
      have hlarge := y.toNat_lt
      have hz := z.toNat_lt
      simp only [Bytes.toNat, List.foldl_cons, List.foldl_nil] at hvalue
      omega
  | @three y z w _ hmore =>
      -- The second octet is not the last, so it is at least 80.
      have hz : 0x80 ≤ z.toNat := UInt8.le_iff_toNat_le.mp (UInt8.not_lt.mp hmore)
      have hlarge := z.toNat_lt
      have hw := w.toNat_lt
      simp only [Bytes.toNat, List.foldl_cons, List.foldl_nil] at hvalue
      omega

/-- What stands behind the head of a constructed object are the objects in
it. -/
theorem Spells.inside {tag length rest : Bytes} {n : Nat} {t : Tlv}
    (htag : TagOctets tag) (hkind : isConstructedTag tag = true)
    (hlength : LengthOctets n length) (h : Spells (tag ++ length ++ rest) t) :
    ∃ children, t = .constructed tag children ∧ SpellsAll rest children := by
  generalize hrow : tag ++ length ++ rest = row at h
  cases h with
  | primitive htag' hkind' hlength' =>
      obtain ⟨rfl, -, -⟩ := head_unique htag hlength htag' hlength' hrow
      rw [hkind] at hkind'
      cases hkind'
  | constructed htag' _ hlength' hall =>
      obtain ⟨rfl, -, rfl⟩ := head_unique htag hlength htag' hlength' hrow
      exact ⟨_, rfl, hall⟩

/-- No object takes less than two octets. -/
theorem Spells.two_le {octets : Bytes} {t : Tlv} (h : Spells octets t) :
    2 ≤ octets.length := by
  cases h with
  | primitive htag _ hlength =>
      exact Nat.le_of_add_left_le (length_behind_head htag hlength _)
  | constructed htag _ hlength _ =>
      exact Nat.le_of_add_left_le (length_behind_head htag hlength _)

theorem lengthSize_pos (n : Nat) : 0 < lengthSize n := by
  unfold lengthSize
  grind

theorem size_pos (t : Tlv) : 0 < t.size := by
  cases t with
  | primitive tag content =>
      have := lengthSize_pos content.length
      simp only [size]
      omega
  | constructed tag children =>
      have := lengthSize_pos (sizes children)
      simp only [size]
      omega

-- =============================================================== reading

mutual

/-- An object in front of any octets is read, with as much fuel as it has
octets. -/
theorem Spells.read {octets : Bytes} {t : Tlv} (h : Spells octets t)
    {fuel : Nat} (hfuel : octets.length ≤ fuel) (rest : Bytes) :
    Tlv.read fuel (octets ++ rest) = (.ok t, rest) := by
  have htwo := h.two_le
  obtain ⟨fuel, rfl⟩ : ∃ less, fuel = less + 1 := ⟨fuel - 1, by omega⟩
  cases h with
  | primitive htag hkind hlength =>
      simp only [Tlv.read, List.append_assoc, readTag_octets htag,
        readLength_octets hlength, hkind]
      simp
  | @constructed tag length octets children htag hkind hlength hall =>
      have hbehind := length_behind_head htag hlength octets
      have hshort : octets.length < fuel := by omega
      simp only [Tlv.read, List.append_assoc, readTag_octets htag,
        readLength_octets hlength, hkind, if_true,
        hall.read (Nat.zero_add _) hshort]

/-- Objects in front of any octets are read, until their sizes reach what
they should fill. -/
theorem SpellsAll.read {octets : Bytes} {ts : List Tlv}
    (h : SpellsAll octets ts) {fuel filled n : Nat}
    (hfilled : filled + sizes ts = n) (hfuel : octets.length < fuel)
    (rest : Bytes) :
    readChildren fuel n filled (octets ++ rest) = (.ok ts, rest) := by
  obtain ⟨fuel, rfl⟩ : ∃ less, fuel = less + 1 := ⟨fuel - 1, by omega⟩
  cases h with
  | nil =>
      have hdone : filled = n := hfilled
      simp [readChildren, hdone]
  | @cons first more t ts hfirst hmore =>
      have hsize := size_pos t
      have htwo := hfirst.two_le
      simp only [sizes] at hfilled
      simp only [List.length_append] at hfuel
      have hopen : filled < n := by omega
      simp only [readChildren, if_pos hopen, List.append_assoc,
        hfirst.read (show first.length ≤ fuel by omega),
        hmore.read (show filled + t.size + sizes ts = n by omega)
          (show more.length < fuel by omega)]

end

/-- What the reader takes is an object, and what it takes for the inside of
one are objects that fill it. The induction is on the fuel, for both at
once. -/
theorem read_ok_both (fuel : Nat) :
    (∀ {input rest : Bytes} {t : Tlv}, Tlv.read fuel input = (.ok t, rest) →
        ∃ octets, input = octets ++ rest ∧ Spells octets t)
      ∧ ∀ {n filled : Nat} {input rest : Bytes} {ts : List Tlv},
        readChildren fuel n filled input = (.ok ts, rest) →
        ∃ octets, input = octets ++ rest ∧ SpellsAll octets ts
          ∧ filled + sizes ts = n := by
  induction fuel with
  | zero => simp [Tlv.read, readChildren]
  | succ fuel ih =>
      obtain ⟨ihObject, ihRow⟩ := ih
      refine ⟨fun {input rest t} h => ?_, fun {n filled input rest ts} h => ?_⟩
      · rcases htag : readTag input with ⟨_ | tag, afterTag⟩
        · simp [Tlv.read, htag] at h
        rcases hlength : readLength afterTag with ⟨_ | n, afterLength⟩
        · simp [Tlv.read, htag, hlength] at h
        simp only [Tlv.read, htag, hlength] at h
        obtain ⟨rfl, hoctets⟩ := readTag_ok htag
        obtain ⟨length, rfl, hspelling⟩ := readLength_ok hlength
        cases hkind : isConstructedTag tag with
        | false =>
            simp only [hkind, Bool.false_eq_true, if_false] at h
            split at h
            next hcontent =>
              simp only [Prod.mk.injEq, Except.ok.injEq] at h
              obtain ⟨rfl, rfl⟩ := h
              refine ⟨tag ++ length ++ afterLength.take n, ?_,
                .primitive hoctets hkind (hcontent.symm ▸ hspelling)⟩
              simp only [List.append_assoc, List.take_append_drop]
            next => simp at h
        | true =>
            rcases hrow : readChildren fuel n 0 afterLength with ⟨_ | ts, rest'⟩
            · simp [hkind, hrow] at h
            simp only [hkind, if_true, hrow, Prod.mk.injEq, Except.ok.injEq] at h
            obtain ⟨rfl, rfl⟩ := h
            obtain ⟨octets, rfl, hall, hfilled⟩ := ihRow hrow
            rw [Nat.zero_add] at hfilled
            refine ⟨tag ++ length ++ octets, ?_,
              .constructed hoctets hkind (hfilled.symm ▸ hspelling) hall⟩
            simp only [List.append_assoc]
      · by_cases hopen : filled < n
        · rcases hfirst : Tlv.read fuel input with ⟨_ | t, afterFirst⟩
          · simp [readChildren, hopen, hfirst] at h
          rcases hmore : readChildren fuel n (filled + t.size) afterFirst
            with ⟨_ | ts', rest'⟩
          · simp [readChildren, hopen, hfirst, hmore] at h
          simp only [readChildren, if_pos hopen, hfirst, hmore, Prod.mk.injEq,
            Except.ok.injEq] at h
          obtain ⟨rfl, rfl⟩ := h
          obtain ⟨first, rfl, hobject⟩ := ihObject hfirst
          obtain ⟨more, rfl, hall, hfilled⟩ := ihRow hmore
          refine ⟨first ++ more, by simp, .cons hobject hall, ?_⟩
          simp only [sizes]
          omega
        · by_cases hdone : filled = n
          · simp only [readChildren, if_neg hopen, if_pos hdone, Prod.mk.injEq,
              Except.ok.injEq] at h
            obtain ⟨rfl, rfl⟩ := h
            exact ⟨[], rfl, .nil, hdone⟩
          · simp [readChildren, hopen, hdone] at h

/-- The reader finds an object in front exactly where one is, and leaves
what follows it. -/
theorem parse_ok_iff {input rest : Bytes} {t : Tlv} :
    parse input = (.ok t, rest)
      ↔ ∃ octets, input = octets ++ rest ∧ Spells octets t := by
  refine ⟨(read_ok_both _).1, ?_⟩
  rintro ⟨octets, rfl, h⟩
  exact h.read (by simp only [List.length_append]; omega) rest

/-- An object that is read as the whole input is the whole input. -/
theorem spells_of_ofBytes {input : Bytes} {t : Tlv}
    (h : ofBytes input = .ok t) : Spells input t := by
  unfold ofBytes at h
  split at h
  next result hparse =>
    obtain ⟨octets, rfl, hspells⟩ := parse_ok_iff.mp (hparse.trans (by rw [h]))
    rwa [List.append_nil]
  next => cases h

/-- The whole input is read as an object exactly where it is one. -/
theorem ofBytes_ok_iff {input : Bytes} {t : Tlv} :
    ofBytes input = .ok t ↔ Spells input t := by
  refine ⟨spells_of_ofBytes, fun h => ?_⟩
  have hparse : parse input = (.ok t, []) :=
    parse_ok_iff.mpr ⟨input, (List.append_nil input).symm, h⟩
  unfold ofBytes
  rw [hparse]

/-- Octets are those of one object only. -/
theorem Spells.unique {octets : Bytes} {t t' : Tlv} (h : Spells octets t)
    (h' : Spells octets t') : t = t' :=
  Except.ok.inj ((ofBytes_ok_iff.mpr h).symm.trans (ofBytes_ok_iff.mpr h'))

-- ================================================================== rows

/-- No object stands in front. -/
def Malformed (input : Bytes) : Prop :=
  ∀ octets rest t, input = octets ++ rest → ¬ Spells octets t

theorem malformed_of_parse {input rest : Bytes} {fault : TlvFault}
    (h : parse input = (.error fault, rest)) : Malformed input := by
  intro octets more t hinput hspells
  have hread := parse_ok_iff.mpr ⟨octets, hinput, hspells⟩
  cases h.symm.trans hread

theorem malformed_nil : Malformed [] :=
  malformed_of_parse (rfl : parse [] = (.error .truncated, []))

/-- At a malformed rest, reading ends. -/
theorem parseLenient_go_malformed {input : Bytes} (h : Malformed input)
    (steps : Nat) : parseLenient.go steps input = [] := by
  cases input with
  | nil => simp [parseLenient.go]
  | cons x more =>
      cases steps with
      | zero => rfl
      | succ steps =>
          rcases hparse : parse (x :: more) with ⟨_ | t, rest⟩
          · simp [parseLenient.go, hparse]
          · obtain ⟨octets, hinput, hspells⟩ := parse_ok_iff.mp hparse
            exact absurd hspells (h octets rest t hinput)

/-- An object in front is read, and reading goes on behind it. -/
theorem parseLenient_go_cons {octets : Bytes} {t : Tlv}
    (h : Spells octets t) (steps : Nat) (rest : Bytes) :
    parseLenient.go (steps + 1) (octets ++ rest)
      = t :: parseLenient.go steps rest := by
  have hparse : parse (octets ++ rest) = (.ok t, rest) :=
    parse_ok_iff.mpr ⟨octets, rfl, h⟩
  rcases hinput : octets ++ rest with _ | ⟨x, more⟩
  · have htwo := h.two_le
    simp_all
  · rw [hinput] at hparse
    simp only [parseLenient.go, hparse]

/-- Objects up to a malformed tail are all read, in order. By induction over
the objects. -/
theorem parseLenient_go_spelled {tail : Bytes} (htail : Malformed tail)
    {ts : List Tlv} {octets : Bytes} (h : SpellsAll octets ts) {steps : Nat}
    (hsteps : octets.length ≤ steps) :
    parseLenient.go steps (octets ++ tail) = ts := by
  induction ts generalizing octets steps with
  | nil =>
      cases h
      exact parseLenient_go_malformed htail steps
  | cons t ts ih =>
      cases h with
      | @cons first more _ _ hfirst hmore =>
          have htwo := hfirst.two_le
          simp only [List.length_append] at hsteps
          obtain ⟨steps, rfl⟩ : ∃ less, steps = less + 1 := ⟨steps - 1, by omega⟩
          rw [List.append_assoc, parseLenient_go_cons hfirst,
            ih hmore (by omega)]

theorem SpellsAll.tags {octets : Bytes} {ts : List Tlv}
    (h : SpellsAll octets ts) : ∀ t ∈ ts, TagOctets t.tag := by
  induction ts generalizing octets with
  | nil => simp
  | cons t ts ih =>
      cases h with
      | cons hfirst hmore =>
          simpa using ⟨hfirst.tag_octets, ih hmore⟩

/-- Objects in a row are read up to where there is no further one. -/
theorem parseLenient_spelled {octets tail : Bytes} {ts : List Tlv}
    (h : SpellsAll octets ts) (htail : Malformed tail) :
    parseLenient (octets ++ tail) = ts :=
  parseLenient_go_spelled htail h (by simp)

/-- What is read as a row of objects is one. -/
theorem spellsAll_of_parseAll {input : Bytes} {ts : List Tlv}
    (h : parseAll input = .ok ts) : SpellsAll input ts := by
  unfold parseAll at h
  generalize input.length = steps at h
  induction steps generalizing input ts with
  | zero =>
      cases input with
      | nil =>
          obtain rfl := Except.ok.inj h
          exact .nil
      | cons x more => cases h
  | succ steps ih =>
      cases input with
      | nil =>
          obtain rfl := Except.ok.inj h
          exact .nil
      | cons x more =>
          simp only [parseAll.go] at h
          rcases hparse : parse (x :: more) with ⟨_ | t, rest⟩
          · rw [hparse] at h
            cases h
          · rw [hparse] at h
            obtain ⟨octets, hinput, hspells⟩ := parse_ok_iff.mp hparse
            cases hmore : parseAll.go steps rest with
            | error fault =>
                simp only [hmore] at h
                cases h
            | ok ts =>
                simp only [hmore] at h
                obtain rfl := Except.ok.inj h
                rw [hinput]
                exact .cons hspells (ih hmore)

end SmartCard.Tlv
