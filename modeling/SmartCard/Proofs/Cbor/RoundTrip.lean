/-
What was written is read back: `decode_encode`, for every value that `Fits`.
The reader accepts more than the writer writes, so this is one direction
only; no octets are read that the value does not have, whatever follows it.

# What does not fit

Lengths and counts go into 64 bits, and the reader follows arrays, maps and
tags to a limited depth. Big numbers have tags 2 and 3, and a small one is
read as the number that it is; so a value under these tags may come back as
another one, and is left out here.

# Fuel

A value of n octets takes 2n steps at most, since each step but the ones
that end a row has an octet of its own (`length_encode_pos`). The induction
is on the way a value fits, and the fuel is free above that number.
-/
import SmartCard.Cbor.Decode
import SmartCard.Cbor.Encode

namespace SmartCard.Cbor

-- ================================================================ what fits

/-- One more than the largest number that a head holds. -/
def headLimit : Nat := 0x10000000000000000

/-- Values that are read back as they were written, `depth` levels deep at
most. -/
inductive Fits : (depth : Nat) → Cbor → Prop
  | unsigned {depth : Nat} (n : UInt64) : Fits depth (.unsigned n)
  | negative {depth : Nat} (n : UInt64) : Fits depth (.negative n)
  | bytes {depth : Nat} {octets : Bytes} :
      octets.length < headLimit → Fits depth (.bytes octets)
  | text {depth : Nat} {t : String} :
      (Utf8.encode t).length < headLimit → Fits depth (.text t)
  | array {depth : Nat} {items : List Cbor} :
      items.length < headLimit → (∀ item ∈ items, Fits depth item) →
      Fits (depth + 1) (.array items)
  | map {depth : Nat} {entries : List (Cbor × Cbor)} :
      entries.length < headLimit → (∀ entry ∈ entries, Fits depth entry.1) →
      (∀ entry ∈ entries, Fits depth entry.2) →
      Fits (depth + 1) (.map entries)
  | tag {depth : Nat} {number : UInt64} {value : Cbor} :
      number ≠ 2 → number ≠ 3 → Fits depth value →
      Fits (depth + 1) (.tag number value)
  | bool {depth : Nat} (value : Bool) : Fits depth (.bool value)
  | null {depth : Nat} : Fits depth .null
  | float {depth : Nat} (bits : UInt64) : Fits depth (.float bits)

-- =================================================================== heads

/-- So many octets are taken off the front of any input that has them. -/
theorem take?_append (front rest : Bytes) :
    take? front.length (front ++ rest) = some (front, rest) := by
  unfold take?
  rw [List.take_left, List.drop_left]
  exact if_pos rfl

/-- The numbers behind a head: what stands in its five low bits, and how
many octets follow. -/
inductive Wide : (minor width : Nat) → Prop
  | one : Wide 24 1
  | two : Wide 25 2
  | four : Wide 26 4
  | eight : Wide 27 8

/-- None of these announces an indefinite length. -/
theorem Wide.minor_lt {minor width : Nat} (h : Wide minor width) :
    minor < 31 := by
  cases h <;> decide

/-- A number behind a head is read as the number written, up to the range
of its octets. -/
theorem readNumber_wide {minor width : Nat} (h : Wide minor width) (n : Nat)
    (rest : Bytes) :
    readNumber minor (Bytes.bigEndian width n ++ rest)
      = some (n % Nat.pow 256 width, rest) := by
  have htake := take?_append (Bytes.bigEndian width n) rest
  rw [Bytes.length_bigEndian] at htake
  have hread : readNumber minor (Bytes.bigEndian width n ++ rest)
      = (take? width (Bytes.bigEndian width n ++ rest)).map
        fun taken => (Bytes.toNat taken.1, taken.2) := by
    cases h <;> rfl
  rw [hread, htake, ← Bytes.toNat_bigEndian]
  rfl

/-- A small number is in the head itself, and takes no octets. -/
theorem readNumber_small {n : Nat} (h : n < 24) (input : Bytes) :
    readNumber n input = some (n, input) := by
  unfold readNumber
  split
  · omega
  · omega
  · omega
  · omega
  · omega
  · exact if_pos h

/-- The first octet is the major type and what stands in the low bits, and
comes apart again. -/
theorem readHead_cons {major minor n : Nat} {input rest : Bytes}
    (hmajor : major < 8) (hminor : minor < 32)
    (h : readNumber minor input = some (n, rest)) :
    readHead (UInt8.ofNat (32 * major + minor) :: input)
      = some (⟨major, minor, n⟩, rest) := by
  have hfirst : (UInt8.ofNat (32 * major + minor)).toNat
      = 32 * major + minor := by
    rw [UInt8.toNat_ofNat']
    omega
  have hdiv : (32 * major + minor) / 32 = major := by omega
  have hmod : (32 * major + minor) % 32 = minor := by omega
  unfold readHead
  simp only [hfirst, hdiv, hmod, h, Option.bind_eq_bind, Option.bind_some,
    Option.pure_def]

/-- A head is read back, and its length is definite. -/
theorem readHead_head (major : Nat) {n : Nat} (hmajor : major < 8)
    (hn : n < headLimit) (rest : Bytes) :
    ∃ minor, minor ≠ 31
      ∧ readHead (head major n ++ rest) = some (⟨major, minor, n⟩, rest) := by
  unfold headLimit at hn
  unfold head
  have hwide : ∀ {minor width : Nat}, Wide minor width →
      n < Nat.pow 256 width → ∃ read, read ≠ 31
        ∧ readHead ((UInt8.ofNat (32 * major + minor)
            :: Bytes.bigEndian width n) ++ rest)
          = some (⟨major, read, n⟩, rest) := by
    intro minor width hwide hfits
    have hlt := hwide.minor_lt
    refine ⟨minor, by omega, readHead_cons hmajor (by omega) ?_⟩
    rw [List.append_eq, readNumber_wide hwide, Nat.mod_eq_of_lt hfits]
  -- each test that fails leaves the next field wide enough
  by_cases h1 : n < 24
  · rw [if_pos h1]
    exact ⟨n, by omega, readHead_cons hmajor (by omega)
      (readNumber_small h1 rest)⟩
  rw [if_neg h1]
  by_cases h2 : n < 0x100
  · rw [if_pos h2]
    exact hwide .one h2
  rw [if_neg h2]
  by_cases h3 : n < 0x10000
  · rw [if_pos h3]
    exact hwide .two h3
  rw [if_neg h3]
  by_cases h4 : n < 0x100000000
  · rw [if_pos h4]
    exact hwide .four h4
  rw [if_neg h4]
  exact hwide .eight hn

theorem length_head_pos (major n : Nat) : 0 < (head major n).length := by
  unfold head
  split
  · simp
  split
  · simp
  split
  · simp
  split
  · simp
  · simp

-- ================================================================= leaves

/-- A string of definite length is one piece. -/
theorem readString_definite (major : Nat) {minor : Nat}
    (hminor : minor ≠ 31) (fuel : Nat) (octets rest : Bytes) :
    readString fuel ⟨major, minor, octets.length⟩ (octets ++ rest)
      = some ([octets], rest) := by
  have hdefinite : (⟨major, minor, octets.length⟩ : Head).isIndefinite
      = false := by
    simp [Head.isIndefinite, hminor]
  unfold readString
  rw [hdefinite, if_neg (by decide), take?_append]
  rfl

/-- Text comes back from its octets. -/
theorem decode?_encode (t : String) : Utf8.decode? (Utf8.encode t) = some t := by
  have hoctets : (⟨(Utf8.encode t).toArray⟩ : ByteArray) = t.toByteArray := rfl
  unfold Utf8.decode?
  rw [hoctets]
  unfold String.fromUTF8?
  rw [dif_pos t.isValidUTF8]
  rfl

theorem joinText_single (t : String) :
    joinText [Utf8.encode t] = some t := by
  unfold joinText
  simp [decode?_encode, String.join]

-- ======================================================= floating point

/-- Only the bits of the format count. -/
theorem widen_mod (f : FloatFormat) (bits : Nat) :
    f.widen (bits % Nat.pow 2 (f.exponent + f.fraction + 1))
      = f.widen bits := by
  have hsign : bits % Nat.pow 2 (f.exponent + f.fraction + 1)
        / Nat.pow 2 (f.exponent + f.fraction) % 2
      = bits / Nat.pow 2 (f.exponent + f.fraction) % 2 := by
    show bits % (Nat.pow 2 (f.exponent + f.fraction) * 2) / _ % 2 = _
    rw [Nat.mod_mul_right_div_self, Nat.mod_mod]
  have hsplit : Nat.pow 2 (f.exponent + f.fraction + 1)
      = Nat.pow 2 f.fraction * (Nat.pow 2 f.exponent * 2) := by
    show 2 ^ (f.exponent + f.fraction + 1)
      = 2 ^ f.fraction * (2 ^ f.exponent * 2)
    rw [Nat.pow_succ, Nat.pow_add]
    ac_rfl
  have hexponent : bits % Nat.pow 2 (f.exponent + f.fraction + 1)
        / Nat.pow 2 f.fraction % Nat.pow 2 f.exponent
      = bits / Nat.pow 2 f.fraction % Nat.pow 2 f.exponent := by
    rw [hsplit, Nat.mod_mul_right_div_self, Nat.mod_mul_right_mod]
  have hfraction : bits % Nat.pow 2 (f.exponent + f.fraction + 1)
        % Nat.pow 2 f.fraction = bits % Nat.pow 2 f.fraction := by
    rw [hsplit, Nat.mod_mul_right_mod]
  unfold FloatFormat.widen
  simp only [hsign, hexponent, hfraction]

/-- A double is narrowed only where widening brings it back. -/
theorem widen_of_narrow {f : FloatFormat} {bits narrow : Nat}
    (h : f.narrow? bits = some narrow) : f.widen narrow = bits := by
  unfold FloatFormat.narrow? at h
  simp only [] at h
  split at h
  · next hsame =>
      injection h with h
      rw [← h]
      exact hsame
  · cases h

/-- A double that was narrowed to 16 bits is read as itself. -/
theorem simple_half {bits : UInt64} {narrow : Nat}
    (h : FloatFormat.half.narrow? bits.toNat = some narrow) :
    simple ⟨7, 25, narrow % Nat.pow 256 2⟩ = some (.float bits) := by
  have hwiden : FloatFormat.half.widen (narrow % Nat.pow 2 16) = bits.toNat :=
    (widen_mod FloatFormat.half narrow).trans (widen_of_narrow h)
  have hrange : Nat.pow 256 2 = Nat.pow 2 16 := rfl
  have hvalue : ∀ x, simple ⟨7, 25, x⟩
      = some (.float (UInt64.ofNat (FloatFormat.half.widen x))) :=
    fun _ => rfl
  rw [hvalue, hrange, hwiden, UInt64.ofNat_toNat]

theorem simple_single {bits : UInt64} {narrow : Nat}
    (h : FloatFormat.single.narrow? bits.toNat = some narrow) :
    simple ⟨7, 26, narrow % Nat.pow 256 4⟩ = some (.float bits) := by
  have hwiden : FloatFormat.single.widen (narrow % Nat.pow 2 32)
      = bits.toNat :=
    (widen_mod FloatFormat.single narrow).trans (widen_of_narrow h)
  have hrange : Nat.pow 256 4 = Nat.pow 2 32 := rfl
  have hvalue : ∀ x, simple ⟨7, 26, x⟩
      = some (.float (UInt64.ofNat (FloatFormat.single.widen x))) :=
    fun _ => rfl
  rw [hvalue, hrange, hwiden, UInt64.ofNat_toNat]

theorem simple_double (bits : UInt64) :
    simple ⟨7, 27, bits.toNat % Nat.pow 256 8⟩ = some (.float bits) := by
  have hrange : UInt64.size = Nat.pow 256 8 := rfl
  have hfits := Nat.lt_of_lt_of_eq bits.toNat_lt_size hrange
  have hvalue : ∀ x, simple ⟨7, 27, x⟩
      = some (.float (UInt64.ofNat x)) := fun _ => rfl
  rw [hvalue, Nat.mod_eq_of_lt hfits, UInt64.ofNat_toNat]

/-- A double is written in the shortest of three formats that holds it. -/
theorem encodeFloat_cases (P : Bytes → Prop) (bits : Nat)
    (hhalf : ∀ n, FloatFormat.half.narrow? bits = some n →
      P (0xF9 :: Bytes.bigEndian 2 n))
    (hsingle : ∀ n, FloatFormat.single.narrow? bits = some n →
      P (0xFA :: Bytes.bigEndian 4 n))
    (hdouble : P (0xFB :: Bytes.bigEndian 8 bits)) : P (encodeFloat bits) := by
  -- the one place where this is unfolded: the formats are slow to check
  unfold encodeFloat
  cases hnarrow : FloatFormat.half.narrow? bits with
  | some n => exact hhalf n hnarrow
  | none =>
      cases hwider : FloatFormat.single.narrow? bits with
      | some n => exact hsingle n hwider
      | none => exact hdouble

/-- A number in one of the three formats is read as its double. -/
theorem readHead_float (bits : UInt64) (rest : Bytes) :
    ∃ h, readHead (encodeFloat bits.toNat ++ rest) = some (h, rest)
      ∧ h.major = 7 ∧ simple h = some (.float bits) := by
  have hread : ∀ (first : UInt8) {minor width : Nat} (n : Nat),
      first = UInt8.ofNat (32 * 7 + minor) → Wide minor width →
      readHead ((first :: Bytes.bigEndian width n) ++ rest)
        = some (⟨7, minor, n % Nat.pow 256 width⟩, rest) := by
    intro first minor width n hfirst hwide
    have hlt := hwide.minor_lt
    rw [hfirst]
    exact readHead_cons (by decide) (by omega) (readNumber_wide hwide n rest)
  refine encodeFloat_cases (fun octets => ∃ h,
    readHead (octets ++ rest) = some (h, rest) ∧ h.major = 7
      ∧ simple h = some (.float bits)) bits.toNat ?_ ?_ ?_
  · intro narrow hhalf
    exact ⟨_, hread 0xF9 narrow rfl .two, rfl, simple_half hhalf⟩
  · intro narrow hsingle
    exact ⟨_, hread 0xFA narrow rfl .four, rfl, simple_single hsingle⟩
  · exact ⟨_, hread 0xFB bits.toNat rfl .eight, rfl, simple_double bits⟩

theorem length_encodeFloat_pos (bits : Nat) :
    0 < (encodeFloat bits).length := by
  refine encodeFloat_cases (fun octets => 0 < octets.length) bits ?_ ?_ ?_
  · exact fun _ _ => Nat.succ_pos _
  · exact fun _ _ => Nat.succ_pos _
  · exact Nat.succ_pos _

-- ================================================================== values

/-- No value is written as nothing, so reading always gets on. -/
theorem length_encode_pos (v : Cbor) : 0 < (encode v).length := by
  cases v with
  | unsigned n =>
      rw [encode]
      exact length_head_pos 0 n.toNat
  | negative n =>
      rw [encode]
      exact length_head_pos 1 n.toNat
  | bytes octets =>
      have := length_head_pos 2 octets.length
      rw [encode, List.length_append]
      omega
  | text t =>
      have := length_head_pos 3 (Utf8.encode t).length
      rw [encode, List.length_append]
      omega
  | array items =>
      have := length_head_pos 4 items.length
      rw [encode, List.length_append]
      omega
  | map entries =>
      have := length_head_pos 5 entries.length
      rw [encode, List.length_append]
      omega
  | tag number value =>
      have := length_head_pos 6 number.toNat
      rw [encode, List.length_append]
      omega
  | bool value => cases value <;> simp [encode]
  | null => simp [encode]
  | float bits =>
      rw [encode]
      exact length_encodeFloat_pos bits.toNat

/-- A value is read back from what it was written as, with fuel enough. -/
def ReadsBack (depth : Nat) (v : Cbor) : Prop :=
  ∀ fuel rest, 2 * (encode v).length ≤ fuel →
    readValue fuel depth (encode v ++ rest) = some (v, rest)

/-- A counted row ends where as many were read. -/
theorem readItems_encode {depth : Nat} {items : List Cbor}
    (h : ∀ item ∈ items, ReadsBack depth item) (fuel : Nat) (rest : Bytes)
    (hfuel : 2 * (encodeItems items).length + 1 ≤ fuel) :
    readItems fuel depth (some items.length) (encodeItems items ++ rest)
      = some (items, rest) := by
  induction items generalizing fuel with
  | nil =>
      obtain ⟨fuel, rfl⟩ := Nat.exists_eq_add_of_le' hfuel
      rfl
  | cons item items ih =>
      have hpos := length_encode_pos item
      rw [encodeItems, List.length_append] at hfuel
      obtain ⟨fuel, rfl⟩ : ∃ f, fuel = f + 1 := ⟨fuel - 1, by omega⟩
      have hitem := h item List.mem_cons_self fuel (encodeItems items ++ rest)
        (by omega)
      have hitems := ih (fun x hx => h x (List.mem_cons_of_mem _ hx)) fuel
        (by omega)
      rw [encodeItems, List.append_assoc, readItems]
      simp only [List.length_cons, atEnd, hitem, Option.bind_eq_bind,
        Option.bind_some, Option.map_some, Nat.add_sub_cancel, hitems,
        Option.pure_def]

/-- So are entries, the key and then the value of each. -/
theorem readEntries_encode {depth : Nat} {entries : List (Cbor × Cbor)}
    (hkeys : ∀ entry ∈ entries, ReadsBack depth entry.1)
    (hvalues : ∀ entry ∈ entries, ReadsBack depth entry.2) (fuel : Nat)
    (rest : Bytes) (hfuel : 2 * (encodeEntries entries).length + 1 ≤ fuel) :
    readEntries fuel depth (some entries.length)
        (encodeEntries entries ++ rest)
      = some (entries, rest) := by
  induction entries generalizing fuel with
  | nil =>
      obtain ⟨fuel, rfl⟩ := Nat.exists_eq_add_of_le' hfuel
      rfl
  | cons entry entries ih =>
      obtain ⟨key, value⟩ := entry
      have hpos := length_encode_pos key
      rw [encodeEntries, List.length_append, List.length_append] at hfuel
      obtain ⟨fuel, rfl⟩ : ∃ f, fuel = f + 1 := ⟨fuel - 1, by omega⟩
      have hkey : readValue fuel depth (encode key
          ++ (encode value ++ (encodeEntries entries ++ rest)))
          = some (key, encode value ++ (encodeEntries entries ++ rest)) :=
        hkeys (key, value) List.mem_cons_self fuel _ (by
          show 2 * (encode key).length ≤ fuel
          omega)
      have hvalue : readValue fuel depth (encode value
          ++ (encodeEntries entries ++ rest))
          = some (value, encodeEntries entries ++ rest) :=
        hvalues (key, value) List.mem_cons_self fuel _ (by
          show 2 * (encode value).length ≤ fuel
          omega)
      have hentries := ih
        (fun x hx => hkeys x (List.mem_cons_of_mem _ hx))
        (fun x hx => hvalues x (List.mem_cons_of_mem _ hx)) fuel (by omega)
      rw [encodeEntries, List.append_assoc, List.append_assoc, readEntries]
      simp only [List.length_cons, atEnd, hkey, hvalue, Option.bind_eq_bind,
        Option.bind_some, Option.map_some, Nat.add_sub_cancel, hentries,
        Option.pure_def]

/-- A tag that is none of a big number is read as a tag. -/
theorem readBigOctets_none {number : Nat} (h2 : number ≠ 2) (h3 : number ≠ 3)
    (input : Bytes) : readBigOctets number input = none := by
  unfold readBigOctets
  cases readHead input with
  | none => rfl
  | some found => simp [h2, h3]

/-- A value takes a step at least, since it has an octet at least. -/
theorem ReadsBack.intro {depth : Nat} {v : Cbor}
    (h : ∀ fuel rest, 2 * (encode v).length ≤ fuel + 1 →
      readValue (fuel + 1) depth (encode v ++ rest) = some (v, rest)) :
    ReadsBack depth v := by
  intro fuel rest hfuel
  have hpos := length_encode_pos v
  obtain ⟨fuel, rfl⟩ : ∃ f, fuel = f + 1 := ⟨fuel - 1, by omega⟩
  exact h fuel rest hfuel

/-- A value that is all head is read as that. -/
theorem readValue_simple {fuel depth : Nat} {h : Head} {v : Cbor}
    {input rest : Bytes} (hhead : readHead input = some (h, rest))
    (hmajor : h.major = 7) (hsimple : simple h = some v) :
    readValue (fuel + 1) depth input = some (v, rest) := by
  rw [readValue]
  simp [hhead, hmajor, hsimple]

/-- Every value that fits is read back, and what follows it is left. -/
theorem reads_back {depth : Nat} {v : Cbor} (h : Fits depth v) :
    ReadsBack depth v := by
  induction h with
  | unsigned n =>
      refine .intro fun fuel rest _ => ?_
      obtain ⟨minor, hminor, hhead⟩ := readHead_head 0 (by decide)
        n.toNat_lt rest
      rw [encode, readValue]
      simp [hhead, Head.isIndefinite, hminor]
  | negative n =>
      refine .intro fun fuel rest _ => ?_
      obtain ⟨minor, hminor, hhead⟩ := readHead_head 1 (by decide)
        n.toNat_lt rest
      rw [encode, readValue]
      simp [hhead, Head.isIndefinite, hminor]
  | @bytes depth octets hlen =>
      refine .intro fun fuel rest _ => ?_
      obtain ⟨minor, hminor, hhead⟩ := readHead_head 2 (by decide)
        hlen (octets ++ rest)
      have hstring := readString_definite 2 hminor fuel octets rest
      rw [encode, List.append_assoc, readValue]
      simp [hhead, hstring]
  | @text depth t hlen =>
      refine .intro fun fuel rest _ => ?_
      obtain ⟨minor, hminor, hhead⟩ := readHead_head 3 (by decide)
        hlen (Utf8.encode t ++ rest)
      have hstring := readString_definite 3 hminor fuel
        (Utf8.encode t) rest
      rw [encode, List.append_assoc, readValue]
      simp [hhead, hstring, joinText_single]
  | @array depth items hlen _ ih =>
      refine .intro fun fuel rest hfuel => ?_
      obtain ⟨minor, hminor, hhead⟩ := readHead_head 4 (by decide)
        hlen (encodeItems items ++ rest)
      have hpos := length_head_pos 4 items.length
      rw [encode, List.length_append] at hfuel
      have hitems := readItems_encode ih fuel rest (by omega)
      rw [encode, List.append_assoc, readValue]
      simp [hhead, Head.isIndefinite, hminor, hitems]
  | @map depth entries hlen _ _ ihKeys ihValues =>
      refine .intro fun fuel rest hfuel => ?_
      obtain ⟨minor, hminor, hhead⟩ := readHead_head 5 (by decide)
        hlen (encodeEntries entries ++ rest)
      have hpos := length_head_pos 5 entries.length
      rw [encode, List.length_append] at hfuel
      have hentries := readEntries_encode ihKeys ihValues fuel rest
        (by omega)
      rw [encode, List.append_assoc, readValue]
      simp [hhead, Head.isIndefinite, hminor, hentries]
  | @tag depth number value h2 h3 _ ih =>
      refine .intro fun fuel rest hfuel => ?_
      obtain ⟨minor, hminor, hhead⟩ := readHead_head 6 (by decide)
        number.toNat_lt (encode value ++ rest)
      have hpos := length_head_pos 6 number.toNat
      rw [encode, List.length_append] at hfuel
      have hbig := readBigOctets_none
        (fun h => h2 (UInt64.toNat_inj.mp h))
        (fun h => h3 (UInt64.toNat_inj.mp h)) (encode value ++ rest)
      have hvalue := ih fuel rest (by omega)
      rw [encode, List.append_assoc, readValue]
      simp [hhead, Head.isIndefinite, hminor, hbig, hvalue]
  | bool value =>
      refine .intro fun fuel rest _ => ?_
      cases value with
      | false => exact readValue_simple (h := ⟨7, 20, 20⟩) rfl rfl rfl
      | true => exact readValue_simple (h := ⟨7, 21, 21⟩) rfl rfl rfl
  | null =>
      refine .intro fun fuel rest _ => ?_
      exact readValue_simple (h := ⟨7, 22, 22⟩) rfl rfl rfl
  | float bits =>
      refine .intro fun fuel rest _ => ?_
      obtain ⟨h, hhead, hmajor, hsimple⟩ := readHead_float bits rest
      rw [encode]
      exact readValue_simple hhead hmajor hsimple

/-- What was written is read back, up to the depth that the reader goes
to. -/
theorem decode_encode {v : Cbor} (h : Fits 256 v) :
    decode (encode v) = some v := by
  have hread := reads_back h (2 * (encode v).length + 1) [] (by omega)
  rw [List.append_nil] at hread
  unfold decode
  rw [hread]
  rfl

end SmartCard.Cbor
