/-
The octets of algorithm attributes, both ways. What is written is read
back, and what is read was written: the octets decide the attributes and the
attributes the octets, but for what stands behind those of RSA, which is
left out.

# The mark

The identifier of a curve has no length in front of it, and an octet FF
behind it may be a mark. There is one way to take the octets apart since no
identifier ends in FF (`Curve.oid_unmarked`): the last octet alone says
whether the mark is there. That identifiers share their first octets does
not matter, for the rest of the octets is compared as a whole.
-/
import SmartCard.OpenPgp.Algorithm
import SmartCard.Proofs.Numbers

namespace SmartCard

namespace OpenPgp

-- ============================================================ identifiers

namespace Curve

@[simp] theorem ofOid?_oid (curve : Curve) :
    ofOid? curve.oid = some curve := by
  cases curve <;> decide

/-- A curve is found by its own identifier only. -/
theorem ofOid?_eq_some {oid : Bytes} {curve : Curve} :
    ofOid? oid = some curve ↔ curve.oid = oid := by
  refine ⟨fun h => ?_, ?_⟩
  · have hfound := List.find?_some h
    exact eq_of_beq hfound
  · rintro rfl
    exact ofOid?_oid curve

/-- No identifier ends in the octet of the mark. -/
theorem oid_unmarked (curve : Curve) : curve.oid.getLast? ≠ some 0xFF := by
  cases curve <;> decide

theorem getLast?_cons_oid (x : UInt8) (curve : Curve) :
    (x :: curve.oid).getLast? = curve.oid.getLast? := by
  cases curve <;> rfl

end Curve

/-- An RSA format is read from its own octet only. -/
theorem RsaFormat.ofOctet_eq_ok {x : UInt8} {format : RsaFormat} :
    RsaFormat.ofOctet x = .ok format ↔ format.octet = x := by
  refine ⟨fun h => ?_, ?_⟩
  · unfold RsaFormat.ofOctet at h
    split_ifs at h with hx hx hx hx <;> cases h <;> exact hx.symm
  · rintro rfl
    cases format <;> rfl

/-- What stands behind the identifier of a curve. -/
def EcFormat.mark : EcFormat → Bytes
  | .standard => []
  | .standardWithPublicKey => [0xFF]

namespace Attributes

variable {b rest : Bytes} {a : Attributes} {n e : UInt16} {id : UInt8}
  {curve : Curve}

-- ============================================================ two octets

/-- Two octets and the number that they are. -/
theorem bigEndian_eq_octets {high low : UInt8} :
    Bytes.bigEndian 2 n.toNat = [high, low] ↔ pair high low = n := by
  have hn := n.toNat_lt
  refine ⟨fun h => ?_, ?_⟩
  · unfold pair
    rw [← h, Bytes.toNat_bigEndian, Nat.mod_eq_of_lt hn, UInt16.ofNat_toNat]
  · rintro rfl
    have hhigh := high.toNat_lt
    have hlow := low.toNat_lt
    have hpair : (pair high low).toNat = Bytes.toNat [high, low] := by
      refine UInt16.toNat_ofNat_of_lt' ?_
      show 256 * (256 * 0 + high.toNat) + low.toNat < 65536
      omega
    rw [hpair]
    exact Bytes.bigEndian_toNat [high, low]

-- ============================================================ what is read

/-- The octets of what curves are used for. -/
def UsesCurve (id : UInt8) : Prop :=
  id = ecdhId ∨ id = ecdsaId ∨ id = eddsaId

/-- The octets that attributes are read from. -/
inductive Spells : Bytes → Attributes → Prop
  | rsa {n1 n2 e1 e2 x : UInt8} {rest : Bytes} {format : RsaFormat} :
      RsaFormat.ofOctet x = .ok format →
      Spells (rsaId :: n1 :: n2 :: e1 :: e2 :: x :: rest)
        (.rsa (pair n1 n2) (pair e1 e2) format)
  | ec {id : UInt8} {curve : Curve} {format : EcFormat} : UsesCurve id →
      Spells (id :: (curve.oid ++ format.mark)) (.ec id curve format)

/-- A curve that was found has the identifier. -/
theorem curve_found {oid : Bytes} {format : EcFormat}
    (h : (match Curve.ofOid? oid with
      | some curve => .ok (.ec id curve format)
      | none => .error DataFault.unknownCurve) = Except.ok a) :
    ∃ curve : Curve, a = .ec id curve format ∧ oid = curve.oid := by
  cases hcurve : Curve.ofOid? oid with
  | none => rw [hcurve] at h; cases h
  | some curve =>
      rw [hcurve] at h
      injection h with h
      exact ⟨curve, h.symm, (Curve.ofOid?_eq_some.mp hcurve).symm⟩

/-- The octets behind the first are an identifier and the mark that the
format has. -/
theorem parseEc_ok_iff :
    parseEc id rest = .ok a ↔ ∃ (curve : Curve) (format : EcFormat),
      a = .ec id curve format ∧ rest = curve.oid ++ format.mark := by
  unfold parseEc
  refine ⟨fun h => ?_, ?_⟩
  · by_cases hmark : rest.getLast? = some 0xFF
    · obtain ⟨oid, rfl⟩ := List.getLast?_eq_some_iff.mp hmark
      simp only [hmark, beq_self_eq_true, if_true, List.dropLast_concat] at h
      obtain ⟨curve, rfl, rfl⟩ := curve_found h
      exact ⟨curve, .standardWithPublicKey, rfl, rfl⟩
    · simp only [beq_eq_false_iff_ne.mpr hmark, Bool.false_eq_true,
        if_false] at h
      obtain ⟨curve, rfl, rfl⟩ := curve_found h
      exact ⟨curve, .standard, rfl, (List.append_nil _).symm⟩
  · rintro ⟨curve, format, rfl, rfl⟩
    cases format with
    | standard =>
        simp [EcFormat.mark, beq_eq_false_iff_ne.mpr curve.oid_unmarked]
    | standardWithPublicKey => simp [EcFormat.mark]

/-- Behind a curve algorithm comes a curve. -/
theorem parse_eq_parseEc (hid : UsesCurve id) :
    parse (id :: rest) = parseEc id rest := by
  rcases hid with rfl | rfl | rfl <;> rfl

/-- Attributes are read from the octets that spell them, and from no
others. -/
theorem parse_ok_iff_spells : parse b = .ok a ↔ Spells b a := by
  refine ⟨fun h => ?_, fun h => ?_⟩
  · unfold parse at h
    split at h
    · cases h
    · next first rest =>
      split at h
      · next hrsa =>
        subst hrsa
        split at h
        · next n1 n2 e1 e2 x rest =>
          cases hformat : RsaFormat.ofOctet x with
          | error => rw [hformat] at h; cases h
          | ok format =>
              rw [hformat] at h
              cases h
              exact .rsa hformat
        · cases h
      split at h
      · next hid =>
        obtain ⟨curve, format, rfl, rfl⟩ := parseEc_ok_iff.mp h
        exact .ec (by simpa [UsesCurve, or_assoc] using hid)
      · cases h
  · cases h with
    | rsa hformat =>
        simp only [parse, if_true, hformat]
        rfl
    | ec hid =>
        rw [parse_eq_parseEc hid]
        exact parseEc_ok_iff.mpr ⟨_, _, rfl, rfl⟩

-- ========================================================= what is written

theorem bytes_ec (format : EcFormat) :
    (ec id curve format).bytes = id :: (curve.oid ++ format.mark) := by
  cases format with
  | standard => exact congrArg (id :: ·) (List.append_nil _).symm
  | standardWithPublicKey => rfl

/-- The octets of RSA are those that spell it, with nothing behind. -/
theorem bytes_rsa {n1 n2 e1 e2 x : UInt8} {format : RsaFormat} :
    (rsa n e format).bytes = [rsaId, n1, n2, e1, e2, x] ↔
      pair n1 n2 = n ∧ pair e1 e2 = e ∧ RsaFormat.ofOctet x = .ok format := by
  have hparts : (rsa n e format).bytes = [rsaId, n1, n2, e1, e2, x] ↔
      Bytes.bigEndian 2 n.toNat = [n1, n2]
        ∧ Bytes.bigEndian 2 e.toNat = [e1, e2] ∧ format.octet = x := by
    simp [bytes, Bytes.bigEndian, and_assoc]
  rw [hparts, bigEndian_eq_octets, bigEndian_eq_octets,
    RsaFormat.ofOctet_eq_ok]

theorem length_bytes_rsa (format : RsaFormat) :
    (rsa n e format).bytes.length = 6 := by
  rfl

-- ============================================================== both ways

/-- RSA is read from the octets that are written for it, with any octets
behind them. -/
theorem parse_rsa_iff {format : RsaFormat} :
    parse b = .ok (rsa n e format) ↔ (rsa n e format).bytes = b.take 6 := by
  rw [parse_ok_iff_spells]
  refine ⟨fun h => ?_, fun h => ?_⟩
  · cases h with
    | rsa hformat => exact bytes_rsa.mpr ⟨rfl, rfl, hformat⟩
  · have hlength : 6 ≤ b.length := by
      have hsix := congrArg List.length h
      rw [length_bytes_rsa, List.length_take] at hsix
      omega
    match b, hlength with
    | first :: n1 :: n2 :: e1 :: e2 :: x :: rest, _ =>
      obtain rfl : first = rsaId := by
        injection h with h
        exact h.symm
      obtain ⟨rfl, rfl, hformat⟩ := bytes_rsa.mp h
      exact .rsa hformat

/-- A curve is read from the octets that are written for it, if they begin
with the octet of a use. -/
theorem parse_ec_iff {format : EcFormat} :
    parse b = .ok (ec id curve format) ↔
      UsesCurve id ∧ (ec id curve format).bytes = b := by
  rw [parse_ok_iff_spells, bytes_ec]
  refine ⟨fun h => ?_, ?_⟩
  · cases h with
    | ec hid => exact ⟨hid, rfl⟩
  · rintro ⟨hid, rfl⟩
    exact .ec hid

/-- RSA attributes are read back from their octets. -/
theorem parse_bytes_rsa (format : RsaFormat) :
    parse (rsa n e format).bytes = .ok (rsa n e format) :=
  parse_rsa_iff.mpr (List.take_of_length_le (Nat.le_refl 6)).symm

/-- What was read is read again from the octets that are written for it. -/
theorem parse_again (h : parse b = .ok a) : parse a.bytes = .ok a := by
  cases a with
  | rsa n e format => exact parse_bytes_rsa format
  | ec id curve format =>
      exact parse_ec_iff.mpr ⟨(parse_ec_iff.mp h).1, rfl⟩

/-- The last octet says whether the mark is there. -/
theorem marked_iff (format : EcFormat) :
    (ec id curve format).bytes.getLast? = some 0xFF ↔
      format = .standardWithPublicKey := by
  rw [bytes_ec]
  cases format with
  | standard =>
      rw [EcFormat.mark, List.append_nil, Curve.getLast?_cons_oid]
      exact iff_of_false curve.oid_unmarked (by decide)
  | standardWithPublicKey =>
      rw [EcFormat.mark, ← List.cons_append, List.getLast?_concat]
      exact iff_of_true rfl rfl

/-- Reading and writing attributes are inverse. RSA is read from the six
octets that are written for it, whatever follows them, and a curve from just
the octets that are written for it, for each of the three uses and no other.
So whatever attributes are written are read back, but for a curve without a
use, and what was read from any octets is read again from what is written
for it. The mark of a curve is there if the last octet is FF, and no octets
with FF behind them are an identifier. -/
theorem parse_inverts_bytes (b : Bytes) :
    (∀ n e format, parse b = .ok (rsa n e format) ↔
        (rsa n e format).bytes = b.take 6)
      ∧ (∀ id curve format, parse b = .ok (ec id curve format) ↔
        (id = ecdhId ∨ id = ecdsaId ∨ id = eddsaId)
          ∧ (ec id curve format).bytes = b)
      ∧ (∀ n e format,
        parse (rsa n e format).bytes = .ok (rsa n e format))
      ∧ (∀ id curve format,
        parse (ec id curve format).bytes = .ok (ec id curve format) ↔
          id = ecdhId ∨ id = ecdsaId ∨ id = eddsaId)
      ∧ (∀ a, parse b = .ok a → parse a.bytes = .ok a)
      ∧ (∀ id curve format, parse b = .ok (ec id curve format) →
        (b.getLast? = some 0xFF ↔ format = .standardWithPublicKey))
      ∧ Curve.ofOid? (b ++ [0xFF]) = none := by
  refine ⟨fun _ _ _ => parse_rsa_iff, fun _ _ _ => parse_ec_iff,
    fun _ _ => parse_bytes_rsa, fun id curve format => ?_,
    fun _ => parse_again, fun id curve format h => ?_, ?_⟩
  · exact parse_ec_iff.trans (and_iff_left rfl)
  · rw [← (parse_ec_iff.mp h).2]
    exact marked_iff format
  · cases hcurve : Curve.ofOid? (b ++ [0xFF]) with
    | none => rfl
    | some curve =>
        have hend := curve.oid_unmarked
        rw [Curve.ofOid?_eq_some.mp hcurve, List.getLast?_concat] at hend
        exact absurd rfl hend

end Attributes

end OpenPgp

end SmartCard
