/-
Signatures on their way from the card. What the card returns for ECDSA are
two numbers in a row, and the session makes them a sequence of two integers
(`IsSignature`); anything else is handed on as it is. Which of the two it is
depends on the algorithm of the slot, and that is read right before the
signature is asked for (`Signing`).

# What the sequence takes

The integers are right for any halves. The sequence around them is right if
the writer frames every object of it, which it does but where an integer has
127 octets (`signatureSequence_framed_iff`). No signature of a curve comes
near that.
-/
import SmartCard.OpenPgp.Session.Operations
import SmartCard.Proofs.OpenPgp.LateRefusals
import SmartCard.Proofs.Tlv.Written

namespace SmartCard.OpenPgp

open Tlv (Consistent Encloses Framed)

-- ========================================================== two integers

/-- The octets are a sequence of two integers and nothing else. The integers
are the numbers that the halves of a signature stand for, in the fewest
octets; the second half has the odd octet. -/
def IsSignature (raw octets : Bytes) : Prop :=
  ∃ r s first second,
    IsInteger (Bytes.toNat (raw.take (raw.length / 2))) r
      ∧ IsInteger (Bytes.toNat (raw.drop (raw.length / 2))) s
      ∧ Encloses [0x02] r first ∧ Encloses [0x02] s second
      ∧ Encloses [0x30] (first ++ second) octets

/-- The sequence is one of two integers, for any halves. -/
theorem signatureSequence_integers (raw : Bytes) :
    ∃ first second,
      signatureSequence raw
          = .constructed [0x30] [.primitive [0x02] first, .primitive [0x02] second]
        ∧ IsInteger (Bytes.toNat (raw.take (raw.length / 2))) first
        ∧ IsInteger (Bytes.toNat (raw.drop (raw.length / 2))) second :=
  ⟨_, _, rfl, integerContent_isInteger _, integerContent_isInteger _⟩

/-- A sequence and integers can be made, their tags being what they are. -/
theorem signatureSequence_consistent (raw : Bytes) :
    Consistent (signatureSequence raw) := by
  have hinteger : ∀ content, Consistent (.primitive [0x02] content) :=
    fun content => .primitive (.one (by decide) (by decide)) (by decide)
  refine .constructed (.one (by decide) (by decide)) (by decide) ?_
  simp [hinteger]

/-- With every object framed, the sequence is what a signature is. -/
theorem derSignature_isSignature {raw : Bytes}
    (h : Framed (signatureSequence raw)) :
    IsSignature raw (derSignature raw) := by
  obtain ⟨first, second, hsequence, hfirst, hsecond⟩ :=
    signatureSequence_integers raw
  unfold derSignature
  rw [hsequence] at h ⊢
  cases h with
  | constructed hencloses hchildren =>
      refine ⟨first, second, _, _, hfirst, hsecond,
        (hchildren _ (by simp)).encloses, (hchildren _ (by simp)).encloses, ?_⟩
      simp only [Tlv.bytesOfAll, List.append_nil] at hencloses
      exact hencloses

/-- An integer is at most one octet longer than its half. -/
theorem length_integerContent (number : Bytes) :
    (integerContent number).length ≤ number.length + 1 := by
  have hstrip := Bytes.length_stripLeadingZeros_le number
  unfold integerContent
  split
  next => simp
  next h =>
    rw [h] at hstrip
    split
    next => simpa using hstrip
    next => exact Nat.le_succ_of_le hstrip

/-- The writer frames the sequence unless an integer has 127 octets. -/
theorem signatureSequence_framed_iff {raw : Bytes}
    (h : raw.length < 2 ^ 31) :
    Framed (signatureSequence raw)
      ↔ (integerContent (raw.take (raw.length / 2))).length ≠ 127
        ∧ (integerContent (raw.drop (raw.length / 2))).length ≠ 127 := by
  have hr := length_integerContent (raw.take (raw.length / 2))
  have hs := length_integerContent (raw.drop (raw.length / 2))
  rw [List.length_take] at hr
  rw [List.length_drop] at hs
  show Framed (.constructed [0x30]
    ([([0x02], integerContent (raw.take (raw.length / 2))),
      ([0x02], integerContent (raw.drop (raw.length / 2)))].map
        fun part : Bytes × Bytes => .primitive part.1 part.2)) ↔ _
  rw [Tlv.framed_primitives_iff]
  · simp
  · simp only [List.mem_cons, List.not_mem_nil, or_false, forall_eq_or_imp,
      forall_eq]
    omega
  · have hsize := Tlv.lengthSize_le
      (integerContent (raw.take (raw.length / 2))).length
    have hother := Tlv.lengthSize_le
      (integerContent (raw.drop (raw.length / 2))).length
    simp only [List.map_cons, List.map_nil, Tlv.sizes, Tlv.size,
      List.length_singleton]
    omega

-- ======================================================== asking for one

namespace Session

open Terminal (Request)

/-- The slot makes signatures with ECDSA. -/
def Ecdsa (data : ApplicationData) (slot : Slot) : Prop :=
  ∃ curve format, data.attributes slot = some (.ec Attributes.ecdsaId curve format)

/-- A slot is for ECDSA when its attributes have that algorithm. -/
theorem ecdsa_iff {data : ApplicationData} {slot : Slot} :
    Ecdsa data slot
      ↔ (data.attributes slot).map Attributes.algorithmId
        = some Attributes.ecdsaId := by
  unfold Ecdsa
  cases data.attributes slot with
  | none => simp
  | some a =>
      cases a with
      | rsa _ _ _ => simp [Attributes.algorithmId, Attributes.rsaId, Attributes.ecdsaId]
      | ec algorithm curve format => simp [Attributes.algorithmId]

/-- The ways in which asking for a signature ends. The algorithm of the slot
is read first; if that fails, nothing is signed. -/
inductive Signing {σ : Type} (s : Session σ) (slot : Slot) (c : Command) :
    List Request → Except Error Bytes → Prop
  | unread {asked : List Request} {e : Error} :
      Reading s ObjectId.applicationData ApplicationData.parse asked
        (.error e) →
      Signing s slot c asked (.error e)
  | refused {reading request : Request} {data : ApplicationData}
      {cause : SmartCard.Error} :
      Told ObjectId.applicationData ApplicationData.parse reading data →
      request.command = c → request.payload = .error cause →
      Signing s slot c [reading, request] (.error (.card cause))
  | converted {reading request : Request} {data : ApplicationData}
      {raw : Bytes} :
      Told ObjectId.applicationData ApplicationData.parse reading data →
      Ecdsa data slot → request.command = c → request.payload = .ok raw →
      Signing s slot c [reading, request] (.ok (derSignature raw))
  | unchanged {reading request : Request} {data : ApplicationData}
      {raw : Bytes} :
      Told ObjectId.applicationData ApplicationData.parse reading data →
      ¬ Ecdsa data slot → request.command = c → request.payload = .ok raw →
      Signing s slot c [reading, request] (.ok raw)

variable {σ : Type} [Transport σ]

/-- Ask for a signature by a command, and format it for the algorithm that
the slot has just before. -/
def signing (slot : Slot) (c : Command) : Activity σ Bytes := do
  let data ← applicationData
  let raw ← send c
  return formatSignature ((data.attributes slot).map Attributes.algorithmId) raw

theorem sign_eq (message : Bytes) :
    (sign message : Activity σ Bytes) = signing .sig (signCommand message) := by
  unfold sign signing algorithmOf
  simp only [bind_assoc, pure_bind]

theorem authenticate_eq (message : Bytes) :
    (authenticate message : Activity σ Bytes)
      = signing .aut (authenticateCommand message) := by
  unfold authenticate signing algorithmOf
  simp only [bind_assoc, pure_bind]

/-- Every signing is one of those that `Signing` lists. -/
theorem signing_ran (slot : Slot) (c : Command) (s : Session σ) :
    ∃ asked result t, Ran (signing slot c) s asked result t
      ∧ Signing s slot c asked result := by
  obtain ⟨first, outcome, mid, hread, hreading⟩ :=
    reading_ran ObjectId.applicationData ApplicationData.parse
      (fun answer mid => run_lift (ApplicationData.parse answer) mid) s
  unfold signing
  cases outcome with
  | error e => exact ⟨first, _, mid, hread.fails, .unread hreading⟩
  | ok data =>
      cases hreading with
      | @told reading _ hopen htold =>
          obtain ⟨second, raw, t, hsend, hsent⟩ :=
            send_ran c { s with terminal := mid }
          refine ⟨_, _, t, hread.bind hsend.map, ?_⟩
          cases hsent with
          | closed hclosed => exact absurd hclosed hopen
          | refused _ hsends hcause => exact .refused htold hsends hcause
          | @done request raw _ hsends hraw =>
              show Signing s slot c [reading, request]
                (.ok (formatSignature _ raw))
              unfold formatSignature
              by_cases hecdsa : Ecdsa data slot
              · rw [if_pos (ecdsa_iff.mp hecdsa)]
                exact .converted htold hecdsa hsends hraw
              · rw [if_neg (mt ecdsa_iff.mpr hecdsa)]
                exact .unchanged htold hecdsa hsends hraw

/-- Whatever octets a card returns as a signature, their conversion can be
made: a sequence of the two integers that their halves are, in the fewest
octets. Where the writer frames it, its octets are that sequence and nothing
else. Signing and authenticating return the conversion exactly where the
algorithm that the slot was just found to have is ECDSA, and what the card
returned otherwise. -/
theorem signatures_converted (raw message : Bytes) (s : Session σ) :
    (∃ first second,
      signatureSequence raw
          = .constructed [0x30] [.primitive [0x02] first, .primitive [0x02] second]
        ∧ IsInteger (Bytes.toNat (raw.take (raw.length / 2))) first
        ∧ IsInteger (Bytes.toNat (raw.drop (raw.length / 2))) second)
      ∧ Consistent (signatureSequence raw)
      ∧ (Framed (signatureSequence raw) → IsSignature raw (derSignature raw))
      ∧ (∃ asked result t, Ran (sign message) s asked result t
        ∧ Signing s .sig (signCommand message) asked result)
      ∧ ∃ asked result t, Ran (authenticate message) s asked result t
        ∧ Signing s .aut (authenticateCommand message) asked result := by
  refine ⟨signatureSequence_integers raw, signatureSequence_consistent raw,
    derSignature_isSignature, ?_, ?_⟩
  · rw [sign_eq]
    exact signing_ran .sig (signCommand message) s
  · rw [authenticate_eq]
    exact signing_ran .aut (authenticateCommand message) s

/-- What a card tells whose signature key is on P-256. -/
def ecdsaAnswer : Bytes :=
  [0x6E, 0x26, 0x4F, 0x06, 0xD2, 0x76, 0x00, 0x01, 0x24, 0x01,
    0xC0, 0x08, 0x00, 0x00, 0x00, 0x00, 0x00, 0x00, 0x00, 0x00,
    0xC1, 0x09, 0x13, 0x2A, 0x86, 0x48, 0xCE, 0x3D, 0x03, 0x01, 0x07,
    0xC4, 0x07, 0x00, 0x7F, 0x7F, 0x7F, 0x03, 0x00, 0x03]

/-- A session with the card, which then returns five octets as a
signature. -/
def ecdsaCard : Session ScriptedCard :=
  { willingCard ⟨5, 4, 3⟩ with
    terminal.link.card.script := .queue [ecdsaAnswer ++ [0x90, 0x00],
      [0x00, 0x80, 0x01, 0x00, 0x00, 0x90, 0x00]] }

/-- One half is a top bit behind a zero, the other ends in zeros. -/
theorem signatures_converted_odd :
    IsSignature [0x00, 0x80, 0x01, 0x00, 0x00]
        [0x30, 0x09, 0x02, 0x02, 0x00, 0x80, 0x02, 0x03, 0x01, 0x00, 0x00]
      ∧ ∃ asked t, Ran (sign [0xAB]) ecdsaCard asked
        (.ok (derSignature [0x00, 0x80, 0x01, 0x00, 0x00])) t := by
  have hwriter : Framed (signatureSequence [0x00, 0x80, 0x01, 0x00, 0x00]) :=
    (signatureSequence_framed_iff (by decide)).mpr (by decide)
  obtain ⟨-, -, hconverted, ⟨asked, result, t, hran, -⟩, -⟩ :=
    signatures_converted [0x00, 0x80, 0x01, 0x00, 0x00] [0xAB] ecdsaCard
  obtain rfl : (Except.ok (derSignature [0x00, 0x80, 0x01, 0x00, 0x00]) :
      Except Error Bytes) = result := congrArg Prod.fst hran.run
  exact ⟨hconverted hwriter, asked, t, hran⟩

end Session

end SmartCard.OpenPgp
