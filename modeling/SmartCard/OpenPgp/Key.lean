/-
Keys: public ones as a card returns them, private ones as they are put onto
a card. A private key goes in as a template, which first lists the parts of
the key with their lengths, and then has the parts themselves, one after
the other without a mark between.
-/
import SmartCard.OpenPgp.Algorithm
import SmartCard.OpenPgp.Fault
import SmartCard.Text.Summary
import SmartCard.Tlv.Field
import SmartCard.Tlv.Object

namespace SmartCard.OpenPgp

-- ========================================================== public keys

/-- A public key. -/
inductive PublicKey
  /-- RSA, modulus and exponent as big-endian numbers. -/
  | rsa (modulus exponent : Bytes)
  /-- A point of a curve, with the mark of its form in front. -/
  | ec (curve : Curve) (point : Bytes)
  /-- A key of Curve25519, without a mark. -/
  | curve25519 (curve : Curve) (key : Bytes)
  deriving DecidableEq, Repr

namespace PublicKey

/-- The part of a key with a tag, or what is missing. -/
def part (parts : List (UInt16 × Bytes)) (tag : UInt16) (fault : DataFault) : Except DataFault Bytes :=
  match Tlv.lastOf parts tag with
  | some content => .ok content
  | none => .error fault

/-- The key with the given parts, on a curve or for RSA. -/
def ofParts (parts : List (UInt16 × Bytes)) (curve : Option Curve) : Except DataFault PublicKey := do
  match curve with
  | some curve =>
    let point ← part parts 0x86 .missingPoint
    return if curve.isCurve25519 then curve25519 curve point else ec curve point
  | none =>
    let modulus ← part parts 0x81 .missingModulus
    let exponent ← part parts 0x82 .missingExponent
    return rsa modulus exponent

/-- What the other side of a key agreement needs of the key. -/
def agreementBytes : PublicKey → Option Bytes
  | rsa _ _ => none
  | ec _ point => some point
  | curve25519 _ key => some key

end PublicKey

-- ========================================================= private keys

/-- The parts of an RSA key, as big-endian numbers. -/
structure RsaPrivateKey where
  modulus : Bytes
  exponent : Bytes
  p : Bytes
  q : Bytes
  /-- The secret exponent modulo p − 1. -/
  dp : Option Bytes := none
  /-- The secret exponent modulo q − 1. -/
  dq : Option Bytes := none
  /-- The inverse of q modulo p. -/
  qInverse : Option Bytes := none
  deriving DecidableEq

/-- The length of the modulus in bits, in whole octets. -/
def RsaPrivateKey.bits (key : RsaPrivateKey) : Nat :=
  (Bytes.stripLeadingZeros key.modulus).length * 8

/-- A private key. -/
inductive PrivateKey
  /-- RSA. -/
  | rsa (key : RsaPrivateKey)
  /-- The secret of a key on a curve. -/
  | ec (curve : Curve) (secret : Bytes)
  deriving DecidableEq

namespace PrivateKey

/-- A summary that shows no part of the key. -/
def summary : PrivateKey → String
  | rsa key => "Rsa(" ++ Summary.partialRecord "RsaPrivateKey" [("bits", toString key.bits)] ++ ")"
  | ec curve _ => "Ec(" ++ Summary.partialRecord "EcPrivateKey" [("curve", curve.name)] ++ ")"

/-- The algorithm that a slot needs for the key. Old cards take RSA keys
with the parts for the Chinese remainder theorem. -/
def attributes (slot : Slot) (crt : Bool) : PrivateKey → Except DataFault Attributes
  | rsa key =>
    if key.bits ≥ 0x10000 then .error .longModulus
    else .ok (.rsaOf (UInt16.ofNat key.bits) (if crt then .crtWithModulus else .standard))
  | ec curve _ => .ok (.ecOf slot curve)

end PrivateKey

-- ============================================================ templates

/-- A big-endian number with zeros in front, in exactly `n` octets. -/
def fixedLength (n : Nat) (number : Bytes) : Except DataFault Bytes :=
  let significant := Bytes.stripLeadingZeros number
  if significant.length > n then .error .longComponent
  else .ok (List.replicate (n - significant.length) 0 ++ significant)

/-- A private key in the form in which it is put onto a card. -/
structure KeyTemplate where
  /-- What names the slot. -/
  slotTemplate : Bytes
  /-- The parts of the key, each under its tag. -/
  parts : List (UInt8 × Bytes)
  deriving DecidableEq

namespace KeyTemplate

/-- The parts of an RSA key: the primes and what follows from them in half
the octets of the modulus each. -/
def rsaParts (key : RsaPrivateKey) (crt : Bool) : Except DataFault (List (UInt8 × Bytes)) := do
  let half := key.bits / 16
  let p ← fixedLength half key.p
  let q ← fixedLength half key.q
  let plain := [(0x91, key.exponent), (0x92, p), (0x93, q)]
  if crt then
    match key.dp, key.dq, key.qInverse with
    | some dp, some dq, some qInverse =>
      let qInverse ← fixedLength half qInverse
      let dp ← fixedLength half dp
      let dq ← fixedLength half dq
      let modulus ← fixedLength (half * 2) key.modulus
      return plain ++ [(0x94, qInverse), (0x95, dp), (0x96, dq), (0x97, modulus)]
    | _, _, _ => throw .missingCrtPart
  else return plain

/-- The template of a key for a slot. -/
def ofKey (slot : Slot) (crt : Bool) : PrivateKey → Except DataFault KeyTemplate
  | .rsa key => (rsaParts key crt).map fun parts => ⟨slot.template, parts⟩
  | .ec _ secret => .ok ⟨slot.template, [(0x92, secret)]⟩

/-- Add the public key. -/
def withPublicKey (t : KeyTemplate) (publicKey : Bytes) : KeyTemplate :=
  { t with parts := t.parts ++ [(0x99, publicKey)] }

/-- The tags of the parts, in order. -/
def tags (t : KeyTemplate) : List UInt8 :=
  t.parts.map Prod.fst

/-- The heads of the parts: tags and lengths. -/
def heads (t : KeyTemplate) : Bytes :=
  t.parts.flatMap fun part => part.1 :: Tlv.lengthField part.2.length

/-- The parts, one after the other. -/
def values (t : KeyTemplate) : Bytes :=
  t.parts.flatMap Prod.snd

/-- What the template holds: the slot, the heads, the values. -/
def body (t : KeyTemplate) : Bytes :=
  t.slotTemplate ++ Tlv.field 0x7F48 t.heads ++ Tlv.field 0x5F48 t.values

/-- The octets of the template. -/
def bytes (t : KeyTemplate) : Bytes :=
  Tlv.field 0x4D t.body

/-- A summary that shows no part of the key. -/
def summary (t : KeyTemplate) : String :=
  Summary.partialRecord "PrivateKeyTemplate" [
    ("crt", Summary.quoted (Hex.bytes t.slotTemplate)),
    ("tags", Summary.listing (t.tags.map toString))]

end KeyTemplate

end SmartCard.OpenPgp
