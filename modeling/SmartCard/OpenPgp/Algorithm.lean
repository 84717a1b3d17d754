/-
The algorithm of a key slot: RSA with its sizes, or a curve and what it is
used for. The attributes have one encoding each, which is read back as it
was written.
-/
import SmartCard.OpenPgp.Curve
import SmartCard.OpenPgp.Fault
import SmartCard.OpenPgp.Slot
import SmartCard.Text.Hex

namespace SmartCard.OpenPgp

/-- Which parts an RSA key is imported in. -/
inductive RsaFormat
  /-- The exponent and the primes. -/
  | standard
  /-- The same with the modulus. -/
  | standardWithModulus
  /-- The parts for the Chinese remainder theorem. -/
  | crt
  /-- The same with the modulus. -/
  | crtWithModulus
  deriving DecidableEq, Repr

namespace RsaFormat

/-- The octet of a format. -/
def octet : RsaFormat → UInt8
  | standard => 0
  | standardWithModulus => 1
  | crt => 2
  | crtWithModulus => 3

/-- The format with an octet. -/
def ofOctet (x : UInt8) : Except DataFault RsaFormat :=
  if x = 0 then .ok standard
  else if x = 1 then .ok standardWithModulus
  else if x = 2 then .ok crt
  else if x = 3 then .ok crtWithModulus
  else .error .importFormat

/-- The name of a format. -/
def name : RsaFormat → String
  | standard => "Standard"
  | standardWithModulus => "StandardWithModulus"
  | crt => "Crt"
  | crtWithModulus => "CrtWithModulus"

end RsaFormat

/-- Which parts a key on a curve is imported in. -/
inductive EcFormat
  /-- The secret. -/
  | standard
  /-- The secret and the public key. -/
  | standardWithPublicKey
  deriving DecidableEq, Repr

/-- The name of a format. -/
def EcFormat.name : EcFormat → String
  | standard => "Standard"
  | standardWithPublicKey => "StandardWithPublicKey"

/-- The algorithm of a slot. -/
inductive Attributes
  /-- RSA: the lengths of modulus and exponent in bits. -/
  | rsa (modulusBits exponentBits : UInt16) (format : RsaFormat)
  /-- A curve, and the octet of what it is used for. -/
  | ec (algorithm : UInt8) (curve : Curve) (format : EcFormat)
  deriving DecidableEq, Repr

namespace Attributes

/-- The octets of the algorithms. -/
def rsaId : UInt8 := 0x01
def ecdhId : UInt8 := 0x12
def ecdsaId : UInt8 := 0x13
def eddsaId : UInt8 := 0x16

/-- RSA with the usual length of the exponent. -/
def rsaOf (modulusBits : UInt16) (format : RsaFormat) : Attributes :=
  rsa modulusBits 17 format

/-- The attributes of a curve in a slot: signatures of their own kind for
Ed25519, key agreement in the decryption slot, ECDSA elsewhere. -/
def ecOf (slot : Slot) (curve : Curve) : Attributes :=
  let algorithm :=
    if curve = .ed25519 then eddsaId
    else if slot = .dec then ecdhId
    else ecdsaId
  ec algorithm curve .standard

/-- The octet of the algorithm. -/
def algorithmId : Attributes → UInt8
  | rsa _ _ _ => rsaId
  | ec algorithm _ _ => algorithm

/-- The attributes in words. -/
def text : Attributes → String
  | rsa modulusBits _ format => s!"RSA{modulusBits} ({format.name})"
  | ec algorithm curve format => s!"EC 0x{Hex.capitals algorithm} {curve.name} ({format.name})"

-- ============================================================= encoding

/-- The octets of attributes. A public key in the import is marked by an
octet FF at the end. -/
def bytes : Attributes → Bytes
  | rsa modulusBits exponentBits format =>
    rsaId :: Bytes.bigEndian 2 modulusBits.toNat ++ Bytes.bigEndian 2 exponentBits.toNat ++ [format.octet]
  | ec algorithm curve .standard => algorithm :: curve.oid
  | ec algorithm curve .standardWithPublicKey => algorithm :: curve.oid ++ [0xFF]

/-- The two octets of a number, put together. -/
def pair (high low : UInt8) : UInt16 :=
  UInt16.ofNat (Bytes.toNat [high, low])

/-- The attributes of a curve: its identifier, and the mark if it is
there. -/
def parseEc (algorithm : UInt8) (rest : Bytes) : Except DataFault Attributes :=
  let marked := rest.getLast? == some 0xFF
  let oid := if marked then rest.dropLast else rest
  match Curve.ofOid? oid with
  | some curve => .ok (ec algorithm curve (if marked then .standardWithPublicKey else .standard))
  | none => .error .unknownCurve

/-- Read attributes. Octets behind those of RSA are left out. -/
def parse : Bytes → Except DataFault Attributes
  | [] => .error .unknownAlgorithm
  | algorithm :: rest =>
    if algorithm = rsaId then
      match rest with
      | n1 :: n2 :: e1 :: e2 :: format :: _ => do
        return rsa (pair n1 n2) (pair e1 e2) (← RsaFormat.ofOctet format)
      | _ => .error .truncatedRsa
    else if algorithm = ecdhId || algorithm = ecdsaId || algorithm = eddsaId then
      parseEc algorithm rest
    else .error .unknownAlgorithm

end Attributes

end SmartCard.OpenPgp
