/-
The elliptic curves that the OpenPGP application knows, by their object
identifiers.
-/
import SmartCard.Bytes

namespace SmartCard.OpenPgp

/-- A curve. -/
inductive Curve
  | secp256r1
  | secp256k1
  | secp384r1
  | secp521r1
  | brainpoolP256r1
  | brainpoolP384r1
  | brainpoolP512r1
  /-- Curve25519 for key agreement. -/
  | x25519
  /-- Curve25519 for signatures. -/
  | ed25519
  deriving DecidableEq, Repr

namespace Curve

/-- Every curve. -/
def all : List Curve :=
  [secp256r1, secp256k1, secp384r1, secp521r1, brainpoolP256r1, brainpoolP384r1, brainpoolP512r1,
    x25519, ed25519]

/-- The name of a curve. -/
def name : Curve → String
  | secp256r1 => "Secp256r1"
  | secp256k1 => "Secp256k1"
  | secp384r1 => "Secp384r1"
  | secp521r1 => "Secp521r1"
  | brainpoolP256r1 => "BrainpoolP256r1"
  | brainpoolP384r1 => "BrainpoolP384r1"
  | brainpoolP512r1 => "BrainpoolP512r1"
  | x25519 => "X25519"
  | ed25519 => "Ed25519"

/-- The object identifier. -/
def oid : Curve → Bytes
  | secp256r1 => [0x2A, 0x86, 0x48, 0xCE, 0x3D, 0x03, 0x01, 0x07]
  | secp256k1 => [0x2B, 0x81, 0x04, 0x00, 0x0A]
  | secp384r1 => [0x2B, 0x81, 0x04, 0x00, 0x22]
  | secp521r1 => [0x2B, 0x81, 0x04, 0x00, 0x23]
  | brainpoolP256r1 => [0x2B, 0x24, 0x03, 0x03, 0x02, 0x08, 0x01, 0x01, 0x07]
  | brainpoolP384r1 => [0x2B, 0x24, 0x03, 0x03, 0x02, 0x08, 0x01, 0x01, 0x0B]
  | brainpoolP512r1 => [0x2B, 0x24, 0x03, 0x03, 0x02, 0x08, 0x01, 0x01, 0x0D]
  | x25519 => [0x2B, 0x06, 0x01, 0x04, 0x01, 0x97, 0x55, 0x01, 0x05, 0x01]
  | ed25519 => [0x2B, 0x06, 0x01, 0x04, 0x01, 0xDA, 0x47, 0x0F, 0x01]

/-- The curve with an identifier. -/
def ofOid? (oid : Bytes) : Option Curve :=
  all.find? fun curve => curve.oid == oid

/-- Whether the public keys are plain octets of Curve25519, and not points
with a mark in front. -/
def isCurve25519 : Curve → Bool
  | x25519 => true
  | ed25519 => true
  | _ => false

end Curve

end SmartCard.OpenPgp
