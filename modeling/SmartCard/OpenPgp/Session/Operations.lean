/-
Using the keys on a card: signatures, authentication, decryption and key
agreement.
-/
import SmartCard.OpenPgp.Session.Keys
import SmartCard.OpenPgp.Signature

namespace SmartCard.OpenPgp.Session

-- ============================================================= commands

/-- The command that signs. -/
def signCommand (message : Bytes) : Command :=
  { cla := 0x00, ins := 0x2A, p1 := 0x9E, p2 := 0x9A, data := message }

/-- The command that authenticates. -/
def authenticateCommand (message : Bytes) : Command :=
  { cla := 0x00, ins := 0x88, p1 := 0x00, p2 := 0x00, data := message }

/-- The command that decrypts, or agrees on a key. -/
def decipherCommand (cryptogram : Bytes) : Command :=
  { cla := 0x00, ins := 0x2A, p1 := 0x80, p2 := 0x86, data := cryptogram }

/-- The object in which the other side's public key is sent. -/
def agreementObject (point : Bytes) : Bytes :=
  Tlv.field 0xA6 (Tlv.field 0x7F49 (Tlv.field 0x86 point))

/-- A signature in its usual form: two integers if it was made with ECDSA,
as the card returned it otherwise. -/
def formatSignature (algorithm : Option UInt8) (raw : Bytes) : Bytes :=
  if algorithm = some Attributes.ecdsaId then derSignature raw else raw

variable {σ : Type} [Transport σ]

/-- The algorithm of a slot now, if it is known. -/
def algorithmOf (slot : Slot) : Activity σ (Option UInt8) := do
  return ((← applicationData).attributes slot).map Attributes.algorithmId

/-- Sign a message with the signature key. -/
def sign (message : Bytes) : Activity σ Bytes := do
  let algorithm ← algorithmOf .sig
  let raw ← send (signCommand message)
  return formatSignature algorithm raw

/-- Sign a message with the authentication key. -/
def authenticate (message : Bytes) : Activity σ Bytes := do
  let algorithm ← algorithmOf .aut
  let raw ← send (authenticateCommand message)
  return formatSignature algorithm raw

/-- Decrypt an RSA cryptogram. -/
def decrypt (cryptogram : Bytes) : Activity σ Bytes :=
  send (decipherCommand (0x00 :: cryptogram))

/-- Agree on a key with the holder of a public key. -/
def decryptWithPeer (peer : PublicKey) : Activity σ Bytes := do
  match peer.agreementBytes with
  | some point => send (decipherCommand (agreementObject point))
  | none => throw (.invalidData .peerNotElliptic)

end SmartCard.OpenPgp.Session
