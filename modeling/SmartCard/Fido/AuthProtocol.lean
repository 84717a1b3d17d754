/-
The two protocols that protect PINs on their way to an authenticator. Both
agree on a secret with a fresh key of the platform. They differ in how the
secret becomes keys, and in the form of ciphertexts and codes:

    one   one digest for both keys; no vector; 16 octets of code
    two   a key each for codes and for encryption; a random vector in
          front of the ciphertext; 32 octets of code

Random values are arguments. A law about any operation therefore holds for
every choice of them.
-/
import SmartCard.Crypto.Aes
import SmartCard.Crypto.Cbc
import SmartCard.Crypto.Hmac
import SmartCard.Fido.Key
import SmartCard.Text.Summary

namespace SmartCard.Fido

/-- The keys of one key agreement. -/
structure SharedSecret where
  /-- For encryption. -/
  encryption : Octets 32
  /-- For codes. -/
  authentication : Octets 32
  deriving DecidableEq

/-- A summary that shows no key. -/
def SharedSecret.summary (_ : SharedSecret) : String :=
  Summary.record "SharedSecret" [("enc_key", Summary.redacted), ("auth_key", Summary.redacted)]

/-- A PIN and user verification protocol. -/
inductive AuthProtocol
  | one
  | two
  deriving DecidableEq, Repr

namespace AuthProtocol

/-- The number of a protocol in messages. -/
def number : AuthProtocol → UInt8
  | one => 1
  | two => 2

/-- The protocol with a number. -/
def ofNumber? (n : UInt8) : Option AuthProtocol :=
  if n = 1 then some one else if n = 2 then some two else none

/-- The first protocol in a list of preferences that is known. -/
def select (supported : List UInt8) : Option AuthProtocol :=
  supported.findSome? ofNumber?

-- ======================================================== key agreement

/-- The keys that follow from what the two sides agreed on. -/
def derive (protocol : AuthProtocol) (agreed : Bytes) : SharedSecret :=
  match protocol with
  | one =>
    let key := Sha256.digest agreed
    ⟨key, key⟩
  | two =>
    let salt := List.replicate 32 0
    ⟨hkdf salt agreed (Utf8.encode "CTAP2 AES key"), hkdf salt agreed (Utf8.encode "CTAP2 HMAC key")⟩

/-- Agree with the holder of a public key, by a fresh private key. What is
returned is the public key to send, and the secret. -/
def encapsulate (protocol : AuthProtocol) (fresh : P256.Scalar) (peer : PublicKey) :
    Except Error (PublicKey × SharedSecret) := do
  let point ← peer.toPoint
  return (.ofPoint fresh.publicKey, protocol.derive (P256.agree fresh point).toList)

-- =========================================================== encryption

/-- Encrypt a message of whole blocks. The vector is used by the second
protocol only. -/
def encrypt (protocol : AuthProtocol) (iv : Block) (secret : SharedSecret) (message : Bytes) :
    Except Error Bytes :=
  if message.length % 16 ≠ 0 then .error (.crypto .plaintextAlignment)
  else
    let cipher := Aes.cipher256 secret.encryption
    match protocol with
    | one => .ok (Cbc.encrypt cipher (Octets.zero 16) message)
    | two => .ok (iv.toList ++ Cbc.encrypt cipher iv message)

/-- Decrypt whole blocks under a vector. -/
def decryptFrom (iv : Block) (secret : SharedSecret) (ciphertext : Bytes) : Except Error Bytes :=
  if ciphertext.length % 16 ≠ 0 then .error (.crypto .ciphertextAlignment)
  else .ok (Cbc.decrypt (Aes.cipher256 secret.encryption) iv ciphertext)

/-- Decrypt a message in the form of the protocol. -/
def decrypt (protocol : AuthProtocol) (secret : SharedSecret) (message : Bytes) :
    Except Error Bytes :=
  match protocol with
  | one => decryptFrom (Octets.zero 16) secret message
  | two =>
    if message.length < 16 then .error (.crypto .shortCiphertext)
    else decryptFrom (Octets.ofBytes 16 message) secret (message.drop 16)

-- ================================================================ codes

/-- The code of a message under a key. -/
def authenticate (protocol : AuthProtocol) (key message : Bytes) : Bytes :=
  match protocol with
  | one => (hmac key message).toList.take 16
  | two => (hmac key message).toList

end AuthProtocol

end SmartCard.Fido
