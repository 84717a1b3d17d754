/-
The cryptography of the third secure channel protocol: AES with 128 bit
keys, chained over padded messages, as a message code, and as the function
that keys and cryptograms are derived with.
-/
import SmartCard.Crypto.Aes
import SmartCard.Crypto.Cbc
import SmartCard.Crypto.Cmac
import SmartCard.Crypto.Padding
import SmartCard.Error

namespace SmartCard.Scp03

/-- A key of the channel. -/
abbrev Key := Octets 16

/-- A random value that one side chooses for the handshake. -/
abbrev Challenge := Octets 8

/-- The proof that a side holds the keys. -/
abbrev Cryptogram := Octets 8

-- ========================================================= confidentiality

/-- One block under a key. -/
def encryptBlock (key : Key) (block : Block) : Block :=
  (Aes.cipher128 key).encrypt block

/-- A message of any length, padded and chained from `iv`. -/
def encrypt (key : Key) (iv : Block) (plain : Bytes) : Bytes :=
  Cbc.encrypt (Aes.cipher128 key) iv (Padding.pad plain)

/-- The message in a ciphertext of whole blocks, at least one, that ends in
valid padding. -/
def decrypt (key : Key) (iv : Block) (secret : Bytes) : Except Error Bytes :=
  if secret = [] || secret.length % 16 != 0 then .error (.security .partialBlock)
  else match Padding.unpad? (Cbc.decrypt (Aes.cipher128 key) iv secret) with
    | some plain => .ok plain
    | none => .error (.security .badPadding)

-- =============================================================== integrity

/-- The code of a message under a key. -/
def mac (key : Key) (message : Bytes) : Block :=
  Cmac.cmac (Aes.cipher128 key) message

-- ============================================================== derivation

/-- What is derived, as the octet that tells the derivations apart. -/
inductive Purpose
  | cardCryptogram
  | hostCryptogram
  | encryptionKey
  | commandMacKey
  | responseMacKey
  deriving DecidableEq, Repr

/-- The octet of each derivation. -/
def Purpose.octet : Purpose → UInt8
  | cardCryptogram => 0x00
  | hostCryptogram => 0x01
  | encryptionKey => 0x04
  | commandMacKey => 0x06
  | responseMacKey => 0x07

/-- The message that a derivation is the code of: eleven zeros and the
purpose, a separator, the length of the output in bits, the number of the
block, and the context. -/
def derivationData (purpose : UInt8) (bits : Nat) (context : Bytes) : Bytes :=
  List.replicate 11 0 ++ [purpose, 0x00] ++ Bytes.bigEndian 2 bits ++ [0x01] ++ context

/-- Derive `bits` bits, at most one block, in whole octets. -/
def derive (key : Key) (purpose : UInt8) (context : Bytes) (bits : Nat) : Bytes :=
  (mac key (derivationData purpose bits context)).toList.take (min (bits / 8) 16)

/-- Derive a key. -/
def deriveKey (key : Key) (purpose : UInt8) (context : Bytes) : Key :=
  Octets.ofBytes 16 (derive key purpose context 128)

/-- Derive a cryptogram. -/
def deriveCryptogram (key : Key) (purpose : UInt8) (context : Bytes) : Cryptogram :=
  Octets.ofBytes 8 (derive key purpose context 64)

end SmartCard.Scp03
