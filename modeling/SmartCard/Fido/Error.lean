/-
What can go wrong between a client and an authenticator. As everywhere, an
error is its cause and the words are a function of it.
-/
import SmartCard.Error

namespace SmartCard.Fido

-- ================================================================ status

/-- The first octet of an authenticator's answer. -/
structure Status where
  code : UInt8
  deriving DecidableEq, Repr

namespace Status

/-- The command was carried out. -/
def ok : Status := ⟨0x00⟩

/-- The symbolic name. -/
def name (s : Status) : String :=
  match s.code with
  | 0x00 => "OK"
  | 0x01 => "INVALID_COMMAND"
  | 0x02 => "INVALID_PARAMETER"
  | 0x03 => "INVALID_LENGTH"
  | 0x12 => "INVALID_CBOR"
  | 0x14 => "MISSING_PARAMETER"
  | 0x27 => "OPERATION_DENIED"
  | 0x2B => "UNSUPPORTED_OPTION"
  | 0x30 => "NOT_ALLOWED"
  | 0x31 => "PIN_INVALID"
  | 0x32 => "PIN_BLOCKED"
  | 0x33 => "PIN_AUTH_INVALID"
  | 0x34 => "PIN_AUTH_BLOCKED"
  | 0x35 => "PIN_NOT_SET"
  | 0x36 => "PUAT_REQUIRED"
  | 0x37 => "PIN_POLICY_VIOLATION"
  | 0x3C => "UV_BLOCKED"
  | 0x3E => "INVALID_SUBCOMMAND"
  | 0x40 => "UNAUTHORIZED_PERMISSION"
  | _ => "UNKNOWN"

/-- The code and the name. -/
def text (s : Status) : String :=
  "0x" ++ Hex.capitals s.code ++ " (" ++ s.name ++ ")"

end Status

-- ================================================================ causes

/-- A PIN that is not sent. -/
inductive PinFault
  /-- Fewer than four characters. -/
  | tooShort
  /-- More than 63 octets. -/
  | tooLong
  /-- There is none, and the authenticator can not do without. -/
  | required
  deriving DecidableEq, Repr

/-- An answer that lacks something or has the wrong shape. -/
inductive ResponseFault
  /-- Something else in place of a map. -/
  | notMap
  /-- A key that is not of an elliptic curve. -/
  | keyType
  /-- A key on another curve. -/
  | keyCurve
  /-- A key without one of its coordinates. -/
  | coordinateMissing
  /-- A coordinate that is not 32 octets long. -/
  | coordinateLength
  /-- A member that must be there is not. -/
  | missing (member : String)
  /-- No protocol version is listed. -/
  | noVersions
  /-- Not even a status. -/
  | empty
  /-- A status where information was asked for. -/
  | emptyInfo
  deriving DecidableEq, Repr

/-- Data that the cryptography does not take. -/
inductive CryptoFault
  /-- A point that is not on the curve. -/
  | invalidPublicKey
  /-- A plaintext that ends inside a block. -/
  | plaintextAlignment
  /-- A ciphertext with no room for the vector in front. -/
  | shortCiphertext
  /-- A ciphertext that ends inside a block. -/
  | ciphertextAlignment
  deriving DecidableEq, Repr

/-- What an authenticator or a version of the protocol does not have. -/
inductive UnsupportedFault
  /-- A version name that is not known. -/
  | unknownVersion
  /-- Selection, before FIDO 2.1. -/
  | selection
  /-- PINs, before FIDO 2.0. -/
  | clientPin
  /-- The attempts of built-in user verification, before FIDO 2.1. -/
  | uvRetries
  deriving DecidableEq, Repr

/-- A failure between client and authenticator. -/
inductive Error
  /-- The exchange below failed. -/
  | card (cause : SmartCard.Error)
  /-- The PIN was not sent. -/
  | invalidPin (cause : PinFault)
  /-- The authenticator answered with a status other than OK. -/
  | ctap (status : Status)
  /-- The answer could not be decoded. -/
  | cbor
  /-- The answer is not what was asked for. -/
  | invalidResponse (cause : ResponseFault)
  /-- The cryptography failed. -/
  | crypto (cause : CryptoFault)
  /-- The session is closed. -/
  | closed
  /-- The operation is not available. -/
  | unsupported (cause : UnsupportedFault)
  deriving DecidableEq, Repr

-- ================================================================= words

/-- The fault in words. -/
def PinFault.message : PinFault → String
  | tooShort => "PIN must be at least 4 characters"
  | tooLong => "PIN must be at most 63 bytes"
  | required => "PIN required before FIDO 2.1"

/-- The fault in words. -/
def ResponseFault.message : ResponseFault → String
  | notMap => "Expected a CBOR map"
  | keyType => "COSE key is not EC2"
  | keyCurve => "COSE key is not on P-256"
  | coordinateMissing => "COSE key coordinate missing"
  | coordinateLength => "COSE key coordinate must be 32 bytes"
  | missing member => "Missing " ++ member
  | noVersions => "getInfo without versions"
  | empty => "Empty CTAP2 response"
  | emptyInfo => "Empty getInfo response"

/-- The fault in words. -/
def CryptoFault.message : CryptoFault → String
  | invalidPublicKey => "Invalid P-256 public key"
  | plaintextAlignment => "Plaintext is not block aligned"
  | shortCiphertext => "Ciphertext shorter than the IV"
  | ciphertextAlignment => "Ciphertext is not block aligned"

/-- The fault in words. -/
def UnsupportedFault.message : UnsupportedFault → String
  | unknownVersion => "Unknown FIDO version"
  | selection => "authenticatorSelection requires FIDO 2.1"
  | clientPin => "ClientPIN requires FIDO 2.0 or later"
  | uvRetries => "UV retries require FIDO 2.1"

/-- The error in words. -/
def Error.message : Error → String
  | card cause => cause.message
  | invalidPin cause => "Invalid PIN: " ++ cause.message
  | ctap status => "CTAP error " ++ status.text
  | cbor => "CBOR error: malformed item"
  | invalidResponse cause => "Invalid response: " ++ cause.message
  | crypto cause => "Crypto error: " ++ cause.message
  | closed => "Invalid state: Session is closed"
  | unsupported cause => "Unsupported: " ++ cause.message

end SmartCard.Fido
