/-
The client's side of PINs. Every operation that sends PIN material first
agrees on a fresh secret, and every PIN is checked before anything is sent.

# Clients

What carries the messages is a state of any type with a `PinClient`
instance, so the laws about the operations hold whatever answers come.
-/
import SmartCard.Fido.Pin
import SmartCard.Fido.PinMessage

namespace SmartCard.Fido

/-- How a state of type `κ` carries messages of the client PIN command. -/
class PinClient (κ : Type) where
  /-- Send a request and return the response. -/
  send : PinRequest → κ → Except Error PinResponse × κ

/-- Work over a client: it may fail, and the client goes on from where it
was left. -/
abbrev Dialogue (κ : Type) := ExceptT Error (StateM κ)

/-- The random values of one operation. -/
structure Fresh where
  /-- The platform's private key. -/
  scalar : P256.Scalar
  /-- The vector of the encrypted PIN digest. -/
  pinHashIv : Block
  /-- The vector of the encrypted new PIN. -/
  newPinIv : Block

/-- A token, which stands for a verified user. -/
structure Token where
  octets : Bytes
  deriving DecidableEq

namespace Token

/-- The code of a message under the token. -/
def authenticate (token : Token) (protocol : AuthProtocol) (message : Bytes) : Bytes :=
  protocol.authenticate token.octets message

/-- A summary that does not show the token. -/
def summary (_ : Token) : String :=
  "PinToken(" ++ Summary.redacted ++ ")"

end Token

/-- What client and authenticator speak. -/
structure ClientPin where
  /-- The PIN protocol. -/
  protocol : AuthProtocol
  /-- The version of the authenticator. -/
  version : FidoVersion
  deriving DecidableEq

namespace ClientPin

/-- Refuse authenticators that have no PINs. -/
def start (version : FidoVersion) (protocol : AuthProtocol) : Except Error ClientPin :=
  if version = .u2f then .error (.unsupported .clientPin) else .ok ⟨protocol, version⟩

variable {κ : Type} [PinClient κ]

/-- Send one request. -/
def ask (request : PinRequest) : Dialogue κ PinResponse :=
  ExceptT.mk fun client => PinClient.send request client

/-- A member that a response must have. -/
def need {α : Type} (name : String) (value : Option α) : Dialogue κ α :=
  match value with
  | some v => pure v
  | none => throw (.invalidResponse (.missing name))

/-- How many attempts are left for the PIN, and whether power must be
cycled before the next. -/
def pinRetries (pin : ClientPin) : Dialogue κ (UInt8 × Option Bool) := do
  let response ← ask (.bare pin.protocol .pinRetries)
  let retries ← need "pinRetries" response.pinRetries
  return (retries, response.powerCycle)

/-- How many attempts are left for built-in user verification. -/
def uvRetries (pin : ClientPin) : Dialogue κ UInt8 := do
  if pin.version.rank < FidoVersion.fido21.rank then throw (.unsupported .uvRetries)
  let response ← ask (.bare pin.protocol .uvRetries)
  need "uvRetries" response.uvRetries

/-- Agree on a secret with the authenticator. What is returned is the
public key to send with the next request, and the secret. -/
def sharedSecret (pin : ClientPin) (fresh : P256.Scalar) : Dialogue κ (PublicKey × SharedSecret) := do
  let response ← ask (.bare pin.protocol .keyAgreement)
  let peer ← need "keyAgreement" response.keyAgreement
  pin.protocol.encapsulate fresh peer

/-- Which request asks for a token, by version and by whether there is a
PIN. -/
def tokenCommand (version : FidoVersion) (withPin : Bool) : Except Error SubCommand :=
  match version, withPin with
  | .fido21, true => .ok .tokenByPin
  | .fido21, false => .ok .tokenByUv
  | _, true => .ok .pinToken
  | _, false => .error (.invalidPin .required)

/-- The digest of a PIN, if there is a PIN. -/
def hashOf : Option String → Except Error (Option Bytes)
  | some text => (Pin.hash text).map some
  | none => .ok none

/-- The digest of a PIN in encrypted form, if there is a PIN. -/
def encryptHash (pin : ClientPin) (fresh : Fresh) (secret : SharedSecret) :
    Option Bytes → Except Error (Option Bytes)
  | some hash => (pin.protocol.encrypt fresh.pinHashIv secret hash).map some
  | none => .ok none

/-- Obtain a token. Authenticators of FIDO 2.1 are told what it shall be
good for, and may verify the user without a PIN. -/
def token (pin : ClientPin) (fresh : Fresh) (secretPin : Option String)
    (permissions : Option Permissions) (rpId : Option String) : Dialogue κ Token := do
  let hash ← hashOf secretPin
  let command ← tokenCommand pin.version hash.isSome
  let (platformKey, secret) ← sharedSecret pin fresh.scalar
  let pinHashEnc ← pin.encryptHash fresh secret hash
  let restricted := command ≠ .pinToken
  let response ← ask { PinRequest.bare pin.protocol command with
    keyAgreement := some platformKey
    pinHashEnc
    permissions := if restricted then permissions else none
    rpId := if restricted then rpId else none }
  let encrypted ← need "pinUvAuthToken" response.token
  return ⟨← pin.protocol.decrypt secret encrypted⟩

/-- Set the PIN of an authenticator that has none. -/
def setPin (pin : ClientPin) (fresh : Fresh) (newPin : String) : Dialogue κ Unit := do
  let padded ← Pin.padded newPin
  let (platformKey, secret) ← sharedSecret pin fresh.scalar
  let newPinEnc ← pin.protocol.encrypt fresh.newPinIv secret padded
  let code := pin.protocol.authenticate secret.authentication.toList newPinEnc
  let _ ← ask { PinRequest.bare pin.protocol .setPin with
    keyAgreement := some platformKey
    authParam := some code
    newPinEnc := some newPinEnc
    permissions := some Permissions.credentialManagement }

/-- Replace the PIN. -/
def changePin (pin : ClientPin) (fresh : Fresh) (currentPin newPin : String) : Dialogue κ Unit := do
  let padded ← Pin.padded newPin
  let hash ← Pin.hash currentPin
  let (platformKey, secret) ← sharedSecret pin fresh.scalar
  let pinHashEnc ← pin.protocol.encrypt fresh.pinHashIv secret hash
  let newPinEnc ← pin.protocol.encrypt fresh.newPinIv secret padded
  let code := pin.protocol.authenticate secret.authentication.toList (newPinEnc ++ pinHashEnc)
  let _ ← ask { PinRequest.bare pin.protocol .changePin with
    keyAgreement := some platformKey
    authParam := some code
    newPinEnc := some newPinEnc
    pinHashEnc := some pinHashEnc
    permissions := if pin.version = .fido20 then none else some Permissions.credentialManagement }

end ClientPin

end SmartCard.Fido
