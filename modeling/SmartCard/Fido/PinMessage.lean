/-
The messages of the client PIN command. A message is a map with small
numbers for keys, in ascending order; members that are absent have no
entry.
-/
import SmartCard.Fido.AuthProtocol
import SmartCard.Fido.Info

namespace SmartCard.Fido

/-- What a request asks for. -/
inductive SubCommand
  | pinRetries
  | keyAgreement
  | setPin
  | changePin
  | pinToken
  | tokenByUv
  | uvRetries
  | tokenByPin
  deriving DecidableEq, Repr

/-- The number of a sub-command. -/
def SubCommand.number : SubCommand → UInt8
  | pinRetries => 0x01
  | keyAgreement => 0x02
  | setPin => 0x03
  | changePin => 0x04
  | pinToken => 0x05
  | tokenByUv => 0x06
  | uvRetries => 0x07
  | tokenByPin => 0x09

/-- The entry of a member, if the member is present. -/
def member (label : Int) (value : Option Cbor) : List (Cbor × Cbor) :=
  match value with
  | some v => [(.ofInt label, v)]
  | none => []

/-- A whole number as a value. -/
def octetValue (x : UInt8) : Cbor :=
  .ofInt x.toNat

/-- A key, where a member holds one. A member of another shape is a
fault. -/
def keyMember (value : Option Cbor) : Except Error (Option PublicKey) :=
  match value with
  | none => .ok none
  | some v => (PublicKey.ofCbor v).map some

-- ============================================================== requests

/-- A request. -/
structure PinRequest where
  /-- The number of the PIN protocol (1). -/
  protocol : UInt8
  /-- The number of the sub-command (2). -/
  subCommand : UInt8
  /-- The platform's key (3). -/
  keyAgreement : Option PublicKey := none
  /-- The code of what is encrypted (4). -/
  authParam : Option Bytes := none
  /-- The new PIN, encrypted (5). -/
  newPinEnc : Option Bytes := none
  /-- The digest of the PIN, encrypted (6). -/
  pinHashEnc : Option Bytes := none
  /-- What a token shall be good for (9). -/
  permissions : Option Permissions := none
  /-- The relying party that a token shall be good for (10). -/
  rpId : Option String := none
  deriving DecidableEq

namespace PinRequest

/-- A request with nothing but protocol and sub-command. -/
def bare (protocol : AuthProtocol) (subCommand : SubCommand) : PinRequest :=
  { protocol := protocol.number, subCommand := subCommand.number }

/-- The map of a request. -/
def toCbor (r : PinRequest) : Cbor :=
  .map ([(.ofInt 0x01, octetValue r.protocol), (.ofInt 0x02, octetValue r.subCommand)]
    ++ member 0x03 (r.keyAgreement.map PublicKey.toCbor)
    ++ member 0x04 (r.authParam.map .bytes)
    ++ member 0x05 (r.newPinEnc.map .bytes)
    ++ member 0x06 (r.pinHashEnc.map .bytes)
    ++ member 0x09 (r.permissions.map fun p => octetValue p.bits)
    ++ member 0x0A (r.rpId.map .text))

/-- Read the map of a request, as an authenticator does. Members of the
wrong shape count as absent, but for the first three. -/
def ofCbor (v : Cbor) : Except Error PinRequest := do
  let entries ← entriesOf v
  let find := Cbor.lookup entries
  let some protocol := (find 0x01).bind Cbor.octet?
    | throw (.invalidResponse (.missing "pinUvAuthProtocol"))
  let some subCommand := (find 0x02).bind Cbor.octet?
    | throw (.invalidResponse (.missing "subCommand"))
  let keyAgreement ← keyMember (find 0x03)
  return {
    protocol
    subCommand
    keyAgreement
    authParam := (find 0x04).bind Cbor.bytes?
    newPinEnc := (find 0x05).bind Cbor.bytes?
    pinHashEnc := (find 0x06).bind Cbor.bytes?
    permissions := ((find 0x09).bind Cbor.octet?).map Permissions.mk
    rpId := (find 0x0A).bind Cbor.text? }

end PinRequest

-- ============================================================= responses

/-- A response. -/
structure PinResponse where
  /-- The authenticator's key (1). -/
  keyAgreement : Option PublicKey := none
  /-- The token, encrypted (2). -/
  token : Option Bytes := none
  /-- How many attempts are left for the PIN (3). -/
  pinRetries : Option UInt8 := none
  /-- Whether power must be cycled before the next attempt (4). -/
  powerCycle : Option Bool := none
  /-- How many attempts are left for user verification (5). -/
  uvRetries : Option UInt8 := none
  deriving DecidableEq

namespace PinResponse

/-- The map of a response. -/
def toCbor (r : PinResponse) : Cbor :=
  .map (member 0x01 (r.keyAgreement.map PublicKey.toCbor)
    ++ member 0x02 (r.token.map .bytes)
    ++ member 0x03 (r.pinRetries.map octetValue)
    ++ member 0x04 (r.powerCycle.map .bool)
    ++ member 0x05 (r.uvRetries.map octetValue))

/-- Read the map of a response. Members of the wrong shape count as absent,
but for the key. -/
def ofCbor (v : Cbor) : Except Error PinResponse := do
  let entries ← entriesOf v
  let find := Cbor.lookup entries
  let keyAgreement ← keyMember (find 0x01)
  return {
    keyAgreement
    token := (find 0x02).bind Cbor.bytes?
    pinRetries := (find 0x03).bind Cbor.octet?
    powerCycle := (find 0x04).bind Cbor.bool?
    uvRetries := (find 0x05).bind Cbor.octet? }

end PinResponse

end SmartCard.Fido
