/-
Opening a secure channel. INITIALIZE UPDATE exchanges challenges, and the
card proves that it holds the keys; EXTERNAL AUTHENTICATE proves the same
of the host, and is the first command under the new keys. The channel is
put to use only after both.
-/
import SmartCard.Terminal

namespace SmartCard.Scp03

/-- What a card answers to INITIALIZE UPDATE. -/
structure CardGreeting where
  /-- What the card's keys were made different with. -/
  diversification : Bytes
  /-- The version of the key set, the protocol and its options. -/
  keyInformation : Bytes
  /-- The card's challenge. -/
  challenge : Challenge
  /-- The card's proof that it holds the keys. -/
  cryptogram : Cryptogram
  deriving DecidableEq

namespace CardGreeting

/-- The protocol that the key information must name. -/
def protocolIdentifier : UInt8 := 0x03

/-- Read the answer; octets after its members are left out. -/
def parse (payload : Bytes) : Except Error CardGreeting :=
  if payload.length < 29 then .error (.protocol (.shortInitializeUpdate payload.length))
  else
    let identifier := payload.getD 11 0
    if identifier = protocolIdentifier then
      .ok {
        diversification := payload.take 10
        keyInformation := (payload.drop 10).take 3
        challenge := Octets.ofBytes 8 (payload.drop 13)
        cryptogram := Octets.ofBytes 8 (payload.drop 21) }
    else .error (.unsupported (.channelProtocol identifier))

end CardGreeting

/-- The command that begins the handshake. -/
def initializeUpdate (ref : KeyRef) (challenge : Challenge) : Command :=
  { cla := 0x80, ins := 0x50, p1 := ref.version, p2 := 0x00, data := challenge.toList }

/-- The command that ends the handshake: the level asks for codes and
encryption both ways. -/
def externalAuthenticate (cryptogram : Cryptogram) : Command :=
  { cla := 0x80, ins := 0x82, p1 := 0x33, p2 := 0x00, data := cryptogram.toList }

variable {σ : Type} [Transport σ]

/-- Authenticate over a channel that is not in use yet. The channel is
returned as it is after the command. -/
def authenticate (channel : SecureChannel) (cryptogram : Cryptogram) : Host σ SecureChannel :=
  ExceptT.mk fun t =>
    let ((answer, channel), link) := channel.send false (externalAuthenticate cryptogram) t.link
    let t := { t with link }
    match answer with
    | .error e => (.error e, t)
    | .ok response =>
      match response.result with
      | .error e => (.error (.context "EXTERNAL AUTHENTICATE failed" e), t)
      | .ok _ => (.ok channel, t)

/-- Open a secure channel with the keys that the card knows under `ref`,
and use it from then on. Where it can not be opened, the messaging in use
stays in use. -/
def openChannel (ref : KeyRef) (keys : StaticKeys) (challenge : Challenge) : Host σ Unit := do
  let payload ← ExceptT.adapt (Error.context "INITIALIZE UPDATE failed")
    (Terminal.request (initializeUpdate ref challenge))
  let greeting ← CardGreeting.parse payload
  let context := challenge.toList ++ greeting.challenge.toList
  let session := keys.derive context
  unless deriveCryptogram session.smac Purpose.cardCryptogram.octet context = greeting.cryptogram do
    throw (.security .wrongKeySet)
  let cryptogram := deriveCryptogram session.smac Purpose.hostCryptogram.octet context
  let channel ← authenticate (SecureChannel.start session (← get).framing) cryptogram
  modify fun t => { t with messaging := .secured channel }

end SmartCard.Scp03
