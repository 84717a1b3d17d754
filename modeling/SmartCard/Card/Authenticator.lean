/-
A FIDO authenticator that stands in for a device. It carries out the
cryptography of the client PIN command with a key of its own, and takes
everything else that it answers from a script. What it saw of each request
is kept, in the clear where it can be.
-/
import SmartCard.Fido.PinMessage
import SmartCard.Link

namespace SmartCard

open Fido

/-- What an authenticator is to answer to a request. -/
inductive Reply
  /-- Its public key. Where another key is given, that one takes its place
  right after, and the client does not know. -/
  | publicKey (successor : Option P256.Scalar)
  /-- A status and nothing else. -/
  | status (code : UInt8)
  /-- Octets after the status OK. -/
  | body (octets : Bytes)
  /-- A token, encrypted under what the request agreed on. -/
  | token (octets : Bytes)
  /-- A token as it is. -/
  | plainToken (octets : Bytes)

/-- What an authenticator saw of a request. -/
structure Observation where
  /-- The request. -/
  request : PinRequest
  /-- The protocol that its key was agreed on with. -/
  protocol : AuthProtocol
  /-- What was agreed on, if the request carries a key. -/
  secret : Option SharedSecret
  /-- Whether the client knows the authenticator's key. -/
  current : Bool

namespace Observation

/-- Whether the code of the request is right, if there is a code, and a key
to check it with. -/
def authentic (o : Observation) : Option Bool :=
  match o.secret, o.request.authParam with
  | some secret, some code =>
    let message := o.request.newPinEnc.getD [] ++ o.request.pinHashEnc.getD []
    some (code == o.protocol.authenticate secret.authentication.toList message)
  | _, _ => none

/-- An encrypted member in the clear. -/
def clear (o : Observation) (value : Option Bytes) : Option Bytes :=
  match o.secret, value with
  | some secret, some octets => (o.protocol.decrypt secret octets).toOption
  | _, _ => none

end Observation

/-- An authenticator behind a card. -/
structure Authenticator where
  /-- Its private key. -/
  key : P256.Scalar
  /-- What it tells about itself. -/
  info : Bytes
  /-- What it answers to requests, one after the other; the last one for
  ever. -/
  replies : List Reply
  /-- Whether frames have extended lengths. -/
  extended : Bool := false
  /-- Whether the client knows its key. -/
  current : Bool := true
  /-- Whether it is connected. -/
  present : Bool := true
  /-- The data of the frames so far of a command in several. -/
  collected : Bytes := []
  /-- What it saw of requests, the latest first. -/
  observed : List Observation := []
  /-- The frames it was sent, the latest first. -/
  received : List Bytes := []

namespace Authenticator

/-- What a request looks like to an authenticator. -/
def observe (a : Authenticator) (request : PinRequest) : Observation :=
  let protocol := (AuthProtocol.ofNumber? request.protocol).getD .one
  let point := request.keyAgreement.bind fun key => key.toPoint.toOption
  ⟨request, protocol, point.map fun point => protocol.derive (P256.agree a.key point).toList, a.current⟩

/-- A response with its status. -/
def respond (response : PinResponse) : Bytes :=
  Status.ok.code :: response.toCbor.encode

/-- The response with a token for the sender of a request. One who sent no
key gets the status of a missing parameter. The vector is zero. -/
def respondToken (o : Observation) (token : Bytes) : Bytes :=
  match o.secret.map fun secret => o.protocol.encrypt (Octets.zero 16) secret token with
  | some (.ok encrypted) => respond { token := some encrypted }
  | _ => [0x14]

/-- The next reply, and the authenticator after it. An authenticator with
no replies knows no commands. -/
def next (a : Authenticator) : Reply × Authenticator :=
  match a.replies with
  | [] => (.status 0x01, a)
  | [last] => (last, a)
  | reply :: replies => (reply, { a with replies })

/-- Answer a request. -/
def answerRequest (request : PinRequest) (a : Authenticator) : Bytes × Authenticator :=
  let seen := a.observe request
  let (reply, a) := { a with observed := seen :: a.observed : Authenticator }.next
  match reply with
  | .publicKey successor =>
    let answer := respond { keyAgreement := some (.ofPoint a.key.publicKey) }
    match successor with
    | some key => (answer, { a with key, current := false })
    | none => (answer, a)
  | .status code => ([code], a)
  | .body octets => (Status.ok.code :: octets, a)
  | .token octets => (respondToken seen octets, a)
  | .plainToken octets => (respond { token := some octets }, a)

/-- Answer a whole message: what it tells about itself, or a request. -/
def answer (message : Bytes) (a : Authenticator) : Bytes × Authenticator :=
  match message with
  | [] => ([0x03], a)
  | 0x04 :: _ => (Status.ok.code :: a.info, a)
  | _ :: body =>
    match (Cbor.decode body).map PinRequest.ofCbor with
    | some (.ok request) => a.answerRequest request
    | _ => ([0x12], a)

/-- The data of a frame that holds data and asks for nothing. -/
def frameData (extended : Bool) (frame : Bytes) : Bytes :=
  if extended then frame.drop 7 else (frame.drop 5).take (frame.getD 4 0).toNat

/-- Take a frame and answer it. Selection always succeeds, and so do the
frames that others follow. -/
def take (frame : Bytes) (a : Authenticator) : Except TransportError Bytes × Authenticator :=
  if a.present then
    let a := { a with received := frame :: a.received }
    if frame.getD 1 0 = 0xA4 then (.ok StatusWord.success.bytes, a)
    else
      let message := a.collected ++ frameData a.extended frame
      if frame.getD 0 0 &&& 0x10 != 0 then
        (.ok StatusWord.success.bytes, { a with collected := message })
      else
        let (content, a) := { a with collected := [] : Authenticator }.answer message
        (.ok (content ++ StatusWord.success.bytes), a)
  else (.error .connection, a)

instance : Transport Authenticator where
  transmit := take
  maxFrame _ := none
  extendedLength := extended
  connected := present
  close a := (.ok (), { a with present := false })

end Authenticator

end SmartCard
