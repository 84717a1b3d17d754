/-
What can go wrong between a host and a card. An error is its cause; the
words for it are one function of the cause, `Error.message`. A layer that
passes an error on may put a remark in front of it (`Error.context`), which
changes the words and nothing else: `Error.root` finds the cause again.
-/
import SmartCard.Apdu.StatusWord

namespace SmartCard

/-- The link to the card failed. -/
inductive TransportError
  /-- There is no device. -/
  | connection
  /-- A frame did not get through. -/
  | transmission
  /-- The link is closed already. -/
  | closed
  /-- Any other failure, in the link's own words. -/
  | other (text : String)
  deriving DecidableEq, Repr

/-- The card sent something that does not follow the protocol. -/
inductive ProtocolFault
  /-- An answer with no room for a status word. -/
  | shortResponse (length : Nat)
  /-- The card refused to go on with a command sent in several frames. -/
  | chainAborted (status : StatusWord) (frame : Nat)
  /-- A version of fewer than three octets. -/
  | shortVersion (length : Nat)
  /-- An answer to INITIALIZE UPDATE with members missing. -/
  | shortInitializeUpdate (length : Nat)
  /-- Any other fault, in words. -/
  | other (text : String)
  deriving DecidableEq, Repr

/-- The secure channel can not be trusted. -/
inductive SecurityFault
  /-- A ciphertext that is empty or ends inside a block. -/
  | partialBlock
  /-- A plaintext without valid padding. -/
  | badPadding
  /-- The encryption counter has no further value. -/
  | counterExhausted
  /-- A response with no room for its code. -/
  | missingMac
  /-- A response whose code does not match. -/
  | wrongMac
  /-- The channel failed or was closed before. -/
  | notSynchronized
  /-- The card does not hold the expected keys. -/
  | wrongKeySet
  /-- Any other fault, in words. -/
  | other (text : String)
  deriving DecidableEq, Repr

/-- The device can not do what was asked. -/
inductive UnsupportedFault
  /-- A feature that the device's version does not have. -/
  | feature (name requirement device : String)
  /-- Long frames on a link that carries short ones only. -/
  | extendedLength
  /-- A secure channel protocol other than the third. -/
  | channelProtocol (identifier : UInt8)
  /-- Anything else, in words. -/
  | other (text : String)
  deriving DecidableEq, Repr

/-- A failure of an exchange with a card. -/
inductive Error
  /-- The link failed. -/
  | transport (cause : TransportError)
  /-- The card broke the protocol. -/
  | protocol (cause : ProtocolFault)
  /-- The secure channel is broken. -/
  | security (cause : SecurityFault)
  /-- The card answered with a status other than success. -/
  | status (word : StatusWord)
  /-- The device lacks a capability. -/
  | unsupported (cause : UnsupportedFault)
  /-- The command does not fit its encoding; `length` is what does not
  fit. -/
  | commandLength (length : Nat)
  /-- An argument that the operation does not take. -/
  | argument (text : String)
  /-- A cause with a remark in front. -/
  | context (remark : String) (source : Error)
  deriving DecidableEq, Repr

-- ================================================================ words

/-- The failure in words. -/
def TransportError.message : TransportError → String
  | connection => "Failed to connect to device"
  | transmission => "Failed to transmit data"
  | closed => "Transport closed"
  | other text => text

/-- The fault in words. -/
def ProtocolFault.message : ProtocolFault → String
  | shortResponse length => s!"Response too short: {length} bytes"
  | chainAborted status frame =>
    s!"Command chaining aborted by status {status.text} after frame {frame}"
  | shortVersion length => s!"Version requires 3 bytes, got {length}"
  | shortInitializeUpdate length => s!"INITIALIZE UPDATE response too short: {length} bytes"
  | other text => text

/-- The fault in words. -/
def SecurityFault.message : SecurityFault → String
  | partialBlock => "Ciphertext is not a whole number of blocks"
  | badPadding => "Invalid padding in decrypted data"
  | counterExhausted => "Encryption counter exhausted"
  | missingMac => "Response too short to carry a MAC"
  | wrongMac => "Wrong MAC"
  | notSynchronized => "Secure channel is not synchronized"
  | wrongKeySet => "Wrong SCP03 key set"
  | other text => text

/-- The fault in words. -/
def UnsupportedFault.message : UnsupportedFault → String
  | feature name requirement device => s!"{name} requires {requirement} (device has {device})"
  | extendedLength => "Transport does not support extended APDUs"
  | channelProtocol identifier => s!"Card answered with SCP{Hex.octet identifier}, expected SCP03"
  | other text => text

namespace Error

/-- The error in words: the class, then the cause; a remark comes before
the words of what it remarks on. -/
def message : Error → String
  | transport cause => "Transport error: " ++ cause.message
  | protocol cause => "Protocol error: " ++ cause.message
  | security cause => "Security error: " ++ cause.message
  | status word => s!"Status error {word.text}: {word.description}"
  | unsupported cause => "Unsupported operation: " ++ cause.message
  | commandLength length => s!"Invalid command length: {length}"
  | argument text => "Invalid argument: " ++ text
  | context remark source => remark ++ ": " ++ source.message

-- =============================================================== causes

/-- The error without the remarks in front of it. -/
def root : Error → Error
  | context _ source => source.root
  | cause => cause

/-- The status word that the card answered, where that is the cause. -/
def statusWord? (e : Error) : Option StatusWord :=
  match e.root with
  | status word => some word
  | _ => none

/-- Whether the secure channel can no longer be trusted. -/
def isSecurity (e : Error) : Bool :=
  match e.root with
  | security _ => true
  | _ => false

end Error

end SmartCard
