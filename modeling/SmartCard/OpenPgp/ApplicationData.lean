/-
What the application tells about itself: its capabilities, the state of its
PINs, and the algorithm of each slot. All of it comes in one object, with
other objects inside; how deep they are nested does not matter.
-/
import SmartCard.OpenPgp.Error

namespace SmartCard.OpenPgp

-- ========================================================= capabilities

/-- A capability, as its bit. -/
inductive Capability
  /-- PINs are stretched before they are sent. -/
  | kdf
  /-- Encryption with a symmetric key. -/
  | aes
  /-- Algorithms can be changed. -/
  | changeableAttributes
  /-- Objects for private use. -/
  | privateUse
  /-- The PIN policy can be changed. -/
  | changeablePinStatus
  /-- Keys can be imported. -/
  | keyImport
  /-- The card gives random octets. -/
  | challenge
  /-- Secure messaging. -/
  | secureMessaging
  deriving DecidableEq, Repr

namespace Capability

/-- Every capability, the lowest bit first. -/
def all : List Capability :=
  [kdf, aes, changeableAttributes, privateUse, changeablePinStatus, keyImport, challenge,
    secureMessaging]

/-- The bit of a capability. -/
def mask : Capability → UInt8
  | kdf => 0x01
  | aes => 0x02
  | changeableAttributes => 0x04
  | privateUse => 0x08
  | changeablePinStatus => 0x10
  | keyImport => 0x20
  | challenge => 0x40
  | secureMessaging => 0x80

end Capability

/-- The capabilities of a card. -/
structure Capabilities where
  /-- A bit for each capability. -/
  flags : UInt8
  /-- The algorithm of secure messaging. -/
  secureMessagingAlgorithm : UInt8
  /-- How many random octets the card gives at a time. -/
  challengeLimit : UInt16
  /-- The longest certificate. -/
  certificateLimit : UInt16
  /-- The longest of other objects. -/
  objectLimit : UInt16
  /-- Whether PINs may come in the second block format. -/
  pinBlock2 : Bool
  /-- Whether keys can be assigned to other uses. -/
  securityEnvironment : Bool
  deriving DecidableEq, Repr

namespace Capabilities

/-- Whether a card has a capability. -/
def has (c : Capabilities) (capability : Capability) : Bool :=
  c.flags &&& capability.mask == capability.mask

/-- Read the octets of the capabilities. The last two need not be there. -/
def parse : Bytes → Except DataFault Capabilities
  | flags :: sm :: c1 :: c2 :: r1 :: r2 :: s1 :: s2 :: rest => .ok {
      flags
      secureMessagingAlgorithm := sm
      challengeLimit := Attributes.pair c1 c2
      certificateLimit := Attributes.pair r1 r2
      objectLimit := Attributes.pair s1 s2
      pinBlock2 := rest[0]? == some 1
      securityEnvironment := rest[1]? == some 1 }
  | _ => .error .shortCapabilities

end Capabilities

-- ========================================================== PIN status

/-- How long the verification of the user PIN lasts. -/
inductive PinPolicy
  /-- For one signature. -/
  | once
  /-- For several. -/
  | always
  deriving DecidableEq, Repr

namespace PinPolicy

/-- The octet of a policy. -/
def octet : PinPolicy → UInt8
  | once => 0x00
  | always => 0x01

/-- The name of a policy. -/
def name : PinPolicy → String
  | once => "Once"
  | always => "Always"

end PinPolicy

/-- A number for each of user PIN, reset code and admin PIN. -/
structure PerPin where
  user : UInt8
  reset : UInt8
  admin : UInt8
  deriving DecidableEq, Repr

/-- The state of the PINs. -/
structure PinStatus where
  /-- How long a verification lasts. -/
  policy : PinPolicy
  /-- How long each may be. -/
  maxLength : PerPin
  /-- How many attempts are left for each. -/
  attempts : PerPin
  deriving DecidableEq, Repr

/-- Read the octets of the PIN status. -/
def PinStatus.parse : Bytes → Except DataFault PinStatus
  | policy :: l1 :: l2 :: l3 :: a1 :: a2 :: a3 :: _ =>
    .ok ⟨if policy = 0 then .once else .always, ⟨l1, l2, l3⟩, ⟨a1, a2, a3⟩⟩
  | _ => .error .shortPinStatus

-- ======================================================== touch policy

/-- Whether the user must touch the device when a key is used. -/
inductive TouchPolicy
  | off
  | on
  /-- On, until the application is reset. -/
  | fixed
  /-- On, and a touch lasts for a while. -/
  | cached
  /-- As `cached`, until the application is reset. -/
  | cachedFixed
  deriving DecidableEq, Repr

namespace TouchPolicy

/-- The octet of a policy. -/
def octet : TouchPolicy → UInt8
  | off => 0x00
  | on => 0x01
  | fixed => 0x02
  | cached => 0x03
  | cachedFixed => 0x04

/-- The policy with an octet. -/
def ofOctet (x : UInt8) : Except DataFault TouchPolicy :=
  if x = 0 then .ok off
  else if x = 1 then .ok on
  else if x = 2 then .ok fixed
  else if x = 3 then .ok cached
  else if x = 4 then .ok cachedFixed
  else .error .unknownTouchPolicy

/-- The name of a policy. -/
def name : TouchPolicy → String
  | off => "Off"
  | on => "On"
  | fixed => "Fixed"
  | cached => "Cached"
  | cachedFixed => "CachedFixed"

/-- Whether the policy can not be changed. -/
def isFixed : TouchPolicy → Bool
  | fixed => true
  | cachedFixed => true
  | _ => false

/-- Whether a touch lasts for a while. -/
def isCached : TouchPolicy → Bool
  | cached => true
  | cachedFixed => true
  | _ => false

/-- The octets of the data object: the policy, and that there is a
button. -/
def bytes (p : TouchPolicy) : Bytes :=
  [p.octet, 0x20]

end TouchPolicy

-- ==================================================== application data

/-- What the application tells about itself. -/
structure ApplicationData where
  /-- The identifier, with the serial number in it. -/
  aid : Bytes
  /-- What the card can do. -/
  capabilities : Capabilities
  /-- The state of the PINs. -/
  pinStatus : PinStatus
  /-- Every primitive object, however deep. -/
  objects : Tlv.Contents

namespace ApplicationData

/-- An object that must be there. -/
def required (objects : Tlv.Contents) (object : ObjectId) (fault : DataFault) : Except Error Bytes :=
  match objects.lookup object with
  | some content => .ok content
  | none => .error (.invalidData fault)

/-- Read the object. Identifier, capabilities and PIN status must be
there. -/
def parse (data : Bytes) : Except Error ApplicationData := do
  let t ← (Tlv.ofBytes data).mapError Error.tlv
  if t.number ≠ ObjectId.applicationData then throw (.invalidData .notApplicationData)
  let objects := Tlv.flatten [] t
  let aid ← required objects ObjectId.aid .missingAid
  let capabilities ← required objects ObjectId.extendedCapabilities .missingCapabilities
  let capabilities ← (Capabilities.parse capabilities).mapError Error.invalidData
  let pinStatus ← required objects ObjectId.pinStatus .missingPinStatus
  let pinStatus ← (PinStatus.parse pinStatus).mapError Error.invalidData
  return { aid, capabilities, pinStatus, objects }

/-- The serial number, where the identifier is long enough to have one. -/
def serial (d : ApplicationData) : Option Nat :=
  let field := (d.aid.drop 10).take 4
  if field.length = 4 then some (Bytes.toNat field) else none

/-- A primitive object, wherever it is nested. -/
def object (d : ApplicationData) (object : ObjectId) : Option Bytes :=
  d.objects.lookup object

/-- The algorithm of a slot, if it is there and can be read. -/
def attributes (d : ApplicationData) (slot : Slot) : Option Attributes :=
  match (d.object slot.attributes).map Attributes.parse with
  | some (.ok a) => some a
  | _ => none

/-- The place of a slot in the object of all fingerprints. -/
def fingerprintIndex : Slot → Option Nat
  | .sig => some 0
  | .dec => some 1
  | .aut => some 2
  | .att => none

/-- The fingerprint of a slot's key: from an object of its own, or from its
place among all fingerprints. It is zero where there is no key. -/
def fingerprint (d : ApplicationData) (slot : Slot) : Option Bytes :=
  match d.object slot.fingerprint with
  | some own => some own
  | none =>
    match fingerprintIndex slot, d.object ObjectId.fingerprints with
    | some index, some all =>
      let field := (all.drop (20 * index)).take 20
      if field.length = 20 then some field else none
    | _, _ => none

end ApplicationData

end SmartCard.OpenPgp
