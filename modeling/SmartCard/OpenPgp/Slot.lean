/-
The key slots of the OpenPGP application, and the data objects that belong
to each.
-/
import SmartCard.Bytes

namespace SmartCard.OpenPgp

-- ========================================================== data objects

/-- The number of a data object. -/
abbrev ObjectId := UInt16

namespace ObjectId

/-- The identifier of the application. -/
def aid : ObjectId := 0x4F

/-- What holds the signature counter. -/
def securitySupport : ObjectId := 0x7A

/-- What the application tells about itself. -/
def applicationData : ObjectId := 0x6E

/-- The extended capabilities. -/
def extendedCapabilities : ObjectId := 0xC0

/-- The state of the PINs. -/
def pinStatus : ObjectId := 0xC4

/-- The fingerprints of all keys, one after the other. -/
def fingerprints : ObjectId := 0xC5

/-- The algorithms that each slot accepts. -/
def algorithmInformation : ObjectId := 0xFA

/-- The signature counter. -/
def signatureCounter : ObjectId := 0x93

end ObjectId

-- ================================================================= slots

/-- A place for a key. -/
inductive Slot
  /-- For signatures. -/
  | sig
  /-- For decryption and key agreement. -/
  | dec
  /-- For authentication. -/
  | aut
  /-- For attestation. -/
  | att
  deriving DecidableEq, Repr

namespace Slot

/-- Every slot, in order. -/
def all : List Slot := [sig, dec, aut, att]

/-- The name of a slot. -/
def name : Slot → String
  | sig => "SIG"
  | dec => "DEC"
  | aut => "AUT"
  | att => "ATT"

/-- The object with the algorithm of the slot. -/
def attributes : Slot → ObjectId
  | sig => 0xC1
  | dec => 0xC2
  | aut => 0xC3
  | att => 0xDA

/-- The object with the touch policy of the slot. -/
def touchPolicy : Slot → ObjectId
  | sig => 0xD6
  | dec => 0xD7
  | aut => 0xD8
  | att => 0xD9

/-- The object with the time at which the key was made. -/
def generationTime : Slot → ObjectId
  | sig => 0xCE
  | dec => 0xCF
  | aut => 0xD0
  | att => 0xDD

/-- The object with the fingerprint of the key. -/
def fingerprint : Slot → ObjectId
  | sig => 0xC7
  | dec => 0xC8
  | aut => 0xC9
  | att => 0xDB

/-- The template that names the slot in a command. -/
def template : Slot → Bytes
  | sig => [0xB6, 0x00]
  | dec => [0xB8, 0x00]
  | aut => [0xA4, 0x00]
  | att => [0xB6, 0x03, 0x84, 0x01, 0x81]

/-- The slot whose algorithm is in an object. -/
def ofAttributes? (object : ObjectId) : Option Slot :=
  all.find? fun slot => slot.attributes == object

end Slot

end SmartCard.OpenPgp
