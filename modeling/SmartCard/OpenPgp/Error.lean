/-
What can go wrong in a session with the OpenPGP application.
-/
import SmartCard.OpenPgp.Algorithm
import SmartCard.Tlv.Read
import SmartCard.Error

namespace SmartCard.OpenPgp

/-- What a card or an operation does not support. -/
inductive UnsupportedFault
  /-- The card gives no random octets. -/
  | challenge
  /-- More random octets than the card gives at a time. -/
  | challengeLength (length limit : Nat)
  /-- The algorithms of the card are fixed. -/
  | fixedAttributes
  /-- The card does not list the slot. -/
  | slot (slot : Slot)
  /-- The card does not list the algorithm for the slot. -/
  | attributes (a : Attributes)
  /-- Another size than the fixed one. -/
  | rsaSize
  /-- Another key than one of the fixed size. -/
  | onlyRsa2048
  /-- Deletion of keys, before version 4. -/
  | deletion
  deriving DecidableEq, Repr

/-- The fault in words. -/
def UnsupportedFault.message : UnsupportedFault → String
  | challenge => "GET CHALLENGE is not supported"
  | challengeLength length limit => s!"Challenge length {length} exceeds {limit}"
  | fixedAttributes => "Writing algorithm attributes is not supported"
  | slot s => s!"Key slot {s.name} not supported"
  | attributes a => s!"Algorithm attributes {a.text} not supported"
  | rsaSize => "Algorithm attributes not supported"
  | onlyRsa2048 => "This device only supports RSA 2048 keys"
  | deletion => "Deleting keys requires firmware 4.0.0 or later"

/-- What the state of a session or a card does not allow. -/
inductive StateFault
  /-- The session is closed. -/
  | closed
  /-- The touch policy can not be changed any more. -/
  | fixedTouchPolicy
  deriving DecidableEq, Repr

/-- The fault in words. -/
def StateFault.message : StateFault → String
  | closed => "Session is closed"
  | fixedTouchPolicy => "Cannot change UIF when set to FIXED"

/-- A failure in a session. -/
inductive Error
  /-- The exchange below failed. -/
  | card (cause : SmartCard.Error)
  /-- Octets that are no object. -/
  | tlv (cause : TlvFault)
  /-- Data of the wrong shape. -/
  | invalidData (cause : DataFault)
  /-- The card or the operation does not support it. -/
  | unsupported (cause : UnsupportedFault)
  /-- It is not allowed now. -/
  | invalidState (cause : StateFault)
  /-- The card refused the PIN. -/
  | wrongPin (remaining : UInt8)
  deriving DecidableEq, Repr

namespace Error

/-- The error in words. -/
def message : Error → String
  | card cause => cause.message
  | tlv cause => "TLV error: " ++ cause.message
  | invalidData cause => "Invalid data: " ++ cause.message
  | unsupported cause => "Unsupported: " ++ cause.message
  | invalidState cause => "Invalid state: " ++ cause.message
  | wrongPin remaining => s!"Wrong PIN, {remaining} attempts remaining"

/-- The status word that the card answered, where that is the cause. -/
def statusWord? : Error → Option StatusWord
  | card cause => cause.statusWord?
  | _ => none

end Error

end SmartCard.OpenPgp
