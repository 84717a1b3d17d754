/-
Data of the OpenPGP application that does not have the expected shape.
-/

namespace SmartCard.OpenPgp

/-- What is wrong with data of the card or with a key. -/
inductive DataFault
  | truncatedHead
  | outerTag
  | importFormat
  | truncatedRsa
  | unknownCurve
  | unknownAlgorithm
  | shortCapabilities
  | shortPinStatus
  | unknownTouchPolicy
  | notApplicationData
  | missingAid
  | missingCapabilities
  | missingPinStatus
  | missingPoint
  | missingModulus
  | missingExponent
  | longModulus
  | missingCrtPart
  | longComponent
  | missingCounter
  | emptyTouchPolicy
  | notAlgorithmInformation
  | notConstructed
  | peerNotElliptic
  deriving DecidableEq, Repr

/-- The fault in words. -/
def DataFault.message : DataFault → String
  | truncatedHead => "Truncated TLV header"
  | outerTag => "Unexpected outer tag"
  | importFormat => "Unknown RSA import format"
  | truncatedRsa => "Truncated RSA attributes"
  | unknownCurve => "Unknown curve OID"
  | unknownAlgorithm => "Unknown algorithm id"
  | shortCapabilities => "Extended capabilities too short"
  | shortPinStatus => "PW status too short"
  | unknownTouchPolicy => "Unknown UIF value"
  | notApplicationData => "Expected application related data"
  | missingAid => "Missing AID"
  | missingCapabilities => "Missing extended capabilities"
  | missingPinStatus => "Missing PW status"
  | missingPoint => "Missing EC public key"
  | missingModulus => "Missing RSA modulus"
  | missingExponent => "Missing RSA exponent"
  | longModulus => "RSA modulus too long"
  | missingCrtPart => "CRT components missing"
  | longComponent => "Key component longer than expected"
  | missingCounter => "Missing signature counter"
  | emptyTouchPolicy => "Empty UIF data object"
  | notAlgorithmInformation => "Expected algorithm information"
  | notConstructed => "Public key object is not constructed"
  | peerNotElliptic => "Peer key must be an elliptic curve key"

end SmartCard.OpenPgp
