/-
Tags and lengths written and read without a tree. Some objects of the
OpenPGP application hold bare heads, which no tree has a place for.
-/
import SmartCard.Bytes

namespace SmartCard.Tlv

/-- A length in one, two or three octets. Of lengths above 65535, the low
two octets are written. -/
def lengthField (n : Nat) : Bytes :=
  if n ≤ 0x7F then [UInt8.ofNat n]
  else if n ≤ 0xFF then [0x81, UInt8.ofNat n]
  else 0x82 :: Bytes.bigEndian 2 n

/-- A tag number in one octet, or two if it needs them. -/
def tagField (tag : UInt16) : Bytes :=
  if tag > 0xFF then Bytes.bigEndian 2 tag.toNat else [tag.toUInt8]

/-- A tag, the length of a value, and the value. -/
def field (tag : UInt16) (value : Bytes) : Bytes :=
  tagField tag ++ lengthField value.length ++ value

/-- The length in a head with a tag of one octet, and what follows the
head. -/
def splitHead : Bytes → Option (Nat × Bytes)
  | _ :: 0x81 :: length :: rest => some (length.toNat, rest)
  | _ :: 0x82 :: high :: low :: rest => some (Bytes.toNat [high, low], rest)
  | _ :: length :: rest => if length ≤ 0x7F then some (length.toNat, rest) else none
  | _ => none

end SmartCard.Tlv
