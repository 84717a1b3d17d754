/-
ECDSA signatures. A card returns the two numbers of a signature one after
the other, in the same number of octets each; elsewhere they are expected
as a sequence of two integers.
-/
import SmartCard.Tlv.Object

namespace SmartCard.OpenPgp

/-- The content of an integer that is not negative: no zeros in front but
one before a set top bit, and at least one octet. -/
def integerContent (number : Bytes) : Bytes :=
  match Bytes.stripLeadingZeros number with
  | [] => [0x00]
  | first :: rest => if first &&& 0x80 != 0 then 0x00 :: first :: rest else first :: rest

/-- The two halves of a signature as a sequence of two integers. -/
def signatureSequence (raw : Bytes) : Tlv :=
  let half := raw.length / 2
  .constructed [0x30] [
    .primitive [0x02] (integerContent (raw.take half)),
    .primitive [0x02] (integerContent (raw.drop half))]

/-- The octets of the sequence. -/
def derSignature (raw : Bytes) : Bytes :=
  (signatureSequence raw).bytes

end SmartCard.OpenPgp
