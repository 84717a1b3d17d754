/-
Padding to whole blocks after ISO/IEC 7816-4: one octet 80, then as many
zeros as the block still needs. A message that already fills its blocks
gets a block of padding, so the padding can always be taken off again.
-/
import SmartCard.Crypto.Block

namespace SmartCard.Padding

/-- Append the marker octet 80 and fill the block with zeros. -/
def pad (message : Bytes) : Bytes :=
  message ++ 0x80 :: List.replicate (15 - message.length % 16) 0

/-- Take the padding off. Only the last block is searched for the marker:
nothing is returned where that block is not some octets, 80 and zeros. -/
def unpad? (padded : Bytes) : Option Bytes :=
  let body := padded.take (padded.length - 16)
  let last := padded.drop (padded.length - 16)
  match last.reverse.dropWhile (· == 0) with
  | marker :: front => if marker = 0x80 then some (body ++ front.reverse) else none
  | [] => none

end SmartCard.Padding
