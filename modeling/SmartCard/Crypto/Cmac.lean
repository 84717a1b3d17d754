/-
The CMAC of a message under a block cipher. All blocks but the last are
chained through the cipher; the last one is first masked with one of two
subkeys, which says whether it was a whole block or had to be padded, and
so keeps the two cases apart.
-/
import SmartCard.Crypto.Block

namespace SmartCard.Cmac

/-- Multiplication by two in the field of 2^128 elements, on the block read
as a big-endian number. -/
def doubleBlock (b : Block) : Block :=
  let n := 2 * Bytes.toNat b.toList
  let carried := if n < Nat.pow 2 128 then n else (n - Nat.pow 2 128) ^^^ 0x87
  Octets.ofBytes 16 (Bytes.bigEndian 16 carried)

/-- The mask of a whole last block. -/
def wholeMask (cipher : BlockCipher) : Block :=
  doubleBlock (cipher.encrypt (Octets.zero 16))

/-- The mask of a padded last block. -/
def paddedMask (cipher : BlockCipher) : Block :=
  doubleBlock (wholeMask cipher)

/-- The octets that are left for the last block: the last 16 of a message of
whole blocks, the remainder of any other, none of the empty message. -/
def lastPart (message : Bytes) : Bytes :=
  message.drop (16 * ((message.length - 1) / 16))

/-- The last block, padded if need be and masked. -/
def lastBlock (cipher : BlockCipher) (message : Bytes) : Block :=
  let part := lastPart message
  if part.length = 16 then Octets.xor (Octets.ofBytes 16 part) (wholeMask cipher)
  else Octets.xor (Octets.ofBytes 16 (part ++ [0x80])) (paddedMask cipher)

/-- The blocks before the last one. -/
def leadingBlocks (message : Bytes) : List Block :=
  (Bytes.pieces 16 ((message.length - 1) / 16) message).map (Octets.ofBytes 16)

/-- The CMAC of a message. -/
def cmac (cipher : BlockCipher) (message : Bytes) : Block :=
  let chained := (leadingBlocks message).foldl (fun x b => cipher.encrypt (Octets.xor x b)) (Octets.zero 16)
  cipher.encrypt (Octets.xor chained (lastBlock cipher message))

end SmartCard.Cmac
