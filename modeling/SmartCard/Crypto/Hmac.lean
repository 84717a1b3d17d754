/-
Keyed digests: HMAC with SHA-256, and the key derivation HKDF that is built
from it.
-/
import SmartCard.Crypto.Sha256

namespace SmartCard

/-- The key of an HMAC as one block of 64 octets: a longer key is digested
first, a shorter one is filled with zeros. -/
def Hmac.blockKey (key : Bytes) : Bytes :=
  let short := if key.length > 64 then (Sha256.digest key).toList else key
  short ++ List.replicate (64 - short.length) 0

/-- The HMAC of a message. -/
def hmac (key message : Bytes) : Sha256.Digest :=
  let block := Hmac.blockKey key
  let inner := Sha256.digest (block.map (· ^^^ 0x36) ++ message)
  Sha256.digest (block.map (· ^^^ 0x5c) ++ inner.toList)

/-- The HKDF key for `info`, 32 octets: extraction under `salt`, then the
first block of the expansion. -/
def hkdf (salt secret info : Bytes) : Sha256.Digest :=
  hmac (hmac salt secret).toList (info ++ [1])

end SmartCard
