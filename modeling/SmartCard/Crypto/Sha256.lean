/-
The SHA-256 digest: the message is padded to whole blocks of 64 octets,
each block is expanded to 64 words, and 64 steps on eight registers fold
the words into the digest so far.
-/
import SmartCard.Crypto.Block

namespace SmartCard.Sha256

/-- A digest is 32 octets. -/
abbrev Digest := Octets 32

/-- The eight registers. -/
structure Registers where
  a : UInt32
  b : UInt32
  c : UInt32
  d : UInt32
  e : UInt32
  f : UInt32
  g : UInt32
  h : UInt32

/-- The registers before the first block. -/
def initial : Registers :=
  ⟨0x6a09e667, 0xbb67ae85, 0x3c6ef372, 0xa54ff53a, 0x510e527f, 0x9b05688c, 0x1f83d9ab, 0x5be0cd19⟩

/-- The constant added in each of the 64 steps. -/
def stepConstants : List UInt32 := [
  0x428a2f98, 0x71374491, 0xb5c0fbcf, 0xe9b5dba5, 0x3956c25b, 0x59f111f1, 0x923f82a4, 0xab1c5ed5,
  0xd807aa98, 0x12835b01, 0x243185be, 0x550c7dc3, 0x72be5d74, 0x80deb1fe, 0x9bdc06a7, 0xc19bf174,
  0xe49b69c1, 0xefbe4786, 0x0fc19dc6, 0x240ca1cc, 0x2de92c6f, 0x4a7484aa, 0x5cb0a9dc, 0x76f988da,
  0x983e5152, 0xa831c66d, 0xb00327c8, 0xbf597fc7, 0xc6e00bf3, 0xd5a79147, 0x06ca6351, 0x14292967,
  0x27b70a85, 0x2e1b2138, 0x4d2c6dfc, 0x53380d13, 0x650a7354, 0x766a0abb, 0x81c2c92e, 0x92722c85,
  0xa2bfe8a1, 0xa81a664b, 0xc24b8b70, 0xc76c51a3, 0xd192e819, 0xd6990624, 0xf40e3585, 0x106aa070,
  0x19a4c116, 0x1e376c08, 0x2748774c, 0x34b0bcb5, 0x391c0cb3, 0x4ed8aa4a, 0x5b9cca4f, 0x682e6ff3,
  0x748f82ee, 0x78a5636f, 0x84c87814, 0x8cc70208, 0x90befffa, 0xa4506ceb, 0xbef9a3f7, 0xc67178f2]

/-- Rotation to the right, for amounts between 1 and 31. -/
def rotateRight (x : UInt32) (n : UInt32) : UInt32 :=
  (x >>> n) ||| (x <<< (32 - n))

/-- The word of four octets, most significant first. -/
def wordOf (b : Bytes) : UInt32 :=
  UInt32.ofNat (Bytes.toNat b)

/-- `count` further words of the schedule, each from the sixteen before it.
The window holds those sixteen, oldest first. -/
def extend : (count : Nat) → (window : List UInt32) → List UInt32
  | 0, _ => []
  | count + 1, window =>
    let w2 := window.getD 14 0
    let w15 := window.getD 1 0
    let s0 := rotateRight w15 7 ^^^ rotateRight w15 18 ^^^ (w15 >>> 3)
    let s1 := rotateRight w2 17 ^^^ rotateRight w2 19 ^^^ (w2 >>> 10)
    let w := window.getD 0 0 + s0 + window.getD 9 0 + s1
    w :: extend count (window.drop 1 ++ [w])

/-- The 64 words of a block: its own sixteen, then 48 derived ones. -/
def schedule (block : Bytes) : List UInt32 :=
  let words := (Bytes.pieces 4 16 block).map wordOf
  words ++ extend 48 words

/-- One step, with the word and the constant already added up. -/
def step (r : Registers) (k : UInt32) : Registers :=
  let s1 := rotateRight r.e 6 ^^^ rotateRight r.e 11 ^^^ rotateRight r.e 25
  let choice := (r.e &&& r.f) ^^^ (~~~r.e &&& r.g)
  let t1 := r.h + s1 + choice + k
  let s0 := rotateRight r.a 2 ^^^ rotateRight r.a 13 ^^^ rotateRight r.a 22
  let majority := (r.a &&& r.b) ^^^ (r.a &&& r.c) ^^^ (r.b &&& r.c)
  ⟨t1 + s0 + majority, r.a, r.b, r.c, r.d + t1, r.e, r.f, r.g⟩

/-- Fold one block into the registers. -/
def compress (r : Registers) (block : Bytes) : Registers :=
  let t := (List.zipWith (· + ·) stepConstants (schedule block)).foldl step r
  ⟨r.a + t.a, r.b + t.b, r.c + t.c, r.d + t.d, r.e + t.e, r.f + t.f, r.g + t.g, r.h + t.h⟩

/-- Whole blocks: an octet 80, zeros, and the length in bits as eight
octets. -/
def pad (message : Bytes) : Bytes :=
  message ++ 0x80 :: List.replicate ((119 - message.length % 64) % 64) 0 ++
    Bytes.bigEndian 8 (8 * message.length)

/-- The octets of the registers, in order. -/
def Registers.octets (r : Registers) : Bytes :=
  [r.a, r.b, r.c, r.d, r.e, r.f, r.g, r.h].flatMap fun w => Bytes.bigEndian 4 w.toNat

/-- The digest of a message. -/
def digest (message : Bytes) : Digest :=
  let padded := pad message
  let blocks := Bytes.pieces 64 (padded.length / 64) padded
  Octets.ofBytes 32 (blocks.foldl compress initial).octets

end SmartCard.Sha256
