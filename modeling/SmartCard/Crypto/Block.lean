/-
Strings of fixed length, and the 16-octet blocks that the block ciphers
work on. A fixed length is in the type, so a key, a block or a digest can
not be mixed up with one of another size, and cutting a whole message into
blocks is a function of its own (`Block.split`).
-/
import SmartCard.Bytes

namespace SmartCard

/-- Exactly `n` octets. -/
abbrev Octets (n : Nat) := Vector UInt8 n

namespace Octets

/-- The first `n` octets of a string; zeros stand for octets it lacks. -/
def ofBytes (n : Nat) (b : Bytes) : Octets n :=
  Vector.ofFn fun i => b.getD i 0

/-- The octets of a string that has exactly `n`, nothing otherwise. -/
def ofBytes? (n : Nat) (b : Bytes) : Option (Octets n) :=
  if b.length = n then some (ofBytes n b) else none

/-- All zero. -/
def zero (n : Nat) : Octets n :=
  Vector.replicate n 0

/-- Octet by octet exclusive or. -/
def xor {n : Nat} (a b : Octets n) : Octets n :=
  Vector.zipWith (· ^^^ ·) a b

/-- Cutting the octets of a vector out of their list gives the vector. -/
theorem ofBytes_toList {n : Nat} (v : Octets n) : ofBytes n v.toList = v := by
  ext i h
  simp [ofBytes, List.getD_eq_getElem?_getD]

/-- A string of the right length is the list of its octets. -/
theorem toList_ofBytes {n : Nat} {b : Bytes} (h : b.length = n) : (ofBytes n b).toList = b := by
  subst h
  apply List.ext_getElem
  · simp
  · intro i h₁ h₂
    simp [ofBytes, List.getD_eq_getElem?_getD]

/-- Masking twice with the same octets undoes the mask. -/
theorem xor_xor_cancel {n : Nat} (a b : Octets n) : xor (xor a b) b = a := by
  apply Vector.ext
  intro i h
  rw [xor, xor, Vector.getElem_zipWith, Vector.getElem_zipWith, UInt8.xor_assoc, UInt8.xor_self,
    UInt8.xor_zero]

end Octets

/-- One block of the block ciphers, 16 octets. -/
abbrev Block := Octets 16

namespace Block

/-- The number of octets in a block. -/
def size : Nat := 16

/-- The whole blocks of a string, in order. Octets after the last whole
block are left out. -/
def split (b : Bytes) : List Block :=
  (Bytes.pieces size (b.length / size) b).map (Octets.ofBytes 16)

/-- The octets of a list of blocks, in order. -/
def join (blocks : List Block) : Bytes :=
  blocks.flatMap Vector.toList

end Block

/-- A pair of maps on blocks that are meant to undo each other. -/
structure BlockCipher where
  /-- From plain to cipher block. -/
  encrypt : Block → Block
  /-- From cipher to plain block. -/
  decrypt : Block → Block

end SmartCard
