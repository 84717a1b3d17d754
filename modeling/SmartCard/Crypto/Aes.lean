/-
The AES block cipher with 128 and 256 bit keys. A block is a square of
four columns of four octets; a round substitutes each octet, rotates the
rows, mixes the columns and adds a round key, and the last round leaves
the mixing out.

# Two directions side by side

Every step stands next to the step that undoes it, and `encryptWith` and
`decryptWith` are the same recursion on the list of round keys, written
forwards and backwards. That the whole cipher can be undone is then an
induction over the rounds, whatever the keys are, so the key schedule
never enters into it.
-/
import SmartCard.Crypto.Block

namespace SmartCard.Aes

-- ===================================================== the octet field

/-- Multiplication by two in the field of 256 elements. -/
def double (x : UInt8) : UInt8 :=
  if x &&& 0x80 == 0 then x <<< 1 else (x <<< 1) ^^^ 0x1b

/-- Multiplication by three. -/
def triple (x : UInt8) : UInt8 :=
  double x ^^^ x

/-- Multiplication by nine. -/
def times9 (x : UInt8) : UInt8 :=
  double (double (double x)) ^^^ x

/-- Multiplication by eleven. -/
def times11 (x : UInt8) : UInt8 :=
  double (double (double x)) ^^^ double x ^^^ x

/-- Multiplication by thirteen. -/
def times13 (x : UInt8) : UInt8 :=
  double (double (double x)) ^^^ double (double x) ^^^ x

/-- Multiplication by fourteen. -/
def times14 (x : UInt8) : UInt8 :=
  double (double (double x)) ^^^ double (double x) ^^^ double x

-- ======================================================= substitution

/-- The substitution table, sixteen octets to a row: the inverse in the
field, then an affine map on the bits. -/
def substitutionRows : List Nat := [
  0x637c777bf26b6fc53001672bfed7ab76,
  0xca82c97dfa5947f0add4a2af9ca472c0,
  0xb7fd9326363ff7cc34a5e5f171d83115,
  0x04c723c31896059a071280e2eb27b275,
  0x09832c1a1b6e5aa0523bd6b329e32f84,
  0x53d100ed20fcb15b6acbbe394a4c58cf,
  0xd0efaafb434d338545f9027f503c9fa8,
  0x51a3408f929d38f5bcb6da2110fff3d2,
  0xcd0c13ec5f974417c4a77e3d645d1973,
  0x60814fdc222a908846eeb814de5e0bdb,
  0xe0323a0a4906245cc2d3ac629195e479,
  0xe7c8376d8dd54ea96c56f4ea657aae08,
  0xba78252e1ca6b4c6e8dd741f4bbd8b8a,
  0x703eb5664803f60e613557b986c11d9e,
  0xe1f8981169d98e949b1e87e9ce5528df,
  0x8ca1890dbfe6426841992d0fb054bb16]

/-- The substitution table, an entry for each octet. -/
def substitution : Vector UInt8 256 :=
  Octets.ofBytes 256 (substitutionRows.flatMap (Bytes.bigEndian 16))

/-- The inverse table: where each octet stands in the substitution
table. -/
def substitutionBack : Vector UInt8 256 :=
  Vector.ofFn fun i => UInt8.ofNat (substitution.toList.idxOf (UInt8.ofNat i))

/-- Look an octet up in a table that has an entry for each. -/
def lookup (table : Vector UInt8 256) (x : UInt8) : UInt8 :=
  table.get ⟨x.toNat, x.toNat_lt⟩

-- ============================================================== rounds

/-- Substitute every octet. -/
def subOctets (s : Block) : Block :=
  s.map (lookup substitution)

/-- Undo `subOctets`. -/
def subOctetsBack (s : Block) : Block :=
  s.map (lookup substitutionBack)

/-- Rotate row `r` of the square left by `r` places: octet `i` stands in
row `i % 4`, and one place is four octets on. -/
def shiftRows (s : Block) : Block :=
  Vector.ofFn fun i => s.get ⟨(i.val + 4 * (i.val % 4)) % 16, Nat.mod_lt _ (by decide)⟩

/-- Undo `shiftRows`. -/
def shiftRowsBack (s : Block) : Block :=
  Vector.ofFn fun i => s.get ⟨(i.val + 12 * (i.val % 4)) % 16, Nat.mod_lt _ (by decide)⟩

/-- The octet `k` rows below octet `i` in the same column, from the bottom
round to the top. -/
def below (s : Block) (i : Fin 16) (k : Nat) : UInt8 :=
  s.get ⟨4 * (i.val / 4) + (i.val + k) % 4, by omega⟩

/-- Mix each column by the circulant of 2, 3, 1, 1. -/
def mixColumns (s : Block) : Block :=
  Vector.ofFn fun i => double (below s i 0) ^^^ triple (below s i 1) ^^^ below s i 2 ^^^ below s i 3

/-- Undo `mixColumns`, by the circulant of 14, 11, 13, 9. -/
def mixColumnsBack (s : Block) : Block :=
  Vector.ofFn fun i =>
    times14 (below s i 0) ^^^ times11 (below s i 1) ^^^ times13 (below s i 2) ^^^ times9 (below s i 3)

/-- The rounds after the first key was added, one for each further round
key. The last one does not mix the columns. -/
def rounds : List Block → Block → Block
  | [], s => s
  | [key], s => Octets.xor (shiftRows (subOctets s)) key
  | key :: keys, s => rounds keys (Octets.xor (mixColumns (shiftRows (subOctets s))) key)

/-- Undo `rounds` under the same keys. -/
def roundsBack : List Block → Block → Block
  | [], s => s
  | [key], s => subOctetsBack (shiftRowsBack (Octets.xor s key))
  | key :: keys, s =>
    subOctetsBack (shiftRowsBack (mixColumnsBack (Octets.xor (roundsBack keys s) key)))

/-- Encrypt a block under a list of round keys. -/
def encryptWith : List Block → Block → Block
  | [], s => s
  | key :: keys, s => rounds keys (Octets.xor s key)

/-- Decrypt a block under the same list of round keys. -/
def decryptWith : List Block → Block → Block
  | [], s => s
  | key :: keys, s => Octets.xor (roundsBack keys s) key

-- ======================================================== key schedule

/-- One column of the key schedule. -/
abbrev Word := Octets 4

/-- Substitute every octet of a column. -/
def subWord (w : Word) : Word :=
  w.map (lookup substitution)

/-- What the first column of a group takes from the column before it: the
octets rotated by one and substituted, with the round constant added to the
first. -/
def firstMask (constant : UInt8) (w : Word) : Word :=
  #v[lookup substitution w[1] ^^^ constant, lookup substitution w[2], lookup substitution w[3],
    lookup substitution w[0]]

/-- The columns of the next group, from the group before it. Long keys also
substitute what the fifth column takes from the fourth. -/
def nextColumns (constant : UInt8) (long : Bool) : (position : Nat) → (previous : Word) →
    List Word → List Word
  | _, _, [] => []
  | position, previous, w :: ws =>
    let mask :=
      if position = 0 then firstMask constant previous
      else if long && position == 4 then subWord previous
      else previous
    let column := Octets.xor w mask
    column :: nextColumns constant long (position + 1) column ws

/-- The group of columns and the `count` groups that follow from it. -/
def columnGroups (long : Bool) : (count : Nat) → (constant : UInt8) → List Word → List Word
  | 0, _, group => group
  | count + 1, constant, group =>
    let last := group.getLastD (Octets.zero 4)
    group ++ columnGroups long count (double constant) (nextColumns constant long 0 last group)

/-- The columns of a key, four octets each. -/
def keyColumns (key : Bytes) : List Word :=
  (Bytes.pieces 4 (key.length / 4) key).map (Octets.ofBytes 4)

/-- The round keys of a 128 bit key: eleven, from ten groups of four
columns after the key's own. -/
def roundKeys128 (key : Octets 16) : List Block :=
  Block.split ((columnGroups false 10 1 (keyColumns key.toList)).flatMap Vector.toList)

/-- The round keys of a 256 bit key: fifteen, from seven groups of eight
columns after the key's own, the last half unused. -/
def roundKeys256 (key : Octets 32) : List Block :=
  (Block.split ((columnGroups true 7 1 (keyColumns key.toList)).flatMap Vector.toList)).take 15

/-- AES under a 128 bit key. -/
def cipher128 (key : Octets 16) : BlockCipher :=
  let keys := roundKeys128 key
  ⟨encryptWith keys, decryptWith keys⟩

/-- AES under a 256 bit key. -/
def cipher256 (key : Octets 32) : BlockCipher :=
  let keys := roundKeys256 key
  ⟨encryptWith keys, decryptWith keys⟩

end SmartCard.Aes
