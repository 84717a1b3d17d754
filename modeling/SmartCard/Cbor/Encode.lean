/-
Writing values. Every head is as short as its number allows, lengths are
definite, and the entries of a map stay in order; a floating point number
takes the shortest of the three formats that keeps all its bits.
-/
import SmartCard.Cbor.Float
import SmartCard.Cbor.Value

namespace SmartCard.Cbor

/-- The head of an item: the major type in the top three bits, and the
number in the other five or in the octets behind. -/
def head (major : Nat) (n : Nat) : Bytes :=
  if n < 24 then [UInt8.ofNat (32 * major + n)]
  else if n < 0x100 then UInt8.ofNat (32 * major + 24) :: Bytes.bigEndian 1 n
  else if n < 0x10000 then UInt8.ofNat (32 * major + 25) :: Bytes.bigEndian 2 n
  else if n < 0x100000000 then UInt8.ofNat (32 * major + 26) :: Bytes.bigEndian 4 n
  else UInt8.ofNat (32 * major + 27) :: Bytes.bigEndian 8 n

/-- A floating point number in the shortest format that keeps its bits. -/
def encodeFloat (bits : Nat) : Bytes :=
  match FloatFormat.half.narrow? bits with
  | some h => 0xf9 :: Bytes.bigEndian 2 h
  | none =>
    match FloatFormat.single.narrow? bits with
    | some s => 0xfa :: Bytes.bigEndian 4 s
    | none => 0xfb :: Bytes.bigEndian 8 bits

mutual

/-- The octets of a value. -/
def encode : Cbor → Bytes
  | unsigned n => head 0 n.toNat
  | negative n => head 1 n.toNat
  | bytes octets => head 2 octets.length ++ octets
  | text t => head 3 (Utf8.encode t).length ++ Utf8.encode t
  | array items => head 4 items.length ++ encodeItems items
  | map entries => head 5 entries.length ++ encodeEntries entries
  | tag number value => head 6 number.toNat ++ encode value
  | bool false => [0xf4]
  | bool true => [0xf5]
  | null => [0xf6]
  | float bits => encodeFloat bits.toNat

/-- The octets of values in a row. -/
def encodeItems : List Cbor → Bytes
  | [] => []
  | item :: items => encode item ++ encodeItems items

/-- The octets of the entries of a map. -/
def encodeEntries : List (Cbor × Cbor) → Bytes
  | [] => []
  | (key, value) :: entries => encode key ++ encode value ++ encodeEntries entries

end

end SmartCard.Cbor
