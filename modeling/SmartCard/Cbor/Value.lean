/-
Values of the concise binary object representation, and how to look into
them. Maps keep the order of their entries, and keys may occur more than
once; a search finds the first.
-/
import SmartCard.Text.Utf8

namespace SmartCard

/-- A value. -/
inductive Cbor
  /-- The number `n`. -/
  | unsigned (n : UInt64)
  /-- The number −1 − `n`. -/
  | negative (n : UInt64)
  /-- Octets. -/
  | bytes (octets : Bytes)
  /-- Text. -/
  | text (text : String)
  /-- Values in a row. -/
  | array (items : List Cbor)
  /-- Keys with values. -/
  | map (entries : List (Cbor × Cbor))
  /-- A value under a tag. -/
  | tag (number : UInt64) (value : Cbor)
  /-- A truth value. -/
  | bool (value : Bool)
  /-- Nothing. -/
  | null
  /-- A floating point number, as the bits of a double. -/
  | float (bits : UInt64)

namespace Cbor

/-- The value of a whole number. The number must be between −2^64 and
2^64 − 1. -/
def ofInt (k : Int) : Cbor :=
  if 0 ≤ k then unsigned (UInt64.ofNat k.toNat) else negative (UInt64.ofNat (-1 - k).toNat)

/-- The whole number that a value is. -/
def int? : Cbor → Option Int
  | unsigned n => some n.toNat
  | negative n => some (-1 - n.toNat)
  | _ => none

/-- The octet that a value is, as a whole number. -/
def octet? (v : Cbor) : Option UInt8 :=
  match v.int? with
  | some k => if 0 ≤ k && k < 256 then some (UInt8.ofNat k.toNat) else none
  | none => none

/-- The whole number that a value is, within 64 bits with a sign. -/
def signed? (v : Cbor) : Option Int :=
  match v.int? with
  | some k => if -0x8000000000000000 ≤ k && k < 0x8000000000000000 then some k else none
  | none => none

/-- The octets that a value is. -/
def bytes? : Cbor → Option Bytes
  | bytes octets => some octets
  | _ => none

/-- The text that a value is. -/
def text? : Cbor → Option String
  | text t => some t
  | _ => none

/-- The truth value that a value is. -/
def bool? : Cbor → Option Bool
  | bool b => some b
  | _ => none

/-- The entries of a map. -/
def entries? : Cbor → Option (List (Cbor × Cbor))
  | map entries => some entries
  | _ => none

/-- The value of the first entry whose key is the given number. -/
def lookup (entries : List (Cbor × Cbor)) (key : Int) : Option Cbor :=
  (entries.find? fun entry => entry.1.int? == some key).map Prod.snd

end Cbor

end SmartCard
