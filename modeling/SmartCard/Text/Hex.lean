/-
Octets as hexadecimal digits, two to an octet: how they are written, and
how the small letters are read back.
-/
import SmartCard.Bytes

namespace SmartCard.Hex

/-- The letters used for the digits from ten on. -/
inductive Letters
  | lower
  | upper

/-- The digit of a number below 16. -/
def digit (letters : Letters) (n : Nat) : Char :=
  if n < 10 then Char.ofNat (48 + n)
  else match letters with
    | .lower => Char.ofNat (87 + n)
    | .upper => Char.ofNat (55 + n)

/-- Both digits of an octet. -/
def digits (letters : Letters) (x : UInt8) : List Char :=
  [digit letters (x.toNat / 16), digit letters (x.toNat % 16)]

/-- An octet in small letters. -/
def octet (x : UInt8) : String :=
  String.ofList (digits .lower x)

/-- An octet in capital letters. -/
def capitals (x : UInt8) : String :=
  String.ofList (digits .upper x)

/-- A string of octets in small letters. -/
def bytes (b : Bytes) : String :=
  String.ofList (b.flatMap (digits .lower))

-- =============================================================== reading

/-- The value of a digit in small letters. -/
def value? (c : Char) : Option UInt8 :=
  if '0' ≤ c && c ≤ '9' then some (UInt8.ofNat (c.toNat - 48))
  else if 'a' ≤ c && c ≤ 'f' then some (UInt8.ofNat (c.toNat - 87))
  else none

/-- The octets with the given digits, behind octets that were read before,
the latest first. -/
def readOnto (done : Bytes) : List Char → Option Bytes
  | [] => some done.reverse
  | [_] => none
  | high :: low :: rest =>
    match value? high, value? low with
    | some h, some l => readOnto ((16 * h + l) :: done) rest
    | _, _ => none

/-- The octets that a text has the digits of. -/
def parse? (text : String) : Option Bytes :=
  readOnto [] text.toList

end SmartCard.Hex
