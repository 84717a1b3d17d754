/-
Reading objects. A reader returns what it found, or a fault, and in both
cases the octets that it did not read; whether any are left decides between
faults.

# Fuel

The functions call each other once for each object and once for each place
in a row, so twice the number of octets is more steps than any input takes.
-/
import SmartCard.Tlv.Object

namespace SmartCard

/-- What keeps octets from being an object. -/
inductive TlvFault
  /-- A tag that is zero, or octets behind the object. -/
  | invalidInput
  /-- A tag of more than three octets. -/
  | reservedTag
  /-- The input ends inside the object. -/
  | truncated
  /-- The objects inside another do not fill it exactly. -/
  | inconsistent
  /-- A length of more than four octets. -/
  | invalidLength
  deriving DecidableEq, Repr

/-- The fault in words. -/
def TlvFault.message : TlvFault → String
  | invalidInput => "Invalid tag encountered"
  | reservedTag => "Tag is reserved for future usage"
  | truncated => "Error input too short"
  | inconsistent => "Inconsistant (tag, value) pair"
  | invalidLength => "Read invalid length value"

namespace Tlv

/-- What a reader found, and what it left. -/
abbrev Reading (α : Type) := Except TlvFault α × Bytes

-- ================================================================ heads

/-- The octets of a tag after the first: up to the first below 80. -/
def readTagTail : Bytes → Reading Bytes
  | [] => (.error .truncated, [])
  | x :: rest =>
    if x < 0x80 then (.ok [x], rest)
    else match readTagTail rest with
      | (.ok tail, rest) => (.ok (x :: tail), rest)
      | (.error fault, rest) => (.error fault, rest)

/-- A tag: one octet, or up to three if the low five bits of the first are
all set. -/
def readTag : Bytes → Reading Bytes
  | [] => (.error .truncated, [])
  | first :: rest =>
    if first &&& 0x1F = 0x1F then
      match readTagTail rest with
      | (.ok tail, rest) =>
        if tail.length ≤ 2 then (.ok (first :: tail), rest) else (.error .reservedTag, rest)
      | (.error fault, rest) => (.error fault, rest)
    else if first = 0 then (.error .invalidInput, rest)
    else (.ok [first], rest)

/-- A length: one octet below 80, or 80 and the number of octets that
follow, at most four. -/
def readLength : Bytes → Reading Nat
  | [] => (.error .truncated, [])
  | first :: rest =>
    if first < 0x80 then (.ok first.toNat, rest)
    else
      let width := first.toNat - 0x80
      if width > 4 then (.error .invalidLength, rest)
      else
        let field := rest.take width
        if field.length = width then (.ok (Bytes.toNat field), rest.drop width)
        else (.error .truncated, [])

/-- Whether a tag is that of a constructed object. -/
def isConstructedTag (tag : Bytes) : Bool :=
  tag.headD 0 &&& 0x20 != 0

-- ============================================================== objects

mutual

/-- The object in front. -/
def read : (fuel : Nat) → Bytes → Reading Tlv
  | 0, input => (.error .truncated, input)
  | fuel + 1, input =>
    match readTag input with
    | (.error fault, rest) => (.error fault, rest)
    | (.ok tag, rest) =>
      match readLength rest with
      | (.error fault, rest) => (.error fault, rest)
      | (.ok length, rest) =>
        if isConstructedTag tag then
          match readChildren fuel length 0 rest with
          | (.ok children, rest) => (.ok (constructed tag children), rest)
          | (.error fault, rest) => (.error fault, rest)
        else
          let content := rest.take length
          if content.length = length then (.ok (primitive tag content), rest.drop length)
          else (.error .truncated, rest)

/-- Objects until their sizes, with the `filled` octets before them, reach
the length that they should fill. -/
def readChildren : (fuel : Nat) → (length filled : Nat) → Bytes → Reading (List Tlv)
  | 0, _, _, input => (.error .truncated, input)
  | fuel + 1, length, filled, input =>
    if filled < length then
      match read fuel input with
      | (.error fault, rest) => (.error fault, rest)
      | (.ok child, rest) =>
        match readChildren fuel length (filled + child.size) rest with
        | (.ok children, rest) => (.ok (child :: children), rest)
        | (.error fault, rest) => (.error fault, rest)
    else if filled = length then (.ok [], input)
    else (.error .inconsistent, input)

end

/-- The object in front of the input, and what follows it. -/
def parse (input : Bytes) : Reading Tlv :=
  read (2 * input.length + 1) input

/-- The object that is the whole input. Octets left unread count as the
fault, whatever else went wrong. -/
def ofBytes (input : Bytes) : Except TlvFault Tlv :=
  match parse input with
  | (result, []) => result
  | (_, _ :: _) => .error .invalidInput

/-- The objects in a row that are the whole input. -/
def parseAll (input : Bytes) : Except TlvFault (List Tlv) :=
  go input.length input
where
  /-- The row, in at most as many steps as there are octets. -/
  go : Nat → Bytes → Except TlvFault (List Tlv)
  | _, [] => .ok []
  | 0, _ :: _ => .error .truncated
  | steps + 1, input => do
    let (result, rest) := parse input
    let t ← result
    let ts ← go steps rest
    return t :: ts

/-- The objects in a row up to the first that can not be read. -/
def parseLenient (input : Bytes) : List Tlv :=
  go input.length input
where
  /-- The row, in at most as many steps as there are octets. -/
  go : Nat → Bytes → List Tlv
  | _, [] => []
  | 0, _ :: _ => []
  | steps + 1, input =>
    match parse input with
    | (.ok t, rest) => t :: go steps rest
    | (.error _, _) => []

end Tlv

end SmartCard
