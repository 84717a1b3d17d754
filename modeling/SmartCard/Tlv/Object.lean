/-
Objects of tag, length and value after the basic encoding rules, as trees:
a primitive object holds octets, a constructed one holds objects. This
module has the trees, how they are written, and how they are searched.

# Two lengths

The writer spells a length of 127 in two octets where one would do. The
size of an object, by which its parent's length is reckoned, counts the
shortest spelling. The two agree but for that one length.
-/
import SmartCard.Bytes

namespace SmartCard

/-- An object. A tag is kept as its octets. -/
inductive Tlv
  /-- An object that holds octets. -/
  | primitive (tag : Bytes) (content : Bytes)
  /-- An object that holds objects. -/
  | constructed (tag : Bytes) (children : List Tlv)

namespace Tlv

/-- The octets of an object's tag. -/
def tag : Tlv → Bytes
  | primitive tag _ => tag
  | constructed tag _ => tag

/-- The number of a tag: its octets as a big-endian number, of which two
octets are kept. -/
def numberOf (tag : Bytes) : UInt16 :=
  UInt16.ofNat (Bytes.toNat tag)

/-- The number of an object's tag. -/
def number (t : Tlv) : UInt16 :=
  numberOf t.tag

-- ============================================================== writing

/-- How many octets the shortest spelling of a length takes. -/
def lengthSize (n : Nat) : Nat :=
  if n < 0x80 then 1
  else if n < 0x100 then 2
  else if n < 0x10000 then 3
  else if n < 0x1000000 then 4
  else 5

mutual

/-- How many octets an object takes, its length spelled shortest. -/
def size : Tlv → Nat
  | primitive tag content => tag.length + lengthSize content.length + content.length
  | constructed tag children => tag.length + lengthSize (sizes children) + sizes children

/-- How many octets objects take together. -/
def sizes : List Tlv → Nat
  | [] => 0
  | t :: ts => size t + sizes ts

end

/-- The length of a value, as objects are written: one octet below 127,
otherwise the number of octets and the octets of the length. -/
def writtenLength (n : Nat) : Bytes :=
  if n < 127 then [UInt8.ofNat n]
  else
    let octets := Bytes.stripLeadingZeros (Bytes.bigEndian 8 n)
    UInt8.ofNat (0x80 + octets.length) :: octets

mutual

/-- The octets of an object. -/
def bytes : Tlv → Bytes
  | primitive tag content => tag ++ writtenLength content.length ++ content
  | constructed tag children => tag ++ writtenLength (sizes children) ++ bytesOfAll children

/-- The octets of objects in a row. -/
def bytesOfAll : List Tlv → Bytes
  | [] => []
  | t :: ts => bytes t ++ bytesOfAll ts

end

-- ============================================================ searching

/-- Octets by tag number. No number occurs twice. -/
abbrev Contents := List (UInt16 × Bytes)

/-- Add octets under a number that is not there yet. -/
def addNew (found : Contents) (number : UInt16) (content : Bytes) : Contents :=
  if (found.lookup number).isSome then found else found ++ [(number, content)]

mutual

/-- Add every primitive object of a tree, in depth first order. The first
one with a number stays. -/
def flatten (found : Contents) : Tlv → Contents
  | primitive tag content => addNew found (numberOf tag) content
  | constructed _ children => flattenAll found children

/-- Add every primitive object of trees in a row. -/
def flattenAll (found : Contents) : List Tlv → Contents
  | [] => found
  | t :: ts => flattenAll (flatten found t) ts

end

/-- The primitive objects of a row, without those inside others. -/
def topLevel (ts : List Tlv) : List (UInt16 × Bytes) :=
  ts.filterMap fun
    | primitive tag content => some (numberOf tag, content)
    | constructed _ _ => none

/-- The octets under a number, the last ones where it occurs more than
once. -/
def lastOf (contents : List (UInt16 × Bytes)) (number : UInt16) : Option Bytes :=
  contents.reverse.lookup number

/-- The octets of a primitive object with the given number. -/
def content? (number : UInt16) : Tlv → Option Bytes
  | primitive tag content => if numberOf tag = number then some content else none
  | constructed _ _ => none

end Tlv

end SmartCard
