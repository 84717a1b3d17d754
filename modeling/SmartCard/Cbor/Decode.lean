/-
Reading values. The reader takes one value from the front and leaves the
rest alone. It accepts more than the writer writes: heads longer than they
need be, and strings, arrays and maps of indefinite length, which become
definite. What it refuses, it refuses as a whole.

# Big numbers

A tag 2 or 3 in front of at most sixteen octets stands for a number that
may be too large for a head. Numbers that fit become plain numbers; larger
ones stay under their tag, without leading zeros.

# Fuel

The functions call each other once for each head and once for each place in
a row, so twice the number of octets is more steps than any input takes.
-/
import SmartCard.Cbor.Float
import SmartCard.Cbor.Value

namespace SmartCard.Cbor

/-- The head of an item. -/
structure Head where
  /-- The type, the top three bits. -/
  major : Nat
  /-- The other five bits: the number itself, or how it is written. -/
  minor : Nat
  /-- The number, zero where the length is indefinite. -/
  value : Nat

namespace Head

/-- Whether the length is indefinite. With the last major type, this is the
end of something indefinite. -/
def isIndefinite (h : Head) : Bool :=
  h.minor == 31

/-- The end of something indefinite. -/
def isBreak (h : Head) : Bool :=
  h.major == 7 && h.isIndefinite

end Head

/-- A fixed number of octets from the front. -/
def take? (n : Nat) (input : Bytes) : Option (Bytes × Bytes) :=
  let front := input.take n
  if front.length = n then some (front, input.drop n) else none

/-- The number in a head, by the five low bits, and what follows. -/
def readNumber (minor : Nat) (input : Bytes) : Option (Nat × Bytes) :=
  let wide (width : Nat) := (take? width input).map fun (field, rest) => (Bytes.toNat field, rest)
  match minor with
  | 24 => wide 1
  | 25 => wide 2
  | 26 => wide 4
  | 27 => wide 8
  | 31 => some (0, input)
  | _ => if minor < 24 then some (minor, input) else none

/-- The head in front, and what follows. -/
def readHead : Bytes → Option (Head × Bytes)
  | [] => none
  | first :: rest => do
    let major := first.toNat / 32
    let minor := first.toNat % 32
    let (value, rest) ← readNumber minor rest
    return (⟨major, minor, value⟩, rest)

-- ============================================================== strings

/-- The pieces of a string of indefinite length, up to its end. A piece may
again be of indefinite length; `nesting` such pieces are open beside the
string itself. -/
def readPieces (major : Nat) : (fuel : Nat) → (nesting : Nat) → Bytes → Option (List Bytes × Bytes)
  | 0, _, _ => none
  | fuel + 1, nesting, input => do
    let (h, rest) ← readHead input
    if h.isBreak then
      match nesting with
      | 0 => return ([], rest)
      | nesting + 1 => readPieces major fuel nesting rest
    else if h.major ≠ major then none
    else if h.isIndefinite then readPieces major fuel (nesting + 1) rest
    else
      let (piece, rest) ← take? h.value rest
      let (pieces, rest) ← readPieces major fuel nesting rest
      return (piece :: pieces, rest)

/-- The pieces of a string whose head was read: one, if its length is
definite. -/
def readString (fuel : Nat) (h : Head) (rest : Bytes) : Option (List Bytes × Bytes) :=
  if h.isIndefinite then readPieces h.major fuel 0 rest
  else (take? h.value rest).map fun (piece, rest) => ([piece], rest)

/-- The text of pieces that are well formed each on its own. -/
def joinText (pieces : List Bytes) : Option String :=
  (pieces.mapM Utf8.decode?).map String.join

-- =============================================================== numbers

/-- The value of a number under tag 2, or of −1 less the number under tag
3. None where that is below −2^127. -/
def bigNumber (tagNumber : Nat) (octets : Bytes) : Option Cbor :=
  let n := Bytes.toNat octets
  if n < 0x10000000000000000 then
    some (if tagNumber = 2 then unsigned (UInt64.ofNat n) else negative (UInt64.ofNat n))
  else if tagNumber = 3 && n ≥ Nat.pow 2 127 then none
  else some (tag (UInt64.ofNat tagNumber) (bytes (Bytes.stripLeadingZeros octets)))

/-- The octets of a big number behind its tag, if that is what follows. -/
def readBigOctets (tagNumber : Nat) (input : Bytes) : Option (Head × Bytes) := do
  let (h, rest) ← readHead input
  if (tagNumber = 2 || tagNumber = 3) && h.major == 2 && !h.isIndefinite && h.value ≤ 16 then
    return (h, rest)
  else none

/-- The values that have a head to themselves: truth values, nothing, and
floating point numbers. -/
def simple (h : Head) : Option Cbor :=
  match h.minor with
  | 25 => some (float (UInt64.ofNat (FloatFormat.half.widen h.value)))
  | 26 => some (float (UInt64.ofNat (FloatFormat.single.widen h.value)))
  | 27 => some (float (UInt64.ofNat h.value))
  | 31 => none
  | _ =>
    match h.value with
    | 20 => some (bool false)
    | 21 => some (bool true)
    | 22 => some null
    | 23 => some null
    | _ => none

-- ================================================================ values

/-- What follows the row, if it ends here: after the last of a counted row,
or at the mark that ends an uncounted one. -/
def atEnd (count : Option Nat) (input : Bytes) : Option Bytes :=
  match count with
  | some 0 => some input
  | some _ => none
  | none =>
    match input with
    | 0xff :: rest => some rest
    | _ => none

mutual

/-- The value in front, and what follows. Arrays, maps and tags may be
`depth` deep. -/
def readValue : (fuel : Nat) → (depth : Nat) → Bytes → Option (Cbor × Bytes)
  | 0, _, _ => none
  | fuel + 1, depth, input => do
    let (h, rest) ← readHead input
    match h.major with
    | 0 => if h.isIndefinite then none else some (unsigned (UInt64.ofNat h.value), rest)
    | 1 => if h.isIndefinite then none else some (negative (UInt64.ofNat h.value), rest)
    | 2 =>
      let (pieces, rest) ← readString fuel h rest
      return (bytes pieces.flatten, rest)
    | 3 =>
      let (pieces, rest) ← readString fuel h rest
      let joined ← joinText pieces
      return (text joined, rest)
    | 4 =>
      match depth with
      | 0 => none
      | depth + 1 =>
        let (items, rest) ← readItems fuel depth (if h.isIndefinite then none else some h.value) rest
        return (array items, rest)
    | 5 =>
      match depth with
      | 0 => none
      | depth + 1 =>
        let (entries, rest) ← readEntries fuel depth (if h.isIndefinite then none else some h.value) rest
        return (map entries, rest)
    | 6 =>
      if h.isIndefinite then none
      else match readBigOctets h.value rest with
        | some (string, rest) =>
          let (octets, rest) ← take? string.value rest
          let number ← bigNumber h.value octets
          return (number, rest)
        | none =>
          match depth with
          | 0 => none
          | depth + 1 =>
            let (value, rest) ← readValue fuel depth rest
            return (tag (UInt64.ofNat h.value) value, rest)
    | _ => (simple h).map fun value => (value, rest)

/-- Values in a row: `count` of them, or up to the end where that is not
given. -/
def readItems : (fuel : Nat) → (depth : Nat) → (count : Option Nat) → Bytes →
    Option (List Cbor × Bytes)
  | 0, _, _, _ => none
  | fuel + 1, depth, count, input =>
    match atEnd count input with
    | some rest => some ([], rest)
    | none => do
      let (item, rest) ← readValue fuel depth input
      let (items, rest) ← readItems fuel depth (count.map (· - 1)) rest
      return (item :: items, rest)

/-- Entries in a row, in the same way. -/
def readEntries : (fuel : Nat) → (depth : Nat) → (count : Option Nat) → Bytes →
    Option (List (Cbor × Cbor) × Bytes)
  | 0, _, _, _ => none
  | fuel + 1, depth, count, input =>
    match atEnd count input with
    | some rest => some ([], rest)
    | none => do
      let (key, rest) ← readValue fuel depth input
      let (value, rest) ← readValue fuel depth rest
      let (entries, rest) ← readEntries fuel depth (count.map (· - 1)) rest
      return ((key, value) :: entries, rest)

end

/-- The value in front of the input. Octets after it are left out. -/
def decode (input : Bytes) : Option Cbor :=
  (readValue (2 * input.length + 1) 256 input).map Prod.fst

end SmartCard.Cbor
