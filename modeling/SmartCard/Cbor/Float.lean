/-
Floating point numbers of three widths, as their bits. A double is kept as
it is; the two narrower formats are written where they hold the same number
to the last bit, and read by widening them.
-/

namespace SmartCard.Cbor

/-- The widths of a binary floating point format. -/
structure FloatFormat where
  /-- The width of the exponent. -/
  exponent : Nat
  /-- The width of the fraction. -/
  fraction : Nat

namespace FloatFormat

/-- Half precision. -/
def half : FloatFormat := ⟨5, 10⟩

/-- Single precision. -/
def single : FloatFormat := ⟨8, 23⟩

/-- What an exponent field of a format is raised by. -/
def bias (f : FloatFormat) : Nat :=
  Nat.pow 2 (f.exponent - 1) - 1

/-- The exponent field of infinities and of what is not a number. -/
def special (f : FloatFormat) : Nat :=
  Nat.pow 2 f.exponent - 1

/-- The bits of a double from its three fields. -/
def doubleBits (sign exponent fraction : Nat) : Nat :=
  sign * Nat.pow 2 63 + exponent * Nat.pow 2 52 + fraction

/-- The double with the value of the given bits. What is not a number stays
so, and is marked as quiet. -/
def widen (f : FloatFormat) (bits : Nat) : Nat :=
  let sign := bits / Nat.pow 2 (f.exponent + f.fraction) % 2
  let exponent := bits / Nat.pow 2 f.fraction % Nat.pow 2 f.exponent
  let fraction := bits % Nat.pow 2 f.fraction
  let aligned := fraction * Nat.pow 2 (52 - f.fraction)
  if exponent = f.special then
    if fraction = 0 then doubleBits sign 2047 0
    else doubleBits sign 2047 (aligned ||| Nat.pow 2 51)
  else if exponent = 0 then
    if fraction = 0 then doubleBits sign 0 0
    else
      let top := fraction.log2
      doubleBits sign (1024 + top - f.bias - f.fraction)
        ((fraction - Nat.pow 2 top) * Nat.pow 2 (52 - top))
  else doubleBits sign (exponent + 1023 - f.bias) aligned

/-- The bits that hold a double's number, where the format has it. Other
doubles give bits of some other number. -/
def narrow (f : FloatFormat) (bits : Nat) : Nat :=
  let sign := bits / Nat.pow 2 63
  let exponent := bits / Nat.pow 2 52 % Nat.pow 2 11
  let fraction := bits % Nat.pow 2 52
  let field :=
    if exponent = 2047 then f.special * Nat.pow 2 f.fraction + fraction / Nat.pow 2 (52 - f.fraction)
    else if exponent + f.bias ≥ 1023 + f.special then f.special * Nat.pow 2 f.fraction
    else if exponent + f.bias > 1023 then
      (exponent + f.bias - 1023) * Nat.pow 2 f.fraction + fraction / Nat.pow 2 (52 - f.fraction)
    else (Nat.pow 2 52 + fraction) / Nat.pow 2 (52 - f.fraction + (1024 - exponent - f.bias))
  sign * Nat.pow 2 (f.exponent + f.fraction) + field

/-- The bits in this format of a double, if it holds the same number to the
last bit. -/
def narrow? (f : FloatFormat) (bits : Nat) : Option Nat :=
  let candidate := f.narrow bits
  if f.widen candidate = bits then some candidate else none

end FloatFormat

/-- Whether the bits of a double are those of no number. -/
def isNaN (bits : UInt64) : Bool :=
  bits &&& 0x7fffffffffffffff > 0x7ff0000000000000

end SmartCard.Cbor
