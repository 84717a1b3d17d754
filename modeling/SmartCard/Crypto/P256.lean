/-
The NIST curve P-256, y² = x³ − 3x + b over the integers modulo `p`, and
key agreement on it. Points are added in projective form, so that a whole
multiplication needs one division only, at its end.
-/
import SmartCard.Crypto.Block

namespace SmartCard.P256

/-- The field has `p` elements. -/
def p : Nat :=
  0xffffffff00000001000000000000000000000000ffffffffffffffffffffffff

/-- The constant of the curve equation. -/
def b : Nat :=
  0x5ac635d8aa3a93e7b3ebbd55769886bc651d06b0cc53b0f63bce3c3e27d2604b

/-- The number of points. -/
def order : Nat :=
  0xffffffff00000000ffffffffffffffffbce6faada7179e84f3b9cac2fc632551

/-- A finite point of the plane, on the curve or not. -/
structure Point where
  x : Nat
  y : Nat
  deriving DecidableEq

/-- The generator. -/
def generator : Point :=
  ⟨0x6b17d1f2e12c4247f8bce6e563a440f277037d812deb33a0f4a13945d898c296,
    0x4fe342e2fe1a7f9b8ee7eb4a7c0f9e162bce33576b315ececbb6406837bf51f5⟩

/-- Reduced coordinates that satisfy the curve equation. -/
def Point.onCurve (a : Point) : Bool :=
  a.x < p && a.y < p && a.y * a.y % p == (a.x * a.x * a.x + (p - 3) * a.x + b) % p

-- ================================================== projective points

/-- The point (x / z², y / z³), the neutral point where z is zero. -/
structure Projective where
  x : Nat
  y : Nat
  z : Nat

/-- The neutral point. -/
def Projective.zero : Projective := ⟨1, 1, 0⟩

/-- Difference in the field. -/
def sub (a c : Nat) : Nat :=
  (a + (p - c % p)) % p

/-- Twice a point. -/
def Projective.double (a : Projective) : Projective :=
  if a.z = 0 || a.y = 0 then .zero
  else
    let zz := a.z * a.z % p
    let yy := a.y * a.y % p
    let s := 4 * a.x * yy % p
    let m := 3 * sub a.x zz * ((a.x + zz) % p) % p
    let x := sub (m * m % p) (2 * s)
    ⟨x, sub (m * sub s x % p) (8 * yy * yy), 2 * a.y * a.z % p⟩

/-- The sum of two points. -/
def Projective.add (a c : Projective) : Projective :=
  if a.z = 0 then c
  else if c.z = 0 then a
  else
    let zza := a.z * a.z % p
    let zzc := c.z * c.z % p
    let u := a.x * zzc % p
    let v := c.x * zza % p
    let s := a.y * zzc % p * c.z % p
    let t := c.y * zza % p * a.z % p
    if u = v then
      if s = t then a.double else .zero
    else
      let h := sub v u
      let r := sub t s
      let hh := h * h % p
      let hhh := h * hh % p
      let w := u * hh % p
      let x := sub (r * r % p) (hhh + 2 * w)
      ⟨x, sub (r * sub w x % p) (s * hhh), a.z * c.z % p * h % p⟩

/-- The multiple of `base` by the number with the given binary digits, most
significant first, added on to the multiple so far. -/
def multiplyBits (base : Projective) (digits : List Bool) : Projective :=
  digits.foldl (fun sum digit => if digit then sum.double.add base else sum.double) .zero

/-- The 256 binary digits of a number, most significant first. -/
def bits (n : Nat) : List Bool :=
  (List.range 256).map fun i => n.testBit (255 - i)

/-- Powers in the field, by the digits of the exponent. -/
def power (a n : Nat) : Nat :=
  (bits n).foldl (fun r digit => if digit then r * r % p * a % p else r * r % p) 1

/-- The inverse in the field, by the little theorem. -/
def inverse (a : Nat) : Nat :=
  power a (p - 2)

/-- The finite point that a projective one stands for, none for the neutral
point. -/
def Projective.toPoint? (a : Projective) : Option Point :=
  if a.z = 0 then none
  else
    let i := inverse a.z
    let ii := i * i % p
    some ⟨a.x * ii % p, a.y * ii % p * i % p⟩

/-- The multiple of a point by a number below 2^256. -/
def multiply (n : Nat) (a : Point) : Option Point :=
  (multiplyBits ⟨a.x, a.y, 1⟩ (bits n)).toPoint?

-- ======================================================= key agreement

/-- A private key: a number between one and the order of the curve. -/
structure Scalar where
  val : Nat
  pos : 0 < val
  lt : val < order

/-- The private key with the given big-endian octets, if they are in
range. -/
def Scalar.ofBytes? (octets : Bytes) : Option Scalar :=
  let n := Bytes.toNat octets
  if h : 0 < n ∧ n < order then some ⟨n, h.1, h.2⟩ else none

/-- The public key of a private key. -/
def Scalar.publicKey (d : Scalar) : Point :=
  (multiply d.val generator).getD ⟨0, 0⟩

/-- The octets that two parties agree on: the first coordinate of the
private key's multiple of the other side's public key. -/
def agree (d : Scalar) (peer : Point) : Octets 32 :=
  let x := match multiply d.val peer with
    | some q => q.x
    | none => 0
  Octets.ofBytes 32 (Bytes.bigEndian 32 x)

end SmartCard.P256
