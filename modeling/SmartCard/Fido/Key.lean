/-
Public keys of key agreement, in the form they are sent: a map with the
type of the key, its algorithm, its curve and its two coordinates.
-/
import SmartCard.Cbor.Encode
import SmartCard.Cbor.Decode
import SmartCard.Crypto.P256
import SmartCard.Fido.Error

namespace SmartCard.Fido

/-- The value in some octets, or the error of octets that hold none. -/
def valueOf (octets : Bytes) : Except Error Cbor :=
  match Cbor.decode octets with
  | some v => .ok v
  | none => .error .cbor

/-- The entries of a map, or the fault of a value that is none. -/
def entriesOf (v : Cbor) : Except Error (List (Cbor × Cbor)) :=
  match v.entries? with
  | some entries => .ok entries
  | none => .error (.invalidResponse .notMap)

/-- Two coordinates, of a point that may or may not be on the curve. -/
structure PublicKey where
  x : Octets 32
  y : Octets 32
  deriving DecidableEq

namespace PublicKey

/-- The labels of the entries. -/
def keyType : Int := 1
def algorithm : Int := 3
def curve : Int := -1
def xCoordinate : Int := -2
def yCoordinate : Int := -3

/-- The type of elliptic curve keys with two coordinates. -/
def ec2 : Int := 2

/-- The algorithm of key agreement. -/
def ecdhHkdf256 : Int := -25

/-- The number of the curve P-256. -/
def p256 : Int := 1

/-- The key of a point. -/
def ofPoint (a : P256.Point) : PublicKey where
  x := Octets.ofBytes 32 (Bytes.bigEndian 32 a.x)
  y := Octets.ofBytes 32 (Bytes.bigEndian 32 a.y)

/-- The coordinates as numbers. -/
def point (k : PublicKey) : P256.Point :=
  ⟨Bytes.toNat k.x.toList, Bytes.toNat k.y.toList⟩

/-- Whether the point is on the curve. -/
def isValid (k : PublicKey) : Bool :=
  k.point.onCurve

/-- The point, which must be on the curve. -/
def toPoint (k : PublicKey) : Except Error P256.Point :=
  if k.isValid then .ok k.point else .error (.crypto .invalidPublicKey)

/-- The map of a key. -/
def toCbor (k : PublicKey) : Cbor :=
  .map [
    (.ofInt keyType, .ofInt ec2),
    (.ofInt algorithm, .ofInt ecdhHkdf256),
    (.ofInt curve, .ofInt p256),
    (.ofInt xCoordinate, .bytes k.x.toList),
    (.ofInt yCoordinate, .bytes k.y.toList)]

/-- One coordinate in the entries of a key. -/
def coordinate (entries : List (Cbor × Cbor)) (label : Int) : Except Error (Octets 32) :=
  match (Cbor.lookup entries label).bind Cbor.bytes? with
  | none => .error (.invalidResponse .coordinateMissing)
  | some octets =>
    match Octets.ofBytes? 32 octets with
    | some c => .ok c
    | none => .error (.invalidResponse .coordinateLength)

/-- Read the map of a key. Its type and curve must be right; its algorithm
is not looked at. -/
def ofCbor (v : Cbor) : Except Error PublicKey := do
  let entries ← entriesOf v
  if (Cbor.lookup entries keyType).bind Cbor.signed? ≠ some ec2 then
    throw (.invalidResponse .keyType)
  if (Cbor.lookup entries curve).bind Cbor.signed? ≠ some p256 then
    throw (.invalidResponse .keyCurve)
  return ⟨← coordinate entries xCoordinate, ← coordinate entries yCoordinate⟩

end PublicKey

end SmartCard.Fido
