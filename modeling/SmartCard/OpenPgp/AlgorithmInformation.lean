/-
The algorithms that each key slot accepts: as newer devices list them, as
older ones are known to accept them, and with the known mistakes of some
lists put right.
-/
import SmartCard.OpenPgp.Algorithm
import SmartCard.Tlv.Read
import SmartCard.Version

namespace SmartCard.OpenPgp

/-- The algorithms of each slot, nothing for slots that are not listed. -/
abbrev AlgorithmInformation := Slot → Option (List Attributes)

namespace AlgorithmInformation

/-- No slot is listed. -/
def none : AlgorithmInformation :=
  fun _ => Option.none

/-- Add an algorithm at the end of a slot's list. -/
def add (info : AlgorithmInformation) (slot : Slot) (a : Attributes) : AlgorithmInformation :=
  fun s => if s = slot then some ((info slot).getD [] ++ [a]) else info s

/-- What devices without a list of their own accept: RSA in every slot but
that of attestation. -/
def legacy (v : Version) : AlgorithmInformation :=
  let list :=
    if v.isBelow ⟨4, 0, 0⟩ then [Attributes.rsaOf 2048 .crtWithModulus]
    else if v.major = 4 && v.minor = 4 then [.rsaOf 2048 .standard]
    else [.rsaOf 2048 .standard, .rsaOf 3072 .standard, .rsaOf 4096 .standard]
  fun
    | .att => Option.none
    | _ => some list

/-- One entry of a device's list. Entries of other slots, and those that
can not be read, do not count. -/
def addEntry (info : AlgorithmInformation) (t : Tlv) : AlgorithmInformation :=
  match Slot.ofAttributes? t.number with
  | Option.none => info
  | some slot =>
    match (Tlv.content? t.number t).map Attributes.parse with
    | some (.ok a) => info.add slot a
    | _ => info

/-- A device's list. -/
def ofEntries (ts : List Tlv) : AlgorithmInformation :=
  ts.foldl addEntry none

-- =========================================================== corrections

/-- Curve25519 for key agreement under the wrong algorithm. -/
def x25519Misnamed : Attributes := .ec Attributes.eddsaId .x25519 .standard

/-- Curve25519 for key agreement. -/
def x25519 : Attributes := .ec Attributes.ecdhId .x25519 .standard

/-- Curve25519 for signatures. -/
def ed25519 : Attributes := .ec Attributes.eddsaId .ed25519 .standard

/-- A list with an algorithm, at the end if it was not there. -/
def ensure (a : Attributes) (list : List Attributes) : List Attributes :=
  if list.contains a then list else list ++ [a]

/-- A list without an algorithm. -/
def without (a : Attributes) (list : List Attributes) : List Attributes :=
  list.filter (· ≠ a)

/-- Put right what some devices list of Curve25519: key agreement under the
wrong algorithm, and signatures in the slots of decryption and
attestation. -/
def correctCurve25519 (info : AlgorithmInformation) : AlgorithmInformation
  | .dec => some (without ed25519 (ensure x25519 (without x25519Misnamed ((info .dec).getD []))))
  | .att => (info .att).map fun list => without ed25519 (without x25519Misnamed list)
  | slot => (info slot).map (without x25519Misnamed)

end AlgorithmInformation

end SmartCard.OpenPgp
