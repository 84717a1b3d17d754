/-
The keys on a card: which algorithms a slot accepts, and making, importing,
reading and deleting keys. A slot is given its algorithm before it is given
a key, and only an algorithm that the card lists for it.
-/
import SmartCard.OpenPgp.AlgorithmInformation
import SmartCard.OpenPgp.Key
import SmartCard.OpenPgp.Session.Basic

namespace SmartCard.OpenPgp.Session

-- ============================================================= commands

/-- The command that makes a key in a slot. -/
def generateCommand (slot : Slot) : Command :=
  { cla := 0x00, ins := 0x47, p1 := 0x80, p2 := 0x00, data := slot.template }

/-- The command that reads the public key of a slot. -/
def readKeyCommand (slot : Slot) : Command :=
  { cla := 0x00, ins := 0x47, p1 := 0x81, p2 := 0x00, data := slot.template }

/-- The command that puts a private key onto the card. -/
def importCommand (t : KeyTemplate) : Command :=
  { cla := 0x00, ins := 0xDB, p1 := 0x3F, p2 := 0xFF, data := t.bytes }

-- =========================================================== algorithms

/-- The entries of the list in an answer. Some devices announce a longer
list than they send; then the entries that are there count. -/
def algorithmEntries (answer : Bytes) : Except DataFault (List Tlv) :=
  match Tlv.ofBytes answer with
  | .ok t =>
    if t.number ≠ ObjectId.algorithmInformation then .error .notAlgorithmInformation
    else match t with
      | .constructed _ children => .ok children
      | .primitive _ content => .ok (Tlv.parseLenient content)
  | .error _ =>
    if answer.head? ≠ some 0xFA then .error .notAlgorithmInformation
    else match Tlv.splitHead answer with
      | some (_, rest) => .ok (Tlv.parseLenient rest)
      | none => .error .truncatedHead

/-- The list in an answer, put right where the version is known to need
it. -/
def algorithmList (version : Version) (answer : Bytes) : Except DataFault AlgorithmInformation := do
  let info := AlgorithmInformation.ofEntries (← algorithmEntries answer)
  return if version.isBelow ⟨5, 6, 1⟩ then info.correctCurve25519 else info

variable {σ : Type} [Transport σ]

/-- The algorithms that each slot accepts. -/
def algorithmInformation : Activity σ AlgorithmInformation := do
  unless (← capabilities).has .changeableAttributes do throw (.unsupported .fixedAttributes)
  let version := (← get).version
  if version.isBelow ⟨5, 2, 0⟩ then return .legacy version
  let answer ← getData ObjectId.algorithmInformation
  wellFormed (algorithmList version answer)

/-- Give a slot an algorithm that the card lists for it. -/
def setAttributes (slot : Slot) (a : Attributes) : Activity σ Unit := do
  let info ← algorithmInformation
  match info slot with
  | none => throw (.unsupported (.slot slot))
  | some list =>
    unless list.contains a do throw (.unsupported (.attributes a))
    putData slot.attributes a.bytes

-- ========================================================= about a key

/-- Set the time at which the key of a slot was made. -/
def setGenerationTime (slot : Slot) (time : Nat) : Activity σ Unit :=
  putData slot.generationTime (Bytes.bigEndian 4 time)

/-- Set the fingerprint of the key of a slot. -/
def setFingerprint (slot : Slot) (fingerprint : Bytes) : Activity σ Unit :=
  putData slot.fingerprint fingerprint

/-- Read the public key in an answer. -/
def parsePublicKey (answer : Bytes) (curve : Option Curve) : Except Error PublicKey :=
  match Tlv.ofBytes answer with
  | .error fault => .error (.tlv fault)
  | .ok t =>
    if t.number ≠ 0x7F49 then .error (.invalidData .outerTag)
    else match t with
      | .constructed _ children =>
        (PublicKey.ofParts (Tlv.topLevel children) curve).mapError Error.invalidData
      | .primitive _ _ => .error (.invalidData .notConstructed)

-- =========================================================== operations

/-- Make a key in a slot. -/
def generate (slot : Slot) (curve : Option Curve) : Activity σ PublicKey := do
  let answer ← send (generateCommand slot)
  parsePublicKey answer curve

/-- Make an RSA key in a slot. Cards with fixed algorithms make keys of
2048 bits. -/
def generateRsa (slot : Slot) (bits : UInt16) : Activity σ PublicKey := do
  require Features.rsaGeneration
  if (← capabilities).has .changeableAttributes then setAttributes slot (.rsaOf bits .standard)
  else if bits ≠ 2048 then throw (.unsupported .rsaSize)
  generate slot none

/-- Make a key on a curve in a slot. -/
def generateEc (slot : Slot) (curve : Curve) : Activity σ PublicKey := do
  require Features.ellipticCurves
  setAttributes slot (.ecOf slot curve)
  generate slot (some curve)

/-- Whether attributes are those of the key size of cards with fixed
algorithms. -/
def isRsa2048 : Attributes → Bool
  | .rsa bits _ _ => bits == 2048
  | .ec _ _ _ => false

/-- Put a private key into a slot. -/
def putKey (slot : Slot) (key : PrivateKey) : Activity σ Unit := do
  let crt := (← get).version.isBelow ⟨4, 0, 0⟩
  let a ← wellFormed (key.attributes slot crt)
  if (← capabilities).has .changeableAttributes then setAttributes slot a
  else if !isRsa2048 a then throw (.unsupported .onlyRsa2048)
  let t ← wellFormed (KeyTemplate.ofKey slot crt key)
  perform (importCommand t)

/-- The public key of a slot. -/
def publicKey (slot : Slot) : Activity σ PublicKey := do
  let answer ← send (readKeyCommand slot)
  let curve := match (← applicationData).attributes slot with
    | some (.ec _ curve _) => some curve
    | _ => none
  parsePublicKey answer curve

/-- Delete the key of a slot, by changing its algorithm and changing it
back. The first of the two need not be one that the card lists. -/
def deleteKey (slot : Slot) : Activity σ Unit := do
  if (← get).version.isBelow ⟨4, 0, 0⟩ then throw (.unsupported .deletion)
  putData slot.attributes (Attributes.rsaOf 4096 .standard).bytes
  setAttributes slot (.rsaOf 2048 .standard)

end SmartCard.OpenPgp.Session
