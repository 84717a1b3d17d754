/-
PINs and what they protect: verification, attempts, the reset of the whole
application, touch policies, and random octets from the card.
-/
import SmartCard.OpenPgp.Session.Basic
import SmartCard.Text.Utf8

namespace SmartCard.OpenPgp

/-- What a PIN is verified for. -/
inductive PinUse
  /-- The user, for signatures. -/
  | user
  /-- The user, for decryption and authentication. -/
  | userExtended
  /-- The administrator. -/
  | admin
  deriving DecidableEq, Repr

/-- The number of a PIN in commands. -/
def PinUse.reference : PinUse → UInt8
  | user => 0x81
  | userExtended => 0x82
  | admin => 0x83

namespace Session

/-- The command that verifies a PIN. -/
def verifyCommand (use : PinUse) (pin : Bytes) : Command :=
  { cla := 0x00, ins := 0x20, p1 := 0x00, p2 := use.reference, data := pin }

/-- The PIN that is sent to use up attempts. -/
def invalidPin : Bytes :=
  List.replicate 8 0

/-- The command that ends the life of the application. -/
def terminate : Command :=
  { cla := 0x00, ins := 0xE6, p1 := 0x00, p2 := 0x00 }

/-- The command that sets the number of attempts. -/
def setAttempts (attempts : PerPin) : Command :=
  { cla := 0x00, ins := 0xF2, p1 := 0x00, p2 := 0x00,
    data := [attempts.user, attempts.reset, attempts.admin] }

/-- The command that asks for random octets. -/
def getChallenge (length : Nat) : Command :=
  { cla := 0x00, ins := 0x84, p1 := 0x00, p2 := 0x00, le := some length }

variable {σ : Type} [Transport σ]

-- ========================================================= verification

/-- The state of the PINs now. -/
def pinStatus : Activity σ PinStatus := do
  let answer ← getData ObjectId.pinStatus
  wellFormed (PinStatus.parse answer)

/-- Verify a PIN. Where the card refuses it, the error tells how many
attempts are left. -/
def verify (use : PinUse) (pin : String) : Activity σ Unit :=
  tryCatch (perform (verifyCommand use (Utf8.encode pin))) fun e =>
    match e.statusWord? with
    | some _ => do
      let status ← pinStatus
      throw (.wrongPin (match use with
        | .admin => status.attempts.admin
        | _ => status.attempts.user))
    | none => throw e

/-- Set how long a verification of the user PIN lasts. -/
def setPinPolicy (policy : PinPolicy) : Activity σ Unit :=
  putData ObjectId.pinStatus [policy.octet]

/-- Set how many attempts there are for each PIN. -/
def setPinAttempts (attempts : PerPin) : Activity σ Unit := do
  require Features.pinAttempts
  perform (setAttempts attempts)

-- =============================================================== reset

/-- Send a wrong PIN a number of times. That the card refuses it is what is
wanted; any other failure ends the attempts. -/
def exhaust (use : PinUse) : (attempts : Nat) → Activity σ Unit
  | 0 => pure ()
  | attempts + 1 => do
    tryCatch (perform (verifyCommand use invalidPin)) fun e =>
      match e.statusWord? with
      | some _ => pure ()
      | none => throw e
    exhaust use attempts

/-- Bring the application back to its first state: block both PINs, end its
life, and activate it again. -/
def reset : Activity σ Unit := do
  require Features.reset
  let status ← pinStatus
  exhaust .user status.attempts.user.toNat
  exhaust .admin status.attempts.admin.toNat
  perform terminate
  perform activate

-- ============================================================== counters

/-- The number of signatures made, modulo 2^32. -/
def signatureCounter : Activity σ Nat := do
  let answer ← getData ObjectId.securitySupport
  match Tlv.ofBytes answer with
  | .error fault => throw (.tlv fault)
  | .ok t =>
    match (Tlv.flatten [] t).lookup ObjectId.signatureCounter with
    | some octets => return Bytes.toNat octets % 0x100000000
    | none => throw (.invalidData .missingCounter)

/-- Random octets from the card, as many as it gives at a time. -/
def challenge (length : UInt16) : Activity σ Bytes := do
  let card ← capabilities
  unless card.has .challenge do throw (.unsupported .challenge)
  if length > card.challengeLimit then
    throw (.unsupported (.challengeLength length.toNat card.challengeLimit.toNat))
  send (getChallenge length.toNat)

-- ======================================================= touch policies

/-- The touch policy of a slot. Cards that do not know touch policies have
them off. -/
def touchPolicy (slot : Slot) : Activity σ TouchPolicy := do
  let answer ← tryCatch (some <$> getData slot.touchPolicy) fun e =>
    if e.statusWord? = some .incorrectParameters then pure none else throw e
  match answer with
  | none => return .off
  | some [] => throw (.invalidData .emptyTouchPolicy)
  | some (first :: _) => wellFormed (TouchPolicy.ofOctet first)

/-- Set the touch policy of a slot, unless it is fixed. -/
def setTouchPolicy (slot : Slot) (policy : TouchPolicy) : Activity σ Unit := do
  require Features.touchPolicy
  if slot = .att then require Features.attestation
  if policy.isCached then require Features.cachedTouch
  let current ← touchPolicy slot
  if current.isFixed then throw (.invalidState .fixedTouchPolicy)
  putData slot.touchPolicy policy.bytes

end Session

end SmartCard.OpenPgp
