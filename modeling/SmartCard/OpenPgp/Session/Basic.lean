/-
A session with the OpenPGP application on a card: how it is opened and
closed, and the two commands that all else is built from, reading and
writing a data object. A closed session sends nothing.
-/
import SmartCard.OpenPgp.ApplicationData
import SmartCard.Stage
import SmartCard.Terminal

namespace SmartCard.OpenPgp

/-- A session at a terminal. -/
structure Session (σ : Type) where
  /-- The terminal. -/
  terminal : Terminal σ
  /-- The version of the application. -/
  version : Version
  /-- What the application told when the session was opened. Only what can
  not change meanwhile is used of it. -/
  data : ApplicationData
  /-- How far the session has come. -/
  stage : Stage

/-- Work in a session: it may fail, and the session goes on from where it
was left. -/
abbrev Activity (σ : Type) := ExceptT Error (StateM (Session σ))

-- ============================================================ features

namespace Features

/-- Bringing the application back to its first state. -/
def reset : Feature := .since "Reset" 1 0 6

/-- Touch policies. -/
def touchPolicy : Feature := .since "UIF" 4 2 0

/-- The slot of attestation. -/
def attestation : Feature := .since "Attestation" 5 2 1

/-- Touch policies under which a touch lasts for a while. -/
def cachedTouch : Feature := .since "Cached UIF" 5 2 1

/-- Keys on elliptic curves. -/
def ellipticCurves : Feature := .since "Elliptic curve keys" 5 2 0

/-- Changing how many attempts there are for a PIN. -/
def pinAttempts : Feature :=
  ⟨"Set PIN attempts", .byMajor 1 ⟨1, 0, 7⟩ ⟨4, 3, 1⟩⟩

/-- Making RSA keys on the card, which some versions in between must not
do. -/
def rsaGeneration : Feature :=
  ⟨"RSA key generation", .satisfying fun v => v.isBelow ⟨4, 2, 6⟩ || v.isAtLeast ⟨4, 3, 5⟩⟩

/-- Every feature. -/
def all : List Feature :=
  [reset, touchPolicy, attestation, cachedTouch, ellipticCurves, pinAttempts, rsaGeneration]

end Features

namespace Session

/-- The identifier of the application. -/
def aid : Bytes :=
  [0xD2, 0x76, 0x00, 0x01, 0x24, 0x01]

-- ============================================================= commands

/-- The command that activates the application. -/
def activate : Command :=
  { cla := 0x00, ins := 0x44, p1 := 0x00, p2 := 0x00 }

/-- The command that asks for the version. -/
def getVersion : Command :=
  { cla := 0x00, ins := 0xF1, p1 := 0x00, p2 := 0x00 }

/-- The command that reads a data object. -/
def getDataCommand (object : ObjectId) : Command :=
  { cla := 0x00, ins := 0xCA, p1 := (object >>> 8).toUInt8, p2 := object.toUInt8 }

/-- The command that writes a data object. -/
def putDataCommand (object : ObjectId) (content : Bytes) : Command :=
  { cla := 0x00, ins := 0xDA, p1 := (object >>> 8).toUInt8, p2 := object.toUInt8, data := content }

variable {σ : Type} [Transport σ]

-- ============================================================== opening

/-- Work of the terminal before there is a session. -/
def preparing {α : Type} (work : Host σ α) : ExceptT Error (StateM (Terminal σ)) α :=
  ExceptT.adapt Error.card work

/-- Select the application, activating it if need be, and learn its version
and what it tells about itself. From version 4 on, extended lengths are
used where the link carries them. -/
def establish : ExceptT Error (StateM (Terminal σ)) (Version × ApplicationData) := do
  let _ ← preparing (ExceptT.adapt (SmartCard.Error.context "Selecting OpenPGP application failed")
    (Terminal.selectActive aid activate [.noInputData, .conditionsNotSatisfied]))
  let answer ← preparing (Terminal.request getVersion)
  let version ← (Version.ofDecimalBytes answer).mapError Error.card
  preparing (Terminal.limitFrames version)
  if (← get).extendedLength && version.isAtLeast ⟨4, 0, 0⟩ then
    preparing (Terminal.setForm .extended)
  let answer ← preparing (Terminal.request (getDataCommand ObjectId.applicationData))
  let data ← ApplicationData.parse answer
  return (version, data)

/-- Open a session at a terminal. The terminal is returned as well, for
where no session comes of it. -/
def start (terminal : Terminal σ) : Except Error (Session σ) × Terminal σ :=
  match establish.run.run terminal with
  | (.ok (version, data), terminal) => (.ok ⟨terminal, version, data, .ready⟩, terminal)
  | (.error e, terminal) => (.error e, terminal)

-- ============================================================ exchanges

/-- Work of the terminal, as part of a session. -/
def atTerminal {α : Type} (work : Host σ α) : Activity σ α :=
  ExceptT.mk fun s =>
    let (result, terminal) := work.run.run s.terminal
    (result.mapError Error.card, { s with terminal })

/-- Data that has the right shape, or the fault as an error. -/
def wellFormed {α : Type} (result : Except DataFault α) : Activity σ α :=
  match result with
  | .ok value => pure value
  | .error fault => throw (.invalidData fault)

/-- Send a command and take the payload of a success. -/
def send (c : Command) : Activity σ Bytes := do
  if (← get).stage = .closed then throw (.invalidState .closed)
  atTerminal (Terminal.request c)

/-- Send a command of which only the success matters. -/
def perform (c : Command) : Activity σ Unit := do
  let _ ← send c

/-- Read a data object. -/
def getData (object : ObjectId) : Activity σ Bytes :=
  send (getDataCommand object)

/-- Write a data object. -/
def putData (object : ObjectId) (content : Bytes) : Activity σ Unit :=
  perform (putDataCommand object content)

/-- Refuse devices without a feature. -/
def require (feature : Feature) : Activity σ Unit := do
  match feature.require (← get).version with
  | .ok () => return
  | .error e => throw (.card e)

/-- The capabilities of the card. -/
def capabilities : Activity σ Capabilities := do
  return (← get).data.capabilities

/-- Read what the application tells about itself now. -/
def applicationData : Activity σ ApplicationData := do
  let answer ← getData ObjectId.applicationData
  ApplicationData.parse answer

/-- Close the session and the terminal. Closing it again does nothing. -/
def close : Activity σ Unit := do
  if (← get).stage = .closed then return
  modify fun s => { s with stage := s.stage.advance .closed }
  atTerminal Terminal.close

end Session

end SmartCard.OpenPgp
