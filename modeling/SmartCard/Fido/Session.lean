/-
A session with the FIDO application on a card. Its commands travel inside
one card command each; the first octet of every answer is a status, and the
rest a value or nothing.
-/
import SmartCard.Fido.ClientPin
import SmartCard.Stage
import SmartCard.Terminal

namespace SmartCard.Fido

/-- A session at a terminal. -/
structure Session (σ : Type) where
  /-- The terminal. -/
  terminal : Terminal σ
  /-- What the authenticator told when the session was opened. -/
  info : Info := {}
  /-- How far the session has come. -/
  stage : Stage := .uninitialized

/-- Work in a session: it may fail, and the session goes on from where it
was left. -/
abbrev Activity (σ : Type) := ExceptT Error (StateM (Session σ))

namespace Session

/-- The identifier of the application. -/
def aid : Bytes :=
  [0xA0, 0x00, 0x00, 0x06, 0x47, 0x2F, 0x00, 0x01]

/-- The numbers of the commands that sessions send themselves. -/
def getInfoCommand : UInt8 := 0x04
def clientPinCommand : UInt8 := 0x06
def resetCommand : UInt8 := 0x07
def selectionCommand : UInt8 := 0x0B

variable {σ : Type} [Transport σ]

/-- Work of the terminal, as part of a session. -/
def atTerminal {α : Type} (work : Host σ α) : Activity σ α :=
  ExceptT.mk fun s =>
    let (result, terminal) := work.run.run s.terminal
    (result.mapError Error.card, { s with terminal })

/-- The card command that carries a command of the application. -/
def wrap (command : UInt8) (payload : Option Cbor) : Command :=
  { cla := 0x80, ins := 0x10, p1 := 0x00, p2 := 0x00,
    data := command :: (payload.map Cbor.encode).getD [] }

/-- Take the status off an answer, and read what follows if anything
does. -/
def unwrap (answer : Bytes) : Except Error (Option Cbor) :=
  match answer with
  | [] => .error (.invalidResponse .empty)
  | status :: body =>
    if status ≠ Status.ok.code then .error (.ctap ⟨status⟩)
    else if body = [] then .ok none
    else (valueOf body).map some

/-- Send a command. A closed session sends nothing. -/
def send (command : UInt8) (payload : Option Cbor) : Activity σ (Option Cbor) := do
  if (← get).stage = .closed then throw .closed
  let answer ← atTerminal (Terminal.request (wrap command payload))
  unwrap answer

/-- Ask the authenticator about itself. -/
def getInfo : Activity σ Info := do
  match ← send getInfoCommand none with
  | some v => Info.ofCbor v
  | none => throw (.invalidResponse .emptyInfo)

/-- Move on to a later stage. -/
def advance (next : Stage) : Activity σ Unit :=
  modify fun s => { s with stage := s.stage.advance next }

/-- Open the session: select the application, use extended lengths where
the link carries them, and ask the authenticator about itself. -/
def establish : Activity σ Unit := do
  let _ ← atTerminal (Terminal.select aid)
  advance .selected
  if (← get).terminal.extendedLength then atTerminal (Terminal.setForm .extended)
  let info ← getInfo
  modify fun s => { s with info }
  advance .ready

/-- Open a session at a terminal. -/
def start (terminal : Terminal σ) : Except Error Unit × Session σ :=
  establish.run.run { terminal }

/-- Bring the authenticator back to its first state. -/
def reset : Activity σ Unit := do
  let _ ← send resetCommand none

/-- Let the user choose this authenticator, which needs FIDO 2.1. -/
def selection : Activity σ Unit := do
  match (← get).info.newestVersion with
  | some .fido21 =>
    let _ ← send selectionCommand none
  | _ => throw (.unsupported .selection)

/-- Close the session and the terminal. Closing it again does nothing. -/
def close : Activity σ Unit := do
  if (← get).stage = .closed then return
  advance .closed
  atTerminal Terminal.close

/-- Send a request of the client PIN command. An answer without members is
a response without members. -/
def clientPin (request : PinRequest) : Activity σ PinResponse := do
  match ← send clientPinCommand (some request.toCbor) with
  | some v => PinResponse.ofCbor v
  | none => return {}

instance : PinClient (Session σ) where
  send request session := (clientPin request).run.run session

end Session

end SmartCard.Fido
