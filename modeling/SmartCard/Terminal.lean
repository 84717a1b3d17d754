/-
The host's end of a connection: a link, and the messaging in use on it,
which is plain or secured. Sessions with the applications on a card do all
their work through a `Terminal`, and do not see which messaging it is.
-/
import SmartCard.Scp03.SecureChannel

namespace SmartCard

/-- How commands reach the card. -/
inductive Messaging
  /-- As they are. -/
  | plain (framing : Framing)
  /-- Over a secure channel. -/
  | secured (channel : Scp03.SecureChannel)
  deriving DecidableEq

namespace Messaging

/-- How commands are put into frames. -/
def framing : Messaging → Framing
  | plain framing => framing
  | secured channel => channel.framing

/-- Change how commands are put into frames. -/
def reframe (change : Framing → Framing) : Messaging → Messaging
  | plain framing => plain (change framing)
  | secured channel => secured { channel with framing := change channel.framing }

/-- Let go of what the messaging holds: the keys of a secure channel. -/
def close : Messaging → Messaging
  | plain framing => plain framing
  | secured channel => secured channel.close

end Messaging

/-- A link and the messaging in use on it. -/
structure Terminal (σ : Type) where
  /-- The link to the card. -/
  link : Link σ
  /-- The messaging in use. -/
  messaging : Messaging := .plain {}

/-- Work of a host at a terminal: it may fail, and the terminal goes on
from where it was left. -/
abbrev Host (σ : Type) := ExceptT Error (StateM (Terminal σ))

namespace Terminal

variable {σ : Type} [Transport σ]

-- ============================================================= commands

/-- Send a command and take whatever the card answers. -/
def transmit (c : Command) : Host σ Response :=
  ExceptT.mk fun t =>
    match t.messaging with
    | .plain framing =>
      let (answer, link) := (framing.send c).run.run t.link
      (answer, { t with link })
    | .secured channel =>
      let ((answer, channel), link) := channel.send true c t.link
      (answer, ⟨link, .secured channel⟩)

/-- Send a command and take the payload of a success. -/
def request (c : Command) : Host σ Bytes := do
  (← transmit c).result

/-- The command that selects an application by its identifier. -/
def selection (aid : Bytes) : Command :=
  { cla := 0x00, ins := 0xA4, p1 := 0x04, p2 := 0x00, data := aid }

/-- Select an application. -/
def select (aid : Bytes) : Host σ Bytes :=
  request (selection aid)

/-- Select an application, and activate it first where the card answers one
of the given statuses. It is activated once; a second refusal stands. -/
def selectActive (aid : Bytes) (activate : Command) (statuses : List StatusWord) : Host σ Bytes :=
  tryCatch (select aid) fun e =>
    match e.statusWord? with
    | some status =>
      if statuses.contains status then do
        let _ ← request activate
        select aid
      else throw e
    | none => throw e

-- ============================================================== settings

/-- How commands are put into frames. -/
def framing (t : Terminal σ) : Framing :=
  t.messaging.framing

/-- Change how commands are put into frames. -/
def reframe (change : Framing → Framing) : Host σ Unit :=
  modify fun t => { t with messaging := t.messaging.reframe change }

/-- Whether the link carries extended lengths. -/
def extendedLength (t : Terminal σ) : Bool :=
  Transport.extendedLength t.link.card

/-- Change how lengths are written. The link must be able to carry
extended ones. -/
def setForm (form : LengthForm) : Host σ Unit := do
  if form = .extended && !(← get).extendedLength then throw (.unsupported .extendedLength)
  reframe fun framing => { framing with form }

/-- Keep to the frames that devices of a version take. -/
def limitFrames (v : Version) : Host σ Unit :=
  reframe fun framing => { framing with maxFrame := Framing.maxFrameOf v }

/-- Go on without secure messaging, with the same frames. -/
def leaveChannel : Host σ Unit :=
  modify fun t => { t with messaging := .plain t.framing }

-- =============================================================== the end

/-- End the connection and keep the messaging. -/
def disconnect : Host σ Unit :=
  ExceptT.mk fun t =>
    let (result, link) := t.link.close
    (result.mapError Error.transport, { t with link })

/-- Let go of the messaging and end the connection, if there is one. -/
def close : Host σ Unit := do
  modify fun t => { t with messaging := t.messaging.close }
  if Transport.connected (← get).link.card then disconnect

end Terminal

end SmartCard
