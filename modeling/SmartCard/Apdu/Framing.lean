/-
Carrying a command over a link in frames, and gathering the answer.

A short frame holds little, so a long command goes out as a chain of
frames: all but the last are marked in the class, and each of them must be
answered 90 00 before the next one is sent. An extended command is one
frame or none. Either way the answer may come in parts, and while the card
says that more waits, the host asks for it.
-/
import SmartCard.Apdu.Command
import SmartCard.Link
import SmartCard.Version

namespace SmartCard

/-- How commands are put into frames. -/
structure Framing where
  /-- How lengths are written. -/
  form : LengthForm := .short
  /-- The longest frame the host sends. -/
  maxFrame : Nat := 1390
  /-- The instruction that asks for the rest of an answer. -/
  getResponse : UInt8 := 0xC0
  deriving DecidableEq, Repr

namespace Framing

-- =============================================================== limits

/-- The longest frame that a family of devices takes, by version. -/
def maxFrameOf (v : Version) : Nat :=
  if v.isAtLeast ⟨4, 3, 0⟩ then 3062
  else if v.isAtLeast ⟨4, 0, 0⟩ then 2038
  else 1390

/-- The longest frame that both the host and the link allow. -/
def limit (framing : Framing) (link : Option Nat) : Nat :=
  match link with
  | some n => min framing.maxFrame n
  | none => framing.maxFrame

/-- How much data a short frame of a chain holds under a limit: what the
limit leaves beside the header and the length, at most 255 and at least
one. -/
def chunkSize (limit : Nat) : Nat :=
  max 1 (min 255 (limit - 5))

-- ======================================================== chains of frames

/-- How many frames of a chain come before the last one. -/
def leadingCount (chunk : Nat) (data : Bytes) : Nat :=
  (data.length - 1) / chunk

/-- The data of the frames before the last one. -/
def leadingChunks (chunk : Nat) (data : Bytes) : List Bytes :=
  Bytes.pieces chunk (leadingCount chunk data) data

/-- The data of the last frame. -/
def lastChunk (chunk : Nat) (data : Bytes) : Bytes :=
  data.drop (chunk * leadingCount chunk data)

/-- A frame of a chain before the last one: marked as such, and asking for
nothing. -/
def leading (c : Command) (chunk : Bytes) : Command :=
  { c with cla := c.cla ||| chainingBit, data := chunk, le := none }

variable {σ : Type} [Transport σ]

/-- Send the frames before the last one. The first that is not answered
90 00 ends the command; `sent` frames went out before these. -/
def sendLeading (c : Command) : (sent : Nat) → List Bytes → Exchange σ Unit
  | _, [] => pure ()
  | sent, chunk :: rest => do
    let frame ← (leading c chunk).encode .short
    let answer ← exchange frame
    unless answer.isSuccess do
      throw (.protocol (.chainAborted answer.status (sent + 1)))
    sendLeading c (sent + 1) rest

/-- Send a command in short frames, as many as it takes. -/
def sendShort (limit : Nat) (c : Command) : Exchange σ Response := do
  let chunk := chunkSize limit
  sendLeading c 0 (leadingChunks chunk c.data)
  let frame ← { c with data := lastChunk chunk c.data : Command }.encode .short
  exchange frame

/-- Send a command in one extended frame, if that is within the limit. -/
def sendExtended (limit : Nat) (c : Command) : Exchange σ Response := do
  let frame ← c.encode .extended
  if frame.length > limit then throw (.commandLength frame.length)
  exchange frame

-- ====================================================== gathering answers

/-- The command that asks for `count` more octets of an answer. -/
def followUp (ins : UInt8) (count : Nat) : Command :=
  { cla := 0x00, ins, p1 := 0x00, p2 := 0x00, le := some count }

/-- Ask for the rest of an answer until the card has no more. `payload` is
what came so far. The exchanges are counted down from `fuel`; a link does
not outlast its lifetime, so `fuel` above that is never used up. -/
def gather (ins : UInt8) : (fuel : Nat) → (payload : Bytes) → StatusWord → Exchange σ Response
  | fuel, payload, status =>
    match status.remaining?, fuel with
    | none, _ => pure ⟨payload, status⟩
    | some _, 0 => throw (.transport .transmission)
    | some count, fuel + 1 => do
      let frame ← (followUp ins count).encode .short
      let answer ← exchange frame
      gather ins fuel (payload ++ answer.payload) answer.status

/-- Send a command and gather the whole answer. -/
def send (framing : Framing) (c : Command) : Exchange σ Response := do
  let limit := framing.limit (Transport.maxFrame (← get).card)
  let first ← match framing.form with
    | .short => sendShort limit c
    | .extended => sendExtended limit c
  gather framing.getResponse ((← get).lifetime + 1) first.payload first.status

end Framing

end SmartCard
