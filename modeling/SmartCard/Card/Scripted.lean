/-
Cards that answer from a script. They stand in for a device where the
answers are known beforehand, and remember the frames they were sent.
-/
import SmartCard.Link

namespace SmartCard

/-- Where a scripted card takes its answers from. -/
inductive Script
  /-- One answer after the other; the last one is given for ever. -/
  | queue (answers : List Bytes)
  /-- The first rule whose octets start the frame answers from its own
  queue; frames that no rule answers get `otherwise`. -/
  | rules (rules : List (Bytes × List Bytes)) (otherwise : Bytes)
  /-- One answer after the other, each once. -/
  | once (answers : List Bytes)

namespace Script

/-- The next answer of a queue, and the queue after it. -/
def next? : List Bytes → Option (Bytes × List Bytes)
  | [] => none
  | [answer] => some (answer, [answer])
  | answer :: rest => some (answer, rest)

/-- The answer of the first rule that the frame starts with, and the rules
after it. -/
def applyRules (otherwise frame : Bytes) :
    List (Bytes × List Bytes) → Bytes × List (Bytes × List Bytes)
  | [] => (otherwise, [])
  | (start, own) :: rest =>
    if start.isPrefixOf frame then
      match next? own with
      | some (answer, own) => (answer, (start, own) :: rest)
      | none => (otherwise, (start, own) :: rest)
    else
      let (answer, rest) := applyRules otherwise frame rest
      (answer, (start, own) :: rest)

/-- The answer to a frame, or how a script without answers fails. -/
def answer (frame : Bytes) : Script → Except TransportError Bytes × Script
  | queue answers =>
    match next? answers with
    | some (answer, rest) => (.ok answer, queue rest)
    | none => (.error .transmission, queue answers)
  | rules list otherwise =>
    let (answer, list) := applyRules otherwise frame list
    (.ok answer, rules list otherwise)
  | once [] => (.error (.other "script exhausted"), once [])
  | once (answer :: rest) => (.ok answer, once rest)

end Script

/-- A card that answers from a script, and fails on some frames by their
number. -/
structure ScriptedCard where
  /-- What it answers. -/
  script : Script
  /-- The frames that fail, counted from zero, whatever the script. -/
  failing : List Nat := []
  /-- Whether the card is there. -/
  present : Bool := true
  /-- Whether the card can be taken away. -/
  removable : Bool := true
  /-- The longest frame it takes. -/
  frameLimit : Option Nat := none
  /-- Whether it takes extended lengths. -/
  extended : Bool := false
  /-- The frames it was sent, the latest first. -/
  received : List Bytes := []

namespace ScriptedCard

/-- Take a frame: remember it, then fail or answer. A card that is not
there takes nothing. -/
def take (frame : Bytes) (card : ScriptedCard) : Except TransportError Bytes × ScriptedCard :=
  if card.present then
    let after := { card with received := frame :: card.received }
    if card.failing.any (· == card.received.length) then (.error .transmission, after)
    else
      let (answer, script) := card.script.answer frame
      (answer, { after with script })
  else (.error .connection, card)

/-- Take the card away, if that is possible. It can not be taken away
twice. -/
def remove (card : ScriptedCard) : Except TransportError Unit × ScriptedCard :=
  if !card.present then (.error .closed, card)
  else (.ok (), { card with present := !card.removable })

instance : Transport ScriptedCard where
  transmit := take
  maxFrame := frameLimit
  extendedLength := extended
  connected := present
  close := remove

end ScriptedCard

end SmartCard
