/-
Answers of a card: some octets, then the status word.
-/
import SmartCard.Error

namespace SmartCard

/-- An answer taken apart. -/
structure Response where
  /-- What the card returned, possibly nothing. -/
  payload : Bytes
  /-- How the command ended. -/
  status : StatusWord
  deriving DecidableEq, Repr

namespace Response

/-- Take an answer apart. One without room for the status word breaks the
protocol. -/
def parse (answer : Bytes) : Except Error Response :=
  match answer.drop (answer.length - 2) with
  | [sw1, sw2] => .ok ⟨answer.take (answer.length - 2), ⟨sw1, sw2⟩⟩
  | _ => .error (.protocol (.shortResponse answer.length))

/-- The answer as it was sent. -/
def bytes (r : Response) : Bytes :=
  r.payload ++ r.status.bytes

/-- Whether the command was carried out. -/
def isSuccess (r : Response) : Bool :=
  r.status.isSuccess

/-- The payload of a success, the status of anything else as an error. -/
def result (r : Response) : Except Error Bytes :=
  if r.isSuccess then .ok r.payload else .error (.status r.status)

end Response

end SmartCard
