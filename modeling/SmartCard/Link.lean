/-
The link between a host and a card. What is behind a link is a state of any
type whatever; a `Transport` instance says how that state answers a frame,
so a law about the host that is proved for every instance holds against
every card, reader and cable.

# The lifetime of a link

A card may answer "more data" for ever, and a host that follows it would
never come to an end. No link lasts for ever either: a `Link` carries a
number of exchanges, and after the last of them every transmission fails,
as on a cable that was pulled. The number is arbitrary, so any run that
ends is a run over a link that lasts long enough; and a link's end is a
failure that every host must cope with anyway.

# The journal

A link remembers every frame that it was handed, so that what a host sends
can be stated. Nothing reads the journal while frames are sent.
-/
import SmartCard.Apdu.Response

namespace SmartCard

/-- How a state of type `σ` behaves as the far end of a link. -/
class Transport (σ : Type) where
  /-- Take a frame and answer it, or fail. -/
  transmit : Bytes → σ → Except TransportError Bytes × σ
  /-- The longest frame that can be carried, none for no limit. -/
  maxFrame : σ → Option Nat
  /-- Whether frames with extended lengths can be carried. -/
  extendedLength : σ → Bool
  /-- Whether there is a card. -/
  connected : σ → Bool
  /-- End the connection. -/
  close : σ → Except TransportError Unit × σ

/-- A link to a card in state `σ`. -/
structure Link (σ : Type) where
  /-- The far end. -/
  card : σ
  /-- How many more exchanges the link lasts. -/
  lifetime : Nat
  /-- Every frame handed over, the latest first. -/
  journal : List Bytes := []

namespace Link

variable {σ : Type} [Transport σ]

/-- Every frame handed over, in order. -/
def frames (link : Link σ) : List Bytes :=
  link.journal.reverse

/-- Hand a frame over and wait for the answer. -/
def transmit (frame : Bytes) (link : Link σ) : Except TransportError Bytes × Link σ :=
  let journal := frame :: link.journal
  match link.lifetime with
  | 0 => (.error .transmission, { link with journal })
  | lifetime + 1 =>
    let (answer, card) := Transport.transmit frame link.card
    (answer, ⟨card, lifetime, journal⟩)

/-- End the connection. -/
def close (link : Link σ) : Except TransportError Unit × Link σ :=
  let (result, card) := Transport.close link.card
  (result, { link with card })

end Link

/-- Work of a host over a link: it may fail, and the link goes on from
where it was left. -/
abbrev Exchange (σ : Type) := ExceptT Error (StateM (Link σ))

/-- Hand one frame over and take the answer apart. -/
def exchange {σ : Type} [Transport σ] (frame : Bytes) : Exchange σ Response :=
  ExceptT.mk fun link =>
    match link.transmit frame with
    | (.error cause, link) => (.error (.transport cause), link)
    | (.ok answer, link) => (Response.parse answer, link)

end SmartCard
