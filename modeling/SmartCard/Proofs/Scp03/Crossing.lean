/-
How a secured command crosses to the card and its answer comes back. Host
and card hold the same keys and values here; that they do so again
afterwards is a matter of runs.

# Three legs

The frames before the last one are answered and pile up in the card
(`accepted_leading`). The last one completes the command, which is judged
and carried out (`begin_card`). The parts of the answer are then asked for
one by one (`gather_parts`). Each leg costs as many exchanges of the link
as it has frames (`EndsWell`), and a link that lasts for all of them is all
that is asked of it.
-/
import SmartCard.Proofs.Scp03.CardEnd

namespace SmartCard.Scp03

open Command (LeFits Fits)

variable {α : Type}

-- =================================================================== legs

/-- Work over a link to a card ends well: with this result, with the card
in this state, and with so many exchanges less to come. -/
def EndsWell {β : Type} (work : Exchange (CardEnd α) β)
    (link : Link (CardEnd α)) (result : β) (card : CardEnd α)
    (cost : Nat) : Prop :=
  ∃ after, work.run.run link = (.ok result, after)
    ∧ after.card = card ∧ after.lifetime + cost = link.lifetime

/-- A frame that the card takes is answered, and costs one exchange. -/
theorem exchange_card {frame : Bytes} {r : Response}
    {link : Link (CardEnd α)} {card : CardEnd α}
    (hlife : 0 < link.lifetime)
    (h : link.card.receive frame = (r.bytes, card)) :
    EndsWell (exchange frame) link r card 1 := by
  obtain ⟨k, hk⟩ : ∃ k, link.lifetime = k + 1 :=
    ⟨link.lifetime - 1, by omega⟩
  have htransmit : link.transmit frame
      = (.ok r.bytes, ⟨card, k, frame :: link.journal⟩) := by
    unfold Link.transmit
    rw [hk]
    show (Except.ok (link.card.receive frame).1,
      (⟨(link.card.receive frame).2, k, _⟩ : Link (CardEnd α))) = _
    rw [h]
  refine ⟨⟨card, k, frame :: link.journal⟩, ?_, rfl, hk.symm⟩
  rw [exchange_run, htransmit]
  show (Response.parse r.bytes, _) = _
  rw [parse_bytes]

/-- The leading frames of a chain are all answered 90 00, and their data
piles up in the card. -/
theorem accepted_leading (c : Command) {pieces : List Bytes}
    (hlen : ∀ piece ∈ pieces, piece.length ≤ 255)
    (link : Link (CardEnd α)) (hlife : pieces.length ≤ link.lifetime) :
    ∃ mid, Accepted (pieces.map (Framing.leadingFrame c)) link mid
      ∧ mid.card = { link.card with
          pending := link.card.pending ++ pieces.flatten }
      ∧ mid.lifetime + pieces.length = link.lifetime := by
  induction pieces generalizing link with
  | nil =>
      refine ⟨link, Accepted.nil link, ?_, rfl⟩
      rw [List.flatten_nil, List.append_nil]
  | cons piece rest ih =>
      rw [List.length_cons] at hlife ⊢
      have hreceive := CardEnd.receive_leading c
        (hlen piece List.mem_cons_self) link.card
      obtain ⟨mid, hx, hcard, hmid⟩ := exchange_card
        (r := ⟨[], StatusWord.success⟩) (by omega) hreceive
      obtain ⟨after, hacc, hafter, hleft⟩ := ih
        (fun p hp => hlen p (List.mem_cons_of_mem _ hp)) mid (by omega)
      refine ⟨after, Accepted.cons hx rfl hacc, ?_, by omega⟩
      rw [hafter, hcard, List.flatten_cons, List.append_assoc]

/-- There is a first part of every answer. -/
theorem parts_cons (status : StatusWord) (cuts : List (Nat × UInt8))
    (payload : Bytes) :
    ∃ first rest, parts status cuts payload = first :: rest
      ∧ rest.length = cuts.length := by
  induction cuts generalizing payload with
  | nil => exact ⟨_, [], rfl, rfl⟩
  | cons cut cuts ih =>
      obtain ⟨first, rest, hparts, hlen⟩ := ih (payload.drop cut.1)
      refine ⟨_, first :: rest, congrArg (_ :: ·) hparts, ?_⟩
      rw [List.length_cons, hlen, List.length_cons]

/-- The parts of an answer are gathered to the whole, however it was
cut. -/
theorem gather_parts {status : StatusWord}
    (hstatus : status.isMoreData = false) {cuts : List (Nat × UInt8)}
    {payload : Bytes} {first : Response} {rest : List Response}
    (hparts : parts status cuts payload = first :: rest)
    (link : Link (CardEnd α)) (hwait : link.card.waiting = rest)
    (hlife : rest.length ≤ link.lifetime) (fuel : Nat)
    (hfuel : rest.length ≤ fuel) (before : Bytes) :
    EndsWell (Framing.gather link.card.getResponse fuel
        (before ++ first.payload) first.status) link
      ⟨before ++ payload, status⟩ { link.card with waiting := [] }
      rest.length := by
  induction cuts generalizing payload first rest link fuel before with
  | nil =>
      cases hparts
      refine ⟨link, ?_, ?_, rfl⟩
      · exact Framing.gather_done (Framing.remaining_eq_none hstatus) _ _ _
      · rw [← hwait]
  | cons cut cuts ih =>
      obtain ⟨count, detail⟩ := cut
      rw [parts] at hparts
      injection hparts with hfirst hrest
      obtain ⟨second, others, hnext, -⟩ :=
        parts_cons status cuts (payload.drop count)
      rw [hnext] at hrest
      subst hfirst hrest
      rw [List.length_cons] at hlife hfuel ⊢
      obtain ⟨fuel, rfl⟩ : ∃ f, fuel = f + 1 := ⟨fuel - 1, by omega⟩
      obtain ⟨asked, hasked⟩ : ∃ asked,
          StatusWord.remaining? ⟨0x61, detail⟩ = some asked := ⟨_, rfl⟩
      -- the card hands out the next part, and the rest is left to wait
      have hreceive := CardEnd.receive_followUp hasked link.card
      have hout : link.card.handOut
          = (second.bytes, { link.card with waiting := others }) := by
        unfold CardEnd.handOut
        rw [hwait]
      rw [hout] at hreceive
      obtain ⟨mid, hx, hcard, hmid⟩ := exchange_card (by omega) hreceive
      have hask : mid.card.getResponse = link.card.getResponse := by
        rw [hcard]
      obtain ⟨after, hrun, hafter, hleft⟩ := ih hnext mid
        (by rw [hcard]) (by omega) fuel (by omega)
        (before ++ payload.take count)
      refine ⟨after, ?_, ?_, by omega⟩
      · rw [Framing.gather_more hasked, hx]
        simp only []
        rw [← hask, hrun, List.append_assoc, List.take_append_drop]
      · rw [hafter, hcard]

-- =============================================================== admission

/-- How long the data of a command is on the channel: padded to whole
blocks, with the code. -/
def securedLength (c : Command) : Nat :=
  16 * (c.data.length / 16 + 1) + 8

/-- What is encrypted and coded has that length. -/
theorem length_wrapped (keys : SessionKeys) (form : LengthForm)
    (chain : Chain) (c : Command) :
    (wrapped keys form true chain c).data.length = securedLength c := by
  unfold wrapped wireData
  rw [length_code, if_pos rfl, length_encrypt]
  rfl

/-- The commands that a channel can carry over a link with the given
limit: the class is not marked as a chain, the secured data has a length
that a code can cover, the answer length fits the form, and in extended
form the command fits one frame. In short form any limit will do. -/
structure Admitted (framing : Framing) (link : Option Nat) (c : Command) :
    Prop where
  unchained : c.isChained = false
  size : securedLength c ≤ 65535
  le : c.LeFits framing.form
  oneFrame : framing.form = .extended →
    7 + securedLength c + 2 * c.leOctets ≤ framing.limit link

/-- How many frames a command takes on the channel. -/
def frameCount (framing : Framing) (limit : Nat) (c : Command) : Nat :=
  match framing.form with
  | .short => (securedLength c - 1) / Framing.chunkSize limit + 1
  | .extended => 1

-- ============================================================ what is read

/-- A card reads the last frame of a secured command in short form as that
command with the last chunk of its data. -/
theorem read_lastFrame (limit : Nat) {c : Command} (hle : c.LeFits .short)
    (keys : SessionKeys) (chain : Chain) :
    Command.read? (Framing.lastFrame (Framing.chunkSize limit)
        (wrapped keys .short true chain c))
      = some (.short, { secured c with
          data := Framing.lastChunk (Framing.chunkSize limit)
            (wrapped keys .short true chain c).data }) :=
  Command.read_short ((Framing.lastCommand_fits_iff limit _).mpr hle)

theorem length_leadingChunks_wrapped (chunk : Nat) (keys : SessionKeys)
    (form : LengthForm) (chain : Chain) (c : Command) :
    (Framing.leadingChunks chunk (wrapped keys form true chain c).data).length
      = (securedLength c - 1) / chunk := by
  have hcount := Framing.length_leadingChunks chunk
    (wrapped keys form true chain c).data
  unfold Framing.leadingCount at hcount
  rw [hcount, length_wrapped]

/-- A protected command of a length that two octets tell fits the extended
form. -/
theorem fits_wrapped {c : Command} (hsize : securedLength c ≤ 65535)
    (hle : c.LeFits .extended) (keys : SessionKeys) (chain : Chain) :
    (wrapped keys .extended true chain c).Fits .extended := by
  refine ⟨?_, hle⟩
  rw [length_wrapped]
  exact hsize

theorem wrapped_data_ne_nil (keys : SessionKeys) (form : LengthForm)
    (chain : Chain) (c : Command) :
    (wrapped keys form true chain c).data ≠ [] := by
  intro hnil
  have hlen := length_wrapped keys form chain c
  rw [hnil, List.length_nil] at hlen
  unfold securedLength at hlen
  omega

/-- A card reads the one frame of a secured command in extended form as
that command. -/
theorem read_extendedFrame {c : Command} (hsize : securedLength c ≤ 65535)
    (hle : c.LeFits .extended) (keys : SessionKeys) (chain : Chain) :
    Command.read? ((wrapped keys .extended true chain c).header
        ++ (wrapped keys .extended true chain c).body .extended)
      = some (.extended, { secured c with
          data := (wrapped keys .extended true chain c).data }) :=
  Command.read_extended (fits_wrapped hsize hle keys chain)
    (wrapped_data_ne_nil keys .extended chain c)

-- ============================================================= one command

/-- The last frame of a secured command is answered with the first part of
the answer, once the data before it has piled up. -/
theorem exchange_last {form : LengthForm} {c : Command}
    {frame part : Bytes} {first : Response} {rest : List Response}
    {link : Link (CardEnd α)} (hchained : c.isChained = false)
    (hread : Command.read? frame
      = some (form, { secured c with data := part }))
    (hdata : link.card.pending ++ part
      = (wrapped link.card.keys form true link.card.chain c).data)
    (hwait : (link.card.carried form c).waiting = first :: rest)
    (hlife : 0 < link.lifetime) :
    EndsWell (exchange frame) link first
      { link.card.carried form c with waiting := rest } 1 := by
  refine exchange_card hlife ?_
  rw [CardEnd.receive_last hchained hread,
    CardEnd.judge_wrapped hchained hdata]
  unfold CardEnd.handOut
  rw [hwait]

/-- A secured command in short form: the leading frames of its chain are
answered, and the last frame has the command judged. -/
theorem sendShort_card {limit : Nat} {c : Command} {first : Response}
    {rest : List Response} {link : Link (CardEnd α)}
    (hidle : link.card.pending = []) (hchained : c.isChained = false)
    (hle : c.LeFits .short)
    (hwait : (link.card.carried .short c).waiting = first :: rest)
    (hlife : (securedLength c - 1) / Framing.chunkSize limit + 1
      ≤ link.lifetime) :
    EndsWell (Framing.sendShort limit (wrapped link.card.keys .short true
        link.card.chain c)) link first
      { link.card.carried .short c with waiting := rest }
      ((securedLength c - 1) / Framing.chunkSize limit + 1) := by
  have hread := read_lastFrame limit hle link.card.keys link.card.chain
  have hcount := length_leadingChunks_wrapped (Framing.chunkSize limit)
    link.card.keys .short link.card.chain c
  have hle' : (wrapped link.card.keys .short true link.card.chain
      c).LeFits .short := hle
  generalize hw : wrapped link.card.keys .short true link.card.chain c = w
    at hread hcount hle' ⊢
  have hpieces : ∀ piece ∈ Framing.leadingChunks (Framing.chunkSize limit)
      w.data, piece.length ≤ 255 := by
    intro piece hmem
    rw [Framing.length_of_mem_leadingChunks hmem]
    exact Framing.chunkSize_le limit
  obtain ⟨mid, hacc, hcard, hmid⟩ := accepted_leading w hpieces link
    (by omega)
  -- what piled up and the last chunk are the data again
  have hdata : mid.card.pending
      ++ Framing.lastChunk (Framing.chunkSize limit) w.data
      = (wrapped mid.card.keys .short true mid.card.chain c).data := by
    rw [hcard, hidle, List.nil_append, Framing.flatten_leadingChunks, ← hw]
  have hcarried : mid.card.carried .short c = link.card.carried .short c := by
    rw [hcard, CardEnd.carried_pending]
  obtain ⟨after, hx, hafter, hleft⟩ := exchange_last hchained hread hdata
    (by rw [hcarried, hwait]) (by omega)
  refine ⟨after, ?_, by rw [hafter, hcarried], by omega⟩
  rw [Framing.sendShort_accepted hle' hacc, hx]

/-- A secured command in extended form: its one frame has the command
judged. -/
theorem sendExtended_card {limit : Nat} {c : Command} {first : Response}
    {rest : List Response} {link : Link (CardEnd α)}
    (hidle : link.card.pending = []) (hchained : c.isChained = false)
    (hsize : securedLength c ≤ 65535) (hle : c.LeFits .extended)
    (hframe : 7 + securedLength c + 2 * c.leOctets ≤ limit)
    (hwait : (link.card.carried .extended c).waiting = first :: rest)
    (hlife : 0 < link.lifetime) :
    EndsWell (Framing.sendExtended limit (wrapped link.card.keys .extended
        true link.card.chain c)) link first
      { link.card.carried .extended c with waiting := rest } 1 := by
  have hread := read_extendedFrame hsize hle link.card.keys
    link.card.chain
  have hdata : link.card.pending
      ++ (wrapped link.card.keys .extended true link.card.chain c).data
      = (wrapped link.card.keys .extended true link.card.chain c).data := by
    rw [hidle, List.nil_append]
  obtain ⟨after, hx, hafter, hleft⟩ := exchange_last hchained hread hdata
    hwait hlife
  refine ⟨after, ?_, hafter, hleft⟩
  have hfits := fits_wrapped hsize hle link.card.keys link.card.chain
  have hlen := Command.length_extended
    (wrapped_data_ne_nil link.card.keys .extended link.card.chain c)
  rw [length_wrapped] at hlen
  rw [Framing.sendExtended_fits hfits (by rw [hlen]; exact hframe), hx]

/-- A secured command in either form is carried out, and answered with the
first part of the answer. -/
theorem begin_card {framing : Framing} {c : Command} {first : Response}
    {rest : List Response} {link : Link (CardEnd α)}
    (hidle : link.card.pending = [])
    (hadm : Admitted framing link.card.maxFrame c)
    (hwait : (link.card.carried framing.form c).waiting = first :: rest)
    (hlife : frameCount framing (framing.limit link.card.maxFrame) c
      ≤ link.lifetime) :
    EndsWell (Framing.begin framing (framing.limit link.card.maxFrame)
        (wrapped link.card.keys framing.form true link.card.chain c)) link
      first { link.card.carried framing.form c with waiting := rest }
      (frameCount framing (framing.limit link.card.maxFrame) c) := by
  obtain ⟨hchained, hsize, hle, hframe⟩ := hadm
  unfold Framing.begin
  unfold frameCount at hlife ⊢
  cases hform : framing.form with
  | short =>
      rw [hform] at hle hwait
      simp only [hform] at hlife ⊢
      exact sendShort_card hidle hchained hle hwait hlife
  | extended =>
      rw [hform] at hle hwait
      simp only [hform] at hlife ⊢
      exact sendExtended_card hidle hchained hsize hle (hframe hform) hwait
        hlife

/-- How the application answers a command that was carried out. -/
def CardEnd.replyTo (c : Command) (card : CardEnd α) : CardReply :=
  (card.respond card.app (secured c)).1

/-- The answer to a secured command, as it goes over the channel. -/
def CardEnd.rawAnswer (form : LengthForm) (c : Command)
    (card : CardEnd α) : Response where
  payload := card.answer (card.replyTo c)
    (nextChaining card.keys form true card.chain c)
  status := (card.replyTo c).status

/-- The card after a command was carried out and all of the answer was
handed out. -/
def CardEnd.served (form : LengthForm) (c : Command) (card : CardEnd α) :
    CardEnd α :=
  { card.carried form c with waiting := [] }

/-- How many exchanges a command takes: its frames, and one for each part
of the answer after the first. -/
def exchanges (framing : Framing) (c : Command) (card : CardEnd α) : Nat :=
  frameCount framing (framing.limit card.maxFrame) c
    + (card.replyTo c).cuts.length

/-- The whole answer to a secured command comes back. -/
theorem send_card {framing : Framing} {c : Command}
    {link : Link (CardEnd α)} (hidle : link.card.pending = [])
    (hask : link.card.getResponse = framing.getResponse)
    (hadm : Admitted framing link.card.maxFrame c)
    (hlife : exchanges framing c link.card ≤ link.lifetime) :
    EndsWell (framing.send (wrapped link.card.keys framing.form true
        link.card.chain c)) link (link.card.rawAnswer framing.form c)
      (link.card.served framing.form c)
      (exchanges framing c link.card) := by
  unfold exchanges at hlife ⊢
  obtain ⟨first, rest, hparts, hlen⟩ := parts_cons
    (link.card.rawAnswer framing.form c).status (link.card.replyTo c).cuts
    (link.card.rawAnswer framing.form c).payload
  obtain ⟨mid, hbegin, hcard, hmid⟩ := begin_card hidle hadm hparts
    (by omega)
  have hwaits : mid.card.waiting = rest := by rw [hcard]
  have hasks : mid.card.getResponse = framing.getResponse := by
    rw [hcard]
    exact hask
  obtain ⟨after, hgather, hafter, hleft⟩ := gather_parts
    (link.card.replyTo c).terminal hparts mid hwaits (by omega)
    (mid.lifetime + 1) (by omega) []
  refine ⟨after, ?_, ?_, by omega⟩
  · have hlimit : framing.limitOver link
        = framing.limit link.card.maxFrame := rfl
    rw [Framing.send_run, hlimit, hbegin, ← hasks]
    exact hgather
  · rw [hafter, hcard]
    rfl

end SmartCard.Scp03
