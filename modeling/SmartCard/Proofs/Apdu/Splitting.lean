/-
A long command in short form loses nothing on its way. It goes out as a
chain of frames; what a card reads in them is the command again, cut into
chunks, and the chain is no longer than it has to be. Where the card does
not go along with a frame of the chain, that frame is the last one that
was handed over.

# Frames and runs

Which frames a command has does not depend on the card, so the two halves
of the law are proved apart. The frames are read back one by one
(`parse_leadingFrame`, `parse_lastFrame`), and the chunks in them are full
and in order (`Carries`). The run is an induction on the frames that were
answered 90 00: after those, the chain is where it would be if it had
begun with the next frame (`sendLeading_fault`).

# The class of the last frame

A command may be marked as a chain itself, and then its last frame may be
the same octets as a frame before it. That the last frame was not sent is
therefore said by how many frames of the chain were handed over, and not
by which octets were.
-/
import SmartCard.Proofs.Apdu.Limits

namespace SmartCard.Framing

open Command (LeFits Fits)

-- =============================================================== the count

/-- The chain has as many frames as the data has chunks, and one where
there is no data. -/
theorem leadingCount_succ {chunk : Nat} (hpos : 0 < chunk) (data : Bytes) :
    leadingCount chunk data + 1
      = (max data.length 1 + (chunk - 1)) / chunk := by
  have hsum : max data.length 1 + (chunk - 1)
      = data.length - 1 + chunk := by
    omega
  unfold leadingCount
  rw [hsum, Nat.add_div_right _ hpos]

-- ======================================================= what a card reads

/-- A leading frame reads as the marked command with its piece of the
data. -/
theorem parse_leadingFrame (c : Command) {piece : Bytes}
    (hlen : piece.length ≤ 255) :
    Command.parse (leadingFrame c piece) = .ok (leading c piece) :=
  Command.parse_short ⟨hlen, fun _ hle => by cases hle⟩

/-- The last frame reads as the command itself with what is left of the
data. -/
theorem parse_lastFrame (limit : Nat) {c : Command}
    (hle : c.LeFits .short) :
    Command.parse (lastFrame (chunkSize limit) c)
      = .ok (lastCommand (chunkSize limit) c) :=
  Command.parse_short ((lastCommand_fits_iff limit c).mpr hle)

/-- The commands in the frames of a chain carry a command in chunks of the
given size: all but the last are marked, ask for nothing and are full; the
last has the class and the answer length of the command; in order their
data is the data of the command, and there are no more of them than that
takes. -/
structure Carries (chunk : Nat) (c : Command) (parts : List Command)
    (last : Command) : Prop where
  marked : ∀ p ∈ parts,
    p = { c with cla := c.cla ||| chainingBit, data := p.data, le := none }
  full : ∀ p ∈ parts, p.data.length = chunk
  final : last = { c with data := last.data }
  whole : (parts.map Command.data).flatten ++ last.data = c.data
  count : parts.length + 1 = (max c.data.length 1 + (chunk - 1)) / chunk

/-- The commands of a chain carry the command: all but the last are marked,
and their data is joined to its own. -/
theorem carries_leading {chunk : Nat} (hpos : 0 < chunk) (c : Command) :
    Carries chunk c ((leadingChunks chunk c.data).map (leading c))
      (lastCommand chunk c) where
  marked p hmem := by
    obtain ⟨piece, -, rfl⟩ := List.mem_map.mp hmem
    rfl
  full p hmem := by
    obtain ⟨piece, hpiece, rfl⟩ := List.mem_map.mp hmem
    exact length_of_mem_leadingChunks hpiece
  final := rfl
  whole := by
    have hdata : ((leadingChunks chunk c.data).map (leading c)).map
        Command.data = leadingChunks chunk c.data := by
      rw [List.map_map]
      exact List.map_id _
    rw [hdata]
    exact flatten_leadingChunks chunk c.data
  count := by
    rw [List.length_map, length_leadingChunks, leadingCount_succ hpos]

/-- What a card reads in the frames of a chain carries the command. -/
theorem read_chain (limit : Nat) {c : Command} (hle : c.LeFits .short) :
    ∃ parts last,
      (leadingFrames (chunkSize limit) c).map Command.parse
          = parts.map Except.ok
        ∧ Command.parse (lastFrame (chunkSize limit) c) = .ok last
        ∧ Carries (chunkSize limit) c parts last := by
  refine ⟨_, _, ?_, parse_lastFrame limit hle,
    carries_leading (chunkSize_pos limit) c⟩
  unfold leadingFrames
  rw [List.map_map, List.map_map]
  refine List.map_congr_left fun piece hmem => ?_
  apply parse_leadingFrame
  rw [length_of_mem_leadingChunks hmem]
  exact chunkSize_le limit

-- ========================================================= a chain at fault

/-- How a chain fails by the answer to its frame of this number: by what
went wrong with the answer, or because the card did not go along. A frame
that was answered 90 00 is no reason to fail. -/
def chainFault? (number : Nat) : Except Error Response → Option Error
  | .error e => some e
  | .ok answer =>
      if answer.isSuccess then none
      else some (.protocol (.chainAborted answer.status number))

variable {σ : Type} [Transport σ]

/-- Behind frames that were answered 90 00, a frame that was not fails the
call, with the number of that frame. Nothing follows it. -/
theorem sendLeading_fault {c : Command} {first rest : List Bytes}
    {piece : Bytes} {sent : Nat} {link mid after : Link σ}
    {r : Except Error Response} {e : Error}
    (hlen : ∀ p ∈ first ++ piece :: rest, p.length ≤ 255)
    (hacc : Accepted (first.map (leadingFrame c)) link mid)
    (hx : (exchange (leadingFrame c piece)).run.run mid = (r, after))
    (hfault : chainFault? (sent + first.length + 1) r = some e) :
    (sendLeading c sent (first ++ piece :: rest)).run.run link
      = (.error e, after) := by
  induction first generalizing sent link with
  | nil =>
      have hencode := encode_leading c (hlen piece List.mem_cons_self)
      rw [List.map_nil] at hacc
      cases hacc
      rw [List.nil_append, sendLeading,
        run_bind_ok (by rw [run_lift, hencode])]
      cases r with
      | error cause =>
          injection hfault with hcause
          subst hcause
          exact run_bind_error hx
      | ok answer =>
          rw [run_bind_ok hx]
          cases hok : answer.isSuccess with
          | false =>
              simp only [chainFault?, hok] at hfault
              cases hfault
              rfl
          | true =>
              simp only [chainFault?, hok] at hfault
              cases hfault
  | cons p first ih =>
      have hencode := encode_leading c (hlen p List.mem_cons_self)
      rw [List.map_cons] at hacc
      cases hacc with
      | cons hy hok hrest =>
          rw [List.cons_append, sendLeading,
            run_bind_ok (by rw [run_lift, hencode]), run_bind_ok hy, hok]
          -- the frame counts, and the chain goes on with the next one
          refine ih (fun q hq => hlen q (List.mem_cons_of_mem _ hq)) hrest ?_
          rw [List.length_cons] at hfault
          rw [← hfault]
          congr 1
          omega

-- ========================================================= whole commands

/-- A chain at fault fails the command, with nothing more handed over. -/
theorem send_fault {framing : Framing} {c : Command}
    {first rest : List Bytes} {frame : Bytes} {link mid after : Link σ}
    {r : Except Error Response} {e : Error} (hform : framing.form = .short)
    (hchain : leadingFrames (chunkSize (framing.limitOver link)) c
      = first ++ frame :: rest)
    (hacc : Accepted first link mid)
    (hx : (exchange frame).run.run mid = (r, after))
    (hfault : chainFault? (first.length + 1) r = some e) :
    (framing.send c).run.run link = (.error e, after) := by
  -- the frames are those of chunks, cut at the same place
  obtain ⟨before, others, hpieces, rfl, htail⟩ :=
    List.map_eq_append_iff.mp hchain
  obtain ⟨piece, behind, rfl, rfl, -⟩ := List.map_eq_cons_iff.mp htail
  have hlen : ∀ p ∈ before ++ piece :: behind, p.length ≤ 255 := by
    intro p hmem
    rw [← hpieces] at hmem
    rw [length_of_mem_leadingChunks hmem]
    exact chunkSize_le _
  have hrun := sendLeading_fault hlen hacc hx
    (show chainFault? (0 + _ + 1) r = some e by simpa using hfault)
  rw [← hpieces] at hrun
  rw [send_run, begin_short hform]
  unfold sendShort
  rw [run_bind_error hrun]

/-- A command in short form loses nothing. Its frames carry it whole, in
chunks of what the limit leaves beside header and length. Where the card
answers 90 00 to each frame before the last, these frames go out and no
others before the rest of the answer is asked for. Where it does not, the
frame it did not go along with is the last that goes out, and the command
fails. -/
theorem chain_carries_command (framing : Framing) (c : Command)
    (link : Link σ) (hform : framing.form = .short)
    (hle : c.LeFits .short) :
    let chunk := max 1 (min 255 (framing.limitOver link - 5))
    let before := leadingFrames chunk c
    let last := lastFrame chunk c
    (∃ parts final,
        before.map Command.parse = parts.map Except.ok
          ∧ Command.parse last = .ok final
          ∧ Carries chunk c parts final)
      ∧ (∀ mid, Accepted before link mid →
          ((begin framing (framing.limitOver link) c).run.run link).2.frames
              = link.frames ++ (before ++ [last])
            ∧ ∃ counts : List Nat,
              ((framing.send c).run.run link).2.frames
                = link.frames ++ (before ++ [last])
                  ++ counts.map (followUpFrame framing.getResponse))
      ∧ ∀ first frame rest mid r after e,
          before = first ++ frame :: rest →
          Accepted first link mid →
          (exchange frame).run.run mid = (r, after) →
          chainFault? (first.length + 1) r = some e →
          (framing.send c).run.run link = (.error e, after)
            ∧ after.frames
              = link.frames ++ before.take (first.length + 1) := by
  intro chunk before last
  refine ⟨read_chain (framing.limitOver link) hle, ?_, ?_⟩
  · intro mid hacc
    have hrun : (begin framing (framing.limitOver link) c).run.run link
        = (exchange last).run.run mid := by
      rw [begin_short hform]
      exact sendShort_accepted hle hacc
    refine ⟨?_, ?_⟩
    · rw [hrun]
      rcases hx : (exchange last).run.run mid with ⟨r, after⟩
      rw [frames_exchange hx, hacc.frames, List.append_assoc]
    · obtain ⟨counts, hframes⟩ := frames_send_answered hrun
      refine ⟨counts, ?_⟩
      rw [hframes, hacc.frames]
      simp only [List.append_assoc, List.singleton_append]
  · intro first frame rest mid r after e hchain hacc hx hfault
    refine ⟨send_fault hform hchain hacc hx hfault, ?_⟩
    have htake : before.take (first.length + 1) = first ++ [frame] := by
      rw [hchain, List.take_append, List.take_of_length_le (by omega)]
      simp
    rw [frames_exchange hx, hacc.frames, htake, List.append_assoc]

/-- A link that carries frames of seven octets, to a card that refuses
each. -/
def refusingLink : Link ScriptedCard where
  card := { script := .queue [[0x6A, 0x80]], frameLimit := some 7 }
  lifetime := 3

/-- Three octets in frames of two, to a card that goes along and to one
that does not. -/
theorem chain_carries_store :
    ({} : Framing).form = .short
      ∧ (store [0x01, 0x02, 0x03] (some 1)).LeFits .short
      ∧ (∃ parts final,
        [[0x10, 0xDB, 0x3F, 0xFF, 0x02, 0x01, 0x02]].map Command.parse
            = parts.map Except.ok
          ∧ Command.parse [0x00, 0xDB, 0x3F, 0xFF, 0x01, 0x03, 0x01]
            = .ok final
          ∧ Carries 2 (store [0x01, 0x02, 0x03] (some 1)) parts final)
      ∧ ((begin {} 7 (store [0x01, 0x02, 0x03] (some 1))).run.run
          narrowLink).2.frames
        = [[0x10, 0xDB, 0x3F, 0xFF, 0x02, 0x01, 0x02],
          [0x00, 0xDB, 0x3F, 0xFF, 0x01, 0x03, 0x01]]
      ∧ ∃ after,
        (send {} (store [0x01, 0x02, 0x03] (some 1))).run.run refusingLink
            = (.error (.protocol (.chainAborted ⟨0x6A, 0x80⟩ 1)), after)
          ∧ after.frames = [[0x10, 0xDB, 0x3F, 0xFF, 0x02, 0x01, 0x02]] := by
  have hle : (store [0x01, 0x02, 0x03] (some 1)).LeFits .short := by
    rintro n ⟨⟩
    decide
  obtain ⟨hread, hgone, -⟩ := chain_carries_command {}
    (store [0x01, 0x02, 0x03] (some 1)) narrowLink rfl hle
  obtain ⟨-, -, hfault⟩ := chain_carries_command {}
    (store [0x01, 0x02, 0x03] (some 1)) refusingLink rfl hle
  have hacc : Accepted
      [[0x10, 0xDB, 0x3F, 0xFF, 0x02, 0x01, 0x02]] narrowLink _ :=
    Accepted.cons rfl rfl (Accepted.nil _)
  exact ⟨rfl, hle, hread, (hgone _ hacc).1,
    _, hfault [] _ [] _ _ _ _ rfl (Accepted.nil _) rfl rfl⟩

end SmartCard.Framing
