/-
What a command looks like on the link: which frames go out, in which
order, and how far they get. Nothing is assumed of the card, so each law
holds against every answer, every failure and every lifetime.

# The frames of a command

A command has its frames before anything is sent: a chain of marked frames
(`leadingFrames`) and a last one (`lastFrame`) in short form, a single
frame in extended form. A run hands over some first part of them, and only
after the whole of them the frames that ask for the rest of an answer
(`frames_send_short`, `frames_send_extended`).

# How far a chain gets

The last frame of a chain is encoded after the frames before it were
answered. So there are three ways for a chain to go: a frame before the
last is not answered 90 00 (`Stopped`), or all of them are (`Accepted`)
and then the last frame goes out, or can not be encoded. The first two
exclude each other (`Stopped.not_accepted`).
-/
import SmartCard.Apdu.Framing
import SmartCard.Proofs.Apdu.Frames
import SmartCard.Proofs.Exchange

namespace SmartCard.Framing

open Command (LeFits Fits)

-- =============================================================== cutting

/-- A chunk takes at least one octet, so a chain comes to an end. -/
theorem chunkSize_pos (limit : Nat) : 0 < chunkSize limit := by
  unfold chunkSize
  omega

/-- No chunk is longer than one octet can say. -/
theorem chunkSize_le (limit : Nat) : chunkSize limit ≤ 255 := by
  unfold chunkSize
  omega

/-- Every piece but those that the end of the string cuts short has the
full size. -/
theorem length_of_mem_pieces {size count : Nat} {b piece : Bytes}
    (hroom : size * count ≤ b.length)
    (hmem : piece ∈ Bytes.pieces size count b) : piece.length = size := by
  induction count generalizing b with
  | zero => cases hmem
  | succ count ih =>
      rw [Nat.mul_succ] at hroom
      rcases List.mem_cons.mp hmem with rfl | hrest
      · rw [List.length_take]
        omega
      · refine ih ?_ hrest
        rw [List.length_drop]
        omega

theorem mul_leadingCount_le (chunk : Nat) (data : Bytes) :
    chunk * leadingCount chunk data ≤ data.length - 1 := by
  unfold leadingCount
  exact Nat.mul_div_le _ _

/-- There are as many leading chunks as were counted. -/
theorem length_leadingChunks (chunk : Nat) (data : Bytes) :
    (leadingChunks chunk data).length = leadingCount chunk data := by
  unfold leadingChunks
  rw [Bytes.length_pieces]

/-- Every chunk before the last one is full. -/
theorem length_of_mem_leadingChunks {chunk : Nat} {data piece : Bytes}
    (hmem : piece ∈ leadingChunks chunk data) : piece.length = chunk := by
  refine length_of_mem_pieces ?_ hmem
  exact Nat.le_trans (mul_leadingCount_le chunk data) (Nat.sub_le _ _)

/-- The chunks in order are the data. -/
theorem flatten_leadingChunks (chunk : Nat) (data : Bytes) :
    (leadingChunks chunk data).flatten ++ lastChunk chunk data = data := by
  unfold leadingChunks lastChunk
  rw [Bytes.flatten_pieces, List.take_append_drop]

/-- The last chunk is what the leading ones leave of the data. -/
theorem length_lastChunk (chunk : Nat) (data : Bytes) :
    (lastChunk chunk data).length
      = data.length - chunk * leadingCount chunk data := by
  unfold lastChunk
  rw [List.length_drop]

theorem length_lastChunk_le {chunk : Nat} (hpos : 0 < chunk)
    (data : Bytes) : (lastChunk chunk data).length ≤ chunk := by
  rw [length_lastChunk]
  unfold leadingCount
  have hdiv := Nat.div_add_mod (data.length - 1) chunk
  have hmod := Nat.mod_lt (data.length - 1) hpos
  omega

/-- The last chunk is as long as the others exactly when there is data,
and in whole chunks. -/
theorem length_lastChunk_eq_iff {chunk : Nat} (hpos : 0 < chunk)
    (data : Bytes) :
    (lastChunk chunk data).length = chunk
      ↔ 0 < data.length ∧ chunk ∣ data.length := by
  rw [length_lastChunk]
  unfold leadingCount
  have hdiv := Nat.div_add_mod (data.length - 1) chunk
  have hmod := Nat.mod_lt (data.length - 1) hpos
  constructor
  · intro h
    refine ⟨by omega, (data.length - 1) / chunk + 1, ?_⟩
    rw [Nat.mul_succ]
    omega
  · rintro ⟨hdata, k, hk⟩
    -- of `k` chunks, all but one come before the last
    cases k with
    | zero => omega
    | succ k =>
        rw [Nat.mul_succ] at hk
        have hquot : (data.length - 1) / chunk = k := by
          rw [Nat.div_eq_iff hpos, Nat.mul_comm k chunk]
          omega
        rw [hquot]
        omega

/-- A chain has leading frames exactly when the data is too long for one
frame. -/
theorem leadingCount_eq_zero_iff {chunk : Nat} (hpos : 0 < chunk)
    (data : Bytes) :
    leadingCount chunk data = 0 ↔ data.length ≤ chunk := by
  unfold leadingCount
  rw [Nat.div_eq_zero_iff]
  omega

-- ========================================================== chain frames

/-- The frame of a chain that holds one of the chunks before the last. -/
def leadingFrame (c : Command) (chunk : Bytes) : Bytes :=
  (leading c chunk).header ++ (leading c chunk).body .short

/-- The frames of a chain before the last one. -/
def leadingFrames (chunk : Nat) (c : Command) : List Bytes :=
  (leadingChunks chunk c.data).map (leadingFrame c)

/-- What goes into the last frame of a chain. -/
def lastCommand (chunk : Nat) (c : Command) : Command :=
  { c with data := lastChunk chunk c.data }

/-- The last frame of a chain. -/
def lastFrame (chunk : Nat) (c : Command) : Bytes :=
  (lastCommand chunk c).header ++ (lastCommand chunk c).body .short

/-- A leading command is always encoded: its data fits, and it has no Le. -/
theorem encode_leading (c : Command) {piece : Bytes}
    (hlen : piece.length ≤ 255) :
    (leading c piece).encode .short = .ok (leadingFrame c piece) :=
  Command.encode_fits ⟨hlen, fun _ hle => by cases hle⟩

theorem length_leadingFrame (c : Command) {piece : Bytes}
    (hne : piece ≠ []) : (leadingFrame c piece).length
      = 5 + piece.length := by
  unfold leadingFrame
  rw [Command.length_short]
  show 4 + (if piece = [] then 0 else 1 + piece.length) + 0 = _
  rw [if_neg hne]
  omega

/-- The answer length is in the last frame alone, so that frame can be
encoded exactly when the answer length fits. -/
theorem lastCommand_fits_iff (limit : Nat) (c : Command) :
    (lastCommand (chunkSize limit) c).Fits .short ↔ c.LeFits .short := by
  constructor
  · exact fun h => h.le
  · intro h
    refine ⟨?_, h⟩
    exact Nat.le_trans (length_lastChunk_le (chunkSize_pos limit) c.data)
      (chunkSize_le limit)

/-- A chain has no leading frame exactly when its data fits one frame. -/
theorem leadingFrames_eq_nil_iff {chunk : Nat} (hpos : 0 < chunk)
    (c : Command) :
    leadingFrames chunk c = [] ↔ c.data.length ≤ chunk := by
  unfold leadingFrames
  rw [List.map_eq_nil_iff, ← List.length_eq_zero_iff,
    length_leadingChunks, leadingCount_eq_zero_iff hpos]

-- ===================================================== how far a chain gets

variable {σ : Type} [Transport σ]

/-- The first frame that was not answered 90 00 is the last one that was
handed over. -/
inductive Stopped : List Bytes → Link σ → Link σ → Prop
  | here {frame : Bytes} {rest : List Bytes} {r : Except Error Response}
      {link after : Link σ} :
      (exchange frame).run.run link = (r, after) →
      (∀ answer, r = .ok answer → answer.isSuccess = false) →
      Stopped (frame :: rest) link after
  | later {frame : Bytes} {rest : List Bytes} {answer : Response}
      {link mid after : Link σ} :
      (exchange frame).run.run link = (.ok answer, mid) →
      answer.isSuccess = true → Stopped rest mid after →
      Stopped (frame :: rest) link after

/-- A chain that stopped handed over some first part of its frames. -/
theorem Stopped.frames {chain : List Bytes} {link after : Link σ}
    (h : Stopped chain link after) :
    ∃ k, 0 < k ∧ k ≤ chain.length
      ∧ after.frames = link.frames ++ chain.take k := by
  induction h with
  | here hx _ =>
      refine ⟨1, Nat.one_pos, by simp, ?_⟩
      rw [frames_exchange hx]
      simp
  | later hx _ _ ih =>
      obtain ⟨k, _, hk, hframes⟩ := ih
      refine ⟨k + 1, Nat.succ_pos k, by simpa using hk, ?_⟩
      rw [hframes, frames_exchange hx, List.take_succ_cons,
        List.append_assoc, List.singleton_append]

/-- A chain that stopped was not answered 90 00 throughout. -/
theorem Stopped.not_accepted {chain : List Bytes} {link after : Link σ}
    (h : Stopped chain link after) :
    ¬ ∃ mid, Accepted chain link mid := by
  induction h with
  | here hx hbad =>
      rintro ⟨mid, hacc⟩
      cases hacc with
      | cons hy hok _ =>
          rw [hx] at hy
          injection hy with hr _
          rw [hbad _ hr] at hok
          cases hok
  | later hx _ _ ih =>
      rintro ⟨mid, hacc⟩
      cases hacc with
      | cons hy _ hrest =>
          rw [hx] at hy
          injection hy with _ hmid
          subst hmid
          exact ih ⟨mid, hrest⟩

/-- The frames of a chain go out one after the other: either each is
answered 90 00, or the chain stops and the call fails, though not for the
length of the command. -/
theorem sendLeading_run (c : Command) {pieces : List Bytes}
    (hlen : ∀ piece ∈ pieces, piece.length ≤ 255) (sent : Nat)
    (link : Link σ) :
    (∃ after, (sendLeading c sent pieces).run.run link = (.ok (), after)
        ∧ Accepted (pieces.map (leadingFrame c)) link after)
      ∨ ∃ e after,
          (sendLeading c sent pieces).run.run link = (.error e, after)
          ∧ Stopped (pieces.map (leadingFrame c)) link after
          ∧ ∀ n, e ≠ .commandLength n := by
  induction pieces generalizing sent link with
  | nil => exact Or.inl ⟨link, rfl, Accepted.nil link⟩
  | cons piece rest ih =>
      have hencode := encode_leading c (hlen piece List.mem_cons_self)
      have hrest : ∀ p ∈ rest, p.length ≤ 255 :=
        fun p hp => hlen p (List.mem_cons_of_mem _ hp)
      rw [sendLeading, List.map_cons,
        run_bind_ok (by rw [run_lift, hencode])]
      rcases hx : (exchange (leadingFrame c piece)).run.run link
        with ⟨e | answer, mid⟩
      · -- no answer came back
        rw [run_bind_error hx]
        refine Or.inr ⟨e, mid, rfl, Stopped.here hx ?_, exchange_error hx⟩
        intro answer hr
        cases hr
      · rw [run_bind_ok hx]
        cases hok : answer.isSuccess with
        | false =>
            refine Or.inr ⟨_, mid, rfl, Stopped.here hx ?_, ?_⟩
            · intro answer' hr
              injection hr with hr
              rw [← hr, hok]
            · intro n hn
              cases hn
        | true =>
            -- the frame was accepted, so the rest of the chain decides
            simp only [if_true]
            rcases ih hrest (sent + 1) mid with
              ⟨after, hrun, hacc⟩ | ⟨e, after, hrun, hstop, hne⟩
            · exact Or.inl ⟨after, hrun, Accepted.cons hx hok hacc⟩
            · exact Or.inr ⟨e, after, hrun, Stopped.later hx hok hstop, hne⟩

-- ====================================================== gathering answers

/-- The frame that asks for so many more octets of an answer. -/
def followUpFrame (ins : UInt8) (count : Nat) : Bytes :=
  (followUp ins count).header ++ (followUp ins count).body .short

/-- What a status announces can be asked for. -/
theorem remaining_bounds {status : StatusWord} {count : Nat}
    (h : status.remaining? = some count) : 0 < count ∧ count ≤ 256 := by
  unfold StatusWord.remaining? at h
  split at h
  · injection h with h
    subst h
    by_cases hzero : status.sw2 = 0
    · rw [if_pos hzero]
      omega
    · rw [if_neg hzero]
      have hlt := status.sw2.toNat_lt
      have hne : status.sw2.toNat ≠ 0 := fun h0 =>
        hzero (UInt8.toNat_inj.mp h0)
      omega
  · cases h

/-- What a status announces can be asked for, so the frame is always
encoded. -/
theorem encode_followUp (ins : UInt8) {status : StatusWord} {count : Nat}
    (h : status.remaining? = some count) :
    (followUp ins count).encode .short = .ok (followUpFrame ins count) := by
  refine Command.encode_fits ⟨Nat.zero_le _, fun n hn => ?_⟩
  injection hn with hn
  subst hn
  exact remaining_bounds h

theorem length_followUpFrame (ins : UInt8) (count : Nat) :
    (followUpFrame ins count).length = 5 := by
  unfold followUpFrame
  rw [Command.length_short]
  rfl

theorem remaining_eq_none {status : StatusWord}
    (h : status.isMoreData = false) : status.remaining? = none := by
  unfold StatusWord.remaining?
  rw [h]
  rfl

/-- A status that announces no more ends the gathering. -/
theorem gather_done {ins : UInt8} {status : StatusWord}
    (h : status.remaining? = none) (fuel : Nat) (payload : Bytes)
    (link : Link σ) :
    (gather ins fuel payload status).run.run link
      = (.ok ⟨payload, status⟩, link) := by
  unfold gather
  rw [h]
  cases fuel <;> rfl

/-- A status that announces more has the next frame ask for it: the
gathering ends where the answer to that fails, and goes on from the answer
otherwise. -/
theorem gather_more {ins : UInt8} {status : StatusWord} {count : Nat}
    (h : status.remaining? = some count) (fuel : Nat) (payload : Bytes)
    (link : Link σ) :
    (gather ins (fuel + 1) payload status).run.run link
      = match (exchange (followUpFrame ins count)).run.run link with
        | (.error e, mid) => (.error e, mid)
        | (.ok answer, mid) =>
            (gather ins fuel (payload ++ answer.payload)
              answer.status).run.run mid := by
  conv => lhs; unfold gather
  rw [h]
  simp only []
  rw [run_bind_ok (by rw [run_lift, encode_followUp ins h])]
  rcases hx : (exchange (followUpFrame ins count)).run.run link
    with ⟨e | answer, mid⟩
  · rw [run_bind_error hx]
  · rw [run_bind_ok hx]

/-- While an answer is gathered, frames that ask for more go out and
nothing else; and the call does not fail for the length of a command. -/
theorem gather_frames {ins : UInt8} {fuel : Nat} {payload : Bytes}
    {status : StatusWord} {link after : Link σ} {r : Except Error Response}
    (h : (gather ins fuel payload status).run.run link = (r, after)) :
    (∃ counts : List Nat,
        after.frames = link.frames ++ counts.map (followUpFrame ins))
      ∧ ∀ n, r ≠ .error (.commandLength n) := by
  induction fuel generalizing payload status link with
  | zero =>
      cases hrem : status.remaining? with
      | none =>
          rw [gather_done hrem] at h
          cases h
          exact ⟨⟨[], by simp⟩, fun n hn => by cases hn⟩
      | some count =>
          unfold gather at h
          rw [hrem] at h
          cases h
          exact ⟨⟨[], by simp⟩, fun n hn => by cases hn⟩
  | succ fuel ih =>
      cases hrem : status.remaining? with
      | none =>
          rw [gather_done hrem] at h
          cases h
          exact ⟨⟨[], by simp⟩, fun n hn => by cases hn⟩
      | some count =>
          rw [gather_more hrem] at h
          rcases hx : (exchange (followUpFrame ins count)).run.run link
            with ⟨e | answer, mid⟩
          · rw [hx] at h
            cases h
            refine ⟨⟨[count], by simpa using frames_exchange hx⟩, ?_⟩
            intro n hn
            injection hn with hn
            exact exchange_error hx n hn
          · rw [hx] at h
            obtain ⟨⟨counts, hframes⟩, hne⟩ := ih h
            refine ⟨⟨count :: counts, ?_⟩, hne⟩
            rw [hframes, frames_exchange hx, List.map_cons,
              List.append_assoc, List.singleton_append]

-- ========================================================= whole commands

/-- The longest frame that host and link agree on. -/
def limitOver (framing : Framing) (link : Link σ) : Nat :=
  framing.limit (Transport.maxFrame link.card)

/-- A command up to the first answer, before the rest of it is asked
for. -/
def begin (framing : Framing) (limit : Nat) (c : Command) :
    Exchange σ Response :=
  match framing.form with
  | .short => sendShort limit c
  | .extended => sendExtended limit c

theorem begin_short {framing : Framing} (hform : framing.form = .short)
    (limit : Nat) (c : Command) :
    (begin framing limit c : Exchange σ Response) = sendShort limit c := by
  unfold begin
  rw [hform]

theorem begin_extended {framing : Framing}
    (hform : framing.form = .extended) (limit : Nat) (c : Command) :
    (begin framing limit c : Exchange σ Response)
      = sendExtended limit c := by
  unfold begin
  rw [hform]

/-- A command that got a first answer goes on to gather the rest, for as
long as the link may last; one that failed ends there. -/
theorem send_run (framing : Framing) (c : Command) (link : Link σ) :
    (framing.send c).run.run link
      = match (begin framing (framing.limitOver link) c).run.run link with
        | (.ok first, mid) =>
            (gather framing.getResponse (mid.lifetime + 1) first.payload
              first.status).run.run mid
        | (.error e, mid) => (.error e, mid) := by
  unfold send
  rw [run_bind_ok (run_get link)]
  rcases hb : (begin framing (framing.limitOver link) c).run.run link
    with ⟨e | first, mid⟩
  · unfold begin at hb
    cases hform : framing.form <;> (rw [hform] at hb; exact run_bind_error hb)
  · unfold begin at hb
    cases hform : framing.form <;>
      (rw [hform] at hb; exact (run_bind_ok hb).trans rfl)

/-- The three ways of a command in short form, up to the first answer: its
chain stops; the chain is answered and the last frame goes out; or the
chain is answered and then the last frame can not be encoded. -/
theorem sendShort_run (limit : Nat) (c : Command) (link : Link σ) :
    (∃ e after, (sendShort limit c).run.run link = (.error e, after)
        ∧ Stopped (leadingFrames (chunkSize limit) c) link after
        ∧ ∀ n, e ≠ .commandLength n)
      ∨ (c.LeFits .short
        ∧ ∃ mid, Accepted (leadingFrames (chunkSize limit) c) link mid
          ∧ (sendShort limit c).run.run link
            = (exchange (lastFrame (chunkSize limit) c)).run.run mid)
      ∨ ∃ n mid, c.le = some n ∧ (n = 0 ∨ 256 < n)
        ∧ Accepted (leadingFrames (chunkSize limit) c) link mid
        ∧ (sendShort limit c).run.run link
          = (.error (.commandLength n), mid) := by
  have hpieces : ∀ piece ∈ leadingChunks (chunkSize limit) c.data,
      piece.length ≤ 255 := fun piece hmem => by
    rw [length_of_mem_leadingChunks hmem]
    exact chunkSize_le limit
  unfold sendShort
  rcases sendLeading_run c hpieces 0 link with
    ⟨mid, hrun, hacc⟩ | ⟨e, after, hrun, hstop, hne⟩
  · refine Or.inr ?_
    -- only now is the last frame encoded, and with it the answer length
    by_cases hle : c.LeFits .short
    · refine Or.inl ⟨hle, mid, hacc, ?_⟩
      have hfits := (lastCommand_fits_iff limit c).mpr hle
      have hencode := Command.encode_fits hfits
      rw [run_bind_ok hrun]
      exact run_bind_ok (by rw [run_lift]; exact congrArg (·, mid) hencode)
    · obtain ⟨n, hn, hbad⟩ := Command.not_leFits.mp hle
      refine Or.inr ⟨n, mid, hn, hbad, hacc, ?_⟩
      have hdata := Nat.le_trans
        (length_lastChunk_le (chunkSize_pos limit) c.data)
        (chunkSize_le limit)
      have hencode : (lastCommand (chunkSize limit) c).encode .short = _ :=
        Command.encode_misfit hdata hn hbad
      rw [run_bind_ok hrun]
      exact run_bind_error
        (by rw [run_lift]; exact congrArg (·, mid) hencode)
  · exact Or.inl ⟨e, after, run_bind_error hrun, hstop, hne⟩

/-- A command whose leading frames are all answered 90 00 goes on with its
last frame. -/
theorem sendShort_accepted {limit : Nat} {c : Command} {link mid : Link σ}
    (hle : c.LeFits .short)
    (hacc : Accepted (leadingFrames (chunkSize limit) c) link mid) :
    (sendShort limit c).run.run link
      = (exchange (lastFrame (chunkSize limit) c)).run.run mid := by
  rcases sendShort_run limit c link with
    ⟨_, _, _, hstop, _⟩ | ⟨_, mid', hacc', hrun⟩ | ⟨n, _, hn, hbad, _, _⟩
  · exact absurd ⟨mid, hacc⟩ hstop.not_accepted
  · rw [hrun, hacc.unique hacc']
  · exact absurd hle (Command.not_leFits.mpr ⟨n, hn, hbad⟩)

/-- A command that fits one extended frame within the limit is that
frame. -/
theorem sendExtended_fits {limit : Nat} {c : Command}
    (hfits : c.Fits .extended)
    (hlen : (c.header ++ c.body .extended).length ≤ limit)
    (link : Link σ) :
    (sendExtended limit c).run.run link
      = (exchange (c.header ++ c.body .extended)).run.run link := by
  unfold sendExtended
  rw [run_bind_ok (by rw [run_lift, Command.encode_fits hfits]),
    if_neg (Nat.not_lt.mpr hlen)]

/-- The two ways of a command in extended form, up to the first answer:
it is refused while nothing has gone out, or its one frame goes out. -/
theorem sendExtended_run (limit : Nat) (c : Command) (link : Link σ) :
    (∃ e, (sendExtended limit c).run.run link = (.error e, link))
      ∨ (c.Fits .extended
        ∧ (c.header ++ c.body .extended).length ≤ limit
        ∧ (sendExtended limit c).run.run link
          = (exchange (c.header ++ c.body .extended)).run.run link) := by
  cases hencode : c.encode .extended with
  | error e =>
      unfold sendExtended
      rw [hencode]
      exact Or.inl ⟨e, run_bind_error (run_lift _ _)⟩
  | ok frame =>
      have hfits := Command.fits_of_encode hencode
      by_cases hlen : (c.header ++ c.body .extended).length ≤ limit
      · exact Or.inr ⟨hfits, hlen, sendExtended_fits hfits hlen link⟩
      · unfold sendExtended
        rw [run_bind_ok (by rw [run_lift, Command.encode_fits hfits]),
          if_pos (Nat.not_le.mp hlen)]
        exact Or.inl ⟨_, run_bind_error (run_throw _ _)⟩

/-- Once the last frame of a command is out, only frames that ask for the
rest of the answer follow it. -/
theorem frames_send_answered {framing : Framing} {c : Command}
    {link mid : Link σ} {frame : Bytes}
    (h : (begin framing (framing.limitOver link) c).run.run link
      = (exchange frame).run.run mid) :
    ∃ counts : List Nat, ((framing.send c).run.run link).2.frames
      = mid.frames ++ frame :: counts.map
          (followUpFrame framing.getResponse) := by
  rw [send_run, h]
  rcases hx : (exchange frame).run.run mid with ⟨e | first, after⟩
  · exact ⟨[], frames_exchange hx⟩
  · rcases hg : (gather framing.getResponse (after.lifetime + 1)
      first.payload first.status).run.run after with ⟨r, last⟩
    obtain ⟨⟨counts, hframes⟩, _⟩ := gather_frames hg
    refine ⟨counts, ?_⟩
    simp only [hg]
    rw [hframes, frames_exchange hx, List.append_assoc,
      List.singleton_append]

/-- What a command in short form hands over: some first part of its
leading frames, if these are not all answered 90 00; else all of them, the
last frame, and frames that ask for the rest of the answer. -/
theorem frames_send_short {framing : Framing} {limit : Nat} {c : Command}
    {link : Link σ} (hform : framing.form = .short) (hle : c.LeFits .short)
    (hlimit : framing.limitOver link = limit) :
    (∃ k, ((framing.send c).run.run link).2.frames
          = link.frames ++ (leadingFrames (chunkSize limit) c).take k
        ∧ ¬ ∃ mid, Accepted (leadingFrames (chunkSize limit) c) link mid)
      ∨ ∃ mid, ∃ counts : List Nat,
        Accepted (leadingFrames (chunkSize limit) c) link mid
        ∧ ((framing.send c).run.run link).2.frames
          = link.frames ++ (leadingFrames (chunkSize limit) c
            ++ lastFrame (chunkSize limit) c
              :: counts.map (followUpFrame framing.getResponse)) := by
  have hbegin := begin_short (σ := σ) hform limit c
  rcases sendShort_run limit c link with
    ⟨e, after, hrun, hstop, _⟩ | ⟨_, mid, hacc, hrun⟩
      | ⟨n, _, hn, hbad, _, _⟩
  · obtain ⟨k, _, _, hframes⟩ := hstop.frames
    refine Or.inl ⟨k, ?_, hstop.not_accepted⟩
    rw [send_run, hlimit, hbegin, hrun]
    exact hframes
  · rw [← hbegin, ← hlimit] at hrun
    obtain ⟨counts, hframes⟩ := frames_send_answered hrun
    rw [hlimit, hacc.frames, List.append_assoc] at hframes
    exact Or.inr ⟨mid, counts, hacc, hframes⟩
  · exact absurd hle (Command.not_leFits.mpr ⟨n, hn, hbad⟩)

/-- What a command in extended form hands over: nothing, or one frame
within the limit and frames that ask for the rest of the answer. -/
theorem frames_send_extended {framing : Framing} {limit : Nat}
    {c : Command} {link : Link σ} (hform : framing.form = .extended)
    (hlimit : framing.limitOver link = limit) :
    ((framing.send c).run.run link).2.frames = link.frames
      ∨ ((c.header ++ c.body .extended).length ≤ limit
        ∧ ∃ counts : List Nat, ((framing.send c).run.run link).2.frames
          = link.frames ++ (c.header ++ c.body .extended)
            :: counts.map (followUpFrame framing.getResponse)) := by
  have hbegin := begin_extended (σ := σ) hform limit c
  rcases sendExtended_run limit c link with ⟨e, hrun⟩ | ⟨_, hlen, hrun⟩
  · refine Or.inl ?_
    rw [send_run, hlimit, hbegin, hrun]
  · rw [← hbegin, ← hlimit] at hrun
    exact Or.inr ⟨hlen, frames_send_answered hrun⟩

/-- A frame on behalf of a command: it starts with the header of the
command, as it is or marked as one that another frame follows, or it asks
for the rest of the answer. -/
inductive FrameFor (framing : Framing) (c : Command) : Bytes → Prop
  | whole (rest : Bytes) : FrameFor framing c (c.header ++ rest)
  | marked (rest : Bytes) : FrameFor framing c
      ({ c with cla := c.cla ||| chainingBit }.header ++ rest)
  | followUp (count : Nat) :
      FrameFor framing c (followUpFrame framing.getResponse count)

/-- The leading frames of a chain are on behalf of the command, marked. -/
theorem frameFor_leading (framing : Framing) (chunk : Nat) {c : Command}
    {frame : Bytes} (h : frame ∈ leadingFrames chunk c) :
    FrameFor framing c frame := by
  obtain ⟨piece, -, rfl⟩ := List.mem_map.mp h
  exact .marked _

/-- So are the frames that ask for more. -/
theorem frameFor_followUps {framing : Framing} {c : Command}
    {frame : Bytes} {counts : List Nat}
    (h : frame ∈ counts.map (followUpFrame framing.getResponse)) :
    FrameFor framing c frame := by
  obtain ⟨count, -, rfl⟩ := List.mem_map.mp h
  exact .followUp count

/-- Up to the first answer, every frame is on behalf of the command,
wherever it stops. -/
theorem frames_begin (framing : Framing) (limit : Nat) (c : Command)
    (link : Link σ) :
    ∃ sent, ((begin framing limit c).run.run link).2.frames
        = link.frames ++ sent
      ∧ ∀ frame ∈ sent, FrameFor framing c frame := by
  have hleading : ∀ frame ∈ leadingFrames (chunkSize limit) c,
      FrameFor framing c frame := fun _ => frameFor_leading framing _
  cases hform : framing.form with
  | short =>
      rw [begin_short hform]
      rcases sendShort_run limit c link with
        ⟨e, after, hrun, hstop, -⟩ | ⟨-, mid, hacc, hrun⟩
          | ⟨n, mid, -, -, hacc, hrun⟩
      · obtain ⟨k, -, -, hframes⟩ := hstop.frames
        refine ⟨_, by rw [hrun]; exact hframes, ?_⟩
        exact fun frame hmem => hleading frame (List.mem_of_mem_take hmem)
      · rcases hx : (exchange (lastFrame (chunkSize limit) c)).run.run mid
          with ⟨r, after⟩
        refine ⟨leadingFrames (chunkSize limit) c
          ++ [lastFrame (chunkSize limit) c], ?_, ?_⟩
        · rw [hrun, hx, ← List.append_assoc, ← hacc.frames]
          exact frames_exchange hx
        · intro frame hmem
          rcases List.mem_append.mp hmem with hmem | hmem
          · exact hleading frame hmem
          · rw [List.mem_singleton.mp hmem]
            exact .whole _
      · exact ⟨_, by rw [hrun]; exact hacc.frames, hleading⟩
  | extended =>
      rw [begin_extended hform]
      rcases sendExtended_run limit c link with ⟨e, hrun⟩ | ⟨-, -, hrun⟩
      · refine ⟨[], by rw [hrun, List.append_nil], ?_⟩
        exact fun frame hmem => by cases hmem
      · rcases hx : (exchange (c.header ++ c.body .extended)).run.run link
          with ⟨r, after⟩
        refine ⟨[c.header ++ c.body .extended], ?_, ?_⟩
        · rw [hrun, hx]
          exact frames_exchange hx
        · intro frame hmem
          rw [List.mem_singleton.mp hmem]
          exact .whole _

/-- Whatever comes of a command, the frames that it hands over are on its
behalf. -/
theorem frames_send (framing : Framing) (c : Command) (link : Link σ) :
    ∃ sent, ((framing.send c).run.run link).2.frames = link.frames ++ sent
      ∧ ∀ frame ∈ sent, FrameFor framing c frame := by
  obtain ⟨sent, hframes, hfor⟩ := frames_begin framing
    (framing.limitOver link) c link
  rw [send_run]
  rcases hb : (begin framing (framing.limitOver link) c).run.run link
    with ⟨e | first, mid⟩
  · rw [hb] at hframes
    exact ⟨sent, hframes, hfor⟩
  · rw [hb] at hframes
    rcases hg : (gather framing.getResponse (mid.lifetime + 1)
      first.payload first.status).run.run mid with ⟨r, last⟩
    obtain ⟨⟨counts, hmore⟩, -⟩ := gather_frames hg
    refine ⟨sent ++ counts.map (followUpFrame framing.getResponse), ?_, ?_⟩
    · simp only [hg]
      rw [hmore, hframes, List.append_assoc]
    · intro frame hmem
      exact (List.mem_append.mp hmem).elim (hfor frame) frameFor_followUps

end SmartCard.Framing
