/-
An answer that comes in parts is put together as the card sent it. The
host asks for each part with one frame, whose answer length is what the
card said of the octets to come; it returns what came, in order, with the
status of the last part, whether that is a success or not. Where the link
fails or an answer has no status, the call fails there.

# The conversation

`Gathered` is the conversation after the first answer, as card and host
have it: while the answer announces more, the frame that asks for it goes
out, and the next answer comes. It does not mention the host's buffer, nor
the number that its recursion counts down from. What the recursion does is
then an induction on the conversation, from any buffer on
(`gather_gathered`).

# Counting down

The recursion is given one step more than the link lasts. Each part costs
an exchange of the link (`Gathered.lifetime`), so behind any conversation
there is a step left, and the recursion ends as the card has it end.

# The way back

The conversation is all there is: a command that ended well went out whole,
was answered, and had its conversation to the end (`send_ok_iff`). What is
known of every `Answered` command is known of every answer.
-/
import SmartCard.Proofs.Apdu.Limits

namespace SmartCard.Framing

open Command (LeFits Fits)

variable {σ : Type} [Transport σ]

-- ======================================================== asking for more

/-- The frame that asks for what a status says is left: the detail of the
status is the answer length. -/
def askFrame (ins : UInt8) (status : StatusWord) : Bytes :=
  [0x00, ins, 0x00, 0x00, status.sw2]

/-- The second octet says how much there is, and zero says 256. -/
theorem remaining_eq {status : StatusWord} (h : status.isMoreData = true) :
    status.remaining?
      = some (if status.sw2 = 0 then 256 else status.sw2.toNat) := by
  unfold StatusWord.remaining?
  rw [h]
  rfl

/-- The largest answer length is written as a zero, and that is also how
the card announces it. -/
theorem followUpFrame_remaining (ins : UInt8) (status : StatusWord) :
    followUpFrame ins (if status.sw2 = 0 then 256 else status.sw2.toNat)
      = askFrame ins status := by
  have hlast : UInt8.ofNat
      (if status.sw2 = 0 then 256 else status.sw2.toNat) = status.sw2 := by
    by_cases hzero : status.sw2 = 0
    · rw [if_pos hzero, hzero]
      rfl
    · rw [if_neg hzero, UInt8.ofNat_toNat]
  show [0x00, ins, 0x00, 0x00, UInt8.ofNat _] = _
  rw [hlast]
  rfl

/-- What a status announces can always be asked for. -/
theorem encode_ask (ins : UInt8) {status : StatusWord}
    (h : status.isMoreData = true) :
    ∃ count, status.remaining? = some count
      ∧ (followUp ins count).encode .short = .ok (askFrame ins status) := by
  refine ⟨_, remaining_eq h, ?_⟩
  rw [encode_followUp ins (remaining_eq h), followUpFrame_remaining]

-- ======================================================== the conversation

/-- After the first answer, more was asked for as long as the card
announced it, and these are the answers that came. -/
inductive Gathered (ins : UInt8) :
    Response → List Response → Link σ → Link σ → Prop
  | nil (first : Response) (link : Link σ) : Gathered ins first [] link link
  | cons {first next : Response} {rest : List Response}
      {link mid after : Link σ} :
      first.status.isMoreData = true →
      (exchange (askFrame ins first.status)).run.run link
        = (.ok next, mid) →
      Gathered ins next rest mid after →
      Gathered ins first (next :: rest) link after

/-- The latest answer of a conversation. -/
def latest (first : Response) (rest : List Response) : Response :=
  (first :: rest).getLast (List.cons_ne_nil first rest)

/-- The latest of several responses does not depend on the first. -/
theorem latest_cons (first next : Response) (rest : List Response) :
    latest first (next :: rest) = latest next rest :=
  List.getLast_cons (List.cons_ne_nil next rest)

/-- All responses are the earlier ones and the latest. -/
theorem dropLast_latest (first : Response) (rest : List Response) :
    (first :: rest).dropLast ++ [latest first rest] = first :: rest :=
  List.dropLast_concat_getLast (List.cons_ne_nil first rest)

/-- Each answer but the latest was followed by one frame. -/
theorem Gathered.frames {ins : UInt8} {first : Response}
    {rest : List Response} {link after : Link σ}
    (h : Gathered ins first rest link after) :
    after.frames = link.frames
      ++ (first :: rest).dropLast.map (fun a => askFrame ins a.status) := by
  induction h with
  | nil first link => simp
  | cons _ hx _ ih =>
      rw [ih, frames_exchange hx, List.dropLast_cons_cons, List.map_cons,
        List.append_assoc, List.singleton_append]

/-- Each answer after the first cost the link an exchange. -/
theorem Gathered.lifetime {ins : UInt8} {first : Response}
    {rest : List Response} {link after : Link σ}
    (h : Gathered ins first rest link after) :
    after.lifetime + rest.length = link.lifetime := by
  induction h with
  | nil first link => rfl
  | cons _ hx _ ih =>
      have hspent := lifetime_exchange hx
      rw [List.length_cons]
      omega

/-- A conversation that was had brings the gathering to its latest answer,
with what came in the buffer. -/
theorem gather_gathered {ins : UInt8} {first : Response}
    {rest : List Response} {link after : Link σ}
    (h : Gathered ins first rest link after) (left : Nat)
    (payload : Bytes) :
    (gather ins (rest.length + left) payload first.status).run.run link
      = (gather ins left
          (payload ++ (rest.map Response.payload).flatten)
          (latest first rest).status).run.run after := by
  induction h generalizing payload with
  | nil first link =>
      rw [List.length_nil, Nat.zero_add, List.map_nil, List.flatten_nil,
        List.append_nil]
      rfl
  | cons hmore hx _ ih =>
      rw [List.length_cons, Nat.add_right_comm,
        gather_more (remaining_eq hmore), followUpFrame_remaining, hx]
      simp only []
      rw [ih, latest_cons, List.map_cons, List.flatten_cons,
        List.append_assoc]

/-- The gathering after a first answer, where the link lasted for the
conversation: it has a step left at the latest answer. -/
theorem gather_first {ins : UInt8} {first : Response}
    {rest : List Response} {link after : Link σ}
    (h : Gathered ins first rest link after) :
    (gather ins (link.lifetime + 1) first.payload first.status).run.run link
      = (gather ins (after.lifetime + 1)
          ((first :: rest).map Response.payload).flatten
          (latest first rest).status).run.run after := by
  have hlife : link.lifetime + 1 = rest.length + (after.lifetime + 1) := by
    have := h.lifetime
    omega
  rw [hlife, gather_gathered h, List.map_cons, List.flatten_cons]

-- ========================================================= whole commands

/-- A command went out whole, and its last frame was answered. -/
inductive Begun (framing : Framing) (c : Command) (link : Link σ)
    (first : Response) (after : Link σ) : Prop
  | short {mid : Link σ} :
      framing.form = .short → c.LeFits .short →
      Accepted (leadingFrames (chunkSize (framing.limitOver link)) c)
        link mid →
      (exchange (lastFrame (chunkSize (framing.limitOver link))
        c)).run.run mid = (.ok first, after) →
      Begun framing c link first after
  | extended :
      framing.form = .extended → c.Fits .extended →
      (c.header ++ c.body .extended).length ≤ framing.limitOver link →
      (exchange (c.header ++ c.body .extended)).run.run link
        = (.ok first, after) →
      Begun framing c link first after

/-- A command that went out whole goes on to gather from the answer to its
last frame. -/
theorem Begun.send_run {framing : Framing} {c : Command}
    {link after : Link σ} {first : Response}
    (h : Begun framing c link first after) :
    (framing.send c).run.run link
      = (gather framing.getResponse (after.lifetime + 1) first.payload
          first.status).run.run after := by
  have hbegin : (begin framing (framing.limitOver link) c).run.run link
      = (.ok first, after) := by
    cases h with
    | short hform hle hacc hx =>
        rw [begin_short hform, sendShort_accepted hle hacc, hx]
    | extended hform hfits hlen hx =>
        rw [begin_extended hform, sendExtended_fits hfits hlen, hx]
  rw [Framing.send_run, hbegin]

/-- A command whose first answer announces no more ends with it. -/
theorem Begun.send_done {framing : Framing} {c : Command}
    {link after : Link σ} {first : Response}
    (h : Begun framing c link first after)
    (hlast : first.status.isMoreData = false) :
    (framing.send c).run.run link = (.ok first, after) := by
  rw [h.send_run, gather_done (remaining_eq_none hlast)]

/-- A command in short form whose data fits one frame is that frame. -/
theorem begun_single {framing : Framing} {c : Command}
    {link after : Link σ} {first : Response}
    (hform : framing.form = .short) (hle : c.LeFits .short)
    (hlen : c.data.length ≤ chunkSize (framing.limitOver link))
    (hx : (exchange (lastFrame (chunkSize (framing.limitOver link))
      c)).run.run link = (.ok first, after)) :
    Begun framing c link first after := by
  have hnone := (leadingFrames_eq_nil_iff (chunkSize_pos _) c).mpr hlen
  refine .short hform hle ?_ hx
  rw [hnone]
  exact .nil link

/-- A command that got a first answer went out whole. -/
theorem begun_of_begin {framing : Framing} {c : Command}
    {link after : Link σ} {first : Response}
    (h : (begin framing (framing.limitOver link) c).run.run link
      = (.ok first, after)) :
    Begun framing c link first after := by
  cases hform : framing.form with
  | short =>
      rw [begin_short hform] at h
      rcases sendShort_run (framing.limitOver link) c link with
        ⟨_, _, hrun, -⟩ | ⟨hle, mid, hacc, hrun⟩ | ⟨_, _, -, -, -, hrun⟩
      · rw [hrun] at h
        cases h
      · rw [hrun] at h
        exact .short hform hle hacc h
      · rw [hrun] at h
        cases h
  | extended =>
      rw [begin_extended hform] at h
      rcases sendExtended_run (framing.limitOver link) c link with
        ⟨_, hrun⟩ | ⟨hfits, hlen, hrun⟩
      · rw [hrun] at h
        cases h
      · rw [hrun] at h
        exact .extended hform hfits hlen h

/-- What is left to come once an answer is there: the answers of a
conversation to its end, which is what the gathering returns. -/
def Completed (ins : UInt8) (payload : Bytes) (first r : Response)
    (link after : Link σ) : Prop :=
  ∃ rest, Gathered ins first rest link after
    ∧ (latest first rest).status.isMoreData = false
    ∧ r = ⟨payload ++ (rest.map Response.payload).flatten,
        (latest first rest).status⟩

/-- A gathering at a last answer returns it. -/
theorem completed_last {ins : UInt8} {fuel : Nat} {payload : Bytes}
    {first r : Response} {link after : Link σ}
    (hlast : first.status.isMoreData = false)
    (h : (gather ins fuel payload first.status).run.run link
      = (.ok r, after)) : Completed ins payload first r link after := by
  rw [gather_done (remaining_eq_none hlast)] at h
  cases h
  exact ⟨[], .nil first _, hlast, by simp [latest]⟩

/-- A gathering that ended well had a conversation to its end. -/
theorem completed_of_gather {ins : UInt8} {fuel : Nat} {payload : Bytes}
    {first r : Response} {link after : Link σ}
    (h : (gather ins fuel payload first.status).run.run link
      = (.ok r, after)) : Completed ins payload first r link after := by
  induction fuel generalizing payload first link with
  | zero =>
      cases hmore : first.status.isMoreData with
      | false => exact completed_last hmore h
      | true =>
          -- more was announced, and no step is left to ask for it
          unfold gather at h
          rw [remaining_eq hmore] at h
          cases h
  | succ fuel ih =>
      cases hmore : first.status.isMoreData with
      | false => exact completed_last hmore h
      | true =>
          rw [gather_more (remaining_eq hmore), followUpFrame_remaining] at h
          rcases hx : (exchange (askFrame ins first.status)).run.run link
            with ⟨e | next, mid⟩
          · rw [hx] at h
            cases h
          · rw [hx] at h
            obtain ⟨rest, hgathered, hlast, hr⟩ := ih h
            refine ⟨next :: rest, .cons hmore hx hgathered, ?_, ?_⟩
            · rw [latest_cons]
              exact hlast
            · rw [hr, latest_cons, List.map_cons, List.flatten_cons,
                List.append_assoc]

/-- A command was answered to the end: it went out whole, and while the
card announced more, more was asked for. The answer is what came, in
order, with the status of the last part. -/
def Answered (framing : Framing) (c : Command) (link : Link σ)
    (r : Response) (after : Link σ) : Prop :=
  ∃ first rest mid,
    Begun framing c link first mid
    ∧ Gathered framing.getResponse first rest mid after
    ∧ (latest first rest).status.isMoreData = false
    ∧ r = ⟨((first :: rest).map Response.payload).flatten,
        (latest first rest).status⟩

/-- A command ends well exactly when it was answered to the end. -/
theorem send_ok_iff {framing : Framing} {c : Command} {link after : Link σ}
    {r : Response} :
    (framing.send c).run.run link = (.ok r, after)
      ↔ Answered framing c link r after := by
  constructor
  · intro h
    rw [Framing.send_run] at h
    rcases hb : (begin framing (framing.limitOver link) c).run.run link
      with ⟨e | first, mid⟩
    · rw [hb] at h
      cases h
    · rw [hb] at h
      obtain ⟨rest, hgathered, hlast, hr⟩ := completed_of_gather h
      exact ⟨first, rest, mid, begun_of_begin hb, hgathered, hlast, hr⟩
  · rintro ⟨first, rest, mid, hbegun, hgathered, hlast, rfl⟩
    rw [hbegun.send_run, gather_first hgathered,
      gather_done (remaining_eq_none hlast)]

/-- An answer in parts is put together as it came, whatever the form of
lengths. Behind a first answer and the answers `rest`, as many follow-ups
have gone out as `rest` has answers, each with the detail of the status
before it. If the latest answer announces no more, the command returns the
payloads in order with its status. If it does, that can be asked for; and
where the exchange fails, the command fails behind one follow-up more. -/
theorem parts_reassembled {framing : Framing} {c : Command}
    {link mid reached : Link σ} {first : Response} {rest : List Response}
    (hbegun : Begun framing c link first mid)
    (hmore : Gathered framing.getResponse first rest mid reached) :
    let answers := first :: rest
    let last := latest first rest
    let ask := fun a : Response =>
      [0x00, framing.getResponse, 0x00, 0x00, a.status.sw2]
    reached.frames = mid.frames ++ answers.dropLast.map ask
      ∧ (last.status.isMoreData = false →
        (framing.send c).run.run link
          = (.ok ⟨(answers.map Response.payload).flatten, last.status⟩,
            reached))
      ∧ (last.status.isMoreData = true →
        (∃ count, last.status.remaining? = some count
            ∧ (followUp framing.getResponse count).encode .short
              = .ok (ask last))
          ∧ ∀ e after,
            (exchange (ask last)).run.run reached = (.error e, after) →
            (framing.send c).run.run link = (.error e, after)
              ∧ after.frames = mid.frames ++ answers.map ask) := by
  intro answers last ask
  have hframes := hmore.frames
  refine ⟨hframes, ?_, ?_⟩
  · intro hdone
    rw [hbegun.send_run, gather_first hmore,
      gather_done (remaining_eq_none hdone)]
  · intro hannounced
    refine ⟨encode_ask _ hannounced, ?_⟩
    intro e after hx
    refine ⟨?_, ?_⟩
    · rw [hbegun.send_run, gather_first hmore,
        gather_more (remaining_eq hannounced), followUpFrame_remaining,
        show (exchange (askFrame _ _)).run.run reached = _ from hx]
    · -- the frame that failed went out behind those that were answered
      have hall : answers.map ask = answers.dropLast.map ask ++ [ask last] := by
        have hsplit := congrArg (List.map ask) (dropLast_latest first rest)
        rw [List.map_append] at hsplit
        exact hsplit.symm
      rw [frames_exchange hx, hframes, hall, List.append_assoc]
      rfl

/-- A card whose answer comes in two parts: the first announces 256 octets
or more, the second ends with an error. -/
def partedLink : Link ScriptedCard where
  card := { script := .once [[0xAA, 0xBB, 0x61, 0x00], [0xCC, 0x6F, 0x00]] }
  lifetime := 5

/-- A command that asks for an object. -/
def fetch : Command where
  cla := 0x00
  ins := 0xCA
  p1 := 0x00
  p2 := 0x6E

/-- The parts come back as one answer with the status of the second. -/
theorem parts_reassembled_fetch :
    ∃ mid reached,
      Begun {} fetch partedLink ⟨[0xAA, 0xBB], ⟨0x61, 0x00⟩⟩ mid
        ∧ Gathered 0xC0 ⟨[0xAA, 0xBB], ⟨0x61, 0x00⟩⟩
          [⟨[0xCC], ⟨0x6F, 0x00⟩⟩] mid reached
        ∧ (send {} fetch).run.run partedLink
          = (.ok ⟨[0xAA, 0xBB, 0xCC], ⟨0x6F, 0x00⟩⟩, reached)
        ∧ reached.frames
          = [[0x00, 0xCA, 0x00, 0x6E], [0x00, 0xC0, 0x00, 0x00, 0x00]] := by
  have hle : fetch.LeFits .short := fun n hn => by cases hn
  have hbegun : Begun {} fetch partedLink ⟨[0xAA, 0xBB], ⟨0x61, 0x00⟩⟩
      ((exchange [0x00, 0xCA, 0x00, 0x6E]).run.run partedLink).2 :=
    Begun.short rfl hle (Accepted.nil _) rfl
  have hmore : Gathered 0xC0 ⟨[0xAA, 0xBB], ⟨0x61, 0x00⟩⟩
      [⟨[0xCC], ⟨0x6F, 0x00⟩⟩]
      ((exchange [0x00, 0xCA, 0x00, 0x6E]).run.run partedLink).2 _ :=
    Gathered.cons rfl rfl (Gathered.nil _ _)
  obtain ⟨hframes, hdone, -⟩ := parts_reassembled hbegun hmore
  exact ⟨_, _, hbegun, hmore, hdone rfl, hframes⟩

end SmartCard.Framing
