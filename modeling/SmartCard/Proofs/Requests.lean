/-
What a host asks of a card in a piece of work at a terminal: which commands
it gives to the terminal, in which order, and what becomes of each. Laws
about sessions are stated of these requests, since a session neither sees
nor decides how a command is put into frames.

# Requests and frames

`Asked` follows a terminal from request to request, and each request has
with it the frames that it put on the link. So the requests of a piece of
work account for all that it handed over (`Asked.frames`), and what goes
over the link says which request it belongs to: with or without secure
messaging, whole or in a chain, a frame shows the instruction and the
parameters of its command, or else it asks for the rest of an answer
(`Asked.shown`).
-/
import SmartCard.Proofs.Apdu.Chaining
import SmartCard.Proofs.Scp03.Rounds
import SmartCard.Proofs.Terminal

namespace SmartCard.Terminal

-- =============================================================== requests

/-- A command that was given to a terminal, the frames that the terminal
handed over for it, and what came back. -/
structure Request where
  command : Command
  frames : List Bytes
  answer : Except Error Response

namespace Request

/-- The card answered 90 00. -/
def Succeeded (request : Request) : Prop :=
  ∃ r, request.answer = .ok r ∧ r.status = StatusWord.success

/-- What the asker takes from the answer: the payload of a success. -/
def payload (request : Request) : Except Error Bytes :=
  request.answer.bind Response.result

/-- There is a payload to take exactly where the card answered 90 00. -/
theorem succeeded_of_payload {request : Request} {payload : Bytes}
    (h : request.payload = .ok payload) : request.Succeeded := by
  unfold Request.payload at h
  cases hanswer : request.answer with
  | error e =>
      rw [hanswer] at h
      cases h
  | ok r =>
      rw [hanswer] at h
      exact ⟨r, hanswer, ((result_ok_iff r payload).mp h).1⟩

/-- A request that succeeded has a payload. -/
theorem payload_of_succeeded {request : Request} (h : request.Succeeded) :
    ∃ payload, request.payload = .ok payload := by
  obtain ⟨r, hanswer, hstatus⟩ := h
  refine ⟨r.payload, ?_⟩
  unfold Request.payload
  rw [hanswer]
  exact result_success hstatus

/-- Where there was an answer, the payload is what the status makes of
it. -/
theorem payload_of_answered {request : Request} {r : Response}
    (h : request.answer = .ok r) : request.payload = r.result := by
  unfold Request.payload
  rw [h]
  rfl

/-- Without an answer there is no payload, for the same reason. -/
theorem payload_of_failed {request : Request} {e : Error}
    (h : request.answer = .error e) : request.payload = .error e := by
  unfold Request.payload
  rw [h]
  rfl

end Request

variable {σ : Type} [Transport σ]

/-- The requests were made at the terminal one after the other, and took it
from the one state to the other. -/
inductive Asked : List Request → Terminal σ → Terminal σ → Prop
  | nil (t : Terminal σ) : Asked [] t t
  | cons {request : Request} {rest : List Request}
      {t mid after : Terminal σ} :
      (transmit request.command).run.run t = (request.answer, mid) →
      mid.link.frames = t.link.frames ++ request.frames →
      Asked rest mid after → Asked (request :: rest) t after

/-- Requests one after the other are one sequence of requests. -/
theorem Asked.append {first rest : List Request} {t mid after : Terminal σ}
    (hfirst : Asked first t mid) (hrest : Asked rest mid after) :
    Asked (first ++ rest) t after := by
  induction hfirst with
  | nil t => exact hrest
  | cons hrun hframes _ ih => exact .cons hrun hframes (ih hrest)

/-- Between two of the requests there was a state of the terminal. -/
theorem Asked.split {first rest : List Request} {t after : Terminal σ}
    (h : Asked (first ++ rest) t after) :
    ∃ mid, Asked first t mid ∧ Asked rest mid after := by
  induction first generalizing t with
  | nil => exact ⟨t, .nil t, h⟩
  | cons request first ih =>
      cases h with
      | cons hrun hframes hmore =>
          obtain ⟨mid, hfirst, hrest⟩ := ih hmore
          exact ⟨mid, .cons hrun hframes hfirst, hrest⟩

/-- A terminal that sends in the clear goes on to do so. -/
theorem Asked.plain {asked : List Request} {t after : Terminal σ}
    {framing : Framing} (h : Asked asked t after)
    (hplain : t.messaging = .plain framing) :
    after.messaging = .plain framing := by
  induction h with
  | nil t => exact hplain
  | @cons request rest t mid after hrun _ _ ih =>
      obtain ⟨link, messaging⟩ := t
      obtain rfl : messaging = .plain framing := hplain
      refine ih ?_
      rw [transmit_plain] at hrun
      exact congrArg (·.2.messaging) hrun.symm

/-- What was handed over is what the requests handed over, in order. -/
theorem Asked.frames {asked : List Request} {t after : Terminal σ}
    (h : Asked asked t after) :
    after.link.frames = t.link.frames ++ asked.flatMap Request.frames := by
  induction h with
  | nil t => simp
  | cons _ hframes _ ih =>
      rw [ih, hframes, List.flatMap_cons, List.append_assoc]

-- ================================================================= order

/-- Every request is right in view of those that came before it. -/
def InOrder (right : List Request → Request → Prop) (asked : List Request) :
    Prop :=
  ∀ before request later, asked = before ++ request :: later →
    right before request

section InOrder

variable {right : List Request → Request → Prop}

/-- What is right after anything is in order anywhere. -/
theorem InOrder.of_forall {asked : List Request}
    (h : ∀ request ∈ asked, ∀ before, right before request) :
    InOrder right asked := by
  rintro before request later rfl
  exact h request (by simp) before

/-- A sequence in order takes one more request that is right after it. -/
theorem InOrder.concat {asked : List Request} {last : Request}
    (h : InOrder right asked) (hlast : right asked last) :
    InOrder right (asked ++ [last]) := by
  intro before request later hsplit
  rcases List.eq_nil_or_concat later with rfl | ⟨rest, final, rfl⟩
  · obtain ⟨rfl, hends⟩ := List.append_inj' hsplit rfl
    obtain rfl := (List.cons.inj hends).1
    exact hlast
  · rw [List.concat_eq_append, ← List.cons_append, ← List.append_assoc]
      at hsplit
    exact h before request rest (List.append_inj' hsplit rfl).1

end InOrder

-- ================================================== what a frame gives away

/-- A frame shows which command it is for, by the octets behind its class;
or it asks for the rest of an answer. -/
def Shows (c : Command) (frame : Bytes) : Prop :=
  (frame.drop 1).take 3 = [c.ins, c.p1, c.p2]
    ∨ ∃ ins count, frame = Framing.followUpFrame ins count

/-- Every frame on behalf of a command in the clear shows which command it
is. -/
theorem shows_of_frameFor {framing : Framing} {c : Command} {frame : Bytes}
    (h : Framing.FrameFor framing c frame) : Shows c frame := by
  cases h with
  | whole rest => exact Or.inl rfl
  | marked rest => exact Or.inl rfl
  | followUp count => exact Or.inr ⟨_, count, rfl⟩

/-- A command is framed on its own, or it is not framed at all. -/
theorem frames_plain (framing : Framing) (c : Command) (link : Link σ) :
    ∃ sent, ((framing.send c).run.run link).2.frames = link.frames ++ sent
      ∧ ∀ frame ∈ sent, Shows c frame := by
  obtain ⟨sent, hframes, hfor⟩ := Framing.frames_send framing c link
  exact ⟨sent, hframes, fun frame hmem => shows_of_frameFor (hfor frame hmem)⟩

/-- Over a channel, what is framed is the protected command, and
protection leaves the instruction and the parameters readable. -/
theorem frames_secured (channel : Scp03.SecureChannel) (c : Command)
    (link : Link σ) :
    ∃ sent, (channel.send true c link).2.frames = link.frames ++ sent
      ∧ ∀ frame ∈ sent, Shows c frame := by
  have hnothing : ∃ sent, link.frames = link.frames ++ sent
      ∧ ∀ frame ∈ sent, Shows c frame := ⟨[], by simp, by simp⟩
  cases hchain : channel.chain with
  | none =>
      unfold Scp03.SecureChannel.send
      rw [hchain]
      exact hnothing
  | some chain =>
      by_cases hlast : chain.counter = 0xFFFFFFFF
      · rw [Scp03.send_exhausted hchain hlast]
        exact hnothing
      · rw [Scp03.send_link hchain fun _ => hlast]
        exact frames_plain channel.framing
          (Scp03.wrapped channel.keys channel.framing.form true chain c) link

/-- The frames of one command at a terminal all show the command. -/
theorem frames_transmit (c : Command) (t : Terminal σ) :
    ∃ sent, ((transmit c).run.run t).2.link.frames = t.link.frames ++ sent
      ∧ ∀ frame ∈ sent, Shows c frame := by
  obtain ⟨link, messaging⟩ := t
  cases messaging with
  | plain framing => exact frames_plain framing c link
  | secured channel => exact frames_secured channel c link

/-- Every frame shows which request it was handed over for. -/
theorem Asked.shown {asked : List Request} {t after : Terminal σ}
    (h : Asked asked t after) :
    ∀ request ∈ asked, ∀ frame ∈ request.frames,
      Shows request.command frame := by
  induction h with
  | nil t => simp
  | @cons request rest t mid after hrun hframes _ ih =>
      intro other hmem frame hframe
      rcases List.mem_cons.mp hmem with rfl | hrest
      · obtain ⟨sent, hsent, hshows⟩ := frames_transmit other.command t
        rw [hrun, hframes] at hsent
        rw [List.append_cancel_left hsent] at hframe
        exact hshows frame hframe
      · exact ih other hrest frame hframe

/-- A command given to a terminal is one request. -/
theorem asked_transmit (c : Command) (t : Terminal σ) :
    ∃ request after, request.command = c ∧ Asked [request] t after
      ∧ (transmit c).run.run t = (request.answer, after) := by
  obtain ⟨sent, hframes, _⟩ := frames_transmit c t
  rcases hrun : (transmit c).run.run t with ⟨answer, after⟩
  rw [hrun] at hframes
  exact ⟨⟨c, sent, answer⟩, after, rfl, .cons hrun hframes (.nil after), rfl⟩

/-- Asking for the payload of a success is one request as well. -/
theorem asked_request (c : Command) (t : Terminal σ) :
    ∃ request after, request.command = c ∧ Asked [request] t after
      ∧ (Terminal.request c).run.run t = (request.payload, after) := by
  obtain ⟨request, after, hcommand, hasked, hrun⟩ := asked_transmit c t
  refine ⟨request, after, hcommand, hasked, ?_⟩
  rw [request_run, hrun]
  unfold Request.payload
  cases request.answer <;> rfl

end SmartCard.Terminal
