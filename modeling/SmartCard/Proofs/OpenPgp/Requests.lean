/-
What work in a session asks of the card. Everything goes through one
command after the other, so a piece of work is told by its requests, by how
it ends, and by the terminal it leaves; of the session itself nothing else
moves.

# Putting work together

`Ran` is the one judgement. Work that looks at the session, or checks
something, asks for nothing (`Ran.none`, `Ran.after`); work in two parts
asks what its parts ask (`Ran.bind`), and ends where its first part fails
(`Ran.fails`). A command is one request, or none once the session is closed
(`send_ran`). With these an operation is opened once, at its own checks.
-/
import SmartCard.OpenPgp.Session.Basic
import SmartCard.Proofs.Requests

namespace SmartCard.OpenPgp.Session

open Terminal (Request Asked)

variable {σ α β : Type}

-- ============================================================== looking on

/-- A check of the data sends nothing. -/
theorem run_wellFormed (r : Except DataFault α) (s : Session σ) :
    (wellFormed r : Activity σ α).run.run s
      = (r.mapError Error.invalidData, s) := by
  cases r <;> rfl

theorem run_capabilities (s : Session σ) :
    (capabilities : Activity σ Capabilities).run.run s
      = (.ok s.data.capabilities, s) := rfl

/-- A version has a feature or is refused, whatever the card. -/
theorem run_require (feature : Feature) (s : Session σ) :
    (require feature : Activity σ Unit).run.run s
      = ((feature.require s.version).mapError Error.card, s) := by
  unfold require
  rw [run_bind_ok (run_get s)]
  cases feature.require s.version <;> rfl

section Features

variable {s : Session σ} {feature : Feature} {c : Prop} [Decidable c]
  {f : Unit → Activity σ α}

/-- A feature that the version has is no obstacle. -/
theorem run_require_met (h : feature.isSupportedBy s.version = true) :
    (require feature : Activity σ Unit).run.run s = (.ok (), s) := by
  rw [run_require, Feature.require, if_pos h]
  rfl

/-- A feature that the version lacks is an error, with nothing sent. -/
theorem run_require_unmet (h : ¬ feature.isSupportedBy s.version = true) :
    ∃ fault, (require feature : Activity σ Unit).run.run s
      = (.error (.card (.unsupported fault)), s) := by
  rw [run_require, Feature.require, if_neg h]
  exact ⟨_, rfl⟩

/-- A feature that is needed only sometimes. -/
theorem run_require_if_met
    (h : c → feature.isSupportedBy s.version = true) :
    (if c then (do let u ← require feature; f u) else f ()).run.run s
      = (f ()).run.run s := by
  by_cases hc : c
  · rw [if_pos hc, run_bind_ok (run_require_met (h hc))]
  · rw [if_neg hc]

/-- The same of a feature that is required under a condition. -/
theorem run_require_if_unmet (hc : c)
    (h : ¬ feature.isSupportedBy s.version = true) :
    ∃ fault, (if c then (do let u ← require feature; f u) else f ()).run.run s
      = (.error (.card (.unsupported fault)), s) := by
  obtain ⟨fault, hfault⟩ := run_require_unmet h
  rw [if_pos hc, run_bind_error hfault]
  exact ⟨fault, rfl⟩

end Features

variable [Transport σ]

-- ==================================================== the course of work

/-- Work in a session made the requests, one after the other, ended so, and
left the session as it was but for the terminal. -/
structure Ran (x : Activity σ α) (s : Session σ) (asked : List Request)
    (result : Except Error α) (t : Terminal σ) : Prop where
  run : x.run.run s = (result, { s with terminal := t })
  asked : Asked asked s.terminal t

variable {s : Session σ} {x : Activity σ α} {f : α → Activity σ β}

/-- Work that leaves the session as it is asks for nothing. -/
theorem Ran.none {result : Except Error α}
    (h : x.run.run s = (result, s)) : Ran x s [] result s.terminal :=
  ⟨h, .nil _⟩

/-- Work may be put in another way. -/
theorem Ran.congr {y : Activity σ α} {asked : List Request}
    {result : Except Error α} {t : Terminal σ}
    (hxy : x.run.run s = y.run.run s) (hy : Ran y s asked result t) :
    Ran x s asked result t :=
  ⟨hxy.trans hy.run, hy.asked⟩

/-- A first part that only looks at the session does not count. -/
theorem Ran.after {a : α} {asked : List Request} {result : Except Error β}
    {t : Terminal σ} (hx : x.run.run s = (.ok a, s))
    (hf : Ran (f a) s asked result t) : Ran (x >>= f) s asked result t :=
  ⟨(run_bind_ok hx).trans hf.run, hf.asked⟩

/-- Two activities in a row send their requests in a row. -/
theorem Ran.bind {a : α} {first rest : List Request}
    {result : Except Error β} {mid t : Terminal σ}
    (hx : Ran x s first (.ok a) mid)
    (hf : Ran (f a) { s with terminal := mid } rest result t) :
    Ran (x >>= f) s (first ++ rest) result t :=
  ⟨(run_bind_ok hx.run).trans hf.run, hx.asked.append hf.asked⟩

/-- After a failure nothing more is sent. -/
theorem Ran.fails {e : Error} {asked : List Request} {t : Terminal σ}
    (hx : Ran x s asked (.error e) t) :
    Ran (x >>= f) s asked (.error e) t :=
  ⟨run_bind_error hx.run, hx.asked⟩

/-- What follows may end without asking for anything more. -/
theorem Ran.ends {a : α} {asked : List Request} {result : Except Error β}
    {mid : Terminal σ} (hx : Ran x s asked (.ok a) mid)
    (hf : (f a).run.run { s with terminal := mid }
      = (result, { s with terminal := mid })) :
    Ran (x >>= f) s asked result mid :=
  ⟨(run_bind_ok hx.run).trans hf, hx.asked⟩

/-- A pure function of the result leaves the requests as they are. -/
theorem Ran.map {g : α → β} {asked : List Request} {result : Except Error α}
    {t : Terminal σ} (hx : Ran x s asked result t) :
    Ran (g <$> x) s asked (result.map g) t :=
  ⟨by rw [run_map, hx.run], hx.asked⟩

/-- A last part that only looks at what the first part found. -/
theorem Ran.look {g : α → Except Error β} {asked : List Request}
    {result : Except Error α} {t : Terminal σ} (hx : Ran x s asked result t)
    (hf : ∀ a mid, (f a).run.run mid = (g a, mid)) :
    Ran (x >>= f) s asked (result.bind g) t := by
  cases result with
  | error e => exact hx.fails
  | ok a => exact ⟨(run_bind_ok hx.run).trans (hf a _), hx.asked⟩

-- =============================================================== commands

/-- What a command comes to. Once the session is closed it is refused and
there is no request; otherwise there is one, and what counts is whether the
card answers 90 00. -/
inductive Sent (s : Session σ) (c : Command) :
    List Request → Except Error Bytes → Prop
  | closed : s.stage = .closed → Sent s c [] (.error (.invalidState .closed))
  | refused {request : Request} {cause : SmartCard.Error} :
      s.stage ≠ .closed → request.command = c →
      request.payload = .error cause → Sent s c [request] (.error (.card cause))
  | done {request : Request} {payload : Bytes} :
      s.stage ≠ .closed → request.command = c →
      request.payload = .ok payload → Sent s c [request] (.ok payload)

/-- A closed session refuses a command. -/
theorem send_closed {s : Session σ} (h : s.stage = .closed) (c : Command) :
    (send c).run.run s = (.error (.invalidState .closed), s) :=
  run_guard_refused h

/-- While the session is open, a command is what the terminal makes of
it. -/
theorem send_open {s : Session σ} (h : s.stage ≠ .closed) (c : Command) :
    (send c).run.run s
      = (((Terminal.request c).run.run s.terminal).1.mapError Error.card,
        { s with terminal := ((Terminal.request c).run.run s.terminal).2 }) := by
  unfold send
  rw [run_bind_ok (run_get s)]
  simp only [h, if_false]
  rfl

/-- Every sending is one of those that `Sent` lists. -/
theorem send_ran (c : Command) (s : Session σ) :
    ∃ asked result t, Ran (send c) s asked result t ∧ Sent s c asked result := by
  by_cases hstage : s.stage = .closed
  · exact ⟨[], _, _, .none (send_closed hstage c), .closed hstage⟩
  · obtain ⟨request, t, hcommand, hasked, hrun⟩ :=
      Terminal.asked_request c s.terminal
    have hsend : (send c).run.run s
        = (request.payload.mapError Error.card, { s with terminal := t }) := by
      rw [send_open hstage, hrun]
    refine ⟨[request], _, t, ⟨hsend, hasked⟩, ?_⟩
    cases hpayload : request.payload with
    | error cause => exact .refused hstage hcommand hpayload
    | ok payload => exact .done hstage hcommand hpayload

/-- Where only the success of a command matters, the payload is
dropped. -/
theorem perform_ran (c : Command) (s : Session σ) :
    ∃ asked result t, Ran (perform c) s asked (result.map fun _ => ()) t
      ∧ Sent s c asked result := by
  obtain ⟨asked, result, t, hran, hsent⟩ := send_ran c s
  exact ⟨asked, result, t, ⟨hran.map.run, hran.asked⟩, hsent⟩

-- ============================================================ data objects

section Objects

variable {object : ObjectId} {parse : Bytes → Except Error α}

/-- A data object was asked for, and this was read from the answer. -/
structure Told (object : ObjectId) (parse : Bytes → Except Error α)
    (request : Request) (a : α) : Prop where
  asks : request.command = getDataCommand object
  tells : ∃ answer, request.payload = .ok answer ∧ parse answer = .ok a

/-- The ways in which reading a data object ends. -/
inductive Reading (s : Session σ) (object : ObjectId)
    (parse : Bytes → Except Error α) : List Request → Except Error α → Prop
  | closed : s.stage = .closed →
      Reading s object parse [] (.error (.invalidState .closed))
  | unread {request : Request} {cause : SmartCard.Error} :
      request.command = getDataCommand object →
      request.payload = .error cause →
      Reading s object parse [request] (.error (.card cause))
  | misread {request : Request} {answer : Bytes} {e : Error} :
      request.command = getDataCommand object →
      request.payload = .ok answer → parse answer = .error e →
      Reading s object parse [request] (.error e)
  | told {request : Request} {a : α} :
      s.stage ≠ .closed → Told object parse request a →
      Reading s object parse [request] (.ok a)

omit [Transport σ] in
theorem Told.succeeded {request : Request} {a : α}
    (h : Told object parse request a) : request.Succeeded := by
  obtain ⟨answer, hanswer, -⟩ := h.tells
  exact Request.succeeded_of_payload hanswer

omit [Transport σ] in
/-- It takes one request at most. -/
theorem Reading.alone {request : Request} {later : List Request}
    {result : Except Error α}
    (h : Reading s object parse (request :: later) result) :
    request.command = getDataCommand object ∧ later = [] := by
  cases h with
  | unread hcommand _ => exact ⟨hcommand, rfl⟩
  | misread hcommand _ _ => exact ⟨hcommand, rfl⟩
  | told _ htold => exact ⟨htold.asks, rfl⟩

omit [Transport σ] in
/-- A reading without an answer fails with the error of its request. -/
theorem Reading.unanswered {request : Request} {result : Except Error α}
    {cause : SmartCard.Error} (h : Reading s object parse [request] result)
    (hanswer : request.answer = .error cause) :
    result = .error (.card cause) := by
  have hpayload := Request.payload_of_failed hanswer
  cases h with
  | unread _ hcause =>
      cases hcause.symm.trans hpayload
      rfl
  | misread _ hok _ => cases hok.symm.trans hpayload
  | told _ htold =>
      obtain ⟨answer, hok, -⟩ := htold.tells
      cases hok.symm.trans hpayload

/-- Reading a data object, where nothing but the answer is looked at. -/
theorem reading_ran (object : ObjectId) (parse : Bytes → Except Error α)
    {f : Bytes → Activity σ α}
    (hf : ∀ answer (mid : Session σ),
      (f answer).run.run mid = (parse answer, mid)) (s : Session σ) :
    ∃ asked result t, Ran (getData object >>= f) s asked result t
      ∧ Reading s object parse asked result := by
  obtain ⟨asked, answer, t, hran, hsent⟩ := send_ran (getDataCommand object) s
  refine ⟨asked, _, t, hran.look hf, ?_⟩
  cases hsent with
  | closed hstage => exact .closed hstage
  | refused _ hcommand hcause => exact .unread hcommand hcause
  | @done request answer hopen hcommand hanswer =>
      show Reading s object parse [request] (parse answer)
      cases hparse : parse answer with
      | error e => exact .misread hcommand hanswer hparse
      | ok a => exact .told hopen ⟨hcommand, answer, hanswer, hparse⟩

end Objects

end SmartCard.OpenPgp.Session
