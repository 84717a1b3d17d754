/-
What a host's work leaves at its terminal. Each operation is opened here
once, as an equation between its run and the run of what it is made of:
a command is what the messaging in use makes of it, and a request is that
command with every status but success turned into an error.
-/
import SmartCard.Proofs.Exchange
import SmartCard.Terminal

namespace SmartCard

-- ============================================================== responses

/-- Of all status words, 90 00 alone is a success. -/
theorem isSuccess_iff (s : StatusWord) :
    s.isSuccess = true ↔ s = StatusWord.success := by
  obtain ⟨sw1, sw2⟩ := s
  unfold StatusWord.isSuccess StatusWord.success
  simp

/-- The payload of a response is handed on exactly where its status is
90 00. -/
theorem result_ok_iff (r : Response) (payload : Bytes) :
    r.result = .ok payload
      ↔ r.status = StatusWord.success ∧ payload = r.payload := by
  unfold Response.result Response.isSuccess
  rw [← isSuccess_iff]
  by_cases h : r.status.isSuccess = true
  · rw [if_pos h]
    simp [h, eq_comm]
  · rw [if_neg h]
    simp [h]

theorem result_success {r : Response} (h : r.status = StatusWord.success) :
    r.result = .ok r.payload :=
  (result_ok_iff r r.payload).mpr ⟨h, rfl⟩

theorem result_failure {r : Response} (h : r.status ≠ StatusWord.success) :
    r.result = .error (.status r.status) := by
  unfold Response.result Response.isSuccess
  rw [if_neg (mt (isSuccess_iff r.status).mp h)]

-- ============================================================= operations

variable {σ α : Type} [Transport σ]

/-- A remark changes the words of a failure and nothing else. -/
theorem run_adapt {s : Type} (f : Error → Error)
    (x : ExceptT Error (StateM s) α) (before : s) :
    (ExceptT.adapt f x).run.run before
      = ((x.run.run before).1.mapError f, (x.run.run before).2) := rfl

namespace Terminal

/-- A command in the clear. -/
theorem transmit_plain (c : Command) (link : Link σ) (framing : Framing) :
    (transmit c).run.run ⟨link, .plain framing⟩
      = (((framing.send c).run.run link).1,
        ⟨((framing.send c).run.run link).2, .plain framing⟩) := rfl

/-- A command over a secure channel. -/
theorem transmit_secured (c : Command) (link : Link σ)
    (channel : Scp03.SecureChannel) :
    (transmit c).run.run ⟨link, .secured channel⟩
      = ((channel.send true c link).1.1,
        ⟨(channel.send true c link).2,
          .secured (channel.send true c link).1.2⟩) := rfl

/-- A request is a command with every status but success turned into an
error. -/
theorem request_run (c : Command) (t : Terminal σ) :
    (request c).run.run t
      = match (transmit c).run.run t with
        | (.error e, after) => (.error e, after)
        | (.ok r, after) => (r.result, after) := by
  unfold request
  rcases hx : (transmit c).run.run t with ⟨e | r, after⟩
  · exact run_bind_error hx
  · exact (run_bind_ok hx).trans (run_lift _ _)

end Terminal

end SmartCard
