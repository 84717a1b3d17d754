/-
Failures that no answer of the card is behind. A session tells two things
apart: the card answered with a status other than 90 00, or there is no
answer to the command at all, since the link failed, the protocol or the
channel was broken, or the command could not be sent. The status of an
answer becomes an error only where its payload is asked for; all work below
that fails without a status (`transmit_statusless`). So from the error of a
request it can be seen whether the card answered (`Asked.payload_error`).

# Putting work together

`Statusless` is kept by the parts of a block (`Statusless.bind`), and lost
nowhere between a frame and a command (`statusless_composed`): not in the
leading frames of a chain, where a refusal breaks the protocol, and not while
an answer is gathered.
-/
import SmartCard.Proofs.Apdu.Parts
import SmartCard.Proofs.Requests
import SmartCard.Proofs.Scp03.Authenticity

namespace SmartCard

variable {s α β : Type}

/-- Whatever makes the work fail, it is not the status of an answer. -/
def Statusless (x : ExceptT Error (StateM s) α) : Prop :=
  ∀ before e after, x.run.run before = (.error e, after) →
    e.statusWord? = none

namespace Statusless

variable {x : ExceptT Error (StateM s) α} {f : α → ExceptT Error (StateM s) β}

theorem pure (a : α) :
    Statusless (Pure.pure a : ExceptT Error (StateM s) α) := by
  intro before e after h
  cases h

/-- Giving up has no status word if the error has none. -/
theorem throw {e : Error} (h : e.statusWord? = none) :
    Statusless (MonadExcept.throw e : ExceptT Error (StateM s) α) := by
  intro before e' after hrun
  cases hrun
  exact h

/-- Nor has a check whose errors have none. -/
theorem lift {r : Except Error α}
    (h : ∀ e, r = .error e → e.statusWord? = none) :
    Statusless (liftM r : ExceptT Error (StateM s) α) := by
  intro before e after hrun
  rw [run_lift] at hrun
  exact h e (congrArg Prod.fst hrun)

/-- Work in two parts is without a status word if both parts are. -/
theorem bind (hx : Statusless x) (hf : ∀ a, Statusless (f a)) :
    Statusless (x >>= f) := by
  intro before e after h
  rcases hrun : x.run.run before with ⟨e' | a, mid⟩
  · rw [run_bind_error hrun] at h
    cases h
    exact hx _ _ _ hrun
  · rw [run_bind_ok hrun] at h
    exact hf a mid e after h

end Statusless

-- ================================================================= frames

/-- A command that can not be encoded was not answered, so its error has no
status word. -/
theorem encode_statusless {form : LengthForm} {c : Command} {e : Error}
    (h : c.encode form = .error e) : e.statusWord? = none := by
  unfold Command.encode at h
  split at h
  · cases h
    rfl
  · split at h
    · split at h
      · cases h
        rfl
      · cases h
    · cases h

variable {σ : Type} [Transport σ]

/-- Nor has a frame that the link fails on. -/
theorem exchange_statusless (frame : Bytes) :
    Statusless (exchange frame : Exchange σ Response) := by
  intro link e after h
  rw [exchange_run] at h
  split at h
  · cases h
    rfl
  · injection h with h _
    rw [parse_error h]
    rfl

/-- No part of sending a command fails with a status. A frame that is
refused breaks the chain, and not with its status. -/
theorem statusless_composed :
    Composed fun α (x : Exchange σ α) => Statusless x where
  pure := .pure
  get := by
    intro before e after h
    cases h
  throw α e h := .throw h
  encode form c := .lift fun e => encode_statusless
  exchange := exchange_statusless
  bind := .bind

-- =============================================================== commands

/-- Over a channel there are more ways to fail, and none with a status: a
response that is let through is an answer, whatever its status. -/
theorem secured_statusless {channel after : Scp03.SecureChannel} {c : Command}
    {link out : Link σ} {e : Error}
    (h : channel.send true c link = ((.error e, after), out)) :
    e.statusWord? = none := by
  cases hchain : channel.chain with
  | none =>
      unfold Scp03.SecureChannel.send at h
      rw [hchain] at h
      cases h
      rfl
  | some chain =>
      by_cases hlast : chain.counter = 0xFFFFFFFF
      · rw [Scp03.send_exhausted hchain hlast] at h
        cases h
        rfl
      · rw [Scp03.send_eq hchain fun _ => hlast] at h
        split at h
        next hsend =>
          cases h
          exact statusless_composed.send _ _ _ _ _ hsend
        next =>
          split at h
          next hrefused =>
            cases h
            obtain ⟨-, fault, rfl⟩ := Scp03.unprotect_error hrefused
            rfl
          next => cases h

namespace Terminal

/-- A terminal reports a status word in a response only, never as an
error. -/
theorem transmit_statusless (c : Command) :
    Statusless (transmit c : Host σ Response) := by
  rintro ⟨link, framing | channel⟩ e after h
  · rw [transmit_plain] at h
    obtain ⟨hresult, -⟩ := Prod.mk.inj h
    exact statusless_composed.send framing c link e _ (Prod.ext hresult rfl)
  · rw [transmit_secured] at h
    obtain ⟨hresult, -⟩ := Prod.mk.inj h
    exact secured_statusless (Prod.ext (Prod.ext hresult rfl) rfl)

/-- The card answered, with whatever status. -/
def Request.Answered (request : Request) : Prop :=
  ∃ r, request.answer = .ok r

/-- Where asking for the payload fails, the card answered and the failure is
the status of the answer, or there is no answer and no status. -/
theorem Asked.payload_refused {request : Request} {rest : List Request}
    {t after : Terminal σ} (h : Asked (request :: rest) t after)
    {cause : Error} (hcause : request.payload = .error cause) :
    (∃ r, request.answer = .ok r ∧ r.status ≠ StatusWord.success
        ∧ cause = .status r.status)
      ∨ request.answer = .error cause ∧ cause.statusWord? = none := by
  cases h with
  | cons hrun _ _ =>
      cases hanswer : request.answer with
      | error e =>
          rw [hanswer] at hrun
          cases (Request.payload_of_failed hanswer).symm.trans hcause
          exact Or.inr ⟨rfl, transmit_statusless _ _ _ _ hrun⟩
      | ok r =>
          rw [Request.payload_of_answered hanswer] at hcause
          by_cases hdone : r.status = StatusWord.success
          · cases (result_success hdone).symm.trans hcause
          · cases (result_failure hdone).symm.trans hcause
            exact Or.inl ⟨r, rfl, hdone, rfl⟩

/-- A request fails because the card answered another status than success,
or because there was no answer; and only the first has a status word. -/
theorem Asked.payload_error {request : Request} {rest : List Request}
    {t after : Terminal σ} (h : Asked (request :: rest) t after)
    {cause : Error} (hcause : request.payload = .error cause) :
    (request.Answered ∧ ∃ word, cause = .status word)
      ∨ request.answer = .error cause ∧ cause.statusWord? = none := by
  rcases h.payload_refused hcause with ⟨r, hanswer, -, hstatus⟩ | hfailed
  · exact Or.inl ⟨⟨r, hanswer⟩, _, hstatus⟩
  · exact Or.inr hfailed

end Terminal

end SmartCard
