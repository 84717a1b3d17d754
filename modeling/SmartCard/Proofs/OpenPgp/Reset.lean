/-
The reset of the application. A card takes the command that ends its life
only when both PINs are blocked, so the session blocks them first: it sends
as many wrong PINs as there are attempts left. Each of these may be refused,
and the rest may not.

# The course of a reset

What is to be sent is settled once the attempts were read (`resetSteps`),
and is sent in that order up to the first command that does not pass
(`Followed`). What can be said of the order of commands comes from there:
the life of the application is ended behind all the wrong PINs, and only
what was ended is activated (`BlocksFirst`).

# Refusals and other failures

The session goes on after a wrong PIN if the error has a status, and only an
answer of the card leaves one (`Asked.payload_error`). So a step is one
request that passes or ends the reset (`ResetStep.take_ran`), and no failure
of the link or the channel is taken for a refusal.
-/
import SmartCard.OpenPgp.Session.Pins
import SmartCard.Proofs.Failures
import SmartCard.Proofs.OpenPgp.Requests

namespace SmartCard.OpenPgp.Session

open Terminal (Request Asked)

-- ================================================================== steps

/-- A step of a reset: a wrong PIN that the card may refuse, or a command
that it must carry out. -/
inductive ResetStep
  | wrong (use : PinUse)
  | give (c : Command)

namespace ResetStep

/-- What the step sends. -/
def command : ResetStep → Command
  | wrong use => verifyCommand use invalidPin
  | give c => c

/-- What lets the reset go on. -/
def Passed (request : Request) : ResetStep → Prop
  | wrong _ => request.Answered
  | give _ => request.Succeeded

/-- What ends it, and how. -/
def Failed (request : Request) (cause : SmartCard.Error) : ResetStep → Prop
  | wrong _ => request.answer = .error cause
  | give _ => request.payload = .error cause

end ResetStep

/-- The wrong PINs that use up the attempts. -/
def wrongPins (attempts : PerPin) : List PinUse :=
  List.replicate attempts.user.toNat .user
    ++ List.replicate attempts.admin.toNat .admin

/-- All that a reset sends when so many attempts are left. -/
def resetSteps (attempts : PerPin) : List ResetStep :=
  (wrongPins attempts).map .wrong ++ [.give terminate, .give activate]

/-- Steps were taken one after the other. All passed but the last one, if
that failed, and with its failure the work ended at once. -/
inductive Followed : List ResetStep → List Request → Except Error Unit → Prop
  | done : Followed [] [] (.ok ())
  | stopped {step : ResetStep} {rest : List ResetStep} {request : Request}
      {cause : SmartCard.Error} :
      request.command = step.command → step.Failed request cause →
      Followed (step :: rest) [request] (.error (.card cause))
  | passed {step : ResetStep} {rest : List ResetStep} {request : Request}
      {asked : List Request} {result : Except Error Unit} :
      request.command = step.command → step.Passed request →
      Followed rest asked result →
      Followed (step :: rest) (request :: asked) result

section Taking

variable {σ : Type} [Transport σ] {s : Session σ}

/-- The step, in a session. Of a wrong PIN only a failure with no status
word is passed on. -/
def ResetStep.take : ResetStep → Activity σ Unit
  | wrong use => tryCatch (perform (verifyCommand use invalidPin)) fun e =>
      match e.statusWord? with
      | some _ => pure ()
      | none => throw e
  | give c => perform c

/-- The steps one after the other, up to the first that fails. -/
def takeSteps : List ResetStep → Activity σ Unit
  | [] => pure ()
  | step :: rest => do
    step.take
    takeSteps rest

theorem takeSteps_append (first rest : List ResetStep) :
    (takeSteps (first ++ rest) : Activity σ Unit)
      = takeSteps first >>= fun _ => takeSteps rest := by
  induction first with
  | nil => simp [takeSteps]
  | cons step first ih => simp [takeSteps, ih]

/-- A run of wrong PINs of one kind exhausts that PIN. -/
theorem takeSteps_wrong (use : PinUse) (attempts : Nat) :
    (takeSteps (List.replicate attempts (.wrong use)) : Activity σ Unit)
      = exhaust use attempts := by
  induction attempts with
  | zero => rfl
  | succ attempts ih =>
      rw [List.replicate_succ, takeSteps, ih]
      rfl

/-- A reset is the feature check, the reading of the attempts and the steps
that they give. -/
theorem reset_eq :
    (reset : Activity σ Unit)
      = require Features.reset >>= fun _ => pinStatus >>= fun status =>
          takeSteps (resetSteps status.attempts) := by
  unfold reset resetSteps wrongPins
  simp only [List.map_append, List.map_replicate, takeSteps_append,
    takeSteps_wrong, takeSteps, ResetStep.take, bind_assoc, bind_pure_unit]

/-- A step is one request. It passes, or ends the work. -/
theorem ResetStep.take_ran (step : ResetStep) (hopen : s.stage ≠ .closed) :
    ∃ request result t, Ran step.take s [request] result t
      ∧ request.command = step.command
      ∧ (result = .ok () ∧ step.Passed request
        ∨ ∃ cause, result = .error (.card cause)
          ∧ step.Failed request cause) := by
  obtain ⟨asked, answer, t, hran, hsent⟩ := perform_ran step.command s
  cases hsent with
  | closed hclosed => exact absurd hclosed hopen
  | @done request payload _ hcommand hpayload =>
      have hdone := Request.succeeded_of_payload hpayload
      refine ⟨request, .ok (), t, ?_, hcommand, Or.inl ⟨rfl, ?_⟩⟩
      · cases step with
        | give c => exact hran
        | wrong use => exact ⟨run_catch_ok hran.run, hran.asked⟩
      · cases step with
        | give c => exact hdone
        | wrong use => exact hdone.imp fun _ => And.left
  | @refused request cause _ hcommand hcause =>
      cases step with
      | give c =>
          exact ⟨request, _, t, hran, hcommand, Or.inr ⟨cause, rfl, hcause⟩⟩
      | wrong use =>
          rcases hran.asked.payload_error hcause with
            ⟨hanswered, word, rfl⟩ | ⟨hanswer, hnone⟩
          · refine ⟨request, .ok (), t, ⟨?_, hran.asked⟩, hcommand,
              Or.inl ⟨rfl, hanswered⟩⟩
            exact (run_catch_error hran.run).trans rfl
          · refine ⟨request, .error (.card cause), t, ⟨?_, hran.asked⟩, hcommand,
              Or.inr ⟨cause, rfl, hanswer⟩⟩
            refine (run_catch_error hran.run).trans ?_
            simp only [Error.statusWord?, hnone]
            rfl

/-- Every taking of steps is one that `Followed` describes. By induction
over the steps. -/
theorem takeSteps_ran (steps : List ResetStep) (hopen : s.stage ≠ .closed) :
    ∃ asked result t, Ran (takeSteps steps) s asked result t
      ∧ Followed steps asked result := by
  induction steps generalizing s with
  | nil => exact ⟨[], _, _, .none rfl, .done⟩
  | cons step rest ih =>
      obtain ⟨request, first, mid, hran, hcommand, hfirst⟩ :=
        step.take_ran hopen
      rcases hfirst with ⟨rfl, hpassed⟩ | ⟨cause, rfl, hfailed⟩
      · obtain ⟨asked, result, t, hrest, hfollowed⟩ :=
          ih (s := { s with terminal := mid }) hopen
        exact ⟨_, result, t, hran.bind hrest,
          .passed hcommand hpassed hfollowed⟩
      · exact ⟨_, _, mid, hran.fails, .stopped hcommand hfailed⟩

end Taking

-- ======================================================= the whole course

/-- The state of the PINs, as it is read from an answer. -/
def readPinStatus (answer : Bytes) : Except Error PinStatus :=
  (PinStatus.parse answer).mapError Error.invalidData

/-- What is read is what the object parses to. -/
theorem parse_of_readPinStatus {answer : Bytes} {status : PinStatus}
    (h : readPinStatus answer = .ok status) :
    PinStatus.parse answer = .ok status := by
  unfold readPinStatus at h
  exact mapError_ok_iff.mp h

/-- The card was asked for the state of the PINs and told how many attempts
are left. -/
def ToldAttempts (request : Request) (attempts : PerPin) : Prop :=
  ∃ status, Told ObjectId.pinStatus readPinStatus request status
    ∧ status.attempts = attempts

/-- Attempts are told by a reading of the PIN status object. -/
theorem ToldAttempts.asks {request : Request} {attempts : PerPin}
    (h : ToldAttempts request attempts) :
    request.command = getDataCommand ObjectId.pinStatus := by
  obtain ⟨status, htold, -⟩ := h
  exact htold.asks

theorem ToldAttempts.succeeded {request : Request} {attempts : PerPin}
    (h : ToldAttempts request attempts) : request.Succeeded := by
  obtain ⟨status, htold, -⟩ := h
  exact htold.succeeded

/-- The ways in which a reset goes. -/
inductive Resetting {σ : Type} (s : Session σ) :
    List Request → Except Error Unit → Prop
  | unread {asked : List Request} {e : Error} :
      Reading s ObjectId.pinStatus readPinStatus asked (.error e) →
      Resetting s asked (.error e)
  | followed {reading : Request} {attempts : PerPin} {asked : List Request}
      {result : Except Error Unit} :
      ToldAttempts reading attempts →
      Followed (resetSteps attempts) asked result →
      Resetting s (reading :: asked) result

/-- Every reset on firmware that has it is one of the courses that
`Resetting` lists. -/
theorem reset_ran {σ : Type} [Transport σ] {s : Session σ}
    (hversion : s.version.isAtLeast ⟨1, 0, 6⟩ = true) :
    ∃ asked result t, Ran reset s asked result t
      ∧ Resetting s asked result := by
  have hrequire := run_require Features.reset s
  have hsupported : Features.reset.require s.version = .ok () := if_pos hversion
  rw [hsupported] at hrequire
  obtain ⟨first, outcome, mid, hread, hreading⟩ :=
    reading_ran ObjectId.pinStatus readPinStatus
      (fun answer mid => run_wellFormed (PinStatus.parse answer) mid) s
  rw [reset_eq]
  cases outcome with
  | error e =>
      exact ⟨first, _, mid, .after hrequire hread.fails, .unread hreading⟩
  | ok status =>
      cases hreading with
      | told hopen htold =>
          obtain ⟨asked, result, t, hran, hfollowed⟩ :=
            takeSteps_ran (resetSteps status.attempts)
              (s := { s with terminal := mid }) hopen
          exact ⟨_, result, t, .after hrequire (hread.bind hran),
            .followed ⟨status, htold, rfl⟩ hfollowed⟩

-- ================================================================== order

section Order

variable {steps first rest : List ResetStep} {asked : List Request}
  {result : Except Error Unit} {attempts : PerPin}

/-- The commands sent are those of the first steps, in order. -/
theorem Followed.commands (h : Followed steps asked result) :
    asked.map Request.command <+: steps.map ResetStep.command := by
  induction h with
  | done => exact List.prefix_rfl
  | stopped hcommand _ => simp [hcommand]
  | passed hcommand _ _ ih => simpa [hcommand] using ih

/-- Either the first steps ended the work, or they passed and the rest
followed. -/
theorem Followed.append (h : Followed (first ++ rest) asked result) :
    (Followed first asked result ∧ result ≠ .ok ())
      ∨ ∃ passed later, asked = passed ++ later
        ∧ Followed first passed (.ok ()) ∧ Followed rest later result := by
  induction first generalizing asked with
  | nil => exact Or.inr ⟨[], asked, rfl, .done, h⟩
  | cons step first ih =>
      cases h with
      | stopped hcommand hfailed =>
          exact Or.inl ⟨.stopped hcommand hfailed, by simp⟩
      | passed hcommand hpassed hmore =>
          rcases ih hmore with
            ⟨hfirst, hnot⟩ | ⟨passed, later, rfl, hfirst, hrest⟩
          · exact Or.inl ⟨.passed hcommand hpassed hfirst, hnot⟩
          · exact Or.inr ⟨_, later, rfl, .passed hcommand hpassed hfirst, hrest⟩

theorem ResetStep.Passed.answered {step : ResetStep} {request : Request}
    (h : step.Passed request) : request.Answered := by
  cases step with
  | wrong use => exact h
  | give c => exact h.imp fun _ => And.left

/-- A step fails with the error of its request. -/
theorem ResetStep.Failed.cause_eq {step : ResetStep} {request : Request}
    {cause other : SmartCard.Error} (h : step.Failed request cause)
    (hanswer : request.answer = .error other) : cause = other := by
  cases step with
  | wrong use => exact Except.error.inj (h.symm.trans hanswer)
  | give c =>
      exact Except.error.inj (h.symm.trans (Request.payload_of_failed hanswer))

/-- A command without an answer is the last one, and its failure is that of
the work. -/
theorem Followed.stops {before later : List Request} {request : Request}
    {cause : SmartCard.Error}
    (h : Followed steps (before ++ request :: later) result)
    (hanswer : request.answer = .error cause) :
    later = [] ∧ result = .error (.card cause) := by
  induction before generalizing steps with
  | nil =>
      rw [List.nil_append] at h
      cases h with
      | stopped _ hfailed =>
          rw [hfailed.cause_eq hanswer]
          exact ⟨rfl, rfl⟩
      | passed _ hpassed _ =>
          obtain ⟨r, hr⟩ := hpassed.answered
          cases hanswer.symm.trans hr
  | cons earlier before ih =>
      generalize hrow : earlier :: before ++ request :: later = row at h
      cases h with
      | done => cases hrow
      | stopped _ _ => simp at hrow
      | passed _ _ hmore =>
          obtain ⟨rfl, rfl⟩ := List.cons.inj hrow
          exact ih hmore

/-- Steps that are wrong PINs send nothing but wrong PINs. -/
theorem Followed.wrong_command {uses : List PinUse}
    (h : Followed (uses.map .wrong) asked result) :
    ∀ request ∈ asked, ∃ use, request.command = verifyCommand use invalidPin := by
  intro request hmem
  have hplanned := h.commands.subset (List.mem_map_of_mem hmem)
  rw [List.map_map] at hplanned
  obtain ⟨use, -, hcommand⟩ := List.mem_map.mp hplanned
  exact ⟨use, hcommand.symm⟩

/-- Wrong PINs that passed were all sent, and all answered. -/
theorem Followed.all_answered {uses : List PinUse}
    (h : Followed (uses.map .wrong) asked (.ok ())) :
    asked.map Request.command = uses.map (verifyCommand · invalidPin)
      ∧ ∀ request ∈ asked, request.Answered := by
  induction uses generalizing asked with
  | nil =>
      cases h
      simp
  | cons use uses ih =>
      cases h with
      | passed hcommand hpassed hmore =>
          obtain ⟨hcommands, hanswered⟩ := ih hmore
          refine ⟨?_, List.forall_mem_cons.mpr ⟨hpassed, hanswered⟩⟩
          rw [List.map_cons, List.map_cons, hcommand, hcommands]
          rfl

/-- Once all wrong PINs passed, the life of the application is ended, and if
that is done it is activated. -/
theorem Followed.reset_cases (h : Followed (resetSteps attempts) asked result) :
    (Followed ((wrongPins attempts).map .wrong) asked result ∧ result ≠ .ok ())
      ∨ ∃ tries ended more, asked = tries ++ ended :: more
        ∧ Followed ((wrongPins attempts).map .wrong) tries (.ok ())
        ∧ ended.command = terminate
        ∧ (more = [] ∧ result ≠ .ok ()
          ∨ ended.Succeeded ∧ ∃ last, more = [last]
            ∧ last.command = activate ∧ (result = .ok () → last.Succeeded)) := by
  rcases h.append with hstopped | ⟨tries, later, rfl, htries, hlater⟩
  · exact Or.inl hstopped
  refine Or.inr ⟨tries, ?_⟩
  cases hlater with
  | @stopped _ _ ended cause hcommand _ =>
      exact ⟨ended, [], rfl, htries, hcommand, Or.inl ⟨rfl, by simp⟩⟩
  | @passed _ _ ended more _ hcommand hended hmore =>
      refine ⟨ended, more, rfl, htries, hcommand, Or.inr ⟨hended, ?_⟩⟩
      cases hmore with
      | @stopped _ _ last cause hactivates _ =>
          exact ⟨last, rfl, hactivates, by simp⟩
      | @passed _ _ last _ _ hactivates hdone hnone =>
          cases hnone
          exact ⟨last, rfl, hactivates, fun _ => hdone⟩

/-- The two commands at the end. -/
def EndsOrRevives (c : Command) : Prop :=
  c = terminate ∨ c = activate

/-- Reading the PIN status neither ends the application nor revives it. -/
theorem not_endsOrRevives_read {request : Request}
    (h : request.command = getDataCommand ObjectId.pinStatus) :
    ¬ EndsOrRevives request.command := by
  rw [h]
  rintro (heq | heq) <;> cases congrArg Command.ins heq

theorem not_endsOrRevives_verify {request : Request} {use : PinUse}
    (h : request.command = verifyCommand use invalidPin) :
    ¬ EndsOrRevives request.command := by
  rw [h]
  rintro (heq | heq) <;> cases congrArg Command.ins heq

/-- A reset stays away from the two commands at the end, or all wrong PINs
passed before it comes to them. -/
theorem Resetting.ending {σ : Type} {s : Session σ}
    (h : Resetting s asked result) :
    ((∀ request ∈ asked, ¬ EndsOrRevives request.command) ∧ result ≠ .ok ())
      ∨ ∃ reading attempts tries ended more,
        asked = (reading :: tries) ++ ended :: more
        ∧ ToldAttempts reading attempts
        ∧ Followed ((wrongPins attempts).map .wrong) tries (.ok ())
        ∧ (∀ request ∈ reading :: tries, ¬ EndsOrRevives request.command)
        ∧ ended.command = terminate
        ∧ (more = [] ∧ result ≠ .ok ()
          ∨ ended.Succeeded ∧ ∃ last, more = [last]
            ∧ last.command = activate ∧ (result = .ok () → last.Succeeded)) := by
  cases h with
  | @unread _ e hreading =>
      refine Or.inl ⟨?_, by simp⟩
      cases asked with
      | nil => simp
      | cons reading later =>
          obtain ⟨hcommand, rfl⟩ := hreading.alone
          simpa using not_endsOrRevives_read hcommand
  | @followed reading attempts asked _ htold hfollowed =>
      have hreading := not_endsOrRevives_read htold.asks
      have htries : ∀ {tries result},
          Followed ((wrongPins attempts).map .wrong) tries result →
          ∀ request ∈ reading :: tries, ¬ EndsOrRevives request.command := by
        intro tries result hwrong
        refine List.forall_mem_cons.mpr ⟨hreading, fun request hmem => ?_⟩
        obtain ⟨use, hcommand⟩ := hwrong.wrong_command request hmem
        exact not_endsOrRevives_verify hcommand
      rcases hfollowed.reset_cases with
        ⟨hwrong, hnot⟩ | ⟨tries, ended, more, rfl, hwrong, hends, hmore⟩
      · exact Or.inl ⟨htries hwrong, hnot⟩
      · exact Or.inr ⟨reading, attempts, tries, ended, more, rfl, htold,
          hwrong, htries hwrong, hends, hmore⟩

end Order

/-- The attempts that the card tells settle what is sent, and a command that
gets no answer is the last. The life of the application is ended only behind
as many answered wrong PINs as there were attempts; it is activated only
where it was ended just before, and a reset ends well only with that. -/
structure BlocksFirst (asked : List Request) (result : Except Error Unit) :
    Prop where
  planned : ∀ reading later, asked = reading :: later →
    reading.command = getDataCommand ObjectId.pinStatus
      ∧ (later ≠ [] → ∃ attempts, ToldAttempts reading attempts
        ∧ later.map Request.command
          <+: (resetSteps attempts).map ResetStep.command)
  stops : ∀ before request later cause, asked = before ++ request :: later →
    request.answer = .error cause →
    later = [] ∧ result = .error (.card cause)
  ended : ∀ before request later, asked = before ++ request :: later →
    request.command = terminate →
    ∃ reading attempts tries, before = reading :: tries
      ∧ ToldAttempts reading attempts
      ∧ tries.map Request.command
        = (wrongPins attempts).map (verifyCommand · invalidPin)
      ∧ ∀ request ∈ tries, request.Answered
  activated : ∀ before request later, asked = before ++ request :: later →
    request.command = activate →
    ∃ earlier last, before = earlier ++ [last]
      ∧ last.command = terminate ∧ last.Succeeded
  done : result = .ok () →
    ∃ before last, asked = before ++ [last]
      ∧ last.command = activate ∧ last.Succeeded

section Consequences

variable {σ : Type} {s : Session σ} {asked before later : List Request}
  {request : Request} {result : Except Error Unit}

/-- What comes before the command that ends the life of the application. -/
theorem Resetting.before_end (h : Resetting s asked result)
    (hsplit : asked = before ++ request :: later)
    (hends : request.command = terminate) :
    ∃ reading attempts tries, before = reading :: tries
      ∧ ToldAttempts reading attempts
      ∧ Followed ((wrongPins attempts).map .wrong) tries (.ok ()) := by
  have hrequest : EndsOrRevives request.command := Or.inl hends
  rcases h.ending with ⟨hnone, -⟩ | ⟨reading, attempts, tries, ended, more,
    hasked, htold, hwrong, htries, hcommand, hmore⟩
  · exact absurd hrequest (hnone request (by simp [hsplit]))
  · refine ⟨reading, attempts, tries, ?_, htold, hwrong⟩
    have hbehind : request ∉ more := by
      rcases hmore with ⟨rfl, -⟩ | ⟨-, last, rfl, hlast, -⟩
      · simp
      · rintro hmem
        obtain rfl := List.mem_singleton.mp hmem
        cases congrArg Command.ins (hends.symm.trans hlast)
    exact ((List.append_cons_inj_of_notMem
      (fun hmem => htries request hmem hrequest) hbehind).mp
      (hasked.symm.trans hsplit)).1.symm

/-- What comes just before the activation is a termination that
succeeded. -/
theorem Resetting.before_activation (h : Resetting s asked result)
    (hsplit : asked = before ++ request :: later)
    (hactivates : request.command = activate) :
    ∃ earlier last, before = earlier ++ [last]
      ∧ last.command = terminate ∧ last.Succeeded := by
  have hrequest : EndsOrRevives request.command := Or.inr hactivates
  rcases h.ending with ⟨hnone, -⟩ | ⟨reading, attempts, tries, ended, more,
    hasked, htold, hwrong, htries, hcommand, hmore⟩
  · exact absurd hrequest (hnone request (by simp [hsplit]))
  · have hother : request ≠ ended := by
      rintro rfl
      cases congrArg Command.ins (hactivates.symm.trans hcommand)
    have hbefore : request ∉ reading :: tries ++ [ended] := by
      simp only [List.mem_append, List.mem_singleton, not_or]
      exact ⟨fun hmem => htries request hmem hrequest, hother⟩
    rcases hmore with ⟨rfl, -⟩ | ⟨hended, last, rfl, -, -⟩
    · have hmem : request ∈ asked := by simp [hsplit]
      rw [hasked] at hmem
      exact absurd hmem hbefore
    · refine ⟨reading :: tries, ended, ?_, hcommand, hended⟩
      have hrow : (reading :: tries ++ [ended]) ++ last :: []
          = before ++ request :: later := by
        rw [← hsplit, hasked]
        simp
      exact ((List.append_cons_inj_of_notMem hbefore (by simp)).mp hrow).1.symm

/-- In every course of a reset, the PINs are blocked before the application
is terminated. -/
theorem Resetting.blocksFirst (h : Resetting s asked result) :
    BlocksFirst asked result where
  planned := by
    rintro reading later rfl
    cases h with
    | unread hreading =>
        obtain ⟨hcommand, rfl⟩ := hreading.alone
        exact ⟨hcommand, absurd rfl⟩
    | followed htold hfollowed =>
        exact ⟨htold.asks, fun _ => ⟨_, htold, hfollowed.commands⟩⟩
  stops := by
    intro before request later cause hsplit hanswer
    cases h with
    | unread hreading =>
        rw [hsplit] at hreading
        cases before with
        | nil =>
            obtain ⟨-, rfl⟩ := hreading.alone
            cases hreading.unanswered hanswer
            exact ⟨rfl, rfl⟩
        | cons first before =>
            obtain ⟨-, hnone⟩ := hreading.alone
            simp at hnone
    | followed htold hfollowed =>
        cases before with
        | nil =>
            obtain ⟨rfl, -⟩ := List.cons.inj hsplit
            obtain ⟨r, hr, -⟩ := htold.succeeded
            cases hanswer.symm.trans hr
        | cons first before =>
            obtain ⟨-, rfl⟩ := List.cons.inj hsplit
            exact hfollowed.stops hanswer
  ended := by
    intro before request later hsplit hends
    obtain ⟨reading, attempts, tries, hbefore, htold, hwrong⟩ :=
      h.before_end hsplit hends
    exact ⟨reading, attempts, tries, hbefore, htold, hwrong.all_answered⟩
  activated := fun before request later => h.before_activation
  done := by
    intro hresult
    rcases h.ending with ⟨-, hnot⟩ | ⟨reading, attempts, tries, ended, more,
      hasked, -, -, -, -, ⟨-, hnot⟩ | ⟨-, last, rfl, hlast, hdone⟩⟩
    · exact absurd hresult hnot
    · exact absurd hresult hnot
    · exact ⟨reading :: tries ++ [ended], last, by rw [hasked]; simp, hlast,
        hdone hresult⟩

end Consequences

end SmartCard.OpenPgp.Session
