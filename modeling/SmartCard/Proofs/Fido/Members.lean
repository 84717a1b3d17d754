/-
Which requests ask for permissions or name a relying party, over any run of
calls. These two members came with FIDO 2.1, and an authenticator of FIDO
2.0 is told neither, with one exception: the request that sets the first
PIN always asks for credential management, under every version.

# What a call may ask

`Told` says it for one request of one call. It holds of all that a call
asks (`call_told`), and what is asked in a run is what its calls ask, one
after the other (`run_told`). So a run goes without the two members unless
a first PIN is set in it, and such a request is all that carries them
(`members_only_where_set`).
-/
import SmartCard.Proofs.Fido.Requests

namespace SmartCard.Fido

-- ================================================================== calls

/-- A call of the client's side, with the random values it draws. -/
inductive Call
  /-- How many attempts are left for the PIN. -/
  | pinRetries
  /-- How many attempts are left for user verification. -/
  | uvRetries
  /-- Agree on a secret. -/
  | sharedSecret (scalar : P256.Scalar)
  /-- Use, set or change the PIN. -/
  | operate (fresh : Fresh) (op : Operation)

variable {κ : Type} [PinClient κ]

/-- The client after a call, whatever the call returned. -/
def Call.run (pin : ClientPin) : Call → κ → κ
  | pinRetries, client => (pin.pinRetries.run.run client).2
  | uvRetries, client => (pin.uvRetries.run.run client).2
  | sharedSecret scalar, client => ((pin.sharedSecret scalar).run.run client).2
  | operate fresh op, client => ((op.run pin fresh).run.run client).2

/-- The client after calls in a row. -/
def runAll (pin : ClientPin) (calls : List Call) (client : κ) : κ :=
  calls.foldl (fun client call => call.run pin client) client

-- ======================================================= what calls may ask

/-- What a call may ask of an authenticator of FIDO 2.0: either neither
member is there, or the call sets the first PIN, and credential management
is asked for. -/
inductive Told : Call → PinRequest → Prop
  | plain {call : Call} {request : PinRequest} :
      request.permissions = none → request.rpId = none →
      request.subCommand ≠ 0x03 → Told call request
  | setPin {fresh : Fresh} {text : String} {request : PinRequest} :
      request.permissions = some Permissions.credentialManagement →
      request.rpId = none → request.subCommand = 0x03 →
      Told (.operate fresh (.setPin text)) request

/-- The requests of a call to a watched client, put behind what the client
was asked before, and the client is otherwise left as without watching. -/
def Telling (pin : ClientPin) (call : Call) (client : κ)
    (before : List (PinRequest × Except Error PinResponse)) : Prop :=
  ∃ seen, call.run pin (⟨client, before⟩ : Watched κ)
      = ⟨call.run pin client, before ++ seen⟩
    ∧ ∀ asked ∈ seen, Told call asked.1

/-- A request without members may be asked by any call, unless it sets the
first PIN. -/
theorem told_bare (protocol : AuthProtocol) (call : Call)
    {command : SubCommand} (h : command.number ≠ 0x03) :
    Told call (.bare protocol command) := .plain rfl rfl h

/-- So may the request for the authenticator's key. -/
theorem told_opening (pin : ClientPin) (call : Call) :
    Told call pin.opening := by
  have hcommand : SubCommand.keyAgreement.number ≠ 0x03 := by decide
  exact told_bare pin.protocol call hcommand

/-- The requests about a PIN, by what is asked for. Those that name both
members are for later versions only. -/
theorem told_asks {protocol : AuthProtocol} {fresh : Fresh}
    {secret : SharedSecret} {op : Operation} {request : PinRequest}
    (h : Asks ⟨protocol, .fido20⟩ fresh secret op request) :
    Told (.operate fresh op) request := by
  cases h with
  | tokenByPin hversion _ => cases hversion
  | tokenByUv hversion => cases hversion
  | pinToken _ _ => exact .plain rfl rfl (show (0x05 : UInt8) ≠ 3 by decide)
  | setPin _ => exact .setPin rfl rfl rfl
  | changePin _ _ => exact .plain rfl rfl (show (0x04 : UInt8) ≠ 3 by decide)

/-- A call that asks one question, whose answer is only read. -/
theorem telling_single {pin : ClientPin} {call : Call}
    {request : PinRequest} (htold : Told call request)
    (hrun : ∀ (κ : Type) [PinClient κ] (client : κ),
      call.run pin client = (PinClient.send request client).2)
    (client : κ) (before : List (PinRequest × Except Error PinResponse)) :
    Telling pin call client before := by
  refine ⟨[(request, (PinClient.send request client).1)], ?_, ?_⟩
  · rw [hrun (Watched κ), hrun κ, send_watched]
  · intro asked hasked
    rw [List.mem_singleton.mp hasked]
    exact htold

/-- Asking and reading the answer leaves the client as asking does. -/
theorem pinRetries_client (pin : ClientPin) (client : κ) :
    Call.pinRetries.run pin client
      = (PinClient.send (.bare pin.protocol .pinRetries) client).2 := by
  show (pin.pinRetries.run.run client).2 = _
  unfold ClientPin.pinRetries
  rcases hanswer : PinClient.send (.bare pin.protocol .pinRetries) client with
    ⟨e | response, mid⟩
  · rw [run_bind_error (ClientPin.ask_run hanswer)]
  · rw [run_bind_ok (ClientPin.ask_run hanswer)]
    cases response.pinRetries <;> rfl

/-- An operation leaves the client as its run does. -/
theorem operate_client (pin : ClientPin) (fresh : Fresh) (op : Operation)
    (client : κ) :
    (Call.operate fresh op).run pin client
      = ((op.run pin fresh).run.run client).2 := rfl

/-- Attempts for user verification are not asked for under FIDO 2.0. -/
theorem uvRetries_client (protocol : AuthProtocol) (client : κ) :
    Call.uvRetries.run ⟨protocol, .fido20⟩ client = client := rfl

/-- Agreeing on a secret is one request. -/
theorem sharedSecret_client (pin : ClientPin) (scalar : P256.Scalar)
    (client : κ) :
    (Call.sharedSecret scalar).run pin client
      = (PinClient.send pin.opening client).2 := by
  show ((pin.sharedSecret scalar).run.run client).2 = _
  rcases hanswer : PinClient.send pin.opening client with ⟨answer, mid⟩
  rw [ClientPin.sharedSecret_run pin scalar hanswer]

/-- Both requests of an operation may be asked, if the one that it is about
may. -/
theorem told_course {protocol : AuthProtocol} {fresh : Fresh}
    {op : Operation} {α : Type} {request : SharedSecret → PinRequest}
    {finish : SharedSecret → PinResponse → Except Error α}
    {answer : Except Error PinResponse}
    {seen : List (PinRequest × Except Error PinResponse)}
    {result : Except Error α}
    (hasks : ∀ secret, Asks ⟨protocol, .fido20⟩ fresh secret op
      (request secret))
    (hcourse : ClientPin.Course ⟨protocol, .fido20⟩ fresh.scalar request
      finish answer seen result) :
    ∀ asked ∈ seen, Told (.operate fresh op) asked.1 := by
  intro asked hasked
  cases hcourse with
  | unmet e _ _ =>
      rw [List.mem_singleton.mp hasked]
      exact told_opening _ _
  | met peer last _ =>
      rcases List.mem_cons.mp hasked with rfl | hasked
      · exact told_opening _ _
      · rw [List.mem_singleton.mp hasked]
        exact told_asks (hasks _)

/-- An operation asks nothing where its own checks fail, and the two
requests of its course where they do not. -/
theorem telling_operate (protocol : AuthProtocol) (fresh : Fresh)
    (op : Operation) (client : κ)
    (before : List (PinRequest × Except Error PinResponse)) :
    Telling ⟨protocol, .fido20⟩ (.operate fresh op) client before := by
  rcases Operation.run_cases ⟨protocol, .fido20⟩ fresh op with
    ⟨-, fault, hhalts⟩ | ⟨-, request, hasks, hrun⟩
  · refine ⟨[], ?_, by simp⟩
    rw [operate_client, operate_client, hhalts κ, hhalts (Watched κ),
      List.append_nil]
  · obtain ⟨result, after, seen, hplain, hwatched, hcourse⟩ :=
      ClientPin.twoRequests_watched ⟨protocol, .fido20⟩ fresh.scalar request
        (op.finish _) client before
    refine ⟨seen, ?_, told_course hasks hcourse⟩
    rw [operate_client, operate_client, hrun κ, hrun (Watched κ), hplain, hwatched]

/-- Whatever a call asks, it may ask. -/
theorem call_told (protocol : AuthProtocol) (call : Call) (client : κ)
    (before : List (PinRequest × Except Error PinResponse)) :
    Telling ⟨protocol, .fido20⟩ call client before := by
  cases call with
  | pinRetries =>
      exact telling_single (told_bare protocol _ (by decide))
        (fun κ _ client => pinRetries_client _ client) client before
  | uvRetries =>
      refine ⟨[], ?_, by simp⟩
      rw [uvRetries_client, uvRetries_client, List.append_nil]
  | sharedSecret scalar =>
      exact telling_single (told_opening _ _)
        (fun κ _ client => sharedSecret_client _ scalar client) client before
  | operate fresh op => exact telling_operate protocol fresh op client before

-- =================================================================== runs

/-- What a client is asked in a run is what the calls of the run ask. -/
theorem run_told (protocol : AuthProtocol) (calls : List Call) (client : κ)
    (before : List (PinRequest × Except Error PinResponse)) :
    ∃ seen, runAll ⟨protocol, .fido20⟩ calls (⟨client, before⟩ : Watched κ)
        = ⟨runAll ⟨protocol, .fido20⟩ calls client, before ++ seen⟩
      ∧ ∀ asked ∈ seen, ∃ call ∈ calls, Told call asked.1 := by
  induction calls generalizing client before with
  | nil => exact ⟨[], by simp [runAll], by simp⟩
  | cons call calls ih =>
      obtain ⟨first, hfirst, htold⟩ := call_told protocol call client before
      obtain ⟨rest, hrest, htolds⟩ :=
        ih (call.run ⟨protocol, .fido20⟩ client) (before ++ first)
      refine ⟨first ++ rest, ?_, ?_⟩
      · unfold runAll at hrest ⊢
        rw [List.foldl_cons, List.foldl_cons, hfirst, hrest,
          List.append_assoc]
      · intro asked hasked
        rcases List.mem_append.mp hasked with hin | hin
        · exact ⟨call, List.mem_cons_self, htold asked hin⟩
        · obtain ⟨later, hmem, h⟩ := htolds asked hin
          exact ⟨later, List.mem_cons_of_mem _ hmem, h⟩

/-- Of all that may be asked, only setting the first PIN has one of the
members. -/
theorem Told.members_iff {call : Call} {request : PinRequest}
    (h : Told call request) :
    (request.permissions ≠ none ∨ request.rpId ≠ none)
      ↔ request.subCommand = 0x03 := by
  cases h with
  | plain hpermissions hrpId hcommand =>
      simp [hpermissions, hrpId, hcommand]
  | setPin hpermissions _ hcommand => simp [hpermissions, hcommand]

/-- An authenticator of FIDO 2.0, in any run of calls with any arguments,
whatever it answers. A request that asks for permissions or names a relying
party is the one that sets the first PIN. That one comes from a call to set
the PIN, asks for credential management and names no relying party; and
every request that sets the first PIN is such. So a run without one goes
without the two members, and no other run does. -/
theorem members_only_where_set (protocol : AuthProtocol)
    (calls : List Call) (client : κ) :
    let pin : ClientPin := ⟨protocol, .fido20⟩
    ∃ seen, runAll pin calls (⟨client, []⟩ : Watched κ)
        = ⟨runAll pin calls client, seen⟩
      ∧ (∀ asked ∈ seen,
        (asked.1.permissions ≠ none ∨ asked.1.rpId ≠ none)
          ↔ asked.1.subCommand = 0x03)
      ∧ (∀ asked ∈ seen, asked.1.subCommand = 0x03 →
        asked.1.permissions = some Permissions.credentialManagement
          ∧ asked.1.rpId = none
          ∧ ∃ fresh text, .operate fresh (.setPin text) ∈ calls)
      ∧ ((∀ asked ∈ seen,
          asked.1.permissions = none ∧ asked.1.rpId = none)
        ↔ ∀ asked ∈ seen, asked.1.subCommand ≠ 0x03) := by
  intro pin
  obtain ⟨seen, hrun, htold⟩ := run_told protocol calls client []
  have hiff : ∀ asked ∈ seen,
      (asked.1.permissions ≠ none ∨ asked.1.rpId ≠ none)
        ↔ asked.1.subCommand = 0x03 := by
    intro asked hasked
    obtain ⟨call, _, h⟩ := htold asked hasked
    exact h.members_iff
  refine ⟨seen, hrun, hiff, ?_, ?_⟩
  · intro asked hasked hcommand
    obtain ⟨call, hcall, h⟩ := htold asked hasked
    cases h with
    | plain _ _ hne => exact absurd hcommand hne
    | setPin hpermissions hrpId _ =>
        exact ⟨hpermissions, hrpId, _, _, hcall⟩
  · refine forall_congr' fun asked => forall_congr' fun hasked => ?_
    rw [ne_eq, ← hiff asked hasked, not_or, ne_eq, ne_eq,
      Classical.not_not, Classical.not_not]

/-- The first PIN of an authenticator of FIDO 2.0 is set with a request for
permissions. -/
theorem setPin_asks_permissions :
    let pin : ClientPin := ⟨.one, .fido20⟩
    let fresh : Fresh :=
      ⟨⟨1, by decide, by decide⟩, Octets.zero 16, Octets.zero 16⟩
    let client : Operation.FixedKey := ⟨.ofPoint P256.generator⟩
    ∃ asked ∈ (runAll pin [.operate fresh (.setPin "0000")]
        (⟨client, []⟩ : Watched Operation.FixedKey)).seen,
      asked.1.permissions = some Permissions.credentialManagement := by
  intro pin fresh client
  have hallowed : Pin.Allowed "0000" := ⟨by decide, by decide⟩
  obtain ⟨request, hasks, hrun⟩ :=
    Operation.setPin_proceeds pin fresh hallowed
  obtain ⟨result, after, seen, -, hwatched, hcourse⟩ :=
    ClientPin.twoRequests_watched pin fresh.scalar request
      ((Operation.setPin "0000").finish pin) client []
  have hseen : (runAll pin [.operate fresh (.setPin "0000")]
      (⟨client, []⟩ : Watched Operation.FixedKey)).seen = seen := by
    unfold runAll
    rw [List.foldl_cons, List.foldl_nil, operate_client, hrun, hwatched]
    rfl
  rw [hseen]
  cases hcourse with
  | unmet e hunmet _ =>
      exact absurd ⟨_, rfl, rfl, by decide +kernel⟩ (hunmet client.peer)
  | met peer last _ =>
      refine ⟨_, List.mem_cons_of_mem _ List.mem_cons_self, ?_⟩
      have hset := hasks (pin.secretWith fresh.scalar peer)
      generalize request (pin.secretWith fresh.scalar peer) = asked at hset
      cases hset with
      | setPin _ => rfl

end SmartCard.Fido
