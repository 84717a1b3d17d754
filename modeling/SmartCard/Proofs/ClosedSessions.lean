/-
Closed sessions. A session with an application is over once it was closed,
whether or not the terminal could be closed well: nothing that is asked of
it reaches the card, nothing changes any more, and closing it again is fine.

# Calls

`Call` lists what can be asked of a session, and a sequence of steps is made
of calls and of further closings. Everything that needs the card comes down
to the one command that sends, so each call is silent as its parts are; the
calls that do not send first are opened for that. Some need no card, and
end then as they would in an open session that knows the same.
-/
import SmartCard.Fido.Session
import SmartCard.OpenPgp.Session.Operations
import SmartCard.OpenPgp.Session.Pins
import SmartCard.Proofs.OpenPgp.KeyOperations
import SmartCard.Proofs.Silence

namespace SmartCard

variable {σ : Type}

-- ================================================================ closing

/-- To close a terminal, no frame is needed. -/
theorem Terminal.frames_close [Transport σ] (t : Terminal σ) :
    (Terminal.close.run.run t).2.link.frames = t.link.frames := by
  let mid : Terminal σ := { t with messaging := t.messaging.close }
  have hopen : Terminal.close.run.run t
      = (if Transport.connected t.link.card then Terminal.disconnect
          else pure ()).run.run mid := rfl
  rw [hopen]
  cases Transport.connected t.link.card <;> rfl

/-- Every stage leads to the last one. -/
theorem Stage.advance_closed (stage : Stage) :
    stage.advance .closed = .closed := by
  cases stage <;> rfl

section Closing

-- A session with whatever application: all that closing needs of it is its
-- stage and its terminal.
variable {s ε κ : Type} {stage : s → Stage} {terminal : s → Terminal σ}
  {closing : ExceptT ε (StateM s) Unit}

/-- How sessions close. One that is closed is left as it is; any other is
closed afterwards, however closing its terminal ends, and no frame was
handed over for it. -/
structure Closes (stage : s → Stage) (terminal : s → Terminal σ)
    (closing : ExceptT ε (StateM s) Unit) : Prop where
  again : ∀ now, stage now = .closed → closing.run.run now = (.ok (), now)
  closed : ∀ now, stage (closing.run.run now).2 = .closed
  frames : ∀ now, (terminal (closing.run.run now).2).link.frames
    = (terminal now).link.frames

/-- So does a session that marks itself as closed and closes its terminal
then. -/
theorem closes_of_mark [Transport σ] {mark : s → s}
    {work : ExceptT ε (StateM s) Unit}
    (hmark : ∀ now, stage (mark now) = .closed
      ∧ terminal (mark now) = terminal now)
    (hwork : ∀ now, stage (work.run.run now).2 = stage now
      ∧ terminal (work.run.run now).2
        = (Terminal.close.run.run (terminal now)).2) :
    Closes stage terminal (do
      if stage (← get) = .closed then return
      modify mark
      work) := by
  let closing : ExceptT ε (StateM s) Unit := do
    if stage (← get) = .closed then return
    modify mark
    work
  have hagain : ∀ now, stage now = .closed →
      closing.run.run now = (.ok (), now) := by
    intro now hnow
    show (get >>= _ : ExceptT ε (StateM s) Unit).run.run now = _
    rw [run_bind_ok (run_get now), if_pos hnow]
    rfl
  have hfirst : ∀ now, stage now ≠ .closed →
      closing.run.run now = work.run.run (mark now) := by
    intro now hnow
    show (get >>= _ : ExceptT ε (StateM s) Unit).run.run now = _
    rw [run_bind_ok (run_get now), if_neg hnow]
    rfl
  refine ⟨hagain, fun now => ?_, fun now => ?_⟩
  · by_cases hnow : stage now = .closed
    · rw [hagain now hnow]
      exact hnow
    · rw [hfirst now hnow, (hwork _).1, (hmark now).1]
  · by_cases hnow : stage now = .closed
    · rw [hagain now hnow]
    · rw [hfirst now hnow, (hwork _).2, (hmark now).2]
      exact (terminal now).frames_close

/-- If a closed session is silent in every call, it stays as closing left it
whatever is done with it. -/
theorem Closes.silent_since {Call : Type → Type}
    {run : ∀ {α : Type}, Call α → ExceptT ε (StateM s) α} {known : s → κ}
    {e : ε} (h : Closes stage terminal closing)
    (hcall : ∀ now, stage now = .closed → ∀ {α : Type} (call : Call α),
      Silent known e (run call) now) (before : s) (steps : List (Step Call)) :
    let closed := (closing.run.run before).2
    let later := Step.leaveAll run closing steps closed
    later = closed ∧ stage later = .closed
      ∧ (terminal later).link.frames = (terminal before).link.frames
      ∧ closing.run.run later = (.ok (), later)
      ∧ ∀ {α : Type} (call : Call α), Silent known e (run call) later := by
  intro closed later
  obtain ⟨hlater, hstage, hagain, hsilent⟩ :=
    Step.silent_since h.closed h.again hcall before steps
  refine ⟨hlater, hstage, ?_, hagain, hsilent⟩
  exact (congrArg (fun now => (terminal now).link.frames) hlater).trans
    (h.frames before)

end Closing

-- ================================================================ OpenPGP

namespace OpenPgp.Session

/-- What can be asked of a session, and what it returns. -/
inductive Call : Type → Type
  | getData (object : ObjectId) : Call Bytes
  | putData (object : ObjectId) (content : Bytes) : Call Unit
  | applicationData : Call ApplicationData
  | pinStatus : Call PinStatus
  | signatureCounter : Call Nat
  | verify (use : PinUse) (pin : String) : Call Unit
  | challenge (length : UInt16) : Call Bytes
  | setPinPolicy (policy : PinPolicy) : Call Unit
  | setPinAttempts (attempts : PerPin) : Call Unit
  | reset : Call Unit
  | touchPolicy (slot : Slot) : Call TouchPolicy
  | setTouchPolicy (slot : Slot) (policy : TouchPolicy) : Call Unit
  | algorithmInformation : Call AlgorithmInformation
  | setAttributes (slot : Slot) (a : Attributes) : Call Unit
  | setGenerationTime (slot : Slot) (time : Nat) : Call Unit
  | setFingerprint (slot : Slot) (fingerprint : Bytes) : Call Unit
  | generateRsa (slot : Slot) (bits : UInt16) : Call PublicKey
  | generateEc (slot : Slot) (curve : Curve) : Call PublicKey
  | putKey (slot : Slot) (key : PrivateKey) : Call Unit
  | publicKey (slot : Slot) : Call PublicKey
  | deleteKey (slot : Slot) : Call Unit
  | sign (message : Bytes) : Call Bytes
  | authenticate (message : Bytes) : Call Bytes
  | decrypt (cryptogram : Bytes) : Call Bytes
  | decryptWithPeer (peer : PublicKey) : Call Bytes
  | require (feature : Feature) : Call Unit

/-- Carry a call out. -/
def Call.run [Transport σ] {α : Type} : Call α → Activity σ α
  | getData object => Session.getData object
  | putData object content => Session.putData object content
  | applicationData => Session.applicationData
  | pinStatus => Session.pinStatus
  | signatureCounter => Session.signatureCounter
  | verify use pin => Session.verify use pin
  | challenge length => Session.challenge length
  | setPinPolicy policy => Session.setPinPolicy policy
  | setPinAttempts attempts => Session.setPinAttempts attempts
  | reset => Session.reset
  | touchPolicy slot => Session.touchPolicy slot
  | setTouchPolicy slot policy => Session.setTouchPolicy slot policy
  | algorithmInformation => Session.algorithmInformation
  | setAttributes slot a => Session.setAttributes slot a
  | setGenerationTime slot time => Session.setGenerationTime slot time
  | setFingerprint slot fingerprint => Session.setFingerprint slot fingerprint
  | generateRsa slot bits => Session.generateRsa slot bits
  | generateEc slot curve => Session.generateEc slot curve
  | putKey slot key => Session.putKey slot key
  | publicKey slot => Session.publicKey slot
  | deleteKey slot => Session.deleteKey slot
  | sign message => Session.sign message
  | authenticate message => Session.authenticate message
  | decrypt cryptogram => Session.decrypt cryptogram
  | decryptWithPeer peer => Session.decryptWithPeer peer
  | require feature => Session.require feature

/-- What a session knows, whatever becomes of its terminal. -/
def known (s : Session σ) : Version × ApplicationData :=
  (s.version, s.data)

theorem known_iff {s other : Session σ} :
    other.known = s.known ↔ other.version = s.version ∧ other.data = s.data :=
  Prod.ext_iff

/-- A session hands nothing over for the work. -/
abbrev Quiet {α : Type} (x : Activity σ α) (s : Session σ) : Prop :=
  Silent known (.invalidState .closed) x s

theorem quiet_wellFormed {s : Session σ} {α : Type} (r : Except DataFault α) :
    Quiet (wellFormed r : Activity σ α) s :=
  .settled (r.mapError Error.invalidData) fun other _ =>
    run_wellFormed r other

theorem quiet_require {s : Session σ} (feature : Feature) :
    Quiet (require feature : Activity σ Unit) s := by
  refine .settled ((feature.require s.version).mapError Error.card)
    fun other hother => ?_
  rw [run_require feature other, (known_iff.mp hother).1]

theorem quiet_capabilities {s : Session σ} :
    Quiet (capabilities : Activity σ Capabilities) s := by
  refine .settled (.ok s.data.capabilities) fun other hother => ?_
  rw [run_capabilities other, (known_iff.mp hother).2]

section Quiet

variable [Transport σ] {s : Session σ} {α : Type}
  (hclosed : s.stage = .closed)
include hclosed

/-- A command of a closed session reaches no card. -/
theorem quiet_send (c : Command) : Quiet (send c) s :=
  .refused (send_closed hclosed c)

theorem quiet_perform (c : Command) : Quiet (perform c) s :=
  .refused_then (send_closed hclosed c)

theorem quiet_verify (use : PinUse) (pin : String) :
    Quiet (verify use pin) s :=
  -- the refusal has no status word, so the attempts are not asked for
  .catch_refused (run_bind_error (send_closed hclosed _)) rfl

/-- Whether a length is allowed is known without the card; asking is
refused. -/
theorem quiet_challenge (length : UInt16) : Quiet (challenge length) s := by
  refine .bind quiet_capabilities fun card => ?_
  refine .ite (fun _ => ?_) fun _ => .throw_then _ _
  exact .ite (fun _ => .throw_then _ _) fun _ => quiet_send hclosed _

/-- No attempt is used up, however many are made: each is refused. -/
theorem quiet_exhaust (use : PinUse) (attempts : Nat) :
    Quiet (exhaust use attempts) s := by
  induction attempts with
  | zero => exact .pure ()
  | succ attempts ih =>
      exact .bind (.catch_refused
        (run_bind_error (send_closed hclosed _)) rfl) fun _ => ih

theorem quiet_reset : Quiet reset s :=
  .bind (quiet_require _) fun _ =>
    .bind (.refused_then (send_closed hclosed _)) fun _ =>
      .bind (quiet_exhaust hclosed _ _) fun _ =>
        .bind (quiet_exhaust hclosed _ _) fun _ =>
          .bind (quiet_perform hclosed _) fun _ => quiet_perform hclosed _

/-- The policy can not be read, and no policy is made up for it. -/
theorem quiet_touchPolicy (slot : Slot) : Quiet (touchPolicy slot) s := by
  have hread : ((some <$> getData slot.touchPolicy
      : Activity σ (Option Bytes)).run.run s)
      = (.error (.invalidState .closed), s) := by
    rw [run_map]
    unfold getData
    rw [send_closed hclosed]
    rfl
  refine .bind (.catch_refused hread rfl) fun answer => ?_
  match answer with
  | none => exact .pure _
  | some [] => exact .throw _
  | some (first :: _) => exact quiet_wellFormed _

/-- Setting a policy fails in a check of the version, or in the first of its
commands. -/
theorem quiet_setTouchPolicy (slot : Slot) (policy : TouchPolicy) :
    Quiet (setTouchPolicy slot policy) s := by
  -- from the last check to the first, since each goes on with the next
  have hwrite : ∀ current : TouchPolicy, Quiet (do
      if current.isFixed then throw (.invalidState .fixedTouchPolicy)
      putData slot.touchPolicy policy.bytes) s := fun current =>
    .ite (fun _ => .throw_then _ _) fun _ => quiet_perform hclosed _
  have hcached : ∀ _ : Unit, Quiet (do
      if policy.isCached then require Features.cachedTouch
      let current ← touchPolicy slot
      if current.isFixed then throw (.invalidState .fixedTouchPolicy)
      putData slot.touchPolicy policy.bytes) s := fun _ =>
    .ite (fun _ => .bind (quiet_require _) fun _ =>
        .bind (quiet_touchPolicy hclosed _) hwrite)
      fun _ => .bind (quiet_touchPolicy hclosed _) hwrite
  exact .bind (quiet_require _) fun _ =>
    .ite (fun _ => .bind (quiet_require _) hcached) fun _ => hcached ()

/-- What is known of algorithms without the card is still told. -/
theorem quiet_algorithmInformation : Quiet algorithmInformation s := by
  have hask : Quiet (do
      if s.version.isBelow ⟨5, 2, 0⟩ then return .legacy s.version
      let answer ← getData ObjectId.algorithmInformation
      wellFormed (algorithmList s.version answer)) s :=
    .ite (fun _ => .pure _) fun _ => .refused_then (send_closed hclosed _)
  refine .bind quiet_capabilities fun card =>
    .ite (fun _ => .congr (fun other hother => ?_) hask)
      fun _ => .throw_then _ _
  rw [← (known_iff.mp hother).1]
  rfl

/-- A closed session writes no attributes. -/
theorem quiet_setAttributes (slot : Slot) (a : Attributes) :
    Quiet (setAttributes slot a) s := by
  refine .bind (quiet_algorithmInformation hclosed) fun info => ?_
  match info slot with
  | none => exact .throw _
  | some list =>
      exact .ite (fun _ => quiet_perform hclosed _) fun _ => .throw_then _ _

/-- Preparing a slot may need no card at all, and is refused where it
does. -/
theorem quiet_prepare (slot : Slot) (a : Attributes)
    (fault : UnsupportedFault) : Quiet (prepare slot a fault) s :=
  .bind quiet_capabilities fun _ =>
    .ite (fun _ => quiet_setAttributes hclosed _ _) fun _ =>
      .ite (fun _ => .throw _) fun _ => .pure _

/-- No RSA key is generated. -/
theorem quiet_generateRsa (slot : Slot) (bits : UInt16) :
    Quiet (generateRsa slot bits) s := by
  rw [generateRsa_eq]
  exact .bind (quiet_require _) fun _ =>
    .bind (quiet_prepare hclosed _ _ _) fun _ => .refused_then (send_closed hclosed _)

/-- No key on a curve is generated. -/
theorem quiet_generateEc (slot : Slot) (curve : Curve) :
    Quiet (generateEc slot curve) s :=
  .bind (quiet_require _) fun _ =>
    .bind (quiet_setAttributes hclosed _ _) fun _ =>
      .refused_then (send_closed hclosed _)

theorem quiet_importKey (slot : Slot) (crt : Bool) (key : PrivateKey) :
    Quiet (importKey slot crt key) s :=
  .bind (quiet_wellFormed _) fun _ => quiet_perform hclosed _

/-- What is wrong with a key is told without the card; a right one is not
written. -/
theorem quiet_putKey (slot : Slot) (key : PrivateKey) :
    Quiet (putKey slot key) s := by
  refine .congr (fun other hother => ?_) (.bind
    (quiet_wellFormed (key.attributes slot (s.version.isBelow ⟨4, 0, 0⟩)))
    fun a => .bind (quiet_prepare hclosed slot a .onlyRsa2048)
      fun _ => quiet_importKey hclosed slot (s.version.isBelow ⟨4, 0, 0⟩) key)
  rw [putKey_run, (known_iff.mp hother).1]

/-- Of the two writes of a deletion, already the first is refused. -/
theorem quiet_deleteKey (slot : Slot) : Quiet (deleteKey slot) s := by
  have hdelete : Quiet (do
      if s.version.isBelow ⟨4, 0, 0⟩ then throw (.unsupported .deletion)
      putData slot.attributes (Attributes.rsaOf 4096 .standard).bytes
      setAttributes slot (.rsaOf 2048 .standard)) s :=
    .ite (fun _ => .throw_then _ _) fun _ =>
      .bind (quiet_perform hclosed _) fun _ => quiet_setAttributes hclosed _ _
  refine .congr (fun other hother => ?_) hdelete
  rw [← (known_iff.mp hother).1]
  rfl

/-- The key of the peer may be of the wrong kind; if it is not, nothing is
sent. -/
theorem quiet_decryptWithPeer (peer : PublicKey) :
    Quiet (decryptWithPeer peer) s := by
  unfold decryptWithPeer
  match peer.agreementBytes with
  | some point => exact quiet_send hclosed _
  | none => exact .throw _

/-- A closed session hands nothing over for any call. -/
theorem quiet_call (call : Call α) : Quiet call.run s := by
  cases call with
  | getData object => exact quiet_send hclosed _
  | putData object content => exact quiet_perform hclosed _
  | applicationData => exact .refused_then (send_closed hclosed _)
  | pinStatus => exact .refused_then (send_closed hclosed _)
  | signatureCounter => exact .refused_then (send_closed hclosed _)
  | verify use pin => exact quiet_verify hclosed use pin
  | challenge length => exact quiet_challenge hclosed length
  | setPinPolicy policy => exact quiet_perform hclosed _
  | setPinAttempts attempts =>
      exact .bind (quiet_require _) fun _ => quiet_perform hclosed _
  | reset => exact quiet_reset hclosed
  | touchPolicy slot => exact quiet_touchPolicy hclosed slot
  | setTouchPolicy slot policy =>
      exact quiet_setTouchPolicy hclosed slot policy
  | algorithmInformation => exact quiet_algorithmInformation hclosed
  | setAttributes slot a => exact quiet_setAttributes hclosed slot a
  | setGenerationTime slot time => exact quiet_perform hclosed _
  | setFingerprint slot fingerprint => exact quiet_perform hclosed _
  | generateRsa slot bits => exact quiet_generateRsa hclosed slot bits
  | generateEc slot curve => exact quiet_generateEc hclosed slot curve
  | putKey slot key => exact quiet_putKey hclosed slot key
  | publicKey slot => exact .refused_then (send_closed hclosed _)
  | deleteKey slot => exact quiet_deleteKey hclosed slot
  | sign message =>
      exact .bind (.bind (.refused_then (send_closed hclosed _)) fun _ => .pure _)
        fun _ => .bind (quiet_send hclosed _) fun _ => .pure _
  | authenticate message =>
      exact .bind (.bind (.refused_then (send_closed hclosed _)) fun _ => .pure _)
        fun _ => .bind (quiet_send hclosed _) fun _ => .pure _
  | decrypt cryptogram => exact quiet_send hclosed _
  | decryptWithPeer peer => exact quiet_decryptWithPeer hclosed peer
  | require feature => exact quiet_require feature

end Quiet

/-- A session with the OpenPGP application closes as sessions do. -/
theorem closes [Transport σ] : Closes Session.stage Session.terminal
    (close : Activity σ Unit) :=
  closes_of_mark (fun now => ⟨now.stage.advance_closed, rfl⟩)
    fun _ => ⟨rfl, rfl⟩

end OpenPgp.Session

-- =================================================================== FIDO

namespace Fido.Session

open ClientPin (ask need)

/-- What can be asked of a session, by itself or as the client of PIN
operations, and what it returns. -/
inductive Call : Type → Type
  | send (command : UInt8) (payload : Option Cbor) : Call (Option Cbor)
  | getInfo : Call Info
  | reset : Call Unit
  | selection : Call Unit
  | clientPin (request : PinRequest) : Call PinResponse
  | pinRetries (pin : ClientPin) : Call (UInt8 × Option Bool)
  | uvRetries (pin : ClientPin) : Call UInt8
  | sharedSecret (pin : ClientPin) (fresh : P256.Scalar) :
      Call (PublicKey × SharedSecret)
  | token (pin : ClientPin) (fresh : Fresh) (secretPin : Option String)
      (permissions : Option Permissions) (rpId : Option String) : Call Token
  | setPin (pin : ClientPin) (fresh : Fresh) (newPin : String) : Call Unit
  | changePin (pin : ClientPin) (fresh : Fresh)
      (currentPin newPin : String) : Call Unit

/-- Carry a call out. -/
def Call.run [Transport σ] {α : Type} : Call α → Activity σ α
  | send command payload => Session.send command payload
  | getInfo => Session.getInfo
  | reset => Session.reset
  | selection => Session.selection
  | clientPin request => Session.clientPin request
  | pinRetries pin => pin.pinRetries
  | uvRetries pin => pin.uvRetries
  | sharedSecret pin fresh => pin.sharedSecret fresh
  | token pin fresh secretPin permissions rpId =>
      pin.token fresh secretPin permissions rpId
  | setPin pin fresh newPin => pin.setPin fresh newPin
  | changePin pin fresh currentPin newPin =>
      pin.changePin fresh currentPin newPin

/-- A session hands nothing over for the work; what it knows is what the
authenticator told when it was opened. -/
abbrev Quiet {α : Type} (x : Activity σ α) (s : Session σ) : Prop :=
  Silent Session.info .closed x s

section Quiet

variable [Transport σ] {s : Session σ} {α : Type}
  (hclosed : s.stage = .closed)
include hclosed

/-- A closed session refuses a command. -/
theorem send_closed (command : UInt8) (payload : Option Cbor) :
    (send command payload).run.run s = (.error .closed, s) :=
  run_guard_refused hclosed

/-- Whether there is a selection command is known from the start; the
command is refused. -/
theorem quiet_selection : Quiet selection s := by
  by_cases h : s.info.newestVersion = some .fido21
  · refine .refused ?_
    unfold selection
    rw [run_bind_ok (run_get s), h]
    exact run_bind_error (send_closed hclosed selectionCommand none)
  · refine .settled (.error (.unsupported .selection)) fun other hother => ?_
    unfold selection
    rw [run_bind_ok (run_get other), hother]
    split
    · next hnewest => exact absurd hnewest h
    · rfl

/-- A client that is closed does not ask. -/
theorem quiet_ask_then (request : PinRequest)
    (f : PinResponse → Activity σ α) : Quiet (ask request >>= f) s :=
  .refused_then (run_bind_error (send_closed hclosed clientPinCommand _))

/-- Without an answer of the authenticator, no secret is shared. -/
theorem quiet_sharedSecret (pin : ClientPin) (fresh : P256.Scalar) :
    Quiet (pin.sharedSecret fresh : Activity σ _) s :=
  quiet_ask_then hclosed _ _

theorem quiet_uvRetries (pin : ClientPin) :
    Quiet (pin.uvRetries : Activity σ UInt8) s :=
  .ite (fun _ => .throw_then _ _) fun _ => quiet_ask_then hclosed _ _

/-- A request that is not allowed is refused for that; any other is not
made. -/
theorem quiet_token (pin : ClientPin) (fresh : Fresh)
    (secretPin : Option String) (permissions : Option Permissions)
    (rpId : Option String) :
    Quiet (pin.token fresh secretPin permissions rpId : Activity σ Token) s :=
  .bind (.lift _) fun _ => .bind (.lift _) fun _ =>
    .bind (quiet_sharedSecret hclosed pin _) fun _ => .bind (.lift _) fun _ =>
      quiet_ask_then hclosed _ _

/-- A PIN of the wrong form is refused for that; any other is not sent. -/
theorem quiet_setPin (pin : ClientPin) (fresh : Fresh) (newPin : String) :
    Quiet (pin.setPin fresh newPin : Activity σ Unit) s :=
  .bind (.lift _) fun _ =>
    .bind (quiet_sharedSecret hclosed pin _) fun _ => .bind (.lift _) fun _ =>
      quiet_ask_then hclosed _ _

/-- Both PINs are looked at before the client would ask. -/
theorem quiet_changePin (pin : ClientPin) (fresh : Fresh)
    (currentPin newPin : String) :
    Quiet (pin.changePin fresh currentPin newPin : Activity σ Unit) s :=
  .bind (.lift _) fun _ => .bind (.lift _) fun _ =>
    .bind (quiet_sharedSecret hclosed pin _) fun _ => .bind (.lift _) fun _ =>
      .bind (.lift _) fun _ => quiet_ask_then hclosed _ _

/-- A closed session hands nothing over for any call. -/
theorem quiet_call (call : Call α) : Quiet call.run s := by
  cases call with
  | send command payload => exact .refused (send_closed hclosed _ _)
  | getInfo => exact .refused_then (send_closed hclosed _ _)
  | reset => exact .refused_then (send_closed hclosed _ _)
  | selection => exact quiet_selection hclosed
  | clientPin request => exact .refused_then (send_closed hclosed _ _)
  | pinRetries pin => exact quiet_ask_then hclosed _ _
  | uvRetries pin => exact quiet_uvRetries hclosed pin
  | sharedSecret pin fresh => exact quiet_sharedSecret hclosed pin fresh
  | token pin fresh secretPin permissions rpId =>
      exact quiet_token hclosed pin fresh secretPin permissions rpId
  | setPin pin fresh newPin => exact quiet_setPin hclosed pin fresh newPin
  | changePin pin fresh currentPin newPin =>
      exact quiet_changePin hclosed pin fresh currentPin newPin

end Quiet

/-- A session with the FIDO application closes as sessions do. -/
theorem closes [Transport σ] : Closes Session.stage Session.terminal
    (close : Activity σ Unit) :=
  closes_of_mark (fun now => ⟨now.stage.advance_closed, rfl⟩)
    fun _ => ⟨rfl, rfl⟩

end Fido.Session

-- ============================================================== silence

/-- A closed session is silent. However the closing of a session ended, and
whatever is asked of it afterwards, the session and its terminal stay as
closing left them, closed and with nothing handed over; closing again is
fine; and each call is refused because the session is closed, or it is one
that ends in the same way without a card. -/
theorem closed_sessions_silent [Transport σ] :
    (∀ (s : OpenPgp.Session σ) (steps : List (Step OpenPgp.Session.Call)),
      let closed := (OpenPgp.Session.close.run.run s).2
      let later := Step.leaveAll OpenPgp.Session.Call.run
        OpenPgp.Session.close steps closed
      later = closed ∧ later.stage = .closed
        ∧ later.terminal.link.frames = s.terminal.link.frames
        ∧ OpenPgp.Session.close.run.run later = (.ok (), later)
        ∧ ∀ {α : Type} (call : OpenPgp.Session.Call α),
          Silent OpenPgp.Session.known (.invalidState .closed) call.run later)
    ∧ ∀ (s : Fido.Session σ) (steps : List (Step Fido.Session.Call)),
      let closed := (Fido.Session.close.run.run s).2
      let later := Step.leaveAll Fido.Session.Call.run
        Fido.Session.close steps closed
      later = closed ∧ later.stage = .closed
        ∧ later.terminal.link.frames = s.terminal.link.frames
        ∧ Fido.Session.close.run.run later = (.ok (), later)
        ∧ ∀ {α : Type} (call : Fido.Session.Call α),
          Silent Fido.Session.info .closed call.run later := by
  constructor
  · intro s steps
    exact OpenPgp.Session.closes.silent_since
      (fun _ hnow => OpenPgp.Session.quiet_call hnow) s steps
  · intro s steps
    exact Fido.Session.closes.silent_since
      (fun _ hnow => Fido.Session.quiet_call hnow) s steps

end SmartCard
