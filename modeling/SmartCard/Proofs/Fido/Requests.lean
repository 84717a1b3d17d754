/-
What an authenticator is asked when a PIN is used, set or changed. A PIN
that the rules do not allow is refused before anything is asked. Otherwise
there is one request for the authenticator's key, and, if a key on the curve
comes back, one request about the PIN, which is one of five (`Asks`).

# The five requests

Each carries the platform's public key of this agreement. Of the PIN there
is only what was encrypted under the secret of this agreement: the digest
where the PIN is shown, the padded PIN where it becomes the new one. Where a
PIN is set or changed, a code over the encrypted parts goes with them.
Permissions and relying party are asked for in two of the five.

# Why encryption does not fail

Encryption refuses a message that is not whole blocks. The digest is one
block and the padded PIN is four, so an operation that got as far never
fails for that (`length_digest`, `length_buffer`).
-/
import SmartCard.Proofs.Fido.Agreement

namespace SmartCard.Fido

-- ================================================================ PIN rules

namespace Pin

/-- A PIN of four characters or more, and 63 octets or fewer. -/
def Allowed (text : String) : Prop :=
  4 ≤ text.length ∧ (Utf8.encode text).length ≤ 63

/-- A PIN is not allowed for having too few characters, or too many
octets. -/
theorem not_allowed_iff {text : String} :
    ¬ Allowed text ↔ text.length < 4 ∨ 63 < (Utf8.encode text).length := by
  unfold Allowed
  omega

/-- A PIN as it becomes the new one: 64 octets, zeros behind it. -/
def buffer (text : String) : Bytes :=
  Utf8.encode text ++ List.replicate (64 - (Utf8.encode text).length) 0

/-- A PIN as it is shown: half a digest. -/
def digest (text : String) : Bytes :=
  (Sha256.digest (Utf8.encode text)).toList.take 16

/-- The check accepts allowed PINs. -/
theorem validate_allowed {text : String} (h : Allowed text) :
    validate text = .ok () := by
  unfold validate
  rw [if_neg (Nat.not_lt.mpr h.1), if_neg (Nat.not_lt.mpr h.2)]

/-- Any other is refused, with what is wrong with it. -/
theorem validate_refused {text : String} (h : ¬ Allowed text) :
    ∃ fault, validate text = .error (.invalidPin fault) := by
  unfold validate
  by_cases hshort : text.length < 4
  · exact ⟨.tooShort, if_pos hshort⟩
  · rw [if_neg hshort]
    have hlong : (Utf8.encode text).length > 63 := by
      unfold Allowed at h
      omega
    exact ⟨.tooLong, if_pos hlong⟩

/-- An allowed PIN is padded. -/
theorem padded_allowed {text : String} (h : Allowed text) :
    padded text = .ok (buffer text) := by
  unfold padded plain
  rw [validate_allowed h]
  rfl

theorem padded_refused {text : String} (h : ¬ Allowed text) :
    ∃ fault, padded text = .error (.invalidPin fault) := by
  obtain ⟨fault, hfault⟩ := validate_refused h
  refine ⟨fault, ?_⟩
  unfold padded plain
  rw [hfault]
  rfl

/-- An allowed PIN is shown by half its digest. -/
theorem hash_allowed {text : String} (h : Allowed text) :
    hash text = .ok (digest text) := by
  unfold hash plain
  rw [validate_allowed h]
  rfl

theorem hash_refused {text : String} (h : ¬ Allowed text) :
    ∃ fault, hash text = .error (.invalidPin fault) := by
  obtain ⟨fault, hfault⟩ := validate_refused h
  refine ⟨fault, ?_⟩
  unfold hash plain
  rw [hfault]
  rfl

/-- A padded PIN is four blocks. -/
theorem length_buffer {text : String} (h : Allowed text) :
    (buffer text).length = 64 := by
  unfold buffer
  rw [List.length_append, List.length_replicate]
  have := h.2
  omega

theorem length_digest (text : String) : (digest text).length = 16 := by
  unfold digest
  rw [List.length_take, Vector.length_toList]
  rfl

end Pin

/-- A message of whole blocks is encrypted, whatever the secret. -/
theorem encrypt_total (protocol : AuthProtocol) (iv : Block)
    {message : Bytes} (h : message.length % 16 = 0) :
    ∃ ciphertext : SharedSecret → Bytes, ∀ secret,
      protocol.encrypt iv secret message = .ok (ciphertext secret) := by
  have hone : ∀ secret, ∃ ciphertext,
      protocol.encrypt iv secret message = .ok ciphertext := by
    intro secret
    unfold AuthProtocol.encrypt
    rw [if_neg (by omega)]
    cases protocol with
    | one => exact ⟨_, rfl⟩
    | two => exact ⟨_, rfl⟩
  exact ⟨fun secret => (hone secret).choose,
    fun secret => (hone secret).choose_spec⟩

/-- The digest of a PIN is one block, so it is encrypted. -/
theorem encrypt_digest (pin : ClientPin) (fresh : Fresh) (text : String) :
    ∃ shown : SharedSecret → Bytes, ∀ secret,
      pin.protocol.encrypt fresh.pinHashIv secret (Pin.digest text)
        = .ok (shown secret) := by
  refine encrypt_total pin.protocol fresh.pinHashIv ?_
  rw [Pin.length_digest]

/-- A PIN that is allowed fills four blocks, so it is encrypted. -/
theorem encrypt_buffer (pin : ClientPin) (fresh : Fresh) {text : String}
    (h : Pin.Allowed text) :
    ∃ sealedPin : SharedSecret → Bytes, ∀ secret,
      pin.protocol.encrypt fresh.newPinIv secret (Pin.buffer text)
        = .ok (sealedPin secret) := by
  refine encrypt_total pin.protocol fresh.newPinIv ?_
  rw [Pin.length_buffer h]

/-- Decryption does not fail as encryption does. -/
theorem decrypt_clean (protocol : AuthProtocol) (secret : SharedSecret)
    (message : Bytes) :
    protocol.decrypt secret message ≠ .error (.crypto .plaintextAlignment) := by
  have hfrom : ∀ iv ciphertext, AuthProtocol.decryptFrom iv secret ciphertext
      ≠ .error (.crypto .plaintextAlignment) := by
    intro iv ciphertext h
    unfold AuthProtocol.decryptFrom at h
    split at h
    · cases h
    · cases h
  unfold AuthProtocol.decrypt
  cases protocol with
  | one => exact hfrom _ _
  | two =>
      intro h
      simp only [] at h
      split at h
      · cases h
      · exact hfrom _ _ h

-- =============================================================== operations

/-- What is done with a PIN. -/
inductive Operation
  /-- Obtain a token. -/
  | token (secretPin : Option String) (permissions : Option Permissions)
      (rpId : Option String)
  /-- Set the first PIN. -/
  | setPin (newPin : String)
  /-- Replace the PIN. -/
  | changePin (currentPin newPin : String)

namespace Operation

/-- Carry out an operation; only a token is returned. -/
def run {κ : Type} [PinClient κ] (pin : ClientPin) (fresh : Fresh) :
    Operation → Dialogue κ (Option Token)
  | token secretPin permissions rpId =>
      some <$> pin.token fresh secretPin permissions rpId
  | setPin newPin => (fun _ => none) <$> pin.setPin fresh newPin
  | changePin currentPin newPin =>
      (fun _ => none) <$> pin.changePin fresh currentPin newPin

/-- The PINs that an operation is given. -/
def pins : Operation → List String
  | token secretPin _ _ => secretPin.toList
  | setPin newPin => [newPin]
  | changePin currentPin newPin => [currentPin, newPin]

/-- An operation that is not to ask anything: a PIN is too short or too
long, or there is none and the authenticator can not do without. -/
def Refused (version : FidoVersion) (op : Operation) : Prop :=
  (∃ text ∈ op.pins, text.length < 4 ∨ 63 < (Utf8.encode text).length)
    ∨ op.pins = [] ∧ version.rank < FidoVersion.fido21.rank

end Operation

/-- The request of an operation behind an agreement with this secret. -/
inductive Asks (pin : ClientPin) (fresh : Fresh) (secret : SharedSecret) :
    Operation → PinRequest → Prop
  | tokenByPin {text : String} {permissions : Option Permissions}
      {rpId : Option String} {shown : Bytes} :
      pin.version = .fido21 →
      pin.protocol.encrypt fresh.pinHashIv secret (Pin.digest text)
        = .ok shown →
      Asks pin fresh secret (.token (some text) permissions rpId) {
        protocol := pin.protocol.number
        subCommand := 0x09
        keyAgreement := some (.ofPoint fresh.scalar.publicKey)
        pinHashEnc := some shown
        permissions
        rpId }
  | tokenByUv {permissions : Option Permissions} {rpId : Option String} :
      pin.version = .fido21 →
      Asks pin fresh secret (.token none permissions rpId) {
        protocol := pin.protocol.number
        subCommand := 0x06
        keyAgreement := some (.ofPoint fresh.scalar.publicKey)
        permissions
        rpId }
  | pinToken {text : String} {permissions : Option Permissions}
      {rpId : Option String} {shown : Bytes} :
      pin.version ≠ .fido21 →
      pin.protocol.encrypt fresh.pinHashIv secret (Pin.digest text)
        = .ok shown →
      Asks pin fresh secret (.token (some text) permissions rpId) {
        protocol := pin.protocol.number
        subCommand := 0x05
        keyAgreement := some (.ofPoint fresh.scalar.publicKey)
        pinHashEnc := some shown }
  | setPin {text : String} {sealedPin : Bytes} :
      pin.protocol.encrypt fresh.newPinIv secret (Pin.buffer text)
        = .ok sealedPin →
      Asks pin fresh secret (.setPin text) {
        protocol := pin.protocol.number
        subCommand := 0x03
        keyAgreement := some (.ofPoint fresh.scalar.publicKey)
        authParam := some (pin.protocol.authenticate
          secret.authentication.toList sealedPin)
        newPinEnc := some sealedPin
        permissions := some Permissions.credentialManagement }
  | changePin {current text : String} {shown sealedPin : Bytes} :
      pin.protocol.encrypt fresh.pinHashIv secret (Pin.digest current)
        = .ok shown →
      pin.protocol.encrypt fresh.newPinIv secret (Pin.buffer text)
        = .ok sealedPin →
      Asks pin fresh secret (.changePin current text) {
        protocol := pin.protocol.number
        subCommand := 0x04
        keyAgreement := some (.ofPoint fresh.scalar.publicKey)
        authParam := some (pin.protocol.authenticate
          secret.authentication.toList (sealedPin ++ shown))
        newPinEnc := some sealedPin
        pinHashEnc := some shown
        permissions := if pin.version = .fido20 then none
          else some Permissions.credentialManagement }

namespace Operation

/-- The token in an answer, in the clear. -/
def tokenOf (pin : ClientPin) (secret : SharedSecret)
    (response : PinResponse) : Except Error Token :=
  match response.token with
  | none => .error (.invalidResponse (.missing "pinUvAuthToken"))
  | some sealedToken => (pin.protocol.decrypt secret sealedToken).map Token.mk

/-- How an operation ends with the answer to its request. -/
def finish (pin : ClientPin) (op : Operation) (secret : SharedSecret)
    (response : PinResponse) : Except Error (Option Token) :=
  match op with
  | token _ _ _ => (tokenOf pin secret response).map some
  | setPin _ => .ok none
  | changePin _ _ => .ok none

/-- No operation ends as encryption fails. -/
theorem finish_clean (pin : ClientPin) (op : Operation)
    (secret : SharedSecret) (response : PinResponse) :
    op.finish pin secret response ≠ .error (.crypto .plaintextAlignment) := by
  intro h
  cases op with
  | token secretPin permissions rpId =>
      unfold finish tokenOf at h
      cases htoken : response.token with
      | none =>
          simp only [htoken] at h
          cases h
      | some sealedToken =>
          simp only [htoken] at h
          cases hplain : pin.protocol.decrypt secret sealedToken with
          | ok octets =>
              rw [hplain] at h
              cases h
          | error e =>
              rw [hplain] at h
              cases h
              exact decrypt_clean _ _ _ hplain
  | setPin newPin => cases h
  | changePin currentPin newPin => cases h

variable {κ : Type} [PinClient κ]

/-- An operation that is not refused is two requests, and the second is one
of the five. -/
def Proceeds (pin : ClientPin) (fresh : Fresh) (op : Operation) : Prop :=
  ∃ request : SharedSecret → PinRequest,
    (∀ secret, Asks pin fresh secret op (request secret))
    ∧ ∀ (κ : Type) [PinClient κ] (client : κ),
      (op.run pin fresh).run.run client
        = pin.twoRequests fresh.scalar request (op.finish pin) client

/-- Setting an allowed PIN asks for the one request that sets it. -/
theorem setPin_proceeds (pin : ClientPin) (fresh : Fresh) {newPin : String}
    (h : Pin.Allowed newPin) : (setPin newPin).Proceeds pin fresh := by
  obtain ⟨sealedPin, hsealed⟩ := encrypt_buffer pin fresh h
  refine ⟨_, fun secret => .setPin (hsealed secret), ?_⟩
  intro κ _ client
  refine ClientPin.mapped_run (fun _ => none) (fun _ _ => .ok ()) ?_
  unfold ClientPin.setPin
  rw [run_check_ok (Pin.padded_allowed h)]
  refine ClientPin.agreed_run pin fresh.scalar (fun secret mid => ?_) client
  rw [run_check_ok (hsealed secret)]
  exact ClientPin.ask_then_run (fun _ _ => rfl) mid

/-- Changing one allowed PIN into another asks for the one request that does
so. -/
theorem changePin_proceeds (pin : ClientPin) (fresh : Fresh)
    {currentPin newPin : String} (hcurrent : Pin.Allowed currentPin)
    (hnew : Pin.Allowed newPin) :
    (changePin currentPin newPin).Proceeds pin fresh := by
  obtain ⟨sealedPin, hsealed⟩ := encrypt_buffer pin fresh hnew
  obtain ⟨shown, hshown⟩ := encrypt_digest pin fresh currentPin
  refine ⟨_, fun secret => .changePin (hshown secret) (hsealed secret), ?_⟩
  intro κ _ client
  refine ClientPin.mapped_run (fun _ => none) (fun _ _ => .ok ()) ?_
  unfold ClientPin.changePin
  rw [run_check_ok (Pin.padded_allowed hnew),
    run_check_ok (Pin.hash_allowed hcurrent)]
  refine ClientPin.agreed_run pin fresh.scalar (fun secret mid => ?_) client
  rw [run_check_ok (hshown secret), run_check_ok (hsealed secret)]
  exact ClientPin.ask_then_run (fun _ _ => rfl) mid

theorem hashOf_some (text : String) :
    ClientPin.hashOf (some text) = (Pin.hash text).map some := rfl

/-- Before the newest version there is one way to a token, by PIN. -/
theorem tokenCommand_older {version : FidoVersion} (h : version ≠ .fido21)
    (withPin : Bool) :
    ClientPin.tokenCommand version withPin
      = if withPin then .ok .pinToken else .error (.invalidPin .required) := by
  cases version with
  | fido21 => exact absurd rfl h
  | u2f => cases withPin <;> rfl
  | fido20 => cases withPin <;> rfl
  | fido21Preview => cases withPin <;> rfl

theorem encryptHash_some (pin : ClientPin) (fresh : Fresh)
    (secret : SharedSecret) (hash : Bytes) :
    pin.encryptHash fresh secret (some hash)
      = (pin.protocol.encrypt fresh.pinHashIv secret hash).map some := rfl

/-- The checks of a token passed: what is left is two requests. -/
theorem token_run {pin : ClientPin} {fresh : Fresh}
    {secretPin : Option String} {hash : Option Bytes} {command : SubCommand}
    {shown : SharedSecret → Option Bytes}
    (hhash : ClientPin.hashOf secretPin = .ok hash)
    (hcommand : ClientPin.tokenCommand pin.version hash.isSome = .ok command)
    (hshown : ∀ secret, pin.encryptHash fresh secret hash = .ok (shown secret))
    (permissions : Option Permissions) (rpId : Option String) (client : κ) :
    (pin.token fresh secretPin permissions rpId).run.run client
      = pin.twoRequests fresh.scalar (fun secret => {
          PinRequest.bare pin.protocol command with
          keyAgreement := some (.ofPoint fresh.scalar.publicKey)
          pinHashEnc := shown secret
          permissions := if command ≠ .pinToken then permissions else none
          rpId := if command ≠ .pinToken then rpId else none })
        (tokenOf pin) client := by
  unfold ClientPin.token
  rw [run_check_ok hhash, run_check_ok hcommand]
  refine ClientPin.agreed_run pin fresh.scalar (fun secret mid => ?_) client
  rw [run_check_ok (hshown secret)]
  refine ClientPin.ask_then_run (fun response after => ?_) mid
  unfold tokenOf
  have hneed := ClientPin.need_run "pinUvAuthToken" response.token after
  cases htoken : response.token with
  | none =>
      rw [htoken] at hneed
      exact run_bind_error hneed
  | some sealedToken =>
      rw [htoken] at hneed
      rw [run_bind_ok hneed]
      show _ = ((pin.protocol.decrypt secret sealedToken).map Token.mk, after)
      generalize pin.protocol.decrypt secret sealedToken = plain
      cases plain <;> rfl

/-- A token is asked for by the command of the version, and by the PIN if
there is one. -/
theorem token_proceeds (pin : ClientPin) (fresh : Fresh)
    {secretPin : Option String} (permissions : Option Permissions)
    (rpId : Option String) (h : ∀ text ∈ secretPin, Pin.Allowed text)
    (hnone : secretPin = none → pin.version = .fido21) :
    (token secretPin permissions rpId).Proceeds pin fresh := by
  cases secretPin with
  | none =>
      have hversion := hnone rfl
      have hhash : ClientPin.hashOf none = .ok none := rfl
      have hcommand : ClientPin.tokenCommand pin.version false
          = .ok .tokenByUv := by
        rw [hversion]
        rfl
      have hshown : ∀ secret, pin.encryptHash fresh secret none
          = .ok ((fun _ => none : SharedSecret → Option Bytes) secret) :=
        fun _ => rfl
      refine ⟨_, fun secret => .tokenByUv hversion, fun κ _ client => ?_⟩
      exact ClientPin.mapped_run some (tokenOf pin)
        (token_run hhash hcommand hshown permissions rpId client)
  | some text =>
      have hhash : ClientPin.hashOf (some text)
          = .ok (some (Pin.digest text)) := by
        rw [hashOf_some, Pin.hash_allowed (h text rfl)]
        rfl
      obtain ⟨shown, hshown⟩ := encrypt_digest pin fresh text
      have hsome : ∀ secret,
          pin.encryptHash fresh secret (some (Pin.digest text))
            = .ok (some (shown secret)) := by
        intro secret
        rw [encryptHash_some, hshown secret]
        rfl
      -- by PIN, only the newest version also takes permissions
      by_cases hversion : pin.version = .fido21
      · have hcommand : ClientPin.tokenCommand pin.version true
            = .ok .tokenByPin := by
          rw [hversion]
          rfl
        refine ⟨_, fun secret => .tokenByPin hversion (hshown secret),
          fun κ _ client => ?_⟩
        exact ClientPin.mapped_run some (tokenOf pin)
          (token_run hhash hcommand hsome permissions rpId client)
      · have hcommand : ClientPin.tokenCommand pin.version true
            = .ok .pinToken := tokenCommand_older hversion true
        refine ⟨_, fun secret => .pinToken hversion (hshown secret),
          fun κ _ client => ?_⟩
        exact ClientPin.mapped_run some (tokenOf pin)
          (token_run hhash hcommand hsome permissions rpId client)

/-- An operation is refused without a word to the client. -/
def Halts (pin : ClientPin) (fresh : Fresh) (op : Operation) : Prop :=
  ∃ fault, ∀ (κ : Type) [PinClient κ] (client : κ),
    (op.run pin fresh).run.run client = (.error (.invalidPin fault), client)

/-- A PIN that is not allowed is not set. -/
theorem setPin_halts (pin : ClientPin) (fresh : Fresh) {newPin : String}
    (h : ¬ Pin.Allowed newPin) : (setPin newPin).Halts pin fresh := by
  obtain ⟨fault, hfault⟩ := Pin.padded_refused h
  refine ⟨fault, fun κ _ client => ?_⟩
  rw [run, run_map, ClientPin.setPin, run_check_error hfault]
  rfl

/-- The new PIN is looked at first. -/
theorem changePin_halts (pin : ClientPin) (fresh : Fresh)
    {currentPin newPin : String}
    (h : ¬ Pin.Allowed newPin ∨ ¬ Pin.Allowed currentPin) :
    (changePin currentPin newPin).Halts pin fresh := by
  by_cases hnew : Pin.Allowed newPin
  · have hcurrent := h.resolve_left (fun hbad => hbad hnew)
    obtain ⟨fault, hfault⟩ := Pin.hash_refused hcurrent
    refine ⟨fault, fun κ _ client => ?_⟩
    rw [run, run_map, ClientPin.changePin,
      run_check_ok (Pin.padded_allowed hnew), run_check_error hfault]
    rfl
  · obtain ⟨fault, hfault⟩ := Pin.padded_refused hnew
    refine ⟨fault, fun κ _ client => ?_⟩
    rw [run, run_map, ClientPin.changePin, run_check_error hfault]
    rfl

/-- A PIN that is not allowed gets no token. -/
theorem token_halts (pin : ClientPin) (fresh : Fresh) {text : String}
    (permissions : Option Permissions) (rpId : Option String)
    (h : ¬ Pin.Allowed text) :
    (token (some text) permissions rpId).Halts pin fresh := by
  obtain ⟨fault, hfault⟩ := Pin.hash_refused h
  have hhash : ClientPin.hashOf (some text) = .error (.invalidPin fault) := by
    rw [hashOf_some, hfault]
    rfl
  refine ⟨fault, fun κ _ client => ?_⟩
  rw [run, run_map, ClientPin.token, run_check_error hhash]
  rfl

/-- Nor does anything without a PIN, before the newest version. -/
theorem tokenWithoutPin_halts (pin : ClientPin) (fresh : Fresh)
    (permissions : Option Permissions) (rpId : Option String)
    (h : pin.version ≠ .fido21) :
    (token none permissions rpId).Halts pin fresh := by
  have hhash : ClientPin.hashOf none = .ok none := rfl
  have hcommand : ClientPin.tokenCommand pin.version
      (none : Option Bytes).isSome = .error (.invalidPin .required) :=
    tokenCommand_older h false
  refine ⟨.required, fun κ _ client => ?_⟩
  rw [run, run_map, ClientPin.token, run_check_ok hhash,
    run_check_error hcommand]
  rfl

/-- The newest version is the one that is not before it. -/
theorem rank_lt_iff (version : FidoVersion) :
    version.rank < FidoVersion.fido21.rank ↔ version ≠ .fido21 := by
  cases version <;> decide

/-- An operation is refused, or it goes through its two requests. -/
theorem run_cases (pin : ClientPin) (fresh : Fresh) (op : Operation) :
    (op.Refused pin.version ∧ op.Halts pin fresh)
      ∨ (¬ op.Refused pin.version ∧ op.Proceeds pin fresh) := by
  unfold Refused
  rw [rank_lt_iff]
  simp only [← Pin.not_allowed_iff]
  cases op with
  | token secretPin permissions rpId =>
      cases secretPin with
      | none =>
          by_cases hversion : pin.version = .fido21
          · refine Or.inr ⟨?_, token_proceeds pin fresh permissions rpId
              (fun _ h => by cases h) (fun _ => hversion)⟩
            simp [pins, hversion]
          · refine Or.inl ⟨Or.inr ⟨rfl, hversion⟩, ?_⟩
            exact tokenWithoutPin_halts pin fresh permissions rpId hversion
      | some text =>
          by_cases hpin : Pin.Allowed text
          · refine Or.inr ⟨?_, token_proceeds pin fresh permissions rpId
              (fun _ h => ?_) (fun h => by cases h)⟩
            · simp [pins, hpin]
            · cases h
              exact hpin
          · refine Or.inl ⟨Or.inl ⟨text, ?_, hpin⟩, ?_⟩
            · exact List.mem_singleton_self text
            · exact token_halts pin fresh permissions rpId hpin
  | setPin newPin =>
      by_cases hpin : Pin.Allowed newPin
      · refine Or.inr ⟨?_, setPin_proceeds pin fresh hpin⟩
        simp [pins, hpin]
      · refine Or.inl ⟨Or.inl ⟨newPin, ?_, hpin⟩, setPin_halts pin fresh hpin⟩
        exact List.mem_singleton_self newPin
  | changePin currentPin newPin =>
      by_cases hpins : Pin.Allowed newPin ∧ Pin.Allowed currentPin
      · refine Or.inr ⟨?_, changePin_proceeds pin fresh hpins.2 hpins.1⟩
        simp [pins, hpins]
      · have hone := Classical.not_and_iff_not_or_not.mp hpins
        refine Or.inl ⟨Or.inl ?_, changePin_halts pin fresh hone⟩
        rcases hone with hnew | hcurrent
        · exact ⟨newPin, by simp [pins], hnew⟩
        · exact ⟨currentPin, by simp [pins], hcurrent⟩

/-- What is asked when a PIN is used, set or changed, by any client, under
any version and protocol, with any strings. The client goes through the
operation unchanged by being watched. An operation with a PIN that is too
short or too long, or without a PIN where one is needed, is refused as an
invalid PIN, and nothing is asked. Any other operation asks for the
authenticator's key first, with protocol and sub-command and nothing else;
if a key on the curve came back, and only then, it asks one thing more: its
own request, under the secret that this key and the fresh one lead to. And
none fails because encryption would not take a message: a client that says
so was heard saying it. -/
theorem requests_disciplined {κ : Type} [PinClient κ] (pin : ClientPin)
    (fresh : Fresh) (op : Operation) (client : κ) :
    ∃ result after seen,
      (op.run pin fresh).run.run client = (result, after)
      ∧ (op.run pin fresh).run.run (⟨client, []⟩ : Watched κ)
        = (result, ⟨after, seen⟩)
      ∧ (op.Refused pin.version →
        (∃ fault, result = .error (.invalidPin fault))
          ∧ seen = [] ∧ after = client)
      ∧ (¬ op.Refused pin.version →
        let first : PinRequest :=
          { protocol := pin.protocol.number, subCommand := 0x02 }
        let answer := (PinClient.send first client).1
        ((∀ peer, ¬ ClientPin.Meets answer peer) ∧ seen = [(first, answer)])
          ∨ ∃ peer request last,
            ClientPin.Meets answer peer
            ∧ Asks pin fresh (pin.secretWith fresh.scalar peer) op request
            ∧ seen = [(first, answer), (request, last)])
      ∧ (result = .error (.crypto .plaintextAlignment) →
        ∃ asked, (asked, .error (.crypto .plaintextAlignment)) ∈ seen) := by
  rcases run_cases pin fresh op with
    ⟨hrefused, fault, hhalts⟩ | ⟨hfree, request, hasks, hrun⟩
  · refine ⟨.error (.invalidPin fault), client, [], hhalts κ client,
      hhalts (Watched κ) ⟨client, []⟩, ?_, ?_, ?_⟩
    · exact fun _ => ⟨⟨fault, rfl⟩, rfl, rfl⟩
    · exact fun hfree => absurd hrefused hfree
    · intro h
      cases h
  · obtain ⟨result, after, seen, hplain, hwatched, hcourse⟩ :=
      ClientPin.twoRequests_watched pin fresh.scalar request (op.finish pin)
        client []
    refine ⟨result, after, seen, (hrun κ client).trans hplain,
      (hrun (Watched κ) ⟨client, []⟩).trans hwatched, ?_, ?_, ?_⟩
    · exact fun hrefused => absurd hrefused hfree
    · intro _
      cases hcourse with
      | unmet e hunmet _ => exact Or.inl ⟨hunmet, rfl⟩
      | met peer last hmeets =>
          exact Or.inr ⟨peer, _, last, hmeets, hasks _, rfl⟩
    · exact hcourse.clean (op.finish_clean pin)

/-- An authenticator that gives the same key to every request. -/
structure FixedKey where
  peer : PublicKey

instance : PinClient FixedKey where
  send _ client := (.ok { keyAgreement := some client.peer }, client)

/-- An authenticator whose key is on the curve is asked twice when a PIN is
set, the second time for the PIN. -/
theorem requests_disciplined_fixedKey :
    let pin : ClientPin := ⟨.two, .fido21⟩
    let fresh : Fresh :=
      ⟨⟨1, by decide, by decide⟩, Octets.zero 16, Octets.zero 16⟩
    let client : FixedKey := ⟨.ofPoint P256.generator⟩
    ∃ result after first request last,
      ((setPin "0000").run pin fresh).run.run (⟨client, []⟩ : Watched FixedKey)
          = (result, ⟨after, [first, (request, last)]⟩)
        ∧ Asks pin fresh (pin.secretWith fresh.scalar client.peer)
          (setPin "0000") request := by
  intro pin fresh client
  have hfree : ¬ (setPin "0000").Refused pin.version := by
    rintro (⟨text, hmem, hbad⟩ | ⟨hnone, -⟩)
    · rw [List.mem_singleton.mp hmem] at hbad
      exact absurd hbad (by decide)
    · cases hnone
  have hmeets : ClientPin.Meets (.ok { keyAgreement := some client.peer })
      client.peer := ⟨_, rfl, rfl, by decide +kernel⟩
  obtain ⟨result, after, seen, _, hrun, _, hsecond, _⟩ :=
    requests_disciplined pin fresh (setPin "0000") client
  rcases hsecond hfree with
    ⟨hunmet, -⟩ | ⟨peer, request, last, hpeer, hasks, rfl⟩
  · exact absurd hmeets (hunmet _)
  · obtain ⟨response, hok, hkey, -⟩ := hpeer
    cases hok
    cases hkey
    exact ⟨result, after, _, request, last, hrun, hasks⟩

end Operation

end SmartCard.Fido
