/-
What an authenticator makes of the request that an operation sends it. It
holds the private key whose public key it gave, agrees with the key in the
request, and derives its secret from that; the two sides never exchange
more. Under its own secret it then finds in the request what the operation
was about: the new PIN padded, the digest of the old one, and a code that is
the one it computes itself. A token that it sends back encrypted arrives as
it was.

# Two sides, one secret

Everything rests on one equation, that the multiples of each public key by
the other side's private key are the same point (`P256.agree_comm`), so that
both derive one secret (`ClientPin.secretFor_eq`). The rest is encryption
undoing itself (`AuthProtocol.decrypt_encrypt`), and a public key coming out
of its octets as it went in (`PublicKey.point_ofPublicKey`).
-/
import SmartCard.Proofs.Curve.Agreement
import SmartCard.Proofs.Fido.Encryption
import SmartCard.Proofs.Fido.Requests

namespace SmartCard.Fido

-- ============================================================== encryption

/-- Encryption takes whole blocks, and decryption gives them back. -/
theorem AuthProtocol.encrypt_aligned (protocol : AuthProtocol) (iv : Block)
    (secret : SharedSecret) {message : Bytes} (h : 16 ∣ message.length) :
    ∃ ciphertext, protocol.encrypt iv secret message = .ok ciphertext
      ∧ protocol.decrypt secret ciphertext = .ok message := by
  obtain ⟨ciphertext, hsealed⟩ :=
    encrypt_total protocol iv (Nat.mod_eq_zero_of_dvd h)
  exact ⟨ciphertext secret, hsealed secret, decrypt_encrypt (hsealed secret)⟩

-- ==================================================================== keys

/-- Coordinates below 2^256 come out of the octets of a key. -/
theorem PublicKey.point_ofPoint {a : P256.Point}
    (hx : a.x < Nat.pow 256 32) (hy : a.y < Nat.pow 256 32) :
    (ofPoint a).point = a := by
  have hread : ∀ n < Nat.pow 256 32,
      Bytes.toNat (Octets.ofBytes 32 (Bytes.bigEndian 32 n)).toList = n := by
    intro n hn
    rw [Octets.toList_ofBytes (Bytes.length_bigEndian 32 n),
      Bytes.toNat_bigEndian, Nat.mod_eq_of_lt hn]
  unfold point ofPoint
  rw [hread a.x hx, hread a.y hy]

/-- A public key comes out of its octets. -/
theorem PublicKey.point_ofPublicKey (d : P256.Scalar) :
    (ofPoint d.publicKey).point = d.publicKey := by
  have hreduced := ((P256.onCurve_iff _).mp d.publicKey_onCurve).1
  have hp : P256.p < Nat.pow 256 32 := by decide
  exact point_ofPoint (Nat.lt_trans hreduced.1 hp)
    (Nat.lt_trans hreduced.2 hp)

/-- The public key of a private key is a valid one. -/
theorem PublicKey.isValid_ofPublicKey (d : P256.Scalar) :
    (ofPoint d.publicKey).isValid = true := by
  unfold isValid
  rw [point_ofPublicKey]
  exact d.publicKey_onCurve

-- ====================================================== the other side

/-- The secret that the holder of a private key derives when a request comes
in: from its multiple of the key in the request. -/
def secretFor (protocol : AuthProtocol) (device : P256.Scalar)
    (request : PinRequest) : Option SharedSecret :=
  request.keyAgreement.map fun key =>
    protocol.derive (P256.agree device key.point).toList

/-- What is found under a secret in the request of an operation. -/
inductive Finds (protocol : AuthProtocol) (secret : SharedSecret)
    (request : PinRequest) : Operation → Prop
  | setPin {text : String} {sealedPin plain : Bytes} :
      request.newPinEnc = some sealedPin →
      protocol.decrypt secret sealedPin = .ok plain →
      Pin.padded text = .ok plain →
      request.authParam = some (protocol.authenticate
        secret.authentication.toList sealedPin) →
      Finds protocol secret request (.setPin text)
  | changePin {current text : String} {sealedPin shown plain hash : Bytes} :
      request.newPinEnc = some sealedPin →
      protocol.decrypt secret sealedPin = .ok plain →
      Pin.padded text = .ok plain →
      request.pinHashEnc = some shown →
      protocol.decrypt secret shown = .ok hash →
      Pin.hash current = .ok hash →
      request.authParam = some (protocol.authenticate
        secret.authentication.toList (sealedPin ++ shown)) →
      Finds protocol secret request (.changePin current text)
  | tokenByPin {text : String} {permissions : Option Permissions}
      {rpId : Option String} {shown hash : Bytes} :
      request.pinHashEnc = some shown →
      protocol.decrypt secret shown = .ok hash →
      Pin.hash text = .ok hash →
      Finds protocol secret request (.token (some text) permissions rpId)
  | tokenByUv {permissions : Option Permissions} {rpId : Option String} :
      request.pinHashEnc = none →
      Finds protocol secret request (.token none permissions rpId)

/-- Every request behind an agreement has the client's key in it. -/
theorem Asks.keyAgreement_eq {pin : ClientPin} {fresh : Fresh}
    {secret : SharedSecret} {op : Operation} {request : PinRequest}
    (h : Asks pin fresh secret op request) :
    request.keyAgreement = some (.ofPoint fresh.scalar.publicKey) := by
  cases h <;> rfl

/-- Under the secret of the agreement, the request of an operation holds
what the operation was given. -/
theorem Asks.finds {pin : ClientPin} {fresh : Fresh}
    {secret : SharedSecret} {op : Operation} {request : PinRequest}
    (h : Asks pin fresh secret op request)
    (hpins : ∀ text ∈ op.pins, Pin.Allowed text) :
    Finds pin.protocol secret request op := by
  cases h with
  | setPin hsealed =>
      exact .setPin rfl (AuthProtocol.decrypt_encrypt hsealed)
        (Pin.padded_allowed (hpins _ (by simp [Operation.pins]))) rfl
  | changePin hshown hsealed =>
      exact .changePin rfl (AuthProtocol.decrypt_encrypt hsealed)
        (Pin.padded_allowed (hpins _ (by simp [Operation.pins]))) rfl
        (AuthProtocol.decrypt_encrypt hshown)
        (Pin.hash_allowed (hpins _ (by simp [Operation.pins]))) rfl
  | tokenByPin _ hshown =>
      exact .tokenByPin rfl (AuthProtocol.decrypt_encrypt hshown)
        (Pin.hash_allowed (hpins _ (by simp [Operation.pins])))
  | pinToken _ hshown =>
      exact .tokenByPin rfl (AuthProtocol.decrypt_encrypt hshown)
        (Pin.hash_allowed (hpins _ (by simp [Operation.pins])))
  | tokenByUv _ => exact .tokenByUv rfl

namespace ClientPin

variable {κ α : Type} [PinClient κ]

/-- The holder of a private key derives from a request what its sender
derived from the public key. -/
theorem secretFor_eq (pin : ClientPin) (fresh : Fresh)
    (device : P256.Scalar) {request : PinRequest}
    (h : request.keyAgreement = some (.ofPoint fresh.scalar.publicKey)) :
    secretFor pin.protocol device request
      = some (pin.secretWith fresh.scalar (.ofPoint device.publicKey)) := by
  unfold secretFor secretWith
  rw [h, Option.map_some, PublicKey.point_ofPublicKey,
    PublicKey.point_ofPublicKey, P256.agree_comm]

/-- Where a key on the curve was given, both requests are made. -/
theorem twoRequests_met {pin : ClientPin} (scalar : P256.Scalar)
    (request : SharedSecret → PinRequest)
    (finish : SharedSecret → PinResponse → Except Error α) {client mid : κ}
    {answer : Except Error PinResponse} {peer : PublicKey}
    (hanswer : PinClient.send pin.opening client = (answer, mid))
    (h : Meets answer peer) :
    pin.twoRequests scalar request finish client
      = ((PinClient.send (request (pin.secretWith scalar peer)) mid).1.bind
          (finish (pin.secretWith scalar peer)),
        (PinClient.send (request (pin.secretWith scalar peer)) mid).2) := by
  unfold twoRequests
  rw [hanswer]
  simp only [peerOf_ok_iff.mpr h]

end ClientPin

namespace Operation

/-- The PINs of an operation that is not refused are allowed. -/
theorem pins_allowed {version : FidoVersion} {op : Operation}
    (h : ¬ op.Refused version) : ∀ text ∈ op.pins, Pin.Allowed text := by
  intro text htext
  by_cases hallowed : Pin.Allowed text
  · exact hallowed
  · exact absurd (Or.inl ⟨text, htext, Pin.not_allowed_iff.mp hallowed⟩) h

variable {κ : Type} [PinClient κ]

/-- Client and authenticator agree, under any version and protocol, for
valid PINs and any random values. The authenticator answers the first
request with its public key, whatever else it does. Then the second request
is made; the secret that the holder of the private key derives from it is
the one under which it holds what the operation was given; and a token of
whole blocks that comes back encrypted under this secret, with any vector,
is the token that is returned. -/
theorem peer_agrees (pin : ClientPin) (fresh : Fresh) (op : Operation)
    (client : κ) (device : P256.Scalar) (hfree : ¬ op.Refused pin.version)
    (hgiven : ∃ response, (PinClient.send pin.opening client).1 = .ok response
      ∧ response.keyAgreement = some (.ofPoint device.publicKey)) :
    let (answer, mid) := PinClient.send pin.opening client
    ∃ result after request last secret,
      (op.run pin fresh).run.run client = (result, after)
      ∧ (op.run pin fresh).run.run (⟨client, []⟩ : Watched κ)
        = (result, ⟨after, [(pin.opening, answer), (request, last)]⟩)
      ∧ PinClient.send request mid = (last, after)
      ∧ secretFor pin.protocol device request = some secret
      ∧ Finds pin.protocol secret request op
      ∧ ∀ iv token, 16 ∣ token.length →
        ∃ sealedToken, pin.protocol.encrypt iv secret token = .ok sealedToken
          ∧ ∀ response secretPin permissions rpId,
            op = .token secretPin permissions rpId →
            last = .ok response → response.token = some sealedToken →
            result = .ok (some ⟨token⟩) := by
  obtain ⟨response, hok, hkey⟩ := hgiven
  have hmeets : ClientPin.Meets (PinClient.send pin.opening client).1
      (.ofPoint device.publicKey) :=
    ⟨response, hok, hkey, PublicKey.isValid_ofPublicKey device⟩
  rcases hanswer : PinClient.send pin.opening client with ⟨answer, mid⟩
  rw [hanswer] at hmeets
  rcases run_cases pin fresh op with ⟨hrefused, -⟩ | ⟨-, request, hasks, hrun⟩
  · exact absurd hrefused hfree
  have hseen : PinClient.send pin.opening (⟨client, []⟩ : Watched κ)
      = (answer, ⟨mid, [(pin.opening, answer)]⟩) := by
    rw [send_watched, hanswer]
    rfl
  have hplain := ClientPin.twoRequests_met fresh.scalar request
    (op.finish pin) hanswer hmeets
  have hwatched := ClientPin.twoRequests_met fresh.scalar request
    (op.finish pin) hseen hmeets
  have hsecret := ClientPin.secretFor_eq pin fresh device
    (hasks (pin.secretWith fresh.scalar (.ofPoint device.publicKey))).keyAgreement_eq
  -- from here on it is any secret, so that nothing computes with points
  generalize pin.secretWith fresh.scalar (.ofPoint device.publicKey)
    = secret at hsecret hplain hwatched
  rcases hlast : PinClient.send (request secret) mid with ⟨last, after⟩
  simp only [hlast, send_watched] at hplain hwatched
  refine ⟨last.bind (op.finish pin secret), after, request secret, last,
    secret, (hrun κ client).trans hplain,
    (hrun (Watched κ) ⟨client, []⟩).trans hwatched, hlast, hsecret,
    (hasks secret).finds (pins_allowed hfree), ?_⟩
  intro iv token htoken
  obtain ⟨sealedToken, hsealed, hback⟩ :=
    AuthProtocol.encrypt_aligned pin.protocol iv secret htoken
  refine ⟨sealedToken, hsealed, ?_⟩
  rintro response secretPin permissions rpId rfl rfl hresponse
  show (tokenOf pin secret response).map some = _
  unfold tokenOf
  simp only [hresponse, hback]
  rfl

/-- An authenticator that holds a private key and a token. It gives its
public key to requests without a key, and the token to others. -/
structure Holder where
  protocol : AuthProtocol
  key : P256.Scalar
  token : Bytes

instance : PinClient Holder where
  send request holder :=
    (match secretFor holder.protocol holder.key request with
      | none => .ok { keyAgreement := some (.ofPoint holder.key.publicKey) }
      | some secret =>
        (holder.protocol.encrypt (Octets.zero 16) secret holder.token).map
          fun sealedToken => { token := some sealedToken }, holder)

/-- Asked for its key, the authenticator gives it. -/
theorem send_opening (pin : ClientPin) (holder : Holder) :
    PinClient.send pin.opening holder
      = (.ok { keyAgreement := some (.ofPoint holder.key.publicKey) },
        holder) := rfl

/-- Asked with a key, it answers with its token under the secret that
follows. -/
theorem send_holder {holder : Holder} {request : PinRequest}
    {secret : SharedSecret} {sealedToken : Bytes}
    (hsecret : secretFor holder.protocol holder.key request = some secret)
    (hsealed : holder.protocol.encrypt (Octets.zero 16) secret holder.token
      = .ok sealedToken) :
    PinClient.send request holder
      = (.ok { token := some sealedToken }, holder) := by
  show (match secretFor holder.protocol holder.key request with
    | none => _
    | some secret => _, holder) = _
  rw [hsecret]
  simp only [hsealed, Except.map]

/-- A token of two blocks is obtained as it is held. -/
theorem peer_agrees_holder :
    let pin : ClientPin := ⟨.two, .fido21⟩
    let fresh : Fresh :=
      ⟨⟨7, by decide, by decide⟩, Octets.zero 16, Octets.zero 16⟩
    let op : Operation := .token (some "0000") none none
    let holder : Holder :=
      ⟨.two, ⟨5, by decide, by decide⟩, List.replicate 32 0xA5⟩
    ¬ op.Refused pin.version
      ∧ (∃ response, (PinClient.send pin.opening holder).1 = .ok response
        ∧ response.keyAgreement = some (.ofPoint holder.key.publicKey))
      ∧ (op.run pin fresh).run.run holder
        = (.ok (some ⟨List.replicate 32 0xA5⟩), holder) := by
  intro pin fresh op holder
  have hfree : ¬ op.Refused pin.version := by
    rintro (⟨text, hmem, hbad⟩ | ⟨hnone, -⟩)
    · rw [List.mem_singleton.mp hmem] at hbad
      exact absurd hbad (by decide)
    · cases hnone
  have hopening := send_opening pin holder
  have hgiven : ∃ response,
      (PinClient.send pin.opening holder).1 = .ok response
        ∧ response.keyAgreement = some (.ofPoint holder.key.publicKey) := by
    rw [hopening]
    exact ⟨_, rfl, rfl⟩
  refine ⟨hfree, hgiven, ?_⟩
  have hagrees := peer_agrees pin fresh op holder holder.key hfree hgiven
  rw [hopening] at hagrees
  obtain ⟨result, after, request, last, secret, hrun, -, hsend, hsecret, -,
    htoken⟩ := hagrees
  obtain ⟨sealedToken, hsealed, hresult⟩ :=
    htoken (Octets.zero 16) holder.token (by decide)
  have hboth := hsend.symm.trans (send_holder hsecret hsealed)
  obtain ⟨hlast, hafter⟩ := Prod.mk.inj hboth
  rw [hrun, hresult _ _ _ _ rfl hlast rfl, hafter]

end Operation

end SmartCard.Fido
