/-
What a client is asked when an operation agrees on a secret first. There
are two requests and no more: one for the authenticator's key, and, where
that is a key on the curve, the one that the operation is about. Everything
the second request depends on is known once the first is answered.

# One form for the operations

An operation that passed its own checks is a function from the secret to a
request, and a way to read the last response. `twoRequests` is that form, as
a function of the client; `agreed_run` brings the code of an operation into
it, and laws about requests are stated of the form.

# Watching a client

`Watched` is a client that remembers what went through it. It is a client
like any other, so what an operation makes of it says what any client is
asked (`twoRequests_watched`).
-/
import SmartCard.Fido.ClientPin
import SmartCard.Proofs.Exchange

namespace SmartCard.Fido

-- ========================================================= watched clients

/-- A client, and what it was asked and answered, in order. -/
structure Watched (κ : Type) where
  client : κ
  seen : List (PinRequest × Except Error PinResponse) := []

variable {κ α : Type} [PinClient κ]

instance : PinClient (Watched κ) where
  send request watched :=
    let (answer, client) := PinClient.send request watched.client
    (answer, ⟨client, watched.seen ++ [(request, answer)]⟩)

/-- Watching a client changes nothing that it answers, and nothing that
becomes of it. -/
theorem send_watched (request : PinRequest) (client : κ)
    (seen : List (PinRequest × Except Error PinResponse)) :
    PinClient.send request (⟨client, seen⟩ : Watched κ)
      = ((PinClient.send request client).1,
        ⟨(PinClient.send request client).2,
          seen ++ [(request, (PinClient.send request client).1)]⟩) := rfl

-- =========================================================== the agreement

namespace ClientPin

/-- The request for the authenticator's key. -/
def opening (pin : ClientPin) : PinRequest :=
  { protocol := pin.protocol.number, subCommand := 0x02 }

/-- An answer gave a key, and the key is on the curve. -/
def Meets (answer : Except Error PinResponse) (peer : PublicKey) : Prop :=
  ∃ response, answer = .ok response
    ∧ response.keyAgreement = some peer ∧ peer.isValid = true

/-- The key that an answer gave, or what is wrong with the answer. -/
def peerOf : Except Error PinResponse → Except Error PublicKey
  | .error e => .error e
  | .ok response =>
    match response.keyAgreement with
    | none => .error (.invalidResponse (.missing "keyAgreement"))
    | some peer =>
      if peer.isValid then .ok peer else .error (.crypto .invalidPublicKey)

/-- An answer gives a key exactly where it meets the client with one. -/
theorem peerOf_ok_iff {answer : Except Error PinResponse}
    {peer : PublicKey} : peerOf answer = .ok peer ↔ Meets answer peer := by
  unfold peerOf
  constructor
  · intro h
    split at h
    · cases h
    · next response =>
        split at h
        · cases h
        · next found hfound =>
            split at h
            · next hvalid =>
                cases h
                exact ⟨response, rfl, hfound, hvalid⟩
            · cases h
  · rintro ⟨response, rfl, hpeer, hvalid⟩
    simp only [hpeer, hvalid, if_true]

/-- Where no key was given, the error is not one of encryption, unless the
answer itself is that error. -/
theorem peerOf_error {answer : Except Error PinResponse}
    (h : peerOf answer = .error (.crypto .plaintextAlignment)) :
    answer = .error (.crypto .plaintextAlignment) := by
  unfold peerOf at h
  split at h
  · cases h
    rfl
  · split at h
    · cases h
    · split at h
      · cases h
      · cases h

/-- The secret that follows from the authenticator's key. -/
def secretWith (pin : ClientPin) (scalar : P256.Scalar) (peer : PublicKey) :
    SharedSecret :=
  pin.protocol.derive (P256.agree scalar peer.point).toList

/-- Asking is one request, and hands on the answer as it is. -/
theorem ask_run {request : PinRequest} {client mid : κ}
    {answer : Except Error PinResponse}
    (h : PinClient.send request client = (answer, mid)) :
    (ask request : Dialogue κ PinResponse).run.run client = (answer, mid) :=
  h

/-- A last question, whose answer is only read, is one request. -/
theorem ask_then_run {request : PinRequest}
    {rest : PinResponse → Dialogue κ α} {finish : PinResponse → Except Error α}
    (h : ∀ response mid, (rest response).run.run mid = (finish response, mid))
    (client : κ) :
    (ask request >>= rest).run.run client
      = ((PinClient.send request client).1.bind finish,
        (PinClient.send request client).2) := by
  rcases hanswer : PinClient.send request client with ⟨e | response, mid⟩
  · exact run_bind_error (ask_run hanswer)
  · rw [run_bind_ok (ask_run hanswer), h]
    rfl

omit [PinClient κ] in
/-- A member that is missing is an invalid response. -/
theorem need_run (name : String) (value : Option α) (client : κ) :
    (need name value : Dialogue κ α).run.run client
      = (match value with
        | some v => .ok v
        | none => .error (.invalidResponse (.missing name)), client) := by
  cases value <;> rfl

/-- Agreeing by a key is checking it first. -/
theorem encapsulate_eq (pin : ClientPin) (scalar : P256.Scalar)
    (peer : PublicKey) :
    pin.protocol.encapsulate scalar peer
      = if peer.isValid then
          .ok (.ofPoint scalar.publicKey, pin.secretWith scalar peer)
        else .error (.crypto .invalidPublicKey) := by
  unfold AuthProtocol.encapsulate PublicKey.toPoint
  by_cases hvalid : peer.isValid = true
  · rw [if_pos hvalid, if_pos hvalid]
    rfl
  · rw [if_neg hvalid, if_neg hvalid]
    rfl

/-- A secret is agreed on by one request, whatever the client. -/
theorem sharedSecret_run (pin : ClientPin) (scalar : P256.Scalar)
    {client mid : κ} {answer : Except Error PinResponse}
    (h : PinClient.send pin.opening client = (answer, mid)) :
    (sharedSecret pin scalar).run.run client
      = ((peerOf answer).map fun peer =>
          (PublicKey.ofPoint scalar.publicKey, pin.secretWith scalar peer),
        mid) := by
  have hasked : (ask (.bare pin.protocol .keyAgreement)
      : Dialogue κ PinResponse).run.run client = (answer, mid) := ask_run h
  unfold sharedSecret peerOf
  cases answer with
  | error e => exact run_bind_error hasked
  | ok response =>
      have hneed := need_run "keyAgreement" response.keyAgreement mid
      rw [run_bind_ok hasked]
      cases hpeer : response.keyAgreement with
      | none =>
          rw [hpeer] at hneed
          rw [run_bind_error hneed]
          simp only [hpeer]
          rfl
      | some peer =>
          rw [hpeer] at hneed
          rw [run_bind_ok hneed, encapsulate_eq, run_lift]
          by_cases hvalid : peer.isValid = true
          · simp only [hpeer, hvalid]
            rfl
          · simp only [hpeer, hvalid]
            rfl

-- ============================================================ two requests

/-- Two requests: the first agrees on a secret, which decides the second,
and the last answer decides how it ends. -/
def twoRequests (pin : ClientPin) (scalar : P256.Scalar)
    (request : SharedSecret → PinRequest)
    (finish : SharedSecret → PinResponse → Except Error α) (client : κ) :
    Except Error α × κ :=
  let (answer, mid) := PinClient.send pin.opening client
  match peerOf answer with
  | .error e => (.error e, mid)
  | .ok peer =>
    let secret := pin.secretWith scalar peer
    let (answer, after) := PinClient.send (request secret) mid
    (answer.bind (finish secret), after)

variable {request : SharedSecret → PinRequest}
variable {finish : SharedSecret → PinResponse → Except Error α}

/-- Work behind an agreement that asks once is two requests. -/
theorem agreed_run (pin : ClientPin) (scalar : P256.Scalar)
    {work : PublicKey × SharedSecret → Dialogue κ α}
    (h : ∀ secret mid,
      (work (.ofPoint scalar.publicKey, secret)).run.run mid
        = ((PinClient.send (request secret) mid).1.bind (finish secret),
          (PinClient.send (request secret) mid).2)) (client : κ) :
    (sharedSecret pin scalar >>= work).run.run client
      = pin.twoRequests scalar request finish client := by
  unfold twoRequests
  rcases hanswer : PinClient.send pin.opening client with ⟨answer, mid⟩
  have hsecret := sharedSecret_run pin scalar hanswer
  cases hpeer : peerOf answer with
  | error e =>
      rw [hpeer] at hsecret
      rw [run_bind_error hsecret]
      simp only [hpeer]
  | ok peer =>
      rw [hpeer] at hsecret
      rw [run_bind_ok hsecret, h]
      simp only [hpeer]

/-- What is made of the result plays no part in the requests. -/
theorem mapped_run {β : Type} (f : α → β)
    (finish : SharedSecret → PinResponse → Except Error α)
    {pin : ClientPin} {scalar : P256.Scalar} {work : Dialogue κ α}
    {client : κ} (h : work.run.run client
      = pin.twoRequests scalar request finish client) :
    (f <$> work).run.run client
      = pin.twoRequests scalar request
        (fun secret response => (finish secret response).map f) client := by
  rw [run_map, h]
  unfold twoRequests
  rcases PinClient.send pin.opening client with ⟨answer, mid⟩
  cases hpeer : peerOf answer with
  | error e => simp only [hpeer, Except.map]
  | ok peer =>
      simp only [hpeer]
      cases (PinClient.send (request (pin.secretWith scalar peer)) mid).1 <;>
        rfl

/-- What can be seen of two requests, given the answer to the first, and
how they end: the second is seen exactly where the first was answered with a
key on the curve. -/
inductive Course (pin : ClientPin) (scalar : P256.Scalar)
    (request : SharedSecret → PinRequest)
    (finish : SharedSecret → PinResponse → Except Error α)
    (answer : Except Error PinResponse) :
    List (PinRequest × Except Error PinResponse) → Except Error α → Prop
  | unmet (e : Error) :
      (∀ peer, ¬ Meets answer peer) → peerOf answer = .error e →
      Course pin scalar request finish answer [(pin.opening, answer)]
        (.error e)
  | met (peer : PublicKey) (last : Except Error PinResponse) :
      Meets answer peer →
      Course pin scalar request finish answer
        [(pin.opening, answer), (request (pin.secretWith scalar peer), last)]
        (last.bind (finish (pin.secretWith scalar peer)))

/-- Two requests take their course, and a client that is watched goes
through them like one that is not; what it was asked before stays. -/
theorem twoRequests_watched (pin : ClientPin) (scalar : P256.Scalar)
    (request : SharedSecret → PinRequest)
    (finish : SharedSecret → PinResponse → Except Error α) (client : κ)
    (before : List (PinRequest × Except Error PinResponse)) :
    ∃ result after seen,
      pin.twoRequests scalar request finish client = (result, after)
      ∧ pin.twoRequests scalar request finish (⟨client, before⟩ : Watched κ)
        = (result, ⟨after, before ++ seen⟩)
      ∧ Course pin scalar request finish
        (PinClient.send pin.opening client).1 seen result := by
  rcases hfirst : PinClient.send pin.opening client with ⟨answer, mid⟩
  cases hpeer : peerOf answer with
  | error e =>
      have hunmet : ∀ peer, ¬ Meets answer peer := by
        intro peer hmeets
        rw [peerOf_ok_iff.mpr hmeets] at hpeer
        cases hpeer
      refine ⟨_, mid, _, ?_, ?_, .unmet e hunmet hpeer⟩
      · simp only [twoRequests, hfirst, hpeer]
      · simp only [twoRequests, send_watched, hfirst, hpeer]
  | ok peer =>
      rcases hsecond : PinClient.send (request (pin.secretWith scalar peer))
        mid with ⟨last, after⟩
      refine ⟨_, after, _, ?_, ?_,
        .met peer last (peerOf_ok_iff.mp hpeer)⟩
      · simp only [twoRequests, hfirst, hpeer, hsecond]
      · simp only [twoRequests, send_watched, hfirst, hpeer, hsecond,
          List.append_assoc, List.singleton_append]

/-- The requests of a course do not fail for what is encrypted, unless a
client says so or the work behind them does. -/
theorem Course.clean {pin : ClientPin} {scalar : P256.Scalar}
    {answer : Except Error PinResponse}
    {seen : List (PinRequest × Except Error PinResponse)}
    {result : Except Error α}
    (h : Course pin scalar request finish answer seen result)
    (hfinish : ∀ secret response,
      finish secret response ≠ .error (.crypto .plaintextAlignment))
    (hresult : result = .error (.crypto .plaintextAlignment)) :
    ∃ asked, (asked, .error (.crypto .plaintextAlignment)) ∈ seen := by
  cases h with
  | unmet e _ hpeer =>
      cases hresult
      rw [peerOf_error hpeer]
      exact ⟨_, List.mem_cons_self⟩
  | met peer last _ =>
      cases last with
      | ok response => exact absurd hresult (hfinish _ response)
      | error e =>
          cases hresult
          exact ⟨_, List.mem_cons_of_mem _ List.mem_cons_self⟩

end ClientPin

end SmartCard.Fido
