/-
Opening a secure channel over a terminal in the clear, against any card.
The host authenticates itself only to a card that has proven that it holds
the keys; the channel is put to use only where the card then answered
90 00; and where the channel can not be opened, the terminal goes on in
the clear.

# Two answers

All the host knows of the card are two answers. The first decides whether
the handshake goes on (`Proven`): a success, long enough, of the right
protocol, with the cryptogram of the session that both challenges lead to.
The second decides whether the channel is put to use (`Confirms`): a
success again, and one that passes as the response to the first command of
that session. Each way to decide has its lemma (`openChannel_unproven`,
`openChannel_confirmed`, `openChannel_unconfirmed`), and `Ending` lists
them: what is said of openings is a case analysis of that.

# The second command

EXTERNAL AUTHENTICATE is sent over the new channel before the channel is in
use, readable but with a code. So its round is one that is known
(`send_first`), and it is from this round that the counter and the chaining
value of the opened channel come.

# What is sent

An ending says what became of the link. Without a proof of the card it is
the link that the first command left (`Ending.link_unproven`), so it is not
one kind of frame that stays away but every frame; with a proof it is what
the second command left of it (`Ending.link_proven`). The frames themselves
follow from what is known of the frames of any command (`Ending.frames`).
-/
import SmartCard.Proofs.Apdu.Chaining
import SmartCard.Proofs.Scp03.Rounds
import SmartCard.Proofs.Terminal
import SmartCard.Scp03.Handshake

namespace SmartCard.Scp03

-- ============================================================ first answer

/-- What the keys of a session are derived for: the challenges of both
sides, the card's as it stands in its answer. -/
def handshakeContext (challenge : Challenge) (r : Response) : Bytes :=
  challenge.toList ++ (r.payload.drop 13).take 8

/-- The keys of the session that an answer leads to. -/
def handshakeKeys (keys : StaticKeys) (challenge : Challenge)
    (r : Response) : SessionKeys :=
  keys.derive (handshakeContext challenge r)

/-- The host's own cryptogram in that session. -/
def hostCryptogram (keys : StaticKeys) (challenge : Challenge)
    (r : Response) : Cryptogram :=
  deriveCryptogram (handshakeKeys keys challenge r).smac
    Purpose.hostCryptogram.octet (handshakeContext challenge r)

/-- The answer to INITIALIZE UPDATE proves that the card holds the keys:
it is a success, long enough for its members, of the right protocol, and
its cryptogram is what the derivation gives for the card. -/
structure Proven (keys : StaticKeys) (challenge : Challenge)
    (r : Response) : Prop where
  success : r.status = StatusWord.success
  complete : 29 ≤ r.payload.length
  protocol : r.payload[11]? = some 0x03
  cryptogram : (r.payload.drop 21).take 8
    = derive (handshakeKeys keys challenge r).smac 0x00
        (handshakeContext challenge r) 64

/-- The first octets of a string that is long enough. -/
theorem toList_ofBytes_take {n : Nat} {b : Bytes} (h : n ≤ b.length) :
    (Octets.ofBytes n b).toList = b.take n := by
  apply List.ext_getElem
  · rw [Vector.length_toList, List.length_take, Nat.min_eq_left h]
  · intro i h₁ h₂
    have hi : i < b.length := by
      rw [List.length_take] at h₂
      omega
    simp [Octets.ofBytes, List.getD_eq_getElem?_getD, hi]

theorem length_derive_cryptogram (key : Key) (purpose : UInt8)
    (context : Bytes) : (derive key purpose context 64).length = 8 := by
  unfold derive
  rw [List.length_take, Vector.length_toList]
  rfl

/-- A cryptogram in an answer is the derived one exactly where the octets
are. -/
theorem ofBytes_eq_cryptogram_iff {b : Bytes} (h : 8 ≤ b.length)
    (key : Key) (purpose : UInt8) (context : Bytes) :
    deriveCryptogram key purpose context = Octets.ofBytes 8 b
      ↔ b.take 8 = derive key purpose context 64 := by
  have hderived := Octets.toList_ofBytes
    (length_derive_cryptogram key purpose context)
  rw [← Vector.toList_inj, toList_ofBytes_take h]
  unfold deriveCryptogram
  rw [hderived]
  exact eq_comm

/-- An answer is read exactly where it is long enough and of the right
protocol. -/
theorem parse_greeting (payload : Bytes) :
    (29 ≤ payload.length ∧ payload[11]? = some 0x03
        ∧ ∃ greeting, CardGreeting.parse payload = .ok greeting
          ∧ greeting.challenge.toList = (payload.drop 13).take 8
          ∧ greeting.cryptogram = Octets.ofBytes 8 (payload.drop 21))
      ∨ (¬ (29 ≤ payload.length ∧ payload[11]? = some 0x03)
        ∧ ∃ e, CardGreeting.parse payload = .error e) := by
  unfold CardGreeting.parse
  by_cases hlen : payload.length < 29
  · rw [if_pos hlen]
    exact Or.inr ⟨fun h => absurd hlen (Nat.not_lt.mpr h.1), _, rfl⟩
  · have hsome : payload[11]? = some (payload.getD 11 0) := by
      rw [List.getD_eq_getElem?_getD, List.getElem?_eq_getElem (by omega),
        Option.getD_some]
    rw [if_neg hlen]
    by_cases hprotocol : payload.getD 11 0 = CardGreeting.protocolIdentifier
    · refine Or.inl ⟨Nat.not_lt.mp hlen, by rw [hsome, hprotocol]; rfl, ?_⟩
      refine ⟨_, if_pos hprotocol, ?_, rfl⟩
      apply toList_ofBytes_take
      rw [List.length_drop]
      omega
    · refine Or.inr ⟨fun h => ?_, _, if_neg hprotocol⟩
      rw [hsome] at h
      injection h.2 with hthree
      exact hprotocol hthree

-- =========================================================== second answer

/-- The chaining value of a session after its first command, which
authenticates the host. -/
def firstChaining (framing : Framing) (keys : StaticKeys)
    (challenge : Challenge) (r : Response) : Block :=
  Cmac.cmac (Aes.cipher128 (handshakeKeys keys challenge r).smac)
    (List.replicate 16 0 ++ macInput framing.form
      ⟨0x84, 0x82, 0x33, 0x00, (hostCryptogram keys challenge r).toList, none⟩)

/-- EXTERNAL AUTHENTICATE as it goes out: readable, with its code. -/
def hostProof (framing : Framing) (keys : StaticKeys)
    (challenge : Challenge) (r : Response) : Command :=
  ⟨0x84, 0x82, 0x33, 0x00,
    (hostCryptogram keys challenge r).toList
      ++ (firstChaining framing keys challenge r).toList.take 8, none⟩

/-- The values of a session after its first command. Nothing was encrypted
yet. -/
def firstChain (framing : Framing) (keys : StaticKeys)
    (challenge : Challenge) (r : Response) : Chain :=
  ⟨1, firstChaining framing keys challenge r⟩

/-- The channel of a session after its first command. -/
def opened (framing : Framing) (keys : StaticKeys) (challenge : Challenge)
    (r : Response) : SecureChannel :=
  ⟨framing, handshakeKeys keys challenge r,
    some (firstChain framing keys challenge r)⟩

/-- The answer to EXTERNAL AUTHENTICATE confirms the host: it is a success,
and passes as a response of the session. -/
structure Confirms (framing : Framing) (keys : StaticKeys)
    (challenge : Challenge) (r raw : Response) : Prop where
  success : raw.status = StatusWord.success
  passes : ∃ plain, unprotect (handshakeKeys keys challenge r)
    (firstChain framing keys challenge r) raw = .ok plain

/-- The code is made of the command as it is, with the class of secure
messaging. -/
theorem coded_authenticate (session : SessionKeys) (chain : Chain)
    (host : Cryptogram) :
    coded session false chain (externalAuthenticate host)
      = ⟨0x84, 0x82, 0x33, 0x00, host.toList, none⟩ := by
  have hclass : (0x80 : UInt8) ||| secureMessagingBit = 0x84 := by decide
  unfold coded
  show (⟨0x80 ||| secureMessagingBit, _, _, _, _, _⟩ : Command) = _
  rw [hclass]
  rfl

/-- The first chaining value is the code of the host's proof. -/
theorem nextChaining_first (framing : Framing) (keys : StaticKeys)
    (challenge : Challenge) (r : Response) :
    nextChaining (handshakeKeys keys challenge r) framing.form false {}
        (externalAuthenticate (hostCryptogram keys challenge r))
      = firstChaining framing keys challenge r := by
  have hzero : (Octets.zero 16).toList = List.replicate 16 (0 : UInt8) :=
    Vector.toList_replicate
  unfold nextChaining firstChaining
  rw [hzero, coded_authenticate]
  rfl

variable {σ : Type} [Transport σ]

/-- The command that authenticates the host is the first round of a
session. -/
theorem send_first (framing : Framing) (keys : StaticKeys)
    (challenge : Challenge) (r : Response) (link : Link σ) :
    (SecureChannel.start (handshakeKeys keys challenge r) framing).send false
        (externalAuthenticate (hostCryptogram keys challenge r)) link
      = match (framing.send (hostProof framing keys challenge
          r)).run.run link with
        | (.error e, after) =>
            ((.error e,
              (opened framing keys challenge r).failed), after)
        | (.ok raw, after) =>
            match unprotect (handshakeKeys keys challenge r)
              (firstChain framing keys challenge r) raw with
            | .error e =>
                ((.error e,
                  (opened framing keys challenge r).failed), after)
            | .ok plain =>
                ((.ok plain, opened framing keys challenge r), after) := by
  let session := handshakeKeys keys challenge r
  let c := externalAuthenticate (hostCryptogram keys challenge r)
  have hwrapped : wrapped session framing.form false {} c
      = hostProof framing keys challenge r := by
    unfold wrapped
    rw [nextChaining_first, coded_authenticate]
    rfl
  have hnext : nextChain session framing.form false {} c
      = firstChain framing keys challenge r := by
    unfold nextChain
    rw [nextChaining_first]
    rfl
  have hchain : (SecureChannel.start session framing).chain = some {} := rfl
  have hsend : (SecureChannel.start session framing).send false c link = _ :=
    send_eq hchain (fun h => by cases h) link
  have hkeys : (SecureChannel.start session framing).keys = session := rfl
  have hframing : (SecureChannel.start session framing).framing
      = framing := rfl
  rw [hkeys, hframing, hwrapped, hnext] at hsend
  exact hsend

/-- What passes the check of a response keeps its status. -/
theorem status_unprotect {keys : SessionKeys} {chain : Chain}
    {raw plain : Response} (h : unprotect keys chain raw = .ok plain) :
    plain.status = raw.status := by
  unfold unprotect at h
  by_cases hnone : raw.payload = []
  · rw [if_pos hnone] at h
    cases h
    rfl
  · rw [if_neg hnone] at h
    cases hverify : chain.verify keys raw.payload raw.status with
    | error e =>
        rw [hverify] at h
        cases h
    | ok body =>
        rw [hverify] at h
        change (if body = [] then _ else _) = _ at h
        by_cases hbody : body = []
        · rw [if_pos hbody] at h
          cases h
          rfl
        · rw [if_neg hbody] at h
          cases hplain : chain.decrypt keys body with
          | error e =>
              rw [hplain] at h
              cases h
          | ok octets =>
              rw [hplain] at h
              cases h
              rfl

-- ============================================================ the opening

/-- The first command of a handshake in the clear: whatever comes of it,
the terminal stays in the clear. -/
theorem greet_run (ref : KeyRef) (challenge : Challenge)
    (framing : Framing) (link : Link σ) :
    (ExceptT.adapt (Error.context "INITIALIZE UPDATE failed")
        (Terminal.request (initializeUpdate ref challenge))
          : Host σ Bytes).run.run ⟨link, .plain framing⟩
      = match (framing.send (initializeUpdate ref challenge)).run.run link with
        | (.error e, mid) =>
            (.error (.context "INITIALIZE UPDATE failed" e),
              ⟨mid, .plain framing⟩)
        | (.ok r, mid) =>
            (r.result.mapError (.context "INITIALIZE UPDATE failed"),
              ⟨mid, .plain framing⟩) := by
  rw [run_adapt, Terminal.request_run, Terminal.transmit_plain]
  rcases (framing.send (initializeUpdate ref challenge)).run.run link
    with ⟨e | r, mid⟩
  · rfl
  · rfl

/-- The second command of a handshake fails where its round does. -/
theorem authenticate_error {channel left : SecureChannel}
    {host : Cryptogram} {t : Terminal σ} {e : Error} {after : Link σ}
    (h : channel.send false (externalAuthenticate host) t.link
      = ((.error e, left), after)) :
    (authenticate channel host).run.run t
      = (.error e, { t with link := after }) := by
  unfold authenticate
  rw [ExceptT.run_mk]
  simp only [StateT.run, h]

/-- The channel is handed over only where the card answered 90 00. -/
theorem authenticate_ok {channel left : SecureChannel}
    {host : Cryptogram} {t : Terminal σ} {plain : Response}
    {after : Link σ}
    (h : channel.send false (externalAuthenticate host) t.link
      = ((.ok plain, left), after)) :
    (authenticate channel host).run.run t
      = (if plain.status = StatusWord.success then .ok left
          else .error (.context "EXTERNAL AUTHENTICATE failed"
            (.status plain.status)),
        { t with link := after }) := by
  unfold authenticate
  rw [ExceptT.run_mk]
  by_cases hs : plain.status = StatusWord.success
  · rw [if_pos hs]
    simp only [StateT.run, h, result_success hs]
  · rw [if_neg hs]
    simp only [StateT.run, h, result_failure hs]

/-- The context of a session, as the host makes it of an answer. -/
theorem context_greeting {challenge : Challenge} {r : Response}
    {greeting : CardGreeting}
    (h : greeting.challenge.toList = (r.payload.drop 13).take 8) :
    challenge.toList ++ greeting.challenge.toList
      = handshakeContext challenge r := by
  rw [h]
  rfl

/-- Behind a first answer that can be read, the cryptogram decides whether
the host is authenticated. -/
theorem openChannel_greeted {ref : KeyRef} {keys : StaticKeys}
    {challenge : Challenge} {framing : Framing} {link mid : Link σ}
    {r : Response}
    (hx : (framing.send (initializeUpdate ref challenge)).run.run link
      = (.ok r, mid))
    (hs : r.status = StatusWord.success)
    (hread : 29 ≤ r.payload.length ∧ r.payload[11]? = some 0x03) :
    (openChannel ref keys challenge).run.run ⟨link, .plain framing⟩
      = if (r.payload.drop 21).take 8
          = derive (handshakeKeys keys challenge r).smac 0x00
              (handshakeContext challenge r) 64 then
          match (authenticate (SecureChannel.start
              (handshakeKeys keys challenge r) framing)
              (hostCryptogram keys challenge r)).run.run
              ⟨mid, .plain framing⟩ with
          | (.error e, t) => (.error e, t)
          | (.ok channel, t) =>
              (.ok (), { t with messaging := .secured channel })
        else (.error (.security .wrongKeySet), ⟨mid, .plain framing⟩) := by
  have hgreet := greet_run ref challenge framing link
  rw [hx] at hgreet
  simp only [result_success hs] at hgreet
  rcases parse_greeting r.payload with
    ⟨hlen, -, greeting, hparse, hchallenge, hcryptogram⟩ | ⟨hnot, -⟩
  · have hiff := ofBytes_eq_cryptogram_iff
      (show 8 ≤ (r.payload.drop 21).length by
        rw [List.length_drop]
        omega)
      (handshakeKeys keys challenge r).smac Purpose.cardCryptogram.octet
      (handshakeContext challenge r)
    unfold openChannel
    rw [run_bind_ok hgreet, run_bind_ok (by rw [run_lift, hparse])]
    simp only [context_greeting hchallenge, hcryptogram]
    by_cases hcard : (r.payload.drop 21).take 8
        = derive (handshakeKeys keys challenge r).smac 0x00
            (handshakeContext challenge r) 64
    · have hmatch := hiff.mpr hcard
      unfold handshakeKeys at hmatch
      rw [if_pos hmatch, if_pos hcard, run_bind_ok (run_get _)]
      rcases hauth : (authenticate (SecureChannel.start
          (handshakeKeys keys challenge r) framing)
          (hostCryptogram keys challenge r)).run.run
          ⟨mid, .plain framing⟩ with ⟨e | channel, t⟩
      · exact run_bind_error hauth
      · exact run_bind_ok hauth
    · have hmatch := mt hiff.mp hcard
      unfold handshakeKeys at hmatch
      rw [if_neg hmatch, if_neg hcard]
      exact run_bind_error (run_throw _ _)
  · exact absurd hread hnot

/-- Where the first answer proves nothing, the opening ends with it. -/
theorem openChannel_unproven {ref : KeyRef} {keys : StaticKeys}
    {challenge : Challenge} {framing : Framing} {link mid : Link σ}
    {answer : Except Error Response}
    (hx : (framing.send (initializeUpdate ref challenge)).run.run link
      = (answer, mid))
    (hnot : ∀ r, answer = .ok r → ¬ Proven keys challenge r) :
    ∃ e, (openChannel ref keys challenge).run.run ⟨link, .plain framing⟩
      = (.error e, ⟨mid, .plain framing⟩) := by
  have hgreet := greet_run ref challenge framing link
  rw [hx] at hgreet
  cases answer with
  | error e =>
      unfold openChannel
      exact ⟨_, run_bind_error hgreet⟩
  | ok r =>
      have hnot := hnot r rfl
      by_cases hs : r.status = StatusWord.success
      · rcases parse_greeting r.payload with
          ⟨hlen, hprotocol, -⟩ | ⟨-, e, hparse⟩
        · rw [openChannel_greeted hx hs ⟨hlen, hprotocol⟩,
            if_neg (fun hcard => hnot ⟨hs, hlen, hprotocol, hcard⟩)]
          exact ⟨_, rfl⟩
        · simp only [result_success hs] at hgreet
          unfold openChannel
          rw [run_bind_ok hgreet]
          exact ⟨_, run_bind_error (by rw [run_lift, hparse])⟩
      · simp only [result_failure hs] at hgreet
        unfold openChannel
        exact ⟨_, run_bind_error hgreet⟩

/-- Where the first answer proves the card, the opening is the second
command of the handshake. -/
theorem openChannel_proven {ref : KeyRef} {keys : StaticKeys}
    {challenge : Challenge} {framing : Framing} {link mid : Link σ}
    {r : Response}
    (hx : (framing.send (initializeUpdate ref challenge)).run.run link
      = (.ok r, mid))
    (hproven : Proven keys challenge r) :
    (openChannel ref keys challenge).run.run ⟨link, .plain framing⟩
      = match (authenticate (SecureChannel.start
          (handshakeKeys keys challenge r) framing)
          (hostCryptogram keys challenge r)).run.run
          ⟨mid, .plain framing⟩ with
        | (.error e, t) => (.error e, t)
        | (.ok channel, t) =>
            (.ok (), { t with messaging := .secured channel }) := by
  refine (openChannel_greeted hx hproven.success
    ⟨hproven.complete, hproven.protocol⟩).trans ?_
  exact if_pos hproven.cryptogram

/-- Where the card then confirms the host, the channel is put to use. -/
theorem openChannel_confirmed {ref : KeyRef} {keys : StaticKeys}
    {challenge : Challenge} {framing : Framing} {link mid after : Link σ}
    {r raw : Response}
    (hx : (framing.send (initializeUpdate ref challenge)).run.run link
      = (.ok r, mid))
    (hproven : Proven keys challenge r)
    (hy : (framing.send (hostProof framing keys challenge r)).run.run mid
      = (.ok raw, after))
    (hraw : Confirms framing keys challenge r raw) :
    (openChannel ref keys challenge).run.run ⟨link, .plain framing⟩
      = (.ok (), ⟨after, .secured (opened framing keys challenge r)⟩) := by
  obtain ⟨plain, hplain⟩ := hraw.passes
  have hround := send_first framing keys challenge r mid
  simp only [hy, hplain] at hround
  have hs : plain.status = StatusWord.success :=
    (status_unprotect hplain).trans hraw.success
  have hauth := authenticate_ok (t := ⟨mid, .plain framing⟩) hround
  rw [if_pos hs] at hauth
  rw [openChannel_proven hx hproven, hauth]

/-- Where it does not, the opening ends with the second answer, and the
terminal is in the clear as before. -/
theorem openChannel_unconfirmed {ref : KeyRef} {keys : StaticKeys}
    {challenge : Challenge} {framing : Framing} {link mid after : Link σ}
    {r : Response} {answer : Except Error Response}
    (hx : (framing.send (initializeUpdate ref challenge)).run.run link
      = (.ok r, mid))
    (hproven : Proven keys challenge r)
    (hy : (framing.send (hostProof framing keys challenge r)).run.run mid
      = (answer, after))
    (hnot : ∀ raw, answer = .ok raw → ¬ Confirms framing keys challenge r raw) :
    ∃ e, (openChannel ref keys challenge).run.run ⟨link, .plain framing⟩
      = (.error e, ⟨after, .plain framing⟩) := by
  have hround := send_first framing keys challenge r mid
  -- no answer, one that does not pass, or one that is not 90 00
  cases answer with
  | error e =>
      simp only [hy] at hround
      have hauth := authenticate_error (t := ⟨mid, .plain framing⟩) hround
      rw [openChannel_proven hx hproven, hauth]
      exact ⟨_, rfl⟩
  | ok raw =>
      simp only [hy] at hround
      cases hplain : unprotect (handshakeKeys keys challenge r)
          (firstChain framing keys challenge r) raw with
      | error e =>
          simp only [hplain] at hround
          have hauth := authenticate_error (t := ⟨mid, .plain framing⟩) hround
          rw [openChannel_proven hx hproven, hauth]
          exact ⟨_, rfl⟩
      | ok plain =>
          simp only [hplain] at hround
          have hs : plain.status ≠ StatusWord.success := fun hs =>
            hnot raw rfl ⟨(status_unprotect hplain).symm.trans hs, plain, hplain⟩
          have hauth := authenticate_ok (t := ⟨mid, .plain framing⟩) hround
          rw [if_neg hs] at hauth
          rw [openChannel_proven hx hproven, hauth]
          exact ⟨_, rfl⟩

-- ============================================================== the endings

/-- The card goes along with a handshake: its first answer `r` proves that
it holds the keys, and its second confirms the host. That leaves the link
`after`. -/
structure Welcomed (framing : Framing) (ref : KeyRef) (keys : StaticKeys)
    (challenge : Challenge) (link : Link σ) (r : Response)
    (after : Link σ) : Prop where
  proven : Proven keys challenge r
  answered : ∃ mid raw,
    (framing.send (initializeUpdate ref challenge)).run.run link
      = (.ok r, mid)
    ∧ (framing.send (hostProof framing keys challenge r)).run.run mid
      = (.ok raw, after)
    ∧ Confirms framing keys challenge r raw

/-- Whenever the card welcomes the host, the channel opens. -/
theorem Welcomed.opens {framing : Framing} {ref : KeyRef}
    {keys : StaticKeys} {challenge : Challenge} {link after : Link σ}
    {r : Response}
    (h : Welcomed framing ref keys challenge link r after) :
    (openChannel ref keys challenge).run.run ⟨link, .plain framing⟩
      = (.ok (), ⟨after, .secured (opened framing keys challenge r)⟩) := by
  obtain ⟨mid, raw, hx, hy, hraw⟩ := h.answered
  exact openChannel_confirmed hx h.proven hy hraw

/-- The three ways for an opening from the clear to end: the first answer
proves nothing and nothing is sent after it; the host proves itself to the
card, and the card does not confirm it; or the card goes along. -/
inductive Ending (framing : Framing) (ref : KeyRef) (keys : StaticKeys)
    (challenge : Challenge) (link : Link σ) :
    Except Error Unit × Terminal σ → Prop
  | unproven {answer : Except Error Response} {mid : Link σ} (e : Error) :
      (framing.send (initializeUpdate ref challenge)).run.run link
        = (answer, mid) →
      (∀ r, answer = .ok r → ¬ Proven keys challenge r) →
      Ending framing ref keys challenge link
        (.error e, ⟨mid, .plain framing⟩)
  | unconfirmed {r : Response} {answer : Except Error Response}
      {mid after : Link σ} (e : Error) :
      (framing.send (initializeUpdate ref challenge)).run.run link
        = (.ok r, mid) →
      Proven keys challenge r →
      (framing.send (hostProof framing keys challenge r)).run.run mid
        = (answer, after) →
      Ending framing ref keys challenge link
        (.error e, ⟨after, .plain framing⟩)
  | welcomed {r : Response} {after : Link σ} :
      Welcomed framing ref keys challenge link r after →
      Ending framing ref keys challenge link
        (.ok (), ⟨after, .secured (opened framing keys challenge r)⟩)

/-- Every opening is one that `Ending` describes. -/
theorem openChannel_ending (ref : KeyRef) (keys : StaticKeys)
    (challenge : Challenge) (framing : Framing) (link : Link σ) :
    Ending framing ref keys challenge link
      ((openChannel ref keys challenge).run.run
        ⟨link, .plain framing⟩) := by
  rcases hx : (framing.send (initializeUpdate ref challenge)).run.run link
    with ⟨first, mid⟩
  by_cases hproven : ∃ r, first = .ok r ∧ Proven keys challenge r
  · obtain ⟨r, rfl, hproven⟩ := hproven
    rcases hy : (framing.send (hostProof framing keys challenge r)).run.run
      mid with ⟨second, after⟩
    by_cases hraw : ∃ raw, second = .ok raw
        ∧ Confirms framing keys challenge r raw
    · obtain ⟨raw, rfl, hraw⟩ := hraw
      rw [openChannel_confirmed hx hproven hy hraw]
      exact .welcomed ⟨hproven, mid, raw, hx, hy, hraw⟩
    · obtain ⟨e, hrun⟩ := openChannel_unconfirmed hx hproven hy
        (fun raw hraw' hc => hraw ⟨raw, hraw', hc⟩)
      rw [hrun]
      exact .unconfirmed e hx hproven hy
  · have hnot : ∀ r, first = .ok r → ¬ Proven keys challenge r :=
      fun r hr hp => hproven ⟨r, hr, hp⟩
    obtain ⟨e, hrun⟩ := openChannel_unproven hx hnot
    rw [hrun]
    exact .unproven e hx hnot

section Ending

variable {framing : Framing} {ref : KeyRef} {keys : StaticKeys}
  {challenge : Challenge} {link : Link σ}
  {out : Except Error Unit × Terminal σ}

/-- After an answer that proves nothing, or none, the link is left alone. -/
theorem Ending.link_unproven (h : Ending framing ref keys challenge link out)
    (hnot : ∀ r, ((framing.send (initializeUpdate ref challenge)).run.run
      link).1 = .ok r → ¬ Proven keys challenge r) :
    out.2.link
      = ((framing.send (initializeUpdate ref challenge)).run.run link).2 := by
  cases h with
  | unproven e hx _ => rw [hx]
  | unconfirmed e hx hproven _ => exact absurd hproven (hnot _ (by rw [hx]))
  | welcomed h =>
      obtain ⟨mid, raw, hx, -⟩ := h.answered
      exact absurd h.proven (hnot _ (by rw [hx]))

/-- After one that proves the card, the host's proof is sent over the link,
and no more than that. -/
theorem Ending.link_proven (h : Ending framing ref keys challenge link out)
    {r : Response} (hr : ((framing.send
      (initializeUpdate ref challenge)).run.run link).1 = .ok r)
    (hproven : Proven keys challenge r) :
    out.2.link = ((framing.send (hostProof framing keys challenge r)).run.run
      ((framing.send (initializeUpdate ref challenge)).run.run
        link).2).2 := by
  cases h with
  | unproven e hx hnot =>
      rw [hx] at hr
      exact absurd hproven (hnot r hr)
  | unconfirmed e hx _ hy =>
      rw [hx] at hr ⊢
      cases hr
      rw [hy]
  | welcomed h =>
      obtain ⟨mid, raw, hx, hy, -⟩ := h.answered
      rw [hx] at hr ⊢
      cases hr
      rw [hy]

end Ending

-- =============================================================== the frames

/-- A frame of EXTERNAL AUTHENTICATE, by class and instruction, whether or
not another frame follows it. -/
def IsAuthentication (frame : Bytes) : Prop :=
  frame.take 2 = [0x84, 0x82] ∨ frame.take 2 = [0x94, 0x82]

/-- The host's proof goes out in such frames, and in frames that ask for
the rest of an answer. -/
theorem isAuthentication_hostProof {framing : Framing} {keys : StaticKeys}
    {challenge : Challenge} {r : Response} {frame : Bytes}
    (h : framing.FrameFor (hostProof framing keys challenge r) frame) :
    IsAuthentication frame
      ∨ ∃ count, frame = Framing.followUpFrame framing.getResponse count := by
  have hmarked : (0x84 : UInt8) ||| chainingBit = 0x94 := by decide
  cases h with
  | whole rest => exact Or.inl (Or.inl rfl)
  | marked rest =>
      refine Or.inl (Or.inr ?_)
      show [0x84 ||| chainingBit, 0x82] = _
      rw [hmarked]
  | followUp count => exact Or.inr ⟨count, rfl⟩

/-- No frame of the first command authenticates the host. -/
theorem not_isAuthentication_greeting {framing : Framing} {ref : KeyRef}
    {challenge : Challenge} {frame : Bytes}
    (h : framing.FrameFor (initializeUpdate ref challenge) frame) :
    ¬ IsAuthentication frame := by
  cases h with
  | whole rest =>
      show ¬ ([0x80, 0x50] = _ ∨ [0x80, 0x50] = _)
      decide
  | marked rest =>
      show ¬ ([0x80 ||| chainingBit, 0x50] = _
        ∨ [0x80 ||| chainingBit, 0x50] = _)
      decide
  | followUp count =>
      show ¬ ([0x00, framing.getResponse] = _
        ∨ [0x00, framing.getResponse] = _)
      simp

/-- What an opening hands over, by its frames: those of the first command,
and behind them, for a card that has proven itself, those of the host's
proof. -/
structure HandedOver (framing : Framing) (ref : KeyRef) (keys : StaticKeys)
    (challenge : Challenge) (greeting proof : List Bytes)
    (answer : Except Error Response) : Prop where
  greets : ∀ frame ∈ greeting,
    framing.FrameFor (initializeUpdate ref challenge) frame
      ∧ ¬ IsAuthentication frame
  proves : ∀ frame ∈ proof,
    (IsAuthentication frame
        ∨ ∃ count, frame = Framing.followUpFrame framing.getResponse count)
      ∧ ∃ r, answer = .ok r ∧ Proven keys challenge r
        ∧ framing.FrameFor (hostProof framing keys challenge r) frame

/-- The frames of an opening are these, however it ends. -/
theorem Ending.frames {framing : Framing} {ref : KeyRef}
    {keys : StaticKeys} {challenge : Challenge} {link : Link σ}
    {out : Except Error Unit × Terminal σ}
    (h : Ending framing ref keys challenge link out) :
    let greeted := (framing.send
      (initializeUpdate ref challenge)).run.run link
    ∃ greeting proof, greeted.2.frames = link.frames ++ greeting
      ∧ out.2.link.frames = greeted.2.frames ++ proof
      ∧ HandedOver framing ref keys challenge greeting proof greeted.1 := by
  intro greeted
  obtain ⟨greeting, hgreeting, hgreets⟩ := Framing.frames_send framing
    (initializeUpdate ref challenge) link
  have hgreets : ∀ frame ∈ greeting, _ := fun frame hmem =>
    And.intro (hgreets frame hmem)
      (not_isAuthentication_greeting (hgreets frame hmem))
  by_cases hproven : ∃ r, greeted.1 = .ok r ∧ Proven keys challenge r
  · obtain ⟨r, hr, hproven⟩ := hproven
    obtain ⟨proof, hproof, hproves⟩ := Framing.frames_send framing
      (hostProof framing keys challenge r) greeted.2
    refine ⟨greeting, proof, hgreeting, ?_, hgreets, fun frame hmem => ?_⟩
    · rw [h.link_proven hr hproven]
      exact hproof
    · have hfor := hproves frame hmem
      exact ⟨isAuthentication_hostProof hfor, r, hr, hproven, hfor⟩
  · refine ⟨greeting, [], hgreeting, ?_, hgreets, nofun⟩
    rw [h.link_unproven fun r hr hp => hproven ⟨r, hr, hp⟩, List.append_nil]

-- ============================================================= the handshake

/-- Opening a channel from the clear is safe, whatever the card does. Where
the answer to INITIALIZE UPDATE does not prove that the card holds the keys,
nothing is sent after it; where it does, the host authenticates itself by
the one command `hostProof`, and sends nothing else. The opening succeeds
exactly where the card then answers that 90 00, under a code that passes if
there is one; the terminal is left with the channel of that session, which
has counted no command yet and continues from the code of EXTERNAL
AUTHENTICATE. Where the opening fails, the terminal has the messaging that
it had, and what it sends from then on is in the clear. -/
theorem handshake_safe (ref : KeyRef) (keys : StaticKeys)
    (challenge : Challenge) (framing : Framing) (link : Link σ) :
    let greeted := (framing.send
      (initializeUpdate ref challenge)).run.run link
    let out := (openChannel ref keys challenge).run.run
      ⟨link, .plain framing⟩
    ((∀ r, greeted.1 = .ok r → ¬ Proven keys challenge r) →
        out.2.link = greeted.2)
      ∧ (∀ r, greeted.1 = .ok r → Proven keys challenge r →
          out.2.link = ((framing.send
            (hostProof framing keys challenge r)).run.run greeted.2).2)
      ∧ (∃ greeting proof, greeted.2.frames = link.frames ++ greeting
          ∧ out.2.link.frames = greeted.2.frames ++ proof
          ∧ HandedOver framing ref keys challenge greeting proof greeted.1)
      ∧ (out.1 = .ok () →
          ∃ r, Welcomed framing ref keys challenge link r out.2.link
            ∧ out.2.messaging = .secured
              ⟨framing, handshakeKeys keys challenge r,
                some ⟨1, firstChaining framing keys challenge r⟩⟩)
      ∧ (∀ r after, Welcomed framing ref keys challenge link r after →
          out.1 = .ok ())
      ∧ ∀ e, out.1 = .error e →
          out.2.messaging = .plain framing
            ∧ ∀ c, (Terminal.transmit c).run.run out.2
              = (((framing.send c).run.run out.2.link).1,
                ⟨((framing.send c).run.run out.2.link).2,
                  .plain framing⟩) := by
  intro greeted out
  have hending : Ending framing ref keys challenge link out :=
    openChannel_ending ref keys challenge framing link
  refine ⟨hending.link_unproven, fun r hr => hending.link_proven hr,
    hending.frames, ?_, ?_, ?_⟩
  · intro hok
    generalize out = ended at hending hok ⊢
    cases hending with
    | unproven e hx hnot => cases hok
    | unconfirmed e hx hproven hy => cases hok
    | welcomed h => exact ⟨_, h, rfl⟩
  · intro r after h
    have hout : out = _ := h.opens
    rw [hout]
  · intro e herr
    generalize out = ended at hending herr ⊢
    cases hending with
    | unproven e' hx hnot =>
        exact ⟨rfl, fun c => Terminal.transmit_plain c _ framing⟩
    | unconfirmed e' hx hproven hy =>
        exact ⟨rfl, fun c => Terminal.transmit_plain c _ framing⟩
    | welcomed h => cases herr

end SmartCard.Scp03
