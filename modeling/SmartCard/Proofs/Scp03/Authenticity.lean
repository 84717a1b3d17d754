/-
What a host takes over a secure channel was vouched for with the card's
response key. The transport may answer anything, and cut it as it likes:
a response is returned only if what came, put together, is nothing at all,
or a body with the code of that body and of the final status behind it, and
what is returned is that body in the clear. Everything else with content
fails the channel.

# Why the cut does not matter

The code is not looked at part by part. A command ends well exactly when it
was answered to the end (`Framing.send_ok_iff`), with all that came in one
payload and the status of the last part, and the check is a function of
these two. `Genuine` describes the payloads that pass, with the cipher, the
code and the padding spelled out, and `unprotect_ok_iff` says that the check
finds exactly those.

# An answer with no content

Where nothing came there is nothing to check, so the status of an empty
answer is taken as it is. That is the one response that passes without a
code.
-/
import SmartCard.Proofs.Apdu.Gathering
import SmartCard.Proofs.Scp03.Lockstep

namespace SmartCard.Scp03

-- ======================================================= genuine responses

/-- The code that goes with a body and a status, after the command that led
to the chaining value. -/
def responseCode (keys : SessionKeys) (chain : Chain) (body : Bytes)
    (status : StatusWord) : Bytes :=
  (Cmac.cmac (Aes.cipher128 keys.srmac)
    (chain.chaining.toList ++ body ++ [status.sw1, status.sw2])).toList.take 8

/-- The vector of a response: the mark of responses, eleven zeros, and the
counter less one, under the encryption key. -/
def responseVector (keys : SessionKeys) (chain : Chain) : Block :=
  (Aes.cipher128 keys.senc).encrypt (Octets.ofBytes 16
    (0x80 :: List.replicate 11 0
      ++ Bytes.bigEndian 4 (chain.counter - 1).toNat))

/-- What came over the channel, and what it says, given the values of the
channel after the command. -/
inductive Genuine (keys : SessionKeys) (chain : Chain) :
    Response → Response → Prop
  /-- Nothing came. -/
  | bare (status : StatusWord) :
      Genuine keys chain ⟨[], status⟩ ⟨[], status⟩
  /-- A code came, for a body without octets. -/
  | coded (status : StatusWord) :
      Genuine keys chain ⟨responseCode keys chain [] status, status⟩
        ⟨[], status⟩
  /-- A body of whole blocks came, with its code, and it is the content with
  its padding. -/
  | enciphered {body plain : Bytes} {status : StatusWord} {count : Nat} :
      body ≠ [] → 16 ∣ body.length → count ≤ 15 →
      Cbc.decrypt (Aes.cipher128 keys.senc) (responseVector keys chain) body
        = plain ++ 0x80 :: List.replicate count 0 →
      Genuine keys chain ⟨body ++ responseCode keys chain body status, status⟩
        ⟨plain, status⟩

variable {keys : SessionKeys} {chain : Chain}

/-- Whatever is genuine keeps its status. -/
theorem Genuine.status_eq {raw r : Response} (h : Genuine keys chain raw r) :
    r.status = raw.status := by
  cases h with
  | bare status => rfl
  | coded status => rfl
  | enciphered => rfl

theorem responseCode_ne_nil (body : Bytes) (status : StatusWord) :
    body ++ responseCode keys chain body status ≠ [] := by
  intro hnil
  have hlen := length_code body (Cmac.cmac (Aes.cipher128 keys.srmac)
    (chain.chaining.toList ++ body ++ [status.sw1, status.sw2]))
  rw [show body ++ List.take 8 _ = [] from hnil, List.length_nil] at hlen
  omega

/-- A body with its code behind it passes. -/
theorem verify_responseCode (body : Bytes) (status : StatusWord) :
    chain.verify keys (body ++ responseCode keys chain body status) status
      = .ok body :=
  Chain.verify_ok_iff.mpr rfl

-- =============================================================== the check

-- The check in three steps: nothing came, the code is wrong, or it is right
-- and a body is left.

theorem unprotect_nil (status : StatusWord) :
    unprotect keys chain ⟨[], status⟩ = .ok ⟨[], status⟩ := rfl

/-- A response with a wrong code is refused before it is decrypted. -/
theorem unprotect_refused {raw : Response} {e : Error}
    (hne : raw.payload ≠ [])
    (h : chain.verify keys raw.payload raw.status = .error e) :
    unprotect keys chain raw = .error e := by
  unfold unprotect
  rw [if_neg hne, h]
  rfl

/-- Behind a right code a body is decrypted, if there is one. -/
theorem unprotect_verified {raw : Response} {body : Bytes}
    (hne : raw.payload ≠ [])
    (h : chain.verify keys raw.payload raw.status = .ok body) :
    unprotect keys chain raw
      = if body = [] then .ok ⟨[], raw.status⟩
        else match chain.decrypt keys body with
          | .error e => .error e
          | .ok plain => .ok ⟨plain, raw.status⟩ := by
  unfold unprotect
  rw [if_neg hne, h]
  show (if body = [] then _ else _) = _
  by_cases hbody : body = []
  · rw [if_pos hbody, if_pos hbody]
    rfl
  · rw [if_neg hbody, if_neg hbody]
    cases chain.decrypt keys body <;> rfl

/-- The check lets through what is genuine and nothing else. -/
theorem unprotect_ok_iff {raw r : Response} :
    unprotect keys chain raw = .ok r ↔ Genuine keys chain raw r := by
  obtain ⟨payload, status⟩ := raw
  constructor
  · intro h
    by_cases hne : payload = []
    · subst hne
      rw [unprotect_nil] at h
      cases h
      exact .bare status
    · cases hverify : chain.verify keys payload status with
      | error e =>
          rw [unprotect_refused hne hverify] at h
          cases h
      | ok body =>
          rw [unprotect_verified hne hverify] at h
          obtain rfl := Chain.verify_ok_iff.mp hverify
          -- the code is right, and may have come alone
          by_cases hbody : body = []
          · subst hbody
            rw [if_pos rfl] at h
            cases h
            exact .coded status
          · rw [if_neg hbody] at h
            cases hplain : chain.decrypt keys body with
            | error e =>
                rw [hplain] at h
                cases h
            | ok plain =>
                rw [hplain] at h
                cases h
                obtain ⟨-, hwhole, count, hcount, hpad⟩ :=
                  decrypt_ok_iff.mp hplain
                exact .enciphered hbody hwhole hcount hpad
  · intro h
    cases h with
    | bare status => rfl
    | coded status =>
        rw [unprotect_verified (responseCode_ne_nil [] status)
          (verify_responseCode [] status), if_pos rfl]
    | @enciphered body plain _ count hbody hwhole hcount hpad =>
        have hplain : chain.decrypt keys body = .ok plain :=
          decrypt_ok_iff.mpr ⟨hbody, hwhole, count, hcount, hpad⟩
        rw [unprotect_verified (responseCode_ne_nil body _)
          (verify_responseCode body _), if_neg hbody, hplain]

/-- What is not let through had content, and is a breach of the channel. -/
theorem unprotect_error {raw : Response} {e : Error}
    (h : unprotect keys chain raw = .error e) :
    raw.payload ≠ [] ∧ ∃ fault, e = .security fault := by
  obtain ⟨payload, status⟩ := raw
  have hne : payload ≠ [] := by
    rintro rfl
    cases h
  refine ⟨hne, ?_⟩
  cases hverify : chain.verify keys payload status with
  | error e' =>
      rw [unprotect_refused hne hverify] at h
      cases h
      exact Chain.verify_error hverify
  | ok body =>
      rw [unprotect_verified hne hverify] at h
      split at h
      · cases h
      · cases hplain : chain.decrypt keys body with
        | error e' =>
            rw [hplain] at h
            cases h
            exact decrypt_error hplain
        | ok plain =>
            rw [hplain] at h
            cases h

/-- An answer with content as a card makes it, after a command that led to
the values. -/
def sealedAnswer (keys : SessionKeys) (chain : Chain) (plain : Bytes)
    (status : StatusWord) : Response :=
  let body := Scp03.encrypt keys.senc (responseVector keys chain) plain
  ⟨body ++ responseCode keys chain body status, status⟩

/-- What a card makes is genuine, and says what it was made of. -/
theorem sealed_genuine (keys : SessionKeys) (chain : Chain) (plain : Bytes)
    (status : StatusWord) :
    Genuine keys chain (sealedAnswer keys chain plain status)
      ⟨plain, status⟩ := by
  obtain ⟨hne, hwhole, count, hcount, hplain⟩ := decrypt_ok_iff.mp
    (decrypt_encrypt keys.senc (responseVector keys chain) plain)
  exact .enciphered hne hwhole hcount hplain

-- ============================================================== the channel

variable {σ : Type} [Transport σ]

/-- A command over a channel with values that was answered to the end: the
check decides between the content and the end of the channel. -/
theorem send_answered {channel : SecureChannel} {encrypted : Bool}
    {c : Command} {link after : Link σ} {raw : Response}
    (hchain : channel.chain = some chain)
    (hcount : encrypted = true → chain.counter ≠ 0xFFFFFFFF)
    (h : Framing.Answered channel.framing (wrapped channel.keys
      channel.framing.form encrypted chain c) link raw after) :
    channel.send encrypted c link
      = match unprotect channel.keys (nextChain channel.keys
          channel.framing.form encrypted chain c) raw with
        | .error e => ((.error e, channel.failed), after)
        | .ok plain =>
            ((.ok plain, { channel with
              chain := some (nextChain channel.keys
                channel.framing.form encrypted chain c) }), after) := by
  have hsend : channel.send encrypted c link = _ :=
    send_eq hchain hcount link
  rw [Framing.send_ok_iff.mpr h] at hsend
  exact hsend

/-- A genuine answer is returned, and the channel moves on. -/
theorem send_genuine {channel : SecureChannel} {encrypted : Bool}
    {c : Command} {link after : Link σ} {raw r : Response}
    (hchain : channel.chain = some chain)
    (hcount : encrypted = true → chain.counter ≠ 0xFFFFFFFF)
    (h : Framing.Answered channel.framing (wrapped channel.keys
      channel.framing.form encrypted chain c) link raw after)
    (hgenuine : Genuine channel.keys (nextChain channel.keys
      channel.framing.form encrypted chain c) raw r) :
    channel.send encrypted c link
      = ((.ok r, { channel with chain := some (nextChain channel.keys
          channel.framing.form encrypted chain c) }), after) := by
  rw [send_answered hchain hcount h, unprotect_ok_iff.mpr hgenuine]

/-- The host takes nothing over a channel that the card's key does not vouch
for, whatever the transport answers and however it cuts the answer. What is
returned is what a genuine answer says, with the status of its last part.
The other way round, a genuine answer is returned, and one that is not had
content and ends the channel. -/
theorem response_authentic (channel : SecureChannel) (encrypted : Bool)
    (c : Command) (link : Link σ) :
    (∀ r, (channel.send encrypted c link).1.1 = .ok r →
      ∃ chain raw after,
        channel.chain = some chain
        ∧ (encrypted = true → chain.counter ≠ 0xFFFFFFFF)
        ∧ Framing.Answered channel.framing (wrapped channel.keys
          channel.framing.form encrypted chain c) link raw after
        ∧ Genuine channel.keys (nextChain channel.keys
          channel.framing.form encrypted chain c) raw r
        ∧ r.status = raw.status)
      ∧ ∀ chain raw after,
        channel.chain = some chain →
        (encrypted = true → chain.counter ≠ 0xFFFFFFFF) →
        Framing.Answered channel.framing (wrapped channel.keys
          channel.framing.form encrypted chain c) link raw after →
        let next := nextChain channel.keys channel.framing.form encrypted
          chain c
        (∀ r, Genuine channel.keys next raw r →
            channel.send encrypted c link
              = ((.ok r, { channel with chain := some next }), after))
          ∧ ((∀ r, ¬ Genuine channel.keys next raw r) →
            raw.payload ≠ []
              ∧ ∃ fault, channel.send encrypted c link
                = ((.error (.security fault), channel.failed), after)) := by
  constructor
  · intro r hr
    rcases send_cases channel encrypted c link with
      ⟨_, hsend⟩ | ⟨e, after, hsend⟩ | ⟨chain, plain, after, hver, hsend⟩
    · rw [hsend] at hr
      cases hr
    · rw [hsend] at hr
      cases hr
    · rw [hsend] at hr
      cases hr
      -- what was returned is what the check made of all that came
      obtain ⟨raw, hraw, hplain⟩ := hver.answered
      have hgenuine := unprotect_ok_iff.mp hplain
      exact ⟨chain, raw, after, hver.present, hver.counted,
        Framing.send_ok_iff.mp hraw, hgenuine, hgenuine.status_eq⟩
  · intro chain raw after hchain hcount hanswered next
    constructor
    · intro r hgenuine
      exact send_genuine hchain hcount hanswered hgenuine
    · intro hnone
      cases hcheck : unprotect channel.keys next raw with
      | ok r => exact absurd (unprotect_ok_iff.mp hcheck) (hnone r)
      | error e =>
          obtain ⟨hne, fault, rfl⟩ := unprotect_error hcheck
          refine ⟨hne, fault, ?_⟩
          rw [send_answered hchain hcount hanswered, hcheck]

/-- A command that takes one frame. -/
def shortCommand : Command where
  cla := 0x00
  ins := 0xCA
  p1 := 0x00
  p2 := 0x6E
  data := [0x01, 0x02]

/-- An honest card that answers in two parts is taken at its word: what
comes is put together, and it is a genuine answer with content. -/
theorem response_authentic_echo :
    ∃ chain raw after,
      Framing.Answered {} (wrapped SessionKeys.wiped .short true chain
          shortCommand) ⟨echoCard, 2, []⟩ raw after
        ∧ Genuine SessionKeys.wiped (nextChain SessionKeys.wiped .short true
          chain shortCommand) raw ⟨[0x01, 0x02], StatusWord.success⟩ := by
  let channel : SecureChannel := .start SessionKeys.wiped {}
  let link : Link (CardEnd Unit) := ⟨echoCard, 2, []⟩
  have hstep : InStep channel link.card := ⟨rfl, rfl, rfl, rfl⟩
  have hadm : Admitted channel.framing link.card.maxFrame shortCommand := by
    refine ⟨rfl, by decide, fun n hn => ?_, fun hform => ?_⟩
    · cases hn
    · cases hform
  obtain ⟨after, hsend, -⟩ := step_inStep hstep hadm (by decide)
    (show exchanges {} shortCommand echoCard ≤ 2 by decide)
  obtain ⟨hok, -⟩ := response_authentic channel true shortCommand link
  obtain ⟨chain, raw, after, -, -, hanswered, hgenuine, -⟩ :=
    hok ⟨[0x01, 0x02], StatusWord.success⟩ (by rw [hsend]; rfl)
  exact ⟨chain, raw, after, hanswered, hgenuine⟩

end SmartCard.Scp03
