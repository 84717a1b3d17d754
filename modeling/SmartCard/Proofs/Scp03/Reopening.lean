/-
What a host can do at a terminal whose secure channel has ended. Every
command is refused there, and opening a channel begins with a command, so
that is refused as well: without a frame to the card, however well the card
would answer. The terminal has to leave the channel first; then a handshake
that the card goes along with opens a new one.

# The end

A channel ends with the first command that fails over it
(`ended_of_error`), and when it is closed (`ended_of_close`). Only the host
sees the end; the card may still be willing.

# A card that goes along

`Welcomed` asks for answers with a cryptogram of the right keys. There are
such answers for every key set and every pair of challenges
(`proven_greeting`), so what is said of cards that go along is said of
something.

# Attempts

What a host tries after the end is a list of attempts, commands and
openings in any order. One attempt is refused and leaves the terminal as it
is (`attempt_ended`), so the induction over the list needs no more than
that the terminal is the same one.
-/
import SmartCard.Card.Scripted
import SmartCard.Proofs.Apdu.Gathering
import SmartCard.Proofs.Scp03.FailClosed
import SmartCard.Proofs.Scp03.Opening

namespace SmartCard.Scp03

open Framing (Begun begun_single)

-- ======================================================= an honest card

/-- What a card that holds the keys answers to INITIALIZE UPDATE. -/
def greetingBy (keys : StaticKeys) (challenge card : Challenge) : Response where
  payload := List.replicate 10 0 ++ [0xFF, 0x03, 0x00] ++ card.toList
    ++ derive (keys.derive (challenge.toList ++ card.toList)).smac 0x00
      (challenge.toList ++ card.toList) 64
  status := StatusWord.success

/-- That answer proves it, for all keys and challenges. -/
theorem proven_greeting (keys : StaticKeys) (challenge card : Challenge) :
    Proven keys challenge (greetingBy keys challenge card) := by
  have hcard : card.toList.length = 8 := Vector.length_toList
  have hbehind : (greetingBy keys challenge card).payload.drop 13
      = card.toList ++ derive
          (keys.derive (challenge.toList ++ card.toList)).smac 0x00
          (challenge.toList ++ card.toList) 64 := by
    unfold greetingBy
    rw [List.append_assoc]
    exact List.drop_left' rfl
  have hcontext : handshakeContext challenge (greetingBy keys challenge card)
      = challenge.toList ++ card.toList := by
    unfold handshakeContext
    rw [hbehind, List.take_left' hcard]
  have hcryptogram : (greetingBy keys challenge card).payload.drop 21
      = derive (keys.derive (challenge.toList ++ card.toList)).smac 0x00
          (challenge.toList ++ card.toList) 64 := by
    rw [show (21 : Nat) = 13 + 8 from rfl, ← List.drop_drop, hbehind,
      List.drop_left' hcard]
  refine ⟨rfl, ?_, rfl, ?_⟩
  · have hlen := congrArg List.length hcryptogram
    rw [length_derive_cryptogram, List.length_drop] at hlen
    omega
  · unfold handshakeKeys
    rw [hcontext, hcryptogram]
    exact List.take_of_length_le
      (Nat.le_of_eq (length_derive_cryptogram _ _ _))

/-- A card that holds the keys, and goes along with a handshake. -/
def honestCard (keys : StaticKeys) (challenge card : Challenge) :
    ScriptedCard where
  script := .queue [(greetingBy keys challenge card).bytes, [0x90, 0x00]]

/-- Both commands of the handshake go out in one frame each, and the card
answers each at once. -/
theorem welcomed_honest (ref : KeyRef) (keys : StaticKeys)
    (challenge card : Challenge) :
    ∃ after, Welcomed {} ref keys challenge
      ⟨honestCard keys challenge card, 2, []⟩
      (greetingBy keys challenge card) after := by
  let greet := Framing.lastFrame 255 (initializeUpdate ref challenge)
  let mid : Link ScriptedCard :=
    ⟨{ script := .queue [[0x90, 0x00]], received := [greet] }, 1, [greet]⟩
  let c := hostProof {} keys challenge (greetingBy keys challenge card)
  have hgreet : Begun {} (initializeUpdate ref challenge)
      ⟨honestCard keys challenge card, 2, []⟩
      (greetingBy keys challenge card) mid := by
    refine begun_single rfl (fun n hn => by cases hn) ?_ ?_
    · show challenge.toList.length ≤ 255
      rw [Vector.length_toList]
      decide
    · rw [exchange_run]
      show (Response.parse (greetingBy keys challenge card).bytes, mid) = _
      rw [parse_bytes]
  have hauth : Begun {} c mid ⟨[], StatusWord.success⟩
      ((exchange (Framing.lastFrame 255 c)).run.run mid).2 := by
    refine begun_single rfl (fun n hn => by cases hn) ?_ rfl
    show (_ ++ _ : Bytes).length ≤ 255
    rw [List.length_append, Vector.length_toList, List.length_take,
      Vector.length_toList]
    decide
  exact ⟨_, proven_greeting keys challenge card, mid, _,
    hgreet.send_done rfl, hauth.send_done rfl, rfl, _, rfl⟩

variable {σ : Type} [Transport σ]

-- ============================================================= the end

/-- The messaging of the terminal is a secure channel that has ended. -/
def Ended (t : Terminal σ) : Prop :=
  ∃ channel, t.messaging = .secured channel
    ∧ channel.isSynchronized = false

/-- A command that failed over a channel has ended it. -/
theorem ended_of_error {t after : Terminal σ} {channel : SecureChannel}
    {c : Command} {e : Error} (hsecured : t.messaging = .secured channel)
    (h : (Terminal.transmit c).run.run t = (.error e, after)) :
    Ended after := by
  obtain ⟨link, messaging⟩ := t
  subst hsecured
  rw [Terminal.transmit_secured] at h
  injection h with herr hafter
  have hnone : (channel.send true c link).1.2.chain = none :=
    chain_of_error (s := ⟨channel, link⟩) (congrArg some herr)
  refine ⟨(channel.send true c link).1.2, by rw [← hafter], ?_⟩
  unfold SecureChannel.isSynchronized
  rw [hnone]
  rfl

omit [Transport σ] in
/-- Closing ends a channel. -/
theorem ended_of_close {t : Terminal σ} {channel : SecureChannel}
    (hsecured : t.messaging = .secured channel) :
    Ended { t with messaging := t.messaging.close } :=
  ⟨channel.close, by rw [hsecured]; rfl, rfl⟩

theorem chain_of_ended {channel : SecureChannel}
    (h : channel.isSynchronized = false) : channel.chain = none := by
  unfold SecureChannel.isSynchronized at h
  exact Option.isNone_iff_eq_none.mp (Option.isSome_eq_false_iff.mp h)

-- ============================================================= attempts

/-- What a host tries at a terminal. -/
inductive Attempt
  /-- Send a command. -/
  | command (c : Command)
  /-- Open a secure channel. -/
  | opening (ref : KeyRef) (keys : StaticKeys) (challenge : Challenge)

/-- Make an attempt. A command hands back its response. -/
def Attempt.make : Attempt → Host σ (Option Response)
  | .command c => do
    let response ← Terminal.transmit c
    return some response
  | .opening ref keys challenge => do
    openChannel ref keys challenge
    return none

/-- Make one attempt after the other, whatever becomes of each. -/
def makeAll : List Attempt → Terminal σ →
    List (Except Error (Option Response)) × Terminal σ
  | [], t => ([], t)
  | attempt :: rest, t =>
      let (outcome, mid) := attempt.make.run.run t
      let (outcomes, after) := makeAll rest mid
      (outcome :: outcomes, after)

/-- How an attempt is refused once the channel has ended. An opening fails
in its first command. -/
def Attempt.refusal : Attempt → Error
  | .command _ => .security .notSynchronized
  | .opening .. =>
      .context "INITIALIZE UPDATE failed" (.security .notSynchronized)

/-- An ended channel refuses every command and hands nothing over. -/
theorem transmit_ended {t : Terminal σ} (h : Ended t) (c : Command) :
    (Terminal.transmit c).run.run t
      = (.error (.security .notSynchronized), t) := by
  obtain ⟨link, messaging⟩ := t
  obtain ⟨channel, rfl, hended⟩ := h
  rw [Terminal.transmit_secured]
  unfold SecureChannel.send
  rw [chain_of_ended hended]

/-- An opening begins with a command, and fails with it. -/
theorem openChannel_ended {t : Terminal σ} (h : Ended t) (ref : KeyRef)
    (keys : StaticKeys) (challenge : Challenge) :
    (openChannel ref keys challenge).run.run t
      = (.error (.context "INITIALIZE UPDATE failed"
          (.security .notSynchronized)), t) := by
  have hgreet : (ExceptT.adapt (Error.context "INITIALIZE UPDATE failed")
      (Terminal.request (initializeUpdate ref challenge))
        : Host σ Bytes).run.run t
      = (.error (.context "INITIALIZE UPDATE failed"
          (.security .notSynchronized)), t) := by
    rw [run_adapt, Terminal.request_run, transmit_ended h]
    rfl
  unfold openChannel
  exact run_bind_error hgreet

/-- An attempt is refused, and the terminal is left as it is. -/
theorem attempt_ended (attempt : Attempt) {t : Terminal σ} (h : Ended t) :
    attempt.make.run.run t = (.error attempt.refusal, t) := by
  cases attempt with
  | command c => exact run_bind_error (transmit_ended h c)
  | opening ref keys challenge =>
      exact run_bind_error (openChannel_ended h ref keys challenge)

/-- Any number of attempts is refused, and the terminal is left as it
is. -/
theorem attempts_ended (attempts : List Attempt) {t : Terminal σ}
    (h : Ended t) :
    makeAll attempts t
      = (attempts.map fun a => .error a.refusal, t) := by
  induction attempts with
  | nil => rfl
  | cons attempt rest ih =>
      unfold makeAll
      simp only [attempt_ended attempt h, ih]
      rfl

/-- A channel ends with the first command that fails over it, and when it is
closed. A terminal whose channel has ended refuses everything, and a new
channel can be opened there only after the old one was left. Until then
every command and every opening fails without a frame to the card, which
goes for a card that would go along with the handshake too. After that, a
handshake that the card goes along with opens a channel, and commands go
over it. -/
theorem ended_until_left {t : Terminal σ} {channel : SecureChannel}
    (hsecured : t.messaging = .secured channel) :
    (∀ c e after, (Terminal.transmit c).run.run t = (.error e, after) →
        Ended after)
      ∧ Ended { t with messaging := t.messaging.close }
      ∧ (channel.isSynchronized = false →
        (∀ attempts, makeAll attempts t
          = (attempts.map fun a => .error a.refusal, t))
        ∧ ∀ ref keys challenge r after,
          Welcomed channel.framing ref keys challenge t.link r after →
            let fresh := opened channel.framing keys challenge r
            ∃ left, Terminal.leaveChannel.run.run t = (.ok (), left)
              ∧ (openChannel ref keys challenge).run.run left
                = (.ok (), ⟨after, .secured fresh⟩)
              ∧ fresh.isSynchronized = true
              ∧ ∀ c, (Terminal.transmit c).run.run ⟨after, .secured fresh⟩
                = ((fresh.send true c after).1.1,
                  ⟨(fresh.send true c after).2,
                    .secured (fresh.send true c after).1.2⟩)) := by
  refine ⟨fun c e after h => ended_of_error hsecured h,
    ended_of_close hsecured, fun hended => ⟨?_, ?_⟩⟩
  · intro attempts
    exact attempts_ended attempts ⟨channel, hsecured, hended⟩
  · intro ref keys challenge r after h fresh
    obtain ⟨link, messaging⟩ := t
    subst hsecured
    refine ⟨⟨link, .plain channel.framing⟩, rfl, h.opens, rfl, ?_⟩
    exact fun c => Terminal.transmit_secured c after fresh

/-- A terminal whose channel has ended, over a link to a card that would go
along with a handshake. -/
def abandoned : Terminal ScriptedCard where
  link := ⟨honestCard StaticKeys.factory (Octets.zero 8) (Octets.zero 8), 2, []⟩
  messaging := .secured (SecureChannel.start SessionKeys.wiped {}).failed

/-- The card there would go along, and yet the opening is refused without a
frame to it. -/
theorem abandoned_refused :
    (∃ r after, Welcomed {} {} StaticKeys.factory (Octets.zero 8)
        abandoned.link r after)
      ∧ Ended abandoned
      ∧ (openChannel {} StaticKeys.factory (Octets.zero 8)).run.run abandoned
        = (.error (.context "INITIALIZE UPDATE failed"
            (.security .notSynchronized)), abandoned) := by
  have hended : Ended abandoned := ⟨_, rfl, rfl⟩
  obtain ⟨after, hwelcomed⟩ := welcomed_honest {} StaticKeys.factory
    (Octets.zero 8) (Octets.zero 8)
  exact ⟨⟨_, after, hwelcomed⟩, hended, openChannel_ended hended _ _ _⟩

/-- It refuses an opening and a command; after the channel was left, the
opening succeeds. -/
theorem abandoned_until_left :
    makeAll [.opening {} StaticKeys.factory (Octets.zero 8),
        .command (Terminal.selection [])] abandoned
      = ([.error (.context "INITIALIZE UPDATE failed"
            (.security .notSynchronized)),
          .error (.security .notSynchronized)], abandoned)
      ∧ ∃ r after left,
        Terminal.leaveChannel.run.run abandoned = (.ok (), left)
          ∧ (openChannel {} StaticKeys.factory (Octets.zero 8)).run.run left
            = (.ok (), ⟨after, .secured
              (opened {} StaticKeys.factory (Octets.zero 8) r)⟩) := by
  obtain ⟨-, -, hended⟩ := ended_until_left (t := abandoned) rfl
  obtain ⟨hrefused, hfresh⟩ := hended rfl
  obtain ⟨after, hwelcomed⟩ := welcomed_honest {} StaticKeys.factory
    (Octets.zero 8) (Octets.zero 8)
  obtain ⟨left, hleft, hopens, -, -⟩ := hfresh _ _ _ _ _ hwelcomed
  exact ⟨hrefused _, _, after, left, hleft, hopens⟩

end SmartCard.Scp03
