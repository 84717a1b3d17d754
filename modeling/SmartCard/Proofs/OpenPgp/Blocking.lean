/-
What a card makes of the wrong PINs of a reset. Of a card nothing is known
but its answers. If it counts attempts as it should, each wrong PIN takes one
of those that are left, and as many are sent as there were. So nothing is
left to try when the command is sent that ends the life of the application.

# What is asked of a card

`CountsAttempts` is about the commands that a reset sends, at whatever state
the terminal may have come to: the card tells how many attempts are left,
eight zeros are not a PIN, and when they are refused that costs one attempt.
How the commands get to the card does not matter, and a command that gets no
answer may have cost an attempt or not, since it is the last one anyway.
-/
import SmartCard.Proofs.OpenPgp.LateRefusals
import SmartCard.Proofs.OpenPgp.Reset

namespace SmartCard.OpenPgp.Session

open Terminal (Request Asked)

-- =============================================================== counters

/-- How many attempts are left for the two PINs. -/
structure Counters where
  user : Nat
  admin : Nat

namespace Counters

/-- One attempt less, if there is one. -/
def lower (c : Counters) : PinUse → Counters
  | .admin => { c with admin := c.admin - 1 }
  | _ => { c with user := c.user - 1 }

/-- Wrong user PINs count against the user PIN only. -/
theorem lower_user (c : Counters) (n : Nat) :
    (List.replicate n PinUse.user).foldl lower c = ⟨c.user - n, c.admin⟩ := by
  induction n generalizing c with
  | zero => rfl
  | succ n ih =>
      rw [List.replicate_succ, List.foldl_cons, ih]
      simp only [lower, mk.injEq, and_true]
      omega

theorem lower_admin (c : Counters) (n : Nat) :
    (List.replicate n PinUse.admin).foldl lower c = ⟨c.user, c.admin - n⟩ := by
  induction n generalizing c with
  | zero => rfl
  | succ n ih =>
      rw [List.replicate_succ, List.foldl_cons, ih]
      simp only [lower, mk.injEq, true_and]
      omega

/-- The attempts that a card tells. -/
def ofAttempts (attempts : PerPin) : Counters :=
  ⟨attempts.user.toNat, attempts.admin.toNat⟩

/-- The wrong PINs of a reset take all of them. -/
theorem lower_wrongPins (attempts : PerPin) :
    (wrongPins attempts).foldl lower (ofAttempts attempts) = ⟨0, 0⟩ := by
  unfold wrongPins ofAttempts
  rw [List.foldl_append, lower_user, lower_admin]
  simp

end Counters

-- ================================================================= a card

variable {σ : Type} [Transport σ]

/-- From the state of the terminal on, the card tells how many attempts are
left, and takes one away when it refuses eight zeros as a PIN; they are never
the PIN. -/
structure CountsAttempts (left : σ → Counters) (start : Terminal σ) :
    Prop where
  told : ∀ {earlier t after r status}, Asked earlier start t →
    (Terminal.transmit (getDataCommand ObjectId.pinStatus)).run.run t
      = (.ok r, after) →
    r.status = StatusWord.success → PinStatus.parse r.payload = .ok status →
    left after.link.card = .ofAttempts status.attempts
  no_pin : ∀ {earlier t after r} (use : PinUse), Asked earlier start t →
    (Terminal.transmit (verifyCommand use invalidPin)).run.run t
      = (.ok r, after) →
    r.status ≠ StatusWord.success
  lowers : ∀ {earlier t after r} (use : PinUse), Asked earlier start t →
    (Terminal.transmit (verifyCommand use invalidPin)).run.run t
      = (.ok r, after) →
    r.status ≠ StatusWord.success →
    left after.link.card = (left t.link.card).lower use

variable {left : σ → Counters} {start t mid : Terminal σ}
  {earlier : List Request}

/-- Wrong PINs that were all answered take an attempt each. The induction is
on the PINs, with the requests before them growing. -/
theorem CountsAttempts.wrong_pins (h : CountsAttempts left start)
    {uses : List PinUse} {tries : List Request}
    (hearlier : Asked earlier start t) (htries : Asked tries t mid)
    (hwrong : Followed (uses.map .wrong) tries (.ok ())) :
    left mid.link.card = uses.foldl Counters.lower (left t.link.card) := by
  induction uses generalizing earlier t tries with
  | nil =>
      cases hwrong
      cases htries
      rfl
  | cons use uses ih =>
      cases hwrong with
      | @passed _ _ request tries _ hcommand hpassed hmore =>
          cases htries with
          | @cons _ _ _ next _ hrun hframes hlater =>
              obtain ⟨r, hr⟩ := hpassed
              have hsent := hearlier.append (.cons hrun hframes (.nil next))
              rw [hcommand, hr] at hrun
              rw [List.foldl_cons, ← h.lowers use hearlier hrun
                (h.no_pin use hearlier hrun)]
              exact ih hsent hlater hmore

/-- On a card that counts, what a reading tells is what is left. -/
theorem CountsAttempts.reading (h : CountsAttempts left start)
    {reading : Request} {attempts : PerPin}
    (htold : ToldAttempts reading attempts) (hread : Asked [reading] start mid) :
    left mid.link.card = .ofAttempts attempts := by
  obtain ⟨status, htold, rfl⟩ := htold
  obtain ⟨answer, hpayload, hstatus⟩ := htold.tells
  obtain ⟨r, hr, hsuccess⟩ := Request.succeeded_of_payload hpayload
  have hanswer : r.payload = answer := by
    unfold Request.payload at hpayload
    rw [hr] at hpayload
    exact ((result_ok_iff r answer).mp hpayload).2.symm
  cases hread with
  | cons hrun _ hrest =>
      cases hrest
      rw [htold.asks, hr] at hrun
      exact h.told (.nil start) hrun hsuccess
        (by rw [hanswer, parse_of_readPinStatus hstatus])

variable {s : Session σ} {asked before later : List Request}
  {request : Request} {result : Except Error Unit}

/-- When the life of the application is ended, there is nothing left to
try. -/
theorem Resetting.nothing_left (h : Resetting s asked result)
    (hasked : Asked asked s.terminal t)
    (hcounts : CountsAttempts left s.terminal)
    (hsplit : asked = before ++ request :: later)
    (hends : request.command = terminate) :
    ∃ mid, Asked before s.terminal mid ∧ Asked (request :: later) mid t
      ∧ left mid.link.card = ⟨0, 0⟩ := by
  obtain ⟨reading, attempts, tries, rfl, htold, hwrong⟩ :=
    h.before_end hsplit hends
  rw [hsplit] at hasked
  obtain ⟨mid, hbefore, hlater⟩ := hasked.split
  refine ⟨mid, hbefore, hlater, ?_⟩
  have hrow : Asked ([reading] ++ tries) s.terminal mid := hbefore
  obtain ⟨first, hread, htries⟩ := hrow.split
  rw [hcounts.wrong_pins hread htries hwrong, hcounts.reading htold hread]
  exact Counters.lower_wrongPins attempts

/-- On a version that can be reset, a reset asks how many attempts are left
and sends as many wrong PINs before it ends the life of the application and
activates it again. The card may refuse the wrong PINs; any other failure
ends the reset at once. On a card that counts attempts, both PINs are blocked
when the life of the application is ended. -/
theorem reset_blocks_first (hversion : s.version.isAtLeast ⟨1, 0, 6⟩ = true) :
    ∃ asked result t, Ran reset s asked result t
      ∧ Resetting s asked result ∧ BlocksFirst asked result
      ∧ ∀ left, CountsAttempts left s.terminal →
        ∀ before request later, asked = before ++ request :: later →
          request.command = terminate →
          ∃ mid, Asked before s.terminal mid ∧ Asked (request :: later) mid t
            ∧ left mid.link.card = ⟨0, 0⟩ := by
  obtain ⟨asked, result, t, hran, hresetting⟩ := reset_ran hversion
  exact ⟨asked, result, t, hran, hresetting, hresetting.blocksFirst,
    fun left hcounts before request later hsplit hends =>
      hresetting.nothing_left hran.asked hcounts hsplit hends⟩

-- ========================================================= a counting card

/-- A card with attempts left for each PIN, which ends the life of the
application only when both are blocked. -/
structure CountingCard where
  attempts : PerPin

namespace CountingCard

/-- One attempt less, down to none. -/
def spend (n : UInt8) : UInt8 :=
  if n = 0 then 0 else n - 1

theorem toNat_spend (n : UInt8) : (spend n).toNat = n.toNat - 1 := by
  revert n
  exact forall_octet (by decide +kernel)

/-- The card after a wrong PIN. -/
def refuse (card : CountingCard) : PinUse → CountingCard
  | .admin => { card with attempts.admin := spend card.attempts.admin }
  | _ => { card with attempts.user := spend card.attempts.user }

instance : Transport CountingCard where
  transmit frame card := match frame with
    | [0x00, 0xCA, 0x00, 0xC4] =>
      (.ok [0x00, 0x7F, 0x7F, 0x7F, card.attempts.user, card.attempts.reset,
        card.attempts.admin, 0x90, 0x00], card)
    | 0x00 :: 0x20 :: 0x00 :: 0x83 :: _ => (.ok [0x69, 0x82], card.refuse .admin)
    | 0x00 :: 0x20 :: _ => (.ok [0x69, 0x82], card.refuse .user)
    | [0x00, 0xE6, 0x00, 0x00] =>
      if card.attempts.user = 0 ∧ card.attempts.admin = 0 then
        (.ok [0x90, 0x00], card)
      else (.ok [0x69, 0x85], card)
    | _ => (.ok [0x90, 0x00], card)
  maxFrame _ := none
  extendedLength _ := false
  connected _ := true
  close card := (.ok (), card)

/-- The attempts left for the two PINs. -/
def counters (card : CountingCard) : Counters :=
  .ofAttempts card.attempts

theorem counters_refuse (card : CountingCard) (use : PinUse) :
    (card.refuse use).counters = card.counters.lower use := by
  cases use <;>
    simp [counters, refuse, Counters.lower, Counters.ofAttempts, toNat_spend]

/-- The VERIFY of the invalid PIN, as a frame. -/
def verifyFrame (use : PinUse) : Bytes :=
  [0x00, 0x20, 0x00, use.reference, 0x08] ++ invalidPin

/-- The limit does not depend on the card. -/
theorem limit_plain (link : Link CountingCard) :
    Framing.limitOver {} link = 1390 := rfl

/-- A wrong PIN in the clear is refused, and costs an attempt. -/
theorem verify_run (use : PinUse) (card : CountingCard) (n : Nat)
    (journal : List Bytes) :
    (Terminal.transmit (verifyCommand use invalidPin)).run.run
        ⟨⟨card, n + 1, journal⟩, .plain {}⟩
      = (.ok ⟨[], ⟨0x69, 0x82⟩⟩,
        ⟨⟨card.refuse use, n, verifyFrame use :: journal⟩, .plain {}⟩) := by
  rw [Terminal.transmit_plain, Framing.send_run, limit_plain]
  cases use <;> rfl

/-- Over a link that has ended no PIN is refused. -/
theorem verify_ended (use : PinUse) (card : CountingCard)
    (journal : List Bytes) :
    (Terminal.transmit (verifyCommand use invalidPin)).run.run
        ⟨⟨card, 0, journal⟩, .plain {}⟩
      = (.error (.transport .transmission),
        ⟨⟨card, 0, verifyFrame use :: journal⟩, .plain {}⟩) := by
  rw [Terminal.transmit_plain, Framing.send_run, limit_plain]
  cases use <;> rfl

/-- The attempts are told as they are. -/
theorem read_run (card : CountingCard) (n : Nat) (journal : List Bytes) :
    (Terminal.transmit (getDataCommand ObjectId.pinStatus)).run.run
        ⟨⟨card, n + 1, journal⟩, .plain {}⟩
      = (.ok ⟨[0x00, 0x7F, 0x7F, 0x7F, card.attempts.user, card.attempts.reset,
          card.attempts.admin], StatusWord.success⟩,
        ⟨⟨card, n, [0x00, 0xCA, 0x00, 0xC4] :: journal⟩, .plain {}⟩) := by
  rw [Terminal.transmit_plain, Framing.send_run, limit_plain]
  rfl

theorem read_ended (card : CountingCard) (journal : List Bytes) :
    (Terminal.transmit (getDataCommand ObjectId.pinStatus)).run.run
        ⟨⟨card, 0, journal⟩, .plain {}⟩
      = (.error (.transport .transmission),
        ⟨⟨card, 0, [0x00, 0xCA, 0x00, 0xC4] :: journal⟩, .plain {}⟩) := by
  rw [Terminal.transmit_plain, Framing.send_run, limit_plain]
  rfl

/-- In the clear, the counting card is as `CountsAttempts` asks. -/
theorem counts_attempts {start : Terminal CountingCard}
    (hplain : start.messaging = .plain {}) : CountsAttempts counters start where
  told := by
    rintro earlier ⟨⟨card, lifetime, journal⟩, messaging⟩ after r status
      hearlier hrun - hstatus
    obtain rfl : messaging = .plain {} := hearlier.plain hplain
    cases lifetime with
    | zero => cases (read_ended card journal).symm.trans hrun
    | succ n =>
        cases (read_run card n journal).symm.trans hrun
        cases hstatus
        rfl
  no_pin := by
    rintro earlier ⟨⟨card, lifetime, journal⟩, messaging⟩ after r use
      hearlier hrun
    obtain rfl : messaging = .plain {} := hearlier.plain hplain
    cases lifetime with
    | zero => cases (verify_ended use card journal).symm.trans hrun
    | succ n =>
        cases (verify_run use card n journal).symm.trans hrun
        decide
  lowers := by
    rintro earlier ⟨⟨card, lifetime, journal⟩, messaging⟩ after r use
      hearlier hrun -
    obtain rfl : messaging = .plain {} := hearlier.plain hplain
    cases lifetime with
    | zero => cases (verify_ended use card journal).symm.trans hrun
    | succ n =>
        cases (verify_run use card n journal).symm.trans hrun
        exact counters_refuse card use

end CountingCard

/-- A session with a card on which three attempts are left for each PIN. -/
def countingCard : Session CountingCard where
  terminal.link.card.attempts := ⟨3, 0, 3⟩
  terminal.link.lifetime := 16
  version := ⟨5, 4, 3⟩
  data := (willingCard ⟨5, 4, 3⟩).data
  stage := .ready

/-- The card is reset, and both its PINs are blocked by then. -/
theorem reset_blocks_counting_card :
    ∃ asked t before ended later mid, Ran reset countingCard asked (.ok ()) t
      ∧ asked = before ++ ended :: later ∧ ended.command = terminate
      ∧ Asked before countingCard.terminal mid
      ∧ mid.link.card.counters = ⟨0, 0⟩ := by
  obtain ⟨asked, result, t, hran, -, hblocks, hcounts⟩ :=
    reset_blocks_first (s := countingCard) (by decide)
  have hok : (reset.run.run countingCard).1 = .ok () := by decide +kernel
  rw [hran.run] at hok
  obtain rfl : result = .ok () := hok
  obtain ⟨before, last, hlast, hactivates, -⟩ := hblocks.done rfl
  obtain ⟨earlier, ended, rfl, hends, -⟩ := hblocks.activated _ _ _ hlast hactivates
  rw [List.append_assoc, List.singleton_append] at hlast
  obtain ⟨mid, hmid, -, hleft⟩ := hcounts CountingCard.counters
    (CountingCard.counts_attempts rfl) earlier ended [last] hlast hends
  exact ⟨asked, t, earlier, ended, [last], mid, hran, hlast, hends, hmid, hleft⟩

end SmartCard.OpenPgp.Session
