/-
Asking the card for random octets. The session lets every length through
that the card gives at a time, and after that the length has to go into a
frame. So there are two limits, and only the first is the session's own: the
card tells it in two octets, while a short frame has one octet to ask with.

# Where the two part

A command without data is one frame of seven octets at most, and nothing but
its answer length can keep it from the card (`handed_bare`, `refused_bare`).
In extended form every length from one that the card tells can be asked for.
In short form those above 256 can not, and the session, which let them
through, fails on them with the error of a frame that can not be written
(`challenge_passed_iff`).
-/
import SmartCard.OpenPgp.Session.Pins
import SmartCard.Proofs.Apdu.ExtendedForm
import SmartCard.Proofs.Apdu.Limits
import SmartCard.Proofs.Apdu.Whole
import SmartCard.Proofs.OpenPgp.LateRefusals

namespace SmartCard

-- =================================================== commands without data

namespace Framing

variable {σ : Type} [Transport σ] {framing : Framing} {c : Command}
  {link : Link σ}

theorem length_bare (form : LengthForm) (hdata : c.data = []) :
    (c.header ++ c.body form).length ≤ 7 := by
  unfold Command.header Command.body
  cases form <;> cases c.le <;> simp [hdata]

/-- A command without data whose answer length fits is handed over in one
frame. -/
theorem handed_bare (hdata : c.data = []) (hle : c.LeFits framing.form)
    (hlimit : 7 ≤ framing.limitOver link) :
    Handed framing c link [c.header ++ c.body framing.form] := by
  have hlen : c.data.length = 0 := by rw [hdata, List.length_nil]
  cases hform : framing.form with
  | short =>
      rw [hform] at hle
      have hchunk : c.data.length ≤ chunkSize (framing.limitOver link) := by
        omega
      have hacc : Accepted
          (leadingFrames (chunkSize (framing.limitOver link)) c) link link := by
        rw [(leadingFrames_eq_nil_iff (chunkSize_pos _) c).mpr hchunk]
        exact .nil link
      rw [← framesOf_single hform hchunk]
      exact handed_accepted hform hle hacc
  | extended =>
      rw [hform] at hle
      have hfits : c.Fits .extended := ⟨by omega, hle⟩
      have hframe : framesOf framing (framing.limitOver link) c
          = [c.header ++ c.body .extended] := by
        unfold framesOf
        rw [hform]
      rw [← hframe]
      exact handed_fits hform hfits
        (Nat.le_trans (length_bare .extended hdata) hlimit)

/-- A command that was handed over is not refused for its length. -/
theorem handed_not_refused {frame : Bytes} {frames : List Bytes}
    (h : Handed framing c link (frame :: frames)) (hle : c.LeFits framing.form)
    (n : Nat) :
    ((framing.send c).run.run link).1 ≠ .error (.commandLength n) := by
  intro hrefused
  rcases hrun : (framing.send c).run.run link with ⟨result, after⟩
  obtain ⟨counts, hframes⟩ := h
  rw [hrun] at hrefused hframes
  obtain rfl : result = .error (.commandLength n) := hrefused
  rcases commandLength_run hrun with rfl | ⟨hform, hnot, -⟩
  · -- nothing would have gone out
    simp at hframes
  · rw [hform] at hle
    exact hnot hle

/-- One whose answer length does not fit is refused, and nothing is handed
over. -/
theorem refused_bare {n : Nat} (hdata : c.data = []) (hle : c.le = some n)
    (hbad : n = 0 ∨ framing.form.maxLe < n) :
    (framing.send c).run.run link = (.error (.commandLength n), link) := by
  have hlen : c.data.length = 0 := by rw [hdata, List.length_nil]
  rw [send_run]
  cases hform : framing.form with
  | short =>
      rw [hform] at hbad
      have hnone : leadingFrames (chunkSize (framing.limitOver link)) c = [] :=
        (leadingFrames_eq_nil_iff (chunkSize_pos _) c).mpr (by omega)
      rw [begin_short hform]
      rcases sendShort_run (framing.limitOver link) c link with
        ⟨_, _, _, hstop, -⟩ | ⟨hfits, -⟩ | ⟨m, mid, hm, -, hacc, hrun⟩
      · rw [hnone] at hstop
        cases hstop
      · exact absurd hfits (Command.not_leFits.mpr ⟨n, hle, hbad⟩)
      · rw [hnone] at hacc
        cases hacc
        cases hle.symm.trans hm
        rw [hrun]
  | extended =>
      rw [hform] at hbad
      have hencode : c.encode .extended = .error (.commandLength n) :=
        Command.encode_misfit (by omega) hle hbad
      have hrun : (sendExtended (framing.limitOver link) c).run.run link
          = (.error (.commandLength n), link) := by
        unfold sendExtended
        rw [hencode]
        exact run_bind_error (run_lift _ _)
      rw [begin_extended hform, hrun]

end Framing

namespace OpenPgp.Session

-- ================================================================ sessions

variable {σ : Type} [Transport σ] {s : Session σ} {framing : Framing}
  {length : UInt16}

/-- In the clear, a command of an open session is what the framing makes of
it. -/
theorem send_plain (hopen : s.stage ≠ .closed)
    (hplain : s.terminal.messaging = .plain framing) (c : Command) :
    (send c).run.run s
      = ((((framing.send c).run.run s.terminal.link).1.bind
          Response.result).mapError Error.card,
        { s with terminal :=
          ⟨((framing.send c).run.run s.terminal.link).2, .plain framing⟩ }) := by
  obtain ⟨⟨link, messaging⟩, version, data, stage⟩ := s
  obtain rfl : messaging = .plain framing := hplain
  rw [send_open hopen, Terminal.request_run, Terminal.transmit_plain]
  cases ((framing.send c).run.run link).1 <;> rfl

/-- A length that the card gives at a time is asked for. -/
theorem challenge_run (hcan : s.data.capabilities.has .challenge = true)
    (hmax : length ≤ s.data.capabilities.challengeLimit) :
    (challenge length).run.run s
      = (send (getChallenge length.toNat)).run.run s := by
  have hlimit : ¬ length > s.data.capabilities.challengeLimit :=
    UInt16.not_lt.mpr hmax
  unfold challenge
  rw [run_bind_ok (run_capabilities s)]
  simp only [hcan, hlimit, if_true, if_false]

/-- Random octets were asked for. What was handed over is one frame in which
the card reads the command with this length, and then requests for the rest
of the answer; and however that ended, no length was found fault with. -/
structure ChallengePassed (framing : Framing) (length : UInt16)
    (s : Session σ) : Prop where
  asked : ∃ frame, ∃ counts : List Nat, Command.readIn framing.form frame
      = some (getChallenge length.toNat)
    ∧ ((challenge length).run.run s).2.terminal.link.frames
      = s.terminal.link.frames ++ frame
        :: counts.map (Framing.followUpFrame framing.getResponse)
  whole : ∀ n, ((challenge length).run.run s).1
    ≠ .error (.card (.commandLength n))

/-- A challenge within all limits is asked for in one frame. -/
theorem passed_of_fits (hopen : s.stage ≠ .closed)
    (hplain : s.terminal.messaging = .plain framing)
    (hlimit : 7 ≤ framing.limitOver s.terminal.link)
    (hcan : s.data.capabilities.has .challenge = true)
    (hmax : length ≤ s.data.capabilities.challengeLimit)
    (hle : (getChallenge length.toNat).LeFits framing.form) :
    ChallengePassed framing length s := by
  have hhanded : Framing.Handed framing (getChallenge length.toNat)
      s.terminal.link [_] := Framing.handed_bare rfl hle hlimit
  have hrun := (challenge_run hcan hmax).trans
    (send_plain hopen hplain (getChallenge length.toNat))
  refine ⟨?_, fun n hn => ?_⟩
  · obtain ⟨counts, hframes⟩ := hhanded
    refine ⟨_, counts, Command.readIn_written ⟨Nat.zero_le _, hle⟩, ?_⟩
    rw [hrun]
    exact hframes
  · rw [hrun] at hn
    have hnot := Framing.handed_not_refused hhanded hle n
    cases hsent : ((framing.send (getChallenge length.toNat)).run.run
        s.terminal.link).1 with
    | error e =>
        rw [hsent] at hn hnot
        cases hn
        exact hnot rfl
    | ok r =>
        rw [hsent] at hn
        -- an error of the card is its status
        by_cases hdone : r.status = StatusWord.success
        · simp only [Except.bind, result_success hdone] at hn
          cases hn
        · simp only [Except.bind, result_failure hdone] at hn
          cases hn

/-- A length that the form has no `Le` for is refused before anything is
sent. -/
theorem refused_of_misfit (hopen : s.stage ≠ .closed)
    (hplain : s.terminal.messaging = .plain framing)
    (hcan : s.data.capabilities.has .challenge = true)
    (hmax : length ≤ s.data.capabilities.challengeLimit)
    (hbad : length.toNat = 0 ∨ framing.form.maxLe < length.toNat) :
    (challenge length).run.run s
      = (.error (.card (.commandLength length.toNat)), s) := by
  have hrefused : (framing.send (getChallenge length.toNat)).run.run
      s.terminal.link
        = (.error (.commandLength length.toNat), s.terminal.link) :=
    Framing.refused_bare rfl rfl hbad
  rw [challenge_run hcan hmax, send_plain hopen hplain, hrefused, ← hplain]
  rfl

/-- A length that the session lets through is asked for exactly where it is
from one to what a frame of the form can ask for, which in extended form is
every length from one. Any other is refused by the framing for what it is,
and nothing is handed over. -/
theorem challenge_passed_iff (hopen : s.stage ≠ .closed)
    (hplain : s.terminal.messaging = .plain framing)
    (hlimit : 7 ≤ framing.limitOver s.terminal.link)
    (hcan : s.data.capabilities.has .challenge = true)
    (hmax : length ≤ s.data.capabilities.challengeLimit) :
    (ChallengePassed framing length s
        ↔ 1 ≤ length.toNat ∧ length.toNat ≤ framing.form.maxLe)
      ∧ (framing.form = .extended → length.toNat ≤ framing.form.maxLe)
      ∧ (¬ ChallengePassed framing length s →
        (challenge length).run.run s
          = (.error (.card (.commandLength length.toNat)), s)) := by
  have hfits : 1 ≤ length.toNat ∧ length.toNat ≤ framing.form.maxLe →
      ChallengePassed framing length s := by
    rintro hbounds
    refine passed_of_fits hopen hplain hlimit hcan hmax fun n hn => ?_
    cases hn
    exact hbounds
  have hmisfit : ¬ (1 ≤ length.toNat ∧ length.toNat ≤ framing.form.maxLe) →
      (challenge length).run.run s
        = (.error (.card (.commandLength length.toNat)), s) :=
    fun hbad => refused_of_misfit hopen hplain hcan hmax (by omega)
  refine ⟨⟨fun hpassed => ?_, hfits⟩, ?_, fun hnot => hmisfit (mt hfits hnot)⟩
  · by_contra hbad
    exact hpassed.whole _ (congrArg Prod.fst (hmisfit hbad))
  · intro hform
    rw [hform]
    exact Nat.le_of_lt length.toNat_lt

/-- A session with a card that gives up to 3070 octets at a time and answers
90 00 to everything. -/
def givingCard (framing : Framing) : Session ScriptedCard where
  terminal.link := (willingCard ⟨5, 4, 3⟩).terminal.link
  terminal.messaging := .plain framing
  version := ⟨5, 4, 3⟩
  data.aid := aid
  data.capabilities.flags := Capability.challenge.mask
  data.capabilities.secureMessagingAlgorithm := 0
  data.capabilities.challengeLimit := 3070
  data.capabilities.certificateLimit := 0
  data.capabilities.objectLimit := 0
  data.capabilities.pinBlock2 := false
  data.capabilities.securityEnvironment := false
  data.pinStatus := ⟨.once, ⟨127, 127, 127⟩, ⟨3, 0, 3⟩⟩
  data.objects := []
  stage := .ready

/-- In short form 256 octets are the most that can be asked for, and in
extended form the 300 that fail there are no trouble. -/
theorem challenge_passed_giving :
    ChallengePassed {} 256 (givingCard {})
      ∧ ChallengePassed { form := .extended } 300
        (givingCard { form := .extended }) :=
  ⟨(challenge_passed_iff (s := givingCard {}) (by decide) rfl (by decide)
      (by decide) (by decide)).1.mpr (by decide),
    (challenge_passed_iff (s := givingCard { form := .extended }) (by decide)
      rfl (by decide) (by decide) (by decide)).1.mpr (by decide)⟩

/-- The card gives 300 octets at a time, the session lets the length
through, and then it fails on it. -/
theorem challenge_fails_on_length :
    ¬ ∀ (s : Session ScriptedCard) (framing : Framing) (length : UInt16)
        (n : Nat), s.stage ≠ .closed →
      s.terminal.messaging = .plain framing →
      7 ≤ framing.limitOver s.terminal.link →
      s.data.capabilities.has .challenge = true →
      1 ≤ length → length ≤ s.data.capabilities.challengeLimit →
      ((challenge length).run.run s).1 ≠ .error (.card (.commandLength n)) := by
  intro h
  exact h (givingCard {}) {} 300 300 (by decide) rfl (by decide) (by decide)
    (by decide) (by decide) rfl

end OpenPgp.Session

end SmartCard
