/-
Host and card stay in step. From the same keys and the same chaining values
on, every command that can be carried at all is accepted by the card and
understood as it was meant, and every answer comes back as the application
gave it; after that, the two hold the same values again.

# What carries a run

`InStep` is the invariant: the same keys and values, and no command left
half received. One command keeps it (`step_inStep`), and so a run of
commands does, by induction. It says nothing of the application, so an
answer may depend on everything the application has seen.

# How long the link must last

Each command takes a number of exchanges that follows from its length and
from how the card cuts the answer. A run therefore needs some number of
them, and any link that lasts as long will do.
-/
import SmartCard.Proofs.Scp03.Crossing

namespace SmartCard.Scp03

variable {α : Type}

-- ============================================================== in step

/-- Host and card agree on everything that the next command depends on:
they hold the same keys and the same values, no command is half received,
and the host asks for the rest of an answer as the card expects it. -/
structure InStep (channel : SecureChannel) (card : CardEnd α) : Prop where
  keys : card.keys = channel.keys
  chain : channel.chain = some card.chain
  idle : card.pending = []
  getResponse : card.getResponse = channel.framing.getResponse

/-- The host's end after a command that the card carried out. -/
def SecureChannel.moved (channel : SecureChannel) (c : Command)
    (card : CardEnd α) : SecureChannel :=
  { channel with chain := some (card.served channel.framing.form c).chain }

/-- Both ends move in the same way, so they stay in step. -/
theorem InStep.moved {channel : SecureChannel} {card : CardEnd α}
    (h : InStep channel card) (c : Command) :
    InStep (channel.moved c card) (card.served channel.framing.form c) :=
  ⟨h.keys, rfl, rfl, h.getResponse⟩

/-- The card counts a command that it carried out, as long as there is a
number for the next one. -/
theorem counter_served {form : LengthForm} {c : Command} {card : CardEnd α}
    (hcount : card.chain.counter.toNat < 0xFFFFFFFF) :
    (card.served form c).chain.counter.toNat
      = card.chain.counter.toNat + 1 := by
  show (card.chain.counter + 1).toNat = _
  rw [UInt32.toNat_add, UInt32.toNat_one]
  omega

/-- One command of a run: it comes back with what the application
answered, and both ends have moved. -/
theorem step_inStep {channel : SecureChannel} {c : Command}
    {link : Link (CardEnd α)} (h : InStep channel link.card)
    (hadm : Admitted channel.framing link.card.maxFrame c)
    (hcount : link.card.chain.counter.toNat < 0xFFFFFFFF)
    (hlife : exchanges channel.framing c link.card ≤ link.lifetime) :
    ∃ after, channel.send true c link
        = ((.ok (link.card.replyTo c).response, channel.moved c link.card),
          after)
      ∧ after.card = link.card.served channel.framing.form c
      ∧ after.lifetime + exchanges channel.framing c link.card
        = link.lifetime := by
  obtain ⟨after, hsend, hcard, hleft⟩ := send_card h.idle h.getResponse
    hadm hlife
  refine ⟨after, ?_, hcard, hleft⟩
  have hne : link.card.chain.counter ≠ 0xFFFFFFFF := by
    intro heq
    rw [heq] at hcount
    exact absurd hcount (by decide)
  have hplain : unprotect channel.keys (nextChain channel.keys
      channel.framing.form true link.card.chain c)
      (link.card.rawAnswer channel.framing.form c)
      = .ok (link.card.replyTo c).response := by
    rw [← h.keys]
    exact CardEnd.unprotect_answer _ _ _
  rw [h.keys] at hsend
  rw [send_eq h.chain (fun _ => hne), hsend]
  simp only [hplain]
  unfold SecureChannel.moved nextChain
  rw [← h.keys]
  rfl

-- ================================================================== runs

/-- What an application answers to commands that come one after the other
under secure messaging, and the state that leaves it in. -/
def replies (respond : α → Command → CardReply × α) :
    List Command → α → List Response × α
  | [], app => ([], app)
  | c :: commands, app =>
      let (reply, mid) := respond app (secured c)
      let (rest, last) := replies respond commands mid
      (reply.response :: rest, last)

/-- Host and card stay in step over any run of commands that the channel
can carry, as long as the counter does not run out. The card accepts each
command and finds in it what the host put in; the host gets each answer as
the application gave it; and the two end in step, with every command
counted. -/
theorem lockstep {channel : SecureChannel} {card : CardEnd α}
    {commands : List Command} (h : InStep channel card)
    (hadm : ∀ c ∈ commands, Admitted channel.framing card.maxFrame c)
    (hcount : card.chain.counter.toNat + commands.length ≤ 0xFFFFFFFF) :
    ∃ needed, ∀ link : Link (CardEnd α), link.card = card →
      needed ≤ link.lifetime →
      ∃ after : Endpoint (CardEnd α),
        runAll (commands.map Call.process) ⟨channel, link⟩
          = ((replies card.respond commands card.app).1.map
              (fun r => some (.ok r)), after)
        ∧ after.link.card.app = (replies card.respond commands card.app).2
        ∧ after.link.card.verdicts
          = card.verdicts ++ commands.map (fun c => .accepted (secured c))
        ∧ InStep after.channel after.link.card
        ∧ after.link.card.chain.counter.toNat
          = card.chain.counter.toNat + commands.length := by
  induction commands generalizing channel card with
  | nil =>
      refine ⟨0, fun link hlink _ => ⟨⟨channel, link⟩, rfl, ?_⟩⟩
      subst hlink
      refine ⟨rfl, ?_, h, rfl⟩
      rw [List.map_nil, List.append_nil]
  | cons c commands ih =>
      rw [List.length_cons] at hcount
      have hnext : (card.served channel.framing.form c).chain.counter.toNat
          = card.chain.counter.toNat + 1 := counter_served (by omega)
      -- what the rest of the run needs is known before the link is
      obtain ⟨needed, hrest⟩ := ih (h.moved c)
        (fun d hd => hadm d (List.mem_cons_of_mem _ hd)) (by omega)
      refine ⟨exchanges channel.framing c card + needed, ?_⟩
      intro link hlink hlife
      subst hlink
      obtain ⟨mid, hsend, hcard, hleft⟩ := step_inStep h
        (hadm c List.mem_cons_self) (by omega) (by omega)
      obtain ⟨after, hrun, happ, hverdicts, hstep, hcounter⟩ :=
        hrest mid hcard (by omega)
      have hcall : (Call.process c).run ⟨channel, link⟩
          = (some (.ok (link.card.replyTo c).response),
            ⟨channel.moved c link.card, mid⟩) := by
        show Endpoint.send _ _ _ = _
        unfold Endpoint.send
        rw [hsend]
      have hseen : (link.card.served channel.framing.form c).verdicts
          = link.card.verdicts ++ [.accepted (secured c)] := rfl
      refine ⟨after, ?_, happ, ?_, hstep, ?_⟩
      · rw [List.map_cons, runAll_cons, hcall, hrun]
        rfl
      · rw [hverdicts, hseen, List.map_cons, List.append_assoc,
          List.singleton_append]
      · rw [hcounter, hnext, List.length_cons]
        omega

/-- A card whose application answers with what it was sent, in two
parts. -/
def echoCard : CardEnd Unit where
  keys := SessionKeys.wiped
  chain := {}
  getResponse := 0xC0
  maxFrame := none
  app := ()
  respond _ c :=
    ({ plain := c.data, status := .success, terminal := rfl,
       cuts := [(16, 0x10)] }, ())

/-- A command that takes a chain of frames, and one that takes a single
frame and asks for an answer. -/
def longAndShort : List Command := [
  ⟨0x00, 0xDA, 0x00, 0x65, List.replicate 600 0x3C, none⟩,
  ⟨0x00, 0xCA, 0x00, 0x6E, [0x01, 0x02], some 256⟩]

/-- Two commands of a channel that begins, to a card that begins with
it. -/
theorem lockstep_echo :
    InStep (.start SessionKeys.wiped {}) echoCard
      ∧ (∀ c ∈ longAndShort, Admitted {} none c)
      ∧ ∃ needed, ∀ link : Link (CardEnd Unit), link.card = echoCard →
        needed ≤ link.lifetime →
        ∃ after : Endpoint (CardEnd Unit),
          runAll (longAndShort.map Call.process)
              ⟨.start SessionKeys.wiped {}, link⟩
            = (longAndShort.map
                (fun c => some (.ok ⟨c.data, StatusWord.success⟩)), after)
          ∧ after.link.card.verdicts
            = longAndShort.map (fun c => .accepted (secured c))
          ∧ InStep after.channel after.link.card
          ∧ after.link.card.chain.counter.toNat = 3 := by
  have hstep : InStep (.start SessionKeys.wiped {}) echoCard :=
    ⟨rfl, rfl, rfl, rfl⟩
  have hadm : ∀ c ∈ longAndShort, Admitted {} none c := by
    intro c hmem
    rcases List.mem_cons.mp hmem with rfl | hmem
    · refine ⟨rfl, ?_, fun n hn => ?_, fun hform => ?_⟩
      · simp only [securedLength, List.length_replicate]
        decide
      · cases hn
      · cases hform
    · rcases List.mem_singleton.mp hmem with rfl
      refine ⟨rfl, by decide, fun n hn => ?_, fun hform => ?_⟩
      · injection hn with hn
        subst hn
        decide
      · cases hform
  obtain ⟨needed, hrun⟩ := lockstep hstep hadm (by decide)
  refine ⟨hstep, hadm, needed, fun link hlink hlife => ?_⟩
  obtain ⟨after, hout, -, hverdicts, hin, hcounter⟩ := hrun link hlink hlife
  exact ⟨after, hout, hverdicts, hin, hcounter⟩

end SmartCard.Scp03
