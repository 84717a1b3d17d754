/-
A secure channel fails closed. Its owner may call it in any order, and the
card may answer anything or nothing: once a command has failed, or the
channel was closed, there are no chaining values any more, every command is
refused, and no frame is handed over. A command that ends well moves the
values by exactly one step.

# Why one bit is enough

Whether there are values says it all. Without them a call keeps the link,
refuses, and leaves no values again (`step_ended`), so a run of such calls
does the same by induction (`run_ended`), whatever came before it. That a
failure of any kind ends the values is the three ways of a round; where
inside the round it failed does not matter.
-/
import SmartCard.Proofs.Scp03.Rounds

namespace SmartCard.Scp03

variable {σ : Type} [Transport σ]

-- ========================================================== without values

/-- What a call hands back once the channel is without values: commands
are refused. -/
def Call.refusal (call : Call) : Outcome :=
  call.command?.map fun _ => .error (.security .notSynchronized)

/-- Without values a call is refused, keeps the link, and leaves no
values. -/
theorem step_ended (call : Call) {s : Endpoint σ}
    (h : s.channel.chain = none) :
    (call.run s).1 = call.refusal
      ∧ (call.run s).2.link = s.link
      ∧ (call.run s).2.channel.chain = none := by
  have hsend : ∀ encrypted c, s.send encrypted c
      = (some (.error (.security .notSynchronized)), s) := by
    intro encrypted c
    unfold Endpoint.send SecureChannel.send
    rw [h]
  cases call with
  | send encrypted c =>
      rw [Call.run, hsend]
      exact ⟨rfl, rfl, h⟩
  | process c =>
      rw [Call.run, hsend]
      exact ⟨rfl, rfl, h⟩
  | reframe change => exact ⟨rfl, rfl, h⟩
  | close => exact ⟨rfl, rfl, rfl⟩

/-- Without values every call of a run is refused, and the link is never
touched again. -/
theorem run_ended (calls : List Call) {s : Endpoint σ}
    (h : s.channel.chain = none) :
    (runAll calls s).1 = calls.map Call.refusal
      ∧ (runAll calls s).2.link = s.link
      ∧ (runAll calls s).2.channel.chain = none := by
  induction calls generalizing s with
  | nil => exact ⟨rfl, rfl, h⟩
  | cons call calls ih =>
      obtain ⟨hout, hlink, hchain⟩ := step_ended call h
      obtain ⟨houts, hlinks, hchains⟩ := ih hchain
      rw [runAll_cons]
      refine ⟨?_, hlinks.trans hlink, hchains⟩
      rw [hout, houts, List.map_cons]

-- ============================================================== one command

/-- A command that failed leaves no values. -/
theorem chain_of_error {s : Endpoint σ} {encrypted : Bool} {c : Command}
    {e : Error} (h : (s.send encrypted c).1 = some (.error e)) :
    (s.send encrypted c).2.channel.chain = none := by
  unfold Endpoint.send at h ⊢
  rcases send_cases s.channel encrypted c s.link with
    ⟨hnone, hsend⟩ | ⟨e', after, hsend⟩ | ⟨chain, plain, after, _, hsend⟩
  · rw [hsend]
    exact hnone
  · rw [hsend]
    rfl
  · rw [hsend] at h
    cases h

/-- The values of a channel moved by one command: the chaining value is
the code of the old one and of the octets that the code of the command
covers, and the counter grew by one if the command was encrypted. -/
structure Advanced (encrypted : Bool) (c : Command)
    (before after : SecureChannel) : Prop where
  moved : ∃ chain next,
    before.chain = some chain ∧ after.chain = some next
    ∧ next.chaining = Cmac.cmac (Aes.cipher128 before.keys.smac)
        (chain.chaining.toList ++ macInput before.framing.form
          (coded before.keys encrypted chain c))
    ∧ next.counter.toNat
        = chain.counter.toNat + (if encrypted then 1 else 0)
  keys : after.keys = before.keys
  framing : after.framing = before.framing

/-- A command that ended well moved the values by one step. -/
theorem advanced_of_ok {s : Endpoint σ} {encrypted : Bool} {c : Command}
    {r : Response} (h : (s.send encrypted c).1 = some (.ok r)) :
    Advanced encrypted c s.channel (s.send encrypted c).2.channel := by
  unfold Endpoint.send at h ⊢
  rcases send_cases s.channel encrypted c s.link with
    ⟨_, hsend⟩ | ⟨e, after, hsend⟩ | ⟨chain, plain, after, hver, hsend⟩
  · rw [hsend] at h
    cases h
  · rw [hsend] at h
    cases h
  · rw [hsend]
    refine ⟨⟨chain, _, hver.present, rfl, rfl, ?_⟩, rfl, rfl⟩
    exact toNat_nextChain hver.counted

-- ==================================================================== runs

/-- A channel fails closed, in any run of calls and against any card. Once
a command has failed or the channel was closed, there are no values after
any further calls; each command among them is refused, and the link, with
its journal of frames, is left as it was. A command that ended well leaves
values, one step on. -/
theorem fails_closed (before : List Call) (call : Call)
    (after : List Call) (s : Endpoint σ) :
    let reached := (runAll before s).2
    let left := (call.run reached).2
    ((call = .close ∨ ∃ e, (call.run reached).1 = some (.error e)) →
        left.channel.chain = none
        ∧ (runAll after left).2.channel.chain = none
        ∧ (runAll after left).1 = after.map Call.refusal
        ∧ (runAll after left).2.link = left.link)
      ∧ ∀ r, (call.run reached).1 = some (.ok r) →
          ∃ encrypted c, call.command? = some (encrypted, c)
            ∧ Advanced encrypted c reached.channel left.channel := by
  intro reached left
  constructor
  · intro hend
    -- closing ends the values itself; an error came from a command
    have hnone : left.channel.chain = none := by
      rcases hend with rfl | ⟨e, herr⟩
      · rfl
      · obtain ⟨encrypted, c, hcmd⟩ := command_of_outcome herr
        rw [run_command hcmd] at herr
        show (call.run reached).2.channel.chain = none
        rw [run_command hcmd]
        exact chain_of_error herr
    obtain ⟨hout, hlink, hchain⟩ := run_ended after hnone
    exact ⟨hnone, hchain, hout, hlink⟩
  · intro r hok
    obtain ⟨encrypted, c, hcmd⟩ := command_of_outcome hok
    refine ⟨encrypted, c, hcmd, ?_⟩
    rw [run_command hcmd] at hok
    show Advanced encrypted c reached.channel (call.run reached).2.channel
    rw [run_command hcmd]
    exact advanced_of_ok hok

end SmartCard.Scp03
