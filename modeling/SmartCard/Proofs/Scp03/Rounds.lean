/-
One command over a secure channel, said once for everything that is built
on it: what goes out (`protect_eq`), when nothing can go out
(`protect_exhausted`), which code a payload must carry
(`Chain.verify_ok_iff`), and the ways a round can end (`send_cases`). Laws
about runs of a channel cite these and do not open the round again.

# The order inside a round

The counter and the chaining value move before anything is sent, and the
response is checked against the moved values. The channel keeps the moved
values only when the response passed, so a round that fails anywhere
leaves a channel without values, and there are just three ways: there were
none to begin with, the round failed, or it was verified.

# Calls

What the owner of a channel may ask of it is a `Call`, and a life of the
channel is a list of them (`runAll`), in any order.
-/
import SmartCard.Scp03.SecureChannel

namespace SmartCard.Scp03

-- ======================================================== what is protected

/-- The data of a command as it goes over the channel, without the code. -/
def wireData (keys : SessionKeys) (encrypted : Bool) (chain : Chain)
    (data : Bytes) : Bytes :=
  if encrypted then
    Scp03.encrypt keys.senc
      (encryptBlock keys.senc
        (Chain.vectorInput Chain.commandMark chain.counter)) data
  else data

/-- The command that the code is made of. -/
def coded (keys : SessionKeys) (encrypted : Bool) (chain : Chain)
    (c : Command) : Command :=
  { c with
    cla := c.cla ||| secureMessagingBit
    data := wireData keys encrypted chain c.data }

/-- The chaining value after a command: its code in full. -/
def nextChaining (keys : SessionKeys) (form : LengthForm)
    (encrypted : Bool) (chain : Chain) (c : Command) : Block :=
  Scp03.mac keys.smac
    (chain.chaining.toList ++ macInput form (coded keys encrypted chain c))

/-- The values of the channel after a command. Only encryption counts. -/
def nextChain (keys : SessionKeys) (form : LengthForm) (encrypted : Bool)
    (chain : Chain) (c : Command) : Chain where
  counter := if encrypted then chain.counter + 1 else chain.counter
  chaining := nextChaining keys form encrypted chain c

/-- The command as it is sent: with the first half of its code behind the
data. -/
def wrapped (keys : SessionKeys) (form : LengthForm) (encrypted : Bool)
    (chain : Chain) (c : Command) : Command :=
  { coded keys encrypted chain c with
    data := wireData keys encrypted chain c.data
      ++ (nextChaining keys form encrypted chain c).toList.take 8 }

/-- A command is protected in one way, as long as there is a counter to
encrypt it under. -/
theorem protect_eq (keys : SessionKeys) (form : LengthForm)
    (encrypted : Bool) (c : Command) (chain : Chain)
    (hcount : encrypted = true → chain.counter ≠ 0xFFFFFFFF) :
    protect keys form encrypted c chain
      = .ok (wrapped keys form encrypted chain c,
          nextChain keys form encrypted chain c) := by
  cases encrypted with
  | false => rfl
  | true =>
      have hne := hcount rfl
      unfold protect Chain.encrypt
      rw [if_pos rfl, if_neg hne]
      rfl

/-- At the last counter value an encrypted command is refused. -/
theorem protect_exhausted (keys : SessionKeys) (form : LengthForm)
    (c : Command) {chain : Chain} (hcount : chain.counter = 0xFFFFFFFF) :
    protect keys form true c chain
      = .error (.security .counterExhausted) := by
  unfold protect Chain.encrypt
  rw [if_pos rfl, if_pos hcount]
  rfl

/-- The counter grows by one with an encrypted command and stays with any
other; it does not pass its last value. -/
theorem toNat_nextChain {keys : SessionKeys} {form : LengthForm}
    {encrypted : Bool} {chain : Chain} {c : Command}
    (hcount : encrypted = true → chain.counter ≠ 0xFFFFFFFF) :
    (nextChain keys form encrypted chain c).counter.toNat
      = chain.counter.toNat + (if encrypted then 1 else 0) := by
  cases encrypted with
  | false => rfl
  | true =>
      have hne : chain.counter.toNat ≠ 0xFFFFFFFF := fun heq =>
        hcount rfl (UInt32.toNat_inj.mp heq)
      have hlt := chain.counter.toNat_lt
      show (chain.counter + 1).toNat = chain.counter.toNat + 1
      rw [UInt32.toNat_add, UInt32.toNat_one]
      omega

-- ======================================================== what is accepted

theorem length_code (body : Bytes) (code : Block) :
    (body ++ code.toList.take 8).length = body.length + 8 := by
  rw [List.length_append, List.length_take, Vector.length_toList]
  rfl

/-- The code at the end of a string is taken off. -/
theorem split_code (body : Bytes) (code : Block) :
    (body ++ code.toList.take 8).take
        ((body ++ code.toList.take 8).length - 8) = body
      ∧ (body ++ code.toList.take 8).drop
        ((body ++ code.toList.take 8).length - 8) = code.toList.take 8 := by
  rw [length_code, Nat.add_sub_cancel]
  exact ⟨List.take_left, List.drop_left⟩

/-- A payload passes exactly where it is a body with the code of that body
and the status behind it, and the body is what is left. -/
theorem Chain.verify_ok_iff {keys : SessionKeys} {chain : Chain}
    {payload body : Bytes} {status : StatusWord} :
    chain.verify keys payload status = .ok body
      ↔ payload = body ++ chain.responseMac keys body status := by
  unfold Chain.verify
  constructor
  · intro h
    split at h
    · cases h
    · simp only [] at h
      split at h
      · next hcode =>
          injection h with h
          subst h
          rw [← hcode, List.take_append_drop]
      · cases h
  · rintro rfl
    unfold Chain.responseMac
    obtain ⟨htake, hdrop⟩ := split_code body
      (Scp03.mac keys.srmac (chain.chaining.toList ++ body ++ status.bytes))
    have hlen := length_code body
      (Scp03.mac keys.srmac (chain.chaining.toList ++ body ++ status.bytes))
    rw [if_neg (by omega), htake, hdrop]
    exact if_pos rfl

/-- A payload that does not pass is a breach of the channel. -/
theorem Chain.verify_error {keys : SessionKeys} {chain : Chain}
    {payload : Bytes} {status : StatusWord} {e : Error}
    (h : chain.verify keys payload status = .error e) :
    ∃ fault, e = .security fault := by
  unfold Chain.verify at h
  split at h
  · injection h with h
    exact ⟨_, h.symm⟩
  · simp only [] at h
    split at h
    · cases h
    · injection h with h
      exact ⟨_, h.symm⟩

-- ================================================================== rounds

variable {σ : Type} [Transport σ]

/-- A round over a channel with values, and a counter to encrypt under: the
protected command is sent, and its response is checked against the moved
values. Only a response that passed keeps the channel. -/
theorem send_eq {channel : SecureChannel} {encrypted : Bool} {c : Command}
    {chain : Chain} (hchain : channel.chain = some chain)
    (hcount : encrypted = true → chain.counter ≠ 0xFFFFFFFF)
    (link : Link σ) :
    channel.send encrypted c link
      = match (channel.framing.send (wrapped channel.keys
          channel.framing.form encrypted chain c)).run.run link with
        | (.error e, after) => ((.error e, channel.failed), after)
        | (.ok raw, after) =>
            match unprotect channel.keys (nextChain channel.keys
              channel.framing.form encrypted chain c) raw with
            | .error e => ((.error e, channel.failed), after)
            | .ok plain =>
                ((.ok plain, { channel with
                  chain := some (nextChain channel.keys
                    channel.framing.form encrypted chain c) }), after) := by
  generalize hout : channel.send encrypted c link = out
  unfold SecureChannel.send at hout
  rw [hchain] at hout
  simp only [protect_eq channel.keys channel.framing.form encrypted c chain
    hcount] at hout
  exact hout.symm

/-- The link is left as the protected command leaves it, whatever the
channel makes of the response. -/
theorem send_link {channel : SecureChannel} {encrypted : Bool}
    {c : Command} {chain : Chain} (hchain : channel.chain = some chain)
    (hcount : encrypted = true → chain.counter ≠ 0xFFFFFFFF)
    (link : Link σ) :
    (channel.send encrypted c link).2
      = ((channel.framing.send (wrapped channel.keys channel.framing.form
          encrypted chain c)).run.run link).2 := by
  rw [send_eq hchain hcount]
  rcases (channel.framing.send (wrapped channel.keys channel.framing.form
    encrypted chain c)).run.run link with ⟨e | raw, after⟩
  · rfl
  · simp only []
    cases unprotect channel.keys (nextChain channel.keys
      channel.framing.form encrypted chain c) raw <;> rfl

/-- At the last counter value an encrypted command fails the channel, and
nothing is sent. -/
theorem send_exhausted {channel : SecureChannel} {c : Command}
    {chain : Chain} (hchain : channel.chain = some chain)
    (hlast : chain.counter = 0xFFFFFFFF) (link : Link σ) :
    channel.send true c link
      = ((.error (.security .counterExhausted), channel.failed), link) := by
  unfold SecureChannel.send
  rw [hchain]
  simp only [protect_exhausted channel.keys channel.framing.form c hlast]

/-- A round that was verified: the command was protected and sent, the
response passed, and the channel moved to the values of the command. -/
structure Verified (channel : SecureChannel) (encrypted : Bool)
    (c : Command) (link : Link σ) (chain : Chain) (plain : Response)
    (after : Link σ) : Prop where
  /-- There were values to begin with. -/
  present : channel.chain = some chain
  /-- There was a counter to encrypt under. -/
  counted : encrypted = true → chain.counter ≠ 0xFFFFFFFF
  /-- The response to the protected command passed. -/
  answered : ∃ raw,
    (channel.framing.send (wrapped channel.keys channel.framing.form
      encrypted chain c)).run.run link = (.ok raw, after)
    ∧ unprotect channel.keys (nextChain channel.keys channel.framing.form
      encrypted chain c) raw = .ok plain

/-- The three ways of a round: there is no channel and nothing happens;
the round fails and leaves no channel; or it was verified. -/
theorem send_cases (channel : SecureChannel) (encrypted : Bool)
    (c : Command) (link : Link σ) :
    (channel.chain = none
        ∧ channel.send encrypted c link
          = ((.error (.security .notSynchronized), channel), link))
      ∨ (∃ e after, channel.send encrypted c link
          = ((.error e, channel.failed), after))
      ∨ ∃ chain plain after,
          Verified channel encrypted c link chain plain after
          ∧ channel.send encrypted c link
            = ((.ok plain, { channel with
                chain := some (nextChain channel.keys
                  channel.framing.form encrypted chain c) }), after) := by
  cases hchain : channel.chain with
  | none =>
      refine Or.inl ⟨rfl, ?_⟩
      unfold SecureChannel.send
      rw [hchain]
  | some chain =>
      refine Or.inr ?_
      by_cases hcount : encrypted = true → chain.counter ≠ 0xFFFFFFFF
      · rw [send_eq hchain hcount]
        rcases hx : (channel.framing.send (wrapped channel.keys
          channel.framing.form encrypted chain c)).run.run link
          with ⟨e | raw, after⟩
        · -- frames may have gone out, but the values are lost
          exact Or.inl ⟨e, after, rfl⟩
        · cases hu : unprotect channel.keys (nextChain channel.keys
            channel.framing.form encrypted chain c) raw with
          | error e => exact Or.inl ⟨e, after, by simp only [hu]⟩
          | ok plain =>
              exact Or.inr ⟨chain, plain, after,
                ⟨hchain, hcount, raw, hx, hu⟩, by simp only [hu]⟩
      · obtain ⟨rfl, hlast⟩ : encrypted = true
            ∧ chain.counter = 0xFFFFFFFF := by
          simpa using hcount
        exact Or.inl ⟨_, link, send_exhausted hchain hlast link⟩

-- ================================================================= calls

/-- A channel and the link that it sends over. -/
structure Endpoint (σ : Type) where
  /-- The host's end of the channel. -/
  channel : SecureChannel
  /-- The link to the card. -/
  link : Link σ

/-- What the owner of a channel asks of it. -/
inductive Call
  /-- Send a command, encrypted or readable. -/
  | send (encrypted : Bool) (c : Command)
  /-- Process a command, which is to send it encrypted. -/
  | process (c : Command)
  /-- Change how commands are put into frames, the form of lengths say. -/
  | reframe (change : Framing → Framing)
  /-- Close the channel. -/
  | close

/-- What a call hands back: a response or an error where a command was
sent, nothing otherwise. -/
abbrev Outcome := Option (Except Error Response)

/-- Send a command over the channel. -/
def Endpoint.send (s : Endpoint σ) (encrypted : Bool) (c : Command) :
    Outcome × Endpoint σ :=
  let out := s.channel.send encrypted c s.link
  (some out.1.1, ⟨out.1.2, out.2⟩)

/-- Make one call. -/
def Call.run (s : Endpoint σ) : Call → Outcome × Endpoint σ
  | .send encrypted c => s.send encrypted c
  | .process c => s.send true c
  | .reframe change =>
      let framing := change s.channel.framing
      (none, { s with channel := { s.channel with framing } })
  | .close => (none, { s with channel := s.channel.close })

/-- Make one call after the other. -/
def runAll : List Call → Endpoint σ → List Outcome × Endpoint σ
  | [], s => ([], s)
  | call :: calls, s =>
      let (outcome, mid) := call.run s
      let (outcomes, after) := runAll calls mid
      (outcome :: outcomes, after)

theorem runAll_cons (call : Call) (calls : List Call) (s : Endpoint σ) :
    runAll (call :: calls) s
      = ((call.run s).1 :: (runAll calls (call.run s).2).1,
        (runAll calls (call.run s).2).2) := rfl

/-- The command that a call sends, and whether it is encrypted. -/
def Call.command? : Call → Option (Bool × Command)
  | .send encrypted c => some (encrypted, c)
  | .process c => some (true, c)
  | .reframe _ => none
  | .close => none

/-- A call that sends a command is a command sent. -/
theorem run_command {call : Call} {encrypted : Bool} {c : Command}
    (h : call.command? = some (encrypted, c)) (s : Endpoint σ) :
    call.run s = s.send encrypted c := by
  cases call with
  | send encrypted' c' =>
      cases h
      rfl
  | process c' =>
      cases h
      rfl
  | reframe change => cases h
  | close => cases h

/-- Only a command hands anything back. -/
theorem command_of_outcome {call : Call} {s : Endpoint σ}
    {result : Except Error Response} (h : (call.run s).1 = some result) :
    ∃ encrypted c, call.command? = some (encrypted, c) := by
  cases call with
  | send encrypted c => exact ⟨encrypted, c, rfl⟩
  | process c => exact ⟨true, c, rfl⟩
  | reframe change => cases h
  | close => cases h

end SmartCard.Scp03
