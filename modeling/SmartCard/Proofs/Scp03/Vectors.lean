/-
The vectors that a channel encrypts and decrypts under, over a whole run.
Each is made of a block with a mark and a number, and the law of a cipher in
chained blocks is that no such block serves twice.

# Commands

The number of a command goes up with every encrypted command and never
comes back, so all blocks of later commands carry greater numbers
(`numbered_above`), and the marks keep them apart from those of responses.

# Responses

The number of a response is that of the counter after the command, less
one. A readable command does not move the counter. So the response to a
readable command shares its vector with the response before it, and goes on
to share it until a command is encrypted (`response_vectors_repeat_iff`).
Only where all commands are encrypted does each response have its own.
-/
import SmartCard.Card.Scripted
import SmartCard.Proofs.Scp03.FailClosed
import SmartCard.Proofs.Scp03.Noting

namespace SmartCard.Scp03

variable {σ : Type} [Transport σ]

-- ============================================================= the counter

/-- A block shows its mark and its number. -/
theorem vectorInput_inj {mark mark' : UInt8} {number number' : UInt32}
    (h : Chain.vectorInput mark number = Chain.vectorInput mark' number') :
    mark = mark' ∧ number = number' := by
  have hlist : ∀ (m : UInt8) (n : UInt32),
      (Chain.vectorInput m n).toList
        = m :: List.replicate 11 0 ++ Bytes.bigEndian 4 n.toNat := by
    intro m n
    exact Octets.toList_ofBytes (by simp)
  have heq := congrArg Vector.toList h
  rw [hlist, hlist] at heq
  injection heq with hmark hrest
  refine ⟨hmark, ?_⟩
  have hnumber := congrArg Bytes.toNat (List.append_cancel_left hrest)
  rw [Bytes.toNat_bigEndian, Bytes.toNat_bigEndian] at hnumber
  have hlt := number.toNat_lt
  have hlt' := number'.toNat_lt
  have hrange : Nat.pow 256 4 = 2 ^ 32 := by decide
  rw [hrange, Nat.mod_eq_of_lt hlt, Nat.mod_eq_of_lt hlt'] at hnumber
  exact UInt32.toNat_inj.mp hnumber

/-- Whether a call sends an encrypted command. -/
def Call.encrypts (call : Call) : Bool :=
  match call.command? with
  | none => false
  | some (encrypted, _) => encrypted

/-- A call that leaves values found some, and moved the counter by one
where it encrypted. -/
theorem counter_call {call : Call} {s : Endpoint σ} {next : Chain}
    (h : (call.run s).2.channel.chain = some next) :
    ∃ chain, s.channel.chain = some chain
      ∧ next.counter.toNat
        = chain.counter.toNat + (if call.encrypts then 1 else 0) := by
  have hsend : ∀ encrypted c,
      (s.send encrypted c).2.channel.chain = some next →
      ∃ chain, s.channel.chain = some chain
        ∧ next.counter.toNat
          = chain.counter.toNat + (if encrypted then 1 else 0) := by
    intro encrypted c h
    unfold Endpoint.send at h
    rcases send_cases s.channel encrypted c s.link with
      ⟨hnone, hsend⟩ | ⟨e, after, hsend⟩ | ⟨chain, _, after, hver, hsend⟩
    · rw [hsend] at h
      rw [hnone] at h
      cases h
    · rw [hsend] at h
      cases h
    · rw [hsend] at h
      cases h
      exact ⟨chain, hver.present, toNat_nextChain hver.counted⟩
  cases call with
  | send encrypted c => exact hsend encrypted c h
  | process c => exact hsend true c h
  | reframe change => exact ⟨next, h, rfl⟩
  | close => cases h

/-- The counter counts the encrypted commands of a run, and does not
wrap. -/
theorem counter_run {calls : List Call} {s : Endpoint σ} {last : Chain}
    (h : (runAll calls s).2.channel.chain = some last) :
    ∃ chain, s.channel.chain = some chain
      ∧ last.counter.toNat
        = chain.counter.toNat + calls.countP Call.encrypts := by
  induction calls generalizing s with
  | nil => exact ⟨last, h, rfl⟩
  | cons call calls ih =>
      rw [runAll_cons] at h
      obtain ⟨mid, hmid, hlast⟩ := ih h
      obtain ⟨chain, hchain, hnext⟩ := counter_call hmid
      refine ⟨chain, hchain, ?_⟩
      rw [hlast, hnext, List.countP_cons]
      omega

-- =================================================== the blocks of a round

/-- A round that was answered notes what the response takes behind what the
command takes. -/
theorem roundInputs_answered {channel : SecureChannel} {encrypted : Bool}
    {c : Command} {chain : Chain} {link after : Link σ} {raw : Response}
    (hchain : channel.chain = some chain)
    (hcount : encrypted = true → chain.counter ≠ 0xFFFFFFFF)
    (h : (channel.framing.send (wrapped channel.keys channel.framing.form
      encrypted chain c)).run.run link = (.ok raw, after)) :
    roundInputs channel encrypted c link
      = commandInputs encrypted chain
        ++ responseInputs channel.keys (nextChain channel.keys
          channel.framing.form encrypted chain c) raw := by
  unfold roundInputs
  rw [hchain]
  simp only [protect_eq channel.keys channel.framing.form encrypted c chain
    hcount, h]

/-- A round over a channel with values notes what the command takes, and
where it was answered also what the response takes. -/
theorem roundInputs_cases {channel : SecureChannel} {chain : Chain}
    (hchain : channel.chain = some chain) (encrypted : Bool) (c : Command)
    (link : Link σ) :
    roundInputs channel encrypted c link = commandInputs encrypted chain
      ∨ (encrypted = true → chain.counter ≠ 0xFFFFFFFF)
        ∧ ∃ raw, roundInputs channel encrypted c link
          = commandInputs encrypted chain
            ++ responseInputs channel.keys (nextChain channel.keys
              channel.framing.form encrypted chain c) raw := by
  by_cases hcount : encrypted = true → chain.counter ≠ 0xFFFFFFFF
  · rcases hx : (channel.framing.send (wrapped channel.keys
      channel.framing.form encrypted chain c)).run.run link
      with ⟨e | raw, after⟩
    · refine Or.inl ?_
      unfold roundInputs
      rw [hchain]
      simp only [protect_eq channel.keys channel.framing.form encrypted c
        chain hcount, hx, List.append_nil]
    · exact Or.inr ⟨hcount, raw, roundInputs_answered hchain hcount hx⟩
  · obtain ⟨rfl, hlast⟩ : encrypted = true
        ∧ chain.counter = 0xFFFFFFFF := by
      simpa using hcount
    refine Or.inl ?_
    unfold roundInputs
    rw [hchain]
    simp only [protect_exhausted channel.keys channel.framing.form c hlast,
      List.append_nil]

theorem commandBlocks_commandInputs (encrypted : Bool) (chain : Chain) :
    commandBlocks (commandInputs encrypted chain)
      = if encrypted then
          [Chain.vectorInput Chain.commandMark chain.counter]
        else [] := by
  cases encrypted <;> rfl

theorem responseBlocks_commandInputs (encrypted : Bool) (chain : Chain) :
    responseBlocks (commandInputs encrypted chain) = [] := by
  cases encrypted <;> rfl

/-- A response takes one block at most. -/
theorem responseInputs_cases (keys : SessionKeys) (chain : Chain)
    (raw : Response) :
    responseInputs keys chain raw = []
      ∨ responseInputs keys chain raw
        = [.response
            (Chain.vectorInput Chain.responseMark (chain.counter - 1))] := by
  unfold responseInputs
  split
  · exact Or.inl rfl
  · split
    · exact Or.inl rfl
    · split
      · exact Or.inl rfl
      · exact Or.inr rfl

/-- A response with a body and its code takes its block. -/
theorem responseInputs_body {keys : SessionKeys} {chain : Chain}
    {body : Bytes} (hbody : body ≠ []) (status : StatusWord) :
    responseInputs keys chain
        ⟨body ++ responseCode keys chain body status, status⟩
      = [.response
          (Chain.vectorInput Chain.responseMark (chain.counter - 1))] := by
  unfold responseInputs
  rw [if_neg (responseCode_ne_nil body status)]
  simp only [verify_responseCode, if_neg hbody]

theorem commandBlocks_responseInputs (keys : SessionKeys) (chain : Chain)
    (raw : Response) : commandBlocks (responseInputs keys chain raw) = [] := by
  rcases responseInputs_cases keys chain raw with h | h
  · rw [h]
    rfl
  · rw [h]
    rfl

/-- A channel that has failed notes nothing. -/
theorem roundInputs_none {channel : SecureChannel}
    (h : channel.chain = none) (encrypted : Bool) (c : Command)
    (link : Link σ) : roundInputs channel encrypted c link = [] := by
  unfold roundInputs
  rw [h]

/-- Of a round over a channel with values, the blocks for commands. -/
theorem commandBlocks_round {channel : SecureChannel} {chain : Chain}
    (hchain : channel.chain = some chain) (encrypted : Bool) (c : Command)
    (link : Link σ) :
    commandBlocks (roundInputs channel encrypted c link)
      = if encrypted then
          [Chain.vectorInput Chain.commandMark chain.counter]
        else [] := by
  rcases roundInputs_cases hchain encrypted c link with hcut | ⟨_, raw, hfull⟩
  · rw [hcut, commandBlocks_commandInputs]
  · rw [hfull, commandBlocks_append, commandBlocks_responseInputs,
      List.append_nil, commandBlocks_commandInputs]

/-- Of a round over a channel with values, the blocks for responses. -/
theorem responseBlocks_round {channel : SecureChannel} {chain : Chain}
    (hchain : channel.chain = some chain) (encrypted : Bool) (c : Command)
    (link : Link σ) :
    responseBlocks (roundInputs channel encrypted c link) = []
      ∨ (encrypted = true → chain.counter ≠ 0xFFFFFFFF)
        ∧ responseBlocks (roundInputs channel encrypted c link)
          = [Chain.vectorInput Chain.responseMark ((nextChain channel.keys
              channel.framing.form encrypted chain c).counter - 1)] := by
  rcases roundInputs_cases hchain encrypted c link with
    hcut | ⟨hcount, raw, hfull⟩
  · rw [hcut, responseBlocks_commandInputs]
    exact Or.inl rfl
  · rw [hfull, responseBlocks_append, responseBlocks_commandInputs,
      List.nil_append]
    rcases responseInputs_cases channel.keys (nextChain channel.keys
      channel.framing.form encrypted chain c) raw with h | h
    · rw [h]
      exact Or.inl rfl
    · rw [h]
      exact Or.inr ⟨hcount, rfl⟩

/-- An encrypted command over a channel with values takes the block of the
counter, and no other call takes a block for a command. -/
theorem commandBlocks_call (call : Call) (s : Endpoint σ) :
    commandBlocks (call.vectors s) = []
      ∨ ∃ chain, s.channel.chain = some chain ∧ call.encrypts = true
        ∧ commandBlocks (call.vectors s)
          = [Chain.vectorInput Chain.commandMark chain.counter] := by
  unfold Call.vectors Call.encrypts
  rcases call.command? with _ | ⟨encrypted, c⟩
  · exact Or.inl rfl
  · cases hchain : s.channel.chain with
    | none =>
        exact Or.inl (congrArg commandBlocks
          (roundInputs_none hchain encrypted c s.link))
    | some chain =>
        have hround := commandBlocks_round hchain encrypted c s.link
        cases encrypted with
        | false => exact Or.inl hround
        | true => exact Or.inr ⟨chain, rfl, rfl, hround⟩

/-- A response takes the block of the counter after its command, less
one. -/
theorem responseBlocks_call (call : Call) (s : Endpoint σ) :
    responseBlocks (call.vectors s) = []
      ∨ ∃ chain moved : Chain, s.channel.chain = some chain
        ∧ moved.counter.toNat
          = chain.counter.toNat + (if call.encrypts then 1 else 0)
        ∧ responseBlocks (call.vectors s)
          = [Chain.vectorInput Chain.responseMark (moved.counter - 1)] := by
  unfold Call.vectors Call.encrypts
  rcases call.command? with _ | ⟨encrypted, c⟩
  · exact Or.inl rfl
  · cases hchain : s.channel.chain with
    | none =>
        exact Or.inl (congrArg responseBlocks
          (roundInputs_none hchain encrypted c s.link))
    | some chain =>
        rcases responseBlocks_round hchain encrypted c s.link with
          hnil | ⟨hcount, hone⟩
        · exact Or.inl hnil
        · exact Or.inr ⟨chain, _, rfl, toNat_nextChain hcount, hone⟩

-- ============================================================ whole runs

/-- Of the blocks picked from its notes, a call takes at most one, and only
where it encrypts: the one of the mark and the counter. -/
def OneNumbered (σ : Type) [Transport σ] (mark : UInt8)
    (pick : VectorInput → Option Block) (call : Call) : Prop :=
  ∀ s : Endpoint σ, (call.vectors s).filterMap pick = []
    ∨ ∃ chain, s.channel.chain = some chain ∧ call.encrypts = true
      ∧ (call.vectors s).filterMap pick
        = [Chain.vectorInput mark chain.counter]

/-- The blocks of a run carry the number of the counter that it began with,
or greater ones. -/
theorem numbered_above {mark : UInt8} {pick : VectorInput → Option Block}
    {calls : List Call} (h : ∀ call ∈ calls, OneNumbered σ mark pick call)
    {s : Endpoint σ} {block : Block}
    (hmem : block ∈ (vectors calls s).filterMap pick) :
    ∃ chain number, s.channel.chain = some chain
      ∧ block = Chain.vectorInput mark number
      ∧ chain.counter.toNat ≤ number.toNat := by
  induction calls generalizing s with
  | nil => cases hmem
  | cons call calls ih =>
      rw [vectors, List.filterMap_append, List.mem_append] at hmem
      rcases hmem with hmem | hmem
      · rcases h call List.mem_cons_self s with
          hnil | ⟨chain, hchain, -, hone⟩
        · rw [hnil] at hmem
          cases hmem
        · rw [hone, List.mem_singleton] at hmem
          exact ⟨chain, chain.counter, hchain, hmem, Nat.le_refl _⟩
      · obtain ⟨mid, number, hmid, hblock, hle⟩ :=
          ih (fun d hd => h d (List.mem_cons_of_mem _ hd)) hmem
        obtain ⟨chain, hchain, hcount⟩ := counter_call hmid
        exact ⟨chain, number, hchain, hblock, by omega⟩

/-- No block of a run is taken twice: a call that takes one moves the
counter past it. -/
theorem numbered_nodup {mark : UInt8} {pick : VectorInput → Option Block}
    {calls : List Call} (h : ∀ call ∈ calls, OneNumbered σ mark pick call)
    (s : Endpoint σ) : ((vectors calls s).filterMap pick).Nodup := by
  induction calls generalizing s with
  | nil => exact List.nodup_nil
  | cons call calls ih =>
      have hrest : ∀ d ∈ calls, OneNumbered σ mark pick d :=
        fun d hd => h d (List.mem_cons_of_mem _ hd)
      rw [vectors, List.filterMap_append]
      rcases h call List.mem_cons_self s with
        hnil | ⟨chain, hchain, henc, hone⟩
      · rw [hnil]
        exact ih hrest _
      · rw [hone, List.singleton_append]
        refine List.nodup_cons.mpr ⟨fun hmem => ?_, ih hrest _⟩
        -- a later block is numbered from a counter that this call has moved
        obtain ⟨mid, number, hmid, hblock, hle⟩ := numbered_above hrest hmem
        obtain ⟨chain', hchain', hcount⟩ := counter_call hmid
        rw [hchain] at hchain'
        cases hchain'
        rw [henc, if_pos rfl] at hcount
        obtain ⟨-, rfl⟩ := vectorInput_inj hblock
        omega

/-- Commands are numbered, whatever the calls. -/
theorem commands_numbered (call : Call) :
    OneNumbered σ Chain.commandMark VectorInput.command? call :=
  commandBlocks_call call

/-- The responses to encrypted commands are numbered as their commands
are. -/
theorem responses_numbered {call : Call}
    (h : ∀ encrypted c, call.command? = some (encrypted, c) →
      encrypted = true) :
    OneNumbered σ Chain.responseMark VectorInput.response? call := by
  intro s
  have hcall := responseBlocks_call call s
  have hkind : call.vectors s = [] ∨ call.encrypts = true := by
    unfold Call.vectors Call.encrypts
    rcases hcommand : call.command? with _ | ⟨encrypted, c⟩
    · exact Or.inl rfl
    · exact Or.inr (h encrypted c hcommand)
  rcases hkind with hnone | henc
  · rw [hnone]
    exact Or.inl rfl
  · rcases hcall with hnil | ⟨chain, moved, hchain, hmoved, hone⟩
    · exact Or.inl hnil
    · refine Or.inr ⟨chain, hchain, henc, ?_⟩
      -- the command moved the counter by the one that is taken off again
      have hnumber : moved.counter = chain.counter + 1 := by
        rw [henc, if_pos rfl] at hmoved
        have hlt := moved.counter.toNat_lt
        refine UInt32.toNat_inj.mp ?_
        rw [UInt32.toNat_add, UInt32.toNat_one]
        omega
      rw [hnumber, UInt32.add_sub_cancel] at hone
      exact hone

/-- No command has the block of a response, whatever the counts. -/
theorem marks_ne (a b : UInt32) :
    Chain.vectorInput Chain.commandMark a
      ≠ Chain.vectorInput Chain.responseMark b := by
  intro h
  exact absurd (vectorInput_inj h).1 (by decide)

/-- Every block of a response in a run has the mark of responses. -/
theorem response_marked {calls : List Call} {s : Endpoint σ} {block : Block}
    (h : block ∈ responseBlocks (vectors calls s)) :
    ∃ number, block = Chain.vectorInput Chain.responseMark number := by
  induction calls generalizing s with
  | nil => cases h
  | cons call calls ih =>
      rw [vectors, responseBlocks_append, List.mem_append] at h
      rcases h with h | h
      · rcases responseBlocks_call call s with
          hnil | ⟨_, moved, _, _, hone⟩
        · rw [hnil] at h
          cases h
        · rw [hone, List.mem_singleton] at h
          exact ⟨_, h⟩
      · exact ih h

/-- No vector of a command serves twice. In any run of calls, from any
values and against any card, the blocks that are fed to the cipher for
commands are all different, and none of them is fed for a response. The
counter counts the encrypted commands and never wraps: at its last value an
encrypted command is refused as a breach of the channel, and the link is
left as it was. -/
theorem command_vectors_unique (calls : List Call) (s : Endpoint σ) :
    let ran := (runAllNoting calls s).run []
    ran.1 = runAll calls s
      ∧ (commandBlocks ran.2).Nodup
      ∧ (∀ block ∈ commandBlocks ran.2, block ∉ responseBlocks ran.2)
      ∧ (∀ last, ran.1.2.channel.chain = some last →
        (∃ chain, s.channel.chain = some chain
          ∧ last.counter.toNat
            = chain.counter.toNat + calls.countP Call.encrypts)
        ∧ (last.counter.toNat = 0xFFFFFFFF → ∀ c,
          ran.1.2.send true c
            = (some (.error (.security .counterExhausted)),
              { ran.1.2 with channel := ran.1.2.channel.failed }))) := by
  have hran : (runAllNoting calls s).run []
      = (runAll calls s, vectors calls s) := runAllNoting_run calls s []
  rw [hran]
  refine ⟨rfl, ?_, ?_, ?_⟩
  · exact numbered_nodup (fun call _ => commands_numbered call) s
  · intro block hcommand hresponse
    obtain ⟨_, number, _, rfl, _⟩ :=
      numbered_above (fun call _ => commands_numbered call) hcommand
    obtain ⟨number', heq⟩ := response_marked hresponse
    exact marks_ne number number' heq
  · intro last hlast
    refine ⟨counter_run hlast, fun hend c => ?_⟩
    have hcounter : last.counter = 0xFFFFFFFF := UInt32.toNat_inj.mp hend
    unfold Endpoint.send
    rw [send_exhausted hlast hcounter]

/-- Which vectors of responses serve twice. Where every command of a run is
encrypted, the blocks fed for responses are all different. In a run with
readable commands, two rounds that each decrypt a response share the block
exactly when no command after the first of them, up to and with the second,
is encrypted. -/
theorem response_vectors_repeat_iff (calls : List Call) (s : Endpoint σ) :
    (runAllNoting calls s).run [] = (runAll calls s, vectors calls s)
      ∧ ((∀ call ∈ calls, ∀ encrypted c,
          call.command? = some (encrypted, c) → encrypted = true) →
        (responseBlocks (vectors calls s)).Nodup)
      ∧ ∀ before first between second after,
        calls = before ++ first :: between ++ second :: after →
        let reached := (runAll before s).2
        let later := (runAll between (first.run reached).2).2
        ∀ a ∈ responseBlocks (first.vectors reached),
        ∀ b ∈ responseBlocks (second.vectors later),
          a = b ↔ ∀ call ∈ between ++ [second], call.encrypts = false := by
  refine ⟨runAllNoting_run calls s [], ?_, ?_⟩
  · intro h
    exact numbered_nodup (fun call hmem => responses_numbered (h call hmem)) s
  · intro before first between second after _ reached later a ha b hb
    rcases responseBlocks_call first reached with
      hnil | ⟨chain, moved, hchain, hmoved, hone⟩
    · rw [hnil] at ha
      cases ha
    rcases responseBlocks_call second later with
      hnil | ⟨chain', moved', hchain', hmoved', hone'⟩
    · rw [hnil] at hb
      cases hb
    rw [hone, List.mem_singleton] at ha
    rw [hone', List.mem_singleton] at hb
    subst ha hb
    -- from the one response to the other the counter counts what is between
    obtain ⟨mid, hmid, hcount⟩ := counter_run hchain'
    obtain ⟨start, hstart, hstep⟩ := counter_call hmid
    rw [hchain] at hstart
    cases hstart
    have htotal : moved'.counter.toNat = moved.counter.toNat
        + (between ++ [second]).countP Call.encrypts := by
      rw [List.countP_append, List.countP_singleton]
      omega
    have hnone : (∀ call ∈ between ++ [second], call.encrypts = false)
        ↔ (between ++ [second]).countP Call.encrypts = 0 := by
      rw [List.countP_eq_zero]
      exact forall₂_congr fun call _ => by rw [Bool.not_eq_true]
    rw [hnone]
    constructor
    · -- taking one off wraps at zero, and loses nothing there either
      intro heq
      have hnumber := (vectorInput_inj heq).2
      have hsame : moved.counter = moved'.counter := by
        rw [← UInt32.sub_add_cancel moved.counter 1, hnumber,
          UInt32.sub_add_cancel]
      rw [hsame] at htotal
      omega
    · intro hzero
      have hsame : moved.counter = moved'.counter :=
        UInt32.toNat_inj.mp (by omega)
      rw [hsame]

-- ================================================== a vector that serves twice

/-- What a card answers with. -/
def content : Bytes := [0x2A]

/-- The host's end of a channel with these values. -/
def channelAt (chain : Chain) : SecureChannel :=
  ⟨{}, SessionKeys.wiped, some chain⟩

/-- The values after a command. -/
def valuesAfter (encrypted : Bool) (chain : Chain) : Chain :=
  nextChain SessionKeys.wiped .short encrypted chain shortCommand

/-- The answer of a card to a command. -/
def sealedTo (encrypted : Bool) (chain : Chain) : Response :=
  sealedAnswer SessionKeys.wiped (valuesAfter encrypted chain) content
    StatusWord.success

/-- A link to a card that has these answers left. -/
def linkWith (answers : List Bytes) (sent : List Bytes) (lifetime : Nat) :
    Link ScriptedCard :=
  ⟨{ script := .queue answers, received := sent }, lifetime, sent⟩

/-- A card that has answers left gives the next one. -/
theorem exchange_next {answers rest : List Bytes} {r : Response}
    (h : Script.next? answers = some (r.bytes, rest)) (frame : Bytes)
    (sent : List Bytes) (lifetime : Nat) :
    (exchange frame).run.run (linkWith answers sent (lifetime + 1))
      = (.ok r, linkWith rest (frame :: sent) lifetime) := by
  have htransmit : (linkWith answers sent (lifetime + 1)).transmit frame
      = (.ok r.bytes, linkWith rest (frame :: sent) lifetime) := by
    simp [Link.transmit, linkWith, Transport.transmit, ScriptedCard.take,
      Script.answer, h]
  rw [exchange_run, htransmit]
  show (Response.parse _, _) = _
  rw [parse_bytes]

/-- A command with little data is protected into one frame. -/
theorem length_shortCommand (encrypted : Bool) (chain : Chain) :
    (wrapped SessionKeys.wiped .short encrypted chain
      shortCommand).data.length ≤ 255 := by
  show (wireData _ _ _ _ ++ _).length ≤ _
  rw [length_code]
  cases encrypted with
  | false =>
      show shortCommand.data.length + 8 ≤ 255
      decide
  | true =>
      show (Scp03.encrypt _ _ _).length + 8 ≤ _
      rw [length_encrypt]
      decide

/-- A round over a card whose next answer is the right one: it ends well,
and a block is fed for the response. -/
theorem sealed_round (encrypted : Bool) (chain : Chain)
    (hcount : encrypted = true → chain.counter ≠ 0xFFFFFFFF)
    {answers rest : List Bytes}
    (hnext : Script.next? answers
      = some ((sealedTo encrypted chain).bytes, rest))
    (sent : List Bytes) (lifetime : Nat) :
    let s : Endpoint ScriptedCard :=
      ⟨channelAt chain, linkWith answers sent (lifetime + 1)⟩
    ∃ frame,
      (Call.send encrypted shortCommand).run s
        = (some (.ok ⟨content, StatusWord.success⟩),
          ⟨channelAt (valuesAfter encrypted chain),
            linkWith rest (frame :: sent) lifetime⟩)
      ∧ responseBlocks ((Call.send encrypted shortCommand).vectors s)
        = [Chain.vectorInput Chain.responseMark
            ((valuesAfter encrypted chain).counter - 1)] := by
  intro s
  let frame := Framing.lastFrame (Framing.chunkSize 1390)
    (wrapped SessionKeys.wiped .short encrypted chain shortCommand)
  have hbegun : Framing.Begun {} (wrapped SessionKeys.wiped .short encrypted
      chain shortCommand) s.link (sealedTo encrypted chain)
      (linkWith rest (frame :: sent) lifetime) := by
    refine Framing.begun_single rfl (fun n hn => ?_)
      (length_shortCommand encrypted chain)
      (exchange_next hnext frame sent lifetime)
    cases hn
  have hraw := hbegun.send_done rfl
  have hsend : s.channel.send encrypted shortCommand s.link = _ :=
    send_genuine rfl hcount (Framing.send_ok_iff.mp hraw)
      (sealed_genuine _ _ _ _)
  refine ⟨frame, ?_, ?_⟩
  · show s.send encrypted shortCommand = _
    unfold Endpoint.send
    rw [hsend]
    rfl
  · show responseBlocks (roundInputs (channelAt chain) _ _ _) = _
    rw [roundInputs_answered rfl hcount hraw, responseBlocks_append,
      responseBlocks_commandInputs, List.nil_append]
    exact congrArg responseBlocks
      (responseInputs_body (encrypt_ne_nil _ _ _) _)

/-- A channel that begins, and a card that answers an encrypted command and
a readable one behind it. -/
def repeating : Endpoint ScriptedCard where
  channel := channelAt {}
  link := linkWith [(sealedTo true {}).bytes,
    (sealedTo false (valuesAfter true {})).bytes] [] 2

/-- Both commands end well, and the two responses are decrypted under one
vector. -/
theorem repeating_run :
    let calls := [.send true shortCommand, .send false shortCommand]
    (runAll calls repeating).1
        = [some (.ok ⟨content, StatusWord.success⟩),
          some (.ok ⟨content, StatusWord.success⟩)]
      ∧ responseBlocks (vectors calls repeating)
        = [Chain.vectorInput Chain.responseMark 1,
          Chain.vectorInput Chain.responseMark 1] := by
  intro calls
  let second := (sealedTo false (valuesAfter true {})).bytes
  have hnext : Script.next? [(sealedTo true {}).bytes, second]
      = some ((sealedTo true {}).bytes, [second]) := rfl
  have hlast : Script.next? [second] = some (second, [second]) := rfl
  obtain ⟨frame, hrun, hblocks⟩ :=
    sealed_round true {} (fun _ => by decide) hnext [] 1
  obtain ⟨frame', hrun', hblocks'⟩ :=
    sealed_round false (valuesAfter true {}) nofun hlast [frame] 0
  have hfirst : (Call.send true shortCommand).run repeating = _ := hrun
  constructor
  · rw [runAll_cons, hfirst, runAll_cons, hrun']
    rfl
  · rw [vectors, vectors, hfirst, responseBlocks_append,
      responseBlocks_append, hblocks']
    exact congrArg (· ++ _) hblocks

/-- A run whose commands all end well can decrypt two responses under one
vector. -/
theorem vector_repeats :
    ¬ ∀ (calls : List Call) (s : Endpoint ScriptedCard),
      (∀ outcome ∈ (runAll calls s).1, ∃ r, outcome = some (.ok r)) →
      (responseBlocks ((runAllNoting calls s).run []).2).Nodup := by
  intro h
  obtain ⟨hok, hblocks⟩ := repeating_run
  have hnodup := h _ repeating (by
    intro outcome hmem
    rw [hok] at hmem
    simp only [List.mem_cons, List.not_mem_nil, or_false, or_self] at hmem
    exact ⟨_, hmem⟩)
  rw [runAllNoting_run, List.nil_append, hblocks] at hnodup
  exact absurd hnodup (by simp)

end SmartCard.Scp03
