/-
A twin of the secure channel that notes the vectors it works under. The
channel itself does not remember them, and what a vector was made of can
not be seen from outside.

# Why the notes can be trusted

The twin takes the steps of the channel, but has a vector only from `feed`,
which notes the block before it encrypts it. What the twin returns is what
the channel returns, with and without an answer and in a round that fails
half way (`sendNoting_run`, `runAllNoting_run`). So its notes are the
blocks that the channel feeds to the cipher, in order.

# What is noted

A round notes the block of the command first and that of the response
behind it (`roundInputs`). The block of a command is made before the
counter is looked at, so it is noted also where the command is refused; the
block of a response is made only where the code is right and a body is
left.
-/
import SmartCard.Proofs.Exchange
import SmartCard.Proofs.Scp03.Authenticity

namespace SmartCard.Scp03

-- ================================================================== blocks

/-- A block that is encrypted into a vector, by what the vector is for. -/
inductive VectorInput
  | command (block : Block)
  | response (block : Block)

/-- The block itself. -/
def VectorInput.block : VectorInput → Block
  | command block => block
  | response block => block

/-- The block, if it is for a command. -/
def VectorInput.command? : VectorInput → Option Block
  | command block => some block
  | response _ => none

/-- The block, if it is for a response. -/
def VectorInput.response? : VectorInput → Option Block
  | command _ => none
  | response block => some block

/-- The blocks of commands, in order. -/
def commandBlocks (used : List VectorInput) : List Block :=
  used.filterMap VectorInput.command?

/-- The blocks of responses, in order. -/
def responseBlocks (used : List VectorInput) : List Block :=
  used.filterMap VectorInput.response?

theorem commandBlocks_append (a b : List VectorInput) :
    commandBlocks (a ++ b) = commandBlocks a ++ commandBlocks b :=
  List.filterMap_append

theorem responseBlocks_append (a b : List VectorInput) :
    responseBlocks (a ++ b) = responseBlocks a ++ responseBlocks b :=
  List.filterMap_append

-- ================================================================ the twin

/-- Work on a message that notes the blocks it makes vectors of. -/
abbrev Noting (α : Type) := ExceptT Error (StateM (List VectorInput)) α

/-- Make a vector of a block, and note the block. -/
def feed (keys : SessionKeys) (input : VectorInput) : Noting Block := do
  modify (· ++ [input])
  return encryptBlock keys.senc input.block

/-- The vector of a command is made before the counter is looked at. -/
def Chain.encryptNoting (keys : SessionKeys) (data : Bytes) (chain : Chain) :
    Noting (Bytes × Chain) := do
  let iv ← feed keys (.command (vectorInput commandMark chain.counter))
  if chain.counter = 0xFFFFFFFF then throw (.security .counterExhausted)
  else return (Scp03.encrypt keys.senc iv data,
    { chain with counter := chain.counter + 1 })

/-- The vector of a response is made of the count that its command had. -/
def Chain.decryptNoting (keys : SessionKeys) (body : Bytes) (chain : Chain) :
    Noting Bytes := do
  let iv ← feed keys
    (.response (vectorInput responseMark (chain.counter - 1)))
  Scp03.decrypt keys.senc iv body

/-- Protect a command, with the vector noted where there is one. -/
def protectNoting (keys : SessionKeys) (form : LengthForm)
    (encrypted : Bool) (c : Command) (chain : Chain) :
    Noting (Command × Chain) := do
  let (data, chain) ← if encrypted then chain.encryptNoting keys c.data
    else pure (c.data, chain)
  let marked := { c with cla := c.cla ||| secureMessagingBit, data }
  let (code, chain) := chain.mac keys (macInput form marked)
  return ({ marked with data := data ++ code }, chain)

/-- Check and decrypt a response, as the channel does. -/
def unprotectNoting (keys : SessionKeys) (chain : Chain) (r : Response) :
    Noting Response := do
  if r.payload = [] then return r
  let body ← chain.verify keys r.payload r.status
  if body = [] then return ⟨[], r.status⟩
  return ⟨← chain.decryptNoting keys body, r.status⟩

variable {σ : Type} [Transport σ]

/-- A round of the channel. The command's vector is noted before anything is
sent. -/
def SecureChannel.sendNoting (channel : SecureChannel) (encrypted : Bool)
    (c : Command) (link : Link σ) :
    StateM (List VectorInput)
      ((Except Error Response × SecureChannel) × Link σ) :=
  match channel.chain with
  | none => pure ((.error (.security .notSynchronized), channel), link)
  | some chain => do
    match ← (protectNoting channel.keys channel.framing.form encrypted c
      chain).run with
    | .error e => return ((.error e, channel.failed), link)
    | .ok (wrapped, chain) =>
      match (channel.framing.send wrapped).run.run link with
      | (.error e, link) => return ((.error e, channel.failed), link)
      | (.ok response, link) =>
        match ← (unprotectNoting channel.keys chain response).run with
        | .error e => return ((.error e, channel.failed), link)
        | .ok plain =>
          return ((.ok plain, { channel with chain := some chain }), link)

/-- A round between the ends of a link. -/
def Endpoint.sendNoting (s : Endpoint σ) (encrypted : Bool) (c : Command) :
    StateM (List VectorInput) (Outcome × Endpoint σ) := do
  let out ← s.channel.sendNoting encrypted c s.link
  return (some out.1.1, ⟨out.1.2, out.2⟩)

/-- Calls that send nothing are made as they are. -/
def Call.runNoting (s : Endpoint σ) :
    Call → StateM (List VectorInput) (Outcome × Endpoint σ)
  | .send encrypted c => s.sendNoting encrypted c
  | .process c => s.sendNoting true c
  | .reframe change => pure (Call.run s (.reframe change))
  | .close => pure (Call.run s .close)

/-- Calls one after the other, with the notes of all of them. -/
def runAllNoting : List Call → Endpoint σ →
    StateM (List VectorInput) (List Outcome × Endpoint σ)
  | [], s => pure ([], s)
  | call :: calls, s => do
      let (outcome, mid) ← call.runNoting s
      let (outcomes, after) ← runAllNoting calls mid
      return (outcome :: outcomes, after)

-- ======================================================== what a round notes

/-- What encryption of a command notes. -/
def commandInputs (encrypted : Bool) (chain : Chain) : List VectorInput :=
  if encrypted then
    [.command (Chain.vectorInput Chain.commandMark chain.counter)]
  else []

/-- What the check of a response notes, under the values after the command:
there is a vector only where the code is right and a body is left. -/
def responseInputs (keys : SessionKeys) (chain : Chain) (raw : Response) :
    List VectorInput :=
  if raw.payload = [] then []
  else match chain.verify keys raw.payload raw.status with
    | .error _ => []
    | .ok body =>
      if body = [] then []
      else [.response
        (Chain.vectorInput Chain.responseMark (chain.counter - 1))]

section Messages

variable {keys : SessionKeys} {chain : Chain}

theorem feed_run (keys : SessionKeys) (input : VectorInput)
    (notes : List VectorInput) :
    (feed keys input).run.run notes
      = (.ok (encryptBlock keys.senc input.block), notes ++ [input]) := rfl

/-- Encrypting a command notes one block, also at the last count, where it
fails. -/
theorem encryptNoting_run (keys : SessionKeys) (chain : Chain)
    (data : Bytes) (notes : List VectorInput) :
    (chain.encryptNoting keys data).run.run notes
      = (chain.encrypt keys data,
        notes ++ [.command
          (Chain.vectorInput Chain.commandMark chain.counter)]) := by
  unfold Chain.encryptNoting Chain.encrypt
  rw [run_bind_ok (feed_run keys _ notes)]
  split <;> rfl

/-- Decrypting a response notes one block. -/
theorem decryptNoting_run (keys : SessionKeys) (chain : Chain)
    (body : Bytes) (notes : List VectorInput) :
    (chain.decryptNoting keys body).run.run notes
      = (chain.decrypt keys body,
        notes ++ [.response
          (Chain.vectorInput Chain.responseMark (chain.counter - 1))]) := by
  unfold Chain.decryptNoting Chain.decrypt
  rw [run_bind_ok (feed_run keys _ notes)]
  exact run_lift _ _

/-- Protecting notes the command's block, if the command is encrypted. -/
theorem protectNoting_run (form : LengthForm) (encrypted : Bool)
    (c : Command) (notes : List VectorInput) :
    (protectNoting keys form encrypted c chain).run.run notes
      = (protect keys form encrypted c chain,
        notes ++ commandInputs encrypted chain) := by
  cases encrypted with
  | false =>
      rw [show commandInputs false chain = [] from rfl, List.append_nil]
      rfl
  | true =>
      have hrun := encryptNoting_run keys chain c.data notes
      unfold protectNoting protect
      rw [if_pos rfl, if_pos rfl]
      cases henc : chain.encrypt keys c.data with
      | error e =>
          rw [henc] at hrun
          rw [run_bind_error hrun]
          rfl
      | ok sealed =>
          rw [henc] at hrun
          rw [run_bind_ok hrun]
          rfl

/-- Checking a response notes what `responseInputs` says. -/
theorem unprotectNoting_run (raw : Response) (notes : List VectorInput) :
    (unprotectNoting keys chain raw).run.run notes
      = (unprotect keys chain raw,
        notes ++ responseInputs keys chain raw) := by
  obtain ⟨payload, status⟩ := raw
  unfold unprotectNoting responseInputs
  by_cases hne : payload = []
  · subst hne
    rw [if_pos rfl, if_pos rfl, List.append_nil]
    rfl
  · rw [if_neg hne, if_neg hne]
    have hverified := run_lift (chain.verify keys payload status) notes
    cases hcode : chain.verify keys payload status with
    | error e =>
        rw [hcode] at hverified
        rw [run_bind_error hverified, unprotect_refused hne hcode]
        simp
    | ok body =>
        rw [hcode] at hverified
        rw [run_bind_ok hverified, unprotect_verified hne hcode]
        by_cases hbody : body = []
        · simp only [if_pos hbody, List.append_nil]
          rfl
        · simp only [if_neg hbody]
          have hplain := decryptNoting_run keys chain body notes
          cases hdec : chain.decrypt keys body with
          | error e =>
              rw [hdec] at hplain
              rw [run_bind_error hplain]
          | ok plain =>
              rw [hdec] at hplain
              rw [run_bind_ok hplain]
              rfl

end Messages

/-- What a round over a channel notes: the vector of the command, and where
an answer came back that of the response. -/
def roundInputs (channel : SecureChannel) (encrypted : Bool) (c : Command)
    (link : Link σ) : List VectorInput :=
  match channel.chain with
  | none => []
  | some chain =>
    commandInputs encrypted chain
      ++ match protect channel.keys channel.framing.form encrypted c chain with
        | .error _ => []
        | .ok (wrapped, next) =>
          match (channel.framing.send wrapped).run.run link with
          | (.error _, _) => []
          | (.ok raw, _) => responseInputs channel.keys next raw

/-- A step that can not fail goes on from the notes that it left. -/
theorem noting_bind {α β : Type} {x : StateM (List VectorInput) α}
    {f : α → StateM (List VectorInput) β} {a : α}
    {notes mid : List VectorInput} (h : x.run notes = (a, mid)) :
    (x >>= f).run notes = (f a).run mid := by
  rw [StateT.run_bind, h]
  rfl

/-- A round returns what the channel returns and notes `roundInputs`. -/
theorem sendNoting_run (channel : SecureChannel) (encrypted : Bool)
    (c : Command) (link : Link σ) (notes : List VectorInput) :
    (channel.sendNoting encrypted c link).run notes
      = (channel.send encrypted c link,
        notes ++ roundInputs channel encrypted c link) := by
  unfold SecureChannel.sendNoting SecureChannel.send roundInputs
  cases channel.chain with
  | none =>
      rw [List.append_nil]
      rfl
  | some chain =>
      simp only []
      rw [noting_bind (protectNoting_run _ _ _ _)]
      cases protect channel.keys channel.framing.form encrypted c chain with
      | error e =>
          rw [List.append_nil]
          rfl
      | ok sealed =>
          obtain ⟨wrapped, next⟩ := sealed
          simp only []
          rcases (channel.framing.send wrapped).run.run link
            with ⟨e | raw, after⟩
          · rw [List.append_nil]
            rfl
          · simp only []
            rw [noting_bind (unprotectNoting_run _ _), List.append_assoc]
            cases unprotect channel.keys next raw <;> rfl

/-- What a call notes. -/
def Call.vectors (s : Endpoint σ) (call : Call) : List VectorInput :=
  match call.command? with
  | none => []
  | some (encrypted, c) => roundInputs s.channel encrypted c s.link

/-- What a run notes. -/
def vectors : List Call → Endpoint σ → List VectorInput
  | [], _ => []
  | call :: calls, s => call.vectors s ++ vectors calls (call.run s).2

/-- A call returns what it returns without notes. -/
theorem runNoting_run (call : Call) (s : Endpoint σ)
    (notes : List VectorInput) :
    (call.runNoting s).run notes = (call.run s, notes ++ call.vectors s) := by
  have hsend : ∀ encrypted c, (s.sendNoting encrypted c).run notes
      = (s.send encrypted c,
        notes ++ roundInputs s.channel encrypted c s.link) := by
    intro encrypted c
    unfold Endpoint.sendNoting
    rw [noting_bind (sendNoting_run _ _ _ _ _)]
    rfl
  cases call with
  | send encrypted c => exact hsend encrypted c
  | process c => exact hsend true c
  | reframe change => exact Prod.ext rfl (List.append_nil notes).symm
  | close => exact Prod.ext rfl (List.append_nil notes).symm

/-- The twin does what the channel does, and notes what its calls note. -/
theorem runAllNoting_run (calls : List Call) (s : Endpoint σ)
    (notes : List VectorInput) :
    (runAllNoting calls s).run notes
      = (runAll calls s, notes ++ vectors calls s) := by
  induction calls generalizing s notes with
  | nil => exact Prod.ext rfl (List.append_nil notes).symm
  | cons call calls ih =>
      rw [runAllNoting, noting_bind (runNoting_run _ _ _),
        noting_bind (ih _ _), vectors, List.append_assoc]
      rfl

end SmartCard.Scp03
