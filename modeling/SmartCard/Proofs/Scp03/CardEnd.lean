/-
The card's end of a secure channel. It has keys and chaining values of its
own, reads the frames as they come, and works out codes and vectors from
what it read; of the host it sees nothing else.

# What is fixed and what is free

Fixed is what host and card must agree on: frames of a chain are joined and
answered 90 00; the code of a command is checked over the class without the
chaining bit, the rest of the header, the length of data and code together,
and the data; the data is decrypted, and an answer with content is
encrypted and coded. Free is everything behind that: the application on the
card has a state of any type, sees the commands in the clear, and answers
each as it likes. It also chooses whether an answer without content carries
a code, and in which parts an answer is handed out.

# What the card remembers

The card keeps a verdict on every secured command: the command in the
clear, or that it was refused. Nothing reads the verdicts; they are there
so that what the card made of the frames can be stated.
-/
import SmartCard.Proofs.Apdu.Chaining
import SmartCard.Proofs.Crypto.Cbc
import SmartCard.Proofs.Scp03.Rounds

namespace SmartCard.Scp03

-- ================================================================ answers

/-- How the application on a card answers a command. -/
structure CardReply where
  /-- The content of the answer. -/
  plain : Bytes
  /-- How the command ended. -/
  status : StatusWord
  /-- The status does not announce more of the answer. -/
  terminal : status.isMoreData = false
  /-- Whether an answer without content goes without a code. -/
  bare : Bool := true
  /-- The parts that are handed out before the last one: how many octets
  of the answer, and what the status says of the octets to come. -/
  cuts : List (Nat × UInt8) := []

/-- The response that a host should make of an answer. -/
def CardReply.response (reply : CardReply) : Response :=
  ⟨reply.plain, reply.status⟩

/-- The parts of an answer: all but the last announce more. -/
def parts (status : StatusWord) : List (Nat × UInt8) → Bytes → List Response
  | [], payload => [⟨payload, status⟩]
  | (count, detail) :: cuts, payload =>
      ⟨payload.take count, ⟨0x61, detail⟩⟩
        :: parts status cuts (payload.drop count)

/-- What a card made of a secured command. -/
inductive Verdict
  /-- The code was right, and this is the command in the clear. -/
  | accepted (c : Command)
  /-- The command was refused, and how. -/
  | refused (status : StatusWord)

-- =================================================================== card

/-- The card's end of a secure channel, with an application whose state is
of type `α`. -/
structure CardEnd (α : Type) where
  /-- The keys of the channel. -/
  keys : SessionKeys
  /-- The chaining values. -/
  chain : Chain
  /-- The instruction that asks for the rest of an answer. -/
  getResponse : UInt8
  /-- The longest frame that the card announces to take. -/
  maxFrame : Option Nat
  /-- The state of the application. -/
  app : α
  /-- How the application answers. -/
  respond : α → Command → CardReply × α
  /-- The data of a chain that is not complete. -/
  pending : Bytes := []
  /-- The parts of an answer that are still to be asked for. -/
  waiting : List Response := []
  /-- What the card made of the commands so far. -/
  verdicts : List Verdict := []

namespace CardEnd

variable {α : Type}

/-- The octets under the code of a command, as the card finds them. -/
def codeInput (form : LengthForm) (c : Command) (body : Bytes) : Bytes :=
  let total := body.length + 8
  let long := [0x00, UInt8.ofNat (total / 256), UInt8.ofNat total]
  let lc := match form with
    | .short => if total ≤ 255 then [UInt8.ofNat total] else long
    | .extended => long
  [c.cla &&& ~~~chainingBit, c.ins, c.p1, c.p2] ++ lc ++ body

/-- The chaining value that a command leads to. -/
def codeOf (form : LengthForm) (c : Command) (body : Bytes)
    (card : CardEnd α) : Block :=
  Cmac.cmac (Aes.cipher128 card.keys.smac)
    (card.chain.chaining.toList ++ codeInput form c body)

/-- The vector of a message. Command and response share the number of the
command, and the mark tells them apart. -/
def vector (mark : UInt8) (card : CardEnd α) : Block :=
  encryptBlock card.keys.senc
    (Chain.vectorInput mark card.chain.counter)

/-- The body of an answer: its content encrypted, if there is any. -/
def answerBody (reply : CardReply) (card : CardEnd α) : Bytes :=
  if reply.plain = [] then []
  else Scp03.encrypt card.keys.senc (card.vector Chain.responseMark)
    reply.plain

/-- An answer as it goes over the channel, to a command that led to the
chaining value: the body and its code, or nothing. -/
def answer (reply : CardReply) (chaining : Block) (card : CardEnd α) :
    Bytes :=
  let body := card.answerBody reply
  let code := Cmac.cmac (Aes.cipher128 card.keys.srmac)
    (chaining.toList ++ body ++ reply.status.bytes)
  if reply.plain = [] ∧ reply.bare = true then []
  else body ++ code.toList.take 8

/-- Carry out a command that was accepted: count it, go on to its chaining
value, and have the parts of the answer wait. -/
def carryOut (c : Command) (chaining : Block) (card : CardEnd α) :
    CardEnd α :=
  let (reply, app) := card.respond card.app c
  { card with
    chain := ⟨card.chain.counter + 1, chaining⟩
    app
    pending := []
    waiting := parts reply.status reply.cuts (card.answer reply chaining)
    verdicts := card.verdicts ++ [.accepted c] }

/-- Hand out the next part of an answer. -/
def handOut (card : CardEnd α) : Bytes × CardEnd α :=
  match card.waiting with
  | [] => (StatusWord.conditionsNotSatisfied.bytes, card)
  | part :: rest => (part.bytes, { card with waiting := rest })

/-- Refuse a command. -/
def refuse (status : StatusWord) (card : CardEnd α) : Bytes × CardEnd α :=
  (status.bytes, { card with
    pending := []
    verdicts := card.verdicts ++ [.refused status] })

/-- Judge a command of which this was the last frame: its code must be
right and its data must decrypt. -/
def judge (form : LengthForm) (c : Command) (card : CardEnd α) :
    Bytes × CardEnd α :=
  let data := card.pending ++ c.data
  let body := data.take (data.length - 8)
  let received := data.drop (data.length - 8)
  let chaining := card.codeOf form c body
  if c.isSecured = false then card.refuse ⟨0x6E, 0x00⟩
  else if data.length < 8 ∨ received ≠ chaining.toList.take 8 then
    card.refuse ⟨0x69, 0x82⟩
  else match Scp03.decrypt card.keys.senc (card.vector Chain.commandMark)
      body with
    | .error _ => card.refuse ⟨0x69, 0x88⟩
    | .ok plain => (card.carryOut { c with data := plain } chaining).handOut

/-- Take a frame: hand out more of an answer, put the frame to the ones
before it, or judge the command. -/
def receive (frame : Bytes) (card : CardEnd α) : Bytes × CardEnd α :=
  match Command.read? frame with
  | none => (StatusWord.bytes ⟨0x67, 0x00⟩, card)
  | some (form, c) =>
    if c.cla = 0x00 ∧ c.ins = card.getResponse then card.handOut
    else if c.isChained then
      (StatusWord.success.bytes,
        { card with pending := card.pending ++ c.data })
    else card.judge form c

instance : Transport (CardEnd α) where
  transmit frame card := (.ok (card.receive frame).1, (card.receive frame).2)
  maxFrame := CardEnd.maxFrame
  extendedLength _ := true
  connected _ := true
  close card := (.ok (), card)

end CardEnd

-- ============================================================== the class

/-- A command as the application sees it: under secure messaging. -/
def secured (c : Command) : Command :=
  { c with cla := c.cla ||| secureMessagingBit }

/-- What the mark of secure messaging does to a class that is not marked
as chained: the class is not zero, not chained, and secured, and clearing
the chaining bit does nothing. -/
theorem secured_class (cla : UInt8) (h : cla &&& chainingBit = 0) :
    cla ||| secureMessagingBit ≠ 0
      ∧ (cla ||| secureMessagingBit) &&& chainingBit = 0
      ∧ (cla ||| secureMessagingBit) &&& secureMessagingBit ≠ 0
      ∧ (cla ||| secureMessagingBit) &&& ~~~chainingBit
        = cla ||| secureMessagingBit := by
  revert cla
  exact forall_octet (by decide +kernel)

/-- A class marked as that of a chain is not zero, and stays marked. -/
theorem chained_class (cla : UInt8) :
    cla ||| chainingBit ≠ 0 ∧ (cla ||| chainingBit) &&& chainingBit ≠ 0 := by
  revert cla
  exact forall_octet (by decide +kernel)

/-- A command without the mark of a chain has none under secure messaging
either. -/
theorem secured_marks {c : Command} (h : c.isChained = false) :
    (secured c).cla ≠ 0 ∧ (secured c).isChained = false
      ∧ (secured c).isSecured = true
      ∧ (secured c).cla &&& ~~~chainingBit = (secured c).cla := by
  have hcla : c.cla &&& chainingBit = 0 := by
    unfold Command.isChained at h
    simpa using h
  obtain ⟨hne, hchained, hsecured, hclear⟩ := secured_class c.cla hcla
  refine ⟨hne, ?_, ?_, hclear⟩
  · unfold Command.isChained
    rw [show (secured c).cla &&& chainingBit = 0 from hchained]
    rfl
  · unfold Command.isSecured
    exact bne_iff_ne.mpr hsecured

-- =============================================================== the codes

/-- Host and card work the code out over the same octets. -/
theorem codeInput_eq (form : LengthForm) {c : Command}
    (h : c.isChained = false) (body part : Bytes) :
    CardEnd.codeInput form { secured c with data := part } body
      = macInput form { secured c with data := body } := by
  obtain ⟨-, -, -, hclear⟩ := secured_marks h
  unfold CardEnd.codeInput macInput Command.header
  cases form with
  | short =>
      by_cases hfits : body.length + 8 ≤ 255
      · simp [hclear, hfits]
      · simp [hclear, hfits, Bytes.bigEndian]
  | extended => simp [hclear, Bytes.bigEndian]

namespace CardEnd

variable {α : Type}

-- ============================================================= on commands

/-- A leading frame of a chain is put to the ones before it. -/
theorem receive_leading (c : Command) {piece : Bytes}
    (hlen : piece.length ≤ 255) (card : CardEnd α) :
    card.receive (Framing.leadingFrame c piece)
      = (StatusWord.success.bytes,
        { card with pending := card.pending ++ piece }) := by
  obtain ⟨hne, hmark⟩ := chained_class c.cla
  have hread : Command.read? (Framing.leadingFrame c piece)
      = some (.short, Framing.leading c piece) :=
    Command.read_short ⟨hlen, fun _ hle => by cases hle⟩
  have hchained : (Framing.leading c piece).isChained = true :=
    bne_iff_ne.mpr hmark
  unfold receive
  rw [hread]
  show (if _ ∧ _ then _ else _) = _
  rw [if_neg (fun h => hne h.1), if_pos hchained]
  rfl

/-- The last frame of a secured command has the command judged. -/
theorem receive_last {form : LengthForm} {c : Command} {frame part : Bytes}
    (h : c.isChained = false)
    (hread : Command.read? frame
      = some (form, { secured c with data := part }))
    (card : CardEnd α) :
    card.receive frame = card.judge form { secured c with data := part } := by
  obtain ⟨hne, hchained, -, -⟩ := secured_marks h
  unfold receive
  rw [hread]
  show (if _ ∧ _ then _ else if (secured c).isChained then _ else _) = _
  rw [if_neg (fun h => hne h.1), hchained]
  rfl

/-- A frame that asks for more of an answer has it handed out. -/
theorem receive_followUp {status : StatusWord} {count : Nat}
    (h : status.remaining? = some count) (card : CardEnd α) :
    card.receive (Framing.followUpFrame card.getResponse count)
      = card.handOut := by
  have hread : Command.read? (Framing.followUpFrame card.getResponse count)
      = some (.short, Framing.followUp card.getResponse count) := by
    refine Command.read_short ⟨Nat.zero_le _, fun n hn => ?_⟩
    injection hn with hn
    subst hn
    exact Framing.remaining_bounds h
  unfold receive
  rw [hread]
  exact if_pos ⟨rfl, rfl⟩

/-- The card after it carried out a command that was protected under its
keys and values. -/
def carried (form : LengthForm) (c : Command) (card : CardEnd α) :
    CardEnd α :=
  card.carryOut (secured c)
    (nextChaining card.keys form true card.chain c)

/-- What is pending plays no part in a command that is carried out. -/
theorem carried_pending (form : LengthForm) (c : Command)
    (card : CardEnd α) (pending : Bytes) :
    carried form c { card with pending } = card.carried form c := rfl

/-- A command that was protected under the keys and values of the card is
accepted, once its last frame completes the data: the card carries out the
command that the host meant. -/
theorem judge_wrapped {form : LengthForm} {c : Command} {part : Bytes}
    {card : CardEnd α} (h : c.isChained = false)
    (hdata : card.pending ++ part
      = (wrapped card.keys form true card.chain c).data) :
    card.judge form { secured c with data := part }
      = (card.carried form c).handOut := by
  obtain ⟨-, -, hsecured, -⟩ := secured_marks h
  have hcode : card.codeOf form { secured c with data := part }
      (wireData card.keys true card.chain c.data)
      = nextChaining card.keys form true card.chain c := by
    unfold codeOf
    rw [codeInput_eq form h]
    rfl
  obtain ⟨htake, hdrop⟩ := split_code
    (wireData card.keys true card.chain c.data)
    (nextChaining card.keys form true card.chain c)
  have hlen := length_code (wireData card.keys true card.chain c.data)
    (nextChaining card.keys form true card.chain c)
  have hplain : Scp03.decrypt card.keys.senc
      (card.vector Chain.commandMark)
      (wireData card.keys true card.chain c.data) = .ok c.data :=
    decrypt_encrypt _ _ _
  have hsec : Command.isSecured { secured c with data := part } = true :=
    hsecured
  unfold judge
  rw [hdata]
  unfold wrapped
  simp only [hsec, htake, hdrop, hcode, hplain]
  rw [if_neg (by simp), if_neg (by rw [hlen]; simp)]
  rfl

-- ============================================================== on answers

/-- The code that a card puts behind the body of an answer passes, and
the body is what is left. -/
theorem verify_code (keys : SessionKeys) (chain : Chain) (body : Bytes)
    (status : StatusWord) :
    chain.verify keys (body ++ (Cmac.cmac (Aes.cipher128 keys.srmac)
        (chain.chaining.toList ++ body ++ status.bytes)).toList.take 8)
        status
      = .ok body :=
  Chain.verify_ok_iff.mpr rfl

/-- The body of an answer is empty exactly when there is no content. -/
theorem answerBody_eq_nil_iff (reply : CardReply) (card : CardEnd α) :
    card.answerBody reply = [] ↔ reply.plain = [] := by
  unfold answerBody
  by_cases hplain : reply.plain = []
  · rw [if_pos hplain]
    exact iff_of_true rfl hplain
  · rw [if_neg hplain]
    exact iff_of_false (encrypt_ne_nil _ _ _) hplain

/-- The host decrypts an answer with the number of the command, one less
than the number that its own values have moved to. -/
theorem decrypt_answerBody {reply : CardReply} (hplain : reply.plain ≠ [])
    (chaining : Block) (card : CardEnd α) :
    Chain.decrypt card.keys (card.answerBody reply)
        ⟨card.chain.counter + 1, chaining⟩
      = .ok reply.plain := by
  have hbody : card.answerBody reply = _ := if_neg hplain
  have hcount : card.chain.counter + 1 - 1 = card.chain.counter :=
    UInt32.add_sub_cancel _ _
  unfold Chain.decrypt
  rw [hbody]
  simp only [hcount]
  exact decrypt_encrypt _ _ _

/-- The host makes of an answer what the application meant, under the keys
of the card and the values that the command led to. -/
theorem unprotect_answer (reply : CardReply) (chaining : Block)
    (card : CardEnd α) :
    unprotect card.keys ⟨card.chain.counter + 1, chaining⟩
        ⟨card.answer reply chaining, reply.status⟩
      = .ok reply.response := by
  by_cases hnothing : reply.plain = [] ∧ reply.bare = true
  · -- nothing was put into the answer, so nothing is checked
    have hanswer : card.answer reply chaining = [] := if_pos hnothing
    unfold unprotect CardReply.response
    rw [hanswer, hnothing.1]
    rfl
  · have hanswer : card.answer reply chaining = _ := if_neg hnothing
    have hsome : ¬ card.answer reply chaining = [] := by
      rw [hanswer, ← List.length_eq_zero_iff, length_code]
      omega
    have hverify := verify_code card.keys
      ⟨card.chain.counter + 1, chaining⟩ (card.answerBody reply)
      reply.status
    rw [← hanswer] at hverify
    -- the code passes; whether there is a body to decrypt is left
    unfold unprotect CardReply.response
    simp only [if_neg hsome, hverify]
    show (if card.answerBody reply = [] then _ else _) = _
    by_cases hplain : reply.plain = []
    · rw [if_pos ((answerBody_eq_nil_iff reply card).mpr hplain), hplain]
      rfl
    · have hne := mt (answerBody_eq_nil_iff reply card).mp hplain
      rw [if_neg hne, decrypt_answerBody hplain]
      rfl

end CardEnd

end SmartCard.Scp03
