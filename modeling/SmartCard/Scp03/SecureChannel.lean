/-
Commands and responses under secure messaging. The data of a command is
encrypted and a code is put behind it; the code of the response is checked
and its body decrypted.

# Failing closed

The chain of a channel is taken out for the length of one command, and put
back only when the response was verified. After any failure there is no
chain, and without one nothing is sent.
-/
import SmartCard.Apdu.Framing
import SmartCard.Scp03.Chain

namespace SmartCard.Scp03

/-- The octets under the code of a command: the header, the length of data
and code together, and the data. The length is one octet where frames are
short and it fits, and otherwise three. -/
def macInput (form : LengthForm) (c : Command) : Bytes :=
  let length := c.data.length + 8
  let lc :=
    if form = .short && length ≤ 255 then [UInt8.ofNat length]
    else 0x00 :: Bytes.bigEndian 2 length
  c.header ++ lc ++ c.data

/-- A command as it goes over the channel, and the chain after it. With
`encrypted` unset the data stays readable; the code covers it all the
same. -/
def protect (keys : SessionKeys) (form : LengthForm) (encrypted : Bool) (c : Command)
    (chain : Chain) : Except Error (Command × Chain) := do
  let (data, chain) ← if encrypted then chain.encrypt keys c.data else pure (c.data, chain)
  let marked := { c with cla := c.cla ||| secureMessagingBit, data }
  let (code, chain) := chain.mac keys (macInput form marked)
  return ({ marked with data := data ++ code }, chain)

/-- The response that came over the channel. One without payload carries no
code. -/
def unprotect (keys : SessionKeys) (chain : Chain) (r : Response) : Except Error Response := do
  if r.payload = [] then return r
  let body ← chain.verify keys r.payload r.status
  if body = [] then return ⟨[], r.status⟩
  return ⟨← chain.decrypt keys body, r.status⟩

/-- The host's end of a secure channel. -/
structure SecureChannel where
  /-- How secured commands are put into frames. -/
  framing : Framing
  /-- The keys of the channel. -/
  keys : SessionKeys
  /-- The chaining values, none once the channel failed or was closed. -/
  chain : Option Chain
  deriving DecidableEq

namespace SecureChannel

/-- A channel that begins, or goes on from the given values. -/
def start (keys : SessionKeys) (framing : Framing) (chain : Chain := {}) : SecureChannel :=
  ⟨framing, keys, some chain⟩

/-- Whether commands can still be sent. -/
def isSynchronized (channel : SecureChannel) : Bool :=
  channel.chain.isSome

/-- The channel after a failure. -/
def failed (channel : SecureChannel) : SecureChannel :=
  { channel with chain := none }

/-- Forget the keys and the chain. -/
def close (channel : SecureChannel) : SecureChannel :=
  ⟨channel.framing, SessionKeys.wiped, none⟩

/-- Send one command over the channel. Whatever fails, the channel has
failed with it. -/
def send {σ : Type} [Transport σ] (channel : SecureChannel) (encrypted : Bool) (c : Command)
    (link : Link σ) : (Except Error Response × SecureChannel) × Link σ :=
  match channel.chain with
  | none => ((.error (.security .notSynchronized), channel), link)
  | some chain =>
    match protect channel.keys channel.framing.form encrypted c chain with
    | .error e => ((.error e, channel.failed), link)
    | .ok (wrapped, chain) =>
      match (channel.framing.send wrapped).run.run link with
      | (.error e, link) => ((.error e, channel.failed), link)
      | (.ok response, link) =>
        match unprotect channel.keys chain response with
        | .error e => ((.error e, channel.failed), link)
        | .ok plain => ((.ok plain, { channel with chain := some chain }), link)

end SecureChannel

end SmartCard.Scp03
