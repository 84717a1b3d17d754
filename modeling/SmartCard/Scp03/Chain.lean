/-
What host and card must agree on from command to command: a counter, from
which the encryption vectors are made, and the code of the last command,
which goes into the next code. The two sides stay in lockstep as long as
both see every command.
-/
import SmartCard.Scp03.Keys

namespace SmartCard.Scp03

/-- The values that chain the commands of a channel together. -/
structure Chain where
  /-- The number of the next command that is encrypted. -/
  counter : UInt32 := 1
  /-- The code of the last command, zeros before the first. -/
  chaining : Block := Octets.zero 16
  deriving DecidableEq

namespace Chain

/-- The block whose encryption is the vector of a message: the counter at
the end, and a mark in front that tells commands from responses. -/
def vectorInput (mark : UInt8) (counter : UInt32) : Block :=
  Octets.ofBytes 16 (mark :: List.replicate 11 0 ++ Bytes.bigEndian 4 counter.toNat)

/-- The mark of commands. -/
def commandMark : UInt8 := 0x00

/-- The mark of responses. -/
def responseMark : UInt8 := 0x80

/-- Encrypt the data of a command, and count it. The last value of the
counter is never used up, for there would be none after it. -/
def encrypt (keys : SessionKeys) (data : Bytes) (chain : Chain) : Except Error (Bytes × Chain) :=
  if chain.counter = 0xFFFFFFFF then .error (.security .counterExhausted)
  else
    let iv := encryptBlock keys.senc (vectorInput commandMark chain.counter)
    .ok (Scp03.encrypt keys.senc iv data, { chain with counter := chain.counter + 1 })

/-- The code of a command as it will be sent, and the chain after it. The
code is the first half of the new chaining value. -/
def mac (keys : SessionKeys) (message : Bytes) (chain : Chain) : Bytes × Chain :=
  let chaining := Scp03.mac keys.smac (chain.chaining.toList ++ message)
  (chaining.toList.take 8, { chain with chaining })

/-- The code that a response to the last command must carry. -/
def responseMac (keys : SessionKeys) (body : Bytes) (status : StatusWord) (chain : Chain) : Bytes :=
  (Scp03.mac keys.srmac (chain.chaining.toList ++ body ++ status.bytes)).toList.take 8

/-- Check the code at the end of a response and take it off. -/
def verify (keys : SessionKeys) (payload : Bytes) (status : StatusWord) (chain : Chain) :
    Except Error Bytes :=
  if payload.length < 8 then .error (.security .missingMac)
  else
    let body := payload.take (payload.length - 8)
    let received := payload.drop (payload.length - 8)
    if received = chain.responseMac keys body status then .ok body
    else .error (.security .wrongMac)

/-- Decrypt the body of a response, with the counter of the command it
answers. -/
def decrypt (keys : SessionKeys) (body : Bytes) (chain : Chain) : Except Error Bytes :=
  let iv := encryptBlock keys.senc (vectorInput responseMark (chain.counter - 1))
  Scp03.decrypt keys.senc iv body

end Chain

end SmartCard.Scp03
