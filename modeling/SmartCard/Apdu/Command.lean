/-
Commands to a card, and their two encodings as one frame. A short frame
holds up to 255 octets of data and asks for up to 256; an extended frame
holds up to 65535 and asks for up to 65536. In both, the largest length
that can be asked for is written as zeros.
-/
import SmartCard.Error
import SmartCard.Text.Summary

namespace SmartCard

/-- A command, before it is put into frames. -/
structure Command where
  /-- The class. -/
  cla : UInt8
  /-- The instruction. -/
  ins : UInt8
  /-- The first parameter. -/
  p1 : UInt8
  /-- The second parameter. -/
  p2 : UInt8
  /-- The data sent along, possibly none. -/
  data : Bytes := []
  /-- How many octets the answer may have, if any are asked for. -/
  le : Option Nat := none
  deriving DecidableEq, Repr

/-- The class bit of a frame that another frame of the same command
follows. -/
def chainingBit : UInt8 := 0x10

/-- The class bit of a command under secure messaging. -/
def secureMessagingBit : UInt8 := 0x04

/-- How the lengths in a frame are written. -/
inductive LengthForm
  | short
  | extended
  deriving DecidableEq, Repr

namespace LengthForm

/-- The most data one frame can hold. -/
def maxData : LengthForm → Nat
  | short => 255
  | extended => 65535

/-- The longest answer one frame can ask for. -/
def maxLe : LengthForm → Nat
  | short => 256
  | extended => 65536

/-- The name of the form. -/
def name : LengthForm → String
  | short => "short"
  | extended => "extended"

end LengthForm

namespace Command

-- =========================================================== the header

/-- The four octets every frame starts with. -/
def header (c : Command) : Bytes :=
  [c.cla, c.ins, c.p1, c.p2]

/-- Whether another frame of the same command follows. -/
def isChained (c : Command) : Bool :=
  c.cla &&& chainingBit != 0

/-- Whether the command is under secure messaging. -/
def isSecured (c : Command) : Bool :=
  c.cla &&& secureMessagingBit != 0

/-- A summary that tells the length of the data and not the data. -/
def summary (c : Command) : String :=
  Summary.record "Command" [
    ("cla", "0x" ++ Hex.octet c.cla),
    ("ins", "0x" ++ Hex.octet c.ins),
    ("p1", "0x" ++ Hex.octet c.p1),
    ("p2", "0x" ++ Hex.octet c.p2),
    ("data_len", toString c.data.length),
    ("le", Summary.optional (c.le.map toString))]

-- ============================================================= encoding

/-- Everything after the header, in a form that the lengths fit. Where
there is no data, its length is left out; an extended length asked for
without data has a zero in front. -/
def body (form : LengthForm) (c : Command) : Bytes :=
  match form with
  | .short =>
    let data := if c.data = [] then [] else UInt8.ofNat c.data.length :: c.data
    let le := match c.le with
      | some n => [UInt8.ofNat n]
      | none => []
    data ++ le
  | .extended =>
    let data := if c.data = [] then [] else 0 :: Bytes.bigEndian 2 c.data.length ++ c.data
    let le := match c.le with
      | some n => (if c.data = [] then [0] else []) ++ Bytes.bigEndian 2 n
      | none => []
    data ++ le

/-- The frame of a command, or the length that does not fit the form: the
data's first, then that of the answer, which must not be zero either. -/
def encode (form : LengthForm) (c : Command) : Except Error Bytes :=
  if c.data.length > form.maxData then .error (.commandLength c.data.length)
  else match c.le with
    | some n =>
      if n = 0 || n > form.maxLe then .error (.commandLength n)
      else .ok (c.header ++ c.body form)
    | none => .ok (c.header ++ c.body form)

-- ============================================================= decoding

/-- The answer length that one octet asks for. -/
def leOfOctet (x : UInt8) : Nat :=
  if x = 0 then 256 else x.toNat

/-- Read a short frame. The length in front of the data must be that of
the data, with at most the answer length behind. -/
def parse (frame : Bytes) : Except Error Command :=
  match frame with
  | cla :: ins :: p1 :: p2 :: rest =>
    match rest with
    | [] => .ok ⟨cla, ins, p1, p2, [], none⟩
    | [le] => .ok ⟨cla, ins, p1, p2, [], some (leOfOctet le)⟩
    | lc :: content =>
      let data := content.take lc.toNat
      if lc = 0 || content.length < lc.toNat then .error (.commandLength frame.length)
      else match content.drop lc.toNat with
        | [] => .ok ⟨cla, ins, p1, p2, data, none⟩
        | [le] => .ok ⟨cla, ins, p1, p2, data, some (leOfOctet le)⟩
        | _ => .error (.commandLength frame.length)
  | _ => .error (.commandLength frame.length)

end Command

end SmartCard
