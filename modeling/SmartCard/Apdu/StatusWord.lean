/-
The status word that ends every answer of a card, two octets: what class of
outcome it stands for, how it is written, and what it means in words.
-/
import SmartCard.Text.Hex

namespace SmartCard

/-- The two status octets of an answer. -/
structure StatusWord where
  /-- The class of the outcome. -/
  sw1 : UInt8
  /-- Its detail. -/
  sw2 : UInt8
  deriving DecidableEq, Repr

/-- How much notice an outcome deserves in a log. -/
inductive Severity
  | debug
  | info
  | warn
  deriving DecidableEq, Repr

/-- The name of a level in a log. -/
def Severity.name : Severity → String
  | debug => "DEBUG"
  | info => "INFO"
  | warn => "WARN"

namespace StatusWord

-- ============================================================== numbers

/-- The status word with the given number, high octet first. -/
def ofUInt16 (n : UInt16) : StatusWord :=
  ⟨(n >>> 8).toUInt8, n.toUInt8⟩

/-- The two octets as one number, high octet first. -/
def toUInt16 (s : StatusWord) : UInt16 :=
  (s.sw1.toUInt16 <<< 8) ||| s.sw2.toUInt16

/-- The octets in the order they are sent. -/
def bytes (s : StatusWord) : Bytes :=
  [s.sw1, s.sw2]

/-- Two octets in capital letters with a blank between them. -/
def text (s : StatusWord) : String :=
  Hex.capitals s.sw1 ++ " " ++ Hex.capitals s.sw2

-- ============================================================== classes

/-- The command was carried out: 90 00. -/
def isSuccess (s : StatusWord) : Bool :=
  s.sw1 == 0x90 && s.sw2 == 0x00

/-- More of the answer waits in the card: 61 and any detail. -/
def isMoreData (s : StatusWord) : Bool :=
  s.sw1 == 0x61

/-- How many octets wait in the card; a detail of 00 stands for 256 or
more. -/
def remaining? (s : StatusWord) : Option Nat :=
  if s.isMoreData then some (if s.sw2 = 0 then 256 else s.sw2.toNat) else none

/-- A warning: 62 and any detail. -/
def isWarning (s : StatusWord) : Bool :=
  s.sw1 == 0x62

/-- A security condition is not met: 69 82. -/
def isSecurityNotSatisfied (s : StatusWord) : Bool :=
  s.sw1 == 0x69 && s.sw2 == 0x82

/-- The file is missing: 6A 82. -/
def isFileNotFound (s : StatusWord) : Bool :=
  s.sw1 == 0x6A && s.sw2 == 0x82

/-- The parameters are wrong: 6A 86. -/
def isIncorrectParameters (s : StatusWord) : Bool :=
  s.sw1 == 0x6A && s.sw2 == 0x86

/-- The length is wrong: 67 00. -/
def isWrongLength (s : StatusWord) : Bool :=
  s.sw1 == 0x67 && s.sw2 == 0x00

/-- Outcomes that carry on are for debugging, warnings of the classes 62
and 63 are information, all else is worth a warning. -/
def severity (s : StatusWord) : Severity :=
  if s.isSuccess || s.isMoreData then .debug
  else if s.sw1 == 0x62 || s.sw1 == 0x63 then .info
  else .warn

/-- The meaning in words. -/
def description (s : StatusWord) : String :=
  match s.sw1, s.sw2 with
  | 0x90, 0x00 => "Success"
  | 0x61, _ => "More data available"
  | 0x62, 0x00 => "No information given"
  | 0x62, 0x81 => "Part of returned data may be corrupted"
  | 0x62, 0x82 => "End of file/record reached before reading Le bytes"
  | 0x62, 0x83 => "Selected file invalidated"
  | 0x62, 0x85 => "No input data available"
  | 0x63, detail =>
    if detail == 0x00 then "No information given"
    else if detail &&& 0xF0 == 0xC0 then "Counter value"
    else "Unknown status word"
  | 0x65, 0x81 => "Memory failure"
  | 0x67, 0x00 => "Wrong length"
  | 0x68, 0x82 => "Secure messaging not supported"
  | 0x69, 0x82 => "Security status not satisfied"
  | 0x69, 0x83 => "Authentication method blocked"
  | 0x69, 0x84 => "Referenced data invalidated"
  | 0x69, 0x85 => "Conditions of use not satisfied"
  | 0x69, 0x86 => "Command not allowed"
  | 0x69, 0x87 => "Expected SM data objects missing"
  | 0x69, 0x88 => "SM data objects incorrect"
  | 0x6A, 0x80 => "Incorrect parameters in the data field"
  | 0x6A, 0x81 => "Function not supported"
  | 0x6A, 0x82 => "File not found"
  | 0x6A, 0x84 => "Not enough memory space in the file"
  | 0x6A, 0x86 => "Incorrect parameters P1-P2"
  | 0x6A, 0x88 => "Referenced data not found"
  | 0x6B, 0x00 => "Wrong parameters P1-P2"
  | 0x6C, _ => "Wrong Le field"
  | 0x6D, 0x00 => "Instruction code not supported or invalid"
  | 0x6E, 0x00 => "Class not supported"
  | 0x6F, 0x00 => "No precise diagnosis"
  | _, _ => "Unknown status word"

-- ====================================================== common outcomes

/-- Carried out. -/
def success : StatusWord := ⟨0x90, 0x00⟩

/-- No input data, as an application answers that waits for activation. -/
def noInputData : StatusWord := ⟨0x62, 0x85⟩

/-- The conditions of use are not satisfied. -/
def conditionsNotSatisfied : StatusWord := ⟨0x69, 0x85⟩

/-- The parameters P1 and P2 are incorrect. -/
def incorrectParameters : StatusWord := ⟨0x6A, 0x86⟩

end StatusWord

end SmartCard
