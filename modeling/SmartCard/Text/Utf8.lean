/-
Text as octets.
-/
import SmartCard.Bytes

namespace SmartCard.Utf8

/-- The octets of a text. -/
def encode (text : String) : Bytes :=
  text.toUTF8.data.toList

/-- The text with the given octets, if they are well formed. -/
def decode? (octets : Bytes) : Option String :=
  String.fromUTF8? ⟨octets.toArray⟩

end SmartCard.Utf8
