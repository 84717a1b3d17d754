/-
The rules for PINs: how long they may be, and the two forms in which they
are sent.
-/
import SmartCard.Crypto.Sha256
import SmartCard.Fido.Error
import SmartCard.Text.Utf8

namespace SmartCard.Fido.Pin

/-- Refuse PINs of fewer than four characters or more than 63 octets. -/
def validate (pin : String) : Except Error Unit :=
  if pin.length < 4 then .error (.invalidPin .tooShort)
  else if (Utf8.encode pin).length > 63 then .error (.invalidPin .tooLong)
  else .ok ()

/-- The octets of a PIN. -/
def plain (pin : String) : Except Error Bytes := do
  validate pin
  return Utf8.encode pin

/-- The octets of a PIN and zeros, 64 together. A valid PIN leaves room for
at least one zero. -/
def padded (pin : String) : Except Error Bytes := do
  let octets ← plain pin
  return octets ++ List.replicate (64 - octets.length) 0

/-- The first half of the digest of a PIN. -/
def hash (pin : String) : Except Error Bytes := do
  let octets ← plain pin
  return (Sha256.digest octets).toList.take 16

end SmartCard.Fido.Pin
