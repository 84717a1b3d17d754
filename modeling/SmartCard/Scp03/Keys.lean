/-
The keys of a secure channel: those that host and card share for good, and
those of one channel, derived from them.
-/
import SmartCard.Scp03.Derivation
import SmartCard.Text.Summary

namespace SmartCard.Scp03

/-- The number of a key set on a card. -/
structure KeyRef where
  /-- Which protocol the keys are for. -/
  identifier : UInt8 := 0x01
  /-- The version of the key set; zero for the first there is. -/
  version : UInt8 := 0x00
  deriving DecidableEq, Repr

/-- The keys that host and card share. -/
structure StaticKeys where
  /-- What encryption keys are derived from. -/
  enc : Key
  /-- What the keys of message codes are derived from. -/
  mac : Key
  /-- What further keys are wrapped with. -/
  dek : Option Key
  deriving DecidableEq

/-- The keys of one channel. -/
structure SessionKeys where
  /-- For encryption, both ways. -/
  senc : Key
  /-- For the codes of commands. -/
  smac : Key
  /-- For the codes of responses. -/
  srmac : Key
  /-- For wrapping further keys. -/
  dek : Option Key
  deriving DecidableEq

namespace StaticKeys

/-- The key value of cards that were never given another. -/
def factoryKey : Key :=
  Octets.ofBytes 16 (Bytes.bigEndian 16 0x404142434445464748494a4b4c4d4e4f)

/-- The key set of cards that were never given another. -/
def factory : StaticKeys :=
  ⟨factoryKey, factoryKey, some factoryKey⟩

/-- The keys of the channel between the parties that the context names. -/
def derive (keys : StaticKeys) (context : Bytes) : SessionKeys where
  senc := deriveKey keys.enc Purpose.encryptionKey.octet context
  smac := deriveKey keys.mac Purpose.commandMacKey.octet context
  srmac := deriveKey keys.mac Purpose.responseMacKey.octet context
  dek := keys.dek

/-- A summary that shows no key. -/
def summary (keys : StaticKeys) : String :=
  Summary.record "StaticKeys" [
    ("enc", Summary.redacted),
    ("mac", Summary.redacted),
    ("dek", Summary.optional (keys.dek.map fun _ => Summary.redacted))]

end StaticKeys

namespace SessionKeys

/-- Keys of which nothing is left. -/
def wiped : SessionKeys :=
  ⟨Octets.zero 16, Octets.zero 16, Octets.zero 16, none⟩

/-- A summary that shows no key. -/
def summary (keys : SessionKeys) : String :=
  Summary.record "SessionKeys" [
    ("senc", Summary.redacted),
    ("smac", Summary.redacted),
    ("srmac", Summary.redacted),
    ("dek", Summary.optional (keys.dek.map fun _ => Summary.redacted))]

end SessionKeys

end SmartCard.Scp03
