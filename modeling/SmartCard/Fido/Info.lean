/-
What an authenticator tells about itself: the versions of the protocol it
speaks, its options, and its limits.
-/
import SmartCard.Cbor.Decode
import SmartCard.Fido.Key

namespace SmartCard.Fido

-- ============================================================== versions

/-- A version of the protocol, the oldest first. -/
inductive FidoVersion
  | u2f
  | fido20
  | fido21Preview
  | fido21
  deriving DecidableEq, Repr

namespace FidoVersion

/-- The place in the order of versions. -/
def rank : FidoVersion → Nat
  | u2f => 0
  | fido20 => 1
  | fido21Preview => 2
  | fido21 => 3

/-- The name that authenticators list. -/
def name : FidoVersion → String
  | u2f => "U2F_V2"
  | fido20 => "FIDO_2_0"
  | fido21Preview => "FIDO_2_1_PRE"
  | fido21 => "FIDO_2_1"

/-- The version with a name. -/
def ofName (text : String) : Except Error FidoVersion :=
  if text = "U2F_V2" then .ok u2f
  else if text = "FIDO_2_0" then .ok fido20
  else if text = "FIDO_2_1_PRE" then .ok fido21Preview
  else if text = "FIDO_2_1" then .ok fido21
  else .error (.unsupported .unknownVersion)

/-- The newer of two versions. -/
def newer (v w : FidoVersion) : FidoVersion :=
  if v.rank < w.rank then w else v

/-- The newest version in a list of names; unknown names do not count. -/
def newest (names : List String) : Option FidoVersion :=
  names.foldl (fun best text =>
    match ofName text, best with
    | .ok v, some w => some (newer w v)
    | .ok v, none => some v
    | .error _, _ => best) none

end FidoVersion

-- =========================================================== permissions

/-- What a token may be used for, a bit each. -/
structure Permissions where
  bits : UInt8
  deriving DecidableEq, Repr

namespace Permissions

def makeCredential : Permissions := ⟨0x01⟩
def getAssertion : Permissions := ⟨0x02⟩
def credentialManagement : Permissions := ⟨0x04⟩
def bioEnrollment : Permissions := ⟨0x08⟩
def largeBlobWrite : Permissions := ⟨0x10⟩
def authenticatorConfig : Permissions := ⟨0x20⟩

/-- No permission. -/
def empty : Permissions := ⟨0x00⟩

/-- What is asked for where nothing else is said: making and using
credentials. -/
def standard : Permissions := ⟨makeCredential.bits ||| getAssertion.bits⟩

/-- The permission that a command needs, if it needs any. -/
def forCommand (command : UInt8) : Permissions :=
  match command with
  | 0x01 => makeCredential
  | 0x02 => getAssertion
  | 0x0A => credentialManagement
  | 0x41 => credentialManagement
  | 0x09 => bioEnrollment
  | 0x40 => bioEnrollment
  | 0x0C => largeBlobWrite
  | 0x0D => authenticatorConfig
  | _ => empty

end Permissions

-- =========================================================== information

/-- What an authenticator tells about itself. -/
structure Info where
  /-- The names of the versions it speaks. -/
  versions : List String := []
  /-- The names of its extensions. -/
  extensions : List String := []
  /-- The model. -/
  aaguid : Bytes := []
  /-- The options it lists, each once, and whether they are on. -/
  options : List (String × Bool) := []
  /-- The longest message it takes. -/
  maxMessageSize : Option Nat := none
  /-- The numbers of its PIN protocols, the preferred one first. -/
  pinProtocols : List UInt8 := []
  /-- The shortest PIN it takes. -/
  minPinLength : Option Nat := none
  /-- Its firmware. -/
  firmwareVersion : Option Nat := none
  deriving DecidableEq

namespace Info

/-- Set an option. One that is listed twice is as listed last. -/
def setOption (options : List (String × Bool)) (name : String) (value : Bool) :
    List (String × Bool) :=
  options.filter (·.1 != name) ++ [(name, value)]

/-- The texts in an array, anything else in it left out. -/
def textsIn : Option Cbor → List String
  | some (.array items) => items.filterMap Cbor.text?
  | _ => []

/-- The octets in an array, anything else in it left out. -/
def octetsIn : Option Cbor → List UInt8
  | some (.array items) => items.filterMap Cbor.octet?
  | _ => []

/-- The options in a map, entries of any other shape left out. -/
def optionsIn : Option Cbor → List (String × Bool)
  | some (.map entries) =>
    entries.foldl (fun options entry =>
      match entry.1.text?, entry.2.bool? with
      | some name, some value => setOption options name value
      | _, _ => options) []
  | _ => []

/-- A number that is not negative. -/
def countIn (v : Option Cbor) : Option Nat :=
  match v.bind Cbor.signed? with
  | some k => if 0 ≤ k then some k.toNat else none
  | none => none

/-- Read the map that an authenticator answers. Only the versions must be
there. -/
def ofCbor (v : Cbor) : Except Error Info := do
  let entries ← entriesOf v
  let find := Cbor.lookup entries
  let versions := textsIn (find 0x01)
  if versions.isEmpty then throw (.invalidResponse .noVersions)
  return {
    versions
    extensions := textsIn (find 0x02)
    aaguid := ((find 0x03).bind Cbor.bytes?).getD []
    options := optionsIn (find 0x04)
    maxMessageSize := countIn (find 0x05)
    pinProtocols := octetsIn (find 0x06)
    minPinLength := countIn (find 0x0D)
    firmwareVersion := countIn (find 0x0E) }

/-- The newest version listed. -/
def newestVersion (info : Info) : Option FidoVersion :=
  FidoVersion.newest info.versions

/-- Whether an option is on, nothing where it is not listed. -/
def option (info : Info) (name : String) : Option Bool :=
  (info.options.find? (·.1 == name)).map Prod.snd

/-- Whether the authenticator knows PINs at all. -/
def supportsPin (info : Info) : Bool :=
  (info.option "clientPin").isSome

/-- Whether the authenticator issues tokens with permissions. -/
def supportsTokens (info : Info) : Bool :=
  info.option "pinUvAuthToken" == some true

end Info

end SmartCard.Fido
