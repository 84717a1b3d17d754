/-
Versions of the firmware on a device, and features that only some versions
have.
-/
import SmartCard.Error

namespace SmartCard

/-- A firmware version of three numbers. -/
structure Version where
  major : UInt8
  minor : UInt8
  patch : UInt8
  deriving DecidableEq, Repr

namespace Version

/-- The numbers with points between them. -/
def text (v : Version) : String :=
  s!"{v.major}.{v.minor}.{v.patch}"

/-- The order of versions: by the first number, then the second, then the
third. -/
def compare (v w : Version) : Ordering :=
  (Ord.compare v.major w.major).then ((Ord.compare v.minor w.minor).then (Ord.compare v.patch w.patch))

/-- Strictly older. -/
def isBelow (v w : Version) : Bool :=
  v.compare w == .lt

/-- The same version or a newer one. -/
def isAtLeast (v w : Version) : Bool :=
  !v.isBelow w

-- ============================================================= reading

/-- The version in the first three octets. -/
def ofBytes : Bytes → Except Error Version
  | major :: minor :: patch :: _ => .ok ⟨major, minor, patch⟩
  | short => .error (.protocol (.shortVersion short.length))

/-- The number written as two decimal digits in one octet. Each half counts
as a digit, also one above nine. -/
def decimal (x : UInt8) : UInt8 :=
  (x >>> 4) * 10 + (x &&& 0x0F)

/-- The version in the first three octets, each written as two decimal
digits. -/
def ofDecimalBytes (b : Bytes) : Except Error Version := do
  let raw ← ofBytes b
  return ⟨decimal raw.major, decimal raw.minor, decimal raw.patch⟩

end Version

-- ============================================================ features

/-- Which versions have a feature. -/
inductive Requirement
  /-- The given version and newer ones. -/
  | atLeast (floor : Version)
  /-- One floor for the given first number, another for all others. -/
  | byMajor (major : UInt8) (floor otherwise : Version)
  /-- Whatever versions satisfy a test. -/
  | satisfying (test : Version → Bool)

namespace Requirement

/-- Whether a version meets the requirement. -/
def holds : Requirement → Version → Bool
  | atLeast floor, v => v.isAtLeast floor
  | byMajor major floor otherwise, v =>
    if v.major = major then v.isAtLeast floor else v.isAtLeast otherwise
  | satisfying test, v => test v

/-- The requirement in words. -/
def text : Requirement → String
  | atLeast floor => s!"version {floor.text} or later"
  | byMajor major floor otherwise =>
    s!"version {floor.text} or later on {major}.x, {otherwise.text} or later otherwise"
  | satisfying _ => "a compatible version"

end Requirement

/-- A capability that depends on the version. -/
structure Feature where
  /-- The name used in errors. -/
  name : String
  /-- The versions that have it. -/
  requirement : Requirement

namespace Feature

/-- A feature of the given version and all newer ones. -/
def since (name : String) (major minor patch : UInt8) : Feature :=
  ⟨name, .atLeast ⟨major, minor, patch⟩⟩

/-- Whether a version has the feature. -/
def isSupportedBy (f : Feature) (v : Version) : Bool :=
  f.requirement.holds v

/-- Refuse versions that do not have the feature. -/
def require (f : Feature) (v : Version) : Except Error Unit :=
  if f.isSupportedBy v then .ok ()
  else .error (.unsupported (.feature f.name f.requirement.text v.text))

end Feature

end SmartCard
