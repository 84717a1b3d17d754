/-
Octet strings, and numbers written into them. Everything that crosses the
wire between host and card is a `Bytes`, so the few operations on it that
several layers share live here: big-endian numbers, cutting a string into
pieces of one size, and dropping the leading zeros of a number.

# Why lists

A list has one view, its own, and every law about taking, dropping and
appending is already in the core library. The strings are short (a frame
is at most 64 kilobytes), so nothing is gained by an array.
-/

namespace SmartCard

/-- A string of octets, first octet first. -/
abbrev Bytes := List UInt8

namespace Bytes

-- ===================================================== big-endian numbers

/-- The low `width` octets of `n`, most significant first. Higher octets of
`n` are dropped, as a field of fixed width drops them. -/
def bigEndian : (width : Nat) → (n : Nat) → Bytes
  | 0, _ => []
  | width + 1, n => bigEndian width (n / 256) ++ [UInt8.ofNat n]

/-- The number whose base-256 digits are the octets, most significant
first. -/
def toNat (b : Bytes) : Nat :=
  b.foldl (fun n x => 256 * n + x.toNat) 0

@[simp] theorem length_bigEndian (width n : Nat) : (bigEndian width n).length = width := by
  induction width generalizing n with
  | zero => rfl
  | succ width ih => simp [bigEndian, ih]

/-- One more octet on the right multiplies by 256 and adds. -/
theorem toNat_append_singleton (b : Bytes) (x : UInt8) :
    toNat (b ++ [x]) = 256 * toNat b + x.toNat := by
  simp [toNat, List.foldl_append]

/-- Reading back what was written gives the number modulo the field's
range. -/
theorem toNat_bigEndian (width n : Nat) :
    toNat (bigEndian width n) = n % Nat.pow 256 width := by
  induction width generalizing n with
  | zero => simp [bigEndian, toNat, Nat.mod_one]
  | succ width ih =>
    have last : (UInt8.ofNat n).toNat = n % 256 := by simp
    rw [bigEndian, toNat_append_singleton, ih, last]
    show _ = n % (Nat.pow 256 width * 256)
    rw [Nat.mul_comm (Nat.pow 256 width) 256, Nat.mod_mul]
    omega

-- ================================================================ pieces

/-- The first `count` pieces of `size` octets each. The last ones are short
or empty when the string ends early. -/
def pieces (size : Nat) : (count : Nat) → Bytes → List Bytes
  | 0, _ => []
  | count + 1, b => b.take size :: pieces size count (b.drop size)

@[simp] theorem length_pieces (size count : Nat) (b : Bytes) :
    (pieces size count b).length = count := by
  induction count generalizing b with
  | zero => rfl
  | succ count ih => simp [pieces, ih]

/-- The pieces in order are the string up to the end of the last piece. -/
theorem flatten_pieces (size count : Nat) (b : Bytes) :
    (pieces size count b).flatten = b.take (size * count) := by
  induction count generalizing b with
  | zero => simp [pieces]
  | succ count ih =>
    rw [pieces, List.flatten_cons, ih, Nat.mul_succ, Nat.add_comm, List.take_add]

-- ========================================================= leading zeros

/-- The octets from the first that is not zero. As a big-endian number the
string keeps its value. -/
def stripLeadingZeros (b : Bytes) : Bytes :=
  b.dropWhile (· == 0)

end Bytes

end SmartCard
