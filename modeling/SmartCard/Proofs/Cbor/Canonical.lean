/-
The canonical order of the entries of a map: the octets of their keys
ascend. Since the first octet of a key tells its type and the width of its
number, this puts types in order, then shorter keys before longer ones, and
numbers that are not negative before those that are.

Keys that ascend are different keys (`Before.ne`), so a canonical map has
one entry at most for each.
-/
import SmartCard.Cbor.Encode

namespace SmartCard.Cbor

/-- One key comes before another: its octets are lower, the first that
differs deciding. -/
def Before (a b : Cbor) : Prop :=
  List.Lex (· < ·) (encode a) (encode b)

instance (a b : Cbor) : Decidable (Before a b) :=
  inferInstanceAs (Decidable (List.Lex _ _ _))

theorem Before.ne {a b : Cbor} (h : Before a b) : a ≠ b := by
  rintro rfl
  exact List.lex_irrefl (fun x => UInt8.lt_irrefl x) _ h

/-- The keys of every map in a value ascend, however deep the map is. -/
inductive Canonical : Cbor → Prop
  | unsigned (n : UInt64) : Canonical (.unsigned n)
  | negative (n : UInt64) : Canonical (.negative n)
  | bytes (octets : Bytes) : Canonical (.bytes octets)
  | text (t : String) : Canonical (.text t)
  | array {items : List Cbor} :
      (∀ item ∈ items, Canonical item) → Canonical (.array items)
  | map {entries : List (Cbor × Cbor)} :
      entries.Pairwise (fun a b => Before a.1 b.1) →
      (∀ entry ∈ entries, Canonical entry.1) →
      (∀ entry ∈ entries, Canonical entry.2) → Canonical (.map entries)
  | tag {number : UInt64} {value : Cbor} :
      Canonical value → Canonical (.tag number value)
  | bool (value : Bool) : Canonical (.bool value)
  | null : Canonical .null
  | float (bits : UInt64) : Canonical (.float bits)

/-- A whole number is canonical as it is. -/
theorem canonical_ofInt (k : Int) : Canonical (ofInt k) := by
  unfold ofInt
  split
  · exact .unsigned _
  · exact .negative _

end SmartCard.Cbor
