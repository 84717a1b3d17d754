/-
Decrypting a block undoes encrypting it, under any key
(`cipher128_inverse`, `cipher256_inverse`). Each step of a round is undone
by the step that stands next to it, and the rest is an induction over the
round keys, which holds for any list of them: the key schedule plays no
part.

# Mixing columns

Multiplication by two is additive, and so is everything built from it.
Mixing and mixing back is then a sum over the four octets of a column, in
which the octet itself must come out of its own share and nothing out of
the shares of the others (`share_own`, `share_first` and so on).

# The substitution

The inverse table is where each octet stands in the table, so all it takes
is that no octet stands in the table twice (`substituted_nodup`).
-/
import SmartCard.Crypto.Aes

namespace SmartCard

/-- What holds of the 256 octets one by one holds of every octet. -/
theorem forall_octet {p : UInt8 → Prop}
    (h : ∀ i : Fin 256, p (UInt8.ofFin i)) (x : UInt8) : p x :=
  h x.toFin

namespace Aes

-- ============================================================== one octet

/-- The highest bit of an octet is clear, or it is the only one left when
the others are masked. -/
theorem highest_bit (x : UInt8) : x &&& 0x80 = 0 ∨ x &&& 0x80 = 0x80 := by
  revert x
  exact forall_octet (by decide +kernel)

theorem xor_left_comm (x y z : UInt8) :
    x ^^^ (y ^^^ z) = y ^^^ (x ^^^ z) := by
  ac_rfl

theorem xor_cancel_left (x y : UInt8) : x ^^^ (x ^^^ y) = y := by
  rw [← UInt8.xor_assoc, UInt8.xor_self, UInt8.zero_xor]

/-- A mask of a sum is the sum of the masks. -/
theorem xor_and (x y m : UInt8) :
    (x ^^^ y) &&& m = (x &&& m) ^^^ (y &&& m) := by
  apply UInt8.toNat_inj.mp
  simp only [UInt8.toNat_and, UInt8.toNat_xor]
  exact Nat.and_xor_distrib_right

/-- Multiplication by two is additive. -/
theorem double_xor (x y : UInt8) :
    double (x ^^^ y) = double x ^^^ double y := by
  have hmask := xor_and x y 0x80
  unfold double
  -- the sum is reduced exactly when one summand is and the other is not
  rw [UInt8.shiftLeft_xor]
  rcases highest_bit x with hx | hx
  · rcases highest_bit y with hy | hy
    · rw [hx, hy] at hmask
      rw [hmask, hx, hy]
      rfl
    · rw [hx, hy] at hmask
      rw [hmask, hx, hy]
      exact UInt8.xor_assoc _ _ _
  · rcases highest_bit y with hy | hy
    · rw [hx, hy] at hmask
      rw [hmask, hx, hy]
      show x <<< 1 ^^^ y <<< 1 ^^^ (0x1b : UInt8)
        = x <<< 1 ^^^ (0x1b : UInt8) ^^^ y <<< 1
      ac_rfl
    · rw [hx, hy] at hmask
      rw [hmask, hx, hy]
      show x <<< 1 ^^^ y <<< 1
        = x <<< 1 ^^^ (0x1b : UInt8) ^^^ (y <<< 1 ^^^ (0x1b : UInt8))
      rw [UInt8.xor_assoc (x <<< 1), xor_left_comm 0x1b, UInt8.xor_self,
        UInt8.xor_zero]

-- Everything that is built from doubling is additive with it.

theorem times9_xor (x y : UInt8) :
    times9 (x ^^^ y) = times9 x ^^^ times9 y := by
  unfold times9
  simp only [double_xor]
  ac_rfl

theorem times11_xor (x y : UInt8) :
    times11 (x ^^^ y) = times11 x ^^^ times11 y := by
  unfold times11
  simp only [double_xor]
  ac_rfl

theorem times13_xor (x y : UInt8) :
    times13 (x ^^^ y) = times13 x ^^^ times13 y := by
  unfold times13
  simp only [double_xor]
  ac_rfl

theorem times14_xor (x y : UInt8) :
    times14 (x ^^^ y) = times14 x ^^^ times14 y := by
  unfold times14
  simp only [double_xor]
  ac_rfl

-- ============================================================ one column

/-- An octet comes out of its own share: powers of two meet their like and
are gone, and a single one of the octet is left. -/
theorem share_own (a : UInt8) :
    times14 (double a) ^^^ times11 a ^^^ times13 a ^^^ times9 (triple a)
      = a := by
  unfold times14 times11 times13 times9 triple
  simp only [double_xor, UInt8.xor_assoc, xor_left_comm, xor_cancel_left,
    UInt8.xor_self, UInt8.xor_zero]

-- Nothing comes out of the shares of the three octets below it.

theorem share_first (b : UInt8) :
    times14 (triple b) ^^^ times11 (double b) ^^^ times13 b ^^^ times9 b
      = 0 := by
  unfold times14 times11 times13 times9 triple
  simp only [double_xor, UInt8.xor_assoc, xor_left_comm, xor_cancel_left,
    UInt8.xor_self, UInt8.xor_zero]

theorem share_second (c : UInt8) :
    times14 c ^^^ times11 (triple c) ^^^ times13 (double c) ^^^ times9 c
      = 0 := by
  unfold times14 times11 times13 times9 triple
  simp only [double_xor, UInt8.xor_assoc, xor_left_comm, xor_cancel_left,
    UInt8.xor_self, UInt8.xor_zero]

theorem share_third (d : UInt8) :
    times14 d ^^^ times11 d ^^^ times13 (triple d) ^^^ times9 (double d)
      = 0 := by
  unfold times14 times11 times13 times9 triple
  simp only [double_xor, UInt8.xor_assoc, xor_left_comm, xor_cancel_left,
    UInt8.xor_self]

/-- Mixing a column back gives each octet from the four that it was mixed
into. -/
theorem unmix (a b c d : UInt8) :
    times14 (double a ^^^ triple b ^^^ c ^^^ d)
        ^^^ times11 (double b ^^^ triple c ^^^ d ^^^ a)
        ^^^ times13 (double c ^^^ triple d ^^^ a ^^^ b)
        ^^^ times9 (double d ^^^ triple a ^^^ b ^^^ c)
      = a := by
  simp only [times14_xor, times11_xor, times13_xor, times9_xor]
  calc _ = (times14 (double a) ^^^ times11 a ^^^ times13 a
              ^^^ times9 (triple a))
            ^^^ (times14 (triple b) ^^^ times11 (double b) ^^^ times13 b
              ^^^ times9 b)
            ^^^ (times14 c ^^^ times11 (triple c) ^^^ times13 (double c)
              ^^^ times9 c)
            ^^^ (times14 d ^^^ times11 d ^^^ times13 (triple d)
              ^^^ times9 (double d)) := by ac_rfl
    _ = a ^^^ 0 ^^^ 0 ^^^ 0 := by
          rw [share_own, share_first, share_second, share_third]
    _ = a := by simp only [UInt8.xor_zero]

/-- Going down the rows of a mixed column is going down the rows it was
mixed from. -/
theorem below_mixColumns (s : Block) (i : Fin 16) (k : Nat) :
    below (mixColumns s) i k
      = double (below s i k) ^^^ triple (below s i (k + 1))
        ^^^ below s i (k + 2) ^^^ below s i (k + 3) := by
  have hcolumn : (4 * (i.val / 4) + (i.val + k) % 4) / 4 = i.val / 4 := by
    omega
  have hrow : ∀ j, (4 * (i.val / 4) + (i.val + k) % 4 + j) % 4
      = (i.val + (k + j)) % 4 := by omega
  have hplace : 4 * (i.val / 4) + (i.val + k) % 4 < 16 := by omega
  show (mixColumns s)[4 * (i.val / 4) + (i.val + k) % 4] = _
  unfold mixColumns
  rw [Vector.getElem_ofFn]
  simp only [below, hcolumn, hrow]
  rfl

/-- Four rows down is the same octet again. -/
theorem below_add_four (s : Block) (i : Fin 16) (k : Nat) :
    below s i (k + 4) = below s i k := by
  have hrow : (i.val + (k + 4)) % 4 = (i.val + k) % 4 := by omega
  unfold below
  simp only [hrow]

/-- Mixing the columns back undoes mixing them. -/
theorem mixColumnsBack_mixColumns (s : Block) :
    mixColumnsBack (mixColumns s) = s := by
  apply Vector.ext
  intro i hi
  unfold mixColumnsBack
  rw [Vector.getElem_ofFn]
  simp only [below_mixColumns]
  have hwrap := below_add_four s ⟨i, hi⟩
  rw [hwrap 0, hwrap 1, hwrap 2]
  have hself : below s ⟨i, hi⟩ 0 = s[i] := by
    have hrow : 4 * (i / 4) + (i + 0) % 4 = i := by omega
    unfold below
    simp only [hrow]
    rfl
  rw [← hself]
  exact unmix _ _ _ _

-- ================================================================= rounds

/-- No octet comes twice, nor one that was seen: a set of octets is a
number with a bit for each. -/
def distinct : (seen : Nat) → Bytes → Bool
  | _, [] => true
  | seen, x :: rest =>
      !seen.testBit x.toNat && distinct (seen ||| 1 <<< x.toNat) rest

/-- Octets that pass the check are all different, and none of them was
seen. -/
theorem nodup_of_distinct {seen : Nat} {b : Bytes}
    (h : distinct seen b = true) :
    b.Nodup ∧ ∀ x ∈ b, seen.testBit x.toNat = false := by
  induction b generalizing seen with
  | nil => exact ⟨List.nodup_nil, fun x hx => by cases hx⟩
  | cons x rest ih =>
      unfold distinct at h
      rw [Bool.and_eq_true, Bool.not_eq_true'] at h
      obtain ⟨hx, hrest⟩ := h
      obtain ⟨hnodup, hunseen⟩ := ih hrest
      have hbits : ∀ y ∈ rest, seen.testBit y.toNat = false
          ∧ (1 <<< x.toNat).testBit y.toNat = false := by
        intro y hy
        have := hunseen y hy
        rw [Nat.testBit_or, Bool.or_eq_false_iff] at this
        exact this
      refine ⟨List.nodup_cons.mpr ⟨fun hmem => ?_, hnodup⟩, ?_⟩
      · have := (hbits x hmem).2
        rw [Nat.testBit_shiftLeft] at this
        simp at this
      · intro y hy
        rcases List.mem_cons.mp hy with rfl | hy
        · exact hx
        · exact (hbits y hy).1

/-- The octets of the substitution table, in order. -/
def substituted : Bytes :=
  substitutionRows.flatMap (Bytes.bigEndian 16)

/-- The table has an entry for every octet. -/
theorem length_substituted : substituted.length = 256 := by
  decide +kernel

/-- No octet stands in the table twice. -/
theorem substituted_nodup : substituted.Nodup := by
  have h : distinct 0 substituted = true := by decide +kernel
  exact (nodup_of_distinct h).1

/-- The table is the list of its entries. -/
theorem lookup_substitution {x : UInt8}
    (hx : x.toNat < substituted.length) :
    lookup substitution x = substituted[x.toNat] := by
  have hx256 : x.toNat < 256 := x.toNat_lt
  show (Octets.ofBytes 256 substituted)[x.toNat] = _
  unfold Octets.ofBytes
  rw [Vector.getElem_ofFn, List.getD_eq_getElem?_getD,
    List.getElem?_eq_getElem hx, Option.getD_some]

/-- The inverse table has the place of an octet in the table. -/
theorem lookup_substitutionBack (y : UInt8) :
    lookup substitutionBack y = UInt8.ofNat (substituted.idxOf y) := by
  have hlist : substitution.toList = substituted :=
    Octets.toList_ofBytes length_substituted
  have hy256 : y.toNat < 256 := y.toNat_lt
  show substitutionBack[y.toNat] = _
  unfold substitutionBack
  rw [Vector.getElem_ofFn, hlist, UInt8.ofNat_toNat]

/-- Looking an octet up in the inverse table undoes looking it up in the
table. -/
theorem lookup_back (x : UInt8) :
    lookup substitutionBack (lookup substitution x) = x := by
  have hx : x.toNat < substituted.length := by
    rw [length_substituted]
    exact x.toNat_lt
  rw [lookup_substitutionBack, lookup_substitution hx,
    substituted_nodup.idxOf_getElem]
  exact UInt8.ofNat_toNat

/-- So substitution is undone, octet by octet. -/
theorem subOctetsBack_subOctets (s : Block) :
    subOctetsBack (subOctets s) = s := by
  apply Vector.ext
  intro i hi
  unfold subOctetsBack subOctets
  rw [Vector.getElem_map, Vector.getElem_map]
  exact lookup_back _

/-- Rows that were shifted are shifted back. -/
theorem shiftRowsBack_shiftRows (s : Block) :
    shiftRowsBack (shiftRows s) = s := by
  apply Vector.ext
  intro i hi
  have hback : ((i + 12 * (i % 4)) % 16
      + 4 * ((i + 12 * (i % 4)) % 16 % 4)) % 16 = i := by omega
  unfold shiftRowsBack
  rw [Vector.getElem_ofFn]
  show (shiftRows s)[(i + 12 * (i % 4)) % 16] = s[i]
  unfold shiftRows
  rw [Vector.getElem_ofFn]
  show s[((i + 12 * (i % 4)) % 16
    + 4 * ((i + 12 * (i % 4)) % 16 % 4)) % 16] = s[i]
  simp only [hback]

/-- Undoing rounds under the same keys gives the block from before
them. -/
theorem roundsBack_rounds (keys : List Block) (s : Block) :
    roundsBack keys (rounds keys s) = s := by
  induction keys generalizing s with
  | nil => rfl
  | cons key keys ih =>
      cases keys with
      | nil =>
          -- the last round leaves the mixing out
          unfold rounds roundsBack
          rw [Octets.xor_xor_cancel, shiftRowsBack_shiftRows,
            subOctetsBack_subOctets]
      | cons next keys =>
          unfold rounds roundsBack
          rw [ih, Octets.xor_xor_cancel, mixColumnsBack_mixColumns,
            shiftRowsBack_shiftRows, subOctetsBack_subOctets]

/-- Decrypting undoes encrypting under any list of round keys. -/
theorem decryptWith_encryptWith (keys : List Block) (s : Block) :
    decryptWith keys (encryptWith keys s) = s := by
  cases keys with
  | nil => rfl
  | cons key keys =>
      rw [encryptWith, decryptWith, roundsBack_rounds,
        Octets.xor_xor_cancel]

/-- Decrypting undoes encrypting under a 128 bit key. -/
theorem cipher128_inverse (key : Octets 16) (block : Block) :
    (cipher128 key).decrypt ((cipher128 key).encrypt block) = block :=
  decryptWith_encryptWith _ block

/-- Decrypting undoes encrypting under a 256 bit key. -/
theorem cipher256_inverse (key : Octets 32) (block : Block) :
    (cipher256 key).decrypt ((cipher256 key).encrypt block) = block :=
  decryptWith_encryptWith _ block

end Aes

end SmartCard
