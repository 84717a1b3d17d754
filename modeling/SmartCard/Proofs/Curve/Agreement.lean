/-
Two parties that multiply each other's public key agree: `agree_comm`.

# Numbers and points

What goes over the wire are the coordinates of a point, as numbers below
`p`; the neutral point has none (`numbers`). In these terms a multiplication
is one in the group (`multiply_eq`), and the group is commutative. The one
thing that could go wrong is a public key that is the neutral point, which
has no coordinates to send. It does not occur, because the generator has the
prime order that private keys stay below (`addOrderOf_base`).
-/
import SmartCard.Proofs.Curve.Group

namespace SmartCard.P256

open WeierstrassCurve

-- ============================================================= divisions

/-- Powers that are computed modulo `p` are powers in the field. -/
theorem power_cast {n : Nat} (a : Nat) (h : n < 2 ^ 256) :
    (power a n : Element) = (a : Element) ^ n := by
  have hpower : power a n = powerAlong p a (lowBits 256 n) := rfl
  rw [hpower, powerAlong_cast, value_lowBits h]

/-- By Fermat, the inverse is a power; that of zero is zero, as in the
field. -/
theorem inverse_cast (a : Nat) :
    (inverse a : Element) = (a : Element)⁻¹ := by
  unfold inverse
  rw [power_cast a (by decide)]
  by_cases ha : (a : Element) = 0
  · rw [ha, inv_zero, zero_pow (by decide)]
  · refine eq_inv_of_mul_eq_one_left ?_
    rw [← pow_succ]
    exact ZMod.pow_card_sub_one_eq_one ha

-- ============================================================ coordinates

/-- The coordinates of a point as numbers. -/
def numbers : curve.Point → Option Point
  | .zero => none
  | .some x y _ => some ⟨x.val, y.val⟩

/-- A number is reduced to the element it stands for. -/
theorem val_of_cast {n : Nat} {e : Element} (h : (n : Element) = e) :
    n % p = e.val := by
  rw [← h, ZMod.val_natCast]

theorem numbers_some {x y : Element} (h : curve.Nonsingular x y) :
    numbers (.some x y h) = some ⟨x.val, y.val⟩ := rfl

/-- A projective point is divided out to the point it stands for. -/
theorem Stands.toPoint? {a : Projective} {P : curve.Point}
    (h : Stands a P) : a.toPoint? = numbers P := by
  unfold Projective.toPoint?
  cases P with
  | zero =>
      have hz : a.z = 0 := h
      rw [if_pos hz]
      rfl
  | some x y hpoint =>
      have hfinite : Finite a x y := h
      have hz := hfinite.z_ne
      rw [if_neg hfinite.z_pos]
      rw [numbers_some]
      refine congrArg some (congrArg₂ Point.mk ?_ ?_)
      · refine val_of_cast ?_
        simp only [cast_mod, Nat.cast_mul, inverse_cast, hfinite.x_eq]
        field_simp
      · refine val_of_cast ?_
        simp only [cast_mod, Nat.cast_mul, inverse_cast, hfinite.y_eq]
        field_simp

/-- Only the neutral point has no coordinates. -/
theorem numbers_eq_none_iff {P : curve.Point} :
    numbers P = none ↔ P = 0 := by
  cases P with
  | zero => exact ⟨fun _ => rfl, fun _ => rfl⟩
  | some x y hpoint =>
      constructor
      · intro h
        cases h
      · intro h
        cases h

/-- The coordinates of a point stand for it. -/
theorem stands_numbers {P : curve.Point} {a : Point}
    (h : numbers P = some a) : Stands ⟨a.x, a.y, 1⟩ P := by
  cases P with
  | zero => cases h
  | some x y hpoint =>
      have ha : ⟨x.val, y.val⟩ = a := Option.some.inj h
      rw [← ha]
      refine ⟨ZMod.val_lt y, p_prime.one_lt, ?_, ?_, ?_⟩
      · rw [Nat.cast_one]
        exact one_ne_zero
      · simp
      · simp

/-- Multiplying numbers multiplies in the group. -/
theorem multiply_eq {P : curve.Point} {a : Point} {n : Nat}
    (h : numbers P = some a) (hn : n < 2 ^ 256) :
    multiply n a = numbers (n • P) := by
  have hwalk := (stands_numbers h).multiple (lowBits 256 n)
  rw [value_lowBits hn] at hwalk
  exact hwalk.toPoint?

/-- The check of a point is the equation of the curve. -/
theorem onCurve_iff (a : Point) :
    a.onCurve = true ↔ (a.x < p ∧ a.y < p)
      ∧ (a.y : Element) ^ 2 = (a.x : Element) ^ 3 - 3 * a.x + b := by
  have hthree : ((p - 3 : Nat) : Element) = -3 := by
    rw [Nat.cast_sub (by decide), ZMod.natCast_self]
    ring
  have hequation : (a.y * a.y % p = (a.x * a.x * a.x + (p - 3) * a.x + b) % p)
      ↔ (a.y : Element) ^ 2 = (a.x : Element) ^ 3 - 3 * a.x + b := by
    rw [← ZMod.natCast_eq_natCast_iff']
    push_cast [hthree]
    constructor
    · intro h
      linear_combination h
    · intro h
      linear_combination h
  unfold Point.onCurve
  simp only [Bool.and_eq_true, decide_eq_true_eq, beq_iff_eq, hequation]

/-- The coordinates of a point satisfy the check. -/
theorem numbers_onCurve {P : curve.Point} {a : Point}
    (h : numbers P = some a) : a.onCurve = true := by
  cases P with
  | zero => cases h
  | some x y hpoint =>
      rw [← Option.some.inj h, onCurve_iff]
      refine ⟨⟨ZMod.val_lt x, ZMod.val_lt y⟩, ?_⟩
      simp only [ZMod.natCast_val, ZMod.cast_id', id_eq]
      exact (equation_iff x y).mp hpoint.1

-- =========================================================== the generator

/-- The generator passes the check of a point. -/
theorem generator_onCurve : generator.onCurve = true := by decide +kernel

/-- The generator as a point of the group. -/
def base : curve.Point :=
  .some generator.x generator.y
    (nonsingular ((onCurve_iff generator).mp generator_onCurve).2)

/-- Its coordinates as a point of the group are its numbers. -/
theorem numbers_base : numbers base = some generator := by
  have hreduced := ((onCurve_iff generator).mp generator_onCurve).1
  unfold base
  rw [numbers_some, ZMod.val_cast_of_lt hreduced.1,
    ZMod.val_cast_of_lt hreduced.2]

/-- As many times the generator as there are points is neutral. -/
theorem order_smul_base : order • base = 0 := by
  have hnone : multiply order generator = none := by decide +kernel
  rw [multiply_eq numbers_base (by decide)] at hnone
  exact numbers_eq_none_iff.mp hnone

/-- And no smaller multiple is, the order being prime. -/
theorem addOrderOf_base : addOrderOf base = order := by
  have : Fact order.Prime := ⟨order_prime⟩
  refine addOrderOf_eq_prime order_smul_base ?_
  exact Affine.Point.some_ne_zero _

-- ============================================================= public keys

/-- A scalar has at most 256 binary digits. -/
theorem Scalar.val_lt (d : Scalar) : d.val < 2 ^ 256 :=
  Nat.lt_trans d.lt (by decide)

/-- A public key is a finite point, the multiple of the generator. -/
theorem Scalar.numbers_publicKey (d : Scalar) :
    numbers (d.val • base) = some d.publicKey := by
  -- a multiple below the order is not neutral, so it has coordinates
  have hne : d.val • base ≠ 0 := by
    intro hzero
    have hdvd := addOrderOf_dvd_of_nsmul_eq_zero hzero
    rw [addOrderOf_base] at hdvd
    exact Nat.not_le.mpr d.lt (Nat.le_of_dvd d.pos hdvd)
  unfold publicKey
  rw [multiply_eq numbers_base d.val_lt]
  cases hnumbers : numbers (d.val • base) with
  | none => exact absurd (numbers_eq_none_iff.mp hnumbers) hne
  | some q => rfl

/-- Public keys are on the curve. -/
theorem Scalar.publicKey_onCurve (d : Scalar) : d.publicKey.onCurve = true :=
  numbers_onCurve d.numbers_publicKey

/-- What each side makes of the other's public key is the same. -/
theorem agree_comm (d e : Scalar) :
    agree d e.publicKey = agree e d.publicKey := by
  have hmultiple : ∀ d e : Scalar, multiply d.val e.publicKey
      = numbers ((d.val * e.val) • base) := by
    intro d e
    rw [multiply_eq e.numbers_publicKey d.val_lt, mul_nsmul']
  unfold agree
  rw [hmultiple d e, hmultiple e d, Nat.mul_comm]

end SmartCard.P256
