/-
What is computed with projective points is the group of the curve: doubling
doubles, adding adds, and a walk through the digits of a number gives that
multiple.

# What a projective point stands for

`Stands a P` says that the numbers in `a` are the point `P` of the group,
in the coordinates x/z² and y/z³. The group is the one of the library, of
the curve over the integers modulo `p`. Each formula is looked at once, over
any field (`tangent_x` and the three behind it); the rest is which of the
cases of the group law a test of the program picks.
-/
import Mathlib.AlgebraicGeometry.EllipticCurve.Affine.Point
import Mathlib.FieldTheory.Finite.Basic
import Mathlib.Tactic.FieldSimp
import Mathlib.Tactic.LinearCombination
import SmartCard.Proofs.Curve.Primes

namespace SmartCard.P256

open WeierstrassCurve

instance : Fact p.Prime := ⟨p_prime⟩

/-- An element of the field. -/
abbrev Element := ZMod p

/-- The curve. -/
def curve : Affine Element := ⟨0, 0, 0, -3, b⟩

-- ================================================== elements and numbers

/-- Numbers below `p` are equal where their elements are. -/
theorem cast_inj {a c : Nat} (ha : a < p) (hc : c < p) :
    (a : Element) = c ↔ a = c := by
  rw [ZMod.natCast_eq_natCast_iff', Nat.mod_eq_of_lt ha, Nat.mod_eq_of_lt hc]

theorem cast_mod (a : Nat) : ((a % p : Nat) : Element) = a :=
  ZMod.natCast_mod a p

theorem mod_p_lt (a : Nat) : a % p < p :=
  Nat.mod_lt a p_prime.pos

theorem sub_lt (a c : Nat) : sub a c < p :=
  mod_p_lt _

/-- Subtraction of numbers is subtraction in the field, though numbers have
no sign. -/
theorem cast_sub (a c : Nat) : ((sub a c : Nat) : Element) = a - c := by
  unfold sub
  rw [cast_mod, Nat.cast_add, Nat.cast_sub (Nat.le_of_lt (mod_p_lt c)),
    cast_mod, ZMod.natCast_self, zero_sub, sub_eq_add_neg]

/-- The tangent divides by two, which the field allows. -/
theorem two_ne_zero' : (2 : Element) ≠ 0 := by
  have h : ((2 : Nat) : Element) ≠ ((0 : Nat) : Element) := by
    rw [ne_eq, cast_inj (by decide) p_prime.pos]
    decide
  exact_mod_cast h

-- ============================================================ the curve

/-- The equation of the library, for this curve. -/
theorem equation_iff (x y : Element) :
    curve.Equation x y ↔ y ^ 2 = x ^ 3 - 3 * x + b := by
  rw [Affine.equation_iff]
  simp only [curve]
  constructor
  · intro h
    linear_combination h
  · intro h
    linear_combination h

/-- The curve has no singular point. -/
theorem discriminant_ne_zero : curve.Δ ≠ 0 := by
  have hdisc : curve.Δ = 1728 - 432 * (b : Element) ^ 2 := by
    simp only [WeierstrassCurve.Δ, b₂, b₄, b₆, b₈, curve]
    ring
  intro hzero
  rw [hdisc, sub_eq_zero] at hzero
  have hcast : ((1728 : Nat) : Element) = ((432 * b ^ 2 : Nat) : Element) := by
    push_cast
    exact hzero
  rw [ZMod.natCast_eq_natCast_iff'] at hcast
  exact absurd hcast (by decide)

/-- So every pair that satisfies the equation is a point of the group. -/
theorem nonsingular {x y : Element} (h : y ^ 2 = x ^ 3 - 3 * x + b) :
    curve.Nonsingular x y :=
  (Affine.equation_iff_nonsingular_of_Δ_ne_zero discriminant_ne_zero).mp
    ((equation_iff x y).mpr h)

theorem negY_eq (x y : Element) : curve.negY x y = -y := by
  simp [Affine.negY, curve]

theorem addX_eq (x₁ x₂ slope : Element) :
    curve.addX x₁ x₂ slope = slope ^ 2 - x₁ - x₂ := by
  simp [Affine.addX, curve]

theorem addY_eq (x₁ x₂ y₁ slope : Element) :
    curve.addY x₁ x₂ y₁ slope
      = slope * (x₁ - (slope ^ 2 - x₁ - x₂)) - y₁ := by
  rw [Affine.addY, Affine.negAddY, negY_eq, addX_eq]
  ring

-- ============================================== the formulas, in any field

section Formulas

variable {F : Type} [Field F]

/-- The first coordinate of twice a point, in projective form. -/
theorem tangent_x (x : F) {y z : F} (hy : y ≠ 0) (hz : z ≠ 0) (h2 : (2 : F) ≠ 0) :
    let m := 3 * (x * z ^ 2 - z * z) * (x * z ^ 2 + z * z)
    let s := 4 * (x * z ^ 2) * (y * z ^ 3 * (y * z ^ 3))
    let slope := (3 * x ^ 2 - 3) / (2 * y)
    m * m - 2 * s
      = (slope ^ 2 - x - x) * (2 * (y * z ^ 3) * z) ^ 2 := by
  intro m s slope
  simp only [m, s, slope]
  field_simp
  ring

theorem tangent_y (x : F) {y z : F} (hy : y ≠ 0) (hz : z ≠ 0) (h2 : (2 : F) ≠ 0) :
    let m := 3 * (x * z ^ 2 - z * z) * (x * z ^ 2 + z * z)
    let s := 4 * (x * z ^ 2) * (y * z ^ 3 * (y * z ^ 3))
    let slope := (3 * x ^ 2 - 3) / (2 * y)
    m * (s - (m * m - 2 * s))
        - 8 * (y * z ^ 3 * (y * z ^ 3)) * (y * z ^ 3 * (y * z ^ 3))
      = (slope * (x - (slope ^ 2 - x - x)) - y)
        * (2 * (y * z ^ 3) * z) ^ 3 := by
  intro m s slope
  simp only [m, s, slope]
  field_simp
  ring

/-- The first coordinate of the sum of two points, in projective form. -/
theorem chord_x {x₁ x₂ : F} (hx : x₁ ≠ x₂) (y₁ z₁ y₂ z₂ : F) :
    let u := x₁ * z₁ ^ 2 * (z₂ * z₂)
    let v := x₂ * z₂ ^ 2 * (z₁ * z₁)
    let s := y₁ * z₁ ^ 3 * (z₂ * z₂) * z₂
    let t := y₂ * z₂ ^ 3 * (z₁ * z₁) * z₁
    let slope := (y₁ - y₂) / (x₁ - x₂)
    (t - s) * (t - s)
        - ((v - u) * ((v - u) * (v - u)) + 2 * (u * ((v - u) * (v - u))))
      = (slope ^ 2 - x₁ - x₂) * (z₁ * z₂ * (v - u)) ^ 2 := by
  intro u v s t slope
  have hd : x₁ - x₂ ≠ 0 := sub_ne_zero.mpr hx
  simp only [u, v, s, t, slope]
  field_simp
  ring

theorem chord_y {x₁ x₂ : F} (hx : x₁ ≠ x₂) (y₁ z₁ y₂ z₂ : F) :
    let u := x₁ * z₁ ^ 2 * (z₂ * z₂)
    let v := x₂ * z₂ ^ 2 * (z₁ * z₁)
    let s := y₁ * z₁ ^ 3 * (z₂ * z₂) * z₂
    let t := y₂ * z₂ ^ 3 * (z₁ * z₁) * z₁
    let slope := (y₁ - y₂) / (x₁ - x₂)
    (t - s) * (u * ((v - u) * (v - u)) - ((t - s) * (t - s)
        - ((v - u) * ((v - u) * (v - u)) + 2 * (u * ((v - u) * (v - u))))))
        - s * ((v - u) * ((v - u) * (v - u)))
      = (slope * (x₁ - (slope ^ 2 - x₁ - x₂)) - y₁)
        * (z₁ * z₂ * (v - u)) ^ 3 := by
  intro u v s t slope
  have hd : x₁ - x₂ ≠ 0 := sub_ne_zero.mpr hx
  simp only [u, v, s, t, slope]
  field_simp
  ring

end Formulas

-- ========================================================= finite points

/-- The numbers of a projective point are those of the finite point with
these coordinates. What is compared with other numbers is reduced. -/
structure Finite (a : Projective) (x y : Element) : Prop where
  y_lt : a.y < p
  z_lt : a.z < p
  z_ne : (a.z : Element) ≠ 0
  x_eq : (a.x : Element) = x * (a.z : Element) ^ 2
  y_eq : (a.y : Element) = y * (a.z : Element) ^ 3

/-- A finite point is told from the neutral one by its third number. -/
theorem Finite.z_pos {a : Projective} {x y : Element} (h : Finite a x y) :
    a.z ≠ 0 := by
  intro hz
  exact h.z_ne (by rw [hz, Nat.cast_zero])

/-- Whether a point is its own opposite is seen from its second number. -/
theorem Finite.y_eq_zero_iff {a : Projective} {x y : Element}
    (h : Finite a x y) : a.y = 0 ↔ y = 0 := by
  rw [← cast_inj h.y_lt p_prime.pos, Nat.cast_zero, h.y_eq, mul_eq_zero]
  exact or_iff_left (pow_ne_zero 3 h.z_ne)

/-- Twice a point that is not its own opposite lies on the tangent. -/
theorem Finite.double {a : Projective} {x y : Element} (h : Finite a x y)
    (hy : y ≠ 0) :
    let slope := (3 * x ^ 2 - 3) / (2 * y)
    Finite a.double (slope ^ 2 - x - x)
      (slope * (x - (slope ^ 2 - x - x)) - y) := by
  intro slope
  have hcase : ¬ (decide (a.z = 0) || decide (a.y = 0)) = true := by
    simp [h.z_pos, h.y_eq_zero_iff, hy]
  unfold Projective.double
  rw [if_neg hcase]
  refine ⟨sub_lt _ _, mod_p_lt _, ?_, ?_, ?_⟩
  · rw [cast_mod]
    push_cast
    rw [h.y_eq]
    exact mul_ne_zero (mul_ne_zero two_ne_zero'
      (mul_ne_zero hy (pow_ne_zero 3 h.z_ne))) h.z_ne
  · simp only [cast_sub, cast_mod, Nat.cast_mul, Nat.cast_add, Nat.cast_ofNat,
      h.x_eq, h.y_eq]
    exact tangent_x x hy h.z_ne two_ne_zero'
  · simp only [cast_sub, cast_mod, Nat.cast_mul, Nat.cast_add, Nat.cast_ofNat,
      h.x_eq, h.y_eq]
    exact tangent_y x hy h.z_ne two_ne_zero'

/-- The four products that tell whether two points are the same. -/
theorem Finite.products {a c : Projective} {x₁ y₁ x₂ y₂ : Element}
    (ha : Finite a x₁ y₁) (hc : Finite c x₂ y₂) :
    (a.x * (c.z * c.z % p) % p = c.x * (a.z * a.z % p) % p ↔ x₁ = x₂)
      ∧ (a.y * (c.z * c.z % p) % p * c.z % p
          = c.y * (a.z * a.z % p) % p * a.z % p ↔ y₁ = y₂) := by
  have hza := ha.z_ne
  have hzc := hc.z_ne
  constructor
  · rw [← cast_inj (mod_p_lt _) (mod_p_lt _)]
    simp only [cast_mod, Nat.cast_mul, ha.x_eq, hc.x_eq]
    constructor
    · intro h
      refine mul_right_cancel₀
        (mul_ne_zero (pow_ne_zero 2 hza) (pow_ne_zero 2 hzc)) ?_
      linear_combination h
    · intro h
      rw [h]
      ring
  · rw [← cast_inj (mod_p_lt _) (mod_p_lt _)]
    simp only [cast_mod, Nat.cast_mul, ha.y_eq, hc.y_eq]
    constructor
    · intro h
      refine mul_right_cancel₀
        (mul_ne_zero (pow_ne_zero 3 hza) (pow_ne_zero 3 hzc)) ?_
      linear_combination h
    · intro h
      rw [h]
      ring

/-- The sum of two points with different first coordinates lies on the line
through them. -/
theorem Finite.add {a c : Projective} {x₁ y₁ x₂ y₂ : Element}
    (ha : Finite a x₁ y₁) (hc : Finite c x₂ y₂) (hx : x₁ ≠ x₂) :
    let slope := (y₁ - y₂) / (x₁ - x₂)
    Finite (a.add c) (slope ^ 2 - x₁ - x₂)
      (slope * (x₁ - (slope ^ 2 - x₁ - x₂)) - y₁) := by
  intro slope
  have hza := ha.z_ne
  have hzc := hc.z_ne
  have hdiff := (not_congr (ha.products hc).1).mpr hx
  unfold Projective.add
  simp only [if_neg ha.z_pos, if_neg hc.z_pos, if_neg hdiff]
  refine ⟨sub_lt _ _, mod_p_lt _, ?_, ?_, ?_⟩
  · simp only [cast_sub, cast_mod, Nat.cast_mul, ha.x_eq, hc.x_eq]
    refine mul_ne_zero (mul_ne_zero hza hzc) (sub_ne_zero.mpr fun h => hx ?_)
    refine mul_right_cancel₀
      (mul_ne_zero (pow_ne_zero 2 hza) (pow_ne_zero 2 hzc)) ?_
    linear_combination -h
  · simp only [cast_sub, cast_mod, Nat.cast_mul, Nat.cast_add, Nat.cast_ofNat,
      ha.x_eq, ha.y_eq, hc.x_eq, hc.y_eq]
    exact chord_x hx y₁ a.z y₂ c.z
  · simp only [cast_sub, cast_mod, Nat.cast_mul, Nat.cast_add, Nat.cast_ofNat,
      ha.x_eq, ha.y_eq, hc.x_eq, hc.y_eq]
    exact chord_y hx y₁ a.z y₂ c.z

-- ============================================================== the group

/-- What a projective point stands for. -/
def Stands (a : Projective) : curve.Point → Prop
  | .zero => a.z = 0
  | .some x y _ => Finite a x y

theorem stands_zero : Stands .zero (0 : curve.Point) := rfl

/-- A finite point stands for the point of the group with its
coordinates. -/
theorem Finite.stands {a : Projective} {x y x' y' : Element}
    (h : Finite a x y) (hx : x' = x) (hy : y' = y)
    (hpoint : curve.Nonsingular x' y') : Stands a (.some x' y' hpoint) := by
  subst hx hy
  exact h

/-- Doubling doubles. -/
theorem Stands.double {a : Projective} {P : curve.Point} (h : Stands a P) :
    Stands a.double (P + P) := by
  cases P with
  | zero =>
      have hz : a.z = 0 := h
      have hdouble : a.double = .zero := by simp [Projective.double, hz]
      rw [hdouble]
      exact stands_zero
  | some x y hpoint =>
      have hfinite : Finite a x y := h
      by_cases hy : y = 0
      · -- the point is its own opposite
        have hself : y = curve.negY x y := by rw [negY_eq, hy, neg_zero]
        have hdouble : a.double = .zero := by
          simp [Projective.double, hfinite.y_eq_zero_iff, hy]
        rw [hdouble, Affine.Point.add_self_of_Y_eq hself]
        exact stands_zero
      · have hother : y ≠ curve.negY x y := by
          rw [negY_eq]
          intro h
          refine mul_ne_zero two_ne_zero' hy ?_
          linear_combination h
        have hslope : curve.slope x x y y = (3 * x ^ 2 - 3) / (2 * y) := by
          rw [Affine.slope_of_Y_ne rfl hother, negY_eq]
          simp only [curve]
          ring
        rw [Affine.Point.add_self_of_Y_ne hother]
        refine (hfinite.double hy).stands ?_ ?_ _
        · rw [hslope, addX_eq]
        · rw [hslope, addY_eq]

/-- Adding adds. -/
theorem Stands.add {a c : Projective} {P Q : curve.Point} (ha : Stands a P)
    (hc : Stands c Q) : Stands (a.add c) (P + Q) := by
  cases P with
  | zero =>
      have hz : a.z = 0 := ha
      have hadd : a.add c = c := by simp [Projective.add, hz]
      rw [hadd]
      exact hc
  | some x₁ y₁ hpoint₁ =>
      have hfinite₁ : Finite a x₁ y₁ := ha
      cases Q with
      | zero =>
          have hz : c.z = 0 := hc
          have hadd : a.add c = a := by
            simp [Projective.add, hfinite₁.z_pos, hz]
          rw [hadd]
          exact ha
      | some x₂ y₂ hpoint₂ =>
          have hfinite₂ : Finite c x₂ y₂ := hc
          have hproducts := hfinite₁.products hfinite₂
          by_cases hx : x₁ = x₂
          · have hadd : a.add c = if y₁ = y₂ then a.double else .zero := by
              unfold Projective.add
              simp only [if_neg hfinite₁.z_pos, if_neg hfinite₂.z_pos,
                if_pos (hproducts.1.mpr hx), hproducts.2]
            rw [hadd]
            -- one and the same point is doubled
            by_cases hy : y₁ = y₂
            · subst hx hy
              rw [if_pos rfl]
              exact ha.double
            · -- on one vertical line, but not the same
              have hneg := (Affine.Y_eq_of_X_eq hpoint₁.1 hpoint₂.1 hx).resolve_left hy
              rw [if_neg hy, Affine.Point.add_of_Y_eq hx hneg]
              exact stands_zero
          · have hslope : curve.slope x₁ x₂ y₁ y₂ = (y₁ - y₂) / (x₁ - x₂) :=
              Affine.slope_of_X_ne hx
            rw [Affine.Point.add_of_X_ne hx]
            refine (hfinite₁.add hfinite₂ hx).stands ?_ ?_ _
            · rw [hslope, addX_eq]
            · rw [hslope, addY_eq]

/-- A walk through digits is a multiple. -/
theorem Stands.multiple {base : Projective} {P : curve.Point}
    (h : Stands base P) (digits : List Bool) :
    Stands (multiplyBits base digits) (valueFrom 0 digits • P) := by
  refine foldl_digits (fun sum v => Stands sum (v • P)) ?_ digits ?_
  · intro sum v digit hsum
    have hdouble : Stands sum.double ((2 * v) • P) := by
      rw [mul_nsmul', two_nsmul]
      exact hsum.double
    cases digit with
    | false => exact hdouble
    | true =>
        show Stands (sum.double.add base) ((2 * v + 1) • P)
        rw [add_nsmul, one_nsmul]
        exact hdouble.add h
  · rw [zero_nsmul]
    exact stands_zero

end SmartCard.P256
