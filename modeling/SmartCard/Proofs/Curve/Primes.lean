/-
The field of the curve has prime order, and so has its group of points.

# Powers and digits

Powers in the field and multiples of points go through the binary digits of
a number, most significant first, doubling once for each digit. What that
computes is said once, of any such walk (`foldl_digits`): what holds of zero
and is kept by each doubling holds of the number at the end.

# Certificates

A number is prime if some root has, modulo the number, exactly the order
that the number less one says (`lucas_primality`). To check that, one has
to know the primes of the number less one, which have certificates in turn.
`certificates` is a list of such, each resting on the ones before it; small
primes are known by division.
-/
import Mathlib.NumberTheory.LucasPrimality
import Mathlib.Tactic.NormNum.Prime
import SmartCard.Crypto.P256

namespace SmartCard.P256

-- ================================================================= digits

/-- The lowest binary digits of a number, most significant first. -/
def lowBits (width n : Nat) : List Bool :=
  (List.range width).map fun i => n.testBit (width - 1 - i)

/-- The number whose binary digits are those of `v` and then these. -/
def valueFrom (v : Nat) (digits : List Bool) : Nat :=
  digits.foldl (fun v digit => 2 * v + digit.toNat) v

/-- One more digit comes in front. -/
theorem lowBits_succ (width n : Nat) :
    lowBits (width + 1) n = n.testBit width :: lowBits width n := by
  unfold lowBits
  rw [List.range_succ_eq_map, List.map_cons, List.map_map]
  refine congrArg₂ List.cons rfl (List.map_congr_left fun i _ => ?_)
  show n.testBit (width + 1 - 1 - (i + 1)) = n.testBit (width - 1 - i)
  congr 1
  omega

/-- Digits behind a number make it so many times larger, and add what they
stand for. -/
theorem valueFrom_lowBits (width n v : Nat) :
    valueFrom v (lowBits width n) = v * 2 ^ width + n % 2 ^ width := by
  induction width generalizing v with
  | zero => simp [lowBits, valueFrom, Nat.mod_one]
  | succ width ih =>
      have ih := ih (2 * v + (n.testBit width).toNat)
      unfold valueFrom at ih ⊢
      rw [lowBits_succ, List.foldl_cons, ih, Nat.toNat_testBit,
        Nat.mod_pow_succ, pow_succ]
      ring

/-- A number is found again from enough of its digits. -/
theorem value_lowBits {width n : Nat} (h : n < 2 ^ width) :
    valueFrom 0 (lowBits width n) = n := by
  rw [valueFrom_lowBits, Nat.zero_mul, Nat.zero_add, Nat.mod_eq_of_lt h]

/-- A walk through digits keeps what each step keeps while the number goes
from `v` to twice `v` and the digit. -/
theorem foldl_digits {σ : Type} {step : σ → Bool → σ}
    (Stands : σ → Nat → Prop)
    (hstep : ∀ s v digit, Stands s v →
      Stands (step s digit) (2 * v + digit.toNat)) (digits : List Bool)
    {s : σ} {v : Nat} (h : Stands s v) :
    Stands (digits.foldl step s) (valueFrom v digits) := by
  induction digits generalizing s v with
  | nil => exact h
  | cons digit digits ih => exact ih (hstep s v digit h)

-- ================================================================= powers

/-- Powers modulo `m`, by the digits of the exponent. -/
def powerAlong (m a : Nat) (digits : List Bool) : Nat :=
  digits.foldl (fun r digit =>
    if digit then r * r % m * a % m else r * r % m) 1

/-- Each digit squares, and multiplies where it is one: the invariant is the
power so far. -/
theorem powerAlong_cast (m a : Nat) (digits : List Bool) :
    (powerAlong m a digits : ZMod m) = (a : ZMod m) ^ valueFrom 0 digits := by
  refine foldl_digits (fun r v => ((r : Nat) : ZMod m) = (a : ZMod m) ^ v)
    ?_ digits (by simp)
  intro r v digit h
  cases digit with
  | false =>
      show ((r * r % m : Nat) : ZMod m) = (a : ZMod m) ^ (2 * v + 0)
      rw [ZMod.natCast_mod, Nat.cast_mul, h]
      ring
  | true =>
      show ((r * r % m * a % m : Nat) : ZMod m) = (a : ZMod m) ^ (2 * v + 1)
      rw [ZMod.natCast_mod, Nat.cast_mul, ZMod.natCast_mod, Nat.cast_mul, h]
      ring

/-- Powers modulo `m`. -/
def powerMod (m a n : Nat) : Nat :=
  powerAlong m a (lowBits (n.log2 + 1) n)

/-- What is computed modulo `m` is the power. -/
theorem powerMod_cast (m a n : Nat) :
    (powerMod m a n : ZMod m) = (a : ZMod m) ^ n := by
  unfold powerMod
  rw [powerAlong_cast, value_lowBits Nat.lt_log2_self]

-- =========================================================== certificates

/-- A number, a root of one modulo that number, and the primes, as often as
they occur, in the number less one. -/
structure Certificate where
  number : Nat
  root : Nat
  factors : List Nat

/-- The root has the order it should have, and the factors are known. -/
def Certificate.holds (known : List Nat) (c : Certificate) : Bool :=
  c.factors.all (fun q => decide (q ∈ known))
    && c.factors.prod == c.number - 1
    && powerMod c.number c.root (c.number - 1) % c.number == 1 % c.number
    && c.factors.all fun q =>
      powerMod c.number c.root ((c.number - 1) / q) % c.number
        != 1 % c.number

/-- Each certificate holds by the ones before it. -/
def chained : List Nat → List Certificate → Bool
  | _, [] => true
  | known, c :: rest => c.holds known && chained (c.number :: known) rest

/-- A certificate compares numbers; this is what it says of powers. -/
theorem powerMod_eq_one_iff (m a n : Nat) :
    powerMod m a n % m = 1 % m ↔ (a : ZMod m) ^ n = 1 := by
  rw [← powerMod_cast, ← ZMod.natCast_eq_natCast_iff', Nat.cast_one]

/-- A number is prime if its certificate holds by known primes, since then
the root has an order that only a prime allows. -/
theorem Certificate.prime {known : List Nat} {c : Certificate}
    (hknown : ∀ q ∈ known, q.Prime) (h : c.holds known = true) :
    c.number.Prime := by
  simp only [holds, Bool.and_eq_true, List.all_eq_true, decide_eq_true_eq,
    beq_iff_eq, bne_iff_ne] at h
  obtain ⟨⟨⟨hfactors, hprod⟩, hone⟩, hother⟩ := h
  refine lucas_primality c.number c.root
    ((powerMod_eq_one_iff _ _ _).mp hone) ?_
  intro q hq hdvd hpower
  rw [← hprod] at hdvd
  -- a prime of the number less one is one of the factors
  obtain ⟨f, hf, hqf⟩ := (Prime.dvd_prod_iff hq.prime).mp hdvd
  have hsame := (Nat.prime_dvd_prime_iff_eq hq (hknown f (hfactors f hf))).mp hqf
  rw [hsame] at hpower
  exact hother f hf ((powerMod_eq_one_iff _ _ _).mpr hpower)

/-- So each number of a chain of certificates is prime, by those before
it. -/
theorem chained_prime {known : List Nat} {certificates : List Certificate}
    (hknown : ∀ q ∈ known, q.Prime)
    (h : chained known certificates = true) :
    ∀ n ∈ certificates.map Certificate.number, n.Prime := by
  induction certificates generalizing known with
  | nil =>
      intro n hn
      cases hn
  | cons first rest ih =>
      rw [chained, Bool.and_eq_true] at h
      have hfirst := first.prime hknown h.1
      exact List.forall_mem_cons.mpr
        ⟨hfirst, ih (List.forall_mem_cons.mpr ⟨hfirst, hknown⟩) h.2⟩

/-- Primes that are found by division. -/
def smallPrimes : List Nat :=
  [2, 3, 5, 7, 11, 17, 23, 29, 41, 43, 53, 71, 107, 127, 131, 173, 197, 257,
    311, 373, 641, 1297, 1531, 2411, 3023, 3407, 3677, 3769, 16879, 17449,
    18169, 38189, 65537, 78283, 126241, 155317, 490463, 704251, 3969899,
    6700417, 9350987]

/-- The chain starts from primes that are small enough to try. -/
theorem smallPrimes_prime : ∀ q ∈ smallPrimes, q.Prime := by
  unfold smallPrimes
  simp only [List.forall_mem_cons]
  norm_num

/-- The way up to the order of the field, and to that of the group. -/
def certificates : List Certificate := [
  ⟨204061199, 11, [2, 11, 23, 107, 3769]⟩,
  ⟨34282281433, 17, [2, 2, 2, 3, 7, 204061199]⟩,
  ⟨66417393611, 6, [2, 5, 53, 173, 197, 3677]⟩,
  ⟨11290956913871, 13, [2, 5, 17, 66417393611]⟩,
  ⟨46076956964474543, 5, [2, 23, 18169, 78283, 704251]⟩,
  ⟨774023187263532362759620327192479577272145303, 3,
    [2, 3, 3, 2411, 34282281433, 11290956913871, 46076956964474543]⟩,
  ⟨835945042244614951780389953367877943453916927241, 11,
    [2, 2, 2, 3, 3, 3, 5, 774023187263532362759620327192479577272145303]⟩,
  ⟨p, 6,
    [2, 3, 5, 5, 17, 257, 641, 1531, 65537, 490463, 6700417,
      835945042244614951780389953367877943453916927241]⟩,
  ⟨187019741, 2, [2, 2, 5, 9350987]⟩,
  ⟨311245691, 2, [2, 5, 7, 17, 29, 29, 311]⟩,
  ⟨622491383, 5, [2, 311245691]⟩,
  ⟨1002328039319, 19, [2, 126241, 3969899]⟩,
  ⟨191039911, 3, [2, 3, 5, 41, 155317]⟩,
  ⟨208150935158385979, 2, [2, 3, 11, 43, 127, 3023, 191039911]⟩,
  ⟨2624747550333869278416773953, 7,
    [2, 2, 2, 2, 2, 2, 3, 3, 1297, 16879, 208150935158385979]⟩,
  ⟨order, 7,
    [2, 2, 2, 2, 3, 71, 131, 373, 3407, 17449, 38189, 187019741, 622491383,
      1002328039319, 2624747550333869278416773953]⟩]

/-- The certificates are checked by evaluation, once. -/
theorem certificates_prime :
    ∀ n ∈ certificates.map Certificate.number, n.Prime :=
  chained_prime smallPrimes_prime (by decide +kernel)

/-- The field is one. -/
theorem p_prime : p.Prime :=
  certificates_prime p (by simp [certificates])

/-- There is a prime number of points. -/
theorem order_prime : order.Prime :=
  certificates_prime order (by simp [certificates])

end SmartCard.P256
