import Mathlib

/-! The values of single-precision words, and operations that round them. -/

namespace Binary32

/-- The low 23 bits. -/
def mantissa (w : BitVec 32) : ℕ := w.toNat % 2 ^ 23

/-- The biased exponent, the next 8 bits. -/
def exponent (w : BitVec 32) : ℕ := w.toNat / 2 ^ 23 % 2 ^ 8

/-- The value of a word that is finite. -/
def value (w : BitVec 32) : ℚ :=
  let magnitude : ℚ :=
    if exponent w = 0 then
      mantissa w * 2 ^ (-149 : ℤ)
    else
      (2 ^ 23 + mantissa w) * 2 ^ ((exponent w : ℤ) - 150)
  if w.msb then -magnitude else magnitude

/-- A positive word that is neither subnormal nor infinite. -/
structure PositiveNormal (w : BitVec 32) : Prop where
  sign : w.msb = false
  lower : 0 < exponent w
  upper : exponent w < 255

/-- Rounding to nearest, of a result that neither overflows nor underflows. -/
structure Rounding (fl : ℚ → ℚ) : Prop where
  relative : ∀ x, 2 ^ (-126 : ℤ) ≤ |x| → |x| < 2 ^ (127 : ℤ) → |fl x - x| ≤ 2 ^ (-24 : ℤ) * |x|
  neg : ∀ x, fl (-x) = -fl x

/-- The integer that is nearest, of two the even one. -/
def roundHalfEven (t : ℚ) : ℤ :=
  if 2 * Int.fract t < 1 ∨ 2 * Int.fract t = 1 ∧ Even ⌊t⌋ then ⌊t⌋ else ⌊t⌋ + 1

theorem abs_roundHalfEven_sub_le (t : ℚ) : |(roundHalfEven t : ℚ) - t| ≤ 1 / 2 := by
  have nonneg := Int.fract_nonneg t
  have below := Int.fract_lt_one t
  have split := Int.floor_add_fract t
  rw [roundHalfEven, abs_le]
  split_ifs with down
  · have half : 2 * Int.fract t ≤ 1 := by
      rcases down with less | ⟨tie, -⟩
      · exact less.le
      · exact tie.le
    constructor <;> linarith
  · have half : 1 ≤ 2 * Int.fract t := not_lt.mp fun less => down (Or.inl less)
    push_cast
    constructor <;> linarith

/-- A number that is not negative, rounded to 24 significant bits. -/
def nearestMagnitude (a : ℚ) : ℚ :=
  roundHalfEven (a / 2 ^ (Int.log 2 a - 23)) * 2 ^ (Int.log 2 a - 23)

/-- Rounding to nearest on 24 significant bits, without a bound on the exponent. -/
def nearest (x : ℚ) : ℚ :=
  if x < 0 then -nearestMagnitude (-x) else nearestMagnitude x

theorem nearestMagnitude_error {a : ℚ} (positive : 0 < a)
    : |nearestMagnitude a - a| ≤ 2 ^ (-24 : ℤ) * a := by
  have unit : (0 : ℚ) < 2 ^ (Int.log 2 a - 23) := zpow_pos two_pos _
  have leading : (2 : ℚ) ^ Int.log 2 a ≤ a := by
    exact_mod_cast Int.zpow_log_le_self one_lt_two positive
  have half : (1 / 2 : ℚ) * 2 ^ (Int.log 2 a - 23) = 2 ^ (-24 : ℤ) * 2 ^ Int.log 2 a := by
    rw [zpow_sub₀ two_ne_zero]
    norm_num
    ring
  have scaled : nearestMagnitude a - a
      = (roundHalfEven (a / 2 ^ (Int.log 2 a - 23)) - a / 2 ^ (Int.log 2 a - 23))
        * 2 ^ (Int.log 2 a - 23) := by
    rw [nearestMagnitude, sub_mul, div_mul_cancel₀ _ unit.ne']
  rw [scaled, abs_mul, abs_of_pos unit]
  calc |(roundHalfEven (a / 2 ^ (Int.log 2 a - 23)) : ℚ) - a / 2 ^ (Int.log 2 a - 23)|
        * 2 ^ (Int.log 2 a - 23)
      ≤ 1 / 2 * 2 ^ (Int.log 2 a - 23) :=
        mul_le_mul_of_nonneg_right (abs_roundHalfEven_sub_le _) unit.le
    _ = 2 ^ (-24 : ℤ) * 2 ^ Int.log 2 a := half
    _ ≤ 2 ^ (-24 : ℤ) * a := mul_le_mul_of_nonneg_left leading (zpow_pos two_pos _).le

theorem rounding_nearest : Rounding nearest where
  neg x := by
    rcases lt_trichotomy x 0 with negative | rfl | positive
    · rw [nearest, nearest, if_neg (not_lt.mpr (neg_nonneg.mpr negative.le)), if_pos negative,
        neg_neg]
    · simp [nearest, nearestMagnitude, roundHalfEven]
    · rw [nearest, nearest, if_pos (neg_neg_iff_pos.mpr positive), if_neg (not_lt.mpr positive.le),
        neg_neg]
  relative x lower _ := by
    have nonzero : x ≠ 0 := abs_pos.mp ((zpow_pos two_pos _).trans_le lower)
    rcases lt_or_gt_of_ne nonzero with negative | positive
    · have error := nearestMagnitude_error (neg_pos.mpr negative)
      rw [nearest, if_pos negative, abs_of_neg negative, ← abs_neg, neg_sub, sub_neg_eq_add, add_comm]
      rwa [sub_neg_eq_add] at error
    · have error := nearestMagnitude_error positive
      rw [nearest, if_neg (not_lt.mpr positive.le), abs_of_pos positive]
      exact error

/-- The value of a word that is put together from its parts. -/
theorem value_of_toNat {w : BitVec 32} {e m : ℕ} (parts : w.toNat = e * 2 ^ 23 + m)
    (fraction : m < 2 ^ 23) (positive : 0 < e) (finite : e < 2 ^ 8)
    : value w = (2 ^ 23 + m) * 2 ^ ((e : ℤ) - 150) := by
  have low : mantissa w = m := by
    rw [mantissa, parts]
    omega
  have high : exponent w = e := by
    rw [exponent, parts]
    omega
  have sign : w.msb = false := by
    rw [BitVec.msb_eq_false_iff_two_mul_lt, parts]
    omega
  rw [value]
  simp only [low, high, sign, positive.ne', ↓reduceIte, Bool.false_eq_true]

theorem PositiveNormal.toNat_eq {w : BitVec 32} (normal : PositiveNormal w)
    : w.toNat = exponent w * 2 ^ 23 + mantissa w := by
  have small := BitVec.msb_eq_false_iff_two_mul_lt.mp normal.sign
  rw [exponent, mantissa]
  omega

-----------------------------------------------------------------------------------------
-- Relative errors

/-- `y` misses `x` by the relative error `e` at most. -/
def Within (e x y : ℚ) : Prop := |y - x| ≤ e * x

section Within

variable {e e' x y z : ℚ}

theorem Within.lower (within : Within e x y) : (1 - e) * x ≤ y := by
  have bound := (abs_le.mp within).1
  linarith

theorem Within.upper (within : Within e x y) : y ≤ (1 + e) * x := by
  have bound := (abs_le.mp within).2
  linarith

theorem Within.mul_right (within : Within e x y) (nonneg : 0 ≤ z) : Within e (x * z) (y * z) := by
  rw [Within, ← sub_mul, abs_mul, abs_of_nonneg nonneg, ← mul_assoc]
  exact mul_le_mul_of_nonneg_right within nonneg

theorem Within.mono (within : Within e x y) (more : e ≤ e') (nonneg : 0 ≤ x) : Within e' x y :=
  le_trans within (mul_le_mul_of_nonneg_right more nonneg)

/-- Errors of operations that follow each other. -/
theorem Within.trans (first : Within e x y) (second : Within e' y z) (nonneg : 0 ≤ e')
    : Within (e + e' + e * e') x z := by
  have bound := mul_le_mul_of_nonneg_left first.upper nonneg
  calc |z - x| ≤ |z - y| + |y - x| := abs_sub_le z y x
    _ ≤ e' * y + e * x := add_le_add second first
    _ ≤ e' * ((1 + e) * x) + e * x := add_le_add_left bound _
    _ = (e + e' + e * e') * x := by ring

theorem Within.add {x' y' : ℚ} (first : Within e x y) (second : Within e x' y')
    : Within e (x + x') (y + y') := by
  calc |y + y' - (x + x')| = |(y - x) + (y' - x')| := by rw [add_sub_add_comm]
    _ ≤ |y - x| + |y' - x'| := abs_add_le _ _
    _ ≤ e * x + e * x' := add_le_add first second
    _ = e * (x + x') := (mul_add e x x').symm

/-- The error of a quotient. -/
theorem Within.div {x' y' : ℚ} (first : Within e x y) (second : Within e x' y') (nonneg : 0 ≤ x)
    (positive : 0 < x') (small : e < 1)
    : Within (2 * e / (1 - e)) (x / x') (y / y') := by
  have rest : 0 < 1 - e := sub_pos.mpr small
  have lower := second.lower
  have divisor : 0 < y' := (mul_pos rest positive).trans_le lower
  have scale : 0 ≤ e := by
    by_contra negative
    exact absurd ((abs_nonneg _).trans second) (not_le.mpr (mul_neg_of_neg_of_pos
      (not_le.mp negative) positive))
  have cross : |y * x' - x * y'| ≤ 2 * e * (x * x') := by
    calc |y * x' - x * y'| = |(y - x) * x' - x * (y' - x')| := by ring_nf
      _ ≤ |(y - x) * x'| + |x * (y' - x')| := abs_sub _ _
      _ = |y - x| * x' + x * |y' - x'| := by
          rw [abs_mul, abs_mul, abs_of_pos positive, abs_of_nonneg nonneg]
      _ ≤ e * x * x' + x * (e * x') :=
          add_le_add (mul_le_mul_of_nonneg_right first positive.le)
            (mul_le_mul_of_nonneg_left second nonneg)
      _ = 2 * e * (x * x') := by ring
  rw [Within, div_sub_div _ _ divisor.ne' positive.ne', abs_div, mul_comm y' x,
    abs_of_pos (mul_pos divisor positive), div_le_iff₀ (mul_pos divisor positive)]
  refine cross.trans ?_
  have share : 0 ≤ 2 * e / (1 - e) * (x / x') :=
    mul_nonneg (div_nonneg (mul_nonneg zero_le_two scale) rest.le) (div_nonneg nonneg positive.le)
  have enough := mul_le_mul_of_nonneg_left
    (mul_le_mul_of_nonneg_right lower positive.le) share
  refine le_trans (le_of_eq ?_) enough
  field_simp

/-- An operation that rounds, on a positive result in the range. -/
theorem Rounding.within {fl : ℚ → ℚ} (rounding : Rounding fl) (lower : 2 ^ (-126 : ℤ) ≤ x)
    (upper : x < 2 ^ (127 : ℤ))
    : Within (2 ^ (-24 : ℤ)) x (fl x) := by
  have positive : 0 < x := (zpow_pos two_pos _).trans_le lower
  have bound := rounding.relative x (by rwa [abs_of_pos positive]) (by rwa [abs_of_pos positive])
  rwa [abs_of_pos positive] at bound

theorem Rounding.mul_sign {fl : ℚ → ℚ} (rounding : Rounding fl) {s : ℤ} (sign : s = 1 ∨ s = -1)
    (x : ℚ)
    : fl (s * x) = s * fl x := by
  rcases sign with rfl | rfl
  · rw [Int.cast_one, one_mul, one_mul]
  · rw [Int.cast_neg, Int.cast_one, neg_one_mul, neg_one_mul, rounding.neg]

theorem Rounding.zero {fl : ℚ → ℚ} (rounding : Rounding fl) : fl 0 = 0 := by
  have odd := rounding.neg 0
  rw [neg_zero] at odd
  linarith

/-- Zero, or far from both ends of the range. -/
def Moderate (x : ℚ) : Prop := x = 0 ∨ 1 / 10 ^ 12 ≤ x ∧ x ≤ 10 ^ 12

theorem Moderate.nonneg (moderate : Moderate x) : 0 ≤ x := by
  rcases moderate with rfl | ⟨lower, -⟩
  · exact le_rfl
  · exact le_trans (by norm_num) lower

theorem moderate_natCast {n : ℕ} (small : n ≤ 10 ^ 12) : Moderate n := by
  rcases Nat.eq_zero_or_pos n with rfl | positive
  · exact Or.inl Nat.cast_zero
  · refine Or.inr ⟨le_trans (by norm_num) (Nat.one_le_cast.mpr positive), ?_⟩
    exact_mod_cast small

/-- An operation whose operands miss theirs already. -/
theorem Rounding.within_of_within {fl : ℚ → ℚ} (rounding : Rounding fl) (near : Within e x y)
    (half : e ≤ 1 / 2) (moderate : Moderate x)
    : Within (e + 2 ^ (-24 : ℤ) + e * 2 ^ (-24 : ℤ)) x (fl y) := by
  refine near.trans ?_ (by positivity)
  rcases moderate with rfl | ⟨lower, upper⟩
  · have zero : y = 0 := by
      rw [Within, sub_zero, mul_zero] at near
      exact abs_eq_zero.mp (le_antisymm near (abs_nonneg y))
    rw [zero, Within, rounding.zero, sub_zero, mul_zero, abs_zero]
  · have positive : 0 < x := lt_of_lt_of_le (by norm_num) lower
    have atLeast : 1 / 2 * x ≤ y :=
      (mul_le_mul_of_nonneg_right (by linarith) positive.le).trans near.lower
    have atMost : y ≤ 3 / 2 * x :=
      near.upper.trans (mul_le_mul_of_nonneg_right (by linarith) positive.le)
    have tiny : (2 : ℚ) ^ (-126 : ℤ) ≤ 1 / 2 * (1 / 10 ^ 12) := by norm_num
    have huge : 3 / 2 * 10 ^ 12 < (2 : ℚ) ^ (127 : ℤ) := by norm_num
    exact rounding.within
      (tiny.trans ((mul_le_mul_of_nonneg_left lower (by norm_num)).trans atLeast))
      ((atMost.trans (mul_le_mul_of_nonneg_left upper (by norm_num))).trans_lt huge)

/-- An operation on exact operands. -/
theorem Rounding.within_exact {fl : ℚ → ℚ} (rounding : Rounding fl) (moderate : Moderate x)
    : Within (2 ^ (-24 : ℤ)) x (fl x) := by
  have exact : Within 0 x x := by rw [Within, sub_self, abs_zero, zero_mul]
  simpa using rounding.within_of_within exact (by norm_num) moderate

end Within

end Binary32
